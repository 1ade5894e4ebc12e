import ClosureTypes.Proofs.Walk

/-!
# How walks end

An ending says of a walk what it ends in, and what has been done by then. Endings are put together
as walks are: `EndsAfter` goes on after a walk, and `EndsAfterAll` after the walks for the items of
a list, each begun where the one before it ended. The first fault on the way is the end.

1. `Walk.endsAfter_bind`: a walk in two parts ends after the first as the second does.
2. `Walk.endsAfterAll_mapM_bind`: likewise for a walk along a list.
-/

namespace ClosureTypes.Walk

variable {α β ι : Type}

/-- What is said of the end of a walk: of its result or fault, and of what has been done. -/
abbrev Ending (α : Type) := Except GraphFault α → Progress → Prop

/-- The walk, begun at `p`, ends so. -/
def Ends (x : Walk α) (p : Progress) (ending : Ending α) : Prop := ending (x.outcome p) (x.after p)

/-- The end is that of `x`, begun at `p`, if `x` ends in a fault, and else as `next` says. -/
inductive EndsAfter (x : Walk α) (p : Progress) (next : α → Progress → Ending β) : Ending β
  | stopped {e : GraphFault} : x.outcome p = .error e → EndsAfter x p next (.error e) (x.after p)
  | through {a : α} {result : Except GraphFault β} {q : Progress} : x.outcome p = .ok a →
      next a (x.after p) result q → EndsAfter x p next result q

/-- The walks for the items of a list, each begun where the one before it ended, have these results.
The first begins at the former progress, the last ends at the latter. -/
inductive InTurn (f : ι → Walk α) : List ι → Progress → List α → Progress → Prop
  | nil (p : Progress) : InTurn f [] p [] p
  | cons {i : ι} {rest : List ι} {p q : Progress} {a : α} {as : List α} : (f i).outcome p = .ok a →
      InTurn f rest ((f i).after p) as q → InTurn f (i :: rest) p (a :: as) q

/-- The end is that of the first item's walk that ends in a fault, where the walks for the items are
begun at `p` and in turn, or as `next` says, if there is no such item. -/
inductive EndsAfterAll (f : ι → Walk α) (l : List ι) (p : Progress)
    (next : List α → Progress → Ending β) : Ending β
  | stopped {before later : List ι} {i : ι} {as : List α} {q : Progress} {e : GraphFault} :
      l = before ++ i :: later → InTurn f before p as q → (f i).outcome q = .error e →
      EndsAfterAll f l p next (.error e) ((f i).after q)
  | through {as : List α} {q last : Progress} {result : Except GraphFault β} : InTurn f l p as q →
      next as q result last → EndsAfterAll f l p next result last

/-- The end is an expression that is written as `text`, and what has been done by then is `q`. -/
def Writes (text : String) (q : Progress) : Ending TypeExpr := fun result last =>
  (∃ e, result = .ok e ∧ e.render = text) ∧ last = q

theorem pure_writes (e : TypeExpr) (q : Progress) :
    (pure e : Walk TypeExpr).Ends q (Writes e.render q) :=
  ⟨⟨e, rfl, rfl⟩, rfl⟩

theorem degrade_writes (message : String) (q : Progress) :
    (degrade message).Ends q
      (Writes TypeExpr.unknownText { q with log := q.log.report message }) :=
  ⟨⟨_, rfl, rfl⟩, rfl⟩

/-- A literal that has not been visited is marked, and then the walk goes on. -/
theorem enter_bind_ends {f : Bool → Walk α} {t : TypeId} {p : Progress} {ending : Ending α}
    (ht : t ∉ p.visited) (h : (f true).Ends { p with visited := p.visited.add t ht } ending) :
    (enter t >>= f).Ends p ending := by
  have hnew : (enter t).outcome p = .ok true := by rw [outcome_enter, decide_eq_true ht]
  unfold Ends
  rwa [outcome_bind_of_ok hnew, after_bind_of_ok hnew, after_enter_of_not_mem ht]

theorem EndsAfter.exists_of_ok {x : Walk α} {p last : Progress} {next : α → Progress → Ending β}
    {b : β} (h : EndsAfter x p next (.ok b) last) :
    ∃ a, x.outcome p = .ok a ∧ next a (x.after p) (.ok b) last := by
  cases h with
  | through hx hnext => exact ⟨_, hx, hnext⟩

theorem EndsAfterAll.exists_of_ok {f : ι → Walk α} {l : List ι} {p last : Progress}
    {next : List α → Progress → Ending β} {b : β} (h : EndsAfterAll f l p next (.ok b) last) :
    ∃ as q, InTurn f l p as q ∧ next as q (.ok b) last := by
  cases h with
  | through hl hnext => exact ⟨_, _, hl, hnext⟩

/-- Where there is a result, no fault was on the way. -/
theorem Ends.exists_of_ok {f : ι → Walk α} {l : List ι} {x : Walk β} {b : β} {p q : Progress}
    {next : List α → Progress → Ending β} (h : x.Ends p (EndsAfterAll f l q next))
    (hb : x.outcome p = .ok b) :
    ∃ as r, InTurn f l q as r ∧ next as r (.ok b) (x.after p) := by
  unfold Ends at h
  rw [hb] at h
  exact h.exists_of_ok

/-- A walk in two parts ends after the first part as the second does. -/
theorem endsAfter_bind {x : Walk α} {f : α → Walk β} {p : Progress}
    {next : α → Progress → Ending β} (h : ∀ a q, (f a).Ends q (next a q)) :
    (x >>= f).Ends p (EndsAfter x p next) := by
  unfold Ends
  cases hx : x.outcome p with
  | error e =>
    rw [outcome_bind_of_error hx, after_bind_of_error hx]
    exact .stopped hx
  | ok a =>
    rw [outcome_bind_of_ok hx, after_bind_of_ok hx]
    exact .through hx (h a _)

/-- **Lists.** What follows a walk along a list begins where the walk for the last item ended. -/
theorem endsAfterAll_mapM_bind {f : ι → Walk α} {l : List ι} {rest : List α → Walk β} {p : Progress}
    {next : List α → Progress → Ending β}
    (h : ∀ as q, as.length = l.length → (rest as).Ends q (next as q)) :
    (l.mapM f >>= rest).Ends p (EndsAfterAll f l p next) := by
  unfold Ends
  induction l generalizing p rest next with
  | nil =>
    rw [List.mapM_nil, pure_bind]
    exact .through (.nil p) (h [] p rfl)
  | cons i l ih =>
    simp only [List.mapM_cons, bind_assoc, pure_bind]
    cases hi : (f i).outcome p with
    | error e =>
      have hl : i :: l = [] ++ i :: l := rfl
      rw [outcome_bind_of_error hi, after_bind_of_error hi]
      exact .stopped hl (.nil p) hi
    | ok a =>
      rw [outcome_bind_of_ok hi, after_bind_of_ok hi]
      have htail := @ih (fun as => rest (a :: as)) ((f i).after p) (fun as => next (a :: as))
        fun as q has => h (a :: as) q (by rw [List.length_cons, has, List.length_cons])
      generalize (l.mapM f >>= fun as => rest (a :: as)).outcome ((f i).after p) = result at htail ⊢
      generalize (l.mapM f >>= fun as => rest (a :: as)).after ((f i).after p) = last at htail ⊢
      cases htail with
      | @stopped before later j as q e hl hbefore he =>
        have hl' : i :: l = (i :: before) ++ j :: later := by rw [hl, List.cons_append]
        exact .stopped hl' (.cons hi hbefore) he
      | through hl hrest => exact .through (.cons hi hl) hrest

end ClosureTypes.Walk
