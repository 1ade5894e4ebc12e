import ClosureTypes.Proofs.Course
import ClosureTypes.Proofs.Layouts

/-!
# The limit on the nesting

The limit cuts what would be nested too deep, and says so in a message. Where it does not say so it
has done nothing: with more levels, or without a limit, a walk is the same.

1. `annotateWithin_quiet`: a type from which no path is longer than there are levels stays clear of
   the limit.
2. `annotateWithin_eq_of_silent`: a walk that stays clear of the limit does not hang on what lies
   below its levels.
3. `limit_inert`: both, for the limit that annotations have.
-/

namespace ClosureTypes

open Annotate

/-! ## Messages of the limit -/

/-- The words that the messages of the limit start with. -/
def limitWords : String := "type nesting exceeds"

/-- The message says that the limit on the nesting has been hit. -/
def IsLimitText (message : String) : Prop := limitWords.toList <+: message.toList

instance (message : String) : Decidable (IsLimitText message) :=
  inferInstanceAs (Decidable (limitWords.toList <+: message.toList))

/-- No message of a level could be taken for one of the limit. -/
theorem not_isLimitText {message : String} (h : IsNote message) : ¬ IsLimitText message := by
  have hapart : ∀ start ∈ noteWords,
      ¬ limitWords.toList <+: start.toList ∧ ¬ start.toList <+: limitWords.toList := by decide
  obtain ⟨start, hstart, hnote⟩ := h
  intro hlimit
  obtain ⟨hno, hno'⟩ := hapart start hstart
  exact (List.prefix_or_prefix_of_prefix hlimit hnote).elim hno hno'

/-- With no level left, a walk says that the limit has been hit. -/
theorem isLimitText_of_annotateWithin_zero (g : TypeGraph) (scope : Scope) (t : TypeId)
    (p : Progress) : ∃ message ∈ (annotateWithin g scope 0 t).reports p, IsLimitText message := by
  have hwords : limitWords.toList <+: "type nesting exceeds ".toList := by decide
  refine ⟨_, by rw [annotateWithin_zero, Walk.reports_degrade]; exact List.mem_singleton_self _, ?_⟩
  rw [IsLimitText, String.append_assoc, String.append_assoc, String.toList_append]
  exact hwords.trans (List.prefix_append _ _)

/-! ## Staying clear of the limit -/

namespace Walk

variable (S : TypeId → Prop) {α β : Type}

/-- The walk hangs on literals in `S` only, and does not hit the limit. -/
structure Quiet (x : Walk α) : Prop where
  isLocal : x.Local S
  silent : ∀ p, ∀ message ∈ x.reports p, ¬ IsLimitText message

/-- Wherever `x` does not hit the limit, `y` ends in the same and has done the same by then. -/
structure AlikeBelow (x y : Walk α) : Prop where
  isLocal : x.Local S
  alike : ∀ p, (∃ message ∈ x.reports p, IsLimitText message) ∨
    (x.outcome p = y.outcome p ∧ x.after p = y.after p)

theorem quiet_compositional : Compositional fun x _ => x.Quiet S where
  pure a := ⟨(local_congruence S fun _ => True).pure a, fun _ _ h => by simp at h⟩
  bind {_ _ x _ f _} hx hf := by
    have hlocal : ∀ a, x.Returns a → (f a).Local S := fun a ha => (hf a ha).isLocal
    refine ⟨local_bind S hx.isLocal hlocal, fun p message h => ?_⟩
    rcases (hx.isLocal.mem_reports_bind hlocal).1 h with h | ⟨a, ha, h⟩
    · exact hx.silent p message h
    · exact (hf a ⟨p, ha⟩).silent _ message h

theorem alikeBelow_congruence : Congruence (fun _ => True) S fun x y => x.AlikeBelow S y where
  pure a := ⟨(local_congruence S fun _ => True).pure a, fun _ => .inr ⟨rfl, rfl⟩⟩
  throw he := ⟨(local_congruence S fun _ => True).throw he, fun _ => .inr ⟨rfl, rfl⟩⟩
  warn message := ⟨(local_congruence S fun _ => True).warn message, fun _ => .inr ⟨rfl, rfl⟩⟩
  enter ht := ⟨local_enter S ht, fun _ => .inr ⟨rfl, rfl⟩⟩
  bind {_ _ x y f f'} hx hf := by
    have hlocal : ∀ a, x.Returns a → (f a).Local S := fun a ha => (hf a ha).isLocal
    refine ⟨local_bind S hx.isLocal hlocal, fun p => ?_⟩
    -- A message of the limit from either part is one from the whole.
    simp only [hx.isLocal.mem_reports_bind hlocal]
    rcases hx.alike p with ⟨message, h, htext⟩ | ⟨houtcome, hafter⟩
    · exact .inl ⟨message, .inl h, htext⟩
    · cases ha : x.outcome p with
      | error e =>
        have ha' := houtcome ▸ ha
        rw [outcome_bind_of_error ha, outcome_bind_of_error ha', after_bind_of_error ha,
          after_bind_of_error ha']
        exact .inr ⟨rfl, hafter⟩
      | ok a =>
        have ha' := houtcome ▸ ha
        rw [outcome_bind_of_ok ha, outcome_bind_of_ok ha', after_bind_of_ok ha,
          after_bind_of_ok ha', ← hafter]
        rcases (hf a ⟨p, ha⟩).alike (x.after p) with ⟨message, h, htext⟩ | h
        · exact .inl ⟨message, .inr ⟨a, rfl, h⟩, htext⟩
        · exact .inr h

end Walk

section

variable {g : TypeGraph} {scope : Scope}

/-- Where no path of followed types is longer than there are levels, the limit is not hit. -/
theorem annotateWithin_quiet {n : Nat} {t : TypeId}
    (h : ∀ path, (t :: path).IsChain (fun u v => (plan g scope u).Follows v) →
      (t :: path).length ≤ n) :
    (annotateWithin g scope n t).Quiet fun u => g.isLiteral u = true := by
  induction n generalizing t with
  | zero => exact absurd (h [] (.singleton t)) (by simp)
  | succ n ih =>
    rw [annotateWithin_eq_run]
    have hlocal := Walk.local_congruence (fun u => g.isLiteral u = true) fun _ => True
    refine Plan.run_rel (Walk.quiet_compositional _)
      (fun e => ⟨hlocal.throw trivial, fun _ _ hm => by simp at hm⟩)
      (annotateWithin g scope n) (annotateWithin g scope n)
      ((plan_saysOnly g scope t).mono fun message hnote => ⟨hlocal.warn message, ?_⟩) ?_
      fun u hu => ih fun path hpath => ?_
    · intro p m hm
      rw [Walk.reports_warn, List.mem_singleton] at hm
      exact hm ▸ not_isLimitText hnote
    · intro u layout hu
      obtain ⟨rfl, hlit⟩ := plan_eq_once hu
      exact ⟨Walk.local_enter _ hlit, fun _ _ hm => by simp at hm⟩
    · have hlength := h (u :: path) (hpath.cons_cons hu)
      simpa using hlength

end

section

variable (g : TypeGraph) (scope : Scope)

/-- So many levels of the recursion, where `below` is done for what lies below them. Whatever solves
the recursion without a limit is any number of levels of it on top of itself. -/
def levelsAbove (below : TypeId → Walk TypeExpr) : Nat → TypeId → Walk TypeExpr
  | 0, t => below t
  | n + 1, t => level g scope (levelsAbove below n) t

theorem levelsAbove_add (below : TypeId → Walk TypeExpr) (n k : Nat) (t : TypeId) :
    levelsAbove g scope below (n + k) t =
      levelsAbove g scope (levelsAbove g scope below k) n t := by
  induction n generalizing t with
  | zero => rw [Nat.zero_add, levelsAbove]
  | succ n ih => rw [Nat.succ_add, levelsAbove, levelsAbove, funext ih]

theorem annotateWithin_eq_levelsAbove (n : Nat) (t : TypeId) :
    annotateWithin g scope n t = levelsAbove g scope (tooDeep g) n t := by
  induction n generalizing t with
  | zero => rfl
  | succ n ih => rw [annotateWithin_succ, levelsAbove, funext ih]

/-- A walk that does not hit the limit does not hang on what lies below its levels. -/
theorem annotateWithin_alike (below : TypeId → Walk TypeExpr) (n : Nat) (t : TypeId) :
    (annotateWithin g scope n t).AlikeBelow (fun u => g.isLiteral u = true)
      (levelsAbove g scope below n t) := by
  induction n generalizing t with
  | zero =>
    exact ⟨annotateWithin_local g scope 0 t,
      fun p => .inl (isLimitText_of_annotateWithin_zero g scope t p)⟩
  | succ n ih =>
    rw [annotateWithin_succ, levelsAbove, level_eq_run, level_eq_run]
    exact (Walk.alikeBelow_congruence _).plan fun u _ => ih u

variable {g scope}

/-- What is done below the levels of a walk that does not hit the limit does not matter, nor how
many levels are put below them. -/
theorem annotateWithin_eq_of_silent {n m : Nat} (hnm : n ≤ m) {t : TypeId} {p : Progress}
    (h : ∀ message ∈ (annotateWithin g scope n t).reports p, ¬ IsLimitText message)
    (below : TypeId → Walk TypeExpr) :
    (levelsAbove g scope below m t).outcome p = (annotateWithin g scope n t).outcome p ∧
      (levelsAbove g scope below m t).after p = (annotateWithin g scope n t).after p := by
  obtain ⟨k, rfl⟩ := Nat.exists_eq_add_of_le hnm
  rw [levelsAbove_add]
  rcases (annotateWithin_alike g scope (levelsAbove g scope below k) n t).alike p with
    ⟨message, hm, htext⟩ | hsame
  · exact absurd htext (h message hm)
  · exact ⟨hsame.1.symm, hsame.2.symm⟩

/-- Walks that do not count their levels leave the count alone. -/
theorem annotateWithin_atDepth (n : Nat) (t : TypeId) (p : Progress) :
    ((annotateWithin g scope n t).after p).atDepth p.depth =
      (annotateWithin g scope n t).after p := by
  have hcounts : (annotateWithin g scope n t).Counts p.depth (annotateWithin g scope n t) :=
    (Walk.counts_congruence p.depth (fun _ => True) fun u => g.isLiteral u = true).annotateWithin n t
  exact (hcounts.after p).symm

/-- Started `d` levels deep, a walk that counts reports what it would report with all levels but
`d`. -/
theorem reports_annotateHere (d : Nat) (t : TypeId) (p : Progress) :
    (annotateHere g scope t).reports (p.atDepth d) =
      (annotateWithin g scope (levelLimit - d) t).reports p := by
  rw [Walk.reports, (annotateHere_counts g scope d t).after, Progress.log_atDepth,
    Progress.log_atDepth, Walk.reports]

/-- A walk stays clear of the limit where no path of followed types is longer than there are levels
left. -/
theorem annotateHere_quiet {t : TypeId} {p : Progress}
    (h : ∀ path, (t :: path).IsChain (fun u v => (plan g scope u).Follows v) →
      p.depth + (t :: path).length ≤ levelLimit) :
    ∀ message ∈ (annotateHere g scope t).reports p, ¬ IsLimitText message := by
  have hquiet : (annotateWithin g scope (levelLimit - p.depth) t).Quiet fun u =>
      g.isLiteral u = true :=
    annotateWithin_quiet fun path hpath => Nat.le_sub_of_add_le' (h path hpath)
  have hsilent := hquiet.silent p
  rwa [← reports_annotateHere, Progress.atDepth_depth] at hsilent

section

variable {t : TypeId} {p : Progress}

/-- A walk that stays clear of the limit does the same if it starts less deep. -/
theorem annotateHere_less_deep {d' d : Nat} (hd : d' ≤ d)
    (h : ∀ message ∈ (annotateHere g scope t).reports (p.atDepth d), ¬ IsLimitText message) :
    (annotateHere g scope t).outcome (p.atDepth d') =
        (annotateHere g scope t).outcome (p.atDepth d) ∧
      (annotateHere g scope t).after (p.atDepth d') =
        ((annotateHere g scope t).after (p.atDepth d)).atDepth d' := by
  have hcounts := annotateHere_counts g scope d t
  have hcounts' := annotateHere_counts g scope d' t
  rw [reports_annotateHere] at h
  obtain ⟨houtcome, hafter⟩ :=
    annotateWithin_eq_of_silent (Nat.sub_le_sub_left hd levelLimit) h (tooDeep g)
  rw [← annotateWithin_eq_levelsAbove] at houtcome hafter
  rw [hcounts.outcome, hcounts'.outcome, hcounts.after, hcounts'.after, houtcome, hafter]
  exact ⟨rfl, rfl⟩

/-- A walk that stays clear of the limit does what it would do without a limit. -/
theorem levelsAbove_eq_annotateHere
    (h : ∀ message ∈ (annotateHere g scope t).reports p, ¬ IsLimitText message)
    (below : TypeId → Walk TypeExpr) {n : Nat} (hn : levelLimit ≤ p.depth + n) :
    (levelsAbove g scope below n t).outcome p = (annotateHere g scope t).outcome p ∧
      (levelsAbove g scope below n t).after p = (annotateHere g scope t).after p := by
  have hlevels : levelLimit - p.depth ≤ n := Nat.sub_le_iff_le_add'.2 hn
  rw [← p.atDepth_depth, reports_annotateHere] at h
  rw [outcome_annotateHere, after_annotateHere, annotateWithin_atDepth]
  exact annotateWithin_eq_of_silent hlevels h below

end

end

/-- **Limit.** A walk for a type counts its levels, and says so where it hits the limit.

* If no path of followed types that starts with the type is longer than there are levels left, the
  limit is not hit. What is followed is what the type leads to.
* A walk that starts `d` levels deep and does not hit the limit ends in the same, and has done the
  same by then, if it starts less deep.
* If the limit is not hit, neither the number of further levels nor what is done below them matters.
  So the walk is that of the recursion without a limit.
* The count is the same after the walk as before, even if the walk ends in a fault.
* So it is after requests of any sort, and the annotator starts the next one with all levels if it
  started the first so.
* Nothing but this walk solves the recursion that counts and stops at the limit. -/
theorem limit_inert (g : TypeGraph) (scope : Scope) (t : TypeId) :
    (∀ p : Progress,
      (∀ path, (t :: path).IsChain (fun u v => (plan g scope u).Follows v) →
        p.depth + (t :: path).length ≤ levelLimit) →
      ∀ message ∈ (annotateHere g scope t).reports p, ¬ IsLimitText message) ∧
    (∀ u v, (plan g scope u).Follows v → v ∈ g.next scope.anchor u) ∧
    (∀ d' d (p : Progress), d' ≤ d →
      (∀ message ∈ (annotateHere g scope t).reports (p.atDepth d), ¬ IsLimitText message) →
      (annotateHere g scope t).outcome (p.atDepth d') =
          (annotateHere g scope t).outcome (p.atDepth d) ∧
        (annotateHere g scope t).after (p.atDepth d') =
          ((annotateHere g scope t).after (p.atDepth d)).atDepth d') ∧
    (∀ p : Progress, (∀ message ∈ (annotateHere g scope t).reports p, ¬ IsLimitText message) →
      ∀ below n, levelLimit ≤ p.depth + n →
        (levelsAbove g scope below n t).outcome p = (annotateHere g scope t).outcome p ∧
          (levelsAbove g scope below n t).after p = (annotateHere g scope t).after p) ∧
    (∀ p : Progress, ((annotateHere g scope t).after p).depth = p.depth) ∧
    (∀ (a : Annotator) (requests : List Annotator.Request),
      (a.run g requests).depth = a.depth ∧
        (a.depth = 0 → ((a.run g requests).answer g (.annotate t)).1 =
          ((annotate g (a.run g requests).scope t).outcome
            { visited := (a.run g requests).visited }).map .expression)) ∧
    ∀ f, f = annotateHere g scope ↔ ∀ u, f u = nested g scope f u := by
  refine ⟨fun p => annotateHere_quiet, fun u => (plan_cases g scope u).2,
    fun d' d p => annotateHere_less_deep, fun p h below n => levelsAbove_eq_annotateHere h below,
    depth_after_annotateHere g scope t, fun a requests => ?_, fun f => eq_annotateHere_iff⟩
  have hdepth := Annotator.depth_run g a requests
  exact ⟨hdepth, fun ha => Annotator.answer_of_top g _ (hdepth.trans ha) t⟩

/-- Where a rank falls along all steps, it bounds the paths. -/
theorem length_path_le {g : TypeGraph} {anchor : NodeId} {rank : TypeId → Nat} {l : List TypeId}
    (hl : ∀ u ∈ l, ∀ v ∈ g.next anchor u, v ∈ l ∧ rank v < rank u) {t : TypeId} (ht : t ∈ l)
    {path : List TypeId} (hpath : (t :: path).IsChain fun u v => v ∈ g.next anchor u) :
    (t :: path).length ≤ rank t + 1 := by
  induction path generalizing t with
  | nil => simp
  | cons v rest ih =>
    obtain ⟨hv, hrest⟩ := List.isChain_cons_cons.1 hpath
    obtain ⟨hmem, hfalls⟩ := hl t ht v hv
    have hlength := ih hmem hrest
    simp only [List.length_cons] at hlength ⊢
    omega

/-- A union of a string and of a box of it; and a box of itself. -/
def nestedBoxes : TypeGraph where
  types := #[
    { flags := .ofList [TypeFlag.union], constituents := [⟨1⟩, ⟨2⟩] },
    { flags := .ofList [TypeFlag.string] },
    { TypeRecord.object (.ofList [ObjectFlag.reference]) (some ⟨0⟩) with
      target? := some ⟨3⟩, arguments := [⟨1⟩] },
    .object (.ofList [ObjectFlag.interface]) (some ⟨0⟩),
    { TypeRecord.object (.ofList [ObjectFlag.reference]) (some ⟨0⟩) with
      target? := some ⟨3⟩, arguments := [⟨4⟩] }]
  symbols := #[{ name := "Box", flags := .ofList [SymbolFlag.interface] }]

/-- The union stays clear of the limit as long as three levels are left, so it is expressed alike
with all levels and with three. The box of itself hits the limit, and the walk is back at its level
after that. -/
theorem nestedBoxes_limit :
    (∀ p : Progress, p.depth ≤ 125 →
        ∀ message ∈ (annotateHere nestedBoxes { anchor := .nowhere } ⟨0⟩).reports p,
          ¬ IsLimitText message) ∧
      (annotateHere nestedBoxes { anchor := .nowhere } ⟨0⟩).outcome {} =
        (annotateHere nestedBoxes { anchor := .nowhere } ⟨0⟩).outcome { depth := 125 } ∧
      (∃ message ∈ (annotateHere nestedBoxes { anchor := .nowhere } ⟨4⟩).reports { depth := 125 },
        IsLimitText message) ∧
      ((annotateHere nestedBoxes { anchor := .nowhere } ⟨4⟩).after { depth := 125 }).depth =
        125 := by
  obtain ⟨hclear, hfollows, hdeeper, -⟩ := limit_inert nestedBoxes { anchor := .nowhere } ⟨0⟩
  have hrank : ∀ u ∈ [TypeId.mk 0, ⟨1⟩, ⟨2⟩, ⟨3⟩], ∀ v ∈ nestedBoxes.next .nowhere u,
      v ∈ [TypeId.mk 0, ⟨1⟩, ⟨2⟩, ⟨3⟩] ∧
        (if v = ⟨0⟩ then 2 else if v = ⟨2⟩ then 1 else 0) <
          if u = ⟨0⟩ then 2 else if u = ⟨2⟩ then 1 else 0 := by
    decide
  have hsilent (p : Progress) (hp : p.depth ≤ 125) :
      ∀ message ∈ (annotateHere nestedBoxes { anchor := .nowhere } ⟨0⟩).reports p,
        ¬ IsLimitText message := by
    refine hclear p fun path hpath => ?_
    have hlength : (⟨0⟩ :: path).length ≤ 3 :=
      length_path_le hrank (by decide) (hpath.imp hfollows)
    exact Nat.add_le_add hp hlength
  obtain ⟨-, -, -, -, hback, -⟩ := limit_inert nestedBoxes { anchor := .nowhere } ⟨4⟩
  exact ⟨hsilent, (hdeeper 0 125 {} (by decide) (hsilent _ (Nat.le_refl _))).1, by decide,
    hback _⟩

end ClosureTypes
