import ClosureTypes.Annotator
import ClosureTypes.Proofs.Plan

/-!
# How deep a walk is

A walk counts the levels as it goes down, and takes each off the count on its way back, from a
result as well as from a fault. Only the limit looks at the count. So a walk that starts `d` levels
deep does what the recursion with all levels but `d` does, and ends `d` levels deep.

1. `annotateHere_counts`: what the count does to the expression of a type.
2. `eq_annotateHere_iff`: the recursion that counts has one solution.
3. `depth_after_annotateHere`: however a walk ends, it is as deep after it as before.
4. `Annotator.depth_run`: so is an annotator after requests of any sort.
-/

namespace ClosureTypes

/-- The same progress, so many levels deep. -/
def Progress.atDepth (p : Progress) (d : Nat) : Progress := { p with depth := d }

namespace Progress

variable (p : Progress) (d d' : Nat)

@[simp] theorem depth_atDepth : (p.atDepth d).depth = d := rfl

@[simp] theorem visited_atDepth : (p.atDepth d).visited = p.visited := rfl

@[simp] theorem log_atDepth : (p.atDepth d).log = p.log := rfl

@[simp] theorem atDepth_atDepth : (p.atDepth d).atDepth d' = p.atDepth d' := rfl

@[simp] theorem atDepth_depth : p.atDepth p.depth = p := rfl

end Progress

/-! ## Walks that count -/

namespace Walk

variable {α β : Type} {x y : Walk α}

/-- Walks are the same if they end in the same and have done the same by then. -/
theorem ext (houtcome : ∀ p, x.outcome p = y.outcome p) (hafter : ∀ p, x.after p = y.after p) :
    x = y := by
  funext p
  have ho := houtcome p
  have ha := hafter p
  unfold outcome EStateM.run at ho
  unfold after EStateM.run at ha
  cases hx : x p <;> cases hy : y p <;> simp_all

theorem run_deeper (x : Walk α) (p : Progress) : (deeper x).run p =
    match x.run (p.atDepth (p.depth + 1)) with
    | .ok a q => .ok a (q.atDepth (q.depth - 1))
    | .error e q => .error e (q.atDepth (q.depth - 1)) := by
  simp only [deeper, EStateM.run_bind, EStateM.run_modify]
  cases h : x.run (p.atDepth (p.depth + 1)) with
  | ok a q =>
    have hx : x { p with depth := p.depth + 1 } = .ok a q := h
    simp only [EStateM.run, tryFinally, tryFinally', Functor.map, EStateM.map, hx]
    rfl
  | error e q =>
    have hx : x { p with depth := p.depth + 1 } = .error e q := h
    simp only [EStateM.run, tryFinally, tryFinally', Functor.map, EStateM.map, hx]
    rfl

theorem outcome_deeper (x : Walk α) (p : Progress) :
    (deeper x).outcome p = x.outcome (p.atDepth (p.depth + 1)) := by
  rw [outcome, run_deeper, outcome]
  cases x.run (p.atDepth (p.depth + 1)) <;> rfl

theorem after_deeper (x : Walk α) (p : Progress) :
    (deeper x).after p =
      (x.after (p.atDepth (p.depth + 1))).atDepth
        ((x.after (p.atDepth (p.depth + 1))).depth - 1) := by
  rw [after, run_deeper, after]
  cases x.run (p.atDepth (p.depth + 1)) <;> rfl

/-- Started `d` levels deep, `x` does what `y` does from anywhere, and ends `d` levels deep. -/
structure Counts (d : Nat) (x y : Walk α) : Prop where
  outcome : ∀ p, x.outcome (p.atDepth d) = y.outcome p
  after : ∀ p, x.after (p.atDepth d) = (y.after p).atDepth d

theorem counts_congruence (d : Nat) (fault : GraphFault → Prop) (entry : TypeId → Prop) :
    Congruence fault entry fun x y => Counts d x y where
  pure _ := ⟨fun _ => rfl, fun _ => rfl⟩
  throw _ := ⟨fun _ => rfl, fun _ => rfl⟩
  warn _ := ⟨fun _ => rfl, fun _ => rfl⟩
  enter {t} _ := by
    refine ⟨fun p => by rw [outcome_enter, outcome_enter, Progress.visited_atDepth], fun p => ?_⟩
    by_cases h : t ∈ p.visited
    · have hd : t ∈ (p.atDepth d).visited := h
      rw [after_enter_of_mem h, after_enter_of_mem hd]
    · have hd : t ∉ (p.atDepth d).visited := h
      rw [after_enter_of_not_mem h, after_enter_of_not_mem hd]
      rfl
  bind {_ _ x y f f'} hx hf := by
    refine ⟨fun p => ?_, fun p => ?_⟩
    · cases h : y.outcome p with
      | error e =>
        rw [outcome_bind_of_error h, outcome_bind_of_error ((hx.outcome p).trans h)]
      | ok a =>
        have hd := (hx.outcome p).trans h
        rw [outcome_bind_of_ok h, outcome_bind_of_ok hd, hx.after, (hf a ⟨_, hd⟩).outcome]
    · cases h : y.outcome p with
      | error e =>
        rw [after_bind_of_error h, after_bind_of_error ((hx.outcome p).trans h), hx.after]
      | ok a =>
        have hd := (hx.outcome p).trans h
        rw [after_bind_of_ok h, after_bind_of_ok hd, hx.after, (hf a ⟨_, hd⟩).after]

namespace Counts

variable {d : Nat}

theorem of_run {x' : Walk α} (h : x'.Counts d y)
    (hrun : ∀ p : Progress, x.run (p.atDepth d) = x'.run (p.atDepth d)) : x.Counts d y where
  outcome p := by
    rw [Walk.outcome, hrun]
    exact h.outcome p
  after p := by
    rw [Walk.after, hrun]
    exact h.after p

/-- A level deeper, the count is one more, and it is taken back. -/
theorem deeper (h : x.Counts (d + 1) y) : (deeper x).Counts d y where
  outcome p := by rw [outcome_deeper, Progress.depth_atDepth, Progress.atDepth_atDepth, h.outcome]
  after p := by
    rw [after_deeper, Progress.depth_atDepth, Progress.atDepth_atDepth, h.after,
      Progress.depth_atDepth, Progress.atDepth_atDepth, Nat.add_sub_cancel]

theorem map (f : α → β) (h : x.Counts d y) : (f <$> x).Counts d (f <$> y) where
  outcome p := by rw [outcome_map, outcome_map, h.outcome]
  after p := by rw [after_map, after_map, h.after]

/-- Walks that count are the same if they do the same from any depth. -/
theorem eq {z : Nat → Walk α} (hx : ∀ d, x.Counts d (z d)) (hy : ∀ d, y.Counts d (z d)) : x = y :=
  ext (fun p => ((hx p.depth).outcome p).trans ((hy p.depth).outcome p).symm)
    fun p => ((hx p.depth).after p).trans ((hy p.depth).after p).symm

end Counts

end Walk

/-! ## The recursion that counts -/

section

variable {g : TypeGraph} {scope : Scope} {d : Nat}

namespace Annotate

/-- Only here is the count looked at. -/
theorem run_nested (recur : TypeId → Walk TypeExpr) (t : TypeId) (p : Progress) :
    (nested g scope recur t).run p =
      (if levelLimit ≤ p.depth then tooDeep g t
        else Walk.deeper (level g scope recur t)).run p := rfl

/-- If what lies below has all levels but `d + 1` where it starts `d + 1` levels deep, a step of the
recursion that counts has all levels but `d` where it starts `d` levels deep. -/
theorem nested_counts {recur : TypeId → Walk TypeExpr} (t : TypeId)
    (hrec : d < levelLimit → ∀ u,
      (recur u).Counts (d + 1) (annotateWithin g scope (levelLimit - (d + 1)) u)) :
    (nested g scope recur t).Counts d (annotateWithin g scope (levelLimit - d) t) := by
  have hcongruence (d : Nat) := Walk.counts_congruence d (fun _ => True) fun u =>
    g.isLiteral u = true
  by_cases hd : levelLimit ≤ d
  · have hdeep : (tooDeep g t).Counts d (tooDeep g t) :=
      (hcongruence d).compositional.degrade ((hcongruence d).warn _)
    rw [Nat.sub_eq_zero_of_le hd, annotateWithin]
    exact hdeep.of_run fun p => by rw [run_nested, Progress.depth_atDepth, if_pos hd]
  · have hlevels : levelLimit - d = levelLimit - (d + 1) + 1 := by omega
    have hlevel : (level g scope recur t).Counts (d + 1)
        ((plan g scope t).run (annotateWithin g scope (levelLimit - (d + 1)))) := by
      rw [level_eq_run]
      exact (hcongruence (d + 1)).plan fun u _ => hrec (Nat.not_le.1 hd) u
    rw [hlevels, annotateWithin_eq_run]
    exact hlevel.deeper.of_run fun p => by rw [run_nested, Progress.depth_atDepth, if_neg hd]

end Annotate

/-- With more steps than there are levels left, the steps do not run out. -/
theorem annotateIn_counts {n : Nat} (hn : levelLimit - d < n) (t : TypeId) :
    (annotateIn g scope n t).Counts d (annotateWithin g scope (levelLimit - d) t) := by
  induction n generalizing d t with
  | zero => cases hn
  | succ n ih => exact Annotate.nested_counts t fun hd u => ih (by omega) u

variable (g scope d) in
/-- **Count.** From `d` levels deep, the expression of a type has all levels but `d`. -/
theorem annotateHere_counts (t : TypeId) :
    (annotateHere g scope t).Counts d (annotateWithin g scope (levelLimit - d) t) :=
  annotateIn_counts (by omega) t

theorem counts_of_nested {f : TypeId → Walk TypeExpr}
    (hf : ∀ t, f t = Annotate.nested g scope f t) (t : TypeId) :
    (f t).Counts d (annotateWithin g scope (levelLimit - d) t) := by
  induction hk : levelLimit - d generalizing d t with
  | zero =>
    rw [hf, ← hk]
    exact Annotate.nested_counts t fun hd => by omega
  | succ k ih =>
    rw [hf, ← hk]
    refine Annotate.nested_counts t fun hd u => ?_
    have hk' : levelLimit - (d + 1) = k := by omega
    rw [hk']
    exact ih u hk'

/-- The expression of a type is a step of the recursion that counts, on top of the expressions of
further types. -/
theorem annotateHere_eq (t : TypeId) :
    annotateHere g scope t = Annotate.nested g scope (annotateHere g scope) t :=
  Walk.Counts.eq (fun d => annotateHere_counts g scope d t) fun d =>
    Annotate.nested_counts t fun _ u => annotateHere_counts g scope (d + 1) u

/-- **Recursion.** Nothing else solves the recursion that counts, since the count ends it. -/
theorem eq_annotateHere_iff {f : TypeId → Walk TypeExpr} :
    f = annotateHere g scope ↔ ∀ t, f t = Annotate.nested g scope f t := by
  constructor
  · rintro rfl
    exact annotateHere_eq
  · intro hf
    funext t
    exact Walk.Counts.eq (fun _ => counts_of_nested hf t) fun d => annotateHere_counts g scope d t

theorem annotateHere_congr {scope' : Scope}
    (h : ∀ n, annotateWithin g scope n = annotateWithin g scope' n) :
    annotateHere g scope = annotateHere g scope' :=
  funext fun t => Walk.Counts.eq (fun d => annotateHere_counts g scope d t) fun d => by
    rw [h]
    exact annotateHere_counts g scope' d t

theorem annotateSignatureHere_counts (signature : Signature) :
    (annotateSignatureHere g scope signature).Counts d
      (Annotate.function g scope (annotateWithin g scope (levelLimit - d)) signature) := by
  have hcongruence := Walk.counts_congruence d (fun _ => True) fun _ => True
  rw [annotateSignatureHere, Annotate.function_eq_run, Annotate.function_eq_run]
  exact Layout.run_rel hcongruence.compositional (fun _ => hcongruence.throw trivial)
    ⟨fun message _ => hcongruence.warn message, fun _ message _ => hcongruence.warn message⟩
    fun u _ => annotateHere_counts g scope d u

/-! ## The level at the end -/

variable (g scope)

theorem outcome_annotateHere (t : TypeId) (p : Progress) :
    (annotateHere g scope t).outcome p =
      (annotateWithin g scope (levelLimit - p.depth) t).outcome p :=
  (annotateHere_counts g scope p.depth t).outcome p

theorem after_annotateHere (t : TypeId) (p : Progress) :
    (annotateHere g scope t).after p =
      ((annotateWithin g scope (levelLimit - p.depth) t).after p).atDepth p.depth :=
  (annotateHere_counts g scope p.depth t).after p

/-- The first level is that of `annotate`. -/
theorem outcome_annotateHere_of_top (t : TypeId) {p : Progress} (hp : p.depth = 0) :
    (annotateHere g scope t).outcome p = (annotate g scope t).outcome p := by
  rw [outcome_annotateHere, hp, Nat.sub_zero, annotate]

/-- **Depth.** A walk is as deep at its end as at its start, whether or not it ends in a fault. -/
theorem depth_after_annotateHere (t : TypeId) (p : Progress) :
    ((annotateHere g scope t).after p).depth = p.depth := by
  rw [after_annotateHere, Progress.depth_atDepth]

end

/-! ## Annotators -/

theorem Annotate.isSuppressed_counts (g : TypeGraph) (scope : Scope) (d : Nat) (s : SymbolId) :
    (isSuppressed g scope s).Counts d (isSuppressed g scope s) := by
  have hP := Walk.counts_congruence d (fun _ => True) fun _ => True
  unfold isSuppressed
  cases scope.blacklistFor? s with
  | none => exact hP.pure false
  | some files =>
    refine hP.bind ?_ fun sym _ => ?_
    · exact (hP.rules.symbol fun _ => trivial).2
    · split_ifs
      · exact hP.bind (hP.warn _) fun _ _ => hP.pure true
      · exact hP.pure _

namespace Annotator

variable (g : TypeGraph) (a : Annotator)

/-- How many levels are left for an annotator. -/
def levels : Nat := levelLimit - a.depth

/-- Performs a walk that leaves the count alone. -/
def performFlat {α : Type} (walk : Walk α) : Except GraphFault α × Annotator :=
  (walk.outcome { visited := a.visited },
    { a with
      visited := (walk.after { visited := a.visited }).visited
      sink := a.sink.receive (walk.after { visited := a.visited }).log })

theorem performFlat_map {α β : Type} (f : α → β) (walk : Walk α) :
    a.performFlat (f <$> walk) =
      ((walk.outcome { visited := a.visited }).map f, (a.performFlat walk).2) := by
  rw [performFlat, Walk.outcome_map, Walk.after_map, performFlat]

theorem perform_eq {α : Type} (walk : Walk α) :
    a.perform walk = (walk.outcome a.start, a.keep (walk.after a.start)) := by
  unfold perform Walk.outcome Walk.after
  cases walk.run a.start <;> rfl

variable {a} in
/-- A walk that counts leaves the annotator as deep as it was. -/
theorem perform_of_counts {α : Type} {x y : Walk α} (h : x.Counts a.depth y) :
    a.perform x = a.performFlat y := by
  have hstart : a.start = Progress.atDepth { visited := a.visited } a.depth := rfl
  rw [perform_eq, hstart, h.outcome, h.after]
  rfl

theorem answer_annotate (t : TypeId) :
    a.answer g (.annotate t) =
      a.performFlat (.expression <$> annotateWithin g a.scope a.levels t) :=
  perform_of_counts ((annotateHere_counts g a.scope a.depth t).map _)

theorem answer_signature (signature : Signature) :
    a.answer g (.signature signature) =
      a.performFlat (.expression <$>
        Annotate.function g a.scope (annotateWithin g a.scope a.levels) signature) :=
  perform_of_counts ((annotateSignatureHere_counts signature).map _)

theorem answer_isSuppressed (s : SymbolId) :
    a.answer g (.isSuppressed s) =
      a.performFlat (.suppressed <$> Annotate.isSuppressed g a.scope s) :=
  perform_of_counts ((Annotate.isSuppressed_counts g a.scope a.depth s).map _)

/-- At the first level, an annotator answers by `annotate`. -/
theorem answer_of_top (ha : a.depth = 0) (t : TypeId) :
    (a.answer g (.annotate t)).1 =
      ((annotate g a.scope t).outcome { visited := a.visited }).map .expression := by
  rw [answer, perform_eq, Walk.outcome_map, start, ha, outcome_annotateHere_of_top g _ t rfl]

/-- A request leaves an annotator as deep as it was, whether or not it fails. -/
theorem depth_answer (request : Request) : (a.answer g request).2.depth = a.depth := by
  cases request with
  | annotate t => rw [answer_annotate, performFlat]
  | signature signature => rw [answer_signature, performFlat]
  | isSuppressed s => rw [answer_isSuppressed, performFlat]
  | name s => rfl
  | change c => cases c <;> rfl

/-- **Runs.** No requests of any sort, one after another, change how deep an annotator is. -/
theorem depth_run (requests : List Request) : (a.run g requests).depth = a.depth := by
  induction requests generalizing a with
  | nil => rfl
  | cons request rest ih => exact (ih _).trans (depth_answer g a request)

end Annotator

end ClosureTypes
