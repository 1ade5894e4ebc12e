import ClosureTypes.Proofs.Level

/-!
# Faults tell of flaws

A walk stops only where the graph is inconsistent: whatever fault it ends in tells of a flaw at a
type that the annotated type leads to, with the description of that type. A type that leads to no
flaw has an expression.

`annotate_faults` states both, for any scope and whatever has been visited before.
-/

namespace ClosureTypes

/-- All types that `t` leads to are known and of some kind, they mention known symbols only, and no
reference among them is its own target. -/
structure TypeGraph.Consistent (g : TypeGraph) (anchor : NodeId) (t : TypeId) : Prop where
  known : ∀ u, g.Reaches anchor t u → ∃ r, g.type? u = some r ∧ Kind.ofFlags? r.flags ≠ none
  symbols : ∀ u, g.Reaches anchor t u → ∀ s ∈ g.mentioned u, g.symbol? s ≠ none
  targets : ∀ u r, g.Reaches anchor t u → g.type? u = some r → r.form = .reference →
    r.objectFlags.has .tuple = false → r.target? ≠ some u

theorem TypeGraph.Consistent.not_hasFlaw {g : TypeGraph} {anchor : NodeId} {t : TypeId}
    (h : g.Consistent anchor t) (e : GraphFault) : ¬ g.HasFlaw anchor t e := by
  cases e with
  | unknownType u =>
    rintro ⟨hu, hnone⟩
    obtain ⟨r, hr, -⟩ := h.known u hu
    simp [hnone] at hr
  | unknownSymbol s =>
    rintro ⟨u, hu, hs, hnone⟩
    exact h.symbols u hu s hs hnone
  | referenceLoop u description =>
    rintro ⟨hu, -, r, hr, hf, htuple, htarget⟩
    exact h.targets u r hu hr hf htuple htarget
  | unknownKind flags description =>
    rintro ⟨u, r, hu, hr, rfl, hk, -⟩
    obtain ⟨r', hr', hk'⟩ := h.known u hu
    exact hk' (Option.some.inj (hr.symm.trans hr') ▸ hk)

/-- The walk ends in no other faults than those of a given sort. -/
def Walk.FaultsIn (fault : GraphFault → Prop) {α : Type} (x : Walk α) : Prop :=
  ∀ p e, x.outcome p = .error e → fault e

theorem Walk.faultsIn_congruence (fault : GraphFault → Prop) (entry : TypeId → Prop) :
    Walk.Congruence fault entry fun x _ => x.FaultsIn fault where
  pure _ _ _ h := by cases h
  throw he _ _ h := by
    cases h
    exact he
  warn _ _ _ h := by cases h
  enter _ p e h := by
    rw [Walk.outcome_enter] at h
    cases h
  bind {_ _ x _ f _} hx hf p e h := by
    cases ha : x.outcome p with
    | error e' =>
      rw [Walk.outcome_bind_of_error ha] at h
      cases h
      exact hx p _ ha
    | ok a =>
      rw [Walk.outcome_bind_of_ok ha] at h
      exact hf a ⟨p, ha⟩ _ e h

/-- **Faults tell of flaws.** Where the walk for a type stops at a fault, the type leads to the flaw
that the fault tells of. A type that leads only to consistent types has an expression. -/
theorem annotate_faults (g : TypeGraph) (scope : Scope) (t : TypeId) (p : Progress) :
    (∀ e, (annotate g scope t).outcome p = .error e → g.HasFlaw scope.anchor t e) ∧
      (g.Consistent scope.anchor t → ∃ e, (annotate g scope t).outcome p = .ok e) := by
  have hflaw : (annotate g scope t).FaultsIn (g.HasFlaw scope.anchor t) :=
    annotate_congr (Walk.faultsIn_congruence _ _)
  refine ⟨hflaw p, fun hc => ?_⟩
  cases he : (annotate g scope t).outcome p with
  | ok e => exact ⟨e, rfl⟩
  | error e => exact (hc.not_hasFlaw e (hflaw p e he)).elim

/-- A union of a string and a reference to itself; and a class. -/
def loopingReference : TypeGraph where
  types := #[
    { flags := .ofList [TypeFlag.union], constituents := [⟨1⟩, ⟨2⟩] },
    { flags := .ofList [TypeFlag.string] },
    { TypeRecord.object (.ofList [ObjectFlag.reference]) none with target? := some ⟨2⟩ },
    .object (.ofList [ObjectFlag.classType]) (some ⟨0⟩)]
  symbols := #[{ name := "Box" }]

theorem loopingReference_faults :
    loopingReference.HasFlaw .nowhere ⟨0⟩
        (.referenceLoop ⟨2⟩ "{type flags:0x8000 Object object:Reference}") ∧
      ∃ e, (annotate loopingReference { anchor := .nowhere } ⟨3⟩).outcome {} = .ok e := by
  have hloop : (annotate loopingReference { anchor := .nowhere } ⟨0⟩).outcome {} =
      .error (.referenceLoop ⟨2⟩ "{type flags:0x8000 Object object:Reference}") := by rfl
  refine ⟨(annotate_faults _ _ _ _).1 _ hloop, (annotate_faults _ _ _ _).2 ?_⟩
  have hreach (u : TypeId) (hu : loopingReference.Reaches .nowhere ⟨3⟩ u) : u ∈ [(⟨3⟩ : TypeId)] :=
    hu.mem_of_closed (by decide) (by decide)
  constructor
  · intro u hu
    obtain rfl : u = ⟨3⟩ := by simpa using hreach u hu
    exact ⟨_, rfl, by decide⟩
  · intro u hu
    obtain rfl : u = ⟨3⟩ := by simpa using hreach u hu
    decide
  · intro u r hu hr
    obtain rfl : u = ⟨3⟩ := by simpa using hreach u hu
    cases hr
    decide

end ClosureTypes
