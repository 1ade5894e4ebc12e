import ClosureTypes.Proofs.Course
import ClosureTypes.Proofs.Names

/-!
# Types with unknown symbols

Classes and interfaces are written by the name of their symbol, and what an anonymous type is hangs
on the roles of its symbol. So nothing can be said of such a type whose symbol is unknown, unless
there is an alias for it, and a walk stops at it.

Classes are the exception. Their symbol is looked up only if a blacklist may suppress it; if there
is none, the class is written by the empty name, as `!`.

1. `Annotate.BearsUnknown.plan`: what one level does with such a type.
2. `annotate_unknownSymbol`: what walks end in that begin at such a type, or come to one.
3. `exists_nameless_class`: not all of them end in a fault.
-/

namespace ClosureTypes

/-! ## Names of unknown symbols -/

theorem TypeGraph.qualification_of_unknown {g : TypeGraph} {s : SymbolId} (h : g.symbol? s = none)
    (node : NodeId) : g.qualification node s = [s] := by
  unfold qualification
  cases g.symbols.size with
  | zero => rfl
  | succ n => simp [ancestry, h]

/-- An unknown symbol without an alias has the empty name. -/
theorem Scope.nameOf_of_unknown {scope : Scope} {g : TypeGraph} {s : SymbolId}
    (h : g.symbol? s = none) (halias : scope.hasAlias s = false) : scope.nameOf g s = "" := by
  have hnone : scope.aliases.find? s = none := by simpa [hasAlias] using halias
  rw [nameOf, hnone]
  simp [TypeGraph.qualifiedName, TypeGraph.display, TypeGraph.qualification_of_unknown h,
    TypeGraph.text_showLink_of_unknown h]

namespace Annotate

variable {g : TypeGraph} {scope : Scope} {t : TypeId} {r : TypeRecord} {s : SymbolId}

/-! ## Types that bear unknown symbols -/

variable (g scope t r s) in
/-- The type is a class, an interface, or anonymous and no reference. It has the symbol `s`, of
which neither the graph nor the scope knows anything. -/
structure BearsUnknown : Prop where
  record : g.type? t = some r
  kind : Kind.ofFlags? r.flags = some .object
  sort : r.objectFlags.has .classType = true ∨ r.objectFlags.has .interface = true ∨
    r.objectFlags.has .anonymous = true ∧ r.objectFlags.has .reference = false
  symbol : r.symbol? = some s
  unknown : g.symbol? s = none
  unaliased : scope.hasAlias s = false

namespace BearsUnknown

variable (h : BearsUnknown g scope t r s)

include h

theorem sortPlan : Annotate.sortPlan g scope t r =
    if r.objectFlags.has .classType = true then .fill (.answer (.named ""))
    else .stop (.unknownSymbol s) := by
  have hclass : classPlan g scope r = .fill (.answer (.named "")) := by
    simp [classPlan, h.symbol, Scope.nameOf_of_unknown h.unknown h.unaliased]
  have hinterface : interfacePlan g scope r = .stop (.unknownSymbol s) := by
    simp [interfacePlan, h.symbol, h.unknown]
  have hanonymous : anonymousPlan g scope t r = .stop (.unknownSymbol s) := by
    simp [anonymousPlan, h.symbol, h.unknown]
  unfold Annotate.sortPlan
  rw [hclass, hinterface, hanonymous]
  rcases h.sort with hc | hi | ⟨ha, hr⟩
  · rw [if_pos hc, if_pos hc]
  · rw [if_pos hi]
  · simp [ha, hr]

/-- A level stops at the unknown symbol, except for a class where there is no blacklist. -/
theorem plan : Annotate.plan g scope t =
    if r.objectFlags.has .classType = true ∧ scope.blacklist? = none then
      .fill (.answer (.named ""))
    else .stop (.unknownSymbol s) := by
  have hobject : Annotate.plan g scope t = unlessSuppressed g scope s
      (Annotate.sortPlan g scope t r) := by
    simp [Annotate.plan, h.record, h.kind, Kind.fixed?, kindPlan, objectPlan, h.symbol]
  rw [hobject, h.sortPlan, unlessSuppressed, Scope.blacklistFor?, h.unaliased]
  cases hfiles : scope.blacklist? with
  | none => simp
  | some files => simp [h.unknown]

/-- What one level of the expression ends in. It reports nothing and visits nothing. -/
theorem run (n : Nat) (p : Progress) :
    (annotateWithin g scope (n + 1) t).after p = p ∧
      (annotateWithin g scope (n + 1) t).outcome p =
        if r.objectFlags.has .classType = true ∧ scope.blacklist? = none then .ok (.named "")
        else .error (.unknownSymbol s) := by
  rw [annotateWithin_eq_run, h.plan]
  split_ifs
  · simp [Plan.run]
  · exact ⟨rfl, rfl⟩

end BearsUnknown

end Annotate

/-- **Unknown symbols.** Take a class, an interface, or an anonymous type that is no reference, with
a symbol that the graph does not know and that has no alias. Its annotation reports nothing, visits
nothing and stops at the unknown symbol, whatever has been visited and reported by then, unless it
is a class and there is no blacklist: the class is then written by the empty name.

But for that exception, the annotation of any type stops there that comes to such a type with levels
left for it. -/
theorem annotate_unknownSymbol {g : TypeGraph} {scope : Scope} {u : TypeId} {r : TypeRecord}
    {s : SymbolId} (h : Annotate.BearsUnknown g scope u r s) :
    (∀ p, (annotate g scope u).after p = p ∧
      (annotate g scope u).outcome p =
        if r.objectFlags.has .classType = true ∧ scope.blacklist? = none then .ok (.named "")
        else .error (.unknownSymbol s)) ∧
    (¬ (r.objectFlags.has .classType = true ∧ scope.blacklist? = none) →
      ∀ t p, ∀ m ∈ Annotate.course g scope levelLimit t p, m.type = u → m.levels ≠ 0 →
        (annotate g scope t).outcome p = .error (.unknownSymbol s)) := by
  refine ⟨fun p => h.run _ p, fun hlookup t p m hm hu hlevels => ?_⟩
  refine Annotate.outcome_of_mem_course hm ?_
  obtain ⟨n, hn⟩ := Nat.exists_eq_succ_of_ne_zero hlevels
  rw [hn, hu, (h.run n _).2, if_neg hlookup]

/-- A class, an interface and an anonymous type with a symbol that is not there, and a union of a
string and the interface. -/
def orphans : TypeGraph where
  types := #[
    .object (.ofList [ObjectFlag.classType]) (some ⟨7⟩),
    .object (.ofList [ObjectFlag.interface]) (some ⟨7⟩),
    .object (.ofList [ObjectFlag.anonymous]) (some ⟨7⟩),
    { flags := .ofList [TypeFlag.string] },
    { flags := .ofList [TypeFlag.union], constituents := [⟨3⟩, ⟨1⟩] }]

theorem orphans_bearsUnknown (blacklist? : Option (List String)) {u : TypeId} {sort : ObjectFlag}
    (hu : orphans.type? u = some (.object (.ofList [sort]) (some ⟨7⟩)))
    (hsort : sort = .classType ∨ sort = .interface ∨ sort = .anonymous) :
    Annotate.BearsUnknown orphans { anchor := .nowhere, blacklist? } u
      (.object (.ofList [sort]) (some ⟨7⟩)) ⟨7⟩ where
  record := hu
  kind := by rcases hsort with rfl | rfl | rfl <;> decide
  sort := by rcases hsort with rfl | rfl | rfl <;> decide
  symbol := rfl
  unknown := rfl
  unaliased := rfl

theorem orphans_stop :
    (annotate orphans { anchor := .nowhere } ⟨0⟩).outcome {} = .ok (.named "") ∧
      (annotate orphans { anchor := .nowhere, blacklist? := some [] } ⟨0⟩).outcome {} =
        .error (.unknownSymbol ⟨7⟩) ∧
      (annotate orphans { anchor := .nowhere } ⟨2⟩).outcome {} = .error (.unknownSymbol ⟨7⟩) ∧
      (annotate orphans { anchor := .nowhere } ⟨4⟩).outcome {} = .error (.unknownSymbol ⟨7⟩) := by
  have hclass (blacklist? : Option (List String)) :=
    orphans_bearsUnknown blacklist? (u := ⟨0⟩) rfl (.inl rfl)
  have hinterface := orphans_bearsUnknown none (u := ⟨1⟩) rfl (.inr (.inl rfl))
  have hanonymous := orphans_bearsUnknown none (u := ⟨2⟩) rfl (.inr (.inr rfl))
  have hreached : ⟨127, ⟨1⟩, {}⟩ ∈
      Annotate.course orphans { anchor := .nowhere } levelLimit ⟨4⟩ {} :=
    .tail _ (.tail _ (.head _))
  exact ⟨((annotate_unknownSymbol (hclass none)).1 {}).2,
    ((annotate_unknownSymbol (hclass (some []))).1 {}).2,
    ((annotate_unknownSymbol hanonymous).1 {}).2,
    (annotate_unknownSymbol hinterface).2 (by decide) _ _ _ hreached rfl (by decide)⟩

/-- Not all types with an unknown symbol stop the walk, as a class shows where there is no
blacklist. -/
theorem exists_nameless_class : ¬ ∀ (g : TypeGraph) (scope : Scope) (t : TypeId) (r : TypeRecord)
    (s : SymbolId), Annotate.BearsUnknown g scope t r s →
      ∀ p, (annotate g scope t).outcome p = .error (.unknownSymbol s) := by
  intro h
  have herror := h orphans _ ⟨0⟩ _ ⟨7⟩ (orphans_bearsUnknown none rfl (.inl rfl)) {}
  have hclass : (annotate orphans { anchor := .nowhere } ⟨0⟩).outcome {} = .ok (.named "") := by rfl
  cases hclass.symm.trans herror

end ClosureTypes
