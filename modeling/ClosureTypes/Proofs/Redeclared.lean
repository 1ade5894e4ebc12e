import ClosureTypes.Proofs.DescriptionReach
import ClosureTypes.Proofs.Spared

/-!
# The order of declarations

The declarations of a symbol are looked at twice: the blacklist asks whether all of them are in
listed files, and an interface that shares its name with a value is trusted if any of them is in a
library file. Neither hangs on their order, nor on how often a file occurs among them.

1. `Symbol.Redeclared.all`, `Symbol.Redeclared.isLibrarySymbol`: both questions are about the set of
   files.
2. `TypeGraph.Redeclared.annotate`: so types are annotated by the same walk.
3. `annotate_redeclared`: what this means for suppressed symbols and for interfaces of the library.
-/

namespace ClosureTypes

/-! ## Files of declarations -/

/-- The files that declare the symbol, one for each declaration. -/
def Symbol.files (sym : Symbol) : List String := sym.declarations.map (·.file)

/-- The symbols are declared in the same files, in whatever order, however often and at whatever
nodes, and agree in all else. -/
structure Symbol.Redeclared (sym sym' : Symbol) : Prop where
  name : sym.name = sym'.name
  flags : sym.flags = sym'.flags
  members : sym.members = sym'.members
  parent : sym.parent? = sym'.parent?
  files : ∀ file, file ∈ sym.files ↔ file ∈ sym'.files

namespace Symbol

theorem isEmpty_declarations (sym : Symbol) : sym.declarations.isEmpty = sym.files.isEmpty := by
  rw [files, List.isEmpty_map]

theorem all_declarations (sym : Symbol) (P : String → Bool) :
    (sym.declarations.all fun d => P d.file) = sym.files.all P := by
  rw [files, List.all_map, Function.comp_def]

theorem any_declarations (sym : Symbol) (P : String → Bool) :
    (sym.declarations.any fun d => P d.file) = sym.files.any P := by
  rw [files, List.any_map, Function.comp_def]

namespace Redeclared

variable {sym sym' : Symbol} (h : sym.Redeclared sym')

include h

theorem isEmpty : sym.declarations.isEmpty = sym'.declarations.isEmpty := by
  rw [isEmpty_declarations, isEmpty_declarations, Bool.eq_iff_iff, List.isEmpty_iff,
    List.isEmpty_iff, List.eq_nil_iff_forall_not_mem, List.eq_nil_iff_forall_not_mem]
  simp only [h.files]

theorem all (P : String → Bool) :
    (sym.declarations.all fun d => P d.file) = sym'.declarations.all fun d => P d.file := by
  rw [all_declarations, all_declarations, Bool.eq_iff_iff, List.all_eq_true, List.all_eq_true]
  simp only [h.files]

theorem isLibrarySymbol : Annotate.isLibrarySymbol sym = Annotate.isLibrarySymbol sym' := by
  unfold Annotate.isLibrarySymbol
  rw [any_declarations, any_declarations, Bool.eq_iff_iff, List.any_eq_true, List.any_eq_true]
  simp only [h.files]

theorem isTypeAndValue : sym.isTypeAndValue = sym'.isTypeAndValue := by
  rw [Symbol.isTypeAndValue, Symbol.isTypeAndValue, h.flags]

theorem sighting (scope : Scope) (s : SymbolId) :
    Annotate.sighting id scope s sym = Annotate.sighting id scope s sym' := by
  simp only [Annotate.sighting, h.name, h.flags, h.members, h.isTypeAndValue, h.isLibrarySymbol]

end Redeclared

end Symbol

/-- The graphs agree but for the order, the number and the nodes of declarations. -/
structure TypeGraph.Redeclared (g g' : TypeGraph) : Prop where
  types : ∀ t, g.type? t = g'.type? t
  symbols : ∀ s, Option.Rel Symbol.Redeclared (g.symbol? s) (g'.symbol? s)
  symbolCount : g.symbols.size = g'.symbols.size
  symbolType : ∀ s node, g.symbolType? s node = g'.symbolType? s node
  container : ∀ node, g.container? node = g'.container? node

/-! ## What levels read in the two graphs -/

namespace TypeGraph.Redeclared

variable {g g' : TypeGraph} (h : g.Redeclared g')

include h

theorem cases_symbol (s : SymbolId) :
    (g.symbol? s = none ∧ g'.symbol? s = none) ∨
      ∃ sym sym', g.symbol? s = some sym ∧ g'.symbol? s = some sym' ∧ sym.Redeclared sym' := by
  have hs := h.symbols s
  generalize g.symbol? s = sym?, g'.symbol? s = sym'? at hs ⊢
  cases hs with
  | none => exact .inl ⟨rfl, rfl⟩
  | some hsym => exact .inr ⟨_, _, rfl, rfl, hsym⟩

/-- What does not hang on the order of declarations is the same of each symbol. -/
theorem map_symbol {α : Type} {f : Symbol → α}
    (hf : ∀ sym sym', sym.Redeclared sym' → f sym = f sym') (s : SymbolId) :
    (g.symbol? s).map f = (g'.symbol? s).map f := by
  obtain ⟨hs, hs'⟩ | ⟨sym, sym', hs, hs', hsym⟩ := h.cases_symbol s
  · rw [hs, hs']
  · rw [hs, hs', Option.map_some, Option.map_some, hf sym sym' hsym]

theorem shownAlike (s : SymbolId) : g.ShownAlike g' s where
  name := h.map_symbol (fun _ _ hsym => hsym.name) s
  parent := by
    have hparent := congrArg (Option.bind · id) (h.map_symbol (fun _ _ hsym => hsym.parent) s)
    simpa [parent?, Option.bind_map, Function.comp_def] using hparent

theorem nameOf (scope : Scope) (s : SymbolId) : scope.nameOf g s = scope.nameOf g' s :=
  nameOf_congr (K := fun _ => True) (fun _ _ _ _ => trivial) (fun s _ => h.shownAlike s) scope
    (h.container _) (fun _ => by rw [h.symbolCount]) trivial

theorem describe (t : TypeId) : g.describe t = g'.describe t :=
  describeWithin_congr
    { records := fun _ _ u _ => h.types u
      symbols := fun _ _ _ _ _ _ s _ =>
        h.map_symbol (fun _ _ hsym => Prod.ext hsym.name hsym.flags) s
      known := fun u _ => by rw [h.types u] }

theorem agreeOnSymbol (scope : Scope) (s : SymbolId) :
    Annotate.AgreeOnSymbol id g scope g' scope s where
  name := h.nameOf scope s
  suppression := by
    funext plan
    unfold Annotate.unlessSuppressed
    cases scope.blacklistFor? s with
    | none => rfl
    | some files =>
      obtain ⟨hs, hs'⟩ | ⟨sym, sym', hs, hs', hsym⟩ := h.cases_symbol s
      · simp only [hs, hs']
      · simp only [hs, hs', hsym.isEmpty, hsym.all]
  sighting := h.map_symbol (fun _ _ hsym => hsym.sighting scope s) s

theorem slot (scope : Scope) (s : SymbolId) :
    Annotate.slot g scope s = Annotate.slot g' scope s := by
  unfold Annotate.slot
  rw [h.symbolType]
  obtain ⟨hs, hs'⟩ | ⟨sym, sym', hs, hs', heq⟩ := Option.cases_of_map_eq_map (h.shownAlike s).name
  · rw [hs, hs']
  · simp only [hs, hs', heq]

theorem agree (scope : Scope) (t : TypeId) : Annotate.Agree id g scope g' scope t where
  record := h.types t
  description start := by rw [h.describe]
  symbol _ s _ _ := h.agreeOnSymbol scope s
  target _ u _ _ := by rw [h.types]
  slot s _ := by rw [h.slot]

/-- In the two graphs types are annotated by the same walk. -/
theorem annotate (scope : Scope) : annotate g scope = ClosureTypes.annotate g' scope := by
  funext t
  refine annotateWithin_eq_of_plan (K := fun _ => True) (fun u _ => ?_) (fun u _ => h.describe u)
    (fun _ _ _ _ => trivial) levelLimit trivial
  simpa only [Plan.reword_id] using (h.agree scope u).plan_reword

theorem isSuppressed (scope : Scope) (s : SymbolId) :
    Annotate.isSuppressed g scope s = Annotate.isSuppressed g' scope s := by
  unfold Annotate.isSuppressed Walk.symbol
  cases scope.blacklistFor? s with
  | none => rfl
  | some files =>
    obtain ⟨hs, hs'⟩ | ⟨sym, sym', hs, hs', hsym⟩ := h.cases_symbol s
    · simp only [hs, hs']
    · simp only [hs, hs', pure_bind, hsym.isEmpty, hsym.all]

end TypeGraph.Redeclared

/-! ## Interfaces of the library -/

/-- An interface is written by name if any of its declarations is in the library, and the blacklist
does not hit it. -/
theorem Annotate.plan_of_libraryInterface {g : TypeGraph} {scope : Scope} {t : TypeId}
    {r : TypeRecord} {s : SymbolId} {sym : Symbol} {d : Declaration} (hr : g.type? t = some r)
    (hk : Kind.ofFlags? r.flags = some .object) (hi : r.objectFlags.has .interface = true)
    (hs : r.symbol? = some s) (hsym : g.symbol? s = some sym) (hd : d ∈ sym.declarations)
    (hlibrary : isLibraryPath d.file = true) (hspared : scope.Spares g s) :
    plan g scope t = .fill (.answer (.named (scope.nameOf g s))) := by
  have hknown : isLibrarySymbol sym = true := List.any_eq_true.2 ⟨d, hd, hlibrary⟩
  have hinterface : interfacePlan g scope r = .fill (.answer (.named (scope.nameOf g s))) := by
    simp [interfacePlan, hs, hsym, hknown]
  have hclass : classPlan g scope r = .fill (.answer (.named (scope.nameOf g s))) := by
    simp [classPlan, hs]
  have hsort : sortPlan g scope t r = .fill (.answer (.named (scope.nameOf g s))) := by
    rw [sortPlan, hinterface, hclass, if_pos hi, ite_self]
  simp [plan, hr, hk, Kind.fixed?, kindPlan, objectPlan, hs, unlessSuppressed_of_spares hspared,
    hsort]

/-- **The order of declarations.** Let two graphs agree but for the declarations of their symbols,
of which only the order, the repetition and the nodes differ. Then the annotation of any type, in
any scope, whatever has been visited and reported by then, gives the same expression or fault, the
same messages and the same visited literals. It does not matter to the blacklist either which
declaration comes first; and an interface that the blacklist does not hit is written by its name in
both graphs, whichever of its declarations is the one in the library. -/
theorem annotate_redeclared {g g' : TypeGraph} (h : g.Redeclared g') (scope : Scope) :
    (∀ t p, (annotate g scope t).outcome p = (annotate g' scope t).outcome p ∧
      (annotate g scope t).after p = (annotate g' scope t).after p) ∧
    (∀ s p, (Annotate.isSuppressed g scope s).outcome p =
        (Annotate.isSuppressed g' scope s).outcome p ∧
      (Annotate.isSuppressed g scope s).after p = (Annotate.isSuppressed g' scope s).after p) ∧
    ∀ t r s sym, g.type? t = some r → Kind.ofFlags? r.flags = some .object →
      r.objectFlags.has .interface = true → r.symbol? = some s → g.symbol? s = some sym →
      (∃ d ∈ sym.declarations, isLibraryPath d.file = true) → scope.Spares g s →
      ∀ p, (annotate g scope t).outcome p = .ok (.named (scope.nameOf g s)) ∧
        (annotate g' scope t).outcome p = .ok (.named (scope.nameOf g s)) := by
  rw [h.annotate]
  refine ⟨fun t p => ⟨rfl, rfl⟩, fun s p => by rw [h.isSuppressed]; exact ⟨rfl, rfl⟩, ?_⟩
  rintro t r s sym hr hk hi hs hsym ⟨d, hd, hlibrary⟩ hspared p
  have hplan := Annotate.plan_of_libraryInterface hr hk hi hs hsym hd hlibrary hspared
  rw [← h.annotate, ClosureTypes.annotate, levelLimit, annotateWithin_eq_run, hplan]
  exact ⟨by simp [Plan.run], by simp [Plan.run]⟩

/-- A union of an interface of the library that is also a variable and that the user adds to, a
class, and an interface. -/
def redeclaredShop (declarations : List (List Declaration)) : TypeGraph where
  types := #[
    { flags := .ofList [TypeFlag.union], constituents := [⟨1⟩, ⟨2⟩, ⟨3⟩] },
    .object (.ofList [ObjectFlag.interface]) (some ⟨0⟩),
    .object (.ofList [ObjectFlag.classType]) (some ⟨1⟩),
    .object (.ofList [ObjectFlag.interface]) (some ⟨2⟩)]
  symbols := #[
    { name := "Array"
      flags := .ofList [SymbolFlag.functionScopedVariable, SymbolFlag.interface]
      declarations := declarations.getD 0 [] },
    { name := "Shop", flags := .ofList [SymbolFlag.classType]
      declarations := declarations.getD 1 [] },
    { name := "Till", flags := .ofList [SymbolFlag.interface]
      declarations := declarations.getD 2 [] }]

/-- The declarations of the shop, the library's before the user's. -/
def libraryFirst : List (List Declaration) :=
  [[{ file := "lib.es5.d.ts" }, { file := "shop.ts" }],
    [{ file := "vendor.d.ts" }, { file := "shop.ts" }],
    [{ file := "vendor.d.ts" }]]

/-- The same files in another order, some of them repeated. -/
def libraryLast : List (List Declaration) :=
  [[{ file := "shop.ts", node := ⟨3⟩ }, { file := "lib.es5.d.ts" }],
    [{ file := "shop.ts" }, { file := "vendor.d.ts" }, { file := "shop.ts", node := ⟨5⟩ }],
    [{ file := "vendor.d.ts" }, { file := "vendor.d.ts", node := ⟨9⟩ }]]

/-- Suppresses what the vendor's file declares. -/
def vendorFree : Scope where
  anchor := .nowhere
  blacklist? := some ["vendor.d.ts"]

theorem redeclaredShop_redeclared {declarations declarations' : List (List Declaration)}
    (h : ∀ i file, file ∈ (declarations.getD i []).map (·.file) ↔
      file ∈ (declarations'.getD i []).map (·.file)) :
    (redeclaredShop declarations).Redeclared (redeclaredShop declarations') where
  types _ := rfl
  symbols s := by
    simp only [TypeGraph.symbol?, redeclaredShop]
    rcases s.index with _ | _ | _ | i
    · exact .some ⟨rfl, rfl, rfl, rfl, h 0⟩
    · exact .some ⟨rfl, rfl, rfl, rfl, h 1⟩
    · exact .some ⟨rfl, rfl, rfl, rfl, h 2⟩
    · exact .none
  symbolCount := rfl
  symbolType _ _ := rfl
  container _ := rfl

theorem redeclaredShop_annotated :
    (annotate (redeclaredShop libraryFirst) vendorFree ⟨0⟩).outcome {} =
        (annotate (redeclaredShop libraryLast) vendorFree ⟨0⟩).outcome {} ∧
      (annotate (redeclaredShop libraryLast) vendorFree ⟨1⟩).outcome {} =
        .ok (.named "Array") ∧
      ((annotate (redeclaredShop libraryFirst) vendorFree ⟨0⟩).outcome {}).map
        TypeExpr.render = .ok "(!Array|!Shop|?)" := by
  have h : (redeclaredShop libraryFirst).Redeclared (redeclaredShop libraryLast) := by
    refine redeclaredShop_redeclared fun i file => ?_
    rcases i with _ | _ | _ | i <;> simp [libraryFirst, libraryLast, or_comm]
  obtain ⟨hannotate, -, hinterface⟩ := annotate_redeclared h vendorFree
  have hspared : vendorFree.Spares (redeclaredShop libraryFirst) ⟨0⟩ := by
    intro files hfiles
    cases hfiles
    exact .inr ⟨_, rfl, { file := "shop.ts" }, by decide, by decide⟩
  refine ⟨(hannotate ⟨0⟩ {}).1, ?_, by rfl⟩
  exact (hinterface ⟨1⟩ _ ⟨0⟩ _ rfl (by decide) (by decide) rfl rfl
    ⟨{ file := "lib.es5.d.ts" }, by decide, by decide⟩ hspared {}).2

end ClosureTypes
