import ClosureTypes.Graph.Build
import ClosureTypes.Proofs.Ancestors
import ClosureTypes.Proofs.DescriptionReach
import ClosureTypes.Proofs.Layouts
import ClosureTypes.Proofs.Reading

/-!
# Growing graphs

In a closed graph all handles lead somewhere, so its own types lead to nothing else than its own
types. What is appended to such a graph does not change how these are expressed, even though the
bound on qualified names grows with the graph.

1. `TypeGraph.Closed.next`: the types of a closed graph lead to types of it.
2. `TypeGraph.Extends.step`, `TypeGraph.Extends.runAll`: what steps that append leave as it was.
3. `TypeGraph.Extends.agree`: levels of types of the smaller graph read the same in the larger one.
4. `annotate_grown`: so such types have the same expressions, with the same messages.
-/

namespace ClosureTypes

/-! ## Closed graphs -/

/-- The types that a record mentions. -/
def TypeRecord.typeIds (r : TypeRecord) : List TypeId :=
  r.aliasArguments ++ r.target?.toList ++ r.arguments ++ r.constituents ++
    (r.callSignatures ++ r.constructSignatures).filterMap (·.result?) ++
    r.stringIndex?.toList ++ r.numberIndex?.toList

/-- The symbols that a record mentions. -/
def TypeRecord.symbolIds (r : TypeRecord) : List SymbolId :=
  r.symbol?.toList ++ r.aliasSymbol?.toList ++
    (r.callSignatures ++ r.constructSignatures).flatMap (·.parameters)

/-- The symbols that a symbol mentions. -/
def Symbol.symbolIds (sym : Symbol) : List SymbolId :=
  sym.members.entries.map Prod.snd ++ sym.parent?.toList

namespace TypeGraph

/-- All handles in the graph lead somewhere, and no symbol stands inside itself. -/
structure Closed (g : TypeGraph) : Prop where
  types : ∀ t r, g.type? t = some r →
    (∀ u ∈ r.typeIds, g.type? u ≠ none) ∧ ∀ s ∈ r.symbolIds, g.symbol? s ≠ none
  symbols : ∀ s sym, g.symbol? s = some sym → ∀ s' ∈ sym.symbolIds, g.symbol? s' ≠ none
  declaredTypes : ∀ s t, g.declaredTypes.find? s = some t → g.symbol? s ≠ none ∧ g.type? t ≠ none
  localTypes : ∀ s node t, g.localTypes.find? (s, node) = some t →
    g.symbol? s ≠ none ∧ g.type? t ≠ none
  containers : ∀ node s, g.containers.find? node = some s → g.symbol? s ≠ none
  acyclic : g.Acyclic

namespace Closed

variable {g : TypeGraph} (hg : g.Closed)

include hg

theorem parentsKnown : g.ParentsKnown := fun s sym p hsym hp =>
  hg.symbols s sym hsym p (by simp [Symbol.symbolIds, hp])

theorem parent?_known {s p : SymbolId} (h : g.parent? s = some p) : g.symbol? p ≠ none := by
  obtain ⟨sym, hsym, hp⟩ := Option.bind_eq_some_iff.1 h
  exact hg.parentsKnown s sym p hsym hp

theorem symbolType?_known {s : SymbolId} {node : NodeId} {t : TypeId}
    (h : g.symbolType? s node = some t) : g.type? t ≠ none := by
  rcases Option.or_eq_some_iff.1 h with h | ⟨-, h⟩
  · exact (hg.localTypes s node t h).2
  · exact (hg.declaredTypes s t h).2

section

variable {t : TypeId} {r : TypeRecord} (hr : g.type? t = some r)

include hr

theorem symbol_known {s : SymbolId} (hs : r.symbol? = some s) : g.symbol? s ≠ none :=
  (hg.types t r hr).2 s (by simp [TypeRecord.symbolIds, hs])

/-- The symbols that a type mentions are known. -/
theorem mentioned_known {s : SymbolId} (hs : s ∈ g.mentioned t) : g.symbol? s ≠ none := by
  have hsymbols := (hg.types t r hr).2
  simp only [mentioned, hr, Option.toList_some, List.flatMap_cons, List.flatMap_nil,
    List.append_nil, List.mem_append] at hs
  rcases hs with (hs | hs) | hs
  · exact hg.symbol_known hr (Option.mem_toList.1 hs)
  · obtain ⟨sym, hsym, hs⟩ := List.mem_flatMap.1 hs
    obtain ⟨owner, -, howner⟩ := Option.bind_eq_some_iff.1 (Option.mem_toList.1 hsym)
    exact hg.symbols owner sym howner s (List.mem_append_left _ hs)
  · exact hsymbols s (List.mem_append_right _ hs)

variable {anchor : NodeId} {u : TypeId}

theorem signatureTypes_known {signature : Signature}
    (hσ : signature ∈ r.callSignatures ++ r.constructSignatures)
    (hu : u ∈ g.signatureTypes anchor signature) : g.type? u ≠ none := by
  rcases List.mem_append.1 hu with hu | hu
  · obtain ⟨s, -, hs⟩ := List.mem_filterMap.1 hu
    exact hg.symbolType?_known hs
  · have hresult : u ∈ (r.callSignatures ++ r.constructSignatures).filterMap (·.result?) :=
      List.mem_filterMap.2 ⟨signature, hσ, Option.mem_toList.1 hu⟩
    refine (hg.types t r hr).1 u ?_
    simp only [TypeRecord.typeIds, List.mem_append]
    tauto

theorem loneSignatureTypes_known (hu : u ∈ g.loneSignatureTypes anchor r.callSignatures) :
    g.type? u ≠ none := by
  unfold loneSignatureTypes at hu
  split at hu
  · next signature hcalls => exact hg.signatureTypes_known hr (by simp [hcalls]) hu
  · cases hu

theorem literalTypes_known {sym : Symbol} (hu : u ∈ g.literalTypes anchor r sym) :
    g.type? u ≠ none := by
  unfold literalTypes at hu
  split at hu
  · next signature _ hconstruct => exact hg.signatureTypes_known hr (by simp [hconstruct]) hu
  · rcases List.mem_append.1 hu with hu | hu
    · obtain ⟨m, -, hm⟩ := List.mem_filterMap.1 hu
      exact hg.symbolType?_known hm
    · unfold shapeTypes at hu
      split at hu
      · split at hu
        · exact hg.loneSignatureTypes_known hr hu
        · have htypes := (hg.types t r hr).1 u
          rcases Option.or_eq_some_iff.1 (Option.mem_toList.1 hu) with hu | ⟨-, hu⟩
          · exact htypes (by simp [TypeRecord.typeIds, hu])
          · exact htypes (by simp [TypeRecord.typeIds, hu])
        · cases hu
      · cases hu

theorem recordTypes_known (hu : u ∈ g.recordTypes anchor r) : g.type? u ≠ none := by
  have htypes := (hg.types t r hr).1 u
  unfold recordTypes at hu
  split at hu
  · exact htypes (by simp [TypeRecord.typeIds, hu])
  · unfold referenceTypes at hu
    split at hu
    · cases hu
    · next target htarget =>
      split_ifs at hu
      · cases hu
      · rcases List.mem_cons.1 hu with rfl | hu
        · exact htypes (by simp [TypeRecord.typeIds, htarget])
        · exact htypes (by simp [TypeRecord.typeIds, hu])
  · obtain ⟨sym, -, hu⟩ := List.mem_flatMap.1 hu
    unfold anonymousTypes at hu
    split_ifs at hu
    · exact hg.literalTypes_known hr hu
    · exact hg.loneSignatureTypes_known hr hu
    · cases hu
  · cases hu
  · cases hu

end

/-- The arguments of the aliases in a closed graph are types of it. -/
theorem argumentsIn_known {n : Nat} {t u : TypeId} (ht : g.type? t ≠ none)
    (hu : u ∈ g.argumentsIn n t) : g.type? u ≠ none := by
  induction n generalizing t with
  | zero =>
    rw [List.mem_singleton.1 hu]
    exact ht
  | succ n ih =>
    obtain ⟨r, hr, hu⟩ := List.mem_flatMap.1 hu
    obtain ⟨v, hv, hu⟩ := List.mem_flatMap.1 hu
    exact ih ((hg.types t r (Option.mem_toList.1 hr)).1 v (by simp [TypeRecord.typeIds, hv])) hu

/-- The types of a closed graph lead to types of it. -/
theorem next {anchor : NodeId} {t u : TypeId} (hu : u ∈ g.next anchor t) : g.type? u ≠ none := by
  obtain ⟨r, hr, hu⟩ := List.mem_flatMap.1 hu
  exact hg.recordTypes_known (Option.mem_toList.1 hr) hu

end Closed

/-! ## Larger graphs -/

/-- The second graph has all that the first one knows, unchanged. -/
structure Extends (g g' : TypeGraph) : Prop where
  types : ∀ t, g.type? t ≠ none → g.type? t = g'.type? t
  symbols : ∀ s, g.symbol? s ≠ none → g.symbol? s = g'.symbol? s
  declaredTypes : ∀ s, g.symbol? s ≠ none → g.declaredTypes.find? s = g'.declaredTypes.find? s
  localTypes : g.localTypes = g'.localTypes
  containers : g.containers = g'.containers
  symbolCount : g.symbols.size ≤ g'.symbols.size

end TypeGraph

open TypeGraph.Build

/-- The step appends types and symbols, and gives members only to symbols that are not in `g`. -/
def TypeGraph.Build.Step.Appends (g : TypeGraph) : Step → Prop
  | .member owner _ => g.symbols.size ≤ owner.index
  | .property owner _ _ => g.symbols.size ≤ owner.index
  | .declareType _ _ => False
  | .declareTypeAt _ _ _ => False
  | .encloseNode _ _ => False
  | _ => True

theorem TypeGraph.size_modifySymbol (g : TypeGraph) (s : SymbolId) (f : Symbol → Symbol) :
    (g.modifySymbol s f).symbols.size = g.symbols.size :=
  Array.size_modify

theorem TypeGraph.Build.size_run_symbol (sym : Symbol) (g : TypeGraph) :
    ((symbol sym).run g).2.symbols.size = g.symbols.size + 1 :=
  Array.size_push sym

theorem TypeGraph.Build.size_run_member (owner : SymbolId) (sym : Symbol) (g : TypeGraph) :
    ((member owner sym).run g).2.symbols.size = g.symbols.size + 1 :=
  (size_modifySymbol _ owner _).trans (size_run_symbol sym g)

/-- Where all handles have been given out, a new parameter gets the handle of the first symbol, and
its type takes the place of that symbol's. -/
theorem TypeGraph.Build.declaredTypes_run_parameter_of_full (name : String) (t : TypeId)
    {g : TypeGraph} (h : g.symbols.size = UInt32.size) :
    ((parameter name t).run g).2.declaredTypes.find? (.ofIndex 0) = some t := by
  have hhandle : SymbolId.ofIndex 0 = ((parameter name t).run g).1 := by
    show _ = SymbolId.ofIndex g.symbols.size
    rw [h]
    rfl
  rw [declaredTypes_run_parameter, Bindings.find?_bind, if_pos hhandle]

/-- No step takes symbols away. -/
theorem TypeGraph.Build.Step.symbolCount_le (step : Step) (g : TypeGraph) :
    g.symbols.size ≤ (step.run.run g).2.symbols.size := by
  have hsymbol (sym : Symbol) : g.symbols.size ≤ ((Build.symbol sym).run g).2.symbols.size := by
    rw [size_run_symbol]
    omega
  have hmember (owner : SymbolId) (sym : Symbol) :
      g.symbols.size ≤ ((Build.member owner sym).run g).2.symbols.size := by
    rw [size_run_member]
    omega
  cases step with
  | symbol | parameter | classType | interface | literal | function => exact hsymbol _
  | member owner sym => exact hmember owner sym
  | property owner name t => exact hmember owner _
  | _ => exact Nat.le_refl _

theorem TypeGraph.Build.runAll_cons (step : Step) (rest : List Step) (g : TypeGraph) :
    ((runAll (step :: rest)).run g).2 = ((runAll rest).run (step.run.run g).2).2 := by
  rw [runAll, List.mapM_cons]
  rfl

theorem TypeGraph.Build.symbolCount_le_runAll (steps : List Step) (g : TypeGraph) :
    g.symbols.size ≤ ((runAll steps).run g).2.symbols.size := by
  induction steps generalizing g with
  | nil => exact le_rfl
  | cons step rest ih =>
    rw [runAll_cons]
    exact (step.symbolCount_le g).trans (ih _)

namespace TypeGraph.Extends

variable {g g' : TypeGraph} (h : g.Extends g')

theorem refl (g : TypeGraph) : g.Extends g :=
  ⟨fun _ _ => rfl, fun _ _ => rfl, fun _ _ => rfl, rfl, rfl, le_rfl⟩

include h

theorem type (r : TypeRecord) : g.Extends ((Build.type r).run g').2 := by
  refine { h with types := fun t ht => ?_ }
  have hknown : g'.type? t ≠ none := h.types t ht ▸ ht
  have hne : ¬ t.index = g'.types.size := by
    intro heq
    exact hknown (Array.getElem?_eq_none_iff.2 heq.ge)
  rw [type?_run_type, if_neg hne, h.types t ht]

theorem symbol (sym : Symbol) : g.Extends ((Build.symbol sym).run g').2 := by
  refine { h with
    symbols := fun s hs => ?_
    symbolCount := size_run_symbol sym g' ▸ Nat.le_succ_of_le h.symbolCount }
  have hknown : g'.symbol? s ≠ none := h.symbols s hs ▸ hs
  have hne : ¬ s.index = g'.symbols.size := by
    intro heq
    exact hknown (symbol?_eq_none_iff.2 heq.ge)
  rw [symbol?_run_symbol, if_neg hne, h.symbols s hs]

theorem declareType {s : SymbolId} (hs : g.symbol? s = none) (t : TypeId) :
    g.Extends ((Build.declareType s t).run g').2 := by
  refine { h with declaredTypes := fun u hu => ?_ }
  have hne : ¬ u = s := by
    rintro rfl
    exact hu hs
  show _ = (g'.declaredTypes.bind s t).find? u
  rw [Bindings.find?_bind, if_neg hne, h.declaredTypes u hu]

theorem modifySymbol {s : SymbolId} (hs : g.symbol? s = none) (f : Symbol → Symbol) :
    g.Extends (g'.modifySymbol s f) := by
  refine { h with
    symbols := fun u hu => ?_
    symbolCount := size_modifySymbol g' s f ▸ h.symbolCount }
  have hne : ¬ u = s := by
    rintro rfl
    exact hu hs
  rw [symbol?_modifySymbol, if_neg hne, h.symbols u hu]

/-- The handle that is next to be given out leads to no symbol of the smaller graph. -/
theorem symbol?_ofIndex (hroom : g'.symbols.size < UInt32.size) :
    g.symbol? (.ofIndex g'.symbols.size) = none := by
  rw [symbol?_eq_none_iff, SymbolId.index_ofIndex hroom]
  exact h.symbolCount

/-- A step that appends leaves the rest as it was, as long as there are handles for new symbols. -/
theorem step {step : Step} (hstep : step.Appends g)
    (hroom : (step.run.run g').2.symbols.size ≤ UInt32.size) :
    g.Extends (step.run.run g').2 := by
  cases step with
  | type r => exact h.type r
  | symbol sym => exact h.symbol sym
  | member owner sym => exact (h.symbol sym).modifySymbol (symbol?_eq_none_iff.2 hstep) _
  | property owner name t =>
    -- The handle is new, so its type takes the place of no other.
    have hlt : g'.symbols.size < UInt32.size := (size_run_member owner _ g').ge.trans hroom
    exact ((h.symbol _).modifySymbol (symbol?_eq_none_iff.2 hstep) _).declareType
      (h.symbol?_ofIndex hlt) t
  | parameter name t =>
    have hlt : g'.symbols.size < UInt32.size := (size_run_symbol _ g').ge.trans hroom
    exact (h.symbol _).declareType (h.symbol?_ofIndex hlt) t
  | primitive flags => exact h.type _
  | boolean => exact ((h.type _).type _).type _
  | union constituents => exact h.type _
  | intersection constituents => exact h.type _
  | classType name file => exact (h.symbol _).type _
  | interface name file => exact (h.symbol _).type _
  | reference target arguments => exact h.type _
  | literal file => exact (h.symbol _).type _
  | function name file signature => exact (h.symbol _).type _
  | declareType s t => exact hstep.elim
  | declareTypeAt s node t => exact hstep.elim
  | encloseNode node container => exact hstep.elim

/-- Any number of steps that append leave the rest as it was. -/
theorem runAll {steps : List Step} (hsteps : ∀ step ∈ steps, step.Appends g)
    (hroom : ((Build.runAll steps).run g').2.symbols.size ≤ UInt32.size) :
    g.Extends ((Build.runAll steps).run g').2 := by
  induction steps generalizing g' with
  | nil => exact h
  | cons step rest ih =>
    rw [Build.runAll_cons] at hroom ⊢
    have hmiddle := h.step (hsteps step List.mem_cons_self)
      ((Build.symbolCount_le_runAll rest _).trans hroom)
    exact ih hmiddle (fun later hl => hsteps later (List.mem_cons_of_mem _ hl)) hroom

/-! ## What levels read in the larger graph -/

variable (hg : g.Closed)

include hg

theorem describe {t : TypeId} (ht : g.type? t ≠ none) : g.describe t = g'.describe t := by
  have hrecord {m : Nat} {u : TypeId} (hu : u ∈ g.argumentsIn m t) : g.type? u = g'.type? u :=
    h.types u (hg.argumentsIn_known ht hu)
  refine describeWithin_congr ⟨fun m _ u hu => hrecord hu, fun m _ u _ r hr s hs => ?_,
    fun u hu => by rw [hrecord hu]⟩
  rw [DescribedAlike, h.symbols s ((hg.types u r hr).2 s (List.mem_append_left _ hs))]

variable (scope : Scope)

section

variable {s : SymbolId} (hs : g.symbol? s ≠ none)

include hs

/-- The larger bound on a qualified name does not show more. -/
theorem nameOf : scope.nameOf g s = scope.nameOf g' s := by
  have hsame (s : SymbolId) (hs : g.symbol? s ≠ none) : g.ShownAlike g' s :=
    shownAlike_of_eq (h.symbols s hs)
  have hparent (s p : SymbolId) (_ : g.symbol? s ≠ none) (hp : g.parent? s = some p) :
      g.symbol? p ≠ none := hg.parent?_known hp
  refine nameOf_congr hparent hsame scope (by rw [container?, container?, h.containers])
    (fun stop => ?_) hs
  rw [← ancestry_congr hparent hsame _ _ hs, ← ancestry_congr hparent hsame _ _ hs]
  exact hg.acyclic.ancestry_eq hg.parentsKnown hs stop h.symbolCount

theorem agreeOnSymbol : Annotate.AgreeOnSymbol id g scope g' scope s where
  name := h.nameOf hg scope hs
  suppression := by
    funext plan
    unfold Annotate.unlessSuppressed
    rw [h.symbols s hs]
  sighting := by rw [h.symbols s hs]

omit hg in
theorem slot : Annotate.slot g scope s = Annotate.slot g' scope s := by
  unfold Annotate.slot symbolType?
  rw [h.localTypes, h.declaredTypes s hs, h.symbols s hs]

end

/-- The level of a type of the smaller graph reads the same in the larger one. -/
theorem agree {t : TypeId} (ht : g.type? t ≠ none) : Annotate.Agree id g scope g' scope t where
  record := h.types t ht
  description start := by rw [h.describe hg ht]
  symbol r s hr hs := h.agreeOnSymbol hg scope (hg.symbol_known hr hs)
  target r u hr hu := by rw [h.types u ((hg.types t r hr).1 u (by simp [TypeRecord.typeIds, hu]))]
  slot s hs := by
    obtain ⟨r, hr⟩ := Option.ne_none_iff_exists'.1 ht
    rw [h.slot scope (hg.mentioned_known hr hs)]

theorem annotateWithin (n : Nat) {t : TypeId} (ht : g.type? t ≠ none) :
    annotateWithin g scope n t = annotateWithin g' scope n t := by
  refine annotateWithin_eq_of_plan (K := fun t => g.type? t ≠ none) (fun t ht => ?_)
    (fun t ht => h.describe hg ht) (fun t u _ hu => ?_) n ht
  · simpa only [Plan.reword_id] using (h.agree hg scope ht).plan_reword
  · exact hg.next ((Annotate.plan_cases g scope t).2 u hu)

end TypeGraph.Extends

/-- **Growth.** Let a closed graph grow by any steps that append types and symbols and give members
to new symbols only, as long as there are handles for the symbols. For each type that was there
before, the annotation in any scope, whatever has been visited and reported by then, gives the same
expression or fault, the same messages and the same visited literals as before.

The handles have to last, since a parameter without a new handle would change the type of an old
symbol: `TypeGraph.Build.declaredTypes_run_parameter_of_full`. -/
theorem annotate_grown {g : TypeGraph} (hg : g.Closed) {steps : List Step}
    (hsteps : ∀ step ∈ steps, step.Appends g)
    (hroom : ((runAll steps).run g).2.symbols.size ≤ UInt32.size) (scope : Scope) {t : TypeId}
    (ht : g.type? t ≠ none) (p : Progress) :
    (annotate ((runAll steps).run g).2 scope t).outcome p = (annotate g scope t).outcome p ∧
      (annotate ((runAll steps).run g).2 scope t).after p = (annotate g scope t).after p := by
  have hgrown := (TypeGraph.Extends.refl g).runAll hsteps hroom
  have heq : annotate g scope t = annotate ((runAll steps).run g).2 scope t :=
    hgrown.annotateWithin hg scope levelLimit ht
  rw [heq]
  exact ⟨rfl, rfl⟩

/-- A union of an interface in a namespace, a literal with a member, and a type parameter that was
reached through the alias that the interface is. -/
def library : TypeGraph where
  types := #[
    { flags := .ofList [TypeFlag.union], constituents := [⟨1⟩, ⟨2⟩, ⟨4⟩] },
    .object (.ofList [ObjectFlag.interface]) (some ⟨1⟩),
    .object (.ofList [ObjectFlag.anonymous]) (some ⟨2⟩),
    { flags := .ofList [TypeFlag.string] },
    { flags := .ofList [TypeFlag.typeParameter], aliasSymbol? := some ⟨1⟩,
      aliasArguments := [⟨3⟩] }]
  symbols := #[
    { name := "library", flags := .ofList [SymbolFlag.namespaceModule] },
    { name := "Book", flags := .ofList [SymbolFlag.interface], parent? := some ⟨0⟩ },
    { name := Symbol.literalName, flags := .ofList [SymbolFlag.typeLiteral],
      members := ⟨[("title", ⟨3⟩)], by decide⟩ },
    { name := "title", flags := .ofList [SymbolFlag.property] }]
  declaredTypes := Bindings.empty.bind ⟨3⟩ ⟨3⟩

theorem library_closed : library.Closed where
  types t r hr := by
    have hall : ∀ r ∈ library.types.toList, (∀ u ∈ r.typeIds, library.type? u ≠ none) ∧
        ∀ s ∈ r.symbolIds, library.symbol? s ≠ none := by decide
    exact hall r (TypeGraph.mem_types_of_type? hr)
  symbols s sym hsym := by
    have hall : ∀ sym ∈ library.symbols.toList, ∀ s ∈ sym.symbolIds,
        library.symbol? s ≠ none := by decide
    exact hall sym (TypeGraph.mem_symbols_of_symbol? hsym)
  declaredTypes s t h := by
    rw [library, Bindings.find?_bind] at h
    split at h
    · next hs =>
      cases h
      subst hs
      decide
    · cases h
  localTypes s node t h := by cases h
  containers node s h := by cases h
  acyclic := TypeGraph.acyclic_of_index_lt fun s p => TypeGraph.index_lt_of_parent? (by decide)

/-- Appends a class with a parameter of its name, a reference to the interface, and a literal that
has a member. -/
def librarySteps : List Step :=
  [.symbol { name := "shelf", parent? := some ⟨1⟩ }, .classType "Reader" "reader.d.ts", .boolean,
    .parameter "reader" ⟨5⟩, .reference ⟨1⟩ [⟨0⟩], .literal "shelf.d.ts",
    .member ⟨7⟩ { name := "title" }, .property ⟨7⟩ "title" ⟨0⟩, .union [⟨99⟩]]

theorem library_grown :
    ((annotate library { anchor := .nowhere } ⟨0⟩).outcome {}).map TypeExpr.render =
        .ok "(!library.Book|{title: string}|?)" ∧
      ((annotate library { anchor := .nowhere } ⟨0⟩).after {}).log.messages =
        ["unhandled type parameter " ++
          "\x7btype flags:0x4000 alias:\"Book\" flags:0x40 Interface " ++
          "aliasArgs:<\x7btype flags:0x2 String\x7d> TypeParameter\x7d"] ∧
      (annotate ((runAll librarySteps).run library).2 { anchor := .nowhere } ⟨0⟩).outcome {} =
        (annotate library { anchor := .nowhere } ⟨0⟩).outcome {} ∧
      (annotate ((runAll librarySteps).run library).2 { anchor := .nowhere } ⟨0⟩).after {} =
        (annotate library { anchor := .nowhere } ⟨0⟩).after {} :=
  ⟨by rfl, by decide +kernel, annotate_grown library_closed
    (by simp [librarySteps, Step.Appends]; decide) (by decide +kernel) _ (by decide) {}⟩

end ClosureTypes
