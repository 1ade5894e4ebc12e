import ClosureTypes.Proofs.Stages
import Mathlib.Data.List.Flatten

/-!
# Steps do not disturb each other

As long as there are handles for all types and symbols, no step of a construction disturbs what
another one has built: no handle is given out twice, a type stays as it was built, a symbol changes
only in its member table, and the type of a symbol is the one that was recorded or declared last.

Some steps append more than they answer. The type `boolean` comes with its two literal types, and a
class, an interface or a function with its symbol. So there are handles that lead somewhere though
they have not been answered: `not_only_answered`.

1. `Stage.mem_typeIds_iff`, `Stage.mem_symbolIds_iff`: what is appended beside the answer.
2. `settled_of_room`: what a construction leaves behind.
-/

namespace ClosureTypes

namespace TypeGraph.Build

/-! ## Handles -/

section

variable {ι : Type} {index : ι → Nat} {handle : Nat → ι} {n : Nat}
  (hindex : ∀ i < n, index (handle i) = i)

include hindex

/-- Handles of different positions are different, as long as they name their positions. -/
theorem nodup_handles : ((List.range' 0 n).map handle).Nodup := by
  refine List.Nodup.map_on (fun i hi j hj h => ?_) List.nodup_range'
  rw [← hindex i (by simpa using hi), h, hindex j (by simpa using hj)]

theorem mem_handles_iff (hhandle : ∀ x, handle (index x) = x) {x : ι} :
    x ∈ (List.range' 0 n).map handle ↔ index x < n := by
  rw [List.mem_map]
  constructor
  · rintro ⟨i, hi, rfl⟩
    have hlt : i < n := by simpa using hi
    rwa [hindex i hlt]
  · intro hx
    exact ⟨index x, by simpa using hx, hhandle x⟩

end

namespace Stage

variable {p : Stage}

/-- The types that a step appends are the one that it answers and, if that is `boolean`, its two
constituents. -/
theorem mem_typeIds_iff {t : TypeId} : t ∈ p.typeIds ↔ t ∈ p.answer.typeIds ∨
    p.step = .boolean ∧ ∃ r ∈ p.records.getLast?, t ∈ r.constituents := by
  rw [typeIds_answer]
  obtain ⟨g, step⟩ := p
  cases step with
  | boolean => simp [typeIds, records, Step.records, List.range'_succ, or_comm, or_assoc]
  | _ => simp [typeIds, records, Step.records]

/-- The symbol that a step appends is the one that it answers or that the answered type carries. -/
theorem mem_symbolIds_iff {s : SymbolId} : s ∈ p.symbolIds ↔ s ∈ p.answer.symbolIds ∨
    p.step.hidesSymbol = true ∧ ∃ r ∈ p.records.getLast?, r.symbol? = some s := by
  rw [symbolIds_answer]
  obtain ⟨g, step⟩ := p
  cases step <;> simp [symbolIds, Step.newSymbol?, Step.hidesSymbol, records, Step.records,
    TypeRecord.object, eq_comm]

theorem typeIds_answer_sublist : p.answer.typeIds.Sublist p.typeIds := by
  rw [typeIds_answer]
  cases hlast : p.typeIds.getLast? with
  | none => exact List.nil_sublist _
  | some t =>
    rw [← List.dropLast_append_getLast? t hlast]
    simp

end Stage

/-! ## What a construction leaves behind -/

/-- The graph that a construction from nothing leaves. -/
def built (steps : List Step) : TypeGraph := ((runAll steps).run .empty).2

/-- What a construction from nothing leaves behind is what each of its steps has asked for. -/
structure Settled (steps : List Step) : Prop where
  /-- The steps are answered in order, each as it is on the graph that it meets. -/
  answers : ((runAll steps).run .empty).1 = (stages .empty steps).map Stage.answer
  /-- The type that a step answers is the last one of those that it appends. -/
  typeIds_answer : ∀ p ∈ stages .empty steps, p.answer.typeIds = p.typeIds.getLast?.toList
  /-- The symbol that a step appends is answered, except for classes, interfaces and functions. -/
  symbolIds_answer : ∀ p ∈ stages .empty steps,
    p.answer.symbolIds = if p.step.hidesSymbol then [] else p.symbolIds
  /-- No type is answered twice. -/
  typeIds_nodup : ((stages .empty steps).flatMap (·.answer.typeIds)).Nodup
  /-- No symbol is appended twice, whether it is answered or not. -/
  symbolIds_nodup : ((stages .empty steps).flatMap Stage.symbolIds).Nodup
  /-- A type that was answered has the record that was built for it. -/
  type? : ∀ p ∈ stages .empty steps, ∀ t ∈ p.answer.typeIds,
    ∃ r, p.records.getLast? = some r ∧ (built steps).type? t = some r
  /-- A symbol that was appended is as it was but for its members. -/
  symbol? : ∀ p ∈ stages .empty steps, ∀ s ∈ p.symbolIds,
    ∃ sym members, p.step.newSymbol? = some sym ∧
      (built steps).symbol? s = some { sym with members }
  /-- A type is known just if it was answered or is one of the two that make up a `boolean`. -/
  type?_ne_none : ∀ t, (built steps).type? t ≠ none ↔ ∃ p ∈ stages .empty steps,
    t ∈ p.answer.typeIds ∨ p.step = .boolean ∧ ∃ r ∈ p.records.getLast?, t ∈ r.constituents
  /-- A symbol is known just if it was answered or a class, interface or function carries it. -/
  symbol?_ne_none : ∀ s, (built steps).symbol? s ≠ none ↔ ∃ p ∈ stages .empty steps,
    s ∈ p.answer.symbolIds ∨
      p.step.hidesSymbol = true ∧ ∃ r ∈ p.records.getLast?, r.symbol? = some s
  /-- The type of a symbol is the last one recorded for the node, else the last one declared. -/
  symbolType? : ∀ s node, (built steps).symbolType? s node =
    (lastFor (s, node) (steps.filterMap Step.localDeclaration?)).or
      (lastFor s ((stages .empty steps).filterMap Stage.declaration?))
  /-- The container of a node is the last one recorded for it. -/
  container? : ∀ node, (built steps).container? node =
    lastFor node (steps.filterMap Step.enclosure?)

section

variable {steps : List Step}

theorem typeIds_stages_empty : (stages .empty steps).flatMap Stage.typeIds =
    (List.range' 0 (built steps).types.size).map .ofIndex := by
  rw [typeIds_stages, built, typeCount_runAll]
  simp [TypeGraph.empty]

theorem symbolIds_stages_empty : (stages .empty steps).flatMap Stage.symbolIds =
    (List.range' 0 (built steps).symbols.size).map .ofIndex := by
  rw [symbolIds_stages, built, symbolCount_runAll]
  simp [TypeGraph.empty]

theorem type?_built (htypes : (built steps).types.size ≤ UInt32.size) {p : Stage}
    (hp : p ∈ stages .empty steps) {t : TypeId} (ht : t ∈ p.answer.typeIds) :
    ∃ r, p.records.getLast? = some r ∧ (built steps).type? t = some r := by
  obtain ⟨rest, -, hrest⟩ := exists_runAll_next hp
  have hbuilt : (built steps).types.toList = p.graph.types.toList ++ p.records ++
      (stages p.next rest).flatMap Stage.records := by
    rw [built, hrest, types_runAll, Stage.types_next]
  -- What is answered is the handle of the last record of the stage.
  rw [Stage.typeIds_answer, Stage.typeIds] at ht
  obtain hnone | ⟨front, r, hr⟩ := List.eq_nil_or_concat p.records
  · simp [hnone] at ht
  · obtain rfl : t = .ofIndex (p.graph.types.size + front.length) := by
      simpa [hr, List.range'_1_concat] using ht
    refine ⟨r, by simp [hr], ?_⟩
    have hcount := congrArg List.length hbuilt
    simp only [Array.length_toList, List.length_append, hr, List.concat_eq_append,
      List.length_singleton] at hcount
    show (built steps).types[_]? = _
    rw [TypeId.index_ofIndex (by omega), ← Array.getElem?_toList, hbuilt, hr]
    simp

/-- **Steps do not disturb each other.** As long as there are handles for all that a construction
appends, what it leaves behind is what each of its steps has asked for. -/
theorem settled_of_room {steps : List Step} (htypes : (built steps).types.size ≤ UInt32.size)
    (hsymbols : (built steps).symbols.size ≤ UInt32.size) : Settled steps where
  answers := answers_runAll .empty steps
  typeIds_answer p _ := p.typeIds_answer
  symbolIds_answer p _ := p.symbolIds_answer
  typeIds_nodup := by
    refine List.Nodup.sublist (List.Sublist.flatMap_right _ fun p _ => p.typeIds_answer_sublist) ?_
    rw [typeIds_stages_empty]
    exact nodup_handles fun i hi => TypeId.index_ofIndex (Nat.lt_of_lt_of_le hi htypes)
  symbolIds_nodup := by
    rw [symbolIds_stages_empty]
    exact nodup_handles fun i hi => SymbolId.index_ofIndex (Nat.lt_of_lt_of_le hi hsymbols)
  type? p hp t ht := type?_built htypes hp ht
  symbol? p hp s hs := symbol?_runAll_of_mem hsymbols hp hs
  type?_ne_none t := by
    have hmem := mem_handles_iff (fun i hi => TypeId.index_ofIndex (Nat.lt_of_lt_of_le hi htypes))
      TypeId.ofIndex_index (x := t)
    rw [← typeIds_stages_empty, List.mem_flatMap] at hmem
    simp only [Stage.mem_typeIds_iff] at hmem
    rw [hmem, ne_eq, TypeGraph.type?, Array.getElem?_eq_none_iff, Nat.not_le]
  symbol?_ne_none s := by
    have hmem := mem_handles_iff
      (fun i hi => SymbolId.index_ofIndex (Nat.lt_of_lt_of_le hi hsymbols))
      SymbolId.ofIndex_index (x := s)
    rw [← symbolIds_stages_empty, List.mem_flatMap] at hmem
    simp only [Stage.mem_symbolIds_iff] at hmem
    rw [hmem, ne_eq, symbol?_eq_none_iff, Nat.not_le]
  symbolType? s node := by
    rw [built, symbolType?_runAll, Bindings.find?_bindAll, Bindings.find?_bindAll]
    simp [TypeGraph.empty]
  container? node := by
    rw [built, container?_runAll, Bindings.find?_bindAll]
    simp [TypeGraph.empty]

end

/-- A class, and a reference to it; and a parameter of the type `boolean` that is declared to be of
the class later, but not where a node has a type of its own for it. -/
def parcel : List Step :=
  [.classType "Parcel" "parcel.d.ts", .boolean, .parameter "sent" ⟨3⟩,
    .declareTypeAt ⟨1⟩ ⟨7⟩ ⟨3⟩, .declareType ⟨1⟩ ⟨0⟩, .reference ⟨0⟩ [⟨3⟩]]

theorem parcel_settled : Settled parcel ∧ (built parcel).symbolType? ⟨1⟩ ⟨7⟩ = some ⟨3⟩ ∧
    (built parcel).symbolType? ⟨1⟩ ⟨8⟩ = some ⟨0⟩ ∧
    ((built parcel).type? ⟨4⟩).bind TypeRecord.symbol? = some ⟨0⟩ := by
  have hsettled : Settled parcel := settled_of_room (by decide) (by decide)
  refine ⟨hsettled, hsettled.symbolType? ⟨1⟩ ⟨7⟩, hsettled.symbolType? ⟨1⟩ ⟨8⟩, ?_⟩
  obtain ⟨r, hr, htype⟩ := hsettled.type? ((stages .empty parcel).getLast (by decide))
    (List.getLast_mem _) ⟨4⟩ (by decide)
  cases hr
  rw [htype]
  rfl

/-- Not all that is known has been answered: there are the types that make up `boolean`, and the
symbol of a class. -/
theorem not_only_answered :
    (¬ ∀ steps : List Step, (built steps).types.size < UInt32.size →
      (built steps).symbols.size < UInt32.size →
        ∀ t, t ∉ ((runAll steps).run .empty).1.flatMap Answer.typeIds →
          (built steps).type? t = none) ∧
      ¬ ∀ steps : List Step, (built steps).types.size < UInt32.size →
        (built steps).symbols.size < UInt32.size →
          ∀ s, s ∉ ((runAll steps).run .empty).1.flatMap Answer.symbolIds →
            (built steps).symbol? s = none := by
  constructor
  · intro h
    have hnone := h [.boolean] (by decide) (by decide) ⟨0⟩ (by decide)
    exact absurd hnone (by decide)
  · intro h
    have hnone := h [.classType "Box" "box.d.ts"] (by decide) (by decide) ⟨0⟩ (by decide)
    exact absurd hnone (by decide)

end TypeGraph.Build

end ClosureTypes
