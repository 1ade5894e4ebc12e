import ClosureTypes.Proofs.Growth

/-!
# Constructions stage by stage

Each step of a construction meets the graph that the steps before it have built. What the step
appends, and where it enters a symbol or a type, depends on nothing but the step and this graph; it
is told here once for all sorts of steps. The rest of a construction adds to it and leaves it there.

1. `Stage.types_next`, `Stage.symbol?_next`, `Stage.declaredTypes_next`: what one step does.
2. `types_runAll`, `symbol?_runAll_of_some`, `symbolType?_runAll`: what a construction does.
-/

namespace ClosureTypes

/-! ## Members one after another -/

/-- The table after members have been inserted one after another. -/
def MemberTable.insertAll (m : MemberTable) (members : List (String × SymbolId)) : MemberTable :=
  members.foldl (fun m e => m.insert e.1 e.2) m

/-- The symbol after members have been inserted in its table one after another. -/
def Symbol.withMembers (sym : Symbol) (members : List (String × SymbolId)) : Symbol :=
  { sym with members := sym.members.insertAll members }

@[simp] theorem Symbol.withMembers_nil (sym : Symbol) : sym.withMembers [] = sym := rfl

theorem Symbol.withMembers_append (sym : Symbol) (l l' : List (String × SymbolId)) :
    sym.withMembers (l ++ l') = (sym.withMembers l).withMembers l' := by
  simp [withMembers, MemberTable.insertAll]

namespace TypeGraph

theorem symbol?_eq_getElem? (g : TypeGraph) (s : SymbolId) :
    g.symbol? s = g.symbols.toList[s.index]? :=
  Array.getElem?_toList.symm

namespace Build

/-! ## What steps ask for -/

/-- The types of an answer. -/
def Answer.typeIds : Answer → List TypeId
  | .type t | .literal t _ => [t]
  | .symbol _ | .done => []

/-- The symbols of an answer. -/
def Answer.symbolIds : Answer → List SymbolId
  | .symbol s | .literal _ s => [s]
  | .type _ | .done => []

namespace Step

/-- The records that a step appends to `g`. The one for the type that it answers comes last. -/
def records (g : TypeGraph) : Step → List TypeRecord
  | .type record => [record]
  | .primitive flags => [{ flags }]
  | .boolean =>
    [{ flags := .ofList [TypeFlag.booleanLiteral] }, { flags := .ofList [TypeFlag.booleanLiteral] },
      { flags := .ofList [TypeFlag.boolean, TypeFlag.union]
        constituents := [.ofIndex g.types.size, .ofIndex (g.types.size + 1)] }]
  | .union constituents => [{ flags := .ofList [TypeFlag.union], constituents }]
  | .intersection constituents => [{ flags := .ofList [TypeFlag.intersection], constituents }]
  | .classType _ _ => [.object (.ofList [ObjectFlag.classType]) (some (.ofIndex g.symbols.size))]
  | .interface _ _ => [.object (.ofList [ObjectFlag.interface]) (some (.ofIndex g.symbols.size))]
  | .reference target arguments =>
    [{ TypeRecord.object (.ofList [ObjectFlag.reference]) ((g.type? target).bind (·.symbol?)) with
      target? := some target
      arguments }]
  | .literal _ => [.object (.ofList [ObjectFlag.anonymous]) (some (.ofIndex g.symbols.size))]
  | .function _ _ signature =>
    [{ TypeRecord.object (.ofList [ObjectFlag.anonymous]) (some (.ofIndex g.symbols.size)) with
      callSignatures := [signature] }]
  | .symbol _ | .member _ _ | .property _ _ _ | .parameter _ _ => []
  | .declareType _ _ | .declareTypeAt _ _ _ | .encloseNode _ _ => []

/-- The symbol that a step appends. -/
def newSymbol? : Step → Option Symbol
  | .symbol sym | .member _ sym => some sym
  | .property _ name _ => some { name, flags := .ofList [SymbolFlag.property] }
  | .parameter name _ => some { name, flags := .ofList [SymbolFlag.functionScopedVariable] }
  | .classType name file =>
    some { name, flags := .ofList [SymbolFlag.classType], declarations := [{ file }] }
  | .interface name file =>
    some { name, flags := .ofList [SymbolFlag.interface], declarations := [{ file }] }
  | .literal file => some
    { name := Symbol.literalName
      flags := .ofList [SymbolFlag.typeLiteral]
      declarations := [{ file }] }
  | .function name file _ =>
    some { name, flags := .ofList [SymbolFlag.function], declarations := [{ file }] }
  | .type _ | .primitive _ | .boolean | .union _ | .intersection _ | .reference _ _ => none
  | .declareType _ _ | .declareTypeAt _ _ _ | .encloseNode _ _ => none

/-- The step appends a symbol that it does not answer; the type that it answers carries it. -/
def hidesSymbol : Step → Bool
  | .classType _ _ | .interface _ _ | .function _ _ _ => true
  | _ => false

/-- The owner of a member that a step adds, with the member's name, and its handle in the answer. -/
def insertion? : Step → Answer → Option (SymbolId × String × SymbolId)
  | .member owner sym, .symbol s => some (owner, sym.name, s)
  | .property owner name _, .symbol s => some (owner, name, s)
  | _, _ => none

/-- The symbol whose type a step with this answer declares, and the type. -/
def declaration? : Step → Answer → Option (SymbolId × TypeId)
  | .declareType s t, _ => some (s, t)
  | .property _ _ t, .symbol s => some (s, t)
  | .parameter _ t, .symbol s => some (s, t)
  | _, _ => none

/-- The symbol and the node for which a step records a type, and the type. -/
def localDeclaration? : Step → Option ((SymbolId × NodeId) × TypeId)
  | .declareTypeAt s node t => some ((s, node), t)
  | _ => none

/-- The node for which a step records a container, and the container. -/
def enclosure? : Step → Option (NodeId × SymbolId)
  | .encloseNode node container => some (node, container)
  | _ => none

end Step

theorem symbol?_run_symbol_append (sym : Symbol) (g : TypeGraph) (s : SymbolId) :
    ((symbol sym).run g).2.symbol? s = (g.symbols.toList ++ [sym])[s.index]? := by
  rw [symbol?_eq_getElem?]
  exact congrArg (·[s.index]?) Array.toList_push

/-- The new member is in the graph by the time that its owner is looked up. -/
theorem symbol?_run_member (owner : SymbolId) (sym : Symbol) (g : TypeGraph) (s : SymbolId) :
    ((member owner sym).run g).2.symbol? s =
      ((g.symbols.toList ++ [sym])[s.index]?).map fun other => other.withMembers
        (([(owner, sym.name, .ofIndex g.symbols.size)].filter (·.1 = s)).map Prod.snd) := by
  rw [← symbol?_run_symbol_append]
  refine (symbol?_modifySymbol _ owner s _).trans ?_
  by_cases h : s = owner
  · rw [if_pos h, List.filter_cons_of_pos (by simpa using h.symm)]
    rfl
  · have h' : ¬ owner = s := fun e => h e.symm
    rw [if_neg h, List.filter_cons_of_neg (by simpa using h')]
    exact Option.map_id'.symm

/-! ## Stages -/

/-- A step, along with the graph that it meets. -/
structure Stage where
  graph : TypeGraph
  step : Step

/-- The steps of a construction that starts from `g`, each with the graph that it meets. -/
def stages (g : TypeGraph) : List Step → List Stage
  | [] => []
  | step :: rest => ⟨g, step⟩ :: stages (step.run.run g).2 rest

namespace Stage

variable (p : Stage)

/-- The answer to the step. -/
def answer : Answer := (p.step.run.run p.graph).1

/-- The graph that the step leaves. -/
def next : TypeGraph := (p.step.run.run p.graph).2

/-- The records that the step appends. -/
def records : List TypeRecord := p.step.records p.graph

/-- The handles of the types that the step appends, answered or not. -/
def typeIds : List TypeId :=
  (List.range' p.graph.types.size p.records.length).map .ofIndex

/-- The handles of the symbols that the step appends, answered or not. -/
def symbolIds : List SymbolId :=
  (List.range' p.graph.symbols.size p.step.newSymbol?.toList.length).map .ofIndex

/-- The members that the step inserts in the table of `owner`. -/
def insertions (owner : SymbolId) : List (String × SymbolId) :=
  ((p.step.insertion? p.answer).toList.filter (·.1 = owner)).map Prod.snd

/-- The symbol whose type the step declares, and the type. -/
def declaration? : Option (SymbolId × TypeId) := p.step.declaration? p.answer

/-! ### One step -/

theorem typeIds_answer : p.answer.typeIds = p.typeIds.getLast?.toList := by
  obtain ⟨g, step⟩ := p
  cases step with
  | boolean =>
    show [TypeId.ofIndex ((g.types.push _).push _).size] = [TypeId.ofIndex (g.types.size + 1 + 1)]
    rw [Array.size_push, Array.size_push]
  | _ => rfl

theorem symbolIds_answer :
    p.answer.symbolIds = if p.step.hidesSymbol then [] else p.symbolIds := by
  obtain ⟨g, step⟩ := p
  cases step <;> rfl

theorem symbolIds_answer_sublist : p.answer.symbolIds.Sublist p.symbolIds := by
  rw [symbolIds_answer]
  split
  · exact List.nil_sublist _
  · exact List.Sublist.refl _

theorem types_next : p.next.types.toList = p.graph.types.toList ++ p.records := by
  obtain ⟨g, step⟩ := p
  cases step with
  | boolean =>
    -- The union names the handles of the two literal types that are appended before it.
    have hsize : (g.types.push { flags := .ofList [TypeFlag.booleanLiteral] }).size =
        g.types.size + 1 := Array.size_push _
    rw [records, Step.records, ← hsize]
    show (((g.types.push _).push _).push _).toList = _
    simp only [Array.toList_push, List.append_assoc]
    rfl
  | type | primitive | union | intersection | classType | interface | reference | literal
  | function => exact Array.toList_push
  | _ => exact (List.append_nil _).symm

theorem symbol?_next (s : SymbolId) :
    p.next.symbol? s =
      ((p.graph.symbols.toList ++ p.step.newSymbol?.toList)[s.index]?).map
        (·.withMembers (p.insertions s)) := by
  obtain ⟨g, step⟩ := p
  cases step with
  | member owner sym => exact symbol?_run_member owner sym g s
  | property owner name t => exact symbol?_run_member owner _ g s
  | symbol | parameter | classType | interface | literal | function =>
    exact (symbol?_run_symbol_append _ g s).trans Option.map_id'.symm
  | _ =>
    rw [Step.newSymbol?, Option.toList_none, List.append_nil, ← symbol?_eq_getElem?]
    exact Option.map_id'.symm

theorem declaredTypes_next :
    p.next.declaredTypes = p.graph.declaredTypes.bindAll p.declaration?.toList := by
  obtain ⟨g, step⟩ := p
  cases step <;> rfl

theorem localTypes_next :
    p.next.localTypes = p.graph.localTypes.bindAll p.step.localDeclaration?.toList := by
  obtain ⟨g, step⟩ := p
  cases step <;> rfl

theorem containers_next :
    p.next.containers = p.graph.containers.bindAll p.step.enclosure?.toList := by
  obtain ⟨g, step⟩ := p
  cases step <;> rfl

theorem symbolCount_next :
    p.next.symbols.size = p.graph.symbols.size + p.step.newSymbol?.toList.length := by
  obtain ⟨g, step⟩ := p
  cases step with
  | member owner sym => exact size_run_member owner sym g
  | property owner name t => exact size_run_member owner _ g
  | symbol | parameter | classType | interface | literal | function => exact size_run_symbol _ g
  | _ => rfl

/-- What the graph knows before the step it knows after it, perhaps with more members. -/
theorem symbol?_next_of_some {s : SymbolId} {sym : Symbol} (h : p.graph.symbol? s = some sym) :
    p.next.symbol? s = some (sym.withMembers (p.insertions s)) := by
  rw [symbol?_eq_getElem?] at h
  rw [symbol?_next, List.getElem?_append_left (List.getElem?_eq_some_iff.1 h).1, h]
  rfl

end Stage

/-! ## Whole constructions -/

section

variable (g : TypeGraph) (steps : List Step)

theorem answers_runAll : ((runAll steps).run g).1 = (stages g steps).map Stage.answer := by
  induction steps generalizing g with
  | nil => rfl
  | cons step rest ih =>
    rw [stages, List.map_cons, ← ih, runAll, List.mapM_cons]
    rfl

theorem types_runAll : ((runAll steps).run g).2.types.toList =
    g.types.toList ++ (stages g steps).flatMap Stage.records := by
  induction steps generalizing g with
  | nil => exact (List.append_nil _).symm
  | cons step rest ih =>
    rw [runAll_cons, ih, stages, List.flatMap_cons, ← List.append_assoc]
    exact congrArg (· ++ _) (Stage.types_next ⟨g, step⟩)

theorem typeCount_runAll : ((runAll steps).run g).2.types.size =
    g.types.size + ((stages g steps).flatMap Stage.records).length := by
  rw [← Array.length_toList, types_runAll, List.length_append, Array.length_toList]

theorem map_step_stages : (stages g steps).map Stage.step = steps := by
  induction steps generalizing g with
  | nil => rfl
  | cons step rest ih => rw [stages, List.map_cons, ih]

theorem filterMap_step_stages {α : Type} (f : Step → Option α) :
    (stages g steps).filterMap (fun p => f p.step) = steps.filterMap f := by
  conv_rhs => rw [← map_step_stages g steps, List.filterMap_map]
  rfl

theorem symbolCount_runAll : ((runAll steps).run g).2.symbols.size =
    g.symbols.size + (steps.flatMap (·.newSymbol?.toList)).length := by
  induction steps generalizing g with
  | nil => rfl
  | cons step rest ih =>
    rw [runAll_cons, ih, List.flatMap_cons, List.length_append, ← Nat.add_assoc]
    exact congrArg (· + _) (Stage.symbolCount_next ⟨g, step⟩)

theorem typeIds_stages : (stages g steps).flatMap Stage.typeIds =
    (List.range' g.types.size ((stages g steps).flatMap Stage.records).length).map .ofIndex := by
  induction steps generalizing g with
  | nil => rfl
  | cons step rest ih =>
    have hnext := congrArg List.length (Stage.types_next ⟨g, step⟩)
    rw [Array.length_toList, List.length_append, Array.length_toList] at hnext
    rw [stages, List.flatMap_cons, List.flatMap_cons, ih, List.length_append,
      ← List.range'_append_1, List.map_append, ← hnext]
    rfl

theorem symbolIds_stages : (stages g steps).flatMap Stage.symbolIds =
    (List.range' g.symbols.size (steps.flatMap (·.newSymbol?.toList)).length).map .ofIndex := by
  induction steps generalizing g with
  | nil => rfl
  | cons step rest ih =>
    have hnext := Stage.symbolCount_next ⟨g, step⟩
    rw [stages, List.flatMap_cons, List.flatMap_cons, ih, List.length_append,
      ← List.range'_append_1, List.map_append, ← hnext]
    rfl

/-- A table that every step extends by a binding at most has, after a construction, the bindings of
all its steps. -/
theorem bindings_runAll {κ α : Type} {table : TypeGraph → Bindings κ α}
    {binding? : Stage → Option (κ × α)}
    (hnext : ∀ p : Stage, table p.next = (table p.graph).bindAll (binding? p).toList) :
    table ((runAll steps).run g).2 = (table g).bindAll ((stages g steps).filterMap binding?) := by
  induction steps generalizing g with
  | nil => rfl
  | cons step rest ih =>
    rw [runAll_cons, ih, stages, List.filterMap_eq_flatMap_toList, List.filterMap_eq_flatMap_toList,
      List.flatMap_cons, Bindings.bindAll, Bindings.bindAll, List.foldl_append]
    exact congrArg (List.foldl _ · _) (hnext ⟨g, step⟩)

theorem symbolType?_runAll (s : SymbolId) (node : NodeId) :
    ((runAll steps).run g).2.symbolType? s node =
      ((g.localTypes.bindAll (steps.filterMap Step.localDeclaration?)).find? (s, node)).or
        ((g.declaredTypes.bindAll ((stages g steps).filterMap Stage.declaration?)).find? s) := by
  rw [symbolType?, bindings_runAll g steps Stage.localTypes_next,
    bindings_runAll g steps Stage.declaredTypes_next, filterMap_step_stages]

theorem container?_runAll (node : NodeId) : ((runAll steps).run g).2.container? node =
    (g.containers.bindAll (steps.filterMap Step.enclosure?)).find? node := by
  rw [container?, bindings_runAll g steps Stage.containers_next, filterMap_step_stages]

variable {g steps}

/-- What the graph knows before a construction it knows after it, with the members that the
construction has inserted. -/
theorem symbol?_runAll_of_some {s : SymbolId} {sym : Symbol} (h : g.symbol? s = some sym) :
    ((runAll steps).run g).2.symbol? s =
      some (sym.withMembers ((stages g steps).flatMap (·.insertions s))) := by
  induction steps generalizing g sym with
  | nil => exact h
  | cons step rest ih =>
    rw [runAll_cons, stages, List.flatMap_cons, Symbol.withMembers_append]
    exact ih (Stage.symbol?_next_of_some ⟨g, step⟩ h)

/-- After a stage, the rest of the construction goes on from the graph that it leaves. -/
theorem exists_runAll_next {p : Stage} (hp : p ∈ stages g steps) :
    ∃ rest, stages p.next rest ⊆ stages g steps ∧
      ((runAll steps).run g).2 = ((runAll rest).run p.next).2 := by
  induction steps generalizing g with
  | nil => cases hp
  | cons step rest ih =>
    rw [runAll_cons, stages]
    rcases List.mem_cons.1 hp with rfl | hp
    · exact ⟨rest, List.subset_cons_self _ _, rfl⟩
    · obtain ⟨later, hlater, hrun⟩ := ih hp
      exact ⟨later, List.Subset.trans hlater (List.subset_cons_self _ _), hrun⟩

/-- What a stage has appended is at the end as it was but for its members. -/
theorem symbol?_runAll_of_mem (hroom : ((runAll steps).run g).2.symbols.size ≤ UInt32.size)
    {p : Stage} (hp : p ∈ stages g steps) {s : SymbolId} (hs : s ∈ p.symbolIds) :
    ∃ sym members, p.step.newSymbol? = some sym ∧
      ((runAll steps).run g).2.symbol? s = some { sym with members } := by
  obtain ⟨rest, -, hrest⟩ := exists_runAll_next hp
  have hcount := symbolCount_le_runAll rest p.next
  rw [← hrest, Stage.symbolCount_next] at hcount
  cases hnew : p.step.newSymbol? with
  | none => simp [Stage.symbolIds, hnew] at hs
  | some sym =>
    obtain rfl : s = .ofIndex p.graph.symbols.size := by
      simpa [Stage.symbolIds, hnew] using hs
    have hindex : (SymbolId.ofIndex p.graph.symbols.size).index = p.graph.symbols.size := by
      rw [hnew] at hcount
      exact SymbolId.index_ofIndex (Nat.lt_of_lt_of_le hcount hroom)
    have hnext : p.next.symbol? (.ofIndex p.graph.symbols.size) =
        some (sym.withMembers (p.insertions (.ofIndex p.graph.symbols.size))) := by
      rw [p.symbol?_next, hindex, hnew, List.getElem?_append_right (by simp)]
      simp
    have hfinal : ((runAll rest).run p.next).2.symbol? _ = _ := symbol?_runAll_of_some hnext
    rw [← hrest] at hfinal
    exact ⟨sym, _, rfl, hfinal⟩

end

end Build

end TypeGraph

end ClosureTypes
