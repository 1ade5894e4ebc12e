import ClosureTypes.Proofs.Stages

/-!
# Members in the order of discovery

Members are entered in tables one after another, whichever their owners are, and owners can be
members of each other. As long as each owner is known before it gets a member, its table lists the
names in the order in which they were first inserted, and leads to the symbol that was inserted
last. What it led to before stays in the graph, with its type.

1. `MemberTable.names_insertAll`, `MemberTable.find?_insertAll`: a table after insertions.
2. `symbol?_runAll`: symbols after a construction.
3. `symbolType?_runAll_of_known`: types of symbols after a construction.
4. `members_entered`: the tables and the types that are left.
-/

namespace ClosureTypes

/-! ## Tables -/

theorem eraseDups_of_nodup {α : Type} [DecidableEq α] {l : List α} (h : l.Nodup) :
    l.eraseDups = l := by
  induction l with
  | nil => rfl
  | cons a l ih =>
    obtain ⟨ha, hl⟩ := List.nodup_cons.1 h
    rw [List.eraseDups_cons, List.filter_eq_self.2, ih hl]
    rintro b hb
    have hne : b ≠ a := fun e => ha (e ▸ hb)
    simpa using hne

namespace MemberTable

theorem names_insertAll (m : MemberTable) (l : List (String × SymbolId)) :
    (m.insertAll l).names = (m.names ++ l.map Prod.fst).eraseDups := by
  induction l generalizing m with
  | nil => simp [insertAll, eraseDups_of_nodup m.nodup_names, names]
  | cons e l ih =>
    rw [insertAll, List.foldl_cons, ← insertAll, ih, names_insert, List.map_cons]
    split
    · next h =>
      rw [List.eraseDups_append, List.eraseDups_append, List.cons_removeAll]
      simp [h]
    · rw [List.append_assoc, List.singleton_append]

theorem find?_insertAll (m : MemberTable) (l : List (String × SymbolId)) (name : String) :
    (m.insertAll l).find? name = (lastFor name l).or (m.find? name) :=
  find?_foldl_insert (fun m name symbol other => m.find?_insert name other symbol) l m name

end MemberTable

/-- The second symbol is the first one after members have been inserted in its table, in order. -/
structure Symbol.Gains (inserted : List (String × SymbolId)) (before after : Symbol) : Prop where
  rest : after = { before with members := after.members }
  nodup_names : after.members.names.Nodup
  /-- Old names come first, then new ones, by their first insertion. -/
  names : after.members.names = (before.members.names ++ inserted.map Prod.fst).eraseDups
  /-- A name leads to what was inserted last, else to where it led before. -/
  find? : ∀ name, after.members.find? name = (lastFor name inserted).or (before.members.find? name)
  unchanged : inserted = [] → after = before

theorem Symbol.gains_withMembers (inserted : List (String × SymbolId)) (sym : Symbol) :
    sym.Gains inserted (sym.withMembers inserted) where
  rest := rfl
  nodup_names := (sym.withMembers inserted).members.nodup_names
  names := sym.members.names_insertAll inserted
  find? := sym.members.find?_insertAll inserted
  unchanged h := by rw [h, withMembers_nil]

namespace TypeGraph.Build

/-! ## Steps that add members -/

/-- The step adds a member to a symbol that `g` knows. -/
def Step.AddsMember (g : TypeGraph) : Step → Prop
  | .member owner _ | .property owner _ _ => g.symbol? owner ≠ none
  | _ => False

namespace Stage

variable {p : Stage} (hp : p.step.AddsMember p.graph)

include hp

theorem insertions_of_unknown {s : SymbolId} (hs : p.graph.symbol? s = none) :
    p.insertions s = [] := by
  obtain ⟨g, step⟩ := p
  have hnone {owner : SymbolId} (howner : g.symbol? owner ≠ none) (e : String × SymbolId) :
      ([(owner, e)].filter (·.1 = s)).map Prod.snd = [] := by
    have hne : ¬ owner = s := by
      rintro rfl
      exact howner hs
    simp [hne]
  cases step with
  | member owner sym => exact hnone hp _
  | property owner name t => exact hnone hp _
  | _ => exact hp.elim

theorem exists_answer : ∃ s, p.answer = .symbol s := by
  obtain ⟨g, step⟩ := p
  cases step with
  | member | property => exact ⟨_, rfl⟩
  | _ => exact hp.elim

theorem localTypes_next_of_addsMember : p.next.localTypes = p.graph.localTypes := by
  obtain ⟨g, step⟩ := p
  cases step with
  | member | property => rfl
  | _ => exact hp.elim

theorem symbolCount_next_of_addsMember : p.next.symbols.size = p.graph.symbols.size + 1 := by
  rw [symbolCount_next]
  obtain ⟨g, step⟩ := p
  cases step with
  | member | property => rfl
  | _ => exact hp.elim

/-- Symbols that are appended after the step have nothing to do with it. -/
theorem getElem?_next_append (later : List Symbol) (s : SymbolId) :
    (p.next.symbols.toList ++ later)[s.index]? =
      ((p.graph.symbols.toList ++ (p.step.newSymbol?.toList ++ later))[s.index]?).map
        (·.withMembers (p.insertions s)) := by
  have hcount : p.next.symbols.toList.length =
      (p.graph.symbols.toList ++ p.step.newSymbol?.toList).length := by
    simp only [Array.length_toList, List.length_append, p.symbolCount_next]
  rw [← List.append_assoc]
  by_cases hold : s.index < p.next.symbols.toList.length
  · rw [List.getElem?_append_left hold, List.getElem?_append_left (hcount ▸ hold),
      ← symbol?_eq_getElem?, symbol?_next]
  · -- An owner is known by the time of the step, so it cannot be a later symbol.
    have hnew := Nat.le_of_not_lt hold
    have hunknown : p.graph.symbol? s = none := by
      rw [symbol?_eq_none_iff, ← Array.length_toList]
      rw [hcount, List.length_append] at hnew
      exact (Nat.le_add_right _ _).trans hnew
    rw [List.getElem?_append_right hnew, List.getElem?_append_right (hcount ▸ hnew), hcount,
      insertions_of_unknown hp hunknown]
    exact Option.map_id'.symm

/-- A step has no effect on the types of known symbols, as long as its own symbol has a handle. -/
theorem symbolType?_next_of_addsMember (hroom : p.graph.symbols.size < UInt32.size) {s : SymbolId}
    (hs : p.graph.symbol? s ≠ none) (node : NodeId) :
    p.next.symbolType? s node = p.graph.symbolType? s node := by
  rw [symbolType?, symbolType?, localTypes_next_of_addsMember hp]
  obtain ⟨g, step⟩ := p
  cases step with
  | member => rfl
  | property owner name t =>
    have hne : ¬ s = .ofIndex g.symbols.size := by
      rintro rfl
      exact hs ((Extends.refl g).symbol?_ofIndex hroom)
    show (g.localTypes.find? (s, node)).or ((g.declaredTypes.bind _ t).find? s) = _
    rw [Bindings.find?_bind, if_neg hne]
  | _ => exact hp.elim

end Stage

section

variable {g : TypeGraph} {steps : List Step}
  (hsteps : ∀ p ∈ stages g steps, p.step.AddsMember p.graph)

include hsteps

/-- The symbols after a construction are those of before and the new ones, with their members. -/
theorem symbol?_runAll (s : SymbolId) : ((runAll steps).run g).2.symbol? s =
    ((g.symbols.toList ++ steps.flatMap (·.newSymbol?.toList))[s.index]?).map
      (·.withMembers ((stages g steps).flatMap (·.insertions s))) := by
  induction steps generalizing g with
  | nil =>
    rw [List.flatMap_nil, List.append_nil, ← symbol?_eq_getElem?]
    exact Option.map_id'.symm
  | cons step rest ih =>
    rw [stages, List.forall_mem_cons] at hsteps
    rw [runAll_cons, ih hsteps.2, stages, List.flatMap_cons, List.flatMap_cons]
    refine (congrArg _ (Stage.getElem?_next_append hsteps.1 _ s)).trans ?_
    simp only [Option.map_map, Symbol.withMembers_append]
    rfl

theorem localTypes_runAll : ((runAll steps).run g).2.localTypes = g.localTypes := by
  induction steps generalizing g with
  | nil => rfl
  | cons step rest ih =>
    rw [stages, List.forall_mem_cons] at hsteps
    rw [runAll_cons, ih hsteps.2]
    exact Stage.localTypes_next_of_addsMember hsteps.1

/-- A construction leaves the types of known symbols alone, as long as there are handles. -/
theorem symbolType?_runAll_of_known (hroom : ((runAll steps).run g).2.symbols.size ≤ UInt32.size)
    {s : SymbolId} (hs : g.symbol? s ≠ none) (node : NodeId) :
    ((runAll steps).run g).2.symbolType? s node = g.symbolType? s node := by
  induction steps generalizing g with
  | nil => rfl
  | cons step rest ih =>
    rw [stages, List.forall_mem_cons] at hsteps
    rw [runAll_cons] at hroom ⊢
    obtain ⟨sym, hsym⟩ := Option.ne_none_iff_exists'.1 hs
    have hknown := Stage.symbol?_next_of_some ⟨g, step⟩ hsym
    have hlt : g.symbols.size < UInt32.size :=
      ((Stage.symbolCount_next_of_addsMember hsteps.1).ge.trans
        (symbolCount_le_runAll rest _)).trans hroom
    rw [ih hsteps.2 hroom (Option.ne_none_iff_exists'.2 ⟨_, hknown⟩)]
    exact Stage.symbolType?_next_of_addsMember hsteps.1 hlt hs node

section

variable (hroom : ((runAll steps).run g).2.symbols.size ≤ UInt32.size) {p : Stage}
  (hp : p ∈ stages g steps)

include hroom hp

theorem symbolCount_lt_of_mem : p.graph.symbols.size < UInt32.size := by
  obtain ⟨rest, -, hrun⟩ := exists_runAll_next hp
  have hcount := symbolCount_le_runAll rest p.next
  rw [Stage.symbolCount_next_of_addsMember (hsteps p hp), ← hrun] at hcount
  exact Nat.lt_of_lt_of_le hcount hroom

/-- What is known after a stage keeps its type from then on. -/
theorem symbolType?_of_next {s : SymbolId} (hs : p.next.symbol? s ≠ none) (node : NodeId) :
    ((runAll steps).run g).2.symbolType? s node = p.next.symbolType? s node := by
  obtain ⟨rest, hsubset, hrun⟩ := exists_runAll_next hp
  rw [hrun] at hroom ⊢
  exact symbolType?_runAll_of_known (fun q hq => hsteps q (hsubset hq)) hroom hs node

theorem symbolType?_of_property {owner : SymbolId} {name : String} {t : TypeId}
    (hstep : p.step = .property owner name t) {s : SymbolId} (hs : s ∈ p.answer.symbolIds)
    (node : NodeId) : ((runAll steps).run g).2.symbolType? s node =
      (g.localTypes.find? (s, node)).or (some t) := by
  have hlt := symbolCount_lt_of_mem hsteps hroom hp
  have hcount := Stage.symbolCount_next_of_addsMember (hsteps p hp)
  obtain ⟨rest, hsubset, hrun⟩ := exists_runAll_next hp
  have hlocal : p.next.localTypes = g.localTypes := by
    rw [← localTypes_runAll hsteps, hrun, localTypes_runAll fun q hq => hsteps q (hsubset hq)]
  obtain ⟨graph, step⟩ := p
  obtain rfl : step = .property owner name t := hstep
  obtain rfl : s = .ofIndex graph.symbols.size := List.mem_singleton.1 hs
  have hknown : (Stage.next ⟨graph, .property owner name t⟩).symbol?
      (.ofIndex graph.symbols.size) ≠ none := by
    rw [ne_eq, symbol?_eq_none_iff, SymbolId.index_ofIndex hlt, hcount]
    exact Nat.not_succ_le_self _
  have hdeclared : (Stage.next ⟨graph, .property owner name t⟩).declaredTypes =
      graph.declaredTypes.bind (.ofIndex graph.symbols.size) t := rfl
  rw [symbolType?_of_next hsteps hroom hp hknown, symbolType?, hlocal, hdeclared,
    Bindings.find?_bind, if_pos rfl]

end

/-- **Members.** Let a graph grow by members of symbols that are known by then. Each symbol that was
there or is new gains the members that were inserted in its table, and no other symbol does. Each
step answers a symbol. As long as there are handles, this is the one that the step was asked to
append, with the type that it was given, and all symbols known before the step stay, with their
types. -/
theorem members_entered :
    (∀ s, Option.Rel (Symbol.Gains ((stages g steps).flatMap (·.insertions s)))
      (g.symbols.toList ++ steps.flatMap (·.newSymbol?.toList))[s.index]?
      (((runAll steps).run g).2.symbol? s)) ∧
    ∀ p ∈ stages g steps, ∃ s, p.answer = .symbol s ∧
      (((runAll steps).run g).2.symbols.size ≤ UInt32.size →
        (∃ sym members, p.step.newSymbol? = some sym ∧
          ((runAll steps).run g).2.symbol? s = some { sym with members }) ∧
        (∀ owner name t, p.step = .property owner name t → ∀ node,
          ((runAll steps).run g).2.symbolType? s node =
            (g.localTypes.find? (s, node)).or (some t)) ∧
        ∀ u, p.graph.symbol? u ≠ none → ((runAll steps).run g).2.symbol? u ≠ none ∧
          ∀ node, ((runAll steps).run g).2.symbolType? u node = p.graph.symbolType? u node) := by
  refine ⟨fun s => ?_, fun p hp => ?_⟩
  · rw [symbol?_runAll hsteps]
    cases (g.symbols.toList ++ steps.flatMap (·.newSymbol?.toList))[s.index]? with
    | none => exact .none
    | some sym => exact .some (sym.gains_withMembers _)
  · obtain ⟨s, hanswer⟩ := Stage.exists_answer (hsteps p hp)
    have hs : s ∈ p.answer.symbolIds := by
      rw [hanswer]
      exact List.mem_singleton_self s
    refine ⟨s, hanswer, fun hroom => ⟨?_, ?_, fun u hu => ?_⟩⟩
    · exact symbol?_runAll_of_mem hroom hp (p.symbolIds_answer_sublist.subset hs)
    · exact fun owner name t hstep => symbolType?_of_property hsteps hroom hp hstep hs
    · obtain ⟨sym, hsym⟩ := Option.ne_none_iff_exists'.1 hu
      have hnext := p.symbol?_next_of_some hsym
      obtain ⟨rest, -, hrun⟩ := exists_runAll_next hp
      refine ⟨?_, fun node => ?_⟩
      · rw [hrun, symbol?_runAll_of_some hnext]
        simp
      · rw [symbolType?_of_next hsteps hroom hp (by simp [hnext])]
        exact Stage.symbolType?_next_of_addsMember (hsteps p hp)
          (symbolCount_lt_of_mem hsteps hroom hp) hu node

end

/-- A symbol with one member. -/
def drawer : TypeGraph where
  symbols := #[{ name := "drawer", members := ⟨[("pen", ⟨1⟩)], by decide⟩ }, { name := "pen" }]
  declaredTypes := Bindings.empty.bind ⟨1⟩ ⟨0⟩

/-- A new member, which gets a member of its own; and then both names again. -/
def drawerSteps : List Step :=
  [.member ⟨0⟩ { name := "ink" }, .property ⟨2⟩ "pen" ⟨1⟩, .property ⟨0⟩ "pen" ⟨2⟩,
    .member ⟨0⟩ { name := "ink" }]

theorem drawer_entered :
    (∃ sym, ((runAll drawerSteps).run drawer).2.symbol? ⟨0⟩ = some sym ∧
      sym.members.names = ["pen", "ink"] ∧ sym.members.find? "pen" = some ⟨4⟩ ∧
      sym.members.find? "ink" = some ⟨5⟩) ∧
    ((runAll drawerSteps).run drawer).2.symbolType? ⟨1⟩ .nowhere = some ⟨0⟩ := by
  have hsteps : ∀ p ∈ stages drawer drawerSteps, p.step.AddsMember p.graph := by
    simp only [drawerSteps, stages, List.forall_mem_cons, Step.AddsMember]
    exact ⟨by decide, by decide, by decide, by decide, List.forall_mem_nil _⟩
  obtain ⟨htables, htypes⟩ := members_entered hsteps
  obtain ⟨s, -, hkept⟩ := htypes _ List.mem_cons_self
  refine ⟨?_, ((hkept (by decide)).2.2 ⟨1⟩ (by decide)).2 .nowhere⟩
  have hdrawer := htables ⟨0⟩
  cases hsym : ((runAll drawerSteps).run drawer).2.symbol? ⟨0⟩ with
  | none => cases hsym
  | some sym =>
    rw [hsym] at hdrawer
    cases hdrawer with
    | some hgains => exact ⟨sym, rfl, hgains.names, hgains.find? "pen", hgains.find? "ink"⟩

end TypeGraph.Build

end ClosureTypes
