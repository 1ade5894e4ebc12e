import ClosureTypes.Proofs.Members

/-!
# Members of unknown owners

A member is appended before its owner is looked up. An owner that the graph does not know then gets
nothing: the member is appended, and no table has it. There is one exception. The owner's handle may
be the very one that is given out to the member; the lookup then finds the member, which is entered
in its own table.

1. `OnlyAppends`: the step appends a symbol and leaves all that was there as it was.
2. `onlyAppends_member`, `OnlyAppends.declareType`: what adding a member to an unknown owner does.
3. `onlyAppends_of_unknown_owner`: the member is as it was given, apart from the exception.
4. `not_onlyAppends_of_own_handle`: the exception is one.
-/

namespace ClosureTypes

namespace TypeGraph

/-- `s` is the member of `owner` of the given name. -/
def HasMember (g : TypeGraph) (owner : SymbolId) (name : String) (s : SymbolId) : Prop :=
  ∃ sym, g.symbol? owner = some sym ∧ sym.members.find? name = some s

theorem hasMember_iff_of_append {g g' : TypeGraph} {s : SymbolId} {sym : Symbol}
    (hfresh : g.symbol? s = none) (happended : g'.symbol? s = some sym)
    (hothers : ∀ u, u ≠ s → g'.symbol? u = g.symbol? u) (owner : SymbolId) (name : String)
    (u : SymbolId) : g'.HasMember owner name u ↔
      g.HasMember owner name u ∨ owner = s ∧ sym.members.find? name = some u := by
  unfold HasMember
  by_cases howner : owner = s
  · subst howner
    simp [hfresh, happended]
  · simp [hothers owner howner, howner]

namespace Build

/-! ## Appending a symbol -/

/-- A step answers a handle and leaves a graph. All that it does to `g` is to append `sym`, and to
declare its type if there is one. -/
structure OnlyAppends (g : TypeGraph) (sym : Symbol) (type? : Option TypeId)
    (result : SymbolId × TypeGraph) : Prop where
  fresh : g.symbol? result.1 = none
  appended : result.2.symbol? result.1 = some sym
  others : ∀ s, s ≠ result.1 → result.2.symbol? s = g.symbol? s
  symbolCount : result.2.symbols.size = g.symbols.size + 1
  /-- No symbol becomes a member; the new one comes with the members that it has. -/
  hasMember_iff : ∀ owner name s, result.2.HasMember owner name s ↔
    g.HasMember owner name s ∨ owner = result.1 ∧ sym.members.find? name = some s
  types : result.2.types = g.types
  declaredTypes : result.2.declaredTypes =
    g.declaredTypes.bindAll (type?.toList.map (result.1, ·))
  localTypes : result.2.localTypes = g.localTypes
  containers : result.2.containers = g.containers

theorem OnlyAppends.declareType {g g' : TypeGraph} {sym : Symbol} {s : SymbolId}
    (h : OnlyAppends g sym none (s, g')) (t : TypeId) :
    OnlyAppends g sym (some t) (s, ((declareType s t).run g').2) :=
  { h with declaredTypes := congrArg (Bindings.bind · s t) h.declaredTypes }

/-! ## Adding to an unknown owner -/

/-- What an owner that `g` does not know gets with a new member of the given name: nothing, unless
the owner's handle is given out to the member. -/
def ownEntry (g : TypeGraph) (owner : SymbolId) (name : String) : List (String × SymbolId) :=
  if owner = .ofIndex g.symbols.size then [(name, owner)] else []

section

variable {g : TypeGraph} {owner : SymbolId} (howner : g.symbol? owner = none)

include howner

/-- There are handles left, since that of the owner leads nowhere. -/
theorem symbolCount_lt_of_unknown : g.symbols.size < UInt32.size :=
  Nat.lt_of_le_of_lt (symbol?_eq_none_iff.1 howner) owner.word.toNat_lt

theorem onlyAppends_member (sym : Symbol) :
    OnlyAppends g (sym.withMembers (ownEntry g owner sym.name)) none
      ((member owner sym).run g) := by
  have hroom := symbolCount_lt_of_unknown howner
  have hfresh : g.symbol? (.ofIndex g.symbols.size) = none :=
    (Extends.refl g).symbol?_ofIndex hroom
  have happended : ((member owner sym).run g).2.symbol? (.ofIndex g.symbols.size) =
      some (sym.withMembers (ownEntry g owner sym.name)) := by
    rw [symbol?_run_member, SymbolId.index_ofIndex hroom,
      List.getElem?_append_right (by simp), ownEntry]
    split_ifs with hown
    · simp [hown]
    · simp [hown]
  have hothers (s : SymbolId) (hs : s ≠ .ofIndex g.symbols.size) :
      ((member owner sym).run g).2.symbol? s = g.symbol? s := by
    have hindex : ¬ s.index = g.symbols.size := by
      intro heq
      rw [← heq, SymbolId.ofIndex_index] at hs
      exact hs rfl
    have hsymbols : (g.symbols.toList ++ [sym])[s.index]? = g.symbol? s := by
      rw [← symbol?_run_symbol_append, symbol?_run_symbol, if_neg hindex]
    rw [symbol?_run_member, hsymbols]
    by_cases heq : owner = s
    · rw [← heq, howner]
      rfl
    · rw [List.filter_cons_of_neg (by simpa using heq)]
      exact Option.map_id'
  exact ⟨hfresh, happended, hothers, size_run_member owner sym g,
    hasMember_iff_of_append hfresh happended hothers, rfl, rfl, rfl, rfl⟩

theorem onlyAppends_property (name : String) (t : TypeId) :
    OnlyAppends g
      (Symbol.withMembers { name, flags := .ofList [SymbolFlag.property] } (ownEntry g owner name))
      (some t) ((property owner name t).run g) :=
  (onlyAppends_member howner _).declareType t

/-- **Unknown owners.** Let a member be added to an owner that the graph does not know. If the
owner's handle is not the next one to be given out, the member is appended just as it was given, no
symbol becomes a member of any table, and all else stays; likewise for a property, apart from its
type. Otherwise the member gains one member, itself, and all else is the same. -/
theorem onlyAppends_of_unknown_owner :
    (owner ≠ .ofIndex g.symbols.size →
      (∀ sym, OnlyAppends g sym none ((member owner sym).run g)) ∧
      ∀ name t, OnlyAppends g { name, flags := .ofList [SymbolFlag.property] } (some t)
        ((property owner name t).run g)) ∧
    (owner = .ofIndex g.symbols.size →
      (∀ sym : Symbol, ∃ sym', sym.Gains [(sym.name, owner)] sym' ∧
        OnlyAppends g sym' none ((member owner sym).run g)) ∧
      ∀ name t, ∃ sym', Symbol.Gains [(name, owner)]
          { name, flags := .ofList [SymbolFlag.property] } sym' ∧
        OnlyAppends g sym' (some t) ((property owner name t).run g)) := by
  have hmember := onlyAppends_member howner
  have hproperty := onlyAppends_property howner
  unfold ownEntry at hmember hproperty
  constructor
  · intro hown
    simp only [if_neg hown, Symbol.withMembers_nil] at hmember hproperty
    exact ⟨hmember, hproperty⟩
  · intro hown
    simp only [if_pos hown] at hmember hproperty
    exact ⟨fun sym => ⟨_, Symbol.gains_withMembers _ sym, hmember sym⟩,
      fun name t => ⟨_, Symbol.gains_withMembers _ _, hproperty name t⟩⟩

end

/-- Two symbols, of which the second is a member of the first. -/
def shelf : TypeGraph where
  symbols := #[{ name := "shelf", members := ⟨[("book", ⟨1⟩)], by decide⟩ }, { name := "book" }]

theorem shelf_onlyAppends :
    OnlyAppends shelf { name := "lamp" } none ((member ⟨7⟩ { name := "lamp" }).run shelf) ∧
      ((member ⟨7⟩ { name := "lamp" }).run shelf).1 = ⟨2⟩ ∧
      ∃ sym, OnlyAppends shelf sym (some ⟨4⟩) ((property ⟨2⟩ "lamp" ⟨4⟩).run shelf) ∧
        sym.members.names = ["lamp"] ∧ sym.members.find? "lamp" = some ⟨2⟩ := by
  have hseven : shelf.symbol? ⟨7⟩ = none := by decide
  have htwo : shelf.symbol? ⟨2⟩ = none := by decide
  obtain ⟨hother, -⟩ := onlyAppends_of_unknown_owner hseven
  obtain ⟨-, hown⟩ := onlyAppends_of_unknown_owner htwo
  obtain ⟨sym, hgains, happends⟩ := (hown (by decide)).2 "lamp" ⟨4⟩
  exact ⟨(hother (by decide)).1 _, rfl, sym, happends, hgains.names, hgains.find? "lamp"⟩

/-- A step under the handle that is next to be given out does more than append: the new symbol is a
member that neither the graph nor the symbol had. -/
theorem not_onlyAppends_of_own_handle :
    (¬ ∀ (g : TypeGraph) (owner : SymbolId), g.symbol? owner = none →
      ∀ sym, OnlyAppends g sym none ((member owner sym).run g)) ∧
    ¬ ∀ (g : TypeGraph) (owner : SymbolId), g.symbol? owner = none →
      ∀ name t, OnlyAppends g { name, flags := .ofList [SymbolFlag.property] } (some t)
        ((property owner name t).run g) := by
  -- In the graph without symbols there are no members, and the new symbol comes without any.
  have hnone {sym : Symbol} {type? : Option TypeId} {result : SymbolId × TypeGraph}
      (hsym : sym.members = .empty) (h : OnlyAppends .empty sym type? result) :
      ¬ result.2.HasMember ⟨0⟩ "a" ⟨0⟩ := by
    intro hown
    rcases (h.hasMember_iff _ _ _).1 hown with ⟨_, hbefore, -⟩ | ⟨-, hbefore⟩
    · cases hbefore
    · rw [hsym] at hbefore
      cases hbefore
  constructor
  · intro h
    exact hnone rfl (h .empty ⟨0⟩ rfl { name := "a" }) ⟨_, rfl, rfl⟩
  · intro h
    exact hnone rfl (h .empty ⟨0⟩ rfl "a" ⟨0⟩) ⟨_, rfl, rfl⟩

end Build

end TypeGraph

end ClosureTypes
