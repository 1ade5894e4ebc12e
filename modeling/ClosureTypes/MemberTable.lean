import ClosureTypes.Handle

/-!
# Member tables

A symbol owns a table of named members. The table lists its names in the order in which they were
first inserted. Inserting a name again keeps its place and replaces its symbol.

1. `MemberTable.names_insert`: a new name goes last; an old one changes nothing.
2. `MemberTable.find?_insert`: the inserted name now leads to the inserted symbol, every other name
   to where it led before.

Two reserved names stand for no field: they mark that a shape can be called or indexed.
-/

namespace ClosureTypes

/-- Members by name, each name once, in the order of first insertion. -/
structure MemberTable where
  entries : List (String × SymbolId) := []
  nodup_names : (entries.map Prod.fst).Nodup := by simp

namespace MemberTable

/-- The table without members. -/
def empty : MemberTable := {}

instance : Inhabited MemberTable := ⟨empty⟩

/-- The names, in the order of first insertion. -/
def names (m : MemberTable) : List String := m.entries.map Prod.fst

/-- The symbol of the member named `name`. -/
def find? (m : MemberTable) (name : String) : Option SymbolId := m.entries.lookup name

/-- The entries with `symbol` put in the place of `name`, or last where the name does not occur. -/
def put (name : String) (symbol : SymbolId) : List (String × SymbolId) → List (String × SymbolId)
  | [] => [(name, symbol)]
  | (n, s) :: rest => if n = name then (n, symbol) :: rest else (n, s) :: put name symbol rest

theorem map_fst_put (name : String) (symbol : SymbolId) (l : List (String × SymbolId)) :
    (put name symbol l).map Prod.fst =
      if name ∈ l.map Prod.fst then l.map Prod.fst else l.map Prod.fst ++ [name] := by
  induction l with
  | nil => simp [put]
  | cons e rest ih =>
    obtain ⟨n, s⟩ := e
    by_cases h : n = name
    · simp [put, h]
    · have h' : ¬ name = n := fun e => h e.symm
      simp only [put, h, if_false, List.map_cons, ih, List.mem_cons, h', false_or]
      split <;> simp

theorem lookup_put (name other : String) (symbol : SymbolId) (l : List (String × SymbolId)) :
    (put name symbol l).lookup other = if other = name then some symbol else l.lookup other := by
  induction l with
  | nil =>
    by_cases h : other = name
    · simp [put, h]
    · simp [put, List.lookup_cons, h, beq_eq_false_iff_ne.2 h]
  | cons e rest ih =>
    obtain ⟨n, s⟩ := e
    by_cases h : n = name
    · by_cases ho : other = name
      · simp [put, h, ho]
      · simp [put, List.lookup_cons, h, ho, beq_eq_false_iff_ne.2 ho]
    · by_cases ho : other = n
      · have hn : ¬ n = name := h
        simp [put, ho, hn]
      · simp [put, h, List.lookup_cons, beq_eq_false_iff_ne.2 ho, ih]

/-- Inserts `symbol` under `name`; an old name keeps its place. -/
def insert (m : MemberTable) (name : String) (symbol : SymbolId) : MemberTable where
  entries := put name symbol m.entries
  nodup_names := by
    rw [map_fst_put]
    split
    · exact m.nodup_names
    · next h => exact List.nodup_append.2 ⟨m.nodup_names, by simp, by
        intro a ha b hb hab
        rw [List.mem_singleton] at hb
        exact h (hb ▸ hab ▸ ha)⟩

theorem names_insert (m : MemberTable) (name : String) (symbol : SymbolId) :
    (m.insert name symbol).names = if name ∈ m.names then m.names else m.names ++ [name] :=
  map_fst_put name symbol m.entries

theorem find?_insert (m : MemberTable) (name other : String) (symbol : SymbolId) :
    (m.insert name symbol).find? other = if other = name then some symbol else m.find? other :=
  lookup_put name other symbol m.entries

/-! ## Reserved names -/

/-- The member name that marks a shape with call signatures. -/
def callName : String := "__call"

/-- The member name that marks a shape with index types. -/
def indexName : String := "__index"

/-- The members that are fields, without the markers. -/
def fields (m : MemberTable) : List (String × SymbolId) :=
  m.entries.filter fun e => e.1 != callName && e.1 != indexName

/-- The marker of call signatures is a member. -/
def isCallable (m : MemberTable) : Bool := m.names.contains callName

/-- The marker of index types is a member. -/
def isIndexable (m : MemberTable) : Bool := m.names.contains indexName

end MemberTable

end ClosureTypes
