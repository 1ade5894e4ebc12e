import ClosureTypes.Bindings
import ClosureTypes.Symbol
import ClosureTypes.TypeRecord

/-!
# Type graphs

A type graph holds type records and symbols, each at the position that its handle names, and three
tables: the declared type of a symbol, the type of a symbol as seen from one node, and the symbol
that encloses a node. Nothing asks that a handle in the graph leads anywhere, so the edges may
dangle and may form cycles.
-/

namespace ClosureTypes

/-- Types and symbols that refer to each other by handle. -/
structure TypeGraph where
  types : Array TypeRecord := #[]
  symbols : Array Symbol := #[]
  /-- The type of a symbol, wherever it is seen from. -/
  declaredTypes : Bindings SymbolId TypeId := .empty
  /-- The type of a symbol as seen from one node; it goes before the declared type. -/
  localTypes : Bindings (SymbolId × NodeId) TypeId := .empty
  /-- The namespace or module around a node. -/
  containers : Bindings NodeId SymbolId := .empty

namespace TypeGraph

/-- The graph without types and symbols. -/
def empty : TypeGraph := {}

instance : Inhabited TypeGraph := ⟨empty⟩

/-! ## Looking up -/

/-- The record of `t`, if the graph knows the type. -/
def type? (g : TypeGraph) (t : TypeId) : Option TypeRecord := g.types[t.index]?

/-- The symbol named by `s`, if the graph knows it. -/
def symbol? (g : TypeGraph) (s : SymbolId) : Option Symbol := g.symbols[s.index]?

theorem mem_types_of_type? {g : TypeGraph} {t : TypeId} {r : TypeRecord} (h : g.type? t = some r) :
    r ∈ g.types.toList :=
  Array.mem_toList_iff.2 (Array.mem_of_getElem? h)

theorem mem_symbols_of_symbol? {g : TypeGraph} {s : SymbolId} {sym : Symbol}
    (h : g.symbol? s = some sym) : sym ∈ g.symbols.toList :=
  Array.mem_toList_iff.2 (Array.mem_of_getElem? h)

/-- The type of `s` as seen from `node`: the one recorded for that node, else the declared one. -/
def symbolType? (g : TypeGraph) (s : SymbolId) (node : NodeId) : Option TypeId :=
  (g.localTypes.find? (s, node)).or (g.declaredTypes.find? s)

/-- The symbol of the namespace or module around `node`. -/
def container? (g : TypeGraph) (node : NodeId) : Option SymbolId := g.containers.find? node

/-- The signatures of `t` of one kind; an unknown type has none. -/
def signatures (g : TypeGraph) (t : TypeId) (kind : SignatureKind) : List Signature :=
  match g.type? t with
  | some r => r.signatures kind
  | none => []

/-- The type of the values of `t` under keys of one kind; an unknown type has none. -/
def indexType? (g : TypeGraph) (t : TypeId) (kind : IndexKind) : Option TypeId :=
  (g.type? t).bind (·.index? kind)

/-! ## Changing records -/

/-- Changes the record of `t`, if the graph knows the type. -/
def modifyType (g : TypeGraph) (t : TypeId) (f : TypeRecord → TypeRecord) : TypeGraph :=
  { g with types := g.types.modify t.index f }

/-- Changes the symbol `s`, if the graph knows it. -/
def modifySymbol (g : TypeGraph) (s : SymbolId) (f : Symbol → Symbol) : TypeGraph :=
  { g with symbols := g.symbols.modify s.index f }

theorem type?_modifyType (g : TypeGraph) (t u : TypeId) (f : TypeRecord → TypeRecord) :
    (g.modifyType t f).type? u = if u = t then (g.type? u).map f else g.type? u := by
  by_cases h : u = t
  · simp [type?, modifyType, Array.getElem?_modify, h]
  · have hi : ¬ t.index = u.index := fun e => h (by
      rw [← TypeId.ofIndex_index u, ← e, TypeId.ofIndex_index])
    simp [type?, modifyType, Array.getElem?_modify, h, hi]

theorem symbol?_modifySymbol (g : TypeGraph) (s u : SymbolId) (f : Symbol → Symbol) :
    (g.modifySymbol s f).symbol? u = if u = s then (g.symbol? u).map f else g.symbol? u := by
  by_cases h : u = s
  · simp [symbol?, modifySymbol, Array.getElem?_modify, h]
  · have hi : ¬ s.index = u.index := fun e => h (by
      rw [← SymbolId.ofIndex_index u, ← e, SymbolId.ofIndex_index])
    simp [symbol?, modifySymbol, Array.getElem?_modify, h, hi]

end TypeGraph

end ClosureTypes
