/-!
# Handles

Types, symbols and syntax nodes are named by handles: 32-bit words that carry no meaning of their
own. Two handles of one sort name the same thing exactly when their words agree, and a handle need
not name anything at all.
-/

namespace ClosureTypes

/-- Names a type of a type graph. -/
structure TypeId where
  word : UInt32
  deriving DecidableEq

/-- Names a symbol of a type graph. -/
structure SymbolId where
  word : UInt32
  deriving DecidableEq

/-- Names a syntax node, the place from which members and qualified names are looked up. -/
structure NodeId where
  word : UInt32
  deriving DecidableEq

namespace TypeId

/-- The position that the handle names in a list of types. -/
def index (t : TypeId) : Nat := t.word.toNat

/-- The handle of the type at position `n`; positions are counted modulo `2 ^ 32`. -/
def ofIndex (n : Nat) : TypeId := ⟨UInt32.ofNat n⟩

theorem index_ofIndex {n : Nat} (h : n < UInt32.size) : (ofIndex n).index = n :=
  UInt32.toNat_ofNat_of_lt' h

theorem ofIndex_index (t : TypeId) : ofIndex t.index = t := by
  simp [ofIndex, index]

end TypeId

namespace SymbolId

/-- The position that the handle names in a list of symbols. -/
def index (s : SymbolId) : Nat := s.word.toNat

/-- The handle of the symbol at position `n`; positions are counted modulo `2 ^ 32`. -/
def ofIndex (n : Nat) : SymbolId := ⟨UInt32.ofNat n⟩

theorem index_ofIndex {n : Nat} (h : n < UInt32.size) : (ofIndex n).index = n :=
  UInt32.toNat_ofNat_of_lt' h

theorem ofIndex_index (s : SymbolId) : ofIndex s.index = s := by
  simp [ofIndex, index]

end SymbolId

namespace NodeId

/-- The node that stands for no particular place. -/
def nowhere : NodeId := ⟨0xffffffff⟩

end NodeId

end ClosureTypes
