import ClosureTypes.Graph.Describe
import ClosureTypes.MessageLog
import ClosureTypes.TypeExpr
import ClosureTypes.Visited

/-!
# Walks through a type graph

A walk goes through a type graph, marks the type literals that it expands and reports messages. It
stops at a fault: an inconsistency of the graph, for which there is no expression. What was marked
and reported before a fault stays so, but the walk is back at the level where it began.
-/

namespace ClosureTypes

/-- An inconsistency of a type graph. -/
inductive GraphFault
  /-- The flags of a type stand for no kind. -/
  | unknownKind (flags : TypeFlags) (description : String)
  /-- A reference is its own target. -/
  | referenceLoop (type : TypeId) (description : String)
  /-- The graph does not know the type. -/
  | unknownType (type : TypeId)
  /-- The graph does not know the symbol. -/
  | unknownSymbol (symbol : SymbolId)
  deriving DecidableEq

/-- The wording of a fault. -/
def GraphFault.message : GraphFault → String
  | unknownKind flags description =>
    "unknown type flags " ++ Text.hex flags.bits.toNat ++ " on " ++ description
  | referenceLoop _ description => "reference loop in " ++ description
  | unknownType t => "type TypeId(" ++ toString t.word.toNat ++ ") is not known to the type checker"
  | unknownSymbol s =>
    "symbol SymbolId(" ++ toString s.word.toNat ++ ") is not known to the type checker"

/-- What a walk has done so far. -/
structure Progress where
  /-- The type literals that have been expanded. -/
  visited : Visited := .empty
  /-- The messages that the walk has reported. -/
  log : MessageLog := .empty
  /-- How many levels deep the walk is. -/
  depth : Nat := 0

/-- A computation on the way through a type graph. -/
abbrev Walk := EStateM GraphFault Progress

namespace Walk

/-- Reports a message. -/
def warn (message : String) : Walk Unit := modify fun p => { p with log := p.log.report message }

/-- Reports that a type cannot be expressed and leaves it unknown. -/
def degrade (message : String) : Walk TypeExpr := do
  warn message
  return .unknown .degraded

/-- The record of a type that the graph has to know. -/
def typeRecord (g : TypeGraph) (t : TypeId) : Walk TypeRecord :=
  match g.type? t with
  | some r => pure r
  | none => throw (.unknownType t)

/-- The symbol of a handle that the graph has to know. -/
def symbol (g : TypeGraph) (s : SymbolId) : Walk Symbol :=
  match g.symbol? s with
  | some sym => pure sym
  | none => throw (.unknownSymbol s)

/-- Marks a type literal as expanded and tells whether it was not marked before. -/
def enter (t : TypeId) : Walk Bool := do
  let p ← get
  if h : t ∈ p.visited then
    return false
  else
    set { p with visited := p.visited.add t h }
    return true

/-- Does `x` a level deeper. However `x` ends, the walk is back from that level after it. -/
def deeper {α : Type} (x : Walk α) : Walk α := do
  modify fun p => { p with depth := p.depth + 1 }
  try x finally modify fun p => { p with depth := p.depth - 1 }

end Walk

end ClosureTypes
