import ClosureTypes.Flag.SymbolFlag
import ClosureTypes.MemberTable

/-!
# Symbols

A symbol is a named entity: where it is declared, which roles it plays, which members it owns, and
which symbol encloses it.
-/

namespace ClosureTypes

/-- A place where a symbol is declared: the path of the file, and the node in it. -/
structure Declaration where
  file : String
  node : NodeId := .nowhere
  deriving DecidableEq

/-- A named entity. -/
structure Symbol where
  name : String
  flags : SymbolFlags := .empty
  declarations : List Declaration := []
  members : MemberTable := .empty
  parent? : Option SymbolId := none

namespace Symbol

/-- The name given to the symbol of a type literal, which has no name of its own. -/
def literalName : String := "__type"

/-- The symbol can stand both in a type and in an expression, as an interface does that shares its
name with a variable. -/
def isTypeAndValue (s : Symbol) : Bool :=
  s.flags.meets SymbolFlag.typeRoles && s.flags.meets SymbolFlag.valueRoles

end Symbol

end ClosureTypes
