import ClosureTypes.Graph.Display

/-!
# Scopes

A scope says where annotations are written: the node from which members and names are looked up, the
files whose symbols are to be suppressed, and the names that certain symbols are to be written by.
-/

namespace ClosureTypes

/-- The surroundings of an annotation. -/
structure Scope where
  /-- The node from which the types of members and qualified names are looked up. -/
  anchor : NodeId
  /-- The files whose symbols are suppressed. No list at all differs from an empty one, which still
  suppresses the symbols that are declared nowhere. -/
  blacklist? : Option (List String) := none
  aliases : Bindings SymbolId String := .empty

namespace Scope

/-- The scope has an alias for `s`. -/
def hasAlias (scope : Scope) (s : SymbolId) : Bool := (scope.aliases.find? s).isSome

/-- The name that `s` is written by: its alias, or else its qualified name. -/
def nameOf (scope : Scope) (g : TypeGraph) (s : SymbolId) : String :=
  match scope.aliases.find? s with
  | some name => name
  | none => g.qualifiedName scope.anchor s

/-- The blacklist that applies to `s`: aliased symbols are exempt from it. -/
def blacklistFor? (scope : Scope) (s : SymbolId) : Option (List String) :=
  if scope.hasAlias s then none else scope.blacklist?

end Scope

end ClosureTypes
