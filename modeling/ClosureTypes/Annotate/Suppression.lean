import ClosureTypes.Scope
import ClosureTypes.Walk

/-!
# Suppressed symbols

A symbol is suppressed where a blacklist applies to it and holds every file that declares it. Object
types are left unknown along with their symbol.
-/

namespace ClosureTypes.Annotate

open Walk

variable (g : TypeGraph) (scope : Scope)

/-- Whether `s` is suppressed. A symbol that is declared nowhere is, under any blacklist that
applies to it. -/
def isSuppressed (s : SymbolId) : Walk Bool :=
  match scope.blacklistFor? s with
  | none => pure false
  | some files => do
    let sym ← symbol g s
    if sym.declarations.isEmpty then
      warn "symbol has no declarations"
      return true
    else
      return sym.declarations.all fun d => files.contains d.file

/-- Whether an object type with this record is suppressed along with its symbol. -/
def isSuppressedRecord (r : TypeRecord) : Walk Bool :=
  match r.symbol? with
  | none => pure false
  | some s => isSuppressed g scope s

end ClosureTypes.Annotate
