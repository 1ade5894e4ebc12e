import ClosureTypes.LibraryPath
import ClosureTypes.Scope
import ClosureTypes.Walk

/-!
# Types with a name

Classes and interfaces are written by the name of their symbol. A reference is written as the type
it refers to, with arguments.
-/

namespace ClosureTypes.Annotate

open Walk

variable (g : TypeGraph) (scope : Scope) (recur : TypeId → Walk TypeExpr)

/-- A class is written by name. -/
def classType (r : TypeRecord) : Walk TypeExpr :=
  match r.symbol? with
  | none => degrade "class has no symbol"
  | some s => return .named (scope.nameOf g s)

/-- The symbol is declared in a file of the language's own library. -/
def isLibrarySymbol (sym : Symbol) : Bool := sym.declarations.any fun d => isLibraryPath d.file

/-- An interface is written by name. One that shares its name with a value is trusted only if the
library declares it or an alias is given. -/
def interface (r : TypeRecord) : Walk TypeExpr :=
  match r.symbol? with
  | none => degrade "interface has no symbol"
  | some s => do
    let sym ← symbol g s
    if sym.isTypeAndValue && !scope.hasAlias s && !isLibrarySymbol sym then
      degrade ("type/symbol conflict for " ++ sym.name ++ ", using \x7b?\x7d for now")
    else
      return .named (scope.nameOf g s)

/-- A reference is its target, applied to its arguments if there are any. Tuples have no expression
of their own. -/
def reference (t : TypeId) (r : TypeRecord) : Walk TypeExpr :=
  match r.target? with
  | none => degrade ("reference has no target " ++ g.describe t)
  | some target => do
    let targetRecord ← typeRecord g target
    if targetRecord.objectFlags.has .tuple then
      return .tuple
    else if target = t then
      throw (.referenceLoop t (g.describe t))
    else
      let head ← recur target
      if r.arguments.isEmpty then
        return head
      else
        let arguments ← r.arguments.mapM recur
        return .apply head arguments

end ClosureTypes.Annotate
