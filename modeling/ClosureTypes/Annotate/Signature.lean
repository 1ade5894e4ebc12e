import ClosureTypes.Scope
import ClosureTypes.Walk

/-!
# Expressions of symbols and signatures

The type of a symbol depends on the node from which it is seen. Parameters of a signature are
symbols; they are looked up from the scope's anchor, left to right, and before what the signature
returns.

Everything here takes as `recur` the function that expresses a type, so it says of one level of an
expression how it is put together from the level below.
-/

namespace ClosureTypes.Annotate

open Walk

variable (g : TypeGraph) (scope : Scope) (recur : TypeId → Walk TypeExpr)

/-- The expression of the type of `s` as seen from the anchor. -/
def symbolType (s : SymbolId) : Walk TypeExpr :=
  match g.symbolType? s scope.anchor with
  | some t => recur t
  | none => do
    let sym ← symbol g s
    degrade ("symbol " ++ sym.name ++ " has no type")

/-- The expressions of the types of parameters, in order. -/
def parameters (signature : Signature) : Walk (List TypeExpr) :=
  signature.parameters.mapM (symbolType g scope recur)

/-- A call signature is a function. -/
def function (signature : Signature) : Walk TypeExpr := do
  let parameters ← parameters g scope recur signature
  match signature.result? with
  | none => return .function parameters none
  | some t =>
    let result ← recur t
    return .function parameters (some result)

/-- A construct signature is a constructor of what it returns. -/
def constructor (signature : Signature) : Walk TypeExpr := do
  let parameters ← parameters g scope recur signature
  match signature.result? with
  | none => return .constructor (.unknown .unspecified) parameters
  | some t =>
    let constructed ← recur t
    return .constructor constructed parameters

end ClosureTypes.Annotate
