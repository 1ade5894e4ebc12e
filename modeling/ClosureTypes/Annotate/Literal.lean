import ClosureTypes.Annotate.Signature

/-!
# Expressions of type literals

A type literal is expanded at most once; wherever it is met again it is left unknown. A literal
with construct signatures is a constructor after the first of them, whatever else it has. The
shape of any other literal follows from its fields and from whether it can be called or indexed:

* without fields, and only called: a function, if there is just one call signature;
* without fields, and only indexed: a map;
* without fields, neither called nor indexed: an object;
* with fields, and not both called and indexed: a record of the fields.

The rest has no expression.
-/

namespace ClosureTypes.Annotate

open Walk

variable (g : TypeGraph) (scope : Scope) (recur : TypeId → Walk TypeExpr)

/-- The expression of a map: from strings if the values under strings are known, or else from
numbers. -/
def map (r : TypeRecord) : Walk TypeExpr :=
  match r.stringIndex?, r.numberIndex? with
  | some t, _ => do
    let value ← recur t
    return .map .string value
  | none, some t => do
    let value ← recur t
    return .map .number value
  | none, none => do
    warn "unknown index key type"
    return .unknownMap

/-- The expressions of fields, in order. -/
def fields (members : List (String × SymbolId)) : Walk (List (String × TypeExpr)) :=
  members.mapM fun m => do
    let e ← symbolType g scope recur m.2
    return (m.1, e)

/-- The message for a literal that has no expression. -/
def unhandledLiteral : Walk TypeExpr := degrade "unhandled type literal"

/-- The expression of a literal without construct signatures, by its fields and markers. -/
def shape (r : TypeRecord) (callable indexable : Bool) :
    List (String × TypeExpr) → Walk TypeExpr
  | [] =>
    match callable, indexable with
    | true, false =>
      match r.callSignatures with
      | [signature] => function g scope recur signature
      | _ => unhandledLiteral
    | false, true => map recur r
    | false, false => pure .object
    | true, true => unhandledLiteral
  | field :: rest =>
    if callable && indexable then unhandledLiteral else pure (.record (field :: rest))

/-- The expression of a literal that has not been expanded before. -/
def expand (r : TypeRecord) (sym : Symbol) : Walk TypeExpr :=
  match r.constructSignatures with
  | signature :: _ => constructor g scope recur signature
  | [] => do
    let fields ← fields g scope recur sym.members.fields
    shape g scope recur r sym.members.isCallable sym.members.isIndexable fields

/-- The expression of the literal `t`, which is marked as expanded before anything else. -/
def literal (t : TypeId) (r : TypeRecord) (sym : Symbol) : Walk TypeExpr := do
  let isNew ← enter t
  if isNew then expand g scope recur r sym else return .unknown .revisited

end ClosureTypes.Annotate
