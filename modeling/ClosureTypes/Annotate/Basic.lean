import ClosureTypes.Annotate.Literal
import ClosureTypes.Annotate.Named
import ClosureTypes.Annotate.Suppression
import ClosureTypes.Kind

/-!
# Expressions of types

The expression of a type recurs through the graph, which may be cyclic. Type literals are expanded
once, and all other ways round a cycle end at a limit on the nesting, where the type is left unknown
with a message.

`annotateHere` keeps count of the levels as it goes: this is the walk that annotators perform.
`annotate` is the expression of a type at the first level. It has the levels that are left as an
argument, where the other one has a counter.

1. `annotateWithin_zero`: nothing is left of the limit, so the type is not even looked up.
2. `annotateWithin_succ`: one level of the expression, by the levels below it.
3. `annotateWithin_of_kind`: the same for a type of which the kind is known.
-/

namespace ClosureTypes

/-- How deep the levels of an expression may be nested. -/
def levelLimit : Nat := 128

namespace Annotate

open Walk

variable (g : TypeGraph) (scope : Scope) (recur : TypeId → Walk TypeExpr)

/-- The message for an anonymous type that has no expression. -/
def unhandledAnonymous (t : TypeId) : Walk TypeExpr :=
  degrade ("unhandled anonymous type " ++ g.describe t)

/-- An anonymous type is a literal, or the function that its symbol names. -/
def anonymous (t : TypeId) (r : TypeRecord) : Walk TypeExpr :=
  match r.symbol? with
  | none => degrade "anonymous type has no symbol"
  | some s => do
    let sym ← symbol g s
    if sym.flags.has .typeLiteral then
      literal g scope recur t r sym
    else if sym.flags.has .function || sym.flags.has .method then
      match r.callSignatures with
      | [signature] => function g scope recur signature
      | _ => unhandledAnonymous g t
    else
      unhandledAnonymous g t

/-- The expression of an object type. A class or an interface may be flagged as a reference too, to
itself, and is none; hence the order. -/
def object (t : TypeId) (r : TypeRecord) : Walk TypeExpr := do
  let suppressed ← isSuppressedRecord g scope r
  if suppressed then
    return .unknown .suppressed
  else if r.objectFlags.has .classType then
    classType g scope r
  else if r.objectFlags.has .interface then
    interface g scope r
  else if r.objectFlags.has .reference then
    reference g recur t r
  else if r.objectFlags.has .anonymous then
    anonymous g scope recur t r
  else
    degrade ("unhandled object type " ++ g.describe t)

/-- A union is the choice among its constituents. -/
def union (r : TypeRecord) : Walk TypeExpr := do
  let parts ← r.constituents.mapM recur
  match TypeExpr.choice? parts with
  | none => degrade "union type has no constituents"
  | some e => return e

/-- The expression of a type of a kind that is not decided by the kind alone. -/
def byKind (t : TypeId) (r : TypeRecord) : Kind → Walk TypeExpr
  | .never => degrade "should not emit a 'never' type"
  | .typeParameter => degrade ("unhandled type parameter " ++ g.describe t)
  | .object => object g scope recur t r
  | .union => union recur r
  | _ => degrade ("unhandled type " ++ g.describe t)

/-- One level of the expression of a type. -/
def level (t : TypeId) : Walk TypeExpr := do
  let r ← typeRecord g t
  match Kind.ofFlags? r.flags with
  | none => throw (.unknownKind r.flags (g.describe t))
  | some kind =>
    match kind.fixed? with
    | some e => return e
    | none => byKind g scope recur t r kind

/-- The message for a type that would be nested too deep. It is not even looked up. -/
def tooDeep (t : TypeId) : Walk TypeExpr :=
  degrade ("type nesting exceeds " ++ toString levelLimit ++ " levels at " ++ g.describe t)

/-- The expression of `t` one level deeper than the walk is, unless it is too deep already. -/
def nested (t : TypeId) : Walk TypeExpr := do
  let p ← get
  if levelLimit ≤ p.depth then tooDeep g t else deeper (level g scope recur t)

end Annotate

/-! ## Counting the levels -/

/-- The expression of `t` as deep as the walk is, in at most `n` steps of the recursion. With more
steps than there are levels, the count ends the recursion before the steps do. -/
def annotateIn (g : TypeGraph) (scope : Scope) : Nat → TypeId → Walk TypeExpr
  | 0, t => Annotate.tooDeep g t
  | n + 1, t => Annotate.nested g scope (annotateIn g scope n) t

/-- The expression of `t` as deep as the walk is. -/
def annotateHere (g : TypeGraph) (scope : Scope) (t : TypeId) : Walk TypeExpr :=
  annotateIn g scope (levelLimit + 1) t

/-- The expression of a call signature, as a function, as deep as the walk is. -/
def annotateSignatureHere (g : TypeGraph) (scope : Scope) (signature : Signature) :
    Walk TypeExpr :=
  Annotate.function g scope (annotateHere g scope) signature

/-! ## Levels that are left -/

/-- The expression of `t` with at most `n` levels. -/
def annotateWithin (g : TypeGraph) (scope : Scope) : Nat → TypeId → Walk TypeExpr
  | 0, t => Annotate.tooDeep g t
  | n + 1, t => Annotate.level g scope (annotateWithin g scope n) t

/-- The expression of `t`. -/
def annotate (g : TypeGraph) (scope : Scope) (t : TypeId) : Walk TypeExpr :=
  annotateWithin g scope levelLimit t

/-- The expression of a call signature, as a function. -/
def annotateSignature (g : TypeGraph) (scope : Scope) (signature : Signature) : Walk TypeExpr :=
  Annotate.function g scope (annotate g scope) signature

theorem annotateWithin_zero (g : TypeGraph) (scope : Scope) (t : TypeId) :
    annotateWithin g scope 0 t =
      Walk.degrade
        ("type nesting exceeds " ++ toString levelLimit ++ " levels at " ++ g.describe t) := rfl

theorem annotateWithin_succ (g : TypeGraph) (scope : Scope) (n : Nat) (t : TypeId) :
    annotateWithin g scope (n + 1) t = Annotate.level g scope (annotateWithin g scope n) t := rfl

section

variable {g : TypeGraph} {scope : Scope} {t : TypeId} {r : TypeRecord} (hr : g.type? t = some r)

include hr

theorem annotateWithin_of_no_kind (hk : Kind.ofFlags? r.flags = none) (n : Nat) :
    annotateWithin g scope (n + 1) t = throw (.unknownKind r.flags (g.describe t)) := by
  rw [annotateWithin_succ, Annotate.level, Walk.typeRecord, hr]
  simp [hk]

theorem annotateWithin_of_kind {kind : Kind} (hk : Kind.ofFlags? r.flags = some kind) (n : Nat) :
    annotateWithin g scope (n + 1) t =
      kind.fixed?.elim (Annotate.byKind g scope (annotateWithin g scope n) t r kind) pure := by
  rw [annotateWithin_succ, Annotate.level, Walk.typeRecord, hr]
  cases he : kind.fixed? <;> simp [hk, he]

end

end ClosureTypes
