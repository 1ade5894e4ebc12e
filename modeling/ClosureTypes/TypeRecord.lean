import ClosureTypes.Flag.TypeFlag
import ClosureTypes.Flag.ObjectFlag
import ClosureTypes.Handle

/-!
# Type records

A type record holds what is known of one type. Its fields name other types and symbols by handle, so
that records can refer to each other in cycles. A field that does not apply to a type of its kind is
left empty, and is not looked at.
-/

namespace ClosureTypes

/-- Whether a signature is used by calling or by `new`. -/
inductive SignatureKind
  | call
  | construct
  deriving DecidableEq

/-- The key type of an index. -/
inductive IndexKind
  | string
  | number
  deriving DecidableEq

/-- A shape that can be called or constructed. Parameters are symbols: their types are looked up
from the place where the signature is read. -/
structure Signature where
  kind : SignatureKind
  parameters : List SymbolId := []
  result? : Option TypeId := none
  deriving DecidableEq

/-- What is known of one type. -/
structure TypeRecord where
  flags : TypeFlags := .empty
  objectFlags : ObjectFlags := .empty
  symbol? : Option SymbolId := none
  /-- The symbol of the type alias through which the type was reached. -/
  aliasSymbol? : Option SymbolId := none
  aliasArguments : List TypeId := []
  /-- The generic type that a reference applies to its arguments. -/
  target? : Option TypeId := none
  arguments : List TypeId := []
  /-- The alternatives of a union, the parts of an intersection. -/
  constituents : List TypeId := []
  callSignatures : List Signature := []
  constructSignatures : List Signature := []
  stringIndex? : Option TypeId := none
  numberIndex? : Option TypeId := none
  /-- The type was inferred from a destructuring pattern. -/
  fromPattern : Bool := false
  deriving DecidableEq

namespace TypeRecord

/-- An object type of the sort that `flags` tells, with `symbol?` as its symbol. -/
def object (flags : ObjectFlags) (symbol? : Option SymbolId) : TypeRecord where
  flags := .ofList [TypeFlag.object]
  objectFlags := flags
  symbol? := symbol?

/-- The signatures of one kind, in order. -/
def signatures (r : TypeRecord) : SignatureKind → List Signature
  | .call => r.callSignatures
  | .construct => r.constructSignatures

/-- The type of the values under keys of one kind. -/
def index? (r : TypeRecord) : IndexKind → Option TypeId
  | .string => r.stringIndex?
  | .number => r.numberIndex?

end TypeRecord

end ClosureTypes
