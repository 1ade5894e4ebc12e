import ClosureTypes.TypeExpr

/-!
# Kinds of types

The kind of a type is read off its flags. Flags that stand for no kind do not matter. Of the
others there is usually one, and it decides. Two combinations are known beside that: a union flag
with any other flags makes a union, and the flag of an enum's member makes a literal, of strings
where the flag of string literals is set too. All other flag words have no kind.
-/

namespace ClosureTypes

/-- What sort of type expression, if any, a type calls for. -/
inductive Kind
  | any
  | string
  | stringLiteral
  | number
  | numberLiteral
  | boolean
  | booleanLiteral
  | enum
  | enumLiteral
  | symbol
  | void
  | undefined
  | null
  | never
  | typeParameter
  | object
  | union
  | intersection
  | index
  | indexedAccess
  deriving DecidableEq

/-- The kind of a type that has this flag and no other that stands for a kind. -/
def TypeFlag.kind? : TypeFlag → Option Kind
  | any => some .any
  | string => some .string
  | number => some .number
  | boolean => some .boolean
  | enum => some .enum
  | stringLiteral => some .stringLiteral
  | numberLiteral => some .numberLiteral
  | booleanLiteral => some .booleanLiteral
  | enumLiteral => some .enumLiteral
  | symbol => some .symbol
  | void => some .void
  | undefined => some .undefined
  | null => some .null
  | never => some .never
  | typeParameter => some .typeParameter
  | object => some .object
  | union => some .union
  | intersection => some .intersection
  | index => some .index
  | indexedAccess => some .indexedAccess
  | nonPrimitive | bigInt | bigIntLiteral | uniqueSymbol | conditional | substitution
  | templateLiteral | stringMapping | unknown => none

/-- The flags that stand for a kind. -/
def TypeFlag.kindFlags : TypeFlags := .ofList (TypeFlag.all.filter (·.kind?.isSome))

theorem TypeFlag.bits_kindFlags : TypeFlag.kindFlags.bits = 1048575 := by decide

namespace Kind

/-- The kinds that the flags of a type stand for, by rising position of the flag. -/
def candidates (flags : TypeFlags) : List Kind := flags.members.filterMap TypeFlag.kind?

/-- The kind that decides among several candidates, if one does. -/
def ofCandidates? : List Kind → Option Kind
  | [kind] => some kind
  | kinds =>
    if union ∈ kinds then some union
    else if enumLiteral ∈ kinds then
      some (if stringLiteral ∈ kinds then stringLiteral else enumLiteral)
    else none

/-- The kind of a type with these flags, if they make one. -/
def ofFlags? (flags : TypeFlags) : Option Kind := ofCandidates? (candidates flags)

/-- The name of the kind. -/
def name : Kind → String
  | any => "Any"
  | string => "String"
  | stringLiteral => "StringLiteral"
  | number => "Number"
  | numberLiteral => "NumberLiteral"
  | boolean => "Boolean"
  | booleanLiteral => "BooleanLiteral"
  | enum => "Enum"
  | enumLiteral => "EnumLiteral"
  | symbol => "EsSymbol"
  | void => "Void"
  | undefined => "Undefined"
  | null => "Null"
  | never => "Never"
  | typeParameter => "TypeParameter"
  | object => "Object"
  | union => "Union"
  | intersection => "Intersection"
  | index => "Index"
  | indexedAccess => "IndexedAccess"

/-- The expression for a type of this kind, where the kind alone decides it. Literals widen to the
type of their values, and enums are numbers. -/
def fixed? : Kind → Option TypeExpr
  | any => some (.unknown .any)
  | string | stringLiteral => some (.primitive .string)
  | number | numberLiteral | enum | enumLiteral => some (.primitive .number)
  | boolean | booleanLiteral => some (.primitive .boolean)
  | symbol => some (.primitive .symbol)
  | void => some (.primitive .void)
  | undefined => some (.primitive .undefined)
  | null => some (.primitive .null)
  | never | typeParameter | object | union | intersection | index | indexedAccess => none

end Kind

end ClosureTypes
