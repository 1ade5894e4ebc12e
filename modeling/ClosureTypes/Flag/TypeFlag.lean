import ClosureTypes.Flag.Basic

/-!
# Flags of types

A type's kind is told by a flag word. One flag is the rule; `boolean` and enums are also flagged as
unions, and a member of an enum carries the flag of its literal beside its own.
-/

namespace ClosureTypes

/-- What a type is; each flag's bit position is its position in this list. -/
inductive TypeFlag
  | any
  | string
  | number
  | boolean
  | enum
  | stringLiteral
  | numberLiteral
  | booleanLiteral
  | enumLiteral
  | symbol
  | void
  | undefined
  | null
  | never
  | typeParameter
  | object
  | union
  | intersection
  | index
  | indexedAccess
  | nonPrimitive
  | bigInt
  | bigIntLiteral
  | uniqueSymbol
  | conditional
  | substitution
  | templateLiteral
  | stringMapping
  | unknown
  deriving DecidableEq

namespace TypeFlag

/-- The name of the flag in descriptions of types. -/
def name : TypeFlag → String
  | any => "Any"
  | string => "String"
  | number => "Number"
  | boolean => "Boolean"
  | enum => "Enum"
  | stringLiteral => "StringLiteral"
  | numberLiteral => "NumberLiteral"
  | booleanLiteral => "BooleanLiteral"
  | enumLiteral => "EnumLiteral"
  | symbol => "ESSymbol"
  | void => "Void"
  | undefined => "Undefined"
  | null => "Null"
  | never => "Never"
  | typeParameter => "TypeParameter"
  | object => "Object"
  | union => "Union"
  | intersection => "Intersection"
  | index => "Index"
  | indexedAccess => "IndexedAccess"
  | nonPrimitive => "NonPrimitive"
  | bigInt => "BigInt"
  | bigIntLiteral => "BigIntLiteral"
  | uniqueSymbol => "UniqueESSymbol"
  | conditional => "Conditional"
  | substitution => "Substitution"
  | templateLiteral => "TemplateLiteral"
  | stringMapping => "StringMapping"
  | unknown => "Unknown"

/-- Every flag, by rising bit position. -/
def all : List TypeFlag :=
  [any, string, number, boolean, enum, stringLiteral, numberLiteral, booleanLiteral, enumLiteral,
    symbol, void, undefined, null, never, typeParameter, object, union, intersection, index,
    indexedAccess, nonPrimitive, bigInt, bigIntLiteral, uniqueSymbol, conditional, substitution,
    templateLiteral, stringMapping, unknown]

instance : Flag TypeFlag where
  position f := f.ctorIdx
  name := name
  all := all
  position_lt f := by cases f <;> decide
  mem_all f := by cases f <;> decide
  sorted := by decide

end TypeFlag

/-- A flag word of a type. -/
abbrev TypeFlags := FlagSet TypeFlag

end ClosureTypes
