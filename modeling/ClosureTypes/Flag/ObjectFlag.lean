import ClosureTypes.Flag.Basic

/-!
# Flags of object types

An object type says by a second flag word what sort of object it is.
-/

namespace ClosureTypes

/-- What an object type is; each flag's bit position is its position in this list. -/
inductive ObjectFlag
  | classType
  | interface
  | reference
  | tuple
  | anonymous
  | mapped
  | instantiated
  | objectLiteral
  | evolvingArray
  | computedPattern
  deriving DecidableEq

namespace ObjectFlag

/-- The name of the flag in descriptions of types. -/
def name : ObjectFlag → String
  | classType => "Class"
  | interface => "Interface"
  | reference => "Reference"
  | tuple => "Tuple"
  | anonymous => "Anonymous"
  | mapped => "Mapped"
  | instantiated => "Instantiated"
  | objectLiteral => "ObjectLiteral"
  | evolvingArray => "EvolvingArray"
  | computedPattern => "ObjectLiteralPatternWithComputedProperties"

/-- Every flag, by rising bit position. -/
def all : List ObjectFlag :=
  [classType, interface, reference, tuple, anonymous, mapped, instantiated, objectLiteral,
    evolvingArray, computedPattern]

instance : Flag ObjectFlag where
  position f := f.ctorIdx
  name := name
  all := all
  position_lt f := by cases f <;> decide
  mem_all f := by cases f <;> decide
  sorted := by decide

end ObjectFlag

/-- A flag word of an object type. -/
abbrev ObjectFlags := FlagSet ObjectFlag

end ClosureTypes
