import ClosureTypes.Flag.Basic

/-!
# Roles of symbols

A symbol may play several roles at once: an interface and a variable of one name share a symbol.
`typeRoles` and `valueRoles` are the roles in which a symbol can stand in a type and in an
expression.
-/

namespace ClosureTypes

/-- A role of a symbol. -/
inductive SymbolFlag
  | functionScopedVariable
  | blockScopedVariable
  | property
  | enumMember
  | function
  | classType
  | interface
  | constEnum
  | regularEnum
  | valueModule
  | namespaceModule
  | typeLiteral
  | objectLiteral
  | method
  | constructor
  | getAccessor
  | setAccessor
  | signature
  | typeParameter
  | typeAlias
  | importAlias
  | optional
  deriving DecidableEq

namespace SymbolFlag

/-- The bit position of the role: consecutive, but for gaps before the last two. -/
def position : SymbolFlag → Nat
  | importAlias => 21
  | optional => 24
  | f => f.ctorIdx

/-- The name of the role in descriptions of symbols. -/
def name : SymbolFlag → String
  | functionScopedVariable => "FunctionScopedVariable"
  | blockScopedVariable => "BlockScopedVariable"
  | property => "Property"
  | enumMember => "EnumMember"
  | function => "Function"
  | classType => "Class"
  | interface => "Interface"
  | constEnum => "ConstEnum"
  | regularEnum => "RegularEnum"
  | valueModule => "ValueModule"
  | namespaceModule => "NamespaceModule"
  | typeLiteral => "TypeLiteral"
  | objectLiteral => "ObjectLiteral"
  | method => "Method"
  | constructor => "Constructor"
  | getAccessor => "GetAccessor"
  | setAccessor => "SetAccessor"
  | signature => "Signature"
  | typeParameter => "TypeParameter"
  | typeAlias => "TypeAlias"
  | importAlias => "Alias"
  | optional => "Optional"

/-- Every role, by rising bit position. -/
def all : List SymbolFlag :=
  [functionScopedVariable, blockScopedVariable, property, enumMember, function, classType,
    interface, constEnum, regularEnum, valueModule, namespaceModule, typeLiteral, objectLiteral,
    method, constructor, getAccessor, setAccessor, signature, typeParameter, typeAlias, importAlias,
    optional]

instance : Flag SymbolFlag where
  position := position
  name := name
  all := all
  position_lt f := by cases f <;> decide
  mem_all f := by cases f <;> decide
  sorted := by decide

/-- Roles in which a symbol can stand in a type. -/
def typeRoles : FlagSet SymbolFlag :=
  .ofList [classType, interface, regularEnum, constEnum, enumMember, typeLiteral, typeParameter,
    typeAlias]

example : typeRoles.bits = 788968 := by decide

/-- Roles in which a symbol can stand in an expression. -/
def valueRoles : FlagSet SymbolFlag :=
  .ofList [functionScopedVariable, blockScopedVariable, property, enumMember, function, classType,
    regularEnum, constEnum, valueModule, method, getAccessor, setAccessor]

example : valueRoles.bits = 107455 := by decide

end SymbolFlag

/-- A word of symbol roles. -/
abbrev SymbolFlags := FlagSet SymbolFlag

end ClosureTypes
