/-!
# Settings of the event log

Events are logged only if a filter is given: the program's own, or else a general one. The format of
the log is chosen by name; names are compared without regard to case and to blanks around them, and
an unknown name means plain text. The blanks are the 25 characters with the Unicode property
White_Space.
-/

namespace ClosureTypes

namespace Text

/-- The character has the property White_Space. -/
def isBlank (c : Char) : Bool :=
  let n := c.toNat
  (9 ≤ n && n ≤ 13) || n == 0x20 || n == 0x85 || n == 0xa0 || n == 0x1680
    || (0x2000 ≤ n && n ≤ 0x200a) || n == 0x2028 || n == 0x2029 || n == 0x202f || n == 0x205f
    || n == 0x3000

/-- The characters without the blanks before the first and after the last that is none. -/
def trim (cs : List Char) : List Char :=
  ((cs.dropWhile isBlank).reverse.dropWhile isBlank).reverse

end Text

/-- How logged events are written. -/
inductive LogFormat
  | text
  | tree
  | json
  deriving DecidableEq

namespace LogFormat

/-- The name of the format. -/
def name : LogFormat → String
  | text => "Text"
  | tree => "Tree"
  | json => "Json"

/-- The format that `choice` names. -/
def ofChoice (choice : String) : LogFormat :=
  let word := (Text.trim choice.toList).map Char.toLower
  if word = "tree".toList then tree
  else if word = "json".toList then json
  else text

end LogFormat

/-- Which events are logged, and how. -/
structure LogSettings where
  directives : String
  format : LogFormat
  deriving DecidableEq

namespace LogSettings

/-- The settings by a filter, a filter to fall back on, and the choice of a format. Without any
filter nothing is logged. -/
def ofChoices (filter fallback format : Option String) : Option LogSettings :=
  (filter.or fallback).map fun directives =>
    { directives, format := (format.map LogFormat.ofChoice).getD .text }

/-- The names of the variables that hold the choices. -/
structure VariableNames where
  filter : String
  fallback : String
  format : String

/-- The settings by the variables of an environment. -/
def ofEnvironment (names : VariableNames) (lookup : String → Option String) :
    Option LogSettings :=
  ofChoices (lookup names.filter) (lookup names.fallback) (lookup names.format)

end LogSettings

end ClosureTypes
