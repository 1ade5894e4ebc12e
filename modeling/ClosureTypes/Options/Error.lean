import ClosureTypes.Json.Token
import ClosureTypes.Text.Shown

/-!
# What can be wrong with options

Options may be unreadable, may be no JSON, or may be JSON of another form than options have. Only
the last has a wording of its own beside the place where it occurs.
-/

namespace ClosureTypes

/-- The beginning of a JSON value, which tells of what type the value is. -/
inductive FoundValue
  | null
  | boolean (b : Bool)
  | numeral (n : Json.Numeral)
  | text (s : String)
  | list
  | object

/-- What a value should have been. -/
inductive WantedValue
  | options
  | list
  | text
  deriving DecidableEq

/-- Why options could not be read. -/
inductive OptionsError
  /-- The file cannot be read, or is no text. -/
  | unreadable (path : String)
  /-- The text is no JSON. -/
  | illFormed
  | unknownField (name : String)
  | duplicateField (name : String)
  | wrongType (found : FoundValue) (wanted : WantedValue)

namespace FoundValue

/-- The value that begins with a token, if one does. -/
def ofToken? : Json.Token → Option FoundValue
  | .null => some null
  | .boolean b => some (boolean b)
  | .numeral n => some (numeral n)
  | .text s => some (text s)
  | .leftBracket => some list
  | .leftBrace => some object
  | .rightBracket | .rightBrace | .comma | .colon | .malformed => none

/-- The wording for a value. -/
def describe : FoundValue → String
  | null => "null"
  | boolean b => "boolean `" ++ (if b then "true" else "false") ++ "`"
  | numeral (.integer n) => "integer `" ++ toString n ++ "`"
  | numeral (.real x) => "floating point `" ++ Decimal.written x ++ "`"
  | text s => "string " ++ Text.shown s
  | list => "sequence"
  | object => "map"

end FoundValue

namespace WantedValue

/-- The wording for what a value should have been. -/
def describe : WantedValue → String
  | options => "struct TranslatorOptions"
  | list => "a sequence"
  | text => "a string"

end WantedValue

namespace Options

/-- The one field of options. -/
def blacklistField : String := "pathBlacklist"

end Options

namespace OptionsError

/-- What is wrong where a token stands that cannot begin the wanted value. -/
def unexpected (wanted : WantedValue) (token : Json.Token) : OptionsError :=
  match FoundValue.ofToken? token with
  | some found => wrongType found wanted
  | none => illFormed

/-- The wording for JSON of another form than options have. -/
def describe? : OptionsError → Option String
  | unknownField name =>
    some ("unknown field `" ++ name ++ "`, expected `" ++ Options.blacklistField ++ "`")
  | duplicateField name => some ("duplicate field `" ++ name ++ "`")
  | wrongType found wanted =>
    some ("invalid type: " ++ found.describe ++ ", expected " ++ wanted.describe)
  | unreadable _ | illFormed => none

/-- The message for an error, where it does not depend on the place of the error. -/
def message? : OptionsError → Option String
  | unreadable path => some ("failed to read translator options from " ++ path)
  | e => e.describe?.map ("invalid translator options: " ++ ·)

end OptionsError

end ClosureTypes
