import ClosureTypes.Options.Error
import ClosureTypes.Text.Quoted

/-!
# Options and how they are written

What can be set from outside: the files whose symbols are to be suppressed. Options are written as a
JSON object without blanks. What is not set is left out.
-/

namespace ClosureTypes

/-- Settings that are read from a file. -/
structure Options where
  /-- The files whose symbols are suppressed; without a list no symbol is. -/
  blacklist? : Option (List String) := none
  deriving DecidableEq

namespace Options

/-- Nothing is set. -/
def default : Options := {}

/-- Nothing is set. An empty list counts as set. -/
def isDefault (o : Options) : Bool := o.blacklist?.isNone

/-- The options as JSON. -/
def toJson (o : Options) : String :=
  match o.blacklist? with
  | none => "\x7b\x7d"
  | some files =>
    "\x7b" ++ Text.quote blacklistField ++ ":[" ++ ",".intercalate (files.map Text.quote) ++ "]\x7d"

end Options

end ClosureTypes
