import ClosureTypes.Options.Writer

/-!
# Reading options

Options are a JSON object with at most one field, or a list with at most one element, which then is
the value of that field. The value is null or a list of strings. Reading goes from left to right and
stops at the first thing that is wrong; a field's name is judged as soon as it has been read.
-/

namespace ClosureTypes.Options

open Json (Token)

/-- The strings of a list that has at least one more element. -/
def readElements : List Token → Except OptionsError (List String × List Token)
  | .text s :: .comma :: rest => do
    let (more, rest) ← readElements rest
    return (s :: more, rest)
  | .text s :: .rightBracket :: rest => .ok ([s], rest)
  | .text _ :: _ => .error .illFormed
  | token :: _ => .error (.unexpected .text token)
  | [] => .error .illFormed

/-- The strings of a list after its opening bracket. -/
def readList : List Token → Except OptionsError (List String × List Token)
  | .rightBracket :: rest => .ok ([], rest)
  | tokens => readElements tokens

/-- The value of the one field. -/
def readBlacklist : List Token → Except OptionsError (Option (List String) × List Token)
  | .null :: rest => .ok (none, rest)
  | .leftBracket :: rest => do
    let (files, rest) ← readList rest
    return (some files, rest)
  | token :: _ => .error (.unexpected .list token)
  | [] => .error .illFormed

/-- The options with the given field, provided that nothing follows. -/
def finish (blacklist? : Option (List String)) : List Token → Except OptionsError Options
  | [] => .ok { blacklist? }
  | _ => .error .illFormed

/-- Refuses a second field. -/
def refuseField (name : String) : OptionsError :=
  if name = blacklistField then .duplicateField name else .unknownField name

/-- What follows the value of the first field of an object. -/
def readObjectEnd (blacklist? : Option (List String)) : List Token → Except OptionsError Options
  | .rightBrace :: rest => finish blacklist? rest
  | .comma :: .text name :: _ => .error (refuseField name)
  | _ => .error .illFormed

/-- What follows the name of the first field of an object. -/
def readField : List Token → Except OptionsError Options
  | .colon :: rest => do
    let (blacklist?, rest) ← readBlacklist rest
    readObjectEnd blacklist? rest
  | _ => .error .illFormed

/-- The fields of an object after its opening brace. -/
def readObject : List Token → Except OptionsError Options
  | .rightBrace :: rest => finish none rest
  | .text name :: rest =>
    if name = blacklistField then readField rest else .error (.unknownField name)
  | _ => .error .illFormed

/-- The element of a list after its opening bracket. -/
def readSingle : List Token → Except OptionsError Options
  | .rightBracket :: rest => finish none rest
  | tokens => do
    let (blacklist?, rest) ← readBlacklist tokens
    match rest with
    | .rightBracket :: rest => finish blacklist? rest
    | _ => .error .illFormed

/-- The options that tokens spell. -/
def ofTokens : List Token → Except OptionsError Options
  | .leftBrace :: rest => readObject rest
  | .leftBracket :: rest => readSingle rest
  | token :: _ => .error (.unexpected .options token)
  | [] => .error .illFormed

/-- The options that a JSON text spells. -/
def ofJson (text : String) : Except OptionsError Options := ofTokens (Json.tokens text.toList)

/-- The options in a file; without contents the file could not be read. -/
def ofFile (path : String) (contents? : Option ByteArray) : Except OptionsError Options :=
  match contents?.bind String.fromUTF8? with
  | none => .error (.unreadable path)
  | some text => ofJson text

end ClosureTypes.Options
