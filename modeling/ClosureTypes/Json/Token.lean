import ClosureTypes.Json.Numeral
import ClosureTypes.Json.Text

/-!
# JSON tokens

A JSON text is a sequence of tokens, with blanks between them that mean nothing. Where no token
can be read, the sequence ends with `malformed`, so that a reader can stop at whatever is wrong
first.

`length_readToken_le`: what follows a token is shorter than the text with the token.
-/

namespace ClosureTypes.Json

/-- The smallest meaningful part of a JSON text. -/
inductive Token
  | leftBrace
  | rightBrace
  | leftBracket
  | rightBracket
  | comma
  | colon
  | null
  | boolean (b : Bool)
  | numeral (n : Numeral)
  | text (s : String)
  /-- No token can be read from here on. -/
  | malformed

/-- The character may stand between tokens. -/
def isBlank (c : Char) : Bool := c = ' ' || c = '\t' || c = '\n' || c = '\r'

/-- Yields `token` and what follows `word`, if the word comes first. -/
def readWord (word : String) (token : Token) (cs : List Char) : Token × List Char :=
  if word.toList.isPrefixOf cs then (token, cs.drop word.toList.length) else (.malformed, [])

/-- The token that a character is all by itself. -/
def punctuation? : Char → Option Token
  | '\x7b' => some .leftBrace
  | '\x7d' => some .rightBrace
  | '[' => some .leftBracket
  | ']' => some .rightBracket
  | ',' => some .comma
  | ':' => some .colon
  | _ => none

/-- The string whose opening quote has been read, and what follows it. -/
def readTextToken (cs : List Char) : Token × List Char :=
  match readText cs with
  | some (content, rest) => (.text (String.ofList content), rest)
  | none => (.malformed, [])

/-- The number at the beginning, and what follows it. -/
def readNumeralToken (cs : List Char) : Token × List Char :=
  match readNumeral cs with
  | some (n, rest) => (.numeral n, rest)
  | none => (.malformed, [])

/-- The token that begins with `c`, and what follows it. -/
def readToken (c : Char) (rest : List Char) : Token × List Char :=
  match punctuation? c with
  | some token => (token, rest)
  | none =>
    match c with
    | '"' => readTextToken rest
    | 'n' => readWord "ull" .null rest
    | 't' => readWord "rue" (.boolean true) rest
    | 'f' => readWord "alse" (.boolean false) rest
    | c => readNumeralToken (c :: rest)

theorem length_readWord_le (word : String) (token : Token) (cs : List Char) :
    (readWord word token cs).2.length ≤ cs.length := by
  unfold readWord
  split <;> simp

theorem length_readTextToken_le (cs : List Char) :
    (readTextToken cs).2.length ≤ cs.length := by
  unfold readTextToken
  split
  · next h => exact Nat.le_of_lt (length_readText_lt h)
  · exact Nat.zero_le _

theorem length_readNumeralToken_le (c : Char) (rest : List Char) :
    (readNumeralToken (c :: rest)).2.length ≤ rest.length := by
  unfold readNumeralToken
  split
  · next h => exact Nat.le_of_lt_succ (length_readNumeral_lt h)
  · exact Nat.zero_le _

theorem length_readToken_le (c : Char) (rest : List Char) :
    (readToken c rest).2.length ≤ rest.length := by
  unfold readToken
  split
  · exact Nat.le_refl _
  split
  · exact length_readTextToken_le rest
  · exact length_readWord_le _ _ _
  · exact length_readWord_le _ _ _
  · exact length_readWord_le _ _ _
  · exact length_readNumeralToken_le _ _

/-- The tokens of a text. -/
def tokens : List Char → List Token
  | [] => []
  | c :: rest =>
    if isBlank c then tokens rest
    else (readToken c rest).1 :: tokens (readToken c rest).2
termination_by cs => cs.length
decreasing_by
  · simp
  · exact Nat.lt_succ_of_le (length_readToken_le c rest)

end ClosureTypes.Json
