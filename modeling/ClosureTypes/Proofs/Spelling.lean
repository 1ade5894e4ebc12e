import ClosureTypes.Json.Token
import Mathlib.Tactic.SplitIfs

/-!
# How JSON is spelled

Which characters spell a string or a token is a matter of a grammar, which is stated here apart from
how texts are read. A character of a string is spelled by itself, by a short escape, or by its
UTF-16 code units in hexadecimal, of which a character beyond U+FFFF has two.

1. `readChar_eq_some_iff`, `readText_eq_some_iff`: strings are read exactly as they are spelled.
2. `tokens_of_spells`, `spells_tokens`: so are the tokens of a text, with blanks around them.
-/

namespace ClosureTypes.Json

/-! ## The grammar -/

/-- The character is a hexadecimal digit of the value `n`, small or capital. -/
def IsHexDigit (c : Char) (n : Nat) : Prop :=
  "0123456789abcdef".toList[n]? = some c ∨ "0123456789ABCDEF".toList[n]? = some c

instance (c : Char) (n : Nat) : Decidable (IsHexDigit c n) :=
  inferInstanceAs (Decidable (_ ∨ _))

/-- Four hexadecimal digits spell a code unit. -/
inductive SpellsUnit : List Char → Nat → Prop
  | digits {a b c d : Char} {i j k l : Nat} : IsHexDigit a i → IsHexDigit b j → IsHexDigit c k →
      IsHexDigit d l → SpellsUnit [a, b, c, d] (((i * 16 + j) * 16 + k) * 16 + l)

/-- What follows the backslash of a short escape, and the character that it stands for. -/
def shortEscapes : List (Char × Char) :=
  [('"', '"'), ('\\', '\\'), ('/', '/'), ('b', '\x08'), ('f', '\x0c'), ('n', '\n'), ('r', '\r'),
    ('t', '\t')]

/-- The first of the two code units of a character beyond U+FFFF. -/
def highSurrogate (c : Char) : Nat := 0xd800 + (c.toNat - 0x10000) / 0x400

/-- The second of the two code units of a character beyond U+FFFF. -/
def lowSurrogate (c : Char) : Nat := 0xdc00 + (c.toNat - 0x10000) % 0x400

/-- The ways to spell one character of a string. -/
inductive SpellsChar : List Char → Char → Prop
  | plain {c : Char} : c ≠ '"' → c ≠ '\\' → 0x20 ≤ c.toNat → SpellsChar [c] c
  | short {e c : Char} : (e, c) ∈ shortEscapes → SpellsChar ['\\', e] c
  | unit {digits : List Char} {c : Char} : SpellsUnit digits c.toNat →
      SpellsChar ('\\' :: 'u' :: digits) c
  | pair {high low : List Char} {c : Char} : 0x10000 ≤ c.toNat →
      SpellsUnit high (highSurrogate c) → SpellsUnit low (lowSurrogate c) →
      SpellsChar ('\\' :: 'u' :: high ++ '\\' :: 'u' :: low) c

/-- The ways to spell the content of a string, between its quotes. -/
inductive SpellsText : List Char → List Char → Prop
  | nil : SpellsText [] []
  | cons {spelled rest content : List Char} {c : Char} : SpellsChar spelled c →
      SpellsText rest content → SpellsText (spelled ++ rest) (c :: content)

/-- The ways to spell a token. Truth values and numbers are left out, as no options hold any. -/
inductive SpellsToken : List Char → Token → Prop
  | leftBrace : SpellsToken ['\x7b'] .leftBrace
  | rightBrace : SpellsToken ['\x7d'] .rightBrace
  | leftBracket : SpellsToken ['['] .leftBracket
  | rightBracket : SpellsToken [']'] .rightBracket
  | comma : SpellsToken [','] .comma
  | colon : SpellsToken [':'] .colon
  | null : SpellsToken ['n', 'u', 'l', 'l'] .null
  | text {body content : List Char} : SpellsText body content →
      SpellsToken ('"' :: body ++ ['"']) (.text (String.ofList content))

/-- The characters that may stand around tokens. -/
def blanks : List Char := [' ', '\t', '\n', '\r']

/-- The ways to spell tokens in order, with blanks before, between and after them. -/
inductive Spells : List Char → List Token → Prop
  | nil : Spells [] []
  | blank {c : Char} {cs : List Char} {ts : List Token} : c ∈ blanks → Spells cs ts →
      Spells (c :: cs) ts
  | token {spelled cs : List Char} {token : Token} {ts : List Token} : SpellsToken spelled token →
      Spells cs ts → Spells (spelled ++ cs) (token :: ts)

/-! ## Code units -/

theorem IsHexDigit.lt {c : Char} {n : Nat} (h : IsHexDigit c n) : n < 16 := by
  rcases h with h | h <;> exact (List.getElem?_eq_some_iff.1 h).1

theorem SpellsUnit.lt {cs : List Char} {u : Nat} (h : SpellsUnit cs u) : u < 0x10000 := by
  cases h with
  | digits ha hb hc hd =>
    have := ha.lt
    have := hb.lt
    have := hc.lt
    have := hd.lt
    omega

theorem hexDigit?_eq_some_iff {c : Char} {n : Nat} : hexDigit? c = some n ↔ IsHexDigit c n := by
  constructor
  · have hascii : ∀ i < 128, ∀ m ∈ hexDigit? (Char.ofNat i), IsHexDigit (Char.ofNat i) m := by
      decide
    intro h
    have hlt : c.toNat < 128 := by
      have hle (d : Char) (hd : d.toNat < 128) (hcd : c ≤ d) : c.toNat < 128 :=
        Nat.lt_of_le_of_lt hcd hd
      unfold hexDigit? at h
      split_ifs at h with hdecimal hsmall hcapital
      · exact hle '9' (by decide) hdecimal.2
      · exact hle 'f' (by decide) hsmall.2
      · exact hle 'F' (by decide) hcapital.2
    have hdigit := hascii c.toNat hlt
    rw [Char.ofNat_toNat] at hdigit
    exact hdigit n h
  · have hsmall : ∀ p ∈ "0123456789abcdef".toList.zipIdx, hexDigit? p.1 = some p.2 := by decide
    have hcapital : ∀ p ∈ "0123456789ABCDEF".toList.zipIdx, hexDigit? p.1 = some p.2 := by decide
    rintro (h | h)
    · exact hsmall (c, n) (List.mem_zipIdx_iff_getElem?.2 h)
    · exact hcapital (c, n) (List.mem_zipIdx_iff_getElem?.2 h)

theorem readCodeUnit_eq_some_iff {cs rest : List Char} {u : Nat} :
    readCodeUnit cs = some (u, rest) ↔ ∃ digits, SpellsUnit digits u ∧ cs = digits ++ rest := by
  constructor
  · intro h
    match cs with
    | a :: b :: c :: d :: tail =>
      simp only [readCodeUnit, Option.bind_eq_bind, Option.bind_eq_some_iff, Option.pure_def,
        Option.some.injEq, Prod.mk.injEq, hexDigit?_eq_some_iff] at h
      obtain ⟨i, ha, j, hb, k, hc, l, hd, rfl, rfl⟩ := h
      exact ⟨[a, b, c, d], .digits ha hb hc hd, rfl⟩
    | [] | [_] | [_, _] | [_, _, _] => simp [readCodeUnit] at h
  · rintro ⟨_, ⟨ha, hb, hc, hd⟩, rfl⟩
    simp only [← hexDigit?_eq_some_iff] at ha hb hc hd
    simp [readCodeUnit, ha, hb, hc, hd]

/-! ## Characters -/

/-- A character is no surrogate. -/
theorem toNat_valid (c : Char) : c.toNat < 0xd800 ∨ 0xdfff < c.toNat ∧ c.toNat < 0x110000 := c.valid

theorem toNat_ofNat_of_valid {n : Nat} (h : n < 0xd800 ∨ 0xdfff < n ∧ n < 0x110000) :
    (Char.ofNat n).toNat = n := by
  rw [Char.ofNat, dif_pos h]
  rfl

/-- Two code units, of which the first is a high and the second a low surrogate, belong to one
character. -/
theorem surrogates_ofSurrogates {u v : Nat} (hu : isHighSurrogate u = true)
    (hv : isLowSurrogate v = true) :
    0x10000 ≤ (ofSurrogates u v).toNat ∧ highSurrogate (ofSurrogates u v) = u ∧
      lowSurrogate (ofSurrogates u v) = v := by
  simp only [isHighSurrogate, isLowSurrogate, Bool.and_eq_true, decide_eq_true_eq] at hu hv
  have hnat : (ofSurrogates u v).toNat = 0x10000 + (u - 0xd800) * 0x400 + (v - 0xdc00) :=
    toNat_ofNat_of_valid (by omega)
  rw [highSurrogate, lowSurrogate, hnat]
  omega

theorem ofSurrogates_surrogates {c : Char} (h : 0x10000 ≤ c.toNat) :
    isHighSurrogate (highSurrogate c) = true ∧ isLowSurrogate (lowSurrogate c) = true ∧
      ofSurrogates (highSurrogate c) (lowSurrogate c) = c := by
  have hc := toNat_valid c
  have hnat : 0x10000 + (highSurrogate c - 0xd800) * 0x400 + (lowSurrogate c - 0xdc00) =
      c.toNat := by
    rw [highSurrogate, lowSurrogate]
    omega
  refine ⟨?_, ?_, ?_⟩
  · rw [isHighSurrogate, highSurrogate, Bool.and_eq_true, decide_eq_true_iff, decide_eq_true_iff]
    omega
  · rw [isLowSurrogate, lowSurrogate, Bool.and_eq_true, decide_eq_true_iff, decide_eq_true_iff]
    omega
  · rw [ofSurrogates, hnat, Char.ofNat_toNat]

theorem spellsChar_of_readUnicode {cs rest : List Char} {c : Char}
    (h : readUnicode cs = some (c, rest)) :
    ∃ spelled, SpellsChar ('\\' :: 'u' :: spelled) c ∧ cs = spelled ++ rest := by
  unfold readUnicode at h
  split at h
  · cases h
  · next u tail hu =>
    obtain ⟨digits, hdigits, rfl⟩ := readCodeUnit_eq_some_iff.1 hu
    split_ifs at h with hhigh hlow
    · split at h
      · next more =>
        split at h
        · cases h
        · next v tail hv =>
          obtain ⟨digits', hdigits', rfl⟩ := readCodeUnit_eq_some_iff.1 hv
          split_ifs at h with hlow
          obtain ⟨rfl, rfl⟩ := Prod.mk.inj (Option.some.inj h)
          obtain ⟨hle, hu, hv⟩ := surrogates_ofSurrogates hhigh hlow
          rw [← hu] at hdigits
          rw [← hv] at hdigits'
          exact ⟨digits ++ '\\' :: 'u' :: digits', .pair hle hdigits hdigits', by simp⟩
      · cases h
    · obtain ⟨rfl, rfl⟩ := Prod.mk.inj (Option.some.inj h)
      have hunit := hdigits.lt
      simp only [isHighSurrogate, isLowSurrogate, Bool.and_eq_true, decide_eq_true_eq] at hhigh hlow
      have hnat : (Char.ofNat u).toNat = u := toNat_ofNat_of_valid (by omega)
      rw [← hnat] at hdigits
      exact ⟨digits, .unit hdigits, rfl⟩

theorem readUnicode_of_unit {digits : List Char} {c : Char} (h : SpellsUnit digits c.toNat)
    (rest : List Char) : readUnicode (digits ++ rest) = some (c, rest) := by
  have hc := toNat_valid c
  have hhigh : isHighSurrogate c.toNat = false := by
    simp only [isHighSurrogate, Bool.and_eq_false_iff, decide_eq_false_iff_not]
    omega
  have hlow : isLowSurrogate c.toNat = false := by
    simp only [isLowSurrogate, Bool.and_eq_false_iff, decide_eq_false_iff_not]
    omega
  rw [readUnicode, readCodeUnit_eq_some_iff.2 ⟨digits, h, rfl⟩]
  simp [hhigh, hlow, Char.ofNat_toNat]

theorem readUnicode_of_pair {high low : List Char} {c : Char} (hc : 0x10000 ≤ c.toNat)
    (hhigh : SpellsUnit high (highSurrogate c)) (hlow : SpellsUnit low (lowSurrogate c))
    (rest : List Char) :
    readUnicode (high ++ '\\' :: 'u' :: (low ++ rest)) = some (c, rest) := by
  obtain ⟨hisHigh, hisLow, hchar⟩ := ofSurrogates_surrogates hc
  have hfirst (tail : List Char) : readCodeUnit (high ++ tail) = some (highSurrogate c, tail) :=
    readCodeUnit_eq_some_iff.2 ⟨high, hhigh, rfl⟩
  have hsecond : readCodeUnit (low ++ rest) = some (lowSurrogate c, rest) :=
    readCodeUnit_eq_some_iff.2 ⟨low, hlow, rfl⟩
  simp [readUnicode, hfirst, hsecond, hisHigh, hisLow, hchar]

theorem shortEscape?_eq_some_iff {e c : Char} :
    shortEscape? e = some c ↔ (e, c) ∈ shortEscapes := by
  constructor
  · intro h
    unfold shortEscape? at h
    split at h <;> cases h <;> decide
  · have hall : ∀ p ∈ shortEscapes, shortEscape? p.1 = some p.2 := by decide
    exact hall (e, c)

theorem readChar_of_plain {c : Char} (hquote : c ≠ '"') (hbackslash : c ≠ '\\')
    (hcontrol : 0x20 ≤ c.toNat) (rest : List Char) : readChar (c :: rest) = some (c, rest) := by
  have hnone : ¬ (c = '"' ∨ c = '\\' ∨ c.toNat < 0x20) := by
    simp [hquote, hbackslash, hcontrol]
  unfold readChar
  split
  · next h => cases h
  · next h => exact absurd (List.cons.inj h).1 hbackslash
  · next h => exact absurd (List.cons.inj h).1 hbackslash
  · next h =>
    obtain ⟨rfl, rfl⟩ := List.cons.inj h
    rw [if_neg hnone]

/-- **Characters.** The first character of a string's content is read exactly as it is spelled. -/
theorem readChar_eq_some_iff {cs rest : List Char} {c : Char} :
    readChar cs = some (c, rest) ↔ ∃ spelled, SpellsChar spelled c ∧ cs = spelled ++ rest := by
  constructor
  · intro h
    unfold readChar at h
    split at h
    · cases h
    · next tail =>
      obtain ⟨spelled, hspelled, rfl⟩ := spellsChar_of_readUnicode h
      exact ⟨_, hspelled, rfl⟩
    · next e tail _ =>
      obtain ⟨d, hd, heq⟩ := Option.map_eq_some_iff.1 h
      cases heq
      exact ⟨['\\', e], .short (shortEscape?_eq_some_iff.1 hd), rfl⟩
    · next d tail _ _ =>
      split_ifs at h with hplain
      cases h
      simp only [not_or, Nat.not_lt] at hplain
      exact ⟨[c], .plain hplain.1 hplain.2.1 hplain.2.2, rfl⟩
  · rintro ⟨_, hspelled, rfl⟩
    cases hspelled with
    | plain hquote hbackslash hcontrol => exact readChar_of_plain hquote hbackslash hcontrol rest
    | @short e _ he =>
      have hu : e ≠ 'u' := by
        rintro rfl
        exact absurd (shortEscape?_eq_some_iff.2 he) (by simp [shortEscape?])
      show readChar ('\\' :: e :: rest) = _
      rw [readChar, shortEscape?_eq_some_iff.2 he]
      · rfl
      · exact hu
    | unit hdigits => exact readUnicode_of_unit hdigits rest
    | pair hle hhigh hlow =>
      rw [List.cons_append, List.cons_append, List.append_assoc]
      exact readUnicode_of_pair hle hhigh hlow rest

/-! ## Strings -/

/-- **Strings.** The content of a string is read exactly as it is spelled, up to the closing
quote. -/
theorem readText_eq_some_iff {cs rest content : List Char} :
    readText cs = some (content, rest) ↔
      ∃ body, SpellsText body content ∧ cs = body ++ '"' :: rest := by
  constructor
  · intro h
    induction content generalizing cs with
    | nil =>
      rw [readText_eq] at h
      split at h
      · obtain ⟨_, _, heq⟩ := Option.map_eq_some_iff.1 h
        cases heq
      · split at h
        · cases h
          exact ⟨[], .nil, rfl⟩
        · cases h
    | cons c content ih =>
      rw [readText_eq] at h
      split at h
      · next tail hc =>
        obtain ⟨_, htail, heq⟩ := Option.map_eq_some_iff.1 h
        cases heq
        obtain ⟨spelled, hspelled, rfl⟩ := readChar_eq_some_iff.1 hc
        obtain ⟨body, hbody, rfl⟩ := ih htail
        exact ⟨spelled ++ body, .cons hspelled hbody, (List.append_assoc _ _ _).symm⟩
      · split at h <;> cases h
  · rintro ⟨body, hbody, rfl⟩
    induction hbody with
    | nil => exact readText_quote rest
    | cons hspelled _ ih =>
      rw [List.append_assoc, readText_of_readChar (readChar_eq_some_iff.2 ⟨_, hspelled, rfl⟩), ih]
      rfl

theorem spellsText_quotedChars (content : List Char) :
    SpellsText (content.flatMap Text.quotedChar) content := by
  obtain ⟨body, hbody, heq⟩ := readText_eq_some_iff.1 (readText_quoted content [])
  rwa [List.append_cancel_right heq]

/-! ## Tokens -/

theorem isBlank_iff {c : Char} : isBlank c = true ↔ c ∈ blanks := by
  simp [isBlank, blanks, or_assoc]

theorem readToken_of_spells {spelled : List Char} {token : Token} (h : SpellsToken spelled token) :
    ∃ c tail, spelled = c :: tail ∧ isBlank c = false ∧
      ∀ cs, readToken c (tail ++ cs) = (token, cs) := by
  cases h with
  | null => exact ⟨'n', ['u', 'l', 'l'], rfl, rfl, fun cs => rfl⟩
  | @text body content hbody =>
    refine ⟨'"', body ++ ['"'], rfl, rfl, fun cs => ?_⟩
    have hread : readText (body ++ ['"'] ++ cs) = some (content, cs) :=
      readText_eq_some_iff.2 ⟨body, hbody, List.append_assoc _ _ _⟩
    show readTextToken _ = _
    rw [readTextToken, hread]
  | _ => exact ⟨_, [], rfl, rfl, fun cs => rfl⟩

/-- **Tokens.** Tokens are read as they are spelled. -/
theorem tokens_of_spells {cs : List Char} {ts : List Token} (h : Spells cs ts) :
    tokens cs = ts := by
  induction h with
  | nil => rw [tokens]
  | blank hc _ ih => rw [tokens, if_pos (isBlank_iff.2 hc), ih]
  | token hspelled _ ih =>
    obtain ⟨c, tail, rfl, hblank, hread⟩ := readToken_of_spells hspelled
    rw [List.cons_append, tokens, hblank, if_neg Bool.false_ne_true, hread, ih]

/-- The token occurs in options. -/
def Token.InOptions : Token → Prop
  | .boolean _ | .numeral _ | .malformed => False
  | _ => True

theorem spellsToken_of_punctuation? {c : Char} {token : Token} (h : punctuation? c = some token) :
    SpellsToken [c] token := by
  unfold punctuation? at h
  split at h
  · cases h; exact .leftBrace
  · cases h; exact .rightBrace
  · cases h; exact .leftBracket
  · cases h; exact .rightBracket
  · cases h; exact .comma
  · cases h; exact .colon
  · cases h

/-- A word that is read as a token of options stands there. -/
theorem readWord_of_inOptions {word : String} {token : Token} {cs : List Char}
    (h : (readWord word token cs).1.InOptions) :
    token.InOptions ∧ (readWord word token cs).1 = token ∧
      cs = word.toList ++ (readWord word token cs).2 := by
  unfold readWord at h ⊢
  split_ifs at h ⊢ with hword
  · obtain ⟨tail, rfl⟩ := List.isPrefixOf_iff_prefix.1 hword
    exact ⟨h, rfl, by simp⟩
  · exact h.elim

theorem spellsToken_of_readTextToken {cs : List Char} (h : (readTextToken cs).1.InOptions) :
    ∃ spelled, SpellsToken spelled (readTextToken cs).1 ∧
      '"' :: cs = spelled ++ (readTextToken cs).2 := by
  unfold readTextToken at h ⊢
  split at h
  · next content tail hread =>
    obtain ⟨body, hbody, rfl⟩ := readText_eq_some_iff.1 hread
    exact ⟨_, .text hbody, by simp⟩
  · exact h.elim

theorem spellsToken_of_readToken {c : Char} {rest : List Char}
    (h : (readToken c rest).1.InOptions) :
    ∃ spelled, SpellsToken spelled (readToken c rest).1 ∧
      c :: rest = spelled ++ (readToken c rest).2 := by
  unfold readToken at h ⊢
  split
  · next token hp => exact ⟨[c], spellsToken_of_punctuation? hp, rfl⟩
  · next hp =>
    rw [hp] at h
    dsimp only at h
    split at h
    · exact spellsToken_of_readTextToken h
    · obtain ⟨-, htoken, hrest⟩ := readWord_of_inOptions h
      rw [htoken]
      exact ⟨_, .null, congrArg (List.cons 'n') hrest⟩
    · exact (readWord_of_inOptions h).1.elim
    · exact (readWord_of_inOptions h).1.elim
    · unfold readNumeralToken at h
      split at h <;> exact h.elim

/-- Where only tokens of options are read, the text spells them. -/
theorem spells_tokens {cs : List Char} (h : ∀ token ∈ tokens cs, token.InOptions) :
    Spells cs (tokens cs) := by
  induction cs using tokens.induct with
  | case1 =>
    rw [tokens]
    exact .nil
  | case2 c rest hblank ih =>
    rw [tokens, if_pos hblank] at h ⊢
    exact .blank (isBlank_iff.1 hblank) (ih h)
  | case3 c rest hblank ih =>
    rw [tokens, if_neg hblank] at h ⊢
    obtain ⟨hfirst, hlater⟩ := List.forall_mem_cons.1 h
    obtain ⟨spelled, hspelled, heq⟩ := spellsToken_of_readToken hfirst
    rw [heq]
    exact .token hspelled (ih hlater)

end ClosureTypes.Json
