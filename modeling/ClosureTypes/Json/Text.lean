import ClosureTypes.Text.Quoted

/-!
# Reading JSON strings

A string runs from one double quote to the next. Between them a character stands for itself, or is
written as an escape: a short one, or `\u` with the four hexadecimal digits of a UTF-16 code unit.
Characters beyond U+FFFF take two code units, a high and a low surrogate; a surrogate by itself is
no character. Control characters below U+0020 have to be escaped.

1. `readText_quoted`: a quoted text is read back as it was.
2. `length_readText_lt`: what follows a string is shorter than the string with what follows it.
-/

namespace ClosureTypes.Json

open ClosureTypes.Text

/-- The character that a backslash and the given character stand for. -/
def shortEscape? : Char → Option Char
  | '"' => some '"'
  | '\\' => some '\\'
  | '/' => some '/'
  | 'b' => some '\x08'
  | 'f' => some '\x0c'
  | 'n' => some '\n'
  | 'r' => some '\r'
  | 't' => some '\t'
  | _ => none

/-- The value of a hexadecimal digit, small or capital. -/
def hexDigit? (c : Char) : Option Nat :=
  if '0' ≤ c ∧ c ≤ '9' then some (c.toNat - '0'.toNat)
  else if 'a' ≤ c ∧ c ≤ 'f' then some (c.toNat - 'a'.toNat + 10)
  else if 'A' ≤ c ∧ c ≤ 'F' then some (c.toNat - 'A'.toNat + 10)
  else none

/-- The code unit written by the first four characters, and what follows them. -/
def readCodeUnit : List Char → Option (Nat × List Char)
  | a :: b :: c :: d :: rest => do
    let a ← hexDigit? a
    let b ← hexDigit? b
    let c ← hexDigit? c
    let d ← hexDigit? d
    return (((a * 16 + b) * 16 + c) * 16 + d, rest)
  | _ => none

/-- The code unit is the first of two. -/
def isHighSurrogate (u : Nat) : Bool := 0xd800 ≤ u && u < 0xdc00

/-- The code unit is the second of two. -/
def isLowSurrogate (u : Nat) : Bool := 0xdc00 ≤ u && u < 0xe000

/-- The character that two code units stand for together. -/
def ofSurrogates (high low : Nat) : Char :=
  Char.ofNat (0x10000 + (high - 0xd800) * 0x400 + (low - 0xdc00))

/-- The character after `\u`, and what follows it. -/
def readUnicode (cs : List Char) : Option (Char × List Char) :=
  match readCodeUnit cs with
  | none => none
  | some (u, rest) =>
    if isHighSurrogate u then
      match rest with
      | '\\' :: 'u' :: more =>
        match readCodeUnit more with
        | none => none
        | some (v, rest) => if isLowSurrogate v then some (ofSurrogates u v, rest) else none
      | _ => none
    else if isLowSurrogate u then none
    else some (Char.ofNat u, rest)

/-- The first character of a string's content, and what follows it. -/
def readChar : List Char → Option (Char × List Char)
  | [] => none
  | '\\' :: 'u' :: rest => readUnicode rest
  | '\\' :: c :: rest => (shortEscape? c).map fun d => (d, rest)
  | c :: rest =>
    if c = '"' ∨ c = '\\' ∨ c.toNat < 0x20 then none else some (c, rest)

theorem length_readCodeUnit_lt {cs rest : List Char} {u : Nat}
    (h : readCodeUnit cs = some (u, rest)) : rest.length < cs.length := by
  match cs with
  | a :: b :: c :: d :: tail =>
    simp only [readCodeUnit, Option.bind_eq_bind, Option.bind_eq_some_iff, Option.pure_def,
      Option.some.injEq, Prod.mk.injEq] at h
    obtain ⟨_, _, _, _, _, _, _, _, _, rfl⟩ := h
    simp only [List.length_cons]
    omega
  | [] | [_] | [_, _] | [_, _, _] => simp [readCodeUnit] at h

theorem length_readUnicode_lt {cs rest : List Char} {c : Char}
    (h : readUnicode cs = some (c, rest)) : rest.length < cs.length := by
  unfold readUnicode at h
  split at h
  · simp at h
  · next u tail hu =>
    have hl := length_readCodeUnit_lt hu
    split at h
    · split at h
      · next more =>
        split at h
        · simp at h
        · next v tail' hv =>
          have hl' := length_readCodeUnit_lt hv
          split at h
          · simp only [Option.some.injEq, Prod.mk.injEq] at h
            obtain ⟨-, rfl⟩ := h
            simp only [List.length_cons] at hl
            omega
          · simp at h
      · simp at h
    · split at h
      · simp at h
      · simp only [Option.some.injEq, Prod.mk.injEq] at h
        obtain ⟨-, rfl⟩ := h
        exact hl

theorem length_readChar_lt {cs rest : List Char} {c : Char}
    (h : readChar cs = some (c, rest)) : rest.length < cs.length := by
  unfold readChar at h
  split at h
  · simp at h
  · have := length_readUnicode_lt h
    simp only [List.length_cons]
    omega
  · simp only [Option.map_eq_some_iff, Prod.mk.injEq] at h
    obtain ⟨_, _, _, rfl⟩ := h
    simp only [List.length_cons]
    omega
  · split at h
    · simp at h
    · simp only [Option.some.injEq, Prod.mk.injEq] at h
      obtain ⟨-, rfl⟩ := h
      simp

/-- The content of a string whose opening quote has been read, and what follows its closing quote,
provided that the content has fewer than `n` characters. -/
def readTextWithin : Nat → List Char → Option (List Char × List Char)
  | 0, _ => none
  | n + 1, cs =>
    match readChar cs with
    | some (c, rest) => (readTextWithin n rest).map fun p => (c :: p.1, p.2)
    | none =>
      match cs with
      | '"' :: rest => some ([], rest)
      | _ => none

/-- The content of a string whose opening quote has been read, and what follows its closing
quote. -/
def readText (cs : List Char) : Option (List Char × List Char) := readTextWithin cs.length cs

theorem length_readTextWithin_lt {n : Nat} {cs content rest : List Char}
    (h : readTextWithin n cs = some (content, rest)) : rest.length < cs.length := by
  induction n generalizing cs content with
  | zero => simp [readTextWithin] at h
  | succ n ih =>
    unfold readTextWithin at h
    split at h
    · next hc =>
      obtain ⟨⟨content', rest'⟩, h', he⟩ := Option.map_eq_some_iff.1 h
      obtain ⟨-, rfl⟩ := Prod.mk.inj he
      exact Nat.lt_trans (ih h') (length_readChar_lt hc)
    · split at h
      · obtain ⟨-, rfl⟩ := Prod.mk.inj (Option.some.inj h)
        exact Nat.lt_succ_self _
      · simp at h

theorem length_readText_lt {cs content rest : List Char}
    (h : readText cs = some (content, rest)) : rest.length < cs.length :=
  length_readTextWithin_lt h

/-- A bound beyond the length of the text changes nothing. -/
theorem readTextWithin_eq {n m : Nat} {cs : List Char} (hn : cs.length ≤ n) (hm : cs.length ≤ m) :
    readTextWithin n cs = readTextWithin m cs := by
  induction n generalizing m cs with
  | zero =>
    obtain rfl := List.length_eq_zero_iff.1 (Nat.le_zero.1 hn)
    cases m <;> rfl
  | succ n ih =>
    cases m with
    | zero =>
      obtain rfl := List.length_eq_zero_iff.1 (Nat.le_zero.1 hm)
      rfl
    | succ m =>
      unfold readTextWithin
      split
      · next hc =>
        have hl := length_readChar_lt hc
        rw [ih (Nat.le_of_lt_succ (Nat.lt_of_lt_of_le hl hn))
          (Nat.le_of_lt_succ (Nat.lt_of_lt_of_le hl hm))]
      · rfl

/-- The rule of reading, without a bound. -/
theorem readText_eq (cs : List Char) :
    readText cs =
      match readChar cs with
      | some (c, rest) => (readText rest).map fun p => (c :: p.1, p.2)
      | none =>
        match cs with
        | '"' :: rest => some ([], rest)
        | _ => none := by
  rw [readText, readTextWithin_eq (Nat.le_refl _) (Nat.le_succ _)]
  unfold readTextWithin
  split
  · next hc =>
    rw [readText, readTextWithin_eq (Nat.le_of_lt (length_readChar_lt hc)) (Nat.le_refl _)]
  · rfl

/-! ## Quoted texts are read back -/

theorem hexDigit?_digitChar : ∀ n < 16, hexDigit? (Nat.digitChar n) = some n := by decide

theorem readChar_quotedChar (c : Char) (rest : List Char) :
    readChar (quotedChar c ++ rest) = some (c, rest) := by
  unfold quotedChar
  split
  · next h => subst h; rfl
  split
  · next h => subst h; rfl
  split
  · next h => subst h; rfl
  split
  · next h => subst h; rfl
  split
  · next h => subst h; rfl
  split
  · next h => subst h; rfl
  split
  · next h => subst h; rfl
  next hq hb _ _ _ _ _ =>
  split
  · next hc =>
    have h1 : hexDigit? (Nat.digitChar (c.toNat / 16)) = some (c.toNat / 16) :=
      hexDigit?_digitChar _ (by omega)
    have h2 : hexDigit? (Nat.digitChar (c.toNat % 16)) = some (c.toNat % 16) :=
      hexDigit?_digitChar _ (by omega)
    have h0 : hexDigit? '0' = some 0 := rfl
    have hs : c.toNat / 16 * 16 + c.toNat % 16 = c.toNat := by omega
    have hh : isHighSurrogate c.toNat = false := by simp [isHighSurrogate]; omega
    have hl : isLowSurrogate c.toNat = false := by simp [isLowSurrogate]; omega
    simp [readChar, readUnicode, readCodeUnit, h0, h1, h2, hs, hh, hl]
  · next hc =>
    have hc' : ¬ (c = '"' ∨ c = '\\' ∨ c.toNat < 0x20) :=
      fun h => h.elim hq fun h => h.elim hb hc
    have hu : ∀ r, c :: rest ≠ '\\' :: r := by
      intro r he
      exact hb (List.cons.inj he).1
    rw [List.singleton_append]
    unfold readChar
    split
    · next h => simp at h
    · next h => exact absurd h (hu _)
    · next h => exact absurd h (hu _)
    · next d tail _ _ h =>
      obtain ⟨rfl, rfl⟩ := List.cons.inj h
      rw [if_neg hc']

theorem readText_of_readChar {cs rest : List Char} {c : Char}
    (h : readChar cs = some (c, rest)) :
    readText cs = (readText rest).map fun p => (c :: p.1, p.2) := by
  rw [readText_eq, h]

theorem readText_quote (rest : List Char) : readText ('"' :: rest) = some ([], rest) := rfl

theorem readText_quoted (cs rest : List Char) :
    readText (cs.flatMap quotedChar ++ '"' :: rest) = some (cs, rest) := by
  induction cs with
  | nil => exact readText_quote rest
  | cons c cs ih =>
    rw [List.flatMap_cons, List.append_assoc, readText_of_readChar (readChar_quotedChar c _), ih]
    rfl

end ClosureTypes.Json
