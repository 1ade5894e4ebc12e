import ClosureTypes.Options.Reader
import ClosureTypes.Options.Writer
import ClosureTypes.Proofs.Spelling

/-!
# The language of options

Options are spelled by an object with at most one member or by a list with at most one element. The
member's name is fixed; its value, or the element, is null or a list of strings.

1. `Options.ofJson_eq_ok_iff`: these texts are read, as what they spell, and no others.
2. `Options.ofJson_toJson`: what is written is read back.
-/

namespace ClosureTypes.Options

open Json (Token)

/-! ## The grammar -/

/-- The tokens of the value of the one field, and the files that they name. -/
inductive SpellsFiles : List Token → Option (List String) → Prop
  | null : SpellsFiles [.null] none
  | list (files : List String) :
      SpellsFiles (.leftBracket :: ((files.map Token.text).intersperse .comma ++ [.rightBracket]))
        (some files)

/-- The tokens of options. -/
inductive SpellsOptions : List Token → Options → Prop
  | emptyObject : SpellsOptions [.leftBrace, .rightBrace] { blacklist? := none }
  | object {value : List Token} {blacklist? : Option (List String)} :
      SpellsFiles value blacklist? →
      SpellsOptions (.leftBrace :: .text "pathBlacklist" :: .colon :: (value ++ [.rightBrace]))
        { blacklist? }
  | emptyList : SpellsOptions [.leftBracket, .rightBracket] { blacklist? := none }
  | single {value : List Token} {blacklist? : Option (List String)} :
      SpellsFiles value blacklist? →
      SpellsOptions (.leftBracket :: (value ++ [.rightBracket])) { blacklist? }

/-! ## Reading tokens -/

theorem bind_eq_ok_iff {ε α β : Type} {x : Except ε α} {f : α → Except ε β} {b : β} :
    (x >>= f) = .ok b ↔ ∃ a, x = .ok a ∧ f a = .ok b := by
  cases x with
  | error e =>
    constructor
    · intro h
      cases h
    · rintro ⟨a, ⟨⟩, -⟩
  | ok a =>
    constructor
    · intro h
      exact ⟨a, rfl, h⟩
    · rintro ⟨_, ⟨⟩, h⟩
      exact h

theorem readElements_of_files {files : List String} (h : files ≠ []) (rest : List Token) :
    readElements ((files.map Token.text).intersperse .comma ++ .rightBracket :: rest) =
      .ok (files, rest) := by
  induction files with
  | nil => exact absurd rfl h
  | cons file more ih =>
    cases more with
    | nil => rfl
    | cons next more =>
      simp only [List.map_cons, List.intersperse_cons_cons, List.cons_append] at ih ⊢
      rw [readElements, ih (List.cons_ne_nil _ _)]
      rfl

theorem files_of_readElements {ts rest : List Token} {files : List String}
    (h : readElements ts = .ok (files, rest)) :
    files ≠ [] ∧ ts = (files.map Token.text).intersperse .comma ++ .rightBracket :: rest := by
  fun_induction readElements ts generalizing files with
  | case1 file tail ih =>
    obtain ⟨⟨more, rest⟩, hmore, heq⟩ := bind_eq_ok_iff.1 h
    cases heq
    obtain ⟨hne, htail⟩ := ih hmore
    obtain ⟨next, more, rfl⟩ := List.exists_cons_of_ne_nil hne
    exact ⟨List.cons_ne_nil _ _, by rw [htail]; rfl⟩
  | case2 file tail =>
    cases h
    exact ⟨List.cons_ne_nil _ _, rfl⟩
  | _ => cases h

/-- The files of a list are read up to the closing bracket. -/
theorem readList_eq_ok_iff {ts rest : List Token} {files : List String} :
    readList ts = .ok (files, rest) ↔
      ts = (files.map Token.text).intersperse .comma ++ .rightBracket :: rest := by
  constructor
  · intro h
    unfold readList at h
    split at h
    · cases h
      rfl
    · exact (files_of_readElements h).2
  · rintro rfl
    cases files with
    | nil => rfl
    | cons file more =>
      have hread := readElements_of_files (List.cons_ne_nil file more) rest
      unfold readList
      split
      · next heq => cases more <;> cases heq
      · exact hread

/-- The value of the one field is read exactly as it is spelled. -/
theorem readBlacklist_eq_ok_iff {ts rest : List Token} {blacklist? : Option (List String)} :
    readBlacklist ts = .ok (blacklist?, rest) ↔
      ∃ value, SpellsFiles value blacklist? ∧ ts = value ++ rest := by
  constructor
  · intro h
    unfold readBlacklist at h
    split at h
    · cases h
      exact ⟨_, .null, rfl⟩
    · obtain ⟨⟨files, rest⟩, hlist, heq⟩ := bind_eq_ok_iff.1 h
      cases heq
      exact ⟨_, .list files, by rw [readList_eq_ok_iff.1 hlist]; simp⟩
    · cases h
    · cases h
  · rintro ⟨_, hvalue, rfl⟩
    cases hvalue with
    | null => rfl
    | list files =>
      rw [List.cons_append, List.append_assoc]
      exact bind_eq_ok_iff.2 ⟨(files, rest), readList_eq_ok_iff.2 rfl, rfl⟩

theorem finish_eq_ok_iff {ts : List Token} {blacklist? : Option (List String)} {o : Options} :
    finish blacklist? ts = .ok o ↔ ts = [] ∧ o = { blacklist? } := by
  cases ts with
  | nil => simp [finish, eq_comm]
  | cons _ _ => simp [finish]

theorem readObjectEnd_eq_ok_iff {ts : List Token} {blacklist? : Option (List String)}
    {o : Options} :
    readObjectEnd blacklist? ts = .ok o ↔ ts = [.rightBrace] ∧ o = { blacklist? } := by
  unfold readObjectEnd
  split
  · simp [finish_eq_ok_iff]
  · simp
  · next hbrace _ =>
    simp only [reduceCtorEq, false_iff, not_and]
    intro hts
    exact absurd hts (hbrace [])

/-- After the name of the field there come a colon, its value and the closing brace. -/
theorem readField_eq_ok_iff {ts : List Token} {o : Options} :
    readField ts = .ok o ↔
      ∃ value, SpellsFiles value o.blacklist? ∧ ts = .colon :: (value ++ [.rightBrace]) := by
  constructor
  · intro h
    unfold readField at h
    split at h
    · obtain ⟨⟨blacklist?, rest⟩, hvalue, hend⟩ := bind_eq_ok_iff.1 h
      obtain ⟨value, hspelled, rfl⟩ := readBlacklist_eq_ok_iff.1 hvalue
      obtain ⟨rfl, rfl⟩ := readObjectEnd_eq_ok_iff.1 hend
      exact ⟨value, hspelled, rfl⟩
    · cases h
  · rintro ⟨value, hspelled, rfl⟩
    exact bind_eq_ok_iff.2 ⟨(o.blacklist?, [.rightBrace]),
      readBlacklist_eq_ok_iff.2 ⟨value, hspelled, rfl⟩, readObjectEnd_eq_ok_iff.2 ⟨rfl, rfl⟩⟩

/-- An object has no member, or the one that options have. -/
theorem readObject_eq_ok_iff {ts : List Token} {o : Options} :
    readObject ts = .ok o ↔ SpellsOptions (.leftBrace :: ts) o := by
  constructor
  · intro h
    unfold readObject at h
    split at h
    · obtain ⟨rfl, rfl⟩ := finish_eq_ok_iff.1 h
      exact .emptyObject
    · split_ifs at h with hname
      obtain ⟨value, hspelled, rfl⟩ := readField_eq_ok_iff.1 h
      rw [hname]
      exact .object hspelled
    · cases h
  · intro h
    cases h with
    | emptyObject => rfl
    | object hspelled =>
      exact readField_eq_ok_iff.2 ⟨_, hspelled, rfl⟩

/-- A list has no element, or the value of the one member that options have. -/
theorem readSingle_eq_ok_iff {ts : List Token} {o : Options} :
    readSingle ts = .ok o ↔ SpellsOptions (.leftBracket :: ts) o := by
  constructor
  · intro h
    unfold readSingle at h
    split at h
    · obtain ⟨rfl, rfl⟩ := finish_eq_ok_iff.1 h
      exact .emptyList
    · obtain ⟨⟨blacklist?, rest⟩, hvalue, hend⟩ := bind_eq_ok_iff.1 h
      obtain ⟨value, hspelled, rfl⟩ := readBlacklist_eq_ok_iff.1 hvalue
      dsimp only at hend
      split at hend
      · obtain ⟨rfl, rfl⟩ := finish_eq_ok_iff.1 hend
        exact .single hspelled
      · cases hend
  · intro h
    cases h with
    | emptyList => rfl
    | single hspelled =>
      unfold readSingle
      split
      · next heq => cases hspelled <;> cases heq
      · exact bind_eq_ok_iff.2 ⟨_, readBlacklist_eq_ok_iff.2 ⟨_, hspelled, rfl⟩, rfl⟩

theorem ofTokens_eq_ok_iff {ts : List Token} {o : Options} :
    ofTokens ts = .ok o ↔ SpellsOptions ts o := by
  constructor
  · intro h
    unfold ofTokens at h
    split at h
    · exact readObject_eq_ok_iff.1 h
    · exact readSingle_eq_ok_iff.1 h
    · cases h
    · cases h
  · intro h
    have hfirst : (∃ rest, ts = .leftBrace :: rest) ∨ ∃ rest, ts = .leftBracket :: rest := by
      cases h <;> simp
    rcases hfirst with ⟨rest, rfl⟩ | ⟨rest, rfl⟩
    · exact readObject_eq_ok_iff.2 h
    · exact readSingle_eq_ok_iff.2 h

/-! ## Tokens of options -/

theorem inOptions_of_mem_elements (files : List String) :
    ∀ token ∈ (files.map Token.text).intersperse .comma, token.InOptions := by
  induction files with
  | nil => simp
  | cons file more ih =>
    cases more with
    | nil => simp [Token.InOptions]
    | cons next more =>
      simp only [List.map_cons, List.intersperse_cons_cons, List.forall_mem_cons] at ih ⊢
      exact ⟨trivial, trivial, ih⟩

theorem SpellsFiles.inOptions {ts : List Token} {blacklist? : Option (List String)}
    (h : SpellsFiles ts blacklist?) : ∀ token ∈ ts, token.InOptions := by
  cases h with
  | null => simp [Token.InOptions]
  | list files =>
    rw [List.forall_mem_cons, List.forall_mem_append]
    exact ⟨trivial, inOptions_of_mem_elements files, by simp [Token.InOptions]⟩

theorem SpellsOptions.inOptions {ts : List Token} {o : Options} (h : SpellsOptions ts o) :
    ∀ token ∈ ts, token.InOptions := by
  cases h with
  | emptyObject | emptyList => simp [Token.InOptions]
  | object hvalue =>
    simp only [List.forall_mem_cons, List.forall_mem_append]
    exact ⟨trivial, trivial, trivial, hvalue.inOptions, trivial, by simp⟩
  | single hvalue =>
    simp only [List.forall_mem_cons, List.forall_mem_append]
    exact ⟨trivial, hvalue.inOptions, trivial, by simp⟩

/-- The texts that spell options are read. -/
theorem ofTokens_tokens_eq_ok_iff {cs : List Char} {o : Options} :
    ofTokens (Json.tokens cs) = .ok o ↔ ∃ ts, Json.Spells cs ts ∧ SpellsOptions ts o := by
  rw [ofTokens_eq_ok_iff]
  constructor
  · intro h
    exact ⟨_, Json.spells_tokens h.inOptions, h⟩
  · rintro ⟨ts, hts, h⟩
    rwa [Json.tokens_of_spells hts]

/-! ## Written options -/

section

variable {cs : List Char} {ts : List Token} (h : Json.Spells cs ts)

include h

theorem spells_quote (s : String) : Json.Spells ((Text.quote s).toList ++ cs) (.text s :: ts) := by
  have hspelled := Json.SpellsToken.text (Json.spellsText_quotedChars s.toList)
  rw [String.ofList_toList] at hspelled
  rw [Text.quote, String.toList_ofList]
  exact .token hspelled h

theorem spells_elements (files : List String) :
    Json.Spells ((",".intercalate (files.map Text.quote)).toList ++ cs)
      ((files.map Token.text).intersperse .comma ++ ts) := by
  induction files with
  | nil => simpa using h
  | cons file more ih =>
    cases more with
    | nil => simpa using spells_quote h file
    | cons next more =>
      have hrest := spells_quote (.token .comma ih) file
      simpa [String.intercalate_cons_cons] using hrest

end

/-- The tokens of what is written. -/
def written (o : Options) : List Token :=
  match o.blacklist? with
  | none => [.leftBrace, .rightBrace]
  | some files =>
    .leftBrace :: .text "pathBlacklist" :: .colon ::
      (.leftBracket :: ((files.map Token.text).intersperse .comma ++ [.rightBracket])
        ++ [.rightBrace])

theorem spells_toJson (o : Options) : Json.Spells o.toJson.toList o.written := by
  obtain ⟨_ | files⟩ := o
  · exact .token .leftBrace (.token .rightBrace .nil)
  · have hend : Json.Spells [']', '\x7d'] [.rightBracket, .rightBrace] :=
      .token .rightBracket (.token .rightBrace .nil)
    have hvalue := Json.Spells.token .leftBracket (spells_elements hend files)
    have hfield := spells_quote (.token .colon hvalue) blacklistField
    have hall := Json.Spells.token .leftBrace hfield
    simpa [toJson, written, blacklistField] using hall

theorem spellsOptions_written (o : Options) : SpellsOptions o.written o := by
  obtain ⟨_ | files⟩ := o
  · exact .emptyObject
  · exact .object (.list files)

/-- **Reading back.** Whatever the files on the list are named, what is written is read back as it
was, so different options are written differently; that goes for no list and an empty list too. -/
theorem ofJson_toJson :
    (∀ o : Options, ofJson o.toJson = .ok o) ∧ Function.Injective toJson := by
  have hread (o : Options) : ofJson o.toJson = .ok o :=
    ofTokens_tokens_eq_ok_iff.2 ⟨_, spells_toJson o, spellsOptions_written o⟩
  refine ⟨hread, fun o o' h => ?_⟩
  have hsame := (hread o).symm.trans ((congrArg ofJson h).trans (hread o'))
  injection hsame

/-- **The language of options.** A text is read as options exactly if it spells them, and every
other text is refused. -/
theorem ofJson_eq_ok_iff (text : String) :
    (∀ o, ofJson text = .ok o ↔ ∃ ts, Json.Spells text.toList ts ∧ SpellsOptions ts o) ∧
      ((∃ e, ofJson text = .error e) ↔
        ¬ ∃ ts o, Json.Spells text.toList ts ∧ SpellsOptions ts o) := by
  have hread (o : Options) :
      ofJson text = .ok o ↔ ∃ ts, Json.Spells text.toList ts ∧ SpellsOptions ts o :=
    ofTokens_tokens_eq_ok_iff
  refine ⟨hread, ?_⟩
  cases hresult : ofJson text with
  | error e =>
    refine iff_of_true ⟨e, rfl⟩ ?_
    rintro ⟨ts, o, hspelled⟩
    have hok := (hread o).2 ⟨ts, hspelled⟩
    rw [hresult] at hok
    cases hok
  | ok o =>
    obtain ⟨ts, hspelled⟩ := (hread o).1 hresult
    refine iff_of_false ?_ (not_not_intro ⟨ts, o, hspelled⟩)
    rintro ⟨e, ⟨⟩⟩

/-- Blanks stand around tokens, and escapes in a name as in any other string. -/
example : ofJson "\n\x7b \"path\\u0042lacklist\": [\"\\ud83d\\ude00\"]\x7d" =
    .ok { blacklist? := some ["😀"] } := by cbv

/-- A comma announces a further element. -/
example : ofJson "[null,]" = .error .illFormed := by cbv

end ClosureTypes.Options
