import ClosureTypes.Graph.Describe
import ClosureTypes.Json.Text
import ClosureTypes.Proofs.Segments

/-!
# Parts of descriptions

A description is a list of parts with spaces between them. A part has a label, and behind it there
is nothing, a quoted name, or further descriptions in angle brackets. Each ends by itself: a label
at the first of a few characters, a name at its quote, a description at its bracket. So the parts
can be told from their text, and no description goes on as another one.

1. `Text.hex_injective`, `Text.quote_append_inj`: numbers and names can be told.
2. `DescriptionPart.list_inj`: so can parts, from their joined text.
3. `prefixFree_described`: where descriptions end.
-/

namespace ClosureTypes

/-! ## Labels -/

/-- The characters at which a label ends. -/
def labelEnds : List Char := ['"', '<', ' ', '\x7d']

/-- The text can stand as a label. -/
def IsLabel (text : String) : Prop := ∀ c ∈ text.toList, c ∉ labelEnds

instance (text : String) : Decidable (IsLabel text) :=
  List.decidableBAll (fun c => c ∉ labelEnds) text.toList

theorem IsLabel.append {a b : String} (ha : IsLabel a) (hb : IsLabel b) : IsLabel (a ++ b) := by
  intro c hc
  rw [String.toList_append, List.mem_append] at hc
  exact hc.elim (ha c) (hb c)

/-- A label is settled by any text that it begins, if a character follows that can end it. -/
theorem IsLabel.append_inj {a b : String} {c d : Char} {v w : List Char} (ha : IsLabel a)
    (hb : IsLabel b) (hc : c ∈ labelEnds) (hd : d ∈ labelEnds)
    (h : a.toList ++ c :: v = b.toList ++ d :: w) : a = b ∧ c :: v = d :: w := by
  rcases List.append_eq_append_iff.1 h with ⟨more, hb', hmore⟩ | ⟨more, ha', hmore⟩
  · cases more with
    | nil => exact ⟨String.toList_inj.1 (by simpa using hb'.symm), hmore⟩
    | cons e rest =>
      obtain ⟨rfl, -⟩ := List.cons.inj hmore
      exact (hb c (by simp [hb']) hc).elim
  · cases more with
    | nil => exact ⟨String.toList_inj.1 (by simpa using ha'), hmore.symm⟩
    | cons e rest =>
      obtain ⟨rfl, -⟩ := List.cons.inj hmore
      exact (ha d (by simp [ha']) hd).elim

/-! ## Numbers -/

namespace Text

/-- The number that hexadecimal digits stand for. -/
def hexValue (cs : List Char) : Nat := cs.foldl (fun n c => 16 * n + (Json.hexDigit? c).getD 0) 0

theorem hexDigits_eq (n : Nat) :
    hexDigits n =
      if n < 16 then [Nat.digitChar n] else hexDigits (n / 16) ++ [Nat.digitChar (n % 16)] :=
  Nat.toDigits_eq_if (by decide)

theorem hexValue_hexDigits (n : Nat) : hexValue (hexDigits n) = n := by
  induction n using Nat.strongRecOn with
  | _ n ih =>
    rw [hexDigits_eq]
    split
    · next hn => simp [hexValue, Json.hexDigit?_digitChar n hn]
    · next hn =>
      have hquotient := ih (n / 16) (by omega)
      have hremainder := Json.hexDigit?_digitChar (n % 16) (by omega)
      simp only [hexValue, List.foldl_append] at hquotient ⊢
      simp only [hquotient, List.foldl_cons, List.foldl_nil, hremainder, Option.getD_some]
      omega

theorem hex_injective : Function.Injective hex := by
  intro m n h
  have hdigits : hexDigits m = hexDigits n :=
    String.ofList_injective ((String.append_right_inj _).1 h)
  rw [← hexValue_hexDigits m, hdigits, hexValue_hexDigits]

theorem hexDigit?_of_mem_hexDigits {n : Nat} {c : Char} (h : c ∈ hexDigits n) :
    Json.hexDigit? c ≠ none := by
  induction n using Nat.strongRecOn with
  | _ n ih =>
    rw [hexDigits_eq] at h
    split at h
    · next hn =>
      rw [List.mem_singleton.1 h, Json.hexDigit?_digitChar n hn]
      simp
    · next hn =>
      rcases List.mem_append.1 h with h | h
      · exact ih (n / 16) (by omega) h
      · rw [List.mem_singleton.1 h, Json.hexDigit?_digitChar (n % 16) (by omega)]
        simp

theorem isLabel_hex (n : Nat) : IsLabel (hex n) := by
  have hends : ∀ c ∈ labelEnds, Json.hexDigit? c = none := by
    simp only [labelEnds, List.forall_mem_cons]
    exact ⟨rfl, rfl, rfl, rfl, List.forall_mem_nil _⟩
  refine .append (by decide) fun c hc hmem => ?_
  rw [String.toList_ofList] at hc
  exact hexDigit?_of_mem_hexDigits hc (hends c hmem)

theorem isLabel_toString (n : Nat) : IsLabel (toString n) := by
  have hends : ∀ c ∈ labelEnds, c.isDigit = false := by
    simp only [labelEnds, List.forall_mem_cons]
    exact ⟨rfl, rfl, rfl, rfl, List.forall_mem_nil _⟩
  intro c hc hmem
  rw [Nat.toString_eq_ofList_toDigits, String.toList_ofList] at hc
  have hdigit := Nat.isDigit_of_mem_toDigits (by decide) (by decide) hc
  rw [hends c hmem] at hdigit
  cases hdigit

end Text

/-! ## Texts that end by themselves -/

/-- A text of this sort is settled by any text that it begins. -/
def PrefixFree (S : String → Prop) : Prop :=
  ∀ ⦃a b : String⦄, S a → S b → ∀ ⦃v w : List Char⦄,
    a.toList ++ v = b.toList ++ w → a = b ∧ v = w

theorem prefixFree_false : PrefixFree fun _ => False := fun _ _ h => h.elim

theorem Text.quote_append_inj {a b : String} {v w : List Char}
    (h : (quote a).toList ++ v = (quote b).toList ++ w) : a = b ∧ v = w := by
  have hread (a : String) (v : List Char) : (quote a).toList ++ v =
      '"' :: (a.toList.flatMap quotedChar ++ '"' :: v) := by
    simp [quote, quotedChars]
  rw [hread, hread] at h
  have hsame := congrArg Json.readText (List.tail_eq_of_cons_eq h)
  rw [Json.readText_quoted, Json.readText_quoted] at hsame
  obtain ⟨hname, hrest⟩ := Prod.mk.inj (Option.some.inj hsame)
  exact ⟨String.toList_inj.1 hname, hrest⟩

theorem separated_append (separator : String) (texts texts' : List String) (after : List Char) :
    separated separator (texts ++ texts') after =
      separated separator texts (separated separator texts' after) := by
  induction texts with
  | nil => rfl
  | cons text rest ih => rw [List.cons_append, separated, separated, ih]

theorem separated_append_right (separator : String) (texts : List String) (v w : List Char) :
    separated separator texts v ++ w = separated separator texts (v ++ w) := by
  induction texts with
  | nil => rfl
  | cons text rest ih => rw [separated, separated, List.append_assoc, List.append_assoc, ih]

/-- Joined texts, with a separator before the first one too. -/
theorem separated_of_ne_nil (separator : String) {texts : List String} (h : texts ≠ [])
    (after : List Char) :
    separated separator texts after =
      separator.toList ++ ((separator.intercalate texts).toList ++ after) := by
  obtain ⟨text, rest, rfl⟩ := List.exists_cons_of_ne_nil h
  rw [intercalate_cons_append, separated]

/-- Texts that end by themselves, each after a comma, are settled by the whole text. -/
theorem PrefixFree.separated_inj {S : String → Prop} (hS : PrefixFree S)
    {texts texts' : List String} (h : ∀ text ∈ texts, S text) (h' : ∀ text ∈ texts', S text)
    {v w : List Char}
    (heq : separated "," texts ('>' :: v) = separated "," texts' ('>' :: w)) :
    texts = texts' ∧ v = w := by
  have hcomma : ",".toList = [','] := rfl
  induction texts generalizing texts' with
  | nil =>
    cases texts' with
    | nil => exact ⟨rfl, List.tail_eq_of_cons_eq heq⟩
    | cons text' rest' => simp [separated, hcomma] at heq
  | cons text rest ih =>
    cases texts' with
    | nil => simp [separated, hcomma] at heq
    | cons text' rest' =>
      obtain ⟨htext, hrest⟩ := List.forall_mem_cons.1 h
      obtain ⟨htext', hrest'⟩ := List.forall_mem_cons.1 h'
      obtain ⟨rfl, hafter⟩ := hS htext htext' (List.append_cancel_left heq)
      obtain ⟨rfl, rfl⟩ := ih hrest hrest' hafter
      exact ⟨rfl, rfl⟩

/-! ## Parts -/

/-- A part of a description: a label by itself, with a quoted name, or with texts in angle
brackets. -/
inductive DescriptionPart
  | word (label : String)
  | quoted (label name : String)
  | enclosed (label : String) (texts : List String)

namespace DescriptionPart

/-- The written form of a part. -/
def text : DescriptionPart → String
  | word label => label
  | quoted label name => label ++ Text.quote name
  | enclosed label texts => label ++ "<" ++ ",".intercalate texts ++ ">"

/-- What a part begins with. -/
def label : DescriptionPart → String
  | word label => label
  | quoted label _ => label
  | enclosed label _ => label

/-- What follows the label, if `after` follows the part. -/
def tail (after : List Char) : DescriptionPart → List Char
  | word _ => after
  | quoted _ name => (Text.quote name).toList ++ after
  | enclosed _ texts => '<' :: ((",".intercalate texts).toList ++ '>' :: after)

/-- The part can be told from its text: its label ends where a label can, and in the brackets there
are texts of the sort `S`. -/
inductive Fits (S : String → Prop) : DescriptionPart → Prop
  | word {label : String} : IsLabel label → Fits S (word label)
  | quoted {label name : String} : IsLabel label → Fits S (quoted label name)
  | enclosed {label : String} {texts : List String} : IsLabel label → texts ≠ [] →
      (∀ text ∈ texts, S text) → Fits S (enclosed label texts)

/-- The characters that follow a part: a space before the next one, or the end of them all. -/
def ends : List Char := [' ', '\x7d']

theorem toList_text_append (p : DescriptionPart) (after : List Char) :
    p.text.toList ++ after = p.label.toList ++ p.tail after := by
  cases p <;> simp [text, label, tail]

theorem exists_cons_quote (name : String) (after : List Char) :
    ∃ rest, (Text.quote name).toList ++ after = '"' :: rest :=
  ⟨_, by rw [Text.quote, String.toList_ofList, Text.quotedChars, List.cons_append]⟩

variable {S : String → Prop} {p q : DescriptionPart} {ps qs : List DescriptionPart}
  {c d : Char} {v w : List Char}

theorem Fits.isLabel (h : p.Fits S) : IsLabel p.label := by
  cases h <;> assumption

theorem mem_labelEnds (h : c ∈ ends) : c ∈ labelEnds := by
  have hsubset : ends ⊆ labelEnds := by simp [ends, labelEnds]
  exact hsubset h

theorem exists_cons_tail (hc : c ∈ ends) (p : DescriptionPart) :
    ∃ e ∈ labelEnds, ∃ rest, p.tail (c :: v) = e :: rest := by
  cases p with
  | word label => exact ⟨c, mem_labelEnds hc, v, rfl⟩
  | quoted label name => exact ⟨'"', by decide, exists_cons_quote name _⟩
  | enclosed label texts => exact ⟨'<', by decide, _, rfl⟩

/-- Parts of different kinds go on differently behind a label that they share. -/
theorem tail_inj (hS : PrefixFree S) (hp : p.Fits S) (hq : q.Fits S) (hc : c ∈ ends)
    (hd : d ∈ ends) (hlabel : p.label = q.label) (h : p.tail (c :: v) = q.tail (d :: w)) :
    p = q ∧ c :: v = d :: w := by
  have hquote (e : Char) (he : e ∈ ends) : e ≠ '"' ∧ e ≠ '<' := by
    have hall : ∀ e ∈ ends, e ≠ '"' ∧ e ≠ '<' := by simp [ends]
    exact hall e he
  cases hp with
  | word hp =>
    cases hq with
    | word hq => exact ⟨congrArg word hlabel, h⟩
    | @quoted _ name hq =>
      obtain ⟨rest, hrest⟩ := exists_cons_quote name (d :: w)
      exact ((hquote c hc).1 (List.head_eq_of_cons_eq (h.trans hrest))).elim
    | enclosed hq => exact ((hquote c hc).2 (List.head_eq_of_cons_eq h)).elim
  | @quoted _ name hp =>
    obtain ⟨rest, hrest⟩ := exists_cons_quote name (c :: v)
    cases hq with
    | word hq => exact ((hquote d hd).1 (List.head_eq_of_cons_eq (h.symm.trans hrest))).elim
    | quoted hq =>
      obtain ⟨rfl, hafter⟩ := Text.quote_append_inj h
      exact ⟨congrArg (quoted · name) hlabel, hafter⟩
    | enclosed hq => cases hrest.symm.trans h
  | @enclosed _ texts hp hne hS' =>
    cases hq with
    | word hq => exact ((hquote d hd).2 (List.head_eq_of_cons_eq h.symm)).elim
    | @quoted _ name hq =>
      obtain ⟨rest, hrest⟩ := exists_cons_quote name (d :: w)
      cases h.trans hrest
    | @enclosed _ texts' hq hne' hS'' =>
      have hjoined := congrArg (",".toList ++ ·) (List.tail_eq_of_cons_eq h)
      simp only [← separated_of_ne_nil _ hne, ← separated_of_ne_nil _ hne'] at hjoined
      obtain ⟨rfl, hafter⟩ := hS.separated_inj hS' hS'' hjoined
      exact ⟨congrArg (enclosed · texts) hlabel, hafter⟩

/-- A part is settled by any text that it begins, if it ends there. -/
theorem text_inj (hS : PrefixFree S) (hp : p.Fits S) (hq : q.Fits S) (hc : c ∈ ends)
    (hd : d ∈ ends) (h : p.text.toList ++ c :: v = q.text.toList ++ d :: w) :
    p = q ∧ c :: v = d :: w := by
  obtain ⟨e, he, rest, htail⟩ := exists_cons_tail (v := v) hc p
  obtain ⟨e', he', rest', htail'⟩ := exists_cons_tail (v := w) hd q
  rw [toList_text_append, toList_text_append, htail, htail'] at h
  obtain ⟨hlabel, hcons⟩ := hp.isLabel.append_inj hq.isLabel he he' h
  exact tail_inj hS hp hq hc hd hlabel (htail.trans (hcons.trans htail'.symm))

theorem exists_cons_separated (texts : List String) (v : List Char) :
    ∃ c ∈ ends, ∃ rest, separated " " texts ('\x7d' :: v) = c :: rest := by
  cases texts with
  | nil => exact ⟨'\x7d', by decide, v, rfl⟩
  | cons text rest => exact ⟨' ', by decide, _, rfl⟩

/-- **Parts.** Parts with a space before each and a closing bracket behind the last are settled by
the whole text, and so is what follows the bracket. -/
theorem list_inj (hS : PrefixFree S) (hps : ∀ p ∈ ps, p.Fits S) (hqs : ∀ q ∈ qs, q.Fits S)
    (h : separated " " (ps.map text) ('\x7d' :: v) = separated " " (qs.map text) ('\x7d' :: w)) :
    ps = qs ∧ v = w := by
  have hspace : " ".toList = [' '] := rfl
  induction ps generalizing qs with
  | nil =>
    cases qs with
    | nil => exact ⟨rfl, List.tail_eq_of_cons_eq h⟩
    | cons q qs => simp [separated, hspace] at h
  | cons p ps ih =>
    cases qs with
    | nil => simp [separated, hspace] at h
    | cons q qs =>
      obtain ⟨hp, hps'⟩ := List.forall_mem_cons.1 hps
      obtain ⟨hq, hqs'⟩ := List.forall_mem_cons.1 hqs
      obtain ⟨c, hc, rest, hcons⟩ := exists_cons_separated (ps.map text) v
      obtain ⟨d, hd, rest', hcons'⟩ := exists_cons_separated (qs.map text) w
      have hpart := List.append_cancel_left h
      rw [hcons, hcons'] at hpart
      obtain ⟨rfl, hafter⟩ := text_inj hS hp hq hc hd hpart
      obtain ⟨rfl, rfl⟩ := ih hps' hqs' (hcons.trans (hafter.trans hcons'.symm))
      exact ⟨rfl, rfl⟩

/-- The name behind `label`, if the part has one. -/
def named? (label : String) : DescriptionPart → Option String
  | quoted label' name => if label' = label then some name else none
  | _ => none

/-- The texts in the brackets of the part. -/
def texts : DescriptionPart → List String
  | enclosed _ texts => texts
  | _ => []

end DescriptionPart

/-! ## Descriptions -/

/-- The text is a description by parts that hold texts of the sort `S`. -/
def IsDescription (S : String → Prop) (text : String) : Prop :=
  ∃ ps : List DescriptionPart, (∀ p ∈ ps, p.Fits S) ∧
    text.toList = "\x7btype".toList ++ separated " " (ps.map DescriptionPart.text) ['\x7d']

theorem PrefixFree.isDescription {S : String → Prop} (hS : PrefixFree S) :
    PrefixFree (IsDescription S) := by
  rintro a b ⟨ps, hps, ha⟩ ⟨qs, hqs, hb⟩ v w h
  rw [ha, hb, List.append_assoc, List.append_assoc, separated_append_right,
    separated_append_right] at h
  obtain ⟨rfl, rfl⟩ := DescriptionPart.list_inj hS hps hqs (List.append_cancel_left h)
  exact ⟨String.toList_inj.1 (ha.trans hb.symm), rfl⟩

/-- The descriptions with `n` levels of alias arguments. -/
def Described : Nat → String → Prop
  | 0 => IsDescription fun _ => False
  | n + 1 => IsDescription (Described n)

/-- **Ends.** No description goes on as another one. -/
theorem prefixFree_described (n : Nat) : PrefixFree (Described n) := by
  induction n with
  | zero => exact prefixFree_false.isDescription
  | succ n ih => exact ih.isDescription

theorem toList_bracketed {texts : List String} (h : texts ≠ []) :
    (TypeGraph.bracketed texts).toList = "\x7btype".toList ++ separated " " texts ['\x7d'] := by
  rw [separated_of_ne_nil _ h]
  simp [TypeGraph.bracketed]

theorem isDescription_word {S : String → Prop} {text : String} (h : IsLabel text) :
    IsDescription S (TypeGraph.bracketed [text]) :=
  ⟨[.word text], List.forall_mem_singleton.2 (.word h), toList_bracketed (by simp)⟩

end ClosureTypes
