import ClosureTypes.TypeExpr

/-!
# Nested brackets

A text is read from left to right, and of the brackets read so far those that are still to be
closed are `pending`. `Nested` builds up the texts whose brackets pair off, with a bound on how many
stand around each other; `Delimited` says what reading such a text comes to.

1. `Nested.append`, `Nested.wrap`, `Nested.intercalate`: how nested texts are put together.
2. `Nested.pending_prefix`: what is still to be closed in the middle of a nested text.
3. `Nested.delimited`: a nested text without bare separators is delimited.
-/

namespace ClosureTypes

/-! ## Reading brackets -/

/-- The bracket that closes what `c` opens, if `c` opens anything. -/
def closing? (c : Char) : Option Char :=
  match c with
  | '(' => some ')'
  | '\x7b' => some '\x7d'
  | '<' => some '>'
  | _ => none

/-- The brackets that close what another one has opened. -/
def closings : List Char := [')', '\x7d', '>']

/-- The characters that separate parts of an expression. -/
def separators : List Char := [',', '|']

/-- The brackets and the separators. -/
def delimiters : List Char := ['(', '\x7b', '<'] ++ closings ++ separators

/-- The character is no bracket, nor a separator unless the text is `bare`. -/
def isUnbracketed (bare : Bool) (c : Char) : Bool :=
  (closing? c).isNone && !closings.contains c && (bare || !separators.contains c)

theorem isUnbracketed_iff {bare : Bool} {c : Char} :
    isUnbracketed bare c = true ↔
      closing? c = none ∧ c ∉ closings ∧ (bare = false → c ∉ separators) := by
  cases bare <;> simp [isUnbracketed, and_assoc]

/-- The text holds neither brackets nor separators. -/
def IsPlain (text : String) : Prop := ∀ c ∈ text.toList, c ∉ delimiters

instance (text : String) : Decidable (IsPlain text) :=
  decidable_of_iff (text.toList.all (!delimiters.contains ·) = true) (by simp [IsPlain])

theorem IsPlain.append {a b : String} (ha : IsPlain a) (hb : IsPlain b) : IsPlain (a ++ b) := by
  intro c hc
  rw [String.toList_append] at hc
  exact (List.mem_append.1 hc).elim (ha c) (hb c)

/-- The closing brackets that are still to come after `c`, innermost first, if those of `stack` were
to come before. A closing bracket that is not due has no reading. -/
def readChar (stack : List Char) (c : Char) : Option (List Char) :=
  match closing? c with
  | some d => some (d :: stack)
  | none =>
    if c ∈ closings then
      if stack.head? = some c then some stack.tail else none
    else
      some stack

/-- The closing brackets that are still to come after `cs`, innermost first, if those of `stack`
were to come before. -/
def pending (stack cs : List Char) : Option (List Char) := cs.foldlM readChar stack

@[simp] theorem pending_nil (stack : List Char) : pending stack [] = some stack := rfl

@[simp] theorem pending_cons (stack : List Char) (c : Char) (cs : List Char) :
    pending stack (c :: cs) = (readChar stack c).bind (pending · cs) := rfl

theorem pending_append (stack cs ds : List Char) :
    pending stack (cs ++ ds) = (pending stack cs).bind (pending · ds) := by
  unfold pending
  rw [List.foldlM_append]
  rfl

theorem readChar_of_opening {o c : Char} (h : closing? o = some c) (stack : List Char) :
    readChar stack o = some (c :: stack) := by
  rw [readChar, h]

theorem closing?_eq_some {o c : Char} (h : closing? o = some c) :
    c ∈ closings ∧ closing? c = none ∧ o ∉ separators := by
  unfold closing? at h
  split at h <;> cases h <;> decide

theorem readChar_of_closing {o c : Char} (h : closing? o = some c) (stack : List Char) :
    readChar (c :: stack) c = some stack := by
  obtain ⟨hc, hnone, -⟩ := closing?_eq_some h
  rw [readChar, hnone]
  simp [hc]

/-- The brackets of the text pair off, its separators all stand within brackets, and nowhere in it
do more than `depth` brackets stand around each other. -/
structure Delimited (depth : Nat) (text : String) : Prop where
  balanced : pending [] text.toList = some []
  enclosed : ∀ before c after, text.toList = before ++ c :: after → c ∈ separators →
    ∃ d stack, pending [] before = some (d :: stack)
  shallow : ∀ before after, text.toList = before ++ after →
    ∃ stack, pending [] before = some stack ∧ stack.length ≤ depth

/-! ## Nested texts -/

/-- A text whose brackets pair off, with at most `depth` of them around each other. Only a `bare`
text may have separators outside all brackets. -/
inductive Nested : (bare : Bool) → (depth : Nat) → List Char → Prop
  | nil {bare : Bool} {depth : Nat} : Nested bare depth []
  | char {bare : Bool} {depth : Nat} {c : Char} {rest : List Char} : closing? c = none →
      c ∉ closings → (bare = false → c ∉ separators) → Nested bare depth rest →
      Nested bare depth (c :: rest)
  | group {bare : Bool} {depth : Nat} {o c : Char} {inside rest : List Char} :
      closing? o = some c → Nested true depth inside → Nested bare (depth + 1) rest →
      Nested bare (depth + 1) (o :: (inside ++ c :: rest))

namespace Nested

variable {bare : Bool} {depth : Nat} {cs ds : List Char}

theorem append (h : Nested bare depth cs) (h' : Nested bare depth ds) :
    Nested bare depth (cs ++ ds) := by
  induction h with
  | nil => exact h'
  | char hopen hclose hsep _ ih => exact .char hopen hclose hsep (ih h')
  | group ho hinside _ _ ih =>
    rw [List.cons_append, List.append_assoc, List.cons_append]
    exact .group ho hinside (ih h')

theorem mono (h : Nested bare depth cs) {depth' : Nat} (hdepth : depth ≤ depth') :
    Nested bare depth' cs := by
  induction h generalizing depth' with
  | nil => exact .nil
  | char hopen hclose hsep _ ih => exact .char hopen hclose hsep (ih hdepth)
  | group ho _ _ ihInside ih =>
    obtain ⟨n, rfl⟩ : ∃ n, depth' = n + 1 := ⟨depth' - 1, by omega⟩
    exact .group ho (ihInside (by omega)) (ih hdepth)

/-- Where separators may be bare, they need not be. -/
theorem bare_true (h : Nested bare depth cs) : Nested true depth cs := by
  induction h with
  | nil => exact .nil
  | char hopen hclose _ _ ih => exact .char hopen hclose (by simp) ih
  | group ho hinside _ _ ih => exact .group ho hinside ih

/-- Brackets around a nested text make it one deeper, and enclose its separators. -/
theorem wrap {o c : Char} (ho : closing? o = some c) (h : Nested true depth cs) :
    Nested bare (depth + 1) (o :: (cs ++ [c])) :=
  .group ho h .nil

/-- A text without brackets is nested, if separators may be bare or there are none. -/
theorem of_unbracketed (h : cs.all (isUnbracketed bare) = true) : Nested bare depth cs := by
  induction cs with
  | nil => exact .nil
  | cons c rest ih =>
    rw [List.all_cons, Bool.and_eq_true] at h
    obtain ⟨hopen, hclose, hsep⟩ := isUnbracketed_iff.1 h.1
    exact .char hopen hclose hsep (ih h.2)

/-- A label may stand before the brackets. -/
theorem labelled {o c : Char} (ho : closing? o = some c) {label : List Char}
    (hlabel : label.all (isUnbracketed bare) = true) (h : Nested true depth cs) :
    Nested bare (depth + 1) (label ++ o :: (cs ++ [c])) :=
  .append (.of_unbracketed hlabel) (.wrap ho h)

theorem of_plain {text : String} (h : IsPlain text) : Nested bare depth text.toList := by
  refine of_unbracketed (List.all_eq_true.2 fun c hc => isUnbracketed_iff.2 ?_)
  have hc' := h c hc
  simp only [delimiters, List.mem_append, not_or] at hc'
  obtain ⟨⟨hopen, hclose⟩, hsep⟩ := hc'
  refine ⟨?_, hclose, fun _ => hsep⟩
  unfold closing?
  split <;> simp at hopen ⊢

/-- Nested texts with separators between them are nested. -/
theorem intercalate {separator : String} (hsep : Nested true depth separator.toList)
    {texts : List String} (h : ∀ text ∈ texts, Nested true depth text.toList) :
    Nested true depth (separator.intercalate texts).toList :=
  TypeExpr.intercalate_induction (P := fun text => Nested true depth text.toList) .nil
    (fun a b ha hb => by
      rw [String.toList_append]
      exact ha.append hb) hsep h

/-- A nested text leaves to be closed what was so before. -/
theorem pending_eq (h : Nested bare depth cs) (stack : List Char) :
    pending stack cs = some stack := by
  induction h generalizing stack with
  | nil => rfl
  | char hopen hclose _ _ ih => simp [readChar, hopen, hclose, ih]
  | group ho _ _ ihInside ih =>
    rw [pending_cons, readChar_of_opening ho, Option.bind_some, pending_append, ihInside,
      Option.bind_some, pending_cons, readChar_of_closing ho, Option.bind_some, ih]

/-- **Inside a nested text.** After the first part of it, as many brackets at most are to be closed
as may stand around each other; if there are none and separators may not be bare, none follows. -/
theorem pending_prefix (h : Nested bare depth cs) {before after : List Char}
    (hcs : cs = before ++ after) (stack : List Char) :
    ∃ opened, pending stack before = some (opened ++ stack) ∧ opened.length ≤ depth ∧
      (bare = false → opened = [] → ∀ c ∈ after.head?, c ∉ separators) := by
  induction h generalizing before after stack with
  | nil =>
    obtain ⟨rfl, rfl⟩ := List.append_eq_nil_iff.1 hcs.symm
    exact ⟨[], rfl, Nat.zero_le _, by simp⟩
  | @char _ _ c _ hopen hclose hsep _ ih =>
    cases before with
    | nil =>
      rw [List.nil_append] at hcs
      refine ⟨[], rfl, Nat.zero_le _, fun hbare _ => ?_⟩
      rw [← hcs]
      rintro _ ⟨⟩
      exact hsep hbare
    | cons b before =>
      obtain ⟨rfl, hrest⟩ := List.cons.inj hcs
      obtain ⟨opened, hpending, hopened⟩ := ih hrest stack
      refine ⟨opened, ?_, hopened⟩
      simp [readChar, hopen, hclose, hpending]
  | @group _ _ o c _ _ ho hinside _ ihInside ih =>
    cases before with
    | nil =>
      rw [List.nil_append] at hcs
      refine ⟨[], rfl, Nat.zero_le _, fun _ _ => ?_⟩
      rw [← hcs]
      rintro _ ⟨⟩
      exact (closing?_eq_some ho).2.2
    | cons b before =>
      obtain ⟨rfl, hrest⟩ := List.cons.inj hcs
      rw [pending_cons, readChar_of_opening ho, Option.bind_some]
      -- The first part ends behind what is inside the brackets, or in it.
      rcases List.append_eq_append_iff.1 hrest with ⟨more, rfl, hmore⟩ | ⟨more, hinside', -⟩
      · rw [pending_append, hinside.pending_eq, Option.bind_some]
        cases more with
        | nil => exact ⟨[c], rfl, Nat.succ_pos _, by simp⟩
        | cons d more =>
          obtain ⟨rfl, hrest'⟩ := List.cons.inj hmore
          rw [pending_cons, readChar_of_closing ho, Option.bind_some]
          exact ih hrest' stack
      · obtain ⟨opened, hpending, hlength, -⟩ := ihInside hinside' (c :: stack)
        refine ⟨opened ++ [c], ?_, ?_, by simp⟩
        · rw [hpending, List.append_assoc, List.singleton_append]
        · rw [List.length_append, List.length_singleton]
          omega

/-- **Nested texts.** A nested text without bare separators is delimited. -/
theorem delimited {text : String} (h : Nested false depth text.toList) : Delimited depth text where
  balanced := h.pending_eq []
  enclosed before c after htext hc := by
    obtain ⟨opened, hpending, -, hsep⟩ := h.pending_prefix htext []
    rw [List.append_nil] at hpending
    cases opened with
    | nil => exact (hsep rfl rfl c rfl hc).elim
    | cons d stack => exact ⟨d, stack, hpending⟩
  shallow before after htext := by
    obtain ⟨opened, hpending, hlength, -⟩ := h.pending_prefix htext []
    rw [List.append_nil] at hpending
    exact ⟨opened, hpending, hlength⟩

end Nested

end ClosureTypes
