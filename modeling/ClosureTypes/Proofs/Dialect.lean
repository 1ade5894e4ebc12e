import ClosureTypes.MessageLog
import ClosureTypes.TypeExpr

/-!
# The dialect

The annotations of the dialect are the words of a grammar. It is stated over texts, apart from how
expressions are written; `letter` tells which characters may stand in names.

1. `Word`: the grammar.
2. `Word.not_appliesUnknown`: no word gives arguments to the unknown type.
3. `TypeExpr.render_infix_of_mem_parts`: the text of an expression holds those of its parts.
4. `TypeExpr.WordOr.of_parts`: an expression fails to be a word only where a part does.
-/

namespace ClosureTypes

variable {letter : Char → Prop}

/-- Non-empty words of letters, with dots between them. -/
inductive IsName (letter : Char → Prop) : String → Prop
  | word {text : String} : text ≠ "" → (∀ c ∈ text.toList, letter c) → IsName letter text
  | dotted {a b : String} : IsName letter a → IsName letter b → IsName letter (a ++ ("." ++ b))

/-- The annotations of the dialect. -/
inductive Word (letter : Char → Prop) : String → Prop
  | unknown : Word letter "?"
  | primitive (p : Primitive) : Word letter p.word
  | named {name : String} : IsName letter name → Word letter ("!" ++ name)
  /-- Only names take arguments. -/
  | apply {name : String} {arguments : List String} : IsName letter name → arguments ≠ [] →
      (∀ a ∈ arguments, Word letter a) →
      Word letter ("!" ++ name ++ "<" ++ ", ".intercalate arguments ++ ">")
  | union {alternatives : List String} : 2 ≤ alternatives.length →
      (∀ a ∈ alternatives, Word letter a) →
      Word letter ("(" ++ "|".intercalate alternatives ++ ")")
  | record {fields : List (String × String)} : fields ≠ [] →
      (∀ f ∈ fields, IsName letter f.1) → (∀ f ∈ fields, Word letter f.2) →
      Word letter ("\x7b" ++ ", ".intercalate (fields.map fun f => f.1 ++ ": " ++ f.2) ++ "\x7d")
  | object : Word letter "!Object"
  | map (key : IndexKind) {value : String} : Word letter value →
      Word letter ("!Object<" ++ key.word ++ "," ++ value ++ ">")
  | unknownMap : Word letter "!Object<?,?>"
  | tuple : Word letter "!Array<?>"
  | procedure {parameters : List String} : (∀ a ∈ parameters, Word letter a) →
      Word letter ("function(" ++ ", ".intercalate parameters ++ ")")
  | function {parameters : List String} {result : String} : (∀ a ∈ parameters, Word letter a) →
      Word letter result →
      Word letter ("function(" ++ ", ".intercalate parameters ++ ")" ++ (": " ++ result))
  | constructor {constructed : String} {parameters : List String} : Word letter constructed →
      (∀ a ∈ parameters, Word letter a) →
      Word letter
        ("function(" ++ ", ".intercalate (("new: (" ++ constructed ++ ")") :: parameters) ++ "): ?")

/-! ## What words do not hold -/

/-- Somewhere in the text the unknown type is given arguments. -/
def AppliesUnknown (text : String) : Prop := ['?', '<'] <:+: text.toList

instance (text : String) : Decidable (AppliesUnknown text) :=
  decidable_of_iff _ (Text.occursIn_iff ['?', '<'] text.toList)

/-- The unknown type is given arguments neither in the text, nor by putting it before the text. -/
structure Clear (text : String) : Prop where
  apart : ¬ AppliesUnknown text
  head : ¬ ['<'] <+: text.toList

instance (text : String) : Decidable (Clear text) :=
  decidable_of_iff (¬ AppliesUnknown text ∧ ¬ ['<'] <+: text.toList)
    ⟨fun h => ⟨h.1, h.2⟩, fun h => ⟨h.apart, h.head⟩⟩

theorem Clear.append {a b : String} (ha : Clear a) (hb : Clear b) : Clear (a ++ b) where
  apart := by
    rw [AppliesUnknown, String.toList_append, List.infix_append_iff]
    rintro (h | h | ⟨before, after, hsplit, hbefore, hafter⟩)
    · exact ha.apart h
    · exact hb.apart h
    · -- The two characters are not on different sides, as `b` does not begin with the second one.
      match before, hsplit with
      | [], hsplit =>
        rw [List.nil_append] at hsplit
        subst hsplit
        exact hb.apart hafter.isInfix
      | [_], hsplit =>
        obtain ⟨rfl, rfl⟩ := List.cons.inj hsplit
        exact hb.head hafter
      | _ :: _ :: rest, hsplit =>
        obtain ⟨rfl, htail⟩ := List.cons.inj hsplit
        obtain ⟨rfl, hnil⟩ := List.cons.inj htail
        obtain ⟨rfl, rfl⟩ := List.append_eq_nil_iff.1 hnil.symm
        exact ha.apart hbefore.isInfix
  head := by
    have ha' := ha.head
    rw [String.toList_append]
    cases hchars : a.toList with
    | nil => exact hb.head
    | cons c rest =>
      rw [hchars, List.singleton_prefix_cons_iff] at ha'
      rw [List.cons_append, List.singleton_prefix_cons_iff]
      exact ha'

theorem Clear.within {before text after : String} (hbefore : Clear before) (h : Clear text)
    (hafter : Clear after) : Clear (before ++ text ++ after) :=
  (hbefore.append h).append hafter

theorem Clear.of_not_mem {text : String} (hunknown : '?' ∉ text.toList)
    (hhead : ¬ ['<'] <+: text.toList) : Clear text where
  apart h := hunknown (h.subset (by simp))
  head := hhead

theorem Clear.intercalate {separator : String} (hsep : Clear separator) {texts : List String}
    (h : ∀ text ∈ texts, Clear text) : Clear (separator.intercalate texts) :=
  TypeExpr.intercalate_induction (by decide) (fun _ _ => .append) hsep h

theorem Clear.comma : Clear ", " := by decide

section

variable (hunknown : ¬ letter '?') (hopen : ¬ letter '<')

include hunknown hopen

theorem IsName.not_mem {name : String} (h : IsName letter name) :
    '?' ∉ name.toList ∧ '<' ∉ name.toList := by
  induction h with
  | word _ hletters => exact ⟨fun h => hunknown (hletters _ h), fun h => hopen (hletters _ h)⟩
  | dotted _ _ iha ihb => simp [iha, ihb]

theorem IsName.clear {name : String} (h : IsName letter name) : Clear name :=
  .of_not_mem (h.not_mem hunknown hopen).1
    fun hhead => (h.not_mem hunknown hopen).2 (hhead.subset (by simp))

theorem Word.clear {text : String} (h : Word letter text) : Clear text := by
  induction h with
  | unknown => decide
  | primitive p => cases p <;> decide
  | named hname => exact .append (by decide) (hname.clear hunknown hopen)
  | @apply name _ hname _ _ ih =>
    -- What stands before the bracket is no unknown type.
    have hhead : Clear ("!" ++ name ++ "<") := by
      refine .of_not_mem ?_ (by simp)
      simp [(hname.not_mem hunknown hopen).1]
    exact .within hhead (.intercalate .comma ih) (by decide)
  | union _ _ ih => exact .within (by decide) (.intercalate (by decide) ih) (by decide)
  | record _ hnames _ ih =>
    refine .within (by decide) (.intercalate .comma ?_) (by decide)
    intro text htext
    obtain ⟨f, hf, rfl⟩ := List.mem_map.1 htext
    exact .within ((hnames f hf).clear hunknown hopen) (by decide) (ih f hf)
  | object => decide
  | map key _ ih =>
    have hkey : Clear ("!Object<" ++ key.word ++ ",") := by cases key <;> decide
    exact .within hkey ih (by decide)
  | unknownMap => decide
  | tuple => decide
  | procedure _ ih => exact .within (by decide) (.intercalate .comma ih) (by decide)
  | function _ _ ihs ih =>
    exact .append (.within (by decide) (.intercalate .comma ihs) (by decide))
      (.append (by decide) ih)
  | constructor _ _ ih ihs =>
    refine .within (by decide) (.intercalate .comma ?_) (by decide)
    exact List.forall_mem_cons.2 ⟨.within (by decide) ih (by decide), ihs⟩

/-- **Arguments follow names only.** No word gives arguments to the unknown type. -/
theorem Word.not_appliesUnknown {text : String} (h : Word letter text) : ¬ AppliesUnknown text :=
  (h.clear hunknown hopen).apart

end

/-! ## Written expressions -/

namespace TypeExpr

/-- The expressions that an expression is made of. -/
def parts : TypeExpr → List TypeExpr
  | apply head arguments => head :: arguments
  | union alternatives => alternatives
  | record fields => fields.map Prod.snd
  | map _ value => [value]
  | function parameters result? => parameters ++ result?.toList
  | constructor constructed parameters => constructed :: parameters
  | unknown _ | primitive _ | named _ | object | unknownMap | tuple => []

/-- What is in the middle of a text is part of it. -/
theorem infix_middle {text middle : String} (h : text.toList <:+: middle.toList)
    (before after : String) : text.toList <:+: (before ++ middle ++ after).toList := by
  rw [String.toList_append, String.toList_append]
  exact h.trans (List.infix_append _ _ _)

theorem infix_renderAll {e : TypeExpr} {es : List TypeExpr} (h : e ∈ es) (separator : String) :
    e.render.toList <:+: (separator.intercalate (renderAll es)).toList := by
  refine infix_intercalate separator ?_
  rw [renderAll_eq_map]
  exact List.mem_map_of_mem h

theorem render_infix_of_mem_parts {d e : TypeExpr} (h : d ∈ e.parts) :
    d.render.toList <:+: e.render.toList := by
  cases e with
  | apply head arguments =>
    rw [render]
    rcases List.mem_cons.1 h with rfl | h
    · rw [String.append_assoc, String.append_assoc, String.toList_append]
      exact List.infix_append_left
    · exact infix_middle (infix_renderAll h _) _ _
  | union alternatives =>
    rw [render]
    exact infix_middle (infix_renderAll h _) _ _
  | record fields =>
    obtain ⟨f, hf, rfl⟩ := List.mem_map.1 h
    have hfield : f.2.render.toList <:+: (f.1 ++ ": " ++ f.2.render).toList := by
      rw [String.toList_append]
      exact List.infix_append_right
    have hmem : f.1 ++ ": " ++ f.2.render ∈ fields.map fun f => f.1 ++ ": " ++ f.2.render :=
      List.mem_map.2 ⟨f, hf, rfl⟩
    rw [render, renderFields_eq_map]
    exact infix_middle (hfield.trans (infix_intercalate ", " hmem)) _ _
  | map key value =>
    rw [List.mem_singleton.1 h, render]
    exact infix_middle List.infix_rfl ("!Object<" ++ key.word ++ ",") ">"
  | function parameters result? =>
    rw [render]
    rcases List.mem_append.1 h with h | h
    · rw [String.append_assoc]
      exact infix_middle (infix_renderAll h _) _ _
    · have hresult : d.render.toList <:+: (": " ++ d.render).toList := by
        rw [String.toList_append]
        exact List.infix_append_right
      rw [Option.mem_toList.1 h, renderResult, String.toList_append]
      exact hresult.trans List.infix_append_right
  | constructor constructed parameters =>
    rw [render]
    refine infix_middle ?_ _ _
    rcases List.mem_cons.1 h with rfl | h
    · exact (infix_middle List.infix_rfl "new: (" ")").trans
        (infix_intercalate _ List.mem_cons_self)
    · refine infix_intercalate _ (List.mem_cons_of_mem _ ?_)
      rw [renderAll_eq_map]
      exact List.mem_map_of_mem h
  | _ => simp [parts] at h

theorem appliesUnknown_apply (why : Reason) (arguments : List TypeExpr) :
    AppliesUnknown (apply (unknown why) arguments).render := by
  rw [render, render, AppliesUnknown, String.append_assoc, String.toList_append]
  exact (show ['?', '<'] <:+: (unknownText ++ "<").toList by decide).trans List.infix_append_left

/-- The expression is a word, or else, by some `cause`, it gives arguments to the unknown type. -/
def WordOr (letter : Char → Prop) (cause : Prop) (e : TypeExpr) : Prop :=
  Word letter e.render ∨ AppliesUnknown e.render ∧ cause

/-- An expression is a word if its parts are, or else one of these gives arguments to the unknown
type, and so does the expression. -/
theorem WordOr.of_parts {cause : Prop} {e : TypeExpr} (ds : List TypeExpr)
    (hparts : ∀ d ∈ ds, d ∈ e.parts) (h : ∀ d ∈ ds, WordOr letter cause d)
    (hword : (∀ d ∈ ds, Word letter d.render) → Word letter e.render) :
    WordOr letter cause e := by
  by_cases hall : ∀ d ∈ ds, Word letter d.render
  · exact Or.inl (hword hall)
  · simp only [Classical.not_forall] at hall
    obtain ⟨d, hd, hnot⟩ := hall
    obtain ⟨happlies, hcause⟩ := (h d hd).resolve_left hnot
    exact Or.inr ⟨happlies.trans (render_infix_of_mem_parts (hparts d hd)), hcause⟩

section

variable {es : List TypeExpr} (h : ∀ e ∈ es, Word letter e.render)

include h

theorem word_renderAll : ∀ a ∈ renderAll es, Word letter a := by
  intro a ha
  rw [renderAll_eq_map] at ha
  obtain ⟨e, he, rfl⟩ := List.mem_map.1 ha
  exact h e he

theorem word_apply {name : String} (hname : IsName letter name) (hes : es ≠ []) :
    Word letter (apply (named name) es).render := by
  rw [render, render]
  exact .apply hname (by simpa using hes) (word_renderAll h)

theorem word_union (hes : 2 ≤ es.length) : Word letter (union es).render := by
  rw [render]
  exact .union (by simpa using hes) (word_renderAll h)

theorem word_function {result? : Option TypeExpr} (hresult : ∀ e ∈ result?, Word letter e.render) :
    Word letter (function es result?).render := by
  rw [render]
  cases result? with
  | none =>
    rw [renderResult, String.append_empty]
    exact .procedure (word_renderAll h)
  | some e => exact .function (word_renderAll h) (hresult e rfl)

theorem word_constructor {e : TypeExpr} (he : Word letter e.render) :
    Word letter (constructor e es).render := by
  rw [render]
  exact .constructor he (word_renderAll h)

end

theorem word_record {fields : List (String × TypeExpr)} (hfields : fields ≠ [])
    (hnames : ∀ f ∈ fields, IsName letter f.1) (h : ∀ f ∈ fields, Word letter f.2.render) :
    Word letter (record fields).render := by
  have htexts : renderFields fields =
      (fields.map fun f => (f.1, f.2.render)).map fun f => f.1 ++ ": " ++ f.2 := by
    rw [renderFields_eq_map, List.map_map]
    rfl
  rw [render, htexts]
  refine .record (by simpa using hfields) ?_ ?_
  · rw [List.forall_mem_map]
    exact hnames
  · rw [List.forall_mem_map]
    exact h

end TypeExpr

end ClosureTypes
