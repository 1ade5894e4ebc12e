import ClosureTypes.TypeRecord

/-!
# Type expressions

The types that Closure annotations can express, and how they are written. `?` is the unknown type;
an expression remembers why it had to be left unknown, though the written form does not tell.

1. `TypeExpr.render_ne_empty`: every expression is written with at least one character.
2. `TypeExpr.choice?_eq_some`: a choice is one of the alternatives, or a union of several.
-/

namespace ClosureTypes

/-- The types that are written as a lone word. -/
inductive Primitive
  | string
  | number
  | boolean
  | symbol
  | void
  | undefined
  | null
  deriving DecidableEq

/-- The word for a primitive type. -/
def Primitive.word : Primitive → String
  | string => "string"
  | number => "number"
  | boolean => "boolean"
  | symbol => "symbol"
  | void => "void"
  | undefined => "undefined"
  | null => "null"

/-- The word for the key type of a map. -/
def IndexKind.word : IndexKind → String
  | .string => "string"
  | .number => "number"

/-- Why an expression is left unknown. -/
inductive Reason
  /-- The type admits every value. -/
  | any
  /-- Its symbol is suppressed. -/
  | suppressed
  /-- It is a type literal that has been expanded before. -/
  | revisited
  /-- There is no expression for it, and a message says so. -/
  | degraded
  /-- A construct signature does not say what it constructs. -/
  | unspecified
  deriving DecidableEq

/-- A type in a Closure annotation. -/
inductive TypeExpr
  | unknown (why : Reason)
  | primitive (type : Primitive)
  | named (name : String)
  | apply (head : TypeExpr) (arguments : List TypeExpr)
  | union (alternatives : List TypeExpr)
  | record (fields : List (String × TypeExpr))
  /-- An object of which no member is known. -/
  | object
  | map (key : IndexKind) (value : TypeExpr)
  /-- A map of which neither the keys nor the values are known. -/
  | unknownMap
  /-- Tuples are arrays of unknown elements. -/
  | tuple
  | function (parameters : List TypeExpr) (result? : Option TypeExpr)
  | constructor (constructed : TypeExpr) (parameters : List TypeExpr)

namespace TypeExpr

/-! ## The written form -/

/-- The written unknown type. -/
def unknownText : String := "?"

/-- The written object without known members. -/
def objectText : String := "!Object"

/-- The written map without known keys and values. -/
def unknownMapText : String := "!Object<?,?>"

/-- The written tuple. -/
def tupleText : String := "!Array<?>"

mutual

/-- The written form of an expression. -/
def render : TypeExpr → String
  | unknown _ => unknownText
  | primitive p => p.word
  | named name => "!" ++ name
  | apply head arguments =>
    head.render ++ "<" ++ ", ".intercalate (renderAll arguments) ++ ">"
  | union alternatives => "(" ++ "|".intercalate (renderAll alternatives) ++ ")"
  | record fields => "\x7b" ++ ", ".intercalate (renderFields fields) ++ "\x7d"
  | object => objectText
  | map key value => "!Object<" ++ key.word ++ "," ++ value.render ++ ">"
  | unknownMap => unknownMapText
  | tuple => tupleText
  | function parameters result? =>
    "function(" ++ ", ".intercalate (renderAll parameters) ++ ")" ++ renderResult result?
  | constructor constructed parameters =>
    "function("
      ++ ", ".intercalate (("new: (" ++ constructed.render ++ ")") :: renderAll parameters)
      ++ "): ?"

/-- The written forms of expressions, in order. -/
def renderAll : List TypeExpr → List String
  | [] => []
  | e :: rest => e.render :: renderAll rest

/-- The written forms of fields, in order. -/
def renderFields : List (String × TypeExpr) → List String
  | [] => []
  | field :: rest => renderField field :: renderFields rest

/-- The written form of a field. -/
def renderField : String × TypeExpr → String
  | (name, e) => name ++ ": " ++ e.render

/-- The written form of what a function returns; nothing where that is not said. -/
def renderResult : Option TypeExpr → String
  | none => ""
  | some e => ": " ++ e.render

end

@[simp] theorem renderAll_eq_map (es : List TypeExpr) : renderAll es = es.map render := by
  induction es with
  | nil => rfl
  | cons e rest ih => simp [renderAll, ih]

@[simp] theorem renderFields_eq_map (fields : List (String × TypeExpr)) :
    renderFields fields = fields.map fun f => f.1 ++ ": " ++ f.2.render := by
  induction fields with
  | nil => rfl
  | cons f rest ih => obtain ⟨name, e⟩ := f; simp [renderFields, renderField, ih]

theorem render_ne_empty (e : TypeExpr) : e.render ≠ "" := by
  cases e with
  | primitive p => cases p <;> simp [render, Primitive.word]
  | _ =>
    simp [render, unknownText, objectText, unknownMapText, tupleText, String.append_eq_empty_iff]

/-! ## Joined texts -/

/-- What holds of the empty text, of a separator and of some texts, and passes on to texts put
together, holds of the joined texts. -/
theorem intercalate_induction {P : String → Prop} (hempty : P "")
    (happend : ∀ a b, P a → P b → P (a ++ b)) {separator : String} (hsep : P separator)
    {texts : List String} (h : ∀ text ∈ texts, P text) : P (separator.intercalate texts) := by
  induction texts with
  | nil =>
    rw [String.intercalate_nil]
    exact hempty
  | cons text rest ih =>
    obtain ⟨htext, hrest⟩ := List.forall_mem_cons.1 h
    cases rest with
    | nil =>
      rw [String.intercalate_singleton]
      exact htext
    | cons text' rest =>
      rw [String.intercalate_cons_cons]
      exact happend _ _ (happend _ _ htext hsep) (ih hrest)

/-- Each of some texts is part of the joined texts. -/
theorem infix_intercalate (separator : String) {texts : List String} {text : String}
    (h : text ∈ texts) : text.toList <:+: (separator.intercalate texts).toList := by
  obtain ⟨before, after, rfl⟩ := List.append_of_mem h
  have htail : text.toList <:+: (separator.intercalate (text :: after)).toList := by
    cases after with
    | nil => simp
    | cons next after =>
      rw [String.intercalate_cons_cons, String.toList_append, String.toList_append,
        List.append_assoc]
      exact List.infix_append_left
  cases before with
  | nil => exact htail
  | cons first before =>
    rw [String.intercalate_append_of_ne_nil (by simp) (by simp), String.toList_append]
    exact htail.trans List.infix_append_right

/-! ## Alternatives -/

/-- The expressions that are written unlike all texts in `seen` and unlike all expressions before
them. -/
def distinctFrom (seen : List String) : List TypeExpr → List TypeExpr
  | [] => []
  | e :: rest =>
    if e.render ∈ seen then distinctFrom seen rest
    else e :: distinctFrom (e.render :: seen) rest

/-- The expressions without those that are written like an earlier one. -/
def distinct (es : List TypeExpr) : List TypeExpr := distinctFrom [] es

theorem render_mem_of_mem_distinctFrom {seen : List String} {es : List TypeExpr} {e : TypeExpr}
    (h : e ∈ distinctFrom seen es) : e ∈ es ∧ e.render ∉ seen := by
  induction es generalizing seen with
  | nil => simp [distinctFrom] at h
  | cons d rest ih =>
    by_cases hd : d.render ∈ seen
    · simp only [distinctFrom, hd, if_true] at h
      exact ⟨List.mem_cons_of_mem d (ih h).1, (ih h).2⟩
    · simp only [distinctFrom, hd, if_false, List.mem_cons] at h
      rcases h with rfl | h
      · exact ⟨List.mem_cons_self, hd⟩
      · exact ⟨List.mem_cons_of_mem d (ih h).1, fun he => (ih h).2 (List.mem_cons_of_mem _ he)⟩

/-- The expression for a choice among alternatives: a lone alternative stands for itself, and no
expression stands for an empty choice. -/
def choice? (es : List TypeExpr) : Option TypeExpr :=
  match distinct es with
  | [] => none
  | [e] => some e
  | several => some (union several)

/-- A choice is one of the alternatives, or a union of at least two of them. -/
theorem choice?_eq_some {es : List TypeExpr} {e : TypeExpr} (h : choice? es = some e) :
    e ∈ es ∨ ∃ ds, e = union ds ∧ 2 ≤ ds.length ∧ ∀ d ∈ ds, d ∈ es := by
  have hmem (d : TypeExpr) (hd : d ∈ distinct es) : d ∈ es :=
    (render_mem_of_mem_distinctFrom hd).1
  unfold choice? at h
  split at h
  · cases h
  · next hd =>
    cases h
    exact Or.inl (hmem e (by simp [hd]))
  · next hnil hone =>
    cases h
    refine Or.inr ⟨_, rfl, ?_, hmem⟩
    match distinct es, hnil, hone with
    | [], hnil, _ => exact absurd rfl hnil
    | [d], _, hone => exact absurd rfl (hone d)
    | _ :: _ :: _, _, _ => simp

end TypeExpr

end ClosureTypes
