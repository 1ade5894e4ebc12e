import ClosureTypes.Proofs.Brackets
import ClosureTypes.Proofs.Level
import ClosureTypes.Proofs.Names

/-!
# Written expressions are delimited

Where names hold neither brackets nor separators, the written form of an expression is a unit: its
brackets pair off, and all separators are within brackets. A level of an expression puts brackets
around those of the levels below it once, or twice around what a constructor constructs.

1. `TypeExpr.nested_apply`, …, `TypeExpr.nested_constructor`: each form, by its parts.
2. `Shape.nested`: `n` levels have brackets at most `2 * n` deep.
3. `annotate_delimited`: the same for all results of annotating a type.
-/

namespace ClosureTypes

/-! ## Forms -/

namespace TypeExpr

variable {depth : Nat} {e : TypeExpr} {es : List TypeExpr}

theorem nested_unknown (why : Reason) : Nested false depth (unknown why).render.toList := by
  show Nested false depth unknownText.toList
  exact .of_unbracketed (by decide)

theorem nested_primitive (p : Primitive) : Nested false depth (primitive p).render.toList := by
  show Nested false depth p.word.toList
  cases p <;> exact .of_unbracketed (by decide)

theorem nested_named {name : String} (h : IsPlain name) :
    Nested false depth (named name).render.toList := by
  show Nested false depth ("!" ++ name).toList
  rw [String.toList_append]
  exact .append (.of_unbracketed (by decide)) (.of_plain h)

theorem nested_object : Nested false depth object.render.toList := by
  show Nested false depth objectText.toList
  exact .of_unbracketed (by decide)

theorem nested_tuple : Nested false (depth + 1) tuple.render.toList := by
  show Nested false (depth + 1) ("!Array".toList ++ '<' :: (['?'] ++ ['>']))
  exact .labelled rfl (by decide) (.of_unbracketed (by decide))

theorem nested_unknownMap : Nested false (depth + 1) unknownMap.render.toList := by
  show Nested false (depth + 1) ("!Object".toList ++ '<' :: (['?', ',', '?'] ++ ['>']))
  exact .labelled rfl (by decide) (.of_unbracketed (by decide))

theorem nested_comma : Nested true depth ", ".toList := .of_unbracketed (by decide)

theorem nested_bar : Nested true depth "|".toList := .of_unbracketed (by decide)

theorem nested_colon {bare : Bool} : Nested bare depth ": ".toList := by
  refine .of_unbracketed ?_
  cases bare <;> decide

theorem nested_renderAll (h : ∀ e ∈ es, Nested false depth e.render.toList) :
    ∀ text ∈ renderAll es, Nested true depth text.toList := by
  intro text htext
  rw [renderAll_eq_map] at htext
  obtain ⟨e, he, rfl⟩ := List.mem_map.1 htext
  exact (h e he).bare_true

theorem nested_union (h : ∀ e ∈ es, Nested false depth e.render.toList) :
    Nested false (depth + 1) (union es).render.toList := by
  have hinside := Nested.intercalate nested_bar (nested_renderAll h)
  rw [render, String.toList_append, String.toList_append]
  exact .wrap rfl hinside

theorem nested_apply (he : Nested false (depth + 1) e.render.toList)
    (h : ∀ e ∈ es, Nested false depth e.render.toList) :
    Nested false (depth + 1) (apply e es).render.toList := by
  have hinside := Nested.intercalate nested_comma (nested_renderAll h)
  rw [render, String.toList_append, String.toList_append, String.toList_append,
    List.append_assoc, List.append_assoc]
  exact he.append (.wrap rfl hinside)

theorem nested_record {fields : List (String × TypeExpr)}
    (h : ∀ f ∈ fields, IsPlain f.1 ∧ Nested false depth f.2.render.toList) :
    Nested false (depth + 1) (record fields).render.toList := by
  have hfields : ∀ text ∈ renderFields fields, Nested true depth text.toList := by
    intro text htext
    rw [renderFields_eq_map] at htext
    obtain ⟨f, hf, rfl⟩ := List.mem_map.1 htext
    rw [String.toList_append, String.toList_append]
    exact ((Nested.of_plain (h f hf).1).append nested_colon).append (h f hf).2.bare_true
  have hinside := Nested.intercalate nested_comma hfields
  rw [render, String.toList_append, String.toList_append]
  exact .wrap rfl hinside

theorem nested_map (key : IndexKind) (he : Nested false depth e.render.toList) :
    Nested false (depth + 1) (map key e).render.toList := by
  have hkey : Nested true depth (key.word ++ ",").toList := by
    cases key <;> exact .of_unbracketed (by decide)
  have htext : (map key e).render.toList =
      "!Object".toList ++ '<' :: ((key.word ++ ",").toList ++ e.render.toList ++ ['>']) := by
    simp [render]
  rw [htext]
  exact .labelled rfl (by decide) (hkey.append he.bare_true)

theorem nested_function {result? : Option TypeExpr}
    (h : ∀ e ∈ es, Nested false depth e.render.toList)
    (hresult : ∀ e ∈ result?, Nested false (depth + 1) e.render.toList) :
    Nested false (depth + 1) (function es result?).render.toList := by
  have hinside := Nested.intercalate nested_comma (nested_renderAll h)
  have hresult' : Nested false (depth + 1) (renderResult result?).toList := by
    cases result? with
    | none => exact .nil
    | some e =>
      rw [renderResult, String.toList_append]
      exact nested_colon.append (hresult e rfl)
  have htext : (function es result?).render.toList = "function".toList ++
      '(' :: ((", ".intercalate (renderAll es)).toList ++ [')']) ++
        (renderResult result?).toList := by
    simp [render]
  rw [htext]
  exact .append (.labelled rfl (by decide) hinside) hresult'

/-- What is constructed stands within brackets of its own, among the parameters. -/
theorem nested_constructor (he : Nested false depth e.render.toList)
    (h : ∀ e ∈ es, Nested false (depth + 1) e.render.toList) :
    Nested false (depth + 2) (constructor e es).render.toList := by
  have hnew : Nested true (depth + 1) ("new: (" ++ e.render ++ ")").toList := by
    have htext : ("new: (" ++ e.render ++ ")").toList =
        "new: ".toList ++ '(' :: (e.render.toList ++ [')']) := by simp
    rw [htext]
    exact .labelled rfl (by decide) he.bare_true
  have hinside := Nested.intercalate nested_comma
    (List.forall_mem_cons.2 ⟨hnew, nested_renderAll h⟩)
  rw [render]
  generalize ("new: (" ++ e.render ++ ")") :: renderAll es = texts at hinside ⊢
  have htext : ("function(" ++ ", ".intercalate texts ++ "): ?").toList = "function".toList ++
      '(' :: ((", ".intercalate texts).toList ++ [')']) ++ ": ?".toList := by
    simp
  rw [htext]
  exact .append (.labelled rfl (by decide) hinside) (.of_unbracketed (by decide))

end TypeExpr

/-! ## Levels -/

section

variable {g : TypeGraph} {scope : Scope}

/-- A part is nested as the expressions of further types are. -/
theorem Annotate.Part.nested {Q : TypeId → TypeExpr → Prop} {t : TypeId} {e : TypeExpr}
    {depth : Nat} (h : Part g scope Q t e)
    (hQ : ∀ u e, Q u e → Nested false depth e.render.toList) :
    Nested false depth e.render.toList := by
  cases h with
  | next _ he => exact hQ _ _ he
  | untyped => exact TypeExpr.nested_unknown _

/-- **Levels.** Each level makes the brackets at most two deeper. -/
theorem Shape.nested (hnames : NamesAre IsPlain g scope) {n : Nat} {t : TypeId} {e : TypeExpr}
    (h : Shape g scope n t e) : Nested false (2 * n) e.render.toList := by
  induction n generalizing t e with
  | zero =>
    rw [show e = .unknown .degraded from h]
    exact TypeExpr.nested_unknown _
  | succ n ih =>
    obtain ⟨r, -, hlayer⟩ := h
    have hbelow (u : TypeId) (e : TypeExpr) (he : Shape g scope n u e) :
        Nested false (2 * n + 1) e.render.toList := (ih he).mono (by omega)
    have hall {us : List TypeId} {es : List TypeExpr} (hes : List.Forall₂ (Shape g scope n) us es) :
        ∀ e ∈ es, Nested false (2 * n + 1) e.render.toList := by
      intro e he
      obtain ⟨u, -, hu⟩ := List.Forall₂.exists_of_mem_right hes he
      exact hbelow u e hu
    show Nested false (2 * n + 1 + 1) e.render.toList
    cases hlayer with
    | unknown => exact TypeExpr.nested_unknown _
    | primitive p => exact TypeExpr.nested_primitive p
    | named =>
      have hdot {a b : String} (ha : IsPlain a) (hb : IsPlain b) : IsPlain (a ++ ("." ++ b)) :=
        ha.append (.append (by decide) hb)
      exact TypeExpr.nested_named (hnames.nameOf (fun _ _ => hdot) fun _ _ _ => by decide)
    | choice _ hes he =>
      rcases TypeExpr.choice?_eq_some he with hmem | ⟨ds, rfl, -, hds⟩
      · exact (hall hes e hmem).mono (by omega)
      · exact TypeExpr.nested_union fun d hd => hall hes d (hds d hd)
    | tuple => exact TypeExpr.nested_tuple
    | target _ _ _ _ he => exact (ih he).mono (by omega)
    | apply _ _ _ _ _ hhead hargs =>
      exact TypeExpr.nested_apply ((ih hhead).mono (by omega)) (hall hargs)
    | function _ hps hresult =>
      exact TypeExpr.nested_function (fun e he => (hps e he).nested hbelow)
        fun e he => ((hresult e he).nested hbelow).mono (by omega)
    | constructor _ hps hconstructed =>
      refine TypeExpr.nested_constructor ?_ fun e he => (hps e he).nested hbelow
      rcases hconstructed with rfl | hpart
      · exact TypeExpr.nested_unknown _
      · exact hpart.nested fun _ _ => ih
    | @record s sym fields _ _ hsym _ hfields =>
      refine TypeExpr.nested_record fun f hf => ?_
      obtain ⟨m, hm, hname, hpart⟩ := List.Forall₂.exists_of_mem_right hfields hf
      refine ⟨?_, hpart.nested hbelow⟩
      rw [hname]
      exact hnames.members s sym hsym m hm
    | object => exact TypeExpr.nested_object
    | map _ he => exact TypeExpr.nested_map _ (he.nested hbelow)
    | unknownMap => exact TypeExpr.nested_unknownMap

end

/-- **Delimited expressions.** Where no name holds brackets or separators, all results of annotating
a type are written as non-empty texts whose brackets pair off and enclose all separators, and stand
at most two deep for each level. -/
theorem annotate_delimited {g : TypeGraph} {scope : Scope} (hnames : NamesAre IsPlain g scope)
    (t : TypeId) (p : Progress) (e : TypeExpr) (he : (annotate g scope t).outcome p = .ok e) :
    e.render ≠ "" ∧ Delimited (2 * levelLimit) e.render :=
  ⟨e.render_ne_empty, ((annotate_shape ⟨p, he⟩).nested hnames).delimited⟩

/-- A literal that constructs itself. -/
def selfConstructing : TypeGraph where
  types := #[{ TypeRecord.object (.ofList [ObjectFlag.anonymous]) (some ⟨0⟩) with
    constructSignatures := [{ kind := .construct, result? := some ⟨0⟩ }] }]
  symbols := #[{ name := Symbol.literalName, flags := .ofList [SymbolFlag.typeLiteral] }]

theorem selfConstructing_delimited : Delimited (2 * levelLimit) "function(new: (?)): ?" := by
  have hsymbols (s : SymbolId) (sym : Symbol) (hsym : selfConstructing.symbol? s = some sym) :
      sym.name = Symbol.literalName ∧ sym.members.fields = [] := by
    obtain rfl := List.mem_singleton.1 (TypeGraph.mem_symbols_of_symbol? hsym)
    exact ⟨rfl, rfl⟩
  have hnames : NamesAre IsPlain selfConstructing { anchor := .nowhere } := by
    refine ⟨fun s sym hsym => ?_, fun s sym hsym => ?_, by simp [Bindings.find?_empty]⟩
    · rw [(hsymbols s sym hsym).1]
      decide
    · rw [(hsymbols s sym hsym).2]
      simp
  have he : (annotate selfConstructing { anchor := .nowhere } ⟨0⟩).outcome {} =
      .ok (.constructor (.unknown .revisited) []) := by rfl
  exact (annotate_delimited hnames ⟨0⟩ {} _ he).2

end ClosureTypes
