import ClosureTypes.Proofs.Delimited

/-!
# Segments

A text whose brackets pair off, without bare separators, can be told from what follows it: it ends
before the first bare separator, and before a closing bracket that it has not opened. So texts like
that can be told from their joined text, and the forms of expressions that join them can be taken
apart in one way only.

1. `Nested.append_inj`: where a nested text ends.
2. `intercalate_inj`: joined segments, taken apart.
3. `TypeExpr.union_inj`, `TypeExpr.function_inj`, `TypeExpr.constructor_inj`,
   `TypeExpr.record_inj`: each form, taken apart.
-/

namespace ClosureTypes

/-! ## Where texts end -/

/-- What follows a text cannot belong to it: there is nothing, or it begins with a separator or with
a closing bracket. -/
def Stops (after : List Char) : Prop := ∀ c ∈ after.head?, c ∈ closings ++ separators

theorem stops_nil : Stops [] := by rintro _ ⟨⟩

theorem stops_cons {c : Char} (h : c ∈ closings ++ separators) (rest : List Char) :
    Stops (c :: rest) := by
  rintro _ ⟨⟩
  exact h

theorem Stops.of_append {a b : List Char} (h : Stops (a ++ b)) : Stops a := by
  cases a with
  | nil => exact stops_nil
  | cons c rest => exact stops_cons (h c rfl) rest

theorem readChar_nil_of_closing {c : Char} (h : c ∈ closings) : readChar [] c = none := by
  have hnone : closing? c = none := by
    simp only [closings, List.mem_cons, List.not_mem_nil, or_false] at h
    rcases h with rfl | rfl | rfl <;> rfl
  rw [readChar, hnone]
  simp [h]

namespace Nested

variable {depth depth' : Nat} {u u' more v v' : List Char}

/-- A nested text does not go on as another one where it stops. -/
theorem eq_nil_of_stops (hu : Nested false depth u) (hmore : Nested false depth' (u ++ more))
    (hstops : Stops more) : more = [] := by
  cases more with
  | nil => rfl
  | cons c rest =>
    exfalso
    rcases List.mem_append.1 (hstops c rfl) with hclosing | hseparator
    -- The brackets of `u` pair off, so none is due to be closed, and a separator would be bare.
    · have hpending := hmore.pending_eq []
      rw [pending_append, hu.pending_eq, Option.bind_some, pending_cons,
        readChar_nil_of_closing hclosing] at hpending
      cases hpending
    · obtain ⟨opened, hpending, -, hnone⟩ := hmore.pending_prefix rfl []
      rw [hu.pending_eq, List.append_nil, Option.some.injEq] at hpending
      exact hnone rfl hpending.symm c rfl hseparator

/-- **Ends.** A nested text is settled by any text that it begins, if what follows stops it. -/
theorem append_inj (hu : Nested false depth u) (hu' : Nested false depth' u') (hv : Stops v)
    (hv' : Stops v') (h : u ++ v = u' ++ v') : u = u' ∧ v = v' := by
  rcases List.append_eq_append_iff.1 h with ⟨more, rfl, rfl⟩ | ⟨more, rfl, rfl⟩
  · rw [hu.eq_nil_of_stops hu' hv.of_append]
    simp
  · rw [hu'.eq_nil_of_stops hu hv'.of_append]
    simp

end Nested

/-- A text without a character is settled by any text that it begins, if that character follows. -/
theorem append_cons_inj {c : Char} {u u' v v' : List Char} (hu : c ∉ u) (hu' : c ∉ u')
    (h : u ++ c :: v = u' ++ c :: v') : u = u' ∧ v = v' := by
  rcases List.append_eq_append_iff.1 h with ⟨more, rfl, hmore⟩ | ⟨more, rfl, hmore⟩
  · cases more with
    | nil => simpa using hmore
    | cons d rest =>
      obtain ⟨rfl, -⟩ := List.cons.inj hmore
      exact (hu' (by simp)).elim
  · cases more with
    | nil => simpa [eq_comm] using hmore
    | cons d rest =>
      obtain ⟨rfl, -⟩ := List.cons.inj hmore
      exact (hu (by simp)).elim

/-! ## Segments -/

/-- The text is not empty, its brackets pair off, and it has no bare separator. -/
structure IsSegment (text : String) : Prop where
  ne_empty : text ≠ ""
  nested : ∃ depth, Nested false depth text.toList

namespace IsSegment

theorem append_inj {a b : String} {v v' : List Char} (ha : IsSegment a) (hb : IsSegment b)
    (hv : Stops v) (hv' : Stops v') (h : a.toList ++ v = b.toList ++ v') : a = b ∧ v = v' := by
  obtain ⟨_, ha⟩ := ha.nested
  obtain ⟨_, hb⟩ := hb.nested
  exact (ha.append_inj hb hv hv' h).imp_left String.toList_inj.1

/-- No segment begins where a text stops. -/
theorem not_stops {text : String} (h : IsSegment text) (rest : List Char) :
    ¬ Stops (text.toList ++ rest) := by
  intro hstops
  obtain ⟨_, hnested⟩ := h.nested
  have hempty : Nested false 0 [] := .nil
  have hnil := hempty.eq_nil_of_stops hnested hstops.of_append
  exact h.ne_empty (String.toList_eq_nil_iff.1 hnil)

end IsSegment

/-! ## Joined segments -/

theorem not_mem_separators_of_mem_closings {c : Char} (h : c ∈ closings) : c ∉ separators := by
  simp only [closings, List.mem_cons, List.not_mem_nil, or_false] at h
  rcases h with rfl | rfl | rfl <;> decide

/-- Texts, each after a separator, and then `after`. -/
def separated (separator : String) : List String → List Char → List Char
  | [], after => after
  | text :: rest, after => separator.toList ++ (text.toList ++ separated separator rest after)

theorem intercalate_cons_append (separator text : String) (rest : List String)
    (after : List Char) :
    (separator.intercalate (text :: rest)).toList ++ after =
      text.toList ++ separated separator rest after := by
  induction rest generalizing text with
  | nil => rw [String.intercalate_singleton, separated]
  | cons next rest ih =>
    rw [String.intercalate_cons_cons, String.toList_append, String.toList_append,
      List.append_assoc, List.append_assoc, ih, separated]

section

variable {separator : String} {s c : Char} {tail v v' : List Char} {texts texts' : List String}
  (hseparator : separator.toList = s :: tail) (hs : s ∈ separators) (hc : c ∈ closings)

include hseparator hs hc

theorem stops_separated : Stops (separated separator texts (c :: v)) := by
  cases texts with
  | nil => exact stops_cons (List.mem_append_left _ hc) v
  | cons text rest =>
    rw [separated, hseparator]
    exact stops_cons (List.mem_append_right _ hs) _

/-- Where a separator could follow, the closing bracket does not. -/
theorem separated_cons_ne {text : String} :
    separated separator (text :: texts) (c :: v) ≠ c :: v' := by
  rw [separated, hseparator]
  rintro ⟨⟩
  exact not_mem_separators_of_mem_closings hc hs

omit hseparator hs in
/-- Where a segment stands, there is no closing bracket yet. -/
theorem intercalate_cons_ne {text : String} (htext : IsSegment text) {after : List Char} :
    (separator.intercalate (text :: texts)).toList ++ after ≠
      (separator.intercalate []).toList ++ c :: v' := by
  intro h
  rw [String.intercalate_nil, intercalate_cons_append, String.toList_empty, List.nil_append] at h
  refine htext.not_stops (separated separator texts after) ?_
  rw [h]
  exact stops_cons (List.mem_append_left _ hc) v'

variable (htexts : ∀ text ∈ texts, IsSegment text) (htexts' : ∀ text ∈ texts', IsSegment text)

include htexts htexts'

theorem separated_inj
    (h : separated separator texts (c :: v) = separated separator texts' (c :: v')) :
    texts = texts' ∧ v = v' := by
  induction texts generalizing texts' with
  | nil =>
    cases texts' with
    | nil => exact ⟨rfl, List.tail_eq_of_cons_eq h⟩
    | cons text' rest' => exact (separated_cons_ne hseparator hs hc h.symm).elim
  | cons text rest ih =>
    cases texts' with
    | nil => exact (separated_cons_ne hseparator hs hc h).elim
    | cons text' rest' =>
      obtain ⟨htext, hrest⟩ := List.forall_mem_cons.1 htexts
      obtain ⟨htext', hrest'⟩ := List.forall_mem_cons.1 htexts'
      obtain ⟨rfl, hafter⟩ := htext.append_inj htext' (stops_separated hseparator hs hc)
        (stops_separated hseparator hs hc) (List.append_cancel_left h)
      obtain ⟨rfl, rfl⟩ := ih hrest hrest' hafter
      exact ⟨rfl, rfl⟩

/-- **Joined segments.** Segments with separators between them, and a closing bracket behind the
last, are settled by the whole text, and so is what follows the bracket. -/
theorem intercalate_inj
    (h : (separator.intercalate texts).toList ++ c :: v =
      (separator.intercalate texts').toList ++ c :: v') : texts = texts' ∧ v = v' := by
  cases texts with
  | nil =>
    cases texts' with
    | nil => simpa using h
    | cons text' rest' =>
      exact (intercalate_cons_ne hc (htexts' text' List.mem_cons_self) h.symm).elim
  | cons text rest =>
    cases texts' with
    | nil => exact (intercalate_cons_ne hc (htexts text List.mem_cons_self) h).elim
    | cons text' rest' =>
      rw [intercalate_cons_append, intercalate_cons_append] at h
      exact separated_inj hseparator hs hc htexts htexts' (by rw [separated, separated, h])

theorem enclosed_inj {opening ending ending' : String} (hending : ending.toList = c :: v)
    (hending' : ending'.toList = c :: v')
    (h : opening ++ separator.intercalate texts ++ ending =
      opening ++ separator.intercalate texts' ++ ending') : texts = texts' ∧ v = v' := by
  have hlist := congrArg String.toList h
  simp only [String.toList_append, List.append_assoc, hending, hending'] at hlist
  exact intercalate_inj hseparator hs hc htexts htexts' (List.append_cancel_left hlist)

end

/-! ## Forms -/

namespace TypeExpr

theorem isSegment_render {e : TypeExpr} {depth : Nat} (h : Nested false depth e.render.toList) :
    IsSegment e.render := ⟨e.render_ne_empty, depth, h⟩

theorem isSegment_unknown (why : Reason) : IsSegment (unknown why).render :=
  ⟨render_ne_empty _, 0, nested_unknown why⟩

theorem isSegment_renderAll {es : List TypeExpr} (h : ∀ e ∈ es, IsSegment e.render) :
    ∀ text ∈ es.map render, IsSegment text := by
  intro text htext
  obtain ⟨e, he, rfl⟩ := List.mem_map.1 htext
  exact h e he

/-- What a constructor constructs stands within brackets of its own. -/
theorem isSegment_new {e : TypeExpr} (he : IsSegment e.render) :
    IsSegment ("new: (" ++ e.render ++ ")") := by
  obtain ⟨depth, hnested⟩ := he.nested
  refine ⟨by simp [String.append_eq_empty_iff], depth + 1, ?_⟩
  have htext : ("new: (" ++ e.render ++ ")").toList =
      "new: ".toList ++ '(' :: (e.render.toList ++ [')']) := by simp
  rw [htext]
  exact .labelled rfl (by decide) hnested.bare_true

theorem renderResult_inj {result? result?' : Option TypeExpr}
    (heq : renderResult result? = renderResult result?') :
    result?.map render = result?'.map render := by
  cases result? with
  | none =>
    cases result?' with
    | none => rfl
    | some e' => simp [renderResult, String.ext_iff] at heq
  | some e =>
    cases result?' with
    | none => simp [renderResult, String.ext_iff] at heq
    | some e' => exact congrArg some ((String.append_right_inj _).1 heq)

section

variable {es es' : List TypeExpr} (h : ∀ e ∈ es, IsSegment e.render)
  (h' : ∀ e ∈ es', IsSegment e.render)

include h h'

theorem union_inj (heq : (union es).render = (union es').render) :
    es.map render = es'.map render := by
  rw [render, render, renderAll_eq_map, renderAll_eq_map] at heq
  exact (enclosed_inj rfl (by decide) (by decide) (isSegment_renderAll h) (isSegment_renderAll h')
    rfl rfl heq).1

theorem function_inj {result? result?' : Option TypeExpr}
    (heq : (function es result?).render = (function es' result?').render) :
    es.map render = es'.map render ∧ result?.map render = result?'.map render := by
  have hending (text : String) : (")" ++ text).toList = ')' :: text.toList := by simp
  have hrender (es : List TypeExpr) (result? : Option TypeExpr) : (function es result?).render =
      "function(" ++ ", ".intercalate (es.map render) ++ (")" ++ renderResult result?) := by
    rw [render, renderAll_eq_map, String.append_assoc]
  rw [hrender, hrender] at heq
  obtain ⟨hes, hresult⟩ := enclosed_inj rfl (by decide) (by decide) (isSegment_renderAll h)
    (isSegment_renderAll h') (hending _) (hending _) heq
  exact ⟨hes, renderResult_inj (String.toList_inj.1 hresult)⟩

theorem constructor_inj {e e' : TypeExpr} (he : IsSegment e.render) (he' : IsSegment e'.render)
    (heq : (constructor e es).render = (constructor e' es').render) :
    e.render = e'.render ∧ es.map render = es'.map render := by
  rw [render, render, renderAll_eq_map, renderAll_eq_map] at heq
  have htexts := (enclosed_inj rfl (by decide) (by decide)
    (List.forall_mem_cons.2 ⟨isSegment_new he, isSegment_renderAll h⟩)
    (List.forall_mem_cons.2 ⟨isSegment_new he', isSegment_renderAll h'⟩) rfl rfl heq).1
  obtain ⟨hnew, hes⟩ := List.cons.inj htexts
  exact ⟨(String.append_right_inj _).1 ((String.append_left_inj _).1 hnew), hes⟩

end

/-- The field can be told from its text: its name has no delimiters and no colon, and the text of
its type is a segment. -/
structure IsReadableField (f : String × TypeExpr) : Prop where
  plain : IsPlain f.1
  noColon : ':' ∉ f.1.toList
  segment : IsSegment f.2.render

namespace IsReadableField

variable {f f' : String × TypeExpr} (hf : IsReadableField f) (hf' : IsReadableField f')

include hf

theorem isSegment : IsSegment (f.1 ++ ": " ++ f.2.render) := by
  obtain ⟨depth, hnested⟩ := hf.segment.nested
  refine ⟨by simp [String.append_eq_empty_iff], depth, ?_⟩
  rw [String.toList_append, String.toList_append]
  exact ((Nested.of_plain hf.plain).append nested_colon).append hnested

include hf'

theorem inj (h : f.1 ++ ": " ++ f.2.render = f'.1 ++ ": " ++ f'.2.render) :
    (f.1, f.2.render) = (f'.1, f'.2.render) := by
  have hlist := congrArg String.toList h
  have hcolon : ": ".toList = ':' :: " ".toList := rfl
  simp only [String.toList_append, List.append_assoc, hcolon, List.cons_append] at hlist
  obtain ⟨hname, htext⟩ := append_cons_inj hf.noColon hf'.noColon hlist
  rw [String.toList_inj.1 hname, String.toList_inj.1 (List.append_cancel_left htext)]

end IsReadableField

section

variable {fs fs' : List (String × TypeExpr)} (h : ∀ f ∈ fs, IsReadableField f)
  (h' : ∀ f ∈ fs', IsReadableField f)

include h h'

theorem renderFields_inj (heq : renderFields fs = renderFields fs') :
    fs.map (fun f => (f.1, f.2.render)) = fs'.map fun f => (f.1, f.2.render) := by
  rw [renderFields_eq_map, renderFields_eq_map] at heq
  induction fs generalizing fs' with
  | nil =>
    rw [List.map_nil, eq_comm, List.map_eq_nil_iff] at heq
    rw [heq]
  | cons f rest ih =>
    cases fs' with
    | nil => cases heq
    | cons f' rest' =>
      obtain ⟨hf, hrest⟩ := List.forall_mem_cons.1 h
      obtain ⟨hf', hrest'⟩ := List.forall_mem_cons.1 h'
      obtain ⟨hfield, hfields⟩ := List.cons.inj heq
      rw [List.map_cons, List.map_cons, hf.inj hf' hfield, ih hrest hrest' hfields]

theorem record_inj (heq : (record fs).render = (record fs').render) :
    fs.map (fun f => (f.1, f.2.render)) = fs'.map fun f => (f.1, f.2.render) := by
  have hsegments {fs : List (String × TypeExpr)} (h : ∀ f ∈ fs, IsReadableField f) :
      ∀ text ∈ renderFields fs, IsSegment text := by
    intro text htext
    rw [renderFields_eq_map] at htext
    obtain ⟨f, hf, rfl⟩ := List.mem_map.1 htext
    exact (h f hf).isSegment
  rw [render, render] at heq
  exact renderFields_inj h h' (enclosed_inj rfl (by decide) (by decide) (hsegments h)
    (hsegments h') rfl rfl heq).1

end

end TypeExpr

end ClosureTypes
