import ClosureTypes.Annotate.Basic
import ClosureTypes.Proofs.Endings

/-!
# Unions

A union is written as its distinct alternatives, in the order in which they first occur. The
alternatives are compared as they are written: alike constituents can be written differently, since
a literal is expanded only once, and different ones can be written alike.

1. `TypeExpr.map_render_distinct`: the distinct expressions, as texts.
2. `Kind.ofFlags?_eq_union_iff`: any type with the flag of unions is a union.
3. `annotate_union`: what a union is written as.
-/

namespace ClosureTypes

/-! ## Without repetition -/

section

variable {α : Type} [DecidableEq α]

/-- Leaving out other items does not change which of two items comes first. -/
theorem idxOf_lt_of_idxOf_filter_lt {l : List α} {p : α → Bool} {a b : α} (ha : p a = true)
    (hb : p b = true) (h : (l.filter p).idxOf a < (l.filter p).idxOf b) :
    l.idxOf a < l.idxOf b := by
  induction l with
  | nil => exact h
  | cons x l ih =>
    by_cases hx : p x = true
    · rw [List.filter_cons_of_pos hx] at h
      rw [List.idxOf_cons, List.idxOf_cons] at h ⊢
      grind
    · have hxa : (x == a) = false := beq_eq_false_iff_ne.2 fun e => hx (e ▸ ha)
      have hxb : (x == b) = false := beq_eq_false_iff_ne.2 fun e => hx (e ▸ hb)
      rw [List.filter_cons_of_neg hx] at h
      rw [List.idxOf_cons, List.idxOf_cons, hxa, hxb]
      exact Nat.succ_lt_succ (ih h)

/-- What is left without repetition stands in the order of first occurrence. -/
theorem pairwise_eraseDups (l : List α) :
    l.eraseDups.Pairwise fun a b => l.idxOf a < l.idxOf b := by
  match l with
  | [] => simp
  | x :: l =>
    have hne (a : α) (ha : a ∈ (l.filter fun b => !b == x).eraseDups) : ¬ a = x := by
      simpa using (List.mem_filter.1 (List.mem_eraseDups.1 ha)).2
    rw [List.eraseDups_cons, List.pairwise_cons]
    refine ⟨fun a ha => ?_, (pairwise_eraseDups (l.filter fun b => !b == x)).imp_of_mem ?_⟩
    · rw [List.idxOf_cons_self, List.idxOf_cons_ne l fun e => hne a ha e.symm]
      exact Nat.succ_pos _
    · intro a b ha hb hab
      rw [List.idxOf_cons_ne l fun e => hne a ha e.symm,
        List.idxOf_cons_ne l fun e => hne b hb e.symm]
      refine Nat.succ_lt_succ (idxOf_lt_of_idxOf_filter_lt ?_ ?_ hab)
      · simpa using hne a ha
      · simpa using hne b hb
termination_by l.length
decreasing_by exact Nat.lt_succ_of_le (List.length_filter_le _ _)

end

namespace TypeExpr

theorem map_render_distinctFrom (seen : List String) (es : List TypeExpr) :
    (distinctFrom seen es).map render =
      ((es.map render).filter fun text => text ∉ seen).eraseDups := by
  induction es generalizing seen with
  | nil => rfl
  | cons e es ih =>
    by_cases he : e.render ∈ seen
    · simp [distinctFrom, he, ih]
    · simp only [distinctFrom, he, if_false, List.map_cons, ih, not_false_eq_true, decide_true,
        List.filter_cons_of_pos, List.eraseDups_cons, List.filter_filter]
      congr 3
      funext text
      rw [Bool.eq_iff_iff]
      simp

/-- The distinct expressions are written as their texts are without repetition. -/
theorem map_render_distinct (es : List TypeExpr) :
    (distinct es).map render = (es.map render).eraseDups := by
  rw [distinct, map_render_distinctFrom]
  simp

/-- The written form of a choice among texts. -/
def choiceText : List String → String
  | [] => unknownText
  | [text] => text
  | texts => "(" ++ "|".intercalate texts ++ ")"

theorem render_of_choice? {es : List TypeExpr} {e : TypeExpr} (h : choice? es = some e) :
    e.render = choiceText (es.map render).eraseDups := by
  rw [← map_render_distinct]
  unfold choice? at h
  split at h
  · cases h
  · next d hd =>
    cases h
    rw [hd]
    rfl
  · next hnil hone =>
    cases h
    generalize distinct es = several at hnil hone
    match several, hnil, hone with
    | [], hnil, _ => exact absurd rfl hnil
    | [d], _, hone => exact absurd rfl (hone d)
    | d :: d' :: ds, _, _ => simp [render, choiceText]

/-- No expression stands for a choice among none, and only for that. -/
theorem choice?_eq_none_iff {es : List TypeExpr} : choice? es = none ↔ es = [] := by
  constructor
  · intro h
    unfold choice? at h
    split at h
    · next hd =>
      have htexts : (es.map render).eraseDups = [] := by
        rw [← map_render_distinct, hd, List.map_nil]
      cases es with
      | nil => rfl
      | cons e es => simp [List.eraseDups_cons] at htexts
    · cases h
    · cases h
  · rintro rfl
    rfl

end TypeExpr

/-! ## Unions -/

/-- Of several candidates, that of unions decides. -/
theorem Kind.ofCandidates?_eq_union_iff {kinds : List Kind} :
    ofCandidates? kinds = some union ↔ union ∈ kinds := by
  unfold ofCandidates?
  split
  · simp [eq_comm]
  · by_cases hunion : union ∈ kinds
    · simp [hunion]
    · by_cases henum : enumLiteral ∈ kinds
      · by_cases hstring : stringLiteral ∈ kinds <;> simp [hunion, henum, hstring]
      · simp [hunion, henum]

/-- Any type with the flag of unions is a union. -/
theorem Kind.ofFlags?_eq_union_iff {flags : TypeFlags} :
    ofFlags? flags = some union ↔ flags.has .union = true := by
  rw [ofFlags?, ofCandidates?_eq_union_iff, candidates, List.mem_filterMap,
    ← FlagSet.mem_members flags TypeFlag.union]
  constructor
  · rintro ⟨flag, hflag, hkind⟩
    have hunion : flag = .union := by
      cases flag <;> simp [TypeFlag.kind?] at hkind ⊢
    exact hunion ▸ hflag
  · intro h
    exact ⟨.union, h, rfl⟩

/-- A level of a union is the choice among its constituents. -/
theorem annotateWithin_of_union {g : TypeGraph} {scope : Scope} {t : TypeId} {r : TypeRecord}
    (hr : g.type? t = some r) (hk : Kind.ofFlags? r.flags = some .union) (n : Nat) :
    annotateWithin g scope (n + 1) t = Annotate.union (annotateWithin g scope n) r :=
  annotateWithin_of_kind hr hk n

/-- **Unions.** The constituents of a union are expressed from left to right, each in the state that
the one before it left, and the first fault is the end. If there is none, the union is written as a
choice among the distinct texts, in the order in which they first occur; if there are no texts at
all, a message says so. -/
theorem annotate_union {g : TypeGraph} {scope : Scope} {t : TypeId} {r : TypeRecord}
    (hr : g.type? t = some r) (hk : Kind.ofFlags? r.flags = some .union) (n : Nat)
    (p : Progress) :
    (annotateWithin g scope (n + 1) t).Ends p <|
      Walk.EndsAfterAll (annotateWithin g scope n) r.constituents p fun es q result last =>
        let texts := es.map TypeExpr.render
        let distinct := texts.eraseDups
        Walk.Writes (TypeExpr.choiceText distinct)
            (if texts = [] then { q with log := q.log.report "union type has no constituents" }
              else q) result last ∧
          distinct.Nodup ∧ (∀ text, text ∈ distinct ↔ text ∈ texts) ∧
          distinct.Pairwise fun a b => texts.idxOf a < texts.idxOf b := by
  rw [annotateWithin_of_union hr hk]
  refine Walk.endsAfterAll_mapM_bind fun es q _ => ?_
  have horder := pairwise_eraseDups (es.map TypeExpr.render)
  have hnodup : (es.map TypeExpr.render).eraseDups.Nodup := by
    refine horder.imp ?_
    rintro text _ hlt rfl
    exact Nat.lt_irrefl _ hlt
  cases he : TypeExpr.choice? es with
  | none =>
    obtain rfl := TypeExpr.choice?_eq_none_iff.1 he
    exact ⟨Walk.degrade_writes _ q, hnodup, fun text => List.mem_eraseDups, horder⟩
  | some e =>
    have hsome : es.map TypeExpr.render ≠ [] := by
      rw [ne_eq, List.map_eq_nil_iff, ← TypeExpr.choice?_eq_none_iff, he]
      simp
    exact ⟨⟨⟨e, rfl, TypeExpr.render_of_choice? he⟩, (if_neg hsome).symm⟩, hnodup,
      fun text => List.mem_eraseDups, horder⟩

/-- A union of an enumeration's members: two that are written alike, and a literal, twice. -/
def choices : TypeGraph where
  types := #[
    { flags := .ofList [TypeFlag.string] },
    { flags := .ofList [TypeFlag.stringLiteral] },
    .object (.ofList [ObjectFlag.anonymous]) (some ⟨0⟩),
    { flags := .ofList [TypeFlag.enum, TypeFlag.union]
      constituents := [⟨1⟩, ⟨0⟩, ⟨2⟩, ⟨2⟩] }]
  symbols := #[{ name := Symbol.literalName, flags := .ofList [SymbolFlag.typeLiteral] }]

theorem choices_annotated :
    Kind.ofFlags? (.ofList [TypeFlag.enum, TypeFlag.union]) = some .union ∧
      ∃ es q, Walk.InTurn (annotateWithin choices { anchor := .nowhere } 127)
          [⟨1⟩, ⟨0⟩, ⟨2⟩, ⟨2⟩] {} es q ∧
        (annotate choices { anchor := .nowhere } ⟨3⟩).after {} = q ∧
        "(string|!Object|?)" = TypeExpr.choiceText (es.map TypeExpr.render).eraseDups := by
  have hunion : Kind.ofFlags? (.ofList [TypeFlag.enum, TypeFlag.union]) = some .union :=
    Kind.ofFlags?_eq_union_iff.2 (by decide)
  have hok : (annotate choices { anchor := .nowhere } ⟨3⟩).outcome {} =
      .ok (.union [.primitive .string, .object, .unknown .revisited]) := by rfl
  have hends := @annotate_union choices { anchor := .nowhere } ⟨3⟩ _ rfl hunion 127 {}
  obtain ⟨es, q, hturn, ⟨⟨e, he, htext⟩, hlast⟩, -⟩ := hends.exists_of_ok hok
  have hsome : es.map TypeExpr.render ≠ [] := by
    cases hturn
    simp
  refine ⟨hunion, es, q, hturn, hlast.trans (if_neg hsome), ?_⟩
  rw [← htext, ← Except.ok.inj he]
  rfl

end ClosureTypes
