import ClosureTypes.Proofs.DescriptionReach
import ClosureTypes.Proofs.Descriptions

/-!
# The depth of descriptions

A description has five levels: the type itself, and four levels of alias's arguments below it. A
type just below the last level is still looked up: if the graph knows it, it is only hinted at. A
type that the graph does not know is shown by its handle on any level and just below the last one.

Descriptions can be told from their text, so it is settled what stands at a place in them.

1. `StandsAt.unique`: what stands at a place of a description.
2. `TypeGraph.standsAt_describeWithin`: the descriptions at the places of a description.
3. `TypeGraph.describe_within_bound`: how far a description looks, and what stands at the bound.
-/

namespace ClosureTypes

/-! ## Places in descriptions -/

/-- The description that shows the particulars. -/
def Particulars.text (d : Particulars) : String :=
  TypeGraph.bracketed (d.parts.map DescriptionPart.text)

theorem Particulars.toList_text (d : Particulars) :
    d.text.toList = "\x7btype".toList ++
      separated " " (d.parts.map DescriptionPart.text) ['\x7d'] :=
  toList_bracketed (by simp [parts])

/-- Particulars are settled by the description that shows them. -/
theorem Particulars.text_inj {S : String → Prop} (hS : PrefixFree S) {d e : Particulars}
    (hd : ∀ text ∈ d.arguments, S text) (he : ∀ text ∈ e.arguments, S text)
    (h : d.text = e.text) : d = e := by
  have hlists := congrArg String.toList h
  rw [toList_text, toList_text] at hlists
  obtain ⟨hparts, -⟩ := DescriptionPart.list_inj hS (fits_parts hd) (fits_parts he)
    (List.append_cancel_left hlists)
  exact parts_injective hparts

/-- The text stands at a place of a description with `n` levels of alias's arguments: it is the
description itself, or stands further on in that of the argument at the first position. -/
inductive StandsAt (text : String) : Nat → List Nat → String → Prop
  | here {n : Nat} : StandsAt text n [] text
  | argument {n i : Nat} {place : List Nat} {d : Particulars} {inner : String}
      (hd : ∀ a ∈ d.arguments, Described n a) (hi : d.arguments[i]? = some inner)
      (h : StandsAt text n place inner) : StandsAt text (n + 1) (i :: place) d.text

/-- At each place of a description there stands one text at most. -/
theorem StandsAt.unique {text text' : String} {n : Nat} {place : List Nat} {outer : String}
    (h : StandsAt text n place outer) (h' : StandsAt text' n place outer) : text = text' := by
  induction h with
  | here =>
    cases h'
    rfl
  | @argument n i place d inner hd hi h ih =>
    generalize houter : d.text = outer at h'
    cases h' with
    | @argument _ _ _ e inner' he hi' h' =>
      obtain rfl := Particulars.text_inj (prefixFree_described n) hd he houter
      obtain rfl : inner = inner' := Option.some.inj (hi.symm.trans hi')
      exact ih h'

namespace TypeGraph

theorem describeWithin_eq_text {g : TypeGraph} {t : TypeId} {r : TypeRecord}
    (hr : g.type? t = some r) (n : Nat) :
    g.describeWithin (n + 1) t = (g.particulars (g.describeWithin n) r).text := by
  rw [← String.toList_inj, describeWithin_succ hr, Particulars.toList_text]

/-- At the place of an argument there stands its description, with the levels that are left. -/
theorem standsAt_describeWithin {g : TypeGraph} (n : Nat) {place : List Nat} {t u : TypeId}
    (hu : g.argumentAt? place t = some u) :
    StandsAt (g.describeWithin n u) (n + place.length) place
      (g.describeWithin (n + place.length) t) := by
  induction place generalizing t with
  | nil =>
    obtain rfl : t = u := Option.some.inj hu
    exact .here
  | cons i place ih =>
    obtain ⟨v, hv, hu⟩ := Option.bind_eq_some_iff.1 hu
    obtain ⟨r, hr, hi⟩ := Option.bind_eq_some_iff.1 hv
    rw [List.length_cons, ← Nat.add_assoc, describeWithin_eq_text hr]
    refine .argument (List.forall_mem_map.2 fun a _ => g.described _ a) ?_ (ih hu)
    exact (List.getElem?_map ..).trans (congrArg (Option.map _) hi)

theorem standsAt_describe_iff {g : TypeGraph} {place : List Nat} {t u : TypeId}
    (hu : g.argumentAt? place t = some u) {n : Nat} (hn : n + place.length = 5) {text : String} :
    StandsAt text 5 place (g.describe t) ↔ text = g.describeWithin n u := by
  have hstands := standsAt_describeWithin n hu
  rw [hn] at hstands
  exact ⟨fun h => h.unique hstands, fun h => h ▸ hstands⟩

/-! ## How far descriptions look -/

/-- **Depth.** The description of a type is settled by the records of the types that at most four
edges from alias to argument lead to, by the names and the roles of the symbols that these records
name, and by whether the types that five edges lead to are known. The types that `n` edges lead to
are at the places of `n` positions. There, a known type behind five edges is only hinted at, and an
unknown type is shown by its handle. -/
theorem describe_within_bound :
    (∀ (g g' : TypeGraph) (t : TypeId), g.AgreeWithin g' 5 t → g.describe t = g'.describe t) ∧
    ∀ (g : TypeGraph) (t u : TypeId) (n : Nat),
      (u ∈ g.argumentsIn n t ↔ ∃ place, place.length = n ∧ g.argumentAt? place t = some u) ∧
      ∀ place, place.length = n → g.argumentAt? place t = some u →
        (g.type? u ≠ none → n = 5 → ∀ text,
          StandsAt text 5 place (g.describe t) ↔ text = "\x7btype ...\x7d") ∧
        (g.type? u = none → n ≤ 5 → ∀ text,
          StandsAt text 5 place (g.describe t) ↔
            text = "\x7btype missing:" ++ toString u.word.toNat ++ "\x7d") := by
  refine ⟨fun g g' t h => describeWithin_congr h, fun g t u n => ⟨mem_argumentsIn_iff, ?_⟩⟩
  rintro place rfl hu
  constructor
  · intro hknown hfive text
    obtain ⟨r, hr⟩ := Option.ne_none_iff_exists'.1 hknown
    have hhint : g.describeWithin 0 u = "\x7btype ...\x7d" := by
      rw [describeWithin, hr]
      rfl
    rw [standsAt_describe_iff hu (n := 0) (by omega), hhint]
  · intro hunknown hle text
    have hmissing (m : Nat) : g.describeWithin m u =
        "\x7btype missing:" ++ toString u.word.toNat ++ "\x7d" := by
      unfold describeWithin
      rw [hunknown, ← String.toList_inj]
      simp [bracketed]
    rw [standsAt_describe_iff hu (n := 5 - place.length) (by omega), hmissing]

/-- A type behind an alias that has the type itself among its arguments, one more of which is
unknown, and a chain of further aliases. -/
def spiral : TypeGraph where
  types := #[
    { aliasSymbol? := some ⟨0⟩, aliasArguments := [⟨0⟩, ⟨1⟩] },
    { aliasArguments := [⟨2⟩, ⟨9⟩] }, { aliasArguments := [⟨3⟩] }, { aliasArguments := [⟨4⟩] },
    { aliasArguments := [⟨5⟩] }, { flags := .ofList [TypeFlag.string] }]
  symbols := #[{ name := "Spiral" }]

/-- The same but for the record at the end of the chain and for the place of a declaration. -/
def unwoundSpiral : TypeGraph where
  types := #[
    { aliasSymbol? := some ⟨0⟩, aliasArguments := [⟨0⟩, ⟨1⟩] },
    { aliasArguments := [⟨2⟩, ⟨9⟩] }, { aliasArguments := [⟨3⟩] }, { aliasArguments := [⟨4⟩] },
    { aliasArguments := [⟨5⟩] }, { symbol? := some ⟨0⟩, aliasArguments := [⟨6⟩, ⟨6⟩] }, {}]
  symbols := #[{ name := "Spiral", declarations := [{ file := "spiral.d.ts" }] }]

theorem spiral_described :
    spiral.describe ⟨0⟩ = unwoundSpiral.describe ⟨0⟩ ∧
      StandsAt "\x7btype ...\x7d" 5 [1, 0, 0, 0, 0] (spiral.describe ⟨0⟩) ∧
      StandsAt "\x7btype missing:9\x7d" 5 [0, 0, 0, 1, 1] (spiral.describe ⟨0⟩) := by
  obtain ⟨hsame, hplaces⟩ := describe_within_bound
  have hagree : spiral.AgreeWithin unwoundSpiral 5 ⟨0⟩ := ⟨by decide, by decide, by decide⟩
  obtain ⟨hknown, -⟩ := (hplaces spiral ⟨0⟩ ⟨5⟩ 5).2 [1, 0, 0, 0, 0] rfl rfl
  obtain ⟨-, hunknown⟩ := (hplaces spiral ⟨0⟩ ⟨9⟩ 5).2 [0, 0, 0, 1, 1] rfl rfl
  exact ⟨hsame _ _ _ hagree, (hknown (by decide) rfl _).2 rfl,
    (hunknown (by decide) (Nat.le_refl 5) _).2 rfl⟩

end TypeGraph

end ClosureTypes
