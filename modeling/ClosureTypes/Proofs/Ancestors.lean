import ClosureTypes.Proofs.Names
import Mathlib.Data.List.NodupEquivFin
import Mathlib.Logic.Relation

/-!
# Symbols inside others

The qualified name of a symbol shows the symbols that it stands in, but is bounded by the number of
all symbols. The bound is there for symbols that stand inside themselves. Where there are none, it
never strikes, so a qualified name depends on nothing but the symbols that it shows.

1. `TypeGraph.Acyclic.ancestry_eq`: no larger bound shows more.
2. `TypeGraph.nameOf_congr`: graphs that show a symbol and all those around it alike give it one
   name.
-/

/-- Two options with the same image are both empty, or have values with the same image. -/
theorem Option.cases_of_map_eq_map {α β γ : Type} {a : Option α} {b : Option β} {f : α → γ}
    {f' : β → γ} (h : a.map f = b.map f') :
    (a = none ∧ b = none) ∨ ∃ x y, a = some x ∧ b = some y ∧ f x = f' y := by
  cases a with
  | none => exact .inl ⟨rfl, Option.map_eq_none_iff.1 h.symm⟩
  | some x =>
    obtain ⟨y, hy, heq⟩ := Option.map_eq_some_iff.1 h.symm
    exact .inr ⟨x, y, rfl, hy, heq.symm⟩

namespace ClosureTypes

/-- A list without repetition has no more items than there are positions for them. -/
theorem length_le_of_position_lt {α : Type} {l : List α} (hl : l.Nodup) {position : α → Nat}
    (hinjective : Function.Injective position) {n : Nat} (hlt : ∀ a ∈ l, position a < n) :
    l.length ≤ n := by
  have hsubset : l.map position ⊆ List.range n := by
    intro i hi
    obtain ⟨a, ha, rfl⟩ := List.mem_map.1 hi
    exact List.mem_range.2 (hlt a ha)
  have hle := (List.subperm_of_subset (hl.map hinjective) hsubset).length_le
  rwa [List.length_map, List.length_range] at hle

namespace TypeGraph

variable {g g' : TypeGraph} {s : SymbolId}

theorem symbol?_eq_none_iff : g.symbol? s = none ↔ g.symbols.size ≤ s.index :=
  Array.getElem?_eq_none_iff

/-! ## Symbols that stand inside themselves -/

variable (g) in
/-- No symbol stands inside itself, be it through others. -/
def Acyclic : Prop := ∀ s, ¬ Relation.TransGen (fun s p => g.parent? s = some p) s s

/-- Symbols stand in earlier ones, if all that the graph holds do. -/
theorem index_lt_of_parent? {p : SymbolId}
    (h : ∀ (i : Nat) (hi : i < g.symbols.size), ∀ p ∈ g.symbols[i].parent?, p.index < i)
    (hp : g.parent? s = some p) : p.index < s.index := by
  obtain ⟨sym, hsym, hparent⟩ := Option.bind_eq_some_iff.1 hp
  obtain ⟨hlt, rfl⟩ := Array.getElem?_eq_some_iff.1 hsym
  exact h s.index hlt p hparent

/-- Where symbols stand in earlier ones only, none stands inside itself. -/
theorem acyclic_of_index_lt (h : ∀ s p, g.parent? s = some p → p.index < s.index) : g.Acyclic := by
  have hless {s p : SymbolId} (hp : Relation.TransGen (fun s p => g.parent? s = some p) s p) :
      p.index < s.index := by
    induction hp with
    | single hp => exact h _ _ hp
    | tail _ hp ih => exact (h _ _ hp).trans ih
  exact fun s hs => Nat.lt_irrefl _ (hless hs)

theorem ancestry_pairwise (stop : Option SymbolId) (n : Nat) (s : SymbolId) :
    (g.ancestry stop n s).Pairwise (Relation.TransGen fun s p => g.parent? s = some p) := by
  induction n generalizing s with
  | zero => exact List.pairwise_singleton _ s
  | succ n ih =>
    unfold ancestry
    split
    · exact List.pairwise_singleton _ s
    · next p hp =>
      split
      · exact List.pairwise_singleton _ s
      · refine List.pairwise_cons.2 ⟨?_, ih p⟩
        exact ancestry_forall (fun _ _ ha hq => ha.tail hq) stop n (.single hp)

/-- The bound does not matter, once there are fewer symbols around. -/
theorem ancestry_eq_of_length_le {stop : Option SymbolId} {n m : Nat}
    (h : (g.ancestry stop n s).length ≤ n) (hm : n ≤ m) :
    g.ancestry stop m s = g.ancestry stop n s := by
  induction n generalizing s m with
  | zero => cases h
  | succ n ih =>
    obtain ⟨m, rfl⟩ : ∃ k, m = k + 1 := ⟨m - 1, by omega⟩
    unfold ancestry at h ⊢
    split
    · rfl
    · next p hp =>
      split
      · rfl
      · next hstop =>
        simp only [hp, if_neg hstop, List.length_cons] at h
        rw [ih (by omega) (by omega)]

/-- Where none of the symbols shown stands inside itself, none is shown twice. -/
theorem ancestry_nodup {stop : Option SymbolId} {n : Nat}
    (h : ∀ p ∈ g.ancestry stop n s, ¬ Relation.TransGen (fun s p => g.parent? s = some p) p p) :
    (g.ancestry stop n s).Nodup := by
  refine (ancestry_pairwise stop n s).imp_of_mem ?_
  rintro a _ ha - hab rfl
  exact h a ha hab

/-- If the symbols shown are known and none stands inside itself, they are not more than there are
symbols. -/
theorem ancestry_length_le_size {stop : Option SymbolId} {n : Nat}
    (hknown : ∀ p ∈ g.ancestry stop n s, g.symbol? p ≠ none)
    (h : ∀ p ∈ g.ancestry stop n s, ¬ Relation.TransGen (fun s p => g.parent? s = some p) p p) :
    (g.ancestry stop n s).length ≤ g.symbols.size := by
  refine length_le_of_position_lt (ancestry_nodup h)
    (Function.LeftInverse.injective SymbolId.ofIndex_index) fun p hp => ?_
  have hp' := hknown p hp
  rw [ne_eq, symbol?_eq_none_iff] at hp'
  omega

namespace Acyclic

variable (hg : g.Acyclic) (hparents : g.ParentsKnown)

include hg hparents

theorem ancestry_length_le (hs : g.symbol? s ≠ none) (stop : Option SymbolId) (n : Nat) :
    (g.ancestry stop n s).length ≤ g.symbols.size :=
  ancestry_length_le_size (ancestry_known hparents stop n hs) fun p _ => hg p

/-- As many steps out as there are symbols lead all the way. -/
theorem ancestry_eq (hs : g.symbol? s ≠ none) (stop : Option SymbolId) {n : Nat}
    (hn : g.symbols.size ≤ n) : g.ancestry stop n s = g.ancestry stop g.symbols.size s :=
  ancestry_eq_of_length_le (hg.ancestry_length_le hparents hs stop _) hn

end Acyclic

/-! ## Graphs that show symbols alike -/

/-- Both graphs show the symbol by one name and inside one symbol, or neither knows it. -/
structure ShownAlike (g g' : TypeGraph) (s : SymbolId) : Prop where
  name : (g.symbol? s).map (·.name) = (g'.symbol? s).map (·.name)
  parent : g.parent? s = g'.parent? s

theorem shownAlike_of_eq (h : g.symbol? s = g'.symbol? s) : g.ShownAlike g' s :=
  ⟨by rw [h], by rw [parent?, parent?, h]⟩

theorem ShownAlike.showLink (h : g.ShownAlike g' s) (node : NodeId) (lead : List Fragment) :
    g.showLink node lead s = g'.showLink node lead s := by
  unfold TypeGraph.showLink
  obtain ⟨hs, hs'⟩ | ⟨sym, sym', hs, hs', hname⟩ := Option.cases_of_map_eq_map h.name
  · rw [hs, hs']
  · simp only [hs, hs', hname]

section

variable {K : SymbolId → Prop} (hK : ∀ s p, K s → g.parent? s = some p → K p)
  (hshown : ∀ s, K s → g.ShownAlike g' s)

include hK hshown

theorem ancestry_congr (stop : Option SymbolId) (n : Nat) (hs : K s) :
    g.ancestry stop n s = g'.ancestry stop n s := by
  induction n generalizing s with
  | zero => rfl
  | succ n ih =>
    have hparent : (g.symbol? s).bind (·.parent?) = (g'.symbol? s).bind (·.parent?) :=
      (hshown s hs).parent
    unfold ancestry
    rw [← hparent]
    split
    · rfl
    · next p hp => rw [ih (hK s p hs hp)]

/-- **Names.** Let two graphs show all symbols of a set alike, and let the set have all symbols that
its symbols stand in. If the number of symbols bounds an ancestry in the one graph as in the other,
the symbol is written by the same name. -/
theorem nameOf_congr (scope : Scope)
    (hcontainer : g.container? scope.anchor = g'.container? scope.anchor)
    (hbound : ∀ stop, g'.ancestry stop g'.symbols.size s = g'.ancestry stop g.symbols.size s)
    (hs : K s) : scope.nameOf g s = scope.nameOf g' s := by
  have hlinks : g.qualification scope.anchor s = g'.qualification scope.anchor s := by
    unfold qualification
    rw [← hcontainer, hbound, ancestry_congr hK hshown _ _ hs]
  have hdisplay : g.display scope.anchor s = g'.display scope.anchor s := by
    have hmem (link : SymbolId) (h : link ∈ g.qualification scope.anchor s) :
        g.ShownAlike g' link := by
      rw [qualification, List.mem_reverse] at h
      exact hshown link (ancestry_forall hK _ _ hs link h)
    unfold display
    rw [← hlinks]
    generalize g.qualification scope.anchor s = links at hmem
    cases links with
    | nil => rfl
    | cons outer inner =>
      dsimp only
      rw [(hmem outer List.mem_cons_self).showLink]
      congr 1
      exact List.flatMap_congr fun link h => (hmem link (List.mem_cons_of_mem _ h)).showLink _ _
  unfold Scope.nameOf qualifiedName
  rw [hdisplay]

end

end TypeGraph

end ClosureTypes
