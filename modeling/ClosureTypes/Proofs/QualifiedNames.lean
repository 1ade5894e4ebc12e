import ClosureTypes.Proofs.Displays
import Mathlib.Data.List.TakeWhile

/-!
# Qualified names of symbols inside others

The line of a symbol lists it with all the symbols around it. Where they are known and none of them
stands inside itself, the line is no longer than there are symbols, so the bound on a qualification
does not cut it: the full name of a symbol is made of the names along its line. Seen from inside one
of the symbols around it, the name is made of the names below that one.

1. `TypeGraph.Line.ancestry_eq`: a qualification is the part of the line below the container.
2. `TypeGraph.WellPlaced.exists_line`: the line of a symbol that stands inside known symbols, none
   of which stands inside itself.
3. `TypeGraph.nameOf_eq_lineName`: the links of all qualifications, and exact names.
-/

namespace ClosureTypes

namespace TypeGraph

variable {g : TypeGraph} {s p c : SymbolId} {line : List SymbolId}

/-- No link of an ancestry but the first is where it stops. -/
theorem ne_stop_of_mem_tail_ancestry {stop : Option SymbolId} {n : Nat}
    (h : p ∈ (g.ancestry stop n s).tail) : stop ≠ some p := by
  induction n generalizing s with
  | zero => cases h
  | succ n ih =>
    unfold ancestry at h
    split at h
    · cases h
    · next q hq =>
      split at h
      · cases h
      · next hstop =>
        rw [List.tail_cons, List.eq_cons_of_mem_head? (head?_ancestry stop n q),
          List.mem_cons] at h
        rcases h with rfl | h
        · exact fun e => hstop e.symm
        · exact ih h

/-! ## Lines -/

variable (g) in
/-- The symbol `p` is around `s`: `s` stands in it, be it inside others. -/
def Encloses (p s : SymbolId) : Prop := Relation.TransGen (fun s p => g.parent? s = some p) s p

variable (g) in
/-- The list holds `s` and all the symbols around it, innermost first. -/
inductive Line : SymbolId → List SymbolId → Prop
  | outermost {s : SymbolId} : g.parent? s = none → Line s [s]
  | inside {s p : SymbolId} {line : List SymbolId} : g.parent? s = some p → Line p line →
      Line s (s :: line)

namespace Line

theorem eq_cons (h : g.Line s line) : line = s :: line.tail := by
  cases h <;> rfl

theorem mem_tail_iff (h : g.Line s line) : p ∈ line.tail ↔ g.Encloses p s := by
  induction h with
  | outermost hs =>
    simp [Encloses, Relation.TransGen.head'_iff, hs]
  | @inside s q line hs hline ih =>
    rw [Encloses, Relation.TransGen.head'_iff, List.tail_cons, hline.eq_cons, List.mem_cons, ih]
    simp [hs, Encloses, Relation.reflTransGen_iff_eq_or_transGen]

/-- What follows after a symbol in a line is the rest of that symbol's own line. -/
theorem of_append {inner outer : List SymbolId} (h : g.Line s (inner ++ c :: outer)) :
    g.Line c (c :: outer) := by
  induction inner generalizing s with
  | nil =>
    obtain ⟨rfl, -⟩ := List.cons.inj h.eq_cons
    exact h
  | cons a inner ih =>
    generalize hl : a :: inner ++ c :: outer = l at h
    cases h with
    | outermost hs => simp at hl
    | inside hs hline =>
      obtain ⟨rfl, rfl⟩ := List.cons.inj hl
      exact ih hline

/-- An ancestry that is long enough is the line, as far as it stops. -/
theorem ancestry_eq (h : g.Line s line) (stop : Option SymbolId) {n : Nat}
    (hn : line.length ≤ n + 1) :
    g.ancestry stop n s = s :: line.tail.takeWhile fun p => some p ≠ stop := by
  induction h generalizing n with
  | @outermost s hs =>
    cases n with
    | zero => rfl
    | succ n =>
      have hs' : (g.symbol? s).bind (·.parent?) = none := hs
      simp [ancestry, hs']
  | @inside s q line hs hline ih =>
    have hs' : (g.symbol? s).bind (·.parent?) = some q := hs
    rw [List.tail_cons, hline.eq_cons]
    cases n with
    | zero =>
      rw [hline.eq_cons] at hn
      simp at hn
    | succ n =>
      rw [List.length_cons] at hn
      simp only [ancestry, hs']
      split
      · next hstop => simp [hstop]
      · next hstop => simp [hstop, ih (Nat.le_of_succ_le_succ hn)]

end Line

/-- An ancestry that did not use up its bound and nowhere had to stop is a line. -/
theorem line_ancestry {n : Nat} (h : (g.ancestry none n s).length ≤ n) :
    g.Line s (g.ancestry none n s) := by
  induction n generalizing s with
  | zero => exact absurd (List.length_eq_zero_iff.1 (Nat.le_zero.1 h)) (ancestry_ne_nil _ _ _)
  | succ n ih =>
    unfold ancestry at h ⊢
    split
    · next hs => exact .outermost hs
    · next q hs =>
      simp only [hs] at h
      exact .inside hs (ih (Nat.le_of_succ_le_succ h))

/-! ## Symbols in known surroundings -/

variable (g s) in
/-- The symbol and all around it are known, and none of them stands inside itself. -/
structure WellPlaced : Prop where
  known : ∀ p, p = s ∨ g.Encloses p s → g.symbol? p ≠ none
  acyclic : ∀ p, p = s ∨ g.Encloses p s → ¬ g.Encloses p p

theorem encloses_of_mem_ancestry {stop : Option SymbolId} {n : Nat}
    (hp : p ∈ g.ancestry stop n s) : p = s ∨ g.Encloses p s := by
  refine ancestry_forall (K := fun p => p = s ∨ g.Encloses p s) ?_ stop n (.inl rfl) p hp
  rintro q r (rfl | hq) hr
  · exact .inr (.single hr)
  · exact .inr (hq.tail hr)

/-- The line of a symbol in known surroundings is no longer than there are symbols. -/
theorem WellPlaced.exists_line (h : g.WellPlaced s) :
    ∃ line, g.Line s line ∧ (∀ p ∈ line, g.symbol? p ≠ none) ∧ line.length ≤ g.symbols.size := by
  have hmem (p : SymbolId) (hp : p ∈ g.ancestry none g.symbols.size s) :=
    encloses_of_mem_ancestry hp
  have hlength : (g.ancestry none g.symbols.size s).length ≤ g.symbols.size :=
    ancestry_length_le_size (fun p hp => h.known p (hmem p hp)) fun p hp => h.acyclic p (hmem p hp)
  exact ⟨_, line_ancestry hlength, fun p hp => h.known p (hmem p hp), hlength⟩

/-! ## Names along a line -/

variable (g) in
/-- The names of symbols that are listed innermost first, joined by dots from the outermost on. -/
def lineName (line : List SymbolId) : String := ".".intercalate (g.namesOf line.reverse)

theorem namesOf_append (links rest : List SymbolId) :
    g.namesOf (links ++ rest) = g.namesOf links ++ g.namesOf rest :=
  List.filterMap_append

theorem namesOf_ne_nil {links : List SymbolId} (hp : p ∈ links) (hknown : g.symbol? p ≠ none) :
    g.namesOf links ≠ [] := by
  obtain ⟨sym, hsym⟩ := Option.ne_none_iff_exists'.1 hknown
  refine List.ne_nil_of_mem (a := sym.name) (List.mem_filterMap.2 ⟨p, hp, ?_⟩)
  rw [hsym, Option.map_some]

/-- The name of a line in two parts, each of which has a known symbol. -/
theorem lineName_append {inner outer : List SymbolId} (hs : s ∈ inner) (hc : c ∈ outer)
    (hknown : ∀ p ∈ inner ++ outer, g.symbol? p ≠ none) :
    g.lineName (inner ++ outer) = g.lineName outer ++ "." ++ g.lineName inner := by
  have houter := namesOf_ne_nil (List.mem_reverse.2 hc) (hknown c (List.mem_append_right _ hc))
  have hinner := namesOf_ne_nil (List.mem_reverse.2 hs) (hknown s (List.mem_append_left _ hs))
  rw [lineName, List.reverse_append, namesOf_append,
    String.intercalate_append_of_ne_nil houter hinner]
  rfl

/-- Where the line is known and the bound does not cut it, a symbol is named by the part of its line
below the container. -/
theorem Line.qualifiedName (h : g.Line s line) (hknown : ∀ p ∈ line, g.symbol? p ≠ none)
    (hlength : line.length ≤ g.symbols.size) (node : NodeId) :
    g.qualifiedName node s =
      g.lineName (s :: line.tail.takeWhile fun p => some p ≠ g.container? node) := by
  have hlinks : g.qualification node s =
      (s :: line.tail.takeWhile fun p => some p ≠ g.container? node).reverse := by
    rw [qualification, h.ancestry_eq _ (Nat.le_succ_of_le hlength)]
  rw [qualifiedName_eq_intercalate, hlinks, lineName]
  intro link hlink
  rw [hlinks, List.mem_reverse, List.mem_cons] at hlink
  refine hknown link ?_
  rw [h.eq_cons, List.mem_cons]
  exact hlink.imp_right fun hmem => (List.takeWhile_sublist _).subset hmem

/-- The scope has no alias for `s`, and its anchor is not inside any symbol around `s`. -/
structure ShownInFull (g : TypeGraph) (scope : Scope) (s : SymbolId) : Prop where
  unaliased : scope.hasAlias s = false
  outside : ∀ c, g.container? scope.anchor = some c → ¬ g.Encloses c s

/-- The scope has no alias for `s`, and its anchor is inside `c`, which is around `s`. -/
structure ShownInside (g : TypeGraph) (scope : Scope) (c s : SymbolId) : Prop where
  unaliased : scope.hasAlias s = false
  container : g.container? scope.anchor = some c
  encloses : g.Encloses c s

theorem nameOf_of_unaliased {scope : Scope} (h : scope.hasAlias s = false) :
    scope.nameOf g s = g.qualifiedName scope.anchor s := by
  have hnone : scope.aliases.find? s = none := by simpa [Scope.hasAlias] using h
  rw [Scope.nameOf, hnone]

section

variable (h : g.Line s line) (hknown : ∀ p ∈ line, g.symbol? p ≠ none)
  (hlength : line.length ≤ g.symbols.size)

include h hknown hlength

theorem Line.nameOf_of_shownInFull {scope : Scope} (hs : g.ShownInFull scope s) :
    scope.nameOf g s = g.lineName line := by
  have hall : (line.tail.takeWhile fun p => some p ≠ g.container? scope.anchor) = line.tail := by
    refine List.takeWhile_eq_self_iff.2 fun p hp => decide_eq_true fun hstop => ?_
    exact hs.outside p hstop.symm (h.mem_tail_iff.1 hp)
  rw [nameOf_of_unaliased hs.unaliased, h.qualifiedName hknown hlength, hall, ← h.eq_cons]

theorem Line.nameOf_of_shownInside {scope : Scope} (hs : g.ShownInside scope c s) :
    ∃ below outer, line = s :: below ++ c :: outer ∧ c ∉ below ∧
      scope.nameOf g s = g.lineName (s :: below) := by
  obtain ⟨below, outer, htail, hbelow⟩ :=
    List.eq_append_cons_of_mem (h.mem_tail_iff.2 hs.encloses)
  have hstop : (line.tail.takeWhile fun p => some p ≠ g.container? scope.anchor) = below := by
    rw [htail, hs.container, List.takeWhile_append_of_pos]
    · simp
    · intro p hp
      refine decide_eq_true fun hcontainer => hbelow ?_
      rwa [← Option.some.inj hcontainer]
  refine ⟨below, outer, ?_, hbelow, ?_⟩
  · rw [List.cons_append, ← htail, ← h.eq_cons]
  · rw [nameOf_of_unaliased hs.unaliased, h.qualifiedName hknown hlength, hstop]

end

/-- **Qualified names.** A qualification has at most one link more than there are symbols. It ends
in the symbol, each link stands in the one before it, and no link but the last is the container.

For a symbol in known surroundings, none of which stands inside itself, the bound is never used up.
The symbol's full name is made of the names along its line. Seen from inside a symbol around it, the
name is made of those below that symbol, so it is what follows that symbol's own full name. -/
theorem nameOf_eq_lineName (g : TypeGraph) (s : SymbolId) :
    (∀ node, (g.qualification node s).length ≤ g.symbols.size + 1 ∧
      (g.qualification node s).getLast? = some s ∧
      ((g.qualification node s).IsChain fun p s => g.parent? s = some p) ∧
      ∀ p ∈ (g.qualification node s).dropLast, g.container? node ≠ some p) ∧
    (g.WellPlaced s → ∃ line, g.Line s line ∧ (∀ p ∈ line, g.symbol? p ≠ none) ∧
      (∀ stop n, g.symbols.size ≤ n →
        g.ancestry stop n s = g.ancestry stop g.symbols.size s) ∧
      (∀ scope, g.ShownInFull scope s → scope.nameOf g s = g.lineName line) ∧
      (∀ scope c, g.ShownInside scope c s → ∃ below outer, line = s :: below ++ c :: outer ∧
        c ∉ s :: below ∧ scope.nameOf g s = g.lineName (s :: below)) ∧
      ∀ full fullOuter scope c, g.ShownInFull full s → g.ShownInFull fullOuter c →
        g.ShownInside scope c s →
        full.nameOf g s = fullOuter.nameOf g c ++ "." ++ scope.nameOf g s) := by
  refine ⟨fun node => ⟨?_, getLast?_qualification node s, isChain_qualification node s, ?_⟩,
    fun hplaced => ?_⟩
  · rw [qualification, List.length_reverse]
    exact ancestry_length_le g _ _ s
  · intro p hp
    rw [qualification, List.dropLast_reverse, List.mem_reverse] at hp
    exact ne_stop_of_mem_tail_ancestry hp
  obtain ⟨line, h, hknown, hlength⟩ := hplaced.exists_line
  refine ⟨line, h, hknown, fun stop n hn => ?_, fun scope hs => ?_, fun scope c hs => ?_,
    fun full fullOuter scope c hfull hfullOuter hs => ?_⟩
  · rw [h.ancestry_eq stop (by omega), h.ancestry_eq stop (by omega)]
  · exact h.nameOf_of_shownInFull hknown hlength hs
  · obtain ⟨below, outer, hline, hbelow, hname⟩ := h.nameOf_of_shownInside hknown hlength hs
    refine ⟨below, outer, hline, List.not_mem_cons_of_ne_of_not_mem ?_ hbelow, hname⟩
    rintro rfl
    exact hplaced.acyclic c (.inl rfl) hs.encloses
  · obtain ⟨below, outer, rfl, -, hname⟩ := h.nameOf_of_shownInside hknown hlength hs
    have houter : fullOuter.nameOf g c = g.lineName (c :: outer) :=
      h.of_append.nameOf_of_shownInFull (fun p hp => hknown p (List.mem_append_right _ hp))
        (by rw [List.length_append] at hlength; omega) hfullOuter
    rw [h.nameOf_of_shownInFull hknown hlength hfull, houter, hname,
      lineName_append List.mem_cons_self List.mem_cons_self hknown]

/-- A class in a shop in a mall; one node is inside the mall. -/
def mall : TypeGraph where
  symbols := #[
    { name := "mall", flags := .ofList [SymbolFlag.namespaceModule] },
    { name := "shop", flags := .ofList [SymbolFlag.namespaceModule], parent? := some ⟨0⟩ },
    { name := "Widget", flags := .ofList [SymbolFlag.classType], parent? := some ⟨1⟩ }]
  containers := Bindings.empty.bind ⟨4⟩ ⟨0⟩

theorem mall_index_lt (hp : mall.parent? s = some p) : p.index < s.index :=
  index_lt_of_parent? (by decide) hp

theorem mall_wellPlaced : mall.WellPlaced ⟨2⟩ := by
  have hencloses (p : SymbolId) (h : mall.Encloses p ⟨2⟩) : p.index < 2 := by
    induction h with
    | single h => exact mall_index_lt h
    | tail _ h ih => exact (mall_index_lt h).trans ih
  constructor
  · rintro p (rfl | h)
    · simp [symbol?, mall, SymbolId.index]
    · have := hencloses p h
      rw [ne_eq, symbol?_eq_none_iff]
      simp [mall]
      omega
  · intro p _
    exact acyclic_of_index_lt (fun s p => mall_index_lt) p

theorem mall_names : mall.WellPlaced ⟨2⟩ ∧
    mall.ShownInFull { anchor := .nowhere } ⟨2⟩ ∧ mall.ShownInFull { anchor := .nowhere } ⟨0⟩ ∧
    mall.ShownInside { anchor := ⟨4⟩ } ⟨0⟩ ⟨2⟩ ∧
    Scope.nameOf { anchor := .nowhere } mall ⟨2⟩ =
      Scope.nameOf { anchor := .nowhere } mall ⟨0⟩ ++ "."
        ++ Scope.nameOf { anchor := ⟨4⟩ } mall ⟨2⟩ ∧
    Scope.nameOf { anchor := .nowhere } mall ⟨2⟩ = "mall.shop.Widget" ∧
    Scope.nameOf { anchor := ⟨4⟩ } mall ⟨2⟩ = "shop.Widget" := by
  have hcontainer (s c : SymbolId) (hc : mall.container? .nowhere = some c) :
      ¬ mall.Encloses c s := by cases hc
  have hfull : mall.ShownInFull { anchor := .nowhere } ⟨2⟩ := ⟨rfl, hcontainer ⟨2⟩⟩
  have hfullOuter : mall.ShownInFull { anchor := .nowhere } ⟨0⟩ := ⟨rfl, hcontainer ⟨0⟩⟩
  have hinside : mall.ShownInside { anchor := ⟨4⟩ } ⟨0⟩ ⟨2⟩ := ⟨rfl, rfl, .tail (.single rfl) rfl⟩
  obtain ⟨line, -, -, -, -, -, hname⟩ := (nameOf_eq_lineName mall ⟨2⟩).2 mall_wellPlaced
  exact ⟨mall_wellPlaced, hfull, hfullOuter, hinside, hname _ _ _ _ hfull hfullOuter hinside,
    by rfl, by rfl⟩

end TypeGraph

end ClosureTypes
