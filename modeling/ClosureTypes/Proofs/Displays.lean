import ClosureTypes.Proofs.Ancestors
import Mathlib.Data.List.Chain

/-!
# Fragments of displays

A display shows the links of a qualification, from the outermost symbol inwards. Each link is the
symbol that the next one stands in, so at most the outermost of them is unknown.

The dot before a link is written for its place in the qualification, not for what stands before it.
So a display begins with a dot where the outermost link is unknown.

1. `TypeGraph.isChain_qualification`: each link of a qualification stands in the one before it.
2. `TypeGraph.display_dotted`: the fragments of a display, and the name that they make.
3. `TypeGraph.exists_leading_dot`: not all displays begin with a symbol.
-/

namespace ClosureTypes

namespace Fragment

/-- The fragment carries text. -/
def hasText : Fragment → Bool
  | keyword _ | operator _ | punctuation _ | space _ | stringLiteral _ | parameter _
  | symbol _ _ => true
  | line | indent | dedent | clear | track _ _ _ => false

theorem text_cons {f : Fragment} {fs : List Fragment} (h : clear ∉ fs) :
    text (f :: fs) = write "" f ++ text fs := by
  rw [text, List.foldl_cons, foldl_write h]

/-- Where nothing is cleared, only the fragments that carry text matter for it. -/
theorem text_filter_hasText {fs : List Fragment} (h : clear ∉ fs) :
    text (fs.filter hasText) = text fs := by
  induction fs with
  | nil => rfl
  | cons f fs ih =>
    obtain ⟨hf, hfs⟩ := not_or.1 (List.mem_cons.not.1 h)
    have hrest : clear ∉ fs.filter hasText := fun hmem => hfs (List.mem_of_mem_filter hmem)
    by_cases hf' : f.hasText = true
    · rw [List.filter_cons_of_pos hf', text_cons hrest, text_cons hfs, ih hfs]
    · have hwrite : write "" f = "" := by
        cases f <;> simp [hasText, write] at hf hf' ⊢
      rw [List.filter_cons_of_neg hf', text_cons hfs, ih hfs, hwrite, String.empty_append]

end Fragment

namespace TypeGraph

variable {g : TypeGraph} {node : NodeId} {s : SymbolId}

/-! ## The links of a qualification -/

theorem head?_ancestry (stop : Option SymbolId) (n : Nat) (s : SymbolId) :
    (g.ancestry stop n s).head? = some s := by
  cases n with
  | zero => rfl
  | succ n =>
    unfold ancestry
    split
    · rfl
    · split <;> rfl

/-- Each symbol of an ancestry stands in the next one. -/
theorem isChain_ancestry (stop : Option SymbolId) (n : Nat) (s : SymbolId) :
    (g.ancestry stop n s).IsChain fun s p => g.parent? s = some p := by
  induction n generalizing s with
  | zero => exact .singleton s
  | succ n ih =>
    unfold ancestry
    split
    · exact .singleton s
    · next p hp =>
      split
      · exact .singleton s
      · refine List.isChain_cons.2 ⟨fun q hq => ?_, ih p⟩
        rw [head?_ancestry, Option.mem_some_iff] at hq
        exact hq ▸ hp

theorem getLast?_qualification (node : NodeId) (s : SymbolId) :
    (g.qualification node s).getLast? = some s := by
  rw [qualification, List.getLast?_reverse, head?_ancestry]

/-- Each link of a qualification stands in the one before it. -/
theorem isChain_qualification (node : NodeId) (s : SymbolId) :
    (g.qualification node s).IsChain fun p s => g.parent? s = some p :=
  List.isChain_reverse.2 (isChain_ancestry _ _ s)

theorem symbol?_ne_none_of_parent? {p : SymbolId} (h : g.parent? s = some p) :
    g.symbol? s ≠ none := by
  intro hs
  rw [parent?, hs] at h
  cases h

/-- Only the outermost link of a chain can be unknown. -/
theorem known_of_isChain {outer : SymbolId} {inner : List SymbolId}
    (h : (outer :: inner).IsChain fun p s => g.parent? s = some p) :
    ∀ s ∈ inner, g.symbol? s ≠ none := by
  induction inner generalizing outer with
  | nil => simp
  | cons link rest ih =>
    obtain ⟨hlink, hrest⟩ := List.isChain_cons_cons.1 h
    exact List.forall_mem_cons.2 ⟨symbol?_ne_none_of_parent? hlink, ih hrest⟩

/-! ## Names with dots between them -/

variable (g) in
/-- The names of those symbols that are known, in order. -/
def namesOf (links : List SymbolId) : List String :=
  links.filterMap fun s => (g.symbol? s).map (·.name)

theorem namesOf_cons {sym : Symbol} (hsym : g.symbol? s = some sym) (rest : List SymbolId) :
    g.namesOf (s :: rest) = sym.name :: g.namesOf rest :=
  List.filterMap_cons_some (by rw [hsym, Option.map_some])

variable (g) in
/-- The fragments name known symbols, with a dot between each symbol and the next. -/
inductive Dotted : List SymbolId → List Fragment → Prop
  | last {s : SymbolId} {sym : Symbol} : g.symbol? s = some sym →
      Dotted [s] [.symbol sym.name s]
  | cons {s : SymbolId} {sym : Symbol} {links : List SymbolId} {fragments : List Fragment} :
      g.symbol? s = some sym → Dotted links fragments →
      Dotted (s :: links) (.symbol sym.name s :: .punctuation "." :: fragments)

namespace Dotted

variable {links : List SymbolId} {fragments : List Fragment}

theorem clear_not_mem (h : g.Dotted links fragments) : Fragment.clear ∉ fragments := by
  induction h with
  | last => simp
  | cons _ _ ih => simpa using ih

theorem exists_cons_namesOf (h : g.Dotted links fragments) :
    ∃ name names, g.namesOf links = name :: names := by
  cases h with
  | last hsym => exact ⟨_, _, namesOf_cons hsym _⟩
  | cons hsym _ => exact ⟨_, _, namesOf_cons hsym _⟩

/-- The text of such fragments is that of the names, joined by dots. -/
theorem text (h : g.Dotted links fragments) :
    Fragment.text fragments = ".".intercalate (g.namesOf links) := by
  induction h with
  | last hsym =>
    rw [namesOf_cons hsym]
    simp [namesOf, Fragment.text, Fragment.write]
  | cons hsym hrest ih =>
    have hclear := hrest.clear_not_mem
    obtain ⟨name, names, hnames⟩ := hrest.exists_cons_namesOf
    rw [Fragment.text_cons (by simpa using hclear), Fragment.text_cons hclear, ih,
      namesOf_cons hsym, hnames, String.intercalate_cons_cons, ← String.append_assoc]
    simp [Fragment.write]

end Dotted

/-! ## Displays -/

/-- The part of a link's display that carries text. -/
theorem filter_showLink {sym : Symbol} (hsym : g.symbol? s = some sym) (lead : List Fragment) :
    (g.showLink node lead s).filter (·.hasText) =
      lead.filter (·.hasText) ++ [.symbol sym.name s] := by
  rw [showLink, hsym]
  simp [Fragment.hasText]

/-- What known links show that follow others. -/
theorem exists_dotted_of_known (node : NodeId) {link : SymbolId} {rest : List SymbolId}
    (h : ∀ s ∈ link :: rest, g.symbol? s ≠ none) :
    ∃ fragments, g.Dotted (link :: rest) fragments ∧
      ((link :: rest).flatMap (g.showLink node [.punctuation "."])).filter (·.hasText) =
        .punctuation "." :: fragments := by
  induction rest generalizing link with
  | nil =>
    obtain ⟨sym, hsym⟩ := Option.ne_none_iff_exists'.1 (h link List.mem_cons_self)
    refine ⟨_, .last hsym, ?_⟩
    rw [List.flatMap_singleton, filter_showLink hsym]
    rfl
  | cons next rest ih =>
    obtain ⟨hlink, hrest⟩ := List.forall_mem_cons.1 h
    obtain ⟨sym, hsym⟩ := Option.ne_none_iff_exists'.1 hlink
    obtain ⟨fragments, hdotted, hshown⟩ := ih hrest
    refine ⟨_, .cons hsym hdotted, ?_⟩
    rw [List.flatMap_cons, List.filter_append, hshown, filter_showLink hsym]
    rfl

theorem clear_not_mem_display : Fragment.clear ∉ g.display node s := by
  obtain ⟨outer, inner, hlinks⟩ := g.exists_cons_qualification node s
  simp only [display, hlinks, List.mem_append, List.mem_flatMap, not_or, not_exists, not_and]
  exact ⟨clear_not_mem_showLink (by simp), fun _ _ => clear_not_mem_showLink (by simp)⟩

theorem text_filter_display :
    Fragment.text ((g.display node s).filter (·.hasText)) = g.qualifiedName node s :=
  Fragment.text_filter_hasText clear_not_mem_display

theorem filter_display {outer : SymbolId} {inner : List SymbolId}
    (hlinks : g.qualification node s = outer :: inner) :
    (g.display node s).filter (·.hasText) =
      (g.showLink node [] outer).filter (·.hasText) ++
        (inner.flatMap (g.showLink node [.punctuation "."])).filter (·.hasText) := by
  simp only [display, hlinks, List.filter_append]

/-- Where all links are known, the display names them with dots between them. -/
theorem dotted_display (h : ∀ link ∈ g.qualification node s, g.symbol? link ≠ none) :
    g.Dotted (g.qualification node s) ((g.display node s).filter (·.hasText)) := by
  obtain ⟨outer, inner, hlinks⟩ := g.exists_cons_qualification node s
  rw [hlinks] at h ⊢
  obtain ⟨houter, hinner⟩ := List.forall_mem_cons.1 h
  obtain ⟨sym, hsym⟩ := Option.ne_none_iff_exists'.1 houter
  rw [filter_display hlinks, filter_showLink hsym]
  cases inner with
  | nil => exact .last hsym
  | cons link rest =>
    obtain ⟨fragments, hdotted, hshown⟩ := exists_dotted_of_known node hinner
    rw [hshown]
    exact .cons hsym hdotted

/-- Where all links are known, a qualified name is made of their names, joined by dots. -/
theorem qualifiedName_eq_intercalate
    (h : ∀ link ∈ g.qualification node s, g.symbol? link ≠ none) :
    g.qualifiedName node s = ".".intercalate (g.namesOf (g.qualification node s)) := by
  rw [← text_filter_display, (dotted_display h).text]

/-- Where the outermost link is unknown, but not all there is, the display begins with a dot. -/
theorem exists_dotted_display {outer link : SymbolId} {rest : List SymbolId}
    (hlinks : g.qualification node s = outer :: link :: rest) (houter : g.symbol? outer = none) :
    ∃ fragments, g.Dotted (link :: rest) fragments ∧
      (g.display node s).filter (·.hasText) = .punctuation "." :: fragments := by
  have hinner := known_of_isChain (hlinks ▸ isChain_qualification node s)
  obtain ⟨fragments, hdotted, hshown⟩ := exists_dotted_of_known node hinner
  refine ⟨fragments, hdotted, ?_⟩
  rw [filter_display hlinks, hshown, showLink, houter]
  rfl

/-- **Displays.** The display of a known symbol ends in that symbol, and names the links of its
qualification with a dot between each and the next. This is all, if the links are known. If they are
not, it is the outermost one that is unknown, and the display begins with one more dot. -/
theorem display_dotted (hs : g.symbol? s ≠ none) (node : NodeId) :
    ∃ links fragments, g.Dotted links fragments ∧ links.getLast? = some s ∧
      (g.qualification node s = links ∧
          (g.display node s).filter (·.hasText) = fragments ∧
          g.qualifiedName node s = ".".intercalate (g.namesOf links) ∨
        ∃ outer, g.symbol? outer = none ∧ g.qualification node s = outer :: links ∧
          (g.display node s).filter (·.hasText) = .punctuation "." :: fragments ∧
          g.qualifiedName node s = "." ++ ".".intercalate (g.namesOf links)) := by
  have hlast := getLast?_qualification (g := g) node s
  have hchain := isChain_qualification (g := g) node s
  obtain ⟨outer, inner, hlinks⟩ := g.exists_cons_qualification node s
  rw [hlinks] at hlast hchain
  by_cases houter : g.symbol? outer = none
  · cases inner with
    | nil => exact absurd (Option.some.inj hlast ▸ houter) hs
    | cons link rest =>
      obtain ⟨fragments, hdotted, hshown⟩ := exists_dotted_display hlinks houter
      refine ⟨_, fragments, hdotted, by rwa [List.getLast?_cons_cons] at hlast,
        .inr ⟨outer, houter, hlinks, hshown, ?_⟩⟩
      rw [← text_filter_display, hshown, Fragment.text_cons hdotted.clear_not_mem, hdotted.text]
      simp [Fragment.write]
  · have hknown : ∀ link ∈ g.qualification node s, g.symbol? link ≠ none := by
      rw [hlinks]
      exact List.forall_mem_cons.2 ⟨houter, known_of_isChain hchain⟩
    have hname := qualifiedName_eq_intercalate hknown
    have hdotted := dotted_display hknown
    rw [hlinks] at hname hdotted
    exact ⟨_, _, hdotted, hlast, .inl ⟨hlinks, rfl, hname⟩⟩

/-- A class in a namespace, where the namespace stands in a symbol that is not there. -/
def strayShop : TypeGraph where
  symbols := #[
    { name := "shop", flags := .ofList [SymbolFlag.namespaceModule], parent? := some ⟨7⟩ },
    { name := "Widget", flags := .ofList [SymbolFlag.classType], parent? := some ⟨0⟩ }]

theorem strayShop_display : strayShop.symbol? ⟨1⟩ ≠ none ∧
    ∃ fragments, strayShop.Dotted [⟨0⟩, ⟨1⟩] fragments ∧
      (strayShop.display .nowhere ⟨1⟩).filter (·.hasText) = .punctuation "." :: fragments ∧
      strayShop.qualifiedName .nowhere ⟨1⟩ = ".shop.Widget" := by
  have hknown : strayShop.symbol? ⟨1⟩ ≠ none := by simp [symbol?, strayShop, SymbolId.index]
  have hlinks : strayShop.qualification .nowhere ⟨1⟩ = [⟨7⟩, ⟨0⟩, ⟨1⟩] := by decide
  obtain ⟨links, fragments, hdotted, -, ⟨h, -⟩ | ⟨outer, -, h, hshown, hname⟩⟩ :=
    display_dotted hknown .nowhere
  · -- The outermost link is not known, so it has no part in what is `Dotted`.
    obtain rfl := h.symm.trans hlinks
    cases hdotted with
    | cons hsym _ => cases hsym
  · obtain ⟨rfl, rfl⟩ := List.cons.inj (h.symm.trans hlinks)
    exact ⟨hknown, fragments, hdotted, hshown, hname⟩

/-- Not all displays of known symbols begin with a symbol. -/
theorem exists_leading_dot : ¬ ∀ (g : TypeGraph) (node : NodeId) (s : SymbolId),
    g.symbol? s ≠ none → ∃ links, g.Dotted links ((g.display node s).filter (·.hasText)) := by
  intro h
  obtain ⟨links, hdotted⟩ := h strayShop .nowhere ⟨0⟩ (by simp [symbol?, strayShop, SymbolId.index])
  have hshown : (strayShop.display .nowhere ⟨0⟩).filter (·.hasText) =
      [.punctuation ".", .symbol "shop" ⟨0⟩] := by decide
  rw [hshown] at hdotted
  cases hdotted

end TypeGraph

end ClosureTypes
