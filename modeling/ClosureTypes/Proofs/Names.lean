import ClosureTypes.Scope

/-!
# The names that symbols are written by

A qualified name is read off a display, which shows one link after another: the outermost symbol by
its name, each further one by a dot and its name, and an unknown symbol by nothing.

1. `TypeGraph.qualifiedName_induction`: what holds of names and passes on along the links holds of
   qualified names.
2. `TypeGraph.qualification_known`: where symbols are known along with their parents, so are all
   links of a qualified name.
3. `NamesAre.nameOf`: what holds of all given names holds of the names that symbols are written by.
-/

namespace ClosureTypes

namespace TypeGraph

variable {g : TypeGraph} {node : NodeId} {s : SymbolId}

theorem ancestry_ne_nil (stop : Option SymbolId) (n : Nat) (s : SymbolId) :
    g.ancestry stop n s ≠ [] := by
  cases n with
  | zero => exact List.cons_ne_nil s []
  | succ n =>
    unfold ancestry
    split
    · exact List.cons_ne_nil s []
    · split <;> exact List.cons_ne_nil s _

theorem exists_cons_qualification (g : TypeGraph) (node : NodeId) (s : SymbolId) :
    ∃ outer inner, g.qualification node s = outer :: inner := by
  refine List.exists_cons_of_ne_nil ?_
  rw [qualification, ne_eq, List.reverse_eq_nil_iff]
  exact ancestry_ne_nil _ _ s

/-- The symbol that `s` stands in. -/
def parent? (g : TypeGraph) (s : SymbolId) : Option SymbolId := (g.symbol? s).bind (·.parent?)

/-- What passes on to the symbols that others stand in holds of a symbol and all around it. -/
theorem ancestry_forall {K : SymbolId → Prop} (hK : ∀ s p, K s → g.parent? s = some p → K p)
    (stop : Option SymbolId) (n : Nat) (hs : K s) : ∀ s' ∈ g.ancestry stop n s, K s' := by
  induction n generalizing s with
  | zero =>
    rw [ancestry, List.forall_mem_singleton]
    exact hs
  | succ n ih =>
    unfold ancestry
    split
    · simpa using hs
    · next p hp =>
      split
      · simpa using hs
      · exact List.forall_mem_cons.2 ⟨hs, ih (hK s p hs hp)⟩

/-! ## The text of a display -/

theorem clear_not_mem_showLink {lead : List Fragment} (h : Fragment.clear ∉ lead) :
    Fragment.clear ∉ g.showLink node lead s := by
  unfold showLink
  split <;> simp [h]

theorem text_showLink {sym : Symbol} (hsym : g.symbol? s = some sym) (lead : List Fragment) :
    Fragment.text (g.showLink node lead s) = Fragment.text lead ++ sym.name := by
  rw [showLink, hsym]
  dsimp only
  rw [Fragment.text_append _ (by simp)]
  simp [Fragment.text, Fragment.write]

theorem text_showLink_of_unknown (hs : g.symbol? s = none) (lead : List Fragment) :
    Fragment.text (g.showLink node lead s) = "" := by
  rw [showLink, hs]
  rfl

/-- **Qualified names.** What holds of the names of symbols, and passes on to what is followed by a
dot and a further name, holds of qualified names. It must hold of the empty text too, if the
outermost symbol can be unknown. -/
theorem qualifiedName_induction {P : String → Prop}
    (hunknown : ∀ s' ∈ g.qualification node s, g.symbol? s' = none → P "")
    (hname : ∀ s' sym, g.symbol? s' = some sym → P sym.name)
    (hdot : ∀ text s' sym, g.symbol? s' = some sym → P text → P (text ++ ("." ++ sym.name))) :
    P (g.qualifiedName node s) := by
  obtain ⟨outer, inner, hlinks⟩ := g.exists_cons_qualification node s
  have houter : P (Fragment.text (g.showLink node [] outer)) := by
    cases hsym : g.symbol? outer with
    | none =>
      rw [text_showLink_of_unknown hsym]
      exact hunknown outer (by simp [hlinks]) hsym
    | some sym =>
      rw [text_showLink hsym]
      simpa [Fragment.text] using hname outer sym hsym
  unfold qualifiedName display
  simp only [hlinks]
  clear hlinks
  generalize g.showLink node [] outer = shown at houter ⊢
  -- `shown` is what the links so far show.
  induction inner generalizing shown with
  | nil =>
    rw [List.flatMap_nil, List.append_nil]
    exact houter
  | cons link rest ih =>
    rw [List.flatMap_cons, ← List.append_assoc]
    refine ih _ ?_
    rw [Fragment.text_append _ (clear_not_mem_showLink (by simp))]
    cases hsym : g.symbol? link with
    | none =>
      rw [text_showLink_of_unknown hsym, String.append_empty]
      exact houter
    | some sym =>
      rw [text_showLink hsym]
      exact hdot _ link sym hsym houter

/-! ## Known symbols -/

/-- The symbols that enclose others are known. -/
def ParentsKnown (g : TypeGraph) : Prop :=
  ∀ s sym p, g.symbol? s = some sym → sym.parent? = some p → g.symbol? p ≠ none

theorem ancestry_known (hg : g.ParentsKnown) (stop : Option SymbolId) (n : Nat)
    (hs : g.symbol? s ≠ none) : ∀ s' ∈ g.ancestry stop n s, g.symbol? s' ≠ none := by
  refine ancestry_forall (fun s p _ hp => ?_) stop n hs
  obtain ⟨sym, hsym, hparent⟩ := Option.bind_eq_some_iff.1 hp
  exact hg s sym p hsym hparent

theorem qualification_known (hg : g.ParentsKnown) (node : NodeId) (hs : g.symbol? s ≠ none) :
    ∀ s' ∈ g.qualification node s, g.symbol? s' ≠ none := by
  intro s' hs'
  rw [qualification, List.mem_reverse] at hs'
  exact ancestry_known hg _ _ hs s' hs'

end TypeGraph

/-! ## Written names -/

/-- The names of symbols and of members and the aliases are all as `P` says. -/
structure NamesAre (P : String → Prop) (g : TypeGraph) (scope : Scope) : Prop where
  symbols : ∀ s sym, g.symbol? s = some sym → P sym.name
  members : ∀ s sym, g.symbol? s = some sym → ∀ m ∈ sym.members.fields, P m.1
  aliases : ∀ s name, scope.aliases.find? s = some name → P name

theorem NamesAre.nameOf {P : String → Prop} {g : TypeGraph} {scope : Scope} {s : SymbolId}
    (h : NamesAre P g scope) (hdot : ∀ a b, P a → P b → P (a ++ ("." ++ b)))
    (hunknown : ∀ s' ∈ g.qualification scope.anchor s, g.symbol? s' = none → P "") :
    P (scope.nameOf g s) := by
  unfold Scope.nameOf
  split
  · next name hname => exact h.aliases s name hname
  · exact TypeGraph.qualifiedName_induction hunknown h.symbols fun text s' sym hsym htext =>
      hdot _ _ htext (h.symbols s' sym hsym)

end ClosureTypes
