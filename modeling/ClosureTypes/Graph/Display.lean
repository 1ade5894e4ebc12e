import ClosureTypes.Graph.Basic

/-!
# Qualified names

A symbol is displayed by its name, qualified by the names of the symbols that enclose it. Seen
from a node, the qualification starts just below the symbol that contains the node.

A display is a list of fragments, so that a reader can style them or follow the symbols in them;
`Fragment.text` is the plain text of a display.

1. `TypeGraph.ancestry_length_le`: parents that form a cycle are followed only so far.
2. `Fragment.text_append`: where nothing is cleared, the text of a display is the text of its
   parts in order.
-/

namespace ClosureTypes

/-! ## Fragments -/

/-- A piece of a display. Only some pieces carry text. -/
inductive Fragment
  | keyword (text : String)
  | operator (text : String)
  | punctuation (text : String)
  | space (text : String)
  | stringLiteral (text : String)
  | parameter (text : String)
  | symbol (text : String) (symbol : SymbolId)
  | line
  | indent
  | dedent
  /-- Everything before it is discarded. -/
  | clear
  /-- The symbol is about to be shown, as seen from a node and in one of some roles. -/
  | track (symbol : SymbolId) (node : NodeId) (roles : SymbolFlags)
  deriving DecidableEq

namespace Fragment

/-- The text that has been written once the fragment follows `written`. A display is one line, so
line ends and indentation write nothing. -/
def write (written : String) : Fragment → String
  | keyword text => written ++ text
  | operator text => written ++ text
  | punctuation text => written ++ text
  | space text => written ++ text
  | stringLiteral text => written ++ text
  | parameter text => written ++ text
  | symbol text _ => written ++ text
  | line => written
  | indent => written
  | dedent => written
  | clear => ""
  | track _ _ _ => written

/-- The text of a display. -/
def text (fragments : List Fragment) : String := fragments.foldl write ""

theorem write_of_ne_clear {f : Fragment} (hf : f ≠ clear) (written : String) :
    write written f = written ++ write "" f := by
  cases f <;> simp [write] at hf ⊢

theorem foldl_write {fs : List Fragment} (h : clear ∉ fs) (written : String) :
    fs.foldl write written = written ++ text fs := by
  induction fs generalizing written with
  | nil => simp [text]
  | cons f fs ih =>
    have hf : f ≠ clear := fun e => h (e ▸ List.mem_cons_self)
    have hfs : clear ∉ fs := fun e => h (List.mem_cons_of_mem f e)
    simp only [text, List.foldl_cons]
    rw [ih hfs, ih hfs (write "" f), write_of_ne_clear hf, String.append_assoc]

theorem text_append (fs : List Fragment) {rest : List Fragment} (h : clear ∉ rest) :
    text (fs ++ rest) = text fs ++ text rest := by
  rw [text, List.foldl_append, foldl_write h]
  rfl

end Fragment

/-! ## The display of a symbol -/

namespace TypeGraph

/-- The symbol `s` and those around it, innermost first, as far as `stop` and at most `n` steps
out. -/
def ancestry (g : TypeGraph) (stop : Option SymbolId) : Nat → SymbolId → List SymbolId
  | 0, s => [s]
  | n + 1, s =>
    match (g.symbol? s).bind (·.parent?) with
    | none => [s]
    | some p => if some p = stop then [s] else s :: g.ancestry stop n p

theorem ancestry_length_le (g : TypeGraph) (stop : Option SymbolId) (n : Nat) (s : SymbolId) :
    (g.ancestry stop n s).length ≤ n + 1 := by
  induction n generalizing s with
  | zero => simp [ancestry]
  | succ n ih =>
    unfold ancestry
    split
    · simp
    · next p _ =>
      split
      · simp
      · have := ih p
        simp only [List.length_cons]
        omega

/-- The symbols that qualify `s` as seen from `node`, outermost first and ending in `s`. More steps
out than there are symbols would only go round a cycle. -/
def qualification (g : TypeGraph) (node : NodeId) (s : SymbolId) : List SymbolId :=
  (g.ancestry (g.container? node) g.symbols.size s).reverse

/-- The fragments that show one symbol of a qualification; an unknown symbol is passed over. -/
def showLink (g : TypeGraph) (node : NodeId) (lead : List Fragment) (s : SymbolId) :
    List Fragment :=
  match g.symbol? s with
  | none => []
  | some sym => lead ++ [.track s node SymbolFlag.typeRoles, .symbol sym.name s]

/-- The display of the qualified name of `s` as seen from `node`. Every link but the outermost one
is preceded by a dot. -/
def display (g : TypeGraph) (node : NodeId) (s : SymbolId) : List Fragment :=
  match g.qualification node s with
  | [] => []
  | outer :: inner =>
    g.showLink node [] outer ++ inner.flatMap (g.showLink node [.punctuation "."])

/-- The qualified name of `s` as seen from `node`. -/
def qualifiedName (g : TypeGraph) (node : NodeId) (s : SymbolId) : String :=
  Fragment.text (g.display node s)

end TypeGraph

end ClosureTypes
