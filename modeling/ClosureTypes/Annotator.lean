import ClosureTypes.Annotate.Basic
import ClosureTypes.Options.Writer

/-!
# Annotators

An annotator answers one request after another about one graph, in one scope. It remembers the type
literals that it has expanded for as long as it lives, counts the levels that it is deep, and sends
messages to its sink. The anchor of its scope stays; the rest of the scope and the sink may be
changed between requests.

1. `Annotator.perform_scope`: a walk leaves the scope alone.
2. `Annotator.anchor_run`: no request moves the anchor.
-/

namespace ClosureTypes

/-- Answers requests about a graph. -/
structure Annotator where
  scope : Scope
  /-- The type literals that have been expanded. -/
  visited : Visited := .empty
  /-- How many levels deep the annotator is. -/
  depth : Nat := 0
  sink : Sink := .silent

namespace Annotator

/-- An annotator that has answered nothing yet, for annotations written at `anchor`. -/
def new (anchor : NodeId) : Annotator where
  scope := { anchor }

/-- From where an annotator performs its walks. -/
def start (a : Annotator) : Progress := { visited := a.visited, depth := a.depth }

/-- The annotator after a walk that has come to `p`. -/
def keep (a : Annotator) (p : Progress) : Annotator :=
  { a with visited := p.visited, depth := p.depth, sink := a.sink.receive p.log }

/-- Performs a walk. What it has visited and reported is kept, and so is the level that it ends at,
whether or not it ends in a fault. -/
def perform {α : Type} (a : Annotator) (walk : Walk α) : Except GraphFault α × Annotator :=
  match walk.run a.start with
  | .ok x p => (.ok x, a.keep p)
  | .error e p => (.error e, a.keep p)

theorem perform_scope {α : Type} (a : Annotator) (walk : Walk α) :
    (a.perform walk).2.scope = a.scope := by
  unfold perform
  split <;> rfl

/-! ## Changes -/

/-- A change of how requests are answered from then on. -/
inductive Change
  /-- Suppresses symbols by these files, and by no others. -/
  | blacklist (files : List String)
  /-- Takes over what the options set and leaves the rest. -/
  | options (options : Options)
  /-- Adds aliases; a later one for the same symbol replaces an earlier one. -/
  | aliases (pairs : List (SymbolId × String))
  /-- Sends messages elsewhere from now on. -/
  | sink (sink : Sink)

/-- The annotator after a change. -/
def change (a : Annotator) : Change → Annotator
  | .blacklist files => { a with scope := { a.scope with blacklist? := some files } }
  | .options o =>
    { a with scope := { a.scope with blacklist? := o.blacklist?.or a.scope.blacklist? } }
  | .aliases pairs => { a with scope := { a.scope with aliases := a.scope.aliases.bindAll pairs } }
  | .sink s => { a with sink := s }

theorem change_anchor (a : Annotator) (c : Change) :
    (a.change c).scope.anchor = a.scope.anchor := by
  cases c <;> rfl

theorem change_visited (a : Annotator) (c : Change) : (a.change c).visited = a.visited := by
  cases c <;> rfl

/-! ## Requests -/

/-- What an annotator can be asked. -/
inductive Request
  /-- The expression of a type. -/
  | annotate (type : TypeId)
  /-- The expression of a call signature. -/
  | signature (signature : Signature)
  /-- Whether a symbol is suppressed. -/
  | isSuppressed (symbol : SymbolId)
  /-- The name that a symbol is written by. -/
  | name (symbol : SymbolId)
  /-- To answer otherwise from now on. -/
  | change (change : Change)

/-- An answer that is not a fault. -/
inductive Reply
  | expression (e : TypeExpr)
  | suppressed (yes : Bool)
  | name (name : String)
  | done

/-- Answers a request about `g`. -/
def answer (g : TypeGraph) (a : Annotator) : Request → Except GraphFault Reply × Annotator
  | .annotate t => a.perform (.expression <$> annotateHere g a.scope t)
  | .signature signature => a.perform (.expression <$> annotateSignatureHere g a.scope signature)
  | .isSuppressed s => a.perform (.suppressed <$> Annotate.isSuppressed g a.scope s)
  | .name s => (.ok (.name (a.scope.nameOf g s)), a)
  | .change c => (.ok .done, a.change c)

/-- The annotator after requests that were made in order. -/
def run (g : TypeGraph) (a : Annotator) (requests : List Request) : Annotator :=
  requests.foldl (fun a request => (a.answer g request).2) a

theorem answer_anchor (g : TypeGraph) (a : Annotator) (request : Request) :
    (a.answer g request).2.scope.anchor = a.scope.anchor := by
  cases request with
  | change c => exact change_anchor a c
  | name => rfl
  | _ => simp [answer, perform_scope]

theorem anchor_run (g : TypeGraph) (a : Annotator) (requests : List Request) :
    (a.run g requests).scope.anchor = a.scope.anchor := by
  induction requests generalizing a with
  | nil => rfl
  | cons request rest ih => exact (ih _).trans (answer_anchor g a request)

end Annotator

end ClosureTypes
