import ClosureTypes.Proofs.Ancestors
import ClosureTypes.Proofs.Course

/-!
# Literals are expanded once

What an annotator remembers is the ledger of the type literals that it has expanded in its life, in
whatever order requests came, whether they failed, and however it was changed in between. Nothing is
taken from the ledger, and nothing enters it twice: a literal that is in it is left unknown wherever
it is met.

1. `Annotator.visited_run`: the visited literals are those that the requests have expanded.
2. `Encounter.leftUnknown`: a visited literal is left unknown, at whatever level it is met.
3. `expanded_once`: both, over the life of an annotator.
-/

namespace ClosureTypes

/-! ## Visited literals -/

/-- The type is expressed as the unknown, and nothing is expanded. -/
def Encounter.LeftUnknown (g : TypeGraph) (scope : Scope) (m : Encounter) : Prop :=
  ∃ e, (annotateWithin g scope m.levels m.type).outcome m.progress = .ok e ∧
    e.render = TypeExpr.unknownText ∧
    ((annotateWithin g scope m.levels m.type).after m.progress).visited = m.progress.visited

/-- A literal that has been visited is left unknown: it has been expanded before, or its symbol is
suppressed, or no level is left for it. -/
theorem Encounter.leftUnknown {g : TypeGraph} (scope : Scope) {m : Encounter}
    (hlit : g.isLiteral m.type = true) (hvisited : m.type ∈ m.progress.visited) :
    m.LeftUnknown g scope := by
  obtain ⟨n, t, p⟩ := m
  unfold LeftUnknown
  dsimp only at hlit hvisited ⊢
  cases n with
  | zero => exact ⟨.unknown .degraded, rfl, rfl, rfl⟩
  | succ n =>
    rw [annotateWithin_eq_run]
    rcases Annotate.plan_of_isLiteral scope hlit with ⟨layout, h⟩ | ⟨note?, h⟩
    · refine ⟨.unknown .revisited, ?_, rfl, ?_⟩
      · rw [h, Plan.run, Walk.outcome_bind_of_ok (Walk.outcome_enter t p)]
        simp [hvisited]
      · rw [Plan.after_run_of_start?_eq_none]
        simp [h, Plan.start?, hvisited]
    · rw [h]
      cases note? <;> exact ⟨.unknown .suppressed, rfl, rfl, rfl⟩

/-- Asking whether a symbol is suppressed expands nothing. -/
theorem Annotate.visited_after_isSuppressed (g : TypeGraph) (scope : Scope) (s : SymbolId)
    (p : Progress) : ((isSuppressed g scope s).after p).visited = p.visited := by
  unfold isSuppressed
  cases scope.blacklistFor? s with
  | none => rfl
  | some files =>
    dsimp only
    cases hsym : g.symbol? s with
    | none => rw [symbol_bind_of_none hsym, Walk.after_throw]
    | some sym =>
      rw [symbol_bind_of_some hsym]
      split <;> rfl

/-! ## The ledger -/

/-- There are no more visited types than positions that they can have. -/
theorem Visited.size_le {v : Visited} {n : Nat} (h : ∀ t ∈ v, t.index < n) : v.size ≤ n :=
  length_le_of_position_lt v.nodup (Function.LeftInverse.injective TypeId.ofIndex_index) h

theorem TypeGraph.index_lt_of_type? {g : TypeGraph} {t : TypeId} {r : TypeRecord}
    (h : g.type? t = some r) : t.index < g.types.size :=
  (Array.getElem?_eq_some_iff.1 h).1

/-! ## The life of an annotator -/

namespace Annotator

variable (g : TypeGraph)

/-- The types that an annotator comes to while it answers a request. -/
def course (a : Annotator) : Request → List Encounter
  | .annotate t => Annotate.course g a.scope a.levels t { visited := a.visited }
  | .signature signature =>
    Slot.courses (annotateWithin g a.scope a.levels) (Annotate.course g a.scope a.levels)
      (Annotate.signatureSlots g a.scope signature) { visited := a.visited }
  | .isSuppressed _ => []
  | .name _ => []
  | .change _ => []

/-- The literals that an annotator expands while it answers requests, in order. -/
def expanded : Annotator → List Request → List TypeId
  | _, [] => []
  | a, request :: rest =>
    expansions g a.scope (a.course g request) ++ expanded (a.answer g request).2 rest

theorem visited_answer (a : Annotator) (request : Request) :
    (a.answer g request).2.visited.toList =
      (expansions g a.scope (a.course g request)).reverse ++ a.visited.toList := by
  cases request with
  | annotate t =>
    rw [answer_annotate, performFlat_map]
    exact Annotate.visited_after a.levels t _
  | signature signature =>
    rw [answer_signature, performFlat_map, performFlat, Annotate.function_eq_run]
    dsimp only
    rw [Layout.visited_after_run]
    exact Slot.visited_after_mapM (Annotate.visited_after a.levels) _ _
  | isSuppressed s =>
    rw [answer_isSuppressed, performFlat_map]
    exact congrArg Visited.toList (Annotate.visited_after_isSuppressed g a.scope s _)
  | name s => rfl
  | change c => exact congrArg Visited.toList (change_visited a c)

/-- What has been visited is what had been before, and what the requests expand. -/
theorem visited_run (a : Annotator) (requests : List Request) :
    (a.run g requests).visited.toList = (a.expanded g requests).reverse ++ a.visited.toList := by
  induction requests generalizing a with
  | nil => rfl
  | cons request rest ih =>
    rw [expanded, List.reverse_append, List.append_assoc, ← visited_answer]
    exact ih _

theorem isLiteral_of_mem_expanded {a : Annotator} {requests : List Request} {t : TypeId}
    (h : t ∈ a.expanded g requests) : g.isLiteral t = true := by
  induction requests generalizing a with
  | nil => cases h
  | cons request rest ih =>
    rcases List.mem_append.1 h with h | h
    · exact isLiteral_of_mem_expansions h
    · exact ih h

theorem visited_run_new (anchor : NodeId) (requests : List Request) :
    ((new anchor).run g requests).visited.toList = ((new anchor).expanded g requests).reverse := by
  rw [visited_run]
  exact List.append_nil _

theorem isLiteral_of_mem_visited {anchor : NodeId} {requests : List Request} {t : TypeId}
    (h : t ∈ ((new anchor).run g requests).visited) : g.isLiteral t = true := by
  rw [Visited.mem_def, visited_run_new, List.mem_reverse] at h
  exact isLiteral_of_mem_expanded g h

theorem mem_visited_run {a : Annotator} {t : TypeId} (h : t ∈ a.visited)
    (requests : List Request) : t ∈ (a.run g requests).visited := by
  rw [Visited.mem_def, visited_run]
  exact List.mem_append_right _ h

/-- Wherever an annotator comes to while it answers a request, what it had visited before has been
visited, and nothing but literals. -/
theorem leads_of_mem_course {a : Annotator} {request : Request} {m : Encounter}
    (hm : m ∈ a.course g request) : Progress.Leads g { visited := a.visited } m.progress := by
  cases request with
  | annotate t => exact Annotate.leads_of_mem_course hm
  | signature signature =>
    exact Slot.leads_of_mem_courses (annotateWithin_local g a.scope a.levels)
      (fun _ _ _ => Annotate.leads_of_mem_course) hm
  | isSuppressed s => cases hm
  | name s => cases hm
  | change c => cases hm

/-- The annotator has visited `t` and is not going to expand it again, whether it is asked for `t`
or comes to it while it answers another request. -/
structure Settled (a : Annotator) (t : TypeId) : Prop where
  visited : t ∈ a.visited
  answer : ∃ e, (a.answer g (.annotate t)).1 = .ok (.expression e) ∧
    e.render = TypeExpr.unknownText
  unchanged : (a.answer g (.annotate t)).2.visited = a.visited
  course : ∀ request, ∀ m ∈ a.course g request, t ∈ m.progress.visited
  inside : ∀ m : Encounter, m.type = t → t ∈ m.progress.visited → m.LeftUnknown g a.scope

theorem settled_of_isLiteral {a : Annotator} {t : TypeId} (hlit : g.isLiteral t = true)
    (hvisited : t ∈ a.visited) : a.Settled g t := by
  have hinside (m : Encounter) (hm : m.type = t) (hmem : t ∈ m.progress.visited) :
      m.LeftUnknown g a.scope := by
    subst hm
    exact Encounter.leftUnknown a.scope hlit hmem
  obtain ⟨e, he, hrender, hunchanged⟩ := hinside ⟨a.levels, t, { visited := a.visited }⟩ rfl
    hvisited
  refine ⟨hvisited, ⟨e, ?_, hrender⟩, ?_, fun request m hm => ?_, hinside⟩
  · rw [answer_annotate_eq]
    exact congrArg (Except.map Reply.expression) he
  · rw [answer_annotate_eq]
    exact hunchanged
  · exact (leads_of_mem_course g hm).mem_visited hvisited

end Annotator

/-- **Once.** Let an annotator have answered requests of any sort, some of which may have failed or
changed it.

* What it has visited are known types, anonymous objects with symbols known as type literals. It
  stays visited, and is not expanded again, after any further requests.
* So no more has been visited than there are types.
* While a request is answered, a type that is visited by then is left unknown. So is a literal that
  is met inside its own expansion.
* What has been visited is what has been expanded, in reverse, and nothing has been expanded
  twice. -/
theorem expanded_once (g : TypeGraph) (anchor : NodeId) (requests : List Annotator.Request) :
    (∀ t ∈ ((Annotator.new anchor).run g requests).visited,
      (∃ r s sym, g.type? t = some r ∧ Kind.ofFlags? r.flags = some .object ∧
        r.objectFlags.has .classType = false ∧ r.objectFlags.has .interface = false ∧
        r.objectFlags.has .reference = false ∧ r.objectFlags.has .anonymous = true ∧
        r.symbol? = some s ∧ g.symbol? s = some sym ∧ sym.flags.has .typeLiteral = true) ∧
      ∀ later, (((Annotator.new anchor).run g requests).run g later).Settled g t) ∧
    ((Annotator.new anchor).run g requests).visited.size ≤ g.types.size ∧
    (∀ request, ∀ m ∈ ((Annotator.new anchor).run g requests).course g request,
      m.type ∈ m.progress.visited →
        m.LeftUnknown g ((Annotator.new anchor).run g requests).scope) ∧
    ((Annotator.new anchor).run g requests).visited.toList =
      ((Annotator.new anchor).expanded g requests).reverse ∧
    ((Annotator.new anchor).expanded g requests).Nodup := by
  have hlit (t : TypeId) (ht : t ∈ ((Annotator.new anchor).run g requests).visited) :
      g.isLiteral t = true :=
    Annotator.isLiteral_of_mem_visited g ht
  refine ⟨fun t ht => ⟨g.isLiteral_iff.1 (hlit t ht), fun later => ?_⟩, ?_, ?_, ?_, ?_⟩
  · exact Annotator.settled_of_isLiteral g (hlit t ht) (Annotator.mem_visited_run g ht later)
  · refine Visited.size_le fun t ht => ?_
    obtain ⟨r, -, -, hr, -⟩ := g.isLiteral_iff.1 (hlit t ht)
    exact g.index_lt_of_type? hr
  · intro request m hm hvisited
    have hm' := (Annotator.leads_of_mem_course g hm).isLiteral hlit m.type hvisited
    exact Encounter.leftUnknown _ hm' hvisited
  · exact Annotator.visited_run_new g anchor requests
  · rw [← List.nodup_reverse, ← Annotator.visited_run_new]
    exact Visited.nodup _

/-- A literal with itself, a type that is not there and a second literal as members; the second one;
and their union. -/
def lostMember : TypeGraph where
  types := #[
    .object (.ofList [ObjectFlag.anonymous]) (some ⟨0⟩),
    .object (.ofList [ObjectFlag.anonymous]) (some ⟨4⟩),
    { flags := .ofList [TypeFlag.union], constituents := [⟨1⟩, ⟨0⟩] }]
  symbols := #[
    { name := Symbol.literalName, flags := .ofList [SymbolFlag.typeLiteral],
      members := ⟨[("next", ⟨1⟩), ("lost", ⟨2⟩), ("other", ⟨3⟩)], by decide⟩ },
    { name := "next" },
    { name := "lost" },
    { name := "other" },
    { name := Symbol.literalName, flags := .ofList [SymbolFlag.typeLiteral] }]
  declaredTypes := ⟨[(⟨1⟩, ⟨0⟩), (⟨2⟩, ⟨7⟩), (⟨3⟩, ⟨1⟩)]⟩

/-- The first literal is visited though its expansion fails. It stays settled under changes, and of
the union only the second literal is expanded. -/
theorem lostMember_once :
    ((Annotator.new .nowhere).answer lostMember (.annotate ⟨0⟩)).1 = .error (.unknownType ⟨7⟩) ∧
      (((Annotator.new .nowhere).run lostMember [.annotate ⟨0⟩]).run lostMember
        [.change (.blacklist ["a.ts"]), .change (.sink .fresh)]).Settled lostMember ⟨0⟩ ∧
      (Annotator.new .nowhere).expanded lostMember [.annotate ⟨0⟩, .annotate ⟨2⟩] = [⟨0⟩, ⟨1⟩] := by
  have hvisited : ⟨0⟩ ∈ ((Annotator.new .nowhere).run lostMember [.annotate ⟨0⟩]).visited := by
    decide
  exact ⟨by rfl, ((expanded_once lostMember .nowhere [.annotate ⟨0⟩]).1 _ hvisited).2 _, by rfl⟩

end ClosureTypes
