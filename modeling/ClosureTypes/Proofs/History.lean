import ClosureTypes.Proofs.Depth
import ClosureTypes.Proofs.Level

/-!
# What earlier requests leave behind

An annotator remembers the type literals that it has expanded, and nothing else of earlier requests
matters: not whether they failed, not how deep they went, not what they reported.

1. `annotateWithin_congr_scope`: scopes that say the same give the same walk.
2. `annotate_local`: of the expanded literals, only those that a type leads to matter to it.
3. `annotate_history`: the same for two annotators, and for the order of two requests.
-/

namespace ClosureTypes

/-! ## Scopes that say the same -/

/-- The scopes have the same anchor, the same alias for every symbol and the same files on their
blacklists, in whatever order these were given. -/
structure Scope.Alike (scope scope' : Scope) : Prop where
  anchor : scope.anchor = scope'.anchor
  aliases : ∀ s, scope.aliases.find? s = scope'.aliases.find? s
  blacklist : Option.Rel (fun files files' => ∀ file, file ∈ files ↔ file ∈ files')
    scope.blacklist? scope'.blacklist?

namespace Annotate

variable {g : TypeGraph} {scope scope' : Scope} (h : scope.Alike scope')

include h

theorem nameOf_congr (s : SymbolId) : scope.nameOf g s = scope'.nameOf g s := by
  rw [Scope.nameOf, Scope.nameOf, h.aliases, h.anchor]

theorem hasAlias_congr (s : SymbolId) : scope.hasAlias s = scope'.hasAlias s := by
  rw [Scope.hasAlias, Scope.hasAlias, h.aliases]

theorem isSuppressed_congr : isSuppressed g scope = isSuppressed g scope' := by
  funext s
  unfold isSuppressed Scope.blacklistFor?
  rw [hasAlias_congr h]
  have hb := h.blacklist
  generalize scope.blacklist? = list, scope'.blacklist? = list' at hb ⊢
  cases scope'.hasAlias s with
  | true => rfl
  | false =>
    cases hb with
    | none => rfl
    | @some files files' hfiles =>
      have hcontains (file : String) : files.contains file = files'.contains file :=
        Bool.eq_iff_iff.2 (by simpa using hfiles file)
      simp only [Bool.false_eq_true, if_false, hcontains]

theorem symbolType_congr (recur : TypeId → Walk TypeExpr) :
    symbolType g scope recur = symbolType g scope' recur := by
  funext s
  rw [symbolType, symbolType, h.anchor]

theorem level_congr (recur : TypeId → Walk TypeExpr) :
    level g scope recur = level g scope' recur := by
  funext t
  simp only [level, byKind, object, isSuppressedRecord, classType, interface, anonymous, literal,
    expand, shape, fields, function, constructor, parameters, isSuppressed_congr h,
    symbolType_congr h, nameOf_congr h, hasAlias_congr h]

end Annotate

theorem annotateWithin_congr_scope (g : TypeGraph) {scope scope' : Scope}
    (h : scope.Alike scope') (n : Nat) : annotateWithin g scope n = annotateWithin g scope' n := by
  induction n with
  | zero => rfl
  | succ n ih =>
    funext t
    rw [annotateWithin_succ, annotateWithin_succ, ih, Annotate.level_congr h]

/-! ## Walks that hang on some literals only -/

/-- `q` is `p` after the literals `added` were expanded, the latest first, and the messages of `log`
were reported. -/
structure Progress.Extends (p q : Progress) (added : List TypeId) (log : MessageLog) : Prop where
  visited : q.visited.toList = added ++ p.visited.toList
  messages : q.log.messages = p.log.messages ++ log.messages

namespace Progress.Extends

theorem refl (p : Progress) : p.Extends p [] .empty where
  visited := rfl
  messages := (List.append_nil _).symm

theorem trans {p q r : Progress} {added added' : List TypeId} {log log' : MessageLog}
    (h : p.Extends q added log) (h' : q.Extends r added' log') :
    p.Extends r (added' ++ added) (log ++ log') where
  visited := by rw [h'.visited, h.visited, List.append_assoc]
  messages := by rw [h'.messages, h.messages, MessageLog.messages_append, List.append_assoc]

theorem mem_visited {p q : Progress} {added : List TypeId} {log : MessageLog}
    (h : p.Extends q added log) (u : TypeId) : u ∈ q.visited ↔ u ∈ added ∨ u ∈ p.visited := by
  rw [Visited.mem_def, h.visited, List.mem_append, Visited.mem_def]

end Progress.Extends

namespace Walk

variable {α : Type} (S : TypeId → Prop)

/-- Of what has been expanded, the walk hangs on the literals in `S` only. Wherever it starts with
the same of them expanded, it ends in the same and has expanded and reported the same. -/
def Local (x : Walk α) : Prop :=
  ∀ p q : Progress, (∀ u, S u → (u ∈ p.visited ↔ u ∈ q.visited)) →
    x.outcome p = x.outcome q ∧ ∃ added log, (∀ u ∈ added, S u) ∧
      p.Extends (x.after p) added log ∧ q.Extends (x.after q) added log

theorem local_enter {t : TypeId} (ht : S t) : (enter t).Local S := by
  intro p q hpq
  rw [outcome_enter, outcome_enter, decide_eq_decide.2 (not_congr (hpq t ht))]
  refine ⟨rfl, ?_⟩
  by_cases hp : t ∈ p.visited
  · rw [after_enter_of_mem hp, after_enter_of_mem ((hpq t ht).1 hp)]
    exact ⟨[], .empty, by simp, .refl p, .refl q⟩
  · have hq : t ∉ q.visited := fun h => hp ((hpq t ht).2 h)
    rw [after_enter_of_not_mem hp, after_enter_of_not_mem hq]
    exact ⟨[t], .empty, by simpa using ht, ⟨rfl, (List.append_nil _).symm⟩,
      ⟨rfl, (List.append_nil _).symm⟩⟩

theorem local_bind {β : Type} {x : Walk α} {f : α → Walk β} (hx : x.Local S)
    (hf : ∀ a, x.Returns a → (f a).Local S) : (x >>= f).Local S := by
  intro p q hpq
  obtain ⟨houtcome, added, log, hadded, hp, hq⟩ := hx p q hpq
  cases ha : x.outcome p with
  | error e =>
    have ha' := houtcome ▸ ha
    rw [outcome_bind_of_error ha, outcome_bind_of_error ha', after_bind_of_error ha,
      after_bind_of_error ha']
    exact ⟨rfl, added, log, hadded, hp, hq⟩
  | ok a =>
    have ha' := houtcome ▸ ha
    rw [outcome_bind_of_ok ha, outcome_bind_of_ok ha', after_bind_of_ok ha, after_bind_of_ok ha']
    -- Both runs have expanded the same on the way, so they still agree.
    have hagree : ∀ u, S u → (u ∈ (x.after p).visited ↔ u ∈ (x.after q).visited) := by
      intro u hu
      rw [hp.mem_visited, hq.mem_visited, hpq u hu]
    obtain ⟨houtcome', added', log', hadded', hp', hq'⟩ := hf a ⟨p, ha⟩ _ _ hagree
    refine ⟨houtcome', added' ++ added, log ++ log', fun u hu => ?_, hp.trans hp', hq.trans hq'⟩
    exact (List.mem_append.1 hu).elim (hadded' u) (hadded u)

theorem local_congruence (fault : GraphFault → Prop) :
    Congruence fault S fun x _ => x.Local S where
  pure _ p q _ := ⟨rfl, [], .empty, by simp, .refl p, .refl q⟩
  bind := local_bind S
  throw _ p q _ := ⟨rfl, [], .empty, by simp, .refl p, .refl q⟩
  warn message p q _ := ⟨rfl, [], ⟨[message]⟩, by simp, ⟨rfl, rfl⟩, ⟨rfl, rfl⟩⟩
  enter := local_enter S

end Walk

/-- Annotating a type hangs only on the literals that the type leads to. -/
theorem annotate_local (g : TypeGraph) (scope : Scope) (n : Nat) (t : TypeId) :
    (annotateWithin g scope n t).Local fun u =>
      g.Reaches scope.anchor t u ∧ g.isLiteral u = true :=
  (annotateWithin_rules (Walk.local_congruence _ _).rules n (TypeGraph.reaches_self t)).2

/-! ## Annotators -/

namespace Annotator

variable (g : TypeGraph)

/-- The messages that annotating `t` reports, whatever the sink does with them. -/
def report (a : Annotator) (t : TypeId) : MessageLog :=
  ((annotateHere g a.scope t).after a.start).log

/-- Asked for the expression of `t`, the annotators give the same answer, report the same messages,
each to its own sink, expand the same literals `added`, and change in no other way. -/
structure AnswerAlike (t : TypeId) (a b : Annotator) (added : List TypeId) : Prop where
  answer : (a.answer g (.annotate t)).1 = (b.answer g (.annotate t)).1
  report : a.report g t = b.report g t
  sinks : (a.answer g (.annotate t)).2.sink = a.sink.receive (a.report g t) ∧
    (b.answer g (.annotate t)).2.sink = b.sink.receive (b.report g t)
  visited : (a.answer g (.annotate t)).2.visited.toList = added ++ a.visited.toList ∧
    (b.answer g (.annotate t)).2.visited.toList = added ++ b.visited.toList
  scopes : (a.answer g (.annotate t)).2.scope = a.scope ∧
    (b.answer g (.annotate t)).2.scope = b.scope
  depths : (a.answer g (.annotate t)).2.depth = a.depth ∧
    (b.answer g (.annotate t)).2.depth = b.depth

theorem report_eq (a : Annotator) (t : TypeId) :
    a.report g t =
      ((annotateWithin g a.scope a.levels t).after { visited := a.visited }).log := by
  have hstart : a.start = Progress.atDepth { visited := a.visited } a.depth := rfl
  rw [report, hstart, (annotateHere_counts g a.scope a.depth t).after, Progress.log_atDepth, levels]

/-- The answer for a type, by the levels that are left. -/
theorem answer_annotate_eq (a : Annotator) (t : TypeId) :
    a.answer g (.annotate t) =
      (((annotateWithin g a.scope a.levels t).outcome { visited := a.visited }).map .expression,
        { a with
          visited := ((annotateWithin g a.scope a.levels t).after { visited := a.visited }).visited
          sink := a.sink.receive (a.report g t) }) := by
  rw [answer_annotate, performFlat_map, performFlat, report_eq]

/-- Annotators that are as deep and have expanded the same of the literals that `t` leads to answer
alike. -/
theorem answerAlike_of_agree {a b : Annotator} {t : TypeId} (hscope : a.scope.Alike b.scope)
    (hdepth : a.depth = b.depth)
    (hvisited : ∀ u, g.Reaches a.scope.anchor t u → g.isLiteral u = true →
      (u ∈ a.visited ↔ u ∈ b.visited)) :
    ∃ added, (∀ u ∈ added, g.Reaches a.scope.anchor t u ∧ g.isLiteral u = true) ∧
      AnswerAlike g t a b added := by
  have hwithin : annotateWithin g b.scope b.levels = annotateWithin g a.scope a.levels := by
    rw [levels, levels, hdepth, annotateWithin_congr_scope g hscope]
  obtain ⟨houtcome, added, log, hadded, ha, hb⟩ := annotate_local g a.scope a.levels t
    { visited := a.visited } { visited := b.visited } fun u hu => hvisited u hu.1 hu.2
  have hlog : ((annotateWithin g a.scope a.levels t).after { visited := a.visited }).log =
      ((annotateWithin g a.scope a.levels t).after { visited := b.visited }).log :=
    congrArg MessageLog.mk (ha.messages.trans hb.messages.symm)
  refine ⟨added, hadded, ?_, ?_, ⟨?_, ?_⟩, ⟨?_, ?_⟩, ⟨?_, ?_⟩,
    ⟨depth_answer g a _, depth_answer g b _⟩⟩
  · rw [answer_annotate_eq, answer_annotate_eq, hwithin, houtcome]
  · rw [report_eq, report_eq, hwithin, hlog]
  · rw [answer_annotate_eq]
  · rw [answer_annotate_eq]
  · rw [answer_annotate_eq]
    exact ha.visited
  · rw [answer_annotate_eq, hwithin]
    exact hb.visited
  · rw [answer_annotate_eq]
  · rw [answer_annotate_eq]

theorem alike_refl (scope : Scope) : scope.Alike scope where
  anchor := rfl
  aliases _ := rfl
  blacklist := by cases scope.blacklist? <;> constructor; simp

/-- A request for a type that shares no literal with `t` leaves the answer for `t` as it is. -/
theorem answerAlike_after {a : Annotator} {t u : TypeId}
    (hshared : ∀ v, g.Reaches a.scope.anchor t v → g.Reaches a.scope.anchor u v →
      g.isLiteral v = false) :
    ∃ added, AnswerAlike g t a (a.answer g (.annotate u)).2 added := by
  obtain ⟨added, hadded, halike⟩ := answerAlike_of_agree g (alike_refl a.scope) rfl (t := u)
    (fun _ _ _ => Iff.rfl)
  have hscope : a.scope.Alike (a.answer g (.annotate u)).2.scope := by
    rw [halike.scopes.1]
    exact alike_refl a.scope
  have hdepth : a.depth = (a.answer g (.annotate u)).2.depth := halike.depths.1.symm
  obtain ⟨added', -, h⟩ := answerAlike_of_agree g hscope hdepth (t := t) fun v hv hlit => by
    rw [Visited.mem_def, Visited.mem_def, halike.visited.1, List.mem_append]
    refine ⟨Or.inr, fun hmem => hmem.resolve_left fun hnew => ?_⟩
    exact absurd hlit (by simp [hshared v hv (hadded v hnew).1])
  exact ⟨added', h⟩

end Annotator

/-- **History.** What annotating a type answers, reports and expands is settled by what the scope
says, by which of the types that it leads to have been expanded, and by how deep the annotator is.
So two requests whose types lead to no common literal can be made in either order. No request of any
sort changes how deep the annotator is, so it never tells annotators apart that started alike. -/
theorem annotate_history (g : TypeGraph) :
    (∀ (a b : Annotator) (t : TypeId), a.scope.Alike b.scope → a.depth = b.depth →
      (∀ u, g.Reaches a.scope.anchor t u → (u ∈ a.visited ↔ u ∈ b.visited)) →
      ∃ added, (∀ u ∈ added, g.Reaches a.scope.anchor t u) ∧
        Annotator.AnswerAlike g t a b added) ∧
    (∀ (a : Annotator) (t u : TypeId),
      (∀ v, g.Reaches a.scope.anchor t v → g.Reaches a.scope.anchor u v → g.isLiteral v = false) →
      (∃ added, Annotator.AnswerAlike g t a (a.answer g (.annotate u)).2 added) ∧
        ∃ added, Annotator.AnswerAlike g u a (a.answer g (.annotate t)).2 added) ∧
    ∀ (a : Annotator) (requests : List Annotator.Request), (a.run g requests).depth = a.depth := by
  refine ⟨fun a b t hscope hdepth hvisited => ?_, fun a t u hshared => ?_, Annotator.depth_run g⟩
  · obtain ⟨added, hadded, h⟩ :=
      Annotator.answerAlike_of_agree g hscope hdepth fun u hu _ => hvisited u hu
    exact ⟨added, fun u hu => (hadded u hu).1, h⟩
  · exact ⟨Annotator.answerAlike_after g hshared,
      Annotator.answerAlike_after g fun v hu ht => hshared v ht hu⟩

/-- A literal with itself and a second literal as members, and a third literal on its own. -/
def threeLiterals : TypeGraph where
  types := #[
    .object (.ofList [ObjectFlag.anonymous]) (some ⟨0⟩),
    .object (.ofList [ObjectFlag.anonymous]) (some ⟨3⟩),
    .object (.ofList [ObjectFlag.anonymous]) (some ⟨3⟩)]
  symbols := #[
    { name := Symbol.literalName, flags := .ofList [SymbolFlag.typeLiteral],
      members := ⟨[("next", ⟨1⟩), ("other", ⟨2⟩)], by decide⟩ },
    { name := "next" },
    { name := "other" },
    { name := Symbol.literalName, flags := .ofList [SymbolFlag.typeLiteral] }]
  declaredTypes := ⟨[(⟨1⟩, ⟨0⟩), (⟨2⟩, ⟨1⟩)]⟩

/-- Has annotated one literal. -/
def earlyAnnotator : Annotator :=
  (Annotator.new .nowhere).run threeLiterals [.annotate ⟨1⟩]

/-- Has annotated two literals, with a fault in between. -/
def lateAnnotator : Annotator :=
  (Annotator.new .nowhere).run threeLiterals
    [.annotate ⟨2⟩, .change (.sink .fresh), .annotate ⟨7⟩, .annotate ⟨1⟩]

theorem threeLiterals_history :
    (∃ added, (∀ u ∈ added, threeLiterals.Reaches .nowhere ⟨0⟩ u) ∧
        Annotator.AnswerAlike threeLiterals ⟨0⟩ earlyAnnotator lateAnnotator added) ∧
      ∃ added, Annotator.AnswerAlike threeLiterals ⟨0⟩ earlyAnnotator
        (earlyAnnotator.answer threeLiterals (.annotate ⟨2⟩)).2 added := by
  have hearly : earlyAnnotator.visited.toList = [⟨1⟩] := by rfl
  have hlate : lateAnnotator.visited.toList = [⟨1⟩, ⟨2⟩] := by rfl
  have hreach (u : TypeId) (hu : threeLiterals.Reaches .nowhere ⟨0⟩ u) : u ∈ [TypeId.mk 0, ⟨1⟩] :=
    hu.mem_of_closed (by decide) (by decide)
  have hagree : ∀ u ∈ [TypeId.mk 0, ⟨1⟩], (u ∈ [TypeId.mk 1] ↔ u ∈ [TypeId.mk 1, ⟨2⟩]) := by decide
  have hapart : ∀ u ∈ [TypeId.mk 0, ⟨1⟩], u ∉ [TypeId.mk 2] := by decide
  obtain ⟨hsettled, horder, hdepth⟩ := annotate_history threeLiterals
  have hdepths : earlyAnnotator.depth = lateAnnotator.depth :=
    (hdepth (.new .nowhere) _).trans (hdepth (.new .nowhere) _).symm
  refine ⟨hsettled _ lateAnnotator ⟨0⟩ (Annotator.alike_refl _) hdepths ?_,
    (horder earlyAnnotator ⟨0⟩ ⟨2⟩ ?_).1⟩
  · intro u hu
    rw [Visited.mem_def, Visited.mem_def, hearly, hlate]
    exact hagree u (hreach u hu)
  · intro v hv hv'
    have hlone : v ∈ [TypeId.mk 2] := hv'.mem_of_closed (by decide) (by decide)
    exact (hapart v (hreach v hv) hlone).elim

end ClosureTypes
