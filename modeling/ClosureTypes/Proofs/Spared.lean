import ClosureTypes.Proofs.Once
import ClosureTypes.Proofs.Reading

/-!
# Blacklists that hit nothing

A blacklist counts only where an object type has a symbol. If each such symbol has an alias, or is
declared in a file that the blacklist does not list, then the blacklist is looked at and never
strikes: whatever an annotator is asked, it does what it would do without one.

1. `TypeGraph.Spared.plan`: all levels have the plans that they have without a blacklist.
2. `TypeGraph.Spared.annotate`: so types are annotated by the same walk.
3. `Annotator.AlikeButBlacklist.run`: annotators with and without the blacklist stay alike along a
   run of requests.
4. `blacklist_inert`: so they give the same answers.
-/

namespace ClosureTypes

/-! ## Spared symbols -/

namespace Scope

/-- The scope with no blacklist at all. -/
def withoutBlacklist (scope : Scope) : Scope := { scope with blacklist? := none }

/-- The blacklist does not hit `s`: there is an alias for it, or the graph knows it and has a
declaration of it in a file that is not listed. -/
def Spares (scope : Scope) (g : TypeGraph) (s : SymbolId) : Prop :=
  ∀ files ∈ scope.blacklist?, scope.hasAlias s = true ∨
    ∃ sym, g.symbol? s = some sym ∧ ∃ d ∈ sym.declarations, d.file ∉ files

end Scope

/-- The blacklist of the scope hits no symbol of an object type. -/
def TypeGraph.Spared (g : TypeGraph) (scope : Scope) : Prop :=
  ∀ t r s, g.type? t = some r → Kind.ofFlags? r.flags = some .object → r.symbol? = some s →
    scope.Spares g s

theorem Annotate.unlessSuppressed_of_spares {g : TypeGraph} {scope : Scope} {s : SymbolId}
    (h : scope.Spares g s) (plan : Plan) : unlessSuppressed g scope s plan = plan := by
  unfold unlessSuppressed Scope.blacklistFor?
  cases halias : scope.hasAlias s with
  | true => rfl
  | false =>
    cases hfiles : scope.blacklist? with
    | none => rfl
    | some files =>
      obtain ⟨sym, hsym, d, hd, hfile⟩ := (h files hfiles).resolve_left (by simp [halias])
      have hne : ¬ sym.declarations.isEmpty = true := by
        rw [List.isEmpty_iff]
        exact List.ne_nil_of_mem hd
      have hall : ¬ (sym.declarations.all fun d => files.contains d.file) = true := by
        rw [List.all_eq_true]
        exact fun hall => hfile (by simpa using hall d hd)
      simp only [Bool.false_eq_true, if_false, hsym, if_neg hne, if_neg hall]

namespace TypeGraph.Spared

variable {g : TypeGraph} {scope : Scope} (h : g.Spared scope)

include h

/-- Where the blacklist hits nothing, it is in no plan. -/
theorem plan (t : TypeId) :
    Annotate.plan g scope t = Annotate.plan g scope.withoutBlacklist t := by
  unfold Annotate.plan
  cases hr : g.type? t with
  | none => rfl
  | some r =>
    dsimp only
    cases hk : Kind.ofFlags? r.flags with
    | none => rfl
    | some kind =>
      cases kind with
      | object =>
        -- What follows the look at the blacklist does not read it.
        have hsort : Annotate.sortPlan g scope t r =
            Annotate.sortPlan g scope.withoutBlacklist t r := rfl
        have hfree (s : SymbolId) : scope.withoutBlacklist.Spares g s := fun files hf => by cases hf
        show Annotate.objectPlan g scope t r = Annotate.objectPlan g scope.withoutBlacklist t r
        unfold Annotate.objectPlan
        cases hs : r.symbol? with
        | none => exact hsort
        | some s =>
          dsimp only
          rw [Annotate.unlessSuppressed_of_spares (h t r s hr hk hs),
            Annotate.unlessSuppressed_of_spares (hfree s), hsort]
      | _ => rfl

theorem annotate :
    annotateHere g scope = annotateHere g scope.withoutBlacklist :=
  annotateHere_congr fun n => funext fun _ =>
    annotateWithin_eq_of_plan (K := fun _ => True) (fun u _ => h.plan u) (fun _ _ => rfl)
      (fun _ _ _ _ => trivial) n trivial

theorem annotateSignature :
    annotateSignatureHere g scope = annotateSignatureHere g scope.withoutBlacklist := by
  funext signature
  rw [annotateSignatureHere, h.annotate]
  rfl

end TypeGraph.Spared

/-! ## More aliases -/

namespace Bindings

variable {κ α : Type} [DecidableEq κ]

/-- What is bound stays bound. -/
theorem find?_bindAll_isSome {b : Bindings κ α} {key : κ} (h : (b.find? key).isSome = true)
    (pairs : List (κ × α)) : ((b.bindAll pairs).find? key).isSome = true := by
  rw [find?_bindAll, Option.isSome_or, h, Bool.or_true]

end Bindings

/-! ## Annotators with and without a blacklist -/

namespace Annotator

/-- The annotator with no blacklist at all. -/
def withoutBlacklist (a : Annotator) : Annotator := { a with scope := a.scope.withoutBlacklist }

/-- The request leaves the blacklist as it is. -/
def Request.KeepsBlacklist : Request → Prop
  | .change (.blacklist _) => False
  | .change (.options o) => o.blacklist? = none
  | _ => True

/-- The request is for an expression. -/
def Request.AsksExpression : Request → Prop
  | .annotate _ => True
  | .signature _ => True
  | _ => False

variable (g : TypeGraph)

/-- Asked the same, the annotators give the same answer, report the same messages, each to its own
sink, and have then visited the same literals. -/
structure SameAnswer (a b : Annotator) (request : Request) : Prop where
  answer : (a.answer g request).1 = (b.answer g request).1
  messages : ∃ log, (a.answer g request).2.sink = a.sink.receive log ∧
    (b.answer g request).2.sink = b.sink.receive log
  visited : (a.answer g request).2.visited = (b.answer g request).2.visited

/-- The annotators have visited the same literals and are as deep, and `b` differs from `a` only by
having no blacklist, and perhaps in its sink. The blacklist of `a` hits nothing. -/
structure AlikeButBlacklist (a b : Annotator) : Prop where
  spared : g.Spared a.scope
  scope : b.scope = a.scope.withoutBlacklist
  visited : b.visited = a.visited
  depth : b.depth = a.depth

/-- Annotators that have visited the same and are as deep answer alike where they perform the same
walk. -/
theorem sameAnswer_of_perform {a b : Annotator} {request : Request} {walk : Walk Reply}
    (ha : a.answer g request = a.perform walk) (hb : b.answer g request = b.perform walk)
    (hvisited : b.visited = a.visited) (hdepth : b.depth = a.depth) :
    SameAnswer g a b request := by
  have hstart : b.start = a.start := by rw [start, start, hvisited, hdepth]
  rw [perform_eq] at ha hb
  rw [hstart] at hb
  refine ⟨?_, ⟨(walk.after a.start).log, ?_, ?_⟩, ?_⟩
  · rw [ha, hb]
  · rw [ha, keep]
  · rw [hb, keep]
  · rw [ha, hb, keep, keep]

/-- Only changes change the scope. -/
theorem scope_answer (a : Annotator) {request : Request} (h : ∀ c, request ≠ .change c) :
    (a.answer g request).2.scope = a.scope := by
  cases request with
  | name s => rfl
  | change c => exact (h c rfl).elim
  | _ => exact perform_scope a _

namespace AlikeButBlacklist

variable {g} {a b : Annotator} (h : AlikeButBlacklist g a b) {request : Request}

include h

theorem sameAnswer (hrequest : request.AsksExpression) : SameAnswer g a b request := by
  cases request with
  | annotate t =>
    refine sameAnswer_of_perform g rfl ?_ h.visited h.depth
    rw [answer, h.scope, ← h.spared.annotate]
  | signature signature =>
    refine sameAnswer_of_perform g rfl ?_ h.visited h.depth
    rw [answer, h.scope, ← h.spared.annotateSignature]
  | _ => cases hrequest

/-- Unless it changes anything, a request leaves the annotators alike if it leaves them with the
same literals visited. -/
theorem answer_of_visited (hrequest : ∀ c, request ≠ .change c)
    (hvisited : (b.answer g request).2.visited = (a.answer g request).2.visited) :
    AlikeButBlacklist g (a.answer g request).2 (b.answer g request).2 where
  spared := by
    rw [scope_answer g a hrequest]
    exact h.spared
  scope := by
    rw [scope_answer g a hrequest, scope_answer g b hrequest]
    exact h.scope
  visited := hvisited
  depth := by rw [depth_answer, depth_answer, h.depth]

/-- A change leaves the annotators alike, unless it sets a blacklist. -/
theorem change {c : Change} (hc : (Request.change c).KeepsBlacklist) :
    AlikeButBlacklist g (a.change c) (b.change c) := by
  obtain ⟨hspared, hscope, hvisited, hdepth⟩ := h
  cases c with
  | blacklist files => cases hc
  | options o =>
    have hnone : o.blacklist? = none := hc
    refine ⟨?_, ?_, hvisited, hdepth⟩
    · simpa [Annotator.change, hnone] using hspared
    · simp [Annotator.change, hnone, hscope, Scope.withoutBlacklist]
  | aliases pairs =>
    refine ⟨fun t r s hr hk hs files hfiles => ?_, ?_, hvisited, hdepth⟩
    · exact (hspared t r s hr hk hs files hfiles).imp_left fun halias =>
        Bindings.find?_bindAll_isSome halias pairs
    · simp [Annotator.change, hscope, Scope.withoutBlacklist]
  | sink sink => exact ⟨hspared, hscope, hvisited, hdepth⟩

/-- **Steps.** No request parts the annotators, unless it sets a blacklist. -/
theorem answer (hrequest : request.KeepsBlacklist) :
    AlikeButBlacklist g (a.answer g request).2 (b.answer g request).2 := by
  cases request with
  | annotate t =>
    have hannotate : (Request.annotate t).AsksExpression := trivial
    exact h.answer_of_visited (by simp) (h.sameAnswer hannotate).visited.symm
  | signature signature =>
    have hsignature : (Request.signature signature).AsksExpression := trivial
    exact h.answer_of_visited (by simp) (h.sameAnswer hsignature).visited.symm
  | isSuppressed s =>
    -- The answers may differ, and so may the messages, but nothing is visited.
    refine h.answer_of_visited (by simp) ?_
    rw [answer_isSuppressed, answer_isSuppressed, performFlat_map, performFlat_map, performFlat,
      performFlat]
    dsimp only
    rw [Annotate.visited_after_isSuppressed, Annotate.visited_after_isSuppressed, h.visited]
  | name s => exact h
  | change c => exact h.change hrequest

/-- Annotators with the same sink keep it so, unless one is asked whether a symbol is suppressed. -/
theorem sink_answer (hsink : b.sink = a.sink) (hrequest : ∀ s, request ≠ .isSuppressed s) :
    (b.answer g request).2.sink = (a.answer g request).2.sink := by
  have hsame (hasks : request.AsksExpression) :
      (b.answer g request).2.sink = (a.answer g request).2.sink := by
    obtain ⟨log, ha, hb⟩ := (h.sameAnswer hasks).messages
    rw [ha, hb, hsink]
  cases request with
  | annotate t => exact hsame trivial
  | signature signature => exact hsame trivial
  | isSuppressed s => exact (hrequest s rfl).elim
  | name s => exact hsink
  | change c =>
    cases c with
    | sink sink => rfl
    | _ => exact hsink

variable {requests : List Request}

/-- **Runs.** Along a run that sets no blacklist the annotators stay alike. -/
theorem run (hrequests : ∀ request ∈ requests, request.KeepsBlacklist) :
    AlikeButBlacklist g (a.run g requests) (b.run g requests) := by
  induction requests generalizing a b with
  | nil => exact h
  | cons request rest ih =>
    obtain ⟨hrequest, hrest⟩ := List.forall_mem_cons.1 hrequests
    exact ih (h.answer hrequest) hrest

theorem sink_run (hsink : b.sink = a.sink)
    (hrequests : ∀ request ∈ requests, request.KeepsBlacklist)
    (hsuppressed : ∀ s, .isSuppressed s ∉ requests) :
    (b.run g requests).sink = (a.run g requests).sink := by
  induction requests generalizing a b with
  | nil => exact hsink
  | cons request rest ih =>
    obtain ⟨hrequest, hrest⟩ := List.forall_mem_cons.1 hrequests
    have hne (s : SymbolId) : request ≠ .isSuppressed s := fun heq =>
      hsuppressed s (heq ▸ List.mem_cons_self)
    exact ih (h.answer hrequest) (h.sink_answer hsink hne) hrest
      fun s hs => hsuppressed s (List.mem_cons_of_mem _ hs)

end AlikeButBlacklist

end Annotator

/-- **Blacklists that hit nothing.** Let each object type with a symbol have one that has an alias,
or is declared in a file off the blacklist. Take an annotator with the blacklist and one without,
alike in all else, and let both answer the same requests, of which none sets a blacklist. Asked for
an expression after that, both give the same answer, report the same messages and have visited the
same literals.

Their sinks are the same by then too, if neither was asked whether a symbol is suppressed. -/
theorem blacklist_inert {g : TypeGraph} {a : Annotator} (hspared : g.Spared a.scope)
    {requests : List Annotator.Request}
    (hrequests : ∀ request ∈ requests, request.KeepsBlacklist) :
    (∀ request, request.AsksExpression →
      Annotator.SameAnswer g (a.run g requests) (a.withoutBlacklist.run g requests) request) ∧
    ((∀ s, .isSuppressed s ∉ requests) →
      (a.withoutBlacklist.run g requests).sink = (a.run g requests).sink) := by
  have halike : Annotator.AlikeButBlacklist g a a.withoutBlacklist := ⟨hspared, rfl, rfl, rfl⟩
  exact ⟨fun request hrequest => (halike.run hrequests).sameAnswer hrequest,
    fun hsuppressed => halike.sink_run rfl hrequests hsuppressed⟩

/-- A union of a class that two files declare, a literal, and an interface that only the one of the
two files declares. -/
def mergedWidget : TypeGraph where
  types := #[
    { flags := .ofList [TypeFlag.union], constituents := [⟨1⟩, ⟨2⟩, ⟨3⟩] },
    .object (.ofList [ObjectFlag.classType]) (some ⟨0⟩),
    .object (.ofList [ObjectFlag.anonymous]) (some ⟨1⟩),
    .object (.ofList [ObjectFlag.interface]) (some ⟨2⟩)]
  symbols := #[
    { name := "Widget", flags := .ofList [SymbolFlag.classType],
      declarations := [{ file := "vendor.d.ts" }, { file := "widget.ts" }] },
    { name := Symbol.literalName, flags := .ofList [SymbolFlag.typeLiteral],
      declarations := [{ file := "widget.ts" }] },
    { name := "Gadget", flags := .ofList [SymbolFlag.interface],
      declarations := [{ file := "vendor.d.ts" }] }]

/-- Suppresses what the vendor's file declares, but has an alias for the interface. -/
def vendorless : Annotator where
  scope := {
    anchor := .nowhere
    blacklist? := some ["vendor.d.ts"]
    aliases := ⟨[(⟨2⟩, "Tool")]⟩ }
  sink := .fresh

/-- The literal is annotated, a symbol is asked about that only a blacklist has looked up, and an
alias is added. -/
def vendorRequests : List Annotator.Request :=
  [.annotate ⟨2⟩, .isSuppressed ⟨7⟩, .change (.aliases [(⟨0⟩, "Part")])]

theorem mergedWidget_inert :
    Annotator.SameAnswer mergedWidget (vendorless.run mergedWidget vendorRequests)
        (vendorless.withoutBlacklist.run mergedWidget vendorRequests) (.annotate ⟨0⟩) ∧
      ((annotate mergedWidget vendorless.scope ⟨0⟩).outcome {}).map TypeExpr.render =
        .ok "(!Widget|!Object|!Tool)" := by
  have hspared : mergedWidget.Spared vendorless.scope := by
    have h : ∀ r ∈ mergedWidget.types.toList, ∀ s ∈ r.symbol?,
        s = ⟨0⟩ ∨ s = ⟨1⟩ ∨ s = ⟨2⟩ := by decide
    rintro t r s hr - hs _ ⟨⟩
    rcases h r (TypeGraph.mem_types_of_type? hr) s hs with rfl | rfl | rfl
    · exact .inr ⟨_, rfl, { file := "widget.ts" }, by decide, by decide⟩
    · exact .inr ⟨_, rfl, { file := "widget.ts" }, by decide, by decide⟩
    · exact .inl rfl
  have hrequests : ∀ request ∈ vendorRequests, request.KeepsBlacklist := by
    simp [vendorRequests, Annotator.Request.KeepsBlacklist]
  exact ⟨(blacklist_inert hspared hrequests).1 _ trivial, by rfl⟩

end ClosureTypes
