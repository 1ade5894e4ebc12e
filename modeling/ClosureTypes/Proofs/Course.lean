import ClosureTypes.Proofs.History
import ClosureTypes.Proofs.Plan

/-!
# The course of a walk

The outcome of a walk does not tell what has happened on the way. Its course does: it lists the
types that the walk comes to, in order, each with the levels that are left for it and with what has
been done by then.

1. `Walk.Local.messages_after`: walks only add to the messages.
2. `Annotate.visited_after`: what a walk adds to the visited literals is, one by one, what is
   expanded in its course.
3. `Annotate.leads_of_mem_course`: wherever a walk comes to, what had been visited before it still
   is.
4. `Annotate.outcome_of_mem_course`: a fault at a type that a walk comes to ends the whole walk.
-/

namespace ClosureTypes

/-! ## What a walk adds -/

namespace Walk

variable {α β : Type} {S : TypeId → Prop} {x : Walk α} {f : α → Walk β} {p : Progress}

/-- The messages that a walk reports, after those of earlier walks. -/
def reports (x : Walk α) (p : Progress) : List String :=
  (x.after p).log.messages.drop p.log.messages.length

theorem Local.extends (hx : x.Local S) (p : Progress) :
    ∃ added log, (∀ u ∈ added, S u) ∧ p.Extends (x.after p) added log := by
  obtain ⟨-, added, log, hadded, h, -⟩ := hx p p fun _ _ => Iff.rfl
  exact ⟨added, log, hadded, h⟩

theorem Local.messages_after (hx : x.Local S) (p : Progress) :
    (x.after p).log.messages = p.log.messages ++ x.reports p := by
  obtain ⟨added, log, -, h⟩ := hx.extends p
  rw [reports, h.messages, List.drop_left]

theorem reports_eq_nil (h : (x.after p).log = p.log) : x.reports p = [] := by
  rw [reports, h, List.drop_length]

@[simp] theorem reports_pure (a : α) (p : Progress) : (pure a : Walk α).reports p = [] :=
  reports_eq_nil rfl

@[simp] theorem reports_throw (e : GraphFault) (p : Progress) :
    (throw e : Walk α).reports p = [] :=
  reports_eq_nil rfl

@[simp] theorem reports_warn (message : String) (p : Progress) :
    (warn message).reports p = [message] := by
  simp [reports]

@[simp] theorem reports_degrade (message : String) (p : Progress) :
    (degrade message).reports p = [message] :=
  reports_warn message p

@[simp] theorem reports_enter (t : TypeId) (p : Progress) : (enter t).reports p = [] := by
  by_cases h : t ∈ p.visited
  · exact reports_eq_nil (by rw [after_enter_of_mem h])
  · exact reports_eq_nil (by rw [after_enter_of_not_mem h])

theorem reports_bind_of_error {e : GraphFault} (h : x.outcome p = .error e) :
    (x >>= f).reports p = x.reports p := by
  rw [reports, after_bind_of_error h, reports]

theorem Local.reports_bind_of_ok (hx : x.Local S) (hf : ∀ a, x.Returns a → (f a).Local S) {a : α}
    (h : x.outcome p = .ok a) :
    (x >>= f).reports p = x.reports p ++ (f a).reports (x.after p) := by
  rw [reports, after_bind_of_ok h, (hf a ⟨p, h⟩).messages_after, hx.messages_after,
    List.append_assoc, List.drop_left]

/-- What a walk in two parts reports, the parts report. -/
theorem Local.mem_reports_bind (hx : x.Local S) (hf : ∀ a, x.Returns a → (f a).Local S)
    {message : String} :
    message ∈ (x >>= f).reports p ↔
      message ∈ x.reports p ∨ ∃ a, x.outcome p = .ok a ∧ message ∈ (f a).reports (x.after p) := by
  cases h : x.outcome p with
  | error e => simp [reports_bind_of_error h]
  | ok a => simp [hx.reports_bind_of_ok hf h]

end Walk

section

variable (g : TypeGraph) (scope : Scope)

theorem annotateWithin_local (n : Nat) (t : TypeId) :
    (annotateWithin g scope n t).Local fun u => g.isLiteral u = true :=
  (Walk.local_congruence _ _).annotateWithin n t

end

/-! ## Courses -/

/-- A type that a walk comes to. -/
structure Encounter where
  /-- How many levels are left for the expression of the type. -/
  levels : Nat
  type : TypeId
  /-- What has been done by then. -/
  progress : Progress

section

variable (recur : TypeId → Walk TypeExpr) (below : TypeId → Progress → List Encounter)

/-- The course of filling a slot, where `below` gives the course of expressing a type. -/
def Slot.course (p : Progress) : Slot → List Encounter
  | type t => below t p
  | untyped _ => []
  | missing _ => []

/-- The course of filling slots from left to right, as far as there is no fault. -/
def Slot.courses : List Slot → Progress → List Encounter
  | [], _ => []
  | s :: rest, p =>
    s.course below p ++
      match (s.run recur).outcome p with
      | .ok _ => courses rest ((s.run recur).after p)
      | .error _ => []

/-- From where, and for what layout, a plan fills slots, if it comes to that. -/
def Plan.start? (p : Progress) : Plan → Option (Progress × Layout)
  | stop _ => none
  | fill layout => some (p, layout)
  | once t layout =>
    if h : t ∈ p.visited then none else some ({ p with visited := p.visited.add t h }, layout)

/-- The literal that the plan expands, if there is one and it has not been expanded before. -/
def Plan.expansion? (p : Progress) : Plan → Option TypeId
  | stop _ => none
  | fill _ => none
  | once t _ => if t ∈ p.visited then none else some t

/-- The course of carrying out a plan. -/
def Plan.course (p : Progress) (plan : Plan) : List Encounter :=
  match plan.start? p with
  | none => []
  | some (q, layout) => Slot.courses recur below layout.slots q

end

/-- The course of annotating `t` with `n` levels; the first that it comes to is `t` itself. -/
def Annotate.course (g : TypeGraph) (scope : Scope) : Nat → TypeId → Progress → List Encounter
  | 0, t, p => [⟨0, t, p⟩]
  | n + 1, t, p =>
    ⟨n + 1, t, p⟩ ::
      (plan g scope t).course (annotateWithin g scope n) (course g scope n) p

/-- The literal that is expanded at an encounter, if one is. -/
def Encounter.expansion? (g : TypeGraph) (scope : Scope) (m : Encounter) : Option TypeId :=
  if m.levels = 0 then none else (Annotate.plan g scope m.type).expansion? m.progress

/-- The literals that are expanded in a course, in order. -/
def expansions (g : TypeGraph) (scope : Scope) (course : List Encounter) : List TypeId :=
  course.filterMap (Encounter.expansion? g scope)

/-! ## Plans and their courses -/

section

variable {recur : TypeId → Walk TypeExpr}

@[simp] theorem Frame.visited_after_finish (frame : Frame) (es : List TypeExpr) (p : Progress) :
    ((frame.finish es).after p).visited = p.visited := by
  unfold Frame.finish
  cases (frame.assemble es).1 <;> rfl

@[simp] theorem Frame.outcome_finish (frame : Frame) (es : List TypeExpr) (p : Progress) :
    (frame.finish es).outcome p = .ok (frame.assemble es).2 := by
  unfold Frame.finish
  cases (frame.assemble es).1 <;> rfl

@[simp] theorem Frame.reports_finish (frame : Frame) (es : List TypeExpr) (p : Progress) :
    (frame.finish es).reports p = (frame.assemble es).1.toList := by
  unfold Frame.finish
  cases (frame.assemble es).1 with
  | none => exact Walk.reports_pure _ p
  | some message => exact Walk.reports_warn message p

theorem Layout.visited_after_run (layout : Layout) (p : Progress) :
    ((layout.run recur).after p).visited =
      ((layout.slots.mapM (Slot.run recur)).after p).visited := by
  rw [Layout.run, Walk.after_bind]
  cases (layout.slots.mapM (Slot.run recur)).outcome p with
  | error e => rfl
  | ok es => exact layout.frame.visited_after_finish es _

theorem Plan.start?_eq_none {plan : Plan} {p : Progress} (h : plan.start? p = none) :
    (∃ e, plan = .stop e) ∨ ∃ t layout, plan = .once t layout ∧ t ∈ p.visited := by
  cases plan with
  | stop e => exact .inl ⟨e, rfl⟩
  | fill layout => cases h
  | once t layout =>
    refine .inr ⟨t, layout, rfl, ?_⟩
    by_contra hnot
    simp [start?, hnot] at h

theorem Plan.start?_eq_some {plan : Plan} {p q : Progress} {layout : Layout}
    (h : plan.start? p = some (q, layout)) :
    (plan = .fill layout ∧ q = p) ∨ ∃ t, ∃ ht : t ∉ p.visited,
      plan = .once t layout ∧ q = { p with visited := p.visited.add t ht } := by
  cases plan with
  | stop e => cases h
  | fill layout =>
    cases h
    exact .inl ⟨rfl, rfl⟩
  | once t layout =>
    by_cases ht : t ∈ p.visited
    · simp [start?, ht] at h
    · rw [start?, dif_neg ht] at h
      cases h
      exact .inr ⟨t, ht, rfl, rfl⟩

theorem Plan.expansion?_of_start?_eq_none {plan : Plan} {p : Progress}
    (h : plan.start? p = none) : plan.expansion? p = none := by
  rcases start?_eq_none h with ⟨e, rfl⟩ | ⟨t, layout, rfl, ht⟩
  · rfl
  · exact if_pos ht

/-- A plan that does not come to its slots does nothing. -/
theorem Plan.after_run_of_start?_eq_none {plan : Plan} {p : Progress} (h : plan.start? p = none) :
    (plan.run recur).after p = p := by
  rcases start?_eq_none h with ⟨e, rfl⟩ | ⟨t, layout, rfl, ht⟩
  · rfl
  · rw [run, Walk.after_bind_of_ok (Walk.outcome_enter t p), Walk.after_enter_of_mem ht]
    simp [ht]

section

variable {plan : Plan} {p q : Progress} {layout : Layout} (h : plan.start? p = some (q, layout))

include h

theorem Plan.visited_of_start?_eq_some :
    q.visited.toList = (plan.expansion? p).toList ++ p.visited.toList := by
  rcases start?_eq_some h with ⟨rfl, rfl⟩ | ⟨t, ht, rfl, rfl⟩
  · rfl
  · simp [expansion?, ht]

theorem Plan.log_of_start?_eq_some : q.log = p.log := by
  rcases start?_eq_some h with ⟨rfl, rfl⟩ | ⟨t, ht, rfl, rfl⟩ <;> rfl

theorem Plan.mem_layout?_of_start?_eq_some : layout ∈ plan.layout? := by
  rcases start?_eq_some h with ⟨rfl, rfl⟩ | ⟨t, ht, rfl, rfl⟩ <;> rfl

theorem Plan.run_of_start?_eq_some :
    (plan.run recur).outcome p = (layout.run recur).outcome q ∧
      (plan.run recur).after p = (layout.run recur).after q := by
  rcases start?_eq_some h with ⟨rfl, rfl⟩ | ⟨t, ht, rfl, rfl⟩
  · exact ⟨rfl, rfl⟩
  · rw [run, Walk.outcome_bind_of_ok (Walk.outcome_enter t p),
      Walk.after_bind_of_ok (Walk.outcome_enter t p), Walk.after_enter_of_not_mem ht]
    simp [ht]

end

end

/-! ## What is expanded on the way -/

section

variable {g : TypeGraph} {scope : Scope}

theorem expansions_append (course course' : List Encounter) :
    expansions g scope (course ++ course') =
      expansions g scope course ++ expansions g scope course' :=
  List.filterMap_append

/-- Filling slots expands the literals that its course says, if expressing types does. -/
theorem Slot.visited_after_mapM {recur : TypeId → Walk TypeExpr}
    {below : TypeId → Progress → List Encounter}
    (hbelow : ∀ u q, ((recur u).after q).visited.toList =
      (expansions g scope (below u q)).reverse ++ q.visited.toList)
    (slots : List Slot) (p : Progress) :
    ((slots.mapM (Slot.run recur)).after p).visited.toList =
      (expansions g scope (Slot.courses recur below slots p)).reverse ++ p.visited.toList := by
  induction slots generalizing p with
  | nil => rfl
  | cons s rest ih =>
    have hs : ((s.run recur).after p).visited.toList =
        (expansions g scope (s.course below p)).reverse ++ p.visited.toList := by
      cases s with
      | type u => exact hbelow u p
      | untyped message => rfl
      | missing s => rfl
    rw [List.mapM_cons, Slot.courses, expansions_append]
    cases he : (s.run recur).outcome p with
    | error e =>
      rw [Walk.after_bind_of_error he, hs]
      simp [expansions]
    | ok e =>
      have hrest : ((rest.mapM (Slot.run recur) >>= fun es => pure (e :: es)).after
          ((s.run recur).after p)).visited.toList =
          ((rest.mapM (Slot.run recur)).after ((s.run recur).after p)).visited.toList := by
        rw [Walk.after_bind]
        cases (rest.mapM (Slot.run recur)).outcome ((s.run recur).after p) <;> rfl
      rw [Walk.after_bind_of_ok he, hrest, ih, hs, List.reverse_append, List.append_assoc]

/-- **Expansions.** What has been visited by the end of a walk for a type is what had been before,
and what is expanded in its course. -/
theorem Annotate.visited_after (n : Nat) (t : TypeId) (p : Progress) :
    ((annotateWithin g scope n t).after p).visited.toList =
      (expansions g scope (course g scope n t p)).reverse ++ p.visited.toList := by
  induction n generalizing t p with
  | zero => rfl
  | succ n ih =>
    rw [annotateWithin_eq_run, course]
    have hhead : expansions g scope [⟨n + 1, t, p⟩] = ((plan g scope t).expansion? p).toList := by
      unfold expansions Encounter.expansion?
      cases h : (plan g scope t).expansion? p <;> simp [h]
    rw [← List.singleton_append, expansions_append, hhead, Plan.course]
    cases hstart : (plan g scope t).start? p with
    | none =>
      rw [Plan.after_run_of_start?_eq_none hstart, Plan.expansion?_of_start?_eq_none hstart]
      rfl
    | some start =>
      obtain ⟨q, layout⟩ := start
      rw [(Plan.run_of_start?_eq_some hstart).2, Layout.visited_after_run,
        Slot.visited_after_mapM ih, Plan.visited_of_start?_eq_some hstart]
      cases (plan g scope t).expansion? p <;> simp

/-- Only literals are expanded. -/
theorem isLiteral_of_mem_expansions {course : List Encounter} {t : TypeId}
    (h : t ∈ expansions g scope course) : g.isLiteral t = true := by
  obtain ⟨m, -, hm⟩ := List.mem_filterMap.1 h
  unfold Encounter.expansion? at hm
  split_ifs at hm
  cases hplan : Annotate.plan g scope m.type with
  | stop e => simp [hplan, Plan.expansion?] at hm
  | fill layout => simp [hplan, Plan.expansion?] at hm
  | once u layout =>
    obtain ⟨rfl, hlit⟩ := Annotate.plan_eq_once hplan
    rw [hplan, Plan.expansion?, Option.ite_none_left_eq_some] at hm
    exact Option.some.inj hm.2 ▸ hlit

/-! ## What has been done by then -/

/-- On the way from `p` to `q` nothing but literals has been expanded, and nothing forgotten. -/
def Progress.Leads (g : TypeGraph) (p q : Progress) : Prop :=
  ∃ added, (∀ u ∈ added, g.isLiteral u = true) ∧ q.visited.toList = added ++ p.visited.toList

namespace Progress.Leads

variable {p q r : Progress}

theorem refl (p : Progress) : p.Leads g p := ⟨[], by simp, rfl⟩

theorem trans (h : p.Leads g q) (h' : q.Leads g r) : p.Leads g r := by
  obtain ⟨added, hadded, hq⟩ := h
  obtain ⟨added', hadded', hr⟩ := h'
  refine ⟨added' ++ added, fun u hu => ?_, by rw [hr, hq, List.append_assoc]⟩
  exact (List.mem_append.1 hu).elim (hadded' u) (hadded u)

theorem mem_visited (h : p.Leads g q) {u : TypeId} (hu : u ∈ p.visited) : u ∈ q.visited := by
  obtain ⟨added, -, hq⟩ := h
  rw [Visited.mem_def, hq]
  exact List.mem_append_right _ hu

theorem isLiteral (h : p.Leads g q) (hp : ∀ u ∈ p.visited, g.isLiteral u = true) :
    ∀ u ∈ q.visited, g.isLiteral u = true := by
  obtain ⟨added, hadded, hq⟩ := h
  intro u hu
  rw [Visited.mem_def, hq] at hu
  exact (List.mem_append.1 hu).elim (hadded u) (hp u)

end Progress.Leads

theorem Walk.Local.leads {α : Type} {x : Walk α} (hx : x.Local fun u => g.isLiteral u = true)
    (p : Progress) : p.Leads g (x.after p) := by
  obtain ⟨added, log, hadded, h⟩ := hx.extends p
  exact ⟨added, hadded, h.visited⟩

theorem Slot.run_local {recur : TypeId → Walk TypeExpr}
    (hrec : ∀ u, (recur u).Local fun u => g.isLiteral u = true) (s : Slot) :
    (s.run recur).Local fun u => g.isLiteral u = true := by
  have hcongruence := Walk.local_congruence (fun u => g.isLiteral u = true) fun _ => True
  cases s with
  | type u => exact hrec u
  | untyped message => exact hcongruence.compositional.degrade (hcongruence.warn message)
  | missing s => exact hcongruence.throw trivial

theorem Slot.mapM_local {recur : TypeId → Walk TypeExpr}
    (hrec : ∀ u, (recur u).Local fun u => g.isLiteral u = true) (slots : List Slot) :
    (slots.mapM (Slot.run recur)).Local fun u => g.isLiteral u = true := by
  have hcongruence := Walk.local_congruence (fun u => g.isLiteral u = true) fun _ => True
  exact @Walk.Compositional.mapM _ hcongruence.compositional _ _ slots (Slot.run recur)
    (Slot.run recur) fun s _ => Slot.run_local hrec s

theorem Slot.leads_of_mem_courses {recur : TypeId → Walk TypeExpr}
    {below : TypeId → Progress → List Encounter}
    (hrec : ∀ u, (recur u).Local fun u => g.isLiteral u = true)
    (hbelow : ∀ u q, ∀ m ∈ below u q, q.Leads g m.progress) {slots : List Slot} {p : Progress}
    {m : Encounter} (hm : m ∈ Slot.courses recur below slots p) : p.Leads g m.progress := by
  induction slots generalizing p with
  | nil => cases hm
  | cons s rest ih =>
    rw [Slot.courses, List.mem_append] at hm
    rcases hm with hm | hm
    · cases s with
      | type u => exact hbelow u p m hm
      | untyped message => cases hm
      | missing s => cases hm
    · split at hm
      · exact ((Slot.run_local hrec s).leads p).trans (ih hm)
      · cases hm

/-- Wherever a walk comes to, what had been visited before it still is. -/
theorem Annotate.leads_of_mem_course {n : Nat} {t : TypeId} {p : Progress} {m : Encounter}
    (hm : m ∈ course g scope n t p) : p.Leads g m.progress := by
  induction n generalizing t p m with
  | zero =>
    obtain rfl := List.mem_singleton.1 hm
    exact .refl p
  | succ n ih =>
    rcases List.mem_cons.1 hm with rfl | hm
    · exact .refl p
    · unfold Plan.course at hm
      split at hm
      · cases hm
      · next q layout hstart =>
        have hq : p.Leads g q := by
          refine ⟨_, fun u hu => ?_, Plan.visited_of_start?_eq_some hstart⟩
          have hexpanded : u ∈ expansions g scope [⟨n + 1, t, p⟩] := by
            simpa [expansions, Encounter.expansion?] using hu
          exact isLiteral_of_mem_expansions hexpanded
        exact hq.trans (Slot.leads_of_mem_courses (annotateWithin_local g scope n)
          (fun u q m => ih) hm)

/-! ## Faults on the way -/

theorem Slot.outcome_of_mem_courses {recur : TypeId → Walk TypeExpr}
    {below : TypeId → Progress → List Encounter} {slots : List Slot} {p : Progress} {m : Encounter}
    {e : GraphFault} (hm : m ∈ Slot.courses recur below slots p)
    (hbelow : ∀ u q, m ∈ below u q → (recur u).outcome q = .error e) :
    (slots.mapM (Slot.run recur)).outcome p = .error e := by
  induction slots generalizing p with
  | nil => cases hm
  | cons s rest ih =>
    rw [Slot.courses, List.mem_append] at hm
    rw [List.mapM_cons]
    rcases hm with hm | hm
    · cases s with
      | type u => exact Walk.outcome_bind_of_error (hbelow u p hm) _
      | untyped message => cases hm
      | missing s => cases hm
    · split at hm
      · next e' he' =>
        rw [Walk.outcome_bind_of_ok he']
        exact Walk.outcome_bind_of_error (ih hm) _
      · cases hm

/-- A fault at a type that a walk comes to ends the whole walk. -/
theorem Annotate.outcome_of_mem_course {n : Nat} {t : TypeId} {p : Progress} {m : Encounter}
    {e : GraphFault} (hm : m ∈ course g scope n t p)
    (he : (annotateWithin g scope m.levels m.type).outcome m.progress = .error e) :
    (annotateWithin g scope n t).outcome p = .error e := by
  induction n generalizing t p with
  | zero =>
    obtain rfl := List.mem_singleton.1 hm
    exact he
  | succ n ih =>
    rcases List.mem_cons.1 hm with rfl | hm
    · exact he
    · unfold Plan.course at hm
      split at hm
      · cases hm
      · next q layout hstart =>
        rw [annotateWithin_eq_run, (Plan.run_of_start?_eq_some hstart).1]
        exact Walk.outcome_bind_of_error (Slot.outcome_of_mem_courses hm fun u q => ih) _

end

end ClosureTypes
