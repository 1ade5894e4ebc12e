import ClosureTypes.Proofs.Course
import ClosureTypes.Proofs.Layouts
import ClosureTypes.Proofs.Level
import ClosureTypes.Proofs.Names

/-!
# No silent loss

Some types are unknown by their nature: those that admit every value, the elements of tuples, and
what constructors return. Suppressed types are meant to be unknown. Where a graph and a scope have
none of these, an unknown type in an annotation comes with a reason: a message, or a literal that
has been expanded before.

1. `Annotate.Possible.certain`: a level adds no unknown type without a message.
2. `Annotate.certain_or_explained`: nor do any number of levels, unless they come to a visited
   literal.
3. `no_silent_loss`: the same for the written annotation.
-/

namespace ClosureTypes

/-! ## Certain texts -/

/-- The text does not write the unknown type. -/
def Certain (text : String) : Prop := '?' ∉ text.toList

instance (text : String) : Decidable (Certain text) :=
  inferInstanceAs (Decidable ('?' ∉ text.toList))

namespace Certain

theorem append {a b : String} (ha : Certain a) (hb : Certain b) : Certain (a ++ b) := by
  rw [Certain, String.toList_append, List.mem_append]
  exact not_or.2 ⟨ha, hb⟩

theorem within {before text after : String} (hbefore : Certain before) (h : Certain text)
    (hafter : Certain after) : Certain (before ++ text ++ after) :=
  (hbefore.append h).append hafter

theorem intercalate {separator : String} (hsep : Certain separator) {texts : List String}
    (h : ∀ text ∈ texts, Certain text) : Certain (separator.intercalate texts) :=
  TypeExpr.intercalate_induction (by decide) (fun _ _ => append) hsep h

end Certain

namespace TypeExpr

theorem certain_primitive (p : Primitive) : Certain (primitive p).render := by
  cases p <;> decide

theorem certain_object : Certain object.render := by decide

theorem certain_renderAll {es : List TypeExpr} (h : ∀ e ∈ es, Certain e.render) :
    ∀ text ∈ renderAll es, Certain text := by
  rw [renderAll_eq_map]
  exact List.forall_mem_map.2 h

theorem certain_union {es : List TypeExpr} (h : ∀ e ∈ es, Certain e.render) :
    Certain (union es).render := by
  rw [render]
  exact .within (by decide) (.intercalate (by decide) (certain_renderAll h)) (by decide)

theorem certain_apply {head : TypeExpr} {es : List TypeExpr} (hhead : Certain head.render)
    (h : ∀ e ∈ es, Certain e.render) : Certain (apply head es).render := by
  rw [render]
  exact .within (hhead.append (by decide)) (.intercalate (by decide) (certain_renderAll h))
    (by decide)

theorem certain_function {es : List TypeExpr} {result? : Option TypeExpr}
    (h : ∀ e ∈ es, Certain e.render) (hresult : ∀ e ∈ result?, Certain e.render) :
    Certain (function es result?).render := by
  have hall : Certain (", ".intercalate (renderAll es)) :=
    .intercalate (by decide) (certain_renderAll h)
  rw [render]
  refine .append (.within (by decide) hall (by decide)) ?_
  cases result? with
  | none => decide
  | some e => exact .append (by decide) (hresult e rfl)

theorem certain_record {fields : List (String × TypeExpr)}
    (h : ∀ f ∈ fields, Certain f.1 ∧ Certain f.2.render) : Certain (record fields).render := by
  rw [render, renderFields_eq_map]
  refine .within (by decide) (.intercalate (by decide) ?_) (by decide)
  exact List.forall_mem_map.2 fun f hf => .within (h f hf).1 (by decide) (h f hf).2

theorem certain_map (key : IndexKind) {e : TypeExpr} (h : Certain e.render) :
    Certain (map key e).render := by
  rw [render]
  exact .within (by cases key <;> decide) h (by decide)

end TypeExpr

/-! ## Levels -/

/-- Nothing in the graph is unknown by its nature, nothing is suppressed, and no name could be taken
for an unknown type. -/
structure Expressible (g : TypeGraph) (scope : Scope) : Prop where
  /-- No type admits every value. -/
  not_any : ∀ t r, g.type? t = some r → Kind.ofFlags? r.flags ≠ some .any
  not_tuple : ∀ t r, g.type? t = some r → r.objectFlags.has .tuple = false
  not_constructed : ∀ t r, g.type? t = some r → r.constructSignatures = []
  not_suppressed : scope.blacklist? = none
  names : NamesAre Certain g scope

theorem Kind.fixed?_eq_some {kind : Kind} {e : TypeExpr} (h : kind.fixed? = some e) :
    kind = .any ∨ ∃ p, e = .primitive p := by
  cases kind <;> simp [fixed?] at h ⊢ <;> simp [← h]

theorem Annotate.mapLayout_cases (r : TypeRecord) :
    (∃ u key, mapLayout r = ⟨[.type u], .map key⟩) ∨
      mapLayout r = ⟨[], .constant (some "unknown index key type") .unknownMap⟩ := by
  unfold mapLayout
  cases r.stringIndex? <;> cases r.numberIndex? <;> simp

/-- A level adds no unknown type without a message. -/
theorem Annotate.Possible.certain {g : TypeGraph} {scope : Scope} (hg : Expressible g scope)
    {t : TypeId} {r : TypeRecord} (hr : g.type? t = some r) {layout : Layout}
    (h : Possible g scope r layout) {es : List TypeExpr} (hlength : es.length = layout.slots.length)
    (hes : ∀ e ∈ es, Certain e.render) (hsilent : (layout.frame.assemble es).1 = none) :
    Certain (layout.frame.assemble es).2.render := by
  cases h with
  | @fixed kind e hkind he =>
    rcases Kind.fixed?_eq_some he with rfl | ⟨p, rfl⟩
    · exact absurd hkind (hg.not_any t r hr)
    · exact TypeExpr.certain_primitive p
  | note => cases hsilent
  | suppressed _ hlist => exact absurd hg.not_suppressed hlist
  | named s =>
    refine Certain.append (by decide) (hg.names.nameOf (fun _ _ ha hb => ?_) fun _ _ _ => by decide)
    exact ha.append (.append (by decide) hb)
  | @tuple target targetRecord htarget htuple =>
    rw [hg.not_tuple target targetRecord htarget] at htuple
    cases htuple
  | object => exact TypeExpr.certain_object
  | choice =>
    rw [Frame.assemble] at hsilent ⊢
    cases hchoice : TypeExpr.choice? es with
    | none => simp [hchoice] at hsilent
    | some e =>
      rcases TypeExpr.choice?_eq_some hchoice with he | ⟨ds, rfl, -, hds⟩
      · exact hes e he
      · exact TypeExpr.certain_union fun d hd => hes d (hds d hd)
  | application target =>
    -- There is a slot for the target, so the head is there.
    obtain ⟨head, rest, rfl⟩ := List.exists_cons_of_length_eq_add_one (hlength.trans rfl)
    obtain ⟨hhead, hrest⟩ := List.forall_mem_cons.1 hes
    show Certain (TypeExpr.render (if rest.isEmpty then head else .apply head rest))
    by_cases hnone : rest.isEmpty
    · rw [if_pos hnone]
      exact hhead
    · rw [if_neg hnone]
      exact TypeExpr.certain_apply hhead hrest
  | function signature =>
    exact TypeExpr.certain_function (fun e he => hes e (List.mem_of_mem_take he))
      fun e he => hes e (List.mem_of_getElem? he)
  | constructor h =>
    rw [hg.not_constructed t r hr] at h
    cases h
  | map =>
    rcases mapLayout_cases r with ⟨u, key, hlayout⟩ | hlayout
    · rw [hlayout] at hlength ⊢
      obtain ⟨value, rest, rfl⟩ := List.exists_cons_of_length_eq_add_one (hlength.trans rfl)
      exact TypeExpr.certain_map key (hes value List.mem_cons_self)
    · rw [hlayout] at hsilent
      cases hsilent
  | @record s sym hsym =>
    refine TypeExpr.certain_record fun f hf => ?_
    obtain ⟨hname, he⟩ := List.of_mem_zip hf
    obtain ⟨m, hm, hmname⟩ := List.mem_map.1 hname
    exact ⟨hmname ▸ hg.names.members s sym hsym m hm, hes f.2 he⟩
  | unhandled => cases hsilent

/-! ## Walks -/

/-- The type is a literal that has been expanded before, and there are levels left to see that. -/
def Encounter.Revisits (g : TypeGraph) (m : Encounter) : Prop :=
  0 < m.levels ∧ g.isLiteral m.type = true ∧ m.type ∈ m.progress.visited

/-- There is a reason for an unknown type: a message, or a literal that has been expanded before. -/
def Explained (g : TypeGraph) (messages : List String) (course : List Encounter) : Prop :=
  messages ≠ [] ∨ ∃ m ∈ course, m.Revisits g

theorem Explained.mono {g : TypeGraph} {messages messages' : List String}
    {course course' : List Encounter} (h : Explained g messages course)
    (hmessages : messages ⊆ messages') (hcourse : course ⊆ course') :
    Explained g messages' course' := by
  rcases h with h | ⟨m, hm, hrevisits⟩
  · obtain ⟨message, hmem⟩ := List.exists_mem_of_ne_nil _ h
    exact .inl (List.ne_nil_of_mem (hmessages hmem))
  · exact .inr ⟨m, hcourse hm, hrevisits⟩

theorem explained_of_mem {g : TypeGraph} {messages : List String} {course : List Encounter}
    {message : String} (h : message ∈ messages) : Explained g messages course :=
  .inl (List.ne_nil_of_mem h)

section

variable {g : TypeGraph} {scope : Scope} {recur : TypeId → Walk TypeExpr}
  {below : TypeId → Progress → List Encounter}
  (hlocal : ∀ u, (recur u).Local fun u => g.isLiteral u = true)

include hlocal

theorem Slot.reports_mapM_cons {s : Slot} {rest : List Slot} {p : Progress} {e : TypeExpr}
    {es : List TypeExpr} (he : (s.run recur).outcome p = .ok e)
    (hes : (rest.mapM (Slot.run recur)).outcome ((s.run recur).after p) = .ok es) :
    ((s :: rest).mapM (Slot.run recur)).reports p =
      (s.run recur).reports p ++
        (rest.mapM (Slot.run recur)).reports ((s.run recur).after p) := by
  have hrest := Slot.mapM_local hlocal rest
  have hpure (e : TypeExpr) (es : List TypeExpr) :
      (pure (e :: es) : Walk (List TypeExpr)).Local fun u => g.isLiteral u = true :=
    (Walk.local_congruence _ fun _ => True).pure (e :: es)
  have hfirst := (Slot.run_local hlocal s).reports_bind_of_ok
    (fun e _ => Walk.local_bind _ hrest fun es _ => hpure e es) he
  have hsecond := hrest.reports_bind_of_ok (fun es' _ => hpure e es') hes
  rw [List.mapM_cons, hfirst, hsecond, Walk.reports_pure, List.append_nil]

variable (hbelow : ∀ u q e, (recur u).outcome q = .ok e →
  Certain e.render ∨ Explained g ((recur u).reports q) (below u q))

include hbelow

/-- The expressions in slots are certain, unless there is a reason. -/
theorem Slot.certain_or_explained {slots : List Slot} {p : Progress} {es : List TypeExpr}
    (h : (slots.mapM (Slot.run recur)).outcome p = .ok es) :
    es.length = slots.length ∧ ((∀ e ∈ es, Certain e.render) ∨
      Explained g ((slots.mapM (Slot.run recur)).reports p)
        (Slot.courses recur below slots p)) := by
  induction slots generalizing p es with
  | nil =>
    cases h
    exact ⟨rfl, .inl (by simp)⟩
  | cons s rest ih =>
    rw [List.mapM_cons] at h
    obtain ⟨e, he, h⟩ := Walk.outcome_bind_eq_ok.1 h
    obtain ⟨es', hes', h⟩ := Walk.outcome_bind_eq_ok.1 h
    cases h
    rw [Slot.reports_mapM_cons hlocal he hes', Slot.courses, he]
    obtain ⟨hlength, hothers⟩ := ih hes'
    refine ⟨congrArg Nat.succ hlength, ?_⟩
    have hfirst : Certain e.render ∨
        Explained g ((s.run recur).reports p) (s.course below p) := by
      cases s with
      | type u => exact hbelow u p e he
      | untyped message => exact .inr (explained_of_mem (by simp [Slot.run]; rfl))
      | missing s => cases he
    rcases hfirst with hfirst | hfirst
    · rcases hothers with hothers | hothers
      · exact .inl (List.forall_mem_cons.2 ⟨hfirst, hothers⟩)
      · exact .inr (hothers.mono (List.subset_append_right _ _) (List.subset_append_right _ _))
    · exact .inr (hfirst.mono (List.subset_append_left _ _) (List.subset_append_left _ _))

/-- What is laid out is certain, unless there is a reason. -/
theorem Layout.certain_or_explained (hg : Expressible g scope) {t : TypeId} {r : TypeRecord}
    (hr : g.type? t = some r) {layout : Layout} (hlayout : Annotate.Possible g scope r layout)
    {p : Progress} {e : TypeExpr} (h : (layout.run recur).outcome p = .ok e) :
    Certain e.render ∨
      Explained g ((layout.run recur).reports p) (Slot.courses recur below layout.slots p) := by
  have hslots := Slot.mapM_local hlocal layout.slots
  have hfinish (es : List TypeExpr) :
      (layout.frame.finish es).Local fun u => g.isLiteral u = true :=
    have hcongruence := Walk.local_congruence (fun u => g.isLiteral u = true) fun _ => True
    Frame.finish_rel hcongruence.compositional fun message _ => hcongruence.warn message
  obtain ⟨es, hes, he⟩ := Walk.outcome_bind_eq_ok.1 h
  obtain ⟨hlength, hcertain⟩ := Slot.certain_or_explained hlocal hbelow hes
  rw [Frame.outcome_finish] at he
  cases he
  rw [Layout.run, hslots.reports_bind_of_ok (fun es _ => hfinish es) hes, Frame.reports_finish]
  cases hnote : (layout.frame.assemble es).1 with
  | some message =>
    exact .inr (explained_of_mem (List.mem_append_right _ (List.mem_singleton_self message)))
  | none =>
    rcases hcertain with hcertain | hcertain
    · exact .inl (hlayout.certain hg hr hlength hcertain hnote)
    · exact .inr (hcertain.mono (List.subset_append_left _ _) (List.Subset.refl _))

end

/-- The expression of a type is certain, unless there is a reason. -/
theorem Annotate.certain_or_explained {g : TypeGraph} {scope : Scope} (hg : Expressible g scope)
    {n : Nat} {t : TypeId} {p : Progress} {e : TypeExpr}
    (h : (annotateWithin g scope n t).outcome p = .ok e) :
    Certain e.render ∨
      Explained g ((annotateWithin g scope n t).reports p) (course g scope n t p) := by
  induction n generalizing t p e with
  | zero =>
    refine .inr (.inl ?_)
    rw [annotateWithin_zero, Walk.reports_degrade]
    exact List.cons_ne_nil _ _
  | succ n ih =>
    rw [annotateWithin_eq_run] at h
    rw [annotateWithin_eq_run, course, Plan.course]
    cases hstart : (plan g scope t).start? p with
    | none =>
      -- There is no result, or `t` is a literal that has been expanded before.
      rcases Plan.start?_eq_none hstart with ⟨fault, hplan⟩ | ⟨u, layout, hplan, hu⟩
      · rw [hplan] at h
        cases h
      · obtain ⟨rfl, hlit⟩ := plan_eq_once hplan
        exact .inr (.inr ⟨_, List.mem_cons_self, n.succ_pos, hlit, hu⟩)
    | some start =>
      obtain ⟨q, layout⟩ := start
      obtain ⟨r, hr, hlayout⟩ :=
        (plan_cases g scope t).1 layout (Plan.mem_layout?_of_start?_eq_some hstart)
      obtain ⟨houtcome, hafter⟩ := Plan.run_of_start?_eq_some hstart
      rw [houtcome] at h
      rw [Walk.reports, hafter, ← Plan.log_of_start?_eq_some hstart, ← Walk.reports]
      rcases Layout.certain_or_explained (annotateWithin_local g scope n) (fun _ _ _ => ih) hg hr
        hlayout h with hcertain | hexplained
      · exact .inl hcertain
      · exact .inr (hexplained.mono (List.Subset.refl _) (List.subset_cons_self _ _))

/-- **No silent loss.** Suppose that nothing in a graph is unknown by its nature, that nothing is
suppressed, and that no name could be taken for an unknown type. If the annotation of a type writes
an unknown type somewhere, then a message has been reported, or the walk has come to a literal that
has been expanded before. -/
theorem no_silent_loss {g : TypeGraph} {scope : Scope} (hg : Expressible g scope) {t : TypeId}
    {p : Progress} {e : TypeExpr} (he : (annotate g scope t).outcome p = .ok e)
    (hunknown : '?' ∈ e.render.toList) :
    (annotate g scope t).reports p ≠ [] ∨
      ∃ m ∈ Annotate.course g scope levelLimit t p, m.Revisits g := by
  rcases Annotate.certain_or_explained hg he with hcertain | hexplained
  · exact absurd hunknown hcertain
  · exact hexplained

theorem threeLiterals_expressible : Expressible threeLiterals { anchor := .nowhere } := by
  have htypes : ∀ r ∈ threeLiterals.types.toList, Kind.ofFlags? r.flags ≠ some .any ∧
      r.objectFlags.has .tuple = false ∧ r.constructSignatures = [] := by
    decide
  have hsymbols : ∀ sym ∈ threeLiterals.symbols.toList,
      Certain sym.name ∧ ∀ m ∈ sym.members.fields, Certain m.1 := by
    decide
  have htype {t : TypeId} {r : TypeRecord} (hr : threeLiterals.type? t = some r) :=
    htypes r (TypeGraph.mem_types_of_type? hr)
  have hsymbol {s : SymbolId} {sym : Symbol} (hsym : threeLiterals.symbol? s = some sym) :=
    hsymbols sym (TypeGraph.mem_symbols_of_symbol? hsym)
  exact ⟨fun _ _ hr => (htype hr).1, fun _ _ hr => (htype hr).2.1, fun _ _ hr => (htype hr).2.2,
    rfl, ⟨fun _ _ hsym => (hsymbol hsym).1, fun _ _ hsym => (hsymbol hsym).2,
      by simp [Bindings.find?_empty]⟩⟩

/-- No message is reported, since the unknown type stands for the literal inside itself. -/
theorem threeLiterals_no_silent_loss :
    (annotate threeLiterals { anchor := .nowhere } ⟨0⟩).reports {} = [] ∧
      ∃ m ∈ Annotate.course threeLiterals { anchor := .nowhere } levelLimit ⟨0⟩ {},
        m.Revisits threeLiterals := by
  have hsilent : (annotate threeLiterals { anchor := .nowhere } ⟨0⟩).reports {} = [] := by rfl
  have he : (annotate threeLiterals { anchor := .nowhere } ⟨0⟩).outcome {} =
      .ok (.record [("next", .unknown .revisited), ("other", .object)]) := by rfl
  have hloss := no_silent_loss threeLiterals_expressible he (by decide)
  exact ⟨hsilent, hloss.resolve_left (not_not_intro hsilent)⟩

end ClosureTypes
