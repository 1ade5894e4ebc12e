import ClosureTypes.Proofs.Ancestors
import ClosureTypes.Proofs.Hidden

/-!
# What levels read

A level reads the record of its type, a few things of the symbols that the record mentions, and, for
its messages, the description of the type. Two graphs, each under a scope of its own, that agree on
all this have one plan for the level. If they agree but for the wording of messages, so do the
plans.

1. `Annotate.Agree.plan_reword`: what a level reads settles its plan.
2. `annotateWithin_eq_of_plan`: graphs with the same plans for all types on the way lead to the
   same walk.
3. `annotateWithin_alike_of_plan`: if the plans differ in their messages at most, so do the walks.
-/

namespace ClosureTypes

/-! ## Other messages -/

section

variable (f : String → String)

/-- The fault with another description. -/
def GraphFault.reword : GraphFault → GraphFault
  | unknownKind flags description => unknownKind flags (f description)
  | referenceLoop t description => referenceLoop t (f description)
  | unknownType t => unknownType t
  | unknownSymbol s => unknownSymbol s

/-- The slot with another message. -/
def Slot.reword : Slot → Slot
  | type t => type t
  | untyped message => untyped (f message)
  | missing s => missing s

/-- The frame with another message. Only the message of a constant frame is told by a plan. -/
def Frame.reword : Frame → Frame
  | constant note? e => constant (note?.map f) e
  | choice => choice
  | application => application
  | function arity => function arity
  | constructor arity => constructor arity
  | record names => record names
  | map key => map key

/-- The layout with other messages. -/
def Layout.reword (layout : Layout) : Layout where
  slots := layout.slots.map (Slot.reword f)
  frame := layout.frame.reword f

/-- The plan with other messages, and with another description in its fault. -/
def Plan.reword : Plan → Plan
  | stop fault => stop (fault.reword f)
  | fill layout => fill (layout.reword f)
  | once t layout => once t (layout.reword f)

end

theorem Layout.reword_id (layout : Layout) : layout.reword id = layout := by
  have hslot : Slot.reword id = id := funext fun s => by cases s <;> rfl
  have hframe : layout.frame.reword id = layout.frame := by
    cases layout.frame <;> simp [Frame.reword]
  rw [Layout.reword, hslot, hframe, List.map_id]

theorem Plan.reword_id (plan : Plan) : plan.reword id = plan := by
  cases plan with
  | stop fault => cases fault <;> rfl
  | fill layout => rw [reword, layout.reword_id]
  | once t layout => rw [reword, layout.reword_id]

/-! ## Agreement -/

namespace Annotate

/-- What a level reads of the symbol of its type, apart from its name. -/
structure Sighting where
  isLiteral : Bool
  isFunction : Bool
  members : MemberTable
  /-- The message for an interface with this symbol, if it is not to be trusted. -/
  conflict? : Option String

/-- What a level reads of the symbol `s`. -/
def sighting (f : String → String) (scope : Scope) (s : SymbolId) (sym : Symbol) : Sighting where
  isLiteral := sym.flags.has .typeLiteral
  isFunction := sym.flags.has .function || sym.flags.has .method
  members := sym.members
  conflict? :=
    if sym.isTypeAndValue && !scope.hasAlias s && !isLibrarySymbol sym then
      some (f ("type/symbol conflict for " ++ sym.name ++ ", using \x7b?\x7d for now"))
    else none

variable (f : String → String) (g : TypeGraph) (scope : Scope) (g' : TypeGraph) (scope' : Scope)

/-- The level of a type with the symbol `s` reads the same of it. -/
structure AgreeOnSymbol (s : SymbolId) : Prop where
  name : scope.nameOf g s = scope'.nameOf g' s
  suppression : unlessSuppressed g scope s = unlessSuppressed g' scope' s
  sighting :
    (g.symbol? s).map (sighting f scope s) = (g'.symbol? s).map (Annotate.sighting f scope' s)

/-- The level of `t` reads the same, where messages count as the same if `f` makes them so. -/
structure Agree (t : TypeId) : Prop where
  record : g.type? t = g'.type? t
  description : ∀ start, f (start ++ g.describe t) = f (start ++ g'.describe t)
  symbol : ∀ r s, g.type? t = some r → r.symbol? = some s → AgreeOnSymbol f g scope g' scope' s
  target : ∀ r u, g.type? t = some r → r.target? = some u →
    (g.type? u).map (·.objectFlags.has .tuple) = (g'.type? u).map (·.objectFlags.has .tuple)
  slot : ∀ s ∈ g.mentioned t, (slot g scope s).reword f = (Annotate.slot g' scope' s).reword f

variable {f g scope g' scope'}

/-! ## The plans of agreeing levels -/

theorem slots_reword {ι : Type} {l : List ι} (symbol : ι → SymbolId)
    (h : ∀ i ∈ l, (slot g scope (symbol i)).reword f = (slot g' scope' (symbol i)).reword f) :
    (l.map fun i => slot g scope (symbol i)).map (Slot.reword f) =
      (l.map fun i => slot g' scope' (symbol i)).map (Slot.reword f) := by
  rw [List.map_map, List.map_map]
  exact List.map_congr_left h

section

variable {signature : Signature}
  (h : ∀ s ∈ signature.parameters, (slot g scope s).reword f = (slot g' scope' s).reword f)

include h

theorem signatureSlots_reword :
    (signatureSlots g scope signature).map (Slot.reword f) =
      (signatureSlots g' scope' signature).map (Slot.reword f) := by
  rw [signatureSlots, signatureSlots, List.map_append, List.map_append]
  exact congrArg (· ++ _) (slots_reword id h)

theorem functionLayout_reword :
    (functionLayout g scope signature).reword f =
      (functionLayout g' scope' signature).reword f := by
  simp only [functionLayout, Layout.reword, signatureSlots_reword h]

theorem constructorLayout_reword :
    (constructorLayout g scope signature).reword f =
      (constructorLayout g' scope' signature).reword f := by
  simp only [constructorLayout, Layout.reword, signatureSlots_reword h]

end

section

variable {r : TypeRecord}
  (hparameters : ∀ signature ∈ r.callSignatures ++ r.constructSignatures,
    ∀ s ∈ signature.parameters, (slot g scope s).reword f = (slot g' scope' s).reword f)

include hparameters

theorem shapeLayout_reword (callable indexable : Bool) {members : List (String × SymbolId)}
    (hmembers : ∀ m ∈ members, (slot g scope m.2).reword f = (slot g' scope' m.2).reword f) :
    (shapeLayout g scope r callable indexable members).reword f =
      (shapeLayout g' scope' r callable indexable members).reword f := by
  cases members with
  | nil =>
    cases callable <;> cases indexable
    · rfl
    · rfl
    · dsimp only [shapeLayout]
      split
      · next signature hcalls =>
        exact functionLayout_reword (hparameters signature (by simp [hcalls]))
      · rfl
    · rfl
  | cons member rest =>
    rw [shapeLayout, shapeLayout, Layout.reword, Layout.reword, slots_reword Prod.snd hmembers]

theorem literalLayout_reword {sym sym' : Symbol} (heq : sym.members = sym'.members)
    (hmembers : ∀ m ∈ sym.members.fields,
      (slot g scope m.2).reword f = (slot g' scope' m.2).reword f) :
    (literalLayout g scope r sym).reword f = (literalLayout g' scope' r sym').reword f := by
  unfold literalLayout
  rw [← heq]
  split
  · next signature _ hconstruct =>
    exact constructorLayout_reword (hparameters signature (by simp [hconstruct]))
  · exact shapeLayout_reword hparameters _ _ hmembers

end

theorem unlessSuppressed_reword {s : SymbolId} {plan plan' : Plan}
    (h : unlessSuppressed g scope s = unlessSuppressed g' scope' s)
    (hplan : plan.reword f = plan'.reword f) :
    (unlessSuppressed g scope s plan).reword f = (unlessSuppressed g' scope' s plan').reword f := by
  rw [h]
  unfold unlessSuppressed
  cases scope'.blacklistFor? s with
  | none => exact hplan
  | some files =>
    dsimp only
    cases g'.symbol? s with
    | none => rfl
    | some sym =>
      dsimp only
      split_ifs
      · rfl
      · rfl
      · exact hplan

namespace Agree

variable {t : TypeId} {r : TypeRecord} (h : Agree f g scope g' scope' t) (hr : g.type? t = some r)

include h

theorem fault : f (g.describe t) = f (g'.describe t) := by
  simpa using h.description ""

theorem note (start : String) :
    (Plan.fill (.note (start ++ g.describe t))).reword f =
      (Plan.fill (.note (start ++ g'.describe t))).reword f := by
  simp only [Plan.reword, Layout.note, Layout.reword, Frame.reword, Option.map_some, h.description]

include hr

theorem classPlan : (classPlan g scope r).reword f = (Annotate.classPlan g' scope' r).reword f := by
  unfold Annotate.classPlan
  cases hs : r.symbol? with
  | none => rfl
  | some s => simp only [(h.symbol r s hr hs).name]

theorem interfacePlan :
    (interfacePlan g scope r).reword f = (Annotate.interfacePlan g' scope' r).reword f := by
  unfold Annotate.interfacePlan
  cases hs : r.symbol? with
  | none => rfl
  | some s =>
    have hagree := h.symbol r s hr hs
    obtain ⟨hsym, hsym'⟩ | ⟨sym, sym', hsym, hsym', heq⟩ :=
      Option.cases_of_map_eq_map hagree.sighting
    · simp only [hsym, hsym']
    · have hconflict := congrArg Sighting.conflict? heq
      simp only [hsym, hsym']
      unfold sighting at hconflict
      split_ifs at hconflict ⊢
      · simpa [Plan.reword, Layout.note, Layout.reword, Frame.reword] using hconflict
      · rw [hagree.name]

theorem referencePlan :
    (referencePlan g t r).reword f = (Annotate.referencePlan g' t r).reword f := by
  unfold Annotate.referencePlan
  cases hu : r.target? with
  | none => exact h.note _
  | some u =>
    obtain ⟨htarget, htarget'⟩ | ⟨target, target', htarget, htarget', htuple⟩ :=
      Option.cases_of_map_eq_map (h.target r u hr hu)
    · simp only [htarget, htarget']
    · simp only [htarget, htarget', htuple]
      split_ifs
      · rfl
      · rw [Plan.reword, Plan.reword, GraphFault.reword, GraphFault.reword, h.fault]
      · rfl

theorem anonymousPlan :
    (anonymousPlan g scope t r).reword f = (Annotate.anonymousPlan g' scope' t r).reword f := by
  have hparameters (signature : Signature)
      (hσ : signature ∈ r.callSignatures ++ r.constructSignatures) (s : SymbolId)
      (hs : s ∈ signature.parameters) := h.slot s (g.parameter_mem_mentioned hr hσ hs)
  unfold Annotate.anonymousPlan
  cases hs : r.symbol? with
  | none => rfl
  | some s =>
    obtain ⟨hsym, hsym'⟩ | ⟨sym, sym', hsym, hsym', heq⟩ :=
      Option.cases_of_map_eq_map (h.symbol r s hr hs).sighting
    · simp only [hsym, hsym']
    · have hliteral : sym.flags.has .typeLiteral = sym'.flags.has .typeLiteral :=
        congrArg Sighting.isLiteral heq
      have hfunction : (sym.flags.has .function || sym.flags.has .method) =
          (sym'.flags.has .function || sym'.flags.has .method) :=
        congrArg Sighting.isFunction heq
      simp only [hsym, hsym', hliteral, hfunction]
      split_ifs
      · have hlayout := literalLayout_reword hparameters (congrArg Sighting.members heq)
          fun m hm => h.slot m.2 (g.field_mem_mentioned hr hs hsym hm)
        rw [Plan.reword, Plan.reword, hlayout]
      · split
        · next signature hcalls =>
          rw [Plan.reword, Plan.reword,
            functionLayout_reword (hparameters signature (by simp [hcalls]))]
        · exact h.note _
      · exact h.note _

theorem objectPlan :
    (objectPlan g scope t r).reword f = (Annotate.objectPlan g' scope' t r).reword f := by
  have hsort : (sortPlan g scope t r).reword f = (sortPlan g' scope' t r).reword f := by
    unfold sortPlan
    split_ifs
    · exact h.classPlan hr
    · exact h.interfacePlan hr
    · exact h.referencePlan hr
    · exact h.anonymousPlan hr
    · exact h.note _
  unfold Annotate.objectPlan
  cases hs : r.symbol? with
  | none => exact hsort
  | some s => exact unlessSuppressed_reword (h.symbol r s hr hs).suppression hsort

omit hr

/-- **Levels.** What a level reads settles its plan. -/
theorem plan_reword : (plan g scope t).reword f = (plan g' scope' t).reword f := by
  unfold plan
  rw [← h.record]
  cases hr : g.type? t with
  | none => rfl
  | some r =>
    dsimp only
    cases Kind.ofFlags? r.flags with
    | none => rw [Plan.reword, Plan.reword, GraphFault.reword, GraphFault.reword, h.fault]
    | some kind =>
      dsimp only
      cases kind with
      | object => exact h.objectPlan hr
      | never | union => rfl
      | typeParameter | intersection | index | indexedAccess => exact h.note _
      | _ => rfl

end Agree

end Annotate

/-! ## Equal walks -/

theorem Walk.eq_compositional : Walk.Compositional fun x y => x = y where
  pure _ := rfl
  bind {_ _ x _ f f'} hx hf := by
    subst hx
    funext p
    show (x >>= f).run p = (x >>= f').run p
    rw [EStateM.run_bind, EStateM.run_bind]
    cases ha : x.run p with
    | error e q => rfl
    | ok a q =>
      dsimp only
      rw [hf a ⟨p, by rw [Walk.outcome, ha]⟩]

/-- Graphs with the same plans for all types of a set, which has all types that these plans follow,
lead to the same walks. -/
theorem annotateWithin_eq_of_plan {g g' : TypeGraph} {scope scope' : Scope} {K : TypeId → Prop}
    (hplan : ∀ t, K t → Annotate.plan g scope t = Annotate.plan g' scope' t)
    (hdescribe : ∀ t, K t → g.describe t = g'.describe t)
    (hnext : ∀ t u, K t → (Annotate.plan g scope t).Follows u → K u) (n : Nat) {t : TypeId}
    (ht : K t) : annotateWithin g scope n t = annotateWithin g' scope' n t := by
  induction n generalizing t with
  | zero => rw [annotateWithin_zero, annotateWithin_zero, hdescribe t ht]
  | succ n ih =>
    rw [annotateWithin_eq_run, annotateWithin_eq_run, ← hplan t ht]
    exact Plan.run_rel Walk.eq_compositional (fun _ => rfl) _ _
      (fun _ _ => ⟨fun _ _ => rfl, fun _ _ _ => rfl⟩) (fun _ _ _ => rfl)
      fun u hu => ih (hnext t u ht hu)

/-! ## Walks with other messages -/

namespace Walk.Alike

variable {α : Type} {x y z : Walk α}

theorem symm (h : x.Alike y) : y.Alike x := fun p q hpq =>
  ⟨(h q p hpq.symm).1.symm, (h q p hpq.symm).2.symm⟩

theorem trans (h : x.Alike y) (h' : y.Alike z) : x.Alike z := fun p q hpq =>
  ⟨(h p p rfl).1.trans (h' p q hpq).1, (h p p rfl).2.trans (h' p q hpq).2⟩

end Walk.Alike

section

open Walk

variable (f : String → String) {recur recur' : TypeId → Walk TypeExpr}

theorem Frame.finish_reword (frame : Frame) (es : List TypeExpr) :
    ((frame.reword f).finish es).Alike (frame.finish es) := by
  have hself (message : String) : (warn message).Alike (warn message) := alike_warn message message
  cases frame with
  | constant note? e =>
    cases note? with
    | none => exact alike_compositional.pure e
    | some message =>
      exact alike_compositional.bind (alike_warn _ message) fun _ _ => alike_compositional.pure e
  | _ => exact Frame.finish_rel alike_compositional fun message _ => hself message

variable (hrec : ∀ t, (recur t).Alike (recur' t))

include hrec

theorem Slot.run_reword (slot : Slot) :
    ((slot.reword f).run recur).Alike (slot.run recur') := by
  cases slot with
  | type t => exact hrec t
  | untyped message =>
    exact alike_compositional.bind (alike_warn _ message) fun _ _ => alike_compositional.pure _
  | missing s => exact alike_throw rfl

theorem Layout.run_reword (layout : Layout) :
    ((layout.reword f).run recur).Alike (layout.run recur') := by
  unfold Layout.run
  rw [Layout.reword, List.mapM_map]
  exact alike_compositional.bind
    (alike_compositional.mapM fun slot _ => Slot.run_reword f hrec slot)
    fun es _ => Frame.finish_reword f layout.frame es

/-- Other messages lead to a walk that differs in its messages only. -/
theorem Plan.run_reword (plan : Plan) :
    ((plan.reword f).run recur).Alike (plan.run recur') := by
  cases plan with
  | stop fault => exact alike_throw (by cases fault <;> rfl)
  | fill layout => exact Layout.run_reword f hrec layout
  | once t layout =>
    refine alike_compositional.bind (alike_enter t) fun isNew _ => ?_
    cases isNew with
    | true => exact Layout.run_reword f hrec layout
    | false => exact alike_compositional.pure _

end

/-- Graphs whose plans differ in their messages at most lead to walks that do not differ in more. -/
theorem annotateWithin_alike_of_plan {f : String → String} {g g' : TypeGraph}
    {scope scope' : Scope}
    (hplan : ∀ t, (Annotate.plan g scope t).reword f = (Annotate.plan g' scope' t).reword f)
    (n : Nat) (t : TypeId) :
    (annotateWithin g scope n t).Alike (annotateWithin g' scope' n t) := by
  induction n generalizing t with
  | zero =>
    exact Walk.alike_compositional.bind (Walk.alike_warn _ _)
      fun _ _ => Walk.alike_compositional.pure _
  | succ n ih =>
    rw [annotateWithin_eq_run, annotateWithin_eq_run]
    have hself := Plan.run_reword f (fun u => (ih u).trans (ih u).symm) (Annotate.plan g scope t)
    have hother := Plan.run_reword f ih (Annotate.plan g' scope' t)
    rw [hplan t] at hself
    exact hself.symm.trans hother

end ClosureTypes
