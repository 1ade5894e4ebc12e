import ClosureTypes.Proofs.Plan

/-!
# The layouts of levels

All that a level can lay out, case by case, along with what is known of the type in each case. What
holds of every case holds of every level, so later proofs look at the cases and not at the plans.

`Annotate.plan_cases` is the list of cases. It also says that a layout has slots only for types that
the type leads to.
-/

namespace ClosureTypes.Annotate

/-! ## The cases -/

/-- The words that the messages of levels start with. -/
def noteWords : List String :=
  ["symbol ", "symbol has no declarations", "union type has no constituents",
    "unknown index key type", unhandledLiteralText, "anonymous type has no symbol",
    "unhandled anonymous type ", "class has no symbol", "interface has no symbol",
    "type/symbol conflict for ", "reference has no target ", "unhandled object type ",
    "should not emit a 'never' type", "unhandled type parameter ", "unhandled type "]

/-- The message starts as those of levels do. -/
def IsNote (message : String) : Prop := ∃ start ∈ noteWords, start.toList <+: message.toList

theorem isNote_of_mem {message : String} (h : message ∈ noteWords := by decide) : IsNote message :=
  ⟨message, h, List.prefix_rfl⟩

theorem isNote_append {start rest : String} (h : start ∈ noteWords := by decide) :
    IsNote (start ++ rest) :=
  ⟨start, h, by rw [String.toList_append]; exact List.prefix_append _ _⟩

variable (g : TypeGraph) (scope : Scope)

/-- The layouts that there are for types with the record `r`. -/
inductive Possible (r : TypeRecord) : Layout → Prop
  | fixed {kind : Kind} {e : TypeExpr} (hkind : Kind.ofFlags? r.flags = some kind)
    (he : kind.fixed? = some e) : Possible r (.answer e)
  | note {message : String} (h : IsNote message) : Possible r (.note message)
  | suppressed {note? : Option String} (hnote : ∀ message ∈ note?, IsNote message)
    (hlist : scope.blacklist? ≠ none) :
    Possible r ⟨[], .constant note? (.unknown .suppressed)⟩
  | named (s : SymbolId) : Possible r (.answer (.named (scope.nameOf g s)))
  | tuple {target : TypeId} {targetRecord : TypeRecord}
    (htarget : g.type? target = some targetRecord)
    (htuple : targetRecord.objectFlags.has .tuple = true) : Possible r (.answer .tuple)
  | object : Possible r (.answer .object)
  | choice : Possible r ⟨r.constituents.map .type, .choice⟩
  | application (target : TypeId) :
    Possible r ⟨(target :: r.arguments).map .type, .application⟩
  | function (signature : Signature) : Possible r (functionLayout g scope signature)
  | constructor {signature : Signature} (h : signature ∈ r.constructSignatures) :
    Possible r (constructorLayout g scope signature)
  | map : Possible r (mapLayout r)
  | record {s : SymbolId} {sym : Symbol} (hsym : g.symbol? s = some sym) :
    Possible r ⟨sym.members.fields.map fun m => slot g scope m.2,
      .record (sym.members.fields.map Prod.fst)⟩
  | unhandled (members : List (String × SymbolId)) :
    Possible r ⟨members.map fun m => slot g scope m.2,
      .constant (some unhandledLiteralText) (.unknown .degraded)⟩

/-- The plan comes to no other layouts than those possible for the record, and to slots only for
types among `next`. -/
structure Fits (r : TypeRecord) (next : List TypeId) (plan : Plan) : Prop where
  possible : ∀ layout ∈ plan.layout?, Possible g scope r layout
  next : ∀ u, plan.Follows u → u ∈ next

section

variable {g scope} {r : TypeRecord} {next : List TypeId} {layout : Layout}

theorem not_follows_stop (fault : GraphFault) (u : TypeId) : ¬ (Plan.stop fault).Follows u := by
  rintro ⟨_, ⟨⟩, _⟩

theorem fits_stop (fault : GraphFault) : Fits g scope r next (.stop fault) :=
  ⟨fun _ h => (by cases h), fun u hu => (not_follows_stop fault u hu).elim⟩

theorem fits_fill (h : Possible g scope r layout) (hnext : ∀ u, .type u ∈ layout.slots → u ∈ next) :
    Fits g scope r next (.fill layout) := by
  refine ⟨fun _ hl => ?_, ?_⟩
  · cases hl
    exact h
  · rintro u ⟨_, ⟨⟩, hu⟩
    exact hnext u hu

theorem fits_once {t : TypeId} (h : Fits g scope r next (.fill layout)) :
    Fits g scope r next (.once t layout) :=
  ⟨h.possible, h.next⟩

theorem fits_answer {e : TypeExpr} (h : Possible g scope r (.answer e)) :
    Fits g scope r next (.fill (.answer e)) :=
  fits_fill h fun _ hu => by cases hu

theorem fits_note {message : String} (h : IsNote message) :
    Fits g scope r next (.fill (.note message)) :=
  fits_fill (.note h) fun _ hu => by cases hu

end

/-! ## The types in slots -/

theorem symbolType?_of_mem_slots {ι : Type} {l : List ι} (symbol : ι → SymbolId) {u : TypeId}
    (h : .type u ∈ l.map fun i => slot g scope (symbol i)) :
    ∃ i ∈ l, g.symbolType? (symbol i) scope.anchor = some u := by
  obtain ⟨i, hi, hslot⟩ := List.mem_map.1 h
  refine ⟨i, hi, ?_⟩
  unfold slot at hslot
  split at hslot
  · next hu =>
    cases hslot
    exact hu
  · split at hslot <;> cases hslot

theorem mem_signatureTypes_of_mem_slots {signature : Signature} {u : TypeId}
    (h : .type u ∈ signatureSlots g scope signature) :
    u ∈ g.signatureTypes scope.anchor signature := by
  rcases List.mem_append.1 h with h | h
  · obtain ⟨s, hs, hu⟩ := symbolType?_of_mem_slots g scope id h
    exact g.mem_signatureTypes_of_parameter scope.anchor hs hu
  · obtain ⟨u', hu', ⟨⟩⟩ := List.mem_map.1 h
    exact List.mem_append_right _ hu'

theorem mem_memberTypes_of_mem_slots {members : List (String × SymbolId)} {u : TypeId}
    (h : .type u ∈ members.map fun m => slot g scope m.2) :
    u ∈ g.memberTypes scope.anchor members :=
  List.mem_filterMap.2 (symbolType?_of_mem_slots g scope Prod.snd h)

theorem type_mem_slots_mapLayout {r : TypeRecord} {u : TypeId} :
    .type u ∈ (mapLayout r).slots ↔ r.stringIndex?.or r.numberIndex? = some u := by
  unfold mapLayout
  cases r.stringIndex? <;> cases r.numberIndex? <;> simp [eq_comm]

/-! ## Every level is one of the cases -/

variable (r : TypeRecord)

theorem fits_shapeLayout {sym : Symbol} {s : SymbolId} (hsym : g.symbol? s = some sym)
    (callable indexable : Bool) :
    Fits g scope r (g.memberTypes scope.anchor sym.members.fields ++
        g.shapeTypes scope.anchor r callable indexable sym.members.fields)
      (.fill (shapeLayout g scope r callable indexable sym.members.fields)) := by
  have hunhandled : IsNote unhandledLiteralText := isNote_of_mem
  cases hfields : sym.members.fields with
  | nil =>
    cases callable with
    | false =>
      cases indexable with
      | false => exact fits_answer .object
      | true =>
        exact fits_fill .map fun u hu => Option.mem_toList.2 (type_mem_slots_mapLayout.1 hu)
    | true =>
      cases indexable with
      | false =>
        rw [shapeLayout, TypeGraph.shapeTypes]
        rcases r.callSignatures with _ | ⟨signature, _ | ⟨_, _⟩⟩
        · exact fits_note hunhandled
        · exact fits_fill (.function signature)
            fun u hu => mem_signatureTypes_of_mem_slots g scope hu
        · exact fits_note hunhandled
      | true => exact fits_note hunhandled
  | cons member rest =>
    rw [shapeLayout, ← hfields]
    have hnext (u : TypeId) (hu : .type u ∈ sym.members.fields.map fun m => slot g scope m.2) :
        u ∈ g.memberTypes scope.anchor sym.members.fields ++
          g.shapeTypes scope.anchor r callable indexable sym.members.fields :=
      List.mem_append_left _ (mem_memberTypes_of_mem_slots g scope hu)
    split_ifs
    · exact fits_fill (.unhandled _) hnext
    · exact fits_fill (.record hsym) hnext

theorem fits_literalLayout {sym : Symbol} {s : SymbolId} (hsym : g.symbol? s = some sym) :
    Fits g scope r (g.literalTypes scope.anchor r sym)
      (.fill (literalLayout g scope r sym)) := by
  unfold literalLayout TypeGraph.literalTypes
  cases hcons : r.constructSignatures with
  | nil => exact fits_shapeLayout g scope r hsym _ _
  | cons signature rest =>
    exact fits_fill (.constructor (hcons ▸ List.mem_cons_self))
      fun u hu => mem_signatureTypes_of_mem_slots g scope hu

theorem fits_anonymousPlan (t : TypeId) :
    Fits g scope r ((r.symbol?.bind g.symbol?).toList.flatMap (g.anonymousTypes scope.anchor r))
      (anonymousPlan g scope t r) := by
  have hunhandled : IsNote ("unhandled anonymous type " ++ g.describe t) := isNote_append
  unfold anonymousPlan
  cases hs : r.symbol? with
  | none => exact fits_note isNote_of_mem
  | some s =>
    dsimp only
    cases hsym : g.symbol? s with
    | none => exact fits_stop _
    | some sym =>
      simp only [Option.bind_some, hsym, Option.toList_some, List.flatMap_cons, List.flatMap_nil,
        List.append_nil, TypeGraph.anonymousTypes]
      split_ifs
      · exact fits_once (fits_literalLayout g scope r hsym)
      · rcases r.callSignatures with _ | ⟨signature, _ | ⟨_, _⟩⟩
        · exact fits_note hunhandled
        · exact fits_fill (.function signature)
            fun u hu => mem_signatureTypes_of_mem_slots g scope hu
        · exact fits_note hunhandled
      · exact fits_note hunhandled

theorem fits_classPlan (next : List TypeId) : Fits g scope r next (classPlan g scope r) := by
  unfold classPlan
  split
  · exact fits_note isNote_of_mem
  · exact fits_answer (.named _)

theorem fits_interfacePlan (next : List TypeId) :
    Fits g scope r next (interfacePlan g scope r) := by
  unfold interfacePlan
  split
  · exact fits_note isNote_of_mem
  · split
    · exact fits_stop _
    · split_ifs
      · rw [String.append_assoc]
        exact fits_note isNote_append
      · exact fits_answer (.named _)

theorem fits_referencePlan (t : TypeId) :
    Fits g scope r (g.referenceTypes r) (referencePlan g t r) := by
  unfold referencePlan
  cases htarget : r.target? with
  | none => exact fits_note isNote_append
  | some target =>
    dsimp only
    cases hr' : g.type? target with
    | none => exact fits_stop _
    | some targetRecord =>
      dsimp only
      split_ifs with htuple
      · exact fits_answer (.tuple hr' htuple)
      · exact fits_stop _
      · refine fits_fill (.application target) fun u hu => ?_
        simpa [TypeGraph.referenceTypes, htarget, hr', htuple] using hu

theorem fits_unlessSuppressed {next : List TypeId} {plan : Plan} (h : Fits g scope r next plan)
    (s : SymbolId) : Fits g scope r next (unlessSuppressed g scope s plan) := by
  unfold unlessSuppressed
  split
  · exact h
  · next files hfiles =>
    have hlist : scope.blacklist? ≠ none := by
      intro hnone
      simp [Scope.blacklistFor?, hnone] at hfiles
    split
    · exact fits_stop _
    · split_ifs
      · refine fits_fill (.suppressed (fun message hm => ?_) hlist) fun u hu => (by cases hu)
        cases hm
        exact isNote_of_mem
      · exact fits_answer (.suppressed (fun _ hm => by cases hm) hlist)
      · exact h

variable {r} {t : TypeId}

theorem fits_sortPlan (hr : g.type? t = some r) (hk : Kind.ofFlags? r.flags = some .object) :
    Fits g scope r (g.next scope.anchor t) (sortPlan g scope t r) := by
  rw [g.next_of_type? scope.anchor hr, TypeGraph.recordTypes]
  unfold sortPlan
  split_ifs with hc hi href ha
  · exact fits_classPlan g scope r _
  · exact fits_interfacePlan g scope r _
  · rw [TypeRecord.form_of_reference hk hc hi href]
    exact fits_referencePlan g scope r t
  · rw [TypeRecord.form_of_anonymous hk hc hi href ha]
    exact fits_anonymousPlan g scope r t
  · exact fits_note isNote_append

theorem fits_kindPlan (hr : g.type? t = some r) {kind : Kind}
    (hk : Kind.ofFlags? r.flags = some kind) :
    Fits g scope r (g.next scope.anchor t) (kindPlan g scope t r kind) := by
  cases kind with
  | never => exact fits_note isNote_of_mem
  | typeParameter => exact fits_note isNote_append
  | object =>
    show Fits g scope r _ (objectPlan g scope t r)
    unfold objectPlan
    split
    · exact fits_sortPlan g scope hr hk
    · exact fits_unlessSuppressed g scope r (fits_sortPlan g scope hr hk) _
  | union =>
    refine fits_fill .choice fun u hu => ?_
    rw [g.next_union scope.anchor hr (TypeRecord.form_of_union hk)]
    simpa using hu
  | _ => exact fits_note isNote_append

theorem fits_plan (hr : g.type? t = some r) :
    Fits g scope r (g.next scope.anchor t) (plan g scope t) := by
  unfold plan
  rw [hr]
  dsimp only
  cases hk : Kind.ofFlags? r.flags with
  | none => exact fits_stop _
  | some kind =>
    dsimp only
    cases he : kind.fixed? with
    | some e => exact fits_answer (.fixed hk he)
    | none => exact fits_kindPlan g scope hr hk

/-- **Cases.** A level of a known type comes to one of the possible layouts, and follows no other
types than those that the type leads to. -/
theorem plan_cases (t : TypeId) :
    (∀ layout ∈ (plan g scope t).layout?,
      ∃ r, g.type? t = some r ∧ Possible g scope r layout) ∧
    ∀ u, (plan g scope t).Follows u → u ∈ g.next scope.anchor t := by
  cases hr : g.type? t with
  | none =>
    have hstop : plan g scope t = .stop (.unknownType t) := by rw [plan, hr]
    rw [hstop]
    exact ⟨fun _ h => (by cases h), fun u hu => (not_follows_stop _ u hu).elim⟩
  | some r =>
    have h := fits_plan g scope hr
    exact ⟨fun layout hl => ⟨r, rfl, h.possible layout hl⟩, h.next⟩

/-! ## The messages of levels -/

theorem isNote_of_mem_slots {ι : Type} {l : List ι} (symbol : ι → SymbolId) {message : String}
    (h : .untyped message ∈ l.map fun i => slot g scope (symbol i)) : IsNote message := by
  obtain ⟨i, -, hslot⟩ := List.mem_map.1 h
  unfold slot at hslot
  split at hslot
  · cases hslot
  · split at hslot
    · cases hslot
      rw [String.append_assoc]
      exact isNote_append
    · cases hslot

theorem untyped_not_mem_map_type (l : List TypeId) (message : String) :
    .untyped message ∉ l.map Slot.type := by
  simp

theorem isNote_of_mem_signatureSlots {signature : Signature} {message : String}
    (h : .untyped message ∈ signatureSlots g scope signature) : IsNote message := by
  rcases List.mem_append.1 h with h | h
  · exact isNote_of_mem_slots g scope id h
  · exact (untyped_not_mem_map_type _ _ h).elim

theorem Possible.saysOnly {g : TypeGraph} {scope : Scope} {r : TypeRecord} {layout : Layout}
    (h : Possible g scope r layout) : layout.SaysOnly IsNote := by
  cases h with
  | fixed | named | tuple | object => exact ⟨fun _ h => (by cases h), fun _ _ h => (by cases h)⟩
  | note h =>
    refine ⟨fun _ h => (by cases h), fun _ _ hm => ?_⟩
    cases hm
    exact h
  | suppressed hnote => exact ⟨fun _ h => (by cases h), fun _ message hm => hnote message hm⟩
  | choice =>
    refine ⟨fun _ h => (untyped_not_mem_map_type _ _ h).elim, fun es message hm => ?_⟩
    cases hchoice : TypeExpr.choice? es with
    | some e => simp [Frame.assemble, hchoice] at hm
    | none =>
      simp only [Frame.assemble, hchoice, Option.some.injEq] at hm
      exact hm ▸ isNote_of_mem
  | application =>
    exact ⟨fun _ h => (untyped_not_mem_map_type _ _ h).elim, fun _ _ h => (by cases h)⟩
  | function | constructor =>
    exact ⟨fun _ h => isNote_of_mem_signatureSlots _ _ h, fun _ _ h => (by cases h)⟩
  | map =>
    unfold mapLayout
    split
    · exact ⟨by simp, fun _ _ h => (by cases h)⟩
    · exact ⟨by simp, fun _ _ h => (by cases h)⟩
    · refine ⟨by simp, fun _ _ h => ?_⟩
      cases h
      exact isNote_of_mem
  | record => exact ⟨fun _ h => isNote_of_mem_slots _ _ Prod.snd h, fun _ _ h => (by cases h)⟩
  | unhandled =>
    refine ⟨fun _ h => isNote_of_mem_slots _ _ Prod.snd h, fun _ _ h => ?_⟩
    cases h
    exact isNote_of_mem

/-- All messages that a level leads to start as the messages of levels do. -/
theorem plan_saysOnly (t : TypeId) : (plan g scope t).SaysOnly IsNote := by
  intro layout hl
  obtain ⟨r, -, h⟩ := (plan_cases g scope t).1 layout hl
  exact h.saysOnly

end ClosureTypes.Annotate
