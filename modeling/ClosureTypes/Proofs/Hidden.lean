import ClosureTypes.Proofs.Plan

/-!
# What is suppressed stays hidden

A suppressed symbol hides the object types that carry it. Two graphs that differ only in such types,
and in the roles and members of such symbols, are annotated alike: only messages, and the
descriptions in faults, can tell them apart.

1. `Annotate.plan_of_suppressed`: what a level does for a hidden type.
2. `TypeGraph.AlikeBut.plan`: the plans of all levels are the same up to descriptions.
3. `annotate_hidden`: so are the expressions, the faults, and the literals that are expanded.
-/

namespace ClosureTypes

/-! ## Hidden types -/

/-- The symbol is suppressed: it has no alias, and the blacklist has all files that declare it. -/
def Scope.Suppresses (scope : Scope) (s : SymbolId) (sym : Symbol) : Prop :=
  scope.hasAlias s = false ∧ ∃ files ∈ scope.blacklist?, ∀ d ∈ sym.declarations, d.file ∈ files

/-- The graphs differ only in the types `hidden`, which are objects with a suppressed symbol, and in
the roles and members of suppressed symbols. A hidden type is a tuple in both graphs or in none. -/
structure TypeGraph.AlikeBut (scope : Scope) (hidden : TypeId → Prop) (g g' : TypeGraph) :
    Prop where
  types : ∀ t, ¬ hidden t → g.type? t = g'.type? t
  hiddenTypes : ∀ t, hidden t → ∃ r r' s sym, g.type? t = some r ∧ g'.type? t = some r' ∧
    r.flags = r'.flags ∧ Kind.ofFlags? r.flags = some .object ∧
    r.objectFlags.has .tuple = r'.objectFlags.has .tuple ∧
    r.symbol? = some s ∧ r'.symbol? = some s ∧ g.symbol? s = some sym ∧ scope.Suppresses s sym
  symbols : ∀ s, g.symbol? s = g'.symbol? s ∨ ∃ sym flags members, scope.Suppresses s sym ∧
    g.symbol? s = some sym ∧ g'.symbol? s = some { sym with flags, members }
  symbolCount : g.symbols.size = g'.symbols.size
  symbolType : ∀ s node, g.symbolType? s node = g'.symbolType? s node
  container : ∀ node, g.container? node = g'.container? node

namespace Annotate

variable {g : TypeGraph} {scope : Scope}

/-- The plan for a type with the suppressed symbol `sym`. -/
def suppressedPlan (sym : Symbol) : Plan :=
  .fill
    { frame := .constant
        (if sym.declarations.isEmpty then some "symbol has no declarations" else none)
        (.unknown .suppressed) }

theorem unlessSuppressed_of_suppresses {s : SymbolId} {sym : Symbol} (hsym : g.symbol? s = some sym)
    (h : scope.Suppresses s sym) (plan : Plan) :
    unlessSuppressed g scope s plan = suppressedPlan sym := by
  obtain ⟨halias, files, hfiles, hall⟩ := h
  have hlist : scope.blacklistFor? s = some files := by
    simpa [Scope.blacklistFor?, halias] using hfiles
  have hall' : sym.declarations.all (fun d => files.contains d.file) = true := by
    simpa using hall
  unfold unlessSuppressed suppressedPlan
  rw [hlist]
  simp only [hsym, hall', if_true]
  split <;> rfl

theorem plan_of_suppressed {t : TypeId} {r : TypeRecord} {s : SymbolId} {sym : Symbol}
    (hr : g.type? t = some r) (hk : Kind.ofFlags? r.flags = some .object) (hs : r.symbol? = some s)
    (hsym : g.symbol? s = some sym) (h : scope.Suppresses s sym) :
    plan g scope t = suppressedPlan sym := by
  have hplan : plan g scope t = unlessSuppressed g scope s (sortPlan g scope t r) := by
    simp [plan, hr, hk, Kind.fixed?, kindPlan, objectPlan, hs]
  rw [hplan, unlessSuppressed_of_suppresses hsym h]

end Annotate

/-! ## Alike up to descriptions -/

/-- The fault without the description that it may come with. -/
def GraphFault.bare : GraphFault → GraphFault
  | unknownKind flags _ => unknownKind flags ""
  | referenceLoop t _ => referenceLoop t ""
  | unknownType t => unknownType t
  | unknownSymbol s => unknownSymbol s

/-- The plans are the same up to descriptions in a message or in a fault. -/
inductive Plan.Alike : Plan → Plan → Prop
  | refl (plan : Plan) : Alike plan plan
  | note (message message' : String) : Alike (.fill (.note message)) (.fill (.note message'))
  | stop {fault fault' : GraphFault} (h : fault.bare = fault'.bare) :
    Alike (.stop fault) (.stop fault')

/-- Wherever they start with the same literals expanded, the walks end in the same, up to the
description in a fault, and have expanded the same literals. -/
def Walk.Alike {α : Type} (x y : Walk α) : Prop :=
  ∀ p q : Progress, p.visited = q.visited →
    (x.outcome p).mapError GraphFault.bare = (y.outcome q).mapError GraphFault.bare ∧
      (x.after p).visited = (y.after q).visited

namespace Walk

theorem alike_compositional : Compositional Walk.Alike where
  pure _ _ _ h := ⟨rfl, h⟩
  bind {_ _ x y f f'} hx hf p q hpq := by
    obtain ⟨houtcome, hvisited⟩ := hx p q hpq
    rw [outcome_bind, outcome_bind, after_bind, after_bind]
    cases ha : x.outcome p with
    | error e =>
      cases ha' : y.outcome q with
      | error e' =>
        rw [ha, ha'] at houtcome
        injection houtcome with hbare
        exact ⟨congrArg Except.error hbare, hvisited⟩
      | ok a' =>
        rw [ha, ha'] at houtcome
        cases houtcome
    | ok a =>
      cases ha' : y.outcome q with
      | error e' =>
        rw [ha, ha'] at houtcome
        cases houtcome
      | ok a' =>
        rw [ha, ha'] at houtcome
        cases houtcome
        exact hf a ⟨p, ha⟩ _ _ hvisited

theorem alike_throw {α : Type} {e e' : GraphFault} (h : e.bare = e'.bare) :
    (throw e : Walk α).Alike (throw e') :=
  fun _ _ hpq => ⟨congrArg Except.error h, hpq⟩

theorem alike_warn (message message' : String) : (warn message).Alike (warn message') :=
  fun _ _ hpq => ⟨rfl, hpq⟩

theorem alike_enter (t : TypeId) : (enter t).Alike (enter t) := by
  rintro ⟨visited, log⟩ ⟨visited', log'⟩ hpq
  obtain rfl : visited = visited' := hpq
  refine ⟨by rw [outcome_enter, outcome_enter], ?_⟩
  by_cases ht : t ∈ visited
  · rw [after_enter_of_mem ht, after_enter_of_mem ht]
  · rw [after_enter_of_not_mem ht, after_enter_of_not_mem ht]

end Walk

theorem Plan.Alike.run {plan plan' : Plan} (h : plan.Alike plan')
    {recur recur' : TypeId → Walk TypeExpr} (hrec : ∀ t, (recur t).Alike (recur' t)) :
    (plan.run recur).Alike (plan'.run recur') := by
  cases h with
  | refl =>
    exact Plan.run_rel Walk.alike_compositional (fun _ => Walk.alike_throw rfl) recur recur'
      (fun _ _ => ⟨fun message _ => Walk.alike_warn message message,
        fun _ message _ => Walk.alike_warn message message⟩)
      (fun t _ _ => Walk.alike_enter t) fun t _ => hrec t
  | note message message' =>
    rw [Plan.run, Plan.run, Layout.run_note, Layout.run_note]
    exact Walk.alike_compositional.bind (Walk.alike_warn message message')
      fun _ _ => Walk.alike_compositional.pure _
  | stop h => exact Walk.alike_throw h

/-! ## The plans of the two graphs -/

namespace TypeGraph.AlikeBut

variable {scope : Scope} {hidden : TypeId → Prop} {g g' : TypeGraph}
  (h : g.AlikeBut scope hidden g')

include h

/-- The graphs know the same symbols, with the same names and parents. -/
theorem shown (s : SymbolId) :
    (g.symbol? s).map (fun sym => (sym.name, sym.parent?)) =
      (g'.symbol? s).map fun sym => (sym.name, sym.parent?) := by
  rcases h.symbols s with heq | ⟨sym, flags, members, -, hs, hs'⟩
  · rw [heq]
  · rw [hs, hs']
    rfl

theorem ancestry (stop : Option SymbolId) (n : Nat) (s : SymbolId) :
    g.ancestry stop n s = g'.ancestry stop n s := by
  induction n generalizing s with
  | zero => rfl
  | succ n ih =>
    have hparent : (g.symbol? s).bind (·.parent?) = (g'.symbol? s).bind (·.parent?) := by
      have hshown := congrArg (Option.bind · Prod.snd) (h.shown s)
      simpa [Option.bind_map, Function.comp_def] using hshown
    unfold TypeGraph.ancestry
    rw [hparent]
    simp only [ih]

theorem showLink (node : NodeId) (lead : List Fragment) (s : SymbolId) :
    g.showLink node lead s = g'.showLink node lead s := by
  have hshown := h.shown s
  unfold TypeGraph.showLink
  cases hs : g.symbol? s <;> cases hs' : g'.symbol? s <;> simp_all

theorem nameOf (s : SymbolId) : scope.nameOf g s = scope.nameOf g' s := by
  have hdisplay (node : NodeId) : g.display node s = g'.display node s := by
    have hlink (lead : List Fragment) : g.showLink node lead = g'.showLink node lead :=
      funext fun s => h.showLink node lead s
    unfold display qualification
    rw [h.ancestry, h.container, h.symbolCount, hlink, hlink]
  unfold Scope.nameOf qualifiedName
  rw [hdisplay]

theorem slot (s : SymbolId) : Annotate.slot g scope s = Annotate.slot g' scope s := by
  have hshown := h.shown s
  unfold Annotate.slot
  rw [h.symbolType]
  cases hs : g.symbol? s <;> cases hs' : g'.symbol? s <;> simp_all

theorem functionLayout (signature : Signature) :
    Annotate.functionLayout g scope signature = Annotate.functionLayout g' scope signature := by
  unfold Annotate.functionLayout Annotate.signatureSlots
  rw [funext h.slot]

theorem literalLayout (r : TypeRecord) (sym : Symbol) :
    Annotate.literalLayout g scope r sym = Annotate.literalLayout g' scope r sym := by
  unfold Annotate.literalLayout Annotate.constructorLayout Annotate.shapeLayout
    Annotate.signatureSlots
  simp only [h.functionLayout, funext h.slot]

theorem classPlan (r : TypeRecord) :
    Annotate.classPlan g scope r = Annotate.classPlan g' scope r := by
  unfold Annotate.classPlan
  simp only [h.nameOf]

section

variable {r : TypeRecord} (hsym : ∀ s, r.symbol? = some s → g.symbol? s = g'.symbol? s)

include hsym

theorem interfacePlan :
    Annotate.interfacePlan g scope r = Annotate.interfacePlan g' scope r := by
  unfold Annotate.interfacePlan
  cases hs : r.symbol? with
  | none => rfl
  | some s => simp only [hsym s hs, h.nameOf]

theorem anonymousPlan (t : TypeId) :
    (Annotate.anonymousPlan g scope t r).Alike (Annotate.anonymousPlan g' scope t r) := by
  unfold Annotate.anonymousPlan
  cases hs : r.symbol? with
  | none => exact .refl _
  | some s =>
    simp only [hsym s hs]
    cases g'.symbol? s with
    | none => exact .refl _
    | some sym =>
      dsimp only
      split_ifs
      · rw [h.literalLayout]
        exact .refl _
      · rcases r.callSignatures with _ | ⟨signature, _ | ⟨_, _⟩⟩
        · exact .note _ _
        · dsimp only
          rw [h.functionLayout]
          exact .refl _
        · exact .note _ _
      · exact .note _ _

end

/-- The graphs know the same types, and the same of them as tuples. -/
theorem tuple (t : TypeId) :
    (g.type? t).map (fun r => r.objectFlags.has .tuple) =
      (g'.type? t).map fun r => r.objectFlags.has .tuple := by
  by_cases ht : hidden t
  · obtain ⟨r, r', -, -, hr, hr', -, -, htuple, -⟩ := h.hiddenTypes t ht
    rw [hr, hr', Option.map_some, Option.map_some, htuple]
  · rw [h.types t ht]

theorem referencePlan (t : TypeId) (r : TypeRecord) :
    (Annotate.referencePlan g t r).Alike (Annotate.referencePlan g' t r) := by
  unfold Annotate.referencePlan
  cases r.target? with
  | none => exact .note _ _
  | some target =>
    dsimp only
    have htuple := h.tuple target
    cases hr : g.type? target with
    | none =>
      have hr' : g'.type? target = none := by simpa [hr] using htuple.symm
      rw [hr']
      exact .refl _
    | some targetRecord =>
      rw [hr, Option.map_some, eq_comm, Option.map_eq_some_iff] at htuple
      obtain ⟨targetRecord', hr', heq⟩ := htuple
      simp only [hr', heq]
      split_ifs
      · exact .refl _
      · exact .stop rfl
      · exact .refl _

theorem sortPlan (t : TypeId) {r : TypeRecord}
    (hsym : ∀ s, r.symbol? = some s → g.symbol? s = g'.symbol? s) :
    (Annotate.sortPlan g scope t r).Alike (Annotate.sortPlan g' scope t r) := by
  unfold Annotate.sortPlan
  split_ifs
  · rw [h.classPlan]
    exact .refl _
  · rw [h.interfacePlan hsym]
    exact .refl _
  · exact h.referencePlan t r
  · exact h.anonymousPlan hsym t
  · exact .note _ _

theorem objectPlan (t : TypeId) (r : TypeRecord) :
    (Annotate.objectPlan g scope t r).Alike (Annotate.objectPlan g' scope t r) := by
  unfold Annotate.objectPlan
  cases hs : r.symbol? with
  | none => exact h.sortPlan t fun s hs' => by simp [hs] at hs'
  | some s =>
    rcases h.symbols s with hsym | ⟨sym, flags, members, hsuppressed, hsym, hsym'⟩
    · have hsort := h.sortPlan t (r := r) fun s' hs' => by
        obtain rfl : s = s' := by simpa [hs] using hs'
        exact hsym
      dsimp only
      unfold Annotate.unlessSuppressed
      rw [hsym]
      cases scope.blacklistFor? s with
      | none => exact hsort
      | some files =>
        dsimp only
        cases g'.symbol? s with
        | none => exact .refl _
        | some sym =>
          dsimp only
          split_ifs
          · exact .refl _
          · exact .refl _
          · exact hsort
    · dsimp only
      rw [Annotate.unlessSuppressed_of_suppresses hsym hsuppressed,
        Annotate.unlessSuppressed_of_suppresses hsym' hsuppressed]
      exact .refl _

/-- Levels have the same plans in the two graphs, up to descriptions. -/
theorem plan (t : TypeId) : (Annotate.plan g scope t).Alike (Annotate.plan g' scope t) := by
  by_cases ht : hidden t
  · obtain ⟨r, r', s, sym, hr, hr', hflags, hk, -, hs, hs', hsym, hsuppressed⟩ :=
      h.hiddenTypes t ht
    obtain ⟨sym', hsym', hsuppressed', heq⟩ : ∃ sym', g'.symbol? s = some sym' ∧
        scope.Suppresses s sym' ∧ sym'.declarations = sym.declarations := by
      rcases h.symbols s with hsame | ⟨sym', flags, members, -, hknown, hknown'⟩
      · exact ⟨sym, hsame ▸ hsym, hsuppressed, rfl⟩
      · obtain rfl : sym' = sym := Option.some.inj (hknown.symm.trans hsym)
        exact ⟨_, hknown', hsuppressed, rfl⟩
    rw [Annotate.plan_of_suppressed hr hk hs hsym hsuppressed,
      Annotate.plan_of_suppressed hr' (hflags ▸ hk) hs' hsym' hsuppressed',
      Annotate.suppressedPlan, Annotate.suppressedPlan, heq]
    exact .refl _
  · unfold Annotate.plan
    rw [h.types t ht]
    cases g'.type? t with
    | none => exact .refl _
    | some r =>
      dsimp only
      cases Kind.ofFlags? r.flags with
      | none => exact .stop rfl
      | some kind =>
        dsimp only
        cases kind with
        | object => exact h.objectPlan t r
        | never | union => exact .refl _
        | typeParameter | intersection | index | indexedAccess => exact .note _ _
        | _ => exact .refl _

theorem annotateWithin (n : Nat) (t : TypeId) :
    (ClosureTypes.annotateWithin g scope n t).Alike (ClosureTypes.annotateWithin g' scope n t) := by
  induction n generalizing t with
  | zero =>
    exact Walk.alike_compositional.bind (Walk.alike_warn _ _)
      fun _ _ => Walk.alike_compositional.pure _
  | succ n ih =>
    rw [annotateWithin_eq_run, annotateWithin_eq_run]
    exact (h.plan t).run ih

end TypeGraph.AlikeBut

/-- **Hidden types.** Take two graphs that differ only in types with suppressed symbols, and in the
roles and members of such symbols. Whatever type is annotated, and whatever has been visited before,
both give the same expression, or faults that differ in their description at most; and the same
literals are visited by then. -/
theorem annotate_hidden {g g' : TypeGraph} {scope : Scope} {hidden : TypeId → Prop}
    (h : g.AlikeBut scope hidden g') (t : TypeId) (p q : Progress)
    (hvisited : p.visited = q.visited) :
    ((annotate g scope t).outcome p).mapError GraphFault.bare =
        ((annotate g' scope t).outcome q).mapError GraphFault.bare ∧
      ((annotate g scope t).after p).visited = ((annotate g' scope t).after q).visited :=
  h.annotateWithin levelLimit t p q hvisited

/-- A union of a string, a reference to a secret interface, and a secret class. -/
def namedSecret : TypeGraph where
  types := #[
    { flags := .ofList [TypeFlag.union], constituents := [⟨1⟩, ⟨2⟩, ⟨4⟩] },
    { flags := .ofList [TypeFlag.string] },
    { TypeRecord.object (.ofList [ObjectFlag.reference]) none with
      target? := some ⟨3⟩, arguments := [⟨1⟩] },
    .object (.ofList [ObjectFlag.interface]) (some ⟨0⟩),
    .object (.ofList [ObjectFlag.classType]) (some ⟨0⟩)]
  symbols := #[
    { name := "Secret", flags := .ofList [SymbolFlag.classType, SymbolFlag.interface],
      declarations := [{ file := "secret.d.ts" }] }]

/-- The same type as a literal with an index. -/
def asLiteral (r : TypeRecord) : TypeRecord :=
  { r with objectFlags := .ofList [ObjectFlag.anonymous], stringIndex? := some ⟨0⟩ }

/-- The secret types are literals instead, and the secret has a member. -/
def literalSecret : TypeGraph :=
  ((namedSecret.modifyType ⟨3⟩ asLiteral).modifyType ⟨4⟩ asLiteral).modifySymbol ⟨0⟩ fun sym =>
    { sym with
      flags := .ofList [SymbolFlag.typeLiteral]
      members := ⟨[("code", ⟨0⟩)], by decide⟩ }

/-- Suppresses what the file of the secret declares. -/
def discreet : Scope where
  anchor := .nowhere
  blacklist? := some ["secret.d.ts"]

theorem namedSecret_alike :
    namedSecret.AlikeBut discreet (fun t => t = ⟨3⟩ ∨ t = ⟨4⟩) literalSecret where
  types t ht := by
    show _ = TypeGraph.type? (TypeGraph.modifyType (TypeGraph.modifyType _ _ _) _ _) t
    rw [TypeGraph.type?_modifyType, TypeGraph.type?_modifyType, if_neg fun h => ht (.inr h),
      if_neg fun h => ht (.inl h)]
  hiddenTypes t ht := by
    rcases ht with rfl | rfl
    · exact ⟨_, _, ⟨0⟩, _, rfl, rfl, rfl, by decide, by decide, rfl, rfl, rfl, rfl, _, rfl,
        by decide⟩
    · exact ⟨_, _, ⟨0⟩, _, rfl, rfl, rfl, by decide, by decide, rfl, rfl, rfl, rfl, _, rfl,
        by decide⟩
  symbols s := by
    by_cases hs : s = ⟨0⟩
    · subst hs
      exact .inr ⟨_, _, _, ⟨rfl, _, rfl, by decide⟩, rfl, rfl⟩
    · refine .inl ?_
      show _ = TypeGraph.symbol? (TypeGraph.modifySymbol _ _ _) s
      rw [TypeGraph.symbol?_modifySymbol, if_neg hs]
      rfl
  symbolCount := rfl
  symbolType _ _ := rfl
  container _ := rfl

theorem namedSecret_hidden :
    ((annotate namedSecret discreet ⟨0⟩).outcome {}).map TypeExpr.render =
        .ok "(string|?<string>|?)" ∧
      ((annotate namedSecret discreet ⟨0⟩).outcome {}).mapError GraphFault.bare =
        ((annotate literalSecret discreet ⟨0⟩).outcome {}).mapError GraphFault.bare :=
  ⟨by rfl, (annotate_hidden namedSecret_alike ⟨0⟩ {} {} rfl).1⟩

end ClosureTypes
