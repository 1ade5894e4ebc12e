import ClosureTypes.Proofs.Reach
import ClosureTypes.Proofs.Walk

/-!
# One level of an expression

Each level of the expression of a type is put together from expressions of the types that it leads
to. `Layer` says how, and leaves open what is known of those expressions; `Annotate.level_rules`
says that a level does nothing else: any relation between walks that respects the rules passes from
the levels below to the level itself, if the faults that it throws are flaws of the type, and the
only literal that it expands is the type.

By iteration, `Shape g scope n t` holds of the expressions that `t` can have with `n` levels, and
every congruence of walks carries over to annotating a type.

1. `Annotate.level_rules`: one level.
2. `annotate_congr`, `annotate_shape`: all levels.
-/

namespace ClosureTypes

namespace Annotate

/-! ## How a level is put together -/

/-- The symbol is suppressed: a blacklist applies to it and holds all files that declare it. -/
def Suppressed (g : TypeGraph) (scope : Scope) (s : SymbolId) : Prop :=
  ∃ files sym, scope.blacklistFor? s = some files ∧ g.symbol? s = some sym ∧
    ∀ d ∈ sym.declarations, d.file ∈ files

/-- A class, an interface or a reference with this record is left unknown. -/
inductive Unwritable (g : TypeGraph) (scope : Scope) (r : TypeRecord) : Prop
  | suppressed {s : SymbolId} : r.symbol? = some s → Suppressed g scope s → Unwritable g scope r
  | noSymbol : r.form = .named → r.symbol? = none → Unwritable g scope r
  /-- An interface shares its name with a value, and neither an alias nor the library helps. -/
  | conflict {s : SymbolId} {sym : Symbol} : r.form = .named →
      r.objectFlags.has .classType = false → r.symbol? = some s → g.symbol? s = some sym →
      sym.isTypeAndValue = true → scope.hasAlias s = false → isLibrarySymbol sym = false →
      Unwritable g scope r
  | noTarget : r.form = .reference → r.target? = none → Unwritable g scope r

variable (g : TypeGraph) (scope : Scope) (Q : TypeId → TypeExpr → Prop) (t : TypeId)

/-- A part of the expression of `t`: the expression of a type that `t` leads to, if it is as `Q`
says, or the unknown that stands for a symbol without a type. -/
inductive Part : TypeExpr → Prop
  | next {u : TypeId} {e : TypeExpr} : u ∈ g.next scope.anchor t → Q u e → Part e
  | untyped : Part (.unknown .degraded)

/-- The expressions that `t` can have as a type with the record `r`, if those of the types that it
leads to are as `Q` says. -/
inductive Layer (r : TypeRecord) : TypeExpr → Prop
  | unknown {why : Reason} :
      (r.form = .named ∨ r.form = .reference → Unwritable g scope r) → Layer r (.unknown why)
  | primitive (p : Primitive) : r.form = .other → Layer r (.primitive p)
  | named {s : SymbolId} : r.form = .named → ¬ Unwritable g scope r → r.symbol? = some s →
      Layer r (.named (scope.nameOf g s))
  | choice {es : List TypeExpr} {e : TypeExpr} : r.form = .union →
      List.Forall₂ Q r.constituents es → TypeExpr.choice? es = some e → Layer r e
  | tuple {u : TypeId} {r' : TypeRecord} : r.form = .reference → r.target? = some u →
      g.type? u = some r' → r'.objectFlags.has .tuple = true → Layer r .tuple
  /-- A reference without arguments is written as its target. -/
  | target {u : TypeId} {e : TypeExpr} : r.form = .reference → r.target? = some u →
      g.next scope.anchor t = u :: r.arguments → r.arguments = [] → Q u e → Layer r e
  | apply {u : TypeId} {head : TypeExpr} {arguments : List TypeExpr} : r.form = .reference →
      ¬ Unwritable g scope r → r.target? = some u → g.next scope.anchor t = u :: r.arguments →
      r.arguments ≠ [] → Q u head → List.Forall₂ Q r.arguments arguments →
      Layer r (.apply head arguments)
  | function {parameters : List TypeExpr} {result? : Option TypeExpr} : r.form = .anonymous →
      (∀ e ∈ parameters, Part g scope Q t e) → (∀ e ∈ result?, Part g scope Q t e) →
      Layer r (.function parameters result?)
  | constructor {constructed : TypeExpr} {parameters : List TypeExpr} : r.form = .anonymous →
      (∀ e ∈ parameters, Part g scope Q t e) →
      (constructed = .unknown .unspecified ∨ Part g scope Q t constructed) →
      Layer r (.constructor constructed parameters)
  | record {s : SymbolId} {sym : Symbol} {fields : List (String × TypeExpr)} :
      r.form = .anonymous → r.symbol? = some s → g.symbol? s = some sym → fields ≠ [] →
      List.Forall₂ (fun m f => f.1 = m.1 ∧ Part g scope Q t f.2) sym.members.fields fields →
      Layer r (.record fields)
  | object : r.form = .anonymous → Layer r .object
  | map {key : IndexKind} {e : TypeExpr} : r.form = .anonymous → Part g scope Q t e →
      Layer r (.map key e)
  | unknownMap : r.form = .anonymous → Layer r .unknownMap

/-! ## The rules along a level -/

variable {g scope Q t} {r : TypeRecord} {recur recur' : TypeId → Walk TypeExpr}
  {fault : GraphFault → Prop} {entry : TypeId → Prop}
  {R : {α : Type} → (α → Prop) → Walk α → Walk α → Prop}

section

variable (hR : Walk.Rules fault entry R)
  (hfault : ∀ e, g.HasFlaw scope.anchor t e → fault e)
  (hrec : ∀ u ∈ g.next scope.anchor t, R (Q u) (recur u) (recur' u))

include hR hfault

/-- A mentioned symbol that the graph does not know is a flaw. -/
theorem symbol_rules {s : SymbolId} (hs : s ∈ g.mentioned t) :
    R (fun sym => g.symbol? s = some sym) (Walk.symbol g s) (Walk.symbol g s) :=
  hR.symbol fun hsym => hfault _ ⟨t, TypeGraph.reaches_self t, hs, hsym⟩

theorem isSuppressed_rules {s : SymbolId} (hs : s ∈ g.mentioned t) :
    R (fun b => b = true ↔ Suppressed g scope s) (isSuppressed g scope s)
      (isSuppressed g scope s) := by
  unfold isSuppressed
  cases hfiles : scope.blacklistFor? s with
  | none => exact hR.pure (by simp [Suppressed, hfiles])
  | some files =>
    refine hR.bind (symbol_rules hR hfault hs) fun sym hsym => ?_
    have hiff : Suppressed g scope s ↔ ∀ d ∈ sym.declarations, d.file ∈ files := by
      simp [Suppressed, hfiles, hsym]
    refine Walk.Rules.ite (fun hnone => ?_) fun _ => ?_
    · refine hR.bind (hR.warn _) fun _ _ => hR.pure ?_
      rw [hiff, List.isEmpty_iff.1 hnone]
      simp
    · refine hR.pure ?_
      rw [hiff, List.all_eq_true]
      simp

include hrec

theorem symbolType_rules {s : SymbolId} (hs : s ∈ g.mentioned t)
    (hnext : ∀ u, g.symbolType? s scope.anchor = some u → u ∈ g.next scope.anchor t) :
    R (Part g scope Q t) (symbolType g scope recur s) (symbolType g scope recur' s) := by
  unfold symbolType
  cases hu : g.symbolType? s scope.anchor with
  | none =>
    exact hR.bind (symbol_rules hR hfault hs) fun sym _ => hR.degrade _ .untyped
  | some u => exact hR.mono (hrec u (hnext u hu)) fun e he => .next (hnext u hu) he

/-! ### Signatures -/

variable (hr : g.type? t = some r) (hf : r.form = .anonymous)

include hr

theorem parameters_rules {signature : Signature}
    (hσ : signature ∈ r.callSignatures ++ r.constructSignatures)
    (hnext : ∀ u ∈ g.signatureTypes scope.anchor signature, u ∈ g.next scope.anchor t) :
    R (fun es => ∀ e ∈ es, Part g scope Q t e) (parameters g scope recur signature)
      (parameters g scope recur' signature) :=
  hR.mapM_all fun _ hs =>
    symbolType_rules hR hfault hrec (g.parameter_mem_mentioned hr hσ hs) fun u hu =>
      hnext u (g.mem_signatureTypes_of_parameter _ hs hu)

include hf

theorem function_rules {signature : Signature}
    (hσ : signature ∈ r.callSignatures ++ r.constructSignatures)
    (hnext : ∀ u ∈ g.signatureTypes scope.anchor signature, u ∈ g.next scope.anchor t) :
    R (Layer g scope Q t r) (function g scope recur signature)
      (function g scope recur' signature) := by
  refine hR.bind (parameters_rules hR hfault hrec hr hσ hnext) fun ps hps => ?_
  cases hu : signature.result? with
  | none => exact hR.pure (.function hf hps (by simp))
  | some u =>
    have hu' := hnext u (g.mem_signatureTypes_of_result _ hu)
    refine hR.bind (hrec u hu') fun e he => hR.pure (.function hf hps ?_)
    rintro _ ⟨⟩
    exact .next hu' he

theorem constructor_rules {signature : Signature}
    (hσ : signature ∈ r.callSignatures ++ r.constructSignatures)
    (hnext : ∀ u ∈ g.signatureTypes scope.anchor signature, u ∈ g.next scope.anchor t) :
    R (Layer g scope Q t r) (constructor g scope recur signature)
      (constructor g scope recur' signature) := by
  refine hR.bind (parameters_rules hR hfault hrec hr hσ hnext) fun ps hps => ?_
  cases hu : signature.result? with
  | none => exact hR.pure (.constructor hf hps (Or.inl rfl))
  | some u =>
    have hu' := hnext u (g.mem_signatureTypes_of_result _ hu)
    exact hR.bind (hrec u hu') fun e he =>
      hR.pure (.constructor hf hps (Or.inr (.next hu' he)))

/-! ### Literals -/

omit hfault hr in
theorem map_rules (hnext : ∀ u, r.stringIndex?.or r.numberIndex? = some u →
      u ∈ g.next scope.anchor t) :
    R (Layer g scope Q t r) (map recur r) (map recur' r) := by
  unfold map
  cases hstring : r.stringIndex? with
  | some u =>
    have hu := hnext u (by simp [hstring])
    exact hR.bind (hrec u hu) fun e he => hR.pure (.map hf (.next hu he))
  | none =>
    cases hnumber : r.numberIndex? with
    | some u =>
      have hu := hnext u (by simp [hstring, hnumber])
      exact hR.bind (hrec u hu) fun e he => hR.pure (.map hf (.next hu he))
    | none => exact hR.bind (hR.warn _) fun _ _ => hR.pure (.unknownMap hf)

omit hfault hrec hr in
theorem unhandledLiteral_rules :
    R (Layer g scope Q t r) unhandledLiteral unhandledLiteral :=
  hR.degrade _ (.unknown (by simp [hf]))

variable {s : SymbolId} {sym : Symbol} (hs : r.symbol? = some s) (hsym : g.symbol? s = some sym)

include hs hsym

omit hf in
theorem fields_rules (hnext : ∀ m ∈ sym.members.fields, ∀ u,
      g.symbolType? m.2 scope.anchor = some u → u ∈ g.next scope.anchor t) :
    R (List.Forall₂ (fun m f => f.1 = m.1 ∧ Part g scope Q t f.2) sym.members.fields)
      (fields g scope recur sym.members.fields) (fields g scope recur' sym.members.fields) :=
  hR.mapM fun m hm =>
    hR.bind (symbolType_rules hR hfault hrec (g.field_mem_mentioned hr hs hsym hm) (hnext m hm))
      fun _ he => hR.pure ⟨rfl, he⟩

theorem shape_rules (hnext : ∀ u ∈ g.shapeTypes scope.anchor r sym.members.isCallable
      sym.members.isIndexable sym.members.fields, u ∈ g.next scope.anchor t)
    {fs : List (String × TypeExpr)}
    (hfs : List.Forall₂ (fun m f => f.1 = m.1 ∧ Part g scope Q t f.2) sym.members.fields fs) :
    R (Layer g scope Q t r)
      (shape g scope recur r sym.members.isCallable sym.members.isIndexable fs)
      (shape g scope recur' r sym.members.isCallable sym.members.isIndexable fs) := by
  cases fs with
  | cons f rest =>
    refine Walk.Rules.ite (fun _ => unhandledLiteral_rules hR hf) fun _ => ?_
    exact hR.pure (.record hf hs hsym (by simp) hfs)
  | nil =>
    rw [List.forall₂_nil_right_iff.1 hfs] at hnext
    generalize sym.members.isCallable = callable at hnext ⊢
    generalize sym.members.isIndexable = indexable at hnext ⊢
    match callable, indexable with
    | true, true => exact unhandledLiteral_rules hR hf
    | false, false => exact hR.pure (.object hf)
    | false, true => exact map_rules hR hrec hf fun u hu => hnext u (by
        simp [TypeGraph.shapeTypes, hu])
    | true, false =>
      simp only [shape]
      split
      · next signature hσ =>
        refine function_rules hR hfault hrec hr hf (by simp [hσ]) fun u hu => hnext u ?_
        simpa [TypeGraph.shapeTypes, TypeGraph.loneSignatureTypes, hσ] using hu
      · exact unhandledLiteral_rules hR hf

/-- The expression of a literal, which leads to what `literalTypes` lists. -/
theorem expand_rules (hnext : g.next scope.anchor t = g.literalTypes scope.anchor r sym) :
    R (Layer g scope Q t r) (expand g scope recur r sym) (expand g scope recur' r sym) := by
  unfold expand
  unfold TypeGraph.literalTypes at hnext
  split
  · next signature rest hσ =>
    rw [hσ] at hnext
    exact constructor_rules hR hfault hrec hr hf (by simp [hσ]) (by simp [hnext])
  · next hσ =>
    rw [hσ] at hnext
    refine hR.bind (fields_rules hR hfault hrec hr hs hsym fun m hm u hu => ?_) fun fs hfs => ?_
    · rw [hnext]
      exact List.mem_append_left _ (List.mem_filterMap.2 ⟨m, hm, hu⟩)
    · exact shape_rules hR hfault hrec hr hf hs hsym
        (fun u hu => hnext ▸ List.mem_append_right _ hu) hfs

variable (hentry : g.isLiteral t = true → entry t)

include hentry

theorem literal_rules (hlit : sym.flags.has .typeLiteral = true) :
    R (Layer g scope Q t r) (literal g scope recur t r sym) (literal g scope recur' t r sym) := by
  have hnext : g.next scope.anchor t = g.literalTypes scope.anchor r sym := by
    rw [g.next_anonymous _ hr hf hs hsym, TypeGraph.anonymousTypes, if_pos hlit]
  have ht : g.isLiteral t = true := by simp [TypeGraph.isLiteral, hr, hf, hs, hsym, hlit]
  refine hR.bind (hR.enter (hentry ht)) fun isNew _ => Walk.Rules.ite (fun _ => ?_) fun _ => ?_
  · exact expand_rules hR hfault hrec hr hf hs hsym hnext
  · exact hR.pure (.unknown (by simp [hf]))

omit hs hsym in
theorem anonymous_rules :
    R (Layer g scope Q t r) (anonymous g scope recur t r) (anonymous g scope recur' t r) := by
  unfold anonymous
  cases hs : r.symbol? with
  | none => exact hR.degrade _ (.unknown (by simp [hf]))
  | some s =>
    refine hR.bind (symbol_rules hR hfault (g.symbol_mem_mentioned hr hs)) fun sym hsym => ?_
    have hunhandled : R (Layer g scope Q t r) (unhandledAnonymous g t) (unhandledAnonymous g t) :=
      hR.degrade _ (.unknown (by simp [hf]))
    refine Walk.Rules.ite (fun hlit => ?_) fun hlit => Walk.Rules.ite (fun hfun => ?_) fun _ => ?_
    · exact literal_rules hR hfault hrec hr hf hs hsym hentry hlit
    · have hnext : g.next scope.anchor t =
          g.loneSignatureTypes scope.anchor r.callSignatures := by
        rw [g.next_anonymous _ hr hf hs hsym, TypeGraph.anonymousTypes, if_neg hlit, if_pos hfun]
      split
      · next signature hσ =>
        refine function_rules hR hfault hrec hr hf (by simp [hσ]) fun u hu => ?_
        rwa [hnext, hσ]
      · exact hunhandled
    · exact hunhandled

end

/-! ### Objects and unions -/

section

variable (hR : Walk.Rules fault entry R)
  (hfault : ∀ e, g.HasFlaw scope.anchor t e → fault e)
  (hrec : ∀ u ∈ g.next scope.anchor t, R (Q u) (recur u) (recur' u))
  (hr : g.type? t = some r)

include hR hr hfault

theorem isSuppressedRecord_rules :
    R (fun b => b = true ↔ ∃ s, r.symbol? = some s ∧ Suppressed g scope s)
      (isSuppressedRecord g scope r) (isSuppressedRecord g scope r) := by
  unfold isSuppressedRecord
  cases hs : r.symbol? with
  | none => exact hR.pure (by simp)
  | some s =>
    refine hR.mono (isSuppressed_rules hR hfault (g.symbol_mem_mentioned hr hs)) fun b hb => ?_
    simpa using hb

variable (hsuppressed : ¬ ∃ s, r.symbol? = some s ∧ Suppressed g scope s)

include hsuppressed

omit hfault hr in
theorem classType_rules (hf : r.form = .named) (hc : r.objectFlags.has .classType = true) :
    R (Layer g scope Q t r) (classType g scope r) (classType g scope r) := by
  unfold classType
  cases hs : r.symbol? with
  | none => exact hR.degrade _ (.unknown fun _ => .noSymbol hf hs)
  | some s =>
    refine hR.pure (.named hf ?_ hs)
    rintro (⟨hs', hsup⟩ | ⟨-, hnone⟩ | ⟨-, hc', -⟩ | ⟨href, -⟩)
    · exact hsuppressed ⟨_, hs', hsup⟩
    · simp [hs] at hnone
    · simp [hc] at hc'
    · simp [hf] at href

theorem interface_rules (hf : r.form = .named) (hc : ¬ r.objectFlags.has .classType = true) :
    R (Layer g scope Q t r) (interface g scope r) (interface g scope r) := by
  unfold interface
  cases hs : r.symbol? with
  | none => exact hR.degrade _ (.unknown fun _ => .noSymbol hf hs)
  | some s =>
    refine hR.bind (symbol_rules hR hfault (g.symbol_mem_mentioned hr hs)) fun sym hsym => ?_
    refine Walk.Rules.ite (fun hconflict => hR.degrade _ (.unknown fun _ => ?_)) fun hnone =>
      hR.pure (.named hf ?_ hs)
    all_goals simp only [Bool.and_eq_true, Bool.not_eq_true'] at *
    · obtain ⟨⟨hboth, halias⟩, hlibrary⟩ := hconflict
      exact .conflict hf (by simpa using hc) hs hsym hboth halias hlibrary
    · rintro (⟨hs', hsup⟩ | ⟨-, hs'⟩ | ⟨-, -, hs', hsym', hboth, halias, hlibrary⟩ | ⟨href, -⟩)
      · exact hsuppressed ⟨_, hs', hsup⟩
      · simp [hs] at hs'
      · cases hs.symm.trans hs'
        cases hsym.symm.trans hsym'
        exact hnone ⟨⟨hboth, halias⟩, hlibrary⟩
      · simp [hf] at href

include hrec

theorem reference_rules (hf : r.form = .reference) :
    R (Layer g scope Q t r) (reference g recur t r) (reference g recur' t r) := by
  unfold reference
  cases hu : r.target? with
  | none => exact hR.degrade _ (.unknown fun _ => .noTarget hf hu)
  | some u =>
    have hmissing (h : g.type? u = none) : fault (.unknownType u) := by
      refine hfault _ ⟨TypeGraph.reaches_of_mem_next ?_, h⟩
      rw [g.next_reference _ hr hf, g.referenceTypes_of_target hu (by simp [h])]
      exact List.mem_cons_self
    refine hR.bind (hR.typeRecord hmissing) fun r' hr' => ?_
    refine Walk.Rules.ite (fun htuple => hR.pure (.tuple hf hu hr' htuple)) fun htuple => ?_
    refine Walk.Rules.ite (fun hloop => ?_) fun _ => ?_
    · -- The target is `t` itself, so its record is `r`, which is no tuple.
      subst hloop
      obtain rfl : r = r' := Option.some.inj (hr.symm.trans hr')
      have hno : r.objectFlags.has .tuple = false := by simpa using htuple
      exact hR.throw (hfault _ ⟨TypeGraph.reaches_self _, rfl, r, hr, hf, hno, hu⟩)
    · have hnext : g.next scope.anchor t = u :: r.arguments := by
        rw [g.next_reference _ hr hf, g.referenceTypes_of_target hu]
        intro r'' hr''
        rwa [← Option.some.inj (hr'.symm.trans hr'')]
      have hu' : u ∈ g.next scope.anchor t := by rw [hnext]; exact List.mem_cons_self
      refine hR.bind (hrec u hu') fun head hhead => ?_
      refine Walk.Rules.ite (fun hnone => ?_) fun hsome => ?_
      · exact hR.pure (.target hf hu hnext (List.isEmpty_iff.1 hnone) hhead)
      · have harguments := hR.mapM (l := r.arguments) fun v hv =>
          hrec v (by rw [hnext]; exact List.mem_cons_of_mem u hv)
        refine hR.bind harguments fun args hargs =>
          hR.pure (.apply hf ?_ hu hnext (by simpa using hsome) hhead hargs)
        rintro (⟨hs, hsup⟩ | ⟨hnamed, -⟩ | ⟨hnamed, -⟩ | ⟨-, hnone⟩)
        · exact hsuppressed ⟨_, hs, hsup⟩
        · simp [hf] at hnamed
        · simp [hf] at hnamed
        · simp [hu] at hnone

omit hsuppressed in
theorem object_rules (hk : Kind.ofFlags? r.flags = some .object)
    (hentry : g.isLiteral t = true → entry t) :
    R (Layer g scope Q t r) (object g scope recur t r) (object g scope recur' t r) := by
  unfold object
  refine hR.bind (isSuppressedRecord_rules hR hfault hr) fun b hb => ?_
  refine Walk.Rules.ite (fun hyes => ?_) fun hno => ?_
  · obtain ⟨s, hs, hsup⟩ := hb.1 hyes
    exact hR.pure (.unknown fun _ => .suppressed hs hsup)
  have hsuppressed := hno ∘ hb.2
  refine Walk.Rules.ite (fun hc => ?_) fun hc => Walk.Rules.ite (fun hi => ?_) fun hi =>
    Walk.Rules.ite (fun href => ?_) fun href => Walk.Rules.ite (fun ha => ?_) fun ha => ?_
  · exact classType_rules hR hsuppressed (TypeRecord.form_of_class hk hc) hc
  · exact interface_rules hR hfault hr hsuppressed (TypeRecord.form_of_interface hk hi) hc
  · exact reference_rules hR hfault hrec hr hsuppressed (TypeRecord.form_of_reference hk hc hi href)
  · exact anonymous_rules hR hfault hrec hr (TypeRecord.form_of_anonymous hk hc hi href ha) hentry
  · have hf := TypeRecord.form_of_unsorted hk hc hi href ha
    exact hR.degrade _ (.unknown (by simp [hf]))

omit hsuppressed hfault in
theorem union_rules (hk : Kind.ofFlags? r.flags = some .union) :
    R (Layer g scope Q t r) (union recur r) (union recur' r) := by
  have hf := TypeRecord.form_of_union hk
  have hparts := hR.mapM (l := r.constituents) fun u hu =>
    hrec u (by rwa [g.next_union _ hr hf])
  refine hR.bind hparts fun es hes => ?_
  cases he : TypeExpr.choice? es with
  | none => exact hR.degrade _ (.unknown (by simp [hf]))
  | some e => exact hR.pure (.choice hf hes he)

end

theorem fixed?_cases {kind : Kind} {e : TypeExpr} (h : kind.fixed? = some e) :
    kind ≠ .object ∧ kind ≠ .union ∧ ((∃ why, e = .unknown why) ∨ ∃ p, e = .primitive p) := by
  cases kind <;> simp [Kind.fixed?] at h ⊢ <;> subst h <;> simp

/-- **One level.** What is known of the levels below passes to the level above them. -/
theorem level_rules (hR : Walk.Rules fault entry R)
    (hfault : ∀ e, g.HasFlaw scope.anchor t e → fault e) (hentry : g.isLiteral t = true → entry t)
    (hrec : ∀ u ∈ g.next scope.anchor t, R (Q u) (recur u) (recur' u)) :
    R (fun e => ∃ r, g.type? t = some r ∧ Layer g scope Q t r e) (level g scope recur t)
      (level g scope recur' t) := by
  have hmissing (h : g.type? t = none) : fault (.unknownType t) :=
    hfault _ ⟨TypeGraph.reaches_self t, h⟩
  refine hR.bind (hR.typeRecord hmissing) fun r hr => ?_
  have hlayer {x y : Walk TypeExpr} (h : R (Layer g scope Q t r) x y) :
      R (fun e => ∃ r, g.type? t = some r ∧ Layer g scope Q t r e) x y :=
    hR.mono h fun e he => ⟨r, hr, he⟩
  cases hk : Kind.ofFlags? r.flags with
  | none => exact hR.throw (hfault _ ⟨t, r, TypeGraph.reaches_self t, hr, rfl, hk, rfl⟩)
  | some kind =>
    dsimp only
    cases he : kind.fixed? with
    | some e =>
      obtain ⟨hobject, hunion, ⟨why, rfl⟩ | ⟨p, rfl⟩⟩ := fixed?_cases he
      all_goals have hf := TypeRecord.form_of_leaf hk hobject hunion
      · exact hlayer (hR.pure (.unknown (by simp [hf])))
      · exact hlayer (hR.pure (.primitive p hf))
    | none =>
      have hleaf (message : String) (hobject : kind ≠ .object) (hunion : kind ≠ .union) :
          R (Layer g scope Q t r) (Walk.degrade message) (Walk.degrade message) :=
        hR.degrade _ (.unknown (by simp [TypeRecord.form_of_leaf hk hobject hunion]))
      cases kind with
      | object => exact hlayer (object_rules hR hfault hrec hr hk hentry)
      | union => exact hlayer (union_rules hR hrec hr hk)
      | _ => exact hlayer (hleaf _ (by simp) (by simp))

end Annotate

/-- The expressions that `t` can have with `n` levels. -/
def Shape (g : TypeGraph) (scope : Scope) : Nat → TypeId → TypeExpr → Prop
  | 0, _, e => e = .unknown .degraded
  | n + 1, t, e => ∃ r, g.type? t = some r ∧ Annotate.Layer g scope (Shape g scope n) t r e

/-! ## All levels -/

section

variable {g : TypeGraph} {scope : Scope} {root : TypeId}

/-- Annotating the types that a root leads to respects all rules, for the flaws and the literals
that the root leads to. -/
theorem annotateWithin_rules {R : {α : Type} → (α → Prop) → Walk α → Walk α → Prop}
    (hR : Walk.Rules (g.HasFlaw scope.anchor root)
      (fun u => g.Reaches scope.anchor root u ∧ g.isLiteral u = true) R)
    (n : Nat) {t : TypeId} (ht : g.Reaches scope.anchor root t) :
    R (Shape g scope n t) (annotateWithin g scope n t) (annotateWithin g scope n t) := by
  induction n generalizing t with
  | zero => exact hR.degrade _ rfl
  | succ n ih =>
    exact Annotate.level_rules hR (fun e he => he.of_reaches ht) (fun h => ⟨ht, h⟩) fun u hu =>
      ih (ht.tail hu)

/-- **Congruence.** What passes from the parts of a walk to the whole holds of annotating a type. -/
theorem annotate_congr {P : {α : Type} → Walk α → Walk α → Prop}
    (hP : Walk.Congruence (g.HasFlaw scope.anchor root)
      (fun u => g.Reaches scope.anchor root u ∧ g.isLiteral u = true) P) :
    P (annotate g scope root) (annotate g scope root) :=
  (annotateWithin_rules hP.rules levelLimit (TypeGraph.reaches_self root)).2

theorem annotateWithin_shape {n : Nat} {t : TypeId} {e : TypeExpr}
    (h : (annotateWithin g scope n t).Returns e) : Shape g scope n t e :=
  annotateWithin_rules (Walk.returns_rules _ _) n (TypeGraph.reaches_self t) e h

/-- **Shape.** The result of annotating a type has one of the shapes that its levels allow. -/
theorem annotate_shape {t : TypeId} {e : TypeExpr} (h : (annotate g scope t).Returns e) :
    Shape g scope levelLimit t e :=
  annotateWithin_shape h

end

end ClosureTypes
