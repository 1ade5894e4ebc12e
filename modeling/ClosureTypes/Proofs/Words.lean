import ClosureTypes.Proofs.Dialect
import ClosureTypes.Proofs.Level
import ClosureTypes.Proofs.Names

/-!
# Which expressions are words of the dialect

A reference with arguments is written as its target, then the arguments. If the target has no
expression, the arguments follow the unknown type, and the dialect knows no such annotation. That is
the only way in which an annotation can fail to be a word.

1. `Shape.wordOr`: an expression is a word, or it holds such a reference.
2. `annotate_word`: which results of annotating a type are words, and which types are to blame.
-/

namespace ClosureTypes

/-! ## References with arguments -/

/-- The graph knows the symbols of types and of what encloses them, and every reference has a
target, which is a tuple, a class or an interface. -/
structure TypeGraph.Resolved (g : TypeGraph) : Prop where
  symbols : ∀ t r s, g.type? t = some r → r.symbol? = some s → g.symbol? s ≠ none
  parents : g.ParentsKnown
  targets : ∀ t r, g.type? t = some r → r.form = .reference →
    ∃ u r', r.target? = some u ∧ g.type? u = some r' ∧
      (r'.objectFlags.has .tuple = true ∨ r'.form = .named)

/-- The reference `u` is written as `v`, followed by arguments. -/
def Applies (g : TypeGraph) (scope : Scope) (u v : TypeId) : Prop :=
  ∃ r, g.type? u = some r ∧ r.form = .reference ∧ ¬ Annotate.Unwritable g scope r ∧
    r.target? = some v ∧ r.arguments ≠ [] ∧ g.next scope.anchor u = v :: r.arguments

/-- The class or the interface `v` has no expression. -/
def Nameless (g : TypeGraph) (scope : Scope) (v : TypeId) : Prop :=
  ∃ r, g.type? v = some r ∧ r.form = .named ∧ Annotate.Unwritable g scope r

/-- Within `n` levels, `t` leads to a reference with arguments whose target has no expression, or
lies below the last level. -/
def LeadsToBareArguments (g : TypeGraph) (scope : Scope) (n : Nat) (t : TypeId) : Prop :=
  ∃ k u v, g.LeadsIn scope.anchor k t u ∧ Applies g scope u v ∧
    (k + 1 < n ∧ Nameless g scope v ∨ k + 1 = n)

section

variable {g : TypeGraph} {scope : Scope}

theorem LeadsToBareArguments.of_next {n : Nat} {t u : TypeId} (hu : u ∈ g.next scope.anchor t)
    (h : LeadsToBareArguments g scope n u) : LeadsToBareArguments g scope (n + 1) t := by
  obtain ⟨k, v, w, hlead, happlies, hcause⟩ := h
  refine ⟨k + 1, v, w, ⟨u, hu, hlead⟩, happlies, ?_⟩
  rcases hcause with ⟨hk, hnameless⟩ | hk
  · exact Or.inl ⟨by omega, hnameless⟩
  · exact Or.inr (by omega)

/-- Tuples are written without arguments. -/
theorem Applies.not_tuple {u v : TypeId} {r : TypeRecord} (h : Applies g scope u v)
    (hr : g.type? v = some r) : ¬ r.objectFlags.has .tuple = true := by
  obtain ⟨r', hr', hf, -, hv, -, hnext⟩ := h
  intro htuple
  rw [g.next_reference _ hr' hf] at hnext
  simp [TypeGraph.referenceTypes, hv, hr, htuple] at hnext

theorem TypeGraph.Resolved.named_of_applies (hg : g.Resolved) {u v : TypeId}
    (h : Applies g scope u v) : ∃ r, g.type? v = some r ∧ r.form = .named := by
  obtain ⟨r, hr, hf, -, hv, -⟩ := id h
  obtain ⟨v', r', hv', hr', hcase⟩ := hg.targets u r hr hf
  obtain rfl : v = v' := Option.some.inj (hv.symm.trans hv')
  exact ⟨r', hr', hcase.resolve_left (h.not_tuple hr')⟩

/-- What is written for a class or an interface. -/
theorem Shape.named {n : Nat} {v : TypeId} {r : TypeRecord} {e : TypeExpr}
    (h : Shape g scope n v e) (hr : g.type? v = some r) (hf : r.form = .named) :
    ((∃ why, e = .unknown why) ∧ (n = 0 ∨ Annotate.Unwritable g scope r)) ∨
      ∃ s, r.symbol? = some s ∧ e = .named (scope.nameOf g s) ∧
        ¬ Annotate.Unwritable g scope r := by
  cases n with
  | zero => exact Or.inl ⟨⟨_, h⟩, Or.inl rfl⟩
  | succ n =>
    obtain ⟨r', hr', hlayer⟩ := h
    obtain rfl : r = r' := Option.some.inj (hr.symm.trans hr')
    cases hlayer with
    | unknown hwhy => exact Or.inl ⟨⟨_, rfl⟩, Or.inr (hwhy (Or.inl hf))⟩
    | named _ hwritable hs => exact Or.inr ⟨_, hs, rfl, hwritable⟩
    | _ => simp_all

/-- A reference with arguments whose target has no expression gives them to the unknown type. -/
theorem Shape.appliesUnknown {n : Nat} {t v : TypeId} {e : TypeExpr} (h : Shape g scope (n + 1) t e)
    (happlies : Applies g scope t v) (hv : Nameless g scope v) : AppliesUnknown e.render := by
  obtain ⟨r, hr, hf, hwritable, htarget, hne, -⟩ := id happlies
  obtain ⟨r', hr', hlayer⟩ := h
  obtain rfl : r = r' := Option.some.inj (hr.symm.trans hr')
  cases hlayer with
  | unknown hwhy => exact absurd (hwhy (Or.inr hf)) hwritable
  | tuple _ hu hr'' htuple =>
    obtain rfl := Option.some.inj (htarget.symm.trans hu)
    exact absurd htuple (happlies.not_tuple hr'')
  | target _ _ _ hnil => exact absurd hnil hne
  | apply _ _ hu _ _ hhead =>
    obtain rfl := Option.some.inj (htarget.symm.trans hu)
    obtain ⟨rv, hrv, hnamed, hunwritable⟩ := hv
    rcases hhead.named hrv hnamed with ⟨⟨why, rfl⟩, -⟩ | ⟨_, -, -, hno⟩
    · exact TypeExpr.appliesUnknown_apply why _
    · exact absurd hunwritable hno
  | _ => simp_all

variable {letter : Char → Prop} (hg : g.Resolved) (hnames : NamesAre (IsName letter) g scope)

include hg hnames

theorem isName_nameOf {t : TypeId} {r : TypeRecord} {s : SymbolId} (hr : g.type? t = some r)
    (hs : r.symbol? = some s) : IsName letter (scope.nameOf g s) := by
  refine hnames.nameOf (fun _ _ => .dotted) fun s' hs' hnone => ?_
  exact absurd hnone (TypeGraph.qualification_known hg.parents _ (hg.symbols t r s hr hs) s' hs')

/-- **Levels.** An expression is a word, or the unknown type is given arguments in it, for which
there is a reference to blame. -/
theorem Shape.wordOr {n : Nat} {t : TypeId} {e : TypeExpr} (h : Shape g scope n t e) :
    e.WordOr letter (LeadsToBareArguments g scope n t) := by
  induction n generalizing t e with
  | zero =>
    rw [show e = .unknown .degraded from h]
    exact Or.inl .unknown
  | succ n ih =>
    obtain ⟨r, hr, hlayer⟩ := h
    have hbelow {u : TypeId} {d : TypeExpr} (hu : u ∈ g.next scope.anchor t)
        (hd : Shape g scope n u d) : d.WordOr letter (LeadsToBareArguments g scope (n + 1) t) :=
      (ih hd).imp_right fun h => ⟨h.1, h.2.of_next hu⟩
    have hpart {d : TypeExpr} (hd : Annotate.Part g scope (Shape g scope n) t d) :
        d.WordOr letter (LeadsToBareArguments g scope (n + 1) t) := by
      cases hd with
      | next hu hd => exact hbelow hu hd
      | untyped => exact Or.inl .unknown
    have hall {us : List TypeId} {ds : List TypeExpr} (hus : ∀ u ∈ us, u ∈ g.next scope.anchor t)
        (hds : List.Forall₂ (Shape g scope n) us ds) :
        ∀ d ∈ ds, d.WordOr letter (LeadsToBareArguments g scope (n + 1) t) := by
      intro d hd
      obtain ⟨u, hu, hshape⟩ := hds.exists_of_mem_right hd
      exact hbelow (hus u hu) hshape
    cases hlayer with
    | unknown => exact Or.inl .unknown
    | primitive p => exact Or.inl (.primitive p)
    | named _ _ hs => exact Or.inl (.named (isName_nameOf hg hnames hr hs))
    | @choice es _ hf hes he =>
      have hes' := hall (by simp [g.next_union _ hr hf]) hes
      rcases TypeExpr.choice?_eq_some he with hmem | ⟨ds, rfl, hlength, hds⟩
      · exact hes' e hmem
      · exact TypeExpr.WordOr.of_parts ds (fun _ => id) (fun d hd => hes' d (hds d hd))
          fun hword => TypeExpr.word_union hword hlength
    | tuple => exact Or.inl .tuple
    | target _ _ hnext _ he => exact hbelow (by simp [hnext]) he
    | @apply u head arguments hf hwritable hu hnext hne hhead hargs =>
      have happlies : Applies g scope t u := ⟨r, hr, hf, hwritable, hu, hne, hnext⟩
      obtain ⟨r', hr', hf'⟩ := hg.named_of_applies happlies
      rcases hhead.named hr' hf' with ⟨⟨why, rfl⟩, hcause⟩ | ⟨s, hs, rfl, -⟩
      · refine Or.inr ⟨TypeExpr.appliesUnknown_apply why arguments, 0, t, u, rfl, happlies, ?_⟩
        rcases Nat.eq_zero_or_pos n with rfl | hn
        · exact Or.inr rfl
        · exact Or.inl ⟨by omega, r', hr', hf', hcause.resolve_left (by omega)⟩
      · have hargs' := hall (fun v hv => hnext ▸ List.mem_cons_of_mem u hv) hargs
        have hne' : arguments ≠ [] := by
          rintro rfl
          exact hne (List.forall₂_nil_right_iff.1 hargs)
        exact TypeExpr.WordOr.of_parts arguments (fun _ => List.mem_cons_of_mem _) hargs'
          fun hword => TypeExpr.word_apply hword (isName_nameOf hg hnames hr' hs) hne'
    | @function ps result? _ hps hresult =>
      refine TypeExpr.WordOr.of_parts (ps ++ result?.toList) (fun _ => id)
        (fun d hd => ?_) fun hword => ?_
      · rcases List.mem_append.1 hd with hd | hd
        · exact hpart (hps d hd)
        · exact hpart (hresult d (Option.mem_toList.1 hd))
      · obtain ⟨hwords, hword'⟩ := List.forall_mem_append.1 hword
        exact TypeExpr.word_function hwords fun d hd => hword' d (Option.mem_toList.2 hd)
    | @constructor constructed ps _ hps hconstructed =>
      have hconstructed' :
          constructed.WordOr letter (LeadsToBareArguments g scope (n + 1) t) := by
        rcases hconstructed with rfl | hconstructed
        · exact Or.inl .unknown
        · exact hpart hconstructed
      refine TypeExpr.WordOr.of_parts (constructed :: ps) (fun _ => id)
        (List.forall_mem_cons.2 ⟨hconstructed', fun d hd => hpart (hps d hd)⟩) fun hword => ?_
      obtain ⟨hword', hwords⟩ := List.forall_mem_cons.1 hword
      exact TypeExpr.word_constructor hwords hword'
    | @record s sym fields _ _ hsym hne hfields =>
      have hfields' : ∀ f ∈ fields, ∃ m ∈ sym.members.fields,
          f.1 = m.1 ∧ Annotate.Part g scope (Shape g scope n) t f.2 :=
        fun f hf => hfields.exists_of_mem_right hf
      refine TypeExpr.WordOr.of_parts (fields.map Prod.snd) (fun _ => id) ?_
        fun hword => ?_
      · rw [List.forall_mem_map]
        intro f hf
        obtain ⟨m, -, -, hd⟩ := hfields' f hf
        exact hpart hd
      · rw [List.forall_mem_map] at hword
        refine TypeExpr.word_record hne (fun f hf => ?_) hword
        obtain ⟨m, hm, hname, -⟩ := hfields' f hf
        rw [hname]
        exact hnames.members s sym hsym m hm
    | object => exact Or.inl .object
    | @map key e _ he =>
      refine TypeExpr.WordOr.of_parts [e] (fun _ => id)
        (by simpa using hpart he) fun hword => ?_
      exact .map key (hword e List.mem_cons_self)
    | unknownMap => exact Or.inl .unknownMap

end

/-- **Words of the dialect.** A result of annotating a type is a word exactly where it does not give
arguments to the unknown type. If it does, the type leads to a reference whose target has no
expression or lies below the last level; and a reference whose target has no expression always
gives such a result itself. -/
theorem annotate_word {letter : Char → Prop} (hunknown : ¬ letter '?') (hopen : ¬ letter '<')
    {g : TypeGraph} {scope : Scope} (hg : g.Resolved) (hnames : NamesAre (IsName letter) g scope)
    (t : TypeId) (p : Progress) (e : TypeExpr) (he : (annotate g scope t).outcome p = .ok e) :
    (Word letter e.render ↔ ¬ AppliesUnknown e.render) ∧
      (AppliesUnknown e.render → LeadsToBareArguments g scope levelLimit t) ∧
      ∀ v, Applies g scope t v → Nameless g scope v → AppliesUnknown e.render := by
  have hshape : Shape g scope levelLimit t e := annotate_shape ⟨p, he⟩
  have hcases := hshape.wordOr hg hnames
  have hword (h : Word letter e.render) : ¬ AppliesUnknown e.render :=
    h.not_appliesUnknown hunknown hopen
  refine ⟨⟨hword, fun h => ?_⟩, fun h => ?_, fun v => hshape.appliesUnknown⟩
  · exact hcases.resolve_right fun hbad => h hbad.1
  · exact (hcases.resolve_left fun h' => hword h' h).2

/-- A class and an interface that shares its name with a variable, and references to both with a
string as argument. -/
def boxes : TypeGraph where
  types := #[
    { flags := .ofList [TypeFlag.string] },
    .object (.ofList [ObjectFlag.classType]) (some ⟨0⟩),
    .object (.ofList [ObjectFlag.interface]) (some ⟨1⟩),
    { TypeRecord.object (.ofList [ObjectFlag.reference]) none with
      target? := some ⟨1⟩, arguments := [⟨0⟩] },
    { TypeRecord.object (.ofList [ObjectFlag.reference]) none with
      target? := some ⟨2⟩, arguments := [⟨0⟩] }]
  symbols := #[
    { name := "Box" },
    { name := "Thing", flags := .ofList [SymbolFlag.interface, .functionScopedVariable] }]

/-- A letter or a digit. -/
def IsAlphanumeric (c : Char) : Prop := c.isAlphanum = true

theorem boxes_resolved : boxes.Resolved where
  symbols t r s hr hs := by
    have h : ∀ r ∈ boxes.types.toList, ∀ s ∈ r.symbol?, boxes.symbol? s ≠ none := by decide
    exact h r (TypeGraph.mem_types_of_type? hr) s hs
  parents s sym p hsym hp := by
    have h : ∀ sym ∈ boxes.symbols.toList, sym.parent? = none := by decide
    have := h sym (TypeGraph.mem_symbols_of_symbol? hsym)
    simp [this] at hp
  targets t r hr hf := by
    have h : ∀ r ∈ boxes.types.toList, r.form = .reference →
        r.target? = some ⟨1⟩ ∨ r.target? = some ⟨2⟩ := by decide
    rcases h r (TypeGraph.mem_types_of_type? hr) hf with htarget | htarget
    · exact ⟨⟨1⟩, _, htarget, rfl, by decide⟩
    · exact ⟨⟨2⟩, _, htarget, rfl, by decide⟩

theorem boxes_names : NamesAre (IsName IsAlphanumeric) boxes { anchor := .nowhere } where
  symbols s sym hsym := by
    have h : ∀ sym ∈ boxes.symbols.toList, sym.name ≠ "" ∧
        sym.name.toList.all Char.isAlphanum = true := by decide
    obtain ⟨hne, hletters⟩ := h sym (TypeGraph.mem_symbols_of_symbol? hsym)
    exact .word hne (List.all_eq_true.1 hletters)
  members s sym hsym := by
    have h : ∀ sym ∈ boxes.symbols.toList, sym.members.fields = [] := by decide
    simp [h sym (TypeGraph.mem_symbols_of_symbol? hsym)]
  aliases s name h := by simp [Bindings.find?_empty] at h

theorem boxes_word : Word IsAlphanumeric "!Box<string>" ∧ AppliesUnknown "?<string>" := by
  have hunknown : ¬ IsAlphanumeric '?' := by simp [IsAlphanumeric]
  have hopen : ¬ IsAlphanumeric '<' := by simp [IsAlphanumeric]
  constructor
  · have hbox : (annotate boxes { anchor := .nowhere } ⟨3⟩).outcome {} =
        .ok (.apply (.named "Box") [.primitive .string]) := by rfl
    exact (annotate_word hunknown hopen boxes_resolved boxes_names ⟨3⟩ {} _ hbox).1.2 (by decide)
  · have hthing : (annotate boxes { anchor := .nowhere } ⟨4⟩).outcome {} =
        .ok (.apply (.unknown .degraded) [.primitive .string]) := by rfl
    have happlies : Applies boxes { anchor := .nowhere } ⟨4⟩ ⟨2⟩ := by
      refine ⟨_, rfl, by decide, ?_, rfl, by decide, by decide⟩
      rintro (⟨hs, -⟩ | ⟨hf, -⟩ | ⟨hf, -⟩ | ⟨-, htarget⟩)
      · cases hs
      · exact absurd hf (by decide)
      · exact absurd hf (by decide)
      · cases htarget
    have hnameless : Nameless boxes { anchor := .nowhere } ⟨2⟩ :=
      ⟨_, rfl, by decide, .conflict (by decide) (by decide) rfl rfl (by decide) rfl rfl⟩
    exact (annotate_word hunknown hopen boxes_resolved boxes_names ⟨4⟩ {} _ hthing).2.2 _
      happlies hnameless

/-- Not all results are words, as a reference to an interface with the name of a variable shows. -/
theorem exists_not_word : ¬ ∀ (g : TypeGraph) (scope : Scope) (t : TypeId) (p : Progress)
    (e : TypeExpr), g.Resolved → NamesAre (IsName IsAlphanumeric) g scope →
      (annotate g scope t).outcome p = .ok e → Word IsAlphanumeric e.render := by
  intro h
  have hthing : (annotate boxes { anchor := .nowhere } ⟨4⟩).outcome {} =
      .ok (.apply (.unknown .degraded) [.primitive .string]) := by rfl
  have hword := h boxes { anchor := .nowhere } ⟨4⟩ {} _ boxes_resolved boxes_names hthing
  refine hword.not_appliesUnknown ?_ ?_ ?_
  · simp [IsAlphanumeric]
  · simp [IsAlphanumeric]
  · decide

end ClosureTypes
