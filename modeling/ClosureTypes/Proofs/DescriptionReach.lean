import ClosureTypes.Graph.Describe

/-!
# What descriptions read

The description of a type reads the record of the type, the names and the roles of the symbols that
the record names, and the records of the alias's arguments, down to its last level. There it only
asks whether the graph knows a type. Two graphs that agree on all this describe the type alike.

1. `argumentAt?`: the types that the alias's arguments lead to.
2. `descriptionParts_congr`: what one level reads.
3. `describeWithin_congr`: what all levels read.
-/

namespace ClosureTypes

namespace TypeGraph

/-! ## Types that arguments lead to -/

section

variable (g : TypeGraph)

/-- The type that `t` leads to through the alias's arguments at the given positions, one after the
other. -/
def argumentAt? : List Nat → TypeId → Option TypeId
  | [], t => some t
  | i :: place, t => ((g.type? t).bind (·.aliasArguments[i]?)).bind (argumentAt? place)

/-- The types that `n` edges from alias to argument lead to. -/
def argumentsIn : Nat → TypeId → List TypeId
  | 0, t => [t]
  | n + 1, t => (g.type? t).toList.flatMap fun r => r.aliasArguments.flatMap (argumentsIn n)

variable {g}

theorem argumentAt?_cons {t u : TypeId} {r : TypeRecord} {i : Nat} (hr : g.type? t = some r)
    (hi : r.aliasArguments[i]? = some u) (place : List Nat) :
    g.argumentAt? (i :: place) t = g.argumentAt? place u := by
  rw [argumentAt?, hr, Option.bind_some, hi, Option.bind_some]

theorem mem_argumentsIn_iff {n : Nat} {t u : TypeId} :
    u ∈ g.argumentsIn n t ↔ ∃ place, place.length = n ∧ g.argumentAt? place t = some u := by
  induction n generalizing t with
  | zero => simp [argumentsIn, argumentAt?, eq_comm]
  | succ n ih =>
    simp only [argumentsIn, List.mem_flatMap, Option.mem_toList, ih]
    constructor
    · rintro ⟨r, hr, v, hv, place, rfl, hu⟩
      obtain ⟨i, hi⟩ := List.mem_iff_getElem?.1 hv
      exact ⟨i :: place, rfl, (argumentAt?_cons hr hi place).trans hu⟩
    · rintro ⟨_ | ⟨i, place⟩, hlength, hu⟩
      · cases hlength
      · obtain ⟨v, hv, hu⟩ := Option.bind_eq_some_iff.1 hu
        obtain ⟨r, hr, hi⟩ := Option.bind_eq_some_iff.1 hv
        exact ⟨r, hr, v, List.mem_of_getElem? hi, place, Nat.succ.inj hlength, hu⟩

end

/-! ## Agreement -/

/-- Both graphs know the symbol, by the same name and in the same roles, or neither does. -/
def DescribedAlike (g g' : TypeGraph) (s : SymbolId) : Prop :=
  (g.symbol? s).map (fun sym => (sym.name, sym.flags)) =
    (g'.symbol? s).map fun sym => (sym.name, sym.flags)

instance (g g' : TypeGraph) (s : SymbolId) : Decidable (g.DescribedAlike g' s) :=
  inferInstanceAs (Decidable (_ = _))

/-- The graphs have the same records for all types that less than `n` edges lead to from `t`, agree
on the symbols that these records name, and know the same of the types that `n` edges lead to. -/
structure AgreeWithin (g g' : TypeGraph) (n : Nat) (t : TypeId) : Prop where
  records : ∀ m < n, ∀ u ∈ g.argumentsIn m t, g.type? u = g'.type? u
  symbols : ∀ m < n, ∀ u ∈ g.argumentsIn m t, ∀ r ∈ g.type? u,
    ∀ s ∈ r.symbol?.toList ++ r.aliasSymbol?.toList, g.DescribedAlike g' s
  known : ∀ u ∈ g.argumentsIn n t, (g.type? u = none ↔ g'.type? u = none)

/-! ## One level -/

section

variable {g g' : TypeGraph} {r : TypeRecord}

theorem shownAlias?_congr (h : ∀ s, r.aliasSymbol? = some s → g.DescribedAlike g' s) :
    (g.shownAlias? r).map Symbol.describe = (g'.shownAlias? r).map Symbol.describe := by
  unfold shownAlias?
  cases hs : r.aliasSymbol? with
  | none => rfl
  | some s =>
    have hdescribe := congrArg (Option.map fun d => Symbol.describe { name := d.1, flags := d.2 })
      (h s hs)
    rwa [Option.map_map, Option.map_map] at hdescribe

theorem shownName?_congr (h : ∀ s, r.symbol? = some s → g.DescribedAlike g' s) :
    g.shownName? r = g'.shownName? r := by
  unfold shownName?
  cases hs : r.symbol? with
  | none => rfl
  | some s =>
    have hname := congrArg
      (Option.bind · fun d => if d.1 = Symbol.literalName then none else some d.1) (h s hs)
    rwa [Option.bind_map, Option.bind_map] at hname

theorem descriptionParts_congr {argument argument' : TypeId → String}
    (hsymbols : ∀ s ∈ r.symbol?.toList ++ r.aliasSymbol?.toList, g.DescribedAlike g' s)
    (harguments : ∀ u ∈ r.aliasArguments, argument u = argument' u) :
    g.descriptionParts argument r = g'.descriptionParts argument' r := by
  have halias : (g.shownAlias? r).map Symbol.describe = (g'.shownAlias? r).map Symbol.describe :=
    shownAlias?_congr fun s hs => hsymbols s (by simp [hs])
  have hname : g.shownName? r = g'.shownName? r :=
    shownName?_congr fun s hs => hsymbols s (by simp [hs])
  have hdescriptions := congrArg (fun d => d.toList.map ("alias:" ++ ·)) halias
  simp only [Option.toList_map, List.map_map, Function.comp_def] at hdescriptions
  unfold descriptionParts
  rw [hdescriptions, hname, List.map_congr_left harguments]

end

/-! ## All levels -/

section

variable {g g' : TypeGraph} {n : Nat} {t : TypeId}

/-- Agreement for a type is agreement for its arguments, with one edge less. -/
theorem AgreeWithin.argument (h : g.AgreeWithin g' (n + 1) t) {r : TypeRecord}
    (hr : g.type? t = some r) {u : TypeId} (hu : u ∈ r.aliasArguments) :
    g.AgreeWithin g' n u := by
  have hstep {m : Nat} {v : TypeId} (hv : v ∈ g.argumentsIn m u) : v ∈ g.argumentsIn (m + 1) t :=
    List.mem_flatMap.2 ⟨r, Option.mem_toList.2 hr, List.mem_flatMap.2 ⟨u, hu, hv⟩⟩
  exact {
    records := fun m hm v hv => h.records (m + 1) (Nat.succ_lt_succ hm) v (hstep hv)
    symbols := fun m hm v hv => h.symbols (m + 1) (Nat.succ_lt_succ hm) v (hstep hv)
    known := fun v hv => h.known v (hstep hv) }

/-- **Reach.** What a description reads lies within its levels. -/
theorem describeWithin_congr (h : g.AgreeWithin g' n t) :
    g.describeWithin n t = g'.describeWithin n t := by
  induction n generalizing t with
  | zero =>
    have hknown := h.known t (List.mem_singleton_self t)
    unfold describeWithin
    cases hr : g.type? t <;> cases hr' : g'.type? t <;> simp [hr, hr'] at hknown ⊢
  | succ n ih =>
    have hrecord := h.records 0 n.succ_pos t (List.mem_singleton_self t)
    unfold describeWithin
    rw [← hrecord]
    cases hr : g.type? t with
    | none => rfl
    | some r =>
      have hparts := descriptionParts_congr (h.symbols 0 n.succ_pos t (List.mem_singleton_self t) r hr)
        fun u hu => ih (h.argument hr hu)
      exact congrArg bracketed hparts

end

end TypeGraph

end ClosureTypes
