import ClosureTypes.Proofs.Faults
import Mathlib.Data.List.Nodup
import Mathlib.Data.Nat.Bitwise

/-!
# Kinds of flag words

Which kind a flag word makes is a matter of the flags that stand for a kind, and of a table over
them: one flag decides, several make a union or a member of an enumeration, all others have no kind.
Each kind is served in one way. A type whose flags make no kind is the only one that can be told
off for its flags.

1. `FlagSet.has_eq_testBit`: flag words, bit by bit.
2. `Kind.ofFlags?_eq_iff`: the kind of a flag word is as the table says.
3. `annotate_by_kind`: how types are served by kind.
-/

namespace ClosureTypes

/-! ## Flag words, bit by bit -/

section

variable {φ : Type} [Flag φ]

theorem Flag.position_injective : Function.Injective (Flag.position (φ := φ)) := by
  have hnodup : ((Flag.all (φ := φ)).map Flag.position).Nodup :=
    List.pairwise_map.2 (Flag.sorted.imp Nat.ne_of_lt)
  intro f f' h
  exact List.inj_on_of_nodup_map hnodup (Flag.mem_all f) (Flag.mem_all f') h

theorem Flag.toNat_bit (f : φ) : (Flag.bit f).toNat = 2 ^ Flag.position f := by
  have hlt := Flag.position_lt f
  have hshift : (UInt32.ofNat (Flag.position f)).toNat = Flag.position f :=
    UInt32.toNat_ofNat_of_lt' (Nat.lt_trans hlt (by decide : 32 < UInt32.size))
  simp only [Flag.bit, UInt32.toNat_shiftLeft, hshift, UInt32.toNat_one, Nat.one_shiftLeft,
    Nat.mod_eq_of_lt hlt]
  exact Nat.mod_eq_of_lt (Nat.pow_lt_pow_right (by decide) hlt)

theorem FlagSet.has_eq_testBit (s : FlagSet φ) (f : φ) :
    s.has f = s.bits.toNat.testBit (Flag.position f) := by
  have hiff : s.bits &&& Flag.bit f = 0 ↔ s.bits.toNat.testBit (Flag.position f) = false := by
    rw [← UInt32.toNat_inj, UInt32.toNat_and, Flag.toNat_bit, Nat.and_two_pow]
    cases s.bits.toNat.testBit (Flag.position f) <;> simp
  rw [FlagSet.has, Bool.eq_iff_iff]
  simp [hiff]

theorem FlagSet.has_bit_iff {f f' : φ} : FlagSet.has ⟨Flag.bit f⟩ f' = true ↔ f' = f := by
  rw [has_eq_testBit, Flag.toNat_bit, Nat.testBit_two_pow, decide_eq_true_iff]
  exact ⟨fun h => Flag.position_injective h.symm, fun h => h ▸ rfl⟩

/-- A word whose set bits all belong to flags is settled by the flags that it has. -/
theorem FlagSet.eq_of_has {s t : FlagSet φ}
    (hs : ∀ i, s.bits.toNat.testBit i = true → ∃ f : φ, Flag.position f = i)
    (ht : ∀ i, t.bits.toNat.testBit i = true → ∃ f : φ, Flag.position f = i)
    (h : ∀ f, s.has f = t.has f) : s = t := by
  have hbits : s.bits.toNat = t.bits.toNat := by
    refine Nat.eq_of_testBit_eq fun i => ?_
    by_cases hi : ∃ f : φ, Flag.position f = i
    · obtain ⟨f, rfl⟩ := hi
      rw [← has_eq_testBit, ← has_eq_testBit, h f]
    · rw [Bool.eq_false_iff.2 fun hbit => hi (hs i hbit),
        Bool.eq_false_iff.2 fun hbit => hi (ht i hbit)]
  cases s
  cases t
  exact congrArg FlagSet.mk (UInt32.toNat_inj.1 hbits)

end

/-! ## The flags that stand for a kind -/

/-- The word with only those of its bits that stand for a kind. -/
def FlagSet.kindBits (flags : TypeFlags) : TypeFlags := ⟨flags.bits &&& TypeFlag.kindFlags.bits⟩

namespace FlagSet

theorem testBit_kindBits (flags : TypeFlags) (i : Nat) :
    flags.kindBits.bits.toNat.testBit i = (flags.bits.toNat.testBit i && decide (i < 20)) := by
  have hmask : TypeFlag.kindFlags.bits.toNat = 2 ^ 20 - 1 := by
    rw [TypeFlag.bits_kindFlags]
    rfl
  rw [kindBits, UInt32.toNat_and, Nat.testBit_and, hmask, Nat.testBit_two_pow_sub_one]

theorem has_kindBits (flags : TypeFlags) (f : TypeFlag) :
    flags.kindBits.has f = (flags.has f && f.kind?.isSome) := by
  have hposition : decide (Flag.position f < 20) = f.kind?.isSome := by
    cases f <;> rfl
  rw [has_eq_testBit, testBit_kindBits, hposition, has_eq_testBit]

theorem exists_flag_of_testBit {flags : TypeFlags} {i : Nat}
    (h : flags.kindBits.bits.toNat.testBit i = true) : ∃ f : TypeFlag, Flag.position f = i := by
  have hall : ∀ i < 20, ∃ f ∈ TypeFlag.all, Flag.position f = i := by decide
  rw [testBit_kindBits, Bool.and_eq_true, decide_eq_true_iff] at h
  obtain ⟨f, -, hf⟩ := hall i h.2
  exact ⟨f, hf⟩

end FlagSet

namespace Kind

theorem mem_candidates {flags : TypeFlags} {kind : Kind} :
    kind ∈ candidates flags ↔ ∃ f, flags.has f = true ∧ f.kind? = some kind := by
  simp [candidates, List.mem_filterMap, FlagSet.mem_members]

/-- Flags that stand for no kind do not matter. -/
theorem candidates_kindBits (flags : TypeFlags) : candidates flags.kindBits = candidates flags := by
  unfold candidates FlagSet.members
  rw [List.filterMap_filter, List.filterMap_filter]
  refine List.filterMap_congr fun f _ => ?_
  rw [FlagSet.has_kindBits]
  cases flags.has f <;> cases f.kind? <;> rfl

theorem ofFlags?_kindBits (flags : TypeFlags) : ofFlags? flags.kindBits = ofFlags? flags := by
  rw [ofFlags?, ofFlags?, candidates_kindBits]

/-! ## The table -/

/-- At least two flags of the word are set. -/
def HasSeveral (m : TypeFlags) : Prop := ∃ f f', f ≠ f' ∧ m.has f = true ∧ m.has f' = true

/-- **The table.** The kind of a word in which only flags that stand for a kind are set. -/
inductive Row (m : TypeFlags) : Option Kind → Prop
  | lone {f : TypeFlag} {kind : Kind} : m.bits = Flag.bit f → f.kind? = some kind →
      Row m (some kind)
  | union : HasSeveral m → m.has .union = true → Row m (some union)
  | stringLiteral : HasSeveral m → m.has .union = false → m.has .enumLiteral = true →
      m.has .stringLiteral = true → Row m (some stringLiteral)
  | enumLiteral : HasSeveral m → m.has .union = false → m.has .enumLiteral = true →
      m.has .stringLiteral = false → Row m (some enumLiteral)
  | others : HasSeveral m → m.has .union = false → m.has .enumLiteral = false → Row m none
  | empty : m.bits = 0 → Row m none

theorem kind?_injective {f f' : TypeFlag} (hf : f.kind? ≠ none) (h : f.kind? = f'.kind?) :
    f = f' := by
  have hall : ∀ f ∈ TypeFlag.all, ∀ f' ∈ TypeFlag.all, f.kind? ≠ none → f.kind? = f'.kind? →
      f = f' := by decide
  exact hall f (Flag.mem_all f) f' (Flag.mem_all f') hf h

theorem mem_candidates_of_kind? {flags : TypeFlags} {f : TypeFlag} {kind : Kind}
    (h : f.kind? = some kind) : kind ∈ candidates flags ↔ flags.has f = true := by
  rw [mem_candidates]
  constructor
  · rintro ⟨f', hf', hkind⟩
    rwa [kind?_injective (by simp [h]) (h.trans hkind.symm)]
  · intro hf
    exact ⟨f, hf, h⟩

/-- Among several candidates, unions go before members of enumerations. -/
theorem ofCandidates?_of_ne {kinds : List Kind} {kind kind' : Kind} (hkind : kind ∈ kinds)
    (hkind' : kind' ∈ kinds) (hne : kind ≠ kind') :
    ofCandidates? kinds =
      if union ∈ kinds then some union
      else if enumLiteral ∈ kinds then
        some (if stringLiteral ∈ kinds then stringLiteral else enumLiteral)
      else none := by
  unfold ofCandidates?
  split
  · rw [List.mem_singleton] at hkind hkind'
    exact (hne (hkind.trans hkind'.symm)).elim
  · rfl

theorem ofFlags?_of_hasSeveral {flags : TypeFlags} (h : HasSeveral flags.kindBits) :
    ofFlags? flags.kindBits =
      if flags.kindBits.has .union then some union
      else if flags.kindBits.has .enumLiteral then
        some (if flags.kindBits.has .stringLiteral then stringLiteral else enumLiteral)
      else none := by
  have hunion : union ∈ candidates flags.kindBits ↔ flags.kindBits.has .union = true :=
    mem_candidates_of_kind? rfl
  have henum : enumLiteral ∈ candidates flags.kindBits ↔ flags.kindBits.has .enumLiteral = true :=
    mem_candidates_of_kind? rfl
  have hstring :
      stringLiteral ∈ candidates flags.kindBits ↔ flags.kindBits.has .stringLiteral = true :=
    mem_candidates_of_kind? rfl
  have hkind {f : TypeFlag} (hf : flags.kindBits.has f = true) :
      ∃ kind, f.kind? = some kind := by
    rw [FlagSet.has_kindBits, Bool.and_eq_true] at hf
    exact Option.isSome_iff_exists.1 hf.2
  obtain ⟨f, f', hne, hf, hf'⟩ := h
  obtain ⟨kind, hk⟩ := hkind hf
  obtain ⟨kind', hk'⟩ := hkind hf'
  rw [ofFlags?, ofCandidates?_of_ne ((mem_candidates_of_kind? hk).2 hf)
    ((mem_candidates_of_kind? hk').2 hf')]
  · simp only [hunion, henum, hstring]
  · rintro rfl
    exact hne (kind?_injective (by simp [hk]) (hk.trans hk'.symm))

theorem ofFlags?_bit (f : TypeFlag) : ofFlags? ⟨Flag.bit f⟩ = f.kind? := by
  have hall : ∀ f ∈ TypeFlag.all, ofFlags? ⟨Flag.bit f⟩ = f.kind? := by decide
  exact hall f (Flag.mem_all f)

variable {flags : TypeFlags} {kind? : Option Kind}

theorem Row.ofFlags? (h : Row flags.kindBits kind?) : ofFlags? flags = kind? := by
  rw [← ofFlags?_kindBits]
  cases h with
  | lone hbits hkind =>
    rw [← hkind, ← ofFlags?_bit, ← hbits]
  | union hseveral hunion => simp [ofFlags?_of_hasSeveral hseveral, hunion]
  | stringLiteral hseveral hunion henum hstring =>
    simp [ofFlags?_of_hasSeveral hseveral, hunion, henum, hstring]
  | enumLiteral hseveral hunion henum hstring =>
    simp [ofFlags?_of_hasSeveral hseveral, hunion, henum, hstring]
  | others hseveral hunion henum => simp [ofFlags?_of_hasSeveral hseveral, hunion, henum]
  | empty hbits =>
    have hzero : flags.kindBits = ⟨0⟩ := congrArg FlagSet.mk hbits
    rw [hzero]
    decide

/-- Some row applies to each word. -/
theorem exists_row (flags : TypeFlags) : ∃ kind?, Row flags.kindBits kind? := by
  by_cases hseveral : HasSeveral flags.kindBits
  · cases hunion : flags.kindBits.has .union with
    | true => exact ⟨_, .union hseveral hunion⟩
    | false =>
      cases henum : flags.kindBits.has .enumLiteral with
      | false => exact ⟨_, .others hseveral hunion henum⟩
      | true =>
        cases hstring : flags.kindBits.has .stringLiteral with
        | true => exact ⟨_, .stringLiteral hseveral hunion henum hstring⟩
        | false => exact ⟨_, .enumLiteral hseveral hunion henum hstring⟩
  · have hnamed {i : Nat} := @FlagSet.exists_flag_of_testBit flags i
    by_cases hsome : ∃ f, flags.kindBits.has f = true
    · obtain ⟨f, hf⟩ := hsome
      have hlone : flags.kindBits = ⟨Flag.bit f⟩ := by
        refine FlagSet.eq_of_has (fun i => hnamed) (fun i hi => ?_) fun f' => ?_
        · rw [Flag.toNat_bit, Nat.testBit_two_pow, decide_eq_true_iff] at hi
          exact ⟨f, hi⟩
        · rw [Bool.eq_iff_iff, FlagSet.has_bit_iff]
          refine ⟨fun hf' => ?_, fun heq => heq ▸ hf⟩
          by_contra hne
          exact hseveral ⟨f', f, hne, hf', hf⟩
      have hkind := hf
      rw [FlagSet.has_kindBits, Bool.and_eq_true] at hkind
      obtain ⟨kind, hkind⟩ := Option.isSome_iff_exists.1 hkind.2
      exact ⟨_, .lone (congrArg FlagSet.bits hlone) hkind⟩
    · have hzero : flags.kindBits = FlagSet.empty := by
        refine FlagSet.eq_of_has (fun i => hnamed) (fun i hi => ?_) fun f => ?_
        · simp [FlagSet.empty] at hi
        · rw [Bool.eq_false_iff.2 fun hf => hsome ⟨f, hf⟩]
          simp [FlagSet.has, FlagSet.empty]
      exact ⟨_, .empty (congrArg FlagSet.bits hzero)⟩

/-- **Kinds.** The kind of a flag word is as the table says. -/
theorem ofFlags?_eq_iff : ofFlags? flags = kind? ↔ Row flags.kindBits kind? := by
  refine ⟨fun h => ?_, Row.ofFlags?⟩
  obtain ⟨kind?', hrow⟩ := exists_row flags
  rwa [← h, hrow.ofFlags?]

end Kind

/-! ## Service by kind -/

section

variable {g : TypeGraph} {scope : Scope} {t : TypeId} {r : TypeRecord}

/-- The ways in which a type is served, one level up from `recur`, by its kind. -/
inductive Annotate.Serves (g : TypeGraph) (scope : Scope) (recur : TypeId → Walk TypeExpr)
    (t : TypeId) (r : TypeRecord) : Kind → Walk TypeExpr → Prop
  | fixed {kind : Kind} {e : TypeExpr} : kind.fixed? = some e →
      Serves g scope recur t r kind (pure e)
  | never : Serves g scope recur t r .never (Walk.degrade "should not emit a 'never' type")
  | typeParameter : Serves g scope recur t r .typeParameter
      (Walk.degrade ("unhandled type parameter " ++ g.describe t))
  | object : Serves g scope recur t r .object (object g scope recur t r)
  | union : Serves g scope recur t r .union (union recur r)
  | unhandled {kind : Kind} : kind ∈ [.intersection, .index, .indexedAccess] →
      Serves g scope recur t r kind (Walk.degrade ("unhandled type " ++ g.describe t))

/-- A kind whose expression is fixed is served by it and in no other way, and a kind whose
expression is not fixed is served in its own way only. -/
theorem Annotate.serves_iff {recur : TypeId → Walk TypeExpr} {kind : Kind} {walk : Walk TypeExpr} :
    Serves g scope recur t r kind walk ↔
      kind.fixed?.elim (byKind g scope recur t r kind) pure = walk := by
  constructor
  · intro h
    cases h with
    | fixed he => rw [he, Option.elim_some]
    | never => rfl
    | typeParameter => rfl
    | object => rfl
    | union => rfl
    | unhandled hkind =>
      simp only [List.mem_cons, List.not_mem_nil, or_false] at hkind
      rcases hkind with rfl | rfl | rfl <;> rfl
  · rintro rfl
    cases he : kind.fixed? with
    | some e => exact .fixed he
    | none =>
      cases kind with
      | never => exact .never
      | typeParameter => exact .typeParameter
      | object => exact .object
      | union => exact .union
      | intersection | index | indexedAccess => exact .unhandled (by decide)
      | _ => cases he

/-- A fault about flags tells of a type somewhere below whose flags make no kind. -/
theorem no_kind_of_outcome {n : Nat} {p : Progress} {flags : TypeFlags} {description : String}
    (h : (annotateWithin g scope n t).outcome p = .error (.unknownKind flags description)) :
    Kind.ofFlags? flags = none := by
  have hrules := annotateWithin_rules (Walk.faultsIn_congruence (g.HasFlaw scope.anchor t) _).rules
    n (TypeGraph.reaches_self t)
  obtain ⟨u, r', -, -, rfl, hk, -⟩ := hrules.2 p _ h
  exact hk

/-- **Service by kind.** Only the flags that stand for a kind matter, and what they make is as the
table says. A type ends in a fault about its own flags just if they make no kind. Any other type is
served in the one way that its kind has: by a fixed expression, or by an arm of its own. -/
theorem annotate_by_kind :
    (∀ flags, Kind.ofFlags? flags.kindBits = Kind.ofFlags? flags ∧
      ∀ kind?, Kind.ofFlags? flags = kind? ↔ Kind.Row flags.kindBits kind?) ∧
    (∀ kind : Kind, kind.fixed? = none ↔ kind ∈ [.never, .typeParameter, .object, .union,
      .intersection, .index, .indexedAccess]) ∧
    ∀ (g : TypeGraph) (scope : Scope) (t : TypeId) (r : TypeRecord), g.type? t = some r →
      ∀ (n : Nat) (p : Progress),
        ((annotateWithin g scope (n + 1) t).outcome p =
            .error (.unknownKind r.flags (g.describe t)) ↔ Kind.ofFlags? r.flags = none) ∧
        ∀ kind, Kind.ofFlags? r.flags = some kind →
          (∀ description, (annotateWithin g scope (n + 1) t).outcome p ≠
            .error (.unknownKind r.flags description)) ∧
          ∀ walk, Annotate.Serves g scope (annotateWithin g scope n) t r kind walk ↔
            annotateWithin g scope (n + 1) t = walk := by
  refine ⟨fun flags => ⟨Kind.ofFlags?_kindBits flags, fun _ => Kind.ofFlags?_eq_iff⟩,
    fun kind => ?_, fun g scope t r hr n p => ⟨⟨no_kind_of_outcome, fun hk => ?_⟩, ?_⟩⟩
  · cases kind <;> decide
  · rw [annotateWithin_of_no_kind hr hk]
    rfl
  · intro kind hk
    refine ⟨fun description h => ?_, fun walk => ?_⟩
    · cases hk.symm.trans (no_kind_of_outcome h)
    · rw [Annotate.serves_iff, annotateWithin_of_kind hr hk]

end

/-- A union of one type, whose flags are those of strings and of numbers; and an intersection that
has a flag beside that stands for no kind. -/
def mixtures : TypeGraph where
  types := #[
    { flags := .ofList [TypeFlag.union], constituents := [⟨1⟩] },
    { flags := .ofList [TypeFlag.string, TypeFlag.number] },
    { flags := .ofList [TypeFlag.intersection, TypeFlag.unknown] }]

theorem mixtures_annotated :
    (annotate mixtures { anchor := .nowhere } ⟨1⟩).outcome {} =
        .error (.unknownKind (.ofList [.string, .number]) (mixtures.describe ⟨1⟩)) ∧
      (annotate mixtures { anchor := .nowhere } ⟨0⟩).outcome {} ≠
        .error (.unknownKind (.ofList [.union]) (mixtures.describe ⟨0⟩)) ∧
      annotate mixtures { anchor := .nowhere } ⟨2⟩ =
        Walk.degrade ("unhandled type " ++ mixtures.describe ⟨2⟩) := by
  have hserved (t : TypeId) (r : TypeRecord) (hr : mixtures.type? t = some r) :=
    annotate_by_kind.2.2 mixtures { anchor := .nowhere } t r hr 127 {}
  refine ⟨(hserved ⟨1⟩ _ rfl).1.2 (by decide), ?_, ?_⟩
  · exact ((hserved ⟨0⟩ _ rfl).2 .union (by decide)).1 _
  · exact (((hserved ⟨2⟩ _ rfl).2 .intersection (by decide)).2 _).1 (.unhandled (by decide))

end ClosureTypes
