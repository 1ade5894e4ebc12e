import ClosureTypes.Annotate.Basic
import Mathlib.Logic.Relation

/-!
# Reaching types

A type leads on to the types that its expression is made of: a union to its constituents, a
reference to its target and its arguments, an anonymous type to the types of parameters, results,
members and index values. Which of them count is told by the same cases that the expression goes
by. Types that are written by name, and those that cannot be expressed, lead nowhere.

1. `TypeGraph.Reaches`: what a type leads to in any number of steps.
2. `TypeGraph.HasFlaw`: the inconsistencies among the types that a type leads to.
-/

namespace ClosureTypes

/-- How the expression of a type is made of those of other types. -/
inductive Form
  | union
  /-- The type has a name, by which it is written. -/
  | named
  | reference
  | anonymous
  /-- The expression does not depend on other types. -/
  | other
  deriving DecidableEq

/-- The form of a type with this record. -/
def TypeRecord.form (r : TypeRecord) : Form :=
  match Kind.ofFlags? r.flags with
  | some .union => .union
  | some .object =>
    if r.objectFlags.has .classType || r.objectFlags.has .interface then .named
    else if r.objectFlags.has .reference then .reference
    else if r.objectFlags.has .anonymous then .anonymous
    else .other
  | _ => .other

namespace TypeRecord

variable {r : TypeRecord}

theorem form_eq_anonymous_iff :
    r.form = .anonymous ↔ Kind.ofFlags? r.flags = some .object ∧
      r.objectFlags.has .classType = false ∧ r.objectFlags.has .interface = false ∧
      r.objectFlags.has .reference = false ∧ r.objectFlags.has .anonymous = true := by
  unfold form
  cases Kind.ofFlags? r.flags with
  | none => simp
  | some kind =>
    cases kind with
    | object =>
      cases r.objectFlags.has .classType <;> cases r.objectFlags.has .interface <;>
        cases r.objectFlags.has .reference <;> cases r.objectFlags.has .anonymous <;> simp
    | _ => simp

theorem form_of_union (hk : Kind.ofFlags? r.flags = some .union) : r.form = .union := by
  rw [form, hk]

theorem form_of_leaf {kind : Kind} (hk : Kind.ofFlags? r.flags = some kind)
    (hobject : kind ≠ .object) (hunion : kind ≠ .union) : r.form = .other := by
  rw [form, hk]
  cases kind <;> simp at hobject hunion ⊢

variable (hk : Kind.ofFlags? r.flags = some .object)

include hk

theorem form_of_class (hc : r.objectFlags.has .classType = true) : r.form = .named := by
  simp [form, hk, hc]

theorem form_of_interface (hi : r.objectFlags.has .interface = true) : r.form = .named := by
  simp [form, hk, hi]

variable (hc : ¬ r.objectFlags.has .classType = true) (hi : ¬ r.objectFlags.has .interface = true)

include hc hi

theorem form_of_reference (hr : r.objectFlags.has .reference = true) : r.form = .reference := by
  simp [form, hk, hc, hi, hr]

variable (hr : ¬ r.objectFlags.has .reference = true)

include hr

theorem form_of_anonymous (ha : r.objectFlags.has .anonymous = true) : r.form = .anonymous := by
  simp [form, hk, hc, hi, hr, ha]

theorem form_of_unsorted (ha : ¬ r.objectFlags.has .anonymous = true) : r.form = .other := by
  simp [form, hk, hc, hi, hr, ha]

end TypeRecord

namespace TypeGraph

variable (g : TypeGraph) (anchor : NodeId)

/-! ## Steps -/

/-- The types of the parameters of a signature as seen from the anchor, and of its result. -/
def signatureTypes (signature : Signature) : List TypeId :=
  signature.parameters.filterMap (g.symbolType? · anchor) ++ signature.result?.toList

theorem mem_signatureTypes_of_parameter {signature : Signature} {s : SymbolId} {u : TypeId}
    (hs : s ∈ signature.parameters) (hu : g.symbolType? s anchor = some u) :
    u ∈ g.signatureTypes anchor signature :=
  List.mem_append_left _ (List.mem_filterMap.2 ⟨s, hs, hu⟩)

theorem mem_signatureTypes_of_result {signature : Signature} {u : TypeId}
    (hu : signature.result? = some u) : u ∈ g.signatureTypes anchor signature := by
  simp [signatureTypes, hu]

/-- The types of a lone signature. -/
def loneSignatureTypes : List Signature → List TypeId
  | [signature] => g.signatureTypes anchor signature
  | _ => []

/-- The types of members as seen from the anchor. -/
def memberTypes (members : List (String × SymbolId)) : List TypeId :=
  members.filterMap fun m => g.symbolType? m.2 anchor

/-- The types of a literal with these fields, beside those of the fields. -/
def shapeTypes (r : TypeRecord) (callable indexable : Bool) :
    List (String × SymbolId) → List TypeId
  | [] =>
    match callable, indexable with
    | true, false => g.loneSignatureTypes anchor r.callSignatures
    | false, true => (r.stringIndex?.or r.numberIndex?).toList
    | _, _ => []
  | _ :: _ => []

/-- The types that a type literal leads to. -/
def literalTypes (r : TypeRecord) (sym : Symbol) : List TypeId :=
  match r.constructSignatures with
  | signature :: _ => g.signatureTypes anchor signature
  | [] =>
    g.memberTypes anchor sym.members.fields ++
      g.shapeTypes anchor r sym.members.isCallable sym.members.isIndexable sym.members.fields

/-- The types that an anonymous type with this symbol leads to. -/
def anonymousTypes (r : TypeRecord) (sym : Symbol) : List TypeId :=
  if sym.flags.has .typeLiteral then g.literalTypes anchor r sym
  else if sym.flags.has .function || sym.flags.has .method then
    g.loneSignatureTypes anchor r.callSignatures
  else []

/-- The types that a reference leads to. -/
def referenceTypes (r : TypeRecord) : List TypeId :=
  match r.target? with
  | none => []
  | some target =>
    if (g.type? target).any (·.objectFlags.has .tuple) then [] else target :: r.arguments

theorem referenceTypes_of_target {r : TypeRecord} {u : TypeId} (hu : r.target? = some u)
    (htuple : ∀ r', g.type? u = some r' → ¬ r'.objectFlags.has .tuple = true) :
    g.referenceTypes r = u :: r.arguments := by
  rw [referenceTypes, hu]
  cases hr' : g.type? u with
  | none => simp [hr']
  | some r' => simp [hr', htuple r' hr']

/-- The types that a type with this record leads to. -/
def recordTypes (r : TypeRecord) : List TypeId :=
  match r.form with
  | .union => r.constituents
  | .reference => g.referenceTypes r
  | .anonymous => (r.symbol?.bind g.symbol?).toList.flatMap (g.anonymousTypes anchor r)
  | .named | .other => []

/-- The types that `t` leads to. -/
def next (t : TypeId) : List TypeId := (g.type? t).toList.flatMap (g.recordTypes anchor)

theorem next_of_type? {t : TypeId} {r : TypeRecord} (hr : g.type? t = some r) :
    g.next anchor t = g.recordTypes anchor r := by
  simp [next, hr]

theorem next_union {t : TypeId} {r : TypeRecord} (hr : g.type? t = some r)
    (hf : r.form = .union) : g.next anchor t = r.constituents := by
  rw [next_of_type? g anchor hr, recordTypes, hf]

theorem next_reference {t : TypeId} {r : TypeRecord} (hr : g.type? t = some r)
    (hf : r.form = .reference) : g.next anchor t = g.referenceTypes r := by
  rw [next_of_type? g anchor hr, recordTypes, hf]

theorem next_anonymous {t : TypeId} {r : TypeRecord} {s : SymbolId} {sym : Symbol}
    (hr : g.type? t = some r) (hf : r.form = .anonymous) (hs : r.symbol? = some s)
    (hsym : g.symbol? s = some sym) : g.next anchor t = g.anonymousTypes anchor r sym := by
  rw [next_of_type? g anchor hr, recordTypes, hf]
  simp [hs, hsym]

/-- `u` is `t` itself, or `t` leads to it in some number of steps. -/
def Reaches : TypeId → TypeId → Prop := Relation.ReflTransGen fun t u => u ∈ g.next anchor t

/-- `t` leads to `u` in exactly so many steps. -/
def LeadsIn : Nat → TypeId → TypeId → Prop
  | 0, t, u => t = u
  | n + 1, t, u => ∃ v ∈ g.next anchor t, LeadsIn n v u

variable {g anchor}

theorem reaches_self (t : TypeId) : g.Reaches anchor t t := .refl

theorem Reaches.trans {t u v : TypeId} (h : g.Reaches anchor t u) (h' : g.Reaches anchor u v) :
    g.Reaches anchor t v :=
  Relation.ReflTransGen.trans h h'

theorem Reaches.tail {t u v : TypeId} (h : g.Reaches anchor t u) (h' : v ∈ g.next anchor u) :
    g.Reaches anchor t v :=
  Relation.ReflTransGen.tail h h'

theorem reaches_of_mem_next {t u : TypeId} (h : u ∈ g.next anchor t) : g.Reaches anchor t u :=
  Reaches.tail .refl h

/-- A list that is closed under steps holds all that its types reach. -/
theorem Reaches.mem_of_closed {l : List TypeId} (hl : ∀ u ∈ l, ∀ v ∈ g.next anchor u, v ∈ l)
    {t u : TypeId} (ht : t ∈ l) (h : g.Reaches anchor t u) : u ∈ l := by
  induction h with
  | refl => exact ht
  | tail _ hv ih => exact hl _ ih _ hv

/-! ## Literals and symbols -/

variable (g anchor)

/-- The type is a type literal, which is expanded only once. -/
def isLiteral (t : TypeId) : Bool :=
  (g.type? t).any fun r =>
    r.form = .anonymous && (r.symbol?.bind g.symbol?).any (·.flags.has .typeLiteral)

theorem isLiteral_iff {t : TypeId} :
    g.isLiteral t = true ↔ ∃ r s sym, g.type? t = some r ∧ Kind.ofFlags? r.flags = some .object ∧
      r.objectFlags.has .classType = false ∧ r.objectFlags.has .interface = false ∧
      r.objectFlags.has .reference = false ∧ r.objectFlags.has .anonymous = true ∧
      r.symbol? = some s ∧ g.symbol? s = some sym ∧ sym.flags.has .typeLiteral = true := by
  simp only [isLiteral, Option.any_eq_true, Bool.and_eq_true, decide_eq_true_eq,
    TypeRecord.form_eq_anonymous_iff, Option.bind_eq_some_iff]
  constructor
  · rintro ⟨r, hr, ⟨hk, hc, hi, href, ha⟩, sym, ⟨s, hs, hsym⟩, hlit⟩
    exact ⟨r, s, sym, hr, hk, hc, hi, href, ha, hs, hsym, hlit⟩
  · rintro ⟨r, s, sym, hr, hk, hc, hi, href, ha, hs, hsym, hlit⟩
    exact ⟨r, hr, ⟨hk, hc, hi, href, ha⟩, sym, ⟨s, hs, hsym⟩, hlit⟩

/-- The symbols that the record of `t` mentions: that of the type, its members and the parameters of
its signatures. -/
def mentioned (t : TypeId) : List SymbolId :=
  (g.type? t).toList.flatMap fun r =>
    r.symbol?.toList
      ++ (r.symbol?.bind g.symbol?).toList.flatMap (·.members.entries.map Prod.snd)
      ++ (r.callSignatures ++ r.constructSignatures).flatMap (·.parameters)

section

variable {t : TypeId} {r : TypeRecord} (hr : g.type? t = some r)

include hr

theorem symbol_mem_mentioned {s : SymbolId} (hs : r.symbol? = some s) : s ∈ g.mentioned t := by
  simp [mentioned, hr, hs]

theorem field_mem_mentioned {s : SymbolId} {sym : Symbol} (hs : r.symbol? = some s)
    (hsym : g.symbol? s = some sym) {m : String × SymbolId} (hm : m ∈ sym.members.fields) :
    m.2 ∈ g.mentioned t := by
  have hm' : m ∈ sym.members.entries := (List.mem_filter.1 hm).1
  have : ∃ name, (name, m.2) ∈ sym.members.entries := ⟨m.1, hm'⟩
  simp [mentioned, hr, hs, hsym, this]

theorem parameter_mem_mentioned {signature : Signature}
    (hσ : signature ∈ r.callSignatures ++ r.constructSignatures) {s : SymbolId}
    (hs : s ∈ signature.parameters) : s ∈ g.mentioned t := by
  simp only [mentioned, hr, Option.toList_some, List.flatMap_cons, List.flatMap_nil,
    List.append_nil, List.mem_append]
  exact Or.inr (List.mem_flatMap.2 ⟨signature, hσ, hs⟩)

end

/-- The fault tells of an inconsistency that is there, at a type that `t` leads to. -/
def HasFlaw (t : TypeId) : GraphFault → Prop
  | .unknownType u => g.Reaches anchor t u ∧ g.type? u = none
  | .unknownSymbol s => ∃ u, g.Reaches anchor t u ∧ s ∈ g.mentioned u ∧ g.symbol? s = none
  | .referenceLoop u description =>
    g.Reaches anchor t u ∧ description = g.describe u ∧
      ∃ r, g.type? u = some r ∧ r.form = .reference ∧ r.objectFlags.has .tuple = false ∧
        r.target? = some u
  | .unknownKind flags description =>
    ∃ u r, g.Reaches anchor t u ∧ g.type? u = some r ∧ r.flags = flags ∧
      Kind.ofFlags? flags = none ∧ description = g.describe u

variable {g anchor}

/-- A flaw that a type leads to is one that all types leading to it lead to. -/
theorem HasFlaw.of_reaches {t u : TypeId} {e : GraphFault} (h : g.HasFlaw anchor u e)
    (ht : g.Reaches anchor t u) : g.HasFlaw anchor t e := by
  cases e with
  | unknownType v => exact ⟨ht.trans h.1, h.2⟩
  | unknownSymbol s =>
    obtain ⟨v, hv, hs⟩ := h
    exact ⟨v, ht.trans hv, hs⟩
  | referenceLoop v description => exact ⟨ht.trans h.1, h.2⟩
  | unknownKind flags description =>
    obtain ⟨v, r, hv, hr⟩ := h
    exact ⟨v, r, ht.trans hv, hr⟩

end TypeGraph

end ClosureTypes
