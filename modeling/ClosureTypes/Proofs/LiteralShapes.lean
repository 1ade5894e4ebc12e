import ClosureTypes.Proofs.Endings
import ClosureTypes.Proofs.Spared

/-!
# The shapes of type literals

A type literal is marked as visited before anything of it is looked at. With construct signatures it
is written as a constructor, after the first of them and whatever else it has. Otherwise its fields
are expressed, and the rest follows from a table. A marker counts there if it is among the members,
wherever it stands.

1. `LiteralShape.exists_of`: exactly one row of the table applies to a literal.
2. `Annotate.shape_ends`: what follows from the row.
3. `annotate_literal`: what a literal is written as.
-/

namespace ClosureTypes

open Walk (Writes)

/-! ## The table -/

/-- What a literal without construct signatures is written as. -/
inductive LiteralShape
  | function (signature : Signature)
  | map (key : IndexKind) (value : TypeId)
  | unknownMap
  | object
  /-- The fields, each with its name. -/
  | record
  | unhandled

namespace LiteralShape

open MemberTable (callName indexName)

/-- **The table.** The shape of a literal with the record `r` and the members `m`. -/
inductive Of (r : TypeRecord) (m : MemberTable) : LiteralShape → Prop
  | function {signature : Signature} : m.fields = [] → callName ∈ m.names → indexName ∉ m.names →
      r.callSignatures = [signature] → Of r m (.function signature)
  | otherCalls : m.fields = [] → callName ∈ m.names → indexName ∉ m.names →
      r.callSignatures.length ≠ 1 → Of r m .unhandled
  | stringMap {t : TypeId} : m.fields = [] → callName ∉ m.names → indexName ∈ m.names →
      r.stringIndex? = some t → Of r m (.map .string t)
  | numberMap {t : TypeId} : m.fields = [] → callName ∉ m.names → indexName ∈ m.names →
      r.stringIndex? = none → r.numberIndex? = some t → Of r m (.map .number t)
  | unknownMap : m.fields = [] → callName ∉ m.names → indexName ∈ m.names →
      r.stringIndex? = none → r.numberIndex? = none → Of r m .unknownMap
  | object : m.fields = [] → callName ∉ m.names → indexName ∉ m.names → Of r m .object
  | record : m.fields ≠ [] → ¬ (callName ∈ m.names ∧ indexName ∈ m.names) → Of r m .record
  | bothMarkers : callName ∈ m.names → indexName ∈ m.names → Of r m .unhandled

variable {r : TypeRecord} {m : MemberTable}

theorem Of.unique {shape shape' : LiteralShape} (h : Of r m shape) (h' : Of r m shape') :
    shape = shape' := by
  cases h <;> cases h' <;> grind

theorem exists_row (r : TypeRecord) (m : MemberTable) : ∃ shape, Of r m shape := by
  by_cases hc : callName ∈ m.names
  · by_cases hi : indexName ∈ m.names
    · exact ⟨_, .bothMarkers hc hi⟩
    · by_cases hf : m.fields = []
      · by_cases hone : r.callSignatures.length = 1
        · obtain ⟨signature, hσ⟩ := List.length_eq_one_iff.1 hone
          exact ⟨_, .function hf hc hi hσ⟩
        · exact ⟨_, .otherCalls hf hc hi hone⟩
      · exact ⟨_, .record hf fun h => hi h.2⟩
  · by_cases hf : m.fields = []
    · by_cases hi : indexName ∈ m.names
      · cases hstring : r.stringIndex? with
        | some t => exact ⟨_, .stringMap hf hc hi hstring⟩
        | none =>
          cases hnumber : r.numberIndex? with
          | some t => exact ⟨_, .numberMap hf hc hi hstring hnumber⟩
          | none => exact ⟨_, .unknownMap hf hc hi hstring hnumber⟩
      · exact ⟨_, .object hf hc hi⟩
    · exact ⟨_, .record hf fun h => hc h.1⟩

/-- Exactly one row applies. -/
theorem exists_of (r : TypeRecord) (m : MemberTable) :
    ∃ shape, ∀ other, Of r m other ↔ other = shape := by
  obtain ⟨shape, h⟩ := exists_row r m
  refine ⟨shape, fun other => ⟨fun hother => hother.unique h, ?_⟩⟩
  rintro rfl
  exact h

end LiteralShape

namespace Annotate

/-! ## Signatures -/

/-- The written form of a call signature, by those of its parameters and of its result. -/
def functionText (parameters : List String) (result? : Option String) : String :=
  "function(" ++ ", ".intercalate parameters ++ ")"
    ++ match result? with
      | none => ""
      | some result => ": " ++ result

/-- The written form of a construct signature, by those of its parameters and of its result. -/
def constructorText (parameters : List String) (result? : Option String) : String :=
  "function("
    ++ ", ".intercalate (("new: (" ++ result?.getD TypeExpr.unknownText ++ ")") :: parameters)
    ++ "): ?"

variable (g : TypeGraph) (scope : Scope) (recur : TypeId → Walk TypeExpr)

/-- The parameters of the signature are expressed in turn, and then its result, if it has one. The
expression is written as `text` says. -/
def SignatureEnding (text : List String → Option String → String) (signature : Signature)
    (p : Progress) : Walk.Ending TypeExpr :=
  Walk.EndsAfterAll (symbolType g scope recur) signature.parameters p fun es q =>
    match signature.result? with
    | none => Writes (text (es.map TypeExpr.render) none) q
    | some t => Walk.EndsAfter (recur t) q fun e =>
        Writes (text (es.map TypeExpr.render) (some e.render))

theorem function_ends (signature : Signature) (p : Progress) :
    (function g scope recur signature).Ends p
      (SignatureEnding g scope recur functionText signature p) := by
  refine Walk.endsAfterAll_mapM_bind fun es q _ => ?_
  cases signature.result? with
  | none => exact ⟨⟨_, rfl, by simp [TypeExpr.render, TypeExpr.renderResult, functionText]⟩, rfl⟩
  | some t =>
    refine Walk.endsAfter_bind fun e q' => ⟨⟨_, rfl, ?_⟩, rfl⟩
    simp [TypeExpr.render, TypeExpr.renderResult, functionText]

theorem constructor_ends (signature : Signature) (p : Progress) :
    (constructor g scope recur signature).Ends p
      (SignatureEnding g scope recur constructorText signature p) := by
  refine Walk.endsAfterAll_mapM_bind fun es q _ => ?_
  cases signature.result? with
  | none => exact ⟨⟨_, rfl, by simp [TypeExpr.render, constructorText]⟩, rfl⟩
  | some t =>
    refine Walk.endsAfter_bind fun e q' => ⟨⟨_, rfl, ?_⟩, rfl⟩
    simp [TypeExpr.render, constructorText]

/-! ## Shapes -/

/-- What follows for a literal of this shape, where its fields have the expressions `es`. -/
def ShapeEnding (fields : List (String × SymbolId)) (es : List TypeExpr) (p : Progress) :
    LiteralShape → Walk.Ending TypeExpr
  | .function signature => SignatureEnding g scope recur functionText signature p
  | .map key t => Walk.EndsAfter (recur t) p fun e =>
      Writes ("!Object<" ++ key.word ++ "," ++ e.render ++ ">")
  | .unknownMap => Writes "!Object<?,?>" { p with log := p.log.report "unknown index key type" }
  | .object => Writes "!Object" p
  | .record =>
    let texts := List.zipWith (fun m e => m.1 ++ ": " ++ e.render) fields es
    Writes ("\x7b" ++ ", ".intercalate texts ++ "\x7d") p
  | .unhandled => Writes "?" { p with log := p.log.report "unhandled type literal" }

theorem fields_bind (members : List (String × SymbolId))
    (next : List (String × TypeExpr) → Walk TypeExpr) :
    fields g scope recur members >>= next =
      members.mapM (fun m => symbolType g scope recur m.2) >>= fun es =>
        next ((members.map Prod.fst).zip es) := by
  rw [fields_eq_mapM, List.mapM_map, bind_assoc]
  simp only [pure_bind, symbolType_eq_run, Function.comp_def]

theorem shape_of_ne_nil (r : TypeRecord) (callable indexable : Bool)
    {fields : List (String × TypeExpr)} (h : fields ≠ []) :
    shape g scope recur r callable indexable fields =
      if callable && indexable then unhandledLiteral else pure (.record fields) := by
  cases fields with
  | nil => exact absurd rfl h
  | cons field rest => rfl

theorem shape_of_both (r : TypeRecord) (fields : List (String × TypeExpr)) :
    shape g scope recur r true true fields = unhandledLiteral := by
  cases fields <;> rfl

theorem shape_ends {r : TypeRecord} {m : MemberTable} {row : LiteralShape}
    (h : LiteralShape.Of r m row) {es : List TypeExpr} (hes : es.length = m.fields.length)
    (p : Progress) :
    (shape g scope recur r m.isCallable m.isIndexable ((m.fields.map Prod.fst).zip es)).Ends p
      (ShapeEnding g scope recur m.fields es p row) := by
  have hcall : m.isCallable = decide (MemberTable.callName ∈ m.names) := List.contains_eq_mem _ _
  have hindex : m.isIndexable = decide (MemberTable.indexName ∈ m.names) :=
    List.contains_eq_mem _ _
  have hnone (hf : m.fields = []) : (m.fields.map Prod.fst).zip es = [] := by rw [hf]; rfl
  rw [hcall, hindex]
  cases h with
  | function hf hc hi hσ =>
    simp only [hnone hf, hc, hi, hσ, decide_true, decide_false, shape]
    exact function_ends g scope recur _ p
  | otherCalls hf hc hi hσ =>
    simp only [hnone hf, hc, hi, decide_true, decide_false, shape]
    split
    · next hone => exact absurd (by rw [hone, List.length_singleton]) hσ
    · exact Walk.degrade_writes _ p
  | stringMap hf hc hi ht =>
    simp only [hnone hf, hc, hi, ht, decide_true, decide_false, shape, map]
    exact Walk.endsAfter_bind fun e q => Walk.pure_writes _ q
  | numberMap hf hc hi hstring ht =>
    simp only [hnone hf, hc, hi, hstring, ht, decide_true, decide_false, shape, map]
    exact Walk.endsAfter_bind fun e q => Walk.pure_writes _ q
  | unknownMap hf hc hi hstring hnumber =>
    simp only [hnone hf, hc, hi, hstring, hnumber, decide_true, decide_false, shape, map]
    exact ⟨⟨_, rfl, rfl⟩, rfl⟩
  | object hf hc hi =>
    simp only [hnone hf, hc, hi, decide_false, shape]
    exact Walk.pure_writes _ p
  | record hf hnot =>
    have hsome : (m.fields.map Prod.fst).zip es ≠ [] := by
      rw [← List.length_pos_iff, List.length_zip, List.length_map, hes, Nat.min_self]
      exact List.length_pos_iff.2 hf
    have hmarkers : ¬ (decide (MemberTable.callName ∈ m.names) &&
        decide (MemberTable.indexName ∈ m.names)) = true := by
      simpa using hnot
    rw [shape_of_ne_nil _ _ _ _ _ _ hsome, if_neg hmarkers]
    refine ⟨⟨_, rfl, ?_⟩, rfl⟩
    simp [TypeExpr.render, List.zip, List.map_zipWith, List.zipWith_map_left]
  | bothMarkers hc hi =>
    simp only [hc, hi, decide_true, shape_of_both]
    exact Walk.degrade_writes _ p

/-! ## Literals -/

/-- The object type `t` is a literal that is going to be expanded: its symbol is not suppressed, and
it has not been visited. -/
structure Unexpanded (p : Progress) (t : TypeId) (r : TypeRecord) (sym : Symbol) : Prop where
  record : g.type? t = some r
  literal : g.isLiteral t = true
  symbol : r.symbol?.bind g.symbol? = some sym
  spared : ∀ s, r.symbol? = some s → scope.Spares g s
  new : t ∉ p.visited

variable {g scope}

theorem Unexpanded.plan_eq {p : Progress} {t : TypeId} {r : TypeRecord} {sym : Symbol}
    (h : Unexpanded g scope p t r sym) :
    plan g scope t = .once t (literalLayout g scope r sym) := by
  obtain ⟨r', s, sym', hr, hs, hsym, hplan⟩ := plan_eq_unlessSuppressed scope h.literal
  obtain rfl : r = r' := Option.some.inj (h.record.symm.trans hr)
  obtain rfl : sym = sym' := by simpa [hs, hsym] using h.symbol.symm
  rw [hplan, unlessSuppressed_of_spares (h.spared s hs)]

end Annotate

section

open Annotate

/-- **Literals.** A literal that is going to be expanded is marked first. If it has construct
signatures, nothing counts but the first of them. Otherwise its fields are expressed from left to
right, each in the state that the one before it left, and the first fault is the end; if there is
none, the one row of the table that applies says what follows. -/
theorem annotate_literal {g : TypeGraph} {scope : Scope} {p : Progress} {t : TypeId}
    {r : TypeRecord} {sym : Symbol} (h : Unexpanded g scope p t r sym) (n : Nat) :
    (annotateWithin g scope (n + 1) t).Ends p <|
      let recur := annotateWithin g scope n
      let q := { p with visited := p.visited.add t h.new }
      match r.constructSignatures with
      | signature :: _ => SignatureEnding g scope recur constructorText signature q
      | [] =>
        Walk.EndsAfterAll (fun m => symbolType g scope recur m.2) sym.members.fields q
          fun es q' result last =>
            ∃ shape, (∀ other, LiteralShape.Of r sym.members other ↔ other = shape) ∧
              ShapeEnding g scope recur sym.members.fields es q' shape result last := by
  rw [annotateWithin_eq_run, h.plan_eq, Plan.run, ← expand_eq_run]
  refine Walk.enter_bind_ends h.new ?_
  rw [if_pos rfl, expand]
  cases r.constructSignatures with
  | cons signature rest => exact constructor_ends g scope _ signature _
  | nil =>
    rw [fields_bind]
    refine Walk.endsAfterAll_mapM_bind fun es q' hes => ?_
    obtain ⟨shape, hshape⟩ := LiteralShape.exists_of r sym.members
    exact ⟨shape, hshape, shape_ends g scope _ ((hshape shape).2 rfl) hes q'⟩

/-- A literal with a marker between two fields, the latter of which is the literal itself; and one
that constructs the former, and could be called as well. -/
def linkedList : TypeGraph where
  types := #[
    { flags := .ofList [TypeFlag.string] },
    .object (.ofList [ObjectFlag.anonymous]) (some ⟨3⟩),
    { TypeRecord.object (.ofList [ObjectFlag.anonymous]) (some ⟨3⟩) with
      callSignatures := [{ kind := .call }]
      constructSignatures := [{ kind := .construct, parameters := [⟨0⟩], result? := some ⟨1⟩ }] }]
  symbols := #[
    { name := "label" },
    { name := MemberTable.indexName },
    { name := "next" },
    { name := Symbol.literalName, flags := .ofList [SymbolFlag.typeLiteral],
      members := ⟨[("label", ⟨0⟩), ("__index", ⟨1⟩), ("next", ⟨2⟩)], by decide⟩ }]
  declaredTypes := ⟨[(⟨0⟩, ⟨0⟩), (⟨2⟩, ⟨1⟩)]⟩

theorem linkedList_annotated :
    (∃ es q,
        Walk.InTurn
          (fun m => symbolType linkedList { anchor := .nowhere }
            (annotateWithin linkedList { anchor := .nowhere } 127) m.2)
          [("label", ⟨0⟩), ("next", ⟨2⟩)] { visited := Visited.empty.add ⟨1⟩ (by decide) } es q ∧
        (annotate linkedList { anchor := .nowhere } ⟨1⟩).after {} = q ∧
        "\x7blabel: string, next: ?\x7d" =
          "\x7b" ++ ", ".intercalate (List.zipWith (fun m e => m.1 ++ ": " ++ e.render)
            [("label", SymbolId.mk 0), ("next", ⟨2⟩)] es) ++ "\x7d") ∧
      ∃ (es : List TypeExpr) (constructed : TypeExpr),
        "function(new: (\x7blabel: string, next: ?\x7d), string): ?" =
          constructorText (es.map TypeExpr.render) (some constructed.render) := by
  have hspared (s : SymbolId) : Scope.Spares { anchor := .nowhere } linkedList s := by
    rintro files ⟨⟩
  constructor
  · have h : Unexpanded linkedList { anchor := .nowhere } {} ⟨1⟩ linkedList.types[1]
        linkedList.symbols[3] :=
      ⟨rfl, by decide, rfl, fun s _ => hspared s, by decide⟩
    have hok : (annotate linkedList { anchor := .nowhere } ⟨1⟩).outcome {} =
        .ok (.record [("label", .primitive .string), ("next", .unknown .revisited)]) := by rfl
    obtain ⟨es, q, hturn, shape, hshape, hend⟩ :=
      Walk.Ends.exists_of_ok (annotate_literal h 127) hok
    obtain rfl : .record = shape := (hshape .record).1 (.record (by decide) (by decide))
    obtain ⟨⟨e, he, htext⟩, hlast⟩ := hend
    refine ⟨es, q, hturn, hlast, Eq.trans ?_ htext⟩
    rw [← Except.ok.inj he]
    rfl
  · have h : Unexpanded linkedList { anchor := .nowhere } {} ⟨2⟩ linkedList.types[2]
        linkedList.symbols[3] :=
      ⟨rfl, by decide, rfl, fun s _ => hspared s, by decide⟩
    have hok : (annotate linkedList { anchor := .nowhere } ⟨2⟩).outcome {} =
        .ok (.constructor
          (.record [("label", .primitive .string), ("next", .unknown .revisited)])
          [.primitive .string]) := by rfl
    obtain ⟨es, q, -, hend⟩ := Walk.Ends.exists_of_ok (annotate_literal h 127) hok
    obtain ⟨constructed, -, ⟨e, he, htext⟩, -⟩ := Walk.EndsAfter.exists_of_ok hend
    refine ⟨es, constructed, Eq.trans ?_ htext⟩
    rw [← Except.ok.inj he]
    rfl

end

end ClosureTypes
