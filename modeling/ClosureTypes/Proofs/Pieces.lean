import ClosureTypes.Proofs.Segments

/-!
# What expressions are put together of

A signature, a union and a literal with fields are expressed by joining the expressions of further
types. Where names hold neither brackets nor separators, and names of members no colon, the joined
text tells which texts have been joined: neither the number nor the order nor the grouping of the
pieces is lost.

1. `PlainSite.segment_recur`: further types are written as segments.
2. `PlainSite.pieces_returns`, `PlainSite.fields_returns`: what is joined consists of segments.
3. `samePieces`: what is written alike is put together of the same pieces.
-/

namespace ClosureTypes

/-! ## The pieces of signatures -/

namespace Annotate

variable (g : TypeGraph) (scope : Scope) (recur : TypeId → Walk TypeExpr)

/-- The expressions of the types of a signature's parameters, and of what it returns, if it says
so. -/
def pieces (signature : Signature) : Walk (List TypeExpr × Option TypeExpr) := do
  let parameters ← parameters g scope recur signature
  match signature.result? with
  | none => return (parameters, none)
  | some t =>
    let result ← recur t
    return (parameters, some result)

theorem function_eq_map (signature : Signature) :
    function g scope recur signature =
      (fun p => .function p.1 p.2) <$> pieces g scope recur signature := by
  unfold function pieces
  cases signature.result? <;> simp

theorem constructor_eq_map (signature : Signature) :
    constructor g scope recur signature =
      (fun p => .constructor (p.2.getD (.unknown .unspecified)) p.1) <$>
        pieces g scope recur signature := by
  unfold constructor pieces
  cases signature.result? <;> simp

variable {g scope recur} {p : Progress}

theorem function_ne_record {signature : Signature} {fs : List (String × TypeExpr)} :
    (function g scope recur signature).outcome p ≠ .ok (.record fs) := by
  intro h
  rw [function_eq_map] at h
  obtain ⟨_, -, h⟩ := Walk.outcome_map_eq_ok.1 h
  cases h

theorem constructor_ne_record {signature : Signature} {fs : List (String × TypeExpr)} :
    (constructor g scope recur signature).outcome p ≠ .ok (.record fs) := by
  intro h
  rw [constructor_eq_map] at h
  obtain ⟨_, -, h⟩ := Walk.outcome_map_eq_ok.1 h
  cases h

theorem map_ne_record {r : TypeRecord} {fs : List (String × TypeExpr)} :
    (map recur r).outcome p ≠ .ok (.record fs) := by
  intro h
  unfold map at h
  split at h
  all_goals
    obtain ⟨_, -, h⟩ := Walk.outcome_bind_eq_ok.1 h
    cases h

/-- Only the fields of a literal make a record. -/
theorem shape_eq_record {r : TypeRecord} {callable indexable : Bool}
    {fields fs : List (String × TypeExpr)}
    (h : (shape g scope recur r callable indexable fields).outcome p = .ok (.record fs)) :
    fs = fields := by
  cases fields with
  | cons field rest =>
    unfold shape at h
    dsimp only at h
    split_ifs at h
    · cases h
    · cases h
      rfl
  | nil =>
    exfalso
    match callable, indexable with
    | true, true => cases h
    | false, false => cases h
    | false, true => exact map_ne_record h
    | true, false =>
      dsimp only [shape] at h
      split at h
      · exact function_ne_record h
      · cases h

/-- A literal that is expanded to a record is expanded to its fields. -/
theorem expand_eq_record {r : TypeRecord} {sym : Symbol} {fs : List (String × TypeExpr)}
    (h : (expand g scope recur r sym).outcome p = .ok (.record fs)) :
    (fields g scope recur sym.members.fields).outcome p = .ok fs := by
  unfold expand at h
  split at h
  · exact (constructor_ne_record h).elim
  · obtain ⟨fields, hfields, hshape⟩ := Walk.outcome_bind_eq_ok.1 h
    rwa [shape_eq_record hshape]

end Annotate

theorem TypeExpr.choice?_of_two_le {es : List TypeExpr} (h : 2 ≤ (distinct es).length) :
    choice? es = some (.union (distinct es)) := by
  unfold choice?
  generalize distinct es = ds at h ⊢
  match ds, h with
  | _ :: _ :: _, _ => rfl

theorem TypeExpr.render_getD_unspecified (e? : Option TypeExpr) :
    (e?.getD (.unknown .unspecified)).render = (e?.map render).getD "?" := by
  cases e? <;> rfl

/-! ## Sites -/

/-- A place in a run where types are expressed: a graph and a scope, the levels that are left for
further types, and what has been done by then. No name there holds brackets or separators, and no
name of a field a colon. -/
structure PlainSite where
  graph : TypeGraph
  scope : Scope
  levels : Nat
  progress : Progress
  plain : NamesAre IsPlain graph scope
  noColon : ∀ s sym, graph.symbol? s = some sym → ∀ m ∈ sym.members.fields, ':' ∉ m.1.toList

namespace PlainSite

open TypeExpr

variable (x : PlainSite)

/-- The expression of a further type. -/
def recur (t : TypeId) : Walk TypeExpr := annotateWithin x.graph x.scope x.levels t

/-- What a call signature is expressed by. -/
def function (signature : Signature) : Except GraphFault TypeExpr :=
  (Annotate.function x.graph x.scope x.recur signature).outcome x.progress

/-- What a construct signature is expressed by. -/
def constructor (signature : Signature) : Except GraphFault TypeExpr :=
  (Annotate.constructor x.graph x.scope x.recur signature).outcome x.progress

/-- The texts for the parameters of a signature, and for what it returns, if it says so. -/
def signatureTexts (signature : Signature) : Except GraphFault (List String × Option String) :=
  ((Annotate.pieces x.graph x.scope x.recur signature).outcome x.progress).map fun p =>
    (p.1.map render, p.2.map render)

/-- What a union is expressed by. -/
def union (r : TypeRecord) : Except GraphFault TypeExpr :=
  (Annotate.union x.recur r).outcome x.progress

/-- The texts for the alternatives of a union, each but once. -/
def alternativeTexts (r : TypeRecord) : Except GraphFault (List String) :=
  ((r.constituents.mapM x.recur).outcome x.progress).map fun es => (distinct es).map render

/-- What a literal is expressed by that has not been expanded before. -/
def literal (r : TypeRecord) (sym : Symbol) : Except GraphFault TypeExpr :=
  (Annotate.expand x.graph x.scope x.recur r sym).outcome x.progress

/-- The names of a literal's fields, and the texts for their types. -/
def fieldTexts (sym : Symbol) : Except GraphFault (List (String × String)) :=
  ((Annotate.fields x.graph x.scope x.recur sym.members.fields).outcome x.progress).map
    fun fs => fs.map fun f => (f.1, f.2.render)

/-- Where all levels are left, a call signature is expressed as an annotator is asked to. -/
theorem function_eq_annotateSignature (h : x.levels = levelLimit) (signature : Signature) :
    x.function signature =
      (annotateSignature x.graph x.scope signature).outcome x.progress := by
  unfold function recur
  rw [h]
  rfl

/-! ### The pieces are segments -/

variable {x} {e : TypeExpr}

theorem segment_recur {t : TypeId} (h : (x.recur t).Returns e) : IsSegment e.render :=
  isSegment_render ((annotateWithin_shape h).nested x.plain)

theorem segment_symbolType {s : SymbolId}
    (h : (Annotate.symbolType x.graph x.scope x.recur s).Returns e) : IsSegment e.render := by
  unfold Annotate.symbolType at h
  split at h
  · exact segment_recur h
  · obtain ⟨p, h⟩ := h
    obtain ⟨sym, -, h⟩ := Walk.outcome_bind_eq_ok.1 h
    cases h
    exact isSegment_unknown _

/-- The pieces of a signature: segments, as many as it has parameters, and one more if it says what
it returns. -/
structure ArePieces (signature : Signature) (pieces : List TypeExpr × Option TypeExpr) : Prop where
  arity : pieces.1.length = signature.parameters.length
  result : pieces.2.isSome = signature.result?.isSome
  parameters : ∀ e ∈ pieces.1, IsSegment e.render
  returned : ∀ e ∈ pieces.2, IsSegment e.render

namespace ArePieces

variable {signature signature' : Signature} {pieces pieces' : List TypeExpr × Option TypeExpr}
  (h : ArePieces signature pieces) (h' : ArePieces signature' pieces')

include h

theorem constructed : IsSegment (pieces.2.getD (.unknown .unspecified)).render := by
  cases hresult : pieces.2 with
  | none => exact isSegment_unknown _
  | some e => exact h.returned e hresult

include h'

/-- Signatures with the same texts for parameters have as many parameters. -/
theorem arity_eq (heq : pieces.1.map render = pieces'.1.map render) :
    signature.parameters.length = signature'.parameters.length := by
  have hlength := congrArg List.length heq
  rwa [List.length_map, List.length_map, h.arity, h'.arity] at hlength

end ArePieces

theorem parameters_returns {signature : Signature} {es : List TypeExpr}
    (h : (Annotate.parameters x.graph x.scope x.recur signature).Returns es) :
    es.length = signature.parameters.length ∧ ∀ e ∈ es, IsSegment e.render := by
  have hall := Walk.forall_returns_mapM (Q := fun _ e => IsSegment e.render)
    (fun _ _ _ => segment_symbolType) es h
  refine ⟨hall.length_eq.symm, fun e he => ?_⟩
  obtain ⟨_, -, hsegment⟩ := hall.exists_of_mem_right he
  exact hsegment

theorem pieces_returns {signature : Signature} {pieces : List TypeExpr × Option TypeExpr}
    (h : (Annotate.pieces x.graph x.scope x.recur signature).Returns pieces) :
    ArePieces signature pieces := by
  obtain ⟨p, h⟩ := h
  obtain ⟨es, hes, h⟩ := Walk.outcome_bind_eq_ok.1 h
  obtain ⟨harity, hsegments⟩ := parameters_returns ⟨p, hes⟩
  cases hresult : signature.result? with
  | none =>
    rw [hresult] at h
    cases h
    exact ⟨harity, by rw [hresult]; rfl, hsegments, by rintro _ ⟨⟩⟩
  | some t =>
    rw [hresult] at h
    obtain ⟨d, hd, h⟩ := Walk.outcome_bind_eq_ok.1 h
    cases h
    refine ⟨harity, by rw [hresult]; rfl, hsegments, ?_⟩
    rintro _ ⟨⟩
    exact segment_recur ⟨_, hd⟩

theorem alternatives_returns {r : TypeRecord} {es : List TypeExpr}
    (h : (r.constituents.mapM x.recur).Returns es) : ∀ e ∈ distinct es, IsSegment e.render := by
  have hall := Walk.forall_returns_mapM (Q := fun _ e => IsSegment e.render)
    (fun _ _ _ => segment_recur) es h
  intro e he
  obtain ⟨_, -, hsegment⟩ := hall.exists_of_mem_right (render_mem_of_mem_distinctFrom he).1
  exact hsegment

theorem fields_returns {s : SymbolId} {sym : Symbol} (hsym : x.graph.symbol? s = some sym)
    {fs : List (String × TypeExpr)}
    (h : (Annotate.fields x.graph x.scope x.recur sym.members.fields).Returns fs) :
    ∀ f ∈ fs, IsReadableField f := by
  have hall := Walk.forall_returns_mapM (Q := fun m f => f.1 = m.1 ∧ IsSegment f.2.render)
    (fun m _ f hf => by
      obtain ⟨p, hf⟩ := hf
      obtain ⟨e, he, hf⟩ := Walk.outcome_bind_eq_ok.1 hf
      cases hf
      exact ⟨rfl, segment_symbolType ⟨p, he⟩⟩) fs h
  intro f hf
  obtain ⟨m, hm, hname, hsegment⟩ := hall.exists_of_mem_right hf
  exact ⟨hname ▸ x.plain.members s sym hsym m hm, hname ▸ x.noColon s sym hsym m hm, hsegment⟩

/-! ### Expressions and their pieces -/

variable (x)

theorem exists_pieces {signature : Signature}
    {f : List TypeExpr × Option TypeExpr → TypeExpr}
    (h : (f <$> Annotate.pieces x.graph x.scope x.recur signature).outcome x.progress = .ok e) :
    ∃ pieces, ArePieces signature pieces ∧ e = f pieces ∧
      x.signatureTexts signature = .ok (pieces.1.map render, pieces.2.map render) := by
  obtain ⟨pieces, hpieces, rfl⟩ := Walk.outcome_map_eq_ok.1 h
  refine ⟨pieces, pieces_returns ⟨_, hpieces⟩, rfl, ?_⟩
  unfold signatureTexts
  rw [hpieces]
  rfl

theorem exists_of_function {signature : Signature} (h : x.function signature = .ok e) :
    ∃ pieces, ArePieces signature pieces ∧ e = .function pieces.1 pieces.2 ∧
      x.signatureTexts signature = .ok (pieces.1.map render, pieces.2.map render) :=
  x.exists_pieces (Annotate.function_eq_map .. ▸ h)

theorem exists_of_constructor {signature : Signature} (h : x.constructor signature = .ok e) :
    ∃ pieces, ArePieces signature pieces ∧
      e = .constructor (pieces.2.getD (.unknown .unspecified)) pieces.1 ∧
      x.signatureTexts signature = .ok (pieces.1.map render, pieces.2.map render) :=
  x.exists_pieces (Annotate.constructor_eq_map .. ▸ h)

theorem exists_of_union {r : TypeRecord} {texts : List String}
    (htexts : x.alternativeTexts r = .ok texts) (h : x.union r = .ok e) :
    ∃ ds, (∀ d ∈ ds, IsSegment d.render) ∧ texts = ds.map render ∧
      (2 ≤ texts.length → e = .union ds) := by
  obtain ⟨es, hes, h⟩ := Walk.outcome_bind_eq_ok.1 h
  unfold alternativeTexts at htexts
  rw [hes] at htexts
  cases htexts
  refine ⟨distinct es, alternatives_returns ⟨_, hes⟩, rfl, fun htwo => ?_⟩
  rw [List.length_map] at htwo
  rw [choice?_of_two_le htwo] at h
  cases h
  rfl

theorem exists_of_record {r : TypeRecord} {s : SymbolId} {sym : Symbol}
    (hsym : x.graph.symbol? s = some sym) {fs : List (String × TypeExpr)}
    (h : x.literal r sym = .ok (.record fs)) :
    (∀ f ∈ fs, IsReadableField f) ∧
      x.fieldTexts sym = .ok (fs.map fun f => (f.1, f.2.render)) := by
  have hfields := Annotate.expand_eq_record h
  refine ⟨fields_returns hsym ⟨_, hfields⟩, ?_⟩
  unfold fieldTexts
  rw [hfields]
  rfl

end PlainSite

/-- What is written alike at `x` and at `x'` is put together of the same pieces. -/
structure SamePieces (x x' : PlainSite) : Prop where
  /-- A call signature is written by a text for each parameter, and one for what it returns exactly
  if it says so. -/
  written : ∀ σ e, x.function σ = .ok e → ∃ parameters result?,
    x.signatureTexts σ = .ok (parameters, result?) ∧
      parameters.length = σ.parameters.length ∧ result?.isSome = σ.result?.isSome ∧
      e.render =
        "function(" ++ ", ".intercalate parameters ++ ")" ++ result?.elim "" (": " ++ ·)
  functions : ∀ σ σ' e e', x.function σ = .ok e → x'.function σ' = .ok e' →
    e.render = e'.render →
      σ.parameters.length = σ'.parameters.length ∧ σ.result?.isSome = σ'.result?.isSome ∧
      ∃ texts, x.signatureTexts σ = .ok texts ∧ x'.signatureTexts σ' = .ok texts
  /-- What is constructed is unknown where a signature says nothing of it. -/
  constructors : ∀ σ σ' e e', x.constructor σ = .ok e → x'.constructor σ' = .ok e' →
    e.render = e'.render →
      σ.parameters.length = σ'.parameters.length ∧
      ∃ parameters result? result?', x.signatureTexts σ = .ok (parameters, result?) ∧
        x'.signatureTexts σ' = .ok (parameters, result?') ∧
        result?.getD "?" = result?'.getD "?"
  unions : ∀ r r' e e' texts texts', x.union r = .ok e → x'.union r' = .ok e' →
    x.alternativeTexts r = .ok texts → x'.alternativeTexts r' = .ok texts' →
    2 ≤ texts.length → 2 ≤ texts'.length → e.render = e'.render → texts = texts'
  records : ∀ r r' s s' sym sym' fs fs', x.graph.symbol? s = some sym →
    x'.graph.symbol? s' = some sym' →
    x.literal r sym = .ok (.record fs) → x'.literal r' sym' = .ok (.record fs') →
    (TypeExpr.record fs).render = (TypeExpr.record fs').render →
      ∃ fields, x.fieldTexts sym = .ok fields ∧ x'.fieldTexts sym' = .ok fields

/-- **Pieces.** Take two places in two runs, where no name holds brackets or separators, and no name
of a field a colon. Call signatures, construct signatures, unions of several alternatives and
literals with fields that are written alike there are put together of the same pieces, in the same
order. -/
theorem samePieces (x x' : PlainSite) : SamePieces x x' where
  written σ e h := by
    obtain ⟨pieces, hpieces, rfl, htexts⟩ := x.exists_of_function h
    refine ⟨_, _, htexts, by simpa using hpieces.arity, by simpa using hpieces.result, ?_⟩
    cases pieces.2 <;> simp [TypeExpr.render, TypeExpr.renderResult]
  functions σ σ' e e' h h' heq := by
    obtain ⟨pieces, hpieces, rfl, htexts⟩ := x.exists_of_function h
    obtain ⟨pieces', hpieces', rfl, htexts'⟩ := x'.exists_of_function h'
    obtain ⟨hparameters, hresult⟩ :=
      TypeExpr.function_inj hpieces.parameters hpieces'.parameters heq
    refine ⟨hpieces.arity_eq hpieces' hparameters, ?_, _, htexts, ?_⟩
    · have hsome := congrArg Option.isSome hresult
      rwa [Option.isSome_map, Option.isSome_map, hpieces.result, hpieces'.result] at hsome
    · rw [htexts', hparameters, hresult]
  constructors σ σ' e e' h h' heq := by
    obtain ⟨pieces, hpieces, rfl, htexts⟩ := x.exists_of_constructor h
    obtain ⟨pieces', hpieces', rfl, htexts'⟩ := x'.exists_of_constructor h'
    obtain ⟨hconstructed, hparameters⟩ := TypeExpr.constructor_inj hpieces.parameters
      hpieces'.parameters hpieces.constructed hpieces'.constructed heq
    rw [TypeExpr.render_getD_unspecified, TypeExpr.render_getD_unspecified] at hconstructed
    rw [← hparameters] at htexts'
    exact ⟨hpieces.arity_eq hpieces' hparameters, _, _, _, htexts, htexts', hconstructed⟩
  unions r r' e e' texts texts' h h' htexts htexts' htwo htwo' heq := by
    obtain ⟨ds, hds, rfl, he⟩ := x.exists_of_union htexts h
    obtain ⟨ds', hds', rfl, he'⟩ := x'.exists_of_union htexts' h'
    rw [he htwo, he' htwo'] at heq
    exact TypeExpr.union_inj hds hds' heq
  records r r' s s' sym sym' fs fs' hsym hsym' h h' heq := by
    obtain ⟨hfs, hfields⟩ := x.exists_of_record hsym h
    obtain ⟨hfs', hfields'⟩ := x'.exists_of_record hsym' h'
    rw [← TypeExpr.record_inj hfs hfs' heq] at hfields'
    exact ⟨_, hfields, hfields'⟩

/-- The symbol of a literal with a field for goods. -/
def stallSymbol : Symbol where
  name := Symbol.literalName
  flags := .ofList [SymbolFlag.typeLiteral]
  members := ⟨[("goods", ⟨0⟩)], by decide⟩

/-- The union of some types. -/
def unionOf (constituents : List TypeId) : TypeRecord where
  flags := .ofList [TypeFlag.union]
  constituents := constituents

/-- A string, a number, the union of some types, which goods are of, and a literal with a field for
goods. -/
def stallGraph (constituents : List TypeId) : TypeGraph where
  types := #[
    { flags := .ofList [TypeFlag.string] },
    { flags := .ofList [TypeFlag.number] },
    unionOf constituents,
    .object (.ofList [ObjectFlag.anonymous]) (some ⟨1⟩)]
  symbols := #[{ name := "goods" }, stallSymbol]
  declaredTypes := Bindings.empty.bind ⟨0⟩ ⟨2⟩

/-- The stall before anything has been done. -/
def stall (constituents : List TypeId) : PlainSite where
  graph := stallGraph constituents
  scope := { anchor := .nowhere }
  levels := levelLimit
  progress := {}
  plain := by
    have h : ∀ sym ∈ (stallGraph []).symbols.toList, IsPlain sym.name ∧
        ∀ m ∈ sym.members.fields, IsPlain m.1 := by decide
    exact ⟨fun s sym hsym => (h sym (TypeGraph.mem_symbols_of_symbol? hsym)).1,
      fun s sym hsym => (h sym (TypeGraph.mem_symbols_of_symbol? hsym)).2,
      by simp [Bindings.find?_empty]⟩
  noColon s sym hsym := by
    have h : ∀ sym ∈ (stallGraph []).symbols.toList, ∀ m ∈ sym.members.fields,
        ':' ∉ m.1.toList := by decide
    exact h sym (TypeGraph.mem_symbols_of_symbol? hsym)

/-- Takes goods and returns a number. -/
def sale : Signature where
  kind := .call
  parameters := [⟨0⟩]
  result? := some ⟨1⟩

theorem stall_samePieces :
    ((annotateSignature (stallGraph [⟨0⟩, ⟨1⟩]) { anchor := .nowhere } sale).outcome {}).map
        TypeExpr.render = .ok "function((string|number)): number" ∧
      (∃ texts, (stall [⟨0⟩, ⟨1⟩]).signatureTexts sale = .ok texts ∧
        (stall [⟨0⟩, ⟨0⟩, ⟨1⟩]).signatureTexts sale = .ok texts) ∧
      (stall [⟨0⟩, ⟨1⟩]).alternativeTexts (unionOf [⟨0⟩, ⟨1⟩]) =
        (stall [⟨0⟩, ⟨0⟩, ⟨1⟩]).alternativeTexts (unionOf [⟨0⟩, ⟨0⟩, ⟨1⟩]) ∧
      ∃ fields, (stall [⟨0⟩, ⟨1⟩]).fieldTexts stallSymbol = .ok fields ∧
        (stall [⟨0⟩, ⟨0⟩, ⟨1⟩]).fieldTexts stallSymbol = .ok fields := by
  have h := samePieces (stall [⟨0⟩, ⟨1⟩]) (stall [⟨0⟩, ⟨0⟩, ⟨1⟩])
  refine ⟨?_, (h.functions sale sale _ _ rfl rfl (by rfl)).2.2, ?_, ?_⟩
  · exact congrArg (Except.map TypeExpr.render)
      (PlainSite.function_eq_annotateSignature (stall [⟨0⟩, ⟨1⟩]) rfl sale).symm
  · have htexts := h.unions (unionOf [⟨0⟩, ⟨1⟩]) (unionOf [⟨0⟩, ⟨0⟩, ⟨1⟩]) _ _
      ["string", "number"] ["string", "number"] rfl rfl rfl rfl (by decide) (by decide) (by rfl)
    exact congrArg Except.ok htexts
  · exact h.records {} {} ⟨1⟩ ⟨1⟩ _ _ _ _ rfl rfl rfl rfl (by rfl)

end ClosureTypes
