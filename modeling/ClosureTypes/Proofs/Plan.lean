import ClosureTypes.Proofs.Reach
import ClosureTypes.Proofs.Walk

/-!
# Plans of levels

What one level of an expression does is settled before it does anything: all that it reads is in the
graph and in the scope, which no walk changes. A plan says it as data. There are slots, which are
filled from left to right with the expressions of further types, and a frame, in which they are put
together; or the level stops at a fault.

1. `Annotate.level_eq_run`, `Annotate.function_eq_run`: levels and call signatures do what their
   plans say.
2. `Plan.run_rel`: a relation between walks passes from the steps of a plan to the plan.
-/

namespace ClosureTypes

/-- What stands in one place of an expression. -/
inductive Slot
  /-- The expression of the type. -/
  | type (t : TypeId)
  /-- The unknown that stands for a symbol without a type, with a message. -/
  | untyped (message : String)
  /-- Nothing, since the graph does not know the symbol. -/
  | missing (s : SymbolId)

/-- How the expressions in some slots are put together. -/
inductive Frame
  /-- The expression does not depend on the slots. It may come with a message. -/
  | constant (note? : Option String) (e : TypeExpr)
  | choice
  /-- The first slot is applied to the others, if there are any. -/
  | application
  /-- So many slots are parameters; one more, if there is one, is the result. -/
  | function (arity : Nat)
  /-- So many slots are parameters; one more, if there is one, is what is constructed. -/
  | constructor (arity : Nat)
  | record (names : List String)
  | map (key : IndexKind)

/-- Slots, and the frame that they stand in. -/
structure Layout where
  slots : List Slot := []
  frame : Frame

/-- What a level is going to do. -/
inductive Plan
  | stop (fault : GraphFault)
  | fill (layout : Layout)
  /-- The type is a literal, and nothing is done if it has been expanded before. -/
  | once (literal : TypeId) (layout : Layout)

/-! ## Carrying out a plan -/

/-- Reports a message, if there is one. -/
def Walk.note : Option String → Walk Unit
  | none => pure ()
  | some message => warn message

/-- Fills a slot, where `recur` expresses types. -/
def Slot.run (recur : TypeId → Walk TypeExpr) : Slot → Walk TypeExpr
  | type t => recur t
  | untyped message => Walk.degrade message
  | missing s => throw (.unknownSymbol s)

namespace Frame

/-- The expression made of those in the slots, and the message that comes with it. -/
def assemble : Frame → List TypeExpr → Option String × TypeExpr
  | constant note? e, _ => (note?, e)
  | choice, es =>
    match TypeExpr.choice? es with
    | some e => (none, e)
    | none => (some "union type has no constituents", .unknown .degraded)
  | application, es =>
    let head := es.headD (.unknown .degraded)
    (none, if es.tail.isEmpty then head else .apply head es.tail)
  | function arity, es => (none, .function (es.take arity) es[arity]?)
  | constructor arity, es =>
    (none, .constructor (es[arity]?.getD (.unknown .unspecified)) (es.take arity))
  | record names, es => (none, .record (names.zip es))
  | map key, es => (none, .map key (es.headD (.unknown .degraded)))

/-- Puts the expressions in the slots together. -/
def finish (frame : Frame) (es : List TypeExpr) : Walk TypeExpr := do
  Walk.note (frame.assemble es).1
  return (frame.assemble es).2

end Frame

/-- Fills the slots, and puts the expressions together. -/
def Layout.run (recur : TypeId → Walk TypeExpr) (layout : Layout) : Walk TypeExpr := do
  let es ← layout.slots.mapM (Slot.run recur)
  layout.frame.finish es

namespace Layout

/-- All messages that the layout itself can lead to are of a given sort. -/
def SaysOnly (sort : String → Prop) (layout : Layout) : Prop :=
  (∀ message, .untyped message ∈ layout.slots → sort message) ∧
    ∀ es message, (layout.frame.assemble es).1 = some message → sort message

/-- An expression without slots. -/
def answer (e : TypeExpr) : Layout where
  frame := .constant none e

/-- The unknown, with a message. -/
def note (message : String) : Layout where
  frame := .constant (some message) (.unknown .degraded)

variable (recur : TypeId → Walk TypeExpr)

theorem run_of_slots_nil (frame : Frame) : ({ frame } : Layout).run recur = frame.finish [] := by
  rw [run, List.mapM_nil, pure_bind]

@[simp] theorem run_answer (e : TypeExpr) : (answer e).run recur = pure e :=
  run_of_slots_nil recur _

@[simp] theorem run_note (message : String) : (note message).run recur = Walk.degrade message :=
  run_of_slots_nil recur _

end Layout

namespace Plan

/-- Carries out a plan, where `recur` expresses types. -/
def run (recur : TypeId → Walk TypeExpr) : Plan → Walk TypeExpr
  | stop fault => throw fault
  | fill layout => layout.run recur
  | once t layout => do
    let isNew ← Walk.enter t
    if isNew then layout.run recur else return .unknown .revisited

/-- The layout of a plan, unless it is to stop. -/
def layout? : Plan → Option Layout
  | stop _ => none
  | fill layout => some layout
  | once _ layout => some layout

/-- The plan has a slot for the type. -/
def Follows (plan : Plan) (t : TypeId) : Prop := ∃ layout ∈ plan.layout?, .type t ∈ layout.slots

/-- All messages that the plan itself can lead to are of a given sort. -/
def SaysOnly (sort : String → Prop) (plan : Plan) : Prop :=
  ∀ layout ∈ plan.layout?, layout.SaysOnly sort

theorem SaysOnly.mono {sort sort' : String → Prop} {plan : Plan} (h : plan.SaysOnly sort)
    (hsort : ∀ message, sort message → sort' message) : plan.SaysOnly sort' :=
  fun layout hl => ⟨fun message hm => hsort message ((h layout hl).1 message hm),
    fun es message hm => hsort message ((h layout hl).2 es message hm)⟩

end Plan

/-! ## Relations between walks -/

namespace Walk

/-- A relation between walks that passes from the two parts of a walk to the whole. -/
structure Compositional (P : {α : Type} → Walk α → Walk α → Prop) : Prop where
  pure {α : Type} (a : α) : P (pure a) (pure a)
  bind {α β : Type} {x y : Walk α} {f f' : α → Walk β} :
    P x y → (∀ a, x.Returns a → P (f a) (f' a)) → P (x >>= f) (y >>= f')

theorem Congruence.compositional {fault : GraphFault → Prop} {entry : TypeId → Prop}
    {P : {α : Type} → Walk α → Walk α → Prop} (hP : Congruence fault entry P) :
    Compositional P where
  pure := hP.pure
  bind := hP.bind

theorem Compositional.mapM {P : {α : Type} → Walk α → Walk α → Prop} (hP : Compositional P)
    {ι α : Type} {l : List ι} {f f' : ι → Walk α} (h : ∀ i ∈ l, P (f i) (f' i)) :
    P (l.mapM f) (l.mapM f') := by
  induction l with
  | nil => exact hP.pure []
  | cons i rest ih =>
    rw [List.mapM_cons, List.mapM_cons]
    have hrest := ih fun j hj => h j (List.mem_cons_of_mem i hj)
    exact hP.bind (h i List.mem_cons_self) fun _ _ => hP.bind hrest fun _ _ => hP.pure _

end Walk

section

variable {P : {α : Type} → Walk α → Walk α → Prop} (hP : Walk.Compositional P)
  (hstop : ∀ {α : Type} (e : GraphFault), P (throw e : Walk α) (throw e))
  {recur recur' : TypeId → Walk TypeExpr}

include hP

theorem Walk.Compositional.degrade {message : String}
    (hwarn : P (Walk.warn message) (Walk.warn message)) :
    P (Walk.degrade message) (Walk.degrade message) :=
  hP.bind hwarn fun _ _ => hP.pure _

theorem Frame.finish_rel {frame : Frame} {es : List TypeExpr}
    (hwarn : ∀ message, (frame.assemble es).1 = some message →
      P (Walk.warn message) (Walk.warn message)) : P (frame.finish es) (frame.finish es) := by
  refine hP.bind ?_ fun _ _ => hP.pure _
  cases hnote : (frame.assemble es).1 with
  | none => exact hP.pure ()
  | some message => exact hwarn message hnote

include hstop

theorem Layout.run_rel {layout : Layout}
    (hwarn : layout.SaysOnly fun message => P (Walk.warn message) (Walk.warn message))
    (hrec : ∀ u, .type u ∈ layout.slots → P (recur u) (recur' u)) :
    P (layout.run recur) (layout.run recur') := by
  refine hP.bind (hP.mapM fun s hs => ?_) fun es _ => Frame.finish_rel hP (hwarn.2 es)
  cases s with
  | type u => exact hrec u hs
  | untyped message => exact hP.degrade (hwarn.1 message hs)
  | missing s => exact hstop _

variable (recur recur')

/-- **Plans.** A relation that holds of the steps of a plan holds of the plan. -/
theorem Plan.run_rel {plan : Plan}
    (hwarn : plan.SaysOnly fun message => P (Walk.warn message) (Walk.warn message))
    (henter : ∀ t layout, plan = .once t layout → P (Walk.enter t) (Walk.enter t))
    (hrec : ∀ u, plan.Follows u → P (recur u) (recur' u)) :
    P (plan.run recur) (plan.run recur') := by
  cases plan with
  | stop e => exact hstop e
  | fill layout =>
    exact Layout.run_rel hP hstop (hwarn layout rfl) fun u hu => hrec u ⟨layout, rfl, hu⟩
  | once t layout =>
    refine hP.bind (henter t layout rfl) fun isNew _ => ?_
    cases isNew with
    | true => exact Layout.run_rel hP hstop (hwarn layout rfl) fun u hu => hrec u ⟨layout, rfl, hu⟩
    | false => exact hP.pure _

end

/-! ## The plan of a level -/

namespace Annotate

open Walk

variable (g : TypeGraph) (scope : Scope)

/-- The slot for the type of `s` as seen from the anchor. -/
def slot (s : SymbolId) : Slot :=
  match g.symbolType? s scope.anchor with
  | some t => .type t
  | none =>
    match g.symbol? s with
    | some sym => .untyped ("symbol " ++ sym.name ++ " has no type")
    | none => .missing s

/-- The slots for the parameters of a signature, then for what it returns. -/
def signatureSlots (signature : Signature) : List Slot :=
  signature.parameters.map (slot g scope) ++ signature.result?.toList.map .type

/-- The layout of a call signature. -/
def functionLayout (signature : Signature) : Layout where
  slots := signatureSlots g scope signature
  frame := .function signature.parameters.length

/-- The layout of a construct signature. -/
def constructorLayout (signature : Signature) : Layout where
  slots := signatureSlots g scope signature
  frame := .constructor signature.parameters.length

/-- The layout of a map. -/
def mapLayout (r : TypeRecord) : Layout :=
  match r.stringIndex?, r.numberIndex? with
  | some t, _ => ⟨[.type t], .map .string⟩
  | none, some t => ⟨[.type t], .map .number⟩
  | none, none => ⟨[], .constant (some "unknown index key type") .unknownMap⟩

/-- The message for a literal that has no expression. -/
def unhandledLiteralText : String := "unhandled type literal"

/-- The layout of a literal without construct signatures, by its fields and markers. -/
def shapeLayout (r : TypeRecord) (callable indexable : Bool) : List (String × SymbolId) → Layout
  | [] =>
    match callable, indexable with
    | true, false =>
      match r.callSignatures with
      | [signature] => functionLayout g scope signature
      | _ => .note unhandledLiteralText
    | false, true => mapLayout r
    | false, false => .answer .object
    | true, true => .note unhandledLiteralText
  | member :: rest =>
    { slots := (member :: rest).map fun m => slot g scope m.2
      frame :=
        if callable && indexable then .constant (some unhandledLiteralText) (.unknown .degraded)
        else .record ((member :: rest).map Prod.fst) }

/-- The layout of a literal. -/
def literalLayout (r : TypeRecord) (sym : Symbol) : Layout :=
  match r.constructSignatures with
  | signature :: _ => constructorLayout g scope signature
  | [] => shapeLayout g scope r sym.members.isCallable sym.members.isIndexable sym.members.fields

/-- The plan for an anonymous type. -/
def anonymousPlan (t : TypeId) (r : TypeRecord) : Plan :=
  match r.symbol? with
  | none => .fill (.note "anonymous type has no symbol")
  | some s =>
    match g.symbol? s with
    | none => .stop (.unknownSymbol s)
    | some sym =>
      if sym.flags.has .typeLiteral then .once t (literalLayout g scope r sym)
      else if sym.flags.has .function || sym.flags.has .method then
        match r.callSignatures with
        | [signature] => .fill (functionLayout g scope signature)
        | _ => .fill (.note ("unhandled anonymous type " ++ g.describe t))
      else .fill (.note ("unhandled anonymous type " ++ g.describe t))

/-- The plan for a class. -/
def classPlan (r : TypeRecord) : Plan :=
  match r.symbol? with
  | none => .fill (.note "class has no symbol")
  | some s => .fill (.answer (.named (scope.nameOf g s)))

/-- The plan for an interface. -/
def interfacePlan (r : TypeRecord) : Plan :=
  match r.symbol? with
  | none => .fill (.note "interface has no symbol")
  | some s =>
    match g.symbol? s with
    | none => .stop (.unknownSymbol s)
    | some sym =>
      if sym.isTypeAndValue && !scope.hasAlias s && !isLibrarySymbol sym then
        .fill (.note ("type/symbol conflict for " ++ sym.name ++ ", using \x7b?\x7d for now"))
      else .fill (.answer (.named (scope.nameOf g s)))

/-- The plan for a reference. -/
def referencePlan (t : TypeId) (r : TypeRecord) : Plan :=
  match r.target? with
  | none => .fill (.note ("reference has no target " ++ g.describe t))
  | some target =>
    match g.type? target with
    | none => .stop (.unknownType target)
    | some targetRecord =>
      if targetRecord.objectFlags.has .tuple then .fill (.answer .tuple)
      else if target = t then .stop (.referenceLoop t (g.describe t))
      else .fill ⟨(target :: r.arguments).map .type, .application⟩

/-- The plan for an object type that is not suppressed. -/
def sortPlan (t : TypeId) (r : TypeRecord) : Plan :=
  if r.objectFlags.has .classType then classPlan g scope r
  else if r.objectFlags.has .interface then interfacePlan g scope r
  else if r.objectFlags.has .reference then referencePlan g t r
  else if r.objectFlags.has .anonymous then anonymousPlan g scope t r
  else .fill (.note ("unhandled object type " ++ g.describe t))

/-- The plan for an object type with the symbol `s`, where `plan` is to be carried out unless the
symbol is suppressed. -/
def unlessSuppressed (s : SymbolId) (plan : Plan) : Plan :=
  match scope.blacklistFor? s with
  | none => plan
  | some files =>
    match g.symbol? s with
    | none => .stop (.unknownSymbol s)
    | some sym =>
      if sym.declarations.isEmpty then
        .fill ⟨[], .constant (some "symbol has no declarations") (.unknown .suppressed)⟩
      else if sym.declarations.all fun d => files.contains d.file then
        .fill (.answer (.unknown .suppressed))
      else plan

/-- The plan for an object type. -/
def objectPlan (t : TypeId) (r : TypeRecord) : Plan :=
  match r.symbol? with
  | none => sortPlan g scope t r
  | some s => unlessSuppressed g scope s (sortPlan g scope t r)

/-- The plan for a type of a kind that is not decided by the kind alone. -/
def kindPlan (t : TypeId) (r : TypeRecord) : Kind → Plan
  | .never => .fill (.note "should not emit a 'never' type")
  | .typeParameter => .fill (.note ("unhandled type parameter " ++ g.describe t))
  | .object => objectPlan g scope t r
  | .union => .fill ⟨r.constituents.map .type, .choice⟩
  | _ => .fill (.note ("unhandled type " ++ g.describe t))

/-- The plan for one level of the expression of a type. -/
def plan (t : TypeId) : Plan :=
  match g.type? t with
  | none => .stop (.unknownType t)
  | some r =>
    match Kind.ofFlags? r.flags with
    | none => .stop (.unknownKind r.flags (g.describe t))
    | some kind =>
      match kind.fixed? with
      | some e => .fill (.answer e)
      | none => kindPlan g scope t r kind

/-! ## Levels do what their plans say -/

/-- What follows a walk along a list may rely on the number of its results. -/
theorem mapM_bind_congr {ι α β : Type} {l : List ι} {f : ι → Walk α} {next next' : List α → Walk β}
    (h : ∀ as, as.length = l.length → next as = next' as) :
    l.mapM f >>= next = l.mapM f >>= next' := by
  induction l generalizing next next' with
  | nil => simpa using h [] rfl
  | cons i rest ih =>
    simp only [List.mapM_cons, bind_assoc, pure_bind]
    congr 1
    funext a
    exact ih fun as has => h (a :: as) (by simp [has])

section

variable {g} {α : Type}

theorem symbol_bind_of_some {s : SymbolId} {sym : Symbol} (h : g.symbol? s = some sym)
    (f : Symbol → Walk α) : Walk.symbol g s >>= f = f sym := by
  rw [Walk.symbol, h]
  rfl

theorem symbol_bind_of_none {s : SymbolId} (h : g.symbol? s = none) (f : Symbol → Walk α) :
    Walk.symbol g s >>= f = throw (.unknownSymbol s) := by
  rw [Walk.symbol, h]
  rfl

theorem typeRecord_bind_of_some {t : TypeId} {r : TypeRecord} (h : g.type? t = some r)
    (f : TypeRecord → Walk α) : Walk.typeRecord g t >>= f = f r := by
  rw [Walk.typeRecord, h]
  rfl

theorem typeRecord_bind_of_none {t : TypeId} (h : g.type? t = none) (f : TypeRecord → Walk α) :
    Walk.typeRecord g t >>= f = throw (.unknownType t) := by
  rw [Walk.typeRecord, h]
  rfl

end

variable (recur : TypeId → Walk TypeExpr)

theorem symbolType_eq_run (s : SymbolId) :
    symbolType g scope recur s = (slot g scope s).run recur := by
  unfold symbolType slot
  cases g.symbolType? s scope.anchor with
  | some t => rfl
  | none =>
    cases hsym : g.symbol? s with
    | none => exact symbol_bind_of_none hsym _
    | some sym => exact symbol_bind_of_some hsym _

theorem parameters_eq_mapM (signature : Signature) :
    parameters g scope recur signature =
      (signature.parameters.map (slot g scope)).mapM (Slot.run recur) := by
  rw [parameters, List.mapM_map]
  congr 1
  funext s
  exact symbolType_eq_run g scope recur s

theorem signatureSlots_mapM (signature : Signature) (next : List TypeExpr → Walk TypeExpr) :
    (signatureSlots g scope signature).mapM (Slot.run recur) >>= next =
      (signature.parameters.map (slot g scope)).mapM (Slot.run recur) >>= fun parameters =>
        (signature.result?.toList.map Slot.type).mapM (Slot.run recur) >>= fun results =>
          next (parameters ++ results) := by
  rw [signatureSlots, List.mapM_append]
  simp only [bind_assoc, pure_bind]

theorem function_eq_run (signature : Signature) :
    function g scope recur signature = (functionLayout g scope signature).run recur := by
  rw [Layout.run, functionLayout, signatureSlots_mapM, function, parameters_eq_mapM]
  refine mapM_bind_congr fun ps hps => ?_
  rw [List.length_map] at hps
  cases signature.result? with
  | none => simp [Frame.finish, Frame.assemble, Walk.note, ← hps]
  | some t => simp [Frame.finish, Frame.assemble, Walk.note, ← hps, Slot.run]

theorem constructor_eq_run (signature : Signature) :
    constructor g scope recur signature = (constructorLayout g scope signature).run recur := by
  rw [Layout.run, constructorLayout, signatureSlots_mapM, constructor, parameters_eq_mapM]
  refine mapM_bind_congr fun ps hps => ?_
  rw [List.length_map] at hps
  cases signature.result? with
  | none => simp [Frame.finish, Frame.assemble, Walk.note, ← hps]
  | some t => simp [Frame.finish, Frame.assemble, Walk.note, ← hps, Slot.run]

theorem map_eq_run (r : TypeRecord) : map recur r = (mapLayout r).run recur := by
  unfold map mapLayout Layout.run
  cases r.stringIndex? with
  | some t => simp [Frame.finish, Frame.assemble, Walk.note, Slot.run]
  | none =>
    cases r.numberIndex? with
    | some t => simp [Frame.finish, Frame.assemble, Walk.note, Slot.run]
    | none => simp [Frame.finish, Frame.assemble, Walk.note]

theorem fields_eq_mapM (members : List (String × SymbolId)) :
    fields g scope recur members =
      (members.map fun m => slot g scope m.2).mapM (Slot.run recur) >>= fun es =>
        pure ((members.map Prod.fst).zip es) := by
  unfold fields
  simp only [symbolType_eq_run]
  induction members with
  | nil => simp
  | cons m rest ih =>
    simp only [List.map_cons, List.mapM_cons, bind_assoc, pure_bind, ih, List.zip_cons_cons]

theorem shape_eq_run (r : TypeRecord) (callable indexable : Bool)
    (members : List (String × SymbolId)) :
    (do
      let fields ← fields g scope recur members
      shape g scope recur r callable indexable fields) =
      (shapeLayout g scope r callable indexable members).run recur := by
  rw [fields_eq_mapM, bind_assoc]
  cases members with
  | nil =>
    simp only [List.map_nil, List.mapM_nil, pure_bind, List.zip_nil_left, shape, shapeLayout]
    cases callable with
    | false =>
      cases indexable with
      | false => exact (Layout.run_answer recur _).symm
      | true => exact map_eq_run recur r
    | true =>
      cases indexable with
      | false =>
        rcases r.callSignatures with _ | ⟨signature, _ | ⟨_, _⟩⟩
        · exact (Layout.run_note recur _).symm
        · exact function_eq_run g scope recur signature
        · exact (Layout.run_note recur _).symm
      | true => exact (Layout.run_note recur _).symm
  | cons member rest =>
    rw [shapeLayout, Layout.run]
    refine mapM_bind_congr fun es hes => ?_
    -- There is a slot for each member, so the first field is there.
    obtain ⟨e, es, rfl⟩ := List.exists_cons_of_length_eq_add_one (hes.trans (List.length_map _))
    simp only [List.map_cons, List.zip_cons_cons, pure_bind, shape]
    cases callable && indexable <;> rfl

theorem expand_eq_run (r : TypeRecord) (sym : Symbol) :
    expand g scope recur r sym = (literalLayout g scope r sym).run recur := by
  unfold expand literalLayout
  cases r.constructSignatures with
  | cons signature rest => exact constructor_eq_run g scope recur signature
  | nil => exact shape_eq_run g scope recur r _ _ _

theorem anonymous_eq_run (t : TypeId) (r : TypeRecord) :
    anonymous g scope recur t r = (anonymousPlan g scope t r).run recur := by
  unfold anonymous anonymousPlan
  cases r.symbol? with
  | none => exact (Layout.run_note recur _).symm
  | some s =>
    dsimp only
    cases hsym : g.symbol? s with
    | none => exact symbol_bind_of_none hsym _
    | some sym =>
      rw [symbol_bind_of_some hsym]
      dsimp only
      split_ifs
      · simp only [Plan.run, literal, expand_eq_run]
      · rcases r.callSignatures with _ | ⟨signature, _ | ⟨_, _⟩⟩
        · exact (Layout.run_note recur _).symm
        · exact function_eq_run g scope recur signature
        · exact (Layout.run_note recur _).symm
      · exact (Layout.run_note recur _).symm

theorem classType_eq_run (r : TypeRecord) :
    classType g scope r = (classPlan g scope r).run recur := by
  unfold classType classPlan
  cases r.symbol? with
  | none => exact (Layout.run_note recur _).symm
  | some s => exact (Layout.run_answer recur _).symm

theorem interface_eq_run (r : TypeRecord) :
    interface g scope r = (interfacePlan g scope r).run recur := by
  unfold interface interfacePlan
  cases r.symbol? with
  | none => exact (Layout.run_note recur _).symm
  | some s =>
    dsimp only
    cases hsym : g.symbol? s with
    | none => exact symbol_bind_of_none hsym _
    | some sym =>
      rw [symbol_bind_of_some hsym]
      dsimp only
      split_ifs
      · exact (Layout.run_note recur _).symm
      · exact (Layout.run_answer recur _).symm

theorem reference_eq_run (t : TypeId) (r : TypeRecord) :
    reference g recur t r = (referencePlan g t r).run recur := by
  unfold reference referencePlan
  cases r.target? with
  | none => exact (Layout.run_note recur _).symm
  | some target =>
    dsimp only
    cases htarget : g.type? target with
    | none => exact typeRecord_bind_of_none htarget _
    | some targetRecord =>
      rw [typeRecord_bind_of_some htarget]
      dsimp only
      split_ifs with htuple hloop hnone
      · exact (Layout.run_answer recur _).symm
      · rfl
      · simp [Plan.run, Layout.run, Slot.run, Frame.finish, Frame.assemble, Walk.note,
          List.isEmpty_iff.1 hnone]
      · simp only [Plan.run, Layout.run, List.map_cons, List.mapM_cons, List.mapM_map, bind_assoc,
          pure_bind, Slot.run]
        congr 1
        funext head
        refine mapM_bind_congr fun arguments hlength => ?_
        have hsome : ¬ arguments = [] := by
          rwa [← List.length_eq_zero_iff, hlength, List.length_eq_zero_iff, ← List.isEmpty_iff]
        simp [Frame.finish, Frame.assemble, Walk.note, hsome]

theorem sort_eq_run (t : TypeId) (r : TypeRecord) :
    (if r.objectFlags.has .classType then classType g scope r
      else if r.objectFlags.has .interface then interface g scope r
      else if r.objectFlags.has .reference then reference g recur t r
      else if r.objectFlags.has .anonymous then anonymous g scope recur t r
      else degrade ("unhandled object type " ++ g.describe t)) =
      (sortPlan g scope t r).run recur := by
  unfold sortPlan
  split_ifs
  · exact classType_eq_run g scope recur r
  · exact interface_eq_run g scope recur r
  · exact reference_eq_run g recur t r
  · exact anonymous_eq_run g scope recur t r
  · exact (Layout.run_note recur _).symm

theorem isSuppressed_bind (s : SymbolId) (plan : Plan) :
    (do
      let suppressed ← isSuppressed g scope s
      if suppressed then return .unknown .suppressed else plan.run recur) =
      (unlessSuppressed g scope s plan).run recur := by
  unfold isSuppressed unlessSuppressed
  cases scope.blacklistFor? s with
  | none => simp
  | some files =>
    dsimp only
    cases hsym : g.symbol? s with
    | none => rw [bind_assoc]; exact symbol_bind_of_none hsym _
    | some sym =>
      rw [symbol_bind_of_some hsym]
      dsimp only
      split_ifs with hnone hall
      · simp [Plan.run, Layout.run, Frame.finish, Frame.assemble, Walk.note]
      · rw [hall, pure_bind, if_pos rfl]
        exact (Layout.run_answer recur _).symm
      · rw [Bool.eq_false_iff.2 hall, pure_bind, if_neg Bool.false_ne_true]

theorem object_eq_run (t : TypeId) (r : TypeRecord) :
    object g scope recur t r = (objectPlan g scope t r).run recur := by
  unfold object objectPlan isSuppressedRecord
  cases r.symbol? with
  | none => simpa using sort_eq_run g scope recur t r
  | some s =>
    dsimp only
    rw [← isSuppressed_bind]
    congr 1
    funext suppressed
    rw [← sort_eq_run]

theorem union_eq_run (r : TypeRecord) :
    union recur r = (Layout.mk (r.constituents.map .type) .choice).run recur := by
  unfold union Layout.run
  rw [List.mapM_map]
  congr 1
  funext es
  rw [Frame.finish, Frame.assemble]
  cases TypeExpr.choice? es <;> rfl

theorem byKind_eq_run (t : TypeId) (r : TypeRecord) (kind : Kind) :
    byKind g scope recur t r kind = (kindPlan g scope t r kind).run recur := by
  cases kind with
  | object => exact object_eq_run g scope recur t r
  | union => exact union_eq_run recur r
  | _ => exact (Layout.run_note recur _).symm

/-- **Levels.** One level of the expression of a type does what its plan says. -/
theorem level_eq_run (t : TypeId) : level g scope recur t = (plan g scope t).run recur := by
  unfold level plan
  cases hr : g.type? t with
  | none => exact typeRecord_bind_of_none hr _
  | some r =>
    rw [typeRecord_bind_of_some hr]
    dsimp only
    cases Kind.ofFlags? r.flags with
    | none => rfl
    | some kind =>
      dsimp only
      cases kind.fixed? with
      | some e => exact (Layout.run_answer recur e).symm
      | none => exact byKind_eq_run g scope recur t r kind

/-! ## Plans of literals -/

variable {g scope} {t u : TypeId} {layout : Layout}

theorem anonymousPlan_eq_once {r : TypeRecord} (h : anonymousPlan g scope t r = .once u layout) :
    u = t ∧ ∃ s sym, r.symbol? = some s ∧ g.symbol? s = some sym ∧
      sym.flags.has .typeLiteral = true := by
  unfold anonymousPlan at h
  split at h
  · cases h
  · next s hs =>
    split at h
    · cases h
    · next sym hsym =>
      split_ifs at h with hlit
      · cases h
        exact ⟨rfl, s, sym, hs, hsym, hlit⟩
      · split at h <;> cases h

theorem sortPlan_eq_once {r : TypeRecord} (h : sortPlan g scope t r = .once u layout) :
    ¬ r.objectFlags.has .classType = true ∧ ¬ r.objectFlags.has .interface = true ∧
      ¬ r.objectFlags.has .reference = true ∧ r.objectFlags.has .anonymous = true ∧
      anonymousPlan g scope t r = .once u layout := by
  unfold sortPlan at h
  split_ifs at h with hc hi hr ha
  · unfold classPlan at h
    split at h <;> cases h
  · unfold interfacePlan at h
    split at h
    · cases h
    · split at h
      · cases h
      · split_ifs at h
  · unfold referencePlan at h
    split at h
    · cases h
    · split at h
      · cases h
      · split_ifs at h
  · exact ⟨hc, hi, hr, ha, h⟩

theorem unlessSuppressed_eq_once {s : SymbolId} {plan : Plan}
    (h : unlessSuppressed g scope s plan = .once u layout) : plan = .once u layout := by
  unfold unlessSuppressed at h
  split at h
  · exact h
  · split at h
    · cases h
    · split_ifs at h
      exact h

theorem objectPlan_eq_once {r : TypeRecord} (h : objectPlan g scope t r = .once u layout) :
    sortPlan g scope t r = .once u layout := by
  unfold objectPlan at h
  split at h
  · exact h
  · exact unlessSuppressed_eq_once h

/-- Only literals are expanded. -/
theorem plan_eq_once (h : plan g scope t = .once u layout) : u = t ∧ g.isLiteral t = true := by
  unfold plan at h
  split at h
  · cases h
  · next r hr =>
    split at h
    · cases h
    · next kind hk =>
      split at h
      · cases h
      · cases kind with
        | object =>
          obtain ⟨hc, hi, href, ha, hanonymous⟩ := sortPlan_eq_once (objectPlan_eq_once h)
          obtain ⟨rfl, s, sym, hs, hsym, hlit⟩ := anonymousPlan_eq_once hanonymous
          have hf := TypeRecord.form_of_anonymous hk hc hi href ha
          exact ⟨rfl, by simp [TypeGraph.isLiteral, hr, hf, hs, hsym, hlit]⟩
        | _ => cases h

variable (scope) in
/-- A literal is expanded, unless its symbol is suppressed. -/
theorem plan_eq_unlessSuppressed (h : g.isLiteral t = true) :
    ∃ r s sym, g.type? t = some r ∧ r.symbol? = some s ∧ g.symbol? s = some sym ∧
      plan g scope t =
        unlessSuppressed g scope s (.once t (literalLayout g scope r sym)) := by
  obtain ⟨r, s, sym, hr, hk, hc, hi, href, ha, hs, hsym, hlit⟩ := g.isLiteral_iff.1 h
  have hsort : sortPlan g scope t r = .once t (literalLayout g scope r sym) := by
    simp [sortPlan, anonymousPlan, hc, hi, href, ha, hs, hsym, hlit]
  refine ⟨r, s, sym, hr, hs, hsym, ?_⟩
  simp [plan, hr, hk, Kind.fixed?, kindPlan, objectPlan, hs, hsort]

variable (scope) in
theorem plan_of_isLiteral (h : g.isLiteral t = true) :
    (∃ layout, plan g scope t = .once t layout) ∨
      ∃ note?, plan g scope t = .fill ⟨[], .constant note? (.unknown .suppressed)⟩ := by
  obtain ⟨r, s, sym, -, -, hsym, hplan⟩ := plan_eq_unlessSuppressed scope h
  rw [hplan, unlessSuppressed]
  cases scope.blacklistFor? s with
  | none => exact Or.inl ⟨_, rfl⟩
  | some files =>
    simp only [hsym]
    split_ifs
    · exact Or.inr ⟨_, rfl⟩
    · exact Or.inr ⟨_, rfl⟩
    · exact Or.inl ⟨_, rfl⟩

end Annotate

/-! ## All levels -/

theorem annotateWithin_eq_run (g : TypeGraph) (scope : Scope) (n : Nat) (t : TypeId) :
    annotateWithin g scope (n + 1) t =
      (Annotate.plan g scope t).run (annotateWithin g scope n) := by
  rw [annotateWithin_succ, Annotate.level_eq_run]

section

variable {g : TypeGraph} {scope : Scope} {P : {α : Type} → Walk α → Walk α → Prop}
  (hP : Walk.Congruence (fun _ => True) (fun u => g.isLiteral u = true) P)

include hP

/-- What passes from the parts of a walk to the whole passes from the types that a plan follows to
the plan, if the plan expands literals only. -/
theorem Walk.Congruence.plan {t : TypeId} {recur recur' : TypeId → Walk TypeExpr}
    (hrec : ∀ u, (Annotate.plan g scope t).Follows u → P (recur u) (recur' u)) :
    P ((Annotate.plan g scope t).run recur) ((Annotate.plan g scope t).run recur') := by
  refine Plan.run_rel hP.compositional (fun _ => hP.throw trivial) recur recur'
    (fun layout _ => ⟨fun message _ => hP.warn message, fun _ message _ => hP.warn message⟩)
    (fun u layout hu => ?_) hrec
  obtain ⟨rfl, hlit⟩ := Annotate.plan_eq_once hu
  exact hP.enter hlit

theorem Walk.Congruence.annotateWithin (n : Nat) (t : TypeId) :
    P (annotateWithin g scope n t) (annotateWithin g scope n t) := by
  induction n generalizing t with
  | zero => exact hP.compositional.degrade (hP.warn _)
  | succ n ih =>
    rw [annotateWithin_eq_run]
    exact hP.plan fun u _ => ih u

end

end ClosureTypes
