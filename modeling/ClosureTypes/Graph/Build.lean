import ClosureTypes.Graph.Basic

/-!
# Building a type graph

A graph grows by steps that append types and symbols and answer their handles. The functions of
`TypeGraph.Build` are the steps; `Step` is the same vocabulary as data, so that a whole construction
is a list of steps, and `Step.run` performs one.

A member is appended before its owner is looked up. Hence an owner handle that leads nowhere, but
will be the next to be given out, ends up naming the new member itself.

1. `type?_run_type`, `symbol?_run_symbol`: what is appended stands at the next position, and all
   that was there before stays.
2. `declaredTypes_run_parameter`: a parameter's type is declared under the parameter's handle.
-/

namespace ClosureTypes

namespace TypeGraph.Build

/-! ## Types and symbols -/

/-- Appends a type and answers its handle. -/
def type (r : TypeRecord) : StateM TypeGraph TypeId :=
  fun g => (.ofIndex g.types.size, { g with types := g.types.push r })

/-- Appends a symbol and answers its handle. -/
def symbol (s : Symbol) : StateM TypeGraph SymbolId :=
  fun g => (.ofIndex g.symbols.size, { g with symbols := g.symbols.push s })

theorem type?_run_type (r : TypeRecord) (g : TypeGraph) (t : TypeId) :
    ((type r).run g).2.type? t = if t.index = g.types.size then some r else g.type? t := by
  show (g.types.push r)[t.index]? = _
  rw [Array.getElem?_push]
  rfl

theorem symbol?_run_symbol (s : Symbol) (g : TypeGraph) (u : SymbolId) :
    ((symbol s).run g).2.symbol? u = if u.index = g.symbols.size then some s else g.symbol? u := by
  show (g.symbols.push s)[u.index]? = _
  rw [Array.getElem?_push]
  rfl

/-- Declares the type of `s`, wherever it is seen from. -/
def declareType (s : SymbolId) (t : TypeId) : StateM TypeGraph Unit :=
  modify fun g => { g with declaredTypes := g.declaredTypes.bind s t }

/-- Records the type of `s` as seen from `node`. -/
def declareTypeAt (s : SymbolId) (node : NodeId) (t : TypeId) : StateM TypeGraph Unit :=
  modify fun g => { g with localTypes := g.localTypes.bind (s, node) t }

/-- Records that `node` lies in the namespace or module `container`. -/
def encloseNode (node : NodeId) (container : SymbolId) : StateM TypeGraph Unit :=
  modify fun g => { g with containers := g.containers.bind node container }

/-- Appends `s` and enters it under its name in the member table of `owner`. -/
def member (owner : SymbolId) (s : Symbol) : StateM TypeGraph SymbolId := do
  let id ← symbol s
  modify fun g => g.modifySymbol owner fun o => { o with members := o.members.insert s.name id }
  return id

/-- Adds to `owner` a property of the type `t`. -/
def property (owner : SymbolId) (name : String) (t : TypeId) : StateM TypeGraph SymbolId := do
  let id ← member owner { name, flags := .ofList [SymbolFlag.property] }
  declareType id t
  return id

/-- Appends the symbol of a parameter of the type `t`; no table owns it. -/
def parameter (name : String) (t : TypeId) : StateM TypeGraph SymbolId := do
  let id ← symbol { name, flags := .ofList [SymbolFlag.functionScopedVariable] }
  declareType id t
  return id

theorem declaredTypes_run_parameter (name : String) (t : TypeId) (g : TypeGraph) :
    ((parameter name t).run g).2.declaredTypes =
      g.declaredTypes.bind ((parameter name t).run g).1 t := rfl

/-! ## Kinds of types -/

/-- A type that its flags say all about. -/
def primitive (flags : TypeFlags) : StateM TypeGraph TypeId := type { flags }

/-- The type `boolean`: a union of its two literal types, which are appended before it. -/
def boolean : StateM TypeGraph TypeId := do
  let t ← primitive (.ofList [TypeFlag.booleanLiteral])
  let f ← primitive (.ofList [TypeFlag.booleanLiteral])
  type { flags := .ofList [TypeFlag.boolean, TypeFlag.union], constituents := [t, f] }

/-- The union of `constituents`. -/
def union (constituents : List TypeId) : StateM TypeGraph TypeId :=
  type { flags := .ofList [TypeFlag.union], constituents }

/-- The intersection of `constituents`. -/
def intersection (constituents : List TypeId) : StateM TypeGraph TypeId :=
  type { flags := .ofList [TypeFlag.intersection], constituents }

/-- The instance type of a class declared in `file`. -/
def classType (name file : String) : StateM TypeGraph TypeId := do
  let s ← symbol { name, flags := .ofList [SymbolFlag.classType], declarations := [{ file }] }
  type (.object (.ofList [ObjectFlag.classType]) (some s))

/-- An interface declared in `file`. -/
def interface (name file : String) : StateM TypeGraph TypeId := do
  let s ← symbol { name, flags := .ofList [SymbolFlag.interface], declarations := [{ file }] }
  type (.object (.ofList [ObjectFlag.interface]) (some s))

/-- The application of `target` to `arguments`. It carries the symbol that the target has now. -/
def reference (target : TypeId) (arguments : List TypeId) : StateM TypeGraph TypeId := do
  let g ← get
  type { TypeRecord.object (.ofList [ObjectFlag.reference]) ((g.type? target).bind (·.symbol?)) with
    target? := some target
    arguments }

/-- A type literal without members, and the symbol that will own its members. -/
def literal (file : String) : StateM TypeGraph (TypeId × SymbolId) := do
  let s ← symbol
    { name := Symbol.literalName
      flags := .ofList [SymbolFlag.typeLiteral]
      declarations := [{ file }] }
  let t ← type (.object (.ofList [ObjectFlag.anonymous]) (some s))
  return (t, s)

/-- The type of a function declared in `file`, with one call signature. -/
def function (name file : String) (signature : Signature) : StateM TypeGraph TypeId := do
  let s ← symbol { name, flags := .ofList [SymbolFlag.function], declarations := [{ file }] }
  type { TypeRecord.object (.ofList [ObjectFlag.anonymous]) (some s) with
    callSignatures := [signature] }

/-! ## Steps as data -/

/-- One step of building a graph. -/
inductive Step
  | type (record : TypeRecord)
  | symbol (symbol : Symbol)
  | member (owner : SymbolId) (symbol : Symbol)
  | property (owner : SymbolId) (name : String) (type : TypeId)
  | parameter (name : String) (type : TypeId)
  | primitive (flags : TypeFlags)
  | boolean
  | union (constituents : List TypeId)
  | intersection (constituents : List TypeId)
  | classType (name file : String)
  | interface (name file : String)
  | reference (target : TypeId) (arguments : List TypeId)
  | literal (file : String)
  | function (name file : String) (signature : Signature)
  | declareType (symbol : SymbolId) (type : TypeId)
  | declareTypeAt (symbol : SymbolId) (node : NodeId) (type : TypeId)
  | encloseNode (node : NodeId) (container : SymbolId)

/-- What a step answers: the handles of what it was asked to append. -/
inductive Answer
  | type (t : TypeId)
  | symbol (s : SymbolId)
  | literal (t : TypeId) (s : SymbolId)
  | done
  deriving DecidableEq

/-- Performs one step. -/
def Step.run : Step → StateM TypeGraph Answer
  | .type record => .type <$> Build.type record
  | .symbol s => .symbol <$> Build.symbol s
  | .member owner s => .symbol <$> Build.member owner s
  | .property owner name t => .symbol <$> Build.property owner name t
  | .parameter name t => .symbol <$> Build.parameter name t
  | .primitive flags => .type <$> Build.primitive flags
  | .boolean => .type <$> Build.boolean
  | .union constituents => .type <$> Build.union constituents
  | .intersection constituents => .type <$> Build.intersection constituents
  | .classType name file => .type <$> Build.classType name file
  | .interface name file => .type <$> Build.interface name file
  | .reference target arguments => .type <$> Build.reference target arguments
  | .literal file => (fun p => .literal p.1 p.2) <$> Build.literal file
  | .function name file signature => .type <$> Build.function name file signature
  | .declareType s t => (fun _ => .done) <$> Build.declareType s t
  | .declareTypeAt s node t => (fun _ => .done) <$> Build.declareTypeAt s node t
  | .encloseNode node container => (fun _ => .done) <$> Build.encloseNode node container

/-- Performs steps in order and answers each. -/
def runAll (steps : List Step) : StateM TypeGraph (List Answer) := steps.mapM Step.run

end TypeGraph.Build

end ClosureTypes
