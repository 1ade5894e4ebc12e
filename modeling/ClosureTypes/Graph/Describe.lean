import ClosureTypes.Graph.Basic
import ClosureTypes.Text.Quoted

/-!
# Descriptions of types and symbols

Messages name a type by a description of its record: its flags as a number and by name, the alias
it was reached through with that alias's arguments, and its symbol. The arguments are described in
turn, four levels deep; they may lead back to the type itself.
-/

namespace ClosureTypes

namespace Symbol

/-- The name, quoted, and the roles as a number and by name. -/
def describe (s : Symbol) : String :=
  " ".intercalate ([Text.quote s.name, "flags:" ++ Text.hex s.flags.bits.toNat] ++ s.flags.names)

end Symbol

namespace TypeGraph

/-- How many levels of alias arguments a description shows below the type described. -/
def describedLevels : Nat := 4

/-- A description that consists of `parts`. -/
def bracketed (parts : List String) : String :=
  "\x7btype " ++ " ".intercalate parts ++ "\x7d"

/-- The symbol that a type was named by through an alias, if the graph knows it. -/
def shownAlias? (g : TypeGraph) (r : TypeRecord) : Option Symbol := r.aliasSymbol?.bind g.symbol?

/-- The name of a type's symbol, if the graph knows it and the name is not the one given to type
literals. -/
def shownName? (g : TypeGraph) (r : TypeRecord) : Option String :=
  (r.symbol?.bind g.symbol?).bind fun s =>
    if s.name = Symbol.literalName then none else some s.name

/-- The sorts of an object type; they are shown only where `object` is the one flag of the type. -/
def shownSorts (r : TypeRecord) : List String :=
  if r.flags = .ofList [TypeFlag.object] then r.objectFlags.names else []

/-- The parts of the description of a record, where `argument` describes the alias's arguments. -/
def descriptionParts (g : TypeGraph) (argument : TypeId → String) (r : TypeRecord) :
    List String :=
  ["flags:" ++ Text.hex r.flags.bits.toNat]
    ++ (g.shownAlias? r).toList.map (fun s => "alias:" ++ s.describe)
    ++ (if r.aliasArguments.isEmpty then []
        else ["aliasArgs:<" ++ ",".intercalate (r.aliasArguments.map argument) ++ ">"])
    ++ r.flags.names
    ++ (shownSorts r).map ("object:" ++ ·)
    ++ (g.shownName? r).toList.map (fun name => "symbol.name:" ++ Text.quote name)
    ++ (if r.fromPattern then ["destructuring:true"] else [])

/-- The description of `t` with `n` levels of alias arguments; a known type beyond them is only
hinted at. -/
def describeWithin (g : TypeGraph) : Nat → TypeId → String
  | n, t =>
    match g.type? t with
    | none => bracketed ["missing:" ++ toString t.word.toNat]
    | some r =>
      match n with
      | 0 => bracketed ["..."]
      | n + 1 => bracketed (g.descriptionParts (g.describeWithin n) r)

/-- The description of `t`. -/
def describe (g : TypeGraph) (t : TypeId) : String := g.describeWithin (describedLevels + 1) t

end TypeGraph

end ClosureTypes
