import ClosureTypes.Proofs.DescriptionParts
import Mathlib.Data.List.Nodup

/-!
# Descriptions, read back

`Particulars` are what the description of a type shows of it, and no more. They are settled by the
text, however the names of symbols are chosen: no name can be mistaken for another part.

1. `Particulars.parts_injective`: particulars are settled by the parts that show them.
2. `TypeGraph.describeWithin_succ`, `TypeGraph.described`: descriptions consist of such parts.
3. `TypeGraph.describe_eq_iff`: descriptions are the same where they show the same.
-/

namespace ClosureTypes

/-! ## What a description shows -/

/-- What the description of a type shows of it. -/
structure Particulars where
  flags : TypeFlags
  /-- The name and the roles of the symbol of the alias. -/
  aliasSymbol? : Option (String × SymbolFlags)
  /-- The descriptions of the alias's arguments. -/
  arguments : List String
  sorts : List ObjectFlag
  name? : Option String
  fromPattern : Bool
  deriving DecidableEq

/-- What the description of a record shows, where `argument` describes the alias's arguments. -/
def TypeGraph.particulars (g : TypeGraph) (argument : TypeId → String) (r : TypeRecord) :
    Particulars where
  flags := r.flags
  aliasSymbol? := (g.shownAlias? r).map fun s => (s.name, s.flags)
  arguments := r.aliasArguments.map argument
  sorts := if r.flags = .ofList [TypeFlag.object] then r.objectFlags.members else []
  name? := g.shownName? r
  fromPattern := r.fromPattern

namespace DescriptionPart

/-- The part that shows a flag word as a number. -/
def flags {φ : Type} (w : FlagSet φ) : DescriptionPart := word ("flags:" ++ Text.hex w.bits.toNat)

/-- The parts that show a symbol of the given name and roles, with `label` before its name. -/
def symbol (label : String) (s : String × SymbolFlags) : List DescriptionPart :=
  quoted label s.1 :: flags s.2 :: s.2.names.map word

theorem flags_injective {φ : Type} : Function.Injective (flags (φ := φ)) := by
  rintro ⟨a⟩ ⟨b⟩ h
  have hbits := Text.hex_injective ((String.append_right_inj _).1 (word.inj h))
  exact congrArg FlagSet.mk (UInt32.toNat_inj.1 hbits)

end DescriptionPart

namespace Particulars

open DescriptionPart

/-- The parts of a description. -/
def parts (d : Particulars) : List DescriptionPart :=
  [.flags d.flags]
    ++ d.aliasSymbol?.toList.flatMap (symbol "alias:")
    ++ (if d.arguments.isEmpty then [] else [.enclosed "aliasArgs:" d.arguments])
    ++ d.flags.names.map .word
    ++ d.sorts.map (fun sort => .word ("object:" ++ sort.name))
    ++ d.name?.toList.map (.quoted "symbol.name:")
    ++ (if d.fromPattern then [.word "destructuring:true"] else [])

/-! ### Read back -/

theorem aliasName_parts (d : Particulars) :
    d.parts.findSome? (named? "alias:") = d.aliasSymbol?.map Prod.fst := by
  obtain ⟨_, _ | _, _ | _, _, _ | _, _ | _⟩ := d <;>
    simp [parts, symbol, DescriptionPart.flags, named?, List.findSome?_cons, List.findSome?_map,
      Function.comp_def]

theorem name_parts (d : Particulars) :
    d.parts.findSome? (named? "symbol.name:") = d.name? := by
  have hnone {α : Type} (l : List α) : (l.findSome? fun _ => (none : Option String)) = none := by
    simp
  obtain ⟨_, _ | _, _ | _, _, _ | _, _ | _⟩ := d <;>
    simp [parts, symbol, DescriptionPart.flags, named?, List.findSome?_cons, List.findSome?_map,
      Function.comp_def, hnone]

theorem arguments_parts (d : Particulars) :
    d.parts.flatMap DescriptionPart.texts = d.arguments := by
  have hnone {α : Type} (l : List α) : (l.flatMap fun _ => ([] : List String)) = [] := by simp
  obtain ⟨_, _ | _, _ | _, _, _ | _, _ | _⟩ := d <;>
    simp [parts, symbol, DescriptionPart.flags, DescriptionPart.texts, List.flatMap_map, hnone]

/-- The parts behind the names of the flags show the sorts and the mark of a pattern. -/
theorem sorts_append_inj {sorts sorts' : List ObjectFlag} {name? : Option String} {b b' : Bool}
    (h : (sorts.map fun sort => word ("object:" ++ sort.name)) ++
        (name?.toList.map (quoted "symbol.name:") ++
          if b then [word "destructuring:true"] else []) =
      (sorts'.map fun sort => word ("object:" ++ sort.name)) ++
        (name?.toList.map (quoted "symbol.name:") ++
          if b' then [word "destructuring:true"] else [])) :
    sorts = sorts' ∧ b = b' := by
  have hmem (sorts : List ObjectFlag) (b : Bool) : b = true ↔
      word "destructuring:true" ∈ (sorts.map fun sort => word ("object:" ++ sort.name)) ++
        (name?.toList.map (quoted "symbol.name:") ++
          if b then [word "destructuring:true"] else []) := by
    cases b <;> simp [String.ext_iff]
  have hb : b = b' := by
    rw [Bool.eq_iff_iff, hmem sorts b, hmem sorts' b', h]
  have hnames : Function.Injective ObjectFlag.name := by
    have hnodup : (ObjectFlag.all.map ObjectFlag.name).Nodup := by decide
    intro a b h
    exact List.inj_on_of_nodup_map hnodup (Flag.mem_all a) (Flag.mem_all b) h
  have hword : Function.Injective fun sort : ObjectFlag => word ("object:" ++ sort.name) :=
    fun a b h => hnames ((String.append_right_inj _).1 (word.inj h))
  subst hb
  exact ⟨hword.list_map (List.append_cancel_right h), rfl⟩

/-- **Particulars.** What a description shows is settled by its parts. -/
theorem parts_injective : Function.Injective parts := by
  intro d e h
  have halias := aliasName_parts d
  have hname := name_parts d
  have harguments := arguments_parts d
  rw [h, aliasName_parts] at halias
  rw [h, name_parts] at hname
  rw [h, arguments_parts] at harguments
  obtain ⟨flags, alias?, arguments, sorts, name?, fromPattern⟩ := d
  obtain ⟨flags', alias?', arguments', sorts', name?', fromPattern'⟩ := e
  obtain ⟨rfl⟩ : name?' = name? := hname
  obtain ⟨rfl⟩ : arguments' = arguments := harguments
  simp only [parts, List.append_assoc, List.singleton_append] at h
  obtain ⟨hflags, hrest⟩ := List.cons.inj h
  obtain rfl := flags_injective hflags
  have halias' : alias? = alias?' := by
    cases alias? with
    | none => cases alias?' <;> simp at halias ⊢
    | some s =>
      cases alias?' with
      | none => simp at halias
      | some s' =>
        obtain ⟨-, hsymbol⟩ := List.cons.inj hrest
        obtain ⟨hroles, -⟩ := List.cons.inj hsymbol
        exact congrArg some (Prod.ext (Option.some.inj halias).symm (flags_injective hroles))
  subst halias'
  have hsorts := List.append_cancel_left (List.append_cancel_left (List.append_cancel_left hrest))
  obtain ⟨rfl, rfl⟩ := sorts_append_inj hsorts
  rfl

end Particulars

/-! ## Descriptions of types -/

theorem separated_symbol (label : String) (s : Symbol) (after : List Char) :
    separated " " ((DescriptionPart.symbol label (s.name, s.flags)).map DescriptionPart.text)
        after =
      separated " " [label ++ s.describe] after := by
  have hwords : DescriptionPart.text ∘ DescriptionPart.word = id := rfl
  simp only [DescriptionPart.symbol, DescriptionPart.flags, Symbol.describe, List.map_map, hwords,
    List.map_id, List.map_cons, List.cons_append, List.nil_append, DescriptionPart.text, separated,
    String.toList_append, List.append_assoc, intercalate_cons_append]

/-- The description of a record has the parts that show its particulars. -/
theorem TypeGraph.separated_particulars (g : TypeGraph) (argument : TypeId → String)
    (r : TypeRecord) (after : List Char) :
    separated " " ((g.particulars argument r).parts.map DescriptionPart.text) after =
      separated " " (g.descriptionParts argument r) after := by
  have halias (rest : List Char) :
      separated " " (((g.particulars argument r).aliasSymbol?.toList.flatMap
          (DescriptionPart.symbol "alias:")).map DescriptionPart.text) rest =
        separated " " ((g.shownAlias? r).toList.map fun s => "alias:" ++ s.describe) rest := by
    unfold particulars
    cases g.shownAlias? r with
    | none => rfl
    | some s => simp [separated_symbol]
  have harguments : (if (g.particulars argument r).arguments.isEmpty then []
        else [.enclosed "aliasArgs:" (g.particulars argument r).arguments]).map
          DescriptionPart.text =
      if r.aliasArguments.isEmpty then []
        else ["aliasArgs:<" ++ ",".intercalate (r.aliasArguments.map argument) ++ ">"] := by
    unfold particulars
    cases r.aliasArguments <;> rfl
  have hsorts : ((g.particulars argument r).sorts.map fun sort =>
        .word ("object:" ++ sort.name)).map DescriptionPart.text =
      (shownSorts r).map ("object:" ++ ·) := by
    unfold particulars shownSorts FlagSet.names
    split
    · rw [List.map_map, List.map_map]
      rfl
    · rfl
  have hpattern : (if (g.particulars argument r).fromPattern then
        [.word "destructuring:true"] else []).map DescriptionPart.text =
      if r.fromPattern then ["destructuring:true"] else [] := by
    unfold particulars
    cases r.fromPattern <;> rfl
  have hwords (texts : List String) : (texts.map .word).map DescriptionPart.text = texts := by
    rw [List.map_map]
    exact List.map_id texts
  have hname : ((g.particulars argument r).name?.toList.map (.quoted "symbol.name:")).map
      DescriptionPart.text = (g.shownName? r).toList.map fun name =>
        "symbol.name:" ++ Text.quote name := List.map_map
  simp only [Particulars.parts, descriptionParts, List.map_append, separated_append, halias,
    harguments, hwords, hsorts, hname, hpattern]
  rfl

/-! ### Their parts can be told -/

section

variable {S : String → Prop}

theorem DescriptionPart.fits_flags {φ : Type} (w : FlagSet φ) : (flags w).Fits S :=
  .word (IsLabel.append (by decide) (Text.isLabel_hex _))

theorem DescriptionPart.fits_names {φ : Type} [Flag φ]
    (h : ∀ f ∈ Flag.all (φ := φ), IsLabel (Flag.name f)) (w : FlagSet φ) :
    ∀ p ∈ w.names.map word, p.Fits S := by
  rw [FlagSet.names, List.map_map, List.forall_mem_map]
  exact fun f _ => .word (h f (Flag.mem_all f))

theorem DescriptionPart.fits_symbol {label : String} (h : IsLabel label)
    (s : String × SymbolFlags) : ∀ p ∈ symbol label s, p.Fits S :=
  List.forall_mem_cons.2 ⟨.quoted h, List.forall_mem_cons.2
    ⟨fits_flags s.2, fits_names (by decide) s.2⟩⟩

open DescriptionPart in
theorem Particulars.fits_parts {d : Particulars} (h : ∀ text ∈ d.arguments, S text) :
    ∀ p ∈ d.parts, p.Fits S := by
  simp only [parts, List.forall_mem_append, List.forall_mem_singleton]
  refine ⟨⟨⟨⟨⟨⟨fits_flags _, ?_⟩, ?_⟩, fits_names (by decide) _⟩, ?_⟩, ?_⟩, ?_⟩
  · intro p hp
    obtain ⟨s, -, hp⟩ := List.mem_flatMap.1 hp
    exact fits_symbol (by decide) s p hp
  · split
    · simp
    · next hne =>
      rw [List.isEmpty_iff] at hne
      exact List.forall_mem_singleton.2 (.enclosed (by decide) hne h)
  · have hsorts : ∀ sort ∈ ObjectFlag.all, IsLabel sort.name := by decide
    exact List.forall_mem_map.2 fun sort _ =>
      .word (IsLabel.append (by decide) (hsorts sort (Flag.mem_all sort)))
  · exact List.forall_mem_map.2 fun name _ => .quoted (by decide)
  · cases d.fromPattern with
    | false => simp
    | true => simpa using .word (by decide)

end

theorem TypeGraph.describeWithin_succ {g : TypeGraph} {t : TypeId} {r : TypeRecord}
    (hr : g.type? t = some r) (n : Nat) :
    (g.describeWithin (n + 1) t).toList = "\x7btype".toList ++
      separated " " ((g.particulars (g.describeWithin n) r).parts.map DescriptionPart.text)
        ['\x7d'] := by
  rw [separated_particulars, describeWithin, hr]
  exact toList_bracketed (by simp [descriptionParts])

theorem TypeGraph.described (g : TypeGraph) (n : Nat) (t : TypeId) :
    Described n (g.describeWithin n t) := by
  have hmissing (t : TypeId) : IsLabel ("missing:" ++ toString t.word.toNat) :=
    IsLabel.append (by decide) (Text.isLabel_toString _)
  induction n generalizing t with
  | zero =>
    unfold describeWithin
    cases g.type? t with
    | none => exact isDescription_word (hmissing t)
    | some r => exact isDescription_word (by decide)
  | succ n ih =>
    cases hr : g.type? t with
    | none =>
      unfold describeWithin
      rw [hr]
      exact isDescription_word (hmissing t)
    | some r =>
      refine ⟨_, Particulars.fits_parts ?_, g.describeWithin_succ hr n⟩
      exact List.forall_mem_map.2 fun u _ => ih u

theorem Symbol.describe_inj_iff {s s' : Symbol} :
    s.describe = s'.describe ↔ s.name = s'.name ∧ s.flags = s'.flags := by
  constructor
  · intro h
    have hparts : separated " " ((DescriptionPart.symbol "" (s.name, s.flags)).map
          DescriptionPart.text) ['\x7d'] =
        separated " " ((DescriptionPart.symbol "" (s'.name, s'.flags)).map
          DescriptionPart.text) ['\x7d'] := by
      rw [separated_symbol, separated_symbol, h]
    obtain ⟨heq, -⟩ := DescriptionPart.list_inj prefixFree_false
      (DescriptionPart.fits_symbol (by decide) _) (DescriptionPart.fits_symbol (by decide) _) hparts
    obtain ⟨hname, hrest⟩ := List.cons.inj heq
    obtain ⟨hflags, -⟩ := List.cons.inj hrest
    exact ⟨(DescriptionPart.quoted.inj hname).2, DescriptionPart.flags_injective hflags⟩
  · rintro ⟨hname, hflags⟩
    rw [describe, describe, hname, hflags]

/-- **Descriptions.** The descriptions of two types, each known to its graph, are the same text
exactly when they show the same of the two: the flags, the name and the roles of the alias, the
descriptions of its arguments in order, the sorts of a plain object type, the name, and the mark of
a pattern. Likewise, the descriptions of two symbols are the same exactly when name and roles are.
Names may be any texts, also such that look like parts of a description. -/
theorem TypeGraph.describe_eq_iff :
    (∀ (g g' : TypeGraph) (t t' : TypeId) (r r' : TypeRecord), g.type? t = some r →
      g'.type? t' = some r' →
      (g.describe t = g'.describe t' ↔
        g.particulars (g.describeWithin describedLevels) r =
          g'.particulars (g'.describeWithin describedLevels) r')) ∧
      ∀ s s' : Symbol, s.describe = s'.describe ↔ s.name = s'.name ∧ s.flags = s'.flags := by
  refine ⟨fun g g' t t' r r' hr hr' => ?_, fun s s' => Symbol.describe_inj_iff⟩
  rw [describe, describe, ← String.toList_inj, describeWithin_succ hr, describeWithin_succ hr']
  constructor
  · intro h
    have hfits (g : TypeGraph) (r : TypeRecord) :
        ∀ p ∈ (g.particulars (g.describeWithin describedLevels) r).parts,
          p.Fits (Described describedLevels) :=
      Particulars.fits_parts (List.forall_mem_map.2 fun u _ => g.described describedLevels u)
    obtain ⟨hparts, -⟩ := DescriptionPart.list_inj (prefixFree_described describedLevels)
      (hfits g r) (hfits g' r') (List.append_cancel_left h)
    exact Particulars.parts_injective hparts
  · intro h
    rw [h]

/-- An object type from a pattern, and one whose symbol has a name that reads as if it were. -/
def patternLookalike : TypeGraph where
  types := #[
    { TypeRecord.object (.ofList [ObjectFlag.anonymous]) (some ⟨0⟩) with fromPattern := true },
    .object (.ofList [ObjectFlag.anonymous]) (some ⟨1⟩)]
  symbols := #[{ name := "a" }, { name := "a\" destructuring:true" }]

/-- A type literal, reached through an alias with one argument; its symbol has the name that is not
shown. -/
def namelessLiteral : TypeGraph where
  types := #[
    { TypeRecord.object (.ofList [ObjectFlag.anonymous]) (some ⟨0⟩) with
      aliasSymbol? := some ⟨1⟩, aliasArguments := [⟨1⟩] },
    { flags := .ofList [TypeFlag.string] }]
  symbols := #[{ name := Symbol.literalName }, { name := "Alias" }]

/-- A type literal without a symbol, reached through a like alias with a like argument. -/
def symbollessLiteral : TypeGraph where
  types := #[
    { flags := .ofList [TypeFlag.string] },
    { TypeRecord.object (.ofList [ObjectFlag.anonymous]) none with
      aliasSymbol? := some ⟨0⟩, aliasArguments := [⟨0⟩] }]
  symbols := #[{ name := "Alias" }]

theorem lookalikes_described :
    patternLookalike.describe ⟨0⟩ ≠ patternLookalike.describe ⟨1⟩ ∧
      namelessLiteral.describe ⟨0⟩ = symbollessLiteral.describe ⟨1⟩ ∧
      ({ name := "a" } : Symbol).describe ≠ ({ name := "a\" flags:0x0" } : Symbol).describe := by
  refine ⟨fun h => ?_, ?_, fun h => ?_⟩
  · have hsame := (TypeGraph.describe_eq_iff.1 patternLookalike patternLookalike ⟨0⟩ ⟨1⟩ _ _
      rfl rfl).1 h
    exact absurd (congrArg Particulars.fromPattern hsame) (by decide)
  · -- Both arguments are strings; which graph they are from does not show.
    have hargument (n : Nat) : namelessLiteral.describeWithin (n + 1) ⟨1⟩ =
        symbollessLiteral.describeWithin (n + 1) ⟨0⟩ := rfl
    refine (TypeGraph.describe_eq_iff.1 namelessLiteral symbollessLiteral ⟨0⟩ ⟨1⟩ _ _
      rfl rfl).2 ?_
    show Particulars.mk _ _ [namelessLiteral.describeWithin 4 ⟨1⟩] _ _ _ = _
    rw [hargument 3]
    rfl
  · exact absurd ((TypeGraph.describe_eq_iff.2 _ _).1 h).1 (by decide)

end ClosureTypes
