import ClosureTypes.Proofs.Ancestors
import ClosureTypes.Proofs.Reading

/-!
# An alias shields its symbol

A symbol with an alias is written by it, and then little else of the symbol counts: not its name,
nor where it stands or is declared, nor most of its roles. Two graphs that differ in these only are
annotated alike, under any blacklist.

1. `Annotate.plan_of_alias`: classes and interfaces with an aliased symbol are written by the alias.
2. `TypeGraph.AlikeButAliased.agree`: all levels read the same, up to messages.
3. `annotate_aliased`: so the expressions, the faults and the literals that are expanded agree.
-/

namespace ClosureTypes

/-- The roles of a symbol that count even under an alias: they tell how an anonymous type with the
symbol is expressed. -/
def SymbolFlag.shapeRoles : List SymbolFlag := [.typeLiteral, .function, .method]

/-- The graphs differ only in symbols that have aliases and that both know: such symbols may have
other names, stand in other symbols, be declared elsewhere or nowhere, and have other roles. No
symbol without an alias stands in such a symbol, be it through others. -/
structure TypeGraph.AlikeButAliased (aliases : Bindings SymbolId String) (g g' : TypeGraph) :
    Prop where
  types : ∀ t, g.type? t = g'.type? t
  symbols : ∀ s, g.symbol? s = g'.symbol? s ∨ ∃ sym sym', aliases.find? s ≠ none ∧
    g.symbol? s = some sym ∧ g'.symbol? s = some sym' ∧ sym.members = sym'.members ∧
    ∀ role ∈ SymbolFlag.shapeRoles, sym.flags.has role = sym'.flags.has role
  symbolCount : g.symbols.size = g'.symbols.size
  symbolType : ∀ s node, g.symbolType? s node = g'.symbolType? s node
  container : ∀ node, g.container? node = g'.container? node
  inside : ∀ s p, aliases.find? s = none →
    Relation.TransGen (fun s p => g.parent? s = some p) s p → g.symbol? p ≠ none →
      aliases.find? p = none

/-! ## Aliased symbols -/

namespace Annotate

variable {g : TypeGraph} {scope : Scope} {s : SymbolId} {name : String}
  (hname : scope.aliases.find? s = some name)

include hname

theorem nameOf_of_alias (g : TypeGraph) : scope.nameOf g s = name := by
  rw [Scope.nameOf, hname]

theorem hasAlias_of_alias : scope.hasAlias s = true := by
  rw [Scope.hasAlias, hname, Option.isSome_some]

/-- Symbols with aliases are not suppressed. -/
theorem unlessSuppressed_of_alias (g : TypeGraph) (plan : Plan) :
    unlessSuppressed g scope s plan = plan := by
  rw [unlessSuppressed, Scope.blacklistFor?, hasAlias_of_alias hname, if_pos rfl]

/-- A class or an interface whose symbol has an alias is written by the alias. -/
theorem plan_of_alias {t : TypeId} {r : TypeRecord} (hr : g.type? t = some r)
    (hk : Kind.ofFlags? r.flags = some .object)
    (hsort : r.objectFlags.has .classType = true ∨ r.objectFlags.has .interface = true)
    (hs : r.symbol? = some s) (hknown : g.symbol? s ≠ none) :
    plan g scope t = .fill (.answer (.named name)) := by
  have hplan : plan g scope t = sortPlan g scope t r := by
    simp [plan, hr, hk, Kind.fixed?, kindPlan, objectPlan, hs, unlessSuppressed_of_alias hname]
  rw [hplan]
  unfold sortPlan
  split_ifs with hc hi
  · simp only [classPlan, hs, nameOf_of_alias hname]
  · obtain ⟨sym, hsym⟩ := Option.ne_none_iff_exists'.1 hknown
    simp [interfacePlan, hs, hsym, hasAlias_of_alias hname, nameOf_of_alias hname]
  · exact (hsort.elim hc hi).elim
  · exact (hsort.elim hc hi).elim
  · exact (hsort.elim hc hi).elim

end Annotate

/-! ## What levels read in the two graphs -/

namespace TypeGraph.AlikeButAliased

variable {scope : Scope} {g g' : TypeGraph} (h : g.AlikeButAliased scope.aliases g')

include h

/-- Symbols without aliases are the same, and so are those that they stand in. -/
theorem symbol?_eq {s p : SymbolId} (hs : scope.aliases.find? s = none)
    (hp : Relation.ReflTransGen (fun s p => g.parent? s = some p) s p) :
    g.symbol? p = g'.symbol? p := by
  rcases h.symbols p with heq | ⟨sym, -, halias, hsym, -⟩
  · exact heq
  · refine (halias ?_).elim
    rcases Relation.reflTransGen_iff_eq_or_transGen.1 hp with rfl | hp
    · exact hs
    · exact h.inside s p hs hp (by rw [hsym]; exact Option.some_ne_none sym)

theorem nameOf (s : SymbolId) : scope.nameOf g s = scope.nameOf g' s := by
  cases hs : scope.aliases.find? s with
  | some name => rw [Annotate.nameOf_of_alias hs, Annotate.nameOf_of_alias hs]
  | none =>
    -- Whatever `s` stands in is the same in both graphs.
    refine nameOf_congr (K := Relation.ReflTransGen (fun s p => g.parent? s = some p) s)
      (fun _ _ => .tail) (fun p hp => shownAlike_of_eq (h.symbol?_eq hs hp)) scope
      (h.container _) (fun _ => ?_) .refl
    rw [h.symbolCount]

theorem agreeOnSymbol (f : String → String) (s : SymbolId) :
    Annotate.AgreeOnSymbol f g scope g' scope s where
  name := h.nameOf s
  suppression := by
    funext plan
    cases hs : scope.aliases.find? s with
    | some name =>
      rw [Annotate.unlessSuppressed_of_alias hs, Annotate.unlessSuppressed_of_alias hs]
    | none =>
      unfold Annotate.unlessSuppressed
      rw [h.symbol?_eq hs .refl]
  sighting := by
    rcases h.symbols s with heq | ⟨sym, sym', halias, hsym, hsym', hmembers, hroles⟩
    · rw [heq]
    · obtain ⟨name, hname⟩ := Option.ne_none_iff_exists'.1 halias
      rw [hsym, hsym']
      simp only [Option.map_some, Annotate.sighting, Annotate.hasAlias_of_alias hname, hmembers,
        hroles .typeLiteral (by decide), hroles .function (by decide), hroles .method (by decide)]
      simp

/-- Where messages do not count, all levels read the same. -/
theorem agree (t : TypeId) : Annotate.Agree (fun _ => "") g scope g' scope t where
  record := h.types t
  description _ := rfl
  symbol _ s _ _ := h.agreeOnSymbol _ s
  target _ u _ _ := by rw [h.types u]
  slot s _ := by
    unfold Annotate.slot
    rw [h.symbolType]
    cases g'.symbolType? s scope.anchor with
    | some u => rfl
    | none =>
      rcases h.symbols s with heq | ⟨sym, sym', -, hsym, hsym', -⟩
      · rw [heq]
      · rw [hsym, hsym']
        rfl

end TypeGraph.AlikeButAliased

/-- **Aliases.** Take two graphs that differ only in the names, places, declarations and further
roles of symbols with aliases. Whatever type is annotated, under whatever blacklist, and whatever
has been visited before, both give the same expression, or faults that differ in their description
at most; and the same literals are visited by then.

In particular both write a class or an interface with such a symbol by the alias. -/
theorem annotate_aliased {g g' : TypeGraph} {scope : Scope}
    (h : g.AlikeButAliased scope.aliases g') (t : TypeId) (p q : Progress)
    (hvisited : p.visited = q.visited) :
    ((annotate g scope t).outcome p).mapError GraphFault.bare =
        ((annotate g' scope t).outcome q).mapError GraphFault.bare ∧
      ((annotate g scope t).after p).visited = ((annotate g' scope t).after q).visited ∧
      ∀ r s name, g.type? t = some r → Kind.ofFlags? r.flags = some .object →
        r.objectFlags.has .classType = true ∨ r.objectFlags.has .interface = true →
        r.symbol? = some s → scope.aliases.find? s = some name → g.symbol? s ≠ none →
          (annotate g scope t).outcome p = .ok (.named name) ∧
            (annotate g' scope t).outcome q = .ok (.named name) := by
  have halike : (annotate g scope t).Alike (annotate g' scope t) :=
    annotateWithin_alike_of_plan (fun u => (h.agree u).plan_reword) levelLimit t
  refine ⟨(halike p q hvisited).1, (halike p q hvisited).2, ?_⟩
  intro r s name hr hk hsort hs hname hknown
  have houtcome : (annotate g scope t).outcome p = .ok (.named name) := by
    rw [annotate, levelLimit, annotateWithin_eq_run,
      Annotate.plan_of_alias hname hr hk hsort hs hknown, Plan.run, Layout.run_answer,
      Walk.outcome_pure]
  refine ⟨houtcome, ?_⟩
  have hsame := (halike p q hvisited).1
  rw [houtcome] at hsame
  cases hother : (annotate g' scope t).outcome q with
  | ok e =>
    rw [hother] at hsame
    cases hsame
    rfl
  | error e =>
    rw [hother] at hsame
    cases hsame

/-- A union of a reference to an interface that shares its name with a variable, a literal, and a
class in the namespace that the interface stands in. -/
def workshop : TypeGraph where
  types := #[
    { flags := .ofList [TypeFlag.union], constituents := [⟨1⟩, ⟨3⟩, ⟨4⟩] },
    { TypeRecord.object (.ofList [ObjectFlag.reference]) none with
      target? := some ⟨2⟩, arguments := [⟨5⟩] },
    .object (.ofList [ObjectFlag.interface]) (some ⟨0⟩),
    .object (.ofList [ObjectFlag.anonymous]) (some ⟨1⟩),
    .object (.ofList [ObjectFlag.classType]) (some ⟨3⟩),
    { flags := .ofList [TypeFlag.string] }]
  symbols := #[
    { name := "Tool", flags := .ofList [SymbolFlag.interface, SymbolFlag.blockScopedVariable],
      declarations := [{ file := "secret.d.ts" }], parent? := some ⟨4⟩ },
    { name := Symbol.literalName, flags := .ofList [SymbolFlag.typeLiteral],
      declarations := [{ file := "work.d.ts" }], members := ⟨[("part", ⟨2⟩)], by decide⟩ },
    { name := "part", flags := .ofList [SymbolFlag.property] },
    { name := "Clerk", flags := .ofList [SymbolFlag.classType],
      declarations := [{ file := "work.d.ts" }], parent? := some ⟨4⟩ },
    { name := "work", flags := .ofList [SymbolFlag.namespaceModule] }]
  declaredTypes := ⟨[(⟨2⟩, ⟨5⟩)]⟩

/-- The interface has another name, stands alone, is declared nowhere, and is no variable. -/
def movedWorkshop : TypeGraph :=
  workshop.modifySymbol ⟨0⟩ fun sym =>
    { sym with
      name := "Implement"
      flags := .ofList [SymbolFlag.interface]
      declarations := []
      parent? := none }

/-- Suppresses what the secret file declares, but has an alias for the interface. -/
def aliasing : Scope where
  anchor := .nowhere
  blacklist? := some ["secret.d.ts"]
  aliases := ⟨[(⟨0⟩, "Gadget")]⟩

theorem workshop_alike : workshop.AlikeButAliased aliasing.aliases movedWorkshop where
  types _ := rfl
  symbols s := by
    by_cases hs : s = ⟨0⟩
    · subst hs
      exact .inr ⟨_, _, by decide, rfl, rfl, rfl, by decide⟩
    · refine .inl ?_
      rw [movedWorkshop, TypeGraph.symbol?_modifySymbol, if_neg hs]
  symbolCount := rfl
  symbolType _ _ := rfl
  container _ := rfl
  inside s p _ hp _ := by
    obtain ⟨q, -, hq⟩ := Relation.TransGen.tail'_iff.1 hp
    obtain ⟨sym, hsym, hparent⟩ := Option.bind_eq_some_iff.1 hq
    have hwork : ∀ sym ∈ workshop.symbols.toList, ∀ p ∈ sym.parent?, p = ⟨4⟩ := by decide
    rw [hwork sym (TypeGraph.mem_symbols_of_symbol? hsym) p hparent]
    rfl

theorem workshop_aliased :
    ((annotate workshop aliasing ⟨0⟩).outcome {}).map TypeExpr.render =
        .ok "(!Gadget<string>|{part: string}|!work.Clerk)" ∧
      ((annotate workshop aliasing ⟨0⟩).outcome {}).mapError GraphFault.bare =
        ((annotate movedWorkshop aliasing ⟨0⟩).outcome {}).mapError GraphFault.bare ∧
      (annotate movedWorkshop aliasing ⟨2⟩).outcome {} = .ok (.named "Gadget") :=
  ⟨by rfl, (annotate_aliased workshop_alike ⟨0⟩ {} {} rfl).1,
    ((annotate_aliased workshop_alike ⟨2⟩ {} {} rfl).2.2 _ ⟨0⟩ "Gadget" rfl (by decide)
      (.inr (by decide)) rfl rfl (by decide)).2⟩

end ClosureTypes
