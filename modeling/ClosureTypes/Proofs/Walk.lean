import ClosureTypes.Walk
import Mathlib.Data.List.Forall2

/-!
# Rules for walks

`outcome` and `after` are the two sides of a walk: what it ends in, and what it has done by then.

A relation between two walks that passes from the parts of a walk to the whole is a `Congruence`.
What can be said of the parts often hangs on what is known of earlier results, so proofs go by
`Rules`, for relations that also carry a property of the results; every congruence gives such a
relation.

1. `Walk.outcome_bind`, `Walk.after_bind`: a walk in two parts, by its parts.
2. `Walk.Congruence.rules`: a congruence along with what is known of the results.
3. `Walk.Rules.mapM`: from the walks of a list's items to the walk along the list.
-/

/-- What is in the second of two related lists is related to something in the first. -/
theorem List.Forall₂.exists_of_mem_right {α β : Type} {R : α → β → Prop} {l : List α} {l' : List β}
    (h : List.Forall₂ R l l') {b : β} (hb : b ∈ l') : ∃ a ∈ l, R a b := by
  induction h with
  | nil => cases hb
  | cons hab _ ih =>
    rcases List.mem_cons.1 hb with rfl | hb
    · exact ⟨_, List.mem_cons_self, hab⟩
    · obtain ⟨a, ha, hR⟩ := ih hb
      exact ⟨a, List.mem_cons_of_mem _ ha, hR⟩

namespace ClosureTypes.Walk

variable {α β : Type}

/-! ## The end of a walk -/

/-- What a walk ends in. -/
def outcome (x : Walk α) (p : Progress) : Except GraphFault α :=
  match x.run p with
  | .ok a _ => .ok a
  | .error e _ => .error e

/-- What has been done by the end of a walk, whether or not it ends in a fault. -/
def after (x : Walk α) (p : Progress) : Progress :=
  match x.run p with
  | .ok _ q => q
  | .error _ q => q

@[simp] theorem outcome_pure (a : α) (p : Progress) : (pure a : Walk α).outcome p = .ok a := rfl

@[simp] theorem after_pure (a : α) (p : Progress) : (pure a : Walk α).after p = p := rfl

@[simp] theorem outcome_throw (e : GraphFault) (p : Progress) :
    (throw e : Walk α).outcome p = .error e := rfl

@[simp] theorem after_throw (e : GraphFault) (p : Progress) : (throw e : Walk α).after p = p := rfl

@[simp] theorem outcome_warn (message : String) (p : Progress) :
    (warn message).outcome p = .ok () := rfl

@[simp] theorem after_warn (message : String) (p : Progress) :
    (warn message).after p = { p with log := p.log.report message } := rfl

theorem outcome_bind (x : Walk α) (f : α → Walk β) (p : Progress) :
    (x >>= f).outcome p = (x.outcome p).bind fun a => (f a).outcome (x.after p) := by
  simp only [outcome, after, EStateM.run_bind]
  cases x.run p <;> rfl

theorem after_bind (x : Walk α) (f : α → Walk β) (p : Progress) :
    (x >>= f).after p =
      match x.outcome p with
      | .ok a => (f a).after (x.after p)
      | .error _ => x.after p := by
  simp only [outcome, after, EStateM.run_bind]
  cases x.run p <;> rfl

theorem outcome_bind_of_ok {x : Walk α} {p : Progress} {a : α} (h : x.outcome p = .ok a)
    (f : α → Walk β) : (x >>= f).outcome p = (f a).outcome (x.after p) := by
  rw [outcome_bind, h]
  rfl

theorem after_bind_of_ok {x : Walk α} {p : Progress} {a : α} (h : x.outcome p = .ok a)
    (f : α → Walk β) : (x >>= f).after p = (f a).after (x.after p) := by
  rw [after_bind, h]

theorem outcome_bind_of_error {x : Walk α} {p : Progress} {e : GraphFault}
    (h : x.outcome p = .error e) (f : α → Walk β) : (x >>= f).outcome p = .error e := by
  rw [outcome_bind, h]
  rfl

theorem after_bind_of_error {x : Walk α} {p : Progress} {e : GraphFault}
    (h : x.outcome p = .error e) (f : α → Walk β) : (x >>= f).after p = x.after p := by
  rw [after_bind, h]

theorem outcome_bind_eq_ok {x : Walk α} {f : α → Walk β} {p : Progress} {b : β} :
    (x >>= f).outcome p = .ok b ↔
      ∃ a, x.outcome p = .ok a ∧ (f a).outcome (x.after p) = .ok b := by
  rw [outcome_bind]
  cases x.outcome p <;> simp [Except.bind]

@[simp] theorem outcome_map (h : α → β) (x : Walk α) (p : Progress) :
    (h <$> x).outcome p = (x.outcome p).map h := by
  rw [← bind_pure_comp, outcome_bind]
  cases x.outcome p <;> rfl

@[simp] theorem after_map (h : α → β) (x : Walk α) (p : Progress) :
    (h <$> x).after p = x.after p := by
  rw [← bind_pure_comp, after_bind]
  cases x.outcome p <;> rfl

theorem outcome_map_eq_ok {h : α → β} {x : Walk α} {p : Progress} {b : β} :
    (h <$> x).outcome p = .ok b ↔ ∃ a, x.outcome p = .ok a ∧ h a = b := by
  rw [outcome_map]
  cases x.outcome p <;> simp [Except.map]

@[simp] theorem outcome_enter (t : TypeId) (p : Progress) :
    (enter t).outcome p = .ok (decide (t ∉ p.visited)) := by
  by_cases h : t ∈ p.visited
  · simp [outcome, enter, h]
  · simp only [outcome, enter, EStateM.run_bind, EStateM.run_get, dif_neg h]
    simp [h]

theorem after_enter_of_mem {t : TypeId} {p : Progress} (h : t ∈ p.visited) :
    (enter t).after p = p := by
  simp [after, enter, h]

theorem after_enter_of_not_mem {t : TypeId} {p : Progress} (h : t ∉ p.visited) :
    (enter t).after p = { p with visited := p.visited.add t h } := by
  simp only [after, enter, EStateM.run_bind, EStateM.run_get, dif_neg h]
  rfl

/-- The walk can have the result `a`. -/
def Returns (x : Walk α) (a : α) : Prop := ∃ p, x.outcome p = .ok a

/-! ## Congruences and rules -/

/-- A relation between walks that passes from the parts to the whole, for walks that stop only at
the faults `fault` and expand only the literals `entry`. -/
structure Congruence (fault : GraphFault → Prop) (entry : TypeId → Prop)
    (P : {α : Type} → Walk α → Walk α → Prop) : Prop where
  pure {α : Type} (a : α) : P (pure a) (pure a)
  bind {α β : Type} {x y : Walk α} {f f' : α → Walk β} :
    P x y → (∀ a, x.Returns a → P (f a) (f' a)) → P (x >>= f) (y >>= f')
  throw {α : Type} {e : GraphFault} : fault e → P (throw e : Walk α) (throw e)
  warn (message : String) : P (warn message) (warn message)
  enter {t : TypeId} : entry t → P (enter t) (enter t)

/-- The rules for a relation that carries a property of the results: `R Q x y` relates `x` and `y`,
and the results of `x` have the property `Q`. -/
structure Rules (fault : GraphFault → Prop) (entry : TypeId → Prop)
    (R : {α : Type} → (α → Prop) → Walk α → Walk α → Prop) : Prop where
  pure {α : Type} {Q : α → Prop} {a : α} : Q a → R Q (pure a) (pure a)
  bind {α β : Type} {Q : α → Prop} {Q' : β → Prop} {x y : Walk α} {f f' : α → Walk β} :
    R Q x y → (∀ a, Q a → R Q' (f a) (f' a)) → R Q' (x >>= f) (y >>= f')
  throw {α : Type} {Q : α → Prop} {e : GraphFault} : fault e → R Q (throw e) (throw e)
  warn (message : String) : R (fun _ => True) (warn message) (warn message)
  enter {t : TypeId} : entry t → R (fun _ => True) (enter t) (enter t)

theorem forall_returns_bind {Q : α → Prop} {Q' : β → Prop} {x : Walk α} {f : α → Walk β}
    (hx : ∀ a, x.Returns a → Q a) (hf : ∀ a, Q a → ∀ b, (f a).Returns b → Q' b) :
    ∀ b, (x >>= f).Returns b → Q' b := by
  rintro b ⟨p, hb⟩
  obtain ⟨a, ha, hb⟩ := outcome_bind_eq_ok.1 hb
  exact hf a (hx a ⟨p, ha⟩) b ⟨_, hb⟩

/-- The rules for what is known of the results, whatever the faults and the expanded literals. -/
theorem returns_rules (fault : GraphFault → Prop) (entry : TypeId → Prop) :
    Rules fault entry fun Q x _ => ∀ a, x.Returns a → Q a where
  pure ha := by
    rintro _ ⟨_, ⟨⟩⟩
    exact ha
  bind hx hf := forall_returns_bind hx hf
  throw _ := by rintro _ ⟨_, ⟨⟩⟩
  warn _ _ _ := trivial
  enter _ _ _ := trivial

theorem Congruence.rules {fault : GraphFault → Prop} {entry : TypeId → Prop}
    {P : {α : Type} → Walk α → Walk α → Prop} (hP : Congruence fault entry P) :
    Rules fault entry fun Q x y => (∀ a, x.Returns a → Q a) ∧ P x y where
  pure ha := ⟨(returns_rules fault entry).pure ha, hP.pure _⟩
  bind hx hf := ⟨forall_returns_bind hx.1 fun a ha => (hf a ha).1,
    hP.bind hx.2 fun a ha => (hf a (hx.1 a ha)).2⟩
  throw he := ⟨(returns_rules fault entry).throw he, hP.throw he⟩
  warn message := ⟨fun _ _ => trivial, hP.warn message⟩
  enter ht := ⟨fun _ _ => trivial, hP.enter ht⟩

namespace Rules

variable {fault : GraphFault → Prop} {entry : TypeId → Prop}
  {R : {α : Type} → (α → Prop) → Walk α → Walk α → Prop}

theorem ite {c : Prop} [Decidable c] {Q : α → Prop} {x x' y y' : Walk α}
    (h : c → R Q x y) (h' : ¬ c → R Q x' y') :
    R Q (if c then x else x') (if c then y else y') := by
  by_cases hc : c
  · rw [if_pos hc, if_pos hc]
    exact h hc
  · rw [if_neg hc, if_neg hc]
    exact h' hc

variable (hR : Rules fault entry R)

include hR

theorem mono {Q Q' : α → Prop} {x y : Walk α} (h : R Q x y) (hQ : ∀ a, Q a → Q' a) :
    R Q' x y := by
  have := hR.bind h fun a ha => hR.pure (hQ a ha)
  rwa [bind_pure, bind_pure] at this

theorem degrade {Q : TypeExpr → Prop} (message : String) (h : Q (.unknown .degraded)) :
    R Q (degrade message) (degrade message) :=
  hR.bind (hR.warn message) fun _ _ => hR.pure h

theorem typeRecord {g : TypeGraph} {t : TypeId} (h : g.type? t = none → fault (.unknownType t)) :
    R (fun r => g.type? t = some r) (typeRecord g t) (typeRecord g t) := by
  unfold Walk.typeRecord
  cases hr : g.type? t with
  | none => exact hR.throw (h hr)
  | some r => exact hR.pure rfl

theorem symbol {g : TypeGraph} {s : SymbolId} (h : g.symbol? s = none → fault (.unknownSymbol s)) :
    R (fun sym => g.symbol? s = some sym) (symbol g s) (symbol g s) := by
  unfold Walk.symbol
  cases hs : g.symbol? s with
  | none => exact hR.throw (h hs)
  | some sym => exact hR.pure rfl

/-- **Lists.** The results of a walk along a list have, item by item, the properties of the results
of the items' walks. -/
theorem mapM {ι : Type} {l : List ι} {f f' : ι → Walk α} {Q : ι → α → Prop}
    (h : ∀ i ∈ l, R (Q i) (f i) (f' i)) : R (List.Forall₂ Q l) (l.mapM f) (l.mapM f') := by
  induction l with
  | nil =>
    rw [List.mapM_nil, List.mapM_nil]
    exact hR.pure .nil
  | cons i rest ih =>
    rw [List.mapM_cons, List.mapM_cons]
    have hrest := ih fun j hj => h j (List.mem_cons_of_mem i hj)
    exact hR.bind (h i List.mem_cons_self) fun a ha => hR.bind hrest fun as has =>
      hR.pure (.cons ha has)

/-- The results of a walk along a list all have the property that the items' walks ensure. -/
theorem mapM_all {ι : Type} {l : List ι} {f f' : ι → Walk α} {Q : α → Prop}
    (h : ∀ i ∈ l, R Q (f i) (f' i)) : R (fun as => ∀ a ∈ as, Q a) (l.mapM f) (l.mapM f') :=
  hR.mono (hR.mapM h) fun _ has a ha => by
    obtain ⟨_, _, hQ⟩ := has.exists_of_mem_right ha
    exact hQ

end Rules

/-- The results of a walk along a list are, item by item, as the items' walks ensure. -/
theorem forall_returns_mapM {ι : Type} {l : List ι} {f : ι → Walk α} {Q : ι → α → Prop}
    (h : ∀ i ∈ l, ∀ a, (f i).Returns a → Q i a) :
    ∀ as, (l.mapM f).Returns as → List.Forall₂ Q l as :=
  @Rules.mapM α _ _ _ (returns_rules (fun _ => True) fun _ => True) ι l f f Q h

end ClosureTypes.Walk
