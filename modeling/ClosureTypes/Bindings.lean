/-!
# Bindings

A table in which the latest binding of a key counts. Earlier bindings of the key stay behind it and
are never seen again.

1. `Bindings.find?_bind`: what is found after one more binding.
2. `Bindings.find?_bindAll`: of many bindings, the last one for a key counts.
-/

namespace ClosureTypes

/-! ## The last pair for a key -/

section

variable {κ α : Type} [DecidableEq κ]

/-- The value in the last of the pairs that have this key. -/
def lastFor (key : κ) (pairs : List (κ × α)) : Option α := pairs.reverse.lookup key

theorem lastFor_cons (key : κ) (e : κ × α) (l : List (κ × α)) :
    lastFor key (e :: l) = (lastFor key l).or (if key = e.1 then some e.2 else none) := by
  obtain ⟨k, value⟩ := e
  rw [lastFor, List.reverse_cons, List.lookup_append, ← lastFor]
  by_cases h : key = k
  · simp [h]
  · simp [h, List.lookup_cons, beq_eq_false_iff_ne.2 h]

/-- In a table where an insertion leaves other keys alone, the last insertion for a key counts. -/
theorem find?_foldl_insert {β : Type} {insert : β → κ → α → β} {find? : β → κ → Option α}
    (hinsert : ∀ b key value other,
      find? (insert b key value) other = if other = key then some value else find? b other)
    (l : List (κ × α)) (b : β) (key : κ) :
    find? (l.foldl (fun b e => insert b e.1 e.2) b) key = (lastFor key l).or (find? b key) := by
  induction l generalizing b with
  | nil => rfl
  | cons e l ih =>
    rw [List.foldl_cons, ih, hinsert, lastFor_cons, Option.or_assoc]
    split <;> rfl

end

/-! ## Tables of bindings -/

/-- Bindings of keys to values, the newest first. -/
structure Bindings (κ α : Type) where
  entries : List (κ × α) := []

namespace Bindings

variable {κ α : Type}

/-- No key is bound. -/
def empty : Bindings κ α := ⟨[]⟩

instance : Inhabited (Bindings κ α) := ⟨empty⟩

/-- Binds `key` to `value` from now on. -/
def bind (b : Bindings κ α) (key : κ) (value : α) : Bindings κ α := ⟨(key, value) :: b.entries⟩

/-- Binds each listed key in turn, so that the last pair of a key counts. -/
def bindAll (b : Bindings κ α) (pairs : List (κ × α)) : Bindings κ α :=
  pairs.foldl (fun b p => b.bind p.1 p.2) b

variable [DecidableEq κ]

/-- The value that `key` was bound to last. -/
def find? (b : Bindings κ α) (key : κ) : Option α := b.entries.lookup key

@[simp] theorem find?_empty (key : κ) : (empty : Bindings κ α).find? key = none := rfl

theorem find?_bind (b : Bindings κ α) (key other : κ) (value : α) :
    (b.bind key value).find? other = if other = key then some value else b.find? other := by
  by_cases h : other = key
  · simp [find?, bind, h]
  · have hb : (other == key) = false := beq_eq_false_iff_ne.2 h
    simp [find?, bind, List.lookup_cons, h, hb]

theorem find?_bindAll (b : Bindings κ α) (pairs : List (κ × α)) (key : κ) :
    (b.bindAll pairs).find? key = (lastFor key pairs).or (b.find? key) :=
  find?_foldl_insert (fun b key value other => b.find?_bind key other value) pairs b key

end Bindings

end ClosureTypes
