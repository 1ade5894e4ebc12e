import ClosureTypes.Handle

/-!
# Visited types

The type literals that have been expanded, each once, the latest first.
-/

namespace ClosureTypes

/-- Types without repetition, the latest first. -/
structure Visited where
  toList : List TypeId := []
  nodup : toList.Nodup := by simp

namespace Visited

/-- No type has been visited. -/
def empty : Visited := {}

instance : Inhabited Visited := ⟨empty⟩

instance : Membership TypeId Visited := ⟨fun v t => t ∈ v.toList⟩

theorem mem_def {t : TypeId} {v : Visited} : t ∈ v ↔ t ∈ v.toList := Iff.rfl

instance (t : TypeId) (v : Visited) : Decidable (t ∈ v) :=
  inferInstanceAs (Decidable (t ∈ v.toList))

/-- How many types have been visited. -/
def size (v : Visited) : Nat := v.toList.length

/-- Adds a type that has not been visited. -/
def add (v : Visited) (t : TypeId) (h : t ∉ v) : Visited where
  toList := t :: v.toList
  nodup := List.nodup_cons.2 ⟨h, v.nodup⟩

@[simp] theorem toList_add (v : Visited) (t : TypeId) (h : t ∉ v) :
    (v.add t h).toList = t :: v.toList := rfl

@[simp] theorem mem_add {v : Visited} {t u : TypeId} {h : t ∉ v} :
    u ∈ v.add t h ↔ u = t ∨ u ∈ v := by
  simp [mem_def]

@[simp] theorem not_mem_empty (t : TypeId) : t ∉ empty := by simp [mem_def, empty]

end Visited

end ClosureTypes
