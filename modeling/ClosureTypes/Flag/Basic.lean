/-!
# Flag words

A vocabulary of flags gives each of its flags a bit position below 32 and a name. A flag word is a
32-bit word read over a vocabulary. Bits at positions without a flag are kept, though no flag names
them.

`FlagSet.mem_members`: the members of a word are the flags whose bit is set.
-/

namespace ClosureTypes

/-- A vocabulary of flags, listed by rising bit position. -/
class Flag (φ : Type) where
  position : φ → Nat
  name : φ → String
  all : List φ
  position_lt : ∀ f, position f < 32
  mem_all : ∀ f, f ∈ all
  sorted : all.Pairwise (position · < position ·)

/-- A 32-bit word read over the vocabulary `φ`. -/
structure FlagSet (φ : Type) where
  bits : UInt32
  deriving DecidableEq

/-- The word with only the bit of `f` set. -/
def Flag.bit {φ : Type} [Flag φ] (f : φ) : UInt32 := 1 <<< UInt32.ofNat (Flag.position f)

namespace FlagSet

variable {φ : Type}

/-- The word without a set bit. -/
def empty : FlagSet φ := ⟨0⟩

instance : Inhabited (FlagSet φ) := ⟨empty⟩

/-- The words have a set bit in common. -/
def meets (s t : FlagSet φ) : Bool := s.bits &&& t.bits != 0

variable [Flag φ]

/-- The word with exactly the bits of the listed flags set. -/
def ofList (fs : List φ) : FlagSet φ := ⟨fs.foldr (fun f w => Flag.bit f ||| w) 0⟩

/-- The bit of `f` is set. -/
def has (s : FlagSet φ) (f : φ) : Bool := s.bits &&& Flag.bit f != 0

/-- The flags whose bit is set, by rising position. -/
def members (s : FlagSet φ) : List φ := (Flag.all (φ := φ)).filter s.has

/-- The names of the flags whose bit is set, by rising position. -/
def names (s : FlagSet φ) : List String := s.members.map Flag.name

@[simp] theorem ofList_nil : (ofList [] : FlagSet φ) = empty := rfl

theorem mem_members (s : FlagSet φ) (f : φ) : f ∈ s.members ↔ s.has f = true := by
  simp [members, Flag.mem_all]

end FlagSet

end ClosureTypes
