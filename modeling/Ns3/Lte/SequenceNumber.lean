import Ns3.Library.Word

/-!
`ns3::SequenceNumber10`: the sequence numbers of the LTE RLC entities.

A number has 10 bits, and it is compared by its distance from a modulus base that can be moved.
`at'` is the number of a position in a stream that does not wrap. Numbers whose positions are
less than 1024 ahead of the base compare as their positions do. The assertion that compared
numbers have the same base is not modelled; the comparisons of positions all have one.
-/

namespace Ns3.Lte

open Library

/-- `ns3::SequenceNumber10`. -/
structure SequenceNumber10 where
  value : Nat
  modulusBase : Nat
  deriving DecidableEq, Repr

namespace SequenceNumber10

/-- The constructor from a `uint16_t`. -/
def ofNat (value : Nat) : SequenceNumber10 := ⟨value % 1024, 0⟩

/-- `operator= (uint16_t)`. -/
def assign (number : SequenceNumber10) (value : Nat) : SequenceNumber10 :=
  { number with value := value % 1024 }

/-- `SetModulusBase`. -/
def setModulusBase (number modulusBase : SequenceNumber10) : SequenceNumber10 :=
  { number with modulusBase := modulusBase.value }

/-- What `operator++` makes of the number. -/
def increment (number : SequenceNumber10) : SequenceNumber10 :=
  { number with value := (number.value + 1) % 1024 }

/-- `operator+`. -/
def add (number : SequenceNumber10) (delta : Nat) : SequenceNumber10 :=
  { number with value := (number.value + delta) % 1024 }

/-- `operator- (uint16_t)`; the remainder of C++ has the sign of the dividend. -/
def sub (number : SequenceNumber10) (delta : Nat) : SequenceNumber10 :=
  { number with value := wrapInt 16 (Int.tmod ((number.value : Int) - delta) 1024) % 1024 }

/-- The `uint16_t` that is compared. -/
def distance (number : SequenceNumber10) : Nat :=
  wrapInt 16 (Int.tmod ((number.value : Int) - number.modulusBase) 1024)

/-- `operator>`. -/
def gt (number other : SequenceNumber10) : Bool := decide (other.distance < number.distance)

/-- `operator<=`. -/
def le (number other : SequenceNumber10) : Bool := !number.gt other

/-- `operator<`. -/
def lt (number other : SequenceNumber10) : Bool :=
  !number.gt other && number.value != other.value

/-- The number of a position, with the base at another one. -/
def at' (position base : Nat) : SequenceNumber10 := ⟨position % 1024, base % 1024⟩

variable {position other base : Nat}

@[simp]
theorem value_at : (at' position base).value = position % 1024 := rfl

theorem increment_at : (at' position base).increment = at' (position + 1) base := by
  simp [at', increment]

theorem add_at (delta : Nat) : (at' position base).add delta = at' (position + delta) base := by
  simp [at', add]

theorem tmod_small {n : Int} (above : -1024 < n) (below : n < 1024) : Int.tmod n 1024 = n := by
  rcases Int.le_total 0 n with nonneg | negative
  · exact Int.tmod_eq_of_lt nonneg below
  · have positive : Int.tmod (-n) 1024 = -n := Int.tmod_eq_of_lt (by omega) (by omega)
    rw [Int.neg_tmod] at positive
    omega

theorem sub_at {delta : Nat} (ahead : delta ≤ position) (small : delta < 1024) :
    (at' position base).sub delta = at' (position - delta) base := by
  simp only [at', sub, wrapInt, mk.injEq, and_true]
  rw [tmod_small (by omega) (by omega)]
  omega

/-- A number is that of any position with its value. -/
theorem eq_at (number : SequenceNumber10) (value : number.value = position % 1024)
    (modulusBase : number.modulusBase = base % 1024) : number = at' position base := by
  cases number
  simp_all [at']

@[simp]
theorem setModulusBase_at (number : SequenceNumber10) :
    number.setModulusBase (at' position base) = ⟨number.value, position % 1024⟩ := rfl

theorem distance_at (behind : base ≤ position) (ahead : position < base + 1024) :
    (at' position base).distance =
      if base % 1024 ≤ position % 1024 then position - base else 64512 + (position - base) := by
  simp only [at', distance, wrapInt]
  rw [tmod_small (by omega) (by omega)]
  split <;> omega

section Compare

variable (behind : base ≤ position) (ahead : position < base + 1024)
  (otherBehind : base ≤ other) (otherAhead : other < base + 1024)
include behind ahead otherBehind otherAhead

theorem gt_at : (at' position base).gt (at' other base) = decide (other < position) := by
  rw [gt, distance_at behind ahead, distance_at otherBehind otherAhead, decide_eq_decide]
  split <;> split <;> omega

theorem le_at : (at' position base).le (at' other base) = decide (position ≤ other) := by
  rw [le, gt_at behind ahead otherBehind otherAhead, ← decide_not, decide_eq_decide]
  exact Nat.not_lt

/-- Numbers of different positions are different. -/
theorem value_inj : (at' position base).value = (at' other base).value ↔ position = other := by
  simp only [value_at]
  omega

theorem lt_at : (at' position base).lt (at' other base) = decide (position < other) := by
  rw [lt, gt_at behind ahead otherBehind otherAhead, ← decide_not, bne, Bool.eq_iff_iff]
  simp only [Bool.and_eq_true, decide_eq_true_eq, Bool.not_eq_true', beq_eq_false_iff_ne, ne_eq,
    value_inj behind ahead otherBehind otherAhead]
  omega

end Compare

end SequenceNumber10

end Ns3.Lte
