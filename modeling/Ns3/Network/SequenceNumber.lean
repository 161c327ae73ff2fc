import Ns3.Library.Word

/-!
`ns3::SequenceNumber32`: sequence numbers that wrap.

Code that only compares, advances and subtracts sequence numbers is written for any
`SequenceSpace`. The positions of a stream, which do not wrap, are one too, and
`Faithful` says that on the positions in use the sequence numbers behave like them.
-/

namespace Ns3.Network

open Library

/-- The operators of `ns3::SequenceNumber` that the model uses: `>`, the advance by a
number of bytes, and the difference of two sequence numbers as a `uint32_t`. -/
class SequenceSpace (Seq : Type) where
  gt : Seq → Seq → Bool
  add : Seq → Nat → Seq
  sub : Seq → Seq → Nat

namespace SequenceSpace

variable {Seq : Type} [SequenceSpace Seq] [DecidableEq Seq]

/-- `operator <=`. -/
def le (a b : Seq) : Bool := ! gt a b

/-- `operator >=`. -/
def ge (a b : Seq) : Bool := gt a b || decide (a = b)

/-- `operator <`. -/
def lt (a b : Seq) : Bool := ! gt a b && decide (a ≠ b)

end SequenceSpace

/-- `ns3::SequenceNumber32`. -/
structure SequenceNumber32 where
  value : Nat
  fits : value < 2 ^ 32
  deriving DecidableEq, Repr

namespace SequenceNumber32

/-- The constructor from a number. -/
def ofNat (n : Nat) : SequenceNumber32 := ⟨wrap 32 n, wrap_lt 32 n⟩

/-- `operator >`. -/
def gt (a b : SequenceNumber32) : Bool :=
  decide ((a.value > b.value ∧ a.value - b.value ≤ 2147483647) ∨
    (b.value > a.value ∧ b.value - a.value > 2147483647))

/-- `operator +`. -/
def add (a : SequenceNumber32) (n : Nat) : SequenceNumber32 := ofNat (a.value + wrap 32 n)

/-- `operator -` of two sequence numbers, an `int32_t`. -/
def minus (a b : SequenceNumber32) : Int :=
  if a.value > b.value then
    if a.value - b.value < 2147483647 then ((a.value - b.value : Nat) : Int)
    else - signed 32 (wrap 32 (4294967295 - a.value + 1 + b.value))
  else
    if b.value - a.value < 2147483647 then - ((b.value - a.value : Nat) : Int)
    else signed 32 (wrap 32 (4294967295 - b.value + 1 + a.value))

instance : SequenceSpace SequenceNumber32 where
  gt := gt
  add := add
  sub a b := wrapInt 32 (a.minus b)

end SequenceNumber32

/-- Positions of a stream. -/
instance : SequenceSpace Nat where
  gt a b := decide (a > b)
  add a n := a + n
  sub a b := a - b

namespace SequenceSpace

@[simp]
theorem nat_gt (a b : Nat) : gt a b = decide (a > b) := rfl

@[simp]
theorem nat_le (a b : Nat) : le a b = decide (a ≤ b) := by
  simp [le, ← decide_not]

@[simp]
theorem nat_ge (a b : Nat) : ge a b = decide (b ≤ a) := by
  simp only [ge, nat_gt, ← Bool.decide_or]
  exact decide_eq_decide.mpr (by omega)

@[simp]
theorem nat_lt (a b : Nat) : lt a b = decide (a < b) := by
  simp only [lt, nat_gt, ← decide_not, ← Bool.decide_and]
  exact decide_eq_decide.mpr (by omega)

@[simp]
theorem nat_add (a n : Nat) : add a n = a + n := rfl

@[simp]
theorem nat_sub (a b : Nat) : sub a b = a - b := rfl

/-- The sequence numbers of the positions in use compare as the positions do. -/
structure Faithful {Seq : Type} [SequenceSpace Seq] (seq : Nat → Seq) (InUse : Nat → Prop) :
    Prop where
  gt : ∀ x y, InUse x → InUse y → gt (seq x) (seq y) = decide (x > y)
  injective : ∀ x y, InUse x → InUse y → seq x = seq y → x = y
  add : ∀ x n, SequenceSpace.add (seq x) n = seq (x + n)
  sub : ∀ x y, InUse x → InUse y → y ≤ x → sub (seq x) (seq y) = x - y

namespace Faithful

variable {Seq : Type} [SequenceSpace Seq] {seq : Nat → Seq} {InUse : Nat → Prop} {x y : Nat}

theorem eq_iff (faithful : Faithful seq InUse) (xInUse : InUse x) (yInUse : InUse y) :
    seq x = seq y ↔ x = y :=
  ⟨faithful.injective x y xInUse yInUse, fun same => congrArg seq same⟩

theorem le (faithful : Faithful seq InUse) (xInUse : InUse x) (yInUse : InUse y) :
    le (seq x) (seq y) = decide (x ≤ y) := by
  rw [SequenceSpace.le, faithful.gt x y xInUse yInUse, ← nat_le]
  rfl

variable [DecidableEq Seq]

theorem ge (faithful : Faithful seq InUse) (xInUse : InUse x) (yInUse : InUse y) :
    ge (seq x) (seq y) = decide (y ≤ x) := by
  rw [SequenceSpace.ge, faithful.gt x y xInUse yInUse, ← nat_ge]
  simp only [faithful.eq_iff xInUse yInUse]
  rfl

theorem lt (faithful : Faithful seq InUse) (xInUse : InUse x) (yInUse : InUse y) :
    lt (seq x) (seq y) = decide (x < y) := by
  simp only [SequenceSpace.lt, faithful.gt x y xInUse yInUse, ne_eq,
    faithful.eq_iff xInUse yInUse, ← decide_not, ← Bool.decide_and]
  exact decide_eq_decide.mpr (by omega)

end Faithful

end SequenceSpace

namespace SequenceNumber32

/-- The sequence number of a position, counted from an initial sequence number. -/
def ofPosition (initial position : Nat) : SequenceNumber32 := ofNat (initial + position)

section

variable {a b c : SequenceNumber32} {m n : Nat}

theorem value_add (a : SequenceNumber32) (n : Nat) :
    (SequenceSpace.add a n).value = (a.value + n) % 2 ^ 32 := by
  change (a.value + n % 2 ^ 32) % 2 ^ 32 = _
  omega

theorem ext_value (same : a.value = b.value) : a = b := by
  cases a
  cases b
  cases same
  rfl

theorem add_add (a : SequenceNumber32) (m n : Nat) :
    SequenceSpace.add (SequenceSpace.add a m) n = SequenceSpace.add a (m + n) := by
  apply ext_value
  rw [value_add, value_add, value_add]
  omega

theorem add_zero (a : SequenceNumber32) : SequenceSpace.add a 0 = a := by
  have fits := a.fits
  apply ext_value
  rw [value_add]
  omega

theorem signed_wrap_emod (n : Nat) : signed 32 (wrap 32 n) % 2 ^ 32 = n % 2 ^ 32 := by
  rw [signed, wrap, Int.natCast_emod]
  exact Int.bmod_emod.trans (Int.emod_emod_of_dvd _ (dvd_refl _))

/-- The four branches of `operator -` are the same difference modulo `2 ^ 32`. -/
theorem minus_emod (a b : SequenceNumber32) :
    minus a b % 2 ^ 32 = ((a.value : Int) - b.value) % 2 ^ 32 := by
  have aFits := a.fits
  have bFits := b.fits
  unfold minus
  split
  next above =>
    have down := signed_wrap_emod (4294967295 - a.value + 1 + b.value)
    split <;> omega
  next below =>
    have up := signed_wrap_emod (4294967295 - b.value + 1 + a.value)
    split <;> omega

/-- The difference is the distance modulo the size of the sequence number space. -/
theorem sub_eq (a b : SequenceNumber32) :
    SequenceSpace.sub a b = (a.value + (2 ^ 32 - b.value)) % 2 ^ 32 := by
  have fits := b.fits
  have nonneg : ((a.value + (2 ^ 32 - b.value) : Nat) : Int) = a.value - b.value + 2 ^ 32 := by
    omega
  change wrapInt 32 (minus a b) = _
  rw [wrapInt, minus_emod, ← Int.add_emod_right, ← nonneg]
  exact congrArg Int.toNat (Int.natCast_emod _ _).symm

theorem sub_lt (a b : SequenceNumber32) : SequenceSpace.sub a b < 2 ^ 32 := by
  rw [sub_eq]
  exact Nat.mod_lt _ (by decide)

theorem add_sub (a b : SequenceNumber32) :
    SequenceSpace.add b (SequenceSpace.sub a b) = a := by
  have aFits := a.fits
  have bFits := b.fits
  apply ext_value
  rw [value_add, sub_eq]
  omega

theorem sub_add (a : SequenceNumber32) (small : n < 2 ^ 32) :
    SequenceSpace.sub (SequenceSpace.add a n) a = n := by
  have fits := a.fits
  rw [sub_eq, value_add]
  omega

/-- Numbers of bytes that do not fill the sequence number space are told apart. -/
theorem add_injective (a : SequenceNumber32) (mSmall : m < 2 ^ 32) (nSmall : n < 2 ^ 32)
    (same : SequenceSpace.add a m = SequenceSpace.add a n) : m = n := by
  rw [← sub_add a mSmall, same, sub_add a nSmall]

theorem gt_iff : SequenceSpace.gt a b = true ↔
    a.value > b.value ∧ a.value - b.value ≤ 2147483647 ∨
      b.value > a.value ∧ b.value - a.value > 2147483647 := decide_eq_true_iff

theorem lt_iff : SequenceSpace.lt a b = true ↔ SequenceSpace.gt b a = true := by
  have aFits := a.fits
  have bFits := b.fits
  have distinct : a ≠ b ↔ a.value ≠ b.value :=
    ⟨fun different same => different (ext_value same), fun different same => different (same ▸ rfl)⟩
  unfold SequenceSpace.lt
  rw [Bool.and_eq_true, decide_eq_true_iff, Bool.not_eq_true', ← Bool.not_eq_true, gt_iff, gt_iff,
    distinct]
  omega

/-- A sequence number strictly within a range of bytes. -/
theorem sub_lt_of_within (small : n < 2 ^ 32) (after : SequenceSpace.gt b a = true)
    (before : SequenceSpace.lt b (SequenceSpace.add a n) = true) :
    0 < SequenceSpace.sub b a ∧ SequenceSpace.sub b a < n := by
  have aFits := a.fits
  have bFits := b.fits
  rw [lt_iff, gt_iff, value_add] at before
  rw [gt_iff] at after
  rw [sub_eq]
  rcases after with ⟨above, near⟩ | ⟨below, far⟩
  · have distance : b.value + (2 ^ 32 - a.value) = b.value - a.value + 2 ^ 32 := by omega
    rw [distance, Nat.add_mod_right, Nat.mod_eq_of_lt (by omega)]
    rcases before with ⟨inside, _⟩ | ⟨inside, _⟩ <;> omega
  · rw [Nat.mod_eq_of_lt (by omega)]
    rcases before with ⟨inside, _⟩ | ⟨inside, _⟩ <;> omega

/-- A range that does not end within another one with the same start is longer. -/
theorem lt_of_not_le (mSmall : m < 2 ^ 32) (nPositive : 0 < n) (nSmall : n < 2 ^ 32)
    (before : SequenceSpace.lt a (SequenceSpace.add a m) = true)
    (beyond : ¬ SequenceSpace.le (SequenceSpace.add a n) (SequenceSpace.add a m) = true) :
    m < n := by
  have aFits := a.fits
  unfold SequenceSpace.le at beyond
  rw [Bool.not_eq_true', Bool.not_eq_false, gt_iff, value_add, value_add] at beyond
  rw [lt_iff, gt_iff, value_add] at before
  omega

end

theorem ofPosition_add (initial x n : Nat) :
    SequenceSpace.add (ofPosition initial x) n = ofPosition initial (x + n) := by
  apply ext_value
  rw [value_add]
  unfold ofPosition ofNat wrap
  rw [Nat.mod_add_mod, Nat.add_assoc]

theorem ofPosition_injective {initial lowest x y : Nat}
    (xInUse : lowest ≤ x ∧ x < lowest + 2 ^ 31) (yInUse : lowest ≤ y ∧ y < lowest + 2 ^ 31)
    (same : ofPosition initial x = ofPosition initial y) : x = y := by
  have sameValue : (initial + x) % 2 ^ 32 = (initial + y) % 2 ^ 32 := congrArg value same
  omega

theorem gt_ofPosition {initial lowest x y : Nat}
    (xInUse : lowest ≤ x ∧ x < lowest + 2 ^ 31) (yInUse : lowest ≤ y ∧ y < lowest + 2 ^ 31) :
    gt (ofPosition initial x) (ofPosition initial y) = decide (x > y) := by
  apply decide_eq_decide.mpr
  unfold ofPosition ofNat wrap
  dsimp only
  omega

/-- Positions are faithful within a window of half the sequence number space. -/
theorem faithful_ofPosition (initial lowest : Nat) :
    SequenceSpace.Faithful (ofPosition initial)
      fun position => lowest ≤ position ∧ position < lowest + 2 ^ 31 where
  gt x y xInUse yInUse := gt_ofPosition xInUse yInUse
  injective x y xInUse yInUse same := ofPosition_injective xInUse yInUse same
  add x n := (ofPosition_add initial x n)
  sub x y xInUse yInUse ordered := by
    obtain ⟨n, rfl⟩ := Nat.exists_eq_add_of_le ordered
    have small : n < 2 ^ 32 := by omega
    rw [← ofPosition_add, sub_add _ small]
    exact (Nat.add_sub_cancel_left y n).symm

end SequenceNumber32

end Ns3.Network
