import Mathlib.Logic.Function.Iterate
import Ns3.Library.Word

/-!
`ns3::LollipopCounter`.

The upper half of the values is the initialising region, which is counted through once, and the
lower half is the circular region. Counters of one region compare by their distance on the circle,
as far as the sequence window reaches; a counter of the initialising region is behind the circular
region when it is within a window of its end.
-/

namespace Ns3.Network

open Library

/-- `LollipopCounter<T>` for a type `T` of so many digits. -/
structure LollipopCounter (digits : Nat) where
  value : Nat
  sequenceWindow : Nat
  fits : value < 2 ^ digits
  deriving DecidableEq

namespace LollipopCounter

variable {digits : Nat}

def maxValue (digits : Nat) : Nat := 2 ^ digits - 1

def circularRegion (digits : Nat) : Nat := maxValue digits >>> 1

/-- Set the sequence window and reset the counter, or stop the program. -/
def setSequenceWindowSize (numberOfBits : Nat) : Option (LollipopCounter digits) :=
  if numberOfBits ≥ digits then none else
    let sequenceWindow := wrap digits (1 <<< numberOfBits)
    some ⟨wrap digits (wrapSub digits (maxValue digits) sequenceWindow + 1), sequenceWindow,
      wrap_lt digits _⟩

/-- The smallest distance of two counters on a circle. -/
def absoluteMagnitudeOfDifference (self val : LollipopCounter digits) : Nat :=
  let larger := max self.value val.value
  let smaller := min self.value val.value
  let absDiffDirect := larger - smaller
  let absDiffWrapped := wrapSub digits (wrap digits (smaller + circularRegion digits + 1)) larger
  min absDiffDirect absDiffWrapped

/-- Both counters are in the circular region, or both are in the other one. -/
def sameRegion (self val : LollipopCounter digits) : Bool :=
  decide (self.value ≤ circularRegion digits ∧ val.value ≤ circularRegion digits ∨
    self.value > circularRegion digits ∧ val.value > circularRegion digits)

/-- `IsComparable`, or `none` where the program stops. -/
def isComparable (self val : LollipopCounter digits) : Option Bool :=
  if self.sequenceWindow ≠ val.sequenceWindow then none
  else if sameRegion self val then
    some (decide (absoluteMagnitudeOfDifference self val ≤ self.sequenceWindow))
  else some true

/-- `operator ==` -/
def eq (lhs rhs : LollipopCounter digits) : Option Bool :=
  if lhs.sequenceWindow ≠ rhs.sequenceWindow then none else some (decide (lhs.value = rhs.value))

/-- `operator >` -/
def gt (lhs rhs : LollipopCounter digits) : Option Bool :=
  if lhs.sequenceWindow ≠ rhs.sequenceWindow then none
  else if lhs.value = rhs.value then some false
  else if sameRegion lhs rhs then
    if absoluteMagnitudeOfDifference lhs rhs > lhs.sequenceWindow then some false
    else
      let serialRegion := (circularRegion digits >>> 1) + 1
      some (decide (lhs.value < rhs.value ∧ rhs.value - lhs.value > serialRegion ∨
        lhs.value > rhs.value ∧ lhs.value - rhs.value < serialRegion))
  else
    let (lhsIsHigher, difference) :=
      if lhs.value > circularRegion digits ∧ rhs.value ≤ circularRegion digits then
        (true, lhs.value - rhs.value)
      else (false, rhs.value - lhs.value)
    let distance := wrap digits (maxValue digits - difference + 1)
    if distance > lhs.sequenceWindow then some lhsIsHigher else some (! lhsIsHigher)

/-- `operator <` -/
def lt (lhs rhs : LollipopCounter digits) : Option Bool := do
  if ! (← isComparable lhs rhs) then return false
  if ← gt lhs rhs then return false
  else if ← eq lhs rhs then return false
  return true

/-- `operator ++` -/
def increment (val : LollipopCounter digits) : LollipopCounter digits :=
  let value := wrap digits (val.value + 1)
  if value = circularRegion digits + 1 then
    { val with value := 0, fits := Nat.two_pow_pos digits }
  else { val with value := value, fits := wrap_lt digits _ }

/-- Exactly one of `a < b`, `a == b` and `a > b` holds. -/
inductive Compares (a b : LollipopCounter digits) : Prop
  | less : lt a b = some true → eq a b = some false → gt a b = some false → Compares a b
  | equal : lt a b = some false → eq a b = some true → gt a b = some false → Compares a b
  | greater : lt a b = some false → eq a b = some false → gt a b = some true → Compares a b

/-- The counters with a window are ordered as they should be. -/
structure Ordered (digits window : Nat) : Prop where
  compares : ∀ a b : LollipopCounter digits, a.sequenceWindow = window →
    b.sequenceWindow = window → isComparable a b = some true → Compares a b
  converse : ∀ a b : LollipopCounter digits, a.sequenceWindow = window →
    b.sequenceWindow = window → isComparable a b = some true →
      (gt a b = some true ↔ lt b a = some true)
  advances : ∀ (a : LollipopCounter digits) (k : Nat), a.sequenceWindow = window →
    1 ≤ k → k ≤ window → gt (increment^[k] a) a = some true

example : gt (⟨240, 16, by decide⟩ : LollipopCounter 8) ⟨5, 16, by decide⟩ = some true := by decide

/-- Two values of one region are within a window of each other on the circle. -/
def Near (half window a b : Nat) : Prop :=
  a - b + (b - a) ≤ window ∨ 2 * half ≤ window + (a - b + (b - a))

/-- The order of the values, for half of the size of a region and a window. -/
def Ahead (half window a b : Nat) : Prop :=
  (a < 2 * half ↔ b < 2 * half) ∧ Near half window a b ∧
      (a < b ∧ b - a > half ∨ a > b ∧ a - b < half) ∨
    2 * half ≤ a ∧ b < 2 * half ∧ window < 4 * half - (a - b) ∨
    a < 2 * half ∧ 2 * half ≤ b ∧ 4 * half - (b - a) ≤ window

instance (half window a b : Nat) : Decidable (Near half window a b) :=
  inferInstanceAs (Decidable (_ ∨ _))

instance (half window a b : Nat) : Decidable (Ahead half window a b) :=
  inferInstanceAs (Decidable (_ ∧ Near half window a b ∧ _ ∨ _))

theorem ahead_of_higher {half window a b : Nat} (higher : 2 * half ≤ a) (lower : b < 2 * half) :
    Ahead half window a b ↔ window < 4 * half - (a - b) := by
  unfold Ahead Near
  omega

theorem ahead_of_lower {half window a b : Nat} (lower : a < 2 * half) (higher : 2 * half ≤ b) :
    Ahead half window a b ↔ 4 * half - (b - a) ≤ window := by
  unfold Ahead Near
  omega

/-- The values can be told apart: no two of them are opposite each other. -/
theorem ahead_iff {half window a b : Nat} (short : window < half) (distinct : a ≠ b)
    (comparable : (a < 2 * half ↔ b < 2 * half) → Near half window a b) :
    Ahead half window a b ↔ ¬ Ahead half window b a := by
  unfold Ahead Near at *
  omega

section

variable {half : Nat}

/-- A region has twice as many values as `half`. -/
def Halved (digits half : Nat) : Prop := 2 ^ digits = 4 * half

variable (halved : Halved digits half) (a b : LollipopCounter digits)

include halved

theorem circularRegion_eq : circularRegion digits = 2 * half - 1 := by
  unfold Halved at halved
  unfold circularRegion maxValue
  omega

theorem serialRegion_eq : (circularRegion digits >>> 1) + 1 = half := by
  have positive := Nat.two_pow_pos digits
  rw [circularRegion_eq halved]
  unfold Halved at halved
  omega

theorem sameRegion_eq :
    sameRegion a b = decide (a.value < 2 * half ↔ b.value < 2 * half) := by
  have positive := Nat.two_pow_pos digits
  rw [sameRegion, circularRegion_eq halved]
  unfold Halved at halved
  exact decide_eq_decide.mpr (by omega)

omit a b in
theorem absDiffWrapped_eq {smaller larger : Nat} (ordered : smaller ≤ larger)
    (close : larger < smaller + 2 * half) (fits : larger < 2 ^ digits) :
    wrapSub digits (wrap digits (smaller + circularRegion digits + 1)) larger =
      2 * half - (larger - smaller) := by
  have next : smaller + circularRegion digits + 1 = smaller + 2 * half := by
    rw [circularRegion_eq halved]
    omega
  have shift : wrapSub digits (wrap digits (smaller + 2 * half)) larger =
      wrapSub digits (smaller + 2 * half) larger := Nat.mod_add_mod _ _ _
  have size : 2 ^ digits = 4 * half := halved
  rw [next, shift, wrapSub_of_fits (by omega) fits (by omega)]
  omega

theorem near_iff (same : a.value < 2 * half ↔ b.value < 2 * half) (window : Nat) :
    absoluteMagnitudeOfDifference a b ≤ window ↔ Near half window a.value b.value := by
  have aFits := a.fits
  have bFits := b.fits
  have size : 2 ^ digits = 4 * half := halved
  unfold absoluteMagnitudeOfDifference Near
  dsimp only
  rcases Nat.le_total a.value b.value with ordered | ordered
  · rw [Nat.max_eq_right ordered, Nat.min_eq_left ordered,
      absDiffWrapped_eq halved ordered (by omega) bFits]
    omega
  · rw [Nat.max_eq_left ordered, Nat.min_eq_right ordered,
      absDiffWrapped_eq halved ordered (by omega) aFits]
    omega

variable {a b} {window : Nat} (aWindow : a.sequenceWindow = window)
  (bWindow : b.sequenceWindow = window)

include aWindow bWindow

theorem isComparable_eq : isComparable a b =
    some (decide ((a.value < 2 * half ↔ b.value < 2 * half) →
      Near half window a.value b.value)) := by
  rw [isComparable, if_neg (not_not.mpr (aWindow.trans bWindow.symm)), sameRegion_eq halved]
  by_cases same : a.value < 2 * half ↔ b.value < 2 * half
  · rw [if_pos (decide_eq_true same), aWindow]
    apply congrArg some
    apply decide_eq_decide.mpr
    rw [near_iff halved a b same]
    exact ⟨fun near _ => near, fun near => near same⟩
  · rw [if_neg (by simpa using same)]
    apply congrArg some
    exact (decide_eq_true fun other => absurd other same).symm

theorem gt_eq : gt a b = some (decide (Ahead half window a.value b.value)) := by
  have aFits := a.fits
  have bFits := b.fits
  have size : 2 ^ digits = 4 * half := halved
  rw [gt, if_neg (not_not.mpr (aWindow.trans bWindow.symm)), sameRegion_eq halved]
  by_cases equal : a.value = b.value
  · rw [if_pos equal]
    apply congrArg some
    refine (decide_eq_false ?_).symm
    unfold Ahead
    omega
  by_cases same : a.value < 2 * half ↔ b.value < 2 * half
  · rw [if_neg equal, if_pos (decide_eq_true same), aWindow, serialRegion_eq halved]
    have near := near_iff halved a b same window
    split
    next far =>
      apply congrArg some
      refine (decide_eq_false ?_).symm
      rintro (⟨_, isNear, _⟩ | ⟨_, _⟩ | ⟨_, _⟩)
      · exact absurd (near.mpr isNear) (Nat.not_le.mpr far)
      · omega
      · omega
    next close =>
      apply congrArg some
      apply decide_eq_decide.mpr
      constructor
      · exact fun ahead => .inl ⟨same, near.mp (Nat.not_lt.mp close), ahead⟩
      · rintro (⟨_, _, ahead⟩ | ⟨_, _⟩ | ⟨_, _⟩)
        · exact ahead
        · omega
        · omega
  · rw [if_neg equal, if_neg (by simpa using same), aWindow, circularRegion_eq halved, maxValue]
    by_cases higher : b.value < 2 * half
    · have ahead := @ahead_of_higher half window a.value b.value (by omega) higher
      have distance : 2 ^ digits - 1 - (a.value - b.value) + 1 = 4 * half - (a.value - b.value) := by
        omega
      rw [if_pos (by omega)]
      dsimp only
      rw [wrap_of_lt (by omega), distance]
      split
      next far => rw [decide_eq_true (ahead.mpr far)]
      next near => rw [decide_eq_false (mt ahead.mp near), Bool.not_true]
    · have ahead := @ahead_of_lower half window a.value b.value (by omega) (by omega)
      have distance : 2 ^ digits - 1 - (b.value - a.value) + 1 = 4 * half - (b.value - a.value) := by
        omega
      rw [if_neg (by omega)]
      dsimp only
      rw [wrap_of_lt (by omega), distance]
      split
      next far => rw [decide_eq_false (mt ahead.mp (Nat.not_le.mpr far))]
      next near => rw [decide_eq_true (ahead.mpr (Nat.not_lt.mp near)), Bool.not_false]

theorem lt_eq (comparable : isComparable a b = some true) : lt a b =
    some (! decide (Ahead half window a.value b.value) && ! decide (a.value = b.value)) := by
  have equal : eq a b = some (decide (a.value = b.value)) :=
    if_neg (not_not.mpr (aWindow.trans bWindow.symm))
  rw [lt, comparable, gt_eq halved aWindow bWindow, equal]
  cases decide (Ahead half window a.value b.value) with
  | true => rfl
  | false =>
      cases decide (a.value = b.value) with
      | true => rfl
      | false => rfl

theorem compares_of_comparable (comparable : isComparable a b = some true) : Compares a b := by
  have equal : eq a b = some (decide (a.value = b.value)) :=
    if_neg (not_not.mpr (aWindow.trans bWindow.symm))
  have greater := gt_eq halved aWindow bWindow
  have less := lt_eq halved aWindow bWindow comparable
  by_cases same : a.value = b.value
  · have notAhead : ¬ Ahead half window a.value b.value := by
      unfold Ahead
      omega
    exact .equal (by simp [less, same]) (by simp [equal, same]) (by simp [greater, notAhead])
  · by_cases ahead : Ahead half window a.value b.value
    · exact .greater (by simp [less, ahead]) (by simp [equal, same]) (by simp [greater, ahead])
    · exact .less (by simp [less, same, ahead]) (by simp [equal, same]) (by simp [greater, ahead])

theorem near_of_comparable (comparable : isComparable a b = some true) :
    (a.value < 2 * half ↔ b.value < 2 * half) → Near half window a.value b.value := by
  rw [isComparable_eq halved aWindow bWindow] at comparable
  exact of_decide_eq_true (Option.some.inj comparable)

theorem comparable_symm (comparable : isComparable a b = some true) :
    isComparable b a = some true := by
  have near := near_of_comparable halved aWindow bWindow comparable
  rw [isComparable_eq halved bWindow aWindow]
  apply congrArg some
  apply decide_eq_true
  intro same
  have isNear := near same.symm
  unfold Near at *
  omega

theorem gt_iff_lt (short : window < half) (comparable : isComparable a b = some true) :
    gt a b = some true ↔ lt b a = some true := by
  have near := near_of_comparable halved aWindow bWindow comparable
  have reverse := comparable_symm halved aWindow bWindow comparable
  rw [gt_eq halved aWindow bWindow, lt_eq halved bWindow aWindow reverse]
  simp only [Option.some.injEq, decide_eq_true_eq, Bool.and_eq_true, Bool.not_eq_true',
    decide_eq_false_iff_not]
  constructor
  · intro ahead
    have distinct : a.value ≠ b.value := by
      rintro same
      unfold Ahead at ahead
      omega
    exact ⟨(ahead_iff short distinct near).mp ahead, distinct.symm⟩
  · rintro ⟨behind, distinct⟩
    exact (ahead_iff short (Ne.symm distinct) near).mpr behind

end

section

variable {half : Nat} (halved : Halved digits half) (a : LollipopCounter digits)

theorem iterate_sequenceWindow (k : Nat) :
    (increment^[k] a).sequenceWindow = a.sequenceWindow := by
  induction k with
  | zero => rfl
  | succ k inductionHypothesis =>
      rw [Function.iterate_succ_apply', ← inductionHypothesis, increment]
      split
      · rfl
      · rfl

include halved

theorem increment_value : (increment a).value =
    if a.value + 1 = 2 * half ∨ a.value + 1 = 4 * half then 0 else a.value + 1 := by
  have fits := a.fits
  have size : 2 ^ digits = 4 * half := halved
  have positive := Nat.two_pow_pos digits
  have value : (increment a).value = if wrap digits (a.value + 1) = circularRegion digits + 1 then 0
      else wrap digits (a.value + 1) := apply_ite value _ _ _
  rw [value, circularRegion_eq halved]
  by_cases last : a.value + 1 = 4 * half
  · have wrapped : wrap digits (a.value + 1) = 0 := by
      rw [wrap, last, size, Nat.mod_self]
    rw [wrapped, if_neg (by omega), if_pos (.inr last)]
  · rw [wrap_of_lt (by omega)]
    by_cases circular : a.value + 1 = 2 * half
    · rw [if_pos (by omega), if_pos (.inl circular)]
    · rw [if_neg (by omega), if_neg (by omega)]

/-- The value after some increments: in the region, or past the end of the region. -/
theorem iterate_value {k : Nat} (short : k < 2 * half) :
    (increment^[k] a).value = a.value + k ∧ (a.value < 2 * half → a.value + k < 2 * half) ∨
      a.value < 2 * half ∧ (increment^[k] a).value + 2 * half = a.value + k ∨
      2 * half ≤ a.value ∧ (increment^[k] a).value + 4 * half = a.value + k := by
  have size : 2 ^ digits = 4 * half := halved
  induction k with
  | zero => exact .inl ⟨rfl, id⟩
  | succ k inductionHypothesis =>
      have before := inductionHypothesis (by omega)
      have aFits := a.fits
      have fits := (increment^[k] a).fits
      have value := increment_value halved (increment^[k] a)
      rw [Function.iterate_succ_apply']
      split at value
      · omega
      · omega

theorem ahead_iterate {k window : Nat} (positive : 1 ≤ k) (within : k ≤ window)
    (short : window < half) : Ahead half window (increment^[k] a).value a.value := by
  have size : 2 ^ digits = 4 * half := halved
  have aFits := a.fits
  have fits := (increment^[k] a).fits
  have moved := iterate_value halved a (k := k) (by omega)
  unfold Ahead Near
  omega

/-- After half of the circle a counter is not ahead of where it was. -/
theorem not_ahead_half (window : Nat) :
    ¬ Ahead half window (increment^[half] (⟨0, window, Nat.two_pow_pos digits⟩ :
      LollipopCounter digits)).value 0 := by
  have size : 2 ^ digits = 4 * half := halved
  have positive := Nat.two_pow_pos digits
  have moved := iterate_value halved
    (⟨0, window, Nat.two_pow_pos digits⟩ : LollipopCounter digits) (k := half) (by omega)
  dsimp only at moved
  unfold Ahead Near
  omega

end

theorem sequenceWindow_of_set {numberOfBits : Nat} {counter : LollipopCounter digits}
    (accepted : setSequenceWindowSize numberOfBits = some counter) :
    numberOfBits < digits ∧ counter.sequenceWindow = 2 ^ numberOfBits := by
  unfold setSequenceWindowSize at accepted
  split at accepted
  · cases accepted
  · rename_i fewer
    obtain rfl := Option.some.inj accepted
    have less : numberOfBits < digits := Nat.lt_of_not_le fewer
    refine ⟨less, ?_⟩
    change wrap digits (1 <<< numberOfBits) = 2 ^ numberOfBits
    rw [Nat.one_shiftLeft, wrap_of_lt (Nat.pow_lt_pow_right (by decide) less)]

theorem ordered_iff {numberOfBits : Nat} {counter : LollipopCounter digits}
    (accepted : setSequenceWindowSize numberOfBits = some counter) :
    Ordered digits counter.sequenceWindow ↔ numberOfBits + 3 ≤ digits := by
  obtain ⟨less, window⟩ := sequenceWindow_of_set accepted
  rw [window]
  constructor
  · intro ordered
    by_contra large
    rcases Nat.lt_or_ge digits 2 with narrow | wide
    · obtain rfl : digits = 1 := by omega
      obtain rfl : numberOfBits = 0 := by omega
      have advanced := ordered.advances ⟨0, 1, by decide⟩ 1 rfl (by decide) (by decide)
      revert advanced
      decide
    · obtain ⟨rest, rfl⟩ := Nat.exists_eq_add_of_le' wide
      have halved : Halved (rest + 2) (2 ^ rest) := by
        rw [Halved, Nat.pow_add, Nat.mul_comm]
      have reaches : 2 ^ rest ≤ 2 ^ numberOfBits := Nat.pow_le_pow_right (by decide) (by omega)
      have advanced := ordered.advances ⟨0, 2 ^ numberOfBits, Nat.two_pow_pos _⟩ (2 ^ rest) rfl
        (Nat.two_pow_pos rest) reaches
      rw [gt_eq halved (iterate_sequenceWindow _ _) rfl] at advanced
      exact not_ahead_half halved _ (of_decide_eq_true (Option.some.inj advanced))
  · intro small
    obtain ⟨rest, rfl⟩ := Nat.exists_eq_add_of_le' (show 2 ≤ digits by omega)
    have halved : Halved (rest + 2) (2 ^ rest) := by
      rw [Halved, Nat.pow_add, Nat.mul_comm]
    have short : 2 ^ numberOfBits < 2 ^ rest := Nat.pow_lt_pow_right (by decide) (by omega)
    refine ⟨fun a b => compares_of_comparable halved, fun a b aWindow bWindow comparable =>
      gt_iff_lt halved aWindow bWindow short comparable, fun a k aWindow positive within => ?_⟩
    rw [gt_eq halved ((iterate_sequenceWindow a k).trans aWindow) aWindow]
    exact congrArg some (decide_eq_true (ahead_iterate halved a positive within short))

/-- Eight digits with the default window. -/
theorem ordered_sixteen :
    (setSequenceWindowSize 4 : Option (LollipopCounter 8)) = some ⟨240, 16, by decide⟩ ∧
      Ordered 8 16 := by
  have accepted :
      (setSequenceWindowSize 4 : Option (LollipopCounter 8)) = some ⟨240, 16, by decide⟩ := by
    decide
  exact ⟨accepted, (ordered_iff accepted).mpr (by decide)⟩

/-- With a window of 64, two counters of eight digits that are 64 apart are each less than the
other. -/
theorem not_ordered : ¬ ∀ (numberOfBits : Nat) (counter : LollipopCounter 8),
    setSequenceWindowSize numberOfBits = some counter → Ordered 8 counter.sequenceWindow := by
  intro always
  have ordered := always 6 ⟨192, 64, by decide⟩ (by decide)
  have converse := ordered.converse ⟨64, 64, by decide⟩ ⟨0, 64, by decide⟩ rfl rfl (by decide)
  revert converse
  decide

end LollipopCounter

end Ns3.Network
