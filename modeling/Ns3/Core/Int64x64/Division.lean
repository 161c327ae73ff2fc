import Mathlib.Data.Nat.Bitwise
import Ns3.Core.Int64x64.Kernel
import Ns3.Library.FixedPoint
import Ns3.Library.Loop

/-!
The quotient of two numbers.

The magnitudes are divided digit by digit. Before a round the remainder moves up and the divisor
moves down, so that a round gives as many digits as there is room for. The central invariant is
that the moves only scale the division: no set bit is lost, and the quotient so far is exact.
-/

namespace Ns3.Core.Int64x64

open Library

/-- The loops of `Udiv`: over the trailing zeros of the divisor, over the digits, over the leading
zeros of the remainder, and over the denominator bits to cast off. -/
inductive Udiv.Phase
  | trailing
  | digits
  | leading
  | casting
  deriving DecidableEq, Repr

/-- The variables of `Udiv` when it tests the condition of a loop. -/
structure Udiv where
  phase : Udiv.Phase
  rem : Nat
  den : Nat
  result : Nat
  /-- The number of digits so far. -/
  digis : Nat
  /-- The number of digits of this round. -/
  shift : Nat
  deriving DecidableEq, Repr

namespace Udiv

/-- The first division gives the integer part. -/
def start (a b : Nat) : Udiv := ⟨.trailing, a % b, b, a / b, 0, 0⟩

/-- One test of a loop condition with what follows it, up to the next test. -/
def turn (state : Udiv) : Turn Udiv Nat :=
  match state.phase with
  | .trailing =>
      if state.shift < 64 ∧ state.den &&& 1 = 0 then
        .again { state with shift := state.shift + 1, den := state.den >>> 1 }
      else .again { state with phase := .digits }
  | .digits =>
      if state.digis < 64 ∧ state.rem ≠ 0 then .again { state with phase := .leading }
      -- Did we run out of remainder?
      else if state.digis < 64 then .exit (wrap 128 (state.result <<< (64 - state.digis)))
      else .exit state.result
  | .leading =>
      if state.digis + state.shift < 64 ∧ state.rem &&& hp128MaskHiBit = 0 then
        .again { state with shift := state.shift + 1, rem := wrap 128 (state.rem <<< 1) }
      else .again { state with phase := .casting }
  | .casting =>
      if state.digis + state.shift < 64 ∧ (state.den &&& 1 = 0 ∨ state.rem < state.den) then
        .again { state with shift := state.shift + 1, den := state.den >>> 1 }
      else if state.den = 0 then .failed
      else .again {
        phase := .digits
        rem := state.rem % state.den
        den := state.den
        result := wrap 128 (wrap 128 (state.result <<< state.shift) + state.rem / state.den)
        digis := state.digis + state.shift
        shift := 0 }

/-- A turn that moves the remainder or the divisor by a bit moves no set bit out of it. -/
def KeepsBits (state next : Udiv) : Prop :=
  next.shift = state.shift + 1 →
    next.rem = 2 * state.rem ∧ next.den = state.den ∨
      next.rem = state.rem ∧ 2 * next.den = state.den

/-- The turns that are left at most. A digit needs one turn that shifts, and a round at most three
others, in which a condition fails. -/
def turnsLeft (state : Udiv) : Nat :=
  4 * (64 - state.digis) + (64 - state.digis - state.shift) +
    match state.phase with
    | .trailing => 3
    | .digits => 2
    | .leading => 1
    | .casting => 0

end Udiv

/-- Divide two magnitudes. The assertion also stops a division by zero. -/
def udiv (a b : Nat) : Outcome Nat :=
  if a % b < b then loop Udiv.turn 324 (Udiv.start a b) else .failed

/-- `operator /=`. -/
def div (self o : Int64x64) : Option Int64x64 :=
  let (negative, a, b) := outputSign self o
  match udiv a b with
  | .returned result => some (withSign negative result)
  | _ => none

theorem and_hp128MaskHiBit {word : Nat} (fits : word < 2 ^ 128) :
    word &&& hp128MaskHiBit = 0 ↔ word < 2 ^ 127 := by
  rw [hp128MaskHiBit, Nat.one_shiftLeft, Nat.and_two_pow, Nat.testBit_eq_decide_div_mod_eq]
  rcases Nat.lt_or_ge word (2 ^ 127) with small | large
  · have none : word / 2 ^ 127 = 0 := Nat.div_eq_of_lt small
    exact iff_of_true (by rw [none]; rfl) small
  · have one : word / 2 ^ 127 = 1 := by omega
    exact iff_of_false (by rw [one]; decide) (Nat.not_lt.mpr large)

namespace Udiv

/-- The invariant. A round begins with a remainder below its high bit, so the round has a digit at
least. Bits of the divisor are cast off only below a remainder with its high bit, which is no less
than the divisor, so they are zeros. -/
structure Sound (a b : Nat) (state : Udiv) : Prop where
  scaled : ∃ quotient weight, state.result = wrap 128 quotient ∧
    Scaled a b quotient state.digis state.shift state.rem state.den weight
  remFits : state.rem < 2 ^ 128
  denSmall : state.den ≤ 2 ^ 127
  within : state.digis + state.shift ≤ 64
  place : match state.phase with
    | .trailing => state.digis = 0 ∧ state.rem < 2 ^ 127
    | .digits => state.rem < 2 ^ 127
    | .leading => state.digis < 64 ∧ (state.rem < 2 ^ 127 ∨ 0 < state.shift)
    | .casting => state.digis < 64 ∧ 0 < state.shift ∧
        (state.digis + state.shift < 64 → 2 ^ 127 ≤ state.rem)

variable {a b : Nat} {state next : Udiv}

theorem Sound.start (aSmall : a ≤ 2 ^ 127) (positive : 0 < b) (bSmall : b ≤ 2 ^ 127) :
    Sound a b (start a b) := by
  have below : a % b < b := Nat.mod_lt a positive
  have quotient : a / b < 2 ^ 128 := lt_of_le_of_lt (Nat.div_le_self a b) (by omega)
  exact ⟨⟨a / b, 1, (wrap_of_lt quotient).symm, Scaled.start a positive⟩,
    below.trans (lt_of_le_of_lt bSmall (by decide)), bSmall, Nat.zero_le 64, rfl,
    lt_of_lt_of_le below bSmall⟩

theorem Sound.den_pos (positive : 0 < b) (sound : Sound a b state) : 0 < state.den := by
  obtain ⟨quotient, weight, _, scaled⟩ := sound.scaled
  have nonzero : 0 < state.den * weight := scaled.divisor.symm ▸ positive
  exact Nat.pos_of_mul_pos_right nonzero

/-- Moving the remainder up below its high bit. -/
theorem Sound.scaled_double (sound : Sound a b state) (small : state.rem < 2 ^ 127) :
    ∃ quotient weight, state.result = wrap 128 quotient ∧ Scaled a b quotient state.digis
      (state.shift + 1) (wrap 128 (state.rem <<< 1)) state.den weight := by
  obtain ⟨quotient, weight, result, scaled⟩ := sound.scaled
  have doubled : wrap 128 (state.rem <<< 1) = 2 * state.rem := by
    rw [Nat.shiftLeft_eq, wrap_of_lt (by omega), Nat.mul_comm, Nat.pow_one]
  rw [doubled]
  exact ⟨quotient, weight, result, scaled.double⟩

theorem even_iff (den : Nat) : den &&& 1 = 0 ↔ den = 2 * (den >>> 1) := by
  rw [Nat.and_one_is_mod, Nat.shiftRight_eq_div_pow]
  omega

/-- Moving an even divisor down. -/
theorem Sound.scaled_halve (sound : Sound a b state) (even : state.den &&& 1 = 0) :
    ∃ quotient weight, state.result = wrap 128 quotient ∧ Scaled a b quotient state.digis
      (state.shift + 1) state.rem (state.den >>> 1) weight := by
  obtain ⟨quotient, weight, result, scaled⟩ := sound.scaled
  rw [(even_iff state.den).mp even] at scaled
  exact ⟨quotient, 2 * weight, result, scaled.halve⟩

theorem Sound.halved_le (sound : Sound a b state) : state.den >>> 1 ≤ 2 ^ 127 := by
  have small := sound.denSmall
  rw [Nat.shiftRight_eq_div_pow]
  omega

/-- A round with the digits of its quotient. -/
theorem Sound.scaled_divide (positive : 0 < b) (sound : Sound a b state) :
    ∃ quotient weight,
      wrap 128 (wrap 128 (state.result <<< state.shift) + state.rem / state.den) =
        wrap 128 quotient ∧
      Scaled a b quotient (state.digis + state.shift) 0 (state.rem % state.den) state.den
        weight := by
  obtain ⟨quotient, weight, result, scaled⟩ := sound.scaled
  refine ⟨_, weight, ?_, scaled.divide positive⟩
  rw [result, Nat.shiftLeft_eq]
  unfold wrap
  rw [Nat.mod_mul_mod, Nat.mod_add_mod]

/-- What a turn leads to from a state with the invariant. -/
structure Advances (a b : Nat) (state next : Udiv) : Prop where
  sound : Sound a b next
  keepsBits : KeepsBits state next
  less : next.turnsLeft < state.turnsLeft

theorem Sound.trailing (sound : Sound a b state) (phase : state.phase = .trailing) :
    ∃ next, turn state = .again next ∧ Advances a b state next := by
  have place := sound.place
  have within := sound.within
  rw [phase] at place
  obtain ⟨none, small⟩ := place
  unfold turn
  rw [phase]
  dsimp only
  split
  · rename_i moves
    obtain ⟨room, even⟩ := moves
    refine ⟨_, rfl, ⟨sound.scaled_halve even, sound.remFits, sound.halved_le, ?_, ?_⟩,
      fun _ => .inr ⟨rfl, ((even_iff _).mp even).symm⟩, ?_⟩
    · dsimp only
      omega
    · exact ⟨none, small⟩
    · simp only [turnsLeft, phase]
      omega
  · refine ⟨_, rfl, ⟨sound.scaled, sound.remFits, sound.denSmall, within, small⟩,
      fun moved => absurd moved (Nat.succ_ne_self _).symm, ?_⟩
    simp only [turnsLeft, phase]
    omega

theorem Sound.leading (sound : Sound a b state) (phase : state.phase = .leading) :
    ∃ next, turn state = .again next ∧ Advances a b state next := by
  have place := sound.place
  have within := sound.within
  rw [phase] at place
  obtain ⟨needs, moved⟩ := place
  unfold turn
  rw [phase]
  dsimp only
  split
  · rename_i moves
    obtain ⟨room, clear⟩ := moves
    have small := (and_hp128MaskHiBit sound.remFits).mp clear
    have doubled : wrap 128 (state.rem <<< 1) = 2 * state.rem := by
      rw [Nat.shiftLeft_eq, wrap_of_lt (by omega), Nat.mul_comm, Nat.pow_one]
    refine ⟨_, rfl, ⟨sound.scaled_double small, wrap_lt 128 _, sound.denSmall, ?_, ?_⟩,
      fun _ => .inl ⟨doubled, rfl⟩, ?_⟩
    · dsimp only
      omega
    · exact ⟨needs, .inr (Nat.succ_pos _)⟩
    · simp only [turnsLeft, phase]
      omega
  · rename_i stops
    have large : state.digis + state.shift < 64 → 2 ^ 127 ≤ state.rem := fun room =>
      Nat.not_lt.mp fun small => stops ⟨room, (and_hp128MaskHiBit sound.remFits).mpr small⟩
    refine ⟨_, rfl, ⟨sound.scaled, sound.remFits, sound.denSmall, within, needs, ?_, large⟩,
      fun moved => absurd moved (Nat.succ_ne_self _).symm, ?_⟩
    · dsimp only
      omega
    · simp only [turnsLeft, phase]
      omega

theorem Sound.casting (positive : 0 < b) (sound : Sound a b state)
    (phase : state.phase = .casting) :
    ∃ next, turn state = .again next ∧ Advances a b state next := by
  have place := sound.place
  have within := sound.within
  have denSmall := sound.denSmall
  rw [phase] at place
  obtain ⟨needs, moved, large⟩ := place
  unfold turn
  rw [phase]
  dsimp only
  split
  · rename_i moves
    obtain ⟨room, castsOff⟩ := moves
    have high : 2 ^ 127 ≤ state.rem := large room
    have even : state.den &&& 1 = 0 := castsOff.resolve_right (by omega)
    refine ⟨_, rfl, ⟨sound.scaled_halve even, sound.remFits, sound.halved_le, ?_, ?_⟩,
      fun _ => .inr ⟨rfl, ((even_iff _).mp even).symm⟩, ?_⟩
    · dsimp only
      omega
    · exact ⟨needs, Nat.succ_pos _, fun _ => high⟩
    · simp only [turnsLeft, phase]
      omega
  · have below : state.rem % state.den < state.den := Nat.mod_lt _ (sound.den_pos positive)
    rw [if_neg (sound.den_pos positive).ne']
    refine ⟨_, rfl, ⟨sound.scaled_divide positive, ?_, denSmall, within, ?_⟩,
      fun moved => absurd moved (Nat.succ_ne_zero _).symm, ?_⟩
    · exact below.trans (lt_of_le_of_lt denSmall (by decide))
    · exact lt_of_lt_of_le below denSmall
    · simp only [turnsLeft, phase]
      omega

/-- The loop over the digits leads to a round, or it has them all. -/
theorem Sound.digits (positive : 0 < b) (sound : Sound a b state)
    (phase : state.phase = .digits) :
    turn state = .exit (wrap 128 (a * 2 ^ 64 / b)) ∨
      ∃ next, turn state = .again next ∧ Advances a b state next := by
  obtain ⟨quotient, weight, result, scaled⟩ := sound.scaled
  have place := sound.place
  have within := sound.within
  rw [phase] at place
  unfold turn
  rw [phase]
  dsimp only
  split
  · rename_i goesOn
    refine .inr ⟨_, rfl, ⟨sound.scaled, sound.remFits, sound.denSmall, within, goesOn.1, .inl place⟩,
      fun moved => absurd moved (Nat.succ_ne_self _).symm, ?_⟩
    simp only [turnsLeft, phase]
    omega
  · rename_i ends
    left
    split
    · rename_i short
      have none : state.rem = 0 := not_not.mp fun some => ends ⟨short, some⟩
      rw [none] at scaled
      have exact := scaled.quotient_of_exact positive (64 - state.digis)
      rw [Nat.add_sub_cancel' short.le] at exact
      rw [result, Nat.shiftLeft_eq, ← exact]
      unfold wrap
      rw [Nat.mod_mul_mod]
    · have all : state.digis = 64 ∧ state.shift = 0 := by omega
      rw [all.1, all.2] at scaled
      rw [result, scaled.quotient_eq]

theorem Sound.advances (positive : 0 < b) (sound : Sound a b state) :
    turn state = .exit (wrap 128 (a * 2 ^ 64 / b)) ∨
      ∃ next, turn state = .again next ∧ Advances a b state next := by
  cases phase : state.phase with
  | trailing => exact .inr (sound.trailing phase)
  | digits => exact sound.digits positive phase
  | leading => exact .inr (sound.leading phase)
  | casting => exact .inr (sound.casting positive phase)

theorem Sound.again (positive : 0 < b) (sound : Sound a b state)
    (leads : turn state = .again next) : Advances a b state next := by
  rcases sound.advances positive with exits | ⟨other, again, advances⟩
  · rw [leads] at exits
    cases exits
  · rw [leads] at again
    exact Turn.again.inj again ▸ advances

end Udiv

theorem udiv_eq {a b : Nat} (aSmall : a ≤ 2 ^ 127) (positive : 0 < b) (bSmall : b ≤ 2 ^ 127) :
    udiv a b = .returned (wrap 128 (a * 2 ^ 64 / b)) := by
  have sound := Udiv.Sound.start aSmall positive bSmall
  have advances : ∀ state, Udiv.Sound a b state →
      (∃ result, Udiv.turn state = .exit result ∧ result = wrap 128 (a * 2 ^ 64 / b)) ∨
        ∃ next, Udiv.turn state = .again next ∧ Udiv.Sound a b next ∧
          next.turnsLeft < state.turnsLeft := by
    intro state sound
    rcases sound.advances positive with exits | ⟨next, leads, advances⟩
    · exact .inl ⟨_, exits, rfl⟩
    · exact .inr ⟨next, leads, advances.sound, advances.less⟩
  have enough : (Udiv.start a b).turnsLeft < 324 := Nat.lt_succ_self 323
  obtain ⟨result, returned, rfl⟩ := loop_of_variant advances sound enough
  rw [udiv, if_pos (Nat.mod_lt a positive), returned]

/-- The loop ends with the quotient, and on its way it shifts no set bit out. -/
structure Divides (a b : Nat) : Prop where
  returns : udiv a b = .returned (wrap 128 (a * 2 ^ 64 / b))
  keepsBits : ∀ state next, Reaches Udiv.turn (Udiv.start a b) state →
    Udiv.turn state = .again next → Udiv.KeepsBits state next

theorem divides {a b : Nat} (aSmall : a ≤ 2 ^ 127) (positive : 0 < b) (bSmall : b ≤ 2 ^ 127) :
    Divides a b where
  returns := udiv_eq aSmall positive bSmall
  keepsBits := by
    intro state next reaches leads
    have preserved : ∀ state next, Udiv.Sound a b state → Udiv.turn state = .again next →
        Udiv.Sound a b next := fun _ _ sound leads => (sound.again positive leads).sound
    have sound := reaches.invariant preserved (Udiv.Sound.start aSmall positive bSmall)
    exact (sound.again positive leads).keepsBits

/-- The largest magnitude by an odd divisor. -/
theorem divides_third : 2 ^ 127 ≤ 2 ^ 127 ∧ 0 < 3 ∧ 3 ≤ 2 ^ 127 ∧ Divides (2 ^ 127) 3 :=
  ⟨by decide, by decide, by decide, divides (by decide) (by decide) (by decide)⟩

theorem magnitude_pos {n : Int64x64} (nonzero : n.v ≠ 0) : 0 < n.magnitude := by
  rw [n.magnitude_eq]
  exact Int.natAbs_pos.mpr nonzero

/-- The quotient is cut off towards zero, and wrapped when it does not fit. -/
theorem div_eq {self o : Int64x64} (nonzero : o.v ≠ 0) :
    self.div o = some (withSign (outputSign self o).1
      (wrap 128 (self.v.natAbs * 2 ^ 64 / o.v.natAbs))) := by
  have quotient := udiv_eq self.magnitude_le (magnitude_pos nonzero) o.magnitude_le
  rw [← self.magnitude_eq, ← o.magnitude_eq, div, outputSign]
  dsimp only
  rw [quotient]

end Ns3.Core.Int64x64
