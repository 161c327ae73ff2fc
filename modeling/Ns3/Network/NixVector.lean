import Ns3.Library.PackedFields
import Ns3.Library.Word

/-!
`ns3::NixVector`.

The indices of the neighbours along a route are packed into words of 32 bits and taken out again
from the end. A shift by 32 bits or more is undefined, and the model stops there.
-/

namespace Ns3.Network

open Library

structure NixVector where
  nixVector : List Nat
  used : Nat
  currentVectorBitSize : Nat
  totalBitSize : Nat
  deriving DecidableEq

namespace NixVector

/-- Why a run does not go on. -/
inductive Fault
  | fatalError
  | outOfRange
  | undefinedShift
  deriving DecidableEq

/-- `n << amount` for a word of 32 bits. -/
def shl (n amount : Nat) : Except Fault Nat :=
  if amount < 32 then .ok (wrap 32 (n <<< amount)) else .error .undefinedShift

/-- `n >> amount` for a word of 32 bits. -/
def shr (n amount : Nat) : Except Fault Nat :=
  if amount < 32 then .ok (n >>> amount) else .error .undefinedShift

/-- `m_nixVector.at (i)` -/
def at? (nix : NixVector) (i : Nat) : Except Fault Nat :=
  match nix.nixVector[i]? with
  | some word => .ok word
  | none => .error .outOfRange

def back (nix : NixVector) : Nat := nix.nixVector.getLastD 0

/-- A vector as the constructor makes it. -/
def empty : NixVector := ⟨[0], 0, 0, 0⟩

def addNeighborIndex (nix : NixVector) (newBits numberOfBits : Nat) : Except Fault NixVector :=
  if numberOfBits > 32 then .error .fatalError
  else if nix.currentVectorBitSize + numberOfBits > 32 then
    if nix.currentVectorBitSize = 32 then
      .ok { nix with
        nixVector := nix.nixVector ++ [newBits]
        currentVectorBitSize := numberOfBits
        totalBitSize := wrap 32 (nix.totalBitSize + numberOfBits) }
    else do
      let tempBits ← shl newBits nix.currentVectorBitSize
      let rest ← shr newBits (32 - nix.currentVectorBitSize)
      .ok { nix with
        nixVector := nix.nixVector.dropLast ++ [tempBits ||| nix.back] ++ [rest]
        currentVectorBitSize := numberOfBits - (32 - nix.currentVectorBitSize)
        totalBitSize := wrap 32 (nix.totalBitSize + numberOfBits) }
  else do
    let newBits ← shl newBits nix.currentVectorBitSize
    .ok { nix with
      nixVector := nix.nixVector.dropLast ++ [newBits ||| nix.back]
      currentVectorBitSize := nix.currentVectorBitSize + numberOfBits
      totalBitSize := wrap 32 (nix.totalBitSize + numberOfBits) }

def getRemainingBits (nix : NixVector) : Nat := wrapSub 32 nix.totalBitSize nix.used

def extractNeighborIndex (nix : NixVector) (numberOfBits : Nat) :
    Except Fault (Nat × NixVector) :=
  let totalRemainingBits := nix.getRemainingBits
  let vectorIndex := (totalRemainingBits - 1) / 32
  let extracted := { nix with used := wrap 32 (nix.used + numberOfBits) }
  if numberOfBits > 32 then .error .fatalError
  else if numberOfBits > totalRemainingBits then .error .fatalError
  else if numberOfBits = 0 then .error .fatalError
  else if vectorIndex > 0 ∧ numberOfBits - 1 > (totalRemainingBits - 1) % 32 then do
    let word ← nix.at? vectorIndex
    let high ← shl word (32 - totalRemainingBits % 32)
    let high ← shr high
      (32 - totalRemainingBits % 32 - (numberOfBits - totalRemainingBits % 32))
    let below ← nix.at? (vectorIndex - 1)
    let low ← shr below (32 - (numberOfBits - totalRemainingBits % 32))
    .ok (high ||| low, extracted)
  else do
    let word ← nix.at? vectorIndex
    let bits ← shl word (32 - totalRemainingBits % 32)
    let bits ← shr bits (32 - numberOfBits)
    .ok (bits, extracted)

/-- The loop of `BitCount`, which comes to zero within 32 rounds for a word of 32 bits. -/
def countBits : Nat → Nat → Nat
  | 0, _ => 0
  | rounds + 1, n => if n ≠ 0 then countBits rounds (n >>> 1) + 1 else 0

def bitCount (numberOfNeighbors : Nat) : Nat :=
  if numberOfNeighbors < 2 then 1 else countBits 32 (numberOfNeighbors - 1)

/-- An index of one of so many neighbours. -/
structure Field where
  neighbors : Nat
  index : Nat
  fits : neighbors < 2 ^ 32
  valid : index < neighbors

def Field.bits (field : Field) : Nat := bitCount field.neighbors

def addAll (nix : NixVector) : List Field → Except Fault NixVector
  | [] => .ok nix
  | field :: fields => do
      let added ← nix.addNeighborIndex field.index field.bits
      added.addAll fields

/-- Take out the fields in the order of the list. -/
def extractAll (nix : NixVector) : List Field → Except Fault (List Nat × NixVector)
  | [] => .ok ([], nix)
  | field :: fields => do
      let (index, extracted) ← nix.extractNeighborIndex field.bits
      let (indices, last) ← extracted.extractAll fields
      .ok (index :: indices, last)

/-- The fields come back in the reverse order, by shifts that are defined. -/
structure Restores (fields : List Field) (added last : NixVector) : Prop where
  adds : addAll empty fields = .ok added
  extracts : extractAll added fields.reverse = .ok (fields.reverse.map Field.index, last)
  remaining : last.getRemainingBits = 0

/-- The number of bits of the fields. -/
def totalBits : List Field → Nat
  | [] => 0
  | field :: fields => field.bits + totalBits fields

/-- The number that the fields are packed into. -/
def packed : List Field → Nat
  | [] => 0
  | field :: fields => field.index + 2 ^ field.bits * packed fields

theorem totalBits_nil : totalBits [] = 0 := rfl

theorem totalBits_cons (field : Field) (fields : List Field) :
    totalBits (field :: fields) = field.bits + totalBits fields := rfl

theorem packed_cons (field : Field) (fields : List Field) :
    packed (field :: fields) = field.index + 2 ^ field.bits * packed fields := rfl

section BitCount

theorem countBits_succ (rounds n : Nat) :
    countBits (rounds + 1) n = if n ≠ 0 then countBits rounds (n >>> 1) + 1 else 0 := rfl

theorem countBits_le (rounds n : Nat) : countBits rounds n ≤ rounds := by
  induction rounds generalizing n with
  | zero => exact Nat.le_refl 0
  | succ rounds inductionHypothesis =>
      rw [countBits_succ]
      split
      · exact Nat.succ_le_succ (inductionHypothesis _)
      · exact Nat.zero_le _

/-- The loop has come to its end: the number has no more bits. -/
theorem lt_two_pow_countBits {rounds n : Nat} (fits : n < 2 ^ rounds) :
    n < 2 ^ countBits rounds n := by
  induction rounds generalizing n with
  | zero => exact fits
  | succ rounds inductionHypothesis =>
      rw [countBits_succ, Nat.shiftRight_one]
      split
      · have half := @inductionHypothesis (n / 2) (by omega)
        omega
      · omega

theorem Field.index_lt (field : Field) : field.index < 2 ^ field.bits := by
  have valid := field.valid
  have fits := field.fits
  unfold Field.bits bitCount
  split
  · omega
  · have counted := @lt_two_pow_countBits 32 (field.neighbors - 1) (by omega)
    omega

theorem Field.bits_le (field : Field) : field.bits ≤ 32 := by
  unfold Field.bits bitCount
  split
  · decide
  · exact countBits_le 32 _

theorem Field.bits_pos (field : Field) : 0 < field.bits := by
  unfold Field.bits bitCount
  split
  · decide
  · rw [countBits_succ, if_pos (by omega)]
    exact Nat.succ_pos _

end BitCount

theorem packed_lt (fields : List Field) : packed fields < 2 ^ totalBits fields := by
  induction fields with
  | nil => decide
  | cons field fields inductionHypothesis =>
      have low := field.index_lt
      have high : 2 ^ field.bits * (packed fields + 1) ≤
          2 ^ field.bits * 2 ^ totalBits fields := Nat.mul_le_mul_left _ inductionHypothesis
      rw [packed_cons, totalBits_cons, Nat.pow_add]
      rw [Nat.mul_succ] at high
      omega

theorem totalBits_append (before after : List Field) :
    totalBits (before ++ after) = totalBits before + totalBits after := by
  induction before with
  | nil => exact (Nat.zero_add _).symm
  | cons field before inductionHypothesis =>
      rw [List.cons_append, totalBits_cons, totalBits_cons, inductionHypothesis, Nat.add_assoc]

theorem totalBits_reverse (fields : List Field) : totalBits fields.reverse = totalBits fields := by
  induction fields with
  | nil => rfl
  | cons field fields inductionHypothesis =>
      rw [List.reverse_cons, totalBits_append, inductionHypothesis, totalBits_cons, totalBits_cons,
        totalBits_nil, Nat.add_zero, Nat.add_comm]

theorem packed_append (before after : List Field) :
    packed (before ++ after) = packed before + 2 ^ totalBits before * packed after := by
  induction before with
  | nil => simp [packed, totalBits]
  | cons field before inductionHypothesis =>
      rw [List.cons_append, packed_cons, packed_cons, totalBits_cons, inductionHypothesis,
        Nat.pow_add, Nat.mul_add, Nat.mul_assoc, Nat.add_assoc]

/-- The index of a field, as a range of bits. -/
theorem packed_field (before : List Field) (field : Field) (after : List Field) :
    packed (before ++ field :: after) / 2 ^ totalBits before % 2 ^ field.bits = field.index := by
  rw [packed_append, Nat.add_mul_div_left _ _ (Nat.two_pow_pos _),
    Nat.div_eq_of_lt (packed_lt before), Nat.zero_add, packed_cons, Nat.add_mul_mod_self_left,
    Nat.mod_eq_of_lt field.index_lt]

/-- A shift to the left keeps the lowest bits. -/
theorem wrap_shiftLeft {kept amount : Nat} (split : kept + amount = 32) (n : Nat) :
    wrap 32 (n <<< amount) = n % 2 ^ kept * 2 ^ amount := by
  rw [wrap, Nat.shiftLeft_eq, ← split, Nat.pow_add, Nat.mul_mod_mul_right]

theorem shl_eq (kept : Nat) {amount : Nat} (split : kept + amount = 32) (some : 0 < kept) (n : Nat) :
    shl n amount = .ok (n % 2 ^ kept * 2 ^ amount) := by
  rw [shl, if_pos (by omega), wrap_shiftLeft split]

theorem shr_eq {amount : Nat} (short : amount < 32) (n : Nat) :
    shr n amount = .ok (n / 2 ^ amount) := by
  rw [shr, if_pos short, Nat.shiftRight_eq_div_pow]

/-- The words hold a number of so many bits. -/
structure Holds (nix : NixVector) (full : List Nat) (last size value : Nat) : Prop where
  words : nix.nixVector = full ++ [last]
  fullWords : ∀ word ∈ full, word < 2 ^ 32
  lastBits : last < 2 ^ nix.currentVectorBitSize
  current : nix.currentVectorBitSize ≤ 32
  covers : size = 32 * full.length + nix.currentVectorBitSize
  packs : value = Nat.ofDigits (2 ^ 32) (full ++ [last])
  total : nix.totalBitSize = wrap 32 size

theorem holds_empty : Holds empty [] 0 0 0 where
  words := rfl
  fullWords _ member := absurd member List.not_mem_nil
  lastBits := by decide
  current := by decide
  covers := rfl
  packs := rfl
  total := rfl

theorem ofDigits_last (full : List Nat) (last : Nat) :
    Nat.ofDigits (2 ^ 32) (full ++ [last]) =
      Nat.ofDigits (2 ^ 32) full + 2 ^ (32 * full.length) * last := by
  rw [Nat.ofDigits_append, Nat.ofDigits_singleton, ← Nat.pow_mul]

namespace Holds

variable {nix : NixVector} {full : List Nat} {last size value newBits numberOfBits : Nat}

theorem back (holds : Holds nix full last size value) : nix.back = last := by
  rw [NixVector.back, holds.words, List.getLastD_eq_getLast?, List.getLast?_append]
  rfl

theorem dropLast (holds : Holds nix full last size value) : nix.nixVector.dropLast = full := by
  rw [holds.words, List.dropLast_concat]

theorem last_lt (holds : Holds nix full last size value) : last < 2 ^ 32 :=
  lt_of_lt_of_le holds.lastBits (Nat.pow_le_pow_right (by decide) holds.current)

theorem allWords (holds : Holds nix full last size value) :
    ∀ word ∈ full ++ [last], word < 2 ^ 32 := by
  intro word member
  rcases List.mem_append.mp member with inFull | isLast
  · exact holds.fullWords word inFull
  · obtain rfl := List.mem_singleton.mp isLast
    exact holds.last_lt

/-- A word of the vector is a range of 32 bits of the number. -/
theorem at_eq (holds : Holds nix full last size value) {i : Nat} (inside : 32 * i < size) :
    nix.at? i = .ok (value / 2 ^ (32 * i) % 2 ^ 32) := by
  have current := holds.current
  have within : i < (full ++ [last]).length := by
    have covers := holds.covers
    rw [List.length_append, List.length_singleton]
    omega
  rw [at?, holds.words, getElem?_ofDigits (by decide) holds.allWords within, ← holds.packs,
    Nat.pow_mul]

/-- What an addition leaves behind. -/
def Adds (nix : NixVector) (newBits numberOfBits size value : Nat) : Prop :=
  ∃ added full last, nix.addNeighborIndex newBits numberOfBits = .ok added ∧
    Holds added full last (size + numberOfBits) (value + 2 ^ size * newBits) ∧
    added.used = nix.used

section

variable (holds : Holds nix full last size value) (positive : 0 < numberOfBits)
  (small : numberOfBits ≤ 32) (fits : newBits < 2 ^ numberOfBits)

include holds

theorem total_add (numberOfBits : Nat) :
    wrap 32 (nix.totalBitSize + numberOfBits) = wrap 32 (size + numberOfBits) := by
  rw [holds.total]
  exact Nat.mod_add_mod _ _ _

include positive small fits

/-- The field goes into the last word. -/
theorem adds_within (within : nix.currentVectorBitSize + numberOfBits ≤ 32) :
    Adds nix newBits numberOfBits size value := by
  have room : nix.currentVectorBitSize < 32 := by omega
  have shifted : newBits * 2 ^ nix.currentVectorBitSize + last <
      2 ^ (nix.currentVectorBitSize + numberOfBits) := by
    have high : (newBits + 1) * 2 ^ nix.currentVectorBitSize ≤
        2 ^ numberOfBits * 2 ^ nix.currentVectorBitSize := Nat.mul_le_mul_right _ fits
    have low := holds.lastBits
    rw [Nat.succ_mul] at high
    rw [Nat.add_comm nix.currentVectorBitSize, Nat.pow_add]
    omega
  have word : newBits * 2 ^ nix.currentVectorBitSize < 2 ^ 32 :=
    lt_of_le_of_lt (Nat.le_add_right _ _)
      (lt_of_lt_of_le shifted (Nat.pow_le_pow_right (by decide) within))
  have sum := or_shiftLeft_of_lt holds.lastBits newBits
  refine ⟨{ nix with
    nixVector := full ++ [newBits * 2 ^ nix.currentVectorBitSize + last]
    currentVectorBitSize := nix.currentVectorBitSize + numberOfBits
    totalBitSize := wrap 32 (size + numberOfBits) }, full, _, ?_, ⟨rfl, holds.fullWords, shifted,
      within, ?_, ?_, rfl⟩, rfl⟩
  · rw [addNeighborIndex, if_neg (by omega), if_neg (by omega), shl, if_pos room,
      Nat.shiftLeft_eq, wrap_of_lt word, holds.dropLast, holds.back, holds.total_add]
    change Except.ok _ = _
    rw [sum]
  · rw [holds.covers, Nat.add_assoc]
  · rw [ofDigits_last, holds.packs, ofDigits_last, holds.covers, Nat.pow_add]
    ring

/-- The last word is full, and the field starts another one. -/
theorem adds_word (isFull : nix.currentVectorBitSize = 32) :
    Adds nix newBits numberOfBits size value := by
  refine ⟨{ nix with
    nixVector := full ++ [last] ++ [newBits]
    currentVectorBitSize := numberOfBits
    totalBitSize := wrap 32 (size + numberOfBits) }, full ++ [last], _, ?_, ⟨rfl, holds.allWords,
      fits, small, ?_, ?_, rfl⟩, rfl⟩
  · rw [addNeighborIndex, if_neg (by omega), if_pos (by omega), if_pos isFull, holds.words,
      holds.total_add]
  · rw [holds.covers, isFull, List.length_append, List.length_singleton]
    rfl
  · rw [ofDigits_last, ← holds.packs, List.length_append, List.length_singleton, holds.covers,
      isFull]
    rfl

/-- The lower bits of the field fill the last word, and the others start another one. -/
theorem adds_across (notFull : nix.currentVectorBitSize ≠ 32)
    (beyond : 32 < nix.currentVectorBitSize + numberOfBits) :
    Adds nix newBits numberOfBits size value := by
  have room : nix.currentVectorBitSize < 32 := by
    have := holds.current
    omega
  obtain ⟨rest, filled⟩ := Nat.exists_eq_add_of_lt room
  have left : 32 - nix.currentVectorBitSize = rest + 1 := by omega
  have size : 2 ^ (rest + 1) * 2 ^ nix.currentVectorBitSize = 2 ^ 32 := by
    rw [← Nat.pow_add, Nat.add_comm, ← Nat.add_assoc, ← filled]
  have sum := or_shiftLeft_of_lt holds.lastBits (newBits % 2 ^ (rest + 1))
  have lower : newBits % 2 ^ (rest + 1) * 2 ^ nix.currentVectorBitSize + last < 2 ^ 32 := by
    have high : (newBits % 2 ^ (rest + 1) + 1) * 2 ^ nix.currentVectorBitSize ≤
        2 ^ (rest + 1) * 2 ^ nix.currentVectorBitSize :=
      Nat.mul_le_mul_right _ (Nat.mod_lt _ (Nat.two_pow_pos _))
    have low := holds.lastBits
    rw [Nat.succ_mul] at high
    omega
  have upper : newBits / 2 ^ (rest + 1) < 2 ^ (numberOfBits - (rest + 1)) := by
    apply Nat.div_lt_of_lt_mul
    rwa [← Nat.pow_add, Nat.add_sub_cancel' (by omega)]
  refine ⟨{ nix with
    nixVector := full ++ [newBits % 2 ^ (rest + 1) * 2 ^ nix.currentVectorBitSize + last] ++
      [newBits / 2 ^ (rest + 1)]
    currentVectorBitSize := numberOfBits - (rest + 1)
    totalBitSize := wrap 32 (_ + numberOfBits) }, full ++ [_], _, ?_, ⟨rfl, ?_, upper, ?_, ?_, ?_,
      rfl⟩, rfl⟩
  · rw [addNeighborIndex, if_neg (by omega), if_pos (by omega), if_neg notFull,
      shl_eq (rest + 1) (by omega) (by omega), left, shr_eq (by omega), holds.dropLast,
      holds.back, holds.total_add]
    change Except.ok _ = _
    rw [sum]
  · intro word member
    rcases List.mem_append.mp member with inFull | isLast
    · exact holds.fullWords word inFull
    · obtain rfl := List.mem_singleton.mp isLast
      exact lower
  · exact (Nat.sub_le _ _).trans small
  · have covers := holds.covers
    rw [List.length_append, List.length_singleton]
    change _ = _ + (numberOfBits - (rest + 1))
    omega
  · have parts : 2 ^ nix.currentVectorBitSize * newBits =
        2 ^ 32 * (newBits / 2 ^ (rest + 1)) +
          newBits % 2 ^ (rest + 1) * 2 ^ nix.currentVectorBitSize := by
      rw [← size, Nat.mul_comm (2 ^ (rest + 1)), Nat.mul_assoc,
        Nat.mul_comm (newBits % 2 ^ (rest + 1)), ← Nat.mul_add, Nat.div_add_mod]
    rw [ofDigits_last, ofDigits_last, holds.packs, ofDigits_last, holds.covers,
      List.length_append, List.length_singleton, Nat.mul_succ, Nat.pow_add _ _ 32,
      Nat.pow_add _ _ nix.currentVectorBitSize, Nat.mul_assoc, parts]
    ring

theorem adds : Adds nix newBits numberOfBits size value := by
  rcases Nat.lt_or_ge 32 (nix.currentVectorBitSize + numberOfBits) with beyond | within
  · by_cases isFull : nix.currentVectorBitSize = 32
    · exact holds.adds_word positive small fits isFull
    · exact holds.adds_across positive small fits isFull beyond
  · exact holds.adds_within positive small fits within

end

section

variable {remaining : Nat} (holds : Holds nix full last size value)
  (left : nix.getRemainingBits = remaining) (within : remaining ≤ size)
  (positive : 0 < numberOfBits) (small : numberOfBits ≤ 32) (enough : numberOfBits ≤ remaining)

include holds left within positive small enough

/-- The top of the bits that are left ends with a word. -/
theorem extract_boundary (boundary : remaining % 32 = 0) :
    nix.extractNeighborIndex numberOfBits = .error .undefinedShift := by
  have found := holds.at_eq (i := (remaining - 1) / 32) (by omega)
  rw [extractNeighborIndex, left, if_neg (by omega), if_neg (by omega), if_neg (by omega),
    if_neg (by omega), found, boundary]
  rfl

/-- The field is a range of bits below the ones that were taken out. -/
theorem extract_eq (inside : remaining % 32 ≠ 0) :
    nix.extractNeighborIndex numberOfBits =
      .ok (value / 2 ^ (remaining - numberOfBits) % 2 ^ numberOfBits,
        { nix with used := wrap 32 (nix.used + numberOfBits) }) := by
  have inWord : 0 < remaining % 32 := Nat.pos_of_ne_zero inside
  have found := holds.at_eq (i := (remaining - 1) / 32) (by omega)
  have lowest : ∀ word, word % 2 ^ 32 % 2 ^ (remaining % 32) = word % 2 ^ (remaining % 32) :=
    fun word => Nat.mod_mod_of_dvd _ (Nat.pow_dvd_pow 2 (by omega))
  rw [extractNeighborIndex, left, if_neg (by omega), if_neg (by omega), if_neg (by omega), found]
  split
  · rename_i spans
    obtain ⟨further, long⟩ := spans
    have beyond : remaining % 32 < numberOfBits := by omega
    have foundBelow := holds.at_eq (i := (remaining - 1) / 32 - 1) (by omega)
    have high : 2 ^ (32 - remaining % 32) =
        2 ^ (numberOfBits - remaining % 32) * 2 ^ (32 - numberOfBits) := by
      rw [← Nat.pow_add]
      congr 1
      omega
    have amount : 32 - remaining % 32 - (numberOfBits - remaining % 32) = 32 - numberOfBits := by
      omega
    have start : 32 * ((remaining - 1) / 32 - 1) + (32 - (numberOfBits - remaining % 32)) =
        remaining - numberOfBits := by omega
    have upper : 32 * ((remaining - 1) / 32) =
        remaining - numberOfBits + (numberOfBits - remaining % 32) := by omega
    have width : numberOfBits - remaining % 32 + remaining % 32 = numberOfBits := by omega
    have fitsBelow : numberOfBits - remaining % 32 ≤ 32 := by omega
    change (shl _ _ >>= _) = _
    rw [shl_eq (remaining % 32) (by omega) inWord, lowest, amount]
    change (shr _ _ >>= _) = _
    rw [shr_eq (by omega), high, ← Nat.mul_assoc, Nat.mul_div_cancel _ (Nat.two_pow_pos _),
      foundBelow]
    change (shr _ _ >>= _) = _
    rw [shr_eq (by omega), mod_div_two_pow _ fitsBelow, Nat.div_div_eq_div_mul, ← Nat.pow_add,
      start, upper, Nat.pow_add, ← Nat.div_div_eq_div_mul]
    change Except.ok (_ ||| _, _) = _
    rw [or_shiftLeft_of_lt (Nat.mod_lt _ (Nat.two_pow_pos _)), field_across, width]
  · rename_i fits
    have inLast : numberOfBits ≤ remaining % 32 := by
      rw [not_and_or] at fits
      omega
    have shift : 2 ^ (32 - numberOfBits) =
        2 ^ (remaining % 32 - numberOfBits) * 2 ^ (32 - remaining % 32) := by
      rw [← Nat.pow_add]
      congr 1
      omega
    have position : 32 * ((remaining - 1) / 32) + (remaining % 32 - numberOfBits) =
        remaining - numberOfBits := by omega
    change (shl _ _ >>= _) = _
    rw [shl_eq (remaining % 32) (by omega) inWord, lowest]
    change (shr _ _ >>= _) = _
    rw [shr_eq (by omega), shift, Nat.mul_div_mul_right _ _ (Nat.two_pow_pos _),
      mod_div_two_pow _ inLast, Nat.div_div_eq_div_mul, ← Nat.pow_add, position]
    rfl

end

theorem addAll (holds : Holds nix full last size value) (fields : List Field) :
    ∃ added full last, nix.addAll fields = .ok added ∧
      Holds added full last (size + totalBits fields) (value + 2 ^ size * packed fields) ∧
      added.used = nix.used := by
  induction fields generalizing nix full last size value with
  | nil => exact ⟨nix, full, last, rfl, holds, rfl⟩
  | cons field fields inductionHypothesis =>
      obtain ⟨next, nextFull, nextLast, adds, nextHolds, nextUsed⟩ :=
        holds.adds field.bits_pos field.bits_le field.index_lt
      obtain ⟨added, full, last, addsAll, addedHolds, addedUsed⟩ := inductionHypothesis nextHolds
      refine ⟨added, full, last, ?_, ?_, addedUsed.trans nextUsed⟩
      · rw [NixVector.addAll, adds]
        exact addsAll
      · have packs : value + 2 ^ size * packed (field :: fields) = value +
            2 ^ size * field.index + 2 ^ (size + field.bits) * packed fields := by
          rw [packed_cons, Nat.mul_add, Nat.pow_add, Nat.mul_assoc, Nat.add_assoc]
        rwa [totalBits_cons, packs, ← Nat.add_assoc]

/-- The bits are taken out, the vector keeps them. -/
theorem extracted (holds : Holds nix full last size value) (used : Nat) :
    Holds { nix with used := used } full last size value :=
  ⟨holds.words, holds.fullWords, holds.lastBits, holds.current, holds.covers, holds.packs,
    holds.total⟩

end Holds

section Extraction

variable {nix last : NixVector} {numberOfBits : Nat}

theorem exists_of_bind_ok {α β : Type} {step : Except Fault α} {rest : α → Except Fault β}
    {result : β} (ran : step >>= rest = .ok result) :
    ∃ value, step = .ok value ∧ rest value = .ok result := by
  cases step with
  | error fault => cases ran
  | ok value => exact ⟨value, rfl, ran⟩

theorem remaining_extract (small : nix.used < 2 ^ 32)
    (enough : numberOfBits ≤ nix.getRemainingBits) :
    getRemainingBits { nix with used := wrap 32 (nix.used + numberOfBits) } =
      nix.getRemainingBits - numberOfBits := by
  unfold getRemainingBits wrapSub wrap at *
  dsimp only at *
  omega

/-- An extraction that succeeds takes bits that are left. -/
theorem extract_ok {index : Nat} {extracted : NixVector}
    (extracts : nix.extractNeighborIndex numberOfBits = .ok (index, extracted)) :
    numberOfBits ≤ nix.getRemainingBits ∧
      extracted = { nix with used := wrap 32 (nix.used + numberOfBits) } := by
  unfold extractNeighborIndex at extracts
  dsimp only at extracts
  split at extracts
  · cases extracts
  split at extracts
  · cases extracts
  split at extracts
  · cases extracts
  rename_i enough some
  refine ⟨Nat.not_lt.mp enough, ?_⟩
  split at extracts
  · obtain ⟨_, _, extracts⟩ := exists_of_bind_ok extracts
    obtain ⟨_, _, extracts⟩ := exists_of_bind_ok extracts
    obtain ⟨_, _, extracts⟩ := exists_of_bind_ok extracts
    obtain ⟨_, _, extracts⟩ := exists_of_bind_ok extracts
    obtain ⟨_, _, extracts⟩ := exists_of_bind_ok extracts
    exact (Prod.mk.inj (Except.ok.inj extracts)).2.symm
  · obtain ⟨_, _, extracts⟩ := exists_of_bind_ok extracts
    obtain ⟨_, _, extracts⟩ := exists_of_bind_ok extracts
    obtain ⟨_, _, extracts⟩ := exists_of_bind_ok extracts
    exact (Prod.mk.inj (Except.ok.inj extracts)).2.symm

/-- A run of extractions starts with one and goes on with the others. -/
theorem extractAll_cons {field : Field} {fields : List Field} {indices : List Nat}
    (extracts : nix.extractAll (field :: fields) = .ok (indices, last)) :
    ∃ index rest extracted, indices = index :: rest ∧
      nix.extractNeighborIndex field.bits = .ok (index, extracted) ∧
      extracted.extractAll fields = .ok (rest, last) := by
  rw [extractAll] at extracts
  obtain ⟨⟨index, extracted⟩, first, extracts⟩ := exists_of_bind_ok extracts
  obtain ⟨⟨rest, final⟩, others, extracts⟩ := exists_of_bind_ok extracts
  cases extracts
  exact ⟨index, rest, extracted, rfl, first, others⟩

theorem totalBits_le_remaining {fields : List Field} {indices : List Nat}
    (small : nix.used < 2 ^ 32) (extracts : nix.extractAll fields = .ok (indices, last)) :
    totalBits fields ≤ nix.getRemainingBits := by
  induction fields generalizing nix indices with
  | nil => exact Nat.zero_le _
  | cons field fields inductionHypothesis =>
      obtain ⟨index, rest, extracted, _, first, others⟩ := extractAll_cons extracts
      obtain ⟨enough, rfl⟩ := extract_ok first
      have after := inductionHypothesis (wrap_lt 32 _) others
      rw [remaining_extract small enough] at after
      rw [totalBits_cons]
      omega

theorem totalBits_concat (before : List Field) (field : Field) :
    totalBits (before ++ [field]) = totalBits before + field.bits := totalBits_append before [field]

/-- No field ends with a word. -/
def Inside (fields : List Field) : Prop :=
  ∀ before, before ≠ [] → before <+: fields → totalBits before % 32 ≠ 0

theorem inside_concat (before : List Field) (field : Field) :
    Inside (before ++ [field]) ↔ Inside before ∧ totalBits (before ++ [field]) % 32 ≠ 0 := by
  constructor
  · intro inside
    exact ⟨fun shorter some isPrefix => inside shorter some
      (isPrefix.trans (List.prefix_append _ _)), inside _ (by simp) (List.prefix_refl _)⟩
  · rintro ⟨inside, last⟩ shorter some isPrefix
    rcases List.prefix_concat_iff.mp isPrefix with rfl | isPrefix
    · exact last
    · exact inside shorter some isPrefix

variable {full : List Nat} {lastWord size value : Nat}

theorem extractAll_reverse (before after : List Field) (small : nix.used < 2 ^ 32)
    (holds : Holds nix full lastWord size (packed (before ++ after)))
    (left : nix.getRemainingBits = totalBits before) (within : totalBits before ≤ size)
    (inside : Inside before) :
    ∃ final, nix.extractAll before.reverse = .ok (before.reverse.map Field.index, final) ∧
      final.getRemainingBits = 0 := by
  induction before using List.reverseRecOn generalizing nix after with
  | nil => exact ⟨nix, rfl, left⟩
  | append_singleton before field inductionHypothesis =>
      obtain ⟨insideBefore, ends⟩ := (inside_concat before field).mp inside
      have total := totalBits_concat before field
      have enough : field.bits ≤ totalBits (before ++ [field]) := total ▸ Nat.le_add_left _ _
      have extracts := holds.extract_eq left within field.bits_pos field.bits_le enough ends
      have rest : totalBits (before ++ [field]) - field.bits = totalBits before := by omega
      have joined : before ++ [field] ++ after = before ++ field :: after := by simp
      rw [rest, joined, packed_field] at extracts
      have remaining := remaining_extract small (left ▸ enough)
      rw [left, rest] at remaining
      obtain ⟨final, extractsAll, empty⟩ := inductionHypothesis (field :: after) (wrap_lt 32 _)
        (joined ▸ holds.extracted _) remaining (by omega) insideBefore
      refine ⟨final, ?_, empty⟩
      rw [List.reverse_concat, extractAll, extracts]
      change (extractAll _ _ >>= _) = _
      rw [extractsAll]
      rfl

theorem inside_of_extractAll {before : List Field} {indices : List Nat}
    (small : nix.used < 2 ^ 32) (holds : Holds nix full lastWord size value)
    (left : nix.getRemainingBits = totalBits before) (within : totalBits before ≤ size)
    (extracts : nix.extractAll before.reverse = .ok (indices, last)) : Inside before := by
  induction before using List.reverseRecOn generalizing nix indices with
  | nil =>
      intro before some isPrefix
      exact absurd (List.prefix_nil.mp isPrefix) some
  | append_singleton before field inductionHypothesis =>
      rw [List.reverse_concat] at extracts
      obtain ⟨index, rest, extracted, _, first, others⟩ := extractAll_cons extracts
      obtain ⟨enough, rfl⟩ := extract_ok first
      have total := totalBits_concat before field
      have remaining := remaining_extract small enough
      have fewer : nix.getRemainingBits - field.bits = totalBits before := by omega
      rw [inside_concat]
      refine ⟨inductionHypothesis (wrap_lt 32 _) (holds.extracted _) (remaining.trans fewer)
        (by omega) others, fun ends => ?_⟩
      rw [holds.extract_boundary left within field.bits_pos field.bits_le (by omega) ends] at first
      cases first

end Extraction

section

variable {fields : List Field} {added last : NixVector}

theorem holds_added (adds : addAll empty fields = .ok added) :
    (∃ full lastWord, Holds added full lastWord (totalBits fields) (packed fields)) ∧
      added.used = 0 ∧ added.getRemainingBits = wrap 32 (totalBits fields) := by
  obtain ⟨other, full, lastWord, addsOther, holds, used⟩ := holds_empty.addAll fields
  obtain rfl := Except.ok.inj (addsOther.symm.trans adds)
  rw [Nat.zero_add, Nat.pow_zero, Nat.one_mul, Nat.zero_add] at holds
  have unused : other.used = 0 := used
  refine ⟨⟨full, lastWord, holds⟩, unused, ?_⟩
  rw [getRemainingBits, unused, holds.total, wrapSub, Nat.sub_zero, Nat.add_mod_right]
  exact Nat.mod_eq_of_lt (wrap_lt 32 _)

theorem Restores.total_lt (restores : Restores fields added last) : totalBits fields < 2 ^ 32 := by
  obtain ⟨_, used, remaining⟩ := holds_added restores.adds
  have taken := totalBits_le_remaining (used ▸ Nat.two_pow_pos 32) restores.extracts
  rw [remaining, totalBits_reverse] at taken
  exact lt_of_le_of_lt taken (wrap_lt 32 _)

theorem Restores.inside (restores : Restores fields added last) : Inside fields := by
  obtain ⟨⟨full, lastWord, holds⟩, used, remaining⟩ := holds_added restores.adds
  rw [wrap_of_lt restores.total_lt] at remaining
  exact inside_of_extractAll (used ▸ Nat.two_pow_pos 32) holds remaining (Nat.le_refl _)
    restores.extracts

theorem extracts_iff (fields : List Field) :
    (∃ added last, Restores fields added last) ↔ totalBits fields < 2 ^ 32 ∧ Inside fields := by
  constructor
  · rintro ⟨added, last, restores⟩
    exact ⟨restores.total_lt, restores.inside⟩
  · rintro ⟨small, inside⟩
    obtain ⟨added, _, _, adds, _⟩ := holds_empty.addAll fields
    obtain ⟨⟨full, lastWord, holds⟩, used, remaining⟩ := holds_added adds
    rw [wrap_of_lt small] at remaining
    obtain ⟨last, extracts, taken⟩ := extractAll_reverse fields [] (used ▸ Nat.two_pow_pos 32)
      (by rwa [List.append_nil]) remaining (Nat.le_refl _) inside
    exact ⟨added, last, adds, extracts, taken⟩

/-- Four nodes of 256 neighbours fill a word, and the first extraction shifts it by 32 bits. -/
theorem not_extracts : ¬ ∀ fields : List Field, ∃ added last, Restores fields added last := by
  intro always
  obtain ⟨added, last, restores⟩ := always (List.replicate 4 ⟨256, 7, by decide, by decide⟩)
  exact restores.inside _ (List.cons_ne_nil _ _) (List.prefix_refl _) (by decide)

end

end NixVector

end Ns3.Network
