import Ns3.Library.BitRegister
import Ns3.Lte.Asn1Header.Kernel

/-!
What `SerializeBitset` adds to the bits of a header, and what `DeserializeBitset` takes from them.
-/

namespace Ns3.Lte.Asn1Header

open Library

variable {size : Nat} {self : Asn1Header} {bits rest : List Bool} {input : List UInt8}

/-- The bits that were written. The last of them are in the pending octet. -/
structure Packs (header : Asn1Header) (bits : List Bool) : Prop where
  pending : ∃ left : List Bool, left.length = header.numSerializationPendingBits ∧
    left.length < 8 ∧ Holds header.serializationPendingBits left ∧
    bits = octetBits header.serializationResult ++ left

/-- The bits that can be read. The first of them are in the pending octet. -/
structure Offers (header : Asn1Header) (input : List UInt8) (bits : List Bool) : Prop where
  pending : ∃ left : List Bool, left.length = header.numSerializationPendingBits ∧
    left.length < 8 ∧ Holds header.serializationPendingBits left ∧ bits = left ++ octetBits input

theorem packs_nil : Packs {} [] := ⟨[], rfl, by decide, holds_nil, rfl⟩

theorem offers_octets (input : List UInt8) : Offers {} input (octetBits input) :=
  ⟨[], rfl, by decide, holds_nil, rfl⟩

/-- The bits that the pending octet holds now, and the bits of the bitset that are left. -/
structure Completed (data : BitVec size) (bits : List Bool) (result : Nat × UInt8 × Nat) :
    Prop where
  pending : ∃ left : List Bool, left.length = result.2.2 ∧ Holds result.2.1 left ∧
    bits = left ++ bitsOf result.1 data.toNat ∧ (result.1 = 0 ∨ left.length = 8)

theorem completed_completeOctet (data : BitVec size) {pendingBits room : Nat} {octet : UInt8}
    {left : List Bool} (holds : Holds octet left) (space : left.length + room = 8) :
    Completed data (left ++ bitsOf pendingBits data.toNat)
      (completeOctet data pendingBits (nextMask room) octet left.length) := by
  induction pendingBits generalizing room octet left with
  | zero => exact ⟨left, rfl, holds, rfl, .inl rfl⟩
  | succ pendingBits inductionHypothesis =>
      cases room with
      | zero =>
          have full : ¬ left.length < 8 := by omega
          rw [completeOctet, if_neg full]
          exact ⟨left, rfl, holds, rfl, .inr space⟩
      | succ room =>
          have notFull : left.length < 8 := by omega
          have longer : (left ++ [data.getLsbD pendingBits]).length = left.length + 1 := by
            rw [List.length_append, List.length_singleton]
          rw [completeOctet, if_pos notFull, nextMask_shift (by omega), bitsOf,
            BitVec.testBit_toNat, List.append_cons, ← longer]
          apply inductionHypothesis (holds.push space (data.getLsbD pendingBits))
          omega

theorem holds_keepBits (data : BitVec size) {pendingBits room : Nat} {octet : UInt8}
    {left : List Bool} (holds : Holds octet left) (space : left.length + room = 8)
    (fits : pendingBits ≤ room) :
    Holds (keepBits data pendingBits (nextMask room) octet)
      (left ++ bitsOf pendingBits data.toNat) := by
  induction pendingBits generalizing room octet left with
  | zero => rwa [bitsOf, List.append_nil]
  | succ pendingBits inductionHypothesis =>
      cases room with
      | zero => omega
      | succ room =>
          have pushed := holds.push space (data.getLsbD pendingBits)
          rw [keepBits, nextMask_shift (by omega), bitsOf, BitVec.testBit_toNat,
            List.append_cons]
          apply inductionHypothesis pushed
          · rw [List.length_append, List.length_singleton]
            omega
          · omega

theorem nextMask_shiftLeft {count : Nat} (fits : count < 8) :
    (UInt8.ofNat (2 ^ count) <<< 1) &&& ~~~ UInt8.ofNat (2 ^ count) =
      UInt8.ofNat (2 ^ (count + 1)) := by
  revert count
  decide

/-- The octet has the bits from a position on. -/
theorem toNat_octetToWrite (data : BitVec size) (position : Nat) (octet : UInt8) (done j : Nat)
    (count : done + j = 8) (value : octet.toNat = (data.toNat >>> position) % 2 ^ done) :
    (octetToWrite data (position + 8) j (UInt8.ofNat (2 ^ done)) octet).toNat =
      (data.toNat >>> position) % 2 ^ 8 := by
  induction j generalizing octet done with
  | zero => rwa [← count]
  | succ j inductionHypothesis =>
      have small : 2 ^ done < 2 ^ 8 := Nat.pow_lt_pow_right Nat.one_lt_two (by omega)
      have place : position + 8 - (j + 1) = position + done := by omega
      have lower : octet.toNat < 2 ^ done := by
        rw [value]
        exact Nat.mod_lt _ (Nat.two_pow_pos done)
      rw [octetToWrite, nextMask_shiftLeft (by omega), place]
      apply inductionHypothesis _ (done + 1) (by omega)
      rw [Nat.mod_pow_succ, ← value, ← Nat.toNat_testBit, Nat.testBit_shiftRight,
        BitVec.testBit_toNat]
      cases data.getLsbD (position + done) with
      | false => rw [if_neg Bool.false_ne_true, UInt8.or_zero, Bool.toNat_false, Nat.mul_zero,
          Nat.add_zero]
      | true =>
          rw [if_pos rfl, UInt8.toNat_or, UInt8.toNat_ofNat', Nat.mod_eq_of_lt small, Nat.or_comm,
            Bool.toNat_true, Nat.add_comm, Nat.two_pow_add_eq_or_of_lt lower, Nat.mul_one]

theorem bitsOf_octetToWrite (data : BitVec size) (position : Nat) :
    bitsOf 8 (octetToWrite data (position + 8) 8 1 0).toNat =
      bitsOf 8 (data.toNat >>> position) := by
  have value := toNat_octetToWrite data position 0 0 8 rfl (Nat.mod_one _).symm
  rw [← bitsOf_mod 8 (data.toNat >>> position), ← value]
  rfl

/-- The octets that are written when no bit is pending. -/
theorem packs_writeOctets (data : BitVec size) (pendingBits : Nat) (self : Asn1Header)
    (none : self.numSerializationPendingBits = 0) (clear : self.serializationPendingBits = 0) :
    Packs (writeOctets data pendingBits self)
      (octetBits self.serializationResult ++ bitsOf pendingBits data.toNat) := by
  fun_induction writeOctets data pendingBits self with
  | case1 self => exact ⟨[], none.symm, by decide, clear ▸ holds_nil, rfl⟩
  | case2 pendingBits self inductionHypothesis =>
      have packs := inductionHypothesis none clear
      have written : octetBits (self.writeOctet (octetToWrite data (pendingBits + 8) 8 1 0)
          ).serializationResult =
            octetBits self.serializationResult ++ bitsOf 8 (data.toNat >>> pendingBits) := by
        rw [writeOctet, octetBits_append, octetBits_cons, octetBits_nil, List.append_nil,
          bitsOf_octetToWrite]
      have split : bitsOf (pendingBits + 8) data.toNat =
          bitsOf 8 (data.toNat >>> pendingBits) ++ bitsOf pendingBits data.toNat := by
        rw [Nat.add_comm, bitsOf_append]
      change Packs _ (_ ++ bitsOf (pendingBits + 8) data.toNat)
      rw [split, ← List.append_assoc, ← written]
      exact packs
  | case3 pendingBits self positive below =>
      have few : pendingBits < 8 := by
        by_contra many
        exact below (pendingBits - 8) (by omega)
      have kept : Holds (keepBits data pendingBits (nextMask 8) 0)
          ([] ++ bitsOf pendingBits data.toNat) := holds_keepBits data holds_nil rfl few.le
      rw [List.nil_append] at kept
      exact ⟨bitsOf pendingBits data.toNat, length_bitsOf _ _, by rwa [length_bitsOf],
        clear ▸ kept, rfl⟩

theorem nextMask_room {number : Nat} (few : number < 8) :
    0x80 >>> UInt8.ofNat number = nextMask (8 - number) := by
  revert number
  decide

/-- `SerializeBitset` adds its bits behind the others. -/
theorem Packs.serializeBitset (packs : Packs self bits) (data : BitVec size)
    (small : size < 2 ^ 8) :
    Packs (self.serializeBitset data) (bits ++ bitsOf size data.toNat) := by
  obtain ⟨left, number, few, holds, rfl⟩ := packs.pending
  rw [Asn1Header.serializeBitset]
  by_cases empty : size = 0
  · subst empty
    rw [if_pos rfl, bitsOf, List.append_nil]
    exact packs
  rw [if_neg empty, if_pos (small.le.trans (by decide)), Nat.mod_eq_of_lt small, fillPending,
    ← number]
  by_cases some : left.length > 0
  · rw [if_pos some, nextMask_room few]
    have completed : Completed data (left ++ bitsOf size data.toNat)
        (completeOctet data size (nextMask (8 - left.length)) self.serializationPendingBits
          left.length) := completed_completeOctet data holds (by omega)
    generalize completeOctet data size _ _ _ = result at completed ⊢
    obtain ⟨now, length, held, split, stops⟩ := completed.pending
    obtain ⟨pendingBits, octet, count⟩ := result
    dsimp only at length held split stops ⊢
    have fits := held.fits
    rw [List.append_assoc, split]
    by_cases full : count ≥ 8
    · rw [if_pos full, ← held.full (by omega), ← List.append_assoc]
      have packs := packs_writeOctets data pendingBits
        { self.writeOctet octet with
          numSerializationPendingBits := 0, serializationPendingBits := 0 } rfl rfl
      rwa [writeOctet, octetBits_append, octetBits_cons, octetBits_nil, List.append_nil] at packs
    · have done : pendingBits = 0 := by omega
      rw [if_neg full, done, bitsOf, List.append_nil]
      exact ⟨now, length, by omega, held, rfl⟩
  · rw [if_neg some]
    have nothing : left = [] := by
      apply List.length_eq_zero_iff.mp
      omega
    rw [nothing] at number holds ⊢
    rw [List.append_nil]
    exact packs_writeOctets data size self number.symm holds.zero

/-- `FinalizeSerialization` completes the last octet with zeros. -/
theorem Packs.finalizeSerialization (packs : Packs self bits) :
    ∃ padding < 8, octetBits self.finalizeSerialization.serializationResult =
      bits ++ List.replicate padding false := by
  obtain ⟨left, number, few, holds, rfl⟩ := packs.pending
  rw [Asn1Header.finalizeSerialization, ← number]
  by_cases some : left.length > 0
  · refine ⟨8 - left.length, by omega, ?_⟩
    rw [if_pos some, List.append_assoc, ← holds.padded, Asn1Header.serializeBitset,
      if_neg (by decide), if_pos (by decide), fillPending, if_neg (Nat.lt_irrefl 0)]
    dsimp only
    change octetBits (writeOctet _
      (octetToWrite self.serializationPendingBits.toBitVec (0 + 8) 8 1 0)).serializationResult = _
    rw [writeOctet, octetBits_append, octetBits_cons, octetBits_nil, List.append_nil,
      bitsOf_octetToWrite]
    rfl
  · have nothing : left = [] := by
      apply List.length_eq_zero_iff.mp
      omega
    rw [if_neg some, nothing]
    exact ⟨0, by decide, by rw [List.append_nil, List.replicate_zero, List.append_nil]⟩

/-- The highest bits are there already. -/
def Agrees (data value : BitVec size) (bitsToRead : Nat) : Prop :=
  ∀ i, bitsToRead ≤ i → i < size → data.getLsbD i = value.getLsbD i

theorem getLsbD_setBit (data : BitVec size) (position i : Nat) (bit : Bool) (inside : i < size) :
    (setBit data position bit).getLsbD i = if i = position then bit else data.getLsbD i := by
  by_cases here : i = position
  · subst here
    cases bit <;> simp [setBit, inside]
  · cases bit <;> simp [setBit, inside, here]

theorem Agrees.setBit {data value : BitVec size} {bitsToRead : Nat}
    (agrees : Agrees data value (bitsToRead + 1)) :
    Agrees (setBit data bitsToRead (value.getLsbD bitsToRead)) value bitsToRead := by
  intro i above inside
  rw [getLsbD_setBit _ _ _ _ inside]
  by_cases here : i = bitsToRead
  · rw [if_pos here, here]
  · rw [if_neg here]
    exact agrees i (by omega) inside

theorem Agrees.all {data value : BitVec size} (agrees : Agrees data value 0) : data = value :=
  BitVec.eq_of_getLsbD_eq fun i inside => agrees i (Nat.zero_le i) inside

theorem agrees_size (data value : BitVec size) : Agrees data value size :=
  fun _ above inside => absurd inside (Nat.not_lt.mpr above)

/-- The bits that could not be read from the pending octet come from the input. -/
structure Drained (value : BitVec size) (input : List UInt8) (rest : List Bool)
    (result : Nat × BitVec size × UInt8 × Nat) : Prop where
  agrees : Agrees result.2.1 value result.1
  pending : ∃ left : List Bool, left.length = result.2.2.2 ∧ left.length < 8 ∧
    Holds result.2.2.1 left ∧
    bitsOf result.1 value.toNat ++ rest = left ++ octetBits input ∧
    (result.1 = 0 ∨ left = [])

theorem drained_readPending {data value : BitVec size} {bitsToRead : Nat} {octet : UInt8}
    {left : List Bool} (few : left.length < 8) (holds : Holds octet left)
    (agrees : Agrees data value bitsToRead)
    (offered : bitsOf bitsToRead value.toNat ++ rest = left ++ octetBits input) :
    Drained value input rest (readPending bitsToRead data octet left.length) := by
  induction bitsToRead generalizing data octet left with
  | zero => exact ⟨agrees, left, rfl, few, holds, offered, .inl rfl⟩
  | succ bitsToRead inductionHypothesis =>
      cases left with
      | nil => exact ⟨agrees, [], rfl, few, holds, offered, .inr rfl⟩
      | cons bit left =>
          rw [bitsOf, BitVec.testBit_toNat] at offered
          obtain ⟨same, offered⟩ := List.cons.inj offered
          rw [List.length_cons] at few
          rw [List.length_cons, readPending, holds.head, ← same]
          exact inductionHypothesis (by omega) holds.tail agrees.setBit offered

theorem agrees_readBits {data value : BitVec size} {octet : UInt8} {room base count : Nat}
    (fits : room ≤ 8) (other : List Bool)
    (bits : bitsOf room octet.toNat = bitsOf count (value.toNat >>> base) ++ other)
    (agrees : Agrees data value (base + count)) :
    Agrees (readBits octet count (base + count) (nextMask room) data) value base := by
  induction count generalizing room data with
  | zero => exact agrees
  | succ count inductionHypothesis =>
      cases room with
      | zero => cases bits
      | succ room =>
          rw [bitsOf, bitsOf, List.cons_append] at bits
          obtain ⟨bit, bits⟩ := List.cons.inj bits
          rw [Nat.testBit_shiftRight, BitVec.testBit_toNat] at bit
          rw [readBits, nextMask_half (by omega), decide_and_mask octet (by omega), bit]
          exact inductionHypothesis (by omega) bits agrees.setBit

/-- The octets are read when no bit is pending. -/
theorem offers_readOctets {data value : BitVec size} {bitsToRead : Nat} {self : Asn1Header}
    {input : List UInt8} (agrees : Agrees data value bitsToRead)
    (none : self.numSerializationPendingBits = 0) (clear : self.serializationPendingBits = 0)
    (offered : bitsOf bitsToRead value.toNat ++ rest = octetBits input) :
    ∃ after left, readOctets bitsToRead data self input = some (value, after, left) ∧
      Offers after left rest := by
  fun_induction readOctets bitsToRead data self input with
  | case1 data self input =>
      exact ⟨self, input, by rw [agrees.all], [], none.symm, by decide, clear ▸ holds_nil,
        offered⟩
  | case2 bitsToRead data self => cases offered
  | case3 bitsToRead data self octet input inductionHypothesis =>
      have split : bitsOf (bitsToRead + 8) value.toNat =
          bitsOf 8 (value.toNat >>> bitsToRead) ++ bitsOf bitsToRead value.toNat := by
        rw [Nat.add_comm, bitsOf_append]
      change bitsOf (bitsToRead + 8) _ ++ _ = _ at offered
      rw [split, octetBits_cons, List.append_assoc] at offered
      obtain ⟨first, others⟩ := List.append_inj offered (by rw [length_bitsOf, length_bitsOf])
      apply inductionHypothesis _ none clear others
      apply agrees_readBits le_rfl []
      · rw [List.append_nil, first]
      · exact agrees
  | case4 bitsToRead data self octet input positive below =>
      have few : bitsToRead < 8 := by
        by_contra many
        exact below (bitsToRead - 8) (by omega)
      have split : bitsOf 8 octet.toNat =
          bitsOf bitsToRead (octet.toNat >>> (8 - bitsToRead)) ++
            bitsOf (8 - bitsToRead) octet.toNat := by
        rw [← bitsOf_append, Nat.add_sub_cancel' few.le]
      rw [octetBits_cons, split, List.append_assoc] at offered
      obtain ⟨first, others⟩ := List.append_inj offered (by rw [length_bitsOf, length_bitsOf])
      have whole : Agrees (readBits octet bitsToRead bitsToRead 0x80 data) value 0 := by
        have read : Agrees (readBits octet bitsToRead (0 + bitsToRead) (nextMask 8) data) value 0 :=
          agrees_readBits le_rfl (bitsOf (8 - bitsToRead) octet.toNat)
            (by rw [split, ← first, Nat.shiftRight_zero]) (by rwa [Nat.zero_add])
        rwa [Nat.zero_add] at read
      rw [whole.all]
      have positive : 0 < bitsToRead := Nat.pos_of_ne_zero fun zero => positive zero
      exact ⟨_, _, rfl, bitsOf (8 - bitsToRead) octet.toNat, length_bitsOf _ _,
        by rw [length_bitsOf]; omega, holds_shiftLeft octet few, others⟩

/-- `DeserializeBitset` reads its bits before the others. -/
theorem Offers.deserializeBitset {value : BitVec size}
    (offers : Offers self input (bitsOf size value.toNat ++ rest)) (data : BitVec size) :
    ∃ after left, self.deserializeBitset data input = some (value, after, left) ∧
      Offers after left rest := by
  obtain ⟨left, number, few, holds, offered⟩ := offers.pending
  have drained := drained_readPending few holds (agrees_size data value) offered
  rw [Asn1Header.deserializeBitset, ← number]
  generalize readPending _ _ _ _ = result at drained ⊢
  obtain ⟨bitsToRead, data, octet, count⟩ := result
  obtain ⟨now, length, few, held, offered, stops⟩ := drained.pending
  have agrees := drained.agrees
  dsimp only at length held offered stops agrees ⊢
  rcases stops with done | empty
  · subst done
    rw [agrees.all]
    exact ⟨_, _, rfl, now, length, few, held, offered⟩
  · subst empty
    exact offers_readOctets agrees length.symm held.zero offered

/-- Less than an octet of padding was read with the last value. -/
theorem Offers.input_eq {padding : Nat} (few : padding < 8) {data : List UInt8}
    (offers : Offers self input (List.replicate padding false ++ octetBits data)) :
    input = data := by
  obtain ⟨left, -, short, -, offered⟩ := offers.pending
  have lengths := congrArg List.length offered
  rw [List.length_append, List.length_append, length_octetBits, length_octetBits,
    List.length_replicate] at lengths
  have same : (List.replicate padding false).length = left.length := by
    rw [List.length_replicate]
    omega
  exact (octetBits_injective (List.append_inj_right offered same)).symm

end Ns3.Lte.Asn1Header
