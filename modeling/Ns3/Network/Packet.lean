import Ns3.Network.Buffer.Concatenation

/-!
`ns3::Packet`, as far as its buffer goes.

A program removes any number of bytes from its packets and pads them by any number. A removal
goes wrong where the new start passes 32 bits, and padding shows what was behind the data before.
-/

namespace Ns3.Network

open Library

namespace Buffer

section

variable (heap : BufferHeap) (buffer : Buffer) (count : Nat)

/-- What `RemoveAtStart` and `RemoveAtEnd` should do, however much is removed. -/
structure Removes : Prop where
  atStart : (buffer.removeAtStart count).content heap =
    (buffer.content heap).drop (min count buffer.getSize)
  atEnd : (buffer.removeAtEnd count).content heap =
    (buffer.content heap).take (buffer.getSize - min count buffer.getSize)
  startShaped : (buffer.removeAtStart count).Shaped
  endShaped : (buffer.removeAtEnd count).Shaped

variable (garbage : Nat → Memory UInt8)

/-- The bytes behind the data in the block that `AddAtEnd` extends the buffer in: its own one, or
the one that is allocated. -/
def behind : List UInt8 :=
  if EndsInPlace heap buffer count then
    (heap.block buffer.data).data.read buffer.getInternalEnd count
  else
    let created := heap.create garbage (buffer.getInternalSize + count)
    (created.2.block created.1).data.read buffer.getInternalSize count

/-- The offsets that `AddAtEnd` comes to fit in 32 bits, and so does the block with its header. -/
def GapFits : Prop :=
  buffer.stop + count < 2 ^ 32 ∧ buffer.getInternalSize + count + 19 < 2 ^ 32

instance : Decidable (GapFits buffer count) := inferInstanceAs (Decidable (_ ∧ _))

/-- `Packet::AddPaddingAtEnd`. -/
def addPaddingAtEnd : BufferHeap × Buffer := addAtEnd garbage heap buffer count

/-- What `AddPaddingAtEnd` should do. -/
def Pads : Prop :=
  (addPaddingAtEnd heap buffer count garbage).2.content (addPaddingAtEnd heap buffer count garbage).1 =
    buffer.content heap ++ List.replicate count 0

end

variable {heap : BufferHeap} {self : Buffer} {count : Nat}

theorem Shaped.drop_min (shaped : self.Shaped) (heap : BufferHeap) (count : Nat) :
    (self.content heap).drop (min count self.getSize) = (self.content heap).drop count := by
  have size : (self.content heap).length = self.getSize := shaped.length_content
  rw [← size]
  rcases Nat.le_total count (self.content heap).length with within | beyond
  · rw [Nat.min_eq_left within]
  · rw [Nat.min_eq_right beyond, List.drop_length, List.drop_of_length_le beyond]

/-- A removal does what it should unless the new start passes 32 bits. -/
theorem Shaped.removes_iff (shaped : self.Shaped) (small : count < 2 ^ 32) (heap : BufferHeap) :
    Removes heap self count ↔ self.start + count < 2 ^ 32 := by
  have fromEnd := shaped.removeAtEnd_min count heap
  constructor
  · intro removes
    apply Nat.lt_of_not_le
    intro wraps
    obtain ⟨startShaped, grown⟩ := removeAtStart_wraps small shaped wraps
    -- So many bytes are all of the buffer, but some are left.
    have none : (self.content heap).drop (min count self.getSize) = [] := by
      have fits := shaped.fits
      rw [shaped.drop_min, List.drop_eq_nil_iff, shaped.length_content, getSize]
      omega
    have size := @Shaped.length_content heap _ startShaped
    have window : self.start ≤ self.stop := shaped.front.trans (shaped.zeroes.trans shaped.back)
    rw [removes.atStart, none, List.length_nil] at size
    omega
  · intro fits
    have fromStart := shaped.removeAtStart_of_fits fits heap
    exact ⟨fromStart.content.trans (shaped.drop_min heap count).symm, fromEnd.content,
      fromStart.shaped, fromEnd.shaped⟩

theorem Shaped.behind_inPlace (shaped : self.Shaped) (garbage : Nat → Memory UInt8)
    (fits : GapFits self count) (inPlace : EndsInPlace heap self count) :
    ((addAtEnd garbage heap self count).1.block
        (addAtEnd garbage heap self count).2.data).data.read
      ((addAtEnd garbage heap self count).2.getInternalEnd - count) count =
        behind heap self count garbage := by
  have window : self.zeroSize ≤ self.stop :=
    (Nat.sub_le _ _).trans shaped.back
  have last : self.stop + count - self.zeroSize - count = self.getInternalEnd := by
    rw [Nat.sub_right_comm, Nat.add_sub_cancel]
    rfl
  unfold addAtEnd behind
  rw [if_pos inPlace, if_pos inPlace, wrap_of_lt fits.1]
  dsimp only
  rw [BufferHeap.setDirty_data]
  exact congrArg (Memory.read _ · count) last

theorem Shaped.behind_moved (shaped : self.Shaped) (garbage : Nat → Memory UInt8)
    (fits : GapFits self count) (moves : ¬ EndsInPlace heap self count) :
    ((addAtEnd garbage heap self count).1.block
        (addAtEnd garbage heap self count).2.data).data.read
      ((addAtEnd garbage heap self count).2.getInternalEnd - count) count =
        behind heap self count garbage := by
  have size : self.getSize + 0 + count < 2 ^ 32 :=
    lt_of_le_of_lt (Nat.add_le_add_right (Nat.sub_le _ _) count) fits.1
  have moved := @Shaped.moveTo_eq heap self shaped garbage _ _ size fits.2
  unfold addAtEnd behind
  rw [if_neg moves, if_neg moves, moved]
  dsimp only
  rw [Nat.zero_add]
  have last : (self.movedTo (heap.create garbage (self.getInternalSize + count)).1 0
      count).getInternalEnd - count = self.getInternalSize := by
    rw [movedTo_internalEnd, Nat.zero_add, Nat.add_sub_cancel]
  generalize heap.create garbage (self.getInternalSize + count) = created at last ⊢
  have data : (self.movedTo created.1 0 count).noteZeroArea.data = created.1 := rfl
  have internalEnd : (self.movedTo created.1 0 count).noteZeroArea.getInternalEnd =
      (self.movedTo created.1 0 count).getInternalEnd := rfl
  rw [data, internalEnd, last, BufferHeap.setDirty_data, BufferHeap.release_block,
    BufferHeap.store, BufferHeap.set_block_self]
  dsimp only
  apply Memory.read_write_of_disjoint
  rw [Memory.length_read, Nat.zero_add]
  exact .inr le_rfl

end Buffer

open Buffer

variable {heap : BufferHeap} {others : Multiset Buffer} {self : Buffer} {count : Nat}

theorem Valid.removeAtStart_of_fits (valid : Valid heap (self ::ₘ others))
    (fits : self.start + count < 2 ^ 32) :
    Changes heap others ((self.content heap).drop count) (heap, self.removeAtStart count) :=
  valid.shorten ((valid.shaped self (Multiset.mem_cons_self _ _)).removeAtStart_of_fits fits heap)

theorem Valid.removeAtEnd_min (valid : Valid heap (self ::ₘ others)) :
    Changes heap others ((self.content heap).take (self.getSize - min count self.getSize))
      (heap, self.removeAtEnd count) :=
  valid.shorten ((valid.shaped self (Multiset.mem_cons_self _ _)).removeAtEnd_min count heap)

/-- Padding adds what is behind the data. -/
theorem Valid.addPaddingAtEnd_content (valid : Valid heap (self ::ₘ others))
    (garbage : Nat → Memory UInt8) (fits : GapFits self count) :
    (addPaddingAtEnd heap self count garbage).2.content
        (addPaddingAtEnd heap self count garbage).1 =
      self.content heap ++ behind heap self count garbage := by
  have opens := valid.addAtEnd garbage fits.1 fits.2
  have shaped := valid.shaped self (Multiset.mem_cons_self _ _)
  have opened := opens.valid.shaped _ (Multiset.mem_cons_self _ _)
  have tail : ((Buffer.addAtEnd garbage heap self count).1.block
        (Buffer.addAtEnd garbage heap self count).2.data).data.read
      ((Buffer.addAtEnd garbage heap self count).2.getInternalEnd - count) count =
        behind heap self count garbage := by
    by_cases inPlace : EndsInPlace heap self count
    · exact shaped.behind_inPlace garbage fits inPlace
    · exact shaped.behind_moved garbage fits inPlace
  rw [addPaddingAtEnd, content_split_back opened opens.backWithin, tail, ← opens.kept]
  rfl

theorem Valid.pads_iff (valid : Valid heap (self ::ₘ others)) (garbage : Nat → Memory UInt8)
    (fits : GapFits self count) :
    Pads heap self count garbage ↔ behind heap self count garbage = List.replicate count 0 := by
  rw [Pads, valid.addPaddingAtEnd_content garbage fits]
  exact List.append_right_inj _

/-- The calls on packets that change their buffers. A header is added with `AddAtStart` and a
trailer with `AddAtEnd`, and those that come with `buffer` remove no more than there is. -/
inductive PacketCall where
  | buffer (call : BufferCall)
  | removeAtStart (i size : Nat)
  | removeAtEnd (i size : Nat)
  | addPaddingAtEnd (i size : Nat)
  deriving DecidableEq, Repr

namespace BufferPool

variable (garbage : Nat → Memory UInt8)

/-- The pool after a call on a packet. -/
def packetCall (pool : BufferPool) : PacketCall → BufferPool
  | .buffer call => pool.call garbage call
  | .removeAtStart i size => pool.step garbage (.removeAtStart i size)
  | .removeAtEnd i size => pool.step garbage (.removeAtEnd i size)
  | .addPaddingAtEnd i size =>
      match pool.buffers[i]? with
      | some self => pool.put i (Buffer.addPaddingAtEnd pool.heap self size garbage)
      | none => pool

/-- Sizes are words of 32 bits. -/
def Admits (pool : BufferPool) : PacketCall → Prop
  | .buffer call => pool.Callable call
  | .removeAtStart i size => (pool.Has i fun _ => True) ∧ size < 2 ^ 32
  | .removeAtEnd i size => (pool.Has i fun _ => True) ∧ size < 2 ^ 32
  | .addPaddingAtEnd i size => (pool.Has i fun _ => True) ∧ size < 2 ^ 32

instance (pool : BufferPool) : ∀ call, Decidable (pool.Admits call)
  | .buffer call => inferInstanceAs (Decidable (pool.Callable call))
  | .removeAtStart i size => inferInstanceAs (Decidable ((pool.Has i fun _ => True) ∧ size < 2 ^ 32))
  | .removeAtEnd i size => inferInstanceAs (Decidable ((pool.Has i fun _ => True) ∧ size < 2 ^ 32))
  | .addPaddingAtEnd i size =>
      inferInstanceAs (Decidable ((pool.Has i fun _ => True) ∧ size < 2 ^ 32))

/-- No offset passes 32 bits, and buffers that are joined can be. -/
def InWord (pool : BufferPool) : PacketCall → Prop
  | .buffer call => pool.Sound garbage call
  | .removeAtStart i size => pool.Has i fun self => self.start + size < 2 ^ 32
  | .removeAtEnd _ _ => True
  | .addPaddingAtEnd i size => pool.Has i fun self => self.GapFits size

instance (pool : BufferPool) : ∀ call, Decidable (pool.InWord garbage call)
  | .buffer call => inferInstanceAs (Decidable (pool.Sound garbage call))
  | .removeAtStart i size =>
      inferInstanceAs (Decidable (pool.Has i fun self => self.start + size < 2 ^ 32))
  | .removeAtEnd _ _ => .isTrue trivial
  | .addPaddingAtEnd i size => inferInstanceAs (Decidable (pool.Has i fun self => self.GapFits size))

def packetMachine : Machine BufferPool PacketCall where
  step := packetCall garbage
  Enabled := Admits

instance : ∀ pool call, Decidable ((packetMachine garbage).Enabled pool call) :=
  fun pool call => inferInstanceAs (Decidable (pool.Admits call))

variable {garbage} {pool : BufferPool}

theorem valid_call (valid : Valid pool.heap pool.buffers) {call : BufferCall}
    (callable : pool.Callable call) (sound : pool.Sound garbage call) :
    Valid (pool.call garbage call).heap (pool.call garbage call).buffers := by
  have stands : Stands pool (pool.buffers.map (Buffer.content pool.heap)) := ⟨valid, rfl⟩
  exact (stands.call callable sound).valid

/-- Every call leaves buffers that share their blocks in order. -/
theorem valid_packetCall (valid : Valid pool.heap pool.buffers) {call : PacketCall}
    (admits : pool.Admits call) (inWord : pool.InWord garbage call) :
    Valid (pool.packetCall garbage call).heap (pool.packetCall garbage call).buffers := by
  have stands : Stands pool (pool.buffers.map (Buffer.content pool.heap)) := ⟨valid, rfl⟩
  cases call with
  | buffer call => exact valid_call valid admits inWord
  | removeAtStart i size =>
      obtain ⟨self, found, fits⟩ := Has.found inWord
      simp only [packetCall, step, found]
      exact (stands.put found ((stands.operand found).removeAtStart_of_fits fits)).valid
  | removeAtEnd i size =>
      obtain ⟨self, found, _⟩ := Has.found admits.1
      simp only [packetCall, step, found]
      exact (stands.put found (stands.operand found).removeAtEnd_min).valid
  | addPaddingAtEnd i size =>
      obtain ⟨self, found, fits⟩ := Has.found inWord
      have opened := (stands.operand found).addAtEnd garbage fits.1 fits.2
      simp only [packetCall, found]
      exact (stands.put found ⟨opened.valid, rfl, opened.frame⟩).valid

theorem always_valid {calls : List PacketCall} (legal : (packetMachine garbage).Legal empty calls)
    (inWord : (packetMachine garbage).Along (InWord garbage) empty calls) :
    (packetMachine garbage).Always (fun pool => Valid pool.heap pool.buffers) empty calls :=
  Machine.Legal.always_of_along
    (fun _ _ valid admits inWord => valid_packetCall valid admits inWord) Valid.empty legal inWord

/-- Removing bytes from any buffer of the pool does what it should just where the new start is a
word of 32 bits. -/
def RemovesInWord (pool : BufferPool) : Prop :=
  ∀ self ∈ pool.buffers, ∀ count < 2 ^ 32,
    Buffer.Removes pool.heap self count ↔ self.start + count < 2 ^ 32

/-- Padding of any buffer of the pool is zero just where the bytes behind the data are. -/
def PadsCleared (garbage : Nat → Memory UInt8) (pool : BufferPool) : Prop :=
  ∀ self ∈ pool.buffers, ∀ count, self.GapFits count →
    (Buffer.Pads pool.heap self count garbage ↔
      Buffer.behind pool.heap self count garbage = List.replicate count 0)

theorem bufferPool_removes_iff (garbage : Nat → Memory UInt8) (calls : List PacketCall)
    (legal : (packetMachine garbage).Legal empty calls)
    (inWord : (packetMachine garbage).Along (InWord garbage) empty calls) :
    (packetMachine garbage).Always RemovesInWord empty calls := by
  refine (always_valid legal inWord).mono fun pool valid self held count small => ?_
  exact (valid.shaped self held).removes_iff small pool.heap

/-- More is removed at the end of a packet than there is, and then at its start. -/
theorem bufferPool_removes_iff_short_run :
    (packetMachine fun _ _ => 0).Always RemovesInWord empty
      [.buffer (.plain (.construct 2)), .buffer (.plain (.addAtStart 0 [5])), .addPaddingAtEnd 0 1,
        .removeAtEnd 0 3000000000, .removeAtStart 0 4000000000] :=
  bufferPool_removes_iff _ _ (by decide) (by decide)

/-- A byte that was removed at the start comes back. -/
theorem not_bufferPool_removes :
    ¬ ∀ calls, (packetMachine fun _ _ => 0).Legal empty calls →
      (packetMachine fun _ _ => 0).Always (fun pool => ∀ self ∈ pool.buffers, ∀ count < 2 ^ 32,
        Buffer.Removes pool.heap self count) empty calls := by
  intro always
  have removes := (always [.buffer (.plain (.construct 0)), .buffer (.plain (.addAtEnd 0 [1, 2])),
    .removeAtStart 0 1] (by decide)).last ⟨1, 1, 1, 1, 1, 2⟩ (by decide) 4294967295 (by decide)
  have content := removes.atStart
  revert content
  decide

theorem bufferPool_pads_iff (garbage : Nat → Memory UInt8) (calls : List PacketCall)
    (legal : (packetMachine garbage).Legal empty calls)
    (inWord : (packetMachine garbage).Along (InWord garbage) empty calls) :
    (packetMachine garbage).Always (PadsCleared garbage) empty calls := by
  refine (always_valid legal inWord).mono fun pool valid self held count fits => ?_
  obtain ⟨i, found⟩ := List.getElem?_of_mem held
  have stands : Stands pool (pool.buffers.map (Buffer.content pool.heap)) := ⟨valid, rfl⟩
  exact (stands.operand found).pads_iff garbage fits

theorem bufferPool_pads_iff_short_run :
    (packetMachine fun _ _ => 0).Always (PadsCleared fun _ _ => 0) empty
      [.buffer (.plain (.construct 2)), .buffer (.plain (.addAtStart 0 [5])), .addPaddingAtEnd 0 1,
        .buffer (.plain (.copy 0)), .removeAtEnd 1 2, .addPaddingAtEnd 1 3] :=
  bufferPool_pads_iff _ _ (by decide) (by decide)

/-- A byte of a trailer that was removed shows as padding. -/
theorem not_bufferPool_pads :
    ¬ ∀ calls, (packetMachine fun _ _ => 0).Legal empty calls →
      (packetMachine fun _ _ => 0).Always (fun pool => ∀ self ∈ pool.buffers, ∀ count,
        self.GapFits count → Buffer.Pads pool.heap self count fun _ _ => 0) empty calls := by
  intro always
  have pads := (always [.buffer (.plain (.construct 0)), .buffer (.plain (.addAtEnd 0 [7])),
    .removeAtEnd 0 1] (by decide)).last ⟨0, 0, 0, 0, 0, 0⟩ (by decide) 1 (by decide)
  unfold Buffer.Pads at pads
  revert pads
  decide

end BufferPool

end Ns3.Network
