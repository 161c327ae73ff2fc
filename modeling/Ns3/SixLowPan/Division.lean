import Ns3.SixLowPan.Fragmentation

/-!
The fragments that `DoFragmentation` makes.

The positions on the link are those in the packet before it was compressed. The first fragment
stands for the headers as they were, and from its end on the two packets differ by a shift.
-/

namespace Ns3.SixLowPan

open Library

namespace SixLowPanFragment

/-- The position of a fragment, as `ProcessFragment` reads it. -/
def position (self : SixLowPanFragment) : Nat :=
  if self.isFirst then 0 else wrap 16 (self.datagramOffset * 8)

/-- What a fragment that is not the first one holds, with its position. -/
def chunk (self : SixLowPanFragment) : Chunk UInt8 := (self.position, self.payload)

end SixLowPanFragment

namespace FragmentationRequest

/-- A packet that is too long for the link, with a compressed header that leaves eight bytes of
the first fragment. -/
structure Valid (request : FragmentationRequest) : Prop where
  short : request.origPacketSize < 2048
  headerLe : request.origHdrSize ≤ request.origPacketSize
  aligned : request.origHdrSize % 8 = 0
  compressed : request.origPacketSize - request.origHdrSize < request.packet.length
  packetFits : request.packet.length < 2 ^ 16
  mtuFits : request.l2Mtu < 2 ^ 16
  exceeds : request.l2Mtu < request.packet.length + request.extraHdrSize
  room : request.packet.length - (request.origPacketSize - request.origHdrSize) + request.extraHdrSize + 12 ≤
    request.l2Mtu

instance (self : FragmentationRequest) : Decidable self.Valid :=
  decidable_of_iff
    (self.origPacketSize < 2048 ∧ self.origHdrSize ≤ self.origPacketSize ∧
      self.origHdrSize % 8 = 0 ∧ self.origPacketSize - self.origHdrSize < self.packet.length ∧
      self.packet.length < 2 ^ 16 ∧ self.l2Mtu < 2 ^ 16 ∧
      self.l2Mtu < self.packet.length + self.extraHdrSize ∧
      self.packet.length - (self.origPacketSize - self.origHdrSize) + self.extraHdrSize + 12 ≤
        self.l2Mtu)
    ⟨fun ⟨short, headerLe, aligned, compressed, packetFits, mtuFits, exceeds, room⟩ =>
      ⟨short, headerLe, aligned, compressed, packetFits, mtuFits, exceeds, room⟩,
      fun ⟨short, headerLe, aligned, compressed, packetFits, mtuFits, exceeds, room⟩ =>
        ⟨short, headerLe, aligned, compressed, packetFits, mtuFits, exceeds, room⟩⟩

variable {self : FragmentationRequest}

theorem Valid.compressedHeaderSize_eq (valid : self.Valid) :
    self.compressedHeaderSize = self.packet.length - (self.origPacketSize - self.origHdrSize) := by
  obtain ⟨short, headerLe, -, compressed, packetFits, -, -, -⟩ := valid
  unfold compressedHeaderSize
  rw [wrapSub_of_le headerLe (by omega), wrapSub_of_le (by omega) (by omega)]

theorem Valid.firstSize_eq (valid : self.Valid) :
    self.firstSize = rounded (self.l2Mtu - 4 - self.compressedHeaderSize - self.extraHdrSize) +
      self.compressedHeaderSize := by
  have header := valid.compressedHeaderSize_eq
  obtain ⟨short, headerLe, -, compressed, packetFits, mtuFits, -, room⟩ := valid
  have size : SixLowPanFragment.frag1Size = 4 := rfl
  unfold firstSize
  have behindFrag : wrapSub 32 self.l2Mtu SixLowPanFragment.frag1Size = self.l2Mtu - 4 := by
    rw [size, wrapSub_of_le (by omega) (by omega)]
  have behindHeader : wrapSub 32 (self.l2Mtu - 4) self.compressedHeaderSize =
      self.l2Mtu - 4 - self.compressedHeaderSize := wrapSub_of_le (by omega) (by omega)
  rw [behindFrag, behindHeader, wrapSub_of_le (by omega) (by omega)]
  apply wrap_of_lt
  unfold rounded
  omega

theorem Valid.nextSize_eq (valid : self.Valid) :
    self.nextSize = rounded (self.l2Mtu - 5 - self.extraHdrSize) := by
  have size : SixLowPanFragment.fragNSize = 5 := rfl
  obtain ⟨-, -, -, -, -, mtuFits, -, room⟩ := valid
  unfold nextSize
  have behindHeader : wrapSub 32 self.l2Mtu SixLowPanFragment.fragNSize = self.l2Mtu - 5 := by
    rw [size, wrapSub_of_le (by omega) (by omega)]
  rw [behindHeader, wrapSub_of_le (by omega) (by omega)]

/-- Every fragment that is not the last one holds units of eight bytes, and at least one. -/
theorem Valid.nextSize_bounds (valid : self.Valid) :
    8 ≤ self.nextSize ∧ self.nextSize % 8 = 0 ∧
      self.nextSize + 5 + self.extraHdrSize ≤ self.l2Mtu := by
  have next := valid.nextSize_eq
  obtain ⟨-, -, -, compressed, -, -, -, room⟩ := valid
  rw [next]
  unfold rounded
  omega

theorem Valid.firstSize_bounds (valid : self.Valid) :
    self.compressedHeaderSize + 8 ≤ self.firstSize ∧
      (self.firstSize - self.compressedHeaderSize) % 8 = 0 ∧
      self.firstSize + 4 + self.extraHdrSize ≤ self.l2Mtu ∧
      self.firstSize < self.packet.length := by
  have first := valid.firstSize_eq
  have header := valid.compressedHeaderSize_eq
  obtain ⟨-, -, -, compressed, -, -, exceeds, room⟩ := valid
  rw [first]
  unfold rounded
  omega

/-- What the loop makes of the bytes that are left. -/
structure Rest (request : FragmentationRequest) (offset offsetData : Nat)
    (fragments : List SixLowPanFragment) : Prop where
  tiles : Tiles offset (fragments.map SixLowPanFragment.chunk)
  whole : (fragments.map SixLowPanFragment.payload).flatten = request.packet.drop offsetData
  fits : ∀ fragment ∈ fragments, fragment.size + request.extraHdrSize ≤ request.l2Mtu
  header : ∀ fragment ∈ fragments, fragment.isFirst = false ∧
    fragment.datagramSize = wrap 11 request.origPacketSize ∧
    fragment.datagramTag = wrap 16 request.tag

theorem rest_nil {offset offsetData : Nat} (finished : self.packet.length ≤ offsetData) :
    self.Rest offset offsetData [] := by
  refine ⟨trivial, ?_, fun _ member => (nomatch member), fun _ member => (nomatch member)⟩
  rw [List.drop_of_length_le finished]
  rfl

/-- A fragment in front of the others. -/
theorem Valid.rest_cons (valid : self.Valid) {offset offsetData size : Nat}
    {fragments : List SixLowPanFragment} (aligned : offset % 8 = 0)
    (before : offset < self.origPacketSize) (some : 0 < size) (small : size ≤ self.nextSize)
    (inside : offsetData + size ≤ self.packet.length)
    (rest : self.Rest (offset + size) (offsetData + size) fragments) :
    self.Rest offset offsetData
      (.fragN self.origPacketSize self.tag (offset / 8) (self.createFragment offsetData size) ::
        fragments) := by
  have short := valid.short
  have fits := valid.nextSize_bounds.2.2
  have byte : wrap 8 (offset / 8) = offset / 8 := wrap_of_lt (by omega)
  have back : wrap 16 (offset / 8 * 8) = offset := by
    rw [Nat.div_mul_cancel (Nat.dvd_of_mod_eq_zero aligned)]
    exact wrap_of_lt (by omega)
  have length : (self.createFragment offsetData size).length = size := by
    unfold createFragment
    rw [List.length_take, List.length_drop]
    omega
  have chunk : (SixLowPanFragment.fragN self.origPacketSize self.tag (offset / 8)
      (self.createFragment offsetData size)).chunk =
        (offset, self.createFragment offsetData size) := by
    simp only [SixLowPanFragment.chunk, SixLowPanFragment.position, SixLowPanFragment.fragN, byte,
      back, Bool.false_eq_true, if_false]
  constructor
  · rw [List.map_cons, chunk]
    refine ⟨rfl, ?_, ?_⟩
    · exact List.length_pos_iff.mp (by rw [length]; exact some)
    · dsimp only
      rw [length]
      exact rest.tiles
  · rw [List.map_cons, List.flatten_cons, rest.whole, ← List.drop_drop]
    exact List.take_append_drop size (self.packet.drop offsetData)
  · intro fragment member
    rcases List.mem_cons.mp member with rfl | later
    · have header : SixLowPanFragment.fragNSize = 5 := rfl
      simp only [SixLowPanFragment.size, SixLowPanFragment.fragN, length, header,
        Bool.false_eq_true, if_false]
      omega
    · exact rest.fits fragment later
  · intro fragment member
    rcases List.mem_cons.mp member with rfl | later
    · exact ⟨rfl, rfl, rfl⟩
    · exact rest.header fragment later

/-- The loop ends, and the fragments that it makes are the tiles of what is left. -/
theorem Valid.fragmentLoop_spec (valid : self.Valid) (left : Nat) {offset offsetData : Nat}
    (inside : offsetData + left = self.packet.length) (aligned : offset % 8 = 0)
    (shift : offset + left = self.origPacketSize) :
    ∃ fragments, self.Rest offset offsetData fragments ∧
      ∀ turns > left, self.fragmentLoop turns offset offsetData = some fragments := by
  obtain ⟨least, units, fits⟩ := valid.nextSize_bounds
  have short := valid.short
  have packetFits := valid.packetFits
  have mtuFits := valid.mtuFits
  have sum : wrap 32 (offsetData + self.nextSize) = offsetData + self.nextSize :=
    wrap_of_lt (by omega)
  have difference : wrapSub 32 self.packet.length offsetData = left := by
    rw [wrapSub_of_le (by omega) (by omega)]
    omega
  -- The induction is on the bytes that are left; each turn but the last one takes at least one.
  induction left using Nat.strongRecOn generalizing offset offsetData with
  | ind left inductionHypothesis =>
      by_cases last : offsetData + self.nextSize > self.packet.length
      · by_cases finished : left = 0
        · refine ⟨[], rest_nil (by omega), ?_⟩
          intro turns enough
          obtain ⟨turns, rfl⟩ := Nat.exists_eq_succ_of_ne_zero (by omega : turns ≠ 0)
          simp [fragmentLoop, sum, last, difference, finished]
        · refine ⟨_, valid.rest_cons aligned (by omega) (Nat.pos_of_ne_zero finished) (by omega)
            (by omega) (rest_nil (by omega)), ?_⟩
          intro turns enough
          obtain ⟨turns, rfl⟩ := Nat.exists_eq_succ_of_ne_zero (by omega : turns ≠ 0)
          simp [fragmentLoop, sum, last, difference, Nat.pos_of_ne_zero finished]
      · have nextData : wrap 16 (offsetData + self.nextSize) = offsetData + self.nextSize :=
          wrap_of_lt (by omega)
        have nextOffset : wrap 16 (offset + self.nextSize) = offset + self.nextSize :=
          wrap_of_lt (by omega)
        obtain ⟨fragments, rest, loops⟩ := @inductionHypothesis (left - self.nextSize)
          (by omega) (offset + self.nextSize) (offsetData + self.nextSize)
          (by omega) (by omega) (by omega) (wrap_of_lt (by omega))
          (by rw [wrapSub_of_le (by omega) (by omega)]; omega)
        refine ⟨_, valid.rest_cons aligned (by omega) (by omega) (Nat.le_refl _) (by omega) rest,
          ?_⟩
        intro turns enough
        obtain ⟨turns, rfl⟩ := Nat.exists_eq_succ_of_ne_zero (by omega : turns ≠ 0)
        have later := loops turns (by omega)
        have positive : 0 < self.nextSize := by omega
        simp [fragmentLoop, sum, last, positive, nextData, nextOffset, later]

/-- The position of the first fragment that is not the first one. -/
def secondPosition (self : FragmentationRequest) : Nat :=
  self.firstSize + self.origHdrSize - self.compressedHeaderSize

/-- `DoFragmentation` ends, with the first fragment and the tiles of what is left. -/
theorem Valid.doFragmentation_spec (valid : self.Valid) :
    ∃ rest, self.Rest self.secondPosition self.firstSize rest ∧
      ∀ turns > self.packet.length, self.doFragmentation turns =
        some (.frag1 self.origPacketSize self.tag (self.packet.take self.firstSize) :: rest) := by
  obtain ⟨least, units, fits, less⟩ := valid.firstSize_bounds
  have header := valid.compressedHeaderSize_eq
  have headerAligned := valid.aligned
  have short := valid.short
  have headerLe := valid.headerLe
  have compressed := valid.compressed
  have packetFits := valid.packetFits
  obtain ⟨rest, isRest, loops⟩ := @Valid.fragmentLoop_spec self valid
    (self.packet.length - self.firstSize) self.secondPosition self.firstSize (by omega)
    (by unfold secondPosition; omega) (by unfold secondPosition; omega)
  refine ⟨rest, isRest, ?_⟩
  intro turns enough
  have positive : self.l2Mtu > SixLowPanFragment.frag1Size := by
    have size : SixLowPanFragment.frag1Size = 4 := rfl
    omega
  have offset : wrapSub 32 (wrap 32 (self.firstSize + self.origHdrSize))
      self.compressedHeaderSize = self.secondPosition := by
    rw [wrap_of_lt (by omega), wrapSub_of_le (by omega) (by omega)]
    rfl
  have offsetFits : wrap 16 self.secondPosition = self.secondPosition := by
    apply wrap_of_lt
    unfold secondPosition
    omega
  unfold doFragmentation
  rw [if_pos positive, offset]
  dsimp only
  rw [offsetFits, wrap_of_lt (by omega), loops turns (by omega), Option.map_some]
  rfl

/-- The fragments of a packet. -/
def fragments (self : FragmentationRequest) : List SixLowPanFragment :=
  (self.doFragmentation (self.packet.length + 1)).getD []

theorem Valid.fragments_eq (valid : self.Valid) :
    ∃ rest, self.Rest self.secondPosition self.firstSize rest ∧ self.fragments =
      .frag1 self.origPacketSize self.tag (self.packet.take self.firstSize) :: rest := by
  obtain ⟨rest, isRest, terminates⟩ := valid.doFragmentation_spec
  refine ⟨rest, isRest, ?_⟩
  unfold fragments
  rw [terminates _ (Nat.lt_succ_self _)]
  rfl

/-- With enough turns, the fragments do not depend on their number. -/
theorem Valid.doFragmentation_eq (valid : self.Valid) {turns : Nat}
    (enough : self.packet.length < turns) :
    self.doFragmentation turns = some self.fragments := by
  obtain ⟨rest, -, terminates⟩ := valid.doFragmentation_spec
  unfold fragments
  rw [terminates _ enough, terminates _ (Nat.lt_succ_self _)]
  rfl

/-- Each fragment fits the link. -/
theorem Valid.size_le (valid : self.Valid) {fragment : SixLowPanFragment}
    (member : fragment ∈ self.fragments) :
    fragment.size + self.extraHdrSize ≤ self.l2Mtu := by
  obtain ⟨rest, isRest, isFragments⟩ := valid.fragments_eq
  rw [isFragments] at member
  rcases List.mem_cons.mp member with rfl | later
  · obtain ⟨-, -, fits, less⟩ := valid.firstSize_bounds
    have header : SixLowPanFragment.frag1Size = 4 := rfl
    simp only [SixLowPanFragment.size, SixLowPanFragment.frag1, if_true, List.length_take, header]
    omega
  · exact isRest.fits fragment later

/-- The payloads of the fragments are the packet. -/
theorem Valid.flatten_payloads (valid : self.Valid) :
    (self.fragments.map SixLowPanFragment.payload).flatten = self.packet := by
  obtain ⟨rest, isRest, isFragments⟩ := valid.fragments_eq
  rw [isFragments, List.map_cons, List.flatten_cons, isRest.whole]
  exact List.take_append_drop _ _

/-- Each fragment has the size and the tag of the datagram. -/
theorem Valid.header_eq (valid : self.Valid) {fragment : SixLowPanFragment}
    (member : fragment ∈ self.fragments) :
    fragment.datagramSize = wrap 11 self.origPacketSize ∧
      fragment.datagramTag = wrap 16 self.tag := by
  obtain ⟨rest, isRest, isFragments⟩ := valid.fragments_eq
  rw [isFragments] at member
  rcases List.mem_cons.mp member with rfl | later
  · exact ⟨rfl, rfl⟩
  · exact (isRest.header fragment later).2

/-- What the receiver stores of a fragment, if the first one is expanded to these bytes. -/
def tile (expanded : List UInt8) (fragment : SixLowPanFragment) : Chunk UInt8 :=
  if fragment.isFirst then (0, expanded) else fragment.chunk

theorem Rest.map_tile {offset offsetData : Nat} {rest : List SixLowPanFragment}
    (isRest : self.Rest offset offsetData rest) (expanded : List UInt8) :
    rest.map (tile expanded) = rest.map SixLowPanFragment.chunk := by
  apply List.map_congr_left
  intro fragment member
  have later := (isRest.header fragment member).1
  unfold tile
  rw [later, if_neg Bool.false_ne_true]

theorem totalLength_chunks (rest : List SixLowPanFragment) :
    totalLength (rest.map SixLowPanFragment.chunk) =
      ((rest.map SixLowPanFragment.payload).flatten).length := by
  induction rest with
  | nil => rfl
  | cons first rest inductionHypothesis =>
      rw [List.map_cons, totalLength_cons, inductionHypothesis, List.map_cons, List.flatten_cons,
        List.length_append]
      rfl

/-- The fragments are the tiles of the packet before it was compressed. -/
theorem Valid.tiles (valid : self.Valid) {expanded : List UInt8}
    (expands : expanded.length = self.secondPosition) :
    Tiles 0 (self.fragments.map (tile expanded)) ∧
      tilesEnd 0 (self.fragments.map (tile expanded)) = self.origPacketSize := by
  obtain ⟨rest, isRest, isFragments⟩ := valid.fragments_eq
  obtain ⟨least, -, -, less⟩ := valid.firstSize_bounds
  have header := valid.compressedHeaderSize_eq
  have headerLe := valid.headerLe
  have compressed := valid.compressed
  have first : tile expanded (.frag1 self.origPacketSize self.tag
      (self.packet.take self.firstSize)) = (0, expanded) := rfl
  rw [isFragments, List.map_cons, first, isRest.map_tile]
  refine ⟨⟨rfl, ?_, ?_⟩, ?_⟩
  · apply List.length_pos_iff.mp
    rw [expands]
    unfold secondPosition
    omega
  · dsimp only
    rw [Nat.zero_add, expands]
    exact isRest.tiles
  · unfold tilesEnd
    rw [totalLength_cons, totalLength_chunks, isRest.whole, expands, List.length_drop]
    unfold secondPosition
    omega

end FragmentationRequest

end Ns3.SixLowPan
