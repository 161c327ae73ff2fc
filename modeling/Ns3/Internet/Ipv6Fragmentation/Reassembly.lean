import Ns3.Library.Machine
import Ns3.Internet.Ipv6Fragmentation.Adjacency

/-!
The reassembly of packets from fragments that arrive in any order.

The receiver gives a packet once each fragment has arrived exactly once; a fragment that
arrives twice before that keeps the packet from ever being entire. The packet has the
headers of the unfragmentable part in the order of the fragments, which is the reverse
of the order in which they were sent.
-/

namespace Ns3.Internet

open Library Ipv6ExtensionFragment

namespace Ipv6Datagram

/-- The fragments with these indices wait. -/
structure Waits (datagram : Ipv6Datagram) (received : List Nat) (stored : Fragments) : Prop where
  stores : stored.packetFragments.Stores (received.map datagram.piece)
  front : 0 ∈ received → stored.unfragmentable = some datagram.front
  inside : ∀ index ∈ received, index < datagram.count

theorem waits_create (datagram : Ipv6Datagram) : datagram.Waits [] Fragments.create :=
  ⟨FlaggedChunks.stores_empty, fun member => (nomatch member), fun _ member => nomatch member⟩

variable {datagram : Ipv6Datagram} {received : List Nat} {stored : Fragments}

theorem Waits.perm (waits : datagram.Waits received stored) :
    stored.packetFragments.chunks.Perm (received.map datagram.chunk) := by
  have perm := waits.stores.perm
  rw [List.map_map] at perm
  exact perm

/-- Each fragment has arrived exactly once. -/
theorem perm_range_iff (inside : ∀ index ∈ received, index < datagram.count) :
    received.Perm (List.range datagram.count) ↔
      (∀ index < datagram.count, index ∈ received) ∧ received.Nodup := by
  refine ⟨fun perm => ⟨fun index isIndex => ?_, ?_⟩, fun ⟨complete, nodup⟩ => ?_⟩
  · exact perm.mem_iff.mpr (List.mem_range.mpr isIndex)
  · exact perm.nodup_iff.mpr List.nodup_range
  · refine (List.perm_ext_iff_of_nodup nodup List.nodup_range).mpr fun index => ?_
    rw [List.mem_range]
    exact ⟨inside index, complete index⟩

/-- The list has the fragments in order if each of them has arrived once. -/
theorem Waits.chunks_eq (waits : datagram.Waits received stored) (valid : datagram.Valid)
    (perm : received.Perm (List.range datagram.count)) :
    stored.packetFragments.chunks = (List.range datagram.count).map datagram.chunk := by
  refine List.Perm.eq_of_pairwise (fun a b inA inB low high => ?_) waits.stores.sorted ?_
    (waits.perm.trans (perm.map _))
  · obtain ⟨i, -, rfl⟩ := List.mem_map.mp (waits.perm.mem_iff.mp inA)
    obtain ⟨j, -, rfl⟩ := List.mem_map.mp inB
    rw [valid.start_injective (Nat.le_antisymm low high)]
  · refine List.pairwise_map.mpr (List.pairwise_lt_range.imp fun less => ?_)
    exact Nat.mul_le_mul_right _ (Nat.le_of_lt less)

/-- The fragment at the end of the list. -/
theorem Waits.exists_tailmost (waits : datagram.Waits received stored) (some : received ≠ []) :
    ∃ index < datagram.count,
      stored.packetFragments.chunks.getLast? = .some (datagram.chunk index) ∧
      stored.packetFragments.more = decide (index + 1 < datagram.count) := by
  cases isBest : Piece.tailmost (received.map datagram.piece) with
  | none => exact absurd (List.map_eq_nil_iff.mp (Piece.tailmost_eq_none isBest)) some
  | some piece =>
      obtain ⟨index, inReceived, rfl⟩ := List.mem_map.mp (Piece.mem_of_tailmost isBest)
      obtain ⟨last, sameFlag⟩ := waits.stores.tail _ isBest
      exact ⟨index, waits.inside index inReceived, last, sameFlag⟩

/-- The packet is entire if each fragment has arrived exactly once. -/
theorem Waits.isEntire_iff (waits : datagram.Waits received stored) (valid : datagram.Valid)
    (some : received ≠ []) (filled : datagram.payload ≠ [] ∨ received = [0]) :
    stored.isEntire = true ↔
      (∀ index < datagram.count, index ∈ received) ∧ received.Nodup := by
  obtain ⟨best, bestInside, last, sameFlag⟩ := waits.exists_tailmost some
  have countPos := datagram.count_pos
  rw [← perm_range_iff waits.inside]
  unfold Fragments.isEntire
  rw [Bool.and_eq_true, Bool.and_eq_true, Bool.not_eq_true', sameFlag, decide_eq_false_iff_not,
    decide_eq_true_iff]
  constructor
  · rintro ⟨⟨isLast, -⟩, adjacent⟩
    obtain rfl : best = datagram.count - 1 := by omega
    rcases filled with filled | alone
    · have chunks := valid.eq_of_adjacent filled countPos (fun chunk member => by
        obtain ⟨other, inReceived, rfl⟩ := List.mem_map.mp (waits.perm.mem_iff.mp member)
        exact ⟨other, waits.inside other inReceived, rfl⟩) last
        (by rw [Nat.zero_mul]; exact adjacent)
      rw [Nat.sub_zero, ← List.range_eq_range'] at chunks
      have perm := waits.perm
      rw [chunks] at perm
      -- The index of a fragment can be read off its position.
      have indices := perm.symm.map fun chunk => chunk.1 / datagram.unit
      have read : (fun chunk : Chunk UInt8 => chunk.1 / datagram.unit) ∘ datagram.chunk = id := by
        funext index
        exact Nat.mul_div_cancel index valid.unit_pos
      rw [List.map_map, List.map_map, read, List.map_id, List.map_id] at indices
      exact indices
    · subst alone
      have first := waits.perm.mem_iff.mp (List.mem_of_getLast? last)
      rw [List.map_cons, List.map_nil, List.mem_singleton] at first
      have zero : datagram.count - 1 = 0 := valid.start_injective (congrArg Prod.fst first)
      have one : datagram.count = 1 := by omega
      rw [one]
      exact List.Perm.refl _
  · intro perm
    have chunks := waits.chunks_eq valid perm
    have same : best = datagram.count - 1 := by
      rw [chunks, List.getLast?_map, List.getLast?_range, if_neg (Nat.ne_of_gt countPos),
        Option.map_some] at last
      exact (valid.start_injective (congrArg Prod.fst (Option.some.inj last))).symm
    refine ⟨⟨by omega, ?_⟩, ?_⟩
    · rw [chunks, List.length_map, List.length_range]
      exact countPos
    · rw [chunks, List.range_eq_range']
      have adjacent := @Valid.adjacent_range datagram 0 valid datagram.count (Nat.zero_add _)
      rw [Nat.zero_mul] at adjacent
      exact adjacent

/-- The packet that the receiver gives. -/
theorem Waits.getPacket_eq (waits : datagram.Waits received stored) (valid : datagram.Valid)
    (complete : ∀ index < datagram.count, index ∈ received) (nodup : received.Nodup) :
    stored.getPacket = some (datagram.front ++ datagram.payload) := by
  have perm := (perm_range_iff waits.inside).mpr ⟨complete, nodup⟩
  have chunks := waits.chunks_eq valid perm
  have front := waits.front (complete 0 datagram.count_pos)
  have whole := @flatten_range datagram 0 datagram.count datagram.count_pos (Nat.zero_add _)
  have appended : ∀ (list : List (Chunk UInt8)) (p : List UInt8),
      list.foldl (fun packet stored => packet ++ stored.2) p =
        p ++ (list.map Prod.snd).flatten := by
    intro list
    induction list with
    | nil => intro p; simp
    | cons first rest inductionHypothesis =>
        intro p
        rw [List.foldl_cons, inductionHypothesis, List.map_cons, List.flatten_cons,
          List.append_assoc]
  unfold Fragments.getPacket
  rw [front, Option.map_some, chunks, appended, List.range_eq_range', whole, Nat.zero_mul,
    List.drop_zero]

/-- A header that is read from the bytes of a fragment header is that header. -/
theorem deserialize_append {header : Ipv6ExtensionFragmentHeader} (offsetFits : header.offset < 2 ^ 16)
    (identificationFits : header.identification < 2 ^ 32) (rest : List UInt8) :
    Ipv6ExtensionFragmentHeader.deserialize (header.serialize ++ rest) = some header := by
  have offset := @ofBytes_toBytes 2 header.offset offsetFits
  have identification := @ofBytes_toBytes 4 header.identification identificationFits
  change some (Ipv6ExtensionFragmentHeader.mk header.nextHeader (ofBytes (toBytes 2 header.offset))
    (ofBytes (toBytes 4 header.identification))) = _
  rw [offset, identification]

theorem length_front (datagram : Ipv6Datagram) :
    datagram.front.length = datagram.unfragmentable.length := by
  have same := Ipv6ExtensionHeader.length_bytes_pointToFragment datagram.headers
  unfold front unfragmentable
  rw [← same]
  simp [Ipv6ExtensionHeader.bytes, List.length_flatten]

/-- What `Process` finds in a fragment. -/
theorem Valid.fragmentHeader_fields (valid : datagram.Valid) {index : Nat}
    (inside : index < datagram.count) :
    (datagram.fragmentHeader index).offset < 2 ^ 16 ∧
      (datagram.fragmentHeader index).getOffset = (datagram.piece index).start ∧
      (datagram.fragmentHeader index).getMoreFragment = (datagram.piece index).more := by
  have startLe := (valid.bounds inside).2
  have payloadFits := valid.payloadFits
  have more := valid.more_iff index
  have aligned : index * datagram.unit % 8 = 0 := by
    rw [Nat.mul_mod, datagram.unit_mod]
    rfl
  unfold fragmentHeader Ipv6ExtensionFragmentHeader.getOffset
    Ipv6ExtensionFragmentHeader.getMoreFragment piece
  dsimp only
  by_cases follows : index + 1 < datagram.count
  · have before := more.mp follows
    simp only [follows, if_true, decide_true, decide_eq_true_eq]
    omega
  · simp only [follows, if_false, decide_false, decide_eq_false_iff_not]
    omega

/-- The fragments that wait once a fragment has been added. -/
def added (datagram : Ipv6Datagram) (index : Nat) (waiting : Fragments) : Fragments :=
  (if (datagram.piece index).start = 0 then waiting.setUnfragmentablePart datagram.front
    else waiting).addFragment (datagram.piece index).elements (datagram.piece index).start
      (datagram.piece index).more

theorem Waits.added (waits : datagram.Waits received stored) (valid : datagram.Valid)
    {index : Nat} (inside : index < datagram.count) :
    datagram.Waits (received ++ [index]) (datagram.added index stored) := by
  have kept : (if (datagram.piece index).start = 0 then stored.setUnfragmentablePart datagram.front
      else stored).packetFragments = stored.packetFragments := by
    split <;> rfl
  refine ⟨?_, fun member => ?_, fun other member => ?_⟩
  · rw [List.map_append]
    have stores := waits.stores.add (datagram.piece index)
    rw [← kept] at stores
    exact stores
  · by_cases zero : index = 0
    · subst zero
      have start : (datagram.piece 0).start = 0 := Nat.zero_mul _
      unfold Ipv6Datagram.added
      rw [if_pos start]
      rfl
    · have old : 0 ∈ received := by
        rcases List.mem_append.mp member with old | new
        · exact old
        · exact absurd (List.mem_singleton.mp new).symm zero
      have start : (datagram.piece index).start ≠ 0 := by
        intro none
        have same : index * datagram.unit = 0 * datagram.unit := none.trans (Nat.zero_mul _).symm
        exact zero (valid.start_injective same)
      unfold Ipv6Datagram.added
      rw [if_neg start]
      exact waits.front old
  · rcases List.mem_append.mp member with old | new
    · exact waits.inside other old
    · obtain rfl := List.mem_singleton.mp new
      exact inside

/-- The key of the packet at the receiver. -/
def key (datagram : Ipv6Datagram) : FragmentKey := (datagram.source, datagram.identification)

/-- `Process` for a fragment whose headers are shorter than 256 bytes. -/
theorem Valid.process_eq (valid : datagram.Valid) (short : datagram.unfragmentable.length < 256)
    (self : Ipv6ExtensionFragment) {index : Nat} (inside : index < datagram.count) :
    self.process (datagram.fragment index).packet (wrap 8 datagram.unfragmentable.length)
        (datagram.fragment index).header =
      let fragments := datagram.added index ((self.fragments datagram.key).getD Fragments.create)
      let next := Ipv6ExtensionHeader.followedBy datagram.nextHeader datagram.headers
      if fragments.isEntire then
        fragments.getPacket.bind fun entire =>
          some (⟨Function.update self.fragments datagram.key none⟩, ⟨next, some entire⟩)
      else
        some (⟨Function.update self.fragments datagram.key (some fragments)⟩, ⟨next, none⟩) := by
  obtain ⟨offsetFits, offset, more⟩ := valid.fragmentHeader_fields inside
  have size : wrap 8 datagram.unfragmentable.length = datagram.front.length := by
    rw [wrap_of_lt short, length_front]
  have packet : (datagram.fragment index).packet = datagram.front ++
      ((datagram.fragmentHeader index).serialize ++ (datagram.piece index).elements) := rfl
  have header := deserialize_append offsetFits valid.identificationFits
    (datagram.piece index).elements
  have behind : ((datagram.fragmentHeader index).serialize ++
      (datagram.piece index).elements).drop Ipv6ExtensionFragmentHeader.serializedSize =
        (datagram.piece index).elements := List.drop_left' rfl
  unfold process added
  rw [size, packet, List.drop_left, List.take_left, header, Option.bind_eq_bind,
    Option.bind_some, offset, more, behind]
  rfl

theorem head_serialize (header : Ipv6ExtensionHeader) (rest : List UInt8) :
    (header.serialize ++ rest).head? = some header.nextHeader := by
  cases header <;> rfl

theorem nextHeader_setNextHeader (next : UInt8) (header : Ipv6ExtensionHeader) :
    (header.setNextHeader next).nextHeader = next := by
  cases header <;> rfl

/-- The last header points to the fragment header. -/
theorem exists_last (header : Ipv6ExtensionHeader) (headers : List Ipv6ExtensionHeader) :
    ∃ before last, Ipv6ExtensionHeader.pointToFragment (header :: headers) = before ++ [last] ∧
      last.nextHeader = Ipv6Header.extFragmentation := by
  induction headers generalizing header with
  | nil => exact ⟨[], _, rfl, nextHeader_setNextHeader _ header⟩
  | cons second rest inductionHypothesis =>
      obtain ⟨before, last, same, points⟩ := inductionHypothesis second
      refine ⟨header :: before, last, ?_, points⟩
      rw [Ipv6ExtensionHeader.pointToFragment, same]
      rfl

theorem number_ne (header : Ipv6ExtensionHeader) :
    header.number ≠ Ipv6Header.extFragmentation := by
  cases header with
  | hopByHop => exact (by decide : Ipv6Header.extHopByHop ≠ Ipv6Header.extFragmentation)
  | destination => exact (by decide : Ipv6Header.extDestination ≠ Ipv6Header.extFragmentation)
  | routing => exact (by decide : Ipv6Header.extRouting ≠ Ipv6Header.extFragmentation)

/-- The fragments have the headers in the right order if there is at most one. -/
theorem Valid.front_eq_iff (valid : datagram.Valid) :
    datagram.front =
        Ipv6ExtensionHeader.bytes (Ipv6ExtensionHeader.pointToFragment datagram.headers) ↔
      datagram.headers.length ≤ 1 := by
  have chained := valid.chained
  unfold front
  cases headers : datagram.headers with
  | nil => exact ⟨fun _ => Nat.zero_le 1, fun _ => rfl⟩
  | cons first rest =>
      cases rest with
      | nil => exact ⟨fun _ => Nat.le_refl 1, fun _ => rfl⟩
      | cons second rest =>
          rw [headers] at chained
          refine ⟨fun same => ?_, fun few => absurd few (by simp)⟩
          -- The first byte is the type of the second header, and would be that of the
          -- fragment header.
          obtain ⟨before, last, isLast, points⟩ := exists_last second rest
          have announced : second.number = first.nextHeader := chained.2.2.2.1
          have start := congrArg List.head? same
          rw [Ipv6ExtensionHeader.pointToFragment, isLast, List.reverse_cons, List.reverse_append,
            List.reverse_singleton, List.append_assoc, List.singleton_append,
            Ipv6ExtensionHeader.bytes_cons, Ipv6ExtensionHeader.bytes_cons, head_serialize,
            head_serialize, points, ← announced] at start
          exact absurd (Option.some.inj start).symm (number_ne second)

/-- An empty payload has one fragment. -/
theorem Valid.count_of_empty (valid : datagram.Valid) (empty : datagram.payload = []) :
    datagram.count = 1 := by
  have positive := datagram.count_pos
  have more := valid.more_iff 0
  rw [empty, List.length_nil] at more
  omega

end Ipv6Datagram

/-- A fragment of a packet arrives. -/
structure Ipv6Arrival where
  datagram : Ipv6Datagram
  index : Nat

namespace Ipv6Arrival

/-- What arrives, if there is such a fragment. -/
def fragment (arrival : Ipv6Arrival) : Option Ipv6Fragment := do
  let fragments ← arrival.datagram.fragments
  fragments[arrival.index]?

/-- The fragment header is found with a position of eight bits. -/
def position (arrival : Ipv6Arrival) : Nat := wrap 8 arrival.datagram.unfragmentable.length

end Ipv6Arrival

namespace Ipv6ExtensionFragment

/-- The receiver, with the indices of the fragments that have arrived under each key since the
last entire packet. -/
structure Reception where
  extension : Ipv6ExtensionFragment
  received : FragmentKey → List Nat

namespace Reception

/-- Nothing has arrived. -/
def create : Reception := ⟨Ipv6ExtensionFragment.create, fun _ => []⟩

/-- The fragments that have arrived once this one has. -/
def gathered (self : Reception) (arrival : Ipv6Arrival) : List Nat :=
  self.received arrival.datagram.key ++ [arrival.index]

/-- What `Process` makes of the fragment. -/
def process (self : Reception) (arrival : Ipv6Arrival) :
    Option (Ipv6ExtensionFragment × Processed) := do
  let fragment ← arrival.fragment
  self.extension.process fragment.packet arrival.position fragment.header

/-- An arrival. -/
def step (self : Reception) (arrival : Ipv6Arrival) : Reception :=
  match self.process arrival with
  | none => self
  | some (extension, processed) =>
      { extension := extension
        received := Function.update self.received arrival.datagram.key
          (if processed.packet.isSome then [] else self.gathered arrival) }

/-- A fragment of the packet that is sent under the key arrives. -/
def Enabled (sent : FragmentKey → Ipv6Datagram) (arrival : Ipv6Arrival) : Prop :=
  arrival.datagram = sent arrival.datagram.key ∧ arrival.datagram.Valid ∧ arrival.fragment.isSome

instance (sent : FragmentKey → Ipv6Datagram) (arrival : Ipv6Arrival) :
    Decidable (Enabled sent arrival) := inferInstanceAs (Decidable (_ ∧ _))

/-- The receiver of the packets, one under each key. -/
def machine (sent : FragmentKey → Ipv6Datagram) : Machine Reception Ipv6Arrival where
  step := step
  Enabled _ := Enabled sent

instance (sent : FragmentKey → Ipv6Datagram) (self : Reception) (arrival : Ipv6Arrival) :
    Decidable ((machine sent).Enabled self arrival) :=
  inferInstanceAs (Decidable (Enabled sent arrival))

/-- Every fragment of the packet has arrived. -/
def Complete (self : Reception) (arrival : Ipv6Arrival) : Prop :=
  ∀ index < (arrival.datagram.fragments.getD []).length, index ∈ self.gathered arrival

instance (self : Reception) (arrival : Ipv6Arrival) : Decidable (self.Complete arrival) :=
  inferInstanceAs (Decidable (∀ index < _, _))

/-- `Process` gives the packet if every fragment has arrived, and stops otherwise. -/
def Reassembles (self : Reception) (arrival : Ipv6Arrival) : Prop :=
  (self.process arrival).map (fun result => result.2.packet) =
    some (if self.Complete arrival then some arrival.datagram.reassembled else none)

instance (self : Reception) (arrival : Ipv6Arrival) : Decidable (self.Reassembles arrival) :=
  inferInstanceAs (Decidable (_ = _))

/-- The headers fit into the position of the fragment header. -/
def Short (_ : Reception) (arrival : Ipv6Arrival) : Prop :=
  arrival.datagram.unfragmentable.length < 256

instance (self : Reception) (arrival : Ipv6Arrival) : Decidable (self.Short arrival) :=
  inferInstanceAs (Decidable (_ < _))

/-- If every fragment has arrived, none has arrived twice, and the packet has at most one
header in its unfragmentable part. -/
def Simple (self : Reception) (arrival : Ipv6Arrival) : Prop :=
  self.Complete arrival → arrival.datagram.headers.length ≤ 1 ∧ (self.gathered arrival).Nodup

/-- The fragments that wait are those that have arrived. An empty payload has one fragment,
which never waits. -/
structure Invariant (sent : FragmentKey → Ipv6Datagram) (reception : Reception) : Prop where
  waits : ∀ key, (sent key).Waits (reception.received key)
    ((reception.extension.fragments key).getD Fragments.create)
  empty : ∀ key, (sent key).payload = [] → reception.received key = []

theorem invariant_create (sent : FragmentKey → Ipv6Datagram) : Invariant sent create :=
  ⟨fun key => (sent key).waits_create, fun _ _ => rfl⟩

variable {sent : FragmentKey → Ipv6Datagram} {self : Reception} {arrival : Ipv6Arrival}

theorem Enabled.fragment_eq (enabled : Enabled sent arrival) :
    arrival.index < arrival.datagram.count ∧
      arrival.fragment = some (arrival.datagram.fragment arrival.index) := by
  obtain ⟨-, valid, exists_⟩ := enabled
  unfold Ipv6Arrival.fragment at exists_ ⊢
  rw [valid.fragments_eq] at exists_ ⊢
  simp only [Option.bind_eq_bind, Option.bind_some, List.getElem?_map, Option.isSome_map] at exists_ ⊢
  have inside : arrival.index < arrival.datagram.count := by
    simpa using exists_
  refine ⟨inside, ?_⟩
  rw [List.getElem?_range inside, Option.map_some]

theorem Enabled.complete_iff (enabled : Enabled sent arrival) :
    self.Complete arrival ↔
      ∀ index < arrival.datagram.count, index ∈ self.gathered arrival := by
  unfold Complete
  rw [enabled.2.1.fragments_eq, Option.getD_some, List.length_map, List.length_range]

/-- What `Process` does with a fragment of a packet. -/
structure Outcome (reception : Reception) (arrival : Ipv6Arrival) (entire : Prop)
    (result : Ipv6ExtensionFragment × Processed) : Prop where
  whole : entire →
    result.1.fragments =
        Function.update reception.extension.fragments arrival.datagram.key none ∧
      result.2.packet = some (arrival.datagram.front ++ arrival.datagram.payload)
  part : ¬ entire → ∃ stored,
    result.1.fragments =
        Function.update reception.extension.fragments arrival.datagram.key (some stored) ∧
      arrival.datagram.Waits (reception.gathered arrival) stored ∧ result.2.packet = none

/-- The only fragment of an empty payload arrives alone. -/
theorem Invariant.gathered_of_empty (invariant : Invariant sent self)
    (enabled : Enabled sent arrival) (isEmpty : arrival.datagram.payload = []) :
    self.gathered arrival = [0] := by
  have same := enabled.1
  have one := enabled.2.1.count_of_empty isEmpty
  have inside := enabled.fragment_eq.1
  have zero : arrival.index = 0 := by omega
  have none : self.received arrival.datagram.key = [] := by
    apply invariant.empty
    rw [← same]
    exact isEmpty
  unfold gathered
  rw [none, zero]
  rfl

theorem Invariant.process (invariant : Invariant sent self) (enabled : Enabled sent arrival)
    (short : self.Short arrival) :
    ∃ result, self.process arrival = some result ∧
      self.Outcome arrival (self.Complete arrival ∧ (self.gathered arrival).Nodup) result := by
  obtain ⟨inside, isFragment⟩ := enabled.fragment_eq
  have same := enabled.1
  have valid := enabled.2.1
  have waits := invariant.waits arrival.datagram.key
  rw [← same] at waits
  have added := waits.added valid inside
  have some_ : self.gathered arrival ≠ [] :=
    List.append_ne_nil_of_right_ne_nil _ (List.cons_ne_nil _ _)
  have filled : arrival.datagram.payload ≠ [] ∨ self.gathered arrival = [0] := by
    by_cases none : arrival.datagram.payload = []
    · exact .inr (invariant.gathered_of_empty enabled none)
    · exact .inl none
  have entire := added.isEntire_iff valid some_ filled
  have processed := valid.process_eq short self.extension inside
  unfold Reception.process
  rw [isFragment, Option.bind_eq_bind, Option.bind_some]
  unfold Ipv6Arrival.position
  rw [processed, enabled.complete_iff]
  dsimp only
  split
  next isEntire =>
    obtain ⟨complete, nodup⟩ := entire.mp isEntire
    rw [added.getPacket_eq valid complete nodup, Option.bind_some]
    exact ⟨_, rfl, fun _ => ⟨rfl, rfl⟩, fun not => absurd ⟨complete, nodup⟩ not⟩
  next notEntire =>
    exact ⟨_, rfl, fun both => absurd (entire.mpr both) notEntire,
      fun _ => ⟨_, rfl, added, rfl⟩⟩

theorem Invariant.step (invariant : Invariant sent self) (enabled : Enabled sent arrival)
    (short : self.Short arrival) : Invariant sent (self.step arrival) := by
  obtain ⟨result, processed, outcome⟩ := invariant.process enabled short
  have same := enabled.1
  have valid := enabled.2.1
  -- Other keys are not concerned.
  have others : ∀ (waiting : Option Fragments) (received : List Nat),
      arrival.datagram.Waits received (waiting.getD Fragments.create) →
      (arrival.datagram.payload = [] → received = []) →
      result.1.fragments =
        Function.update self.extension.fragments arrival.datagram.key waiting →
      Invariant sent
        ⟨result.1, Function.update self.received arrival.datagram.key received⟩ := by
    intro waiting received waits none updated
    refine ⟨fun key => ?_, fun key isEmpty => ?_⟩
    · dsimp only
      rw [updated]
      by_cases this : key = arrival.datagram.key
      · subst this
        rw [← same]
        simpa using waits
      · simpa [this] using invariant.waits key
    · by_cases this : key = arrival.datagram.key
      · subst this
        rw [← same] at isEmpty
        simpa using none isEmpty
      · simpa [this] using invariant.empty key isEmpty
  unfold Reception.step
  rw [processed]
  dsimp only
  by_cases entire : self.Complete arrival ∧ (self.gathered arrival).Nodup
  · obtain ⟨updated, packet⟩ := outcome.whole entire
    rw [packet, Option.isSome_some, if_pos rfl]
    exact others none [] (Ipv6Datagram.waits_create _) (fun _ => rfl) updated
  · obtain ⟨stored, updated, waits, packet⟩ := outcome.part entire
    rw [packet, Option.isSome_none, if_neg Bool.false_ne_true]
    refine others (some stored) _ waits (fun isEmpty => ?_) updated
    -- The only fragment is entire when it arrives.
    have alone := invariant.gathered_of_empty enabled isEmpty
    have one := valid.count_of_empty isEmpty
    refine absurd ⟨enabled.complete_iff.mpr fun index less => ?_, ?_⟩ entire
    · rw [alone, List.mem_singleton]
      omega
    · rw [alone]
      exact List.nodup_singleton 0

theorem Invariant.reassembles_iff (invariant : Invariant sent self)
    (enabled : Enabled sent arrival) (short : self.Short arrival) :
    self.Reassembles arrival ↔ self.Simple arrival := by
  obtain ⟨result, processed, outcome⟩ := invariant.process enabled short
  have front := enabled.2.1.front_eq_iff
  unfold Reassembles Simple
  rw [processed, Option.map_some]
  by_cases complete : self.Complete arrival
  · by_cases nodup : (self.gathered arrival).Nodup
    · rw [(outcome.whole ⟨complete, nodup⟩).2, if_pos complete]
      simp only [complete, nodup, Option.some.injEq, and_true, true_implies, ← front,
        Ipv6Datagram.reassembled, List.append_left_inj]
    · obtain ⟨-, -, -, packet⟩ := outcome.part fun both => nodup both.2
      rw [packet, if_pos complete]
      simp [complete, nodup]
  · obtain ⟨-, -, -, packet⟩ := outcome.part fun both => complete both.1
    rw [packet, if_neg complete]
    simp [complete]

/-- In every run with headers shorter than 256 bytes, `Process` gives the packet exactly when
every fragment has arrived if and only if no fragment has then arrived twice and the
unfragmentable part has at most one header. -/
theorem reassembles_iff_simple_along (sent : FragmentKey → Ipv6Datagram) (arrivals : List Ipv6Arrival)
    (legal : (machine sent).Legal create arrivals)
    (short : (machine sent).Along Short create arrivals) :
    (machine sent).Along (fun self arrival => self.Reassembles arrival ↔ self.Simple arrival)
      create arrivals := by
  have always : (machine sent).Always (Invariant sent) create arrivals :=
    Machine.Legal.always_of_along
      (fun _ _ invariant enabled short => invariant.step enabled short)
      (invariant_create sent) legal short
  exact short.mono (fun _ _ invariant enabled short => invariant.reassembles_iff enabled short)
    always legal

/-- A packet with these headers, forty bytes behind them and fragments of sixteen bytes. -/
def sample (headers : List Ipv6ExtensionHeader) : Ipv6Datagram where
  source := 1
  identification := 2
  nextHeader := Ipv6Header.extHopByHop
  headers := headers
  payload := (List.range 40).map UInt8.ofNat
  mtu := 40 + headers.length * 8 + 8 + 16

/-- A hop-by-hop header alone. -/
def oneHeader : Ipv6Datagram := sample [.hopByHop 17 0 ⟨[1, 4, 0, 0, 0, 0]⟩]

/-- A hop-by-hop header and an empty routing header. -/
def twoHeaders : Ipv6Datagram :=
  sample [.hopByHop Ipv6Header.extRouting 0 ⟨[1, 4, 0, 0, 0, 0]⟩, .routing 17 0 0 0 []]

/-- The fragments arrive in another order, and then again, with one of them twice. -/
theorem reassembles_iff_simple_along_oneHeader :
    (machine fun _ => oneHeader).Along
      (fun self arrival => self.Reassembles arrival ↔ self.Simple arrival) create
      [⟨oneHeader, 2⟩, ⟨oneHeader, 0⟩, ⟨oneHeader, 1⟩, ⟨oneHeader, 1⟩, ⟨oneHeader, 1⟩,
        ⟨oneHeader, 0⟩, ⟨oneHeader, 2⟩] :=
  reassembles_iff_simple_along (fun _ => oneHeader) _ (by decide) (by decide)

/-- A fragment that arrives twice keeps the packet from being entire, and two headers come
out in the reverse order. -/
theorem not_reassembles_twice_or_reversed :
    (machine fun _ => oneHeader).Legal create
        [⟨oneHeader, 0⟩, ⟨oneHeader, 0⟩, ⟨oneHeader, 1⟩, ⟨oneHeader, 2⟩] ∧
      ¬ (machine fun _ => oneHeader).Along Reassembles create
        [⟨oneHeader, 0⟩, ⟨oneHeader, 0⟩, ⟨oneHeader, 1⟩, ⟨oneHeader, 2⟩] ∧
      (machine fun _ => twoHeaders).Legal create
        [⟨twoHeaders, 0⟩, ⟨twoHeaders, 1⟩, ⟨twoHeaders, 2⟩] ∧
      ¬ (machine fun _ => twoHeaders).Along Reassembles create
        [⟨twoHeaders, 0⟩, ⟨twoHeaders, 1⟩, ⟨twoHeaders, 2⟩] := by
  decide +kernel

end Reception

end Ipv6ExtensionFragment

end Ns3.Internet
