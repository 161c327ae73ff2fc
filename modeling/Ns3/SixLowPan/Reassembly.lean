import Ns3.Library.Machine
import Ns3.SixLowPan.Division

/-!
The reassembly of datagrams whose fragments arrive in any order.

The receiver keeps the tiles of the datagram before its compression that have arrived, and
gives the compressed packet once they are all there. Where the buffers are limited, a datagram
that is new drives out the one that has waited longest.
-/

namespace Ns3.SixLowPan

open Library

namespace Fragments

theorem lastEndOffset_eq {list : List (Chunk UInt8)} {reached : Nat}
    (fits : ∀ chunk ∈ list, chunk.1 + chunk.2.length < 2 ^ 16) :
    lastEndOffset list reached = reach list reached := by
  induction list generalizing reached with
  | nil => rfl
  | cons first rest inductionHypothesis =>
      have firstFits := fits first List.mem_cons_self
      have later := @inductionHypothesis (max reached (first.1 + first.2.length))
        fun chunk member => fits chunk (List.mem_cons_of_mem first member)
      rw [lastEndOffset, reach, Nat.add_comm first.2.length, wrap_of_lt firstFits, later]

theorem assemble_tiles {list : List (Chunk UInt8)} {reached : Nat} {packet : List UInt8}
    (isTiling : Tiles reached list) (fits : tilesEnd reached list < 2 ^ 16) :
    assemble list reached packet = some (packet ++ (list.map Prod.snd).flatten) := by
  induction list generalizing reached packet with
  | nil => simp [assemble]
  | cons first rest inductionHypothesis =>
      obtain ⟨starts, _, later⟩ := isTiling
      have further : tilesEnd (reached + first.2.length) rest = tilesEnd reached (first :: rest) := by
        simp only [tilesEnd, totalLength_cons]
        omega
      have inside : reached + first.2.length < 2 ^ 16 := by
        simp only [tilesEnd, totalLength_cons] at fits
        omega
      rw [assemble, if_neg (by omega), wrap_of_lt inside,
        inductionHypothesis later (by rw [further]; exact fits), List.map_cons, List.flatten_cons,
        List.append_assoc]

end Fragments

/-- A packet that is sent in fragments from one link-layer address to another. -/
structure LowPanDatagram where
  src : LinkAddress
  dst : LinkAddress
  request : FragmentationRequest
  deriving DecidableEq, Repr

namespace LowPanDatagram

/-- The key of the datagram at the receiver. -/
def key (self : LowPanDatagram) : FragmentKey :=
  ⟨self.src, self.dst, wrap 11 self.request.origPacketSize, wrap 16 self.request.tag⟩

def fragments (self : LowPanDatagram) : List SixLowPanFragment := self.request.fragments

/-- What is behind the header of the first fragment. -/
def firstPayload (self : LowPanDatagram) : List UInt8 :=
  self.request.packet.take self.request.firstSize

/-- The decompression gives the headers back the length that they had. -/
def Expands (decompress : Decompression) (self : LowPanDatagram) : Prop :=
  (decompress self.firstPayload self.src self.dst).map List.length =
    some self.request.secondPosition

instance (decompress : Decompression) (self : LowPanDatagram) :
    Decidable (Expands decompress self) := inferInstanceAs (Decidable (_ = _))

/-- The buffer holds the fragments that have arrived. -/
structure Waits (datagram : LowPanDatagram) (expanded : List UInt8)
    (received : List SixLowPanFragment) (stored : Fragments) : Prop where
  packetSize : stored.packetSize = wrap 11 datagram.request.origPacketSize
  tiles : stored.fragments =
    present (FragmentationRequest.tile expanded) datagram.fragments received
  first : (∃ fragment ∈ received, fragment.isFirst = true) →
    stored.firstFragment = some datagram.firstPayload

variable {datagram : LowPanDatagram} {expanded : List UInt8}
  {received : List SixLowPanFragment} {stored : Fragments}

theorem waits_create (datagram : LowPanDatagram) (expanded : List UInt8) :
    datagram.Waits expanded []
      (.create (wrap 11 datagram.request.origPacketSize)) := by
  refine ⟨rfl, ?_, ?_⟩
  · simp [present, Fragments.create]
  · rintro ⟨_, member, _⟩
    cases member

section

variable (valid : datagram.request.Valid)
  (expands : expanded.length = datagram.request.secondPosition)
include valid expands

theorem sorted_tiles : datagram.fragments.Pairwise fun a b =>
    (FragmentationRequest.tile expanded a).1 < (FragmentationRequest.tile expanded b).1 := by
  have sorted := (valid.tiles expands).1.sorted
  rw [List.pairwise_map] at sorted
  exact sorted

/-- A fragment that is stored. -/
theorem Waits.addFragment (waits : datagram.Waits expanded received stored)
    {fragment : SixLowPanFragment} (isFragment : fragment ∈ datagram.fragments) :
    ∃ added, stored.addFragment (FragmentationRequest.tile expanded fragment).2
        (FragmentationRequest.tile expanded fragment).1 = some added ∧
      added.packetSize = stored.packetSize ∧ added.firstFragment = stored.firstFragment ∧
      added.fragments = present (FragmentationRequest.tile expanded) datagram.fragments
        (received ++ [fragment]) := by
  have inserted := @insertNew_present _ _ _ _ _ received (sorted_tiles valid expands) _ isFragment
  refine ⟨{ stored with
    fragments := present (FragmentationRequest.tile expanded) datagram.fragments
      (received ++ [fragment]) }, ?_, rfl, rfl, rfl⟩
  unfold Fragments.addFragment
  rw [waits.tiles]
  exact congrArg (Option.map _) inserted

/-- The datagram is entire if no fragment is missing. -/
theorem Waits.isEntire_iff (waits : datagram.Waits expanded received stored)
    {fragment : SixLowPanFragment} (isFragment : fragment ∈ datagram.fragments)
    (arrived : fragment ∈ received) :
    stored.isEntire = true ↔ ∀ part ∈ datagram.fragments, part ∈ received := by
  obtain ⟨isTiling, ends⟩ := valid.tiles expands
  have short := valid.short
  have size : wrap 11 datagram.request.origPacketSize = datagram.request.origPacketSize :=
    wrap_of_lt short
  have fits : ∀ chunk ∈ stored.fragments, chunk.1 + chunk.2.length < 2 ^ 16 := by
    intro chunk member
    rw [waits.tiles] at member
    obtain ⟨part, isPart, rfl⟩ := List.mem_map.mp member
    have before := isTiling.stop_le _ (List.mem_map_of_mem (List.mem_filter.mp isPart).1)
    omega
  have nonempty : stored.fragments.isEmpty = false := by
    rw [waits.tiles, List.isEmpty_eq_false_iff]
    apply List.ne_nil_of_mem
    exact List.mem_map_of_mem (List.mem_filter.mpr ⟨isFragment, by simpa using arrived⟩)
  unfold Fragments.isEntire
  rw [nonempty, Bool.not_false, Bool.true_and, decide_eq_true_iff, Fragments.lastEndOffset_eq fits,
    waits.packetSize, size, waits.tiles, ← ends]
  exact reach_present_iff isTiling

/-- The packet that the receiver gives. -/
theorem Waits.getPacket_eq (waits : datagram.Waits expanded received stored)
    (complete : ∀ part ∈ datagram.fragments, part ∈ received) :
    stored.getPacket = some datagram.request.packet := by
  obtain ⟨rest, isRest, isFragments⟩ := valid.fragments_eq
  obtain ⟨isTiling, ends⟩ := valid.tiles expands
  have short := valid.short
  have isFirst : FragmentationRequest.tile expanded (.frag1 datagram.request.origPacketSize
      datagram.request.tag (datagram.request.packet.take datagram.request.firstSize)) =
        (0, expanded) := rfl
  have tiles : stored.fragments = (0, expanded) :: rest.map SixLowPanFragment.chunk := by
    rw [waits.tiles, present_of_forall complete]
    unfold fragments
    rw [isFragments, List.map_cons, isFirst, isRest.map_tile]
  rw [isFragments, List.map_cons, isFirst, isRest.map_tile] at isTiling ends
  have first : stored.firstFragment = some datagram.firstPayload := by
    have member : SixLowPanFragment.frag1 datagram.request.origPacketSize datagram.request.tag
        (datagram.request.packet.take datagram.request.firstSize) ∈ datagram.fragments := by
      unfold fragments
      rw [isFragments]
      exact List.mem_cons_self
    exact waits.first ⟨_, complete _ member, rfl⟩
  have later : Tiles expanded.length (rest.map SixLowPanFragment.chunk) := by
    have behind := isTiling.2.2
    rwa [Nat.zero_add] at behind
  have stops : tilesEnd expanded.length (rest.map SixLowPanFragment.chunk) < 2 ^ 16 := by
    unfold tilesEnd at ends ⊢
    rw [totalLength_cons] at ends
    dsimp only at ends
    omega
  have start : wrap 16 expanded.length = expanded.length := by
    apply wrap_of_lt
    unfold tilesEnd at stops
    omega
  have payloads : (rest.map SixLowPanFragment.chunk).map Prod.snd =
      rest.map SixLowPanFragment.payload := List.map_map
  unfold Fragments.getPacket
  rw [first, tiles]
  dsimp only
  rw [start, Fragments.assemble_tiles later stops, payloads, isRest.whole]
  exact congrArg some (List.take_append_drop _ _)

end

end LowPanDatagram

/-- A fragment of a datagram arrives. -/
structure LowPanArrival where
  datagram : LowPanDatagram
  fragment : SixLowPanFragment
  deriving DecidableEq, Repr

/-- The buffers of the receiver, with the datagrams that wait in the order in which they began
to, and the fragments of each that have arrived since then. -/
structure Reception where
  table : FragmentTable
  waiting : List FragmentKey
  received : FragmentKey → List SixLowPanFragment

namespace Reception

/-- Nothing has arrived. -/
def create (fragmentReassemblyListSize : Nat) : Reception :=
  ⟨.create fragmentReassemblyListSize, [], fun _ => []⟩

/-- A datagram that is new would be one too many. -/
def Crowded (self : Reception) : Prop :=
  self.table.fragmentReassemblyListSize ≠ 0 ∧
    self.table.fragmentReassemblyListSize ≤ self.waiting.length

instance (self : Reception) : Decidable self.Crowded := inferInstanceAs (Decidable (_ ∧ _))

/-- The datagrams that wait once a fragment of this one has arrived. -/
def waitingWith (self : Reception) (key : FragmentKey) : List FragmentKey :=
  if key ∈ self.waiting then self.waiting
  else (if self.Crowded then self.waiting.tail else self.waiting) ++ [key]

/-- The fragments of the datagram that have arrived since it began to wait, with this one. -/
def gathered (self : Reception) (arrival : LowPanArrival) : List SixLowPanFragment :=
  (if arrival.datagram.key ∈ self.waiting then self.received arrival.datagram.key else []) ++
    [arrival.fragment]

/-- No fragment of the datagram is missing. -/
def Complete (self : Reception) (arrival : LowPanArrival) : Prop :=
  ∀ part ∈ arrival.datagram.fragments, part ∈ self.gathered arrival

instance (self : Reception) (arrival : LowPanArrival) : Decidable (self.Complete arrival) :=
  inferInstanceAs (Decidable (∀ part ∈ _, _))

/-- `ProcessFragment` for a fragment that arrives. -/
def process (decompress : Decompression) (self : Reception) (arrival : LowPanArrival) :
    Option (FragmentTable × Option (List UInt8)) :=
  self.table.processFragment decompress arrival.fragment arrival.datagram.src
    arrival.datagram.dst

/-- The arrival of a fragment. -/
def step (decompress : Decompression) (self : Reception) (arrival : LowPanArrival) : Reception :=
  let waiting := self.waitingWith arrival.datagram.key
  { table := ((self.process decompress arrival).map Prod.fst).getD self.table
    waiting := if self.Complete arrival then waiting.erase arrival.datagram.key else waiting
    received := Function.update self.received arrival.datagram.key (self.gathered arrival) }

/-- A fragment of the datagram that is sent under the key arrives. -/
def Enabled (decompress : Decompression) (sent : FragmentKey → LowPanDatagram)
    (arrival : LowPanArrival) : Prop :=
  arrival.datagram = sent arrival.datagram.key ∧ arrival.datagram.request.Valid ∧
    arrival.datagram.Expands decompress ∧ arrival.fragment ∈ arrival.datagram.fragments

instance (decompress : Decompression) (sent : FragmentKey → LowPanDatagram)
    (arrival : LowPanArrival) : Decidable (Enabled decompress sent arrival) :=
  inferInstanceAs (Decidable (_ ∧ _))

/-- The receiver of the datagrams, one under each key. -/
def machine (decompress : Decompression) (sent : FragmentKey → LowPanDatagram) :
    Machine Reception LowPanArrival where
  step := step decompress
  Enabled _ := Enabled decompress sent

instance (decompress : Decompression) (sent : FragmentKey → LowPanDatagram) (self : Reception)
    (arrival : LowPanArrival) : Decidable ((machine decompress sent).Enabled self arrival) :=
  inferInstanceAs (Decidable (Enabled decompress sent arrival))

/-- `ProcessFragment` gives the compressed packet if no fragment of it is missing, and nothing
otherwise. -/
def Reassembles (decompress : Decompression) (self : Reception) (arrival : LowPanArrival) : Prop :=
  (self.process decompress arrival).map Prod.snd =
    some (if self.Complete arrival then some arrival.datagram.request.packet else none)

instance (decompress : Decompression) (self : Reception) (arrival : LowPanArrival) :
    Decidable (self.Reassembles decompress arrival) := inferInstanceAs (Decidable (_ = _))

/-- What the first fragment of a datagram is expanded to. -/
def expanded (decompress : Decompression) (datagram : LowPanDatagram) : List UInt8 :=
  (decompress datagram.firstPayload datagram.src datagram.dst).getD []

/-- The buffers are those of the datagrams that wait. -/
structure Invariant (decompress : Decompression) (sent : FragmentKey → LowPanDatagram)
    (reception : Reception) : Prop where
  timeouts : reception.table.timeoutEventList = reception.waiting
  keys : reception.table.fragments.keys.Perm reception.waiting
  stored : ∀ key ∈ reception.waiting, ∃ stored,
    reception.table.fragments.lookup key = some stored ∧
      (sent key).Waits (expanded decompress (sent key)) (reception.received key) stored

theorem invariant_create (decompress : Decompression) (sent : FragmentKey → LowPanDatagram)
    (fragmentReassemblyListSize : Nat) :
    Invariant decompress sent (create fragmentReassemblyListSize) := by
  refine ⟨rfl, ?_, ?_⟩
  · exact List.Perm.refl _
  · intro key member
    exact nomatch member

variable {decompress : Decompression} {sent : FragmentKey → LowPanDatagram} {self : Reception}
  {arrival : LowPanArrival}

theorem Enabled.expanded_eq (enabled : Enabled decompress sent arrival) :
    decompress arrival.datagram.firstPayload arrival.datagram.src arrival.datagram.dst =
        some (expanded decompress arrival.datagram) ∧
      (expanded decompress arrival.datagram).length =
        arrival.datagram.request.secondPosition := by
  have expands := enabled.2.2.1
  unfold LowPanDatagram.Expands at expands
  unfold expanded
  cases decompressed : decompress arrival.datagram.firstPayload arrival.datagram.src
      arrival.datagram.dst with
  | none =>
      rw [decompressed] at expands
      exact nomatch expands
  | some result =>
      rw [decompressed] at expands
      exact ⟨rfl, Option.some.inj expands⟩

theorem Enabled.keyOf_eq (enabled : Enabled decompress sent arrival) :
    FragmentTable.keyOf arrival.fragment arrival.datagram.src arrival.datagram.dst =
      arrival.datagram.key := by
  obtain ⟨size, tag⟩ := enabled.2.1.header_eq enabled.2.2.2
  unfold FragmentTable.keyOf LowPanDatagram.key
  rw [size, tag]

/-- The first fragment holds what was expanded. -/
theorem Enabled.payload_eq (enabled : Enabled decompress sent arrival)
    (isFirst : arrival.fragment.isFirst = true) :
    arrival.fragment.payload = arrival.datagram.firstPayload := by
  obtain ⟨rest, isRest, isFragments⟩ := enabled.2.1.fragments_eq
  have member : arrival.fragment ∈ arrival.datagram.request.fragments := enabled.2.2.2
  rw [isFragments] at member
  rcases List.mem_cons.mp member with same | later
  · rw [same]
    rfl
  · rw [(isRest.header _ later).1] at isFirst
    exact nomatch isFirst

/-- `ProcessFragment`, for the first fragment and the others alike. -/
theorem Enabled.process_eq (enabled : Enabled decompress sent arrival) (self : Reception) :
    self.process decompress arrival = (do
      let (table, fragments) ← self.table.findOrCreate arrival.datagram.key
        (wrap 11 arrival.datagram.request.origPacketSize)
      let added ← fragments.addFragment
        (FragmentationRequest.tile (expanded decompress arrival.datagram) arrival.fragment).2
        (FragmentationRequest.tile (expanded decompress arrival.datagram) arrival.fragment).1
      table.processStored arrival.datagram.key
        (if arrival.fragment.isFirst then added.addFirstFragment arrival.datagram.firstPayload
        else added)) := by
  have size := (enabled.2.1.header_eq enabled.2.2.2).1
  unfold process FragmentTable.processFragment
  rw [enabled.keyOf_eq, size]
  dsimp only
  cases isFirst : arrival.fragment.isFirst with
  | true =>
      have payload := enabled.payload_eq isFirst
      rw [if_pos rfl, payload, enabled.expanded_eq.1]
      simp only [FragmentationRequest.tile, isFirst, if_true]
  | false =>
      simp only [FragmentationRequest.tile, SixLowPanFragment.chunk, SixLowPanFragment.position,
        isFirst, Bool.false_eq_true, if_false]

theorem Invariant.nodup (invariant : Invariant decompress sent self) : self.waiting.Nodup :=
  invariant.keys.nodup_iff.mp self.table.fragments.keys_nodup

theorem Invariant.lookup_eq_none (invariant : Invariant decompress sent self) {key : FragmentKey}
    (absent : key ∉ self.waiting) : self.table.fragments.lookup key = none := by
  rw [AList.lookup_eq_none, AList.mem_keys, invariant.keys.mem_iff]
  exact absent

theorem Invariant.isFull_iff (invariant : Invariant decompress sent self) :
    self.table.IsFull ↔ self.Crowded := by
  have length : self.table.fragments.entries.length = self.waiting.length := by
    rw [← invariant.keys.length_eq, AList.keys, List.keys, List.length_map]
  unfold FragmentTable.IsFull Crowded
  rw [length]

/-- A table that has room for the datagram, with the datagrams that wait. -/
structure Opened (reception : Reception) (key : FragmentKey) (table : FragmentTable) : Prop where
  limit : table.fragmentReassemblyListSize = reception.table.fragmentReassemblyListSize
  timeouts : table.timeoutEventList = reception.waitingWith key
  keys : table.fragments.keys.Perm (reception.waitingWith key)
  others : ∀ other ∈ reception.waitingWith key, other ≠ key → other ∈ reception.waiting ∧
    table.fragments.lookup other = reception.table.fragments.lookup other

/-- The table once the oldest datagram has been erased if it has to be. -/
theorem Invariant.makeRoom (invariant : Invariant decompress sent self) :
    ∃ table, self.table.makeRoom = some table ∧
      table.fragmentReassemblyListSize = self.table.fragmentReassemblyListSize ∧
      table.timeoutEventList = (if self.Crowded then self.waiting.tail else self.waiting) ∧
      table.fragments.keys.Perm (if self.Crowded then self.waiting.tail else self.waiting) ∧
      ∀ other ∈ (if self.Crowded then self.waiting.tail else self.waiting),
        other ∈ self.waiting ∧
          table.fragments.lookup other = self.table.fragments.lookup other := by
  have full := invariant.isFull_iff
  unfold FragmentTable.makeRoom
  by_cases crowded : self.Crowded
  · rw [if_pos (full.mpr crowded)]
    simp only [crowded, if_true]
    cases isWaiting : self.waiting with
    | nil =>
        obtain ⟨limited, most⟩ := crowded
        rw [isWaiting] at most
        exact absurd (Nat.le_zero.mp most) limited
    | cons oldest rest =>
        have timeouts := invariant.timeouts
        rw [isWaiting] at timeouts
        obtain ⟨stored, found, -⟩ := invariant.stored oldest (by simp [isWaiting])
        have nodup := invariant.nodup
        rw [isWaiting] at nodup
        obtain ⟨absent, -⟩ := List.nodup_cons.mp nodup
        have keys := invariant.keys.erase oldest
        rw [isWaiting, List.erase_cons_head] at keys
        refine ⟨{ self.table with
          timeoutEventList := rest
          fragments := self.table.fragments.erase oldest }, ?_, rfl, rfl, ?_, ?_⟩
        · unfold FragmentTable.eraseOldest
          rw [timeouts]
          dsimp only
          rw [found, Option.map_some, List.erase_cons_head]
        · dsimp only
          rw [AList.keys_erase]
          exact keys
        · intro other member
          have different : other ≠ oldest := fun same => absent (same ▸ member)
          exact ⟨List.mem_cons_of_mem oldest member, AList.lookup_erase_ne different⟩
  · rw [if_neg (fun isFull => crowded (full.mp isFull))]
    simp only [crowded, if_false]
    exact ⟨self.table, rfl, rfl, invariant.timeouts, invariant.keys,
      fun other member => ⟨member, rfl⟩⟩

theorem Invariant.findOrCreate (invariant : Invariant decompress sent self) (key : FragmentKey) :
    ∃ table stored, self.table.findOrCreate key (wrap 11 (sent key).request.origPacketSize) =
        some (table, stored) ∧
      self.Opened key table ∧
      (sent key).Waits (expanded decompress (sent key))
        (if key ∈ self.waiting then self.received key else []) stored := by
  unfold FragmentTable.findOrCreate
  by_cases isWaiting : key ∈ self.waiting
  · obtain ⟨stored, found, waits⟩ := invariant.stored key isWaiting
    rw [found, if_pos isWaiting]
    have same : self.waitingWith key = self.waiting := if_pos isWaiting
    refine ⟨self.table, stored, rfl, ⟨rfl, ?_, ?_, ?_⟩, waits⟩
    · rw [same]
      exact invariant.timeouts
    · rw [same]
      exact invariant.keys
    · rw [same]
      intro other member _
      exact ⟨member, rfl⟩
  · obtain ⟨table, room, limit, timeouts, keys, others⟩ := invariant.makeRoom
    have with_ : self.waitingWith key =
        (if self.Crowded then self.waiting.tail else self.waiting) ++ [key] := if_neg isWaiting
    have absent : key ∉ table.fragments.keys := by
      rw [keys.mem_iff]
      intro member
      exact isWaiting (others key member).1
    rw [invariant.lookup_eq_none isWaiting, if_neg isWaiting]
    dsimp only
    rw [room]
    refine ⟨_, _, rfl, ⟨limit, ?_, ?_, ?_⟩, LowPanDatagram.waits_create _ _⟩
    · rw [with_, ← timeouts]
    · dsimp only
      rw [with_, AList.keys_insert, List.erase_of_not_mem absent]
      exact (keys.cons key).trans (List.perm_append_singleton _ _).symm
    · intro other member different
      rw [with_] at member
      have old := (List.mem_append.mp member).resolve_right fun new =>
        different (List.mem_singleton.mp new)
      obtain ⟨waits, found⟩ := others other old
      refine ⟨waits, ?_⟩
      dsimp only
      rw [AList.lookup_insert_ne different, found]

/-- The fragments that wait once the one that arrives has been added. -/
theorem Invariant.add (invariant : Invariant decompress sent self)
    (enabled : Enabled decompress sent arrival) :
    ∃ table stored, self.process decompress arrival =
        table.processStored arrival.datagram.key stored ∧
      self.Opened arrival.datagram.key table ∧
      arrival.datagram.Waits (expanded decompress arrival.datagram) (self.gathered arrival)
        stored := by
  obtain ⟨table, stored, found, opened, waits⟩ := invariant.findOrCreate arrival.datagram.key
  obtain ⟨-, length⟩ := enabled.expanded_eq
  rw [← enabled.1] at found waits
  obtain ⟨added, isAdded, size, first, tiles⟩ :=
    waits.addFragment enabled.2.1 length enabled.2.2.2
  refine ⟨table, if arrival.fragment.isFirst then
    added.addFirstFragment arrival.datagram.firstPayload else added, ?_, opened, ?_⟩
  · rw [enabled.process_eq, found, Option.bind_eq_bind, Option.bind_some]
    dsimp only
    rw [isAdded, Option.bind_eq_bind, Option.bind_some]
  · cases isFirst : arrival.fragment.isFirst with
    | true =>
        rw [if_pos rfl]
        exact ⟨size.trans waits.packetSize, tiles, fun _ => rfl⟩
    | false =>
        rw [if_neg Bool.false_ne_true]
        refine ⟨size.trans waits.packetSize, tiles, ?_⟩
        rintro ⟨fragment, member, firstOne⟩
        rw [first]
        apply waits.first
        refine ⟨fragment, ?_, firstOne⟩
        refine (List.mem_append.mp member).resolve_right fun new => ?_
        rw [List.mem_singleton.mp new, isFirst] at firstOne
        exact nomatch firstOne

theorem Invariant.process_complete (invariant : Invariant decompress sent self)
    (enabled : Enabled decompress sent arrival) (complete : self.Complete arrival) :
    ∃ table, self.Opened arrival.datagram.key table ∧
      self.process decompress arrival =
        some ({ table with
          timeoutEventList := table.timeoutEventList.erase arrival.datagram.key
          fragments := table.fragments.erase arrival.datagram.key },
          some arrival.datagram.request.packet) := by
  obtain ⟨table, stored, processed, opened, waits⟩ := invariant.add enabled
  obtain ⟨-, length⟩ := enabled.expanded_eq
  have member : arrival.fragment ∈ self.gathered arrival := by simp [gathered]
  have entire := (waits.isEntire_iff enabled.2.1 length enabled.2.2.2 member).mpr complete
  have packet := waits.getPacket_eq enabled.2.1 length complete
  refine ⟨table, opened, ?_⟩
  rw [processed]
  unfold FragmentTable.processStored
  rw [if_pos entire, packet, Option.map_some]

theorem Invariant.process_incomplete (invariant : Invariant decompress sent self)
    (enabled : Enabled decompress sent arrival) (incomplete : ¬ self.Complete arrival) :
    ∃ table stored, self.Opened arrival.datagram.key table ∧
      arrival.datagram.Waits (expanded decompress arrival.datagram) (self.gathered arrival)
        stored ∧
      self.process decompress arrival =
        some ({ table with fragments := table.fragments.insert arrival.datagram.key stored },
          none) := by
  obtain ⟨table, stored, processed, opened, waits⟩ := invariant.add enabled
  obtain ⟨-, length⟩ := enabled.expanded_eq
  have member : arrival.fragment ∈ self.gathered arrival := by simp [gathered]
  have entire := waits.isEntire_iff enabled.2.1 length enabled.2.2.2 member
  refine ⟨table, stored, opened, waits, ?_⟩
  rw [processed]
  unfold FragmentTable.processStored
  rw [if_neg fun isEntire => incomplete (entire.mp isEntire)]

theorem Invariant.reassembles (invariant : Invariant decompress sent self)
    (enabled : Enabled decompress sent arrival) : self.Reassembles decompress arrival := by
  unfold Reassembles
  by_cases complete : self.Complete arrival
  · obtain ⟨table, -, processed⟩ := invariant.process_complete enabled complete
    rw [processed, if_pos complete, Option.map_some]
  · obtain ⟨table, stored, -, -, processed⟩ := invariant.process_incomplete enabled complete
    rw [processed, if_neg complete, Option.map_some]

theorem Invariant.step (invariant : Invariant decompress sent self)
    (enabled : Enabled decompress sent arrival) :
    Invariant decompress sent (self.step decompress arrival) := by
  unfold Reception.step
  dsimp only
  by_cases complete : self.Complete arrival
  · obtain ⟨table, opened, processed⟩ := invariant.process_complete enabled complete
    rw [processed, if_pos complete]
    have nodup : (self.waitingWith arrival.datagram.key).Nodup :=
      opened.keys.nodup_iff.mp table.fragments.keys_nodup
    refine ⟨?_, ?_, ?_⟩
    · dsimp only [Option.map_some, Option.getD_some]
      rw [opened.timeouts]
    · dsimp only [Option.map_some, Option.getD_some]
      rw [AList.keys_erase]
      exact opened.keys.erase _
    · intro key member
      obtain ⟨different, isWaiting⟩ := nodup.mem_erase_iff.mp member
      obtain ⟨old, same⟩ := opened.others key isWaiting different
      obtain ⟨stored, found, waits⟩ := invariant.stored key old
      refine ⟨stored, ?_, ?_⟩
      · dsimp only [Option.map_some, Option.getD_some]
        rw [AList.lookup_erase_ne different, same, found]
      · dsimp only
        rw [Function.update_of_ne different]
        exact waits
  · obtain ⟨table, stored, opened, waits, processed⟩ :=
      invariant.process_incomplete enabled complete
    rw [processed, if_neg complete]
    have inside : arrival.datagram.key ∈ table.fragments.keys := by
      rw [opened.keys.mem_iff]
      unfold waitingWith
      split
      · assumption
      · simp
    refine ⟨opened.timeouts, ?_, ?_⟩
    · dsimp only [Option.map_some, Option.getD_some]
      rw [AList.keys_insert]
      exact (List.perm_cons_erase inside).symm.trans opened.keys
    · intro key member
      dsimp only [Option.map_some, Option.getD_some]
      by_cases this : key = arrival.datagram.key
      · subst this
        refine ⟨stored, AList.lookup_insert _, ?_⟩
        rw [Function.update_self, ← enabled.1]
        exact waits
      · obtain ⟨old, same⟩ := opened.others key member this
        obtain ⟨kept, found, keptWaits⟩ := invariant.stored key old
        refine ⟨kept, ?_, ?_⟩
        · rw [AList.lookup_insert_ne this, same, found]
        · rw [Function.update_of_ne this]
          exact keptWaits

/-- `DoFragmentation` ends with fragments that fit the link and hold the packet, and in every
run of arrivals `ProcessFragment` gives the packet exactly when no fragment of it is missing
among those that have arrived since it began to wait. -/
theorem fragments_reassemble (decompress : Decompression) :
    (∀ request : FragmentationRequest, request.Valid →
      (∀ turns > request.packet.length,
        request.doFragmentation turns = some request.fragments) ∧
      (∀ fragment ∈ request.fragments, fragment.size + request.extraHdrSize ≤ request.l2Mtu) ∧
      (request.fragments.map SixLowPanFragment.payload).flatten = request.packet) ∧
    ∀ (sent : FragmentKey → LowPanDatagram) (fragmentReassemblyListSize : Nat)
      (arrivals : List LowPanArrival),
      (machine decompress sent).Legal (create fragmentReassemblyListSize) arrivals →
      (machine decompress sent).Along (Reassembles decompress)
        (create fragmentReassemblyListSize) arrivals := by
  constructor
  · intro request valid
    exact ⟨fun turns enough => valid.doFragmentation_eq enough,
      fun fragment member => valid.size_le member, valid.flatten_payloads⟩
  · intro sent fragmentReassemblyListSize arrivals legal
    have always : (machine decompress sent).Always (Invariant decompress sent)
        (create fragmentReassemblyListSize) arrivals :=
      legal.always (fun _ _ invariant enabled => invariant.step enabled)
        (invariant_create decompress sent fragmentReassemblyListSize)
    exact always.along (fun _ _ invariant enabled => invariant.reassembles enabled) legal

/-- A packet that is not compressed has one byte in front of it. -/
def uncompressed : Decompression
  | 0x41 :: packet, _, _ => some packet
  | _, _, _ => none

/-- A datagram of 120 bytes, which is sent in three fragments. -/
def sample (tag : Nat) : LowPanDatagram where
  src := .mac16 0 1
  dst := .mac16 0 2
  request :=
    { packet := 0x41 :: (List.range 120).map UInt8.ofNat
      origPacketSize := 120
      origHdrSize := 40
      extraHdrSize := 0
      l2Mtu := 60
      tag := tag }

/-- A fragment of a sample. -/
def sampleArrival (tag index : Nat) : LowPanArrival :=
  ⟨sample tag, (sample tag).fragments.getD index (.frag1 0 0 [])⟩

/-- The datagrams whose tags are their own. -/
def sampleSent (key : FragmentKey) : LowPanDatagram := sample key.datagramTag

/-- Two datagrams that arrive at the same time, one of them backwards and with a copy. -/
theorem fragments_reassemble_two :
    ((sample 0).request.fragments.map SixLowPanFragment.payload).flatten =
        (sample 0).request.packet ∧
      (machine uncompressed sampleSent).Along (Reassembles uncompressed) (create 0)
        [sampleArrival 0 2, sampleArrival 1 0, sampleArrival 0 1, sampleArrival 0 1,
          sampleArrival 1 1, sampleArrival 0 0, sampleArrival 1 2] :=
  ⟨((fragments_reassemble uncompressed).1 (sample 0).request (by decide +kernel)).2.2,
    (fragments_reassemble uncompressed).2 sampleSent 0 _ (by decide +kernel)⟩

/-- With room for one datagram, another one drives out what has arrived, and the last missing
fragment does not give the packet. -/
theorem not_reassembles_evicted :
    (machine uncompressed sampleSent).Legal (create 1)
        [sampleArrival 0 0, sampleArrival 0 1, sampleArrival 1 0, sampleArrival 0 2] ∧
      (∀ part ∈ (sample 0).fragments, ⟨sample 0, part⟩ ∈
        [sampleArrival 0 0, sampleArrival 0 1, sampleArrival 1 0, sampleArrival 0 2]) ∧
      (machine uncompressed sampleSent).Along
        (fun self arrival => (self.process uncompressed arrival).map Prod.snd = some none)
        (create 1)
        [sampleArrival 0 0, sampleArrival 0 1, sampleArrival 1 0, sampleArrival 0 2] := by
  decide +kernel

end Reception

end Ns3.SixLowPan
