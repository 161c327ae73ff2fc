import Ns3.Library.Machine
import Ns3.Internet.Ipv4Fragmentation.Travel

/-!
The reassembly of a datagram.

`Fragments` takes the datagram as complete if the fragments leave no hole and the one at
the end of the list is a last fragment.
-/

namespace Ns3.Internet

open Library

namespace Ipv4L3Protocol

/-- The fragments hold all the bytes of the payload. -/
def Complete (payload : List UInt8) (received : List Ipv4Fragment) : Prop :=
  ∀ position < payload.length, Covers (received.map Ipv4Fragment.chunk) position

instance (payload : List UInt8) (received : List Ipv4Fragment) :
    Decidable (Complete payload received) := inferInstanceAs (Decidable (∀ position < _, _))

/-- The tailmost fragment, the one with the greatest offset and of several the one that came
last, is a last fragment. -/
def EndsLast (received : List Ipv4Fragment) : Prop :=
  ∀ best ∈ Piece.tailmost (received.map Ipv4Fragment.piece), best.more = false

instance (received : List Ipv4Fragment) : Decidable (EndsLast received) :=
  inferInstanceAs (Decidable (∀ best ∈ _, _))

/-- The loop of `IsEntire` finds no hole in front of a fragment. -/
theorem contiguous_iff {list : List (Chunk UInt8)} {reached : Nat}
    (sorted : list.Pairwise fun a b => a.1 ≤ b.1)
    (fits : ∀ chunk ∈ list, chunk.1 + chunk.2.length < 2 ^ 16) :
    Fragments.contiguous list reached = true ↔
      ∀ chunk ∈ list, ∀ position, reached ≤ position → position < chunk.1 →
        Covers list position := by
  induction list generalizing reached with
  | nil => exact ⟨fun _ _ member => (nomatch member), fun _ => rfl⟩
  | cons stored rest inductionHypothesis =>
      obtain ⟨least, sortedRest⟩ := List.pairwise_cons.mp sorted
      have storedFits := fits stored List.mem_cons_self
      have later := @inductionHypothesis (max reached (stored.1 + stored.2.length)) sortedRest
        fun chunk member => fits chunk (List.mem_cons_of_mem stored member)
      rw [Fragments.contiguous, Nat.add_comm stored.2.length, wrap_of_lt storedFits]
      split
      next hole =>
        refine ⟨fun wrong => (nomatch wrong), fun covered => ?_⟩
        obtain ⟨chunk, member, low, -⟩ :=
          covered stored List.mem_cons_self reached (Nat.le_refl _) hole
        rcases List.mem_cons.mp member with rfl | behind
        · omega
        · have starts := least chunk behind
          omega
      next noHole =>
        rw [later]
        refine ⟨fun covered chunk member position low high => ?_,
          fun covered chunk member position low high => ?_⟩
        · rcases List.mem_cons.mp member with rfl | behind
          · omega
          · by_cases inside : position < stored.1 + stored.2.length
            · exact covers_cons.mpr (.inl ⟨by omega, inside⟩)
            · exact covers_cons.mpr (.inr (covered chunk behind position (by omega) high))
        · rcases covers_cons.mp (covered chunk (List.mem_cons_of_mem stored member) position
            (by omega) high) with ⟨-, inside⟩ | behind
          · omega
          · exact behind

/-- The loop of `GetPacket` takes the bytes that it does not have yet. -/
theorem assemble_eq {payload : List UInt8} (short : payload.length ≤ 65515)
    {list : List (Chunk UInt8)} {reached : Nat} (reachedLe : reached ≤ payload.length)
    (within : ∀ chunk ∈ list, chunk.1 + chunk.2.length ≤ payload.length)
    (slices : ∀ chunk ∈ list, chunk.SliceOf payload)
    (contiguous : Fragments.contiguous list reached = true) :
    ∃ stop, Fragments.assemble list (payload.take reached) = payload.take stop ∧
      reached ≤ stop ∧ ∀ chunk ∈ list, chunk.1 + chunk.2.length ≤ stop := by
  induction list generalizing reached with
  | nil => exact ⟨reached, rfl, Nat.le_refl _, fun _ member => nomatch member⟩
  | cons stored rest inductionHypothesis =>
      have storedWithin := within stored List.mem_cons_self
      have storedSlice := slices stored List.mem_cons_self
      rw [Fragments.contiguous, Nat.add_comm stored.2.length, wrap_of_lt (by omega)] at contiguous
      split at contiguous
      · exact nomatch contiguous
      next noHole =>
        have length : wrap 16 (payload.take reached).length = reached := by
          rw [List.length_take, Nat.min_eq_left reachedLe, wrap_of_lt (by omega)]
        obtain ⟨stop, assembled, further, others⟩ := inductionHypothesis
          (Nat.max_le.mpr ⟨reachedLe, storedWithin⟩)
          (fun chunk member => within chunk (List.mem_cons_of_mem stored member))
          (fun chunk member => slices chunk (List.mem_cons_of_mem stored member)) contiguous
        refine ⟨stop, ?_, by omega, fun chunk member => ?_⟩
        · rw [← assembled, Fragments.assemble, length]
          -- The bytes of the fragment from `reached` on.
          have more := storedSlice.drop (reached - stored.1)
          unfold Chunk.SliceOf at more
          dsimp only at more
          rw [Nat.add_sub_cancel' (by omega), List.length_drop] at more
          dsimp only
          split
          next overlap =>
            split
            next longer =>
              rw [more, List.take_take, Nat.min_self, ← List.take_add]
              congr 2
              omega
            next => rw [Nat.max_eq_left (by omega)]
          next =>
            have equal : reached = stored.1 := by omega
            rw [← equal, Nat.sub_self, List.drop_zero, Nat.sub_zero] at more
            rw [more, ← List.take_add]
            congr 2
            rw [List.length_take, List.length_drop]
            omega
        · rcases List.mem_cons.mp member with rfl | behind
          · omega
          · exact others chunk behind

section

variable {datagram : Ipv4Datagram} {received : List Ipv4Fragment} {stored : Fragments}

theorem Stores.parts (stores : stored.Stores (received.map Ipv4Fragment.piece))
    (all : ∀ fragment ∈ received, fragment.PartOf datagram) :
    ∀ chunk ∈ stored.chunks, chunk.SliceOf datagram.payload ∧
      chunk.1 + chunk.2.length ≤ datagram.payload.length := by
  intro chunk member
  obtain ⟨piece, isPiece, rfl⟩ := List.mem_map.mp (stores.perm.mem_iff.mp member)
  obtain ⟨fragment, inReceived, rfl⟩ := List.mem_map.mp isPiece
  exact ⟨(all fragment inReceived).slice, (all fragment inReceived).within⟩

/-- The fragment at the end of the list. -/
theorem Stores.exists_tailmost (stores : stored.Stores (received.map Ipv4Fragment.piece))
    (some : received ≠ []) :
    ∃ best ∈ received, stored.chunks.getLast? = .some best.chunk ∧
      stored.more = best.header.moreFragments ∧
      (EndsLast received ↔ best.header.moreFragments = false) := by
  cases isBest : Piece.tailmost (received.map Ipv4Fragment.piece) with
  | none => exact absurd (List.map_eq_nil_iff.mp (Piece.tailmost_eq_none isBest)) some
  | some piece =>
      obtain ⟨best, inReceived, rfl⟩ := List.mem_map.mp (Piece.mem_of_tailmost isBest)
      obtain ⟨last, sameFlag⟩ := stores.tail _ isBest
      refine ⟨best, inReceived, last, sameFlag, ?_⟩
      unfold EndsLast
      rw [isBest]
      simp [Ipv4Fragment.piece]

/-- The datagram counts as complete if all of it was received and the tailmost fragment is a
last one. -/
theorem isEntire_iff (stores : stored.Stores (received.map Ipv4Fragment.piece))
    (short : datagram.payload.length ≤ 65515)
    (all : ∀ fragment ∈ received, fragment.PartOf datagram) (some : received ≠ []) :
    stored.isEntire = true ↔ Complete datagram.payload received ∧ EndsLast received := by
  have parts := Stores.parts stores all
  have contiguous := @contiguous_iff stored.chunks 0 stores.sorted fun chunk member => by
    have within := (parts chunk member).2
    omega
  have sameChunks : (received.map Ipv4Fragment.piece).map Piece.chunk =
      received.map Ipv4Fragment.chunk := List.map_map
  have perm : stored.chunks.Perm (received.map Ipv4Fragment.chunk) := sameChunks ▸ stores.perm
  obtain ⟨best, inReceived, last, sameFlag, ends⟩ := Stores.exists_tailmost stores some
  have lastMember := List.mem_of_getLast? last
  have nonEmpty : stored.chunks.length > 0 := List.length_pos_of_mem lastMember
  have stops := (all best inReceived).last
  unfold Fragments.isEntire
  rw [Bool.and_eq_true, Bool.and_eq_true, contiguous, ends, Bool.not_eq_true', sameFlag,
    decide_eq_true_iff]
  refine ⟨fun ⟨⟨isLast, _⟩, covered⟩ => ⟨fun position inside => ?_, isLast⟩,
    fun ⟨complete, isLast⟩ => ⟨⟨isLast, nonEmpty⟩, fun chunk member position _ high => ?_⟩⟩
  · refine (covers_perm perm).mp ?_
    by_cases inLast : position < best.chunk.1
    · exact covered best.chunk lastMember position (Nat.zero_le _) inLast
    · have stop : best.chunk.1 + best.chunk.2.length = datagram.payload.length :=
        stops.mp isLast
      exact ⟨best.chunk, lastMember, Nat.le_of_not_lt inLast, stop ▸ inside⟩
  · have within := (parts chunk member).2
    exact (covers_perm perm).mpr (complete position (by omega))

/-- The packet of a complete datagram is its payload. -/
theorem getPacket_eq (stores : stored.Stores (received.map Ipv4Fragment.piece))
    (short : datagram.payload.length ≤ 65515)
    (all : ∀ fragment ∈ received, fragment.PartOf datagram) (some : received ≠ [])
    (entire : stored.isEntire = true) : stored.getPacket = datagram.payload := by
  have parts := Stores.parts stores all
  obtain ⟨-, endsLast⟩ := (isEntire_iff stores short all some).mp entire
  obtain ⟨best, inReceived, last, -, ends⟩ := Stores.exists_tailmost stores some
  have lastMember := List.mem_of_getLast? last
  have stopIs : best.chunk.1 + best.chunk.2.length = datagram.payload.length :=
    (all best inReceived).last.mp (ends.mp endsLast)
  unfold Fragments.isEntire at entire
  rw [Bool.and_eq_true, Bool.and_eq_true] at entire
  have contiguous := entire.2
  unfold Fragments.getPacket
  cases list : stored.chunks with
  | nil =>
      rw [list] at lastMember
      exact nomatch lastMember
  | cons first rest =>
      rw [list] at lastMember parts contiguous
      obtain ⟨firstSlice, firstWithin⟩ := parts first List.mem_cons_self
      rw [Fragments.contiguous] at contiguous
      split at contiguous
      · exact nomatch contiguous
      next starts =>
        have zero : first.1 = 0 := by omega
        have firstIs : first.2 = datagram.payload.take first.2.length := by
          rw [Chunk.SliceOf, zero, List.drop_zero] at firstSlice
          exact firstSlice
        rw [zero, Nat.add_zero, wrap_of_lt (by omega), Nat.zero_max] at contiguous
        obtain ⟨stop, assembled, further, others⟩ := @assemble_eq datagram.payload short rest
          first.2.length (by omega)
          (fun chunk member => (parts chunk (List.mem_cons_of_mem first member)).2)
          (fun chunk member => (parts chunk (List.mem_cons_of_mem first member)).1) contiguous
        rw [← firstIs] at assembled
        dsimp only
        rw [assembled]
        refine List.take_of_length_le ?_
        rcases List.mem_cons.mp lastMember with same | behind
        · rw [← same] at further zero
          omega
        · exact stopIs ▸ others best.chunk behind

end

/-- A fragment of a datagram arrives over some way. -/
structure Arrival where
  datagram : Ipv4Datagram
  hops : List Hop

namespace Arrival

/-- The key of the datagram. -/
def key (arrival : Arrival) : FragmentKey := fragmentKey arrival.datagram.whole.header

/-- What arrives, if the way exists. -/
def fragment (arrival : Arrival) : Option Ipv4Fragment :=
  arrival.datagram.whole.travel arrival.hops

end Arrival

/-- The protocol, with the fragments that have arrived under each key since the last complete
datagram. -/
structure Reception where
  protocol : Ipv4L3Protocol
  received : FragmentKey → List Ipv4Fragment

namespace Reception

/-- Nothing has arrived. -/
def create : Reception := ⟨Ipv4L3Protocol.create, fun _ => []⟩

/-- The fragments that have arrived once this one has. -/
def gathered (self : Reception) (arriving : Ipv4Fragment) : List Ipv4Fragment :=
  self.received (fragmentKey arriving.header) ++ [arriving]

/-- The arrival of a fragment. -/
def receive (self : Reception) (arriving : Ipv4Fragment) : Reception :=
  let processed := self.protocol.processFragment arriving
  { protocol := processed.1
    received := Function.update self.received (fragmentKey arriving.header)
      (if processed.2.isSome then [] else self.gathered arriving) }

/-- An arrival. -/
def step (self : Reception) (arrival : Arrival) : Reception :=
  match arrival.fragment with
  | none => self
  | some arriving => self.receive arriving

/-- A fragment of the datagram that is sent under the key arrives over a way of valid
interfaces. -/
def Enabled (sent : FragmentKey → Ipv4Datagram) (arrival : Arrival) : Prop :=
  arrival.datagram = sent arrival.key ∧ arrival.datagram.payload.length ≤ 65515 ∧
    (∀ hop ∈ arrival.hops, hop.Valid) ∧ arrival.fragment.isSome

instance (sent : FragmentKey → Ipv4Datagram) (arrival : Arrival) :
    Decidable (Enabled sent arrival) := inferInstanceAs (Decidable (_ ∧ _))

/-- The receiver of the datagrams, one under each key. -/
def machine (sent : FragmentKey → Ipv4Datagram) : Machine Reception Arrival where
  step := step
  Enabled _ := Enabled sent

instance (sent : FragmentKey → Ipv4Datagram) (self : Reception) (arrival : Arrival) :
    Decidable ((machine sent).Enabled self arrival) :=
  inferInstanceAs (Decidable (Enabled sent arrival))

/-- `ProcessFragment` gives the payload if the datagram is now complete, and nothing
otherwise. -/
def Reassembles (self : Reception) (arrival : Arrival) : Prop :=
  ∀ arriving ∈ arrival.fragment, (self.protocol.processFragment arriving).2 =
    if Complete arrival.datagram.payload (self.gathered arriving) then
      some arrival.datagram.payload
    else none

instance (self : Reception) (arrival : Arrival) : Decidable (self.Reassembles arrival) :=
  inferInstanceAs (Decidable (∀ arriving ∈ _, _))

/-- If the datagram is now complete, its tailmost fragment is a last one. -/
def Closed (self : Reception) (arrival : Arrival) : Prop :=
  ∀ arriving ∈ arrival.fragment, Complete arrival.datagram.payload (self.gathered arriving) →
    EndsLast (self.gathered arriving)

/-- The fragments that wait are those that have arrived. -/
structure Invariant (sent : FragmentKey → Ipv4Datagram) (reception : Reception) : Prop where
  stored : ∀ key, ((reception.protocol.fragments key).getD Fragments.create).Stores
    ((reception.received key).map Ipv4Fragment.piece)
  parts : ∀ key, ∀ fragment ∈ reception.received key, fragment.PartOf (sent key)

theorem invariant_create (sent : FragmentKey → Ipv4Datagram) : Invariant sent create :=
  ⟨fun _ => FlaggedChunks.stores_empty, fun _ _ member => nomatch member⟩

variable {sent : FragmentKey → Ipv4Datagram} {self : Reception}

/-- The fragments with the one that arrives. -/
theorem Invariant.arrive (invariant : Invariant sent self) {arriving : Ipv4Fragment}
    (part : arriving.PartOf (sent (fragmentKey arriving.header))) :
    (((self.protocol.fragments (fragmentKey arriving.header)).getD
        Fragments.create).addFragment arriving.packet arriving.header.fragmentOffset
          arriving.header.moreFragments).Stores
            ((self.gathered arriving).map Ipv4Fragment.piece) ∧
      ∀ fragment ∈ self.gathered arriving,
        fragment.PartOf (sent (fragmentKey arriving.header)) := by
  refine ⟨?_, fun fragment member => ?_⟩
  · unfold gathered
    rw [List.map_append]
    exact (invariant.stored _).add arriving.piece
  · rcases List.mem_append.mp member with old | new
    · exact invariant.parts _ fragment old
    · obtain rfl := List.mem_singleton.mp new
      exact part

/-- What `ProcessFragment` gives. -/
theorem Invariant.processFragment (invariant : Invariant sent self) {arriving : Ipv4Fragment}
    (part : arriving.PartOf (sent (fragmentKey arriving.header)))
    (short : (sent (fragmentKey arriving.header)).payload.length ≤ 65515) :
    (self.protocol.processFragment arriving).2 =
      if Complete (sent (fragmentKey arriving.header)).payload (self.gathered arriving) ∧
          EndsLast (self.gathered arriving) then
        some (sent (fragmentKey arriving.header)).payload
      else none := by
  obtain ⟨stored, parts⟩ := invariant.arrive part
  have some : self.gathered arriving ≠ [] := List.append_ne_nil_of_right_ne_nil _ (List.cons_ne_nil _ _)
  have entire := isEntire_iff stored short parts some
  have packet := getPacket_eq stored short parts some
  unfold Ipv4L3Protocol.processFragment Ipv4Header.isLastFragment
  dsimp only
  rw [Bool.not_not]
  split
  next isEntire => rw [if_pos (entire.mp isEntire), packet isEntire]
  next notEntire => rw [if_neg fun both => notEntire (entire.mpr both)]

theorem Invariant.receive (invariant : Invariant sent self) {arriving : Ipv4Fragment}
    (part : arriving.PartOf (sent (fragmentKey arriving.header))) :
    Invariant sent (self.receive arriving) := by
  obtain ⟨stored, parts⟩ := invariant.arrive part
  unfold Reception.receive Ipv4L3Protocol.processFragment Ipv4Header.isLastFragment
  dsimp only
  rw [Bool.not_not]
  -- Other keys are not concerned.
  have others : ∀ (waiting : Option Fragments) (received : List Ipv4Fragment),
      (waiting.getD Fragments.create).Stores (received.map Ipv4Fragment.piece) →
      (∀ fragment ∈ received, fragment.PartOf (sent (fragmentKey arriving.header))) →
      Invariant sent
        ⟨⟨Function.update self.protocol.fragments (fragmentKey arriving.header) waiting⟩,
          Function.update self.received (fragmentKey arriving.header) received⟩ := by
    intro waiting received isStored arePart
    refine ⟨fun key => ?_, fun key => ?_⟩
    · by_cases same : key = fragmentKey arriving.header
      · subst same
        simpa using isStored
      · simpa [same] using invariant.stored key
    · by_cases same : key = fragmentKey arriving.header
      · subst same
        simpa using arePart
      · simpa [same] using invariant.parts key
  split
  · exact others none [] FlaggedChunks.stores_empty fun _ member => nomatch member
  · exact others (some _) _ stored parts

theorem Enabled.partOf {arrival : Arrival} (enabled : Enabled sent arrival)
    {arriving : Ipv4Fragment} (arrives : arrival.fragment = some arriving) :
    fragmentKey arriving.header = arrival.key ∧ arriving.PartOf (sent arrival.key) := by
  obtain ⟨same, short, valid, -⟩ := enabled
  have part := (Ipv4Fragment.partOf_whole arrival.datagram).travel short valid arrives
  refine ⟨part.key, ?_⟩
  rw [← same]
  exact part

theorem Invariant.step (invariant : Invariant sent self) {arrival : Arrival}
    (enabled : Enabled sent arrival) : Invariant sent (self.step arrival) := by
  unfold Reception.step
  split
  · exact invariant
  next arriving arrives =>
    obtain ⟨sameKey, part⟩ := enabled.partOf arrives
    exact invariant.receive (sameKey ▸ part)

theorem Invariant.reassembles_iff (invariant : Invariant sent self) {arrival : Arrival}
    (enabled : Enabled sent arrival) : self.Reassembles arrival ↔ self.Closed arrival := by
  obtain ⟨arriving, arrives⟩ := Option.isSome_iff_exists.mp enabled.2.2.2
  obtain ⟨sameKey, part⟩ := enabled.partOf arrives
  have short := enabled.2.1
  rw [enabled.1] at short
  have processed := @Invariant.processFragment sent self invariant arriving
    (sameKey ▸ part) (sameKey ▸ short)
  rw [sameKey, ← enabled.1] at processed
  unfold Reassembles Closed
  simp only [arrives, Option.mem_some_iff, forall_eq', processed]
  by_cases complete : Complete arrival.datagram.payload (self.gathered arriving)
  · by_cases endsLast : EndsLast (self.gathered arriving)
    · simp [complete, endsLast]
    · simp [complete, endsLast]
  · simp [complete]

/-- At every arrival of every run, `ProcessFragment` gives the payload exactly when it is
complete if and only if the tailmost fragment of a complete datagram is a last one. -/
theorem reassembles_iff_along (sent : FragmentKey → Ipv4Datagram) (arrivals : List Arrival)
    (legal : (machine sent).Legal create arrivals) :
    (machine sent).Along (fun self arrival => self.Reassembles arrival ↔ self.Closed arrival)
      create arrivals := by
  have always : (machine sent).Always (Invariant sent) create arrivals :=
    Machine.Legal.always (fun _ _ invariant enabled => invariant.step enabled)
      (invariant_create sent) legal
  exact always.along (fun _ _ invariant enabled => invariant.reassembles_iff enabled) legal

/-- A datagram of that many bytes. -/
def sample (length : Nat) : Ipv4Datagram := ⟨1, 2, 3, 17, (List.range length).map UInt8.ofNat⟩

/-- The last fragment arrives twice, the second time in two pieces, before the first one
does. -/
theorem reassembles_iff_along_refragmented :
    (machine fun _ => sample 150).Along
      (fun self arrival => self.Reassembles arrival ↔ self.Closed arrival) create
      [⟨sample 150, [⟨120, 1⟩, ⟨120, 0⟩]⟩, ⟨sample 150, [⟨120, 1⟩, ⟨68, 0⟩]⟩,
        ⟨sample 150, [⟨120, 1⟩, ⟨68, 1⟩]⟩, ⟨sample 150, [⟨120, 0⟩, ⟨68, 0⟩]⟩,
        ⟨sample 150, [⟨120, 0⟩, ⟨68, 1⟩]⟩] :=
  reassembles_iff_along (fun _ => sample 150) _ (by decide +kernel)

/-- The last fragment arrives, then a piece of it that is not the last one, and then the
rest: the datagram is complete, and `ProcessFragment` gives nothing. -/
theorem not_reassembles_refragmented :
    (machine fun _ => sample 150).Legal create
        [⟨sample 150, [⟨120, 1⟩, ⟨120, 0⟩]⟩, ⟨sample 150, [⟨120, 1⟩, ⟨68, 0⟩]⟩,
          ⟨sample 150, [⟨120, 0⟩, ⟨120, 0⟩]⟩] ∧
      ¬ (machine fun _ => sample 150).Along Reassembles create
        [⟨sample 150, [⟨120, 1⟩, ⟨120, 0⟩]⟩, ⟨sample 150, [⟨120, 1⟩, ⟨68, 0⟩]⟩,
          ⟨sample 150, [⟨120, 0⟩, ⟨120, 0⟩]⟩] := by
  decide +kernel

end Reception

end Ipv4L3Protocol

end Ns3.Internet
