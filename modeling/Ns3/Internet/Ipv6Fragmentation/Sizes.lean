import Ns3.Internet.Ipv4Fragmentation.Sizes
import Ns3.Internet.Ipv6Fragmentation.Reassembly

/-!
The fragments of packets of every size, and with headers of every size.

`GetFragments` reads the length of each header of the unfragmentable part into eight bits. With a
header of 256 bytes or more it takes the unfragmentable part for shorter than it is, and the
fragments do not fit into the MTU.
-/

namespace Ns3.Internet

open Library Ipv6ExtensionFragment

/-- The bytes of the fragmentable part in a fragment, and their position; the fragment header
stands behind the unfragmentable part. -/
def Ipv6Fragment.chunk (front : Nat) (fragment : Ipv6Fragment) : Chunk UInt8 :=
  (((Ipv6ExtensionFragmentHeader.deserialize (fragment.packet.drop front)).map
      Ipv6ExtensionFragmentHeader.getOffset).getD 0,
    fragment.packet.drop (front + Ipv6ExtensionFragmentHeader.serializedSize))

namespace Ipv6ExtensionFragment

/-- The fragment that the loop makes of a piece. -/
def fragmentOf (p : List UInt8) (headers : List Ipv6ExtensionHeader) (nextHeader : UInt8)
    (ipv6Header : Ipv6Header) (limit identification : Nat) (piece : Nat × Nat) : Ipv6Fragment :=
  let fragment := addHeaders headers
    ((Ipv6ExtensionFragmentHeader.mk nextHeader
        (piece.1 + if p.length > wrap 32 (piece.1 + limit) then 1 else 0) identification).serialize ++
      (p.drop piece.1).take piece.2)
  ⟨fragment, { ipv6Header with payloadLength := wrap 16 fragment.length }⟩

/-- The loop cuts the fragmentable part. -/
theorem fragmentLoop_eq (p : List UInt8) (headers : List Ipv6ExtensionHeader) (nextHeader : UInt8)
    (ipv6Header : Ipv6Header) (limit identification turns : Nat)
    (previous : Ipv6ExtensionFragmentHeader) {offset : Nat} (aligned : offset % 8 = 0) :
    fragmentLoop p headers nextHeader ipv6Header limit identification turns previous offset =
      (cut p.length limit (limit - limit % 8) turns offset).map
        (List.map (fragmentOf p headers nextHeader ipv6Header limit identification)) := by
  induction turns generalizing offset previous with
  | zero => rfl
  | succ turns inductionHypothesis =>
      have next : wrap 16 (offset + (limit - limit % 8)) % 8 = 0 := by
        rw [wrap]
        omega
      rw [fragmentLoop, cut, Ipv6Datagram.prepare_eq previous nextHeader aligned]
      by_cases more : p.length > wrap 32 (offset + limit)
      · simp only [more, decide_true, if_true, inductionHypothesis _ next, Option.map_map]
        congr 1
        funext later
        simp [fragmentOf, more]
      · simp [fragmentOf, more]

end Ipv6ExtensionFragment

namespace Ipv6Datagram

/-- What `GetFragments` makes of the packet, if its loop ends within some turns. -/
def fragmentsIn (datagram : Ipv6Datagram) (turns : Nat) : Option (List Ipv6Fragment) := do
  let (headers, nextHeader, p, header) ←
    unfragmentablePart (datagram.unfragmentable ++ datagram.payload) datagram.header
  fragmentLoop p headers nextHeader header (maxFragmentablePartSize datagram.mtu headers)
    datagram.identification turns Ipv6ExtensionFragmentHeader.create 0

/-- `GetFragments` ends, and its fragments are disjoint parts of the fragmentable part that cover
it; they fit into the MTU, and all but the last one have multiples of eight bytes. -/
def DividesPayload (datagram : Ipv6Datagram) : Prop :=
  ∃ turns fragments, datagram.fragmentsIn turns = some fragments ∧
    Partitions 8 datagram.payload 0
      (fragments.map (Ipv6Fragment.chunk datagram.unfragmentable.length)) ∧
    ∀ fragment ∈ fragments, Ipv6Header.serializedSize + fragment.packet.length ≤ datagram.mtu

/-- A packet of any size with headers that `GetFragments` handles, and an MTU that every link has
to support. -/
structure Divisible (datagram : Ipv6Datagram) : Prop where
  chained : Chained datagram.nextHeader datagram.headers datagram.payload
  sizeFits : datagram.unfragmentable.length + datagram.payload.length < 2 ^ 32
  identificationFits : datagram.identification < 2 ^ 32
  enough : 1280 ≤ datagram.mtu
  mtuFits : datagram.mtu < 2 ^ 32

/-- What the MTU leaves for the fragmentable part of a fragment. -/
def space (datagram : Ipv6Datagram) : Nat :=
  datagram.mtu - Ipv6Header.serializedSize - datagram.unfragmentable.length -
    Ipv6ExtensionFragmentHeader.serializedSize

/-- The packet fits into the MTU with a fragment header; or every header of the unfragmentable
part is shorter than 256 bytes, there is space for eight bytes in a fragment, and the last fragment
has a position that fits into sixteen bits. -/
def Fits (datagram : Ipv6Datagram) : Prop :=
  datagram.unfragmentable.length + 48 + datagram.payload.length ≤ datagram.mtu ∨
    (∀ header ∈ datagram.headers, header.getLength < 256) ∧
      datagram.unfragmentable.length + 56 ≤ datagram.mtu ∧
      cuts datagram.payload.length datagram.space (datagram.space / 8 * 8) *
        (datagram.space / 8 * 8) < 2 ^ 16

variable {datagram : Ipv6Datagram}

/-- The computed size of the headers falls short of the real one by a multiple of 256. -/
theorem unfragmentablePartSize_mod {headers : List Ipv6ExtensionHeader}
    (wellFormed : ∀ header ∈ headers, header.WellFormed) :
    unfragmentablePartSize headers % 256 = (Ipv6ExtensionHeader.bytes headers).length % 256 := by
  unfold unfragmentablePartSize
  induction headers with
  | nil => rfl
  | cons header rest inductionHypothesis =>
      have later := inductionHypothesis fun other member =>
        wellFormed other (List.mem_cons_of_mem header member)
      have size := (Ipv6ExtensionHeader.length_serialize (wellFormed header List.mem_cons_self)).2
      rw [List.map_cons, List.sum_cons, Ipv6ExtensionHeader.bytes_cons, List.length_append, size,
        wrap]
      omega

theorem unfragmentablePartSize_eq_iff {headers : List Ipv6ExtensionHeader}
    (wellFormed : ∀ header ∈ headers, header.WellFormed) :
    unfragmentablePartSize headers = (Ipv6ExtensionHeader.bytes headers).length ↔
      ∀ header ∈ headers, header.getLength < 256 := by
  induction headers with
  | nil => exact iff_of_true rfl fun _ member => nomatch member
  | cons header rest inductionHypothesis =>
      have wellFormedRest := fun other member =>
        wellFormed other (List.mem_cons_of_mem header member)
      have later := inductionHypothesis wellFormedRest
      have fewer := unfragmentablePartSize_le wellFormedRest
      have size := (Ipv6ExtensionHeader.length_serialize (wellFormed header List.mem_cons_self)).2
      have less := wrap_le 8 header.getLength
      have same : wrap 8 header.getLength = header.getLength ↔ header.getLength < 256 :=
        Nat.mod_eq_iff_lt (by decide)
      unfold unfragmentablePartSize at fewer later ⊢
      rw [List.map_cons, List.sum_cons, Ipv6ExtensionHeader.bytes_cons, List.length_append, size,
        List.forall_mem_cons, ← later, ← same]
      omega

/-- The computed size of the fragments without their headers. -/
def computedSpace (datagram : Ipv6Datagram) : Nat :=
  maxFragmentablePartSize datagram.mtu datagram.headers

theorem computedSpace_lt (datagram : Ipv6Datagram) : datagram.computedSpace < 2 ^ 32 :=
  Nat.mod_lt _ (by decide)

/-- The fragment that `GetFragments` makes of a piece of the payload. -/
def fragmentOf (datagram : Ipv6Datagram) (piece : Nat × Nat) : Ipv6Fragment :=
  Ipv6ExtensionFragment.fragmentOf datagram.payload
    (Ipv6ExtensionHeader.pointToFragment datagram.headers)
    (Ipv6ExtensionHeader.followedBy datagram.nextHeader datagram.headers)
    { datagram.header with
      nextHeader := if datagram.headers = [] then Ipv6Header.extFragmentation
        else datagram.nextHeader }
    datagram.computedSpace datagram.identification piece

theorem fragmentsIn_eq
    (chained : Chained datagram.nextHeader datagram.headers datagram.payload) (turns : Nat) :
    datagram.fragmentsIn turns =
      (cut datagram.payload.length datagram.computedSpace
        (datagram.computedSpace - datagram.computedSpace % 8) turns 0).map
          (List.map datagram.fragmentOf) := by
  have same : maxFragmentablePartSize datagram.mtu
      (Ipv6ExtensionHeader.pointToFragment datagram.headers) = datagram.computedSpace := by
    unfold computedSpace maxFragmentablePartSize
    rw [unfragmentablePartSize_pointToFragment]
  unfold fragmentsIn
  rw [unfragmentablePart_eq chained, Option.bind_eq_bind, Option.bind_some]
  dsimp only
  rw [same, fragmentLoop_eq _ _ _ _ _ _ _ _ (Nat.zero_mod 8)]
  rfl

theorem packet_fragmentOf (datagram : Ipv6Datagram) (piece : Nat × Nat) :
    ∃ more < 2, (datagram.fragmentOf piece).packet = datagram.front ++
      ((Ipv6ExtensionFragmentHeader.mk
          (Ipv6ExtensionHeader.followedBy datagram.nextHeader datagram.headers)
          (piece.1 + more) datagram.identification).serialize ++
        (datagram.payload.drop piece.1).take piece.2) := by
  refine ⟨if datagram.payload.length > wrap 32 (piece.1 + datagram.computedSpace) then 1 else 0,
    ?_, addHeaders_eq _ _⟩
  split <;> decide

theorem length_fragmentOf (piece : Nat × Nat) :
    (datagram.fragmentOf piece).packet.length = datagram.unfragmentable.length + 8 +
      ((datagram.payload.drop piece.1).take piece.2).length := by
  obtain ⟨more, -, packet⟩ := packet_fragmentOf datagram piece
  rw [packet, List.length_append, List.length_append, length_front, Nat.add_assoc]
  rfl

/-- The receiver finds the piece in the fragment. -/
theorem chunk_fragmentOf (identificationFits : datagram.identification < 2 ^ 32)
    {piece : Nat × Nat} (aligned : piece.1 % 8 = 0) (short : piece.1 < 2 ^ 16) :
    (datagram.fragmentOf piece).chunk datagram.unfragmentable.length =
      chunkAt datagram.payload 0 piece := by
  obtain ⟨more, small, packet⟩ := packet_fragmentOf datagram piece
  have offset : (piece.1 + more) / 2 * 2 = piece.1 := by omega
  unfold Ipv6Fragment.chunk chunkAt
  rw [packet, ← length_front, List.drop_left, ← List.drop_drop, List.drop_left,
    deserialize_append (by dsimp only; omega) identificationFits, Option.map_some,
    Option.getD_some, Ipv6ExtensionFragmentHeader.getOffset, offset, Nat.add_zero,
    wrap_of_lt short]
  rfl

/-- Where the headers leave space, it is computed from the sizes that are read. -/
theorem computedSpace_eq (mtuFits : datagram.mtu < 2 ^ 32)
    (room : unfragmentablePartSize datagram.headers + 48 ≤ datagram.mtu) :
    datagram.computedSpace = datagram.mtu - 48 - unfragmentablePartSize datagram.headers := by
  unfold computedSpace maxFragmentablePartSize Ipv6Header.serializedSize
    Ipv6ExtensionFragmentHeader.serializedSize
  rw [wrapSub_of_le (a := datagram.mtu) (by omega) mtuFits,
    wrapSub_of_le (a := datagram.mtu - 10 * 4) (by omega) (by omega),
    wrapSub_of_le (by omega) (by omega)]
  omega

/-- The bytes of a fragment that is not the last one, as they are computed. -/
def computedUnit (datagram : Ipv6Datagram) : Nat :=
  datagram.computedSpace - datagram.computedSpace % 8

section Cut

variable {turns : Nat} {pieces : List (Nat × Nat)}

theorem chunks_eq (identificationFits : datagram.identification < 2 ^ 32)
    (ends : cut datagram.payload.length datagram.computedSpace datagram.computedUnit turns 0 =
      some pieces) :
    (pieces.map datagram.fragmentOf).map (Ipv6Fragment.chunk datagram.unfragmentable.length) =
      pieces.map (chunkAt datagram.payload 0) := by
  have units : datagram.computedUnit % 8 = 0 := by
    unfold computedUnit
    omega
  have offsets := offset_of_cut ends units (by decide) (Nat.zero_mod 8) (by decide)
  rw [List.map_map]
  exact List.map_congr_left fun piece member =>
    chunk_fragmentOf identificationFits (offsets piece member).1 (offsets piece member).2

/-- The first fragment has all of the payload, or as much as fits. -/
theorem exists_first (sizeFits : datagram.payload.length < 2 ^ 32)
    (some : datagram.payload.length ≤ datagram.computedSpace ∨ 0 < datagram.computedUnit)
    (ends : cut datagram.payload.length datagram.computedSpace datagram.computedUnit turns 0 =
      .some pieces) :
    ∃ fragment ∈ pieces.map datagram.fragmentOf, fragment.packet.length =
      datagram.unfragmentable.length + 8 +
        if datagram.payload.length ≤ datagram.computedSpace then datagram.payload.length
        else datagram.computedUnit := by
  have limitFits := datagram.computedSpace_lt
  have small : datagram.computedUnit ≤ datagram.computedSpace := Nat.sub_le _ _
  split
  next short =>
    cases turns with
    | zero => exact nomatch ends
    | succ turns =>
        rw [cut, Nat.zero_add, wrap_of_lt limitFits, if_neg (Nat.not_lt_of_le short)] at ends
        cases ends
        refine ⟨_, List.mem_singleton_self _, ?_⟩
        rw [length_fragmentOf, wrapSub_of_le (Nat.zero_le _) sizeFits, Nat.sub_zero, List.drop_zero,
          List.take_length]
  next long =>
    have positive := some.resolve_left long
    have further : 0 < cuts datagram.payload.length datagram.computedSpace datagram.computedUnit :=
      (lt_cuts_iff positive).mpr (by omega)
    obtain ⟨length, isPiece, -, isUnit⟩ := getElem_of_cut 0 0 sizeFits positive
      (by rwa [Nat.zero_mul, wrap_of_lt (Nat.two_pow_pos 16)]) (Nat.zero_le _)
      (cuts_mul_lt (Nat.lt_of_not_le long) small positive)
    rw [Nat.zero_add, Nat.zero_mul, wrap_of_lt (Nat.two_pow_pos 16)] at isPiece
    rw [isUnit further] at isPiece
    refine ⟨_, List.mem_map_of_mem (List.mem_of_getElem? isPiece), ?_⟩
    rw [length_fragmentOf, List.length_take, List.drop_zero]
    omega

end Cut

/-- Where the sizes of the headers are read as they are, so is the size of the fragments. -/
theorem unit_eq
    (same : unfragmentablePartSize datagram.headers =
      (Ipv6ExtensionHeader.bytes datagram.headers).length)
    (computed : datagram.computedSpace =
      datagram.mtu - 48 - unfragmentablePartSize datagram.headers) :
    datagram.space / 8 * 8 = datagram.computedUnit ∧ datagram.space = datagram.computedSpace := by
  unfold computedUnit Ipv6Datagram.space Ipv6Header.serializedSize
    Ipv6ExtensionFragmentHeader.serializedSize unfragmentable
  omega

/-- If the first fragment fits, the size of the headers is read as it is. -/
theorem fits_of_divides (divisible : datagram.Divisible) (divides : datagram.DividesPayload) :
    datagram.Fits := by
  obtain ⟨chained, sizeFits, identificationFits, -, mtuFits⟩ := divisible
  have fewer := unfragmentablePartSize_le chained.wellFormed
  have modulus := unfragmentablePartSize_mod chained.wellFormed
  obtain ⟨turns, fragments, ends, partitions, fit⟩ := divides
  rw [fragmentsIn_eq chained] at ends
  obtain ⟨pieces, found, rfl⟩ := Option.map_eq_some_iff.mp ends
  rw [chunks_eq identificationFits found] at partitions
  obtain ⟨some, offsetFits⟩ := (cut_partitions_iff (by omega) datagram.computedSpace_lt
    (Nat.sub_le _ _) (by omega) (by decide) (by omega) (by decide)).mp
      ⟨turns, pieces, found, partitions⟩
  obtain ⟨fragment, member, length⟩ := exists_first (by omega) some found
  have first := fit fragment member
  rw [length] at first
  unfold Ipv6Header.serializedSize computedUnit at first
  unfold unfragmentable at first sizeFits
  split at first
  next => exact .inl (by unfold unfragmentable; omega)
  next long =>
    have room : unfragmentablePartSize datagram.headers + 48 ≤ datagram.mtu := by omega
    have space := computedSpace_eq mtuFits room
    have same : unfragmentablePartSize datagram.headers =
        (Ipv6ExtensionHeader.bytes datagram.headers).length := by
      omega
    have isUnit := unit_eq same space
    refine .inr ⟨(unfragmentablePartSize_eq_iff chained.wellFormed).mp same, ?_, ?_⟩
    · have positive := some.resolve_left long
      unfold unfragmentable
      omega
    · rw [isUnit.1, isUnit.2, ← Nat.zero_add (_ * _)]
      exact offsetFits

/-- The division is right if and only if the packet fits. -/
theorem dividesPayload_iff (divisible : datagram.Divisible) :
    datagram.DividesPayload ↔ datagram.Fits := by
  refine ⟨fits_of_divides divisible, fun fits => ?_⟩
  obtain ⟨chained, sizeFits, identificationFits, -, mtuFits⟩ := divisible
  have fewer := unfragmentablePartSize_le chained.wellFormed
  have space : datagram.computedSpace = datagram.mtu - 48 - unfragmentablePartSize datagram.headers :=
    computedSpace_eq mtuFits (by unfold Fits unfragmentable at fits; omega)
  have build := (@cut_partitions_iff UInt8 8 0 datagram.computedSpace datagram.computedUnit
    datagram.payload (by omega) datagram.computedSpace_lt (Nat.sub_le _ _)
    (by unfold computedUnit; omega) (by decide) (by unfold computedUnit; omega) (by decide)).mpr
  rw [Nat.zero_add] at build
  have divides : (datagram.payload.length ≤ datagram.computedSpace ∨ 0 < datagram.computedUnit) ∧
      cuts datagram.payload.length datagram.computedSpace datagram.computedUnit *
        datagram.computedUnit < 2 ^ 16 := by
    rcases fits with short | ⟨read, room, offsetFits⟩
    · have one : datagram.payload.length ≤ datagram.computedSpace := by
        unfold unfragmentable at short
        omega
      rw [cuts_of_le one, Nat.zero_mul]
      exact ⟨.inl one, by decide⟩
    · have same := (unfragmentablePartSize_eq_iff chained.wellFormed).mpr read
      have isUnit := unit_eq same space
      unfold unfragmentable at room
      rw [isUnit.1, isUnit.2] at offsetFits
      exact ⟨.inr (by omega), offsetFits⟩
  obtain ⟨turns, pieces, found, partitions⟩ := build divides
  have made : datagram.fragmentsIn turns = some (pieces.map datagram.fragmentOf) :=
    (fragmentsIn_eq chained turns).trans (Option.map_eq_some_iff.mpr ⟨pieces, found, rfl⟩)
  refine ⟨turns, _, made, ?_, fun fragment member => ?_⟩
  · rwa [chunks_eq identificationFits found]
  obtain ⟨piece, isPiece, rfl⟩ := List.mem_map.mp member
  have most := length_le_of_cut found (Nat.sub_le _ _) rfl piece isPiece
  have all : ((datagram.payload.drop piece.1).take piece.2).length ≤ datagram.payload.length := by
    rw [List.length_take, List.length_drop]
    omega
  rw [length_fragmentOf]
  unfold Ipv6Header.serializedSize
  rcases fits with short | ⟨read, room, -⟩
  · omega
  · have same := (unfragmentablePartSize_eq_iff chained.wellFormed).mpr read
    unfold unfragmentable at room ⊢
    omega

end Ipv6Datagram

/-- The fragments of both protocols make up the packet if and only if the last positions fit into
sixteen bits and, in IPv6, the sizes of the headers fit into eight. -/
theorem fragments_divide_iff {packet : List UInt8} {ipv4Header : Ipv4Header} {mtu : Nat}
    (divisible : Ipv4L3Protocol.Divisible packet ipv4Header mtu) {datagram : Ipv6Datagram}
    (datagramDivisible : datagram.Divisible) :
    (Ipv4L3Protocol.DividesPacket packet ipv4Header mtu ↔
      Ipv4L3Protocol.LastFits packet ipv4Header mtu) ∧
    (datagram.DividesPayload ↔ datagram.Fits) :=
  ⟨Ipv4L3Protocol.dividesPacket_iff divisible, Ipv6Datagram.dividesPayload_iff datagramDivisible⟩

/-- A header of the first fragment of a datagram. -/
def firstHeader : Ipv4Header := (Ipv4Datagram.mk 1 2 3 17 []).whole.header

/-- A packet with these headers and bytes, for an interface with an MTU of 1500. -/
def packetOver (nextHeader : UInt8) (headers : List Ipv6ExtensionHeader) (size : Nat) :
    Ipv6Datagram where
  source := 1
  identification := 2
  nextHeader := nextHeader
  headers := headers
  payload := List.replicate size 7
  mtu := 1500

theorem divisible_firstHeader {size : Nat} (sizeFits : size < 2 ^ 32) :
    Ipv4L3Protocol.Divisible (List.replicate size 7) firstHeader 1500 where
  sizeFits := by rwa [List.length_replicate]
  aligned := rfl
  offsetFits := by decide
  enough := by decide
  mtuFits := by decide

theorem length_packetOver (nextHeader : UInt8) (headers : List Ipv6ExtensionHeader) (size : Nat) :
    (packetOver nextHeader headers size).payload.length = size := List.length_replicate

theorem divisible_packetOver {size : Nat} (sizeFits : size < 2 ^ 31) :
    (packetOver 17 [] size).Divisible where
  chained := rfl
  sizeFits := by
    rw [length_packetOver, show (packetOver 17 [] size).unfragmentable = [] from rfl,
      List.length_nil]
    omega
  identificationFits := by simp [packetOver]
  enough := by simp [packetOver]
  mtuFits := by simp [packetOver]

theorem fragments_divide_iff_large :
    (Ipv4L3Protocol.DividesPacket (List.replicate 4000 7) firstHeader 1500 ↔
      Ipv4L3Protocol.LastFits (List.replicate 4000 7) firstHeader 1500) ∧
    ((packetOver 17 [] 4000).DividesPayload ↔ (packetOver 17 [] 4000).Fits) :=
  fragments_divide_iff (divisible_firstHeader (by decide)) (divisible_packetOver (by decide))

/-- A header of 256 bytes. -/
def longHeader : Ipv6ExtensionHeader := .hopByHop 17 31 ⟨List.replicate 254 0⟩

theorem wellFormed_longHeader : longHeader.WellFormed := by
  change (List.replicate 254 (0 : UInt8)).length + 2 = _
  rw [List.length_replicate]
  rfl

theorem divisible_longHeader :
    (packetOver Ipv6Header.extHopByHop [longHeader] 4000).Divisible where
  chained := ⟨rfl, wellFormed_longHeader, rfl, rfl⟩
  sizeFits := by
    have whole := wellFormed_longHeader
    have bytes := (Ipv6ExtensionHeader.length_serialize whole).2
    have front : (packetOver Ipv6Header.extHopByHop [longHeader] 4000).unfragmentable.length =
        longHeader.serialize.length := congrArg List.length (List.append_nil _)
    rw [length_packetOver, front, bytes]
    decide
  identificationFits := by decide
  enough := by decide
  mtuFits := by decide

theorem cuts_of_lastFits {size : Nat}
    (fits : Ipv4L3Protocol.LastFits (List.replicate size 7) firstHeader 1500) :
    cuts size 1480 1480 * 1480 < 2 ^ 16 := by
  unfold Ipv4L3Protocol.LastFits at fits
  rw [List.length_replicate] at fits
  exact Nat.lt_of_le_of_lt (Nat.le_add_left _ _) fits

theorem cuts_of_fits {size : Nat} (fits : (packetOver 17 [] size).Fits) :
    size ≤ 1452 ∨ cuts size 1452 1448 * 1448 < 2 ^ 16 := by
  have space : (packetOver 17 [] size).space = 1452 := rfl
  unfold Ipv6Datagram.Fits at fits
  rw [length_packetOver, space] at fits
  exact fits.imp (fun short => Nat.le_of_add_le_add_left short) fun split => split.2.2

theorem short_of_fits {nextHeader : UInt8} {size : Nat}
    (fits : (packetOver nextHeader [longHeader] size).Fits) : size ≤ 1500 := by
  unfold Ipv6Datagram.Fits at fits
  rw [length_packetOver] at fits
  rcases fits with short | ⟨read, -⟩
  · exact Nat.le_trans (Nat.le_add_left _ _) short
  · exact absurd (read longHeader (List.mem_singleton_self _)) (by decide)

/-- Neither protocol divides a packet of 70000 bytes, and IPv6 none of 4000 bytes with a long
header. -/
theorem not_fragments_divide :
    ¬ (∀ packet ipv4Header mtu, Ipv4L3Protocol.Divisible packet ipv4Header mtu →
      Ipv4L3Protocol.DividesPacket packet ipv4Header mtu) ∧
    ¬ (packetOver 17 [] 70000).DividesPayload ∧
    ¬ (packetOver Ipv6Header.extHopByHop [longHeader] 4000).DividesPayload := by
  refine ⟨fun always => ?_, fun divides => ?_, fun divides => ?_⟩
  · have divisible := divisible_firstHeader (show 70000 < 2 ^ 32 by decide)
    have fits := (Ipv4L3Protocol.dividesPacket_iff divisible).mp (always _ _ _ divisible)
    exact absurd (cuts_of_lastFits fits) (by decide)
  · have divisible := divisible_packetOver (show 70000 < 2 ^ 31 by decide)
    have fits := (Ipv6Datagram.dividesPayload_iff divisible).mp divides
    exact absurd (cuts_of_fits fits) (by decide)
  · have fits := (Ipv6Datagram.dividesPayload_iff divisible_longHeader).mp divides
    exact absurd (short_of_fits fits) (by decide)

end Ns3.Internet
