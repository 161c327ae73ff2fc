import Ns3.Internet.Ipv6Fragmentation.Headers

/-!
The fragments of a packet.

All fragments but the last one take the same number of bytes, so that a fragment is
given by its index.
-/

namespace Ns3.Internet

open Library Ipv6ExtensionFragment

/-- A packet that a host fragments: its headers of the unfragmentable part, and the
fragmentable part. The first header has the type that the IPv6 header names. -/
structure Ipv6Datagram where
  source : Nat
  identification : Nat
  nextHeader : UInt8
  headers : List Ipv6ExtensionHeader
  payload : List UInt8
  mtu : Nat
  deriving DecidableEq

namespace Ipv6Datagram

/-- The unfragmentable part. -/
def unfragmentable (datagram : Ipv6Datagram) : List UInt8 :=
  Ipv6ExtensionHeader.bytes datagram.headers

def header (datagram : Ipv6Datagram) : Ipv6Header :=
  ⟨datagram.source, datagram.nextHeader,
    wrap 16 (datagram.unfragmentable ++ datagram.payload).length⟩

/-- What `GetFragments` makes of the packet. -/
def fragments (datagram : Ipv6Datagram) : Option (List Ipv6Fragment) :=
  getFragments (datagram.unfragmentable ++ datagram.payload) datagram.header datagram.mtu
    datagram.identification

/-- The packet that the receiver has to make of the fragments. -/
def reassembled (datagram : Ipv6Datagram) : List UInt8 :=
  Ipv6ExtensionHeader.bytes (Ipv6ExtensionHeader.pointToFragment datagram.headers) ++
    datagram.payload

/-- A chain of headers that `GetFragments` handles, and room for a fragment of eight bytes. -/
structure Valid (datagram : Ipv6Datagram) : Prop where
  chained : Chained datagram.nextHeader datagram.headers datagram.payload
  room : datagram.unfragmentable.length + 16 + 40 ≤ datagram.mtu
  mtuFits : datagram.mtu < 2 ^ 32
  payloadFits : datagram.payload.length < 2 ^ 16
  identificationFits : datagram.identification < 2 ^ 32

instance (datagram : Ipv6Datagram) : Decidable datagram.Valid :=
  decidable_of_iff
    (Chained datagram.nextHeader datagram.headers datagram.payload ∧
      datagram.unfragmentable.length + 16 + 40 ≤ datagram.mtu ∧ datagram.mtu < 2 ^ 32 ∧
      datagram.payload.length < 2 ^ 16 ∧ datagram.identification < 2 ^ 32)
    ⟨fun ⟨chained, room, mtu, payload, identification⟩ =>
      ⟨chained, room, mtu, payload, identification⟩,
      fun ⟨chained, room, mtu, payload, identification⟩ =>
        ⟨chained, room, mtu, payload, identification⟩⟩

/-- The most bytes that `GetFragments` puts in a fragment. -/
def limit (datagram : Ipv6Datagram) : Nat :=
  datagram.mtu - 40 - unfragmentablePartSize datagram.headers - 8

/-- The bytes of a fragment that is not the last one. -/
def unit (datagram : Ipv6Datagram) : Nat := datagram.limit - datagram.limit % 8

/-- The number of fragments. -/
def count (datagram : Ipv6Datagram) : Nat :=
  (datagram.payload.length - datagram.limit + (datagram.unit - 1)) / datagram.unit + 1

/-- The bytes of a fragment and their position. -/
def piece (datagram : Ipv6Datagram) (index : Nat) : Piece UInt8 where
  start := index * datagram.unit
  elements := (datagram.payload.drop (index * datagram.unit)).take
    (if index + 1 < datagram.count then datagram.unit
    else datagram.payload.length - index * datagram.unit)
  more := decide (index + 1 < datagram.count)

/-- The fragment header of a fragment. -/
def fragmentHeader (datagram : Ipv6Datagram) (index : Nat) : Ipv6ExtensionFragmentHeader where
  nextHeader := Ipv6ExtensionHeader.followedBy datagram.nextHeader datagram.headers
  offset := index * datagram.unit + if index + 1 < datagram.count then 1 else 0
  identification := datagram.identification

/-- The headers as the fragments have them. -/
def front (datagram : Ipv6Datagram) : List UInt8 :=
  Ipv6ExtensionHeader.bytes (Ipv6ExtensionHeader.pointToFragment datagram.headers).reverse

/-- The packet of a fragment. -/
def fragmentPacket (datagram : Ipv6Datagram) (index : Nat) : List UInt8 :=
  datagram.front ++ ((datagram.fragmentHeader index).serialize ++ (datagram.piece index).elements)

/-- A fragment. -/
def fragment (datagram : Ipv6Datagram) (index : Nat) : Ipv6Fragment where
  packet := datagram.fragmentPacket index
  header :=
    { datagram.header with
      nextHeader := if datagram.headers = [] then Ipv6Header.extFragmentation
        else datagram.nextHeader
      payloadLength := wrap 16 (datagram.fragmentPacket index).length }

variable {datagram : Ipv6Datagram}

theorem unfragmentablePartSize_le {headers : List Ipv6ExtensionHeader}
    (wellFormed : ∀ header ∈ headers, header.WellFormed) :
    unfragmentablePartSize headers ≤ (Ipv6ExtensionHeader.bytes headers).length := by
  unfold unfragmentablePartSize
  induction headers with
  | nil => exact Nat.le_refl 0
  | cons header rest inductionHypothesis =>
      have later := inductionHypothesis fun other member =>
        wellFormed other (List.mem_cons_of_mem header member)
      have size := (Ipv6ExtensionHeader.length_serialize (wellFormed header List.mem_cons_self)).2
      have less := wrap_le 8 header.getLength
      rw [List.map_cons, List.sum_cons, Ipv6ExtensionHeader.bytes_cons, List.length_append]
      omega

theorem Valid.limit_ge (valid : datagram.Valid) : 8 ≤ datagram.limit := by
  have fewer := unfragmentablePartSize_le valid.chained.wellFormed
  have room := valid.room
  unfold unfragmentable at room
  unfold limit
  omega

theorem Valid.unit_pos (valid : datagram.Valid) : 0 < datagram.unit := by
  have enough := valid.limit_ge
  unfold unit
  omega

theorem unit_mod (datagram : Ipv6Datagram) : datagram.unit % 8 = 0 := by
  unfold unit
  omega

theorem unit_le (datagram : Ipv6Datagram) : datagram.unit ≤ datagram.limit := Nat.sub_le _ _

/-- A fragment is followed by another one if the rest is too long. -/
theorem Valid.more_iff (valid : datagram.Valid) (index : Nat) :
    index + 1 < datagram.count ↔
      index * datagram.unit + datagram.limit < datagram.payload.length := by
  have positive := valid.unit_pos
  unfold count
  rw [Nat.add_lt_add_iff_right, ← Nat.succ_le_iff, Nat.le_div_iff_mul_le positive,
    Nat.succ_mul]
  omega

/-- The offset leaves the three lowest bits free. -/
theorem or_aligned {bit offset : Nat} (small : bit < 2) (aligned : offset % 8 = 0) :
    bit ||| offset = offset + bit := by
  have shifted : offset = 2 ^ 3 * (offset / 8) := by omega
  have sum := Nat.two_pow_add_eq_or_of_lt (show bit < 2 ^ 3 by omega) (offset / 8)
  rw [← shifted] at sum
  rw [Nat.or_comm, ← sum]

/-- The header does not depend on what it held before. -/
theorem prepare_eq (previous : Ipv6ExtensionFragmentHeader) (next : UInt8) {offset : Nat}
    (aligned : offset % 8 = 0) (more : Bool) (identification : Nat) :
    previous.prepare next offset more identification =
      ⟨next, offset + if more then 1 else 0, identification⟩ := by
  have units : offset / 8 * 8 = offset := by omega
  have saved := or_aligned (Nat.mod_lt previous.offset (by decide : 0 < 2)) aligned
  unfold Ipv6ExtensionFragmentHeader.prepare Ipv6ExtensionFragmentHeader.setMoreFragment
    Ipv6ExtensionFragmentHeader.setOffset
  dsimp only
  rw [units, saved]
  congr 1
  cases more with
  | false =>
      simp only [Bool.false_eq_true, if_false]
      omega
  | true =>
      have bits : ∀ bit < 2, bit ||| 1 = 1 := by decide
      have one := bits (previous.offset % 2) (Nat.mod_lt _ (by decide))
      simp only [if_true]
      rw [← saved, Nat.or_comm, ← Nat.or_assoc, Nat.or_comm 1, one,
        or_aligned (by decide) aligned]

theorem Valid.bounds (valid : datagram.Valid) {index : Nat} (inside : index < datagram.count) :
    index * datagram.unit + datagram.limit < 2 ^ 32 ∧
      index * datagram.unit ≤ datagram.payload.length := by
  have payloadFits := valid.payloadFits
  have mtuFits := valid.mtuFits
  have limitLe : datagram.limit ≤ datagram.mtu := by
    unfold limit
    omega
  cases index with
  | zero =>
      rw [Nat.zero_mul]
      omega
  | succ index =>
      have before := (valid.more_iff index).mp inside
      have less := datagram.unit_le
      rw [Nat.succ_mul]
      omega

/-- The turn of the loop that makes the fragment. -/
theorem Valid.fragmentLoop (valid : datagram.Valid) (header : Ipv6Header) {index turns : Nat}
    (inside : index < datagram.count) (enough : datagram.count ≤ index + turns)
    (previous : Ipv6ExtensionFragmentHeader) :
    Ipv6ExtensionFragment.fragmentLoop datagram.payload
        (Ipv6ExtensionHeader.pointToFragment datagram.headers)
        (Ipv6ExtensionHeader.followedBy datagram.nextHeader datagram.headers) header
        datagram.limit datagram.identification turns previous (index * datagram.unit) =
      some ((List.range' index (datagram.count - index)).map fun index =>
        ⟨datagram.fragmentPacket index,
          { header with payloadLength := wrap 16 (datagram.fragmentPacket index).length }⟩) := by
  induction turns generalizing index previous with
  | zero => omega
  | succ turns inductionHypothesis =>
      obtain ⟨sumFits, startLe⟩ := valid.bounds inside
      have payloadFits := valid.payloadFits
      have more := valid.more_iff index
      have aligned : index * datagram.unit % 8 = 0 := by
        rw [Nat.mul_mod, datagram.unit_mod]
        rfl
      have decided : decide (datagram.payload.length >
          wrap 32 (index * datagram.unit + datagram.limit)) =
            decide (index + 1 < datagram.count) := by
        rw [wrap_of_lt sumFits]
        exact decide_eq_decide.mpr more.symm
      have rest : wrapSub 32 datagram.payload.length (index * datagram.unit) =
          datagram.payload.length - index * datagram.unit := wrapSub_of_le startLe (by omega)
      have made : datagram.fragmentPacket index = addHeaders
          (Ipv6ExtensionHeader.pointToFragment datagram.headers)
          ((datagram.fragmentHeader index).serialize ++ (datagram.piece index).elements) :=
        (addHeaders_eq _ _).symm
      have prepared := prepare_eq previous
        (Ipv6ExtensionHeader.followedBy datagram.nextHeader datagram.headers) aligned
        (decide (index + 1 < datagram.count)) datagram.identification
      rw [Ipv6ExtensionFragment.fragmentLoop, decided, rest, prepared]
      by_cases follows : index + 1 < datagram.count
      · have next : wrap 16 (index * datagram.unit + datagram.unit) =
            (index + 1) * datagram.unit := by
          have before := more.mp follows
          have less := datagram.unit_le
          rw [Nat.succ_mul, wrap_of_lt (by omega)]
        have isUnit : datagram.limit - datagram.limit % 8 = datagram.unit := rfl
        have left : datagram.count - index = datagram.count - (index + 1) + 1 := by omega
        have later := fun held => @inductionHypothesis (index + 1) follows (by omega) held
        rw [left, List.range'_succ, List.map_cons, made]
        simp only [follows, decide_true, if_true, isUnit, next, later, Option.map_some,
          fragmentHeader, piece]
      · have last : datagram.count - index = 1 := by omega
        rw [last, List.range'_one, List.map_cons, List.map_nil, made]
        simp only [follows, decide_false, Bool.false_eq_true, if_false, fragmentHeader, piece]

theorem length_headers_le {headers : List Ipv6ExtensionHeader}
    (wellFormed : ∀ header ∈ headers, header.WellFormed) :
    headers.length ≤ (Ipv6ExtensionHeader.bytes headers).length := by
  induction headers with
  | nil => exact Nat.le_refl 0
  | cons header rest inductionHypothesis =>
      have later := inductionHypothesis fun other member =>
        wellFormed other (List.mem_cons_of_mem header member)
      have some : 0 < header.serialize.length := by
        cases header <;> exact Nat.succ_pos _
      rw [List.length_cons, Ipv6ExtensionHeader.bytes_cons, List.length_append]
      omega

theorem Valid.count_le (valid : datagram.Valid) : datagram.count ≤ datagram.payload.length + 1 := by
  have positive := valid.unit_pos
  by_cases one : datagram.count = 1
  · omega
  · have some : 0 < datagram.count := Nat.succ_pos _
    have before := (valid.more_iff (datagram.count - 2)).mp (by omega)
    have less : datagram.count - 2 ≤ (datagram.count - 2) * datagram.unit :=
      Nat.le_mul_of_pos_right _ positive
    have enough := valid.limit_ge
    omega

theorem unfragmentablePartSize_pointToFragment (headers : List Ipv6ExtensionHeader) :
    unfragmentablePartSize (Ipv6ExtensionHeader.pointToFragment headers) =
      unfragmentablePartSize headers := by
  have lengths := congrArg (List.map (wrap 8)) (Ipv6ExtensionHeader.getLength_pointToFragment headers)
  rw [List.map_map, List.map_map] at lengths
  exact congrArg List.sum lengths

/-- The sizes that `GetFragments` subtracts from the MTU do not exceed it. -/
theorem Valid.maxFragmentablePartSize_eq (valid : datagram.Valid) :
    maxFragmentablePartSize datagram.mtu
      (Ipv6ExtensionHeader.pointToFragment datagram.headers) = datagram.limit := by
  have fewer := unfragmentablePartSize_le valid.chained.wellFormed
  have room := valid.room
  have mtuFits := valid.mtuFits
  unfold unfragmentable at room
  unfold maxFragmentablePartSize limit Ipv6Header.serializedSize
    Ipv6ExtensionFragmentHeader.serializedSize
  rw [unfragmentablePartSize_pointToFragment, wrapSub_of_le (a := datagram.mtu) (by omega) mtuFits,
    wrapSub_of_le (a := datagram.mtu - 10 * 4) (by omega) (by omega),
    wrapSub_of_le (by omega) (by omega)]

/-- `GetFragments` finds the headers of the datagram. -/
theorem unfragmentablePart_eq
    (chained : Chained datagram.nextHeader datagram.headers datagram.payload) :
    unfragmentablePart (datagram.unfragmentable ++ datagram.payload) datagram.header =
      some (Ipv6ExtensionHeader.pointToFragment datagram.headers,
        Ipv6ExtensionHeader.followedBy datagram.nextHeader datagram.headers, datagram.payload,
        { datagram.header with
          nextHeader := if datagram.headers = [] then Ipv6Header.extFragmentation
            else datagram.nextHeader }) := by
  have few := length_headers_le chained.wellFormed
  unfold unfragmentablePart
  change (if moreHeader datagram.nextHeader _ = true then _ else _) = _
  unfold unfragmentable
  cases headers : datagram.headers with
  | nil =>
      rw [headers] at chained
      have stop : moreHeader datagram.nextHeader datagram.payload = false := chained
      rw [Ipv6ExtensionHeader.bytes_nil, List.nil_append, if_neg (by simp [stop]), if_pos rfl]
      rfl
  | cons first rest =>
      rw [headers] at chained few
      have found := @Chained.removeHeaders datagram.nextHeader rest datagram.payload first chained
        ((Ipv6ExtensionHeader.bytes (first :: rest) ++ datagram.payload).length + 1)
        (by rw [List.length_cons] at few; rw [List.length_append]; omega)
      have same : datagram.header.nextHeader = datagram.nextHeader := rfl
      rw [if_pos chained.2.2.1, same, found, if_neg (List.cons_ne_nil _ _), Option.map_some]
      rfl

/-- `GetFragments` makes the fragments. -/
theorem Valid.fragments_eq (valid : datagram.Valid) :
    datagram.fragments = some ((List.range datagram.count).map datagram.fragment) := by
  have loop := fun header => @Valid.fragmentLoop datagram valid header 0
    (datagram.payload.length + 1) (Nat.succ_pos _)
    (Nat.le_trans valid.count_le (Nat.le_add_left _ _)) Ipv6ExtensionFragmentHeader.create
  rw [Nat.zero_mul, Nat.sub_zero, ← List.range_eq_range'] at loop
  unfold fragments getFragments
  rw [unfragmentablePart_eq valid.chained, Option.bind_eq_bind, Option.bind_some]
  dsimp only
  rw [valid.maxFragmentablePartSize_eq]
  exact loop _

end Ipv6Datagram

end Ns3.Internet
