import Ns3.Network.Buffer.Kernel
import Ns3.Network.ByteTagList.Kernel
import Ns3.Network.NixVector
import Ns3.Network.PacketTagList.Kernel

/-!
`Packet::Serialize`: the parts of a packet, one after the other, in the memory of the caller.

Each part checks that its own bytes are left, and then writes its length, in a word that no
check counts, and its bytes, after which the next part starts at the next word. The
`Serialize` functions of the parts have the same shape, and differ in their fields. A number
that is counted up while it stands in memory is written with its last value.
-/

namespace Ns3.Network

open Library

namespace PacketSerialization

/-- What a statement stores: a number of so many bytes, or bytes. -/
inductive Datum
  | number (width value : Nat)
  | bytes (data : List UInt8)

def Datum.length : Datum → Nat
  | number width _ => width
  | bytes data => data.length

/-- A datum at a position of the memory. -/
structure Write where
  position : Nat
  datum : Datum

/-- `(n + 3) & (~3)`. -/
def align (n : Nat) : Nat := wrap 32 (n + 3) / 4 * 4

/-- A datum, after which the pointer moves on to the next word or to the next byte. -/
structure Field where
  datum : Datum
  aligned : Bool

def Field.size (field : Field) : Nat :=
  if field.aligned then align field.datum.length else field.datum.length

/-- A word. -/
def word (value : Nat) : Field := ⟨.number 4 value, true⟩

/-- Bytes that are filled up to a word. -/
def filled (data : List UInt8) : Field := ⟨.bytes data, true⟩

/-- A number, as `AddToRawU8` and its siblings write it. -/
def raw (width value : Nat) : Field := ⟨.number width value, false⟩

/-- Bytes, as `AddToRaw` writes them. -/
def rawBytes (data : List UInt8) : Field := ⟨.bytes data, false⟩

/-- `Serialize` of a part: whether it succeeds, and what it writes. -/
def serializeFields (maxSize : Nat) : List Field → Nat → Nat → Bool × List Write
  | [], _, _ => (true, [])
  | field :: fields, size, position =>
      if wrap 32 (size + field.size) ≤ maxSize then
        let later := serializeFields maxSize fields (wrap 32 (size + field.size))
          (position + field.size)
        (later.1, ⟨position, field.datum⟩ :: later.2)
      else (false, [])

/-- A part of a packet, and what its `GetSerializedSize` returns. -/
structure Part where
  fields : List Field
  serializedSize : Nat

/-- `NixVector`. -/
def nixVectorPart (nix : NixVector) : Part where
  fields := word nix.used :: word nix.currentVectorBitSize :: word nix.totalBitSize ::
    nix.nixVector.map word
  serializedSize := wrap 32 (4 + 4 + 4 + 4 * nix.nixVector.length)

/-- What `ByteTagList::Serialize` writes for an item. -/
def byteTagFields (getHash : Nat → Nat) (item : ByteTagList.Item) : List Field :=
  [word (getHash item.tag.tid), word item.tag.data.length, word (wrapInt 32 item.start),
    word (wrapInt 32 item.stop), filled item.tag.data]

/-- `ByteTagList`, with `TypeId::GetHash` and the items that follow `BeginAll`. -/
def byteTagListPart (getHash : Nat → Nat) (items : List ByteTagList.Item) : Part where
  fields := word items.length :: items.flatMap (byteTagFields getHash)
  serializedSize :=
    wrap 32 (4 + (items.map fun item => 4 + 3 * 4 + align item.tag.data.length).sum)

/-- What `PacketTagList::Serialize` writes for a tag. -/
def packetTagFields (getHash : Nat → Nat) (tag : Tag) : List Field :=
  [word tag.data.length, word (getHash tag.tid), filled tag.data]

/-- `PacketTagList`, with the tags from `m_next` on. -/
def packetTagListPart (getHash : Nat → Nat) (tags : List Tag) : Part where
  fields := word tags.length :: tags.flatMap (packetTagFields getHash)
  serializedSize := wrap 32 (4 + (tags.map fun tag => 4 + 4 + align tag.data.length).sum)

/-- A `SmallItem` and its `ExtraItem`, with the name of the type. -/
structure MetadataItem where
  typeUid : Nat
  name : List UInt8
  size : Nat
  chunkUid : Nat
  fragmentStart : Nat
  fragmentEnd : Nat
  packetUid : Nat

/-- `ns3::PacketMetadata`, with the items from `m_head` to `m_tail`. Items are only recorded once
`m_enable` is set, and it stays set. -/
structure PacketMetadata where
  enable : Bool
  packetUid : Nat
  items : List MetadataItem
  recorded : enable = false → items = []

/-- `(item.typeUid & 0xfffffffe) >> 1`. -/
def MetadataItem.uid (item : MetadataItem) : Nat := (item.typeUid &&& 0xfffffffe) >>> 1

/-- What `PacketMetadata::Serialize` writes for an item. -/
def MetadataItem.fields (item : MetadataItem) : List Field :=
  (if item.uid ≠ 0 then [raw 4 item.name.length, rawBytes item.name] else [raw 4 0]) ++
    [raw 1 (item.typeUid &&& 1), raw 4 item.size, raw 2 item.chunkUid, raw 4 item.fragmentStart,
      raw 4 item.fragmentEnd, raw 8 item.packetUid]

/-- What `PacketMetadata::GetSerializedSize` adds for an item. -/
def MetadataItem.serializedSize (item : MetadataItem) : Nat :=
  (if item.uid = 0 then 4 else 4 + item.name.length) + (1 + 4 + 2 + 4 + 4 + 8)

def metadataPart (metadata : PacketMetadata) : Part where
  fields := raw 8 metadata.packetUid :: metadata.items.flatMap MetadataItem.fields
  serializedSize :=
    if ! metadata.enable then 8
    else wrap 32 (8 + (metadata.items.map MetadataItem.serializedSize).sum)

/-- `Buffer`. -/
def bufferPart (heap : BufferHeap) (buffer : Buffer) : Part :=
  let dataStartLength := wrapSub 32 buffer.zeroAreaStart buffer.start
  let dataEndLength := wrapSub 32 buffer.stop buffer.zeroAreaEnd
  { fields :=
      [word (wrapSub 32 buffer.zeroAreaEnd buffer.zeroAreaStart), word dataStartLength,
        filled ((heap.block buffer.data).data.read buffer.start dataStartLength),
        word dataEndLength,
        filled ((heap.block buffer.data).data.read buffer.zeroAreaStart dataEndLength)]
    serializedSize := wrap 32 (4 + 4 + align dataStartLength + 4 + align dataEndLength) }

/-- Rounded up to full words. -/
def roundUp (n : Nat) : Nat := (n + 3) / 4 * 4

/-- The memory that a field takes. -/
def Field.room (field : Field) : Nat :=
  if field.aligned then roundUp field.datum.length else field.datum.length

/-- The memory that fields take. -/
def room (fields : List Field) : Nat := (fields.map Field.room).sum

end PacketSerialization

open PacketSerialization

/-- What `Packet::Serialize` reads of a packet. The containers of its parts have sizes of 32
bits, so that each part takes fewer than `2 ^ 32` bytes. -/
structure StoredPacket where
  nixVector : Option NixVector
  byteTagList : List ByteTagList.Item
  packetTagList : List Tag
  metadata : PacketMetadata
  heap : BufferHeap
  buffer : Buffer
  getHash : Nat → Nat
  nixVectorFits : ∀ nix ∈ nixVector, room (nixVectorPart nix).fields < 2 ^ 32
  byteTagListFits : room (byteTagListPart getHash byteTagList).fields < 2 ^ 32
  packetTagListFits : room (packetTagListPart getHash packetTagList).fields < 2 ^ 32
  metadataFits : room (metadataPart metadata).fields < 2 ^ 32
  bufferFits : room (bufferPart heap buffer).fields < 2 ^ 32

namespace StoredPacket

/-- The parts after the nix-vector. -/
def parts (packet : StoredPacket) : List Part :=
  [byteTagListPart packet.getHash packet.byteTagList,
    packetTagListPart packet.getHash packet.packetTagList, metadataPart packet.metadata,
    bufferPart packet.heap packet.buffer]

/-- `GetSerializedSize`. -/
def getSerializedSize (packet : StoredPacket) : Nat :=
  let size :=
    match packet.nixVector with
    | some nix => align (nixVectorPart nix).serializedSize + 4
    | none => 4
  wrap 32 (size + (packet.parts.map fun part => align part.serializedSize + 4).sum)

/-- `size`, where `p` points to, and what was written. -/
structure Cursor where
  size : Nat
  position : Nat
  writes : List Write

/-- One part in `Serialize`. -/
def serializePart (maxSize : Nat) (part : Part) (cursor : Cursor) : Bool × Cursor :=
  if wrap 32 (cursor.size + part.serializedSize) ≤ maxSize then
    let written := serializeFields part.serializedSize part.fields 0 (cursor.position + 4)
    (written.1,
      { size := wrap 32 (cursor.size + part.serializedSize)
        position := cursor.position + 4 + align part.serializedSize
        writes := cursor.writes ++
          ⟨cursor.position, .number 4 (wrap 32 (part.serializedSize + 4))⟩ :: written.2 })
  else (false, cursor)

/-- Parts one after the other, until one fails. -/
def serializeParts (maxSize : Nat) : List Part → Cursor → Bool × Cursor
  | [], cursor => (true, cursor)
  | part :: parts, cursor =>
      let done := serializePart maxSize part cursor
      if done.1 then serializeParts maxSize parts done.2 else done

/-- The first part: without a nix-vector only a length is written, and this one is counted. -/
def serializeNixVector (packet : StoredPacket) (maxSize : Nat) : Bool × Cursor :=
  match packet.nixVector with
  | some nix => serializePart maxSize (nixVectorPart nix) ⟨0, 0, []⟩
  | none =>
      if wrap 32 (0 + 4) ≤ maxSize then (true, ⟨wrap 32 (0 + 4), 4, [⟨0, .number 4 4⟩]⟩)
      else (false, ⟨0, 0, []⟩)

/-- `Serialize`: what it returns, and what it writes. -/
def serialize (packet : StoredPacket) (maxSize : Nat) : Nat × List Write :=
  let first := packet.serializeNixVector maxSize
  let last := if first.1 then serializeParts maxSize packet.parts first.2 else first
  (if last.1 then 1 else 0, last.2.writes)

end StoredPacket

namespace PacketSerialization

section

variable {α : Type} {fields others : List Field} {field : Field}

theorem align_eq {n : Nat} (fits : roundUp n < 2 ^ 32) : align n = roundUp n := by
  unfold roundUp at fits
  rw [align, wrap_of_lt (by omega), roundUp]

theorem le_roundUp (n : Nat) : n ≤ roundUp n := by
  unfold roundUp
  omega

@[simp]
theorem room_nil : room [] = 0 := rfl

@[simp]
theorem room_cons : room (field :: fields) = field.room + room fields := by simp [room]

@[simp]
theorem room_append : room (fields ++ others) = room fields + room others := by simp [room]

@[simp]
theorem room_word (value : Nat) : (word value).room = 4 := by
  simp [word, Field.room, Datum.length, roundUp]

@[simp]
theorem room_filled (data : List UInt8) : (filled data).room = roundUp data.length := rfl

@[simp]
theorem room_raw (width value : Nat) : (raw width value).room = width := rfl

@[simp]
theorem room_rawBytes (data : List UInt8) : (rawBytes data).room = data.length := rfl

theorem Field.size_eq (fits : field.room < 2 ^ 32) : field.size = field.room := by
  unfold Field.room at fits
  unfold Field.size Field.room
  split
  next aligned =>
    rw [if_pos aligned] at fits
    exact align_eq fits
  next => rfl

/-- What a function of the items adds up to, if it is right for items that fit. -/
theorem sum_sizes {items : List α} {fieldsOf : α → List Field} {size : α → Nat}
    (right : ∀ item ∈ items, room (fieldsOf item) < 2 ^ 32 → size item = room (fieldsOf item))
    (fits : room (items.flatMap fieldsOf) < 2 ^ 32) :
    (items.map size).sum = room (items.flatMap fieldsOf) := by
  induction items with
  | nil => rfl
  | cons item items inductionHypothesis =>
      rw [List.flatMap_cons, room_append] at fits ⊢
      rw [List.map_cons, List.sum_cons, right item List.mem_cons_self (by omega),
        inductionHypothesis (fun other member => right other (List.mem_cons_of_mem item member))
          (by omega)]

theorem nixVectorPart_size (nix : NixVector) (fits : room (nixVectorPart nix).fields < 2 ^ 32) :
    (nixVectorPart nix).serializedSize = room (nixVectorPart nix).fields := by
  have words : room (nix.nixVector.map word) = 4 * nix.nixVector.length := by
    induction nix.nixVector with
    | nil => rfl
    | cons first rest inductionHypothesis =>
        rw [List.map_cons, room_cons, inductionHypothesis, room_word, List.length_cons]
        omega
  simp only [nixVectorPart, room_cons, room_word, words] at fits ⊢
  rw [wrap_of_lt (by omega)]
  omega

theorem byteTagListPart_size (getHash : Nat → Nat) (items : List ByteTagList.Item)
    (fits : room (byteTagListPart getHash items).fields < 2 ^ 32) :
    (byteTagListPart getHash items).serializedSize =
      room (byteTagListPart getHash items).fields := by
  have each : ∀ item ∈ items, room (byteTagFields getHash item) < 2 ^ 32 →
      4 + 3 * 4 + align item.tag.data.length = room (byteTagFields getHash item) := by
    intro item _ small
    simp only [byteTagFields, room_cons, room_word, room_filled, room_nil] at small ⊢
    rw [align_eq (by omega)]
    omega
  unfold byteTagListPart at fits ⊢
  dsimp only at fits ⊢
  rw [room_cons, room_word] at fits ⊢
  rw [sum_sizes each (by omega), wrap_of_lt fits]

theorem packetTagListPart_size (getHash : Nat → Nat) (tags : List Tag)
    (fits : room (packetTagListPart getHash tags).fields < 2 ^ 32) :
    (packetTagListPart getHash tags).serializedSize =
      room (packetTagListPart getHash tags).fields := by
  have each : ∀ tag ∈ tags, room (packetTagFields getHash tag) < 2 ^ 32 →
      4 + 4 + align tag.data.length = room (packetTagFields getHash tag) := by
    intro tag _ small
    simp only [packetTagFields, room_cons, room_word, room_filled, room_nil] at small ⊢
    rw [align_eq (by omega)]
    omega
  unfold packetTagListPart at fits ⊢
  dsimp only at fits ⊢
  rw [room_cons, room_word] at fits ⊢
  rw [sum_sizes each (by omega), wrap_of_lt fits]

theorem metadataPart_size (metadata : PacketMetadata)
    (fits : room (metadataPart metadata).fields < 2 ^ 32) :
    (metadataPart metadata).serializedSize = room (metadataPart metadata).fields := by
  have each : ∀ item ∈ metadata.items, room item.fields < 2 ^ 32 →
      item.serializedSize = room item.fields := by
    intro item _ _
    unfold MetadataItem.serializedSize MetadataItem.fields
    by_cases none : item.uid = 0
    · simp [none]
    · simp [none, Nat.add_assoc]
  unfold metadataPart at fits ⊢
  dsimp only at fits ⊢
  rw [room_cons, room_raw] at fits ⊢
  cases enable : metadata.enable with
  | false => simp [metadata.recorded enable]
  | true =>
      rw [if_neg (by decide), sum_sizes each (by omega), wrap_of_lt fits]

theorem bufferPart_size (heap : BufferHeap) (buffer : Buffer)
    (fits : room (bufferPart heap buffer).fields < 2 ^ 32) :
    (bufferPart heap buffer).serializedSize = room (bufferPart heap buffer).fields := by
  unfold bufferPart at fits ⊢
  simp only [room_cons, room_word, room_filled, room_nil, Memory.length_read] at fits ⊢
  rw [align_eq (by omega), align_eq (by omega), wrap_of_lt (by omega)]
  omega

end

/-- The memory up to the last byte that fields write. -/
def extent : List Field → Nat
  | [] => 0
  | field :: fields =>
      if extent fields = 0 then field.datum.length else field.room + extent fields

/-- Fields one after the other. -/
def layout : List Field → Nat → List Write
  | [], _ => []
  | field :: fields, position =>
      ⟨position, field.datum⟩ :: layout fields (position + field.room)

/-- The write stays below `maxSize`. -/
def Write.Within (write : Write) (maxSize : Nat) : Prop :=
  ∀ i < write.datum.length, write.position + i < maxSize

instance (write : Write) (maxSize : Nat) : Decidable (write.Within maxSize) :=
  inferInstanceAs (Decidable (∀ i < _, _))

/-- `GetSerializedSize` of the part is right. -/
structure Part.Sized (part : Part) : Prop where
  size : part.serializedSize = room part.fields
  fits : room part.fields < 2 ^ 32

section

variable {fields : List Field} {maxSize size position : Nat}

/-- `Serialize` of a part succeeds within the size that the part needs. -/
theorem serializeFields_complete (enough : size + room fields ≤ maxSize)
    (small : maxSize < 2 ^ 32) :
    serializeFields maxSize fields size position = (true, layout fields position) := by
  induction fields generalizing size position with
  | nil => rfl
  | cons field fields inductionHypothesis =>
      rw [room_cons] at enough
      have counted : field.size = field.room := Field.size_eq (by omega)
      rw [serializeFields, counted, wrap_of_lt (by omega), if_pos (by omega),
        inductionHypothesis (by omega)]
      rfl

theorem within_iff {datum : Datum} :
    Write.Within ⟨position, datum⟩ maxSize ↔
      datum.length = 0 ∨ position + datum.length ≤ maxSize := by
  unfold Write.Within
  dsimp only
  constructor
  · intro within
    by_contra outside
    have last := within (datum.length - 1) (by omega)
    omega
  · intro inside i below
    omega

theorem layout_within :
    (∀ write ∈ layout fields position, write.Within maxSize) ↔
      extent fields = 0 ∨ position + extent fields ≤ maxSize := by
  induction fields generalizing position with
  | nil => simp [layout, extent]
  | cons field fields inductionHypothesis =>
      have long : field.datum.length ≤ field.room := by
        unfold Field.room
        split
        · exact le_roundUp _
        · exact Nat.le_refl _
      rw [layout, List.forall_mem_cons, inductionHypothesis, within_iff, extent]
      split <;> omega

/-- The length of a part and its fields. -/
theorem part_within {value : Nat} :
    (∀ write ∈ ⟨position, .number 4 value⟩ :: layout fields (position + 4),
      write.Within maxSize) ↔ position + (4 + extent fields) ≤ maxSize := by
  rw [List.forall_mem_cons, within_iff, layout_within]
  change (4 = 0 ∨ position + 4 ≤ maxSize) ∧ _ ↔ _
  omega

end

/-- What a part adds to `size`, how far it writes, and where the next part starts. -/
structure Step where
  counted : Nat
  written : Nat
  advance : Nat

def Part.step (part : Part) : Step :=
  ⟨part.serializedSize, 4 + extent part.fields, 4 + align part.serializedSize⟩

/-- `size` after the first parts. -/
def countedBy (steps : List Step) (size k : Nat) : Nat :=
  wrap 32 (size + ((steps.take k).map Step.counted).sum)

/-- Where a part starts. -/
def startOf (steps : List Step) (k : Nat) : Nat := ((steps.take k).map Step.advance).sum

/-- Every check of the parts passes. -/
def AllPass (steps : List Step) (maxSize size : Nat) : Prop :=
  ∀ j < steps.length, countedBy steps size (j + 1) ≤ maxSize

/-- Each part whose check passes, like the ones before it, ends within `maxSize`. -/
def EndWithin (steps : List Step) (maxSize size position : Nat) : Prop :=
  ∀ k (inside : k < steps.length), (∀ j ≤ k, countedBy steps size (j + 1) ≤ maxSize) →
    position + startOf steps k + (steps.get ⟨k, inside⟩).written ≤ maxSize

section

variable {step : Step} {steps : List Step} {maxSize size position k : Nat}

theorem countedBy_cons :
    countedBy (step :: steps) size (k + 1) =
      countedBy steps (wrap 32 (size + step.counted)) k := by
  unfold countedBy wrap
  rw [List.take_succ_cons, List.map_cons, List.sum_cons, Nat.mod_add_mod, Nat.add_assoc]

theorem countedBy_one : countedBy (step :: steps) size 1 = wrap 32 (size + step.counted) := by
  simp [countedBy]

theorem allPass_cons :
    AllPass (step :: steps) maxSize size ↔
      wrap 32 (size + step.counted) ≤ maxSize ∧
        AllPass steps maxSize (wrap 32 (size + step.counted)) := by
  unfold AllPass
  constructor
  · intro all
    refine ⟨countedBy_one ▸ all 0 (by simp), fun j below => ?_⟩
    rw [← countedBy_cons]
    exact all (j + 1) (by simpa using below)
  · rintro ⟨first, later⟩ j below
    cases j with
    | zero => exact countedBy_one ▸ first
    | succ j =>
        rw [countedBy_cons]
        exact later j (by simpa using below)

theorem endWithin_cons :
    EndWithin (step :: steps) maxSize size position ↔
      (wrap 32 (size + step.counted) ≤ maxSize →
        position + step.written ≤ maxSize ∧
          EndWithin steps maxSize (wrap 32 (size + step.counted)) (position + step.advance)) := by
  unfold EndWithin
  constructor
  · intro all passes
    constructor
    · have here := all 0 (Nat.zero_lt_succ _) fun j none => by
        obtain rfl : j = 0 := by omega
        exact countedBy_one ▸ passes
      simpa [startOf] using here
    · intro k inside passed
      have later := all (k + 1) (by simpa using inside) fun j below => by
        cases j with
        | zero => exact countedBy_one ▸ passes
        | succ j =>
            rw [countedBy_cons]
            exact passed j (by omega)
      simp only [startOf, List.take_succ_cons, List.map_cons, List.sum_cons] at later ⊢
      rw [Nat.add_assoc position]
      exact later
  · intro all k inside passed
    have first : wrap 32 (size + step.counted) ≤ maxSize :=
      countedBy_one ▸ passed 0 (Nat.zero_le k)
    obtain ⟨here, later⟩ := all first
    cases k with
    | zero => simpa [startOf] using here
    | succ k =>
        have rest := later k (by simpa using inside) fun j below => by
          rw [← countedBy_cons]
          exact passed (j + 1) (by omega)
        simp only [startOf, List.take_succ_cons, List.map_cons, List.sum_cons] at rest ⊢
        rw [Nat.add_assoc position] at rest
        exact rest

end

end PacketSerialization

namespace StoredPacket

section

variable {part : Part} {parts : List Part} {maxSize : Nat} {cursor : Cursor}

theorem serializePart_eq (sized : part.Sized) :
    serializePart maxSize part cursor =
      if wrap 32 (cursor.size + part.serializedSize) ≤ maxSize then
        (true,
          { size := wrap 32 (cursor.size + part.serializedSize)
            position := cursor.position + (4 + align part.serializedSize)
            writes := cursor.writes ++
              ⟨cursor.position, .number 4 (wrap 32 (part.serializedSize + 4))⟩ ::
                layout part.fields (cursor.position + 4) })
      else (false, cursor) := by
  have complete := @serializeFields_complete part.fields part.serializedSize 0
    (cursor.position + 4) (by rw [sized.size, Nat.zero_add]) (sized.size ▸ sized.fits)
  rw [serializePart, complete, Nat.add_assoc cursor.position]

/-- What the parts write is within `maxSize` exactly if the parts whose checks pass end there. -/
theorem serializeParts_within (sized : ∀ part ∈ parts, part.Sized) :
    (∀ write ∈ (serializeParts maxSize parts cursor).2.writes, write.Within maxSize) ↔
      (∀ write ∈ cursor.writes, write.Within maxSize) ∧
        EndWithin (parts.map Part.step) maxSize cursor.size cursor.position := by
  induction parts generalizing cursor with
  | nil =>
      have nothing : EndWithin [] maxSize cursor.size cursor.position := fun k inside =>
        absurd inside (Nat.not_lt_zero k)
      simp [serializeParts, nothing]
  | cons part parts inductionHypothesis =>
      have later := fun cursor => @inductionHypothesis cursor fun other member =>
        sized other (List.mem_cons_of_mem part member)
      rw [serializeParts, serializePart_eq (sized part List.mem_cons_self), List.map_cons,
        endWithin_cons]
      split
      next passes =>
        rw [if_pos rfl, later]
        dsimp only
        rw [List.forall_mem_append, part_within, and_assoc]
        exact and_congr_right fun _ => ⟨fun both _ => both, fun both => both passes⟩
      next fails =>
        rw [if_neg Bool.false_ne_true]
        exact ⟨fun within => ⟨within, fun passes => absurd passes fails⟩, fun both => both.1⟩

theorem serializeParts_passes (sized : ∀ part ∈ parts, part.Sized) :
    (serializeParts maxSize parts cursor).1 = true ↔
      AllPass (parts.map Part.step) maxSize cursor.size := by
  induction parts generalizing cursor with
  | nil =>
      have all : AllPass [] maxSize cursor.size := fun j below => absurd below (Nat.not_lt_zero j)
      simp [serializeParts, all]
  | cons part parts inductionHypothesis =>
      have later := fun cursor => @inductionHypothesis cursor fun other member =>
        sized other (List.mem_cons_of_mem part member)
      rw [serializeParts, serializePart_eq (sized part List.mem_cons_self), List.map_cons,
        allPass_cons]
      split
      next passes =>
        rw [if_pos rfl, later]
        exact (and_iff_right passes).symm
      next fails =>
        rw [if_neg Bool.false_ne_true]
        exact iff_of_false Bool.false_ne_true fun both => fails both.1

end

/-- The nix-vector, or the length that stands for it. -/
def firstStep (packet : StoredPacket) : Step :=
  match packet.nixVector with
  | some nix => (nixVectorPart nix).step
  | none => ⟨4, 4, 4⟩

/-- The parts of a packet. -/
def steps (packet : StoredPacket) : List Step := packet.firstStep :: packet.parts.map Part.step

/-- Nothing is written behind `maxSize`, and a packet that is longer is refused. -/
structure StaysWithin (packet : StoredPacket) (maxSize : Nat) : Prop where
  inside : ∀ write ∈ (packet.serialize maxSize).2, write.Within maxSize
  refused : maxSize < packet.getSerializedSize → (packet.serialize maxSize).1 = 0

/-- The length words and the filling, which the checks leave out, matter nowhere: each part
whose check passes, like the ones before it, ends within `maxSize`, and so does the
packet if all of them pass. -/
structure Covered (packet : StoredPacket) (maxSize : Nat) : Prop where
  each : EndWithin packet.steps maxSize 0 0
  all : AllPass packet.steps maxSize 0 → packet.getSerializedSize ≤ maxSize

theorem sized (packet : StoredPacket) : ∀ part ∈ packet.parts, part.Sized := by
  unfold parts
  simp only [List.forall_mem_cons]
  exact ⟨⟨byteTagListPart_size _ _ packet.byteTagListFits, packet.byteTagListFits⟩,
    ⟨packetTagListPart_size _ _ packet.packetTagListFits, packet.packetTagListFits⟩,
    ⟨metadataPart_size _ packet.metadataFits, packet.metadataFits⟩,
    ⟨bufferPart_size _ _ packet.bufferFits, packet.bufferFits⟩, fun _ member => nomatch member⟩

/-- The first part fails its check, or it is written. -/
theorem serializeNixVector_cases (packet : StoredPacket) (maxSize : Nat) :
    ¬ wrap 32 (0 + packet.firstStep.counted) ≤ maxSize ∧
        packet.serializeNixVector maxSize = (false, ⟨0, 0, []⟩) ∨
      wrap 32 (0 + packet.firstStep.counted) ≤ maxSize ∧
        ∃ writes, packet.serializeNixVector maxSize =
            (true, ⟨wrap 32 (0 + packet.firstStep.counted), 0 + packet.firstStep.advance,
              writes⟩) ∧
          ((∀ write ∈ writes, write.Within maxSize) ↔
            0 + packet.firstStep.written ≤ maxSize) := by
  unfold serializeNixVector firstStep
  cases vector : packet.nixVector with
  | none =>
      dsimp only
      by_cases passes : wrap 32 (0 + 4) ≤ maxSize
      · refine .inr ⟨passes, [⟨0, .number 4 4⟩], if_pos passes, ?_⟩
        rw [List.forall_mem_cons, within_iff]
        change ((4 = 0 ∨ 0 + 4 ≤ maxSize) ∧ _) ↔ 0 + 4 ≤ maxSize
        simp
      · exact .inl ⟨passes, if_neg passes⟩
  | some nix =>
      have fits := packet.nixVectorFits nix vector
      dsimp only
      rw [serializePart_eq ⟨nixVectorPart_size nix fits, fits⟩]
      by_cases passes : wrap 32 (0 + (nixVectorPart nix).step.counted) ≤ maxSize
      · exact .inr ⟨passes, _, if_pos passes, part_within⟩
      · exact .inl ⟨passes, if_neg passes⟩

theorem returns_one (done : Bool) : (if done then 1 else 0) ≠ 0 ↔ done = true := by
  cases done <;> simp

/-- A packet without data, tags and metadata. -/
def empty : StoredPacket where
  nixVector := none
  byteTagList := []
  packetTagList := []
  metadata := ⟨false, 0, [], fun _ => rfl⟩
  heap := .empty
  buffer := ⟨0, 0, 0, 0, 0, 0⟩
  getHash _ := 0
  nixVectorFits := nofun
  byteTagListFits := by decide
  packetTagListFits := by decide
  metadataFits := by decide
  bufferFits := by decide

end StoredPacket

end Ns3.Network
