import Ns3.Network.SequenceNumber

/-!
`ns3::TcpRxBuffer`: the receive buffer of a TCP socket.

The buffer is written for any sequence space; the source's is the one over
`SequenceNumber32`. A packet is the list of its bytes, `m_data` is the list of the
entries of the map in the order of their keys, and a call that reads from an empty
map gives no buffer.
-/

namespace Ns3.Internet

open Library Network

/-- `TcpOptionSack::SackBlock`. -/
abbrev SackBlock (Seq : Type) : Type := Seq × Seq

/-- `ns3::TcpRxBuffer`. -/
structure TcpRxBuffer (Seq : Type) where
  nextRxSeq : Seq
  gotFin : Bool
  finSeq : Seq
  size : Nat
  maxBuffer : Nat
  availBytes : Nat
  data : List (Seq × List UInt8)
  sackList : List (SackBlock Seq)
  deriving DecidableEq, Repr

namespace TcpRxBuffer

open SequenceSpace

variable {Seq : Type} [SequenceSpace Seq] [DecidableEq Seq]

/-- A new buffer, `SetMaxBufferSize` included. -/
def create (initial : Seq) (maxBuffer : Nat) : TcpRxBuffer Seq where
  nextRxSeq := initial
  gotFin := false
  finSeq := initial
  size := 0
  maxBuffer := maxBuffer
  availBytes := 0
  data := []
  sackList := []

/-- `SetFinSequence`. -/
def setFinSequence (self : TcpRxBuffer Seq) (s : Seq) : TcpRxBuffer Seq :=
  { self with
    gotFin := true
    finSeq := s
    nextRxSeq := if self.nextRxSeq = s then add self.nextRxSeq 1 else self.nextRxSeq }

/-- What is left of an incoming packet, and of the entries, while the overlaps are
removed. -/
structure Trimmed (Seq : Type) where
  data : List (Seq × List UInt8)
  size : Nat
  headSeq : Seq
  tailSeq : Seq

/-- The loop of `Add` that removes overlapped bytes. -/
def removeOverlaps : List (Seq × List UInt8) → Nat → Seq → Seq → Trimmed Seq
  | [], size, headSeq, tailSeq => ⟨[], size, headSeq, tailSeq⟩
  | entry :: rest, size, headSeq, tailSeq =>
      if le entry.1 tailSeq then
        let lastByteSeq := add entry.1 entry.2.length
        if gt lastByteSeq headSeq then
          if gt entry.1 headSeq && lt lastByteSeq tailSeq then
            removeOverlaps rest (wrapSub 32 size entry.2.length) headSeq tailSeq
          else
            let trimmed := removeOverlaps rest size
              (if le entry.1 headSeq then lastByteSeq else headSeq)
              (if ge lastByteSeq tailSeq then entry.1 else tailSeq)
            { trimmed with data := entry :: trimmed.data }
        else
          let trimmed := removeOverlaps rest size headSeq tailSeq
          { trimmed with data := entry :: trimmed.data }
      else ⟨entry :: rest, size, headSeq, tailSeq⟩

/-- `m_data [key] = packet`. -/
def insertEntry (key : Seq) (packet : List UInt8) :
    List (Seq × List UInt8) → List (Seq × List UInt8)
  | [] => [(key, packet)]
  | entry :: rest =>
      if lt key entry.1 then (key, packet) :: entry :: rest
      else if key = entry.1 then (key, packet) :: rest
      else entry :: insertEntry key packet rest

/-- The first block that continues the block `begin` on either side: the merged
block, and the other blocks without it. -/
def findMerge (begin : SackBlock Seq) :
    List (SackBlock Seq) → Option (SackBlock Seq × List (SackBlock Seq))
  | [] => none
  | current :: rest =>
      if begin.1 = current.2 then some ((current.1, begin.2), rest)
      else if begin.2 = current.1 then some ((begin.1, current.2), rest)
      else (findMerge begin rest).map fun found => (found.1, current :: found.2)

/-- The loop of `UpdateSackList`, which starts again after each merge; the number
bounds the merges. -/
def mergeSackList : Nat → SackBlock Seq → List (SackBlock Seq) → List (SackBlock Seq)
  | 0, begin, others => begin :: others
  | merges + 1, begin, others =>
      match findMerge begin others with
      | none => begin :: others
      | some (merged, rest) => mergeSackList merges merged rest

/-- `UpdateSackList`. -/
def updateSackList (sackList : List (SackBlock Seq)) (head tail : Seq) : List (SackBlock Seq) :=
  let merged := mergeSackList sackList.length (head, tail) sackList
  if merged.length > 4 then merged.dropLast else merged

/-- `ClearSackList`. -/
def clearSackList (sackList : List (SackBlock Seq)) (seq : Seq) : List (SackBlock Seq) :=
  sackList.filter fun block => ! le block.2 seq

/-- The loop of `Add` that moves `m_nextRxSeq` over the entries. -/
def advance : List (Seq × List UInt8) → TcpRxBuffer Seq → TcpRxBuffer Seq
  | [], self => self
  | entry :: rest, self =>
      if lt entry.1 self.nextRxSeq then advance rest self
      else if gt entry.1 self.nextRxSeq then self
      else
        let nextRxSeq := add entry.1 entry.2.length
        advance rest
          { self with
            nextRxSeq := nextRxSeq
            availBytes := wrap 32 (self.availBytes + entry.2.length)
            sackList := clearSackList self.sackList nextRxSeq }

/-- The head and the tail of an incoming packet within the window. -/
def trimToWindow (self : TcpRxBuffer Seq) (headSeq tailSeq : Seq) : Seq × Seq :=
  let headSeq := if lt headSeq self.nextRxSeq then self.nextRxSeq else headSeq
  match self.data with
  | [] => (headSeq, tailSeq)
  | first :: _ =>
      let maxSeq := add first.1 self.maxBuffer
      let tailSeq := if lt maxSeq tailSeq then maxSeq else tailSeq
      (if lt tailSeq headSeq then tailSeq else headSeq, tailSeq)

/-- Account for the FIN packet. -/
def accountFin (self : TcpRxBuffer Seq) : TcpRxBuffer Seq :=
  if self.gotFin && decide (self.nextRxSeq = self.finSeq) then
    { self with nextRxSeq := SequenceSpace.add self.nextRxSeq 1 }
  else self

/-- The part of `Add` after the packet is trimmed: it is stored, and what is in
order is counted. -/
def store (self : TcpRxBuffer Seq) (packet : List UInt8) (headSeq tailSeq : Seq) :
    TcpRxBuffer Seq :=
  let data := insertEntry headSeq packet self.data
  let stored : TcpRxBuffer Seq :=
    { self with
      data := data
      sackList :=
        if gt headSeq self.nextRxSeq then updateSackList self.sackList headSeq tailSeq
        else self.sackList
      size := wrap 32 (self.size + packet.length) }
  (advance data stored).accountFin

/-- `Add`. -/
def add (self : TcpRxBuffer Seq) (packet : List UInt8) (sequenceNumber : Seq) :
    TcpRxBuffer Seq × Bool :=
  let window := self.trimToWindow sequenceNumber
    (SequenceSpace.add sequenceNumber packet.length)
  let trimmed := removeOverlaps self.data self.size window.1 window.2
  let cleared : TcpRxBuffer Seq := { self with data := trimmed.data, size := trimmed.size }
  if ge trimmed.headSeq trimmed.tailSeq then (cleared, false)
  else
    let start := sub trimmed.headSeq sequenceNumber
    let length := sub trimmed.tailSeq trimmed.headSeq
    (cleared.store ((packet.drop start).take length) trimmed.headSeq trimmed.tailSeq, true)

/-- The loop of `Extract`: the bytes, and the entries that are left. -/
def extractFrom : Nat → List (Seq × List UInt8) → Option (List UInt8 × List (Seq × List UInt8))
  | 0, data => some ([], data)
  | _ + 1, [] => none
  | extractSize + 1, entry :: rest =>
      if entry.2.length ≤ extractSize + 1 then
        (extractFrom (extractSize + 1 - entry.2.length) rest).map fun extracted =>
          (entry.2 ++ extracted.1, extracted.2)
      else
        some (entry.2.take (extractSize + 1),
          insertEntry (SequenceSpace.add entry.1 (extractSize + 1))
            (entry.2.drop (extractSize + 1)) rest)
  termination_by structural _ data => data

/-- `Extract`. -/
def extract (self : TcpRxBuffer Seq) (maxSize : Nat) : Option (List UInt8 × TcpRxBuffer Seq) :=
  let extractSize := min maxSize self.availBytes
  (extractFrom extractSize self.data).map fun extracted =>
    (extracted.1,
      { self with
        data := extracted.2
        size := wrapSub 32 self.size extracted.1.length
        availBytes := wrapSub 32 self.availBytes extracted.1.length })

end TcpRxBuffer

end Ns3.Internet
