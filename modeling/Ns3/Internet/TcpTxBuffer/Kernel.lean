import Ns3.Network.SequenceNumber

/-!
`ns3::TcpTxBuffer`: the transmission buffer of a TCP socket and its scoreboard.

A packet is the list of its bytes. The assertions are compiled out, and the time of
the last transmission of an item, which no decision of the buffer reads, is left out.
A call that aborts, or that follows a pointer or an iterator that is not valid, gives
no buffer.
-/

namespace Ns3.Internet

open Library Network SequenceSpace

/-- `ns3::TcpTxItem`, with the node of the sent list that holds it: iterators refer
to nodes. -/
structure TcpTxItem where
  startSeq : SequenceNumber32
  packet : List UInt8
  lost : Bool
  retrans : Bool
  sacked : Bool
  node : Nat
  deriving DecidableEq, Repr

/-- `ns3::TcpTxBuffer`. The iterator of `m_highestSack` is the node, if it is not the end
of the list, and `nodes` is the next node to allocate. -/
structure TcpTxBuffer where
  appList : List TcpTxItem
  sentList : List TcpTxItem
  maxBuffer : Nat
  size : Nat
  sentSize : Nat
  firstByteSeq : SequenceNumber32
  highestSack : Option Nat × SequenceNumber32
  lostOut : Nat
  sackedOut : Nat
  retrans : Nat
  dupAckThresh : Nat
  nodes : Nat
  deriving DecidableEq, Repr

namespace TcpTxItem

/-- `SplitItems`: the first bytes in a new item, and the rest. -/
def split (t2 : TcpTxItem) (size node : Nat) : TcpTxItem × TcpTxItem :=
  ({ t2 with packet := t2.packet.take size, node := node },
    { t2 with packet := t2.packet.drop size, startSeq := add t2.startSeq size })

/-- The item that `MergeItems` leaves. -/
def merge (t1 t2 : TcpTxItem) : TcpTxItem :=
  { t1 with
    retrans := if t1.retrans != t2.retrans then false else t1.retrans
    packet := t1.packet ++ t2.packet }

/-- The bytes that `MergeItems` takes from `m_retrans`: if only one of the items is
retransmitted, it no longer counts. -/
def uncounted (t1 t2 : TcpTxItem) : Nat :=
  if t1.retrans != t2.retrans then
    if t1.retrans then t1.packet.length else t2.packet.length
  else 0

end TcpTxItem

namespace TcpTxBuffer

/-- A new buffer, `SetMaxBufferSize` and `SetDupAckThresh` included. -/
def create (n : SequenceNumber32) (maxBuffer dupAckThresh : Nat) : TcpTxBuffer where
  appList := []
  sentList := []
  maxBuffer := maxBuffer
  size := 0
  sentSize := 0
  firstByteSeq := n
  highestSack := (none, SequenceNumber32.ofNat 0)
  lostOut := 0
  sackedOut := 0
  retrans := 0
  dupAckThresh := dupAckThresh
  nodes := 0

/-- `TailSequence`. -/
def tailSequence (self : TcpTxBuffer) : SequenceNumber32 :=
  SequenceSpace.add self.firstByteSeq self.size

/-- `Available`. -/
def available (self : TcpTxBuffer) : Nat := wrapSub 32 self.maxBuffer self.size

/-- `Add`. -/
def add (self : TcpTxBuffer) (p : List UInt8) : TcpTxBuffer × Bool :=
  if p.length ≤ self.available then
    if p.length > 0 then
      ({ self with
          appList := self.appList ++ [⟨SequenceNumber32.ofNat 0, p, false, false, false, 0⟩]
          size := wrap 32 (self.size + p.length) }, true)
    else (self, true)
  else (self, false)

/-- `SizeFromSequence`. -/
def sizeFromSequence (self : TcpTxBuffer) (seq : SequenceNumber32) : Nat :=
  if ge self.tailSequence seq then sub self.tailSequence seq else 0

/-- How a walk of `GetPacketFromList` over the list ends: with the index of an item, or with
an edited list on which it starts again. -/
inductive Walk
  | found (list : List TcpTxItem) (index : Nat)
  | again (list : List TcpTxItem) (uncounted : Nat)
  | fatal

/-- The walk with one more item in front. -/
def Walk.cons (item : TcpTxItem) : Walk → Walk
  | found list index => found (item :: list) (index + 1)
  | again list uncounted => again (item :: list) uncounted
  | fatal => fatal

/-- The part of `GetPacketFromList` that finds, or creates, the end of the packet, once the
item starts at `seq`. The item is the one that was found, so that the source never merges
it with the previous one. -/
def walkEnd (node numBytes : Nat) (seq : SequenceNumber32) (item : TcpTxItem)
    (rest : List TcpTxItem) : Walk :=
  if le (SequenceSpace.add seq numBytes) (SequenceSpace.add seq item.packet.length) then
    if numBytes = item.packet.length then .found (item :: rest) 0
    else if numBytes < item.packet.length then
      .found ((item.split numBytes node).1 :: (item.split numBytes node).2 :: rest) 0
    -- The loop does not move.
    else .fatal
  else
    match rest with
    | [] => .found [item] 0
    | next :: others => .again (item.merge next :: others) (item.uncounted next)

/-- The loop of `GetPacketFromList`. -/
def walk (node numBytes : Nat) (seq : SequenceNumber32) :
    List TcpTxItem → SequenceNumber32 → Walk
  | [], _ => .fatal
  | item :: rest, beginOfCurrentPacket =>
      let endOfCurrentPacket := SequenceSpace.add beginOfCurrentPacket item.packet.length
      if lt seq endOfCurrentPacket then
        if seq = beginOfCurrentPacket then walkEnd node numBytes seq item rest
        else if gt seq beginOfCurrentPacket then
          let parts := item.split (sub seq beginOfCurrentPacket) node
          .again (parts.1 :: parts.2 :: rest) 0
        else .fatal
      else (walk node numBytes seq rest endOfCurrentPacket).cons item

/-- A list of items, with what `GetPacketFromList` also changes: `m_retrans`, and the next
node. -/
structure Edit where
  list : List TcpTxItem
  retrans : Nat
  nodes : Nat

/-- `GetPacketFromList`: the walk starts again after one split and after each merge. -/
def getPacketFromList (listStartFrom : SequenceNumber32) (numBytes : Nat)
    (seq : SequenceNumber32) : Nat → Edit → Option (Edit × Nat)
  | 0, _ => none
  | attempts + 1, edit =>
      match walk edit.nodes numBytes seq edit.list listStartFrom with
      | .found list index => some (⟨list, edit.retrans, edit.nodes + 1⟩, index)
      | .again list uncounted =>
          getPacketFromList listStartFrom numBytes seq attempts
            ⟨list, wrapSub 32 edit.retrans uncounted, edit.nodes + 1⟩
      | .fatal => none

/-- One split and fewer merges than there are items then. -/
def attempts (list : List TcpTxItem) : Nat := list.length + 2

/-- `GetNewSegment`. -/
def getNewSegment (self : TcpTxBuffer) (numBytes : Nat) : Option TcpTxBuffer := do
  let startOfAppList := SequenceSpace.add self.firstByteSeq self.sentSize
  let (edit, index) ← getPacketFromList startOfAppList numBytes startOfAppList
    (attempts self.appList) ⟨self.appList, self.retrans, self.nodes⟩
  let item ← edit.list[index]?
  pure
    { self with
      appList := edit.list.eraseIdx index
      sentList := self.sentList ++ [{ item with startSeq := startOfAppList, node := edit.nodes }]
      sentSize := wrap 32 (self.sentSize + item.packet.length)
      retrans := edit.retrans
      nodes := edit.nodes + 1 }

/-- The size of a retransmission that starts with the item: the next item is only merged with
it if it is not sacked and has the same value for `m_lost`. -/
def limitAt (item : TcpTxItem) (s : Nat) : List TcpTxItem → Nat
  | [] => min s item.packet.length
  | next :: _ =>
      if ! next.sacked && item.lost == next.lost then
        min s (wrap 32 (item.packet.length + next.packet.length))
      else min s item.packet.length

/-- The loop of `GetTransmittedSegment` that avoids to merge packets with different
flags. -/
def limitToFlags (seq : SequenceNumber32) (s : Nat) : List TcpTxItem → Nat
  | [] => s
  | item :: rest => if item.startSeq = seq then limitAt item s rest else limitToFlags seq s rest

/-- The end of `GetTransmittedSegment`: the item is counted as retransmitted. -/
def countRetrans (self : TcpTxBuffer) (index : Nat) : Option TcpTxBuffer := do
  let item ← self.sentList[index]?
  if item.retrans then pure self
  else
    pure
      { self with
        retrans := wrap 32 (self.retrans + item.packet.length)
        sentList := self.sentList.set index { item with retrans := true } }

/-- `GetTransmittedSegment`. -/
def getTransmittedSegment (self : TcpTxBuffer) (numBytes : Nat) (seq : SequenceNumber32) :
    Option TcpTxBuffer := do
  let (edit, index) ← getPacketFromList self.firstByteSeq
    (limitToFlags seq numBytes self.sentList) seq (attempts self.sentList)
    ⟨self.sentList, self.retrans, self.nodes⟩
  countRetrans { self with sentList := edit.list, retrans := edit.retrans, nodes := edit.nodes }
    index

/-- What `CopyFromSequence` gives: no pointer, or a pointer to an item. -/
inductive Copied
  | nothing
  | item

/-- The body of `CopyFromSequence`; the call within it, for the part of the request that was
already sent, makes no further one. -/
def copyAttempt (self : TcpTxBuffer) : Nat → Nat → SequenceNumber32 → Option (TcpTxBuffer × Copied)
  | 0, _, _ => none
  | calls + 1, numBytes, seq =>
      if gt self.firstByteSeq seq then none
      else
        let s := min numBytes (self.sizeFromSequence seq)
        if s = 0 then some (self, .nothing)
        else
          let endOfSentList := SequenceSpace.add self.firstByteSeq self.sentSize
          if ge endOfSentList (SequenceSpace.add seq s) then
            (self.getTransmittedSegment s seq).map (·, .item)
          else if le endOfSentList seq then
            if endOfSentList = seq then (self.getNewSegment s).map (·, .item) else none
          else if wrap 32 (self.firstByteSeq.value + self.sentSize) > seq.value ∧
              wrap 32 (self.firstByteSeq.value + self.sentSize) < wrap 32 (seq.value + s) then
            self.copyAttempt calls
              (wrapSub 32 (wrap 32 (self.firstByteSeq.value + self.sentSize)) seq.value) seq
          else none

/-- `CopyFromSequence`. -/
def copyFromSequence (self : TcpTxBuffer) (numBytes : Nat) (seq : SequenceNumber32) :
    Option (TcpTxBuffer × Copied) := self.copyAttempt 2 numBytes seq

/-- `RemoveFromCounts`. -/
def removeFromCounts (self : TcpTxBuffer) (item : TcpTxItem) (size : Nat) : TcpTxBuffer :=
  { self with
    sackedOut := if item.sacked then wrapSub 32 self.sackedOut size else self.sackedOut
    retrans := if item.retrans then wrapSub 32 self.retrans size else self.retrans
    lostOut := if item.lost then wrapSub 32 self.lostOut size else self.lostOut }

/-- `AddRenoSack` from the second item on: the first item that is not sacked becomes it. -/
def sackFirst : List TcpTxItem → List TcpTxItem × Option TcpTxItem
  | [] => ([], none)
  | item :: rest =>
      if item.sacked then (item :: (sackFirst rest).1, (sackFirst rest).2)
      else ({ item with sacked := true } :: rest, some item)

/-- `AddRenoSack`. -/
def addRenoSack (self : TcpTxBuffer) : Option TcpTxBuffer :=
  match self.sentList with
  | [] => none
  | head :: rest =>
      match sackFirst rest with
      | (_, none) => some self
      | (sacked, some item) =>
          some
            { self with
              sentList := head :: sacked
              sackedOut := wrap 32 (self.sackedOut + item.packet.length)
              highestSack := (some item.node, item.startSeq) }

/-- `MarkHeadAsLost`. -/
def markHeadAsLost (self : TcpTxBuffer) : TcpTxBuffer :=
  match self.sentList with
  | [] => self
  | head :: rest =>
      { self with
        sackedOut := if head.sacked then wrapSub 32 self.sackedOut head.packet.length
          else self.sackedOut
        retrans := if head.retrans then wrapSub 32 self.retrans head.packet.length
          else self.retrans
        lostOut := if head.lost then self.lostOut
          else wrap 32 (self.lostOut + head.packet.length)
        sentList := { head with sacked := false, retrans := false, lost := true } :: rest }

/-- `DiscardUpTo` moves data from the app list to an empty sent list, so that it can delete
the item. -/
def moveFirst (self : TcpTxBuffer) (offset : Nat) : Option TcpTxBuffer :=
  if self.sentList = [] then
    match self.copyFromSequence offset self.firstByteSeq with
    | some (moved, .item) => some moved
    | _ => none
  else some self

/-- `DiscardUpTo` for a packet behind the sequence number. -/
def removeFirst (self : TcpTxBuffer) (item : TcpTxItem) (rest : List TcpTxItem) : TcpTxBuffer :=
  let pktSize := item.packet.length
  removeFromCounts
    { self with
      size := wrapSub 32 self.size pktSize
      sentSize := wrapSub 32 self.sentSize pktSize
      firstByteSeq := SequenceSpace.add self.firstByteSeq pktSize
      sentList := rest } item pktSize

/-- `DiscardUpTo` for a packet with a part behind the sequence number. -/
def fragmentFirst (self : TcpTxBuffer) (item : TcpTxItem) (rest : List TcpTxItem) (offset : Nat) :
    TcpTxBuffer :=
  let fragment :=
    { item with
      packet := (item.packet.drop offset).take (item.packet.length - offset)
      startSeq := SequenceSpace.add item.startSeq offset }
  removeFromCounts
    { self with
      size := wrapSub 32 self.size offset
      sentSize := wrapSub 32 self.sentSize offset
      firstByteSeq := SequenceSpace.add self.firstByteSeq offset
      sentList := fragment :: rest } fragment offset

/-- The loop of `DiscardUpTo`, which removes an item in each turn. -/
def discard : Nat → TcpTxBuffer → Nat → Option TcpTxBuffer
  | 0, _, _ => none
  | turns + 1, self, offset =>
      if self.size > 0 ∧ offset > 0 then
        match self.moveFirst offset with
        | none => none
        | some moved =>
            match moved.sentList with
            | [] => none
            | item :: rest =>
                if offset ≥ item.packet.length then
                  discard turns (moved.removeFirst item rest) (offset - item.packet.length)
                else some (moved.fragmentFirst item rest offset)
      else some self

/-- The part of `DiscardUpTo` for a head that is sacked: the flag moves to another
segment. -/
def unsackHead (self : TcpTxBuffer) : Option TcpTxBuffer :=
  match self.sentList with
  | [] => some self
  | head :: rest =>
      if head.sacked then do
        let self ← addRenoSack
          { self with
            sentList := { head with sacked := false } :: rest
            sackedOut := wrapSub 32 self.sackedOut head.packet.length }
        pure self.markHeadAsLost
      else some self

/-- `DiscardUpTo`. -/
def discardUpTo (self : TcpTxBuffer) (seq : SequenceNumber32) : Option TcpTxBuffer :=
  if ge self.firstByteSeq seq then some self
  else do
    let offset := sub seq self.firstByteSeq
    let self ← discard (offset + self.sentList.length + self.appList.length + 1) self offset
    let self : TcpTxBuffer := if self.size = 0 then { self with firstByteSeq := seq } else self
    let self ← self.unsackHead
    pure
      (if le self.highestSack.2 self.firstByteSeq then
        { self with highestSack := (none, SequenceNumber32.ofNat 0) }
      else self)

/-- What the loops of `Update` change besides the flags. -/
structure Scoreboard where
  lostOut : Nat
  sackedOut : Nat
  bytesSacked : Nat
  highestSack : Option Nat × SequenceNumber32

/-- The inner loop of `Update`: the items that the block covers become sacked. -/
def sackBlock (block : SequenceNumber32 × SequenceNumber32) :
    List TcpTxItem → SequenceNumber32 → Scoreboard → List TcpTxItem × Scoreboard
  | [], _, board => ([], board)
  | item :: rest, beginOfCurrentPacket, board =>
      let pktSize := item.packet.length
      let endOfCurrentPacket := SequenceSpace.add beginOfCurrentPacket pktSize
      if ge beginOfCurrentPacket block.1 && le endOfCurrentPacket block.2 then
        if item.sacked then
          let later := sackBlock block rest endOfCurrentPacket board
          (item :: later.1, later.2)
        else
          let later := sackBlock block rest endOfCurrentPacket
            { lostOut := if item.lost then wrapSub 32 board.lostOut pktSize else board.lostOut
              sackedOut := wrap 32 (board.sackedOut + pktSize)
              bytesSacked := wrap 32 (board.bytesSacked + pktSize)
              highestSack :=
                if board.highestSack.1 = none ∨ le board.highestSack.2 endOfCurrentPacket then
                  (some item.node, beginOfCurrentPacket)
                else board.highestSack }
          ({ item with lost := false, sacked := true } :: later.1, later.2)
      else if gt endOfCurrentPacket block.2 then (item :: rest, board)
      else
        let later := sackBlock block rest endOfCurrentPacket board
        (item :: later.1, later.2)

/-- The outer loop of `Update`; the last component says whether it went through all the
blocks. -/
def sackBlocks (firstByteSeq : SequenceNumber32) (sentSize : Nat) :
    List (SequenceNumber32 × SequenceNumber32) → List TcpTxItem → Scoreboard →
      List TcpTxItem × Scoreboard × Bool
  | [], sentList, board => (sentList, board, true)
  | block :: blocks, sentList, board =>
      if lt (SequenceSpace.add firstByteSeq sentSize) block.1 then (sentList, board, false)
      else
        let sacked := sackBlock block sentList firstByteSeq board
        sackBlocks firstByteSeq sentSize blocks sacked.1 sacked.2

/-- The loop of `UpdateLostCount`, which goes backwards: the items, how many of them are
sacked, and `m_lostOut`. -/
def markLost (dupAckThresh : Nat) :
    List TcpTxItem → Nat → Nat → List TcpTxItem × Nat × Nat
  | [], sacked, lostOut => ([], sacked, lostOut)
  | item :: before, sacked, lostOut =>
      let sacked := if item.sacked then sacked + 1 else sacked
      if sacked ≥ dupAckThresh ∧ ! item.sacked ∧ ! item.lost then
        let earlier := markLost dupAckThresh before sacked
          (wrap 32 (lostOut + item.packet.length))
        ({ item with lost := true } :: earlier.1, earlier.2)
      else
        let earlier := markLost dupAckThresh before sacked lostOut
        (item :: earlier.1, earlier.2)

/-- `UpdateLostCount`: from the highest sacked item back to the second one, and the head. -/
def updateLostCount (self : TcpTxBuffer) : Option TcpTxBuffer := do
  let node ← self.highestSack.1
  let index ← self.sentList.findIdx? fun item => item.node == node
  match self.sentList with
  | [] => none
  | head :: rest =>
      let marked := markLost self.dupAckThresh (rest.take index).reverse 0 self.lostOut
      let sentList := marked.1.reverse ++ rest.drop index
      if marked.2.1 ≥ self.dupAckThresh ∧ ! head.lost then
        some
          { self with
            sentList := { head with lost := true } :: sentList
            lostOut := wrap 32 (marked.2.2 + head.packet.length) }
      else some { self with sentList := head :: sentList, lostOut := marked.2.2 }

/-- `Update`. -/
def update (self : TcpTxBuffer) (list : List (SequenceNumber32 × SequenceNumber32)) :
    Option (TcpTxBuffer × Nat) :=
  let sacked := sackBlocks self.firstByteSeq self.sentSize list self.sentList
    ⟨self.lostOut, self.sackedOut, 0, self.highestSack⟩
  let board := sacked.2.1
  let updated : TcpTxBuffer :=
    { self with
      sentList := sacked.1
      lostOut := board.lostOut
      sackedOut := board.sackedOut
      highestSack := board.highestSack }
  if sacked.2.2 ∧ board.bytesSacked > 0 then
    updated.updateLostCount.map (·, board.bytesSacked)
  else some (updated, board.bytesSacked)

/-- `ResetRenoSack`. -/
def resetRenoSack (self : TcpTxBuffer) : TcpTxBuffer :=
  { self with
    sackedOut := 0
    sentList := self.sentList.map fun item => { item with sacked := false }
    highestSack := (none, SequenceNumber32.ofNat 0) }

/-- `ResetSentList`. -/
def resetSentList (self : TcpTxBuffer) : TcpTxBuffer :=
  { self with
    appList := self.sentList.map (fun item =>
      { item with retrans := false, sacked := false, lost := false }) ++ self.appList
    sentList := []
    sentSize := 0
    lostOut := 0
    retrans := 0
    sackedOut := 0
    highestSack := (none, SequenceNumber32.ofNat 0) }

/-- `ResetLastSegmentSent`. -/
def resetLastSegmentSent (self : TcpTxBuffer) : TcpTxBuffer :=
  match self.sentList.getLast? with
  | none => self
  | some item =>
      { self with
        sentList := self.sentList.dropLast
        sentSize := wrapSub 32 self.sentSize item.packet.length
        retrans := if item.retrans then wrapSub 32 self.retrans item.packet.length
          else self.retrans
        appList := item :: self.appList }

/-- The loop of `SetSentListLost`: the items and `m_lostOut`. -/
def loseItems (resetSack : Bool) : List TcpTxItem → Nat → List TcpTxItem × Nat
  | [], lostOut => ([], lostOut)
  | item :: rest, lostOut =>
      if resetSack then
        let later := loseItems resetSack rest lostOut
        ({ item with sacked := false, lost := true, retrans := false } :: later.1, later.2)
      else if item.lost then
        let later := loseItems resetSack rest (wrap 32 (lostOut + item.packet.length))
        ({ item with retrans := false } :: later.1, later.2)
      else if ! item.sacked then
        let later := loseItems resetSack rest (wrap 32 (lostOut + item.packet.length))
        ({ item with lost := true, retrans := false } :: later.1, later.2)
      else
        let later := loseItems resetSack rest lostOut
        ({ item with retrans := false } :: later.1, later.2)

/-- `SetSentListLost`. -/
def setSentListLost (self : TcpTxBuffer) (resetSack : Bool) : TcpTxBuffer :=
  let lost := loseItems resetSack self.sentList (if resetSack then self.sentSize else 0)
  { self with
    retrans := 0
    sackedOut := if resetSack then 0 else self.sackedOut
    highestSack := if resetSack then (none, SequenceNumber32.ofNat 0) else self.highestSack
    sentList := lost.1
    lostOut := lost.2 }

/-- `DeleteRetransmittedFlagFromHead`. -/
def deleteRetransmittedFlagFromHead (self : TcpTxBuffer) : Option TcpTxBuffer :=
  if self.sentSize = 0 then some self
  else
    match self.sentList with
    | [] => none
    | head :: rest =>
        if head.retrans then
          some
            { self with
              sentList := { head with retrans := false } :: rest
              retrans := wrapSub 32 self.retrans head.packet.length }
        else some self

/-- `BytesInFlight`. -/
def bytesInFlight (self : TcpTxBuffer) : Nat :=
  let leftOut := wrap 32 (self.sackedOut + self.lostOut)
  wrap 32 (wrapSub 32 self.sentSize leftOut + self.retrans)

/-- The calls on a buffer. -/
inductive Call
  | add (p : List UInt8)
  | copyFromSequence (numBytes : Nat) (seq : SequenceNumber32)
  | update (list : List (SequenceNumber32 × SequenceNumber32))
  | discardUpTo (seq : SequenceNumber32)
  | setSentListLost (resetSack : Bool)
  | markHeadAsLost
  | deleteRetransmittedFlagFromHead
  | addRenoSack
  | resetRenoSack
  | resetLastSegmentSent
  | resetSentList

/-- The buffer after a call, unless the program has stopped. -/
def call (self : TcpTxBuffer) : Call → Option TcpTxBuffer
  | .add p => some (self.add p).1
  | .copyFromSequence numBytes seq => (self.copyFromSequence numBytes seq).map Prod.fst
  | .update list => (self.update list).map Prod.fst
  | .discardUpTo seq => self.discardUpTo seq
  | .setSentListLost resetSack => some (self.setSentListLost resetSack)
  | .markHeadAsLost => some self.markHeadAsLost
  | .deleteRetransmittedFlagFromHead => self.deleteRetransmittedFlagFromHead
  | .addRenoSack => self.addRenoSack
  | .resetRenoSack => some self.resetRenoSack
  | .resetLastSegmentSent => some self.resetLastSegmentSent
  | .resetSentList => some self.resetSentList

end TcpTxBuffer

end Ns3.Internet
