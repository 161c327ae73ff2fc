import Ns3.Internet.TcpTxBuffer.Gathering

/-!
The items that `CopyFromSequence` returns.

A request for data that was sent, or for the first data that was not, gets an item. A request
that straddles the two gets what was sent of it, unless it also straddles the end of the
sequence number space: there the source compares values and not sequence numbers.
-/

namespace Ns3.Internet

open Library Network SequenceSpace

namespace TcpTxBuffer

/-- `GetNewSegment` with the item that it returns. -/
def newItem (self : TcpTxBuffer) (numBytes : Nat) : Option (TcpTxBuffer × TcpTxItem) := do
  let startOfAppList := SequenceSpace.add self.firstByteSeq self.sentSize
  let (edit, index) ← getPacketFromList startOfAppList numBytes startOfAppList
    (attempts self.appList) ⟨self.appList, self.retrans, self.nodes⟩
  let item ← edit.list[index]?
  let sent : TcpTxItem := { item with startSeq := startOfAppList, node := edit.nodes }
  pure
    ({ self with
      appList := edit.list.eraseIdx index
      sentList := self.sentList ++ [sent]
      sentSize := wrap 32 (self.sentSize + item.packet.length)
      retrans := edit.retrans
      nodes := edit.nodes + 1 }, sent)

/-- `GetTransmittedSegment` with the item that it returns. -/
def transmittedItem (self : TcpTxBuffer) (numBytes : Nat) (seq : SequenceNumber32) :
    Option (TcpTxBuffer × TcpTxItem) := do
  let (edit, index) ← getPacketFromList self.firstByteSeq
    (limitToFlags seq numBytes self.sentList) seq (attempts self.sentList)
    ⟨self.sentList, self.retrans, self.nodes⟩
  let counted ← countRetrans
    { self with sentList := edit.list, retrans := edit.retrans, nodes := edit.nodes } index
  let item ← counted.sentList[index]?
  pure (counted, item)

/-- The body of `CopyFromSequence` with the item that it returns, or no item for a null
pointer. -/
def copyItem (self : TcpTxBuffer) :
    Nat → Nat → SequenceNumber32 → Option (TcpTxBuffer × Option TcpTxItem)
  | 0, _, _ => none
  | calls + 1, numBytes, seq =>
      if gt self.firstByteSeq seq then none
      else
        let s := min numBytes (self.sizeFromSequence seq)
        if s = 0 then some (self, none)
        else
          let endOfSentList := SequenceSpace.add self.firstByteSeq self.sentSize
          if ge endOfSentList (SequenceSpace.add seq s) then
            (self.transmittedItem s seq).map fun given => (given.1, some given.2)
          else if le endOfSentList seq then
            if endOfSentList = seq then
              (self.newItem s).map fun given => (given.1, some given.2)
            else none
          else if wrap 32 (self.firstByteSeq.value + self.sentSize) > seq.value ∧
              wrap 32 (self.firstByteSeq.value + self.sentSize) < wrap 32 (seq.value + s) then
            self.copyItem calls
              (wrapSub 32 (wrap 32 (self.firstByteSeq.value + self.sentSize)) seq.value) seq
          else none

section

variable {self : TcpTxBuffer} {content : List UInt8} {numBytes : Nat} {seq : SequenceNumber32}

theorem newItem_getNewSegment (self : TcpTxBuffer) (numBytes : Nat) :
    (self.newItem numBytes).map Prod.fst = self.getNewSegment numBytes := by
  unfold newItem getNewSegment
  dsimp only
  generalize getPacketFromList _ _ _ _ _ = gathered
  cases gathered with
  | none => rfl
  | some gathered =>
      obtain ⟨edit, index⟩ := gathered
      change (((edit.list[index]?).bind _).map Prod.fst) = (edit.list[index]?).bind _
      cases edit.list[index]? with
      | none => rfl
      | some item => rfl

theorem countRetrans_item {index : Nat} {after : TcpTxBuffer}
    (counted : self.countRetrans index = some after) :
    ∃ item, self.sentList[index]? = some item ∧
      after.sentList[index]? = some { item with retrans := true } := by
  unfold countRetrans at counted
  obtain ⟨item, found, rest⟩ := Option.bind_eq_some_iff.mp counted
  refine ⟨item, found, ?_⟩
  split at rest
  next already =>
    cases rest
    rw [found, ← already]
  next notYet =>
    cases rest
    obtain ⟨inside, -⟩ := List.getElem?_eq_some_iff.mp found
    exact List.getElem?_set_self inside

theorem transmittedItem_getTransmittedSegment (self : TcpTxBuffer) (numBytes : Nat)
    (seq : SequenceNumber32) :
    (self.transmittedItem numBytes seq).map Prod.fst =
      self.getTransmittedSegment numBytes seq := by
  unfold transmittedItem getTransmittedSegment
  generalize getPacketFromList _ _ _ _ _ = gathered
  cases gathered with
  | none => rfl
  | some gathered =>
      obtain ⟨edit, index⟩ := gathered
      change (((countRetrans _ index).bind _).map Prod.fst) = countRetrans _ index
      cases counted : countRetrans { self with
          sentList := edit.list, retrans := edit.retrans, nodes := edit.nodes } index with
      | none => rfl
      | some after =>
          obtain ⟨item, -, atIndex⟩ := countRetrans_item counted
          change ((after.sentList[index]?).bind _).map Prod.fst = some after
          rw [atIndex]
          rfl

/-- Whether the pointer is null. -/
def Copied.ofItem : Option TcpTxItem → Copied
  | none => .nothing
  | some _ => .item

theorem copyItem_copyAttempt (self : TcpTxBuffer) (calls numBytes : Nat)
    (seq : SequenceNumber32) :
    (self.copyItem calls numBytes seq).map (fun given => (given.1, Copied.ofItem given.2)) =
      self.copyAttempt calls numBytes seq := by
  induction calls generalizing numBytes with
  | zero => rfl
  | succ calls inductionHypothesis =>
      rw [copyItem, copyAttempt]
      dsimp only
      split
      · rfl
      · split
        · rfl
        · split
          · rw [← transmittedItem_getTransmittedSegment, Option.map_map, Option.map_map]
            rfl
          · split
            · split
              · rw [← newItem_getNewSegment, Option.map_map, Option.map_map]
                rfl
              · rfl
            · split
              · exact inductionHypothesis _
              · rfl

/-- The item is in the sent list, starts at `seq` and holds the bytes of the stream there, at
least one and no more than asked for. It is new data exactly if `seq` is the first
byte that was not sent, and else it is flagged as retransmitted. -/
structure Copies (buffer : TcpTxBuffer) (numBytes : Nat) (seq : SequenceNumber32)
    (after : TcpTxBuffer) (item : TcpTxItem) : Prop where
  member : item ∈ after.sentList
  start : item.startSeq = seq
  bytes : item.packet = ((bytes buffer.sentList ++ bytes buffer.appList).drop
    (sub seq buffer.firstByteSeq)).take item.packet.length
  some : 1 ≤ item.packet.length
  atMost : item.packet.length ≤ min numBytes (buffer.sizeFromSequence seq)
  fresh : seq = SequenceSpace.add buffer.firstByteSeq buffer.sentSize →
    after.sentSize = buffer.sentSize + item.packet.length
  again : seq ≠ SequenceSpace.add buffer.firstByteSeq buffer.sentSize →
    after.sentSize = buffer.sentSize ∧ item.retrans = true

end

section

variable {begin : SequenceNumber32} {numBytes position total : Nat} {edit : Edit}

theorem Inside.shrink (inside : Inside begin position total) {fewer : Nat}
    (within : position < fewer) (less : fewer ≤ total) : Inside begin position fewer :=
  ⟨inside.ahead, inside.lt within less, within, Nat.lt_of_le_of_lt less inside.fits⟩

/-- A request that is not longer than the list sees its end. -/
theorem Inside.endSeen (inside : Inside begin position total) (few : numBytes ≤ total - position)
    {length : Nat} (some : 0 < length) :
    EndSeen (SequenceSpace.add begin position) numBytes length := by
  obtain ⟨ahead, behind, within, fits⟩ := inside
  have beginFits := begin.fits
  rcases Nat.lt_or_ge length numBytes with short | enough
  · refine .inr ?_
    rw [SequenceNumber32.lt_iff, SequenceNumber32.gt_iff, SequenceNumber32.value_add,
      SequenceNumber32.value_add] at behind
    rw [SequenceNumber32.add_add, SequenceNumber32.add_add, SequenceNumber32.gt_iff,
      SequenceNumber32.value_add, SequenceNumber32.value_add]
    omega
  · exact .inl enough

theorem cut_head (node numBytes : Nat) (item : TcpTxItem) (rest : List TcpTxItem) :
    ∃ first others, cut node numBytes item rest = first :: others ∧
      first.packet.length ≤ numBytes := by
  unfold cut
  split
  next longer =>
    refine ⟨_, _, rfl, ?_⟩
    simp [TcpTxItem.split]
  next notLonger => exact ⟨_, _, rfl, Nat.le_of_not_lt notLonger⟩

/-- `GetPacketFromList` finds the bytes at a position of the list. -/
theorem getPacketFromList_finds (some : 0 < numBytes) (filled : Filled edit.list)
    (inside : Inside begin position (bytes edit.list).length)
    (few : numBytes ≤ (bytes edit.list).length - position) :
    ∃ result before found behind,
      getPacketFromList begin numBytes (SequenceSpace.add begin position) (attempts edit.list)
          edit = .some (result, before.length) ∧
        result.list = before ++ found :: behind ∧ (bytes before).length = position ∧
        found.packet = ((bytes edit.list).drop position).take found.packet.length ∧
        1 ≤ found.packet.length ∧ found.packet.length ≤ numBytes ∧
        Intact begin edit.list result.list := by
  obtain ⟨before, item, after, count, list, shorter, rfl⟩ := exists_holding inside.within
  have fits := inside.fits
  have total : (bytes before).length + (bytes (item :: after)).length =
      (bytes edit.list).length := by
    rw [list, bytes_append, List.length_append]
  have restSome : 0 < item.packet.length - count := by omega
  have seen := inside.endSeen few restSome
  obtain ⟨result, earlier, start, node, gives, aligned, resultList⟩ := getPacketFromList_ends some
    (by omega) (list ▸ filled) (total ▸ inside) shorter list seen
  obtain ⟨intact, -⟩ := getPacketFromList_intact some (by omega) fits gives
  obtain ⟨found, others, cutList, atMost⟩ := cut_head node numBytes
    (gather numBytes start after).1 (gather numBytes start after).2
  rw [cutList] at resultList
  have foundSome : 1 ≤ found.packet.length := List.length_pos_iff.mpr
    (intact.filled filled found (by rw [resultList]; simp))
  refine ⟨result, earlier, found, others, gives, resultList, aligned.length, ?_, foundSome, atMost,
    intact⟩
  rw [← intact.bytes, resultList, bytes_append, bytes_cons, ← aligned.length, List.drop_left,
    List.take_left]

end

section

variable {self : TcpTxBuffer} {content : List UInt8} {numBytes position : Nat}
  {seq : SequenceNumber32}

theorem countRetrans_found {index : Nat} {item : TcpTxItem}
    (found : self.sentList[index]? = some item) :
    ∃ after, self.countRetrans index = some after ∧ after.sentSize = self.sentSize := by
  unfold countRetrans
  rw [found]
  change ∃ after, (if item.retrans then some self else some _) = some after ∧ _
  split
  · exact ⟨_, rfl, rfl⟩
  · exact ⟨_, rfl, rfl⟩

theorem Coherent.transmittedItem (coherent : Coherent content self) (some : 0 < numBytes)
    (inside : Inside self.firstByteSeq position self.sentSize)
    (few : numBytes ≤ self.sentSize - position) :
    ∃ after item, self.transmittedItem numBytes
          (SequenceSpace.add self.firstByteSeq position) = .some (after, item) ∧
      item ∈ after.sentList ∧
      item.startSeq = SequenceSpace.add self.firstByteSeq position ∧
      item.packet = ((bytes self.sentList).drop position).take item.packet.length ∧
      1 ≤ item.packet.length ∧ item.packet.length ≤ numBytes ∧
      after.sentSize = self.sentSize ∧ item.retrans = true := by
  have small := coherent.small
  rw [coherent.sentSize] at inside few
  have limitSome := limitToFlags_pos (SequenceSpace.add self.firstByteSeq position) some
    coherent.sentFilled small
  have limitLe := limitToFlags_le (SequenceSpace.add self.firstByteSeq position) numBytes
    self.sentList
  obtain ⟨result, before, found, behind, gives, list, starts, packet, foundSome, atMost, intact⟩ :=
    @getPacketFromList_finds self.firstByteSeq _ position
      ⟨self.sentList, self.retrans, self.nodes⟩ limitSome coherent.sentFilled inside
      (Nat.le_trans limitLe few)
  have atIndex : result.list[before.length]? = .some found := by
    rw [list]
    simp
  obtain ⟨after, counted, sameSize⟩ := @countRetrans_found
    { self with sentList := result.list, retrans := result.retrans, nodes := result.nodes }
    before.length found atIndex
  obtain ⟨item, isItem, flagged⟩ := countRetrans_item counted
  obtain rfl : found = item := Option.some.inj (atIndex.symm.trans isItem)
  have consecutive := intact.consecutive coherent.consecutive
  rw [list] at consecutive
  obtain ⟨-, foundStart, -⟩ := consecutive_append.mp consecutive
  refine ⟨after, { found with retrans := true }, ?_, List.mem_of_getElem? flagged,
    foundStart.trans (congrArg _ starts), packet, foundSome, Nat.le_trans atMost limitLe, sameSize,
    rfl⟩
  unfold TcpTxBuffer.transmittedItem
  rw [gives]
  change (countRetrans _ before.length).bind _ = _
  rw [counted]
  change (after.sentList[before.length]?).bind _ = _
  rw [flagged]
  rfl

theorem Coherent.newItem (coherent : Coherent content self) (some : 0 < numBytes)
    (inside : Inside (SequenceSpace.add self.firstByteSeq self.sentSize) 0
      (bytes self.appList).length)
    (few : numBytes ≤ (bytes self.appList).length) :
    ∃ after item, self.newItem numBytes = .some (after, item) ∧
      item ∈ after.sentList ∧
      item.startSeq = SequenceSpace.add self.firstByteSeq self.sentSize ∧
      item.packet = (bytes self.appList).take item.packet.length ∧
      1 ≤ item.packet.length ∧ item.packet.length ≤ numBytes ∧
      after.sentSize = self.sentSize + item.packet.length := by
  have total := coherent.sent_le
  have sentSize := coherent.sentSize
  obtain ⟨sizeFits, maxFits⟩ := coherent.fits
  obtain ⟨result, before, found, behind, gives, list, starts, packet, foundSome, atMost, intact⟩ :=
    @getPacketFromList_finds _ numBytes 0 ⟨self.appList, self.retrans, self.nodes⟩ some
      coherent.appFilled inside few
  have atIndex : result.list[before.length]? = .some found := by
    rw [list]
    simp
  rw [SequenceNumber32.add_zero] at gives
  let item : TcpTxItem := { found with
    startSeq := SequenceSpace.add self.firstByteSeq self.sentSize, node := result.nodes }
  refine ⟨{ self with
      appList := result.list.eraseIdx before.length
      sentList := self.sentList ++ [item]
      sentSize := wrap 32 (self.sentSize + found.packet.length)
      retrans := result.retrans
      nodes := result.nodes + 1 }, item, ?_, by simp, rfl, packet, foundSome, atMost,
    wrap_of_lt (by omega)⟩
  unfold TcpTxBuffer.newItem
  dsimp only
  rw [gives]
  change (result.list[before.length]?).bind _ = _
  rw [atIndex]
  rfl

end

section

variable {begin : SequenceNumber32} {position total sent length : Nat}

/-- How the source compares the end of the sent list with the end of a request. -/
theorem Inside.ge_sent (inside : Inside begin position total) (low : position ≤ sent)
    (high : sent ≤ total) (some : 0 < length) (few : length ≤ total - position) :
    ge (SequenceSpace.add begin sent)
        (SequenceSpace.add (SequenceSpace.add begin position) length) = true ↔
      position + length ≤ sent := by
  obtain ⟨ahead, behind, within, fits⟩ := inside
  have beginFits := begin.fits
  rw [SequenceNumber32.lt_iff, SequenceNumber32.gt_iff, SequenceNumber32.value_add,
    SequenceNumber32.value_add] at behind
  have same : SequenceSpace.add begin sent = SequenceSpace.add begin (position + length) ↔
      sent = position + length :=
    ⟨SequenceNumber32.add_injective begin (by omega) (by omega), fun equal => by rw [equal]⟩
  rw [SequenceNumber32.add_add, ge, Bool.or_eq_true, SequenceNumber32.gt_iff, decide_eq_true_iff,
    same, SequenceNumber32.value_add, SequenceNumber32.value_add]
  omega

/-- How it compares the end of the sent list with the start of a request that ends behind it. -/
theorem Inside.le_sent (inside : Inside begin position total) (low : position ≤ sent)
    (high : sent < total) :
    le (SequenceSpace.add begin sent) (SequenceSpace.add begin position) = true ↔
      position = sent := by
  obtain ⟨ahead, behind, within, fits⟩ := inside
  have beginFits := begin.fits
  rw [SequenceNumber32.lt_iff, SequenceNumber32.gt_iff, SequenceNumber32.value_add,
    SequenceNumber32.value_add] at behind
  rw [le_iff, SequenceNumber32.gt_iff, SequenceNumber32.value_add, SequenceNumber32.value_add]
  omega

/-- A sequence number up to the end of the sent list. -/
theorem Inside.le_of_le (inside : Inside begin position total) (high : sent ≤ total)
    (upTo : le (SequenceSpace.add begin position) (SequenceSpace.add begin sent) = true) :
    position ≤ sent := by
  obtain ⟨ahead, behind, within, fits⟩ := inside
  have beginFits := begin.fits
  rw [le_iff, SequenceNumber32.gt_iff, SequenceNumber32.value_add] at ahead
  rw [le_iff, SequenceNumber32.gt_iff, SequenceNumber32.value_add, SequenceNumber32.value_add]
    at upTo
  omega

end

section

variable {self after : TcpTxBuffer} {content : List UInt8} {numBytes position : Nat}
  {seq : SequenceNumber32} {item : TcpTxItem}

theorem Inside.sizeFromSequence (inside : Inside self.firstByteSeq position self.size) :
    self.sizeFromSequence (SequenceSpace.add self.firstByteSeq position) =
      self.size - position := by
  have fits := inside.fits
  have within := inside.within
  have behind := inside.behind
  have tail : self.tailSequence = SequenceSpace.add
      (SequenceSpace.add self.firstByteSeq position) (self.size - position) := by
    rw [SequenceNumber32.add_add, Nat.add_sub_cancel' (Nat.le_of_lt within)]
    rfl
  rw [SequenceNumber32.lt_iff] at behind
  unfold TcpTxBuffer.sizeFromSequence
  rw [if_pos (by rw [ge, tailSequence, behind, Bool.true_or]), tail,
    SequenceNumber32.sub_add _ (by omega)]

theorem Copies.mono (copies : Copies self numBytes seq after item) {more : Nat}
    (less : numBytes ≤ more) : Copies self more seq after item :=
  ⟨copies.member, copies.start, copies.bytes, copies.some,
    Nat.le_trans copies.atMost (Nat.le_min.mpr
      ⟨Nat.le_trans (Nat.min_le_left _ _) less, Nat.min_le_right _ _⟩),
    copies.fresh, copies.again⟩

/-- A request for data that was sent. -/
theorem Coherent.copyItem_sent (coherent : Coherent content self) (some : 0 < numBytes)
    (inside : Inside self.firstByteSeq position self.size)
    (sent : position + min numBytes (self.size - position) ≤ self.sentSize) (calls : Nat) :
    ∃ after item, self.copyItem (calls + 1) numBytes
        (SequenceSpace.add self.firstByteSeq position) = .some (after, .some item) ∧
      Copies self numBytes (SequenceSpace.add self.firstByteSeq position) after item := by
  have total := coherent.sent_le
  have sentSize := coherent.sentSize
  have within := inside.within
  have fits := inside.fits
  have size := inside.sizeFromSequence
  have positive : 0 < min numBytes (self.size - position) := by omega
  have sentInside : Inside self.firstByteSeq position self.sentSize :=
    inside.shrink (by omega) (by omega)
  obtain ⟨after, item, given, member, starts, packet, itemSome, atMost, same, flagged⟩ :=
    coherent.transmittedItem positive sentInside (by omega)
  refine ⟨after, item, ?_, member, starts, ?_, itemSome, by rw [size]; exact atMost,
    fun atEnd => ?_, fun _ => ⟨same, flagged⟩⟩
  · rw [copyItem, if_neg (le_iff.mp inside.ahead), size]
    dsimp only
    rw [if_neg (Nat.ne_of_gt positive),
      if_pos ((inside.ge_sent (by omega) (by omega) positive (Nat.min_le_right _ _)).mpr sent),
      given]
    rfl
  · rw [SequenceNumber32.sub_add _ (by omega), List.drop_append_of_le_length (by omega)]
    rw [List.take_append_of_le_length]
    · exact packet
    · rw [List.length_drop]
      omega
  · have none := SequenceNumber32.add_injective _ (by omega) (by omega) atEnd
    omega

/-- A request for the first data that was not sent. -/
theorem Coherent.copyItem_fresh (coherent : Coherent content self) (some : 0 < numBytes)
    (inside : Inside self.firstByteSeq self.sentSize self.size) (calls : Nat) :
    ∃ after item, self.copyItem (calls + 1) numBytes
        (SequenceSpace.add self.firstByteSeq self.sentSize) = .some (after, .some item) ∧
      Copies self numBytes (SequenceSpace.add self.firstByteSeq self.sentSize) after item := by
  have total := coherent.sent_le
  have sentSize := coherent.sentSize
  have within := inside.within
  have fits := inside.fits
  have behind := inside.behind
  have size := inside.sizeFromSequence
  have positive : 0 < min numBytes (self.size - self.sentSize) := by omega
  have app : self.size = self.sentSize + (bytes self.appList).length := by omega
  have appInside : Inside (SequenceSpace.add self.firstByteSeq self.sentSize) 0
      (bytes self.appList).length := by
    refine ⟨?_, ?_, by omega, by omega⟩
    · rw [SequenceNumber32.add_zero, le_iff, SequenceNumber32.gt_iff]
      omega
    · rw [SequenceNumber32.add_zero, SequenceNumber32.add_add, ← app]
      exact behind
  obtain ⟨after, item, given, member, starts, packet, itemSome, atMost, grown⟩ :=
    coherent.newItem positive appInside (by omega)
  have notSent : ¬ ge (SequenceSpace.add self.firstByteSeq self.sentSize)
      (SequenceSpace.add (SequenceSpace.add self.firstByteSeq self.sentSize)
        (min numBytes (self.size - self.sentSize))) = true := by
    rw [inside.ge_sent (Nat.le_refl _) (by omega) positive (Nat.min_le_right _ _)]
    omega
  refine ⟨after, item, ?_, member, starts, ?_, itemSome, by rw [size]; exact atMost,
    fun _ => grown, fun different => absurd rfl different⟩
  · rw [copyItem, if_neg (le_iff.mp inside.ahead), size]
    dsimp only
    rw [if_neg (Nat.ne_of_gt positive), if_neg notSent,
      if_pos ((inside.le_sent (Nat.le_refl _) within).mpr rfl), if_pos rfl, given]
    rfl
  · rw [SequenceNumber32.sub_add _ (by omega), sentSize, List.drop_left]
    exact packet

/-- A request that straddles sent and unsent data gets what was sent, unless it goes beyond
the end of the sequence number space. -/
theorem Coherent.copyItem_straddling (coherent : Coherent content self)
    (inside : Inside self.firstByteSeq position self.size) (low : position < self.sentSize)
    (high : self.sentSize < position + min numBytes (self.size - position))
    (unwrapped : (SequenceSpace.add self.firstByteSeq position).value +
      min numBytes (self.size - position) < 2 ^ 32) :
    ∃ after item, self.copyItem 2 numBytes
        (SequenceSpace.add self.firstByteSeq position) = some (after, some item) ∧
      Copies self numBytes (SequenceSpace.add self.firstByteSeq position) after item := by
  have fits := inside.fits
  have within := inside.within
  have size := inside.sizeFromSequence
  have firstFits := self.firstByteSeq.fits
  have value := SequenceNumber32.value_add self.firstByteSeq position
  have endValue : wrap 32 (self.firstByteSeq.value + self.sentSize) =
      (SequenceSpace.add self.firstByteSeq position).value + (self.sentSize - position) := by
    rw [wrap, value]
    omega
  have amount : wrapSub 32 (wrap 32 (self.firstByteSeq.value + self.sentSize))
      (SequenceSpace.add self.firstByteSeq position).value = self.sentSize - position := by
    rw [endValue, wrapSub_of_le (by omega) (by omega)]
    omega
  have notSent : ¬ ge (SequenceSpace.add self.firstByteSeq self.sentSize)
      (SequenceSpace.add (SequenceSpace.add self.firstByteSeq position)
        (min numBytes (self.size - position))) = true := by
    rw [inside.ge_sent (by omega) (by omega) (by omega) (Nat.min_le_right _ _)]
    omega
  have notFresh : ¬ le (SequenceSpace.add self.firstByteSeq self.sentSize)
      (SequenceSpace.add self.firstByteSeq position) = true := by
    rw [inside.le_sent (by omega) (by omega)]
    omega
  have some : 0 < self.sentSize - position := Nat.sub_pos_of_lt low
  obtain ⟨after, item, given, copies⟩ := coherent.copyItem_sent some inside (by omega) 0
  refine ⟨after, item, ?_, copies.mono (by omega)⟩
  rw [copyItem, if_neg (le_iff.mp inside.ahead), size]
  dsimp only
  rw [if_neg (by omega), if_neg notSent, if_neg notFresh, amount, if_pos, given]
  rw [endValue, wrap_of_lt unwrapped]
  omega

/-- The request reaches from sent data into data that was not sent. -/
def Straddles (self : TcpTxBuffer) (numBytes : Nat) (seq : SequenceNumber32) : Prop :=
  gt (SequenceSpace.add self.firstByteSeq self.sentSize) seq ∧
    gt (SequenceSpace.add seq (min numBytes (self.sizeFromSequence seq)))
      (SequenceSpace.add self.firstByteSeq self.sentSize)

instance (self : TcpTxBuffer) (numBytes : Nat) (seq : SequenceNumber32) :
    Decidable (self.Straddles numBytes seq) := inferInstanceAs (Decidable (_ ∧ _))

theorem Coherent.copies (coherent : Coherent content self) (some : 0 < numBytes)
    (ahead : le self.firstByteSeq seq = true) (behind : lt seq self.tailSequence = true)
    (upTo : le seq (SequenceSpace.add self.firstByteSeq self.sentSize) = true)
    (unwrapped : self.Straddles numBytes seq →
      seq.value + min numBytes (self.sizeFromSequence seq) < 2 ^ 32) :
    ∃ after item, self.copyItem 2 numBytes seq = .some (after, .some item) ∧
      Copies self numBytes seq after item := by
  have total := coherent.sent_le
  have sentSize := coherent.sentSize
  obtain ⟨sizeFits, maxFits⟩ := coherent.fits
  have inside := inside_of ahead behind (Nat.lt_of_le_of_lt sizeFits maxFits)
  have isSeq := SequenceNumber32.add_sub seq self.firstByteSeq
  generalize sub seq self.firstByteSeq = position at inside isSeq
  subst isSeq
  have low := inside.le_of_le (by omega) upTo
  have within := inside.within
  rw [Straddles, inside.sizeFromSequence] at unwrapped
  rcases Nat.lt_or_ge self.sentSize (position + min numBytes (self.size - position)) with
    beyond | sent
  · rcases Nat.eq_or_lt_of_le low with rfl | before
    · exact coherent.copyItem_fresh some inside 1
    · refine coherent.copyItem_straddling inside before beyond (unwrapped ⟨?_, ?_⟩)
      · have notFresh := mt (inside.le_sent low (by omega)).mp (Nat.ne_of_lt before)
        rwa [le_iff, not_not] at notFresh
      · have notSent := mt (inside.ge_sent low (by omega) (by omega) (Nat.min_le_right _ _)).mp
          (Nat.not_le_of_lt beyond)
        rw [ge, Bool.or_eq_true, not_or, Bool.not_eq_true, decide_eq_true_iff] at notSent
        rw [← SequenceNumber32.lt_iff, SequenceSpace.lt, notSent.1]
        simpa using notSent.2
  · exact coherent.copyItem_sent some inside sent 1

end

/-- A buffer that a run of calls reaches. -/
def Reachable (buffer : TcpTxBuffer) : Prop :=
  ∃ initial maxBuffer dupAckThresh calls, maxBuffer < 2 ^ 32 ∧
    machine.Legal (create initial maxBuffer dupAckThresh) calls ∧
    buffer = machine.run (create initial maxBuffer dupAckThresh) calls

/-- `CopyFromSequence` from a sequence number of the buffer that is not beyond the first unsent
byte. -/
theorem copies_of_reachable (buffer : TcpTxBuffer) (reachable : Reachable buffer) (numBytes : Nat)
    (some : 0 < numBytes) (seq : SequenceNumber32) (ahead : le buffer.firstByteSeq seq = true)
    (behind : lt seq buffer.tailSequence = true)
    (upTo : le seq (SequenceSpace.add buffer.firstByteSeq buffer.sentSize) = true)
    (unwrapped : buffer.Straddles numBytes seq →
      seq.value + min numBytes (buffer.sizeFromSequence seq) < 2 ^ 32) :
    ∃ after item, buffer.copyItem 2 numBytes seq = .some (after, .some item) ∧
      buffer.copyFromSequence numBytes seq = .some (after, .item) ∧
      Copies buffer numBytes seq after item := by
  obtain ⟨initial, maxBuffer, dupAckThresh, calls, small, legal, rfl⟩ := reachable
  obtain ⟨content, coherent⟩ := coherent_run initial dupAckThresh small legal
  obtain ⟨after, item, given, copies⟩ := coherent.copies some ahead behind upTo unwrapped
  refine ⟨after, item, given, ?_, copies⟩
  rw [copyFromSequence, ← copyItem_copyAttempt, given]
  rfl

/-- A retransmission across the end of the sequence number space. -/
theorem copies_of_reachable_wrapping :
    ∃ after item,
      (machine.run (create (SequenceNumber32.ofNat 4294967295) 16 3)
        [.add [1, 2, 3, 4], .copyFromSequence 2 (SequenceNumber32.ofNat 4294967295)]).copyItem 2 2
          (SequenceNumber32.ofNat 4294967295) = some (after, some item) ∧
      (machine.run (create (SequenceNumber32.ofNat 4294967295) 16 3)
        [.add [1, 2, 3, 4], .copyFromSequence 2
          (SequenceNumber32.ofNat 4294967295)]).copyFromSequence 2
          (SequenceNumber32.ofNat 4294967295) = some (after, .item) ∧
      Copies (machine.run (create (SequenceNumber32.ofNat 4294967295) 16 3)
        [.add [1, 2, 3, 4], .copyFromSequence 2 (SequenceNumber32.ofNat 4294967295)]) 2
          (SequenceNumber32.ofNat 4294967295) after item :=
  copies_of_reachable _ ⟨SequenceNumber32.ofNat 4294967295, 16, 3, _, by decide, by decide, rfl⟩ 2
    (by decide) (SequenceNumber32.ofNat 4294967295) (by decide) (by decide) (by decide)
    (by decide)

/-- The second byte is asked for before the first one was sent: the program aborts. -/
theorem not_copies :
    Reachable (machine.run (create (SequenceNumber32.ofNat 1) 16 3) [.add [1, 2, 3, 4]]) ∧
      le (SequenceNumber32.ofNat 1) (SequenceNumber32.ofNat 2) = true ∧
      lt (SequenceNumber32.ofNat 2) (machine.run (create (SequenceNumber32.ofNat 1) 16 3)
        [.add [1, 2, 3, 4]]).tailSequence = true ∧
      ¬ ∃ after item, (machine.run (create (SequenceNumber32.ofNat 1) 16 3)
          [.add [1, 2, 3, 4]]).copyItem 2 1 (SequenceNumber32.ofNat 2) =
          some (after, some item) ∧
        Copies (machine.run (create (SequenceNumber32.ofNat 1) 16 3) [.add [1, 2, 3, 4]]) 1
          (SequenceNumber32.ofNat 2) after item := by
  refine ⟨⟨SequenceNumber32.ofNat 1, 16, 3, _, by decide, by decide, rfl⟩, by decide, by decide,
    ?_⟩
  rintro ⟨after, item, given, -⟩
  have aborts : (machine.run (create (SequenceNumber32.ofNat 1) 16 3)
      [.add [1, 2, 3, 4]]).copyItem 2 1 (SequenceNumber32.ofNat 2) = none := by decide
  exact nomatch aborts.symm.trans given

end TcpTxBuffer

end Ns3.Internet
