import Ns3.Internet.TcpTxBuffer.Scoreboard

/-!
The loops of the transmission buffer that set flags.

Each of them goes over a part of the sent list. `Tally` relates the counters to
that part and to what the other items add to them.
-/

namespace Ns3.Internet

open Library Network SequenceSpace

namespace TcpTxBuffer

/-- The bytes of an item that count for a flag. -/
def counted (flag : Bool) (item : TcpTxItem) : Nat := if flag then item.packet.length else 0

/-- The counters are the sums over the list and over the items outside of it. -/
structure Tally (outerSacked outerLost : Nat) (list : List TcpTxItem) (sackedOut lostOut : Nat) :
    Prop where
  sacked : sackedOut = outerSacked + flagged TcpTxItem.sacked list
  lost : lostOut = outerLost + flagged TcpTxItem.lost list
  exclusive : Exclusive list
  fits : outerSacked + (bytes list).length < 2 ^ 32 ∧ outerLost + (bytes list).length < 2 ^ 32

section

variable {outerSacked outerLost sackedOut lostOut : Nat} {item : TcpTxItem}
  {rest : List TcpTxItem}

theorem counted_le (flag : Bool) (item : TcpTxItem) : counted flag item ≤ item.packet.length := by
  unfold counted
  split <;> omega

theorem exclusive_cons :
    Exclusive (item :: rest) ↔ ¬ (item.sacked = true ∧ item.lost = true) ∧ Exclusive rest :=
  List.forall_mem_cons

/-- The first item moves outside. -/
theorem Tally.tail (tally : Tally outerSacked outerLost (item :: rest) sackedOut lostOut) :
    Tally (outerSacked + counted item.sacked item) (outerLost + counted item.lost item) rest
      sackedOut lostOut := by
  obtain ⟨sacked, lost, exclusive, fits⟩ := tally
  have sackedLe := counted_le item.sacked item
  have lostLe := counted_le item.lost item
  rw [flagged_cons] at sacked lost
  rw [bytes_cons, List.length_append] at fits
  refine ⟨?_, ?_, (exclusive_cons.mp exclusive).2, ?_, ?_⟩
  · rw [sacked, Nat.add_assoc]
    rfl
  · rw [lost, Nat.add_assoc]
    rfl
  · omega
  · omega

/-- An item from outside becomes the first one. -/
theorem Tally.cons
    (tally : Tally (outerSacked + counted item.sacked item) (outerLost + counted item.lost item)
      rest sackedOut lostOut)
    (one : ¬ (item.sacked = true ∧ item.lost = true))
    (sackedFits : outerSacked + item.packet.length + (bytes rest).length < 2 ^ 32)
    (lostFits : outerLost + item.packet.length + (bytes rest).length < 2 ^ 32) :
    Tally outerSacked outerLost (item :: rest) sackedOut lostOut := by
  obtain ⟨sacked, lost, exclusive, -⟩ := tally
  refine ⟨?_, ?_, exclusive_cons.mpr ⟨one, exclusive⟩, ?_, ?_⟩
  · rw [sacked, flagged_cons, Nat.add_assoc]
    rfl
  · rw [lost, flagged_cons, Nat.add_assoc]
    rfl
  · rw [bytes_cons, List.length_append]
    omega
  · rw [bytes_cons, List.length_append]
    omega

end

/-- The retransmitted items did not change. -/
def SameRetrans (list others : List TcpTxItem) : Prop :=
  others.map (fun item => (item.packet, item.retrans)) =
    list.map fun item => (item.packet, item.retrans)

theorem SameRetrans.flagged {list others : List TcpTxItem} (same : SameRetrans list others) :
    flagged TcpTxItem.retrans others = flagged TcpTxItem.retrans list := by
  have pairs : ∀ items : List TcpTxItem, TcpTxBuffer.flagged TcpTxItem.retrans items =
      ((items.map fun item => (item.packet, item.retrans)).map fun pair =>
        if pair.2 then pair.1.length else 0).sum := by
    intro items
    simp [TcpTxBuffer.flagged, Function.comp_def]
  rw [pairs, pairs, same]

theorem SameRetrans.length_bytes {list others : List TcpTxItem} (same : SameRetrans list others) :
    (bytes others).length = (bytes list).length := by
  have pairs : ∀ items : List TcpTxItem, bytes items =
      ((items.map fun item => (item.packet, item.retrans)).map Prod.fst).flatten := by
    intro items
    simp [bytes, Function.comp_def]
  rw [pairs, pairs, same]

theorem SameRetrans.cons {item other : TcpTxItem} {list others : List TcpTxItem}
    (first : (other.packet, other.retrans) = (item.packet, item.retrans))
    (same : SameRetrans list others) : SameRetrans (item :: list) (other :: others) := by
  unfold SameRetrans
  rw [List.map_cons, List.map_cons, first, same]

section

variable {outerSacked outerLost : Nat}

/-- The counters after a loop over a part of the sent list. -/
def Retallied (outerSacked outerLost : Nat) (list : List TcpTxItem) (sackedOut lostOut : Nat)
    (edited : List TcpTxItem) : Prop :=
  Tally outerSacked outerLost edited sackedOut lostOut ∧ SameRetrans list edited

theorem Retallied.cons {sackedOut lostOut : Nat} {item other : TcpTxItem}
    {rest edited : List TcpTxItem}
    (later : Retallied (outerSacked + counted other.sacked other)
      (outerLost + counted other.lost other) rest sackedOut lostOut edited)
    (first : (other.packet, other.retrans) = (item.packet, item.retrans))
    (one : ¬ (other.sacked = true ∧ other.lost = true))
    (fits : outerSacked + (bytes (item :: rest)).length < 2 ^ 32 ∧
      outerLost + (bytes (item :: rest)).length < 2 ^ 32) :
    Retallied outerSacked outerLost (item :: rest) sackedOut lostOut (other :: edited) := by
  have samePacket : other.packet = item.packet := congrArg Prod.fst first
  have sameLength := later.2.length_bytes
  rw [bytes_cons, List.length_append] at fits
  refine ⟨later.1.cons one ?_ ?_, later.2.cons first⟩
  · rw [samePacket, sameLength]
    omega
  · rw [samePacket, sameLength]
    omega

theorem sackBlock_retallied (block : SequenceNumber32 × SequenceNumber32) {list : List TcpTxItem}
    (begin : SequenceNumber32) {board : Scoreboard}
    (tally : Tally outerSacked outerLost list board.sackedOut board.lostOut) :
    Retallied outerSacked outerLost list (sackBlock block list begin board).2.sackedOut
      (sackBlock block list begin board).2.lostOut (sackBlock block list begin board).1 := by
  induction list generalizing begin board outerSacked outerLost with
  | nil => exact ⟨tally, rfl⟩
  | cons item rest inductionHypothesis =>
      have one := (exclusive_cons.mp tally.exclusive).1
      have fits := tally.fits
      have same := (inductionHypothesis (SequenceSpace.add begin item.packet.length)
        tally.tail).cons rfl one fits
      rw [sackBlock]
      dsimp only
      split
      · split
        · exact same
        next unsacked =>
          refine (inductionHypothesis _ ?_).cons rfl (fun both => absurd both.2 Bool.false_ne_true) fits
          -- The item no longer counts as lost, but as sacked.
          obtain ⟨sacked, lost, exclusive, -⟩ := tally.tail
          have lostLe := counted_le item.lost item
          rw [counted, if_neg unsacked] at sacked
          rw [bytes_cons, List.length_append] at fits
          refine ⟨?_, ?_, exclusive, ?_, ?_⟩
          · have few := flagged_le TcpTxItem.sacked rest
            simp only [counted, if_pos]
            rw [wrap_of_lt (by omega)]
            omega
          · have few := flagged_le TcpTxItem.lost rest
            simp only [counted] at lost lostLe ⊢
            split
            next isLost =>
              rw [if_pos isLost] at lost
              rw [wrapSub_of_le (by omega) (by omega)]
              simp
              omega
            next notLost =>
              rw [if_neg notLost] at lost
              simpa using lost
          · simp only [counted, if_pos]
            omega
          · simp only [counted]
            simp
            omega
      · split
        · exact ⟨tally, rfl⟩
        · exact same

/-- The block covers the first item. -/
def CoversHead (begin : SequenceNumber32) (list : List TcpTxItem)
    (block : SequenceNumber32 × SequenceNumber32) : Prop :=
  ∃ head ∈ list.head?, ge begin block.1 ∧
    le (SequenceSpace.add begin head.packet.length) block.2

instance (begin : SequenceNumber32) (list : List TcpTxItem)
    (block : SequenceNumber32 × SequenceNumber32) : Decidable (CoversHead begin list block) :=
  inferInstanceAs (Decidable (∃ head ∈ _, _))

/-- A block that does not cover the first item leaves it. -/
theorem sackBlock_head {block : SequenceNumber32 × SequenceNumber32} {list : List TcpTxItem}
    {begin : SequenceNumber32} (apart : ¬ CoversHead begin list block) (board : Scoreboard) :
    (sackBlock block list begin board).1.head? = list.head? := by
  cases list with
  | nil => rfl
  | cons item rest =>
      rw [sackBlock]
      dsimp only
      split
      next covers =>
        rw [Bool.and_eq_true] at covers
        exact absurd ⟨item, rfl, covers.1, covers.2⟩ apart
      · split
        · rfl
        · rfl

theorem sackBlocks_head {first : SequenceNumber32} {sentSize : Nat}
    {blocks : List (SequenceNumber32 × SequenceNumber32)} {list : List TcpTxItem}
    (apart : ∀ block ∈ blocks, ¬ CoversHead first list block) (board : Scoreboard) :
    (sackBlocks first sentSize blocks list board).1.head? = list.head? := by
  induction blocks generalizing list board with
  | nil => rfl
  | cons block blocks inductionHypothesis =>
      have same := sackBlock_head (apart block List.mem_cons_self) board
      rw [sackBlocks]
      split
      · rfl
      · refine (inductionHypothesis (fun other member => ?_) _).trans same
        unfold CoversHead
        rw [same]
        exact apart other (List.mem_cons_of_mem block member)

theorem SameRetrans.trans {list middle edited : List TcpTxItem} (first : SameRetrans list middle)
    (second : SameRetrans middle edited) : SameRetrans list edited := by
  unfold SameRetrans at first second ⊢
  exact second.trans first

theorem sackBlocks_retallied (first : SequenceNumber32) (sentSize : Nat)
    (blocks : List (SequenceNumber32 × SequenceNumber32)) {list : List TcpTxItem}
    {board : Scoreboard}
    (tally : Tally outerSacked outerLost list board.sackedOut board.lostOut) :
    Retallied outerSacked outerLost list
      (sackBlocks first sentSize blocks list board).2.1.sackedOut
      (sackBlocks first sentSize blocks list board).2.1.lostOut
      (sackBlocks first sentSize blocks list board).1 := by
  induction blocks generalizing list board with
  | nil => exact ⟨tally, rfl⟩
  | cons block blocks inductionHypothesis =>
      rw [sackBlocks]
      split
      · exact ⟨tally, rfl⟩
      · obtain ⟨once, sameOnce⟩ := sackBlock_retallied block first tally
        obtain ⟨later, sameLater⟩ := inductionHypothesis once
        exact ⟨later, sameOnce.trans sameLater⟩

theorem markLost_retallied (dupAckThresh : Nat) {list : List TcpTxItem} (sacked : Nat)
    {sackedOut lostOut : Nat} (tally : Tally outerSacked outerLost list sackedOut lostOut) :
    Retallied outerSacked outerLost list sackedOut
      (markLost dupAckThresh list sacked lostOut).2.2
      (markLost dupAckThresh list sacked lostOut).1 := by
  induction list generalizing sacked lostOut outerSacked outerLost with
  | nil => exact ⟨tally, rfl⟩
  | cons item before inductionHypothesis =>
      have one := (exclusive_cons.mp tally.exclusive).1
      have fits := tally.fits
      rw [markLost]
      dsimp only
      generalize (if item.sacked then sacked + 1 else sacked) = count
      split
      next marked =>
        obtain ⟨-, unsacked, notLost⟩ := marked
        rw [Bool.not_eq_true'] at unsacked notLost
        refine (inductionHypothesis count ?_).cons rfl (fun both => ?_) fits
        · obtain ⟨sackedSum, lostSum, exclusive, -⟩ := tally.tail
          have few := flagged_le TcpTxItem.lost before
          rw [counted, notLost, if_neg Bool.false_ne_true] at lostSum
          rw [bytes_cons, List.length_append] at fits
          have sackedLe := counted_le item.sacked item
          refine ⟨sackedSum, ?_, exclusive, ?_, ?_⟩
          · simp only [counted, if_pos]
            rw [wrap_of_lt (by omega)]
            omega
          · change outerSacked + counted item.sacked item + (bytes before).length < 2 ^ 32
            omega
          · simp only [counted, if_pos]
            omega
        · exact absurd both.1 (by simp [unsacked])
      next => exact (inductionHypothesis count tally.tail).cons rfl one fits

end

theorem length_bytes_reverse (list : List TcpTxItem) :
    (bytes list.reverse).length = (bytes list).length := by
  simp [bytes, List.length_flatten]

theorem exclusive_append {list others : List TcpTxItem} :
    Exclusive (list ++ others) ↔ Exclusive list ∧ Exclusive others := List.forall_mem_append

theorem exclusive_reverse {list : List TcpTxItem} : Exclusive list.reverse ↔ Exclusive list := by
  simp [Exclusive]

section

variable {outerSacked outerLost sackedOut lostOut : Nat} {list others edited : List TcpTxItem}

/-- The items behind a part of the list move outside, and the part is gone through
backwards. -/
theorem Tally.reverse (tally : Tally outerSacked outerLost (list ++ others) sackedOut lostOut) :
    Tally (outerSacked + flagged TcpTxItem.sacked others)
      (outerLost + flagged TcpTxItem.lost others) list.reverse sackedOut lostOut := by
  obtain ⟨sacked, lost, exclusive, sackedFits, lostFits⟩ := tally
  have sackedLe := flagged_le TcpTxItem.sacked others
  have lostLe := flagged_le TcpTxItem.lost others
  rw [bytes_append, List.length_append] at sackedFits lostFits
  rw [flagged_append] at sacked lost
  refine ⟨?_, ?_, exclusive_reverse.mpr (exclusive_append.mp exclusive).1, ?_, ?_⟩
  · rw [flagged_reverse]
    omega
  · rw [flagged_reverse]
    omega
  · rw [length_bytes_reverse]
    omega
  · rw [length_bytes_reverse]
    omega

theorem Retallied.reverse
    (retallied : Retallied (outerSacked + flagged TcpTxItem.sacked others)
      (outerLost + flagged TcpTxItem.lost others) list.reverse sackedOut lostOut edited)
    (exclusive : Exclusive others)
    (fits : outerSacked + (bytes (list ++ others)).length < 2 ^ 32 ∧
      outerLost + (bytes (list ++ others)).length < 2 ^ 32) :
    Retallied outerSacked outerLost (list ++ others) sackedOut lostOut
      (edited.reverse ++ others) := by
  obtain ⟨⟨sacked, lost, editedExclusive, -⟩, same⟩ := retallied
  have sameBack : SameRetrans (list ++ others) (edited.reverse ++ others) := by
    unfold SameRetrans at same ⊢
    rw [List.map_append, List.map_append, List.map_reverse, same, List.map_reverse,
      List.reverse_reverse]
  refine ⟨⟨?_, ?_, ?_, ?_⟩, sameBack⟩
  · rw [flagged_append, flagged_reverse]
    omega
  · rw [flagged_append, flagged_reverse]
    omega
  · exact exclusive_append.mpr ⟨exclusive_reverse.mpr editedExclusive, exclusive⟩
  · rw [sameBack.length_bytes]
    exact fits

end

variable {self after : TcpTxBuffer}

theorem Tallied.tally (tallied : Tallied self) (small : (bytes self.sentList).length < 2 ^ 32) :
    Tally 0 0 self.sentList self.sackedOut self.lostOut :=
  ⟨by rw [tallied.sacked, Nat.zero_add], by rw [tallied.lost, Nat.zero_add], tallied.exclusive,
    by omega, by omega⟩

/-- The counters of the buffer after a loop over the whole sent list. -/
theorem Tallied.retallied (tallied : Tallied self)
    (retallied : Retallied 0 0 self.sentList after.sackedOut after.lostOut after.sentList)
    (sameRetrans : after.retrans = self.retrans) (sameApp : after.appList = self.appList) :
    Tallied after := by
  obtain ⟨⟨sacked, lost, exclusive, -⟩, same⟩ := retallied
  rw [Nat.zero_add] at sacked lost
  refine ⟨sacked, lost, ?_, exclusive, sameApp ▸ tallied.unflagged⟩
  rw [sameRetrans, same.flagged]
  exact tallied.retrans

theorem Tallied.updateLostCount (tallied : Tallied self)
    (small : (bytes self.sentList).length < 2 ^ 32) (unsacked : HeadUnsacked self.sentList)
    (given : self.updateLostCount = some after) :
    Tallied after ∧ HeadUnsacked after.sentList := by
  obtain ⟨node, -, found⟩ := Option.bind_eq_some_iff.mp given
  obtain ⟨index, -, marked⟩ := Option.bind_eq_some_iff.mp found
  have tally := tallied.tally small
  cases list : self.sentList with
  | nil =>
      rw [list] at marked
      exact nomatch marked
  | cons head rest =>
      rw [list] at marked tally unsacked
      have headUnsacked : head.sacked = false := unsacked head rfl
      have parts : rest.take index ++ rest.drop index = rest := List.take_append_drop index rest
      have one := (exclusive_cons.mp tally.exclusive).1
      have restTally := tally.tail
      have restFits := restTally.fits
      rw [← parts] at restTally restFits
      have lost := (markLost_retallied self.dupAckThresh 0 restTally.reverse).reverse
        (exclusive_append.mp restTally.exclusive).2 restFits
      rw [parts] at lost
      dsimp only at marked
      split at marked
      next reached =>
        obtain ⟨-, notLost⟩ := reached
        rw [Bool.not_eq_true'] at notLost
        cases marked
        refine ⟨tallied.retallied ?_ rfl rfl, fun first isFirst => ?_⟩
        · dsimp only
          rw [list]
          refine Retallied.cons ?_ rfl (fun both => ?_) tally.fits
          · obtain ⟨⟨sackedSum, lostSum, exclusive, sackedFits, -⟩, same⟩ := lost
            have fits := tally.fits
            rw [bytes_cons, List.length_append] at fits
            rw [counted, notLost, if_neg Bool.false_ne_true] at lostSum
            have few := flagged_le TcpTxItem.lost ((markLost self.dupAckThresh
              (rest.take index).reverse 0 self.lostOut).1.reverse ++ rest.drop index)
            rw [same.length_bytes] at few
            refine ⟨⟨sackedSum, ?_, exclusive, sackedFits, ?_⟩, same⟩
            · simp only [counted, if_pos]
              rw [wrap_of_lt (by omega)]
              omega
            · simp only [counted, if_pos]
              rw [same.length_bytes]
              omega
          · exact absurd both.1 (by simp [headUnsacked])
        · cases isFirst
          exact headUnsacked
      next =>
        cases marked
        refine ⟨tallied.retallied ?_ rfl rfl, fun first isFirst => ?_⟩
        · dsimp only
          rw [list]
          exact lost.cons rfl one tally.fits
        · cases isFirst
          exact headUnsacked

/-- `Update` keeps the counters unless it is given a block that covers the head. -/
theorem Tallied.update (tallied : Tallied self) (small : (bytes self.sentList).length < 2 ^ 32)
    (unsacked : HeadUnsacked self.sentList)
    {list : List (SequenceNumber32 × SequenceNumber32)}
    (apart : ∀ block ∈ list, ¬ CoversHead self.firstByteSeq self.sentList block)
    {bytesSacked : Nat} (given : self.update list = some (after, bytesSacked)) :
    Tallied after ∧ HeadUnsacked after.sentList := by
  unfold TcpTxBuffer.update at given
  generalize start : Scoreboard.mk self.lostOut self.sackedOut 0 self.highestSack = board at given
  have tally : Tally 0 0 self.sentList board.sackedOut board.lostOut := by
    rw [← start]
    exact tallied.tally small
  have sacked := sackBlocks_retallied self.firstByteSeq self.sentSize list tally
  have sameHead := @sackBlocks_head self.firstByteSeq self.sentSize list self.sentList apart board
  have sameLength := sacked.2.length_bytes
  have stillUnsacked : HeadUnsacked
      (sackBlocks self.firstByteSeq self.sentSize list self.sentList board).1 := by
    unfold HeadUnsacked
    rw [sameHead]
    exact unsacked
  dsimp only at given
  split at given
  · obtain ⟨counted, updated, same⟩ := Option.map_eq_some_iff.mp given
    cases same
    refine Tallied.updateLostCount ?_ ?_ ?_ updated
    · exact tallied.retallied sacked rfl rfl
    · dsimp only
      rw [sameLength]
      exact small
    · exact stillUnsacked
  · cases given
    exact ⟨tallied.retallied sacked rfl rfl, stillUnsacked⟩

/-- The counters of a list with a first item. -/
structure HeadSums (buffer : TcpTxBuffer) (head : TcpTxItem) (rest : List TcpTxItem) : Prop where
  sacked : buffer.sackedOut = counted head.sacked head + flagged TcpTxItem.sacked rest
  lost : buffer.lostOut = counted head.lost head + flagged TcpTxItem.lost rest
  retrans : buffer.retrans = counted head.retrans head + flagged TcpTxItem.retrans rest
  fits : head.packet.length + (bytes rest).length < 2 ^ 32
  one : ¬ (head.sacked = true ∧ head.lost = true)
  exclusive : Exclusive rest

theorem Tallied.headSums (tallied : Tallied self) (small : (bytes self.sentList).length < 2 ^ 32)
    {head : TcpTxItem} {rest : List TcpTxItem} (list : self.sentList = head :: rest) :
    HeadSums self head rest := by
  obtain ⟨sacked, lost, retrans, exclusive, -⟩ := tallied
  rw [list] at sacked lost retrans small exclusive
  rw [bytes_cons, List.length_append] at small
  obtain ⟨one, others⟩ := exclusive_cons.mp exclusive
  exact ⟨by rw [sacked, flagged_cons, counted], by rw [lost, flagged_cons, counted],
    by rw [retrans, flagged_cons, counted], small, one, others⟩

theorem tallied_of_headSums {head : TcpTxItem} {rest : List TcpTxItem}
    (list : self.sentList = head :: rest) (unflagged : Unflagged self.appList)
    (sums : HeadSums self head rest) : Tallied self := by
  obtain ⟨sacked, lost, retrans, -, one, exclusive⟩ := sums
  refine ⟨?_, ?_, ?_, ?_, unflagged⟩
  · rw [list, sacked, flagged_cons, counted]
  · rw [list, lost, flagged_cons, counted]
  · rw [list, retrans, flagged_cons, counted]
  · rw [list]
    exact exclusive_cons.mpr ⟨one, exclusive⟩

/-- A counter after bytes of the head no longer count. -/
theorem wrapSub_counted {total others : Nat} {flag : Bool} {head : TcpTxItem}
    (sum : total = counted flag head + others) (fits : head.packet.length + others < 2 ^ 32)
    {size : Nat} (less : size ≤ head.packet.length) :
    (if flag then wrapSub 32 total size else total) =
      (if flag then head.packet.length - size else 0) + others := by
  cases flag with
  | false => simpa [counted] using sum
  | true =>
      simp only [counted, if_pos] at sum ⊢
      rw [wrapSub_of_le (by omega) (by omega)]
      omega

theorem HeadSums.fits_flagged {head : TcpTxItem} {rest : List TcpTxItem}
    (sums : HeadSums self head rest) (flag : TcpTxItem → Bool) :
    head.packet.length + flagged flag rest < 2 ^ 32 := by
  have fits := sums.fits
  have few := flagged_le flag rest
  omega

theorem Tallied.markHeadAsLost (tallied : Tallied self)
    (small : (bytes self.sentList).length < 2 ^ 32) :
    Tallied self.markHeadAsLost ∧ HeadUnsacked self.markHeadAsLost.sentList := by
  unfold TcpTxBuffer.markHeadAsLost
  split
  next list =>
    refine ⟨tallied, ?_⟩
    rw [list]
    exact fun _ member => nomatch member
  next head rest list =>
    have sums := tallied.headSums small list
    refine ⟨tallied_of_headSums rfl tallied.unflagged ⟨?_, ?_, ?_, sums.fits,
      fun both => (nomatch both.1), sums.exclusive⟩, fun first isFirst => ?_⟩
    · have less := wrapSub_counted sums.sacked (sums.fits_flagged _) (Nat.le_refl _)
      simpa [counted] using less
    · have fits := sums.fits_flagged TcpTxItem.lost
      have sum := sums.lost
      simp only [counted] at sum ⊢
      split
      next isLost => simpa [isLost] using sum
      next notLost =>
        rw [if_neg notLost] at sum
        rw [wrap_of_lt (by omega)]
        simp
        omega
    · have less := wrapSub_counted sums.retrans (sums.fits_flagged _) (Nat.le_refl _)
      simpa [counted] using less
    · cases isFirst
      rfl

theorem Tallied.deleteRetransmittedFlagFromHead (tallied : Tallied self)
    (small : (bytes self.sentList).length < 2 ^ 32) (unsacked : HeadUnsacked self.sentList)
    (given : self.deleteRetransmittedFlagFromHead = some after) :
    Tallied after ∧ HeadUnsacked after.sentList := by
  unfold TcpTxBuffer.deleteRetransmittedFlagFromHead at given
  split at given
  · cases given
    exact ⟨tallied, unsacked⟩
  · split at given
    · exact nomatch given
    next head rest list =>
      have sums := tallied.headSums small list
      split at given
      next isRetrans =>
        cases given
        refine ⟨tallied_of_headSums rfl tallied.unflagged ⟨sums.sacked, sums.lost, ?_, sums.fits,
          sums.one, sums.exclusive⟩, fun first isFirst => ?_⟩
        · have less := wrapSub_counted sums.retrans (sums.fits_flagged _) (Nat.le_refl _)
          rw [if_pos isRetrans] at less
          simpa [counted] using less
        · cases isFirst
          rw [list] at unsacked
          exact unsacked head rfl
      next =>
        cases given
        exact ⟨tallied, unsacked⟩

/-- `AddRenoSack` would not sack a lost item of the list. -/
def Sackable (list : List TcpTxItem) : Prop :=
  ∀ item ∈ list.find? fun item => ! item.sacked, item.lost = false

instance (list : List TcpTxItem) : Decidable (Sackable list) :=
  inferInstanceAs (Decidable (∀ item ∈ _, _))

/-- The flags of the list after one more item is sacked. -/
structure Sacked (list edited : List TcpTxItem) (item : TcpTxItem) : Prop where
  sacked : flagged TcpTxItem.sacked edited =
    item.packet.length + flagged TcpTxItem.sacked list
  lost : flagged TcpTxItem.lost edited = flagged TcpTxItem.lost list
  retrans : SameRetrans list edited
  exclusive : Exclusive edited

theorem sackFirst_sacked {list sacked : List TcpTxItem} {item : TcpTxItem}
    (sackable : Sackable list) (exclusive : Exclusive list)
    (found : sackFirst list = (sacked, some item)) : Sacked list sacked item := by
  induction list generalizing sacked with
  | nil => exact nomatch found
  | cons first rest inductionHypothesis =>
      obtain ⟨one, others⟩ := exclusive_cons.mp exclusive
      rw [sackFirst] at found
      unfold Sackable at sackable
      rw [List.find?_cons] at sackable
      split at found
      next isSacked =>
        obtain ⟨rfl, later⟩ := Prod.mk.inj found
        rw [isSacked] at sackable
        have more := inductionHypothesis sackable others (Prod.ext rfl later)
        refine ⟨?_, ?_, more.retrans.cons rfl, exclusive_cons.mpr ⟨one, more.exclusive⟩⟩
        · rw [flagged_cons, flagged_cons, more.sacked]
          omega
        · rw [flagged_cons, flagged_cons, more.lost]
      next notSacked =>
        obtain ⟨rfl, same⟩ := Prod.mk.inj found
        cases same
        rw [Bool.not_eq_true] at notSacked
        rw [notSacked] at sackable
        have notLost : item.lost = false := sackable item rfl
        refine ⟨?_, ?_, SameRetrans.cons rfl rfl, exclusive_cons.mpr ⟨fun both => ?_, others⟩⟩
        · rw [flagged_cons, flagged_cons, notSacked]
          simp
        · rw [flagged_cons, flagged_cons]
        · exact absurd both.2 (by simp [notLost])

/-- `AddRenoSack` keeps the counters where the item that it sacks is not lost. -/
theorem Tallied.addRenoSack (tallied : Tallied self)
    (small : (bytes self.sentList).length < 2 ^ 32) (unsacked : HeadUnsacked self.sentList)
    (sackable : Sackable self.sentList.tail) (given : self.addRenoSack = some after) :
    Tallied after ∧ HeadUnsacked after.sentList := by
  unfold TcpTxBuffer.addRenoSack at given
  split at given
  · exact nomatch given
  next head rest list =>
    have sums := tallied.headSums small list
    rw [list, List.tail_cons] at sackable
    split at given
    · cases given
      exact ⟨tallied, unsacked⟩
    next sacked item found =>
      cases given
      have more := sackFirst_sacked sackable sums.exclusive found
      have sameLength := more.retrans.length_bytes
      have sackedSum := sums.sacked
      have few := flagged_le TcpTxItem.sacked sacked
      have headLe := counted_le head.sacked head
      have fits := sums.fits
      rw [sameLength, more.sacked] at few
      refine ⟨tallied_of_headSums rfl tallied.unflagged ⟨?_, ?_, ?_, ?_, sums.one,
        more.exclusive⟩, fun first isFirst => ?_⟩
      · dsimp only
        rw [more.sacked, wrap_of_lt (by omega)]
        omega
      · exact sums.lost.trans (by rw [more.lost])
      · exact sums.retrans.trans (by rw [more.retrans.flagged])
      · rw [sameLength]
        exact fits
      · cases isFirst
        rw [list] at unsacked
        exact unsacked head rfl

theorem Tallied.resetRenoSack (tallied : Tallied self) :
    Tallied self.resetRenoSack ∧ HeadUnsacked self.resetRenoSack.sentList := by
  have same : ∀ flag : TcpTxItem → Bool, (∀ item, flag { item with sacked := false } = flag item) →
      flagged flag (self.sentList.map fun item => { item with sacked := false }) =
        flagged flag self.sentList := by
    intro flag kept
    simp [flagged, Function.comp_def, kept]
  refine ⟨⟨?_, ?_, ?_, ?_, tallied.unflagged⟩, ?_⟩
  · refine (flagged_eq_zero _ _ fun item member => ?_).symm
    obtain ⟨old, -, rfl⟩ := List.mem_map.mp member
    rfl
  · exact tallied.lost.trans (same TcpTxItem.lost fun _ => rfl).symm
  · exact tallied.retrans.trans (same TcpTxItem.retrans fun _ => rfl).symm
  · intro item member both
    obtain ⟨old, -, rfl⟩ := List.mem_map.mp member
    exact absurd both.1 Bool.false_ne_true
  · intro head isHead
    obtain ⟨old, -, rfl⟩ := List.mem_map.mp (List.mem_of_mem_head? isHead)
    rfl

theorem Tallied.resetSentList (tallied : Tallied self) :
    Tallied self.resetSentList ∧ HeadUnsacked self.resetSentList.sentList := by
  refine ⟨⟨rfl, rfl, rfl, fun _ member => (nomatch member), fun item member => ?_⟩,
    fun _ member => nomatch member⟩
  rcases List.mem_append.mp member with sent | app
  · obtain ⟨old, -, rfl⟩ := List.mem_map.mp sent
    exact ⟨rfl, rfl, rfl⟩
  · exact tallied.unflagged item app

/-- `ResetLastSegmentSent` keeps the counters where the last item has no flags. -/
theorem Tallied.resetLastSegmentSent (tallied : Tallied self) (unsacked : HeadUnsacked self.sentList)
    (unflagged : Unflagged self.sentList.getLast?.toList) :
    Tallied self.resetLastSegmentSent ∧ HeadUnsacked self.resetLastSegmentSent.sentList := by
  unfold TcpTxBuffer.resetLastSegmentSent
  split
  · exact ⟨tallied, unsacked⟩
  next item last =>
    rw [last] at unflagged
    obtain ⟨itemSacked, itemLost, itemRetrans⟩ := unflagged item (by simp)
    have list : self.sentList.dropLast ++ [item] = self.sentList :=
      List.dropLast_append_getLast? item last
    have without : ∀ flag : TcpTxItem → Bool, flag item = false →
        flagged flag self.sentList = flagged flag self.sentList.dropLast := by
      intro flag absent
      calc flagged flag self.sentList
          = flagged flag (self.sentList.dropLast ++ [item]) := by rw [list]
        _ = flagged flag self.sentList.dropLast := by simp [absent]
    refine ⟨⟨?_, ?_, ?_, fun other member => ?_, fun other member => ?_⟩, fun head isHead => ?_⟩
    · exact tallied.sacked.trans (without TcpTxItem.sacked itemSacked)
    · exact tallied.lost.trans (without TcpTxItem.lost itemLost)
    · dsimp only
      rw [itemRetrans, if_neg Bool.false_ne_true]
      exact tallied.retrans.trans (without TcpTxItem.retrans itemRetrans)
    · exact tallied.exclusive other ((List.dropLast_subset _ member))
    · rcases List.mem_cons.mp member with rfl | app
      · exact ⟨itemSacked, itemLost, itemRetrans⟩
      · exact tallied.unflagged other app
    · dsimp only at isHead
      cases sent : self.sentList.dropLast with
      | nil =>
          rw [sent] at isHead
          exact nomatch isHead
      | cons first others =>
          rw [sent] at isHead
          cases isHead
          rw [← list, sent] at unsacked
          exact unsacked head rfl

/-- All the items are lost. -/
theorem loseItems_resetSack (list : List TcpTxItem) (lostOut : Nat) :
    loseItems true list lostOut =
      (list.map fun item => { item with sacked := false, lost := true, retrans := false },
        lostOut) := by
  induction list with
  | nil => rfl
  | cons item rest inductionHypothesis =>
      rw [loseItems, if_pos rfl]
      dsimp only
      rw [inductionHypothesis, List.map_cons]

/-- The items that are not sacked are lost. -/
structure Lost (outer : Nat) (list edited : List TcpTxItem) (lostOut : Nat) : Prop where
  sacked : flagged TcpTxItem.sacked edited = flagged TcpTxItem.sacked list
  lost : lostOut = outer + flagged TcpTxItem.lost edited
  retrans : flagged TcpTxItem.retrans edited = 0
  exclusive : Exclusive edited
  head : HeadUnsacked list → HeadUnsacked edited

theorem loseItems_lost {outer : Nat} {list : List TcpTxItem} (exclusive : Exclusive list)
    (fits : outer + (bytes list).length < 2 ^ 32) :
    Lost outer list (loseItems false list outer).1 (loseItems false list outer).2 := by
  induction list generalizing outer with
  | nil => exact ⟨rfl, rfl, rfl, exclusive, id⟩
  | cons item rest inductionHypothesis =>
      obtain ⟨one, others⟩ := exclusive_cons.mp exclusive
      rw [bytes_cons, List.length_append] at fits
      rw [loseItems, if_neg Bool.false_ne_true]
      -- The item in front keeps `sacked`, and `lost` is set unless it is sacked.
      have front : ∀ (other : TcpTxItem) (later : Nat), other.sacked = item.sacked →
          other.packet = item.packet → other.retrans = false →
          ¬ (other.sacked = true ∧ other.lost = true) →
          later = outer + counted other.lost other →
          Lost outer (item :: rest) (other :: (loseItems false rest later).1)
            (loseItems false rest later).2 := by
        intro other later sameSacked samePacket notRetrans apart added
        have few := counted_le other.lost other
        have more := @inductionHypothesis later others (by rw [samePacket] at few; omega)
        refine ⟨?_, ?_, ?_, exclusive_cons.mpr ⟨apart, more.exclusive⟩, fun head first isFirst => ?_⟩
        · rw [flagged_cons, flagged_cons, more.sacked, sameSacked, samePacket]
        · rw [flagged_cons, more.lost, added, counted, Nat.add_assoc]
        · rw [flagged_cons, more.retrans, notRetrans, if_neg Bool.false_ne_true]
        · cases isFirst
          rw [sameSacked]
          exact head item rfl
      split
      next isLost =>
        refine front _ _ rfl rfl rfl one ?_
        rw [wrap_of_lt (by omega), counted, if_pos isLost]
      next notLost =>
        split
        next notSacked =>
          rw [Bool.not_eq_true'] at notSacked
          refine front _ _ rfl rfl rfl (fun both => absurd both.1 (by simp [notSacked])) ?_
          rw [wrap_of_lt (by omega), counted, if_pos rfl]
        next =>
          refine front _ _ rfl rfl rfl one ?_
          rw [counted, if_neg notLost, Nat.add_zero]

theorem Tallied.setSentListLost (tallied : Tallied self)
    (small : (bytes self.sentList).length < 2 ^ 32) (unsacked : HeadUnsacked self.sentList)
    (sentSize : self.sentSize = (bytes self.sentList).length) (resetSack : Bool) :
    Tallied (self.setSentListLost resetSack) ∧
      HeadUnsacked (self.setSentListLost resetSack).sentList := by
  unfold TcpTxBuffer.setSentListLost
  cases resetSack with
  | false =>
      have lost := @loseItems_lost 0 self.sentList tallied.exclusive (by omega)
      refine ⟨⟨?_, ?_, lost.retrans.symm, lost.exclusive, tallied.unflagged⟩, lost.head unsacked⟩
      · exact tallied.sacked.trans lost.sacked.symm
      · exact lost.lost.trans (Nat.zero_add _)
  | true =>
      rw [loseItems_resetSack]
      have all : ∀ item ∈ self.sentList.map fun item : TcpTxItem =>
          { item with sacked := false, lost := true, retrans := false },
          item.sacked = false ∧ item.retrans = false := by
        intro item member
        obtain ⟨old, -, rfl⟩ := List.mem_map.mp member
        exact ⟨rfl, rfl⟩
      refine ⟨⟨?_, ?_, ?_, fun item member both => ?_, tallied.unflagged⟩, fun head isHead => ?_⟩
      · exact (flagged_eq_zero _ _ fun item member => (all item member).1).symm
      · dsimp only
        rw [if_pos rfl, sentSize]
        simp [flagged, bytes, Function.comp_def, List.length_flatten]
      · exact (flagged_eq_zero _ _ fun item member => (all item member).2).symm
      · exact absurd both.1 (by simp [(all item member).1])
      · exact (all head (List.mem_of_mem_head? isHead)).1

end TcpTxBuffer

end Ns3.Internet
