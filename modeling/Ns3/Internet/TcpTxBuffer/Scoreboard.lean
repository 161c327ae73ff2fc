import Ns3.Internet.TcpTxBuffer.Stream

/-!
The counters of the transmission buffer.

`Tallied` says that the counters are the sums of the sizes of the flagged items. Each
operation keeps it, or keeps it where it neither merges items with different flags
nor sacks an item that is lost.
-/

namespace Ns3.Internet

open Library Network SequenceSpace

namespace TcpTxBuffer

/-- The bytes in the items with the flag. -/
def flagged (flag : TcpTxItem → Bool) (list : List TcpTxItem) : Nat :=
  (list.map fun item => if flag item then item.packet.length else 0).sum

section

variable (flag : TcpTxItem → Bool) (item : TcpTxItem) (list others : List TcpTxItem)

@[simp]
theorem flagged_nil : flagged flag [] = 0 := rfl

@[simp]
theorem flagged_cons : flagged flag (item :: list) =
    (if flag item then item.packet.length else 0) + flagged flag list := by simp [flagged]

@[simp]
theorem flagged_append : flagged flag (list ++ others) =
    flagged flag list + flagged flag others := by simp [flagged]

@[simp]
theorem flagged_reverse : flagged flag list.reverse = flagged flag list := by simp [flagged]

theorem flagged_le : flagged flag list ≤ (bytes list).length := by
  induction list with
  | nil => exact Nat.le_refl 0
  | cons item list inductionHypothesis =>
      rw [flagged_cons, bytes_cons, List.length_append]
      split <;> omega

theorem flagged_eq_zero (none : ∀ item ∈ list, flag item = false) : flagged flag list = 0 := by
  induction list with
  | nil => rfl
  | cons item list inductionHypothesis =>
      rw [flagged_cons, none item List.mem_cons_self, if_neg Bool.false_ne_true,
        inductionHypothesis fun other member => none other (List.mem_cons_of_mem item member)]

end

/-- No item is both sacked and lost. -/
def Exclusive (list : List TcpTxItem) : Prop :=
  ∀ item ∈ list, ¬ (item.sacked = true ∧ item.lost = true)

/-- No item has a flag. -/
def Unflagged (list : List TcpTxItem) : Prop :=
  ∀ item ∈ list, item.sacked = false ∧ item.lost = false ∧ item.retrans = false

instance (list : List TcpTxItem) : Decidable (Unflagged list) :=
  inferInstanceAs (Decidable (∀ item ∈ list, _))

/-- The first item is not sacked. -/
def HeadUnsacked (list : List TcpTxItem) : Prop := ∀ head ∈ list.head?, head.sacked = false

theorem Exclusive.flagged_le {list : List TcpTxItem} (exclusive : Exclusive list) :
    flagged TcpTxItem.sacked list + flagged TcpTxItem.lost list ≤ (bytes list).length := by
  induction list with
  | nil => exact Nat.le_refl 0
  | cons item list inductionHypothesis =>
      have both := exclusive item List.mem_cons_self
      have later := inductionHypothesis fun other member =>
        exclusive other (List.mem_cons_of_mem item member)
      simp only [flagged_cons, bytes_cons, List.length_append]
      cases sacked : item.sacked with
      | false =>
          rw [if_neg Bool.false_ne_true]
          split <;> omega
      | true =>
          have notLost : item.lost = false := by
            cases lost : item.lost with
            | false => rfl
            | true => exact absurd ⟨sacked, lost⟩ both
          rw [if_pos rfl, notLost, if_neg Bool.false_ne_true]
          omega

/-- The counters are the sums over the sent list, and the items that were not sent have no
flags. -/
structure Tallied (buffer : TcpTxBuffer) : Prop where
  sacked : buffer.sackedOut = flagged TcpTxItem.sacked buffer.sentList
  lost : buffer.lostOut = flagged TcpTxItem.lost buffer.sentList
  retrans : buffer.retrans = flagged TcpTxItem.retrans buffer.sentList
  exclusive : Exclusive buffer.sentList
  unflagged : Unflagged buffer.appList

/-- The sent items that hold a byte from `start` up to `stop`, counted from the head of the
list. -/
def covered (start stop : Nat) : List TcpTxItem → Nat → List TcpTxItem
  | [], _ => []
  | item :: rest, begin =>
      if begin < stop ∧ start < begin + item.packet.length then
        item :: covered start stop rest (begin + item.packet.length)
      else covered start stop rest (begin + item.packet.length)

/-- The items that hold a byte from `start` up to `stop` have these flags. -/
def SameFlags (start stop : Nat) (sacked lost : Bool) : List TcpTxItem → Nat → Prop
  | [], _ => True
  | item :: rest, begin =>
      (begin < stop → start < begin + item.packet.length →
        item.sacked = sacked ∧ item.lost = lost) ∧
      SameFlags start stop sacked lost rest (begin + item.packet.length)

theorem sameFlags_of_covered {start stop begin : Nat} {sacked lost : Bool} {list : List TcpTxItem}
    (flags : ∀ item ∈ covered start stop list begin, item.sacked = sacked ∧ item.lost = lost) :
    SameFlags start stop sacked lost list begin := by
  induction list generalizing begin with
  | nil => trivial
  | cons item rest inductionHypothesis =>
      rw [covered] at flags
      split at flags
      · exact ⟨fun _ _ => flags item List.mem_cons_self,
          inductionHypothesis fun other member => flags other (List.mem_cons_of_mem item member)⟩
      next notCovered =>
        exact ⟨fun low high => absurd ⟨low, high⟩ notCovered, inductionHypothesis flags⟩

/-- Items whose flags agree have the flags of one of them. -/
theorem exists_sameFlags {start stop : Nat} {list : List TcpTxItem}
    (agree : ∀ a ∈ covered start stop list 0, ∀ b ∈ covered start stop list 0,
      a.sacked = b.sacked ∧ a.lost = b.lost) :
    ∃ sacked lost, SameFlags start stop sacked lost list 0 := by
  cases some : covered start stop list 0 with
  | nil =>
      exact ⟨false, false, sameFlags_of_covered (some ▸ fun _ member => nomatch member)⟩
  | cons first rest =>
      exact ⟨first.sacked, first.lost, sameFlags_of_covered fun item member =>
        agree item member first (some ▸ List.mem_cons_self)⟩

section

variable {start stop begin node : Nat} {sacked lost : Bool} {list others : List TcpTxItem}

theorem sameFlags_append :
    SameFlags start stop sacked lost (list ++ others) begin ↔
      SameFlags start stop sacked lost list begin ∧
        SameFlags start stop sacked lost others (begin + (bytes list).length) := by
  induction list generalizing begin with
  | nil => simp [SameFlags]
  | cons item rest inductionHypothesis =>
      simp only [List.cons_append, SameFlags, inductionHypothesis, bytes_cons,
        List.length_append, Nat.add_assoc, and_assoc]

/-- The item that holds `start` is split there. -/
theorem SameFlags.split {before after : List TcpTxItem} {item : TcpTxItem} {count : Nat}
    (flags : SameFlags start stop sacked lost (before ++ item :: after) 0)
    (here : (bytes before).length + count = start) (shorter : count < item.packet.length) :
    SameFlags start stop sacked lost
      (before ++ (item.split count node).1 :: (item.split count node).2 :: after) 0 := by
  simp only [sameFlags_append, SameFlags, TcpTxItem.split, List.length_take,
    List.length_drop] at flags ⊢
  refine ⟨flags.1, fun low high => ?_, fun low high => ?_, ?_⟩
  · omega
  · exact flags.2.1 (by omega) (by omega)
  · convert flags.2.2 using 1
    omega

/-- The item that starts at `start` is merged with the next one. -/
theorem SameFlags.merge {before after : List TcpTxItem} {item next : TcpTxItem}
    (flags : SameFlags start stop sacked lost (before ++ item :: next :: after) 0)
    (here : (bytes before).length = start) (some : 0 < item.packet.length) :
    SameFlags start stop sacked lost (before ++ item.merge next :: after) 0 := by
  simp only [sameFlags_append, SameFlags, TcpTxItem.merge, List.length_append] at flags ⊢
  refine ⟨flags.1, fun low high => flags.2.1 (by omega) (by omega), ?_⟩
  convert flags.2.2.2 using 1
  omega

end

/-- The counters of the list did not change, but for the items that no longer count as
retransmitted. -/
structure SameCounts (list : List TcpTxItem) (retrans : Nat) (edited : List TcpTxItem)
    (newRetrans : Nat) : Prop where
  sacked : flagged TcpTxItem.sacked edited = flagged TcpTxItem.sacked list
  lost : flagged TcpTxItem.lost edited = flagged TcpTxItem.lost list
  retrans : retrans = flagged TcpTxItem.retrans list →
    newRetrans = flagged TcpTxItem.retrans edited
  exclusive : Exclusive list → Exclusive edited
  head : HeadUnsacked list → HeadUnsacked edited
  unflagged : Unflagged list → Unflagged edited

theorem SameCounts.refl (list : List TcpTxItem) (retrans : Nat) :
    SameCounts list retrans list retrans := ⟨rfl, rfl, id, id, id, id⟩

theorem SameCounts.trans {list middle edited : List TcpTxItem} {r s t : Nat}
    (first : SameCounts list r middle s) (second : SameCounts middle s edited t) :
    SameCounts list r edited t :=
  ⟨second.sacked.trans first.sacked, second.lost.trans first.lost, second.retrans ∘ first.retrans,
    second.exclusive ∘ first.exclusive, second.head ∘ first.head,
    second.unflagged ∘ first.unflagged⟩

/-- A property that items pass on to what replaces them. -/
theorem forall_mem_replace {Property : TcpTxItem → Prop} {before old new after : List TcpTxItem}
    (all : ∀ item ∈ before ++ (old ++ after), Property item)
    (replaced : (∀ item ∈ old, Property item) → ∀ item ∈ new, Property item) :
    ∀ item ∈ before ++ (new ++ after), Property item := by
  intro item member
  rcases List.mem_append.mp member with earlier | later
  · exact all item (List.mem_append_left _ earlier)
  · rcases List.mem_append.mp later with inNew | behind
    · exact replaced (fun other inOld => all other (by simp [inOld])) item inNew
    · exact all item (by simp [behind])

theorem headUnsacked_replace {before after others : List TcpTxItem} {item new : TcpTxItem}
    (same : new.sacked = item.sacked) (head : HeadUnsacked (before ++ item :: after)) :
    HeadUnsacked (before ++ new :: others) := by
  cases before with
  | nil =>
      intro first isFirst
      cases isFirst
      rw [same]
      exact head item rfl
  | cons first before => exact head

theorem sameCounts_split (before : List TcpTxItem) (item : TcpTxItem) (after : List TcpTxItem)
    {count node : Nat} (retrans : Nat) (shorter : count < item.packet.length) :
    SameCounts (before ++ item :: after) retrans
      (before ++ (item.split count node).1 :: (item.split count node).2 :: after) retrans where
  sacked := by
    simp only [flagged_append, flagged_cons, TcpTxItem.split, List.length_take, List.length_drop]
    split <;> omega
  lost := by
    simp only [flagged_append, flagged_cons, TcpTxItem.split, List.length_take, List.length_drop]
    split <;> omega
  retrans := by
    simp only [flagged_append, flagged_cons, TcpTxItem.split, List.length_take, List.length_drop]
    split <;> omega
  exclusive all := @forall_mem_replace _ before [item]
    [(item.split count node).1, (item.split count node).2] after all fun old other member => by
      have itemHas := old item List.mem_cons_self
      rcases List.mem_pair.mp member with rfl | rfl <;> exact itemHas
  head := headUnsacked_replace rfl
  unflagged all := @forall_mem_replace _ before [item]
    [(item.split count node).1, (item.split count node).2] after all fun old other member => by
      have itemHas := old item List.mem_cons_self
      rcases List.mem_pair.mp member with rfl | rfl <;> exact itemHas

theorem sameCounts_merge (before : List TcpTxItem) {item next : TcpTxItem}
    (after : List TcpTxItem) (retrans : Nat)
    (small : (bytes (before ++ item :: next :: after)).length < 2 ^ 32)
    (sameSacked : item.sacked = next.sacked) (sameLost : item.lost = next.lost) :
    SameCounts (before ++ item :: next :: after) retrans (before ++ item.merge next :: after)
      (wrapSub 32 retrans (item.uncounted next)) where
  sacked := by
    simp only [flagged_append, flagged_cons, TcpTxItem.merge, List.length_append, sameSacked]
    split <;> omega
  lost := by
    simp only [flagged_append, flagged_cons, TcpTxItem.merge, List.length_append, sameLost]
    split <;> omega
  retrans counted := by
    have few := flagged_le TcpTxItem.retrans (before ++ item :: next :: after)
    rw [← counted] at few
    simp only [flagged_append, flagged_cons] at counted
    have fewer : item.uncounted next ≤ retrans := by
      unfold TcpTxItem.uncounted
      rcases first : item.retrans <;> rcases second : next.retrans <;>
        simp [first, second] at counted ⊢ <;> omega
    rw [wrapSub_of_le fewer (by omega)]
    simp only [flagged_append, flagged_cons, TcpTxItem.merge, TcpTxItem.uncounted,
      List.length_append]
    rcases first : item.retrans <;> rcases second : next.retrans <;>
      simp [first, second] at counted ⊢ <;> omega
  exclusive all := @forall_mem_replace _ before [item, next] [item.merge next] after all
    fun old other member => by
      obtain rfl := List.mem_singleton.mp member
      exact old item List.mem_cons_self
  head := headUnsacked_replace rfl
  unflagged all := @forall_mem_replace _ before [item, next] [item.merge next] after all
    fun old other member => by
      obtain rfl := List.mem_singleton.mp member
      obtain ⟨sacked, lost, unretransmitted⟩ := old item List.mem_cons_self
      refine ⟨sacked, lost, ?_⟩
      unfold TcpTxItem.merge
      dsimp only
      split
      · rfl
      · exact unretransmitted

section

variable {begin seq : SequenceNumber32} {node numBytes uncounted index retrans : Nat}
  {list edited : List TcpTxItem} {sacked lost : Bool}

/-- One more walk keeps the counters where the items that it merges have the same
flags. -/
theorem Walk.Explained.again_sameCounts
    (explained : (Walk.again edited uncounted).Explained node numBytes seq begin list)
    (filled : Filled list) (fits : (bytes list).length < 2 ^ 32)
    (flags : SameFlags (sub seq begin) (sub seq begin + numBytes) sacked lost list 0) :
    SameCounts list retrans edited (wrapSub 32 retrans uncounted) ∧
      SameFlags (sub seq begin) (sub seq begin + numBytes) sacked lost edited 0 := by
  rcases explained with ⟨before, item, after, count, rfl, -, shorter, start, rfl, rfl⟩ |
    ⟨before, item, next, after, rfl, shorter, start, rfl, rfl⟩
  · simp only [bytes_append, bytes_cons, List.length_append] at fits
    have here : (bytes before).length + count = sub seq begin := by
      rw [start, SequenceNumber32.sub_add _ (by omega)]
    refine ⟨?_, flags.split here shorter⟩
    have counts := @sameCounts_split before item after count node retrans shorter
    refine ⟨counts.sacked, counts.lost, fun counted => ?_, counts.exclusive, counts.head,
      counts.unflagged⟩
    have few := flagged_le TcpTxItem.retrans (before ++ item :: after)
    rw [← counted, bytes_append, bytes_cons] at few
    simp only [List.length_append] at few
    rw [wrapSub_of_le (Nat.zero_le _) (by omega)]
    exact counts.retrans counted
  · have total := fits
    simp only [bytes_append, bytes_cons, List.length_append] at fits
    have here : (bytes before).length = sub seq begin := by
      rw [start, SequenceNumber32.sub_add _ (by omega)]
    have itemSome := List.length_pos_iff.mpr (filled item (by simp))
    have nextSome := List.length_pos_iff.mpr (filled next (by simp))
    obtain ⟨-, itemFlags, nextFlags, -⟩ := sameFlags_append.mp flags
    obtain ⟨itemSacked, itemLost⟩ := itemFlags (by omega) (by omega)
    obtain ⟨nextSacked, nextLost⟩ := nextFlags (by omega) (by omega)
    exact ⟨sameCounts_merge before after retrans total (itemSacked.trans nextSacked.symm)
      (itemLost.trans nextLost.symm), flags.merge here itemSome⟩

theorem Walk.Explained.found_sameCounts
    (explained : (Walk.found edited index).Explained node numBytes seq begin list) :
    SameCounts list retrans edited retrans := by
  obtain ⟨before, item, after, rfl, -, -, rfl | ⟨shorter, rfl⟩⟩ := explained
  · exact SameCounts.refl _ retrans
  · exact sameCounts_split before item after retrans shorter

/-- `GetPacketFromList` keeps the counters where the items from `seq` on that it merges have
the same flags. -/
theorem getPacketFromList_sameCounts (some : 0 < numBytes) (small : numBytes < 2 ^ 32)
    {attempts : Nat} {edit result : Edit} (filled : Filled edit.list)
    (fits : (bytes edit.list).length < 2 ^ 32)
    (flags : SameFlags (sub seq begin) (sub seq begin + numBytes) sacked lost edit.list 0)
    (gives : getPacketFromList begin numBytes seq attempts edit = .some (result, index)) :
    SameCounts edit.list edit.retrans result.list result.retrans := by
  refine getPacketFromList_rule
    (fun later => Intact begin edit.list later.list ∧
      SameCounts edit.list edit.retrans later.list later.retrans ∧
      SameFlags (sub seq begin) (sub seq begin + numBytes) sacked lost later.list 0)
    (fun later _ => SameCounts edit.list edit.retrans later.list later.retrans)
    (fun later list uncounted invariant walked => ?_)
    (fun later list index invariant walked => ?_)
    ⟨Intact.refl begin edit.list, SameCounts.refl _ _, flags⟩ gives
  · obtain ⟨intact, counts, laterFlags⟩ := invariant
    have laterFits : (bytes later.list).length < 2 ^ 32 := intact.bytes ▸ fits
    have explained := @walk_explained later.nodes numBytes some small seq begin later.list
      laterFits
    rw [walked] at explained
    obtain ⟨more, moreFlags⟩ := @Walk.Explained.again_sameCounts begin seq later.nodes numBytes
      uncounted later.retrans later.list list sacked lost explained (intact.filled filled)
      laterFits laterFlags
    exact ⟨intact.trans explained.again_intact, counts.trans more, moreFlags⟩
  · obtain ⟨intact, counts, -⟩ := invariant
    have explained := @walk_explained later.nodes numBytes some small seq begin later.list
      (intact.bytes ▸ fits)
    rw [walked] at explained
    exact counts.trans explained.found_sameCounts

end

variable {self : TcpTxBuffer} {content : List UInt8}

/-- The flags of the items agree that a retransmission from `seq` on would merge. -/
def Agrees (self : TcpTxBuffer) (numBytes : Nat) (seq : SequenceNumber32) : Prop :=
  ∀ a ∈ covered (sub seq self.firstByteSeq)
      (sub seq self.firstByteSeq + limitToFlags seq numBytes self.sentList) self.sentList 0,
    ∀ b ∈ covered (sub seq self.firstByteSeq)
        (sub seq self.firstByteSeq + limitToFlags seq numBytes self.sentList) self.sentList 0,
      a.sacked = b.sacked ∧ a.lost = b.lost

instance (self : TcpTxBuffer) (numBytes : Nat) (seq : SequenceNumber32) :
    Decidable (self.Agrees numBytes seq) := inferInstanceAs (Decidable (∀ a ∈ _, _))

theorem SameFlags.mono {start stop fewer begin : Nat} {sacked lost : Bool} {list : List TcpTxItem}
    (flags : SameFlags start stop sacked lost list begin) (less : fewer ≤ stop) :
    SameFlags start fewer sacked lost list begin := by
  induction list generalizing begin with
  | nil => trivial
  | cons item rest inductionHypothesis =>
      exact ⟨fun low high => flags.1 (Nat.lt_of_lt_of_le low less) high,
        inductionHypothesis flags.2⟩

theorem limitToFlags_mono (seq : SequenceNumber32) {s t : Nat} (less : s ≤ t)
    (list : List TcpTxItem) : limitToFlags seq s list ≤ limitToFlags seq t list := by
  induction list with
  | nil => exact less
  | cons item rest inductionHypothesis =>
      rw [limitToFlags, limitToFlags]
      split
      · unfold limitAt
        split
        · omega
        · split <;> omega
      · exact inductionHypothesis

theorem flagged_set {flag : TcpTxItem → Bool} {list : List TcpTxItem} {index : Nat}
    {item : TcpTxItem} (found : list[index]? = some item) (new : TcpTxItem) :
    flagged flag (list.set index new) + (if flag item then item.packet.length else 0) =
      flagged flag list + (if flag new then new.packet.length else 0) := by
  induction list generalizing index with
  | nil => exact nomatch found
  | cons first rest inductionHypothesis =>
      cases index with
      | zero =>
          cases found
          simp only [List.set_cons_zero, flagged_cons]
          omega
      | succ index =>
          have later := inductionHypothesis found
          simp only [List.set_cons_succ, flagged_cons]
          omega

theorem Tallied.countRetrans (tallied : Tallied self)
    (small : (bytes self.sentList).length < 2 ^ 32) {index : Nat} {after : TcpTxBuffer}
    (counted : self.countRetrans index = some after) :
    Tallied after ∧ (HeadUnsacked self.sentList → HeadUnsacked after.sentList) := by
  unfold TcpTxBuffer.countRetrans at counted
  obtain ⟨item, found, rest⟩ := Option.bind_eq_some_iff.mp counted
  split at rest
  · cases rest
    exact ⟨tallied, id⟩
  next notYet =>
    cases rest
    have sackedSum := @flagged_set TcpTxItem.sacked _ _ _ found { item with retrans := true }
    have lostSum := @flagged_set TcpTxItem.lost _ _ _ found { item with retrans := true }
    have retransSum := @flagged_set TcpTxItem.retrans _ _ _ found { item with retrans := true }
    have same : bytes (self.sentList.set index { item with retrans := true }) =
        bytes self.sentList := bytes_eq_of_shape (shape_set found rfl)
    have few := flagged_le TcpTxItem.retrans
      (self.sentList.set index { item with retrans := true })
    rw [same] at few
    rw [if_neg notYet, if_pos rfl] at retransSum
    have retrans := tallied.retrans
    refine ⟨⟨?_, ?_, ?_, ?_, tallied.unflagged⟩, fun head => ?_⟩
    · exact tallied.sacked.trans (by dsimp only at sackedSum ⊢; omega)
    · exact tallied.lost.trans (by dsimp only at lostSum ⊢; omega)
    · dsimp only at retransSum ⊢
      rw [wrap_of_lt (by omega)]
      omega
    · intro other member
      rcases List.mem_or_eq_of_mem_set member with old | rfl
      · exact tallied.exclusive other old
      · exact tallied.exclusive item (List.mem_of_getElem? found)
    · intro first isFirst
      cases list : self.sentList with
      | nil => rw [list] at isFirst; exact nomatch isFirst
      | cons second others =>
          rw [list] at isFirst found head
          cases index with
          | zero =>
              cases isFirst
              cases found
              exact head item rfl
          | succ index =>
              cases isFirst
              exact head first rfl

theorem sameFlags_of_unflagged {start stop begin : Nat} {list : List TcpTxItem}
    (unflagged : Unflagged list) : SameFlags start stop false false list begin := by
  induction list generalizing begin with
  | nil => trivial
  | cons item rest inductionHypothesis =>
      obtain ⟨sacked, lost, -⟩ := unflagged item List.mem_cons_self
      exact ⟨fun _ _ => ⟨sacked, lost⟩,
        inductionHypothesis fun other member => unflagged other (List.mem_cons_of_mem item member)⟩

/-- `GetPacketFromList` on items without flags. -/
theorem getPacketFromList_unflagged {begin seq : SequenceNumber32} {numBytes index : Nat}
    (some : 0 < numBytes) (small : numBytes < 2 ^ 32) {attempts : Nat} {edit result : Edit}
    (unflagged : Unflagged edit.list) (filled : Filled edit.list)
    (fits : (bytes edit.list).length < 2 ^ 32) (retransFits : edit.retrans < 2 ^ 32)
    (gives : getPacketFromList begin numBytes seq attempts edit = .some (result, index)) :
    Unflagged result.list ∧ result.retrans = edit.retrans := by
  have counts := getPacketFromList_sameCounts some small filled fits
    (sameFlags_of_unflagged unflagged) gives
  refine ⟨counts.unflagged unflagged, ?_⟩
  refine getPacketFromList_rule
    (fun later => Intact begin edit.list later.list ∧ Unflagged later.list ∧
      later.retrans = edit.retrans)
    (fun later _ => later.retrans = edit.retrans)
    (fun later list uncounted invariant walked => ?_)
    (fun later list index invariant walked => invariant.2.2)
    ⟨Intact.refl begin edit.list, unflagged, rfl⟩ gives
  obtain ⟨intact, laterUnflagged, same⟩ := invariant
  have laterFits : (bytes later.list).length < 2 ^ 32 := intact.bytes ▸ fits
  have explained := @walk_explained later.nodes numBytes some small seq begin later.list laterFits
  rw [walked] at explained
  have none : uncounted = 0 := by
    rcases explained with ⟨_, _, _, _, _, _, _, _, _, none⟩ |
      ⟨before, item, next, after, list, -, -, -, rfl⟩
    · exact none
    · have itemNot := (laterUnflagged item (by rw [list]; simp)).2.2
      have nextNot := (laterUnflagged next (by rw [list]; simp)).2.2
      simp [TcpTxItem.uncounted, itemNot, nextNot]
  obtain ⟨more, -⟩ := @Walk.Explained.again_sameCounts begin seq later.nodes numBytes
    uncounted later.retrans later.list list false false explained (intact.filled filled) laterFits
    (sameFlags_of_unflagged laterUnflagged)
  refine ⟨intact.trans explained.again_intact, more.unflagged laterUnflagged, ?_⟩
  dsimp only
  rw [same, none, wrapSub_of_le (Nat.zero_le _) retransFits]
  rfl

section

variable {seq : SequenceNumber32} {numBytes : Nat} {after : TcpTxBuffer}

theorem Tallied.getTransmittedSegment (coherent : Coherent content self) (tallied : Tallied self)
    (some : 0 < numBytes) (small : numBytes < 2 ^ 32) {sacked lost : Bool}
    (flags : SameFlags (sub seq self.firstByteSeq)
      (sub seq self.firstByteSeq + limitToFlags seq numBytes self.sentList) sacked lost
      self.sentList 0)
    (given : self.getTransmittedSegment numBytes seq = .some after) :
    Tallied after ∧ (HeadUnsacked self.sentList → HeadUnsacked after.sentList) := by
  have total := coherent.sent_le
  obtain ⟨sizeFits, maxFits⟩ := coherent.fits
  have limitSome := limitToFlags_pos seq some coherent.sentFilled (by omega)
  have limitLe := limitToFlags_le seq numBytes self.sentList
  obtain ⟨⟨edit, index⟩, edited, counted⟩ := Option.bind_eq_some_iff.mp given
  have counts := getPacketFromList_sameCounts limitSome (by omega) coherent.sentFilled
    (by dsimp only; omega) flags edited
  have sameBytes :=
    (getPacketFromList_intact limitSome (by omega) (by dsimp only; omega) edited).1.bytes
  dsimp only at counts sameBytes
  have editTallied : Tallied { self with
      sentList := edit.list, retrans := edit.retrans, nodes := edit.nodes } :=
    ⟨tallied.sacked.trans counts.sacked.symm, tallied.lost.trans counts.lost.symm,
      counts.retrans tallied.retrans, counts.exclusive tallied.exclusive, tallied.unflagged⟩
  obtain ⟨done, head⟩ := editTallied.countRetrans (by dsimp only; rw [sameBytes]; omega) counted
  exact ⟨done, fun unsacked => head (counts.head unsacked)⟩

theorem headUnsacked_append {list others : List TcpTxItem} (unsacked : HeadUnsacked list)
    (othersUnsacked : HeadUnsacked others) : HeadUnsacked (list ++ others) := by
  cases list with
  | nil => exact othersUnsacked
  | cons first rest => exact unsacked

theorem Tallied.getNewSegment (coherent : Coherent content self) (tallied : Tallied self)
    (some : 0 < numBytes) (small : numBytes < 2 ^ 32)
    (given : self.getNewSegment numBytes = .some after) :
    Tallied after ∧ (HeadUnsacked self.sentList → HeadUnsacked after.sentList) ∧
      (Unflagged self.sentList → Unflagged after.sentList) := by
  have total := coherent.sent_le
  obtain ⟨sizeFits, maxFits⟩ := coherent.fits
  have few := flagged_le TcpTxItem.retrans self.sentList
  have retrans := tallied.retrans
  obtain ⟨⟨edit, index⟩, edited, rest⟩ := Option.bind_eq_some_iff.mp given
  obtain ⟨item, atIndex, moved⟩ := Option.bind_eq_some_iff.mp rest
  obtain ⟨unflagged, same⟩ := getPacketFromList_unflagged some small tallied.unflagged
    coherent.appFilled (by dsimp only; omega) (by dsimp only; omega) edited
  obtain ⟨itemSacked, itemLost, itemRetrans⟩ := unflagged item (List.mem_of_getElem? atIndex)
  cases moved
  refine ⟨⟨?_, ?_, ?_, ?_, ?_⟩, fun unsacked => ?_, fun none => ?_⟩
  · simp [itemSacked, tallied.sacked]
  · simp [itemLost, tallied.lost]
  · dsimp only
    rw [same, flagged_append, flagged_cons, itemRetrans]
    exact retrans
  · intro other member
    rcases List.mem_append.mp member with old | new
    · exact tallied.exclusive other old
    · obtain rfl := List.mem_singleton.mp new
      exact fun both => absurd both.1 (by simp [itemSacked])
  · exact fun other member => unflagged other (List.mem_of_mem_eraseIdx member)
  · refine headUnsacked_append unsacked fun first isFirst => ?_
    cases isFirst
    exact itemSacked
  · intro other member
    rcases List.mem_append.mp member with old | new
    · exact none other old
    · obtain rfl := List.mem_singleton.mp new
      exact ⟨itemSacked, itemLost, itemRetrans⟩

/-- A copy of at most so many bytes keeps the counters. -/
theorem Tallied.copyAttempt (coherent : Coherent content self) (tallied : Tallied self)
    {calls most : Nat} {copied : Copied} (less : numBytes ≤ most) {sacked lost : Bool}
    (flags : SameFlags (sub seq self.firstByteSeq)
      (sub seq self.firstByteSeq + limitToFlags seq most self.sentList) sacked lost
      self.sentList 0)
    (given : self.copyAttempt calls numBytes seq = some (after, copied)) :
    Tallied after ∧ (HeadUnsacked self.sentList → HeadUnsacked after.sentList) ∧
      (self.sentList = [] → Unflagged after.sentList) := by
  induction calls generalizing numBytes with
  | zero => cases given
  | succ calls inductionHypothesis =>
      rw [TcpTxBuffer.copyAttempt] at given
      have small : min numBytes (self.sizeFromSequence seq) < 2 ^ 32 :=
        Nat.lt_of_le_of_lt (Nat.min_le_right _ _) (self.sizeFromSequence_lt seq)
      have shorter : min numBytes (self.sizeFromSequence seq) ≤ most :=
        Nat.le_trans (Nat.min_le_left _ _) less
      split at given
      · cases given
      · dsimp only at given
        split at given
        · cases given
          refine ⟨tallied, id, fun none => ?_⟩
          rw [none]
          exact List.forall_mem_nil _
        next some =>
          have positive : 0 < min numBytes (self.sizeFromSequence seq) := Nat.pos_of_ne_zero some
          split at given
          · obtain ⟨_, transmitted, same⟩ := Option.map_eq_some_iff.mp given
            cases same
            have fewer := limitToFlags_mono seq shorter self.sentList
            obtain ⟨done, head⟩ := tallied.getTransmittedSegment coherent positive small
              (flags.mono (Nat.add_le_add_left fewer _)) transmitted
            refine ⟨done, head, fun none => ?_⟩
            obtain ⟨⟨edit, index⟩, edited, -⟩ := Option.bind_eq_some_iff.mp transmitted
            rw [none] at edited
            cases edited
          · split at given
            · split at given
              · obtain ⟨_, fresh, same⟩ := Option.map_eq_some_iff.mp given
                cases same
                obtain ⟨done, head, unflagged⟩ := tallied.getNewSegment coherent positive small fresh
                refine ⟨done, head, fun none => unflagged ?_⟩
                rw [none]
                exact List.forall_mem_nil _
              · cases given
            · split at given
              next between =>
                have below := wrap_lt 32 (self.firstByteSeq.value + self.sentSize)
                have atMost := wrap_le 32
                  (seq.value + min numBytes (self.sizeFromSequence seq))
                refine inductionHypothesis ?_ given
                rw [wrapSub_of_le (Nat.le_of_lt between.1) below]
                omega
              next => cases given

/-- `CopyFromSequence` keeps the counters where the flags of the items agree that it
merges. -/
theorem Tallied.copyFromSequence (coherent : Coherent content self) (tallied : Tallied self)
    {copied : Copied} (agrees : self.Agrees numBytes seq)
    (given : self.copyFromSequence numBytes seq = some (after, copied)) :
    Tallied after ∧ (HeadUnsacked self.sentList → HeadUnsacked after.sentList) ∧
      (self.sentList = [] → Unflagged after.sentList) := by
  obtain ⟨sacked, lost, flags⟩ := exists_sameFlags agrees
  exact tallied.copyAttempt coherent (Nat.le_refl numBytes) flags given

end

end TcpTxBuffer

end Ns3.Internet
