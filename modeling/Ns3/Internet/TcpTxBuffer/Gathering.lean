import Ns3.Internet.TcpTxBuffer.Accounting

/-!
`GetPacketFromList` from its first walk to its last.

The item that holds `seq` is split there if `seq` is not its start. Then it is merged with the
items behind it until there are enough bytes, and the rest is split off. `gather` is what
the merges come to; the walks follow it one merge at a time.
-/

namespace Ns3.Internet

open Library Network SequenceSpace

namespace TcpTxBuffer

/-- As `SequenceNumber32` compares them, the position is in a list of so many bytes. -/
structure Inside (begin : SequenceNumber32) (position total : Nat) : Prop where
  ahead : le begin (SequenceSpace.add begin position) = true
  behind : lt (SequenceSpace.add begin position) (SequenceSpace.add begin total) = true
  within : position < total
  fits : total < 2 ^ 32

section

variable {begin seq : SequenceNumber32} {position total n : Nat}

theorem le_iff {a b : SequenceNumber32} :
    le a b = true ↔ ¬ SequenceSpace.gt a b = true := by
  rw [le, Bool.not_eq_true', Bool.not_eq_true]

theorem Inside.advance (inside : Inside begin (n + position) (n + total)) (some : 0 < n) :
    Inside (SequenceSpace.add begin n) position total := by
  obtain ⟨ahead, behind, within, fits⟩ := inside
  have beginFits := begin.fits
  refine ⟨?_, ?_, by omega, by omega⟩
  · rw [le_iff, SequenceNumber32.gt_iff, SequenceNumber32.value_add] at ahead
    rw [SequenceNumber32.add_add, le_iff, SequenceNumber32.gt_iff, SequenceNumber32.value_add,
      SequenceNumber32.value_add]
    omega
  · rw [SequenceNumber32.add_add, SequenceNumber32.add_add]
    exact behind

/-- The end of an item that is not behind the position. -/
theorem Inside.not_lt (inside : Inside begin position total) (some : 0 < n) (low : n ≤ position) :
    ¬ lt (SequenceSpace.add begin position) (SequenceSpace.add begin n) = true := by
  obtain ⟨ahead, behind, within, fits⟩ := inside
  have beginFits := begin.fits
  rw [le_iff, SequenceNumber32.gt_iff, SequenceNumber32.value_add] at ahead
  rw [SequenceNumber32.lt_iff, SequenceNumber32.gt_iff, SequenceNumber32.value_add,
    SequenceNumber32.value_add]
  omega

/-- The end of an item behind the position. -/
theorem Inside.lt (inside : Inside begin position total) (low : position < n) (high : n ≤ total) :
    lt (SequenceSpace.add begin position) (SequenceSpace.add begin n) = true := by
  obtain ⟨ahead, behind, within, fits⟩ := inside
  have beginFits := begin.fits
  rw [SequenceNumber32.lt_iff, SequenceNumber32.gt_iff, SequenceNumber32.value_add,
    SequenceNumber32.value_add] at behind ⊢
  rw [le_iff, SequenceNumber32.gt_iff, SequenceNumber32.value_add] at ahead
  omega

/-- The start of the list is before the position. -/
theorem Inside.gt (inside : Inside begin position total) (some : 0 < position) :
    gt (SequenceSpace.add begin position) begin = true := by
  obtain ⟨ahead, behind, within, fits⟩ := inside
  have beginFits := begin.fits
  rw [le_iff, SequenceNumber32.gt_iff, SequenceNumber32.value_add] at ahead
  rw [SequenceNumber32.gt_iff, SequenceNumber32.value_add]
  omega

/-- A sequence number that `SequenceNumber32` compares as one in the list is in it. -/
theorem inside_of (ahead : le begin seq = true)
    (behind : SequenceSpace.lt seq (SequenceSpace.add begin total) = true)
    (fits : total < 2 ^ 32) : Inside begin (sub seq begin) total := by
  have same := SequenceNumber32.add_sub seq begin
  refine ⟨by rw [same]; exact ahead, by rw [same]; exact behind, ?_, fits⟩
  have beginFits := begin.fits
  have seqFits := seq.fits
  rw [SequenceNumber32.lt_iff, SequenceNumber32.gt_iff, SequenceNumber32.value_add] at behind
  rw [le_iff, SequenceNumber32.gt_iff] at ahead
  rw [SequenceNumber32.sub_eq]
  omega

end

/-- The walk with more items in front. -/
def Walk.prepend (before : List TcpTxItem) (result : Walk) : Walk := before.foldr Walk.cons result

theorem Walk.prepend_found (before list : List TcpTxItem) (index : Nat) :
    (Walk.found list index).prepend before = .found (before ++ list) (before.length + index) := by
  induction before with
  | nil => simp [Walk.prepend]
  | cons item before inductionHypothesis =>
      rw [Walk.prepend, List.foldr_cons, ← Walk.prepend, inductionHypothesis, Walk.cons,
        List.cons_append, List.length_cons, Nat.add_right_comm]

theorem Walk.prepend_again (before list : List TcpTxItem) (uncounted : Nat) :
    (Walk.again list uncounted).prepend before = .again (before ++ list) uncounted := by
  induction before with
  | nil => rfl
  | cons item before inductionHypothesis =>
      rw [Walk.prepend, List.foldr_cons, ← Walk.prepend, inductionHypothesis, Walk.cons,
        List.cons_append]

theorem Walk.prepend_fatal (before : List TcpTxItem) : Walk.fatal.prepend before = .fatal := by
  induction before with
  | nil => rfl
  | cons item before inductionHypothesis =>
      rw [Walk.prepend, List.foldr_cons, ← Walk.prepend, inductionHypothesis, Walk.cons]

section

variable {begin : SequenceNumber32} {before after : List TcpTxItem} {item : TcpTxItem}
  {node numBytes count : Nat}

/-- The walk goes past the items before the position. -/
theorem walk_skip (filled : Filled before)
    (inside : Inside begin ((bytes before).length + count)
      ((bytes before).length + (bytes (item :: after)).length)) :
    walk node numBytes (SequenceSpace.add begin ((bytes before).length + count))
        (before ++ item :: after) begin =
      (walk node numBytes (SequenceSpace.add begin ((bytes before).length + count))
        (item :: after) (SequenceSpace.add begin (bytes before).length)).prepend before := by
  induction before generalizing begin with
  | nil =>
      rw [bytes_nil, List.length_nil, SequenceNumber32.add_zero]
      rfl
  | cons first before inductionHypothesis =>
      have some := List.length_pos_iff.mpr (filled first List.mem_cons_self)
      rw [bytes_cons, List.length_append] at inside ⊢
      rw [Nat.add_assoc, Nat.add_assoc] at inside
      have passed := inside.not_lt some (by omega)
      have later := inductionHypothesis
        (fun other member => filled other (List.mem_cons_of_mem first member))
        (inside.advance some)
      rw [SequenceNumber32.add_add, SequenceNumber32.add_add] at later
      rw [List.cons_append, walk]
      dsimp only
      rw [Nat.add_assoc, if_neg passed, later]
      rfl

/-- The walk at the item that starts at the position. -/
theorem walk_start (filled : Filled before) (some : 0 < item.packet.length)
    (inside : Inside begin (bytes before).length
      ((bytes before).length + (bytes (item :: after)).length)) :
    walk node numBytes (SequenceSpace.add begin (bytes before).length) (before ++ item :: after)
        begin =
      (walkEnd node numBytes (SequenceSpace.add begin (bytes before).length) item after).prepend
        before := by
  have within := inside.lt (n := (bytes before).length + item.packet.length) (by omega)
    (by rw [bytes_cons, List.length_append]; omega)
  have skipped := @walk_skip begin before after item node numBytes 0 filled inside
  rw [Nat.add_zero] at skipped
  rw [← SequenceNumber32.add_add] at within
  rw [skipped, walk]
  dsimp only
  rw [if_pos within, if_pos rfl]

/-- The walk at an item that holds the position behind its start. -/
theorem walk_middle (filled : Filled before) (some : 0 < count)
    (shorter : count < item.packet.length)
    (inside : Inside begin ((bytes before).length + count)
      ((bytes before).length + (bytes (item :: after)).length)) :
    walk node numBytes (SequenceSpace.add begin ((bytes before).length + count))
        (before ++ item :: after) begin =
      .again (before ++ (item.split count node).1 :: (item.split count node).2 :: after) 0 := by
  have within := inside.lt (n := (bytes before).length + item.packet.length) (by omega)
    (by rw [bytes_cons, List.length_append]; omega)
  have few : count < 2 ^ 32 := by
    have fits := inside.fits
    have low := inside.within
    omega
  have ahead : SequenceSpace.gt (SequenceSpace.add begin ((bytes before).length + count))
      (SequenceSpace.add begin (bytes before).length) = true := by
    rcases Nat.eq_zero_or_pos (bytes before).length with none | positive
    · rw [none, Nat.zero_add] at inside ⊢
      rw [SequenceNumber32.add_zero]
      exact inside.gt some
    · rw [← SequenceNumber32.add_add]
      exact (inside.advance positive).gt some
  have different : SequenceSpace.add begin ((bytes before).length + count) ≠
      SequenceSpace.add begin (bytes before).length := by
    have fits := inside.fits
    have low := inside.within
    intro same
    have equal := SequenceNumber32.add_injective begin (by omega) (by omega) same
    omega
  have parted : sub (SequenceSpace.add begin ((bytes before).length + count))
      (SequenceSpace.add begin (bytes before).length) = count := by
    rw [← SequenceNumber32.add_add]
    exact SequenceNumber32.sub_add _ few
  rw [← SequenceNumber32.add_add begin (bytes before).length item.packet.length] at within
  rw [walk_skip filled inside, walk]
  dsimp only
  rw [if_pos within, if_neg different, if_pos ahead, parted, Walk.prepend_again]

end

/-- The item after the merges, and the items that are left behind it. -/
def gather (numBytes : Nat) : TcpTxItem → List TcpTxItem → TcpTxItem × List TcpTxItem
  | item, [] => (item, [])
  | item, next :: others =>
      if numBytes ≤ item.packet.length then (item, next :: others)
      else gather numBytes (item.merge next) others

/-- The item without the bytes that are too many, and the rest. -/
def cut (node numBytes : Nat) (item : TcpTxItem) (rest : List TcpTxItem) : List TcpTxItem :=
  if numBytes < item.packet.length then
    (item.split numBytes node).1 :: (item.split numBytes node).2 :: rest
  else item :: rest

/-- A request that ends behind an item of this length also ends there as `SequenceNumber32`
compares the ends. -/
def EndSeen (seq : SequenceNumber32) (numBytes length : Nat) : Prop :=
  numBytes ≤ length ∨
    SequenceSpace.gt (SequenceSpace.add seq numBytes) (SequenceSpace.add seq length) = true

instance (seq : SequenceNumber32) (numBytes length : Nat) :
    Decidable (EndSeen seq numBytes length) := inferInstanceAs (Decidable (_ ∨ _))

theorem EndSeen.grow {seq : SequenceNumber32} {numBytes length longer : Nat}
    (seen : EndSeen seq numBytes length) (grows : length ≤ longer) (small : numBytes < 2 ^ 32) :
    EndSeen seq numBytes longer := by
  have seqFits := seq.fits
  rcases seen with reached | beyond
  · exact .inl (by omega)
  · rcases Nat.lt_or_ge longer numBytes with short | enough
    · refine .inr ?_
      rw [SequenceNumber32.gt_iff, SequenceNumber32.value_add, SequenceNumber32.value_add]
        at beyond ⊢
      omega
    · exact .inl enough

theorem gather_of_le {numBytes : Nat} {item : TcpTxItem} (enough : numBytes ≤ item.packet.length)
    (after : List TcpTxItem) : gather numBytes item after = (item, after) := by
  cases after with
  | nil => rfl
  | cons next others => rw [gather, if_pos enough]

section

variable {seq : SequenceNumber32} {item : TcpTxItem} {node numBytes : Nat}

theorem walkEnd_reached (some : 0 < numBytes) (small : item.packet.length < 2 ^ 32)
    (within : lt seq (SequenceSpace.add seq item.packet.length) = true)
    (reached : numBytes ≤ item.packet.length) (rest : List TcpTxItem) :
    walkEnd node numBytes seq item rest = .found (cut node numBytes item rest) 0 := by
  have seqFits := seq.fits
  have ends : le (SequenceSpace.add seq numBytes) (SequenceSpace.add seq item.packet.length) =
      true := by
    rw [SequenceNumber32.lt_iff, SequenceNumber32.gt_iff, SequenceNumber32.value_add] at within
    rw [le_iff, SequenceNumber32.gt_iff, SequenceNumber32.value_add, SequenceNumber32.value_add]
    omega
  unfold walkEnd cut
  rw [if_pos ends]
  split
  next same => rw [if_neg (by omega)]
  next different => rw [if_pos (by omega), if_pos (by omega)]

/-- The loop of the source does not move. -/
theorem walkEnd_stuck (notSeen : ¬ EndSeen seq numBytes item.packet.length)
    (rest : List TcpTxItem) : walkEnd node numBytes seq item rest = .fatal := by
  obtain ⟨more, notBeyond⟩ := not_or.mp notSeen
  unfold walkEnd
  rw [if_pos (le_iff.mpr notBeyond), if_neg (by omega), if_neg (by omega)]

theorem walkEnd_beyond
    (beyond : SequenceSpace.gt (SequenceSpace.add seq numBytes)
      (SequenceSpace.add seq item.packet.length) = true) :
    walkEnd node numBytes seq item [] = .found [item] 0 ∧
      ∀ next others, walkEnd node numBytes seq item (next :: others) =
        .again (item.merge next :: others) (item.uncounted next) := by
  have notEnds : ¬ le (SequenceSpace.add seq numBytes)
      (SequenceSpace.add seq item.packet.length) = true := fun ends => le_iff.mp ends beyond
  exact ⟨if_neg notEnds, fun next others => if_neg notEnds⟩

end

section

variable {begin seq : SequenceNumber32} {before after : List TcpTxItem} {item : TcpTxItem}
  {numBytes attempts : Nat} {edit : Edit}

theorem Inside.start (inside : Inside begin (bytes before).length
      ((bytes before).length + (bytes (item :: after)).length))
    (some : 0 < item.packet.length) :
    SequenceSpace.lt (SequenceSpace.add begin (bytes before).length)
        (SequenceSpace.add (SequenceSpace.add begin (bytes before).length)
          item.packet.length) = true ∧
      item.packet.length < 2 ^ 32 := by
  have fits := inside.fits
  rw [bytes_cons, List.length_append] at inside fits
  rw [SequenceNumber32.add_add]
  exact ⟨inside.lt (by omega) (by omega), by omega⟩

/-- A walk that begins at the start of an item with enough bytes is the last one. -/
theorem getPacketFromList_reached (some : 0 < numBytes) (filled : Filled (before ++ item :: after))
    (inside : Inside begin (bytes before).length
      ((bytes before).length + (bytes (item :: after)).length))
    (reached : numBytes ≤ item.packet.length) (list : edit.list = before ++ item :: after) :
    getPacketFromList begin numBytes (SequenceSpace.add begin (bytes before).length) (attempts + 1)
      edit = .some (⟨before ++ cut edit.nodes numBytes item after, edit.retrans,
        edit.nodes + 1⟩, before.length) := by
  have itemSome := List.length_pos_iff.mpr (filled item (by simp))
  obtain ⟨within, small⟩ := inside.start itemSome
  rw [getPacketFromList, list, walk_start (fun other member =>
      filled other (List.mem_append_left _ member)) itemSome inside,
    walkEnd_reached some small within reached, Walk.prepend_found, Nat.add_zero]

/-- From the start of an item, the walks end after the merges. -/
theorem getPacketFromList_start (some : 0 < numBytes) (small : numBytes < 2 ^ 32)
    (filled : Filled (before ++ item :: after))
    (inside : Inside begin (bytes before).length
      ((bytes before).length + (bytes (item :: after)).length))
    (seen : EndSeen (SequenceSpace.add begin (bytes before).length) numBytes item.packet.length)
    (list : edit.list = before ++ item :: after) (enough : after.length < attempts) :
    ∃ retrans nodes node,
      getPacketFromList begin numBytes (SequenceSpace.add begin (bytes before).length) attempts
        edit = .some (⟨before ++ cut node numBytes (gather numBytes item after).1
          (gather numBytes item after).2, retrans, nodes⟩, before.length) := by
  have before_filled : Filled before := fun other member =>
    filled other (List.mem_append_left _ member)
  induction after generalizing item attempts edit with
  | nil =>
      obtain ⟨turns, rfl⟩ := Nat.exists_eq_succ_of_ne_zero (Nat.ne_of_gt enough)
      have itemSome := List.length_pos_iff.mpr (filled item (by simp))
      by_cases reached : numBytes ≤ item.packet.length
      · exact ⟨_, _, _, getPacketFromList_reached some filled inside reached list⟩
      · refine ⟨edit.retrans, edit.nodes + 1, 0, ?_⟩
        rw [getPacketFromList, list, walk_start before_filled itemSome inside,
          (walkEnd_beyond (seen.resolve_left reached)).1, Walk.prepend_found, Nat.add_zero, gather]
        unfold cut
        rw [if_neg (fun less => reached (Nat.le_of_lt less))]
  | cons next others inductionHypothesis =>
      obtain ⟨turns, rfl⟩ := Nat.exists_eq_succ_of_ne_zero
        (Nat.ne_of_gt (Nat.zero_lt_of_lt enough))
      have itemSome := List.length_pos_iff.mpr (filled item (by simp))
      by_cases reached : numBytes ≤ item.packet.length
      · rw [gather_of_le reached]
        exact ⟨_, _, _, getPacketFromList_reached some filled inside reached list⟩
      · have intact := @intact_merge begin before item next others
        have sameTotal : (bytes (item.merge next :: others)).length =
            (bytes (item :: next :: others)).length := by
          simp [TcpTxItem.merge]
        have longer : item.packet.length ≤ (item.merge next).packet.length := by
          simp [TcpTxItem.merge]
        rw [getPacketFromList, list, walk_start before_filled itemSome inside,
          (walkEnd_beyond (seen.resolve_left reached)).2, Walk.prepend_again, gather,
          if_neg reached]
        exact inductionHypothesis (intact.filled filled) (sameTotal ▸ inside)
          (seen.grow longer small) rfl (Nat.lt_of_succ_lt_succ enough)

/-- The item that holds a position. -/
theorem exists_holding {list : List TcpTxItem} {position : Nat}
    (within : position < (bytes list).length) :
    ∃ before item after count, list = before ++ item :: after ∧ count < item.packet.length ∧
      (bytes before).length + count = position := by
  induction list generalizing position with
  | nil => exact absurd within (Nat.not_lt_zero _)
  | cons first rest inductionHypothesis =>
      rw [bytes_cons, List.length_append] at within
      rcases Nat.lt_or_ge position first.packet.length with here | later
      · exact ⟨[], first, rest, position, rfl, here, by simp⟩
      · obtain ⟨before, item, after, count, rfl, shorter, same⟩ :=
          @inductionHypothesis (position - first.packet.length) (by omega)
        refine ⟨first :: before, item, after, count, rfl, shorter, ?_⟩
        rw [bytes_cons, List.length_append]
        omega

/-- The list once the item that holds the position is split, so that `start` starts there. -/
structure Aligned (edit : Edit) (item : TcpTxItem) (position : Nat)
    (before : List TcpTxItem) (start : TcpTxItem) (after : List TcpTxItem) : Prop where
  length : (bytes before).length = position
  filled : Filled (before ++ start :: after)
  total : (bytes (before ++ start :: after)).length = (bytes edit.list).length
  counts : SameCounts edit.list edit.retrans (before ++ start :: after) edit.retrans
  sacked : start.sacked = item.sacked
  lost : start.lost = item.lost

/-- `GetPacketFromList` goes on as from an aligned list. -/
theorem getPacketFromList_aligned {count : Nat} (filled : Filled (before ++ item :: after))
    (inside : Inside begin ((bytes before).length + count)
      ((bytes before).length + (bytes (item :: after)).length))
    (shorter : count < item.packet.length) (list : edit.list = before ++ item :: after) :
    ∃ earlier start later used,
      Aligned edit item ((bytes before).length + count) earlier start after ∧
      start.packet.length = item.packet.length - count ∧
      later.list = earlier ++ start :: after ∧ used ≤ 1 ∧
      ∀ turns, getPacketFromList begin numBytes
          (SequenceSpace.add begin ((bytes before).length + count)) (turns + used) edit =
        getPacketFromList begin numBytes
          (SequenceSpace.add begin ((bytes before).length + count)) turns later := by
  rcases Nat.eq_zero_or_pos count with rfl | some
  · exact ⟨before, item, edit, 0, ⟨rfl, filled, by rw [list], list ▸ SameCounts.refl _ _, rfl, rfl⟩,
      rfl, list, by decide, fun turns => rfl⟩
  · have intact := @intact_split begin edit.nodes before item after count some shorter
    have counts := @sameCounts_split before item after count edit.nodes edit.retrans shorter
    rw [List.append_cons before (item.split count edit.nodes).1] at intact counts
    refine ⟨before ++ [(item.split count edit.nodes).1], (item.split count edit.nodes).2,
      ⟨before ++ (item.split count edit.nodes).1 :: (item.split count edit.nodes).2 :: after,
        wrapSub 32 edit.retrans 0, edit.nodes + 1⟩, 1,
      ⟨?_, intact.filled filled, by rw [intact.bytes, list], list ▸ counts, rfl, rfl⟩, ?_, ?_,
      by decide, fun turns => ?_⟩
    · simp [TcpTxItem.split, Nat.min_eq_left (Nat.le_of_lt shorter)]
    · simp [TcpTxItem.split]
    · simp
    · rw [getPacketFromList, list, walk_middle (fun other member =>
        filled other (List.mem_append_left _ member)) some shorter inside]

/-- `GetPacketFromList` ends if it sees the end of the request. -/
theorem getPacketFromList_ends {count : Nat} (some : 0 < numBytes) (small : numBytes < 2 ^ 32)
    (filled : Filled (before ++ item :: after))
    (inside : Inside begin ((bytes before).length + count)
      ((bytes before).length + (bytes (item :: after)).length))
    (shorter : count < item.packet.length) (list : edit.list = before ++ item :: after)
    (seen : EndSeen (SequenceSpace.add begin ((bytes before).length + count)) numBytes
      (item.packet.length - count)) :
    ∃ result earlier start node,
      getPacketFromList begin numBytes (SequenceSpace.add begin ((bytes before).length + count))
          (TcpTxBuffer.attempts edit.list) edit = .some (result, earlier.length) ∧
        Aligned edit item ((bytes before).length + count) earlier start after ∧
        result.list = earlier ++ cut node numBytes (gather numBytes start after).1
          (gather numBytes start after).2 := by
  obtain ⟨earlier, start, later, used, aligned, length, laterList, few, same⟩ :=
    @getPacketFromList_aligned begin before after item numBytes edit count filled inside shorter
      list
  have total := aligned.total
  rw [list, bytes_append, bytes_append, List.length_append, List.length_append] at total
  have startInside : Inside begin (bytes earlier).length
      ((bytes earlier).length + (bytes (start :: after)).length) := by
    rw [total, aligned.length]
    exact inside
  rw [← aligned.length, ← length] at seen
  obtain ⟨turns, enough⟩ : ∃ turns, TcpTxBuffer.attempts edit.list = turns + used :=
    ⟨TcpTxBuffer.attempts edit.list - used, by unfold TcpTxBuffer.attempts; omega⟩
  have long : after.length < turns := by
    have size := congrArg List.length list
    rw [List.length_append, List.length_cons] at size
    unfold TcpTxBuffer.attempts at enough
    omega
  obtain ⟨retrans, nodes, node, ends⟩ :=
    getPacketFromList_start some small aligned.filled startInside seen laterList long
  rw [aligned.length] at ends
  exact ⟨_, earlier, start, node, enough ▸ (same turns).trans ends, aligned, rfl⟩

/-- Otherwise its loop does not move. -/
theorem getPacketFromList_stuck {count : Nat} (filled : Filled (before ++ item :: after))
    (inside : Inside begin ((bytes before).length + count)
      ((bytes before).length + (bytes (item :: after)).length))
    (shorter : count < item.packet.length) (list : edit.list = before ++ item :: after)
    (notSeen : ¬ EndSeen (SequenceSpace.add begin ((bytes before).length + count)) numBytes
      (item.packet.length - count)) (attempts : Nat) :
    getPacketFromList begin numBytes (SequenceSpace.add begin ((bytes before).length + count))
      attempts edit = none := by
  obtain ⟨earlier, start, later, used, aligned, length, laterList, few, same⟩ :=
    @getPacketFromList_aligned begin before after item numBytes edit count filled inside shorter
      list
  have total := aligned.total
  rw [list, bytes_append, bytes_append, List.length_append, List.length_append] at total
  have startInside : Inside begin (bytes earlier).length
      ((bytes earlier).length + (bytes (start :: after)).length) := by
    rw [total, aligned.length]
    exact inside
  rw [← aligned.length, ← length] at notSeen
  rcases Nat.lt_or_ge attempts used with none | enough
  · obtain rfl : attempts = 0 := by omega
    rfl
  · obtain ⟨turns, rfl⟩ := Nat.exists_eq_add_of_le' enough
    rw [same turns, ← aligned.length]
    cases turns with
    | zero => rfl
    | succ turns =>
        have startSome := List.length_pos_iff.mpr (aligned.filled start (by simp))
        rw [getPacketFromList, laterList, walk_start (fun other member =>
            aligned.filled other (List.mem_append_left _ member)) startSome startInside,
          walkEnd_stuck notSeen, Walk.prepend_fatal]

end

section

variable {start stop begin count node numBytes : Nat} {before after list : List TcpTxItem}
  {item : TcpTxItem} {flag : TcpTxItem → Bool}

theorem covered_beyond (beyond : stop ≤ begin) : covered start stop list begin = [] := by
  induction list generalizing begin with
  | nil => rfl
  | cons first rest inductionHypothesis =>
      rw [covered, if_neg (by omega)]
      exact inductionHypothesis (by omega)

theorem covered_skip (low : begin + (bytes before).length ≤ start) :
    covered start stop (before ++ list) begin =
      covered start stop list (begin + (bytes before).length) := by
  induction before generalizing begin with
  | nil => rfl
  | cons first before inductionHypothesis =>
      rw [bytes_cons, List.length_append] at low ⊢
      rw [List.cons_append, covered, if_neg (by omega), inductionHypothesis (by omega),
        Nat.add_assoc]

/-- The items of a request: the one that holds its start, and the ones behind it that it
needs. -/
theorem covered_request (some : 0 < numBytes) (shorter : count < item.packet.length) :
    covered ((bytes before).length + count) ((bytes before).length + count + numBytes)
        (before ++ item :: after) 0 =
      item :: covered ((bytes before).length + count) ((bytes before).length + count + numBytes)
        after ((bytes before).length + count + (item.packet.length - count)) := by
  have ends : (bytes before).length + count + (item.packet.length - count) =
      0 + (bytes before).length + item.packet.length := by omega
  rw [covered_skip (by omega), covered, if_pos (by omega), ends]

theorem filled_covered (filled : Filled list) : Filled (covered start stop list begin) := by
  induction list generalizing begin with
  | nil => exact filled
  | cons first rest inductionHypothesis =>
      have restFilled : Filled rest := fun other member =>
        filled other (List.mem_cons_of_mem first member)
      rw [covered]
      split
      · intro other member
        rcases List.mem_cons.mp member with rfl | later
        · exact filled other List.mem_cons_self
        · exact inductionHypothesis restFilled other later
      · exact inductionHypothesis restFilled

/-- The merged items count as the first one does. -/
theorem gather_flagged (kept : ∀ item next : TcpTxItem, flag (item.merge next) = flag item)
    (some : 0 < item.packet.length) :
    flagged flag ((gather numBytes item after).1 :: (gather numBytes item after).2) +
        flagged flag (covered start (start + numBytes) after (start + item.packet.length)) =
      flagged flag (item :: after) +
        if flag item then
          (bytes (covered start (start + numBytes) after (start + item.packet.length))).length
        else 0 := by
  induction after generalizing item with
  | nil => simp [gather, covered]
  | cons next others inductionHypothesis =>
      by_cases reached : numBytes ≤ item.packet.length
      · rw [gather_of_le reached, covered_beyond (by omega)]
        simp
      · have length : (item.merge next).packet.length =
            item.packet.length + next.packet.length := by simp [TcpTxItem.merge]
        have merged := @inductionHypothesis (item.merge next) (by omega)
        rw [kept, length, flagged_cons flag (item.merge next), kept, length, ← Nat.add_assoc]
          at merged
        rw [gather, if_neg reached, covered, if_pos (by omega), flagged_cons flag next,
          flagged_cons flag item, flagged_cons flag next, bytes_cons, List.length_append]
        generalize (if flag next then next.packet.length else 0) = counted
        by_cases counts : flag item = true
        · rw [if_pos counts, if_pos counts] at merged ⊢
          omega
        · rw [if_neg counts, if_neg counts] at merged ⊢
          omega

/-- Items count in full, or not at all, exactly if their flags agree. -/
theorem flagged_eq_iff (filled : Filled list) (value : Bool) :
    flagged flag list = (if value then (bytes list).length else 0) ↔
      ∀ other ∈ list, flag other = value := by
  induction list with
  | nil => simp
  | cons first rest inductionHypothesis =>
      have some := List.length_pos_iff.mpr (filled first List.mem_cons_self)
      have later := inductionHypothesis fun other member =>
        filled other (List.mem_cons_of_mem first member)
      have few := flagged_le flag rest
      rw [List.forall_mem_cons, ← later, flagged_cons, bytes_cons, List.length_append]
      cases flag first with
      | false =>
          cases value with
          | false => simp
          | true =>
              simp only [Bool.false_eq_true, ↓reduceIte, false_and, iff_false]
              omega
      | true =>
          cases value with
          | false =>
              simp only [Bool.false_eq_true, Bool.true_eq_false, ↓reduceIte, false_and, iff_false]
              omega
          | true => simp

theorem flagged_cut (kept : ∀ (item : TcpTxItem) (size node : Nat),
      flag (item.split size node).1 = flag item ∧ flag (item.split size node).2 = flag item)
    (rest : List TcpTxItem) :
    flagged flag (cut node numBytes item rest) = flagged flag (item :: rest) := by
  unfold cut
  split
  next longer =>
    obtain ⟨first, second⟩ := kept item numBytes node
    rw [flagged_cons, flagged_cons, first, second, flagged_cons]
    simp only [TcpTxItem.split, List.length_take, List.length_drop]
    split <;> omega
  next => rfl

end

/-- A list for `GetPacketFromList`: no item is empty, and the counter of the retransmitted bytes
is right. -/
structure WellFormed (edit : Edit) : Prop where
  filled : Filled edit.list
  retrans : edit.retrans = flagged TcpTxItem.retrans edit.list
  fits : (bytes edit.list).length < 2 ^ 32

/-- The list has the same bytes, at the same sequence numbers; the counters, of which only
`m_retrans` changes, are still the sums over the items; and the index is that of an item that
starts at `seq`. -/
structure KeepsMeaning (begin seq : SequenceNumber32) (edit result : Edit) (index : Nat) :
    Prop where
  bytes : bytes result.list = bytes edit.list
  consecutive : Consecutive begin edit.list → Consecutive begin result.list
  sacked : flagged TcpTxItem.sacked result.list = flagged TcpTxItem.sacked edit.list
  lost : flagged TcpTxItem.lost result.list = flagged TcpTxItem.lost edit.list
  retrans : result.retrans = flagged TcpTxItem.retrans result.list
  found : FoundAt begin seq result.list index
  starts : Consecutive begin edit.list →
    ∃ item, result.list[index]? = some item ∧ item.startSeq = seq

/-- The bytes of the item that holds the position, from there on. -/
def bytesFrom : Nat → List TcpTxItem → Nat
  | _, [] => 0
  | position, item :: rest =>
      if position < item.packet.length then item.packet.length - position
      else bytesFrom (position - item.packet.length) rest

/-- The items with a byte of the request are all sacked or none is, and all lost or none
is. -/
def FlagsAgree (position numBytes : Nat) (list : List TcpTxItem) : Prop :=
  ∀ a ∈ covered position (position + numBytes) list 0,
    ∀ b ∈ covered position (position + numBytes) list 0, a.sacked = b.sacked ∧ a.lost = b.lost

instance (position numBytes : Nat) (list : List TcpTxItem) :
    Decidable (FlagsAgree position numBytes list) := inferInstanceAs (Decidable (∀ a ∈ _, _))

section

variable {begin seq : SequenceNumber32} {before after list : List TcpTxItem} {item : TcpTxItem}
  {numBytes count index : Nat} {edit result : Edit}

theorem bytesFrom_append (shorter : count < item.packet.length) :
    bytesFrom ((bytes before).length + count) (before ++ item :: after) =
      item.packet.length - count := by
  induction before with
  | nil => rw [bytes_nil, List.length_nil, Nat.zero_add, List.nil_append, bytesFrom, if_pos shorter]
  | cons first before inductionHypothesis =>
      rw [bytes_cons, List.length_append, List.cons_append, bytesFrom, if_neg (by omega),
        Nat.add_assoc, Nat.add_sub_cancel_left, inductionHypothesis]

/-- The flags agree exactly if the items behind the first one have the flags of that one. -/
theorem flagsAgree_iff (some : 0 < numBytes) (shorter : count < item.packet.length) :
    FlagsAgree ((bytes before).length + count) numBytes (before ++ item :: after) ↔
      (∀ other ∈ covered ((bytes before).length + count)
          ((bytes before).length + count + numBytes) after
          ((bytes before).length + count + (item.packet.length - count)),
        other.sacked = item.sacked) ∧
      ∀ other ∈ covered ((bytes before).length + count)
          ((bytes before).length + count + numBytes) after
          ((bytes before).length + count + (item.packet.length - count)),
        other.lost = item.lost := by
  unfold FlagsAgree
  rw [covered_request some shorter]
  constructor
  · intro agree
    exact ⟨fun other member => (agree other (List.mem_cons_of_mem item member) item
        List.mem_cons_self).1,
      fun other member => (agree other (List.mem_cons_of_mem item member) item
        List.mem_cons_self).2⟩
  · rintro ⟨sacked, lost⟩
    have each : ∀ other ∈ item :: covered ((bytes before).length + count)
        ((bytes before).length + count + numBytes) after
        ((bytes before).length + count + (item.packet.length - count)),
        other.sacked = item.sacked ∧ other.lost = item.lost :=
      List.forall_mem_cons.mpr ⟨⟨rfl, rfl⟩, fun other member =>
        ⟨sacked other member, lost other member⟩⟩
    intro a aMember b bMember
    obtain ⟨aSacked, aLost⟩ := each a aMember
    obtain ⟨bSacked, bLost⟩ := each b bMember
    exact ⟨aSacked.trans bSacked.symm, aLost.trans bLost.symm⟩

/-- The sum for a flag does not change exactly if the merged items have it as the first one
does. -/
theorem flagged_gathered {start : TcpTxItem} {position node : Nat} {flag : TcpTxItem → Bool}
    (keptMerge : ∀ item next : TcpTxItem, flag (item.merge next) = flag item)
    (keptSplit : ∀ (item : TcpTxItem) (size node : Nat),
      flag (item.split size node).1 = flag item ∧ flag (item.split size node).2 = flag item)
    (filled : Filled (before ++ start :: after)) :
    flagged flag (before ++ cut node numBytes (gather numBytes start after).1
        (gather numBytes start after).2) = flagged flag (before ++ start :: after) ↔
      ∀ other ∈ covered position (position + numBytes) after (position + start.packet.length),
        flag other = flag start := by
  have startSome := List.length_pos_iff.mpr (filled start (by simp))
  have afterFilled : Filled after := fun other member => filled other (by simp [member])
  have sum := @gather_flagged position numBytes after start flag keptMerge startSome
  have few := flagged_le flag
    (covered position (position + numBytes) after (position + start.packet.length))
  rw [← flagged_eq_iff (filled_covered afterFilled), flagged_append, flagged_append,
    flagged_cut keptSplit]
  generalize (if flag start then (TcpTxBuffer.bytes (covered position (position + numBytes) after
    (position + start.packet.length))).length else 0) = whole at sum ⊢
  omega

theorem FoundAt.starts (found : FoundAt begin seq list index)
    (consecutive : Consecutive begin list) :
    ∃ item, list[index]? = some item ∧ item.startSeq = seq := by
  obtain ⟨before, item, after, rfl, rfl, rfl⟩ := found
  obtain ⟨-, starts, -⟩ := consecutive_append.mp consecutive
  exact ⟨item, by simp, starts⟩

/-- Where the flags agree, `GetPacketFromList` keeps the meaning of the list. -/
theorem WellFormed.keepsMeaning (wellFormed : WellFormed edit) (some : 0 < numBytes)
    (small : numBytes < 2 ^ 32) (agree : FlagsAgree (sub seq begin) numBytes edit.list)
    {attempts : Nat}
    (gives : getPacketFromList begin numBytes seq attempts edit = .some (result, index)) :
    KeepsMeaning begin seq edit result index := by
  obtain ⟨intact, found⟩ := getPacketFromList_intact some small wellFormed.fits gives
  obtain ⟨sacked, lost, flags⟩ := exists_sameFlags agree
  have counts := getPacketFromList_sameCounts some small wellFormed.filled wellFormed.fits flags
    gives
  exact ⟨intact.bytes, intact.consecutive, counts.sacked, counts.lost,
    counts.retrans wellFormed.retrans, found, fun consecutive =>
      found.starts (intact.consecutive consecutive)⟩

/-- `GetPacketFromList` ends and keeps the meaning of the list exactly where it sees the end of
the request and the flags of the items that it merges agree. -/
theorem keepsMeaning_iff (begin seq : SequenceNumber32) (numBytes : Nat) (edit : Edit)
    (wellFormed : WellFormed edit) (ahead : le begin seq = true)
    (behind : lt seq (SequenceSpace.add begin (TcpTxBuffer.bytes edit.list).length) = true)
    (some : 0 < numBytes) (small : numBytes < 2 ^ 32) :
    (∃ result index, getPacketFromList begin numBytes seq (attempts edit.list) edit =
        .some (result, index) ∧ KeepsMeaning begin seq edit result index) ↔
      EndSeen seq numBytes (bytesFrom (sub seq begin) edit.list) ∧
        FlagsAgree (sub seq begin) numBytes edit.list := by
  have inside := inside_of ahead behind wellFormed.fits
  have isSeq := SequenceNumber32.add_sub seq begin
  obtain ⟨before, item, after, count, list, shorter, position⟩ := exists_holding inside.within
  have filled := wellFormed.filled
  have splitInside : Inside begin ((TcpTxBuffer.bytes before).length + count)
      ((TcpTxBuffer.bytes before).length + (TcpTxBuffer.bytes (item :: after)).length) := by
    rw [position, ← List.length_append, ← bytes_append, ← list]
    exact inside
  rw [list] at filled
  have length := @bytesFrom_append before after item count shorter
  have ends := @getPacketFromList_ends begin before after item numBytes edit count some small
    filled splitInside shorter list
  have stuck := @getPacketFromList_stuck begin before after item numBytes edit count filled
    splitInside shorter list
  rw [position, ← list] at length
  rw [position, isSeq, ← length] at ends stuck
  constructor
  · rintro ⟨result, index, gives, keeps⟩
    have seen : EndSeen seq numBytes (bytesFrom (sub seq begin) edit.list) := by
      by_contra notSeen
      exact nomatch (stuck notSeen _).symm.trans gives
    refine ⟨seen, ?_⟩
    obtain ⟨gathered, earlier, start, node, same, aligned, resultList⟩ := ends seen
    obtain ⟨rfl, -⟩ := Prod.mk.inj (Option.some.inj (same.symm.trans gives))
    have total := aligned.total
    have startAt := aligned.length
    rw [list] at total
    simp only [bytes_append, bytes_cons, List.length_append] at total
    have startLength : start.packet.length = item.packet.length - count := by omega
    have sacked := keeps.sacked
    have lost := keeps.lost
    rw [resultList, ← aligned.counts.sacked] at sacked
    rw [resultList, ← aligned.counts.lost] at lost
    rw [list, ← position, flagsAgree_iff some shorter, position, ← startLength, ← aligned.sacked,
      ← aligned.lost]
    exact ⟨(flagged_gathered (fun _ _ => rfl) (fun _ _ _ => ⟨rfl, rfl⟩) aligned.filled).mp sacked,
      (flagged_gathered (fun _ _ => rfl) (fun _ _ _ => ⟨rfl, rfl⟩) aligned.filled).mp lost⟩
  · rintro ⟨seen, agree⟩
    obtain ⟨result, earlier, start, node, gives, -⟩ := ends seen
    exact ⟨result, earlier.length, gives, wellFormed.keepsMeaning some small agree gives⟩

end

/-- A request in a list of two items with the same flags, across the end of the sequence number
space. -/
theorem keepsMeaning_iff_merging :
    (∃ result index, getPacketFromList (SequenceNumber32.ofNat 4294967294) 2
        (SequenceNumber32.ofNat 4294967295)
        (attempts [⟨SequenceNumber32.ofNat 4294967294, [1, 2], false, false, false, 0⟩,
          ⟨SequenceNumber32.ofNat 0, [3, 4], false, true, false, 1⟩])
        ⟨[⟨SequenceNumber32.ofNat 4294967294, [1, 2], false, false, false, 0⟩,
          ⟨SequenceNumber32.ofNat 0, [3, 4], false, true, false, 1⟩], 2, 2⟩ =
        some (result, index) ∧
      KeepsMeaning (SequenceNumber32.ofNat 4294967294) (SequenceNumber32.ofNat 4294967295)
        ⟨[⟨SequenceNumber32.ofNat 4294967294, [1, 2], false, false, false, 0⟩,
          ⟨SequenceNumber32.ofNat 0, [3, 4], false, true, false, 1⟩], 2, 2⟩ result index) ↔
      EndSeen (SequenceNumber32.ofNat 4294967295) 2
          (bytesFrom 1 [⟨SequenceNumber32.ofNat 4294967294, [1, 2], false, false, false, 0⟩,
            ⟨SequenceNumber32.ofNat 0, [3, 4], false, true, false, 1⟩]) ∧
        FlagsAgree 1 2 [⟨SequenceNumber32.ofNat 4294967294, [1, 2], false, false, false, 0⟩,
          ⟨SequenceNumber32.ofNat 0, [3, 4], false, true, false, 1⟩] :=
  keepsMeaning_iff (SequenceNumber32.ofNat 4294967294) (SequenceNumber32.ofNat 4294967295) 2
    ⟨[⟨SequenceNumber32.ofNat 4294967294, [1, 2], false, false, false, 0⟩,
      ⟨SequenceNumber32.ofNat 0, [3, 4], false, true, false, 1⟩], 2, 2⟩
    ⟨by unfold Filled; decide, by decide, by decide⟩ (by decide) (by decide) (by decide)
    (by decide)

/-- The first segment is lost, the second one is not, and a request from the middle of the first
one merges them: six bytes are in lost items then, and the counter says three. -/
theorem not_keepsMeaning :
    machine.Legal (create (SequenceNumber32.ofNat 1) 16 3)
        [.add [1, 2, 3, 4, 5, 6], .copyFromSequence 3 (SequenceNumber32.ofNat 1),
          .copyFromSequence 3 (SequenceNumber32.ofNat 4), .markHeadAsLost] ∧
      (machine.run (create (SequenceNumber32.ofNat 1) 16 3)
        [.add [1, 2, 3, 4, 5, 6], .copyFromSequence 3 (SequenceNumber32.ofNat 1),
          .copyFromSequence 3 (SequenceNumber32.ofNat 4), .markHeadAsLost]).sentList =
        [⟨SequenceNumber32.ofNat 1, [1, 2, 3], true, false, false, 1⟩,
          ⟨SequenceNumber32.ofNat 4, [4, 5, 6], false, false, false, 3⟩] ∧
      WellFormed ⟨[⟨SequenceNumber32.ofNat 1, [1, 2, 3], true, false, false, 1⟩,
        ⟨SequenceNumber32.ofNat 4, [4, 5, 6], false, false, false, 3⟩], 0, 4⟩ ∧
      ¬ ∃ result index, getPacketFromList (SequenceNumber32.ofNat 1) 4
          (SequenceNumber32.ofNat 2)
          (attempts [⟨SequenceNumber32.ofNat 1, [1, 2, 3], true, false, false, 1⟩,
            ⟨SequenceNumber32.ofNat 4, [4, 5, 6], false, false, false, 3⟩])
          ⟨[⟨SequenceNumber32.ofNat 1, [1, 2, 3], true, false, false, 1⟩,
            ⟨SequenceNumber32.ofNat 4, [4, 5, 6], false, false, false, 3⟩], 0, 4⟩ =
          some (result, index) ∧
        KeepsMeaning (SequenceNumber32.ofNat 1) (SequenceNumber32.ofNat 2)
          ⟨[⟨SequenceNumber32.ofNat 1, [1, 2, 3], true, false, false, 1⟩,
            ⟨SequenceNumber32.ofNat 4, [4, 5, 6], false, false, false, 3⟩], 0, 4⟩ result index := by
  refine ⟨by decide, by decide, ⟨by unfold Filled; decide, by decide, by decide⟩, ?_⟩
  rintro ⟨result, index, gives, keeps⟩
  have after : (getPacketFromList (SequenceNumber32.ofNat 1) 4 (SequenceNumber32.ofNat 2)
      (attempts [⟨SequenceNumber32.ofNat 1, [1, 2, 3], true, false, false, 1⟩,
        ⟨SequenceNumber32.ofNat 4, [4, 5, 6], false, false, false, 3⟩])
      ⟨[⟨SequenceNumber32.ofNat 1, [1, 2, 3], true, false, false, 1⟩,
        ⟨SequenceNumber32.ofNat 4, [4, 5, 6], false, false, false, 3⟩], 0, 4⟩).map
      (fun gathered => flagged TcpTxItem.lost gathered.1.list) = some 6 := by decide
  rw [gives] at after
  have six : flagged TcpTxItem.lost result.list = 6 := Option.some.inj after
  exact absurd (six.symm.trans keeps.lost) (by decide)

end TcpTxBuffer

end Ns3.Internet
