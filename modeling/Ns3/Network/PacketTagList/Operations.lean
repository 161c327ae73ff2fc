import Ns3.Network.PacketTagList.Kernel

/-!
What each method of `PacketTagList` does to its list and to the other lists.

`COWTraverse` arrives at the tag with a cursor: all nodes before the tag belong
to its list alone, because they were not shared or because they were copied on
the way. The writers then work on the node at the cursor.
-/

namespace Ns3.Network

open Library

namespace PacketTagList

open NodeHeap (Slot slotAfter)

variable {heap : TagHeap} {self : PacketTagList} {others : Multiset (Option Nat)} {tid : Nat}
  {tags : List Tag} {cells front rest : List (Nat × Tag)} {pointer : Option Nat}

/-- The list has become a list of these tags, and the others are as they were. -/
structure Changes (heap : TagHeap) (others : Multiset (Option Nat)) (tags : List Tag)
    (state : State) : Prop where
  tree : state.1.Tree (state.2 ::ₘ others)
  chain : ∃ cells, state.1.Chain state.2 cells ∧ cells.map Prod.snd = tags
  frame : heap.Frame state.1 others

/-- The value of the tag of a type in a list of tags. -/
def lookup (tags : List Tag) (tid : Nat) : Option Tag := tags.find? fun tag => tag.tid = tid

theorem lookup_eq_none : lookup tags tid = none ↔ ∀ tag ∈ tags, tag.tid ≠ tid := by
  simp [lookup]

theorem of_lookup {tag : Tag} (looked : lookup tags tid = some tag) :
    tag ∈ tags ∧ tag.tid = tid := by
  rw [lookup] at looked
  exact ⟨List.mem_of_find?_eq_some looked, by simpa using List.find?_some looked⟩

theorem find_eq (tid : Nat) (chain : heap.Chain pointer cells) {fuel : Nat}
    (enough : cells.length < fuel) :
    find heap tid fuel pointer = some (lookup (cells.map Prod.snd) tid) := by
  induction chain generalizing fuel with
  | nil =>
      cases fuel with
      | zero => exact absurd enough (Nat.not_lt_zero _)
      | succ fuel => rfl
  | @cons address node cells found rest inductionHypothesis =>
      cases fuel with
      | zero => exact absurd enough (Nat.not_lt_zero _)
      | succ fuel =>
          have shorter := inductionHypothesis (Nat.lt_of_succ_lt_succ enough)
          by_cases same : node.value.tid = tid
          · simp [find, found, same, lookup]
          · simp [find, found, same, shorter, lookup]

theorem peek_eq (tree : heap.Tree (self ::ₘ others)) (chain : heap.Chain self cells) :
    peek heap self tid = some (lookup (cells.map Prod.snd) tid) :=
  find_eq tid chain (Nat.lt_succ_of_le (tree.length_le chain))

/-- The first loop of `COWTraverse` is at a node up to which the list is not shared. -/
structure At (heap : TagHeap) (list : PacketTagList) (others : Multiset (Option Nat)) (tid : Nat)
    (tags : List Tag) (slot : Slot) (cur : Nat) (node : SharedNode Tag) : Prop where
  found : heap.node cur = some node
  cursor : ∃ front rest, heap.Cursor list others front (some cur) ((cur, node.value) :: rest) ∧
    slot = slotAfter front ∧ tags = front.map Prod.snd ++ node.value :: rest.map Prod.snd ∧
    ∀ tag ∈ front.map Prod.snd, tag.tid ≠ tid

/-- Where the first loop of `COWTraverse` gets to. -/
theorem search_spec (tid : Nat) {current : Option Nat}
    (cursor : heap.Cursor self others front current rest)
    (before : ∀ tag ∈ front.map Prod.snd, tag.tid ≠ tid) {fuel : Nat} (enough : rest.length < fuel) :
    (search heap tid fuel (slotAfter front) current = some .ended ∧
        ∀ tag ∈ (front ++ rest).map Prod.snd, tag.tid ≠ tid) ∨
      ∃ slot cur node, At heap self others tid ((front ++ rest).map Prod.snd) slot cur node ∧
        ((search heap tid fuel (slotAfter front) current = some (.reached slot cur) ∧
            node.count = 1 ∧ node.value.tid = tid) ∨
          (search heap tid fuel (slotAfter front) current = some (.merged slot cur) ∧
            1 < node.count)) := by
  induction rest generalizing front current fuel with
  | nil =>
      cases fuel with
      | zero => exact absurd enough (Nat.not_lt_zero _)
      | succ fuel =>
          have chain := cursor.chain
          cases chain
          rw [List.append_nil]
          exact .inl ⟨rfl, before⟩
  | cons cell rest inductionHypothesis =>
      cases fuel with
      | zero => exact absurd enough (Nat.not_lt_zero _)
      | succ fuel =>
          have chain := cursor.chain
          cases chain with
          | @cons cur node _ found restChain =>
              have here : At heap self others tid ((front ++ (cur, node.value) :: rest).map Prod.snd)
                  (slotAfter front) cur node :=
                ⟨found, front, rest, cursor, rfl, by simp, before⟩
              by_cases shared : node.count > 1
              · exact .inr ⟨_, _, _, here, .inr ⟨by simp [search, found, shared], shared⟩⟩
              have single : node.count = 1 :=
                le_antisymm (Nat.not_lt.mp shared) (cursor.count_pos found)
              by_cases same : node.value.tid = tid
              · exact .inr ⟨_, _, _, here, .inl ⟨by simp [search, found, shared, same], single, same⟩⟩
              · have further := inductionHypothesis (cursor.advance found single)
                  (fun tag inside => by
                    rcases List.mem_append.mp (List.map_append ▸ inside) with earlier | here
                    · exact before tag earlier
                    · rw [List.mem_singleton.mp here]
                      exact same)
                  (Nat.lt_of_succ_lt_succ enough)
                have step : search heap tid (fuel + 1) (slotAfter front) (some cur) =
                    search heap tid fuel (.next cur) node.next := by
                  simp [search, found, shared, same]
                rw [NodeHeap.slotAfter_snoc, ← step, List.append_assoc] at further
                exact further

/-- The last loop of `COWTraverse` copies the nodes before the tag. -/
theorem copyUntil_spec {cur : Nat} (cursor : heap.Cursor self others front (some cur) rest)
    (before : ∀ tag ∈ front.map Prod.snd, tag.tid ≠ tid)
    (shared : ∀ node, heap.node cur = some node → 1 < node.count)
    (present : ∃ tag ∈ rest.map Prod.snd, tag.tid = tid)
    (sized : ∀ tag ∈ rest.map Prod.snd, tag.data.length < 2 ^ 32 - 1)
    {fuel : Nat} (enough : rest.length < fuel) :
    ∃ state slot last node, copyUntil tid fuel (heap, self) (slotAfter front) cur =
        some (state, slot, last) ∧
      At state.1 state.2 others tid ((front ++ rest).map Prod.snd) slot last node ∧
      node.value.tid = tid ∧ heap.Frame state.1 others := by
  induction rest generalizing front heap self cur fuel with
  | nil =>
      obtain ⟨_, inside, _⟩ := present
      exact nomatch inside
  | cons cell rest inductionHypothesis =>
      cases fuel with
      | zero => exact absurd enough (Nat.not_lt_zero _)
      | succ fuel =>
          have chain := cursor.chain
          cases chain with
          | @cons _ node _ found restChain =>
              by_cases same : node.value.tid = tid
              · refine ⟨(heap, self), slotAfter front, cur, node, by simp [copyUntil, found, same],
                  ⟨found, front, rest, cursor, rfl, by simp, before⟩, same, .refl _ _⟩
              -- The tag is further down, so there is a next node to share.
              have later : ∃ tag ∈ rest.map Prod.snd, tag.tid = tid := by
                obtain ⟨tag, inside, tagTid⟩ := present
                rcases List.mem_cons.mp inside with rfl | after
                · exact absurd tagTid same
                · exact ⟨tag, after, tagTid⟩
              cases nextEq : node.next with
              | none =>
                  rw [nextEq] at restChain
                  cases restChain
                  obtain ⟨_, inside, _⟩ := later
                  exact nomatch inside
              | some next =>
                  have small := sized node.value List.mem_cons_self
                  obtain ⟨copied, frame⟩ := cursor.unshare found node.value rfl
                  have nextShared := fun nextNode nextFound =>
                    @NodeHeap.Cursor.unshare_shared _ _ _ _ _ _ _ _ _ cursor found node.value _ rfl
                      next nextEq nextNode nextFound
                  have keptBefore : ∀ tag ∈ (front ++ [(heap.fresh, node.value)]).map Prod.snd,
                      tag.tid ≠ tid := by
                    intro tag inside
                    rcases List.mem_append.mp (List.map_append ▸ inside) with earlier | here
                    · exact before tag earlier
                    · rw [List.mem_singleton.mp here]
                      exact same
                  rw [nextEq] at copied nextShared frame
                  obtain ⟨state, slot, last, lastNode, result, position, lastTid, lastFrame⟩ :=
                    inductionHypothesis copied keptBefore nextShared later
                      (fun tag inside => sized tag (List.mem_cons_of_mem _ inside))
                      (Nat.lt_of_succ_lt_succ enough)
                  rw [NodeHeap.slotAfter_snoc] at result
                  refine ⟨state, slot, last, lastNode, ?_, ?_, lastTid, frame.trans lastFrame⟩
                  · have sharedHere := shared node found
                    simp only [copyUntil, found, Option.bind_eq_bind, Option.bind_some, if_neg same,
                      gt_iff_lt, if_pos sharedHere, createTagData, if_pos small, nextEq]
                    exact result
                  · rw [List.map_append, List.map_append] at position
                    rw [List.map_append, List.map_cons, List.append_cons]
                    exact position

/-- `COWTraverse` hands the writer a node up to which the list is not shared, or
finds no tag of this type. -/
theorem cowTraverse_spec (writer : Bool → State → Slot → Nat → Option (State × Tag))
    (tree : heap.Tree (self ::ₘ others)) (chain : heap.Chain self cells)
    (sized : ∀ tag ∈ cells.map Prod.snd, tag.data.length < 2 ^ 32 - 1) :
    (cowTraverse tid writer heap self = some ((heap, self), none) ∧
        ∀ tag ∈ cells.map Prod.snd, tag.tid ≠ tid) ∨
      ∃ preMerge state slot cur node,
        cowTraverse tid writer heap self =
          (writer preMerge state slot cur).map (fun written => (written.1, some written.2)) ∧
        At state.1 state.2 others tid (cells.map Prod.snd) slot cur node ∧
        node.value.tid = tid ∧ heap.Frame state.1 others ∧
        ((preMerge = true ∧ state = (heap, self) ∧ node.count = 1 ∧
            search heap tid (heap.fresh + 1) .head self = some (.reached slot cur)) ∨
          (preMerge = false ∧ ∃ mergeSlot merge,
            search heap tid (heap.fresh + 1) .head self = some (.merged mergeSlot merge))) := by
  have enough := Nat.lt_succ_of_le (tree.length_le chain)
  rcases search_spec tid (tree.cursor chain) (by simp) enough with
    ⟨ended, absent⟩ | ⟨slot, cur, node, position, ⟨reached, single, same⟩ | ⟨merged, shared⟩⟩
  · refine .inl ⟨?_, absent⟩
    change search heap tid (heap.fresh + 1) .head self = _ at ended
    simp [cowTraverse, ended]
  · change search heap tid (heap.fresh + 1) .head self = _ at reached
    refine .inr ⟨true, (heap, self), slot, cur, node, ?_, position, same, .refl _ _,
      .inl ⟨rfl, rfl, single, reached⟩⟩
    cases written : writer true (heap, self) slot cur with
    | none => simp [cowTraverse, reached, written]
    | some result => simp [cowTraverse, reached, written]
  · change search heap tid (heap.fresh + 1) .head self = _ at merged
    obtain ⟨front, rest, cursor, rfl, tagsEq, before⟩ := position.cursor
    rw [List.nil_append] at tagsEq
    have restLength : ((cur, node.value) :: rest).length < heap.fresh + 1 :=
      Nat.lt_succ_of_le (tree.length_le cursor.chain)
    have found := find_eq tid cursor.chain restLength
    cases looked : lookup (((cur, node.value) :: rest).map Prod.snd) tid with
    | none =>
        rw [looked] at found
        refine .inl ⟨by simp [cowTraverse, merged, found], ?_⟩
        intro tag inside
        rw [tagsEq] at inside
        rcases List.mem_append.mp inside with earlier | later
        · exact before tag earlier
        · exact lookup_eq_none.mp looked tag later
    | some tag =>
        rw [looked] at found
        have present : ∃ tag ∈ ((cur, node.value) :: rest).map Prod.snd, tag.tid = tid :=
          ⟨tag, of_lookup looked⟩
        have sizedRest : ∀ tag ∈ ((cur, node.value) :: rest).map Prod.snd,
            tag.data.length < 2 ^ 32 - 1 := by
          intro tag inside
          exact sized tag (tagsEq ▸ List.mem_append_right _ inside)
        have sharedAt : ∀ other, heap.node cur = some other → 1 < other.count := by
          intro other otherFound
          cases position.found.symm.trans otherFound
          exact shared
        obtain ⟨state, slot, last, lastNode, copied, lastPosition, lastTid, frame⟩ :=
          copyUntil_spec cursor before sharedAt present sizedRest restLength
        rw [List.map_append, List.map_cons, ← tagsEq] at lastPosition
        refine .inr ⟨false, state, slot, last, lastNode, ?_, lastPosition, lastTid, frame,
          .inr ⟨rfl, _, _, merged⟩⟩
        cases written : writer false state slot last with
        | none => simp [cowTraverse, merged, found, copied, written]
        | some result => simp [cowTraverse, merged, found, copied, written]

/-- `Remove` of a tag that is in the list. -/
theorem removeWriter_spec {state : State} {slot : Slot} {cur : Nat} {node : SharedNode Tag}
    {preMerge : Bool} (position : At state.1 state.2 others tid tags slot cur node)
    (single : preMerge = true → node.count = 1) :
    ∃ front rest result, tags = front ++ node.value :: rest ∧
      (∀ tag ∈ front, tag.tid ≠ tid) ∧
      removeWriter preMerge state slot cur = some (result, node.value) ∧
      Changes state.1 others (front ++ rest) result := by
  obtain ⟨front, rest, cursor, rfl, tagsEq, before⟩ := position.cursor
  cases preMerge with
  | true =>
      obtain ⟨after, frame⟩ := cursor.unlink position.found (single rfl) rfl
      refine ⟨_, _, _, tagsEq, before, by simp [removeWriter, position.found]; rfl, after.tree,
        ⟨_, after.whole, ?_⟩, frame⟩
      rw [List.map_append]
  | false =>
      obtain ⟨after, frame⟩ := cursor.unlinkShared position.found rfl
      refine ⟨_, _, _, tagsEq, before, by simp [removeWriter, position.found]; rfl, after.tree,
        ⟨_, after.whole, ?_⟩, frame⟩
      rw [List.map_append]

/-- `Replace` of a tag that is in the list, by one of the same size where the node
is not shared. -/
theorem replaceWriter_spec {state : State} {slot : Slot} {cur : Nat} {node : SharedNode Tag}
    {preMerge : Bool} {tag : Tag} (position : At state.1 state.2 others tag.tid tags slot cur node)
    (same : node.value.tid = tag.tid) (single : preMerge = true → node.count = 1)
    (sameSize : preMerge = true → node.value.data.length = tag.data.length)
    (small : tag.data.length < 2 ^ 32 - 1) :
    ∃ front rest result, tags = front ++ node.value :: rest ∧
      (∀ other ∈ front, other.tid ≠ tag.tid) ∧
      replaceWriter tag preMerge state slot cur = some (result, tag) ∧
      Changes state.1 others (front ++ tag :: rest) result := by
  obtain ⟨front, rest, cursor, rfl, tagsEq, before⟩ := position.cursor
  cases preMerge with
  | true =>
      have fits := (sameSize rfl).ge
      have dataEq : tag.data ++ node.value.data.drop tag.data.length = tag.data := by
        rw [List.drop_of_length_le (sameSize rfl).le, List.append_nil]
      obtain ⟨after, frame⟩ := @NodeHeap.Cursor.rewrite _ _ _ _ _ _ _ _ _ cursor position.found
        (single rfl) (fun node => { node with value := { node.value with data := tag.data } })
        (fun _ => rfl) fun _ => rfl
      have written : replaceWriter tag true state (slotAfter front) cur = some ((state.1.modify cur
          fun node => { node with value := { node.value with data := tag.data } }, state.2), tag) := by
        simp only [replaceWriter, position.found, Option.bind_eq_bind, Option.bind_some, if_true,
          if_pos fits, dataEq]
      refine ⟨_, _, _, tagsEq, before, written, after.tree, ⟨_, after.whole, ?_⟩, frame⟩
      rw [List.map_append, List.map_cons]
      exact congrArg (fun tag => _ ++ tag :: _) (congrArg (Tag.mk · tag.data) same)
  | false =>
      obtain ⟨after, frame⟩ := cursor.unshare position.found tag rfl
      refine ⟨_, _, _, tagsEq, before, ?_, after.tree, ⟨_, after.whole, ?_⟩, frame⟩
      · simp only [replaceWriter, position.found, Option.bind_eq_bind, Option.bind_some,
          Bool.false_eq_true, if_false, createTagData, if_pos small]
        rfl
      · simp

/-- The loop of `RemoveAll`: the nodes up to the first one that is shared are freed. -/
theorem removeAllFrom_spec {prev current : Option Nat}
    (tree : (freePrev heap prev).Tree (current ::ₘ others))
    (chain : (freePrev heap prev).Chain current cells) {fuel : Nat} (enough : cells.length < fuel) :
    ∃ after, removeAllFrom fuel heap prev current = some after ∧ after.Tree others ∧
      (freePrev heap prev).Frame after others := by
  induction cells generalizing heap prev current fuel with
  | nil =>
      cases chain
      cases fuel with
      | zero => exact absurd enough (Nat.not_lt_zero _)
      | succ fuel => exact ⟨_, rfl, NodeHeap.Tree.cons_none.mp tree, .refl _ _⟩
  | cons cell cells inductionHypothesis =>
      cases fuel with
      | zero => exact absurd enough (Nat.not_lt_zero _)
      | succ fuel =>
          cases chain with
          | @cons cur node _ found restChain =>
              have notPrev : ∀ address, prev = some address → address ≠ cur := by
                rintro address rfl rfl
                have freed : (freePrev heap (some address)).node address = none :=
                  Function.update_self _ _ _
                exact nomatch freed.symm.trans found
              have foundBefore : heap.node cur = some node := by
                cases prev with
                | none => exact found
                | some address =>
                    rw [← found]
                    exact (heap.free_node_of_ne (notPrev address rfl).symm).symm
              have dropEq : freePrev (heap.drop (some cur)) prev =
                  (freePrev heap prev).drop (some cur) := by
                cases prev with
                | none => rfl
                | some address => exact heap.free_modify_comm (notPrev address rfl) _
              have dropped := tree.drop
              have droppedFrame : (freePrev heap prev).Frame
                  ((freePrev heap prev).drop (some cur)) others := (NodeHeap.keeps_drop _).frame
              by_cases shared : node.count - 1 > 0
              · refine ⟨_, ?_, dropped, droppedFrame⟩
                simp only [removeAllFrom, foundBefore, Option.bind_eq_bind, Option.bind_some,
                  if_pos shared, dropEq]
              have unused : ((freePrev heap prev).drop (some cur)).node cur =
                  some { node with count := 0 } := by
                rw [NodeHeap.drop, NodeHeap.modify_node_self found,
                  Nat.eq_zero_of_not_pos shared]
              have outside : cur ∉ cells.map Prod.fst :=
                (List.nodup_cons.mp (NodeHeap.Chain.cons found restChain).nodup).1
              have freed := dropped.free unused rfl
              have freedChain : (((freePrev heap prev).drop (some cur)).free cur).Chain node.next
                  cells := (restChain.keep (NodeHeap.keeps_drop (some cur))).free outside
              have freedFrame : ((freePrev heap prev).drop (some cur)).Frame
                  (((freePrev heap prev).drop (some cur)).free cur) others :=
                fun other held otherCells otherChain => otherChain.free (dropped.unreached unused
                  rfl (Multiset.mem_add.mpr (.inl held)) otherChain)
              obtain ⟨after, result, afterTree, afterFrame⟩ :=
                @inductionHypothesis ((freePrev heap prev).drop (some cur)) (some cur) node.next
                  freed freedChain fuel (Nat.lt_of_succ_lt_succ enough)
              refine ⟨after, ?_, afterTree, droppedFrame.trans (freedFrame.trans afterFrame)⟩
              simp only [removeAllFrom, foundBefore, Option.bind_eq_bind, Option.bind_some,
                if_neg shared, dropEq]
              exact result

theorem removeAll_spec (tree : heap.Tree (self ::ₘ others)) (chain : heap.Chain self cells) :
    ∃ after, removeAll heap self = some (after, none) ∧ after.Tree others ∧
      heap.Frame after others := by
  obtain ⟨after, result, afterTree, frame⟩ := @removeAllFrom_spec heap others cells none self tree
    chain (heap.fresh + 1) (Nat.lt_succ_of_le (tree.length_le chain))
  exact ⟨after, by simp [removeAll, result], afterTree, frame⟩

/-- The tags of a list as a map, and what the code relies on about them. -/
structure Represents (tags : List Tag) (map : Nat → Option (List UInt8)) : Prop where
  distinct : (tags.map Tag.tid).Nodup
  sized : ∀ tag ∈ tags, tag.data.length < 2 ^ 32 - 1
  meaning : ∀ tid, (lookup tags tid).map Tag.data = map tid

theorem Represents.nil : Represents [] fun _ => none :=
  ⟨List.nodup_nil, fun _ inside => absurd inside List.not_mem_nil, fun _ => rfl⟩

variable {map : Nat → Option (List UInt8)}

theorem Represents.add (represents : Represents tags map) {tag : Tag}
    (absent : lookup tags tag.tid = none) (small : tag.data.length < 2 ^ 32 - 1) :
    Represents (tag :: tags) (Function.update map tag.tid (some tag.data)) := by
  refine ⟨?_, ?_, fun tid => ?_⟩
  · refine List.nodup_cons.mpr ⟨fun inside => ?_, represents.distinct⟩
    obtain ⟨other, otherInside, same⟩ := List.mem_map.mp inside
    exact lookup_eq_none.mp absent other otherInside same
  · intro other inside
    rcases List.mem_cons.mp inside with rfl | before
    · exact small
    · exact represents.sized other before
  · by_cases same : tag.tid = tid
    · subst same
      simp [lookup]
    · have kept : lookup (tag :: tags) tid = lookup tags tid := by simp [lookup, same]
      rw [Function.update_of_ne (Ne.symm same), kept, represents.meaning]

variable {front rest : List Tag} {old : Tag}

theorem lookup_split (before : ∀ tag ∈ front, tag.tid ≠ old.tid) :
    lookup (front ++ old :: rest) old.tid = some old := by
  have none : front.find? (fun tag => tag.tid = old.tid) = none := lookup_eq_none.mpr before
  simp [lookup, none]

theorem Represents.remove (represents : Represents (front ++ old :: rest) map) :
    Represents (front ++ rest) (Function.update map old.tid none) := by
  have distinct := represents.distinct
  rw [List.map_append, List.map_cons] at distinct
  have apart := List.nodup_middle.mp distinct
  rw [← List.map_append, List.nodup_cons] at apart
  refine ⟨apart.2, fun tag inside => represents.sized tag ?_, fun tid => ?_⟩
  · rcases List.mem_append.mp inside with before | after
    · exact List.mem_append_left _ before
    · exact List.mem_append_right _ (List.mem_cons_of_mem _ after)
  · by_cases same : old.tid = tid
    · subst same
      have gone : lookup (front ++ rest) old.tid = none :=
        lookup_eq_none.mpr fun tag inside sameTid =>
          apart.1 (sameTid ▸ List.mem_map_of_mem inside)
      rw [gone, Function.update_self]
      rfl
    · have kept : lookup (front ++ rest) tid = lookup (front ++ old :: rest) tid := by
        simp [lookup, List.find?_append, same]
      rw [kept, Function.update_of_ne (Ne.symm same), represents.meaning]

theorem Represents.replace (represents : Represents (front ++ old :: rest) map) {tag : Tag}
    (same : old.tid = tag.tid) (small : tag.data.length < 2 ^ 32 - 1) :
    Represents (front ++ tag :: rest) (Function.update map tag.tid (some tag.data)) := by
  have distinct := represents.distinct
  rw [List.map_append, List.map_cons, same] at distinct
  refine ⟨by rw [List.map_append, List.map_cons]; exact distinct, ?_, fun tid => ?_⟩
  · intro other inside
    rcases List.mem_append.mp inside with before | after
    · exact represents.sized other (List.mem_append_left _ before)
    · rcases List.mem_cons.mp after with rfl | later
      · exact small
      · exact represents.sized other (List.mem_append_right _ (List.mem_cons_of_mem _ later))
  · by_cases here : tag.tid = tid
    · subst here
      rw [lookup_split fun other inside sameTid => ?_, Function.update_self]
      · rfl
      · exact List.disjoint_of_nodup_append distinct (List.mem_map_of_mem inside)
          (sameTid ▸ List.mem_cons_self)
    · have kept : lookup (front ++ tag :: rest) tid = lookup (front ++ old :: rest) tid := by
        simp [lookup, List.find?_append, here, same]
      rw [kept, Function.update_of_ne (Ne.symm here), represents.meaning]

/-- The list stands for the map, and the others are as they were. -/
structure Updates (heap : TagHeap) (others : Multiset (Option Nat))
    (map : Nat → Option (List UInt8)) (state : State) : Prop where
  tree : state.1.Tree (state.2 ::ₘ others)
  chain : ∃ cells, state.1.Chain state.2 cells ∧ Represents (cells.map Prod.snd) map
  frame : heap.Frame state.1 others

theorem Changes.updates {state : State} (changes : Changes heap others tags state)
    (represents : Represents tags map) : Updates heap others map state := by
  obtain ⟨cells, chain, rfl⟩ := changes.chain
  exact ⟨changes.tree, ⟨cells, chain, represents⟩, changes.frame⟩

theorem add_spec (tree : heap.Tree (self ::ₘ others)) (chain : heap.Chain self cells)
    (represents : Represents (cells.map Prod.snd) map) {tag : Tag} (absent : map tag.tid = none)
    (small : tag.data.length < 2 ^ 32 - 1) :
    ∃ state, add heap self tag = some state ∧
      Updates heap others (Function.update map tag.tid (some tag.data)) state := by
  have none : lookup (cells.map Prod.snd) tag.tid = none := by
    rw [← represents.meaning] at absent
    exact Option.map_eq_none_iff.mp absent
  have keeps := tree.keeps_allocate ⟨self, 1, tag⟩
  have newNode : (heap.allocate ⟨self, 1, tag⟩).node heap.fresh = some ⟨self, 1, tag⟩ :=
    Function.update_self _ _ _
  refine ⟨(heap.allocate ⟨self, 1, tag⟩, some heap.fresh), ?_, tree.allocate tag,
    ⟨_, .cons newNode (chain.keep keeps), represents.add none small⟩, keeps.frame⟩
  have created : createTagData heap self tag =
      some (heap.fresh, heap.allocate ⟨self, 1, tag⟩) := if_pos small
  simp [add, peek_eq tree chain, none, created]

theorem remove_spec (tree : heap.Tree (self ::ₘ others)) (chain : heap.Chain self cells)
    (represents : Represents (cells.map Prod.snd) map) (tid : Nat) :
    ∃ state, remove heap self tid = some (state, lookup (cells.map Prod.snd) tid) ∧
      Updates heap others (Function.update map tid none) state := by
  rcases cowTraverse_spec removeWriter tree chain represents.sized with
    ⟨result, absent⟩ | ⟨preMerge, state, slot, cur, node, result, position, same, frame, cases⟩
  · have none := lookup_eq_none.mpr absent
    refine ⟨(heap, self), by rw [none]; exact result, tree, ⟨cells, chain, ?_⟩, .refl _ _⟩
    have unchanged : Function.update map tid Option.none = map := by
      rw [Function.update_eq_self_iff, ← represents.meaning, none]
      rfl
    rw [unchanged]
    exact represents
  · have single : preMerge = true → node.count = 1 := by
      rintro rfl
      rcases cases with ⟨_, _, single, _⟩ | ⟨impossible, _⟩
      · exact single
      · exact nomatch impossible
    obtain ⟨front, rest, written, tagsEq, before, writes, changes⟩ :=
      removeWriter_spec position single
    subst same
    rw [tagsEq] at represents
    have updates := changes.updates represents.remove
    refine ⟨written, ?_, updates.tree, updates.chain, frame.trans updates.frame⟩
    rw [tagsEq, lookup_split before]
    exact result.trans (by rw [writes]; rfl)

/-- `ReplaceWriter` rewrites a node whose buffer has another size than the tag. -/
def Resizes (heap : TagHeap) (self : PacketTagList) (tag : Tag) : Prop :=
  match search heap tag.tid (heap.fresh + 1) .head self with
  | some (.reached _ cur) =>
      (heap.node cur).any fun node => node.value.data.length ≠ tag.data.length
  | _ => False

instance (heap : TagHeap) (self : PacketTagList) (tag : Tag) : Decidable (Resizes heap self tag) := by
  unfold Resizes
  split <;> infer_instance

theorem replace_spec (tree : heap.Tree (self ::ₘ others)) (chain : heap.Chain self cells)
    (represents : Represents (cells.map Prod.snd) map) {tag : Tag}
    (small : tag.data.length < 2 ^ 32 - 1) (sameSize : ¬ Resizes heap self tag) :
    ∃ state, replace heap self tag = some (state, (map tag.tid).isSome) ∧
      Updates heap others (Function.update map tag.tid (some tag.data)) state := by
  rcases cowTraverse_spec (replaceWriter tag) tree chain represents.sized with
    ⟨result, absent⟩ | ⟨preMerge, state, slot, cur, node, result, position, same, frame, cases⟩
  · have none : map tag.tid = none := by
      rw [← represents.meaning, lookup_eq_none.mpr absent]
      rfl
    obtain ⟨state, added, updates⟩ := add_spec tree chain represents none small
    exact ⟨state, by simp [replace, result, added, none], updates⟩
  · have single : preMerge = true → node.count = 1 ∧
        node.value.data.length = tag.data.length := by
      rintro rfl
      rcases cases with ⟨_, rfl, single, reached⟩ | ⟨impossible, _⟩
      · refine ⟨single, by_contra fun different => sameSize ?_⟩
        have found : heap.node cur = some node := position.found
        simp [Resizes, reached, found, different]
      · exact nomatch impossible
    obtain ⟨front, rest, written, tagsEq, before, writes, changes⟩ :=
      replaceWriter_spec position same (fun pre => (single pre).1) (fun pre => (single pre).2) small
    rw [tagsEq] at represents
    have updates := changes.updates (represents.replace same small)
    have present : (map tag.tid).isSome = true := by
      rw [← represents.meaning, ← same, lookup_split (same ▸ before)]
      rfl
    refine ⟨written, ?_, updates.tree, updates.chain, frame.trans updates.frame⟩
    rw [present]
    simp [replace, result, writes]

/-- `Replace` finds the tag, and a later `Peek` returns its new value. -/
def ReadsBack (heap : TagHeap) (self : PacketTagList) (tag : Tag) : Prop :=
  ∃ state, replace heap self tag = some (state, true) ∧
    peek state.1 state.2 tag.tid = some (some tag)

/-- The old value, as far as it is longer, stays behind the new one. -/
theorem replace_of_resizes (tree : heap.Tree (self ::ₘ others)) (chain : heap.Chain self cells)
    {tag : Tag} (resizes : Resizes heap self tag) : ¬ ReadsBack heap self tag := by
  rintro ⟨state, replaced, peeked⟩
  have enough := Nat.lt_succ_of_le (tree.length_le chain)
  rcases search_spec tag.tid (tree.cursor chain) (by simp) enough with
    ⟨ended, _⟩ | ⟨slot, cur, node, position, ⟨reached, single, same⟩ | ⟨merged, _⟩⟩
  · change search heap tag.tid (heap.fresh + 1) .head self = _ at ended
    simp [Resizes, ended] at resizes
  · change search heap tag.tid (heap.fresh + 1) .head self = _ at reached
    have different : node.value.data.length ≠ tag.data.length := by
      simpa [Resizes, reached, position.found] using resizes
    obtain ⟨front, rest, cursor, rfl, _, before⟩ := position.cursor
    by_cases fits : tag.data.length ≤ node.value.data.length
    · have longer : tag.data.length ≠ (tag.data ++ node.value.data.drop tag.data.length).length := by
        rw [List.length_append, List.length_drop]
        omega
      have found : heap.node cur = some node := position.found
      simp only [replace, cowTraverse, reached, replaceWriter, found, fits, Option.bind_eq_bind,
        Option.bind_some, if_true, Option.some.injEq, Prod.mk.injEq, and_true] at replaced
      rw [← replaced] at peeked
      generalize tag.data ++ node.value.data.drop tag.data.length = data at longer peeked
      obtain ⟨after, _⟩ := @NodeHeap.Cursor.rewrite _ _ _ _ _ _ _ _ _ cursor found single
        (fun node => { node with value := { node.value with data } }) (fun _ => rfl) fun _ => rfl
      rw [peek_eq after.tree after.whole, List.map_append, List.map_cons, ← same,
        @lookup_split _ _ ⟨node.value.tid, data⟩ (same ▸ before)] at peeked
      exact longer (congrArg List.length (congrArg Tag.data
        (Option.some.inj (Option.some.inj peeked)))).symm
    · simp [replace, cowTraverse, reached, replaceWriter, position.found, fits] at replaced
  · change search heap tag.tid (heap.fresh + 1) .head self = _ at merged
    simp [Resizes, merged] at resizes

theorem readsBack_iff (tree : heap.Tree (self ::ₘ others)) (chain : heap.Chain self cells)
    (represents : Represents (cells.map Prod.snd) map) {tag : Tag}
    (present : (map tag.tid).isSome) (small : tag.data.length < 2 ^ 32 - 1) :
    ReadsBack heap self tag ↔ ¬ Resizes heap self tag := by
  constructor
  · exact fun readsBack resizes => replace_of_resizes tree chain resizes readsBack
  · intro sameSize
    obtain ⟨state, replaced, updates⟩ := replace_spec tree chain represents small sameSize
    obtain ⟨after, afterChain, afterRepresents⟩ := updates.chain
    rw [present] at replaced
    refine ⟨state, replaced, ?_⟩
    have meaning := afterRepresents.meaning tag.tid
    rw [Function.update_self] at meaning
    obtain ⟨found, looked, dataEq⟩ := Option.map_eq_some_iff.mp meaning
    rw [peek_eq updates.tree afterChain, looked]
    exact congrArg (some ∘ some) (congrArg₂ Tag.mk (of_lookup looked).2 dataEq)

end PacketTagList

end Ns3.Network
