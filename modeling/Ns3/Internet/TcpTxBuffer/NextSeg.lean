import Ns3.Internet.TcpTxBuffer.Accounting

/-!
`NextSeg`: the next segment to send, after RFC 6675.

The loop goes over the sent list once and saves what rule 3 would return. A sequence
number of zero counts as nothing saved.
-/

namespace Ns3.Internet

open Library Network SequenceSpace

namespace TcpTxItem

/-- The item was neither sacked nor sent again. -/
def outstanding (item : TcpTxItem) : Bool := ! item.retrans && ! item.sacked

end TcpTxItem

namespace TcpTxBuffer

/-- The loop of `NextSeg`: the sequence number for rule 1, or else `seqPerRule3` and
`isSeqPerRule3Valid`. -/
def nextSegLoop (isRecovery : Bool) :
    List TcpTxItem → SequenceNumber32 → SequenceNumber32 → Bool →
      SequenceNumber32 ⊕ (SequenceNumber32 × Bool)
  | [], _, seqPerRule3, isSeqPerRule3Valid => .inr (seqPerRule3, isSeqPerRule3Valid)
  | item :: rest, beginOfCurrentPkt, seqPerRule3, isSeqPerRule3Valid =>
      let next := SequenceSpace.add beginOfCurrentPkt item.packet.length
      if item.retrans = false ∧ item.sacked = false then
        if item.lost then .inl beginOfCurrentPkt
        else if seqPerRule3.value = 0 ∧ isRecovery then
          nextSegLoop isRecovery rest next beginOfCurrentPkt true
        else nextSegLoop isRecovery rest next seqPerRule3 isSeqPerRule3Valid
      else nextSegLoop isRecovery rest next seqPerRule3 isSeqPerRule3Valid

/-- `NextSeg`, with `m_segmentSize` and what `m_rWndCallback` returns: `seq` and `seqHigh`, or
nothing for `false`. -/
def nextSeg (self : TcpTxBuffer) (segmentSize rWnd : Nat) (isRecovery : Bool) :
    Option (SequenceNumber32 × SequenceNumber32) :=
  match nextSegLoop isRecovery self.sentList self.firstByteSeq (SequenceNumber32.ofNat 0) false with
  | .inl seq => some (seq, SequenceSpace.add seq segmentSize)
  | .inr (seqPerRule3, isSeqPerRule3Valid) =>
      let endOfSentList := SequenceSpace.add self.firstByteSeq self.sentSize
      if self.sizeFromSequence endOfSentList > 0 then
        if self.sentSize ≤ rWnd then
          some (endOfSentList,
            SequenceSpace.add endOfSentList (min segmentSize (wrapSub 32 rWnd self.sentSize)))
        else none
      else if isSeqPerRule3Valid then
        some (seqPerRule3, SequenceSpace.add seqPerRule3 segmentSize)
      else none

/-- Rule 1: the first lost segment that is neither sacked nor sent again. -/
def firstLost (self : TcpTxBuffer) : Option SequenceNumber32 :=
  (self.sentList.find? fun item => item.outstanding && item.lost).map TcpTxItem.startSeq

/-- Rule 2: the first byte that was not sent, if there is one and the window has room. -/
def nextUnsent (self : TcpTxBuffer) (rWnd : Nat) : Option SequenceNumber32 :=
  if self.appList ≠ [] ∧ self.sentSize < rWnd then
    some (SequenceSpace.add self.firstByteSeq self.sentSize)
  else none

/-- Rule 3: in recovery, the first segment that is neither sacked nor sent again. -/
def firstOutstanding (self : TcpTxBuffer) (isRecovery : Bool) : Option SequenceNumber32 :=
  if isRecovery then (self.sentList.find? TcpTxItem.outstanding).map TcpTxItem.startSeq else none

/-- Where the rules say that the next segment starts. -/
def nextByRules (self : TcpTxBuffer) (rWnd : Nat) (isRecovery : Bool) : Option SequenceNumber32 :=
  (self.firstLost.or (self.nextUnsent rWnd)).or (self.firstOutstanding isRecovery)

/-- The result starts where the rules say, and its range is not empty. -/
structure FollowsRules (buffer : TcpTxBuffer) (rWnd : Nat) (isRecovery : Bool)
    (result : Option (SequenceNumber32 × SequenceNumber32)) : Prop where
  start : result.map Prod.fst = buffer.nextByRules rWnd isRecovery
  nonEmpty : ∀ range ∈ result, 0 < sub range.2 range.1

/-- `SizeFromSequence` sees the data that was not sent. -/
def SeesUnsent (self : TcpTxBuffer) : Prop :=
  self.sizeFromSequence (SequenceSpace.add self.firstByteSeq self.sentSize) > 0

/-- The calls of `NextSeg` that go wrong nowhere. The window is not just full, or closed while
rule 3 has a segment; unsent data is seen; and what rule 3 saved first is still
saved at the end. -/
inductive Unspoiled (buffer : TcpTxBuffer) (segmentSize rWnd : Nat) (isRecovery : Bool) : Prop
  | lost (found : buffer.firstLost ≠ none) (some : segmentSize ≠ 0)
  | unsent (noLost : buffer.firstLost = none) (seen : buffer.SeesUnsent)
      (room : buffer.sentSize < rWnd) (some : segmentSize ≠ 0)
  | closed (noLost : buffer.firstLost = none) (seen : buffer.SeesUnsent)
      (full : rWnd < buffer.sentSize) (nothing : buffer.firstOutstanding isRecovery = none)
  | outstanding (noLost : buffer.firstLost = none) (unseen : ¬ buffer.SeesUnsent)
      (noUnsent : buffer.nextUnsent rWnd = none)
      (sized : buffer.firstOutstanding isRecovery ≠ none → segmentSize ≠ 0)
      (kept : buffer.firstOutstanding isRecovery = some (SequenceNumber32.ofNat 0) →
        (buffer.sentList.filter TcpTxItem.outstanding).length = 1)

section

variable {isRecovery isSeqPerRule3Valid : Bool} {begin seqPerRule3 : SequenceNumber32}
  {list : List TcpTxItem} {item : TcpTxItem}

theorem outstanding_iff :
    item.outstanding = true ↔ item.retrans = false ∧ item.sacked = false := by
  simp [TcpTxItem.outstanding]

theorem nextSegLoop_lost (consecutive : Consecutive begin list)
    (found : list.find? (fun item => item.outstanding && item.lost) = some item) :
    nextSegLoop isRecovery list begin seqPerRule3 isSeqPerRule3Valid = .inl item.startSeq := by
  induction list generalizing begin seqPerRule3 isSeqPerRule3Valid with
  | nil => exact nomatch found
  | cons first rest inductionHypothesis =>
      obtain ⟨starts, follows⟩ := consecutive
      rw [nextSegLoop]
      rw [List.find?_cons] at found
      cases candidate : first.outstanding with
      | false =>
          simp only [candidate, Bool.false_and] at found
          rw [if_neg (mt outstanding_iff.mpr (by simp [candidate]))]
          exact inductionHypothesis follows found
      | true =>
          rw [if_pos (outstanding_iff.mp candidate)]
          cases lost : first.lost with
          | true =>
              simp only [candidate, lost, Bool.and_self] at found
              cases found
              rw [if_pos rfl, starts]
          | false =>
              simp only [candidate, lost, Bool.and_false] at found
              rw [if_neg Bool.false_ne_true]
              split
              · exact inductionHypothesis follows found
              · exact inductionHypothesis follows found

/-- What the loop saves for rule 3 when it comes to an outstanding segment. -/
def saveRule3 (isRecovery : Bool) (saved : SequenceNumber32 × Bool) (item : TcpTxItem) :
    SequenceNumber32 × Bool :=
  if saved.1.value = 0 ∧ isRecovery then (item.startSeq, true) else saved

/-- Without a lost segment, the loop saves each outstanding one in turn. -/
theorem nextSegLoop_saved (consecutive : Consecutive begin list)
    (noLost : list.find? (fun item => item.outstanding && item.lost) = none) :
    nextSegLoop isRecovery list begin seqPerRule3 isSeqPerRule3Valid =
      .inr ((list.filter TcpTxItem.outstanding).foldl (saveRule3 isRecovery)
        (seqPerRule3, isSeqPerRule3Valid)) := by
  induction list generalizing begin seqPerRule3 isSeqPerRule3Valid with
  | nil => rfl
  | cons first rest inductionHypothesis =>
      obtain ⟨starts, follows⟩ := consecutive
      rw [nextSegLoop]
      rw [List.find?_cons] at noLost
      cases candidate : first.outstanding with
      | false =>
          simp only [candidate, Bool.false_and] at noLost
          rw [if_neg (mt outstanding_iff.mpr (by simp [candidate])),
            List.filter_cons_of_neg (by simp [candidate])]
          exact inductionHypothesis follows noLost
      | true =>
          rw [if_pos (outstanding_iff.mp candidate), List.filter_cons_of_pos candidate,
            List.foldl_cons, saveRule3, starts]
          cases lost : first.lost with
          | true => simp [candidate, lost] at noLost
          | false =>
              simp only [candidate, lost, Bool.and_false] at noLost
              rw [if_neg Bool.false_ne_true]
              split
              · exact inductionHypothesis follows noLost
              · exact inductionHypothesis follows noLost

/-- A sequence number other than zero stays saved. -/
theorem foldl_saveRule3 {saved : SequenceNumber32 × Bool} (list : List TcpTxItem)
    (kept : saved.1.value ≠ 0 ∨ isRecovery = false) :
    list.foldl (saveRule3 isRecovery) saved = saved := by
  induction list with
  | nil => rfl
  | cons item rest inductionHypothesis =>
      have same : saveRule3 isRecovery saved item = saved := by
        unfold saveRule3
        rw [if_neg]
        rintro ⟨zero, recovery⟩
        rcases kept with notZero | noRecovery
        · exact notZero zero
        · exact absurd recovery (by simp [noRecovery])
      rw [List.foldl_cons, same, inductionHypothesis]

/-- Where the items of a list start. -/
theorem Consecutive.startSeq_eq (consecutive : Consecutive begin list) (filled : Filled list)
    (member : item ∈ list) :
    ∃ position, position < (bytes list).length ∧
      item.startSeq = SequenceSpace.add begin position := by
  induction list generalizing begin with
  | nil => exact nomatch member
  | cons first rest inductionHypothesis =>
      obtain ⟨starts, follows⟩ := consecutive
      have some := List.length_pos_iff.mpr (filled first List.mem_cons_self)
      rw [bytes_cons, List.length_append]
      rcases List.mem_cons.mp member with rfl | later
      · exact ⟨0, by omega, starts.trans (SequenceNumber32.add_zero begin).symm⟩
      · obtain ⟨position, inside, starts⟩ := inductionHypothesis follows
          (fun other member => filled other (List.mem_cons_of_mem first member)) later
        refine ⟨first.packet.length + position, by omega, ?_⟩
        rw [starts, SequenceNumber32.add_add]

/-- Two items of a list do not start at the same sequence number. -/
theorem Consecutive.pairwise (consecutive : Consecutive begin list) (filled : Filled list)
    (fits : (bytes list).length < 2 ^ 32) :
    list.Pairwise fun item other => item.startSeq ≠ other.startSeq := by
  induction list generalizing begin with
  | nil => exact List.Pairwise.nil
  | cons first rest inductionHypothesis =>
      obtain ⟨starts, follows⟩ := consecutive
      have some := List.length_pos_iff.mpr (filled first List.mem_cons_self)
      have restFilled : Filled rest := fun other member =>
        filled other (List.mem_cons_of_mem first member)
      rw [bytes_cons, List.length_append] at fits
      refine List.pairwise_cons.mpr
        ⟨fun other member same => ?_, inductionHypothesis follows restFilled (by omega)⟩
      obtain ⟨position, inside, later⟩ := follows.startSeq_eq restFilled member
      rw [starts, later, SequenceNumber32.add_add] at same
      have none := SequenceNumber32.add_injective begin (m := 0) (by decide) (by omega)
        ((SequenceNumber32.add_zero begin).trans same)
      omega

end

variable {self : TcpTxBuffer} {content : List UInt8} {segmentSize rWnd : Nat} {isRecovery : Bool}

/-- What the loop has saved in the end. -/
def saved (self : TcpTxBuffer) (isRecovery : Bool) : SequenceNumber32 × Bool :=
  (self.sentList.filter TcpTxItem.outstanding).foldl (saveRule3 isRecovery)
    (SequenceNumber32.ofNat 0, false)

theorem saved_none (nothing : self.firstOutstanding isRecovery = none) :
    self.saved isRecovery = (SequenceNumber32.ofNat 0, false) := by
  unfold firstOutstanding at nothing
  unfold saved
  cases isRecovery with
  | false => exact foldl_saveRule3 _ (.inr rfl)
  | true =>
      rw [if_pos rfl, Option.map_eq_none_iff, ← List.head?_filter, List.head?_eq_none_iff]
        at nothing
      rw [nothing]
      rfl

theorem value_ne_zero {seq : SequenceNumber32} (notZero : seq ≠ SequenceNumber32.ofNat 0) :
    seq.value ≠ 0 := fun zero => notZero (SequenceNumber32.ext_value zero)

/-- The first outstanding segment stays saved, unless it starts at zero and is not the only
one. -/
theorem Coherent.saved_some (coherent : Coherent content self) {seq : SequenceNumber32}
    (found : self.firstOutstanding isRecovery = some seq) :
    (self.saved isRecovery).2 = true ∧
      (∃ item ∈ self.sentList, item.startSeq = (self.saved isRecovery).1) ∧
      ((self.saved isRecovery).1 = seq ↔ (seq = SequenceNumber32.ofNat 0 →
        (self.sentList.filter TcpTxItem.outstanding).length = 1)) := by
  unfold firstOutstanding at found
  cases isRecovery with
  | false => exact nomatch found
  | true =>
      rw [if_pos rfl, ← List.head?_filter] at found
      obtain ⟨first, isFirst, rfl⟩ := Option.map_eq_some_iff.mp found
      have apart := (coherent.consecutive.pairwise coherent.sentFilled coherent.small).filter
        TcpTxItem.outstanding
      have members : ∀ item ∈ self.sentList.filter TcpTxItem.outstanding, item ∈ self.sentList :=
        fun item member => (List.mem_filter.mp member).1
      unfold saved
      cases candidates : self.sentList.filter TcpTxItem.outstanding with
      | nil =>
          rw [candidates] at isFirst
          exact nomatch isFirst
      | cons head others =>
          rw [candidates] at isFirst apart members
          cases isFirst
          have once : saveRule3 true (SequenceNumber32.ofNat 0, false) first =
              (first.startSeq, true) := rfl
          rw [List.foldl_cons, once]
          by_cases zero : first.startSeq = SequenceNumber32.ofNat 0
          · cases others with
            | nil => exact ⟨rfl, ⟨first, members first List.mem_cons_self, rfl⟩, by simp⟩
            | cons second others =>
                -- The first one counts as not saved, and the second one takes its place.
                have different := (List.pairwise_cons.mp apart).1 second List.mem_cons_self
                have twice : saveRule3 true (first.startSeq, true) second =
                    (second.startSeq, true) := by
                  rw [zero]
                  rfl
                have notZero : second.startSeq ≠ SequenceNumber32.ofNat 0 := fun alsoZero =>
                  different (zero.trans alsoZero.symm)
                rw [List.foldl_cons, twice, foldl_saveRule3 _ (.inl (value_ne_zero notZero))]
                refine ⟨rfl, ⟨second, members second (by simp), rfl⟩,
                  fun same => absurd same.symm different, fun only => ?_⟩
                have one := only zero
                simp at one
          · rw [foldl_saveRule3 _ (.inl (value_ne_zero zero))]
            exact ⟨rfl, ⟨first, members first List.mem_cons_self, rfl⟩,
              fun _ isZero => absurd isZero zero, fun _ => rfl⟩

/-- What `NextSeg` returns if nothing is lost. -/
theorem Coherent.nextSeg_noLost (coherent : Coherent content self)
    (noLost : self.firstLost = none) :
    self.nextSeg segmentSize rWnd isRecovery =
      if self.sizeFromSequence (SequenceSpace.add self.firstByteSeq self.sentSize) > 0 then
        if self.sentSize ≤ rWnd then
          some (SequenceSpace.add self.firstByteSeq self.sentSize,
            SequenceSpace.add (SequenceSpace.add self.firstByteSeq self.sentSize)
              (min segmentSize (wrapSub 32 rWnd self.sentSize)))
        else none
      else if (self.saved isRecovery).2 then
        some ((self.saved isRecovery).1,
          SequenceSpace.add (self.saved isRecovery).1 segmentSize)
      else none := by
  have loop := @nextSegLoop_saved isRecovery false self.firstByteSeq (SequenceNumber32.ofNat 0)
    self.sentList coherent.consecutive (Option.map_eq_none_iff.mp noLost)
  unfold nextSeg
  rw [loop]
  rfl

theorem Coherent.nextSeg_lost (coherent : Coherent content self) {seq : SequenceNumber32}
    (lost : self.firstLost = some seq) :
    self.nextSeg segmentSize rWnd isRecovery =
      some (seq, SequenceSpace.add seq segmentSize) := by
  obtain ⟨item, found, rfl⟩ := Option.map_eq_some_iff.mp lost
  have loop := @nextSegLoop_lost isRecovery false self.firstByteSeq (SequenceNumber32.ofNat 0)
    self.sentList item coherent.consecutive found
  unfold nextSeg
  rw [loop]

/-- The end of the sent list is not the start of an item. -/
theorem Coherent.startSeq_ne (coherent : Coherent content self) {item : TcpTxItem}
    (member : item ∈ self.sentList) :
    item.startSeq ≠ SequenceSpace.add self.firstByteSeq self.sentSize := by
  intro same
  have small := coherent.small
  obtain ⟨position, inside, starts⟩ :=
    coherent.consecutive.startSeq_eq coherent.sentFilled member
  rw [starts, coherent.sentSize] at same
  have equal := SequenceNumber32.add_injective self.firstByteSeq (by omega) small same
  omega

/-- Data that `SizeFromSequence` sees is in the list of the application. -/
theorem Coherent.appList_ne_nil (coherent : Coherent content self) (seen : self.SeesUnsent) :
    self.appList ≠ [] := by
  intro none
  have total := coherent.sent_le
  have sentSize := coherent.sentSize
  rw [none, bytes_nil, List.length_nil] at total
  have atEnd : self.sentSize = self.size := by omega
  unfold SeesUnsent sizeFromSequence tailSequence at seen
  rw [atEnd] at seen
  split at seen
  · rw [← SequenceNumber32.sub_add (SequenceSpace.add self.firstByteSeq self.size)
      (Nat.two_pow_pos 32), SequenceNumber32.add_zero] at seen
    omega
  · omega

theorem followsRules_none :
    FollowsRules self rWnd isRecovery none ↔ self.nextByRules rWnd isRecovery = none :=
  ⟨fun follows => follows.start.symm, fun nothing => ⟨nothing.symm, nofun⟩⟩

theorem followsRules_some {seq : SequenceNumber32} {length : Nat} (small : length < 2 ^ 32) :
    FollowsRules self rWnd isRecovery (some (seq, SequenceSpace.add seq length)) ↔
      self.nextByRules rWnd isRecovery = some seq ∧ length ≠ 0 := by
  have size := SequenceNumber32.sub_add seq small
  constructor
  · intro follows
    have positive := follows.nonEmpty _ rfl
    rw [size] at positive
    exact ⟨follows.start.symm, Nat.pos_iff_ne_zero.mp positive⟩
  · rintro ⟨starts, notEmpty⟩
    refine ⟨starts.symm, fun range isRange => ?_⟩
    cases isRange
    rw [size]
    exact Nat.pos_of_ne_zero notEmpty

theorem nextByRules_noLost (noLost : self.firstLost = none) :
    self.nextByRules rWnd isRecovery =
      (self.nextUnsent rWnd).or (self.firstOutstanding isRecovery) := by
  rw [nextByRules, noLost, Option.none_or]

theorem Coherent.followsRules_lost (coherent : Coherent content self)
    (segmentFits : segmentSize < 2 ^ 32) (found : self.firstLost ≠ none) :
    FollowsRules self rWnd isRecovery (self.nextSeg segmentSize rWnd isRecovery) ↔
      Unspoiled self segmentSize rWnd isRecovery := by
  obtain ⟨seq, lost⟩ := Option.ne_none_iff_exists'.mp found
  have rules : self.nextByRules rWnd isRecovery = some seq := by
    rw [nextByRules, lost, Option.some_or, Option.some_or]
  rw [coherent.nextSeg_lost lost, followsRules_some segmentFits]
  constructor
  · exact fun follows => .lost found follows.2
  · rintro (⟨-, some⟩ | ⟨noLost⟩ | ⟨noLost⟩ | ⟨noLost⟩)
    · exact ⟨rules, some⟩
    · exact absurd noLost found
    · exact absurd noLost found
    · exact absurd noLost found

theorem Coherent.followsRules_seen (coherent : Coherent content self)
    (segmentFits : segmentSize < 2 ^ 32) (windowFits : rWnd < 2 ^ 32)
    (noLost : self.firstLost = none) (seen : self.SeesUnsent) :
    FollowsRules self rWnd isRecovery (self.nextSeg segmentSize rWnd isRecovery) ↔
      Unspoiled self segmentSize rWnd isRecovery := by
  have app := coherent.appList_ne_nil seen
  have some := seen
  unfold SeesUnsent at some
  rw [coherent.nextSeg_noLost noLost, if_pos some]
  split
  next opened =>
    have room : wrapSub 32 rWnd self.sentSize = rWnd - self.sentSize :=
      wrapSub_of_le opened windowFits
    rw [room, followsRules_some (by omega), nextByRules_noLost noLost]
    constructor
    · rintro ⟨-, notEmpty⟩
      exact .unsent noLost seen (by omega) (by omega)
    · rintro (⟨found⟩ | ⟨-, -, strictly, some⟩ | ⟨-, -, full⟩ | ⟨-, unseen⟩)
      · exact absurd noLost found
      · refine ⟨?_, by omega⟩
        rw [nextUnsent, if_pos ⟨app, strictly⟩, Option.some_or]
      · omega
      · exact absurd seen unseen
  next closed =>
    have noUnsent : self.nextUnsent rWnd = none := if_neg fun both => by omega
    rw [followsRules_none, nextByRules_noLost noLost, noUnsent, Option.none_or]
    constructor
    · exact fun nothing => .closed noLost seen (by omega) nothing
    · rintro (⟨found⟩ | ⟨-, -, strictly⟩ | ⟨-, -, -, nothing⟩ | ⟨-, unseen⟩)
      · exact absurd noLost found
      · omega
      · exact nothing
      · exact absurd seen unseen

theorem Coherent.followsRules_unseen (coherent : Coherent content self)
    (segmentFits : segmentSize < 2 ^ 32) (noLost : self.firstLost = none)
    (unseen : ¬ self.SeesUnsent) :
    FollowsRules self rWnd isRecovery (self.nextSeg segmentSize rWnd isRecovery) ↔
      Unspoiled self segmentSize rWnd isRecovery := by
  -- The one case of the condition that is left.
  have condition : Unspoiled self segmentSize rWnd isRecovery ↔
      self.nextUnsent rWnd = none ∧
        (self.firstOutstanding isRecovery ≠ none → segmentSize ≠ 0) ∧
        (self.firstOutstanding isRecovery = some (SequenceNumber32.ofNat 0) →
          (self.sentList.filter TcpTxItem.outstanding).length = 1) := by
    constructor
    · rintro (⟨found⟩ | ⟨-, seen⟩ | ⟨-, seen⟩ | ⟨-, -, noUnsent, sized, kept⟩)
      · exact absurd noLost found
      · exact absurd seen unseen
      · exact absurd seen unseen
      · exact ⟨noUnsent, sized, kept⟩
    · rintro ⟨noUnsent, sized, kept⟩
      exact .outstanding noLost unseen noUnsent sized kept
  have none := unseen
  unfold SeesUnsent at none
  rw [condition, coherent.nextSeg_noLost noLost, if_neg none]
  cases found : self.firstOutstanding isRecovery with
  | none =>
      rw [saved_none found, if_neg Bool.false_ne_true, followsRules_none,
        nextByRules_noLost noLost, found, Option.or_none]
      simp
  | some seq =>
      obtain ⟨valid, ⟨item, member, starts⟩, same⟩ := coherent.saved_some found
      have notEnd := coherent.startSeq_ne member
      rw [if_pos valid, followsRules_some segmentFits, nextByRules_noLost noLost, found]
      rw [starts] at notEnd
      cases unsent : self.nextUnsent rWnd with
      | none =>
          rw [Option.none_or, Option.some_inj, eq_comm, same, Option.some_inj]
          simp [and_comm]
      | some next =>
          have isEnd : next = SequenceSpace.add self.firstByteSeq self.sentSize := by
            unfold nextUnsent at unsent
            split at unsent
            · exact (Option.some.inj unsent).symm
            · exact nomatch unsent
          rw [Option.some_or, Option.some_inj, isEnd]
          simp [notEnd.symm]

theorem Coherent.followsRules_unspoiled (coherent : Coherent content self)
    (segmentFits : segmentSize < 2 ^ 32) (windowFits : rWnd < 2 ^ 32) :
    FollowsRules self rWnd isRecovery (self.nextSeg segmentSize rWnd isRecovery) ↔
      Unspoiled self segmentSize rWnd isRecovery := by
  by_cases noLost : self.firstLost = none
  · by_cases seen : self.SeesUnsent
    · exact coherent.followsRules_seen segmentFits windowFits noLost seen
    · exact coherent.followsRules_unseen segmentFits noLost seen
  · exact coherent.followsRules_lost segmentFits noLost

end TcpTxBuffer

end Ns3.Internet
