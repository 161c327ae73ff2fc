import Ns3.Library.Chunks
import Ns3.Internet.TcpRxBuffer.Positions

/-!
The reassembly of a stream.

The entries of the buffer are separated chunks of the stream. A packet that comes
in is trimmed until it lies between two of them, `Add` moves the next sequence
number over the chunks that are in order, and `Extract` takes them off the front.
-/

namespace Ns3.Internet

open Library Network SequenceSpace

namespace TcpRxBuffer

/-- No entry is empty. -/
def NonEmpty (data : List (Nat × List UInt8)) : Prop := ∀ entry ∈ data, entry.2 ≠ []

variable {data : List (Nat × List UInt8)}

theorem NonEmpty.tail {entry : Nat × List UInt8} (nonEmpty : NonEmpty (entry :: data)) :
    NonEmpty data := fun other member => nonEmpty other (List.mem_cons_of_mem entry member)

theorem NonEmpty.length_pos {entry : Nat × List UInt8} (nonEmpty : NonEmpty data)
    (member : entry ∈ data) : 0 < entry.2.length := List.length_pos_iff.mpr (nonEmpty entry member)

section

variable {size head tail : Nat}

/-- What the loop that removes the overlaps leaves: a part of the packet that
overlaps no entry, and holds the entries that were erased. -/
structure Cleared (data : List (Nat × List UInt8)) (size head tail : Nat)
    (trimmed : Trimmed Nat) : Prop where
  unchanged : trimmed.tailSeq ≤ trimmed.headSeq → trimmed.data = data ∧ trimmed.size = size
  erased : ∀ entry ∈ data, entry ∈ trimmed.data ∨
    trimmed.headSeq < entry.1 ∧ entry.1 + entry.2.length ≤ trimmed.tailSeq ∧
      entry.1 + entry.2.length < tail
  bounds : head ≤ trimmed.headSeq ∧ trimmed.tailSeq ≤ tail
  apart : trimmed.headSeq < trimmed.tailSeq → ∀ entry ∈ trimmed.data,
    entry.1 + entry.2.length ≤ trimmed.headSeq ∨ trimmed.tailSeq ≤ entry.1
  covered : ∀ position, head ≤ position → position < tail →
    trimmed.headSeq ≤ position ∧ position < trimmed.tailSeq ∨ Covers trimmed.data position
  counted : size < 2 ^ 32 → totalLength data ≤ size →
    trimmed.size + totalLength data = size + totalLength trimmed.data

theorem removeOverlaps_of_after (after : ∀ entry ∈ data, tail < entry.1) :
    removeOverlaps data size head tail = ⟨data, size, head, tail⟩ := by
  cases data with
  | nil => rfl
  | cons entry rest =>
      have beyond := after entry List.mem_cons_self
      rw [removeOverlaps, nat_le, if_neg (by simpa using beyond)]

/-- What the loop does with an entry: it stops before it, passes it, erases it, or
trims the head or the tail of the packet to it. -/
theorem removeOverlaps_cases {entry : Nat × List UInt8} {rest : List (Nat × List UInt8)}
    (separated : Separated (entry :: rest)) (nonEmpty : NonEmpty (entry :: rest))
    (size head tail : Nat) :
    tail < entry.1 ∧ removeOverlaps (entry :: rest) size head tail =
      ⟨entry :: rest, size, head, tail⟩ ∨
    (entry.1 ≤ tail ∧ entry.1 + entry.2.length ≤ head ∧
      removeOverlaps (entry :: rest) size head tail =
        { removeOverlaps rest size head tail with
          data := entry :: (removeOverlaps rest size head tail).data }) ∨
    (head < entry.1 ∧ entry.1 + entry.2.length < tail ∧
      removeOverlaps (entry :: rest) size head tail =
        removeOverlaps rest (wrapSub 32 size entry.2.length) head tail) ∨
    (entry.1 ≤ head ∧ head < entry.1 + entry.2.length ∧ entry.1 + entry.2.length < tail ∧
      removeOverlaps (entry :: rest) size head tail =
        { removeOverlaps rest size (entry.1 + entry.2.length) tail with
          data := entry :: (removeOverlaps rest size (entry.1 + entry.2.length) tail).data }) ∨
    (entry.1 ≤ tail ∧ tail ≤ entry.1 + entry.2.length ∧ head < entry.1 + entry.2.length ∧
      removeOverlaps (entry :: rest) size head tail =
        ⟨entry :: rest, size, if entry.1 ≤ head then entry.1 + entry.2.length else head,
          entry.1⟩) := by
  have positive := nonEmpty.length_pos List.mem_cons_self
  simp only [removeOverlaps, nat_le, nat_gt, nat_lt, nat_ge, nat_add, decide_eq_true_eq,
    Bool.and_eq_true]
  by_cases within : entry.1 ≤ tail
  · rw [if_pos within]
    by_cases overlaps : head < entry.1 + entry.2.length
    · rw [if_pos overlaps]
      by_cases embedded : head < entry.1 ∧ entry.1 + entry.2.length < tail
      · rw [if_pos embedded]
        exact .inr (.inr (.inl ⟨embedded.1, embedded.2, rfl⟩))
      · rw [if_neg embedded]
        by_cases tailOverlaps : tail ≤ entry.1 + entry.2.length
        · rw [if_pos tailOverlaps, removeOverlaps_of_after]
          · exact .inr (.inr (.inr (.inr ⟨within, tailOverlaps, overlaps, rfl⟩)))
          · intro other member
            have := separated.head other member
            omega
        · have headOverlaps : entry.1 ≤ head := by omega
          rw [if_neg tailOverlaps, if_pos headOverlaps]
          exact .inr (.inr (.inr (.inl ⟨headOverlaps, overlaps, by omega, rfl⟩)))
    · rw [if_neg overlaps]
      exact .inr (.inl ⟨within, by omega, rfl⟩)
  · rw [if_neg within]
    exact .inl ⟨by omega, rfl⟩

/-- Entries after the head of the packet leave it where it is. -/
theorem removeOverlaps_of_above (separated : Separated data) (nonEmpty : NonEmpty data)
    {lowest : Nat} (above : ∀ entry ∈ data, lowest ≤ entry.1) (headBelow : head < lowest)
    (tailAbove : lowest ≤ tail) :
    (removeOverlaps data size head tail).headSeq = head ∧
      lowest ≤ (removeOverlaps data size head tail).tailSeq := by
  induction data generalizing size tail with
  | nil => exact ⟨rfl, tailAbove⟩
  | cons entry rest inductionHypothesis =>
      have entryAbove := above entry List.mem_cons_self
      have later := @inductionHypothesis
      have restAbove : ∀ other ∈ rest, lowest ≤ other.1 := fun other member =>
        above other (List.mem_cons_of_mem entry member)
      rcases removeOverlaps_cases separated nonEmpty size head tail with ⟨-, same⟩ |
        ⟨-, -, same⟩ | ⟨-, -, same⟩ | ⟨overlaps, -⟩ | ⟨-, -, -, same⟩
      · rw [same]
        exact ⟨rfl, tailAbove⟩
      · rw [same]
        exact inductionHypothesis separated.tail nonEmpty.tail restAbove tailAbove
      · rw [same]
        exact inductionHypothesis separated.tail nonEmpty.tail restAbove tailAbove
      · omega
      · rw [same, if_neg (by omega)]
        exact ⟨rfl, entryAbove⟩

/-- An entry that stays, and is passed or trims the head of the packet. -/
theorem Cleared.keep {entry : Nat × List UInt8} {newHead : Nat} {trimmed : Trimmed Nat}
    (cleared : Cleared data size newHead tail trimmed) (later : head ≤ newHead)
    (stop : entry.1 + entry.2.length ≤ newHead)
    (held : ∀ position, head ≤ position → position < newHead → Chunk.Holds entry position) :
    Cleared (entry :: data) size head tail { trimmed with data := entry :: trimmed.data } where
  unchanged empty := by
    obtain ⟨sameData, sameSize⟩ := cleared.unchanged empty
    exact ⟨congrArg (entry :: ·) sameData, sameSize⟩
  erased other member := by
    rcases List.mem_cons.mp member with rfl | old
    · exact .inl List.mem_cons_self
    · exact (cleared.erased other old).imp_left (List.mem_cons_of_mem entry)
  bounds := ⟨Nat.le_trans later cleared.bounds.1, cleared.bounds.2⟩
  apart some other member := by
    rcases List.mem_cons.mp member with rfl | old
    · exact .inl (Nat.le_trans stop cleared.bounds.1)
    · exact cleared.apart some other old
  covered position low high := by
    by_cases below : position < newHead
    · exact .inr (covers_cons.mpr (.inl (held position low below)))
    · exact (cleared.covered position (Nat.le_of_not_lt below) high).imp_right fun covers =>
        covers_cons.mpr (.inr covers)
  counted small enough := by
    simp only [totalLength_cons] at enough ⊢
    have := cleared.counted small (by omega)
    omega

/-- The loop stops: the entries that are left are after the packet. -/
theorem Cleared.stop {newHead newTail : Nat} (later : head ≤ newHead) (earlier : newTail ≤ tail)
    (apart : newHead < newTail → ∀ entry ∈ data,
      entry.1 + entry.2.length ≤ newHead ∨ newTail ≤ entry.1)
    (covered : ∀ position, head ≤ position → position < tail →
      newHead ≤ position ∧ position < newTail ∨ Covers data position) :
    Cleared data size head tail ⟨data, size, newHead, newTail⟩ where
  unchanged _ := ⟨rfl, rfl⟩
  erased _ member := .inl member
  bounds := ⟨later, earlier⟩
  apart := apart
  covered := covered
  counted _ _ := rfl

theorem removeOverlaps_cleared (separated : Separated data) (nonEmpty : NonEmpty data)
    (ordered : head ≤ tail) :
    Cleared data size head tail (removeOverlaps data size head tail) := by
  induction data generalizing size head tail with
  | nil =>
      exact Cleared.stop (Nat.le_refl head) (Nat.le_refl tail) (fun _ _ member => nomatch member)
        fun _ low high => .inl ⟨low, high⟩
  | cons entry rest inductionHypothesis =>
      have positive := nonEmpty.length_pos List.mem_cons_self
      have following := separated.head
      rcases removeOverlaps_cases separated nonEmpty size head tail with ⟨after, same⟩ |
        ⟨within, before, same⟩ | ⟨headBelow, tailAbove, same⟩ | ⟨start, overlaps, stop, same⟩ |
        ⟨within, stop, overlaps, same⟩
      · rw [same]
        refine Cleared.stop (Nat.le_refl head) (Nat.le_refl tail) (fun _ other member => ?_)
          fun _ low high => .inl ⟨low, high⟩
        rcases List.mem_cons.mp member with rfl | later
        · omega
        · have := following other later
          omega
      · rw [same]
        refine (inductionHypothesis separated.tail nonEmpty.tail ordered).keep (Nat.le_refl head)
          before fun position low high => ?_
        omega
      · rw [same]
        obtain ⟨sameHead, tailAfter⟩ := @removeOverlaps_of_above rest
          (wrapSub 32 size entry.2.length) head tail separated.tail nonEmpty.tail
          (entry.1 + entry.2.length) following (by omega) (by omega)
        have cleared := @inductionHypothesis (wrapSub 32 size entry.2.length) head tail
          separated.tail nonEmpty.tail ordered
        refine { cleared with unchanged := ?_, erased := ?_, counted := ?_ }
        · omega
        · intro other member
          rcases List.mem_cons.mp member with rfl | later
          · exact .inr ⟨by omega, tailAfter, tailAbove⟩
          · exact cleared.erased other later
        · intro small enough
          simp only [totalLength_cons] at enough ⊢
          have less := wrapSub_of_le (show entry.2.length ≤ size by omega) small
          have := cleared.counted (by omega) (by omega)
          omega
      · rw [same]
        exact (inductionHypothesis separated.tail nonEmpty.tail (Nat.le_of_lt stop)).keep
          (Nat.le_of_lt overlaps) (Nat.le_refl _) fun position low high => ⟨by omega, high⟩
      · rw [same]
        refine Cleared.stop (by split <;> omega) within (fun some other member => ?_)
          fun position low high => ?_
        · split at some
          · omega
          next above =>
            rw [if_neg above]
            rcases List.mem_cons.mp member with rfl | later
            · exact .inr (Nat.le_refl _)
            · have := following other later
              omega
        · by_cases inside : entry.1 ≤ position
          · exact .inr (covers_cons.mpr (.inl ⟨inside, by omega⟩))
          · rw [if_neg (by omega)]
            exact .inl ⟨low, by omega⟩

end

/-- A packet that lies between two entries is stored between them. -/
theorem insertEntry_perm (nonEmpty : NonEmpty data) {key : Nat} {packet : List UInt8}
    (some : packet ≠ [])
    (apart : ∀ entry ∈ data, entry.1 + entry.2.length ≤ key ∨ key + packet.length ≤ entry.1) :
    (insertEntry key packet data).Perm ((key, packet) :: data) := by
  have packetPositive := List.length_pos_iff.mpr some
  induction data with
  | nil => exact List.Perm.refl _
  | cons entry rest inductionHypothesis =>
      have positive := nonEmpty.length_pos List.mem_cons_self
      have entryApart := apart entry List.mem_cons_self
      have later := inductionHypothesis nonEmpty.tail fun other member =>
        apart other (List.mem_cons_of_mem entry member)
      rw [insertEntry]
      split
      · exact List.Perm.refl _
      · rw [if_neg (by omega)]
        exact (later.cons entry).trans (List.Perm.swap _ _ _)

theorem insertEntry_separated (separated : Separated data) (nonEmpty : NonEmpty data) {key : Nat}
    {packet : List UInt8} (some : packet ≠ [])
    (apart : ∀ entry ∈ data, entry.1 + entry.2.length ≤ key ∨ key + packet.length ≤ entry.1) :
    Separated (insertEntry key packet data) := by
  have packetPositive := List.length_pos_iff.mpr some
  induction data with
  | nil => exact List.pairwise_singleton _ _
  | cons entry rest inductionHypothesis =>
      have positive := nonEmpty.length_pos List.mem_cons_self
      have entryApart := apart entry List.mem_cons_self
      have later := inductionHypothesis separated.tail nonEmpty.tail fun other member =>
        apart other (List.mem_cons_of_mem entry member)
      rw [insertEntry, nat_lt]
      split
      next before =>
        have before := of_decide_eq_true before
        refine Separated.cons (fun other member => ?_) separated
        rcases List.mem_cons.mp member with rfl | following
        · dsimp only
          omega
        · have := separated.head other following
          dsimp only
          omega
      next notBefore =>
        have notBefore : ¬ key < entry.1 := fun before => notBefore (decide_eq_true before)
        rw [if_neg (by omega)]
        refine Separated.cons (fun other member => ?_) later
        rcases mem_insertEntry member with rfl | old
        · dsimp only
          omega
        · exact separated.head other old

/-- The position up to which the entries are in order. -/
def frontier : List (Nat × List UInt8) → Nat → Nat
  | [], next => next
  | entry :: rest, next =>
      if entry.1 < next then frontier rest next
      else if entry.1 > next then next
      else frontier rest (entry.1 + entry.2.length)

section

variable {next : Nat}

theorem le_frontier (data : List (Nat × List UInt8)) (next : Nat) : next ≤ frontier data next := by
  induction data generalizing next with
  | nil => exact Nat.le_refl next
  | cons entry rest inductionHypothesis =>
      rw [frontier]
      split
      · exact inductionHypothesis next
      · split
        · exact Nat.le_refl next
        · exact Nat.le_trans (by omega) (inductionHypothesis _)

theorem covers_of_lt_frontier {position : Nat} (low : next ≤ position)
    (high : position < frontier data next) : Covers data position := by
  induction data generalizing next with
  | nil => exact absurd high (Nat.not_lt.mpr low)
  | cons entry rest inductionHypothesis =>
      rw [covers_cons]
      rw [frontier] at high
      split at high
      · exact .inr (inductionHypothesis low high)
      · split at high
        · omega
        · by_cases inside : position < entry.1 + entry.2.length
          · exact .inl ⟨by omega, inside⟩
          · exact .inr (inductionHypothesis (by omega) high)

theorem not_covers_frontier (separated : Separated data) (nonEmpty : NonEmpty data)
    (clear : ∀ entry ∈ data, entry.1 < next → entry.1 + entry.2.length ≤ next) :
    ¬ Covers data (frontier data next) := by
  induction data generalizing next with
  | nil => exact not_covers_nil
  | cons entry rest inductionHypothesis =>
      have positive := nonEmpty.length_pos List.mem_cons_self
      have entryClear := clear entry List.mem_cons_self
      have following := separated.head
      rw [covers_cons, not_or, frontier]
      split
      next before =>
        refine ⟨fun holds => ?_, inductionHypothesis separated.tail nonEmpty.tail
          fun other member => clear other (List.mem_cons_of_mem entry member)⟩
        have := holds.2
        have := le_frontier rest next
        omega
      next notBefore =>
        split
        next after =>
          refine ⟨fun holds => absurd holds.1 (by omega), ?_⟩
          rintro ⟨other, member, holds⟩
          have := following other member
          have := holds.1
          omega
        next =>
          refine ⟨fun holds => ?_, inductionHypothesis separated.tail nonEmpty.tail
            fun other member before => ?_⟩
          · have := holds.2
            have := le_frontier rest (entry.1 + entry.2.length)
            omega
          · have := following other member
            omega

end

theorem clearSackList_clearSackList (blocks : List (SackBlock Nat)) {first second : Nat}
    (ordered : first ≤ second) :
    clearSackList (clearSackList blocks first) second = clearSackList blocks second := by
  unfold clearSackList
  rw [List.filter_filter]
  refine List.filter_congr fun block _ => ?_
  simp only [nat_le, ← decide_not, ← Bool.decide_and]
  exact decide_eq_decide.mpr (by omega)

/-- `advance` moves to the frontier. -/
theorem advance_frontier (nonEmpty : NonEmpty data) (self : TcpRxBuffer Nat)
    (small : self.availBytes < 2 ^ 32) :
    advance data self =
      { self with
        nextRxSeq := frontier data self.nextRxSeq
        availBytes := wrap 32 (self.availBytes + (frontier data self.nextRxSeq - self.nextRxSeq))
        sackList := if frontier data self.nextRxSeq = self.nextRxSeq then self.sackList
          else clearSackList self.sackList (frontier data self.nextRxSeq) } := by
  induction data generalizing self with
  | nil => simp [advance, frontier, wrap_of_lt small]
  | cons entry rest inductionHypothesis =>
      have positive := nonEmpty.length_pos List.mem_cons_self
      rw [advance, frontier]
      simp only [nat_lt, nat_gt, nat_add, decide_eq_true_eq]
      split
      · exact inductionHypothesis nonEmpty.tail self small
      · split
        · simp [wrap_of_lt small]
        next notBefore notAfter =>
          have same : entry.1 = self.nextRxSeq := by omega
          have further := le_frontier rest (entry.1 + entry.2.length)
          rw [inductionHypothesis nonEmpty.tail _ (wrap_lt 32 _)]
          have bytes : wrap 32 (wrap 32 (self.availBytes + entry.2.length) +
                (frontier rest (entry.1 + entry.2.length) - (entry.1 + entry.2.length))) =
              wrap 32 (self.availBytes +
                (frontier rest (entry.1 + entry.2.length) - self.nextRxSeq)) := by
            unfold wrap
            omega
          have blocks : (if frontier rest (entry.1 + entry.2.length) = entry.1 + entry.2.length then
                clearSackList self.sackList (entry.1 + entry.2.length)
              else clearSackList (clearSackList self.sackList (entry.1 + entry.2.length))
                (frontier rest (entry.1 + entry.2.length))) =
              clearSackList self.sackList (frontier rest (entry.1 + entry.2.length)) := by
            split
            next stays => rw [stays]
            next => exact clearSackList_clearSackList _ further
          dsimp only
          rw [if_neg (show ¬ frontier rest (entry.1 + entry.2.length) = self.nextRxSeq by omega),
            bytes, blocks]

/-- The end of the part of a packet that the window accepts. -/
def acceptedEnd (self : TcpRxBuffer Nat) (stop : Nat) : Nat :=
  match self.data with
  | [] => stop
  | first :: _ => min stop (first.1 + self.maxBuffer)

theorem acceptedEnd_le (self : TcpRxBuffer Nat) (stop : Nat) : self.acceptedEnd stop ≤ stop := by
  unfold acceptedEnd
  split
  · exact Nat.le_refl stop
  · exact Nat.min_le_left _ _

/-- The packet within the window: it starts at the next sequence number at the
earliest, or nothing of it is left. -/
theorem trimToWindow_spec (self : TcpRxBuffer Nat) (start stop : Nat) :
    (self.trimToWindow start stop).2 = self.acceptedEnd stop ∧
    (self.data ≠ [] → (self.trimToWindow start stop).1 ≤ (self.trimToWindow start stop).2) ∧
    ((self.trimToWindow start stop).1 = max start self.nextRxSeq ∨
      (self.trimToWindow start stop).1 = self.acceptedEnd stop ∧
        self.acceptedEnd stop ≤ max start self.nextRxSeq) := by
  have head : (if lt start self.nextRxSeq then self.nextRxSeq else start) =
      max start self.nextRxSeq := by
    rw [nat_lt, Nat.max_def]
    simp only [decide_eq_true_eq]
    split <;> split <;> omega
  unfold trimToWindow acceptedEnd
  rw [head]
  cases self.data with
  | nil => exact ⟨rfl, fun some => absurd rfl some, .inl rfl⟩
  | cons first rest =>
      have tail : (if lt (first.1 + self.maxBuffer) stop then first.1 + self.maxBuffer else stop) =
          min stop (first.1 + self.maxBuffer) := by
        rw [nat_lt, Nat.min_def]
        simp only [decide_eq_true_eq]
        split <;> split <;> omega
      dsimp only [nat_add]
      rw [tail]
      simp only [nat_lt, decide_eq_true_eq]
      refine ⟨trivial, fun _ => ?_, ?_⟩
      · split <;> omega
      · split
        · exact .inr ⟨rfl, by omega⟩
        · exact .inl rfl

/-- The entries hold the stream from the first position that was not extracted: all
of it up to the position `inOrder`, which they do not hold. -/
structure Stored (stream : List UInt8) (extracted inOrder : Nat)
    (data : List (Nat × List UInt8)) : Prop where
  nonEmpty : NonEmpty data
  slices : ∀ entry ∈ data, Chunk.SliceOf stream entry
  separated : Separated data
  after : ∀ entry ∈ data, extracted ≤ entry.1
  reached : extracted ≤ inOrder
  within : inOrder ≤ stream.length
  contiguous : ∀ position, extracted ≤ position → position < inOrder → Covers data position
  gap : ¬ Covers data inOrder

section

variable {stream : List UInt8} {extracted inOrder : Nat}

theorem Stored.covers_lt (stored : Stored stream extracted inOrder data) {position : Nat}
    (covers : Covers data position) : position < stream.length := by
  obtain ⟨entry, member, holds⟩ := covers
  exact Nat.lt_of_lt_of_le holds.2
    ((stored.slices entry member).stop_le (stored.nonEmpty entry member))

/-- An entry that starts in order ends in order. -/
theorem Stored.stop_le (stored : Stored stream extracted inOrder data)
    {entry : Nat × List UInt8} (member : entry ∈ data) (before : entry.1 < inOrder) :
    entry.1 + entry.2.length ≤ inOrder := by
  by_contra beyond
  exact stored.gap ⟨entry, member, Nat.le_of_lt before, Nat.lt_of_not_le beyond⟩

/-- The first entry is the next one to extract. -/
theorem Stored.first {entry : Nat × List UInt8}
    (stored : Stored stream extracted inOrder (entry :: data)) (some : extracted < inOrder) :
    entry.1 = extracted := by
  obtain ⟨holder, member, holds⟩ := stored.contiguous extracted (Nat.le_refl _) some
  have positive := stored.nonEmpty.length_pos List.mem_cons_self
  have entryAfter := stored.after entry List.mem_cons_self
  rcases List.mem_cons.mp member with rfl | later
  · exact Nat.le_antisymm holds.1 entryAfter
  · have := stored.separated.head holder later
    have := holds.1
    omega

/-- What is left of a packet is stored. -/
theorem Stored.insert (stored : Stored stream extracted inOrder data) {size head tail : Nat}
    {trimmed : Trimmed Nat} (cleared : Cleared data size head tail trimmed)
    (sublist : trimmed.data.Sublist data) {packet : List UInt8}
    (length : trimmed.headSeq + packet.length = trimmed.tailSeq)
    (some : trimmed.headSeq < trimmed.tailSeq) (later : inOrder ≤ trimmed.headSeq)
    (slice : Chunk.SliceOf stream (trimmed.headSeq, packet)) :
    (insertEntry trimmed.headSeq packet trimmed.data).Perm
        ((trimmed.headSeq, packet) :: trimmed.data) ∧
      (∀ position, Covers (insertEntry trimmed.headSeq packet trimmed.data) position ↔
        trimmed.headSeq ≤ position ∧ position < trimmed.tailSeq ∨ Covers data position) ∧
      Stored stream extracted
        (frontier (insertEntry trimmed.headSeq packet trimmed.data) inOrder)
        (insertEntry trimmed.headSeq packet trimmed.data) := by
  have packetSome : packet ≠ [] := by
    intro empty
    rw [empty, List.length_nil] at length
    omega
  have nonEmpty : NonEmpty trimmed.data := fun entry member =>
    stored.nonEmpty entry (sublist.subset member)
  have separated : Separated trimmed.data := stored.separated.sublist sublist
  have apart := cleared.apart some
  rw [← length] at apart
  have perm := insertEntry_perm nonEmpty packetSome apart
  have covers : ∀ position,
      Covers (insertEntry trimmed.headSeq packet trimmed.data) position ↔
        trimmed.headSeq ≤ position ∧ position < trimmed.tailSeq ∨ Covers data position := by
    intro position
    rw [covers_perm perm, covers_cons, Chunk.Holds, length]
    constructor
    · exact Or.imp_right fun covers => covers.mono sublist.subset
    · rintro (inside | ⟨entry, member, holds⟩)
      · exact .inl inside
      · rcases cleared.erased entry member with kept | ⟨above, below, -⟩
        · exact .inr ⟨entry, kept, holds⟩
        · exact .inl ⟨by have := holds.1; omega, by have := holds.2; omega⟩
  have members : ∀ entry ∈ insertEntry trimmed.headSeq packet trimmed.data,
      entry = (trimmed.headSeq, packet) ∨ entry ∈ data := fun entry member =>
    (mem_insertEntry member).imp_right (sublist.subset ·)
  have newNonEmpty : NonEmpty (insertEntry trimmed.headSeq packet trimmed.data) := by
    intro entry member
    rcases members entry member with rfl | old
    · exact packetSome
    · exact stored.nonEmpty entry old
  have newSlices : ∀ entry ∈ insertEntry trimmed.headSeq packet trimmed.data,
      Chunk.SliceOf stream entry := by
    intro entry member
    rcases members entry member with rfl | old
    · exact slice
    · exact stored.slices entry old
  have newSeparated := insertEntry_separated separated nonEmpty packetSome apart
  have further := le_frontier (insertEntry trimmed.headSeq packet trimmed.data) inOrder
  refine ⟨perm, covers, newNonEmpty, newSlices, newSeparated, ?_,
    Nat.le_trans stored.reached further, ?_, ?_, ?_⟩
  · intro entry member
    rcases members entry member with rfl | old
    · exact Nat.le_trans stored.reached later
    · exact stored.after entry old
  · by_contra beyond
    obtain ⟨entry, member, holds⟩ := covers_of_lt_frontier
      (show inOrder ≤ stream.length from stored.within) (Nat.lt_of_not_le beyond)
    have := (newSlices entry member).stop_le (newNonEmpty entry member)
    have := holds.2
    omega
  · intro position low high
    by_cases before : position < inOrder
    · exact (covers position).mpr (.inr (stored.contiguous position low before))
    · exact covers_of_lt_frontier (Nat.le_of_not_lt before) high
  · refine not_covers_frontier newSeparated newNonEmpty fun entry member before => ?_
    rcases members entry member with rfl | old
    · exact absurd before (Nat.not_lt.mpr later)
    · exact stored.stop_le old before

theorem insertEntry_of_before {key : Nat} (before : ∀ entry ∈ data, key < entry.1)
    (packet : List UInt8) : insertEntry key packet data = (key, packet) :: data := by
  cases data with
  | nil => rfl
  | cons entry rest =>
      rw [insertEntry, nat_lt, if_pos (decide_eq_true (before entry List.mem_cons_self))]

/-- The first entry is extracted. -/
theorem Stored.whole {entry : Nat × List UInt8}
    (stored : Stored stream extracted inOrder (entry :: data)) (start : entry.1 = extracted)
    (available : extracted + entry.2.length ≤ inOrder) :
    Stored stream (extracted + entry.2.length) inOrder data where
  nonEmpty := stored.nonEmpty.tail
  slices other member := stored.slices other (List.mem_cons_of_mem entry member)
  separated := stored.separated.tail
  after other member := start ▸ stored.separated.head other member
  reached := available
  within := stored.within
  contiguous position low high := by
    rcases covers_cons.mp (stored.contiguous position (by omega) high) with holds | covers
    · have := holds.2
      omega
    · exact covers
  gap covers := stored.gap (covers_cons.mpr (.inr covers))

/-- A part of the first entry is extracted. -/
theorem Stored.part {entry : Nat × List UInt8}
    (stored : Stored stream extracted inOrder (entry :: data)) (start : entry.1 = extracted)
    {count : Nat} (available : extracted + count ≤ inOrder) (some : count < entry.2.length) :
    Stored stream (extracted + count) inOrder
      ((entry.1 + count, entry.2.drop count) :: data) where
  nonEmpty other member := by
    rcases List.mem_cons.mp member with rfl | later
    · exact List.length_pos_iff.mp (by simp only [List.length_drop]; omega)
    · exact stored.nonEmpty.tail other later
  slices other member := by
    rcases List.mem_cons.mp member with rfl | later
    · exact (stored.slices entry List.mem_cons_self).drop count
    · exact stored.slices other (List.mem_cons_of_mem entry later)
  separated := by
    refine Separated.cons (fun other member => ?_) stored.separated.tail
    have := stored.separated.head other member
    simp only [List.length_drop]
    omega
  after other member := by
    rcases List.mem_cons.mp member with rfl | later
    · exact Nat.le_of_eq (by rw [start])
    · have := stored.separated.head other later
      omega
  reached := available
  within := stored.within
  contiguous position low high := by
    rcases covers_cons.mp (stored.contiguous position (by omega) high) with holds | covers
    · refine covers_cons.mpr (.inl ⟨by dsimp only; omega, ?_⟩)
      have := holds.2
      simp only [List.length_drop]
      omega
    · exact covers_cons.mpr (.inr covers)
  gap covers := by
    rcases covers_cons.mp covers with ⟨low, high⟩ | covers
    · refine stored.gap (covers_cons.mpr (.inl ⟨?_, ?_⟩))
      · dsimp only at low
        omega
      · simp only [List.length_drop] at high
        omega
    · exact stored.gap (covers_cons.mpr (.inr covers))

/-- `Extract` takes the next bytes of the stream off the entries. -/
theorem Stored.extract (stored : Stored stream extracted inOrder data) (extractSize : Nat)
    (available : extracted + extractSize ≤ inOrder) :
    ∃ rest, extractFrom extractSize data =
        some ((stream.drop extracted).take extractSize, rest) ∧
      (∀ position, extracted + extractSize ≤ position →
        (Covers rest position ↔ Covers data position)) ∧
      totalLength data = extractSize + totalLength rest ∧
      Stored stream (extracted + extractSize) inOrder rest := by
  induction data generalizing extracted extractSize with
  | nil =>
      cases extractSize with
      | zero => exact ⟨[], rfl, fun _ _ => Iff.rfl, rfl, stored⟩
      | succ extractSize =>
          exact absurd (stored.contiguous extracted (Nat.le_refl _) (by omega)) not_covers_nil
  | cons entry rest inductionHypothesis =>
      cases extractSize with
      | zero => exact ⟨entry :: rest, rfl, fun _ _ => Iff.rfl, (Nat.zero_add _).symm, stored⟩
      | succ extractSize =>
          have start := stored.first (by omega)
          have following := stored.separated.head
          have slice := stored.slices entry List.mem_cons_self
          rw [Chunk.SliceOf, start] at slice
          rw [extractFrom]
          split
          next fits =>
            obtain ⟨left, found, covers, length, leftStored⟩ := inductionHypothesis
              (stored.whole start (by omega)) (extractSize + 1 - entry.2.length) (by omega)
            have together : extracted + entry.2.length + (extractSize + 1 - entry.2.length) =
                extracted + (extractSize + 1) := by omega
            rw [together] at covers leftStored
            refine ⟨left, ?_, fun position low => ?_, ?_, leftStored⟩
            · rw [found, Option.map_some]
              refine congrArg some (Prod.ext ?_ rfl)
              calc entry.2 ++ ((stream.drop (extracted + entry.2.length)).take
                    (extractSize + 1 - entry.2.length))
                  = (stream.drop extracted).take entry.2.length ++
                      ((stream.drop extracted).drop entry.2.length).take
                        (extractSize + 1 - entry.2.length) := by
                    rw [← slice, List.drop_drop]
                _ = (stream.drop extracted).take
                      (entry.2.length + (extractSize + 1 - entry.2.length)) :=
                    List.take_add.symm
                _ = (stream.drop extracted).take (extractSize + 1) := by
                    rw [Nat.add_sub_cancel' fits]
            · rw [covers position low, covers_cons]
              refine ⟨.inr, fun either => either.resolve_left fun holds => ?_⟩
              have := holds.2
              omega
            · rw [totalLength_cons]
              omega
          next partly =>
            have partly : extractSize + 1 < entry.2.length := Nat.lt_of_not_le partly
            rw [insertEntry_of_before (fun other member => by
              have := following other member
              rw [nat_add]
              omega)]
            refine ⟨_, congrArg some (Prod.ext ?_ rfl), fun position low => ?_, ?_,
              stored.part start available partly⟩
            · calc entry.2.take (extractSize + 1)
                  = ((stream.drop extracted).take entry.2.length).take (extractSize + 1) := by
                    rw [← slice]
                _ = (stream.drop extracted).take (extractSize + 1) := by
                    rw [List.take_take, Nat.min_eq_left (Nat.le_of_lt partly)]
            · simp only [covers_cons, Chunk.Holds, List.length_drop, nat_add]
              refine or_congr_left ?_
              omega
            · simp only [totalLength_cons, List.length_drop]
              omega

end

end TcpRxBuffer

end Ns3.Internet
