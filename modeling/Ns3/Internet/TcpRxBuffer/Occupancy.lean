import Ns3.Internet.TcpRxBuffer.Delivery

/-!
The receive buffer stays within its window.

`Add` measures the window from the first entry that is stored. That is where the window begins
while bytes in order wait to be extracted; otherwise nothing, or only the gap before the first
entry, tells where the window ends.
-/

namespace Ns3.Internet

open Library Network SequenceSpace

namespace TcpRxBuffer

/-- The lowest position that should not be accepted: the bytes in order that were not read count
against the buffer. -/
def windowEnd (self : TcpRxBuffer Nat) : Nat :=
  self.nextRxSeq - self.availBytes + self.maxBuffer

theorem extract_maxBuffer {self after : TcpRxBuffer Nat} {maxSize : Nat} {bytes : List UInt8}
    (found : self.extract maxSize = some (bytes, after)) : after.maxBuffer = self.maxBuffer := by
  obtain ⟨extracted, -, same⟩ := Option.map_eq_some_iff.mp found
  cases same
  rfl

namespace Reception

variable {stream : List UInt8} {initial maxBuffer inOrder : Nat} {reception : Reception}
  {call : Call}

/-- The buffer holds no more bytes than it may. -/
def Occupied (reception : Reception) : Prop :=
  reception.buffer.size ≤ reception.buffer.maxBuffer

/-- What a segment adds to the buffer lies below the end of the window. -/
def AcceptsBelow (stream : List UInt8) (initial : Nat) (reception : Reception) (call : Call) :
    Prop :=
  ∀ position, Covers (step stream initial reception call).positions.data position →
    ¬ Covers reception.positions.data position → position < reception.positions.windowEnd

/-- A segment finds bytes in order that were not read, or it ends within the window, or it is
empty, or it starts where not even the entries that are stored reach with the window. -/
def Windowed (reception : Reception) : Call → Prop
  | .add start length =>
      0 < reception.positions.availBytes ∨
        start + length ≤ reception.positions.nextRxSeq + reception.positions.maxBuffer ∨
        length = 0 ∨
        ∃ first ∈ reception.positions.data.head?, first.1 + reception.positions.maxBuffer ≤ start
  | _ => True

instance (reception : Reception) (call : Call) : Decidable (Windowed reception call) :=
  match call with
  | .add _ _ => inferInstanceAs (Decidable (_ ∨ _ ∨ _ ∨ _))
  | .extract _ => .isTrue trivial
  | .setFinSequence => .isTrue trivial

/-- Everything that is held lies within a window of the bytes that were extracted. -/
structure Bounded (stream : List UInt8) (initial inOrder : Nat) (reception : Reception) : Prop where
  invariant : Invariant stream initial inOrder reception
  below : ∀ position, position < inOrder ∨ Covers reception.positions.data position →
    position < reception.extracted.length + reception.positions.maxBuffer

theorem bounded_create (stream : List UInt8) (initial maxBuffer : Nat) :
    Bounded stream initial 0 (create initial maxBuffer) where
  invariant := invariant_create stream initial maxBuffer
  below := by
    rintro position (before | covers)
    · exact absurd before (Nat.not_lt_zero _)
    · exact absurd covers not_covers_nil

/-- What a segment brings lies within a window of the bytes that were extracted. -/
theorem Invariant.accepted_lt (invariant : Invariant stream initial inOrder reception)
    {start length : Nat} (windowed : Windowed reception (.add start length))
    (within : start + length ≤ stream.length) {position : Nat} (first : start ≤ position)
    (last : position < reception.positions.acceptedEnd (start + length))
    (missing : inOrder ≤ position) :
    position < reception.extracted.length + reception.positions.maxBuffer := by
  have delivering := invariant.delivering
  have available := delivering.available
  have reached := delivering.stored.reached
  have next := delivering.next
  have bound := reception.positions.acceptedEnd_le (start + length)
  have inOrderNext : reception.positions.nextRxSeq = inOrder := by
    rw [next]
    split
    · omega
    · rfl
  have reachesWindow : ∀ first ∈ reception.positions.data.head?,
      position < first.1 + reception.positions.maxBuffer := by
    intro entry isFirst
    unfold acceptedEnd at last
    split at last
    · rename_i none
      rw [none] at isFirst
      cases isFirst
    · rename_i some
      rw [some] at isFirst
      obtain rfl := Option.some.inj isFirst
      omega
  rcases Nat.lt_or_ge reception.extracted.length inOrder with unread | read
  · -- The first entry is the next one to extract.
    cases same : reception.positions.data with
    | nil =>
        have covers := delivering.stored.contiguous _ (Nat.le_refl _) unread
        rw [same] at covers
        exact absurd covers not_covers_nil
    | cons entry rest =>
        have stored := delivering.stored
        rw [same] at stored reachesWindow
        have starts := stored.first unread
        have window := reachesWindow entry rfl
        omega
  · rcases windowed with unread | inside | empty | ⟨entry, isFirst, beyond⟩
    · omega
    · omega
    · omega
    · have window := reachesWindow entry isFirst
      omega

theorem Bounded.add (bounded : Bounded stream initial inOrder reception) {start length : Nat}
    (enabled : Enabled stream reception (.add start length))
    (windowed : Windowed reception (.add start length)) :
    ∃ newInOrder, Bounded stream initial newInOrder
      (step stream initial reception (.add start length)) := by
  obtain ⟨newInOrder, outcome, invariant⟩ := bounded.invariant.add enabled
  refine ⟨newInOrder, invariant, fun position held => ?_⟩
  have sameMax : (step stream initial reception (.add start length)).positions.maxBuffer =
      reception.positions.maxBuffer := (sameFin_add _ _ _).maxBuffer
  rw [sameMax]
  rcases (outcome.received position).mp held with before | ⟨first, last⟩
  · exact bounded.below position before
  · rcases Nat.lt_or_ge position inOrder with old | missing
    · exact bounded.below position (.inl old)
    · exact bounded.invariant.accepted_lt windowed enabled.1 first last missing

/-- `Extract` takes nothing back and makes room. -/
theorem extract_room (stream : List UInt8) (initial : Nat) (reception : Reception)
    (maxSize : Nat) :
    (step stream initial reception (.extract maxSize)).received = reception.received ∧
      (step stream initial reception (.extract maxSize)).positions.maxBuffer =
        reception.positions.maxBuffer ∧
      reception.extracted.length ≤
        (step stream initial reception (.extract maxSize)).extracted.length := by
  unfold step
  dsimp only
  split
  · rename_i bytes buffer left positions extracts found
    refine ⟨rfl, extract_maxBuffer found, ?_⟩
    rw [List.length_append]
    exact Nat.le_add_right _ _
  · exact ⟨rfl, rfl, Nat.le_refl _⟩

theorem Bounded.extract (bounded : Bounded stream initial inOrder reception) {maxSize : Nat}
    (enabled : Enabled stream reception (.extract maxSize)) :
    Bounded stream initial inOrder (step stream initial reception (.extract maxSize)) := by
  have invariant := bounded.invariant.extract enabled
  obtain ⟨received, maxBuffer, further⟩ := extract_room stream initial reception maxSize
  refine ⟨invariant, fun position held => ?_⟩
  rw [← invariant.received, received, bounded.invariant.received] at held
  have below := bounded.below position held
  rw [maxBuffer]
  omega

theorem Bounded.step (bounded : Bounded stream initial inOrder reception)
    (enabled : Enabled stream reception call) (windowed : Windowed reception call) :
    ∃ newInOrder, Bounded stream initial newInOrder (step stream initial reception call) := by
  cases call with
  | add start length => exact bounded.add enabled windowed
  | extract maxSize => exact ⟨inOrder, bounded.extract enabled⟩
  | setFinSequence =>
      exact ⟨inOrder, bounded.invariant.setFinSequence enabled, bounded.below⟩

theorem Bounded.occupied (bounded : Bounded stream initial inOrder reception) :
    Occupied reception := by
  have delivering := bounded.invariant.delivering
  have room := delivering.stored.separated.totalLength_le
    (Nat.le_add_right reception.extracted.length reception.positions.maxBuffer)
    fun entry member => by
      have positive := List.length_pos_iff.mpr (delivering.stored.nonEmpty entry member)
      have last := bounded.below (entry.1 + entry.2.length - 1)
        (.inr ⟨entry, member, by unfold Chunk.Holds; omega⟩)
      exact ⟨delivering.stored.after entry member, by omega⟩
  rw [Occupied, bounded.invariant.numbered]
  change reception.positions.size ≤ reception.positions.maxBuffer
  rw [delivering.size]
  omega

theorem Bounded.acceptsBelow (bounded : Bounded stream initial inOrder reception)
    (enabled : Enabled stream reception call) (windowed : Windowed reception call) :
    AcceptsBelow stream initial reception call := by
  have available := bounded.invariant.delivering.available
  have reached := bounded.invariant.delivering.stored.reached
  have next := bounded.invariant.delivering.inOrder_le_next
  intro position covers missing
  have below : position < reception.extracted.length + reception.positions.maxBuffer := by
    cases call with
    | add start length =>
        obtain ⟨newInOrder, outcome, invariant⟩ := bounded.invariant.add enabled
        rcases (outcome.received position).mp (.inr covers) with before | ⟨first, last⟩
        · exact bounded.below position before
        · rcases Nat.lt_or_ge position inOrder with old | after
          · exact bounded.below position (.inl old)
          · exact bounded.invariant.accepted_lt windowed enabled.1 first last after
    | extract maxSize =>
        have invariant := bounded.invariant.extract enabled
        obtain ⟨received, maxBuffer, further⟩ := extract_room stream initial reception maxSize
        apply bounded.below position
        rw [← bounded.invariant.received, ← received, invariant.received]
        exact .inr covers
    | setFinSequence => exact absurd covers missing
  unfold windowEnd
  omega

theorem occupied_always (stream : List UInt8) (initial maxBuffer : Nat) (calls : List Call)
    (legal : (machine stream initial).Legal (create initial maxBuffer) calls)
    (along : (machine stream initial).Along Windowed (create initial maxBuffer) calls) :
    (machine stream initial).Always Occupied (create initial maxBuffer) calls ∧
      (machine stream initial).Along (AcceptsBelow stream initial) (create initial maxBuffer)
        calls := by
  have always : (machine stream initial).Always
      (fun reception => ∃ inOrder, Bounded stream initial inOrder reception)
      (create initial maxBuffer) calls :=
    Machine.Legal.always_of_along (fun _ _ ⟨_, bounded⟩ enabled windowed =>
      bounded.step enabled windowed) ⟨0, bounded_create stream initial maxBuffer⟩ legal along
  exact ⟨always.mono fun _ ⟨_, bounded⟩ => bounded.occupied,
    along.mono (fun _ _ ⟨_, bounded⟩ enabled windowed => bounded.acceptsBelow enabled windowed)
      always legal⟩

/-- A segment beyond a gap, the missing one, which passes the end of the window while bytes are
unread, and two reads. -/
theorem occupied_always_reordered :
    (machine [1, 2, 3, 4, 5, 6] 4294967294).Always Occupied (create 4294967294 4)
        [.add 2 2, .add 0 2, .add 3 3, .extract 3, .add 3 3, .extract 5] ∧
      (machine [1, 2, 3, 4, 5, 6] 4294967294).Along (AcceptsBelow [1, 2, 3, 4, 5, 6] 4294967294)
        (create 4294967294 4) [.add 2 2, .add 0 2, .add 3 3, .extract 3, .add 3 3, .extract 5] :=
  occupied_always [1, 2, 3, 4, 5, 6] 4294967294 4 _
    ⟨⟨by decide, 0, by decide⟩, ⟨by decide, 0, by decide⟩, ⟨by decide, 0, by decide⟩,
      ⟨0, by decide⟩, ⟨by decide, 0, by decide⟩, ⟨0, by decide⟩, trivial⟩
    (by decide)

/-- A segment that is longer than the buffer arrives when nothing is stored. -/
theorem not_occupied_always : ¬ ∀ (stream : List UInt8) (initial maxBuffer : Nat)
    (calls : List Call), (machine stream initial).Legal (create initial maxBuffer) calls →
      (machine stream initial).Always Occupied (create initial maxBuffer) calls ∧
        (machine stream initial).Along (AcceptsBelow stream initial) (create initial maxBuffer)
          calls := by
  intro always
  have occupied := (always [1, 2, 3] 0 2 [.add 0 3] ⟨⟨by decide, 0, by decide⟩, trivial⟩).1.2.first
  unfold Occupied at occupied
  revert occupied
  decide

end Reception

end TcpRxBuffer

end Ns3.Internet
