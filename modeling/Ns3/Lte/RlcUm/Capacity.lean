import Ns3.Lte.RlcHeader
import Ns3.Lte.RlcUm.Segmentation

/-!
What the transmitting entity puts into a PDU fits into the opportunity, and the size of the
transmission buffer is counted.
-/

namespace Ns3.Lte.LteRlcUm

open Library

/-- The sizes of all segments together. -/
def totalSize (segments : List Segment) : Nat := (segments.map Segment.size).sum

@[simp]
theorem totalSize_nil : totalSize [] = 0 := rfl

@[simp]
theorem totalSize_cons (segment : Segment) (segments : List Segment) :
    totalSize (segment :: segments) = segment.size + totalSize segments := rfl

theorem totalSize_append (first second : List Segment) :
    totalSize (first ++ second) = totalSize first + totalSize second := by
  simp [totalSize]

theorem length_flatten (segments : List Segment) :
    (segments.map (·.bytes)).flatten.length = totalSize segments := by
  induction segments with
  | nil => rfl
  | cons segment segments inductionHypothesis =>
      rw [List.map_cons, List.flatten_cons, List.length_append, inductionHypothesis,
        totalSize_cons]
      rfl

theorem Fronted.size_pos {segment : Segment} (fronted : Fronted segment) : 0 < segment.size :=
  List.length_pos_iff.mpr fronted.1

/-- What a data field takes of the opportunity and of the transmission buffer. Two bytes are for
the field behind a segment with an odd number, one for that behind an even one. -/
structure Fitted (firstSegment : Segment) (txBuffer : List Segment)
    (nextSegmentSize nextSegmentId txBufferSize : Nat) (built : Built) : Prop where
  marked : Marked built.extensionBits built.lengthIndicators
  indicators : ∀ lengthIndicator ∈ built.lengthIndicators, lengthIndicator < 2048
  room : (3 * built.lengthIndicators.length + nextSegmentId % 2) / 2 + totalSize built.dataField ≤
    nextSegmentSize
  taken : 0 < totalSize built.dataField
  conserved : totalSize built.dataField + totalSize built.txBuffer =
    firstSegment.size + totalSize txBuffer
  counted : txBufferSize = totalSize txBuffer → firstSegment.size + totalSize txBuffer < 2 ^ 32 →
    built.txBufferSize = totalSize built.txBuffer

variable {firstSegment next : Segment} {txBuffer : List Segment} {built : Built}
  {nextSegmentSize nextSegmentId txBufferSize : Nat}

theorem fitted_last (fronted : Fronted firstSegment) (fits : firstSegment.size ≤ nextSegmentSize) :
    Fitted firstSegment txBuffer nextSegmentSize nextSegmentId txBufferSize
      (Built.last firstSegment txBuffer txBufferSize) where
  marked := .last
  indicators := by simp [Built.last]
  room := by
    simp only [Built.last, List.length_nil, totalSize_cons, totalSize_nil]
    omega
  taken := by simpa [Built.last] using fronted.size_pos
  conserved := rfl
  counted counted _ := counted

theorem fitted_split (fronted : Fronted firstSegment) (room : 0 < nextSegmentSize) :
    Fitted firstSegment txBuffer nextSegmentSize nextSegmentId txBufferSize
      (Built.split firstSegment nextSegmentSize txBuffer txBufferSize) := by
  have positive := fronted.size_pos
  have taken : (firstSegment.bytes.take (min firstSegment.size nextSegmentSize)).length =
      min firstSegment.size nextSegmentSize := by
    rw [List.length_take, Segment.size]
    omega
  simp only [Built.split]
  split
  case isTrue remains =>
    rw [List.length_drop] at remains
    refine ⟨.last, by simp, ?_, ?_, ?_, ?_⟩
    all_goals
      simp only [totalSize_cons, totalSize_nil, Segment.size, taken, List.length_drop,
        List.length_nil] at *
    · omega
    · omega
    · omega
    · intro counted fits
      rw [counted, wrap_of_lt (by omega)]
      omega
  case isFalse nothing =>
    rw [List.length_drop] at nothing
    refine ⟨.last, by simp, ?_, ?_, ?_, fun counted _ => counted⟩
    all_goals
      simp only [totalSize_cons, totalSize_nil, Segment.size, taken, List.length_nil] at *
      omega

theorem fitted_cons (small : firstSegment.size ≤ 2047)
    (fits : (if nextSegmentId % 2 = 1 then 2 else 1) + firstSegment.size ≤ nextSegmentSize)
    (fitted : Fitted next txBuffer
      (nextSegmentSize - ((if nextSegmentId % 2 = 1 then 2 else 1) + firstSegment.size))
      (nextSegmentId + 1) (wrapSub 32 txBufferSize next.size) built) :
    Fitted firstSegment (next :: txBuffer) nextSegmentSize nextSegmentId txBufferSize
      (Built.cons firstSegment built) where
  marked := .more firstSegment.size fitted.marked
  indicators := by
    intro lengthIndicator member
    rcases List.mem_cons.mp member with rfl | member
    · omega
    · exact fitted.indicators lengthIndicator member
  room := by
    have room := fitted.room
    simp only [Built.cons, List.length_cons, totalSize_cons]
    rcases Nat.mod_two_eq_zero_or_one nextSegmentId with even | odd
    · rw [if_neg (by omega)] at room fits
      omega
    · rw [if_pos odd] at room fits
      omega
  taken := by
    have taken := fitted.taken
    simp only [Built.cons, totalSize_cons]
    omega
  conserved := by
    have conserved := fitted.conserved
    simp only [Built.cons, totalSize_cons]
    omega
  counted counted fits := by
    rw [totalSize_cons] at counted fits
    apply fitted.counted
    · rw [counted, wrapSub_of_le (by omega) (by omega)]
      omega
    · omega

/-- The loop. -/
theorem fitted_fill (fronted : Fronted firstSegment)
    (whole : ∀ segment ∈ txBuffer, Whole segment) (room : 0 < nextSegmentSize) :
    Fitted firstSegment txBuffer nextSegmentSize nextSegmentId txBufferSize
      (Built.fill firstSegment nextSegmentSize nextSegmentId txBufferSize txBuffer) := by
  have goes : ∀ {segment : Segment} {room : Nat}, Fronted segment → 0 < room →
      ¬ (segment.size = 0 ∨ room = 0) := by
    rintro segment room fronted positive (zero | zero)
    · have := fronted.size_pos
      omega
    · omega
  induction txBuffer generalizing firstSegment nextSegmentSize nextSegmentId txBufferSize with
  | nil =>
      rw [Built.fill, if_neg (goes fronted room)]
      split
      · exact fitted_split fronted room
      case isFalse fits => exact fitted_last fronted (by omega)
  | cons next txBuffer inductionHypothesis =>
      obtain ⟨wholeNext, others⟩ := List.forall_mem_cons.mp whole
      rw [Built.fill, if_neg (goes fronted room)]
      split
      · exact fitted_split fronted room
      case isFalse fits =>
        split
        · exact fitted_last fronted (by omega)
        case isFalse more =>
          apply fitted_cons (by omega)
          · split <;> omega
          · apply inductionHypothesis wholeNext.fronted others
            split <;> omega

end Ns3.Lte.LteRlcUm
