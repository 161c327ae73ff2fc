import Ns3.Internet.Ipv6Fragmentation.Division
import Mathlib.Data.List.Nodup

/-!
The fragments that wait at the receiver.

`IsEntire` accepts only fragments that follow each other exactly, so the list that it
accepts has each fragment of the packet once.
-/

namespace Ns3.Internet

open Library Ipv6ExtensionFragment

namespace Ipv6Datagram

variable {datagram : Ipv6Datagram} {index : Nat}

/-- The bytes of a fragment and their position, as the receiver stores them. -/
def chunk (datagram : Ipv6Datagram) (index : Nat) : Chunk UInt8 := (datagram.piece index).chunk

theorem start_chunk (datagram : Ipv6Datagram) (index : Nat) :
    (datagram.chunk index).1 = index * datagram.unit := rfl

theorem Valid.start_injective (valid : datagram.Valid) {a b : Nat}
    (same : a * datagram.unit = b * datagram.unit) : a = b :=
  Nat.eq_of_mul_eq_mul_right valid.unit_pos same

/-- A fragment ends where the next one starts, and the last one with the payload. -/
theorem Valid.stop_eq (valid : datagram.Valid) (inside : index < datagram.count) :
    index * datagram.unit + (datagram.chunk index).2.length =
      if index + 1 < datagram.count then (index + 1) * datagram.unit
      else datagram.payload.length := by
  have startLe := (valid.bounds inside).2
  have more := valid.more_iff index
  have less := datagram.unit_le
  have length : (datagram.chunk index).2.length = min (if index + 1 < datagram.count then
      datagram.unit else datagram.payload.length - index * datagram.unit)
      (datagram.payload.length - index * datagram.unit) := by
    simp only [chunk, Piece.chunk, piece, List.length_take, List.length_drop]
  rw [length]
  split
  next follows =>
    have before := more.mp follows
    rw [Nat.succ_mul]
    omega
  next =>
    omega

/-- No fragment starts at the end of a payload that is not empty. -/
theorem Valid.start_lt (valid : datagram.Valid) (filled : datagram.payload ≠ [])
    (inside : index < datagram.count) : index * datagram.unit < datagram.payload.length := by
  have some := List.length_pos_iff.mpr filled
  cases index with
  | zero =>
      rw [Nat.zero_mul]
      exact some
  | succ index =>
      have before := (valid.more_iff index).mp inside
      have less := datagram.unit_le
      rw [Nat.succ_mul]
      omega

/-- Fragments that follow each other up to the last one are those of the packet. -/
theorem Valid.eq_of_adjacent (valid : datagram.Valid) (filled : datagram.payload ≠ [])
    {list : List (Chunk UInt8)} (inside : index < datagram.count)
    (members : ∀ chunk ∈ list, ∃ other < datagram.count, chunk = datagram.chunk other)
    (last : list.getLast? = some (datagram.chunk (datagram.count - 1)))
    (adjacent : Fragments.adjacent list (index * datagram.unit) = true) :
    list = (List.range' index (datagram.count - index)).map datagram.chunk := by
  induction list generalizing index with
  | nil => exact nomatch last
  | cons stored rest inductionHypothesis =>
      rw [Fragments.adjacent] at adjacent
      split at adjacent
      · exact nomatch adjacent
      next starts =>
        obtain ⟨other, otherInside, rfl⟩ := members stored List.mem_cons_self
        obtain rfl : index = other := by
          refine valid.start_injective ?_
          exact Decidable.of_not_not starts
        have stop := valid.stop_eq inside
        have payloadFits := valid.payloadFits
        cases rest with
        | nil =>
            have same : index = datagram.count - 1 := by
              refine valid.start_injective ?_
              exact congrArg Prod.fst (Option.some.inj last)
            have one : datagram.count - index = 1 := by omega
            rw [one]
            rfl
        | cons next others =>
            by_cases follows : index + 1 < datagram.count
            · rw [if_pos follows] at stop
              have nextLe := (valid.bounds follows).2
              rw [stop, wrap_of_lt (by omega)] at adjacent
              have later := inductionHypothesis follows
                (fun chunk member => members chunk (List.mem_cons_of_mem _ member)) last adjacent
              have left : datagram.count - index = datagram.count - (index + 1) + 1 := by omega
              rw [left, List.range'_succ, List.map_cons, later]
            · rw [if_neg follows] at stop
              rw [stop, wrap_of_lt payloadFits, Fragments.adjacent] at adjacent
              obtain ⟨following, followingInside, rfl⟩ :=
                members next (List.mem_cons_of_mem _ List.mem_cons_self)
              have before := valid.start_lt filled followingInside
              rw [if_pos (by rw [start_chunk]; omega)] at adjacent
              exact nomatch adjacent

/-- The fragments of the packet follow each other. -/
theorem Valid.adjacent_range (valid : datagram.Valid) {length : Nat}
    (inside : index + length = datagram.count) :
    Fragments.adjacent ((List.range' index length).map datagram.chunk)
      (index * datagram.unit) = true := by
  induction length generalizing index with
  | zero => rfl
  | succ length inductionHypothesis =>
      have stop := valid.stop_eq (show index < datagram.count by omega)
      rw [List.range'_succ, List.map_cons, Fragments.adjacent, start_chunk,
        if_neg fun differs => differs rfl, stop]
      split
      next follows =>
        have nextLe := (valid.bounds follows).2
        have payloadFits := valid.payloadFits
        rw [wrap_of_lt (by omega)]
        exact inductionHypothesis (by omega)
      next ends =>
        have none : length = 0 := by omega
        rw [none]
        rfl

/-- The fragments of the packet hold its payload. -/
theorem flatten_range {length : Nat} (some : 0 < length)
    (inside : index + length = datagram.count) :
    (((List.range' index length).map datagram.chunk).map Prod.snd).flatten =
      datagram.payload.drop (index * datagram.unit) := by
  induction length generalizing index with
  | zero => exact absurd some (Nat.lt_irrefl 0)
  | succ length inductionHypothesis =>
      rw [List.range'_succ, List.map_cons, List.map_cons, List.flatten_cons]
      by_cases follows : index + 1 < datagram.count
      · rw [inductionHypothesis (by omega) (by omega), Nat.succ_mul, ← List.drop_drop]
        simp only [chunk, Piece.chunk, piece, follows, if_true]
        exact List.take_append_drop datagram.unit _
      · have none : length = 0 := by omega
        subst none
        simp only [chunk, Piece.chunk, piece, follows, if_false, List.range'_zero, List.map_nil,
          List.flatten_nil, List.append_nil]
        exact List.take_of_length_le (by rw [List.length_drop])

theorem count_pos (datagram : Ipv6Datagram) : 0 < datagram.count := Nat.succ_pos _

end Ipv6Datagram

end Ns3.Internet
