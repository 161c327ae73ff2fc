import Ns3.Library.Chunks
import Ns3.Library.Word

/-!
A stream that a loop cuts into pieces, with an offset of sixteen bits.

All pieces but the last have the same size, a multiple of some grain, and the loop goes on as long
as the rest exceeds a limit. The sizes have 32 bits. The pieces make up the stream exactly if the
position of the last one still fits into the offset; a loop whose offset wraps around cuts off
pieces that it has cut off before, for ever or until one of them happens to reach the end.
-/

namespace Ns3.Library

universe u

/-- The loop: where the pieces start and how many elements they have. -/
def cut (size limit unit : Nat) : Nat → Nat → Option (List (Nat × Nat))
  | 0, _ => none
  | turns + 1, offset =>
      if size > wrap 32 (offset + limit) then
        (cut size limit unit turns (wrap 16 (offset + unit))).map ((offset, unit) :: ·)
      else some [(offset, wrapSub 32 size offset)]

/-- How often the loop has to go on. -/
def cuts (size limit unit : Nat) : Nat := (size - limit + (unit - 1)) / unit

section Arithmetic

variable {size limit unit index : Nat}

theorem lt_cuts_iff (some : 0 < unit) :
    index < cuts size limit unit ↔ index * unit + limit < size := by
  unfold cuts
  rw [← Nat.succ_le_iff, Nat.le_div_iff_mul_le some, Nat.succ_mul]
  omega

theorem cuts_of_le (short : size ≤ limit) : cuts size limit unit = 0 := by
  unfold cuts
  rw [Nat.sub_eq_zero_of_le short, Nat.zero_add]
  cases unit with
  | zero => rfl
  | succ unit => exact Nat.div_eq_of_lt (Nat.lt_succ_self _)

/-- The last piece starts inside the stream. -/
theorem cuts_mul_lt (long : limit < size) (fits : unit ≤ limit) (some : 0 < unit) :
    cuts size limit unit * unit < size := by
  have low := Nat.div_mul_le_self (size - limit + (unit - 1)) unit
  unfold cuts
  omega

end Arithmetic

variable {Element : Type u}

/-- A piece as a chunk of a longer stream, in which the stream has a position of its own. -/
def chunkAt (stream : List Element) (start : Nat) (piece : Nat × Nat) : Chunk Element :=
  (wrap 16 (piece.1 + start), (stream.drop piece.1).take piece.2)

/-- The chunks are disjoint parts of the stream, whose first position is given, and cover it; all
but the last are made of grains. -/
structure Partitions (grain : Nat) (stream : List Element) (start : Nat)
    (chunks : List (Chunk Element)) : Prop where
  disjoint : chunks.Pairwise fun a b => ∀ position, ¬ (a.Holds position ∧ b.Holds position)
  covers : ∀ position < stream.length, Covers chunks (start + position)
  from_start : ∀ chunk ∈ chunks, start ≤ chunk.1
  slices : ∀ chunk ∈ chunks, Chunk.SliceOf stream (chunk.1 - start, chunk.2)
  within : ∀ chunk ∈ chunks, chunk.1 + chunk.2.length ≤ start + stream.length
  grains : ∀ chunk ∈ chunks.dropLast, chunk.2.length % grain = 0

section Build

variable {grain start : Nat} {stream : List Element} {chunks : List (Chunk Element)}

theorem partitions_single (grain : Nat) (stream : List Element) (start : Nat) :
    Partitions grain stream start [(start, stream)] where
  disjoint := List.pairwise_singleton _ _
  covers position inside :=
    ⟨_, List.mem_singleton_self _, Nat.le_add_right _ _, Nat.add_lt_add_left inside _⟩
  from_start _ member := List.mem_singleton.mp member ▸ Nat.le_refl _
  slices chunk member := by
    obtain rfl := List.mem_singleton.mp member
    simp [Chunk.SliceOf]
  within _ member := List.mem_singleton.mp member ▸ Nat.le_refl _
  grains _ member := nomatch member

/-- One more chunk in front. -/
theorem Partitions.cons (partitions : Partitions grain (stream.drop unit) (start + unit) chunks)
    (fits : unit ≤ stream.length) (whole : unit % grain = 0) (some : chunks ≠ []) :
    Partitions grain stream start ((start, stream.take unit) :: chunks) := by
  have length : (stream.take unit).length = unit := by
    rw [List.length_take, Nat.min_eq_left fits]
  have rest := partitions.within
  rw [List.length_drop] at rest
  constructor
  case disjoint =>
    refine List.pairwise_cons.mpr ⟨fun other member position both => ?_, partitions.disjoint⟩
    have behind := partitions.from_start other member
    have high := both.1.2
    have low := both.2.1
    dsimp only at high
    omega
  case covers =>
    intro position inside
    by_cases early : position < unit
    · refine covers_cons.mpr (.inl ⟨Nat.le_add_right _ _, ?_⟩)
      dsimp only
      omega
    · have later := partitions.covers (position - unit) (by rw [List.length_drop]; omega)
      rw [show start + unit + (position - unit) = start + position by omega] at later
      exact covers_cons.mpr (.inr later)
  case from_start =>
    intro chunk member
    rcases List.mem_cons.mp member with rfl | behind
    · exact Nat.le_refl _
    · exact Nat.le_trans (Nat.le_add_right _ _) (partitions.from_start chunk behind)
  case slices =>
    intro chunk member
    rcases List.mem_cons.mp member with rfl | behind
    · simp [Chunk.SliceOf]
    · have low := partitions.from_start chunk behind
      have slice := partitions.slices chunk behind
      unfold Chunk.SliceOf at slice ⊢
      dsimp only at slice ⊢
      rw [List.drop_drop, show unit + (chunk.1 - (start + unit)) = chunk.1 - start by omega] at slice
      exact slice
  case within =>
    intro chunk member
    rcases List.mem_cons.mp member with rfl | behind
    · dsimp only
      omega
    · have high := rest chunk behind
      omega
  case grains =>
    intro chunk member
    rw [List.dropLast_cons_of_ne_nil some] at member
    rcases List.mem_cons.mp member with rfl | behind
    · rwa [length]
    · exact partitions.grains chunk behind

end Build

section Loop

variable {grain start limit unit turns : Nat} {stream : List Element} {pieces : List (Nat × Nat)}

/-- No piece is larger than the limit. -/
theorem length_le_of_cut {size offset : Nat} (ends : cut size limit unit turns offset = some pieces)
    (small : unit ≤ limit) (isSize : stream.length = size) :
    ∀ piece ∈ pieces, ((stream.drop piece.1).take piece.2).length ≤ limit := by
  induction turns generalizing offset pieces with
  | zero => exact nomatch ends
  | succ turns inductionHypothesis =>
      rw [cut] at ends
      split at ends
      next =>
        obtain ⟨later, found, rfl⟩ := Option.map_eq_some_iff.mp ends
        intro piece member
        rcases List.mem_cons.mp member with rfl | behind
        · exact Nat.le_trans (List.length_take_le _ _) small
        · exact inductionHypothesis found piece behind
      next last =>
        cases ends
        intro piece member
        obtain rfl := List.mem_singleton.mp member
        have less := wrap_le 32 (offset + limit)
        rw [List.length_take, List.length_drop]
        omega

/-- The offsets stay whole and short. -/
theorem offset_of_cut {size offset : Nat} (ends : cut size limit unit turns offset = some pieces)
    (whole : unit % grain = 0) (divides : grain ∣ 2 ^ 16) (aligned : offset % grain = 0)
    (short : offset < 2 ^ 16) : ∀ piece ∈ pieces, piece.1 % grain = 0 ∧ piece.1 < 2 ^ 16 := by
  induction turns generalizing offset pieces with
  | zero => exact nomatch ends
  | succ turns inductionHypothesis =>
      rw [cut] at ends
      split at ends
      next =>
        obtain ⟨later, found, rfl⟩ := Option.map_eq_some_iff.mp ends
        have next : wrap 16 (offset + unit) % grain = 0 := by
          rw [wrap, Nat.mod_mod_of_dvd _ divides, Nat.add_mod, aligned, whole, Nat.zero_add,
            Nat.zero_mod]
        exact List.forall_mem_cons.mpr
          ⟨⟨aligned, short⟩, inductionHypothesis found next (wrap_lt _ _)⟩
      next =>
        cases ends
        exact List.forall_mem_singleton.mpr ⟨aligned, short⟩

theorem ne_nil_of_cut {size offset : Nat} (ends : cut size limit unit turns offset = some pieces) :
    pieces ≠ [] := by
  cases turns with
  | zero => exact nomatch ends
  | succ turns =>
      rw [cut] at ends
      split at ends
      · obtain ⟨later, -, rfl⟩ := Option.map_eq_some_iff.mp ends
        exact List.cons_ne_nil _ _
      · cases ends
        exact List.cons_ne_nil _ _

/-- With pieces of no elements the loop has no end. -/
theorem cut_eq_none {size : Nat} (limitFits : limit < 2 ^ 32) (long : limit < size) (turns : Nat) :
    cut size limit 0 turns 0 = none := by
  induction turns with
  | zero => rfl
  | succ turns inductionHypothesis =>
      rw [cut, Nat.zero_add, wrap_of_lt limitFits, if_pos long, Nat.add_zero,
        wrap_of_lt (by decide : 0 < 2 ^ 16), inductionHypothesis]
      rfl

/-- The pieces up to the last one that is needed, whose offsets may have wrapped around. -/
theorem getElem_of_cut {size : Nat} (index next : Nat) (sizeFits : size < 2 ^ 32)
    (some : 0 < unit) (ends : cut size limit unit turns (wrap 16 (index * unit)) = .some pieces)
    (needed : index + next ≤ cuts size limit unit) (inside : cuts size limit unit * unit < size) :
    ∃ length, pieces[next]? = .some (wrap 16 ((index + next) * unit), length) ∧ 0 < length ∧
      (index + next < cuts size limit unit → length = unit) := by
  induction turns generalizing index next pieces with
  | zero => exact nomatch ends
  | succ turns inductionHypothesis =>
      have wrapped := wrap_le 16 (index * unit)
      rw [cut] at ends
      split at ends
      next =>
        obtain ⟨later, found, rfl⟩ := Option.map_eq_some_iff.mp ends
        cases next with
        | zero => exact ⟨unit, rfl, some, fun _ => rfl⟩
        | succ next =>
            have again : wrap 16 (wrap 16 (index * unit) + unit) = wrap 16 ((index + 1) * unit) := by
              rw [wrap, wrap, wrap, Nat.mod_add_mod, Nat.succ_mul]
            rw [again] at found
            have same : index + 1 + next = index + (next + 1) := by omega
            obtain ⟨length, isPiece, positive, whole⟩ :=
              inductionHypothesis (index + 1) next found (same ▸ needed)
            rw [same] at isPiece whole
            exact ⟨length, isPiece, positive, whole⟩
      next stops =>
        cases ends
        -- The loop has not stopped before all the pieces are cut.
        have last : ¬ index < cuts size limit unit := by
          intro further
          have more := (lt_cuts_iff some).mp further
          rw [wrap_of_lt (by omega)] at stops
          omega
        have isLast : index = cuts size limit unit ∧ next = 0 := by omega
        obtain ⟨isIndex, rfl⟩ := isLast
        have before : index * unit < size := isIndex ▸ inside
        refine ⟨wrapSub 32 size (wrap 16 (index * unit)), rfl, ?_, fun further => absurd further last⟩
        rw [wrapSub_of_le (by omega) sizeFits]
        omega

/-- While the offset fits, the loop cuts off one piece after the other. -/
theorem exists_cut (sizeFits : stream.length < 2 ^ 32) (limitFits : limit < 2 ^ 32)
    (small : unit ≤ limit) (near : limit < unit + grain) (grainFits : grain ≤ 2 ^ 16)
    (whole : unit % grain = 0) (some : stream.length ≤ limit ∨ 0 < unit)
    (offsetFits : start + cuts stream.length limit unit * unit < 2 ^ 16) (index left : Nat)
    (isLeft : index + left = cuts stream.length limit unit) :
    ∃ pieces, cut stream.length limit unit (left + 1) (index * unit) = .some pieces ∧
      Partitions grain (stream.drop (index * unit)) (start + index * unit)
        (pieces.map (chunkAt stream start)) := by
  have before : index * unit ≤ cuts stream.length limit unit * unit :=
    Nat.mul_le_mul_right unit (by omega)
  have place : wrap 16 (index * unit + start) = start + index * unit := by
    rw [wrap_of_lt (by omega), Nat.add_comm]
  induction left generalizing index with
  | zero =>
      have enough : stream.length ≤ index * unit + limit := by
        rcases some with short | positive
        · exact Nat.le_trans short (Nat.le_add_left _ _)
        · exact Nat.le_of_not_lt fun more =>
            absurd ((lt_cuts_iff positive).mpr more) (by omega)
      have inside : index * unit ≤ stream.length ∧ index * unit + limit < 2 ^ 32 := by
        rcases Nat.lt_or_ge limit stream.length with long | short
        · have positive : 0 < unit := by omega
          have last := cuts_mul_lt long small positive
          have one : 1 * unit ≤ cuts stream.length limit unit * unit :=
            Nat.mul_le_mul_right unit ((lt_cuts_iff positive).mpr (by omega))
          omega
        · rw [cuts_of_le short] at before
          omega
      obtain ⟨inside, sumFits⟩ := inside
      rw [cut, wrap_of_lt sumFits, if_neg (Nat.not_lt_of_le enough)]
      refine ⟨_, rfl, ?_⟩
      rw [List.map_singleton, chunkAt, place, wrapSub_of_le inside sizeFits,
        List.take_of_length_le (by rw [List.length_drop])]
      exact partitions_single grain _ _
  | succ left inductionHypothesis =>
      have positive : 0 < unit := by
        rcases some with short | positive
        · have none : cuts stream.length limit unit = 0 := cuts_of_le short
          omega
        · exact positive
      have more := (lt_cuts_iff positive).mp (show index < cuts stream.length limit unit by omega)
      have nextBefore : (index + 1) * unit ≤ cuts stream.length limit unit * unit :=
        Nat.mul_le_mul_right unit (by omega)
      have next : (index + 1) * unit = index * unit + unit := Nat.succ_mul index unit
      obtain ⟨pieces, found, partitions⟩ := inductionHypothesis (index + 1) (by omega)
        nextBefore (by rw [wrap_of_lt (by omega), Nat.add_comm])
      rw [cut, wrap_of_lt (by omega), if_pos more, wrap_of_lt (by omega), ← next, found]
      refine ⟨_, rfl, ?_⟩
      rw [List.map_cons, chunkAt, place]
      rw [next, ← List.drop_drop, ← Nat.add_assoc] at partitions
      refine partitions.cons ?_ whole ?_
      · rw [List.length_drop]
        omega
      · rw [ne_eq, List.map_eq_nil_iff]
        exact ne_nil_of_cut found

/-- The chunks of these pieces. -/
theorem exists_chunk (start : Nat) (sizeFits : stream.length < 2 ^ 32) (some : 0 < unit)
    (inside : cuts stream.length limit unit * unit < stream.length)
    (ends : cut stream.length limit unit turns 0 = .some pieces) {next : Nat}
    (needed : next ≤ cuts stream.length limit unit) :
    ∃ data, (pieces.map (chunkAt stream start))[next]? =
        .some (wrap 16 (start + next * unit), data) ∧ 0 < data.length ∧
      (next < cuts stream.length limit unit → next * unit < 2 ^ 16 → data.length = unit) := by
  have begins : wrap 16 (0 * unit) = 0 := by rw [Nat.zero_mul]; rfl
  obtain ⟨length, isPiece, filled, isUnit⟩ := getElem_of_cut 0 next sizeFits
    some (begins ▸ ends) ((Nat.zero_add next).symm ▸ needed) inside
  rw [Nat.zero_add] at isPiece isUnit
  have low := wrap_le 16 (next * unit)
  have position := Nat.mul_le_mul_right unit needed
  refine ⟨(stream.drop (wrap 16 (next * unit))).take length, ?_, ?_, fun further fits => ?_⟩
  · rw [List.getElem?_map, isPiece, Option.map_some, chunkAt, Nat.add_comm start, wrap, wrap, wrap,
      Nat.mod_add_mod]
  · rw [List.length_take, List.length_drop]
    omega
  · have more := (lt_cuts_iff some).mp further
    have one : (next + 1) * unit ≤ cuts stream.length limit unit * unit :=
      Nat.mul_le_mul_right unit further
    rw [Nat.succ_mul] at one
    rw [isUnit further, wrap_of_lt fits, List.length_take, List.length_drop]
    omega

/-- A piece whose offset has wrapped around lies where an earlier one does. -/
theorem offset_fits_of_partitions (sizeFits : stream.length < 2 ^ 32) (some : 0 < unit)
    (startFits : start < 2 ^ 16) (inside : cuts stream.length limit unit * unit < stream.length)
    (ends : cut stream.length limit unit turns 0 = .some pieces)
    (partitions : Partitions grain stream start (pieces.map (chunkAt stream start))) {next : Nat}
    (needed : next ≤ cuts stream.length limit unit) : start + next * unit < 2 ^ 16 := by
  induction next using Nat.strong_induction_on with
  | _ next inductionHypothesis =>
      by_contra beyond
      obtain ⟨data, isChunk, filled, -⟩ := exists_chunk start sizeFits some inside ends needed
      have low := partitions.from_start _ (List.mem_of_getElem? isChunk)
      have wrapped := wrap_lt 16 (start + next * unit)
      generalize wrap 16 (start + next * unit) = position at isChunk low wrapped
      dsimp only at low
      -- The piece at the same position.
      have division := Nat.div_add_mod' (position - start) unit
      have remainder := Nat.mod_lt (position - start) some
      generalize (position - start) / unit = earlier at division
      have before : earlier < next := by
        by_contra after
        have := Nat.mul_le_mul_right unit (Nat.le_of_not_lt after)
        omega
      have earlierFits := inductionHypothesis earlier before (by omega)
      obtain ⟨others, isEarlier, -, isUnit⟩ := exists_chunk start sizeFits some inside
        ends (Nat.le_trans (Nat.le_of_lt before) needed)
      have length := isUnit (by omega) (by omega)
      rw [wrap_of_lt earlierFits] at isEarlier
      obtain ⟨earlierInside, isEarlier⟩ := List.getElem?_eq_some_iff.mp isEarlier
      obtain ⟨nextInside, isChunk⟩ := List.getElem?_eq_some_iff.mp isChunk
      have apart := List.pairwise_iff_getElem.mp partitions.disjoint earlier next earlierInside
        nextInside before position
      rw [isEarlier, isChunk] at apart
      refine apart ⟨⟨?_, ?_⟩, ⟨Nat.le_refl _, ?_⟩⟩ <;> dsimp only <;> omega

/-- The pieces make up the stream if and only if the loop ends, and with an offset that fits. -/
theorem cut_partitions_iff (sizeFits : stream.length < 2 ^ 32) (limitFits : limit < 2 ^ 32)
    (small : unit ≤ limit) (near : limit < unit + grain) (grainFits : grain ≤ 2 ^ 16)
    (whole : unit % grain = 0) (startFits : start < 2 ^ 16) :
    (∃ turns pieces, cut stream.length limit unit turns 0 = some pieces ∧
      Partitions grain stream start (pieces.map (chunkAt stream start))) ↔
      (stream.length ≤ limit ∨ 0 < unit) ∧
        start + cuts stream.length limit unit * unit < 2 ^ 16 := by
  constructor
  · rintro ⟨turns, pieces, ends, partitions⟩
    rcases Nat.lt_or_ge limit stream.length with long | short
    · rcases Nat.eq_zero_or_pos unit with rfl | positive
      · rw [cut_eq_none limitFits long] at ends
        exact nomatch ends
      · exact ⟨.inr positive, offset_fits_of_partitions sizeFits positive startFits
          (cuts_mul_lt long small positive) ends partitions (Nat.le_refl _)⟩
    · rw [cuts_of_le short, Nat.zero_mul]
      exact ⟨.inl short, startFits⟩
  · rintro ⟨some, offsetFits⟩
    obtain ⟨pieces, found, partitions⟩ := exists_cut sizeFits limitFits small near
      grainFits whole some offsetFits 0 _ (Nat.zero_add _)
    rw [Nat.zero_mul] at found partitions
    exact ⟨_, pieces, found, partitions⟩

end Loop

end Ns3.Library
