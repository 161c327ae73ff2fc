import Ns3.Library.Chunks

/-!
Tiles of a stream that arrive in any order, and more than once.

The tiles follow each other without a gap and none is empty. A receiver keeps those that have
arrived in the order of their positions and takes a second copy for a duplicate. What it keeps
reaches from one end of the stream to the other only if every tile has arrived.
-/

namespace Ns3.Library

universe u v

section Tiles

variable {Element : Type u}

/-- The tiles from a position on. -/
def Tiles : Nat → List (Chunk Element) → Prop
  | _, [] => True
  | start, tile :: tiles =>
      tile.1 = start ∧ tile.2 ≠ [] ∧ Tiles (start + tile.2.length) tiles

variable {start : Nat} {tiles : List (Chunk Element)}

theorem Tiles.start_le (isTiling : Tiles start tiles) : ∀ tile ∈ tiles, start ≤ tile.1 := by
  induction tiles generalizing start with
  | nil =>
      intro tile member
      exact nomatch member
  | cons first rest inductionHypothesis =>
      obtain ⟨starts, _, later⟩ := isTiling
      intro tile member
      rcases List.mem_cons.mp member with rfl | behind
      · exact Nat.le_of_eq starts.symm
      · have after := inductionHypothesis later tile behind
        omega

/-- Tiles are in the order of their positions. -/
theorem Tiles.sorted (isTiling : Tiles start tiles) :
    tiles.Pairwise fun a b => a.1 < b.1 := by
  induction tiles generalizing start with
  | nil => exact .nil
  | cons first rest inductionHypothesis =>
      obtain ⟨starts, filled, later⟩ := isTiling
      have positive := List.length_pos_iff.mpr filled
      refine List.pairwise_cons.mpr ⟨?_, inductionHypothesis later⟩
      intro tile behind
      have after := later.start_le tile behind
      omega

/-- Where a tiling ends. -/
def tilesEnd (start : Nat) (tiles : List (Chunk Element)) : Nat := start + totalLength tiles

/-- Every tile ends before the tiling does. -/
theorem Tiles.stop_le (isTiling : Tiles start tiles) :
    ∀ tile ∈ tiles, tile.1 + tile.2.length ≤ tilesEnd start tiles := by
  induction tiles generalizing start with
  | nil =>
      intro tile member
      exact nomatch member
  | cons first rest inductionHypothesis =>
      obtain ⟨starts, _, later⟩ := isTiling
      intro tile member
      unfold tilesEnd
      rw [totalLength_cons]
      rcases List.mem_cons.mp member with rfl | behind
      · omega
      · have before := inductionHypothesis later tile behind
        unfold tilesEnd at before
        omega

/-- Put a chunk in its place, unless there is one at its position. A chunk of another length at
the same position is refused. -/
def insertNew (chunk : Chunk Element) : List (Chunk Element) → Option (List (Chunk Element))
  | [] => some [chunk]
  | stored :: rest =>
      if stored.1 > chunk.1 then some (chunk :: stored :: rest)
      else if stored.1 = chunk.1 then
        if chunk.2.length = stored.2.length then some (stored :: rest) else none
      else (insertNew chunk rest).map (stored :: ·)

/-- How far the chunks reach without a hole. -/
def reach : List (Chunk Element) → Nat → Option Nat
  | [], reached => some reached
  | stored :: rest, reached =>
      if reached < stored.1 then none else reach rest (max reached (stored.1 + stored.2.length))

end Tiles

variable {Element : Type u} {Part : Type v} [DecidableEq Part] {tile : Part → Chunk Element}
  {parts arrived : List Part}

/-- The tiles of the parts that have arrived. -/
def present (tile : Part → Chunk Element) (parts arrived : List Part) : List (Chunk Element) :=
  (parts.filter (· ∈ arrived)).map tile

theorem present_cons (first : Part) (parts arrived : List Part) :
    present tile (first :: parts) arrived =
      if first ∈ arrived then tile first :: present tile parts arrived
      else present tile parts arrived := by
  unfold present
  rw [List.filter_cons]
  by_cases member : first ∈ arrived <;> simp [member]

/-- A part that is not there does not matter. -/
theorem present_append_of_not_mem {part : Part} (absent : part ∉ parts) (arrived : List Part) :
    present tile parts (arrived ++ [part]) = present tile parts arrived := by
  unfold present
  congr 1
  apply List.filter_congr
  intro other member
  have different : other ≠ part := fun same => absent (same ▸ member)
  simp [different]

/-- A part that arrives, for the first time or again. -/
theorem insertNew_present (sorted : parts.Pairwise fun a b => (tile a).1 < (tile b).1)
    {part : Part} (isPart : part ∈ parts) :
    insertNew (tile part) (present tile parts arrived) =
      some (present tile parts (arrived ++ [part])) := by
  induction parts with
  | nil => exact nomatch isPart
  | cons first rest inductionHypothesis =>
      obtain ⟨least, sortedRest⟩ := List.pairwise_cons.mp sorted
      rw [present_cons, present_cons]
      by_cases here : part = first
      · subst here
        have absent : part ∉ rest := by
          intro member
          exact Nat.lt_irrefl _ (least part member)
        have arrives : part ∈ arrived ++ [part] := by simp
        rw [if_pos arrives, present_append_of_not_mem absent]
        by_cases before : part ∈ arrived
        · rw [if_pos before]
          simp [insertNew]
        · rw [if_neg before]
          cases behind : present tile rest arrived with
          | nil => rfl
          | cons next others =>
              have member : next ∈ present tile rest arrived := by simp [behind]
              obtain ⟨other, isOther, rfl⟩ := List.mem_map.mp member
              have later := least other (List.mem_filter.mp isOther).1
              rw [insertNew, if_pos later]
      · have inRest : part ∈ rest := (List.mem_cons.mp isPart).resolve_left here
        have later := least part inRest
        have same : first ∈ arrived ++ [part] ↔ first ∈ arrived := by
          simp [Ne.symm here]
        have inserted := inductionHypothesis sortedRest inRest
        by_cases before : first ∈ arrived
        · rw [if_pos before, if_pos (same.mpr before), insertNew, if_neg (by omega),
            if_neg (by omega), inserted, Option.map_some]
        · rw [if_neg before, if_neg (fun member => before (same.mp member)), inserted]

/-- The parts that have arrived reach the end exactly if no part is missing. -/
theorem reach_present_iff {start : Nat} (isTiling : Tiles start (parts.map tile)) :
    reach (present tile parts arrived) start = some (tilesEnd start (parts.map tile)) ↔
      ∀ part ∈ parts, part ∈ arrived := by
  induction parts generalizing start with
  | nil => simp [present, reach, tilesEnd]
  | cons first rest inductionHypothesis =>
      obtain ⟨starts, filled, later⟩ := isTiling
      have positive := List.length_pos_iff.mpr filled
      have further : tilesEnd start ((first :: rest).map tile) =
          tilesEnd (start + (tile first).2.length) (rest.map tile) := by
        simp only [tilesEnd, List.map_cons, totalLength_cons]
        omega
      rw [further, present_cons]
      by_cases member : first ∈ arrived
      · rw [if_pos member, reach, if_neg (by omega), Nat.max_eq_right (by omega), starts,
          inductionHypothesis later]
        simp [member]
      · rw [if_neg member]
        refine iff_of_false ?_ fun all => member (all first List.mem_cons_self)
        cases behind : present tile rest arrived with
        | nil =>
            rw [reach, Option.some.injEq, tilesEnd]
            omega
        | cons next others =>
            have isPresent : next ∈ present tile rest arrived := by simp [behind]
            obtain ⟨other, isOther, rfl⟩ := List.mem_map.mp isPresent
            have after := later.start_le (tile other)
              (List.mem_map_of_mem (List.mem_filter.mp isOther).1)
            rw [reach, if_pos (by omega)]
            exact nofun

/-- If every part has arrived, all tiles are there. -/
theorem present_of_forall (all : ∀ part ∈ parts, part ∈ arrived) :
    present tile parts arrived = parts.map tile := by
  unfold present
  rw [List.filter_eq_self.mpr fun part member => by simpa using all part member]

end Ns3.Library
