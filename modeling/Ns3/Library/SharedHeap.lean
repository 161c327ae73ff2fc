import Mathlib.Algebra.Order.Ring.Int
import Mathlib.Data.Multiset.AddSub
import Mathlib.Logic.Function.Basic

/-!
Reference-counted blocks with a free list.

A block is shared by the values that point to it and is given up when the last
of them lets go. Blocks that were given up may be kept in a free list and handed
out again with whatever they hold. `Counted` is the invariant: the count of a
block is the number of its holders, and no block of the free list has one.
-/

namespace Ns3.Library

universe u

/-- Blocks by address, their counts, and the blocks waiting to be used again, the
one given up last at the front. -/
structure SharedHeap (Block : Type u) where
  block : Nat → Block
  count : Nat → Nat
  next : Nat
  free : List Nat

namespace SharedHeap

variable {Block : Type u}

/-- Nothing allocated yet. -/
def empty (garbage : Nat → Block) : SharedHeap Block := ⟨garbage, fun _ => 0, 0, []⟩

/-- Replace the contents of a block. -/
def set (heap : SharedHeap Block) (address : Nat) (block : Block) : SharedHeap Block :=
  { heap with block := Function.update heap.block address block }

/-- One holder more. -/
def retain (heap : SharedHeap Block) (address : Nat) : SharedHeap Block :=
  { heap with count := Function.update heap.count address (heap.count address + 1) }

/-- One holder less. -/
def drop (heap : SharedHeap Block) (address : Nat) : SharedHeap Block :=
  { heap with count := Function.update heap.count address (heap.count address - 1) }

/-- Keep a block without holders for later. -/
def recycle (heap : SharedHeap Block) (address : Nat) : SharedHeap Block :=
  { heap with free := address :: heap.free }

/-- Hand out a block with one holder. -/
def claim (heap : SharedHeap Block) (address : Nat) : SharedHeap Block :=
  { heap with count := Function.update heap.count address 1 }

/-- A block that was never handed out. -/
def allocate (heap : SharedHeap Block) (block : Block) : Nat × SharedHeap Block :=
  (heap.next, (({ heap with next := heap.next + 1 }).set heap.next block).claim heap.next)

/-- Search the free list for a block that fits, forgetting those that do not,
and allocate one where there is none. -/
def create (heap : SharedHeap Block) (fits : Block → Bool) (fresh : Nat → Block) :
    List Nat → Nat × SharedHeap Block
  | [] => ({ heap with free := [] }).allocate (fresh heap.next)
  | address :: free =>
      if fits (heap.block address) then (address, ({ heap with free := free }).claim address)
      else create heap fits fresh free

@[simp]
theorem set_block_self (heap : SharedHeap Block) (address : Nat) (block : Block) :
    (heap.set address block).block address = block := by
  simp [set]

theorem set_block_of_ne (heap : SharedHeap Block) {address other : Nat} (block : Block)
    (different : other ≠ address) : (heap.set address block).block other = heap.block other := by
  simp [set, different]

@[simp]
theorem set_set (heap : SharedHeap Block) (address : Nat) (first second : Block) :
    (heap.set address first).set address second = heap.set address second := by
  simp [set]

@[simp]
theorem set_block (heap : SharedHeap Block) (address : Nat) :
    heap.set address (heap.block address) = heap := by
  simp [set]

/-- The count of every block is the number of its holders. -/
structure Counted (heap : SharedHeap Block) (holders : Multiset Nat) : Prop where
  counts : ∀ address, heap.count address = holders.count address
  known : ∀ address ∈ holders, address < heap.next
  freeKnown : ∀ address ∈ heap.free, address < heap.next
  freeUnheld : ∀ address ∈ heap.free, address ∉ holders
  freeNodup : heap.free.Nodup

variable {heap : SharedHeap Block} {holders : Multiset Nat} {address : Nat}

theorem Counted.empty (garbage : Nat → Block) : (empty garbage).Counted 0 where
  counts _ := (Multiset.count_zero _).symm
  known _ held := absurd held (Multiset.notMem_zero _)
  freeKnown _ waiting := absurd waiting List.not_mem_nil
  freeUnheld _ waiting := absurd waiting List.not_mem_nil
  freeNodup := List.nodup_nil

theorem Counted.set (counted : heap.Counted holders) (address : Nat) (block : Block) :
    (heap.set address block).Counted holders :=
  { counted with }

theorem Counted.retain (counted : heap.Counted holders) (held : address ∈ holders) :
    (heap.retain address).Counted (address ::ₘ holders) where
  counts other := by
    rcases eq_or_ne other address with rfl | different
    · simp [SharedHeap.retain, counted.counts]
    · simp [SharedHeap.retain, counted.counts, different]
  known other otherHeld := by
    rcases Multiset.mem_cons.mp otherHeld with rfl | before
    · exact counted.known other held
    · exact counted.known other before
  freeKnown := counted.freeKnown
  freeUnheld other waiting otherHeld := by
    rcases Multiset.mem_cons.mp otherHeld with rfl | before
    · exact counted.freeUnheld other waiting held
    · exact counted.freeUnheld other waiting before
  freeNodup := counted.freeNodup

theorem Counted.drop (counted : heap.Counted (address ::ₘ holders)) :
    (heap.drop address).Counted holders where
  counts other := by
    rcases eq_or_ne other address with rfl | different
    · simp [SharedHeap.drop, counted.counts]
    · simp [SharedHeap.drop, counted.counts, different]
  known other held := counted.known other (Multiset.mem_cons_of_mem held)
  freeKnown := counted.freeKnown
  freeUnheld other waiting held :=
    counted.freeUnheld other waiting (Multiset.mem_cons_of_mem held)
  freeNodup := counted.freeNodup

theorem Counted.recycle (counted : heap.Counted holders) (known : address < heap.next)
    (unheld : address ∉ holders) (new : address ∉ heap.free) :
    (heap.recycle address).Counted holders :=
  { counted with
    freeKnown := List.forall_mem_cons.mpr ⟨known, counted.freeKnown⟩
    freeUnheld := List.forall_mem_cons.mpr ⟨unheld, counted.freeUnheld⟩
    freeNodup := List.nodup_cons.mpr ⟨new, counted.freeNodup⟩ }

/-- What a caller may rely on about the block it is handed. -/
structure Created (heap : SharedHeap Block) (holders : Multiset Nat) (fits : Block → Bool)
    (fresh : Nat → Block) (address : Nat) (after : SharedHeap Block) : Prop where
  counted : after.Counted (address ::ₘ holders)
  unheld : address ∉ holders
  others : ∀ other ∈ holders, after.block other = heap.block other
  origin : ∀ other, after.block other = heap.block other ∨ ∃ id, after.block other = fresh id
  usable : fits (after.block address) = true ∨ ∃ id, after.block address = fresh id

theorem Counted.create (counted : heap.Counted holders) (fits : Block → Bool)
    (fresh : Nat → Block) {free : List Nat} (waiting : free.Sublist heap.free) :
    Created heap holders fits fresh (heap.create fits fresh free).1
      (heap.create fits fresh free).2 := by
  induction free with
  | nil =>
      have unheld : heap.next ∉ holders := fun held => Nat.lt_irrefl _ (counted.known _ held)
      refine ⟨⟨?_, ?_, ?_, ?_, ?_⟩, unheld, ?_, ?_, .inr ⟨heap.next, ?_⟩⟩
      · intro other
        rcases eq_or_ne other heap.next with rfl | different
        · simp [SharedHeap.create, allocate, claim, SharedHeap.set,
            Multiset.count_eq_zero_of_notMem unheld]
        · simp [SharedHeap.create, allocate, claim, SharedHeap.set, counted.counts, different]
      · intro other held
        rcases Multiset.mem_cons.mp held with rfl | before
        · exact Nat.lt_succ_self _
        · exact (counted.known other before).trans (Nat.lt_succ_self _)
      · exact fun other waits => absurd waits List.not_mem_nil
      · exact fun other waits => absurd waits List.not_mem_nil
      · exact List.nodup_nil
      · exact fun other held => set_block_of_ne _ _ fun same => unheld (same ▸ held)
      · intro other
        rcases eq_or_ne other heap.next with rfl | different
        · exact .inr ⟨heap.next, set_block_self _ _ _⟩
        · exact .inl (set_block_of_ne _ _ different)
      · exact set_block_self _ _ _
  | cons address free inductionHypothesis =>
      have first : address ∈ heap.free := waiting.subset List.mem_cons_self
      have rest : free.Sublist heap.free := (List.sublist_cons_self address free).trans waiting
      have unheld := counted.freeUnheld address first
      unfold SharedHeap.create
      split
      next suits =>
        refine ⟨⟨?_, ?_, ?_, ?_, ?_⟩, unheld, fun _ _ => rfl, fun _ => .inl rfl, .inl suits⟩
        · intro other
          rcases eq_or_ne other address with rfl | different
          · simp [claim, Multiset.count_eq_zero_of_notMem unheld]
          · simp [claim, counted.counts, different]
        · intro other held
          rcases Multiset.mem_cons.mp held with rfl | before
          · exact counted.freeKnown other first
          · exact counted.known other before
        · exact fun other waits => counted.freeKnown other (rest.subset waits)
        · intro other waits held
          rcases Multiset.mem_cons.mp held with rfl | before
          · exact (List.nodup_cons.mp (counted.freeNodup.sublist waiting)).1 waits
          · exact counted.freeUnheld other (rest.subset waits) before
        · exact (List.nodup_cons.mp (counted.freeNodup.sublist waiting)).2
      next => exact inductionHypothesis rest

end SharedHeap

end Ns3.Library
