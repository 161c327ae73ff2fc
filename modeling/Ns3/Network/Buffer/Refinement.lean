import Ns3.Network.Buffer.Operations
import Ns3.Library.Machine
import Ns3.Library.Pool

/-!
Any pool of buffers behaves as a list of independent byte lists.

The pool runs beside the byte lists it should stand for. Every operation keeps
the sharing invariant and does to the byte lists what it should, as long as no
offset passes 32 bits.
-/

namespace Ns3.Network

open Library Buffer

/-- All buffers of a program and their blocks. -/
structure BufferPool where
  heap : BufferHeap
  buffers : List Buffer

/-- The operations on a pool; a buffer is given by its place. -/
inductive BufferAction where
  | construct (zeroSize : Nat)
  | copy (i : Nat)
  | assign (i j : Nat)
  | destroy (i : Nat)
  | addAtStart (i : Nat) (bytes : List UInt8)
  | addAtEnd (i : Nat) (bytes : List UInt8)
  | removeAtStart (i start : Nat)
  | removeAtEnd (i stop : Nat)
  | createFragment (i start length : Nat)
  | peekData (i : Nat)
  deriving DecidableEq, Repr

namespace BufferPool

/-- Before the first buffer. -/
def empty : BufferPool := ⟨BufferHeap.empty, []⟩

/-- Add the result of an operation to the pool. -/
def push (pool : BufferPool) (result : BufferHeap × Buffer) : BufferPool :=
  ⟨result.1, pool.buffers ++ [result.2]⟩

/-- Replace a buffer by the result of an operation on it. -/
def put (pool : BufferPool) (i : Nat) (result : BufferHeap × Buffer) : BufferPool :=
  ⟨result.1, pool.buffers.set i result.2⟩

variable (garbage : Nat → Memory UInt8)

/-- The pool after an operation; there is no operation on a buffer that is not
in the pool. -/
def step (pool : BufferPool) : BufferAction → BufferPool
  | .construct zeroSize => pool.push (init garbage pool.heap zeroSize)
  | .copy i =>
      match pool.buffers[i]? with
      | some self => pool.push (Buffer.copy pool.heap self)
      | none => pool
  | .assign i j =>
      match pool.buffers[i]?, pool.buffers[j]? with
      | some self, some o => pool.put i (Buffer.assign pool.heap self o)
      | _, _ => pool
  | .destroy i =>
      match pool.buffers[i]? with
      | some self => ⟨Buffer.destroy pool.heap self, pool.buffers.eraseIdx i⟩
      | none => pool
  | .addAtStart i bytes =>
      match pool.buffers[i]? with
      | some self => pool.put i (prepend garbage pool.heap self bytes)
      | none => pool
  | .addAtEnd i bytes =>
      match pool.buffers[i]? with
      | some self => pool.put i (append garbage pool.heap self bytes)
      | none => pool
  | .removeAtStart i start =>
      match pool.buffers[i]? with
      | some self => pool.put i (pool.heap, self.removeAtStart start)
      | none => pool
  | .removeAtEnd i stop =>
      match pool.buffers[i]? with
      | some self => pool.put i (pool.heap, self.removeAtEnd stop)
      | none => pool
  | .createFragment i start length =>
      match pool.buffers[i]? with
      | some self => pool.push (Buffer.createFragment pool.heap self start length)
      | none => pool
  | .peekData i =>
      match pool.buffers[i]? with
      | some self => pool.put i (Buffer.peekData garbage pool.heap self)
      | none => pool

/-- The same operations on independent byte lists. -/
def stepBytes (model : List (List UInt8)) : BufferAction → List (List UInt8)
  | .construct zeroSize => model ++ [List.replicate zeroSize 0]
  | .copy i => model ++ [model.getD i []]
  | .assign i j => model.set i (model.getD j [])
  | .destroy i => model.eraseIdx i
  | .addAtStart i bytes => model.set i (bytes ++ model.getD i [])
  | .addAtEnd i bytes => model.set i (model.getD i [] ++ bytes)
  | .removeAtStart i start => model.set i ((model.getD i []).drop start)
  | .removeAtEnd i stop => model.set i ((model.getD i []).take ((model.getD i []).length - stop))
  | .createFragment i start length => model ++ [((model.getD i []).drop start).take length]
  | .peekData _ => model

/-- The buffer is in the pool and has the property. -/
def Has (pool : BufferPool) (i : Nat) (Property : Buffer → Prop) : Prop :=
  match pool.buffers[i]? with
  | some self => Property self
  | none => False

instance {pool : BufferPool} {i : Nat} {Property : Buffer → Prop} [DecidablePred Property] :
    Decidable (pool.Has i Property) :=
  match found : pool.buffers[i]? with
  | some self => decidable_of_iff (Property self) (by simp [Has, found])
  | none => .isFalse (by simp [Has, found])

/-- The callers stay within the size of the buffer, and sizes are words of 32
bits. -/
def Enabled (pool : BufferPool) : BufferAction → Prop
  | .construct zeroSize => zeroSize < 2 ^ 32
  | .copy i => pool.Has i fun _ => True
  | .assign i j => (pool.Has i fun _ => True) ∧ pool.Has j fun _ => True
  | .destroy i => pool.Has i fun _ => True
  | .addAtStart i bytes => (pool.Has i fun _ => True) ∧ bytes.length < 2 ^ 32
  | .addAtEnd i bytes => (pool.Has i fun _ => True) ∧ bytes.length < 2 ^ 32
  | .removeAtStart i start => pool.Has i fun self => start ≤ self.getSize
  | .removeAtEnd i stop => pool.Has i fun self => stop ≤ self.getSize
  | .createFragment i start length => pool.Has i fun self => start + length ≤ self.getSize
  | .peekData i => pool.Has i fun _ => True

instance (pool : BufferPool) : ∀ action, Decidable (pool.Enabled action)
  | .construct _ => inferInstanceAs (Decidable (_ < _))
  | .copy _ => inferInstanceAs (Decidable (pool.Has _ _))
  | .assign _ _ => inferInstanceAs (Decidable (pool.Has _ _ ∧ pool.Has _ _))
  | .destroy _ => inferInstanceAs (Decidable (pool.Has _ _))
  | .addAtStart _ _ => inferInstanceAs (Decidable (pool.Has _ _ ∧ _ < _))
  | .addAtEnd _ _ => inferInstanceAs (Decidable (pool.Has _ _ ∧ _ < _))
  | .removeAtStart _ start => inferInstanceAs (Decidable (pool.Has _ fun self => start ≤ self.getSize))
  | .removeAtEnd _ stop => inferInstanceAs (Decidable (pool.Has _ fun self => stop ≤ self.getSize))
  | .createFragment _ start length =>
      inferInstanceAs (Decidable (pool.Has _ fun self => start + length ≤ self.getSize))
  | .peekData _ => inferInstanceAs (Decidable (pool.Has _ _))

/-- No offset passes 32 bits, and neither does a block with its header. -/
def Fits (pool : BufferPool) : BufferAction → Prop
  | .construct zeroSize => firstStart garbage pool.heap + zeroSize < 2 ^ 32
  | .addAtStart i bytes => pool.Has i fun self =>
      self.getSize + bytes.length < 2 ^ 32 ∧ self.getInternalSize + bytes.length + 19 < 2 ^ 32
  | .addAtEnd i bytes => pool.Has i fun self =>
      self.stop + bytes.length < 2 ^ 32 ∧ self.getInternalSize + bytes.length + 19 < 2 ^ 32
  | .peekData i => pool.Has i fun self =>
      self.zeroSize ≠ 0 → firstStart garbage pool.heap + self.getSize + 19 < 2 ^ 32
  | _ => True

instance (pool : BufferPool) : ∀ action, Decidable (pool.Fits garbage action)
  | .construct _ => inferInstanceAs (Decidable (_ < _))
  | .addAtStart _ bytes => inferInstanceAs (Decidable (pool.Has _ fun self =>
      self.getSize + bytes.length < 2 ^ 32 ∧ self.getInternalSize + bytes.length + 19 < 2 ^ 32))
  | .addAtEnd _ bytes => inferInstanceAs (Decidable (pool.Has _ fun self =>
      self.stop + bytes.length < 2 ^ 32 ∧ self.getInternalSize + bytes.length + 19 < 2 ^ 32))
  | .peekData _ => inferInstanceAs (Decidable (pool.Has _ fun self =>
      self.zeroSize ≠ 0 → firstStart garbage pool.heap + self.getSize + 19 < 2 ^ 32))
  | .copy _ => .isTrue trivial
  | .assign _ _ => .isTrue trivial
  | .destroy _ => .isTrue trivial
  | .removeAtStart _ _ => .isTrue trivial
  | .removeAtEnd _ _ => .isTrue trivial
  | .createFragment _ _ _ => .isTrue trivial

/-- A pool beside the byte lists it should stand for. -/
def machine : Machine (BufferPool × List (List UInt8)) BufferAction where
  step state action := (state.1.step garbage action, stepBytes state.2 action)
  Enabled state action := state.1.Enabled action

instance : ∀ state action, Decidable ((machine garbage).Enabled state action) :=
  fun state action => inferInstanceAs (Decidable (state.1.Enabled action))

/-- The pool stands for the byte lists. -/
structure Stands (pool : BufferPool) (model : List (List UInt8)) : Prop where
  valid : Valid pool.heap pool.buffers
  meaning : pool.buffers.map (Buffer.content pool.heap) = model

variable {garbage} {pool : BufferPool} {model : List (List UInt8)}

theorem Stands.empty : Stands empty [] := ⟨Valid.empty, rfl⟩

theorem Stands.operand (stands : Stands pool model) {i : Nat} {self : Buffer}
    (found : pool.buffers[i]? = some self) :
    Valid pool.heap (self ::ₘ (pool.buffers.eraseIdx i : Multiset Buffer)) :=
  coe_eq_cons_eraseIdx found ▸ stands.valid

theorem Stands.getD (stands : Stands pool model) {i : Nat} {self : Buffer}
    (found : pool.buffers[i]? = some self) : model.getD i [] = self.content pool.heap := by
  rw [← stands.meaning, List.getD_eq_getElem?_getD, List.getElem?_map, found]
  rfl

theorem Stands.set_getD (stands : Stands pool model) {i : Nat} {self : Buffer}
    (found : pool.buffers[i]? = some self) : model.set i (model.getD i []) = model := by
  obtain ⟨bounded, _⟩ := List.getElem?_eq_some_iff.mp found
  have inModel : i < model.length := by
    rw [← stands.meaning, List.length_map]
    exact bounded
  rw [List.getD_eq_getElem?_getD, List.getElem?_eq_getElem inModel]
  exact List.set_getElem_self inModel

theorem Stands.push (stands : Stands pool model) {bytes : List UInt8}
    {result : BufferHeap × Buffer} (changes : Changes pool.heap pool.buffers bytes result) :
    Stands (pool.push result) (model ++ [bytes]) := by
  constructor
  · change Valid result.1 ((pool.buffers ++ [result.2] : List Buffer) : Multiset Buffer)
    rw [coe_append_singleton]
    exact changes.valid
  · change (pool.buffers ++ [result.2]).map (Buffer.content result.1) = _
    rw [map_append_of_frame changes.frame, stands.meaning, changes.content]

theorem Stands.put (stands : Stands pool model) {i : Nat} {self : Buffer}
    (found : pool.buffers[i]? = some self) {bytes : List UInt8} {result : BufferHeap × Buffer}
    (changes : Changes pool.heap (pool.buffers.eraseIdx i) bytes result) :
    Stands (pool.put i result) (model.set i bytes) := by
  obtain ⟨bounded, _⟩ := List.getElem?_eq_some_iff.mp found
  constructor
  · change Valid result.1 ((pool.buffers.set i result.2 : List Buffer) : Multiset Buffer)
    rw [coe_set bounded]
    exact changes.valid
  · change (pool.buffers.set i result.2).map (Buffer.content result.1) = _
    rw [map_set_of_frame changes.frame, stands.meaning, changes.content]

theorem Stands.assign (stands : Stands pool model) {i j : Nat} {self o : Buffer}
    (found : pool.buffers[i]? = some self) (foundOther : pool.buffers[j]? = some o) :
    Stands (pool.put i (Buffer.assign pool.heap self o)) (model.set i (model.getD j [])) := by
  have operand := stands.operand found
  rcases eq_or_ne i j with rfl | different
  · cases found.symm.trans foundOther
    rw [stands.getD found]
    exact stands.put found operand.assign_self
  · have held : o ∈ (pool.buffers.eraseIdx i : Multiset Buffer) :=
      List.mem_eraseIdx_iff_getElem?.mpr ⟨j, different.symm, foundOther⟩
    rw [stands.getD foundOther]
    exact stands.put found (operand.assign held)

theorem Stands.destroy (stands : Stands pool model) {i : Nat} {self : Buffer}
    (found : pool.buffers[i]? = some self) :
    Stands ⟨Buffer.destroy pool.heap self, pool.buffers.eraseIdx i⟩ (model.eraseIdx i) := by
  obtain ⟨valid, kept⟩ := (stands.operand found).destroy
  refine ⟨valid, ?_⟩
  change (pool.buffers.eraseIdx i).map (Buffer.content (Buffer.destroy pool.heap self)) = _
  rw [← stands.meaning, List.map_congr_left fun other _ => kept other, List.eraseIdx_map]

theorem Has.found {i : Nat} {Property : Buffer → Prop} (has : pool.Has i Property) :
    ∃ self, pool.buffers[i]? = some self ∧ Property self := by
  unfold Has at has
  split at has
  next self found => exact ⟨self, found, has⟩
  next => exact has.elim

/-- Every operation keeps the pool beside its byte lists. -/
theorem Stands.step (stands : Stands pool model) {action : BufferAction}
    (enabled : pool.Enabled action) (fits : pool.Fits garbage action) :
    Stands (pool.step garbage action) (stepBytes model action) := by
  cases action with
  | construct zeroSize => exact stands.push (stands.valid.init garbage fits)
  | copy i =>
      obtain ⟨self, found, _⟩ := Has.found enabled
      simp only [BufferPool.step, stepBytes, found, stands.getD found]
      exact stands.push (stands.valid.copy (List.mem_of_getElem? found))
  | assign i j =>
      obtain ⟨self, found, _⟩ := Has.found enabled.1
      obtain ⟨o, foundOther, _⟩ := Has.found enabled.2
      simp only [BufferPool.step, stepBytes, found, foundOther]
      exact stands.assign found foundOther
  | destroy i =>
      obtain ⟨self, found, _⟩ := Has.found enabled
      simp only [BufferPool.step, stepBytes, found]
      exact stands.destroy found
  | addAtStart i bytes =>
      obtain ⟨self, found, room⟩ := Has.found fits
      simp only [BufferPool.step, stepBytes, found, stands.getD found]
      exact stands.put found ((stands.operand found).prepend garbage room.1 room.2)
  | addAtEnd i bytes =>
      obtain ⟨self, found, room⟩ := Has.found fits
      simp only [BufferPool.step, stepBytes, found, stands.getD found]
      exact stands.put found ((stands.operand found).append garbage room.1 room.2)
  | removeAtStart i start =>
      obtain ⟨self, found, within⟩ := Has.found enabled
      simp only [BufferPool.step, stepBytes, found, stands.getD found]
      exact stands.put found ((stands.operand found).removeAtStart within)
  | removeAtEnd i stop =>
      obtain ⟨self, found, within⟩ := Has.found enabled
      have shaped := stands.valid.shaped self (List.mem_of_getElem? found)
      simp only [BufferPool.step, stepBytes, found, stands.getD found, shaped.length_content]
      exact stands.put found ((stands.operand found).removeAtEnd within)
  | createFragment i start length =>
      obtain ⟨self, found, within⟩ := Has.found enabled
      simp only [BufferPool.step, stepBytes, found, stands.getD found]
      exact stands.push (stands.valid.createFragment (List.mem_of_getElem? found) within)
  | peekData i =>
      obtain ⟨self, found, room⟩ := Has.found fits
      have kept := stands.put found ((stands.operand found).peekData garbage room).1
      rw [← stands.getD found, stands.set_getD found] at kept
      simp only [BufferPool.step, stepBytes, found]
      exact kept

/-- What the pool guarantees in every state. -/
structure Isolated (garbage : Nat → Memory UInt8) (state : BufferPool × List (List UInt8)) :
    Prop where
  copyData : state.1.buffers.map (fun self => self.copyData state.1.heap self.getSize) = state.2
  peekData : ∀ self ∈ state.1.buffers,
    (self.zeroSize ≠ 0 → firstStart garbage state.1.heap + self.getSize + 19 < 2 ^ 32) →
    ((Buffer.peekData garbage state.1.heap self).1.block
        (Buffer.peekData garbage state.1.heap self).2.data).data.read
      (Buffer.peekData garbage state.1.heap self).2.start self.getSize =
      self.copyData state.1.heap self.getSize
  checked : ∀ self ∈ state.1.buffers, self.CheckInternalState state.1.heap
  stored : ∀ self ∈ state.1.buffers,
    self.getInternalEnd ≤ (state.1.heap.block self.data).capacity

theorem Stands.isolated (stands : Stands pool model) : Isolated garbage (pool, model) where
  copyData := by
    rw [← stands.meaning]
    exact List.map_congr_left fun self held =>
      (stands.valid.shaped self held).copyData pool.heap
  peekData self held fits := by
    obtain ⟨i, found⟩ := List.getElem?_of_mem held
    have shaped := stands.valid.shaped self held
    obtain ⟨peeked, noZeroes, _⟩ := (stands.operand found).peekData garbage fits
    have peekedShaped := peeked.valid.shaped _ (Multiset.mem_cons_self _ _)
    have sizeEq := peeked.getSize
    rw [shaped.length_content] at sizeEq
    change _ = self.copyData pool.heap self.getSize
    rw [shaped.copyData, ← peeked.content, peekedShaped.content_of_noZeroes noZeroes, sizeEq]
  checked _ held := stands.valid.checkInternalState held
  stored self held := (stands.valid.room self held).trans (stands.valid.allocated self.data)

/-- In every run that keeps its offsets within 32 bits, the buffers of the pool
hold the bytes of independent lists and their internal state is in order. -/
theorem bufferPool_isolated (garbage : Nat → Memory UInt8) (actions : List BufferAction)
    (legal : (machine garbage).Legal (empty, []) actions)
    (fits : (machine garbage).Along (fun state action => state.1.Fits garbage action)
      (empty, []) actions) :
    (machine garbage).Always (Isolated garbage) (empty, []) actions := by
  have always : (machine garbage).Always (fun state => Stands state.1 state.2)
      (empty, []) actions :=
    Machine.Legal.always_of_along
      (fun state action stands enabled fits => Stands.step stands enabled fits)
      Stands.empty legal fits
  exact always.mono fun state stands => stands.isolated

/-- Copies and fragments of a buffer with a zero area, changed at both ends. -/
theorem bufferPool_isolated_short_run :
    (machine fun _ _ => 0).Always (Isolated fun _ _ => 0) (empty, [])
      [.construct 3, .addAtStart 0 [1, 2], .addAtEnd 0 [8, 9], .copy 0, .addAtStart 1 [5],
        .addAtEnd 0 [6], .removeAtStart 0 3, .createFragment 1 1 5, .addAtEnd 2 [4],
        .removeAtEnd 1 2, .peekData 2, .assign 1 0, .destroy 0, .addAtStart 0 [7]] :=
  bufferPool_isolated _ _ (by decide) (by decide +kernel)

/-- A zero area that leaves no offset for one byte more: the end of the buffer
wraps around to 0. -/
theorem bufferPool_overflows :
    (machine fun _ _ => 0).Legal (empty, []) [.construct (2 ^ 32 - 1), .addAtEnd 0 [7]] ∧
      ¬ (machine fun _ _ => 0).Always (Isolated fun _ _ => 0) (empty, [])
        [.construct (2 ^ 32 - 1), .addAtEnd 0 [7]] := by
  refine ⟨by decide, fun always => ?_⟩
  have checked := always.last.checked
  revert checked
  decide

end BufferPool

end Ns3.Network
