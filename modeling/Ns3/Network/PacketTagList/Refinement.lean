import Ns3.Network.PacketTagList.Operations
import Ns3.Library.Machine
import Ns3.Library.Pool

/-!
Any pool of packet tag lists behaves as a list of independent maps from tag types
to tag values.

A step must not replace a tag in place by one of another size: the node keeps the
buffer that was made for the old value.
-/

namespace Ns3.Network

open Library PacketTagList

/-- All lists of a program and their nodes. -/
structure TagPool where
  heap : TagHeap
  lists : List PacketTagList

inductive TagAction where
  | construct
  | copy (i : Nat)
  | assign (i j : Nat)
  | destroy (i : Nat)
  | add (i : Nat) (tag : Tag)
  | remove (i tid : Nat)
  | replace (i : Nat) (tag : Tag)
  | peek (i tid : Nat)
  | removeAll (i : Nat)
  deriving DecidableEq, Repr

abbrev TagMap := Nat → Option (List UInt8)

def TagMap.empty : TagMap := fun _ => none

namespace TagPool

def empty : TagPool := ⟨NodeHeap.empty, []⟩

/-- Replace a list by the result of an operation on it. Where there is no result
the program has stopped. -/
def put (pool : TagPool) (i : Nat) : Option PacketTagList.State → TagPool
  | some state => ⟨state.1, pool.lists.set i state.2⟩
  | none => pool

def step (pool : TagPool) : TagAction → TagPool
  | .construct => { pool with lists := pool.lists ++ [none] }
  | .copy i =>
      match pool.lists[i]? with
      | some self => ⟨(copy pool.heap self).1, pool.lists ++ [(copy pool.heap self).2]⟩
      | none => pool
  | .assign i j =>
      match pool.lists[i]?, pool.lists[j]? with
      | some self, some o => pool.put i (assign pool.heap self o)
      | _, _ => pool
  | .destroy i =>
      match pool.lists[i]? with
      | some self =>
          match removeAll pool.heap self with
          | some state => ⟨state.1, pool.lists.eraseIdx i⟩
          | none => pool
      | none => pool
  | .add i tag =>
      match pool.lists[i]? with
      | some self => pool.put i (add pool.heap self tag)
      | none => pool
  | .remove i tid =>
      match pool.lists[i]? with
      | some self => pool.put i ((remove pool.heap self tid).map Prod.fst)
      | none => pool
  | .replace i tag =>
      match pool.lists[i]? with
      | some self => pool.put i ((replace pool.heap self tag).map Prod.fst)
      | none => pool
  | .peek _ _ => pool
  | .removeAll i =>
      match pool.lists[i]? with
      | some self => pool.put i (removeAll pool.heap self)
      | none => pool

/-- The same operations on independent maps. -/
def stepMaps (model : List TagMap) : TagAction → List TagMap
  | .construct => model ++ [.empty]
  | .copy i => model ++ [model.getD i .empty]
  | .assign i j => model.set i (model.getD j .empty)
  | .destroy i => model.eraseIdx i
  | .add i tag =>
      model.set i (Function.update (model.getD i .empty) tag.tid (some tag.data))
  | .remove i tid => model.set i (Function.update (model.getD i .empty) tid none)
  | .replace i tag =>
      model.set i (Function.update (model.getD i .empty) tag.tid (some tag.data))
  | .peek _ _ => model
  | .removeAll i => model.set i .empty

/-- The callers only add tags of a new type, and no tag is longer than
`CreateTagData` asserts. -/
def Enabled (pool : TagPool) : TagAction → Prop
  | .construct => True
  | .copy i => i < pool.lists.length
  | .assign i j => i < pool.lists.length ∧ j < pool.lists.length
  | .destroy i => i < pool.lists.length
  | .add i tag => tag.data.length < 2 ^ 32 - 1 ∧
      (pool.lists[i]?.map fun self => peek pool.heap self tag.tid) = some (some none)
  | .remove i _ => i < pool.lists.length
  | .replace i tag => tag.data.length < 2 ^ 32 - 1 ∧ i < pool.lists.length
  | .peek i _ => i < pool.lists.length
  | .removeAll i => i < pool.lists.length

instance (pool : TagPool) : ∀ action, Decidable (pool.Enabled action)
  | .construct => .isTrue trivial
  | .copy _ => inferInstanceAs (Decidable (_ < _))
  | .assign _ _ => inferInstanceAs (Decidable (_ < _ ∧ _ < _))
  | .destroy _ => inferInstanceAs (Decidable (_ < _))
  | .add _ _ => inferInstanceAs (Decidable (_ < _ ∧ _ = _))
  | .remove _ _ => inferInstanceAs (Decidable (_ < _))
  | .replace _ _ => inferInstanceAs (Decidable (_ < _ ∧ _ < _))
  | .peek _ _ => inferInstanceAs (Decidable (_ < _))
  | .removeAll _ => inferInstanceAs (Decidable (_ < _))

/-- No tag is replaced in place by one of another size. -/
def Sound (pool : TagPool) : TagAction → Prop
  | .replace i tag => ∀ self ∈ pool.lists[i]?, ¬ Resizes pool.heap self tag
  | _ => True

instance (pool : TagPool) : ∀ action, Decidable (pool.Sound action)
  | .replace i tag =>
      inferInstanceAs (Decidable (∀ self ∈ pool.lists[i]?, ¬ Resizes pool.heap self tag))
  | .construct => .isTrue trivial
  | .copy _ => .isTrue trivial
  | .assign _ _ => .isTrue trivial
  | .destroy _ => .isTrue trivial
  | .add _ _ => .isTrue trivial
  | .remove _ _ => .isTrue trivial
  | .peek _ _ => .isTrue trivial
  | .removeAll _ => .isTrue trivial

/-- A pool beside the maps it should stand for. -/
def machine : Machine (TagPool × List TagMap) TagAction where
  step state action := (state.1.step action, stepMaps state.2 action)
  Enabled state action := state.1.Enabled action

instance : ∀ state action, Decidable (machine.Enabled state action) :=
  fun state action => inferInstanceAs (Decidable (state.1.Enabled action))

/-- What `Peek` returns for each type of tag. -/
def read (heap : TagHeap) (list : PacketTagList) : TagMap := fun tid =>
  ((peek heap list tid).getD none).map Tag.data

/-- A list of nodes that stands for a map. -/
def Holds (heap : TagHeap) (list : PacketTagList) (map : TagMap) : Prop :=
  ∃ cells, heap.Chain list cells ∧ Represents (cells.map Prod.snd) map

structure Stands (pool : TagPool) (model : List TagMap) : Prop where
  tree : pool.heap.Tree pool.lists
  held : ∀ list ∈ pool.lists, Holds pool.heap list (read pool.heap list)
  meaning : pool.lists.map (read pool.heap) = model

variable {heap after : TagHeap} {others : Multiset (Option Nat)} {list : PacketTagList}
  {map : TagMap} {pool : TagPool} {model : List TagMap} {i : Nat}

theorem Stands.empty : Stands empty [] where
  tree := NodeHeap.Tree.empty
  held _ inside := absurd inside List.not_mem_nil
  meaning := rfl

theorem read_eq (tree : heap.Tree (list ::ₘ others)) (holds : Holds heap list map) :
    read heap list = map := by
  obtain ⟨cells, chain, represents⟩ := holds
  funext tid
  rw [read, peek_eq tree chain]
  exact represents.meaning tid

/-- What stays the same for a list whose nodes stay the same. -/
theorem read_frame {before : Multiset (Option Nat)} (tree : heap.Tree (list ::ₘ before))
    (treeAfter : after.Tree (list ::ₘ others)) (holds : Holds heap list map)
    (frame : ∀ cells, heap.Chain list cells → after.Chain list cells) :
    Holds after list (read after list) ∧ read after list = read heap list := by
  obtain ⟨cells, chain, represents⟩ := holds
  have holdsAfter : Holds after list map := ⟨cells, frame cells chain, represents⟩
  rw [read_eq treeAfter holdsAfter, read_eq tree ⟨cells, chain, represents⟩]
  exact ⟨holdsAfter, rfl⟩

theorem Stands.operand (stands : Stands pool model) (found : pool.lists[i]? = some list) :
    pool.heap.Tree (list ::ₘ (pool.lists.eraseIdx i : Multiset PacketTagList)) :=
  coe_eq_cons_eraseIdx found ▸ stands.tree

theorem Stands.getD (stands : Stands pool model) (found : pool.lists[i]? = some list) :
    model.getD i .empty = read pool.heap list := by
  rw [← stands.meaning, List.getD_eq_getElem?_getD, List.getElem?_map, found]
  rfl

theorem Stands.holds (stands : Stands pool model) (found : pool.lists[i]? = some list) :
    Holds pool.heap list (model.getD i .empty) := by
  rw [stands.getD found]
  exact stands.held list (List.mem_of_getElem? found)

/-- The lists beside the operand, after an operation that leaves them their nodes. -/
theorem Stands.kept (stands : Stands pool model) {holders : Multiset PacketTagList}
    (tree : after.Tree holders) (known : ∀ other ∈ others, other ∈ holders)
    (before : ∀ other ∈ others, other ∈ pool.lists) (frame : pool.heap.Frame after others) :
    ∀ other ∈ others, Holds after other (read after other) ∧
      read after other = read pool.heap other := by
  intro other inside
  obtain ⟨rest, restEq⟩ := Multiset.exists_cons_of_mem (known other inside)
  obtain ⟨j, found⟩ := List.getElem?_of_mem (before other inside)
  exact read_frame (stands.operand found) (restEq ▸ tree) (stands.held other (before other inside))
    (frame other inside)

theorem Stands.put (stands : Stands pool model) (found : pool.lists[i]? = some list)
    {state : PacketTagList.State}
    (updates : Updates pool.heap (pool.lists.eraseIdx i) map state) :
    Stands (pool.put i (some state)) (model.set i map) := by
  obtain ⟨bounded, _⟩ := List.getElem?_eq_some_iff.mp found
  have readNew := read_eq updates.tree updates.chain
  have kept := stands.kept updates.tree (fun _ => Multiset.mem_cons_of_mem)
    (fun _ inside => List.mem_of_mem_eraseIdx inside) updates.frame
  refine ⟨?_, ?_, ?_⟩
  · change state.1.Tree ((pool.lists.set i state.2 : List PacketTagList) : Multiset PacketTagList)
    rw [coe_set bounded]
    exact updates.tree
  · intro other inside
    have split : other ∈ ((pool.lists.set i state.2 : List PacketTagList) :
        Multiset PacketTagList) := inside
    rw [coe_set bounded] at split
    rcases Multiset.mem_cons.mp split with rfl | before
    · exact readNew ▸ updates.chain
    · exact (kept other before).1
  · change (pool.lists.set i state.2).map (read state.1) = _
    rw [map_set_of_frame fun other inside => (kept other inside).2, stands.meaning, readNew]

/-- A list is added that stands for the map. -/
theorem Stands.push (stands : Stands pool model) (tree : after.Tree (list ::ₘ pool.lists))
    (holds : Holds after list map) (frame : pool.heap.Frame after pool.lists) :
    Stands ⟨after, pool.lists ++ [list]⟩ (model ++ [map]) := by
  have readNew := read_eq tree holds
  have kept := stands.kept tree (fun _ => Multiset.mem_cons_of_mem) (fun _ inside => inside)
    frame
  refine ⟨?_, ?_, ?_⟩
  · change after.Tree ((pool.lists ++ [list] : List PacketTagList) : Multiset PacketTagList)
    rw [coe_append_singleton]
    exact tree
  · intro other inside
    rcases List.mem_append.mp inside with before | new
    · exact (kept other before).1
    · rw [List.mem_singleton.mp new, readNew]
      exact holds
  · change (pool.lists ++ [list]).map (read after) = _
    rw [map_append_of_frame fun other inside => (kept other inside).2, stands.meaning, readNew]

/-- A list is destroyed. -/
theorem Stands.erase (stands : Stands pool model)
    (tree : after.Tree (pool.lists.eraseIdx i : Multiset PacketTagList))
    (frame : pool.heap.Frame after (pool.lists.eraseIdx i)) :
    Stands ⟨after, pool.lists.eraseIdx i⟩ (model.eraseIdx i) := by
  have kept := stands.kept tree (fun _ inside => inside)
    (fun _ inside => List.mem_of_mem_eraseIdx inside) frame
  refine ⟨tree, fun other inside => (kept other inside).1, ?_⟩
  change (pool.lists.eraseIdx i).map (read after) = _
  rw [← stands.meaning, List.eraseIdx_map]
  exact List.map_congr_left fun other inside => (kept other inside).2

/-- `RemoveAll` leaves an empty list. -/
theorem removeAll_updates (tree : heap.Tree (list ::ₘ others)) (holds : Holds heap list map) :
    ∃ after, removeAll heap list = some (after, none) ∧
      Updates heap others TagMap.empty (after, none) ∧ after.Tree others := by
  obtain ⟨cells, chain, _⟩ := holds
  obtain ⟨after, removed, treeAfter, frame⟩ := removeAll_spec tree chain
  exact ⟨after, removed, ⟨NodeHeap.Tree.cons_none.mpr treeAfter, ⟨[], .nil, .nil⟩, frame⟩, treeAfter⟩

theorem Stands.assign (stands : Stands pool model) {self o : PacketTagList} {j : Nat}
    (found : pool.lists[i]? = some self) (foundOther : pool.lists[j]? = some o) :
    Stands (pool.put i (PacketTagList.assign pool.heap self o))
      (model.set i (model.getD j .empty)) := by
  have tree := stands.operand found
  obtain ⟨cells, chain, represents⟩ := stands.holds foundOther
  by_cases same : self = o
  · have result : PacketTagList.assign pool.heap self o = some (pool.heap, self) := by
      simp [PacketTagList.assign, same]
    rw [result]
    exact stands.put found ⟨tree, ⟨cells, same ▸ chain, represents⟩, .refl _ _⟩
  · obtain ⟨after, removed, updates, treeAfter⟩ := removeAll_updates tree (stands.holds found)
    have result : PacketTagList.assign pool.heap self o = some (after.retain o, o) := by
      simp [PacketTagList.assign, same, removed]
    have other : o ∈ (pool.lists.eraseIdx i : Multiset PacketTagList) := by
      refine List.mem_eraseIdx_iff_getElem?.mpr ⟨j, ?_, foundOther⟩
      rintro rfl
      exact same (Option.some.inj (found.symm.trans foundOther))
    have chainAfter := updates.frame o other cells chain
    rw [result]
    exact stands.put found ⟨treeAfter.retain chainAfter,
      ⟨cells, chainAfter.keep (NodeHeap.keeps_retain o), represents⟩,
      updates.frame.trans (NodeHeap.keeps_retain o).frame⟩

theorem exists_of_lt (bounded : i < pool.lists.length) : ∃ list, pool.lists[i]? = some list :=
  ⟨_, List.getElem?_eq_getElem bounded⟩

/-- Every operation keeps the pool beside its maps. -/
theorem Stands.step (stands : Stands pool model) {action : TagAction}
    (enabled : pool.Enabled action) (sound : pool.Sound action) :
    Stands (pool.step action) (stepMaps model action) := by
  cases action with
  | construct =>
      exact stands.push (NodeHeap.Tree.cons_none.mpr stands.tree) ⟨[], .nil, .nil⟩ (.refl _ _)
  | copy i =>
      obtain ⟨self, found⟩ := exists_of_lt enabled
      obtain ⟨cells, chain, represents⟩ := stands.holds found
      simp only [TagPool.step, stepMaps, found]
      exact stands.push (stands.tree.retain chain)
        ⟨cells, chain.keep (NodeHeap.keeps_retain self), represents⟩ (NodeHeap.keeps_retain self).frame
  | assign i j =>
      obtain ⟨self, found⟩ := exists_of_lt enabled.1
      obtain ⟨o, foundOther⟩ := exists_of_lt enabled.2
      simp only [TagPool.step, stepMaps, found, foundOther]
      exact stands.assign found foundOther
  | destroy i =>
      obtain ⟨self, found⟩ := exists_of_lt enabled
      obtain ⟨after, removed, updates, tree⟩ :=
        removeAll_updates (stands.operand found) (stands.holds found)
      simp only [TagPool.step, stepMaps, found, removed]
      exact stands.erase tree updates.frame
  | add i tag =>
      obtain ⟨small, absent⟩ := enabled
      obtain ⟨self, found, none⟩ := Option.map_eq_some_iff.mp absent
      obtain ⟨cells, chain, represents⟩ := stands.holds found
      have missing : model.getD i .empty tag.tid = Option.none := by
        rw [stands.getD found, read, none]
        rfl
      obtain ⟨state, added, updates⟩ :=
        add_spec (stands.operand found) chain represents missing small
      simp only [TagPool.step, stepMaps, found, added]
      exact stands.put found updates
  | remove i tid =>
      obtain ⟨self, found⟩ := exists_of_lt enabled
      obtain ⟨cells, chain, represents⟩ := stands.holds found
      obtain ⟨state, removed, updates⟩ := remove_spec (stands.operand found) chain represents tid
      simp only [TagPool.step, stepMaps, found, removed, Option.map_some]
      exact stands.put found updates
  | replace i tag =>
      obtain ⟨self, found⟩ := exists_of_lt enabled.2
      obtain ⟨cells, chain, represents⟩ := stands.holds found
      obtain ⟨state, replaced, updates⟩ := replace_spec (stands.operand found) chain represents
        enabled.1 (sound self found)
      simp only [TagPool.step, stepMaps, found, replaced, Option.map_some]
      exact stands.put found updates
  | peek i tid => exact stands
  | removeAll i =>
      obtain ⟨self, found⟩ := exists_of_lt enabled
      obtain ⟨after, removed, updates, _⟩ :=
        removeAll_updates (stands.operand found) (stands.holds found)
      simp only [TagPool.step, stepMaps, found, removed]
      exact stands.put found updates

/-- What the pool guarantees in every state. The condition is that of the tags for
which `Replace` should work. -/
structure Independent (Condition : TagHeap → PacketTagList → Tag → Prop)
    (state : TagPool × List TagMap) : Prop where
  lists : state.1.lists.map (read state.1.heap) = state.2
  peeks : ∀ list ∈ state.1.lists, ∀ tid, ∃ found, peek state.1.heap list tid = some found
  counts : ∀ address node, state.1.heap.node address = some node →
    node.count = (state.1.lists + state.1.heap.links).count (some address)
  reaches : ∀ pointer ∈ state.1.lists + state.1.heap.links,
    ∃ cells, state.1.heap.Chain pointer cells
  replaces : ∀ list ∈ state.1.lists, ∀ tag : Tag, tag.data.length < 2 ^ 32 - 1 →
    (read state.1.heap list tag.tid).isSome → Condition state.1.heap list tag →
    ReadsBack state.1.heap list tag

theorem Stands.replaces_iff (stands : Stands pool model) {tag : Tag} (inside : list ∈ pool.lists)
    (small : tag.data.length < 2 ^ 32 - 1) (present : (read pool.heap list tag.tid).isSome) :
    ReadsBack pool.heap list tag ↔ ¬ Resizes pool.heap list tag := by
  obtain ⟨i, found⟩ := List.getElem?_of_mem inside
  obtain ⟨cells, chain, represents⟩ := stands.held list inside
  exact readsBack_iff (stands.operand found) chain represents present small

theorem Stands.independent (stands : Stands pool model) :
    Independent (fun heap list tag => ¬ Resizes heap list tag) (pool, model) where
  lists := stands.meaning
  peeks list inside tid := by
    obtain ⟨i, found⟩ := List.getElem?_of_mem inside
    obtain ⟨cells, chain, _⟩ := stands.held list inside
    exact ⟨_, peek_eq (stands.operand found) chain⟩
  counts := stands.tree.counts
  reaches := stands.tree.reaches
  replaces _ inside _ small present sameSize :=
    (stands.replaces_iff inside small present).mpr sameSize

/-- In every run that replaces no tag in place by one of another size, the lists
are independent maps, the counts of the nodes are right, no node that a list leads
to is freed, and `Replace` reads back where it does not resize. -/
theorem packetTagLists_independent (actions : List TagAction)
    (legal : machine.Legal (empty, []) actions)
    (sound : machine.Along (fun state action => state.1.Sound action) (empty, []) actions) :
    machine.Always (Independent fun heap list tag => ¬ Resizes heap list tag)
      (empty, []) actions := by
  have always : machine.Always (fun state => Stands state.1 state.2) (empty, []) actions :=
    Machine.Legal.always_of_along
      (fun state action stands enabled sound => Stands.step stands enabled sound)
      Stands.empty legal sound
  exact always.mono fun state stands => stands.independent

theorem packetTagLists_independent_short_run :
    machine.Always (Independent fun heap list tag => ¬ Resizes heap list tag) (empty, [])
      [.construct, .add 0 ⟨1, [10]⟩, .add 0 ⟨2, [20, 21]⟩, .copy 0, .add 1 ⟨3, [30]⟩,
        .replace 0 ⟨1, [11, 12, 13]⟩, .remove 1 2, .replace 1 ⟨3, [31]⟩, .assign 0 1,
        .removeAll 1, .destroy 0] :=
  packetTagLists_independent _ (by decide) (by decide)

/-- A tag of two bytes is replaced by one of one byte: the second byte is still
read. -/
theorem packetTagLists_resize :
    machine.Legal (empty, []) [.construct, .add 0 ⟨1, [10, 11]⟩] ∧
      ¬ machine.Always (Independent fun _ _ _ => True) (empty, [])
        [.construct, .add 0 ⟨1, [10, 11]⟩] := by
  refine ⟨by decide, fun always => ?_⟩
  obtain ⟨state, replaced, peeked⟩ := always.last.replaces (some 0) (by decide) ⟨1, [12]⟩
    (by decide) (by decide) trivial
  have stale : ∀ result ∈ replace (machine.run (empty, [])
      [.construct, .add 0 ⟨1, [10, 11]⟩]).1.heap (some 0) ⟨1, [12]⟩,
      peek result.1.1 result.1.2 1 = some (some ⟨1, [12, 11]⟩) := by
    decide
  rw [stale _ replaced] at peeked
  exact absurd peeked (by decide)

end TagPool

end Ns3.Network
