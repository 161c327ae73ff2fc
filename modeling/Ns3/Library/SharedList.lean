import Mathlib.Algebra.Order.Ring.Int
import Mathlib.Data.Multiset.AddSub
import Mathlib.Data.Multiset.Range
import Mathlib.Data.Multiset.MapFold
import Mathlib.Logic.Function.Basic
import Mathlib.Data.List.Nodup
import Mathlib.Data.List.Induction

/-!
Lists that share their tails.

The nodes of all lists form a tree that is grown at its leaves: a list is a
pointer to a node, and a node points to the next one. The count of a node is the
number of pointers to it, whether a list holds the pointer or another node does.
`Tree` is the invariant. Its rules move a pointer between the lists and the
nodes one at a time, so that an operation on a list is a chain of them.
-/

namespace Ns3.Library

universe u

structure SharedNode (Value : Type u) where
  next : Option Nat
  count : Nat
  value : Value

/-- The nodes by address; a node that was freed or not yet allocated is `none`,
and no address from `fresh` on was ever used. -/
structure NodeHeap (Value : Type u) where
  node : Nat → Option (SharedNode Value)
  fresh : Nat

namespace NodeHeap

variable {Value : Type u}

def empty : NodeHeap Value := ⟨fun _ => none, 0⟩

def allocate (heap : NodeHeap Value) (node : SharedNode Value) : NodeHeap Value :=
  ⟨Function.update heap.node heap.fresh (some node), heap.fresh + 1⟩

def free (heap : NodeHeap Value) (address : Nat) : NodeHeap Value :=
  { heap with node := Function.update heap.node address none }

def modify (heap : NodeHeap Value) (address : Nat)
    (change : SharedNode Value → SharedNode Value) : NodeHeap Value :=
  { heap with node := Function.update heap.node address ((heap.node address).map change) }

/-- One pointer more to the node, if the pointer leads to one. -/
def retain (heap : NodeHeap Value) : Option Nat → NodeHeap Value
  | some address => heap.modify address fun node => { node with count := node.count + 1 }
  | none => heap

/-- One pointer less. -/
def drop (heap : NodeHeap Value) : Option Nat → NodeHeap Value
  | some address => heap.modify address fun node => { node with count := node.count - 1 }
  | none => heap

def relink (heap : NodeHeap Value) (address : Nat) (next : Option Nat) : NodeHeap Value :=
  heap.modify address fun node => { node with next }

/-- Where a node points to. -/
def link (heap : NodeHeap Value) (address : Nat) : Option Nat :=
  (heap.node address).bind SharedNode.next

/-- The pointers that nodes hold. -/
def links (heap : NodeHeap Value) : Multiset (Option Nat) :=
  (Multiset.range heap.fresh).map heap.link

/-- The nodes that a pointer leads to, with their values. -/
inductive Chain (heap : NodeHeap Value) : Option Nat → List (Nat × Value) → Prop
  | nil : Chain heap none []
  | cons {address : Nat} {node : SharedNode Value} {cells : List (Nat × Value)}
      (found : heap.node address = some node) (rest : Chain heap node.next cells) :
      Chain heap (some address) ((address, node.value) :: cells)

/-- The invariant of the nodes for the lists that hold them. -/
structure Tree (heap : NodeHeap Value) (holders : Multiset (Option Nat)) : Prop where
  counts : ∀ address node, heap.node address = some node →
    node.count = (holders + heap.links).count (some address)
  reaches : ∀ pointer ∈ holders + heap.links, ∃ cells, heap.Chain pointer cells
  bounded : ∀ address, heap.fresh ≤ address → heap.node address = none

variable {heap after : NodeHeap Value} {holders : Multiset (Option Nat)} {pointer : Option Nat}
  {address : Nat} {node : SharedNode Value} {cells : List (Nat × Value)}

theorem modify_node_self (found : heap.node address = some node)
    (change : SharedNode Value → SharedNode Value) :
    (heap.modify address change).node address = some (change node) := by
  simp [modify, found]

theorem modify_node_of_ne (heap : NodeHeap Value) {other : Nat} (different : other ≠ address)
    (change : SharedNode Value → SharedNode Value) :
    (heap.modify address change).node other = heap.node other := by
  simp [modify, different]

theorem free_node_of_ne (heap : NodeHeap Value) {other : Nat} (different : other ≠ address) :
    (heap.free address).node other = heap.node other := by
  simp [free, different]

theorem allocate_node_of_ne (heap : NodeHeap Value) {other : Nat} (different : other ≠ heap.fresh) :
    (heap.allocate node).node other = heap.node other := by
  simp [allocate, different]

/-- All nodes are still there, with the same links and values. -/
def Keeps (heap after : NodeHeap Value) : Prop :=
  ∀ address node, heap.node address = some node →
    ∃ kept, after.node address = some kept ∧ kept.next = node.next ∧ kept.value = node.value

theorem Keeps.trans {final : NodeHeap Value} (first : heap.Keeps after)
    (second : after.Keeps final) : heap.Keeps final := by
  intro address node found
  obtain ⟨kept, keptFound, next, value⟩ := first address node found
  obtain ⟨last, lastFound, lastNext, lastValue⟩ := second address kept keptFound
  exact ⟨last, lastFound, lastNext.trans next, lastValue.trans value⟩

theorem keeps_modify {change : SharedNode Value → SharedNode Value}
    (next : ∀ node, (change node).next = node.next)
    (value : ∀ node, (change node).value = node.value) :
    heap.Keeps (heap.modify address change) := by
  intro other node found
  rcases eq_or_ne other address with rfl | different
  · exact ⟨change node, modify_node_self found change, next node, value node⟩
  · exact ⟨node, (heap.modify_node_of_ne different change).trans found, rfl, rfl⟩

theorem keeps_retain (pointer : Option Nat) : heap.Keeps (heap.retain pointer) := by
  cases pointer with
  | none => exact fun address node found => ⟨node, found, rfl, rfl⟩
  | some address => exact keeps_modify (fun _ => rfl) fun _ => rfl

theorem keeps_drop (pointer : Option Nat) : heap.Keeps (heap.drop pointer) := by
  cases pointer with
  | none => exact fun address node found => ⟨node, found, rfl, rfl⟩
  | some address => exact keeps_modify (fun _ => rfl) fun _ => rfl

theorem Tree.keeps_allocate (tree : heap.Tree holders) (new : SharedNode Value) :
    heap.Keeps (heap.allocate new) := by
  intro address node found
  have used : address ≠ heap.fresh := by
    rintro rfl
    rw [tree.bounded _ le_rfl] at found
    exact nomatch found
  exact ⟨node, (heap.allocate_node_of_ne used).trans found, rfl, rfl⟩

theorem Chain.frame (chain : heap.Chain pointer cells)
    (same : ∀ cell ∈ cells, ∀ node, heap.node cell.1 = some node →
      ∃ kept, after.node cell.1 = some kept ∧ kept.next = node.next ∧ kept.value = node.value) :
    after.Chain pointer cells := by
  induction chain with
  | nil => exact .nil
  | @cons address node cells found rest inductionHypothesis =>
      obtain ⟨kept, keptFound, next, value⟩ := same _ List.mem_cons_self node found
      rw [← value]
      refine .cons keptFound (next ▸ inductionHypothesis fun cell inside => ?_)
      exact same cell (List.mem_cons_of_mem _ inside)

theorem Chain.keep (chain : heap.Chain pointer cells) (keeps : heap.Keeps after) :
    after.Chain pointer cells :=
  chain.frame fun cell _ => keeps cell.1

/-- A change to a node outside the chain. -/
theorem Chain.modify (chain : heap.Chain pointer cells) (outside : address ∉ cells.map Prod.fst)
    (change : SharedNode Value → SharedNode Value) :
    (heap.modify address change).Chain pointer cells := by
  refine chain.frame fun cell inside kept keptFound => ⟨kept, ?_, rfl, rfl⟩
  have different : cell.1 ≠ address := fun same => outside (same ▸ List.mem_map_of_mem inside)
  exact (heap.modify_node_of_ne different change).trans keptFound

theorem Chain.free (chain : heap.Chain pointer cells) (outside : address ∉ cells.map Prod.fst) :
    (heap.free address).Chain pointer cells := by
  refine chain.frame fun cell inside kept keptFound => ⟨kept, ?_, rfl, rfl⟩
  have different : cell.1 ≠ address := fun same => outside (same ▸ List.mem_map_of_mem inside)
  exact (heap.free_node_of_ne different).trans keptFound

theorem Chain.unique {others : List (Nat × Value)} (chain : heap.Chain pointer cells)
    (other : heap.Chain pointer others) : cells = others := by
  induction chain generalizing others with
  | nil =>
      cases other
      rfl
  | cons found rest inductionHypothesis =>
      cases other with
      | cons otherFound otherRest =>
          cases found.symm.trans otherFound
          rw [inductionHypothesis otherRest]

theorem Chain.tail_of_mem (chain : heap.Chain pointer cells)
    (inside : address ∈ cells.map Prod.fst) :
    ∃ rest, heap.Chain (some address) rest ∧ rest.length ≤ cells.length := by
  induction chain with
  | nil => exact nomatch inside
  | @cons first node cells found rest inductionHypothesis =>
      rcases List.mem_cons.mp inside with rfl | later
      · exact ⟨_, .cons found rest, le_rfl⟩
      · obtain ⟨tail, tailChain, shorter⟩ := inductionHypothesis later
        exact ⟨tail, tailChain, shorter.trans (Nat.le_succ _)⟩

/-- A chain never comes back to a node. -/
theorem Chain.nodup (chain : heap.Chain pointer cells) : (cells.map Prod.fst).Nodup := by
  induction chain with
  | nil => exact List.nodup_nil
  | @cons address node cells found rest inductionHypothesis =>
      refine List.nodup_cons.mpr ⟨fun inside => ?_, inductionHypothesis⟩
      obtain ⟨tail, tailChain, shorter⟩ := rest.tail_of_mem inside
      rw [tailChain.unique (.cons found rest), List.length_cons] at shorter
      exact Nat.not_succ_le_self _ shorter

theorem Chain.head (chain : heap.Chain (some address) cells) :
    ∃ node, heap.node address = some node := by
  cases chain with
  | cons found _ => exact ⟨_, found⟩

theorem Chain.allocated (chain : heap.Chain pointer cells) :
    ∀ other ∈ cells.map Prod.fst, ∃ node, heap.node other = some node := by
  induction chain with
  | nil => exact fun _ inside => nomatch inside
  | cons found rest inductionHypothesis =>
      intro other inside
      rcases List.mem_cons.mp inside with rfl | later
      · exact ⟨_, found⟩
      · exact inductionHypothesis other later

/-- A node of a chain is the first one, or another node of the chain points to it. -/
theorem Chain.pointed (chain : heap.Chain pointer cells)
    (inside : address ∈ cells.map Prod.fst) :
    pointer = some address ∨
      ∃ other ∈ cells.map Prod.fst, heap.link other = some address := by
  induction chain with
  | nil => exact nomatch inside
  | @cons first node cells found rest inductionHypothesis =>
      rcases List.mem_cons.mp inside with rfl | later
      · exact .inl rfl
      · refine .inr ?_
        rcases inductionHypothesis later with first | ⟨other, otherInside, points⟩
        · exact ⟨_, List.mem_cons_self, by rw [link, found]; exact first⟩
        · exact ⟨other, List.mem_cons_of_mem _ otherInside, points⟩

theorem Tree.known (tree : heap.Tree holders) (found : heap.node address = some node) :
    address < heap.fresh := by
  by_contra outside
  rw [tree.bounded address (Nat.not_lt.mp outside)] at found
  exact nomatch found

/-- A chain is no longer than the number of nodes that were ever allocated. -/
theorem Tree.length_le (tree : heap.Tree holders) (chain : heap.Chain pointer cells) :
    cells.length ≤ heap.fresh := by
  have bounded : cells.map Prod.fst ⊆ List.range heap.fresh := by
    intro other inside
    obtain ⟨node, found⟩ := chain.allocated other inside
    exact List.mem_range.mpr (tree.known found)
  have shorter := (chain.nodup.subperm bounded).length_le
  rwa [List.length_map, List.length_range] at shorter

/-- The pointers of all nodes but one. -/
def otherLinks (heap : NodeHeap Value) (address : Nat) : Multiset (Option Nat) :=
  ((Multiset.range heap.fresh).erase address).map heap.link

theorem links_eq (known : address < heap.fresh) :
    heap.links = heap.link address ::ₘ heap.otherLinks address := by
  rw [links, otherLinks, ← Multiset.map_cons,
    Multiset.cons_erase (Multiset.mem_range.mpr known)]

theorem otherLinks_congr (fresh : after.fresh = heap.fresh)
    (same : ∀ other, other ≠ address → after.link other = heap.link other) :
    after.otherLinks address = heap.otherLinks address := by
  rw [otherLinks, otherLinks, fresh]
  refine Multiset.map_congr rfl fun other inside => same other ?_
  exact ((Multiset.nodup_range heap.fresh).mem_erase_iff.mp inside).1

theorem link_mem_links (known : address < heap.fresh) : heap.link address ∈ heap.links :=
  Multiset.mem_map_of_mem _ (Multiset.mem_range.mpr known)

theorem link_mem_otherLinks {other : Nat} (known : other < heap.fresh)
    (different : other ≠ address) : heap.link other ∈ heap.otherLinks address :=
  Multiset.mem_map_of_mem _
    ((Multiset.mem_erase_of_ne different).mpr (Multiset.mem_range.mpr known))

theorem Tree.empty : (empty : NodeHeap Value).Tree 0 where
  counts _ _ found := nomatch found
  reaches _ inside := absurd inside (Multiset.notMem_zero _)
  bounded _ _ := rfl

theorem Tree.chain (tree : heap.Tree holders) (held : pointer ∈ holders) :
    ∃ cells, heap.Chain pointer cells :=
  tree.reaches pointer (Multiset.mem_add.mpr (.inl held))

/-- A list that holds nothing. -/
theorem Tree.cons_none : heap.Tree (none ::ₘ holders) ↔ heap.Tree holders := by
  constructor
  · intro tree
    refine ⟨fun address node found => ?_, fun pointer inside => ?_, tree.bounded⟩
    · rw [tree.counts address node found, Multiset.cons_add, Multiset.count_cons_of_ne (Option.some_ne_none _)]
    · exact tree.reaches pointer (by
        rw [Multiset.cons_add]
        exact Multiset.mem_cons_of_mem inside)
  · intro tree
    refine ⟨fun address node found => ?_, fun pointer inside => ?_, tree.bounded⟩
    · rw [tree.counts address node found, Multiset.cons_add, Multiset.count_cons_of_ne (Option.some_ne_none _)]
    · rw [Multiset.cons_add] at inside
      rcases Multiset.mem_cons.mp inside with rfl | before
      · exact ⟨[], .nil⟩
      · exact tree.reaches pointer before

theorem links_modify {change : SharedNode Value → SharedNode Value}
    (next : ∀ node, (change node).next = node.next) :
    (heap.modify address change).links = heap.links := by
  refine Multiset.map_congr rfl fun other _ => ?_
  rcases eq_or_ne other address with rfl | different
  · cases found : heap.node other with
    | none => simp [link, modify, found]
    | some node => simp [link, modify, found, next]
  · rw [link, link, heap.modify_node_of_ne different]

/-- The count of one node changes with the pointers to it. -/
theorem Tree.recount {before : Multiset (Option Nat)} (tree : heap.Tree before)
    {change : Nat → Nat}
    (changed : ∀ node, heap.node address = some node →
      change node.count = (holders + heap.links).count (some address))
    (same : ∀ other, other ≠ address → holders.count (some other) = before.count (some other))
    (reaches : ∀ pointer ∈ holders, ∃ cells, heap.Chain pointer cells) :
    (heap.modify address fun node => { node with count := change node.count }).Tree holders := by
  have linksEq : (heap.modify address fun node =>
      { node with count := change node.count }).links = heap.links := links_modify fun _ => rfl
  have keeps : heap.Keeps (heap.modify address fun node =>
      { node with count := change node.count }) := keeps_modify (fun _ => rfl) fun _ => rfl
  refine ⟨fun other node found => ?_, fun pointer inside => ?_, fun other outside => ?_⟩
  · rw [linksEq]
    rcases eq_or_ne other address with rfl | different
    · cases old : heap.node other with
      | none => simp [modify, old] at found
      | some oldNode =>
          cases (modify_node_self old _).symm.trans found
          exact changed oldNode old
    · rw [heap.modify_node_of_ne different] at found
      rw [tree.counts other node found, Multiset.count_add, Multiset.count_add,
        same other different]
  · rw [linksEq] at inside
    rcases Multiset.mem_add.mp inside with held | linked
    · obtain ⟨cells, chain⟩ := reaches pointer held
      exact ⟨cells, chain.keep keeps⟩
    · obtain ⟨cells, chain⟩ := tree.reaches pointer (Multiset.mem_add.mpr (.inr linked))
      exact ⟨cells, chain.keep keeps⟩
  · rcases eq_or_ne other address with rfl | different
    · simp [modify, tree.bounded other outside]
    · rw [heap.modify_node_of_ne different]
      exact tree.bounded other outside

/-- Another list gets hold of a node. -/
theorem Tree.retain (tree : heap.Tree holders) (chain : heap.Chain pointer cells) :
    (heap.retain pointer).Tree (pointer ::ₘ holders) := by
  cases pointer with
  | none => exact Tree.cons_none.mpr tree
  | some address =>
      refine tree.recount (fun node found => ?_) (fun other different => ?_) fun target held => ?_
      · rw [Multiset.cons_add, Multiset.count_cons_self, tree.counts address node found]
      · rw [Multiset.count_cons_of_ne (by simpa using different)]
      · rcases Multiset.mem_cons.mp held with rfl | before
        · exact ⟨cells, chain⟩
        · exact tree.chain before

/-- A list lets go of a node. -/
theorem Tree.drop (tree : heap.Tree (pointer ::ₘ holders)) :
    (heap.drop pointer).Tree holders := by
  cases pointer with
  | none => exact Tree.cons_none.mp tree
  | some address =>
      refine @Tree.recount _ heap holders address _ tree (· - 1) (fun node found => ?_)
        (fun other different => ?_) fun target held => ?_
      · have counts := tree.counts address node found
        rw [Multiset.cons_add, Multiset.count_cons_self] at counts
        exact Nat.sub_eq_of_eq_add counts
      · rw [Multiset.count_cons_of_ne (by simpa using different)]
      · exact tree.chain (Multiset.mem_cons_of_mem held)

/-- A pointer of a list moves into a new node, which the list then holds. -/
theorem Tree.allocate (tree : heap.Tree (pointer ::ₘ holders)) (value : Value) :
    (heap.allocate ⟨pointer, 1, value⟩).Tree (some heap.fresh ::ₘ holders) := by
  have keeps := tree.keeps_allocate ⟨pointer, 1, value⟩
  have newNode : (heap.allocate ⟨pointer, 1, value⟩).node heap.fresh = some ⟨pointer, 1, value⟩ :=
    Function.update_self _ _ _
  have unused : heap.node heap.fresh = none := tree.bounded _ le_rfl
  have linksEq : (heap.allocate ⟨pointer, 1, value⟩).links = pointer ::ₘ heap.links := by
    change (Multiset.range (heap.fresh + 1)).map _ = _
    rw [Multiset.range_succ, Multiset.map_cons, link, newNode]
    refine congrArg (pointer ::ₘ ·) (Multiset.map_congr rfl fun other inside => ?_)
    rw [link, heap.allocate_node_of_ne (Multiset.mem_range.mp inside).ne, link]
  have pointersEq : some heap.fresh ::ₘ holders + (heap.allocate ⟨pointer, 1, value⟩).links =
      some heap.fresh ::ₘ (pointer ::ₘ holders + heap.links) := by
    rw [linksEq, Multiset.cons_add, Multiset.cons_add, Multiset.add_cons]
  refine ⟨fun other node found => ?_, fun target inside => ?_, fun other outside => ?_⟩
  · rw [pointersEq]
    rcases eq_or_ne other heap.fresh with rfl | different
    · cases newNode.symm.trans found
      rw [Multiset.count_cons_self, Multiset.count_eq_zero_of_notMem]
      intro inside
      obtain ⟨cells, chain⟩ := tree.reaches _ inside
      cases chain with
      | cons found rest => exact nomatch unused.symm.trans found
    · rw [heap.allocate_node_of_ne different] at found
      rw [Multiset.count_cons_of_ne (by simpa using different), tree.counts other node found]
  · rw [pointersEq] at inside
    rcases Multiset.mem_cons.mp inside with rfl | before
    · obtain ⟨cells, chain⟩ := tree.chain (Multiset.mem_cons_self _ _)
      exact ⟨_, .cons newNode (chain.keep keeps)⟩
    · obtain ⟨cells, chain⟩ := tree.reaches target before
      exact ⟨cells, chain.keep keeps⟩
  · have beyond : other ≠ heap.fresh := fun same => Nat.not_succ_le_self _ (same ▸ outside)
    rw [heap.allocate_node_of_ne beyond]
    exact tree.bounded other (Nat.le_of_succ_le outside)

/-- Nothing leads to a node that no pointer names. -/
theorem Tree.unreached (tree : heap.Tree holders) (found : heap.node address = some node)
    (unused : node.count = 0) (held : pointer ∈ holders + heap.links)
    (chain : heap.Chain pointer cells) : address ∉ cells.map Prod.fst := by
  intro inside
  rw [tree.counts address node found, Multiset.count_eq_zero] at unused
  rcases chain.pointed inside with rfl | ⟨other, otherInside, points⟩
  · exact unused held
  · obtain ⟨node, otherFound⟩ := chain.allocated other otherInside
    exact unused (Multiset.mem_add.mpr (.inr (points ▸ link_mem_links (tree.known otherFound))))

/-- A node without pointers to it is freed; the pointer it had is left over. -/
theorem Tree.free (tree : heap.Tree holders) (found : heap.node address = some node)
    (unused : node.count = 0) : (heap.free address).Tree (node.next ::ₘ holders) := by
  have known := tree.known found
  have freed : (heap.free address).node address = none := Function.update_self _ _ _
  have linksEq : (heap.free address).links = none ::ₘ heap.otherLinks address := by
    rw [@links_eq _ (heap.free address) _ known, link, freed]
    refine congrArg (none ::ₘ ·) (otherLinks_congr rfl fun other different => ?_)
    rw [link, heap.free_node_of_ne different, link]
  have before : heap.links = node.next ::ₘ heap.otherLinks address := by
    rw [links_eq known, link, found]
    rfl
  have pointersEq : node.next ::ₘ holders + (heap.free address).links =
      none ::ₘ (holders + heap.links) := by
    rw [linksEq, before, Multiset.cons_add, Multiset.add_cons, Multiset.add_cons,
      Multiset.cons_swap]
  refine ⟨fun other kept keptFound => ?_, fun target inside => ?_, fun other outside => ?_⟩
  · rw [pointersEq, Multiset.count_cons_of_ne (Option.some_ne_none _)]
    have different : other ≠ address := by
      rintro rfl
      exact nomatch freed.symm.trans keptFound
    rw [heap.free_node_of_ne different] at keptFound
    exact tree.counts other kept keptFound
  · rw [pointersEq] at inside
    rcases Multiset.mem_cons.mp inside with rfl | old
    · exact ⟨[], .nil⟩
    · obtain ⟨cells, chain⟩ := tree.reaches target old
      exact ⟨cells, chain.free (tree.unreached found unused old chain)⟩
  · have different : other ≠ address := fun same => Nat.not_le.mpr known (same ▸ outside)
    rw [heap.free_node_of_ne different]
    exact tree.bounded other outside

/-- A chain that runs through a node goes on from there along its new link. -/
theorem Chain.relink {next : Option Nat} {rest : List (Nat × Value)}
    (chain : heap.Chain pointer cells) (found : heap.node address = some node)
    (nextChain : heap.Chain next rest) (acyclic : address ∉ rest.map Prod.fst) :
    ∃ cells, (heap.relink address next).Chain pointer cells := by
  have untouched : (heap.relink address next).Chain next rest := nextChain.modify acyclic _
  induction chain with
  | nil => exact ⟨[], .nil⟩
  | @cons other otherNode cells otherFound otherRest inductionHypothesis =>
      rcases eq_or_ne other address with rfl | different
      · exact ⟨_, .cons (modify_node_self found _) untouched⟩
      · obtain ⟨cells, chain⟩ := inductionHypothesis
        exact ⟨_, .cons ((heap.modify_node_of_ne different _).trans otherFound) chain⟩

/-- A node takes over a pointer of a list, which gets the one that the node had. -/
theorem Tree.relink {next : Option Nat} (tree : heap.Tree (next ::ₘ holders))
    (found : heap.node address = some node) (nextChain : heap.Chain next cells)
    (acyclic : address ∉ cells.map Prod.fst) :
    (heap.relink address next).Tree (node.next ::ₘ holders) := by
  have known := tree.known found
  have relinked : (heap.relink address next).node address = some { node with next } :=
    modify_node_self found _
  have linksEq : (heap.relink address next).links = next ::ₘ heap.otherLinks address := by
    rw [@links_eq _ (heap.relink address next) _ known, link, relinked]
    refine congrArg (next ::ₘ ·) (otherLinks_congr rfl fun other different => ?_)
    rw [link, link, NodeHeap.relink, heap.modify_node_of_ne different]
  have before : heap.links = node.next ::ₘ heap.otherLinks address := by
    rw [links_eq known, link, found]
    rfl
  have pointersEq : node.next ::ₘ holders + (heap.relink address next).links =
      next ::ₘ holders + heap.links := by
    rw [linksEq, before, Multiset.cons_add, Multiset.cons_add, Multiset.add_cons,
      Multiset.add_cons, Multiset.cons_swap]
  refine ⟨fun other kept keptFound => ?_, fun target inside => ?_, fun other outside => ?_⟩
  · rw [pointersEq]
    rcases eq_or_ne other address with rfl | different
    · cases relinked.symm.trans keptFound
      exact tree.counts other node found
    · rw [NodeHeap.relink, heap.modify_node_of_ne different] at keptFound
      exact tree.counts other kept keptFound
  · rw [pointersEq] at inside
    obtain ⟨cells, chain⟩ := tree.reaches target inside
    exact chain.relink found nextChain acyclic
  · have different : other ≠ address := fun same => Nat.not_le.mpr known (same ▸ outside)
    rw [NodeHeap.relink, heap.modify_node_of_ne different]
    exact tree.bounded other outside

/-- The nodes between two pointers, each of which has one pointer to it. -/
def Segment (heap : NodeHeap Value) : Option Nat → List (Nat × Value) → Option Nat → Prop
  | first, [], last => first = last
  | first, (address, value) :: front, last => first = some address ∧
      ∃ node, heap.node address = some node ∧ node.value = value ∧ node.count = 1 ∧
        heap.Segment node.next front last

variable {first last : Option Nat} {front : List (Nat × Value)}

theorem Segment.chain (segment : heap.Segment first front last) (chain : heap.Chain last cells) :
    heap.Chain first (front ++ cells) := by
  induction front generalizing first with
  | nil =>
      cases segment
      exact chain
  | cons cell front inductionHypothesis =>
      obtain ⟨rfl, node, found, value, -, rest⟩ := segment
      obtain ⟨address, value⟩ := cell
      cases value
      exact .cons found (inductionHypothesis rest)

theorem Segment.snoc (segment : heap.Segment first front (some address))
    (found : heap.node address = some node) (single : node.count = 1) :
    heap.Segment first (front ++ [(address, node.value)]) node.next := by
  induction front generalizing first with
  | nil => exact ⟨segment, node, found, rfl, single, rfl⟩
  | cons cell front inductionHypothesis =>
      obtain ⟨rfl, other, otherFound, value, otherSingle, rest⟩ := segment
      exact ⟨rfl, other, otherFound, value, otherSingle, inductionHypothesis rest⟩

theorem Segment.frame (segment : heap.Segment first front last)
    (same : ∀ cell ∈ front, after.node cell.1 = heap.node cell.1) :
    after.Segment first front last := by
  induction front generalizing first with
  | nil => exact segment
  | cons cell front inductionHypothesis =>
      obtain ⟨rfl, node, found, value, single, rest⟩ := segment
      refine ⟨rfl, node, (same cell List.mem_cons_self).trans found, value, single, ?_⟩
      exact inductionHypothesis rest fun other inside => same other (List.mem_cons_of_mem _ inside)

/-- A segment without its last node. -/
theorem Segment.dropLast {cell : Nat × Value} (segment : heap.Segment first (front ++ [cell]) last) :
    heap.Segment first front (some cell.1) ∧ ∃ node, heap.node cell.1 = some node ∧
      node.value = cell.2 ∧ node.count = 1 ∧ node.next = last := by
  induction front generalizing first with
  | nil =>
      obtain ⟨rfl, node, found, value, single, rest⟩ := segment
      exact ⟨rfl, node, found, value, single, rest⟩
  | cons other front inductionHypothesis =>
      obtain ⟨rfl, node, found, value, single, rest⟩ := segment
      obtain ⟨shorter, lastNode⟩ := inductionHypothesis rest
      exact ⟨⟨rfl, node, found, value, single, shorter⟩, lastNode⟩

/-- Where the last pointer of a segment is kept: with the list, or in a node. -/
inductive Slot where
  | head
  | next (address : Nat)
  deriving DecidableEq, Repr

/-- Overwrite the pointer in a slot of a list. -/
def assign (state : NodeHeap Value × Option Nat) (slot : Slot) (pointer : Option Nat) :
    NodeHeap Value × Option Nat :=
  match slot with
  | .head => (state.1, pointer)
  | .next address => (state.1.relink address pointer, state.2)

/-- The slot at the end of a segment. -/
def slotAfter (front : List (Nat × Value)) : Slot :=
  match front.getLast? with
  | none => .head
  | some cell => .next cell.1

theorem slotAfter_snoc (front : List (Nat × Value)) (cell : Nat × Value) :
    slotAfter (front ++ [cell]) = .next cell.1 := by
  simp [slotAfter]

/-- Only its own list leads to the nodes of a segment. -/
theorem Tree.exclusive (tree : heap.Tree (first ::ₘ holders))
    (segment : heap.Segment first front last) {other : Option Nat} (held : other ∈ holders)
    (chain : heap.Chain other cells) : ∀ cell ∈ front, cell.1 ∉ cells.map Prod.fst := by
  -- The induction keeps a pointer to the next node that is none of the other list.
  suffices general : ∀ (front : List (Nat × Value)) (start : Option Nat),
      (start = first ∨ ∃ node < heap.fresh, heap.link node = start ∧
        node ∉ cells.map Prod.fst) → heap.Segment start front last →
      ∀ cell ∈ front, cell.1 ∉ cells.map Prod.fst from
    general front first (.inl rfl) segment
  intro front
  induction front with
  | nil => exact fun _ _ _ cell inside => nomatch inside
  | cons cell front inductionHypothesis =>
      intro start source segment
      obtain ⟨rfl, node, found, -, single, rest⟩ := segment
      have outside : cell.1 ∉ cells.map Prod.fst := by
        intro inside
        have counts := tree.counts cell.1 node found
        rw [single, Multiset.cons_add] at counts
        rcases source with rfl | ⟨before, known, points, apart⟩
        · rw [Multiset.count_cons_self] at counts
          have unnamed : some cell.1 ∉ holders + heap.links :=
            Multiset.count_eq_zero.mp (by omega)
          rcases chain.pointed inside with rfl | ⟨previous, previousInside, points⟩
          · exact unnamed (Multiset.mem_add.mpr (.inl held))
          · obtain ⟨previousNode, previousFound⟩ := chain.allocated previous previousInside
            exact unnamed (Multiset.mem_add.mpr
              (.inr (points ▸ link_mem_links (tree.known previousFound))))
        · rw [links_eq known, points, Multiset.add_cons, Multiset.cons_swap,
            Multiset.count_cons_self] at counts
          have unnamed : some cell.1 ∉ first ::ₘ (holders + heap.otherLinks before) :=
            Multiset.count_eq_zero.mp (by omega)
          rcases chain.pointed inside with rfl | ⟨previous, previousInside, previousPoints⟩
          · exact unnamed (Multiset.mem_cons_of_mem (Multiset.mem_add.mpr (.inl held)))
          · obtain ⟨previousNode, previousFound⟩ := chain.allocated previous previousInside
            refine unnamed (Multiset.mem_cons_of_mem (Multiset.mem_add.mpr (.inr ?_)))
            rw [← previousPoints]
            exact link_mem_otherLinks (tree.known previousFound)
              fun same => apart (same ▸ previousInside)
      have next : heap.link cell.1 = node.next := by
        rw [link, found]
        rfl
      intro other inside
      rcases List.mem_cons.mp inside with rfl | later
      · exact outside
      · exact inductionHypothesis node.next (.inr ⟨cell.1, tree.known found, next, outside⟩) rest
          other later

/-- The list takes over a pointer at the end of a segment, and what was there is
left over. -/
theorem Tree.assign {next : Option Nat} (tree : heap.Tree (next ::ₘ first ::ₘ holders))
    (segment : heap.Segment first front last) (lastChain : ∃ rest, heap.Chain last rest)
    (chain : heap.Chain next cells) (apart : ∀ cell ∈ front, cell.1 ∉ cells.map Prod.fst) :
    (assign (heap, first) (slotAfter front) next).1.Tree
        (last ::ₘ (assign (heap, first) (slotAfter front) next).2 ::ₘ holders) ∧
      (assign (heap, first) (slotAfter front) next).1.Segment
        (assign (heap, first) (slotAfter front) next).2 front next ∧
      ∀ pointer cells, heap.Chain pointer cells →
        (∀ cell ∈ front, cell.1 ∉ cells.map Prod.fst) →
        (assign (heap, first) (slotAfter front) next).1.Chain pointer cells := by
  induction front using List.reverseRecOn with
  | nil =>
      cases segment
      refine ⟨?_, rfl, fun _ _ chain _ => chain⟩
      rw [Multiset.cons_swap]
      exact tree
  | append_singleton front cell _ =>
      obtain ⟨shorter, node, found, value, single, rfl⟩ := segment.dropLast
      have inFront : cell ∈ front ++ [cell] := by simp
      rw [slotAfter_snoc]
      refine ⟨tree.relink found chain (apart cell inFront), ?_, ?_⟩
      · obtain ⟨rest, restChain⟩ := lastChain
        have nodup := (segment.chain restChain).nodup
        have distinct : ∀ other ∈ front, other.1 ≠ cell.1 := by
          intro other inside same
          rw [List.append_assoc, List.map_append] at nodup
          exact (List.disjoint_of_nodup_append nodup) (List.mem_map_of_mem inside)
            (by simp [same])
        have kept : (heap.relink cell.1 next).Segment first front (some cell.1) :=
          shorter.frame fun other inside => heap.modify_node_of_ne (distinct other inside) _
        have relinked : (heap.relink cell.1 next).node cell.1 = some { node with next } :=
          modify_node_self found _
        have whole := kept.snoc relinked single
        rw [value] at whole
        exact whole
      · exact fun pointer others otherChain outside => otherChain.modify (outside cell inFront) _

theorem modify_comm (heap : NodeHeap Value) {other : Nat} (different : other ≠ address)
    (change later : SharedNode Value → SharedNode Value) :
    (heap.modify address change).modify other later =
      (heap.modify other later).modify address change := by
  simp [modify, different, different.symm, Function.update_comm different.symm]

theorem free_modify (heap : NodeHeap Value) (change : SharedNode Value → SharedNode Value) :
    (heap.modify address change).free address = heap.free address := by
  simp [modify, free]

theorem allocate_modify (heap : NodeHeap Value) (used : address ≠ heap.fresh)
    (change : SharedNode Value → SharedNode Value) (new : SharedNode Value) :
    (heap.modify address change).allocate new = (heap.allocate new).modify address change := by
  simp [modify, allocate, used, Function.update_comm used]

theorem assign_modify (heap : NodeHeap Value) (self : Option Nat) {slot : Slot}
    (apart : slot ≠ .next address) (change : SharedNode Value → SharedNode Value)
    (pointer : Option Nat) :
    assign (heap.modify address change, self) slot pointer =
      ((assign (heap, self) slot pointer).1.modify address change,
        (assign (heap, self) slot pointer).2) := by
  cases slot with
  | head => rfl
  | next other =>
      have different : other ≠ address := fun same => apart (congrArg Slot.next same)
      exact congrArg (·, self) (heap.modify_comm different _ _)

/-- A list, the lists beside it, and a position in it up to which no other list
shares its nodes. -/
structure Cursor (heap : NodeHeap Value) (list : Option Nat) (others : Multiset (Option Nat))
    (front : List (Nat × Value)) (current : Option Nat) (rest : List (Nat × Value)) : Prop where
  tree : heap.Tree (list ::ₘ others)
  segment : heap.Segment list front current
  chain : heap.Chain current rest

/-- The other lists lead to the same nodes as before. -/
def Frame (heap after : NodeHeap Value) (others : Multiset (Option Nat)) : Prop :=
  ∀ other ∈ others, ∀ cells, heap.Chain other cells → after.Chain other cells

theorem Frame.refl (heap : NodeHeap Value) (others : Multiset (Option Nat)) :
    heap.Frame heap others := fun _ _ _ chain => chain

theorem Frame.trans {others : Multiset (Option Nat)} {final : NodeHeap Value}
    (first : heap.Frame after others) (second : after.Frame final others) :
    heap.Frame final others :=
  fun other held cells chain => second other held cells (first other held cells chain)

theorem Keeps.frame {others : Multiset (Option Nat)} (keeps : heap.Keeps after) :
    heap.Frame after others := fun _ _ _ chain => chain.keep keeps

variable {self : Option Nat} {others : Multiset (Option Nat)} {rest : List (Nat × Value)}
  {value : Value}

theorem Tree.cursor (tree : heap.Tree (self ::ₘ others)) (chain : heap.Chain self cells) :
    heap.Cursor self others [] self cells := ⟨tree, rfl, chain⟩

theorem Cursor.whole {current : Option Nat} (cursor : heap.Cursor self others front current rest) :
    heap.Chain self (front ++ rest) := cursor.segment.chain cursor.chain

theorem Cursor.apart {current : Option Nat} (cursor : heap.Cursor self others front current rest) :
    ∀ cell ∈ front, cell.1 ∉ rest.map Prod.fst := by
  intro cell inside later
  have nodup := cursor.whole.nodup
  rw [List.map_append] at nodup
  exact List.disjoint_of_nodup_append nodup (List.mem_map_of_mem inside) later

/-- One node further. -/
theorem Cursor.advance {cell : Nat × Value}
    (cursor : heap.Cursor self others front (some address) (cell :: rest))
    (found : heap.node address = some node) (single : node.count = 1) :
    heap.Cursor self others (front ++ [(address, node.value)]) node.next rest := by
  have chain := cursor.chain
  cases chain with
  | cons foundAgain rest =>
      cases found.symm.trans foundAgain
      exact ⟨cursor.tree, cursor.segment.snoc found single, rest⟩

theorem assign_node_of_ne (heap : NodeHeap Value) (self : Option Nat) {slot : Slot}
    (apart : slot ≠ .next address) (pointer : Option Nat) :
    (assign (heap, self) slot pointer).1.node address = heap.node address := by
  cases slot with
  | head => rfl
  | next other => exact heap.modify_node_of_ne (fun same => apart (congrArg Slot.next same.symm)) _

theorem slotAfter_ne (outside : ∀ cell ∈ front, cell.1 ≠ address) :
    slotAfter front ≠ .next address := by
  intro same
  obtain rfl | ⟨front, cell, rfl⟩ := List.eq_nil_or_concat front
  · exact nomatch same
  · rw [List.concat_eq_append, slotAfter_snoc] at same
    exact outside cell (by simp) (Slot.next.inj same)

theorem Cursor.outside {current : Option Nat} (cursor : heap.Cursor self others front current rest)
    (inside : address ∈ rest.map Prod.fst) : ∀ cell ∈ front, cell.1 ≠ address :=
  fun cell cellInside same => cursor.apart cell cellInside (same ▸ inside)

theorem Cursor.front_known {current : Option Nat}
    (cursor : heap.Cursor self others front current rest) : ∀ cell ∈ front, cell.1 ≠ heap.fresh := by
  intro cell inside
  obtain ⟨node, found⟩ := cursor.whole.allocated cell.1 (by
    rw [List.map_append]
    exact List.mem_append_left _ (List.mem_map_of_mem inside))
  exact (cursor.tree.known found).ne

theorem retain_node_of_ne (heap : NodeHeap Value) (apart : pointer ≠ some address) :
    (heap.retain pointer).node address = heap.node address := by
  cases pointer with
  | none => rfl
  | some other => exact heap.modify_node_of_ne (fun same => apart (congrArg some same.symm)) _

/-- The current node and the pointer behind it. -/
theorem Cursor.current {cell : Nat × Value}
    (cursor : heap.Cursor self others front (some address) (cell :: rest))
    (found : heap.node address = some node) :
    cell = (address, node.value) ∧ heap.Chain node.next rest ∧ node.next ≠ some address ∧
      (∀ other ∈ front, other.1 ≠ address) ∧ ∀ other ∈ front, node.next ≠ some other.1 := by
  have chain := cursor.chain
  have apart := cursor.apart
  cases chain with
  | cons foundAgain restChain =>
      cases found.symm.trans foundAgain
      refine ⟨rfl, restChain, fun same => ?_, fun other inside same => ?_,
        fun other inside same => ?_⟩
      · have loop := same ▸ restChain
        have lengths := congrArg List.length (loop.unique cursor.chain)
        exact Nat.succ_ne_self _ lengths.symm
      · exact apart other inside (same ▸ List.mem_cons_self)
      · have loop := same ▸ restChain
        cases loop with
        | cons _ _ => exact apart other inside (List.mem_cons_of_mem _ List.mem_cons_self)

/-- The current node is replaced by one of its own, which may have another value. -/
theorem Cursor.unshare {cell : Nat × Value}
    (cursor : heap.Cursor self others front (some address) (cell :: rest))
    (found : heap.node address = some node) (value : Value) {state : NodeHeap Value × Option Nat}
    (result : state = assign (((heap.drop (some address)).allocate ⟨node.next, 1, value⟩).retain
      node.next, self) (slotAfter front) (some heap.fresh)) :
    state.1.Cursor state.2 others (front ++ [(heap.fresh, value)]) node.next rest ∧
      heap.Frame state.1 others := by
  obtain ⟨rfl, restChain, noLoop, notFront, nextNotFront⟩ := cursor.current found
  have known : address ≠ heap.fresh := (cursor.tree.known found).ne
  have retained := cursor.tree.retain restChain
  have freshEq : (heap.retain node.next).fresh = heap.fresh := by cases node.next <;> rfl
  have allocated := retained.allocate value
  rw [freshEq] at allocated
  -- The source gives up the old node first, which makes no difference.
  obtain ⟨after, afterEq⟩ : ∃ after, after =
    (heap.retain node.next).allocate ⟨node.next, 1, value⟩ := ⟨_, rfl⟩
  have stateEq : state = ((assign (after, self) (slotAfter front) (some heap.fresh)).1.drop
      (some address), (assign (after, self) (slotAfter front) (some heap.fresh)).2) := by
    rw [result, NodeHeap.drop, NodeHeap.drop, ← assign_modify _ _ (slotAfter_ne notFront),
      heap.allocate_modify known, afterEq]
    congr 2
    cases next : node.next with
    | none => rfl
    | some other =>
        have different : other ≠ address := fun same => noLoop (next.trans (congrArg some same))
        have otherKnown : other ≠ heap.fresh := by
          rw [next] at restChain
          obtain ⟨otherNode, otherFound⟩ := restChain.head
          exact (cursor.tree.known otherFound).ne
        rw [NodeHeap.retain, NodeHeap.retain, heap.allocate_modify otherKnown,
          modify_comm _ different]
  have keeps : heap.Keeps after :=
    afterEq ▸ (keeps_retain _).trans (retained.keeps_allocate _)
  have newNode : after.node heap.fresh = some ⟨node.next, 1, value⟩ := by
    rw [afterEq, ← freshEq]
    exact Function.update_self _ _ _
  have segment : after.Segment self front (some address) := by
    refine cursor.segment.frame fun other inside => ?_
    rw [afterEq, allocate_node_of_ne _ (freshEq ▸ cursor.front_known other inside),
      heap.retain_node_of_ne (nextNotFront other inside)]
  rw [← afterEq] at allocated
  obtain ⟨tree, segment, frame⟩ := allocated.assign segment ⟨_, cursor.chain.keep keeps⟩
    (.cons newNode (restChain.keep keeps)) (by
      intro other inside named
      rcases List.mem_cons.mp named with same | later
      · exact cursor.front_known other inside same
      · exact cursor.apart other inside (List.mem_cons_of_mem _ later))
  rw [stateEq]
  have newKept : ((assign (after, self) (slotAfter front) (some heap.fresh)).1.drop
      (some address)).node heap.fresh = some ⟨node.next, 1, value⟩ := by
    rw [NodeHeap.drop, modify_node_of_ne _ known.symm,
      assign_node_of_ne _ _ (slotAfter_ne cursor.front_known), newNode]
  have segmentKept : ((assign (after, self) (slotAfter front) (some heap.fresh)).1.drop
      (some address)).Segment _ front (some heap.fresh) :=
    segment.frame fun other inside => modify_node_of_ne _ (notFront other inside) _
  refine ⟨⟨tree.drop, segmentKept.snoc newKept rfl, ?_⟩, ?_⟩
  · refine (frame _ _ (restChain.keep keeps) fun other inside later => ?_).keep
      (keeps_drop (some address))
    exact cursor.apart other inside (List.mem_cons_of_mem _ later)
  · intro other held cells chain
    exact (frame other cells (chain.keep keeps)
      (cursor.tree.exclusive cursor.segment held chain)).keep (keeps_drop (some address))

/-- The list is linked around the current node, which other lists keep. -/
theorem Cursor.unlinkShared {cell : Nat × Value}
    (cursor : heap.Cursor self others front (some address) (cell :: rest))
    (found : heap.node address = some node) {linked : NodeHeap Value × Option Nat}
    (result : linked = assign (heap, self) (slotAfter front) node.next) :
    ((linked.1.drop (some address)).retain node.next).Cursor linked.2 others front node.next rest ∧
      heap.Frame ((linked.1.drop (some address)).retain node.next) others := by
  obtain ⟨rfl, restChain, noLoop, notFront, nextNotFront⟩ := cursor.current found
  have retained := cursor.tree.retain restChain
  have segment : (heap.retain node.next).Segment self front (some address) :=
    cursor.segment.frame fun other inside => heap.retain_node_of_ne (nextNotFront other inside)
  have apart : ∀ other ∈ front, other.1 ∉ rest.map Prod.fst :=
    fun other inside later => cursor.apart other inside (List.mem_cons_of_mem _ later)
  obtain ⟨tree, segment, frame⟩ := retained.assign segment
    ⟨_, cursor.chain.keep (keeps_retain _)⟩ (restChain.keep (keeps_retain _)) apart
  have retainedEq : assign (heap.retain node.next, self) (slotAfter front) node.next =
      (linked.1.retain node.next, linked.2) := by
    rw [result]
    cases next : node.next with
    | none => rfl
    | some other =>
        exact assign_modify _ _ (slotAfter_ne fun cell inside same =>
          nextNotFront cell inside (next.trans (congrArg some same.symm))) _ _
  have droppedEq : (linked.1.drop (some address)).retain node.next =
      (linked.1.retain node.next).drop (some address) := by
    cases next : node.next with
    | none => rfl
    | some other =>
        exact modify_comm _ (fun same => noLoop (next.trans (congrArg some same))) _ _
  rw [retainedEq] at tree segment frame
  rw [droppedEq]
  refine ⟨⟨tree.drop, ?_, ?_⟩, ?_⟩
  · exact segment.frame fun other inside => modify_node_of_ne _ (notFront other inside) _
  · exact (frame _ _ (restChain.keep (keeps_retain _)) apart).keep (keeps_drop (some address))
  · intro other held cells chain
    exact (frame other cells (chain.keep (keeps_retain _))
      (cursor.tree.exclusive cursor.segment held chain)).keep (keeps_drop (some address))

/-- The list is linked around the current node, which no other list has, and the
node is freed. -/
theorem Cursor.unlink {cell : Nat × Value}
    (cursor : heap.Cursor self others front (some address) (cell :: rest))
    (found : heap.node address = some node) (single : node.count = 1)
    {linked : NodeHeap Value × Option Nat}
    (result : linked = assign (heap, self) (slotAfter front) node.next) :
    (linked.1.free address).Cursor linked.2 others front node.next rest ∧
      heap.Frame (linked.1.free address) others := by
  obtain ⟨rfl, restChain, noLoop, notFront, nextNotFront⟩ := cursor.current found
  have advanced := cursor.advance found single
  have notLater : address ∉ rest.map Prod.fst :=
    advanced.apart (address, node.value) (by simp)
  have apart : ∀ other ∈ front, other.1 ∉ rest.map Prod.fst :=
    fun other inside later => cursor.apart other inside (List.mem_cons_of_mem _ later)
  -- The node first gives its pointer to the list and is then empty-handed.
  obtain ⟨after, afterEq⟩ : ∃ after, after = heap.relink address none := ⟨_, rfl⟩
  have emptied : after.node address = some { node with next := none } :=
    afterEq ▸ modify_node_self found _
  have others_eq : ∀ other, other ≠ address → after.node other = heap.node other :=
    fun other different => afterEq ▸ heap.modify_node_of_ne different _
  have relinked := (Tree.cons_none.mpr cursor.tree).relink found .nil (by simp)
  rw [← afterEq] at relinked
  have segment : after.Segment self front (some address) :=
    cursor.segment.frame fun other inside => others_eq _ (notFront other inside)
  have keep : ∀ {pointer cells}, heap.Chain pointer cells → address ∉ cells.map Prod.fst →
      after.Chain pointer cells := fun chain outside => afterEq ▸ chain.modify outside _
  obtain ⟨tree, segment, frame⟩ := relinked.assign segment ⟨_, .cons emptied .nil⟩
    (keep restChain notLater) apart
  have slotApart : slotAfter front ≠ .next address := slotAfter_ne notFront
  have heapEq : (assign (after, self) (slotAfter front) node.next).1 =
      linked.1.modify address (fun node => { node with next := none }) ∧
      (assign (after, self) (slotAfter front) node.next).2 = linked.2 := by
    rw [afterEq, result, NodeHeap.relink, assign_modify _ _ slotApart]
    exact ⟨rfl, rfl⟩
  have atAddress : ((assign (after, self) (slotAfter front) node.next).1.drop
      (some address)).node address = some ⟨none, 0, node.value⟩ := by
    have kept := (assign_node_of_ne after self slotApart node.next).trans emptied
    rw [NodeHeap.drop, modify_node_self kept, single]
  have freed := tree.drop.free atAddress rfl
  rw [NodeHeap.drop, free_modify, heapEq.1, free_modify, heapEq.2] at freed
  rw [heapEq.1, heapEq.2] at segment
  rw [heapEq.1] at frame
  have survives : ∀ {pointer cells}, heap.Chain pointer cells → address ∉ cells.map Prod.fst →
      (∀ cell ∈ front, cell.1 ∉ cells.map Prod.fst) →
      (linked.1.free address).Chain pointer cells := by
    intro pointer cells chain outside frontApart
    have kept := (frame pointer cells (keep chain outside) frontApart).free outside
    rwa [free_modify] at kept
  refine ⟨⟨Tree.cons_none.mp freed, ?_, survives restChain notLater apart⟩, ?_⟩
  · refine segment.frame fun other inside => ?_
    rw [free_node_of_ne _ (notFront other inside), modify_node_of_ne _ (notFront other inside)]
  · intro other held cells chain
    have exclusive := advanced.tree.exclusive advanced.segment held chain
    exact survives chain (exclusive (address, node.value) (by simp))
      fun cell inside => exclusive cell (by simp [inside])

/-- A chain still leads to the same nodes when the value of one changes. -/
theorem Chain.revalue {change : SharedNode Value → SharedNode Value}
    (next : ∀ node, (change node).next = node.next) (chain : heap.Chain pointer cells) :
    ∃ changed, (heap.modify address change).Chain pointer changed := by
  induction chain with
  | nil => exact ⟨[], .nil⟩
  | @cons other node cells found rest inductionHypothesis =>
      obtain ⟨changed, changedChain⟩ := inductionHypothesis
      rcases eq_or_ne other address with rfl | different
      · exact ⟨_, .cons (modify_node_self found change) (next node ▸ changedChain)⟩
      · exact ⟨_, .cons ((heap.modify_node_of_ne different change).trans found) changedChain⟩

/-- The value of the current node, which no other list has, is overwritten. -/
theorem Cursor.rewrite {cell : Nat × Value}
    (cursor : heap.Cursor self others front (some address) (cell :: rest))
    (found : heap.node address = some node) (single : node.count = 1)
    {change : SharedNode Value → SharedNode Value}
    (next : ∀ node, (change node).next = node.next)
    (count : ∀ node, (change node).count = node.count) :
    (heap.modify address change).Cursor self others front (some address)
        ((address, (change node).value) :: rest) ∧
      heap.Frame (heap.modify address change) others := by
  obtain ⟨rfl, restChain, _, notFront, _⟩ := cursor.current found
  have advanced := cursor.advance found single
  have linksEq : (heap.modify address change).links = heap.links := links_modify next
  refine ⟨⟨⟨?_, ?_, ?_⟩, ?_, ?_⟩, ?_⟩
  · intro other kept keptFound
    rw [linksEq]
    rcases eq_or_ne other address with rfl | different
    · cases (modify_node_self found change).symm.trans keptFound
      rw [count, cursor.tree.counts other node found]
    · rw [heap.modify_node_of_ne different] at keptFound
      exact cursor.tree.counts other kept keptFound
  · intro pointer inside
    rw [linksEq] at inside
    obtain ⟨cells, chain⟩ := cursor.tree.reaches pointer inside
    exact chain.revalue next
  · intro other outside
    have different : other ≠ address :=
      fun same => Nat.not_le.mpr (cursor.tree.known found) (same ▸ outside)
    rw [heap.modify_node_of_ne different]
    exact cursor.tree.bounded other outside
  · exact cursor.segment.frame fun other inside =>
      heap.modify_node_of_ne (notFront other inside) change
  · refine .cons (modify_node_self found change) (next node ▸ restChain.modify ?_ change)
    exact advanced.apart (address, node.value) (by simp)
  · intro other held cells chain
    exact chain.modify (advanced.tree.exclusive advanced.segment held chain (address, node.value)
      (by simp)) change

theorem free_modify_comm (heap : NodeHeap Value) {other : Nat} (different : other ≠ address)
    (change : SharedNode Value → SharedNode Value) :
    (heap.modify address change).free other = (heap.free other).modify address change := by
  simp [modify, free, different.symm, Function.update_comm different.symm]

/-- The current pointer is one of those that count. -/
theorem Cursor.mem_pointers {current : Option Nat}
    (cursor : heap.Cursor self others front current rest) :
    current ∈ self ::ₘ others + heap.links := by
  obtain rfl | ⟨front, cell, rfl⟩ := List.eq_nil_or_concat front
  · rw [← show self = current from cursor.segment, Multiset.cons_add]
    exact Multiset.mem_cons_self _ _
  · have segment := cursor.segment
    rw [List.concat_eq_append] at segment
    obtain ⟨_, node, found, _, _, rfl⟩ := segment.dropLast
    have linked : heap.link cell.1 = node.next := by
      rw [link, found]
      rfl
    exact Multiset.mem_add.mpr (.inr (linked ▸ link_mem_links (cursor.tree.known found)))

theorem Cursor.count_pos (cursor : heap.Cursor self others front (some address) rest)
    (found : heap.node address = some node) : 0 < node.count := by
  rw [cursor.tree.counts address node found]
  exact Multiset.count_pos.mpr cursor.mem_pointers

/-- A node that two nodes point to is shared. -/
theorem Tree.shared_of_links (tree : heap.Tree holders) {first second target : Nat}
    (firstKnown : first < heap.fresh) (secondKnown : second < heap.fresh)
    (different : first ≠ second) (firstLink : heap.link first = some target)
    (secondLink : heap.link second = some target) (found : heap.node target = some node) :
    1 < node.count := by
  have other := link_mem_otherLinks firstKnown different
  rw [tree.counts target node found, links_eq secondKnown, secondLink, Multiset.add_cons,
    Multiset.count_cons_self]
  rw [firstLink] at other
  exact Nat.succ_lt_succ (Multiset.count_pos.mpr (Multiset.mem_add.mpr (.inr other)))

/-- After a node was replaced by one of its own, the next node is shared. -/
theorem Cursor.unshare_shared {cell : Nat × Value}
    (cursor : heap.Cursor self others front (some address) (cell :: rest))
    (found : heap.node address = some node) (value : Value) {state : NodeHeap Value × Option Nat}
    (result : state = assign (((heap.drop (some address)).allocate ⟨node.next, 1, value⟩).retain
      node.next, self) (slotAfter front) (some heap.fresh))
    {next : Nat} (nextEq : node.next = some next) {nextNode : SharedNode Value}
    (nextFound : state.1.node next = some nextNode) : 1 < nextNode.count := by
  obtain ⟨_, _, noLoop, notFront, _⟩ := cursor.current found
  have known := cursor.tree.known found
  obtain ⟨after, _⟩ := cursor.unshare found value result
  obtain ⟨_, copy, copyFound, _, _, copyNext⟩ := after.segment.dropLast
  have oldFound : state.1.node address = some { node with count := node.count - 1 } := by
    rw [result, assign_node_of_ne _ _ (slotAfter_ne notFront),
      retain_node_of_ne _ noLoop, (heap.drop (some address)).allocate_node_of_ne known.ne,
      NodeHeap.drop, modify_node_self found]
  refine after.tree.shared_of_links (after.tree.known oldFound) (after.tree.known copyFound)
    known.ne ?_ ?_ nextFound
  · rw [link, oldFound]
    exact nextEq
  · rw [link, copyFound]
    exact copyNext.trans nextEq

end NodeHeap

end Ns3.Library
