import Ns3.Library.SharedList

/-!
`ns3::PacketTagList`: the packet tags, in lists that share their tails.

A tag is its type and the bytes that `Serialize` writes. A function has no result
where the source stops at an assertion or follows a pointer to a node that was
freed. The loops take as fuel the number of nodes that were ever created, which
bounds the length of every list.
-/

namespace Ns3.Network

open Library

/-- `GetInstanceTypeId ()` and the `GetSerializedSize ()` bytes of a tag; also
what a `TagData` holds of it. -/
structure Tag where
  tid : Nat
  data : List UInt8
  deriving DecidableEq, Repr

abbrev TagHeap := NodeHeap Tag

/-- `PacketTagList`: the pointer `m_next`. -/
abbrev PacketTagList := Option Nat

namespace PacketTagList

open NodeHeap (Slot)

/-- A list and the nodes of all lists. -/
abbrev State := TagHeap × PacketTagList

/-- `CreateTagData`, with the fields that its callers set. -/
def createTagData (heap : TagHeap) (next : Option Nat) (tag : Tag) : Option (Nat × TagHeap) :=
  if tag.data.length < 2 ^ 32 - 1 then some (heap.fresh, heap.allocate ⟨next, 1, tag⟩) else none

/-- The copy constructor. -/
def copy (heap : TagHeap) (o : PacketTagList) : State := (heap.retain o, o)

/-- Free the node that the loop of `RemoveAll` is done with. -/
def freePrev (heap : TagHeap) : Option Nat → TagHeap
  | some prev => heap.free prev
  | none => heap

/-- The loop of `RemoveAll`. -/
def removeAllFrom : Nat → TagHeap → Option Nat → Option Nat → Option TagHeap
  | 0, _, _, _ => none
  | _ + 1, heap, prev, none => some (freePrev heap prev)
  | fuel + 1, heap, prev, some cur => do
      let node ← heap.node cur
      let heap := heap.drop (some cur)
      if node.count - 1 > 0 then some (freePrev heap prev)
      else removeAllFrom fuel (freePrev heap prev) (some cur) node.next

/-- `RemoveAll`, which is also the destructor. -/
def removeAll (heap : TagHeap) (self : PacketTagList) : Option State := do
  let heap ← removeAllFrom (heap.fresh + 1) heap none self
  some (heap, none)

/-- `operator =`. -/
def assign (heap : TagHeap) (self o : PacketTagList) : Option State := do
  if self = o then some (heap, self)
  else
    let removed ← removeAll heap self
    some (removed.1.retain o, o)

/-- Where the first loop of `COWTraverse` stops. -/
inductive Search where
  | ended
  | reached (slot : Slot) (cur : Nat)
  | merged (slot : Slot) (cur : Nat)
  deriving DecidableEq, Repr

/-- The first loop of `COWTraverse`: to the tag, or to the first merge. -/
def search (heap : TagHeap) (tid : Nat) : Nat → Slot → Option Nat → Option Search
  | 0, _, _ => none
  | _ + 1, _, none => some .ended
  | fuel + 1, slot, some cur => do
      let node ← heap.node cur
      if node.count > 1 then some (.merged slot cur)
      else if node.value.tid = tid then some (.reached slot cur)
      else search heap tid fuel (.next cur) node.next

/-- The loops of `Peek` and of the test in `COWTraverse`: the tag of this type. -/
def find (heap : TagHeap) (tid : Nat) : Nat → Option Nat → Option (Option Tag)
  | 0, _ => none
  | _ + 1, none => some none
  | fuel + 1, some cur => do
      let node ← heap.node cur
      if node.value.tid = tid then some (some node.value) else find heap tid fuel node.next

/-- The last loop of `COWTraverse`: copy the nodes before the tag. -/
def copyUntil (tid : Nat) : Nat → State → Slot → Nat → Option (State × Slot × Nat)
  | 0, _, _, _ => none
  | fuel + 1, state, slot, cur => do
      let node ← state.1.node cur
      if node.value.tid = tid then some (state, slot, cur)
      else if node.count > 1 then
        let heap := state.1.drop (some cur)
        let created ← createTagData heap node.next node.value
        let next ← node.next
        let heap := created.2.retain (some next)
        copyUntil tid fuel (NodeHeap.assign (heap, state.2) slot (some created.1))
          (.next created.1) next
      else none

/-- `RemoveWriter`, with the value that the caller's tag is set to. -/
def removeWriter (preMerge : Bool) (state : State) (slot : Slot) (cur : Nat) :
    Option (State × Tag) := do
  let node ← state.1.node cur
  let linked := NodeHeap.assign state slot node.next
  if preMerge then some ((linked.1.free cur, linked.2), node.value)
  else some (((linked.1.drop (some cur)).retain node.next, linked.2), node.value)

/-- `ReplaceWriter`. Before the merge the tag is serialized into the buffer of the
node, which has the size of the old value: a `TagBuffer` asserts that there is
room, and what it does not overwrite stays. -/
def replaceWriter (tag : Tag) (preMerge : Bool) (state : State) (slot : Slot) (cur : Nat) :
    Option (State × Tag) := do
  let node ← state.1.node cur
  if preMerge then
    if tag.data.length ≤ node.value.data.length then
      let data := tag.data ++ node.value.data.drop tag.data.length
      some ((state.1.modify cur fun node => { node with value := { node.value with data } },
        state.2), tag)
    else none
  else
    let created ← createTagData (state.1.drop (some cur)) node.next tag
    some (NodeHeap.assign (created.2.retain node.next, state.2) slot (some created.1), tag)

/-- `COWTraverse`; there is a tag in the result where it was found. -/
def cowTraverse (tid : Nat) (writer : Bool → State → Slot → Nat → Option (State × Tag))
    (heap : TagHeap) (self : PacketTagList) : Option (State × Option Tag) := do
  match ← search heap tid (heap.fresh + 1) .head self with
  | .ended => some ((heap, self), none)
  | .reached slot cur =>
      let written ← writer true (heap, self) slot cur
      some (written.1, some written.2)
  | .merged slot cur =>
      match ← find heap tid (heap.fresh + 1) (some cur) with
      | none => some ((heap, self), none)
      | some _ =>
          let copied ← copyUntil tid (heap.fresh + 1) (heap, self) slot cur
          let written ← writer false copied.1 copied.2.1 copied.2.2
          some (written.1, some written.2)

/-- `Peek`. -/
def peek (heap : TagHeap) (self : PacketTagList) (tid : Nat) : Option (Option Tag) :=
  find heap tid (heap.fresh + 1) self

/-- `Add`. -/
def add (heap : TagHeap) (self : PacketTagList) (tag : Tag) : Option State := do
  match ← peek heap self tag.tid with
  | some _ => none
  | none =>
      let created ← createTagData heap self tag
      some (created.2, some created.1)

/-- `Remove`. -/
def remove (heap : TagHeap) (self : PacketTagList) (tid : Nat) : Option (State × Option Tag) :=
  cowTraverse tid removeWriter heap self

/-- `Replace`. -/
def replace (heap : TagHeap) (self : PacketTagList) (tag : Tag) : Option (State × Bool) := do
  let traversed ← cowTraverse tag.tid (replaceWriter tag) heap self
  match traversed.2 with
  | some _ => some (traversed.1, true)
  | none =>
      let added ← add traversed.1.1 traversed.1.2 tag
      some (added, false)

end PacketTagList

end Ns3.Network
