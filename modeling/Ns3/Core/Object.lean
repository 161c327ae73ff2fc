import Mathlib.Logic.Relation
import Ns3.Library.Machine
import Ns3.Library.Word

/-!
Aggregation of objects, `ns3::Object`.

All objects of an aggregate point to one buffer that lists them. `AggregateObject` makes a buffer of
two and lets the objects of both point to it, and `GetObject` looks through the buffer, where it
moves an object forward each time it finds it. So the objects that can reach each other are those
that have been aggregated with each other, over any number of calls.
-/

namespace Ns3.Core

open Library

/-- The types with their parents, up to `Object`. -/
structure Types where
  object : Nat
  parent : Nat → Nat
  height : Nat → Nat
  lower : ∀ tid, tid ≠ object → height (parent tid) < height tid

/-- The loop over the parents of a type, with fuel for its rounds. -/
def Types.climb (types : Types) (tid : Nat) : Nat → Nat → Bool
  | 0, cur => decide (cur = tid)
  | fuel + 1, cur =>
      if cur ≠ tid ∧ cur ≠ types.object then types.climb tid fuel (types.parent cur)
      else decide (cur = tid)

/-- A type is the other one or derived from it. -/
def Types.isA (types : Types) (tid cur : Nat) : Bool := types.climb tid (types.height cur) cur

/-- `ns3::Object`. -/
structure Object where
  tid : Nat
  aggregates : Nat
  getObjectCount : Nat
  deriving DecidableEq, Repr

/-- The objects, and the buffers that they point to. -/
structure Heap where
  size : Nat
  object : Nat → Object
  allocated : Nat
  buffer : Nat → List Nat

namespace Heap

/-- No object. -/
def empty : Heap := ⟨0, fun _ => ⟨0, 0, 0⟩, 0, fun _ => []⟩

variable (heap : Heap)

/-- The constructor of an object. -/
def create (tid : Nat) : Heap where
  size := heap.size + 1
  object := Function.update heap.object heap.size ⟨tid, heap.allocated, 0⟩
  allocated := heap.allocated + 1
  buffer := Function.update heap.buffer heap.allocated [heap.size]

/-- `UpdateSortedArray`. -/
def updateSortedArray (count : Nat → Nat) : List Nat → Nat → List Nat
  | buffer, 0 => buffer
  | buffer, j + 1 =>
      if inside : j + 1 < buffer.length then
        if count buffer[j] < count buffer[j + 1] then
          updateSortedArray count ((buffer.set j buffer[j + 1]).set (j + 1) buffer[j]) j
        else buffer
      else buffer

/-- The objects of the aggregate of an object. -/
def aggregate (o : Nat) : List Nat := heap.buffer (heap.object o).aggregates

/-- Count an access. -/
def access (o : Nat) : Nat → Object :=
  Function.update heap.object o { heap.object o with
    getObjectCount := wrap 32 ((heap.object o).getObjectCount + 1) }

/-- `DoGetObject`. -/
def doGetObject (types : Types) (o tid : Nat) : Option Nat × Heap :=
  match (heap.aggregate o).findIdx? fun current => types.isA tid (heap.object current).tid with
  | none => (none, heap)
  | some i =>
      match (heap.aggregate o)[i]? with
      | none => (none, heap)
      | some current =>
          (some current, { heap with
            object := heap.access current
            buffer := Function.update heap.buffer (heap.object o).aggregates
              (updateSortedArray (fun other => (heap.access current other).getObjectCount)
                (heap.aggregate o) i) })

/-- Append an object of the other aggregate to the new buffer. -/
def append (types : Types) (o : Nat) (joined : List Nat) (current : Nat) : Option (List Nat) :=
  -- The fatal error.
  if (heap.doGetObject types o (heap.object current).tid).1.isSome then none
  else some (updateSortedArray (fun other => (heap.object other).getObjectCount)
    (joined ++ [current]) joined.length)

/-- Let the objects of a new buffer point to it. -/
def install (joined : List Nat) : Heap where
  size := heap.size
  object current :=
    if current ∈ joined then { heap.object current with aggregates := heap.allocated }
    else heap.object current
  allocated := heap.allocated + 1
  buffer := Function.update heap.buffer heap.allocated joined

/-- `AggregateObject`. -/
def aggregateObject (types : Types) (o other : Nat) : Option Heap :=
  ((heap.aggregate other).foldlM (heap.append types o) (heap.aggregate o)).map heap.install

end Heap

/-- The calls that create, find and aggregate objects. -/
inductive ObjectCall where
  | create (tid : Nat)
  | getObject (o tid : Nat)
  | aggregateObject (o other : Nat)
  deriving DecidableEq, Repr

/-- The objects beside the pairs that have been aggregated. -/
structure Objects where
  heap : Heap
  joined : List (Nat × Nat)

/-- The calls on objects that exist. The program ends with an error when an aggregate would have two
objects of a type. -/
def Objects.machine (types : Types) : Machine Objects ObjectCall where
  step
    | objects, .create tid => { objects with heap := objects.heap.create tid }
    | objects, .getObject o tid => { objects with heap := (objects.heap.doGetObject types o tid).2 }
    | objects, .aggregateObject o other =>
        match objects.heap.aggregateObject types o other with
        | some heap => ⟨heap, (o, other) :: objects.joined⟩
        | none => objects
  Enabled
    | _, .create _ => True
    | objects, .getObject o _ => o < objects.heap.size
    | objects, .aggregateObject o other =>
        o < objects.heap.size ∧ other < objects.heap.size ∧
          (objects.heap.aggregateObject types o other).isSome

/-- Two objects have been aggregated, with each other or over others. -/
def Linked (joined : List (Nat × Nat)) : Nat → Nat → Prop :=
  Relation.EqvGen fun o other => (o, other) ∈ joined

/-- The parents lead from a type to another one. -/
def Types.Derived (types : Types) (tid cur : Nat) : Prop :=
  Relation.ReflTransGen (fun child parent => child ≠ types.object ∧ parent = types.parent child)
    cur tid

/-- What `GetObject` and `AggregateObject` are for: the first finds an object of the type exactly if
the aggregate has one, the second fails exactly if the first aggregate has an object of a type of
the second, and so no two objects of an aggregate have the same type. -/
structure Faithful (types : Types) (objects : Objects) : Prop where
  found : ∀ o < objects.heap.size, ∀ tid x, (objects.heap.doGetObject types o tid).1 = some x →
    x < objects.heap.size ∧ Linked objects.joined o x ∧
      types.Derived tid (objects.heap.object x).tid
  missed : ∀ o < objects.heap.size, ∀ tid, (objects.heap.doGetObject types o tid).1 = none →
    ∀ x < objects.heap.size, Linked objects.joined o x →
      ¬types.Derived tid (objects.heap.object x).tid
  joins : ∀ o < objects.heap.size, ∀ other < objects.heap.size,
    (objects.heap.aggregateObject types o other).isSome ↔
      ∀ x < objects.heap.size, ∀ y < objects.heap.size, Linked objects.joined o x →
        Linked objects.joined other y →
          ¬types.Derived (objects.heap.object y).tid (objects.heap.object x).tid
  unique : ∀ o < objects.heap.size, ∀ x < objects.heap.size, Linked objects.joined o x →
    (objects.heap.object o).tid = (objects.heap.object x).tid → o = x

namespace Types

variable {types : Types} {tid cur : Nat}

/-- `Object` is derived from nothing else. -/
theorem derived_object : types.Derived tid types.object ↔ types.object = tid := by
  constructor
  · intro derived
    rcases Relation.ReflTransGen.cases_head derived with same | ⟨_, ⟨other, _⟩, _⟩
    · exact same
    · exact absurd rfl other
  · intro same
    exact same ▸ .refl

theorem derived_parent (other : cur ≠ types.object) (differs : cur ≠ tid) :
    types.Derived tid cur ↔ types.Derived tid (types.parent cur) := by
  constructor
  · intro derived
    rcases Relation.ReflTransGen.cases_head derived with same | ⟨parent, ⟨_, rfl⟩, rest⟩
    · exact absurd same differs
    · exact rest
  · intro derived
    exact .head ⟨other, rfl⟩ derived

/-- The loop over the parents reaches the types that a type is derived from. -/
theorem climb_iff {fuel : Nat} (enough : types.height cur ≤ fuel) :
    types.climb tid fuel cur = true ↔ types.Derived tid cur := by
  induction fuel generalizing cur with
  | zero =>
      have root : cur = types.object := by
        by_contra other
        have lower := types.lower cur other
        omega
      rw [climb, root, derived_object, decide_eq_true_iff]
  | succ fuel inductionHypothesis =>
      rw [climb]
      split
      · rename_i climbs
        have lower := types.lower cur climbs.2
        rw [inductionHypothesis (by omega), derived_parent climbs.2 climbs.1]
      · rename_i stops
        rw [decide_eq_true_iff]
        by_cases same : cur = tid
        · exact iff_of_true same (same ▸ .refl)
        · have root : cur = types.object := by
            by_contra other
            exact stops ⟨same, other⟩
          rw [root, derived_object]

theorem isA_iff : types.isA tid cur = true ↔ types.Derived tid cur :=
  climb_iff le_rfl

theorem isA_eq_false_iff : types.isA tid cur = false ↔ ¬types.Derived tid cur := by
  rw [← isA_iff, Bool.not_eq_true]

end Types

section Linking

variable {joined : List (Nat × Nat)} {a b x y : Nat}

theorem Linked.refl (joined : List (Nat × Nat)) (x : Nat) : Linked joined x x :=
  Relation.EqvGen.refl x

theorem Linked.symm (linked : Linked joined x y) : Linked joined y x :=
  Relation.EqvGen.symm x y linked

theorem Linked.trans {z : Nat} (first : Linked joined x y) (second : Linked joined y z) :
    Linked joined x z :=
  Relation.EqvGen.trans x y z first second

theorem Linked.cons (linked : Linked joined x y) : Linked ((a, b) :: joined) x y :=
  Relation.EqvGen.mono (fun _ _ mem => List.mem_cons_of_mem _ mem) _ _ linked

theorem linked_head (joined : List (Nat × Nat)) (a b : Nat) : Linked ((a, b) :: joined) a b :=
  Relation.EqvGen.rel a b List.mem_cons_self

/-- One more pair links what was linked, and the objects of one end with those of the other. -/
theorem linked_cons :
    Linked ((a, b) :: joined) x y ↔ Linked joined x y ∨
      (Linked joined a x ∧ Linked joined b y) ∨ (Linked joined b x ∧ Linked joined a y) := by
  constructor
  · intro linked
    induction linked with
    | rel x y mem =>
        rcases List.mem_cons.mp mem with head | tail
        · obtain ⟨rfl, rfl⟩ := Prod.mk.inj head
          exact .inr (.inl ⟨.refl _ _, .refl _ _⟩)
        · exact .inl (Relation.EqvGen.rel x y tail)
    | refl x => exact .inl (.refl _ x)
    | symm x y _ inductionHypothesis =>
        rcases inductionHypothesis with old | ⟨first, second⟩ | ⟨first, second⟩
        · exact .inl old.symm
        · exact .inr (.inr ⟨second, first⟩)
        · exact .inr (.inl ⟨second, first⟩)
    | trans x y z _ _ first second =>
        rcases first with xy | ⟨fromA, toY⟩ | ⟨fromB, toY⟩
        · rcases second with yz | ⟨back, toZ⟩ | ⟨back, toZ⟩
          · exact .inl (xy.trans yz)
          · exact .inr (.inl ⟨back.trans xy.symm, toZ⟩)
          · exact .inr (.inr ⟨back.trans xy.symm, toZ⟩)
        · rcases second with yz | ⟨_, toZ⟩ | ⟨_, toZ⟩
          · exact .inr (.inl ⟨fromA, toY.trans yz⟩)
          · exact .inr (.inl ⟨fromA, toZ⟩)
          · exact .inl (fromA.symm.trans toZ)
        · rcases second with yz | ⟨_, toZ⟩ | ⟨_, toZ⟩
          · exact .inr (.inr ⟨fromB, toY.trans yz⟩)
          · exact .inl (fromB.symm.trans toZ)
          · exact .inr (.inr ⟨fromB, toZ⟩)
  · rintro (old | ⟨first, second⟩ | ⟨first, second⟩)
    · exact old.cons
    · exact first.symm.cons.trans ((linked_head joined a b).trans second.cons)
    · exact first.symm.cons.trans ((linked_head joined a b).symm.trans second.cons)

/-- An object is linked to one of two. -/
def Touched (joined : List (Nat × Nat)) (a b x : Nat) : Prop :=
  Linked joined a x ∨ Linked joined b x

theorem Touched.link (touched : Touched joined a b x) (linked : Linked joined x y) :
    Touched joined a b y :=
  touched.imp (·.trans linked) (·.trans linked)

/-- One more pair makes one class of the two classes of its ends. -/
theorem linked_cons_iff :
    Linked ((a, b) :: joined) x y ↔ (Touched joined a b x ∧ Touched joined a b y) ∨
      (¬Touched joined a b x ∧ ¬Touched joined a b y ∧ Linked joined x y) := by
  rw [linked_cons]
  constructor
  · rintro (old | ⟨first, second⟩ | ⟨first, second⟩)
    · by_cases touched : Touched joined a b x
      · exact .inl ⟨touched, touched.link old⟩
      · exact .inr ⟨touched, fun other => touched (other.link old.symm), old⟩
    · exact .inl ⟨.inl first, .inr second⟩
    · exact .inl ⟨.inr first, .inl second⟩
  · rintro (⟨firstA | firstB, secondA | secondB⟩ | ⟨_, _, old⟩)
    · exact .inl (firstA.symm.trans secondA)
    · exact .inr (.inl ⟨firstA, secondB⟩)
    · exact .inr (.inr ⟨firstB, secondA⟩)
    · exact .inl (firstB.symm.trans secondB)
    · exact .inl old

/-- Only objects of the pairs are linked to others. -/
theorem Linked.within {size : Nat}
    (bounded : ∀ pair ∈ joined, pair.1 < size ∧ pair.2 < size) (linked : Linked joined x y) :
    x = y ∨ (x < size ∧ y < size) := by
  induction linked with
  | rel x y mem => exact .inr (bounded _ mem)
  | refl x => exact .inl rfl
  | symm x y _ inductionHypothesis =>
      exact inductionHypothesis.imp Eq.symm And.symm
  | trans x y z _ _ first second =>
      rcases first with rfl | ⟨before, _⟩
      · exact second
      · rcases second with rfl | ⟨_, after⟩
        · exact .inr ⟨before, by assumption⟩
        · exact .inr ⟨before, after⟩

end Linking

namespace Heap

section Sorting

variable {count : Nat → Nat}

theorem updateSortedArray_perm (count : Nat → Nat) (buffer : List Nat) (j : Nat) :
    (updateSortedArray count buffer j).Perm buffer := by
  induction j generalizing buffer with
  | zero => exact .refl buffer
  | succ j inductionHypothesis =>
      rw [updateSortedArray]
      split
      · rename_i inside
        split
        · exact (inductionHypothesis _).trans (List.set_set_perm (by omega) inside)
        · exact .refl buffer
      · exact .refl buffer

end Sorting

section Looking

variable {types : Types} {heap : Heap} {o tid : Nat}

/-- What is found is in the aggregate and of the type. -/
theorem doGetObject_some {x : Nat} (found : (heap.doGetObject types o tid).1 = some x) :
    x ∈ heap.aggregate o ∧ types.Derived tid (heap.object x).tid := by
  rw [doGetObject] at found
  split at found
  · exact nomatch found
  · rename_i i first
    split at found
    · exact nomatch found
    · rename_i current there
      obtain rfl : current = x := Option.some.inj found
      obtain ⟨inside, isA, _⟩ := List.findIdx?_eq_some_iff_getElem.mp first
      obtain ⟨_, same⟩ := List.getElem?_eq_some_iff.mp there
      exact ⟨List.mem_of_getElem? there, Types.isA_iff.mp (same ▸ isA)⟩

/-- Nothing is found if nothing in the aggregate is of the type. -/
theorem doGetObject_none :
    (heap.doGetObject types o tid).1 = none ↔
      ∀ x ∈ heap.aggregate o, ¬types.Derived tid (heap.object x).tid := by
  simp only [← Types.isA_eq_false_iff]
  rw [doGetObject]
  split
  · rename_i none
    exact iff_of_true rfl (List.findIdx?_eq_none_iff.mp none)
  · rename_i i first
    obtain ⟨inside, isA, _⟩ := List.findIdx?_eq_some_iff_getElem.mp first
    rw [List.getElem?_eq_getElem inside]
    apply iff_of_false (fun equal => nomatch equal)
    intro all
    have not := all _ (List.getElem_mem inside)
    rw [isA] at not
    exact nomatch not

/-- Looking counts an access and reorders a buffer, and changes nothing else. -/
structure Reordered (heap other : Heap) : Prop where
  size : other.size = heap.size
  allocated : other.allocated = heap.allocated
  tid : ∀ x, (other.object x).tid = (heap.object x).tid
  aggregates : ∀ x, (other.object x).aggregates = (heap.object x).aggregates
  buffer : ∀ p, (other.buffer p).Perm (heap.buffer p)

theorem Reordered.refl (heap : Heap) : Reordered heap heap :=
  ⟨rfl, rfl, fun _ => rfl, fun _ => rfl, fun _ => .refl _⟩

theorem access_tid (heap : Heap) (current x : Nat) :
    (heap.access current x).tid = (heap.object x).tid ∧
      (heap.access current x).aggregates = (heap.object x).aggregates := by
  by_cases same : x = current
  · rw [same, access, Function.update_self]
    exact ⟨rfl, rfl⟩
  · rw [access, Function.update_of_ne same]
    exact ⟨rfl, rfl⟩

theorem reordered_doGetObject (types : Types) (heap : Heap) (o tid : Nat) :
    Reordered heap (heap.doGetObject types o tid).2 := by
  rw [doGetObject]
  split
  · exact .refl heap
  · split
    · exact .refl heap
    · rename_i current _
      refine ⟨rfl, rfl, fun x => (access_tid heap current x).1,
        fun x => (access_tid heap current x).2, ?_⟩
      intro p
      dsimp only
      by_cases here : p = (heap.object o).aggregates
      · rw [here, Function.update_self]
        exact updateSortedArray_perm _ _ _
      · rw [Function.update_of_ne here]

end Looking

section Joining

variable {types : Types} {heap : Heap} {o : Nat}

/-- The new buffer has the objects of both aggregates. -/
theorem foldlM_append_perm {others start joined : List Nat}
    (made : others.foldlM (heap.append types o) start = some joined) :
    joined.Perm (start ++ others) := by
  induction others generalizing start with
  | nil =>
      obtain rfl : start = joined := Option.some.inj made
      rw [List.append_nil]
  | cons current rest inductionHypothesis =>
      rw [List.foldlM_cons] at made
      obtain ⟨next, appended, made⟩ := Option.bind_eq_some_iff.mp made
      rw [append] at appended
      split at appended
      · exact nomatch appended
      · obtain rfl := Option.some.inj appended
        have sorted := (updateSortedArray_perm (fun other => (heap.object other).getObjectCount)
          (start ++ [current]) start.length).append_right rest
        rw [List.append_assoc, List.singleton_append] at sorted
        exact (inductionHypothesis made).trans sorted

/-- No error if the first aggregate has no object of a type of the others. -/
theorem foldlM_append_isSome {others start : List Nat} :
    (others.foldlM (heap.append types o) start).isSome ↔
      ∀ x ∈ others, (heap.doGetObject types o (heap.object x).tid).1 = none := by
  induction others generalizing start with
  | nil => exact iff_of_true rfl fun _ none => nomatch none
  | cons current rest inductionHypothesis =>
      rw [List.foldlM_cons, List.forall_mem_cons, append]
      split
      · rename_i present
        apply iff_of_false (fun some => nomatch some)
        intro both
        rw [both.1] at present
        exact nomatch present
      · rename_i absent
        exact inductionHypothesis.trans
          (iff_and_self.mpr fun _ => Option.not_isSome_iff_eq_none.mp absent)

/-- `AggregateObject` lets the objects of both aggregates point to one buffer. -/
theorem aggregateObject_some {other : Nat} {next : Heap}
    (made : heap.aggregateObject types o other = some next) :
    ∃ joined, joined.Perm (heap.aggregate o ++ heap.aggregate other) ∧
      next = heap.install joined := by
  obtain ⟨joined, built, rfl⟩ := Option.map_eq_some_iff.mp made
  exact ⟨joined, foldlM_append_perm built, rfl⟩

theorem aggregateObject_isSome {other : Nat} :
    (heap.aggregateObject types o other).isSome ↔ ∀ y ∈ heap.aggregate other,
      ∀ x ∈ heap.aggregate o, ¬types.Derived (heap.object y).tid (heap.object x).tid := by
  rw [aggregateObject, Option.isSome_map, foldlM_append_isSome]
  simp only [doGetObject_none]

end Joining

section Installing

variable {heap : Heap} {joined : List Nat} {x : Nat}

theorem install_tid (heap : Heap) (joined : List Nat) (x : Nat) :
    ((heap.install joined).object x).tid = (heap.object x).tid := by
  rw [install]
  dsimp only
  split <;> rfl

theorem install_aggregates_mem (mem : x ∈ joined) :
    ((heap.install joined).object x).aggregates = heap.allocated := by
  rw [install]
  dsimp only
  rw [if_pos mem]

theorem install_aggregates_not_mem (absent : x ∉ joined) :
    ((heap.install joined).object x).aggregates = (heap.object x).aggregates := by
  rw [install]
  dsimp only
  rw [if_neg absent]

theorem install_aggregates_eq_iff {y : Nat} (freshX : (heap.object x).aggregates < heap.allocated)
    (freshY : (heap.object y).aggregates < heap.allocated) :
    ((heap.install joined).object x).aggregates = ((heap.install joined).object y).aggregates ↔
      (x ∈ joined ∧ y ∈ joined) ∨
        (x ∉ joined ∧ y ∉ joined ∧ (heap.object x).aggregates = (heap.object y).aggregates) := by
  by_cases memX : x ∈ joined <;> by_cases memY : y ∈ joined
  · simp [install_aggregates_mem, memX, memY]
  · simp [install_aggregates_mem memX, install_aggregates_not_mem memY, memX, memY, freshY.ne']
  · simp [install_aggregates_not_mem memX, install_aggregates_mem memY, memX, memY, freshX.ne]
  · simp [install_aggregates_not_mem, memX, memY]

theorem install_aggregate_mem (mem : x ∈ joined) : (heap.install joined).aggregate x = joined := by
  rw [aggregate, install_aggregates_mem mem, install]
  exact Function.update_self ..

theorem install_aggregate_not_mem (absent : x ∉ joined)
    (fresh : (heap.object x).aggregates < heap.allocated) :
    (heap.install joined).aggregate x = heap.aggregate x := by
  rw [aggregate, install_aggregates_not_mem absent, install]
  exact Function.update_of_ne fresh.ne ..

end Installing

section Creating

variable {heap : Heap} {x : Nat}

theorem create_object_new (heap : Heap) (tid : Nat) :
    (heap.create tid).object heap.size = ⟨tid, heap.allocated, 0⟩ :=
  Function.update_self ..

theorem create_object_old (tid : Nat) (old : x < heap.size) :
    (heap.create tid).object x = heap.object x :=
  Function.update_of_ne old.ne ..

theorem create_aggregate_new (heap : Heap) (tid : Nat) :
    (heap.create tid).aggregate heap.size = [heap.size] := by
  rw [aggregate, create_object_new, create]
  exact Function.update_self ..

theorem create_aggregate_old (tid : Nat) (old : x < heap.size)
    (fresh : (heap.object x).aggregates < heap.allocated) :
    (heap.create tid).aggregate x = heap.aggregate x := by
  rw [aggregate, create_object_old tid old, create]
  exact Function.update_of_ne fresh.ne ..

end Creating

end Heap

/-- The invariant: buffers and pointers agree, pointers are the same where objects are linked, and
an aggregate has no two objects of the same type. -/
structure Sound (objects : Objects) : Prop where
  member : ∀ o < objects.heap.size, o ∈ objects.heap.aggregate o
  shared : ∀ o < objects.heap.size, ∀ x ∈ objects.heap.aggregate o, x < objects.heap.size ∧
    (objects.heap.object x).aggregates = (objects.heap.object o).aggregates
  fresh : ∀ o < objects.heap.size, (objects.heap.object o).aggregates < objects.heap.allocated
  within : ∀ pair ∈ objects.joined, pair.1 < objects.heap.size ∧ pair.2 < objects.heap.size
  linked : ∀ o < objects.heap.size, ∀ x < objects.heap.size,
    (objects.heap.object o).aggregates = (objects.heap.object x).aggregates ↔
      Linked objects.joined o x
  types : ∀ o < objects.heap.size, ∀ x < objects.heap.size, Linked objects.joined o x →
    (objects.heap.object o).tid = (objects.heap.object x).tid → o = x

namespace Sound

variable {types : Types} {objects : Objects}

/-- The buffer of an object lists the objects that it is linked to. -/
theorem mem_aggregate (sound : Sound objects) {o x : Nat} (alive : o < objects.heap.size) :
    x ∈ objects.heap.aggregate o ↔ x < objects.heap.size ∧ Linked objects.joined o x := by
  constructor
  · intro mem
    obtain ⟨inside, same⟩ := sound.shared o alive x mem
    exact ⟨inside, (sound.linked o alive x inside).mp same.symm⟩
  · rintro ⟨inside, linked⟩
    have same := (sound.linked o alive x inside).mpr linked
    have mem := sound.member x inside
    rwa [Heap.aggregate, ← same] at mem

theorem empty : Sound ⟨Heap.empty, []⟩ where
  member _ outside := absurd outside (Nat.not_lt_zero _)
  shared _ outside := absurd outside (Nat.not_lt_zero _)
  fresh _ outside := absurd outside (Nat.not_lt_zero _)
  within _ none := nomatch none
  linked _ outside := absurd outside (Nat.not_lt_zero _)
  types _ outside := absurd outside (Nat.not_lt_zero _)

/-- Counting accesses and reordering buffers keeps the invariant. -/
theorem reordered (sound : Sound objects) {heap : Heap}
    (reorder : Heap.Reordered objects.heap heap) : Sound { objects with heap := heap } := by
  have buffers : ∀ o, (heap.aggregate o).Perm (objects.heap.aggregate o) := by
    intro o
    rw [Heap.aggregate, reorder.aggregates]
    exact reorder.buffer _
  constructor <;> dsimp only <;> simp only [reorder.size, reorder.allocated, reorder.tid,
    reorder.aggregates, (buffers _).mem_iff]
  · exact sound.member
  · exact sound.shared
  · exact sound.fresh
  · exact sound.within
  · exact sound.linked
  · exact sound.types

/-- A new object is alone. -/
theorem create (sound : Sound objects) (tid : Nat) :
    Sound { objects with heap := objects.heap.create tid } := by
  have size : (objects.heap.create tid).size = objects.heap.size + 1 := rfl
  have alone : ∀ x < objects.heap.size, ¬Linked objects.joined x objects.heap.size := by
    intro x old linked
    rcases linked.within sound.within with same | ⟨_, inside⟩
    · exact old.ne same
    · exact inside.ne rfl
  have apart : ∀ x < objects.heap.size, ((objects.heap.create tid).object x).aggregates ≠
      ((objects.heap.create tid).object objects.heap.size).aggregates := by
    intro x old
    rw [Heap.create_object_old tid old, Heap.create_object_new]
    exact (sound.fresh x old).ne
  constructor <;> dsimp only <;> rw [size]
  · intro o inside
    rcases Nat.lt_succ_iff_lt_or_eq.mp inside with old | rfl
    · rw [Heap.create_aggregate_old tid old (sound.fresh o old)]
      exact sound.member o old
    · rw [Heap.create_aggregate_new]
      exact List.mem_singleton_self _
  · intro o inside x mem
    rcases Nat.lt_succ_iff_lt_or_eq.mp inside with old | rfl
    · rw [Heap.create_aggregate_old tid old (sound.fresh o old)] at mem
      obtain ⟨bound, same⟩ := sound.shared o old x mem
      rw [Heap.create_object_old tid bound, Heap.create_object_old tid old]
      exact ⟨by omega, same⟩
    · rw [Heap.create_aggregate_new] at mem
      obtain rfl := List.mem_singleton.mp mem
      exact ⟨inside, rfl⟩
  · intro o inside
    rcases Nat.lt_succ_iff_lt_or_eq.mp inside with old | rfl
    · rw [Heap.create_object_old tid old]
      exact (sound.fresh o old).trans (Nat.lt_succ_self _)
    · rw [Heap.create_object_new]
      exact Nat.lt_succ_self _
  · intro pair mem
    have inside := sound.within pair mem
    omega
  · intro o insideO x insideX
    rcases Nat.lt_succ_iff_lt_or_eq.mp insideO with oldO | rfl
    · rcases Nat.lt_succ_iff_lt_or_eq.mp insideX with oldX | rfl
      · rw [Heap.create_object_old tid oldO, Heap.create_object_old tid oldX]
        exact sound.linked o oldO x oldX
      · exact iff_of_false (apart o oldO) (alone o oldO)
    · rcases Nat.lt_succ_iff_lt_or_eq.mp insideX with oldX | rfl
      · exact iff_of_false (apart x oldX).symm fun linked => alone x oldX linked.symm
      · exact iff_of_true rfl (.refl _ _)
  · intro o insideO x insideX linked
    rcases Nat.lt_succ_iff_lt_or_eq.mp insideO with oldO | rfl
    · rcases Nat.lt_succ_iff_lt_or_eq.mp insideX with oldX | rfl
      · rw [Heap.create_object_old tid oldO, Heap.create_object_old tid oldX]
        exact sound.types o oldO x oldX linked
      · exact absurd linked (alone o oldO)
    · rcases Nat.lt_succ_iff_lt_or_eq.mp insideX with oldX | rfl
      · exact absurd linked.symm (alone x oldX)
      · exact fun _ => rfl

/-- Aggregation links the objects of both aggregates and no others. -/
theorem aggregateObject (sound : Sound objects) {o other : Nat} (aliveO : o < objects.heap.size)
    (aliveOther : other < objects.heap.size) {next : Heap}
    (made : objects.heap.aggregateObject types o other = some next) :
    Sound ⟨next, (o, other) :: objects.joined⟩ := by
  have apart : ∀ x < objects.heap.size, ∀ y < objects.heap.size, Linked objects.joined o x →
      Linked objects.joined other y →
        (objects.heap.object x).tid ≠ (objects.heap.object y).tid := by
    intro x aliveX y aliveY linkedX linkedY same
    have some := Option.isSome_iff_exists.mpr ⟨next, made⟩
    rw [Heap.aggregateObject_isSome] at some
    apply some y ((sound.mem_aggregate aliveOther).mpr ⟨aliveY, linkedY⟩)
      x ((sound.mem_aggregate aliveO).mpr ⟨aliveX, linkedX⟩)
    exact same ▸ .refl
  obtain ⟨joined, perm, rfl⟩ := Heap.aggregateObject_some made
  have mem : ∀ x, x ∈ joined ↔ x < objects.heap.size ∧ Touched objects.joined o other x := by
    intro x
    rw [perm.mem_iff, List.mem_append, sound.mem_aggregate aliveO, sound.mem_aggregate aliveOther,
      Touched, and_or_left]
  have outside : ∀ x < objects.heap.size, x ∉ joined →
      (objects.heap.install joined).aggregate x = objects.heap.aggregate x :=
    fun x alive absent => Heap.install_aggregate_not_mem absent (sound.fresh x alive)
  constructor <;> dsimp only <;> rw [show (objects.heap.install joined).size =
    objects.heap.size from rfl]
  · intro x alive
    by_cases memX : x ∈ joined
    · rw [Heap.install_aggregate_mem memX]
      exact memX
    · rw [outside x alive memX]
      exact sound.member x alive
  · intro x alive y memY
    by_cases memX : x ∈ joined
    · rw [Heap.install_aggregate_mem memX] at memY
      rw [Heap.install_aggregates_mem memX, Heap.install_aggregates_mem memY]
      exact ⟨((mem y).mp memY).1, rfl⟩
    · rw [outside x alive memX] at memY
      obtain ⟨aliveY, linked⟩ := (sound.mem_aggregate alive).mp memY
      have absent : y ∉ joined := fun inside =>
        memX ((mem x).mpr ⟨alive, ((mem y).mp inside).2.link linked.symm⟩)
      rw [Heap.install_aggregates_not_mem memX, Heap.install_aggregates_not_mem absent]
      exact sound.shared x alive y memY
  · intro x alive
    by_cases memX : x ∈ joined
    · rw [Heap.install_aggregates_mem memX]
      exact Nat.lt_succ_self _
    · rw [Heap.install_aggregates_not_mem memX]
      exact (sound.fresh x alive).trans (Nat.lt_succ_self _)
  · exact List.forall_mem_cons.mpr ⟨⟨aliveO, aliveOther⟩, sound.within⟩
  · intro x aliveX y aliveY
    rw [Heap.install_aggregates_eq_iff (sound.fresh x aliveX) (sound.fresh y aliveY),
      linked_cons_iff, sound.linked x aliveX y aliveY, mem, mem, and_iff_right aliveX,
      and_iff_right aliveY]
  · intro x aliveX y aliveY linked
    rw [Heap.install_tid, Heap.install_tid]
    intro same
    rcases linked_cons.mp linked with old | ⟨oX, otherY⟩ | ⟨otherX, oY⟩
    · exact sound.types x aliveX y aliveY old same
    · exact absurd same (apart x aliveX y aliveY oX otherY)
    · exact absurd same.symm (apart y aliveY x aliveX oY otherX)

/-- Every call keeps the invariant. -/
theorem step (sound : Sound objects) {call : ObjectCall}
    (enabled : (Objects.machine types).Enabled objects call) :
    Sound ((Objects.machine types).step objects call) := by
  cases call with
  | create tid => exact sound.create tid
  | getObject o tid => exact sound.reordered (Heap.reordered_doGetObject types objects.heap o tid)
  | aggregateObject o other =>
      obtain ⟨aliveO, aliveOther, some⟩ := enabled
      obtain ⟨next, made⟩ := Option.isSome_iff_exists.mp some
      have joins := sound.aggregateObject aliveO aliveOther made
      rw [Objects.machine]
      dsimp only
      rw [made]
      exact joins

theorem faithful (sound : Sound objects) : Faithful types objects where
  found o alive tid x found := by
    obtain ⟨mem, derived⟩ := Heap.doGetObject_some found
    obtain ⟨inside, linked⟩ := (sound.mem_aggregate alive).mp mem
    exact ⟨inside, linked, derived⟩
  missed o alive tid none x inside linked :=
    Heap.doGetObject_none.mp none x ((sound.mem_aggregate alive).mpr ⟨inside, linked⟩)
  joins o aliveO other aliveOther := by
    rw [Heap.aggregateObject_isSome]
    simp only [sound.mem_aggregate aliveO, sound.mem_aggregate aliveOther]
    constructor
    · intro apart x aliveX y aliveY linkedX linkedY
      exact apart y ⟨aliveY, linkedY⟩ x ⟨aliveX, linkedX⟩
    · rintro apart y ⟨aliveY, linkedY⟩ x ⟨aliveX, linkedX⟩
      exact apart x aliveX y aliveY linkedX linkedY
  unique := sound.types

end Sound

/-- After every program of calls, the aggregates are the objects that have been linked. -/
theorem always_faithful (types : Types) {calls : List ObjectCall}
    (legal : (Objects.machine types).Legal ⟨Heap.empty, []⟩ calls) :
    (Objects.machine types).Always (Faithful types) ⟨Heap.empty, []⟩ calls :=
  (legal.always (fun _ _ sound enabled => sound.step enabled) Sound.empty).mono
    fun _ sound => sound.faithful

/-- Types in a line, each one derived from the one before. -/
def Types.line : Types where
  object := 0
  parent tid := tid - 1
  height tid := tid
  lower _ other := Nat.sub_one_lt other

theorem always_faithful_pair :
    (Objects.machine Types.line).Always (Faithful Types.line) ⟨Heap.empty, []⟩
      [.create 1, .create 2, .create 1, .getObject 1 1, .aggregateObject 0 1, .getObject 0 2] :=
  always_faithful Types.line ⟨trivial, trivial, trivial, (by decide : 1 < 3),
    ⟨by decide, by decide, by decide⟩, (by decide : 0 < 3), trivial⟩

end Ns3.Core
