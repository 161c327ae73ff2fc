import Mathlib.Data.List.Induction
import Mathlib.Data.List.Perm.Basic
import Ns3.Library.OrderedMap
import Ns3.Library.Word

/-!
The registry of types, `ns3::IidManager`.

A type is found by a hash of its name. When two names have the same hash, the one that is later in
the alphabet is chained: it takes the hash with a flag set, even if it was registered first. So the
hash of a type depends on the names that are registered, and not on the order of registration.
-/

namespace Ns3.Core

open Library

/-- `HashChainFlag`. -/
def hashChainFlag : Nat := 0x80000000

/-- `IidInformation`. -/
structure IidInformation (Name : Type) where
  name : Name
  hash : Nat
  deriving DecidableEq, Repr

/-- `ns3::IidManager`. -/
structure IidManager (Name : Type) where
  information : List (IidInformation Name)
  namemap : List (Name × Nat)
  hashmap : OrderedMap Nat

namespace IidManager

variable {Name : Type} [LinearOrder Name] (hasher : Name → Nat) (self : IidManager Name)

/-- Nothing is registered. -/
def empty : IidManager Name := ⟨[], [], .empty⟩

/-- `LookupInformation`. -/
def lookupInformation (uid : Nat) : Option (IidInformation Name) :=
  -- The assertion.
  if uid ≤ self.information.length ∧ uid ≠ 0 then self.information[uid - 1]? else none

/-- `GetUid` of a name. -/
def getUid (name : Name) : Nat := (self.namemap.lookup name).getD 0

/-- `GetUid` of a hash. -/
def getUidOfHash (hash : Nat) : Nat := (self.hashmap.find hash).getD 0

/-- `GetName`. -/
def getName (uid : Nat) : Option Name := (self.lookupInformation uid).map IidInformation.name

/-- `GetHash`. -/
def getHash (uid : Nat) : Option Nat := (self.lookupInformation uid).map IidInformation.hash

/-- `m_hashmap.insert`, which keeps what is there. -/
def insertHash (hashmap : OrderedMap Nat) (hash uid : Nat) : OrderedMap Nat :=
  if (hashmap.find hash).isSome then hashmap else hashmap.insert hash uid

/-- The end of `AllocateUid`. -/
def add (name : Name) (hash : Nat) : Option (Nat × IidManager Name) :=
  let tuid := self.information.length + 1
  -- The assertion.
  if tuid ≤ 0xffff then
    some (tuid,
      { information := self.information ++ [⟨name, hash⟩]
        namemap := self.namemap ++ [(name, tuid)]
        hashmap := insertHash self.hashmap hash tuid })
  else none

/-- Chain the type that has the hash. -/
def chainOld (hinfo : IidInformation Name) (hash : Nat) : IidManager Name :=
  let oldUid := self.getUidOfHash hinfo.hash
  { self with
    information := self.information.set (oldUid - 1) ⟨hinfo.name, hash ||| hashChainFlag⟩
    hashmap := insertHash (self.hashmap.erase hinfo.hash) (hash ||| hashChainFlag) oldUid }

/-- The hash of a name before chaining. -/
def plainHash (name : Name) : Nat := hasher name &&& 0x7fffffff

/-- `AllocateUid`. -/
def allocateUid (name : Name) : Option (Nat × IidManager Name) := do
  let hash := plainHash hasher name
  -- The assertion.
  if (self.namemap.lookup name).isSome then none
  else if (self.hashmap.find hash).isSome then
    -- The assertion.
    if (self.hashmap.find (hash ||| hashChainFlag)).isSome then none
    else
      let hinfo ← self.lookupInformation (self.getUidOfHash hash)
      if hinfo.name < name then self.add name (hash ||| hashChainFlag)
      else (self.chainOld hinfo hash).add name hash
  else self.add name hash

/-- Register types one after another. -/
def allocateAll (names : List Name) : Option (IidManager Name) :=
  names.foldlM (fun self name => (self.allocateUid hasher name).map Prod.snd) empty

/-- The hash that a name has among others. -/
def typeHash (names : List Name) (name : Name) : Nat :=
  if ∃ other ∈ names, plainHash hasher other = plainHash hasher name ∧ other < name then
    plainHash hasher name ||| hashChainFlag
  else plainHash hasher name

section Hashes

variable {hasher} {names : List Name} {name other : Name}

omit [LinearOrder Name] in
theorem plainHash_lt (hasher : Name → Nat) (name : Name) : plainHash hasher name < 2 ^ 31 := by
  have mask : plainHash hasher name = hasher name % 2 ^ 31 :=
    Nat.and_two_pow_sub_one_eq_mod (hasher name) 31
  rw [mask]
  exact Nat.mod_lt _ (Nat.two_pow_pos 31)

theorem chained_eq {hash : Nat} (plain : hash < 2 ^ 31) :
    hash ||| hashChainFlag = hash + 2 ^ 31 := by
  have flag : hashChainFlag = 2 ^ 31 * 1 := rfl
  rw [flag, Nat.or_comm, ← Nat.two_pow_add_eq_or_of_lt plain, Nat.mul_one, Nat.add_comm]

theorem typeHash_cases (hasher : Name → Nat) (names : List Name) (name : Name) :
    typeHash hasher names name = plainHash hasher name ∧
        (∀ other ∈ names, plainHash hasher other = plainHash hasher name → name ≤ other) ∨
      typeHash hasher names name = plainHash hasher name + 2 ^ 31 ∧
        ∃ other ∈ names, plainHash hasher other = plainHash hasher name ∧ other < name := by
  rw [typeHash]
  split
  · rename_i smaller
    exact .inr ⟨chained_eq (plainHash_lt hasher name), smaller⟩
  · rename_i least
    refine .inl ⟨rfl, fun other listed same => ?_⟩
    apply le_of_not_gt
    intro smaller
    exact least ⟨other, listed, same, smaller⟩

end Hashes

section Registry

variable {self} {names : List Name} {name : Name} {hashOf other : Name → Nat} {hash : Nat}

omit [LinearOrder Name] in
theorem getElem?_concat_eq_some_iff {sought : Name} {index : Nat} :
    (names ++ [name])[index]? = some sought ↔
      names[index]? = some sought ∨ index = names.length ∧ name = sought := by
  rcases Nat.lt_trichotomy index names.length with inside | last | outside
  · rw [List.getElem?_append_left inside]
    exact (or_iff_left fun last => Nat.ne_of_lt inside last.1).symm
  · simp [last]
  · rw [List.getElem?_eq_none (by rw [List.length_append, List.length_singleton]; omega),
      List.getElem?_eq_none (Nat.le_of_lt outside)]
    simp [Nat.ne_of_gt outside]

/-- The registry holds the names in the order of their ids, with the hashes. -/
structure Holds (names : List Name) (hashOf : Name → Nat) (manager : IidManager Name) : Prop where
  information : manager.information = names.map fun name => ⟨name, hashOf name⟩
  namemap : ∀ name uid, manager.namemap.lookup name = some uid ↔
    ∃ index, names[index]? = some name ∧ uid = index + 1
  hashmap : ∀ hash uid, manager.hashmap.find hash = some uid ↔
    ∃ index name, names[index]? = some name ∧ hashOf name = hash ∧ uid = index + 1

theorem holds_empty (hashOf : Name → Nat) : Holds [] hashOf (empty : IidManager Name) where
  information := rfl
  namemap := by simp [empty]
  hashmap := by simp [empty]

theorem Holds.congr (holds : Holds names hashOf self)
    (same : ∀ name ∈ names, hashOf name = other name) : Holds names other self where
  information := by
    rw [holds.information]
    exact List.map_congr_left fun name listed => by rw [same name listed]
  namemap := holds.namemap
  hashmap hash uid := by
    rw [holds.hashmap]
    constructor
    · rintro ⟨index, name, there, rfl, rfl⟩
      exact ⟨index, name, there, (same name (List.mem_of_getElem? there)).symm, rfl⟩
    · rintro ⟨index, name, there, rfl, rfl⟩
      exact ⟨index, name, there, same name (List.mem_of_getElem? there), rfl⟩

theorem Holds.find_eq_none (holds : Holds names hashOf self)
    (unused : ∀ name ∈ names, hashOf name ≠ hash) : self.hashmap.find hash = none := by
  cases found : self.hashmap.find hash with
  | none => rfl
  | some uid =>
      obtain ⟨index, name, there, same, _⟩ := (holds.hashmap hash uid).mp found
      exact absurd same (unused name (List.mem_of_getElem? there))

theorem Holds.lookup_eq_none (holds : Holds names hashOf self) (new : name ∉ names) :
    self.namemap.lookup name = none := by
  cases found : self.namemap.lookup name with
  | none => rfl
  | some uid =>
      obtain ⟨index, there, _⟩ := (holds.namemap name uid).mp found
      exact absurd (List.mem_of_getElem? there) new

theorem Holds.lookupInformation (holds : Holds names hashOf self) {index : Nat}
    (there : names[index]? = some name) :
    self.lookupInformation (index + 1) = some ⟨name, hashOf name⟩ := by
  obtain ⟨inside, _⟩ := List.getElem?_eq_some_iff.mp there
  rw [IidManager.lookupInformation, holds.information, if_pos, Nat.add_sub_cancel,
    List.getElem?_map, there, Option.map_some]
  rw [List.length_map]
  omega

/-- A new name with a hash that is not in use. -/
theorem Holds.add (holds : Holds names hashOf self) (new : name ∉ names)
    (unused : ∀ name ∈ names, hashOf name ≠ hash) (room : names.length < 0xffff) :
    ∃ next, self.add name hash = some (names.length + 1, next) ∧
      Holds (names ++ [name]) (Function.update hashOf name hash) next := by
  have length : self.information.length = names.length := by
    rw [holds.information, List.length_map]
  have unchanged : ∀ old ∈ names, Function.update hashOf name hash old = hashOf old := by
    intro old listed
    apply Function.update_of_ne
    rintro rfl
    exact new listed
  have free : (self.hashmap.find hash).isSome = false := by
    rw [holds.find_eq_none unused]
    rfl
  rw [IidManager.add, length, if_pos (by omega)]
  refine ⟨_, rfl, ?_, ?_, ?_⟩
  · rw [List.map_append, List.map_singleton, Function.update_self]
    dsimp only
    rw [holds.information]
    congr 1
    exact List.map_congr_left fun old listed => by rw [unchanged old listed]
  · intro sought uid
    dsimp only
    rw [List.lookup_append, Option.or_eq_some_iff, holds.namemap]
    simp only [getElem?_concat_eq_some_iff]
    constructor
    · rintro (⟨index, there, rfl⟩ | ⟨absent, found⟩)
      · exact ⟨index, .inl there, rfl⟩
      · by_cases same : sought = name
        · rw [same, List.lookup_cons_self] at found
          exact ⟨names.length, .inr ⟨rfl, same.symm⟩, (Option.some.inj found).symm⟩
        · have different : (sought == name) = false := beq_false_of_ne same
          rw [List.lookup_cons, different] at found
          exact nomatch found
    · rintro ⟨index, there | ⟨rfl, rfl⟩, rfl⟩
      · exact .inl ⟨index, there, rfl⟩
      · exact .inr ⟨holds.lookup_eq_none new, List.lookup_cons_self⟩
  · intro sought uid
    dsimp only
    rw [insertHash, free, if_neg Bool.false_ne_true, OrderedMap.find_insert]
    simp only [getElem?_concat_eq_some_iff]
    split
    · rename_i same
      rw [same]
      constructor
      · intro found
        exact ⟨names.length, name, .inr ⟨rfl, rfl⟩, Function.update_self _ _ _,
          (Option.some.inj found).symm⟩
      · rintro ⟨index, old, there | ⟨rfl, rfl⟩, hashed, rfl⟩
        · have listed := List.mem_of_getElem? there
          rw [unchanged old listed] at hashed
          exact absurd hashed (unused old listed)
        · rfl
    · rename_i different
      rw [holds.hashmap]
      constructor
      · rintro ⟨index, old, there, hashed, rfl⟩
        exact ⟨index, old, .inl there,
          (unchanged old (List.mem_of_getElem? there)).trans hashed, rfl⟩
      · rintro ⟨index, old, there | ⟨rfl, rfl⟩, hashed, rfl⟩
        · exact ⟨index, old, there,
            (unchanged old (List.mem_of_getElem? there)).symm.trans hashed, rfl⟩
        · rw [Function.update_self] at hashed
          exact absurd hashed.symm different

/-- An old name moves to a hash that is not in use. -/
theorem Holds.chainOld (holds : Holds names hashOf self) (nodup : names.Nodup)
    (listed : name ∈ names) (alone : ∀ old ∈ names, hashOf old = hashOf name → old = name)
    (unused : ∀ old ∈ names, hashOf old ≠ hash ||| hashChainFlag) :
    Holds names (Function.update hashOf name (hash ||| hashChainFlag))
      (self.chainOld ⟨name, hashOf name⟩ hash) := by
  obtain ⟨index, there⟩ := List.getElem?_of_mem listed
  have uid : self.getUidOfHash (hashOf name) = index + 1 := by
    rw [getUidOfHash, (holds.hashmap _ _).mpr ⟨index, name, there, rfl, rfl⟩, Option.getD_some]
  have position : ∀ other, names[other]? = some name → other = index := by
    intro other same
    obtain ⟨inside, _⟩ := List.getElem?_eq_some_iff.mp same
    exact (List.getElem?_inj inside nodup).mp (same.trans there.symm)
  have moved : Function.update hashOf name (hash ||| hashChainFlag) name =
      hash ||| hashChainFlag := Function.update_self _ _ _
  have unchanged : ∀ old, old ≠ name →
      Function.update hashOf name (hash ||| hashChainFlag) old = hashOf old :=
    fun old different => Function.update_of_ne different _ _
  have free : ((self.hashmap.erase (hashOf name)).find (hash ||| hashChainFlag)).isSome =
      false := by
    rw [OrderedMap.find_erase, holds.find_eq_none unused, ite_self]
    rfl
  refine ⟨?_, holds.namemap, ?_⟩
  · rw [IidManager.chainOld]
    dsimp only
    rw [uid, Nat.add_sub_cancel, holds.information]
    apply List.ext_getElem?
    intro other
    rw [List.getElem?_set, List.getElem?_map, List.getElem?_map]
    split
    · rename_i here
      rw [← here, there, List.length_map, if_pos (List.getElem?_eq_some_iff.mp there).1,
        Option.map_some, moved]
    · rename_i elsewhere
      cases found : names[other]? with
      | none => rfl
      | some old =>
          have different : old ≠ name := by
            rintro rfl
            exact elsewhere (position other found).symm
          rw [Option.map_some, Option.map_some, unchanged old different]
  · intro sought uid'
    rw [IidManager.chainOld]
    dsimp only
    rw [uid, insertHash, free, if_neg Bool.false_ne_true, OrderedMap.find_insert,
      OrderedMap.find_erase]
    split
    · rename_i chained
      rw [chained]
      constructor
      · intro found
        exact ⟨index, name, there, moved, (Option.some.inj found).symm⟩
      · rintro ⟨other, old, found, hashed, rfl⟩
        by_cases same : old = name
        · rw [position other (same ▸ found)]
        · rw [unchanged old same] at hashed
          exact absurd hashed (unused old (List.mem_of_getElem? found))
    · rename_i plain
      split
      · rename_i left
        constructor
        · exact fun found => nomatch found
        · rintro ⟨other, old, found, hashed, rfl⟩
          by_cases same : old = name
          · rw [same, moved] at hashed
            exact absurd hashed.symm plain
          · rw [unchanged old same, left] at hashed
            exact absurd (alone old (List.mem_of_getElem? found) hashed) same
      · rename_i stays
        rw [holds.hashmap]
        constructor
        · rintro ⟨other, old, found, hashed, rfl⟩
          have different : old ≠ name := by
            rintro rfl
            exact stays hashed.symm
          exact ⟨other, old, found, (unchanged old different).trans hashed, rfl⟩
        · rintro ⟨other, old, found, hashed, rfl⟩
          by_cases same : old = name
          · rw [same, moved] at hashed
            exact absurd hashed.symm plain
          · exact ⟨other, old, found, (unchanged old same).symm.trans hashed, rfl⟩

end Registry

section Allocation

variable {hasher} {self} {names : List Name} {name : Name}

/-- The names that have the hash of the new one are the same name. -/
def AtMostOne (hasher : Name → Nat) (names : List Name) (name : Name) : Prop :=
  ∀ a ∈ names, ∀ b ∈ names, plainHash hasher a = plainHash hasher name →
    plainHash hasher b = plainHash hasher name → a = b

theorem typeHash_concat_of_mem {old : Name} :
    typeHash hasher (names ++ [name]) old =
      if plainHash hasher name = plainHash hasher old ∧ name < old then
        plainHash hasher old ||| hashChainFlag
      else typeHash hasher names old := by
  rw [typeHash, typeHash]
  split
  · rename_i smaller
    obtain ⟨other, listed, same, less⟩ := smaller
    rcases List.mem_append.mp listed with before | new
    · split
      · rfl
      · exact (if_pos ⟨other, before, same, less⟩).symm
    · rw [List.mem_singleton.mp new] at same less
      rw [if_pos ⟨same, less⟩]
  · rename_i least
    rw [if_neg, if_neg]
    · rintro ⟨other, before, same, less⟩
      exact least ⟨other, List.mem_append_left _ before, same, less⟩
    · rintro ⟨same, less⟩
      exact least ⟨name, List.mem_append_right _ (List.mem_singleton.mpr rfl), same, less⟩

theorem update_eq_typeHash (new : name ∉ names) {hashOf : Name → Nat} {hash : Nat}
    (old : ∀ old ∈ names, hashOf old = typeHash hasher (names ++ [name]) old)
    (here : hash = typeHash hasher names name) :
    ∀ other ∈ names ++ [name],
      Function.update hashOf name hash other = typeHash hasher (names ++ [name]) other := by
  intro other among
  rcases List.mem_append.mp among with before | last
  · rw [Function.update_of_ne (by rintro rfl; exact new before), old other before]
  · rw [List.mem_singleton.mp last, Function.update_self, typeHash_concat_of_mem,
      if_neg fun both => lt_irrefl name both.2, here]

/-- A name is allocated the hash that it has among all names, and an old name moves out of the
way. -/
theorem Holds.allocateUid (holds : Holds names (typeHash hasher names) self)
    (nodup : names.Nodup) (new : name ∉ names) (room : names.length < 0xffff)
    (two : AtMostOne hasher names name) :
    ∃ next, self.allocateUid hasher name = some (names.length + 1, next) ∧
      Holds (names ++ [name]) (typeHash hasher (names ++ [name])) next := by
  have plain := plainHash_lt hasher name
  have known : (self.namemap.lookup name).isSome = false := by
    rw [holds.lookup_eq_none new]
    rfl
  have chained : plainHash hasher name ||| hashChainFlag = plainHash hasher name + 2 ^ 31 :=
    chained_eq plain
  by_cases taken : ∃ old ∈ names, plainHash hasher old = plainHash hasher name
  · obtain ⟨old, listed, same⟩ := taken
    have alone : ∀ other ∈ names, plainHash hasher other = plainHash hasher name → other = old :=
      fun other among equal => two other among old listed equal same
    have oldHash : typeHash hasher names old = plainHash hasher name := by
      rcases typeHash_cases hasher names old with ⟨first, _⟩ | ⟨_, other, among, equal, less⟩
      · exact first.trans same
      · rw [alone other among (equal.trans same)] at less
        exact absurd less (lt_irrefl old)
    have unused : ∀ other ∈ names,
        typeHash hasher names other ≠ plainHash hasher name ||| hashChainFlag := by
      intro other among equal
      rw [chained] at equal
      have small := plainHash_lt hasher other
      rcases typeHash_cases hasher names other with ⟨first, _⟩ | ⟨second, _⟩
      · omega
      · rw [alone other among (by omega), oldHash] at equal
        omega
    have only : ∀ other ∈ names,
        typeHash hasher names other = typeHash hasher names old → other = old := by
      intro other among equal
      rw [oldHash] at equal
      rcases typeHash_cases hasher names other with ⟨first, _⟩ | ⟨second, _⟩
      · exact alone other among (first.symm.trans equal)
      · omega
    obtain ⟨index, there⟩ := List.getElem?_of_mem listed
    have found : self.hashmap.find (plainHash hasher name) = some (index + 1) :=
      (holds.hashmap _ _).mpr ⟨index, old, there, oldHash, rfl⟩
    have information := holds.lookupInformation there
    rw [oldHash] at information
    rw [IidManager.allocateUid, known, if_neg Bool.false_ne_true, found, if_pos Option.isSome_some,
      holds.find_eq_none unused, if_neg (by decide), getUidOfHash, found, Option.getD_some,
      information, Option.bind_eq_bind, Option.bind_some]
    split
    · rename_i earlier
      obtain ⟨next, added, holds⟩ := holds.add new unused room
      refine ⟨next, added, holds.congr (update_eq_typeHash new ?_ ?_)⟩
      · intro other among
        rw [typeHash_concat_of_mem, if_neg]
        rintro ⟨equal, less⟩
        rw [alone other among equal.symm] at less
        exact absurd (less.trans earlier) (lt_irrefl name)
      · rcases typeHash_cases hasher names name with ⟨_, least⟩ | ⟨second, _⟩
        · exact absurd (lt_of_lt_of_le earlier (least old listed same)) (lt_irrefl old)
        · rw [chained, second]
    · rename_i later
      have less : name < old := lt_of_le_of_ne (not_lt.mp later) (by rintro rfl; exact new listed)
      have moved := holds.chainOld nodup listed only unused
      rw [oldHash] at moved
      have free : ∀ other ∈ names, Function.update (typeHash hasher names) old
          (plainHash hasher name ||| hashChainFlag) other ≠ plainHash hasher name := by
        intro other among
        by_cases here : other = old
        · rw [here, Function.update_self, chained]
          omega
        · rw [Function.update_of_ne here]
          exact fun equal => here (only other among (equal.trans oldHash.symm))
      obtain ⟨next, added, holds⟩ := moved.add new free room
      refine ⟨next, added, holds.congr (update_eq_typeHash new ?_ ?_)⟩
      · intro other among
        rw [typeHash_concat_of_mem]
        by_cases here : other = old
        · rw [here, Function.update_self, if_pos ⟨same.symm, less⟩, same]
        · rw [Function.update_of_ne here, if_neg]
          rintro ⟨equal, _⟩
          exact here (alone other among equal.symm)
      · rcases typeHash_cases hasher names name with ⟨first, _⟩ | ⟨_, other, among, equal, before⟩
        · exact first.symm
        · rw [alone other among equal] at before
          exact absurd (less.trans before) (lt_irrefl name)
  · have unused : ∀ old ∈ names, typeHash hasher names old ≠ plainHash hasher name := by
      intro old listed equal
      rcases typeHash_cases hasher names old with ⟨first, _⟩ | ⟨second, _⟩
      · exact taken ⟨old, listed, first.symm.trans equal⟩
      · omega
    rw [IidManager.allocateUid, known, if_neg Bool.false_ne_true, holds.find_eq_none unused,
      if_neg (by decide)]
    obtain ⟨next, added, holds⟩ := holds.add new unused room
    refine ⟨next, added, holds.congr (update_eq_typeHash new ?_ ?_)⟩
    · intro old listed
      rw [typeHash_concat_of_mem, if_neg]
      rintro ⟨same, _⟩
      exact taken ⟨old, listed, same.symm⟩
    · rcases typeHash_cases hasher names name with ⟨first, _⟩ | ⟨_, other, listed, same, _⟩
      · exact first.symm
      · exact absurd ⟨other, listed, same⟩ taken

/-- What the assertions ask of the names of all types: none is registered twice, no three have the
same hash, and there are ids for all of them. -/
structure Admissible (hasher : Name → Nat) (names : List Name) : Prop where
  nodup : names.Nodup
  room : names.length ≤ 0xffff
  pairs : ∀ a ∈ names, ∀ b ∈ names, ∀ c ∈ names, plainHash hasher a = plainHash hasher c →
    plainHash hasher b = plainHash hasher c → a = b ∨ b = c ∨ a = c

omit [LinearOrder Name] in
theorem Admissible.perm {others : List Name} (admissible : Admissible hasher names)
    (perm : names.Perm others) : Admissible hasher others where
  nodup := perm.nodup admissible.nodup
  room := perm.length_eq ▸ admissible.room
  pairs a aIn b bIn c cIn := admissible.pairs a (perm.mem_iff.mpr aIn) b (perm.mem_iff.mpr bIn) c
    (perm.mem_iff.mpr cIn)

omit [LinearOrder Name] in
theorem Admissible.before (admissible : Admissible hasher (names ++ [name])) :
    Admissible hasher names where
  nodup := (List.nodup_append.mp admissible.nodup).1
  room := by
    have room := admissible.room
    rw [List.length_append] at room
    omega
  pairs a aIn b bIn c cIn := admissible.pairs a (List.mem_append_left _ aIn) b
    (List.mem_append_left _ bIn) c (List.mem_append_left _ cIn)

omit [LinearOrder Name] in
theorem Admissible.new (admissible : Admissible hasher (names ++ [name])) : name ∉ names :=
  fun listed => (List.nodup_append.mp admissible.nodup).2.2 name listed name
    (List.mem_singleton.mpr rfl) rfl

omit [LinearOrder Name] in
theorem Admissible.atMostOne (admissible : Admissible hasher (names ++ [name])) :
    AtMostOne hasher names name := by
  intro a aIn b bIn aSame bSame
  have new := admissible.new
  rcases admissible.pairs a (List.mem_append_left _ aIn) b (List.mem_append_left _ bIn) name
      (List.mem_append_right _ (List.mem_singleton.mpr rfl)) aSame bSame with
    same | rfl | rfl
  · exact same
  · exact absurd bIn new
  · exact absurd aIn new

theorem allocateAll_spec (admissible : Admissible hasher names) :
    ∃ manager, allocateAll hasher names = some manager ∧
      Holds names (typeHash hasher names) manager := by
  induction names using List.reverseRecOn with
  | nil => exact ⟨empty, rfl, holds_empty _⟩
  | append_singleton names name inductionHypothesis =>
      have room := admissible.room
      rw [List.length_append, List.length_singleton] at room
      obtain ⟨manager, allocated, holds⟩ := inductionHypothesis admissible.before
      obtain ⟨next, added, holds⟩ := holds.allocateUid admissible.before.nodup admissible.new
        (by omega) admissible.atMostOne
      refine ⟨next, ?_, holds⟩
      rw [allocateAll] at allocated ⊢
      rw [List.foldlM_append, allocated]
      show (manager.allocateUid hasher name).map Prod.snd >>= some = some next
      rw [added]
      rfl

/-- The registry knows a type by its name and by its hash. -/
structure Knows (manager : IidManager Name) (name : Name) (hash : Nat) : Prop where
  named : manager.getName (manager.getUid name) = some name
  hashed : manager.getHash (manager.getUid name) = some hash
  found : manager.getUidOfHash hash = manager.getUid name

theorem Holds.knows {hashOf : Name → Nat} (holds : Holds names hashOf self)
    (listed : name ∈ names) : Knows self name (hashOf name) := by
  obtain ⟨index, there⟩ := List.getElem?_of_mem listed
  have uid : self.getUid name = index + 1 := by
    rw [getUid, (holds.namemap name (index + 1)).mpr ⟨index, there, rfl⟩, Option.getD_some]
  have information := holds.lookupInformation there
  refine ⟨?_, ?_, ?_⟩
  · rw [uid, getName, information, Option.map_some]
  · rw [uid, getHash, information, Option.map_some]
  · rw [uid, getUidOfHash, (holds.hashmap _ _).mpr ⟨index, name, there, rfl, rfl⟩,
      Option.getD_some]

omit self in
theorem typeHash_perm {others : List Name} (perm : names.Perm others) :
    typeHash hasher names = typeHash hasher others := by
  funext name
  rw [typeHash, typeHash]
  simp only [perm.mem_iff]

end Allocation

/-- In whatever order types are registered, each is known by the same hash. -/
theorem knows_of_perm {hasher : Name → Nat} {names others : List Name} (perm : names.Perm others)
    (admissible : Admissible hasher names) :
    ∃ first second, allocateAll hasher names = some first ∧
      allocateAll hasher others = some second ∧
      ∀ name ∈ names, ∃ hash, Knows first name hash ∧ Knows second name hash := by
  obtain ⟨first, firstAllocated, firstHolds⟩ := allocateAll_spec admissible
  obtain ⟨second, secondAllocated, secondHolds⟩ := allocateAll_spec (admissible.perm perm)
  refine ⟨first, second, firstAllocated, secondAllocated, ?_⟩
  intro name listed
  refine ⟨typeHash hasher names name, firstHolds.knows listed, ?_⟩
  rw [typeHash_perm perm]
  exact secondHolds.knows (perm.mem_iff.mp listed)

/-- Two names with the same hash, registered in both orders. -/
theorem knows_of_perm_collision :
    ∃ first second, allocateAll (fun _ => 7) [2, 1] = some first ∧
      allocateAll (fun _ => 7) [1, 2] = some second ∧
      ∀ name ∈ [2, 1], ∃ hash, Knows first name hash ∧ Knows second name hash :=
  knows_of_perm (List.Perm.swap 1 2 []) ⟨by decide, by decide, by decide⟩

end IidManager

end Ns3.Core
