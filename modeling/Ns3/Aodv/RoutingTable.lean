import Mathlib.Algebra.Order.Ring.Int
import Mathlib.Logic.Function.Basic

/-!
The routing table of `ns3::aodv`, with the times of its entries.

Every call on the table but `Update` first drops what has expired.
-/

namespace Ns3.Aodv

/-- `ns3::Ipv4Address`. -/
abbrev Address := BitVec 32

/-- What `Ipv4Address ()` holds, the address 102.102.102.102. -/
def uninitializedAddress : Address := 0x66666666#32

inductive RouteFlags
  | valid
  | invalid
  | inSearch
deriving DecidableEq, Repr

structure RoutingTableEntry where
  dst : Address
  validSeqNo : Bool
  seqNo : BitVec 32
  hops : BitVec 16
  nextHop : Address
  /-- The time at which the entry expires. -/
  lifeTime : Int
  flag : RouteFlags
  precursorList : List Address
  /-- The link to the destination is unidirectional. -/
  blackListState : Bool
deriving DecidableEq

namespace RoutingTableEntry

/-- A new entry, for a life time from now on. -/
def make (now : Nat) (dst : Address) (validSeqNo : Bool) (seqNo : BitVec 32) (hops : BitVec 16)
    (nextHop : Address) (lifetime : Int) : RoutingTableEntry where
  dst := dst
  validSeqNo := validSeqNo
  seqNo := seqNo
  hops := hops
  nextHop := nextHop
  lifeTime := lifetime + now
  flag := .valid
  precursorList := []
  blackListState := false

/-- The entry that a declaration without arguments makes. -/
def default (now : Nat) : RoutingTableEntry :=
  make now uninitializedAddress false 0 0 uninitializedAddress now

variable (now : Nat) (entry : RoutingTableEntry)

/-- What is left of the life of an entry. -/
def getLifeTime : Int := entry.lifeTime - now

def setLifeTime (lifetime : Int) : RoutingTableEntry :=
  { entry with lifeTime := lifetime + now }

def insertPrecursor (id : Address) : RoutingTableEntry :=
  if id ∈ entry.precursorList then entry
  else { entry with precursorList := entry.precursorList ++ [id] }

def invalidate (badLinkLifetime : Nat) : RoutingTableEntry :=
  if entry.flag = .invalid then entry
  else { entry with flag := .invalid, lifeTime := badLinkLifetime + now }

@[simp]
theorem setLifeTime_dst (lifetime : Int) : (entry.setLifeTime now lifetime).dst = entry.dst := rfl

@[simp]
theorem insertPrecursor_dst (id : Address) : (entry.insertPrecursor id).dst = entry.dst := by
  unfold insertPrecursor
  split <;> rfl

@[simp]
theorem insertPrecursor_flag (id : Address) : (entry.insertPrecursor id).flag = entry.flag := by
  unfold insertPrecursor
  split <;> rfl

@[simp]
theorem insertPrecursor_nextHop (id : Address) :
    (entry.insertPrecursor id).nextHop = entry.nextHop := by
  unfold insertPrecursor
  split <;> rfl

@[simp]
theorem insertPrecursor_lifeTime (id : Address) :
    (entry.insertPrecursor id).lifeTime = entry.lifeTime := by
  unfold insertPrecursor
  split <;> rfl

@[simp]
theorem invalidate_dst (badLinkLifetime : Nat) :
    (entry.invalidate now badLinkLifetime).dst = entry.dst := by
  unfold invalidate
  split <;> rfl

/-- What the purge of a table leaves of an entry. -/
def purge (badLinkLifetime : Nat) : Option RoutingTableEntry :=
  if entry.getLifeTime now < 0 then
    match entry.flag with
    | .invalid => none
    | .valid => some (entry.invalidate now badLinkLifetime)
    | .inSearch => some entry
  else some entry

theorem dst_of_purge {badLinkLifetime : Nat} {left : RoutingTableEntry}
    (purged : entry.purge now badLinkLifetime = some left) : left.dst = entry.dst := by
  unfold purge at purged
  split at purged
  · split at purged
    · cases purged
    · cases purged
      exact invalidate_dst now entry badLinkLifetime
    · cases purged
      rfl
  · cases purged
    rfl

/-- The entry is still there after a purge at this time. -/
def Stays : Prop := entry.flag = .invalid → now ≤ entry.lifeTime

/-- A purge at this time does not change the entry. -/
def Settled : Prop := entry.flag = .inSearch ∨ now ≤ entry.lifeTime

variable {now entry}

theorem Settled.stays (settled : entry.Settled now) : entry.Stays now := by
  intro invalid
  rcases settled with inSearch | lives
  · rw [invalid] at inSearch
    cases inSearch
  · exact lives

theorem Settled.purge (settled : entry.Settled now) (badLinkLifetime : Nat) :
    entry.purge now badLinkLifetime = some entry := by
  unfold RoutingTableEntry.purge
  rcases settled with inSearch | lives
  · rw [inSearch]
    split <;> rfl
  · rw [if_neg]
    unfold getLifeTime
    omega

theorem settled_of_purge {badLinkLifetime : Nat} {left : RoutingTableEntry}
    (purged : entry.purge now badLinkLifetime = some left) : left.Settled now := by
  unfold RoutingTableEntry.purge at purged
  split at purged
  · split at purged
    · cases purged
    case h_2 flag =>
      cases purged
      right
      simp only [invalidate, flag, reduceCtorEq, ↓reduceIte]
      omega
    case h_3 flag =>
      cases purged
      exact .inl flag
  case isFalse lives =>
    cases purged
    right
    unfold getLifeTime at lives
    omega

theorem purge_of_stays (stays : entry.Stays now) (badLinkLifetime : Nat) :
    entry.purge now badLinkLifetime = some entry ∨
      entry.flag = .valid ∧
        entry.purge now badLinkLifetime = some (entry.invalidate now badLinkLifetime) := by
  unfold RoutingTableEntry.purge
  split
  case isFalse => exact .inl rfl
  case isTrue expired =>
    split
    case h_1 flag =>
      have lives := stays flag
      unfold getLifeTime at expired
      omega
    case h_2 flag => exact .inr ⟨flag, rfl⟩
    case h_3 => exact .inl rfl

theorem invalidate_stays (badLinkLifetime : Nat) (stays : entry.Stays now) :
    (entry.invalidate now badLinkLifetime).Stays now := by
  unfold invalidate
  split
  · exact stays
  · intro _
    show (now : Int) ≤ badLinkLifetime + now
    omega

end RoutingTableEntry

/-- The entries under their destinations. -/
structure RoutingTable where
  badLinkLifetime : Nat
  entry : Address → Option RoutingTableEntry
  dst_eq : ∀ {dst rt}, entry dst = some rt → rt.dst = dst

namespace RoutingTable

variable (now : Nat) (table : RoutingTable)

/-- A table without entries. -/
def empty (badLinkLifetime : Nat) : RoutingTable where
  badLinkLifetime := badLinkLifetime
  entry _ := none
  dst_eq found := by cases found

def purge : RoutingTable where
  badLinkLifetime := table.badLinkLifetime
  entry dst := (table.entry dst).bind fun rt => rt.purge now table.badLinkLifetime
  dst_eq := by
    intro dst left found
    obtain ⟨rt, atDst, purged⟩ := Option.bind_eq_some_iff.mp found
    rw [rt.dst_of_purge now purged, table.dst_eq atDst]

/-- What the table has for a destination, after the purge. -/
def lookupRoute (id : Address) : Option RoutingTableEntry × RoutingTable :=
  ((table.purge now).entry id, table.purge now)

/-- Put an entry under its destination. -/
def write (rt : RoutingTableEntry) : RoutingTable where
  badLinkLifetime := table.badLinkLifetime
  entry := Function.update table.entry rt.dst (some rt)
  dst_eq := by
    intro dst left found
    by_cases written : dst = rt.dst
    · rw [written, Function.update_self] at found
      cases found
      exact written.symm
    · rw [Function.update_of_ne written] at found
      exact table.dst_eq found

/-- Replace the entry of a destination, if there is one. -/
def update (rt : RoutingTableEntry) : RoutingTable :=
  if (table.entry rt.dst).isSome then table.write rt else table

/-- Insert an entry, unless its destination has one. -/
def addRoute (rt : RoutingTableEntry) : RoutingTable :=
  if ((table.purge now).entry rt.dst).isSome then table.purge now
  else (table.purge now).write rt

/-- The destinations that are reached by a next hop. -/
def getListOfDestinationWithNextHop (nextHop : Address) (dst : Address) : Bool :=
  ((table.purge now).entry dst).any fun rt => rt.nextHop = nextHop

def invalidateRoutesWithDst (unreachable : Address → Bool) : RoutingTable where
  badLinkLifetime := table.badLinkLifetime
  entry dst := ((table.purge now).entry dst).map fun rt =>
    if unreachable dst ∧ rt.flag = .valid then rt.invalidate now table.badLinkLifetime else rt
  dst_eq := by
    intro dst left found
    obtain ⟨rt, atDst, eq⟩ := Option.map_eq_some_iff.mp found
    rw [← eq, ← (table.purge now).dst_eq atDst]
    split
    · exact rt.invalidate_dst now table.badLinkLifetime
    · rfl

variable {table}

theorem ext {other : RoutingTable} (lifetime : table.badLinkLifetime = other.badLinkLifetime)
    (entry : table.entry = other.entry) : table = other := by
  cases table
  cases other
  cases lifetime
  cases entry
  rfl

theorem settled_of_purge {dst : Address} {rt : RoutingTableEntry}
    (found : (table.purge now).entry dst = some rt) : rt.Settled now := by
  obtain ⟨_, _, purged⟩ := Option.bind_eq_some_iff.mp found
  exact RoutingTableEntry.settled_of_purge purged

/-- A purge does not change what another one at the same time has left. -/
theorem purge_of_purged {other : RoutingTable} {dst : Address}
    (purged : table.entry dst = (other.purge now).entry dst) :
    (table.purge now).entry dst = (other.purge now).entry dst := by
  show (table.entry dst).bind _ = _
  rw [purged]
  cases found : (other.purge now).entry dst with
  | none => rfl
  | some rt => exact (settled_of_purge now found).purge _

/-- The other purges of a call at one time do nothing. -/
theorem purge_purge : (table.purge now).purge now = table.purge now :=
  ext rfl (funext fun _ => purge_of_purged now rfl)

theorem update_of_ne {rt : RoutingTableEntry} {dst : Address} (other : rt.dst ≠ dst) :
    (table.update rt).entry dst = table.entry dst := by
  unfold update
  split
  · exact Function.update_of_ne other.symm _ _
  · rfl

theorem update_self {rt old : RoutingTableEntry} (found : table.entry rt.dst = some old) :
    (table.update rt).entry rt.dst = some rt := by
  simp [update, found, write]

theorem addRoute_of_ne {rt : RoutingTableEntry} {dst : Address} (other : rt.dst ≠ dst) :
    (table.addRoute now rt).entry dst = (table.purge now).entry dst := by
  unfold addRoute
  split
  · rfl
  · exact Function.update_of_ne other.symm _ _

theorem addRoute_self {rt : RoutingTableEntry} (none : (table.purge now).entry rt.dst = none) :
    (table.addRoute now rt).entry rt.dst = some rt := by
  simp [addRoute, none, write]

theorem addRoute_of_some {rt old : RoutingTableEntry}
    (found : (table.purge now).entry rt.dst = some old) :
    table.addRoute now rt = table.purge now := by
  simp [addRoute, found]

end RoutingTable

end Ns3.Aodv
