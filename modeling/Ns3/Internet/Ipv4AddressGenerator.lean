import Mathlib.Data.Nat.Bitwise
import Ns3.Library.Intervals
import Ns3.Library.Machine
import Ns3.Library.Word

/-!
The generator of IPv4 addresses.

It counts networks and addresses for every length of a mask, and keeps what was allocated as blocks
of consecutive addresses, which may extend beyond one network. The central invariant is that the
blocks are the intervals of a sorted list and hold exactly the allocated addresses.
-/

namespace Ns3.Internet

open Library

/-- `Ipv4AddressGeneratorImpl::NetworkState`. -/
structure NetworkState where
  mask : Nat
  shift : Nat
  network : Nat
  addr : Nat
  addrMax : Nat
  deriving DecidableEq, Repr

/-- `Ipv4AddressGeneratorImpl::Entry`. -/
structure AddressEntry where
  addrLow : Nat
  addrHigh : Nat
  deriving DecidableEq, Repr

/-- `Ipv4AddressGeneratorImpl`. -/
structure Ipv4AddressGenerator where
  netTable : List NetworkState
  entries : List AddressEntry
  test : Bool
  deriving DecidableEq, Repr

namespace Ipv4AddressGenerator

/-- The loop of `Reset` over the masks. -/
def resetFrom : Nat → Nat → Nat → List NetworkState
  | 0, _, _ => []
  | turns + 1, i, mask =>
      ⟨mask, 32 - i, 1, 1, 2 ^ 32 - 1 - mask⟩ :: resetFrom turns (i + 1) (mask >>> 1 ||| 0x80000000)

def reset : Ipv4AddressGenerator := ⟨resetFrom 32 0 0, [], false⟩

/-- The loop of `MaskToIndex` over the zeros at the end of a mask. -/
def indexFrom : Nat → Nat → Nat → Option Nat
  | 0, _, _ => none
  | turns + 1, i, maskBits =>
      if maskBits &&& 1 ≠ 0 then if 0 < 32 - i ∧ 32 - i < 32 then some (32 - i) else none
      else indexFrom turns (i + 1) (maskBits >>> 1)

/-- The length of a mask, or the program stops. -/
def maskToIndex (mask : Nat) : Option Nat := indexFrom 32 0 mask

variable (generator : Ipv4AddressGenerator)

def setState (index : Nat) (state : NetworkState) : Ipv4AddressGenerator :=
  { generator with netTable := generator.netTable.set index state }

def init (net mask addr : Nat) : Option Ipv4AddressGenerator :=
  if net &&& (2 ^ 32 - 1 - mask) ≠ 0 then none
  else if addr &&& mask ≠ 0 then none
  else do
    let index ← maskToIndex mask
    let state ← generator.netTable[index]?
    if addr ≤ state.addrMax then
      some (generator.setState index { state with network := net >>> state.shift, addr := addr })
    else none

def initAddress (addr mask : Nat) : Option Ipv4AddressGenerator := do
  let index ← maskToIndex mask
  let state ← generator.netTable[index]?
  if addr ≤ state.addrMax then some (generator.setState index { state with addr := addr })
  else none

def nextNetwork (mask : Nat) : Option Ipv4AddressGenerator := do
  let index ← maskToIndex mask
  let state ← generator.netTable[index]?
  some (generator.setState index { state with network := wrap 32 (state.network + 1) })

/-- `GetNetwork` of a network state. -/
def NetworkState.getNetwork (state : NetworkState) : Nat :=
  wrap 32 (state.network <<< state.shift)

/-- The loop of `AddAllocated` over the blocks, which fails on a collision. -/
def addEntry (addr : Nat) : List AddressEntry → Option (List AddressEntry)
  | [] => some [⟨addr, addr⟩]
  | i :: rest =>
      if i.addrLow ≤ addr ∧ addr ≤ i.addrHigh then none
      else if addr < wrapSub 32 i.addrLow 1 then some (⟨addr, addr⟩ :: i :: rest)
      else if addr = wrap 32 (i.addrHigh + 1) then
        -- Look ahead to the next block.
        if rest.head?.map AddressEntry.addrLow = some addr then none
        else some ({ i with addrHigh := addr } :: rest)
      else if addr = wrapSub 32 i.addrLow 1 then some ({ i with addrLow := addr } :: rest)
      else (addEntry addr rest).map (i :: ·)

/-- A collision stops the program, except in test mode. -/
def addAllocated (addr : Nat) : Option (Ipv4AddressGenerator × Bool) :=
  if addr = 0 then none else
    match addEntry addr generator.entries with
    | some entries => some ({ generator with entries := entries }, true)
    | none => if generator.test then some (generator, false) else none

def nextAddress (mask : Nat) : Option (Ipv4AddressGenerator × Nat) := do
  let index ← maskToIndex mask
  let state ← generator.netTable[index]?
  if state.addr ≤ state.addrMax then
    let addr := NetworkState.getNetwork state ||| state.addr
    let next := generator.setState index { state with addr := wrap 32 (state.addr + 1) }
    let (next, _) ← next.addAllocated addr
    some (next, addr)
  else none

/-- It is true if the address is not allocated. -/
def isAddressAllocated (addr : Nat) : Option Bool :=
  if addr = 0 then none
  else some (!generator.entries.any fun i => i.addrLow ≤ addr && addr ≤ i.addrHigh)

/-- It is true if no block begins or ends in the network. -/
def isNetworkAllocated (address mask : Nat) : Option Bool :=
  if address ≠ address &&& mask then none
  else some (!generator.entries.any fun i =>
    address == i.addrLow &&& mask || address == i.addrHigh &&& mask)

def testMode : Ipv4AddressGenerator := { generator with test := true }

end Ipv4AddressGenerator

namespace AddressEntry

def ofInterval (interval : Interval) : AddressEntry := ⟨interval.low, interval.high⟩

@[simp]
theorem ofInterval_addrLow (interval : Interval) : (ofInterval interval).addrLow = interval.low :=
  rfl

@[simp]
theorem ofInterval_addrHigh (interval : Interval) :
    (ofInterval interval).addrHigh = interval.high := rfl

variable {intervals inserted : List Interval} {addr : Nat}

/-- The loop over the blocks inserts into a sorted list of intervals, as zero is not allocated. -/
theorem addEntry_map (positive : 0 < addr) (fits : addr < 2 ^ 32)
    (words : ∀ interval ∈ intervals, 0 < interval.low ∧ interval.high < 2 ^ 32) :
    Ipv4AddressGenerator.addEntry addr (intervals.map ofInterval) =
      (insertPoint addr intervals).map (List.map ofInterval) := by
  induction intervals with
  | nil => rfl
  | cons first rest inductionHypothesis =>
      obtain ⟨⟨some, high⟩, later⟩ := List.forall_mem_cons.mp words
      have ordered := first.ordered
      have inside : first.low ≤ addr ∧ addr ≤ first.high ↔ first.Has addr := Iff.rfl
      have pred : wrapSub 32 first.low 1 = first.low - 1 := wrapSub_of_le some (by omega)
      have below : addr < first.low - 1 ↔ addr + 1 < first.low := by omega
      have above : addr = wrap 32 (first.high + 1) ↔ addr = first.high + 1 := by
        unfold wrap
        omega
      have down : addr = first.low - 1 ↔ addr + 1 = first.low := by omega
      have ahead : (rest.map ofInterval).head?.map AddressEntry.addrLow =
          rest.head?.map Interval.low := by
        cases rest with
        | nil => rfl
        | cons next rest => rfl
      rw [List.map_cons, Ipv4AddressGenerator.addEntry, insertPoint, inductionHypothesis later]
      simp only [ofInterval_addrLow, ofInterval_addrHigh, inside, pred, below, above, down, ahead]
      split_ifs with has lower touches taken also
      · rfl
      · rfl
      · rfl
      · rfl
      · rfl
      · rw [Option.map_map, Option.map_map]
        rfl

end AddressEntry

namespace Ipv4AddressGenerator

/-- The generator together with the addresses that it has given or accepted. -/
structure Session where
  generator : Ipv4AddressGenerator
  given : List Nat
  deriving DecidableEq, Repr

/-- The calls of the helpers. -/
inductive Call
  | init (net mask addr : UInt32)
  | initAddress (addr mask : UInt32)
  | nextNetwork (mask : UInt32)
  | nextAddress (mask : UInt32)
  | addAllocated (addr : UInt32)
  | testMode
  deriving DecidableEq, Repr

/-- One call, unless it stops the program. -/
def Session.perform (session : Session) : Call → Option Session
  | .init net mask addr =>
      (session.generator.init net.toNat mask.toNat addr.toNat).map (⟨·, session.given⟩)
  | .initAddress addr mask =>
      (session.generator.initAddress addr.toNat mask.toNat).map (⟨·, session.given⟩)
  | .nextNetwork mask => (session.generator.nextNetwork mask.toNat).map (⟨·, session.given⟩)
  | .nextAddress mask =>
      (session.generator.nextAddress mask.toNat).map fun (next, addr) =>
        ⟨next, addr :: session.given⟩
  | .addAllocated addr =>
      (session.generator.addAllocated addr.toNat).map fun (next, accepted) =>
        ⟨next, if accepted then addr.toNat :: session.given else session.given⟩
  | .testMode => some ⟨session.generator.testMode, session.given⟩

def Session.start : Session := ⟨reset, []⟩

/-- The runs of calls that do not stop the program. -/
def machine : Machine Session Call where
  step session call := (session.perform call).getD session
  Enabled session call := (session.perform call).isSome = true

instance (session : Session) (call : Call) : Decidable (machine.Enabled session call) :=
  inferInstanceAs (Decidable (_ = true))

/-- The invariant. -/
structure Tracks (session : Session) : Prop where
  blocks : ∃ intervals, session.generator.entries = intervals.map AddressEntry.ofInterval ∧
    SortedIntervals intervals ∧
    (∀ interval ∈ intervals, 0 < interval.low ∧ interval.high < 2 ^ 32) ∧
    ∀ addr, HasPoint intervals addr ↔ addr ∈ session.given
  distinct : session.generator.test = false → session.given.Nodup
  fits : ∀ state ∈ session.generator.netTable, state.addrMax < 2 ^ 32

variable {generator next : Ipv4AddressGenerator} {given : List Nat} {addr index : Nat}
  {state : NetworkState}

theorem resetFrom_fits (turns i mask : Nat) :
    ∀ state ∈ resetFrom turns i mask, state.addrMax < 2 ^ 32 := by
  induction turns generalizing i mask with
  | zero =>
      intro state member
      exact nomatch member
  | succ turns inductionHypothesis =>
      intro state member
      rcases List.mem_cons.mp member with rfl | later
      · dsimp only
        omega
      · exact inductionHypothesis _ _ state later

theorem Tracks.start : Tracks Session.start where
  blocks := ⟨[], rfl, List.Pairwise.nil, fun _ member => (nomatch member), fun addr => by
    exact iff_of_false not_hasPoint_nil List.not_mem_nil⟩
  distinct _ := List.nodup_nil
  fits := resetFrom_fits 32 0 0

/-- A network state that keeps its largest address. -/
theorem Tracks.setState (tracks : Tracks ⟨generator, given⟩) (small : state.addrMax < 2 ^ 32) :
    Tracks ⟨generator.setState index state, given⟩ where
  blocks := tracks.blocks
  distinct := tracks.distinct
  fits := by
    intro other member
    rcases List.mem_or_eq_of_mem_set member with member | rfl
    · exact tracks.fits other member
    · exact small

/-- The bounds of the blocks are allocated addresses. -/
theorem words_of_inserts {intervals inserted : List Interval}
    (inserts : Inserts addr intervals inserted) (positive : 0 < addr) (small : addr < 2 ^ 32)
    (words : ∀ interval ∈ intervals, 0 < interval.low ∧ interval.high < 2 ^ 32) :
    ∀ interval ∈ inserted, 0 < interval.low ∧ interval.high < 2 ^ 32 := by
  have point : ∀ x, HasPoint inserted x → 0 < x ∧ x < 2 ^ 32 := by
    intro x hasPoint
    rcases inserts.hasPoint.mp hasPoint with rfl | ⟨interval, member, low, high⟩
    · exact ⟨positive, small⟩
    · have word := words interval member
      exact ⟨Nat.lt_of_lt_of_le word.1 low, Nat.lt_of_le_of_lt high word.2⟩
  intro interval member
  exact ⟨(point interval.low ⟨interval, member, Nat.le_refl _, interval.ordered⟩).1,
    (point interval.high ⟨interval, member, interval.ordered, Nat.le_refl _⟩).2⟩

/-- An address that `AddAllocated` has tried. -/
structure Adds (generator : Ipv4AddressGenerator) (given : List Nat) (addr : Nat)
    (next : Ipv4AddressGenerator) (accepted : Bool) : Prop where
  tracks : Tracks ⟨next, addr :: given⟩
  refused : accepted = false → Tracks ⟨next, given⟩

theorem Tracks.addAllocated (tracks : Tracks ⟨generator, given⟩) (fits : addr < 2 ^ 32)
    {accepted : Bool} (added : generator.addAllocated addr = some (next, accepted)) :
    Adds generator given addr next accepted := by
  obtain ⟨intervals, entries, sorted, words, has⟩ := tracks.blocks
  dsimp only at entries has
  unfold Ipv4AddressGenerator.addAllocated at added
  split at added
  · cases added
  · rename_i positive
    rw [entries, AddressEntry.addEntry_map (Nat.pos_of_ne_zero positive) fits words] at added
    cases found : insertPoint addr intervals with
    | none =>
        have known : addr ∈ given := (has addr).mp ((insertPoint_eq_none sorted).mp found)
        rw [found] at added
        dsimp only [Option.map_none] at added
        split at added
        · rename_i testing
          obtain ⟨rfl, rfl⟩ := Prod.mk.inj (Option.some.inj added)
          refine ⟨⟨⟨intervals, entries, sorted, words, fun other => ?_⟩, ?_, tracks.fits⟩,
            fun _ => tracks⟩
          · rw [has other, List.mem_cons]
            exact ⟨.inr, fun either => either.elim (fun same => same ▸ known) id⟩
          · intro off
            exact absurd (testing.symm.trans off) Bool.true_eq_false.mp
        · cases added
    | some inserted =>
        have unknown : addr ∉ given := by
          intro known
          have refused := (insertPoint_eq_none sorted).mpr ((has addr).mpr known)
          rw [found] at refused
          cases refused
        have inserts := insertPoint_inserts found
        rw [found] at added
        dsimp only [Option.map_some] at added
        obtain ⟨rfl, rfl⟩ := Prod.mk.inj (Option.some.inj added)
        refine ⟨⟨⟨inserted, rfl, inserts.sorted sorted, ?_, fun other => ?_⟩, ?_, tracks.fits⟩,
          fun refused => (nomatch refused)⟩
        · exact words_of_inserts inserts (Nat.pos_of_ne_zero positive) fits words
        · rw [inserts.hasPoint, has other, List.mem_cons]
        · exact fun off => List.nodup_cons.mpr ⟨unknown, tracks.distinct off⟩

theorem Tracks.init (tracks : Tracks ⟨generator, given⟩) {net mask : Nat}
    (called : generator.init net mask addr = some next) : Tracks ⟨next, given⟩ := by
  unfold Ipv4AddressGenerator.init at called
  split_ifs at called with inconsistent beyond
  obtain ⟨index, _, called⟩ := Option.bind_eq_some_iff.mp called
  obtain ⟨state, found, called⟩ := Option.bind_eq_some_iff.mp called
  split_ifs at called
  obtain rfl := Option.some.inj called
  exact tracks.setState (tracks.fits state (List.mem_of_getElem? found))

theorem Tracks.initAddress (tracks : Tracks ⟨generator, given⟩) {mask : Nat}
    (called : generator.initAddress addr mask = some next) : Tracks ⟨next, given⟩ := by
  obtain ⟨index, _, called⟩ := Option.bind_eq_some_iff.mp called
  obtain ⟨state, found, called⟩ := Option.bind_eq_some_iff.mp called
  split_ifs at called
  obtain rfl := Option.some.inj called
  exact tracks.setState (tracks.fits state (List.mem_of_getElem? found))

theorem Tracks.nextNetwork (tracks : Tracks ⟨generator, given⟩) {mask : Nat}
    (called : generator.nextNetwork mask = some next) : Tracks ⟨next, given⟩ := by
  obtain ⟨index, _, called⟩ := Option.bind_eq_some_iff.mp called
  obtain ⟨state, found, called⟩ := Option.bind_eq_some_iff.mp called
  obtain rfl := Option.some.inj called
  exact tracks.setState (tracks.fits state (List.mem_of_getElem? found))

theorem Tracks.nextAddress (tracks : Tracks ⟨generator, given⟩) {mask : Nat}
    (called : generator.nextAddress mask = some (next, addr)) : Tracks ⟨next, addr :: given⟩ := by
  obtain ⟨index, _, called⟩ := Option.bind_eq_some_iff.mp called
  obtain ⟨state, found, called⟩ := Option.bind_eq_some_iff.mp called
  split_ifs at called with below
  obtain ⟨⟨changed, accepted⟩, added, called⟩ := Option.bind_eq_some_iff.mp called
  obtain ⟨rfl, rfl⟩ := Prod.mk.inj (Option.some.inj called)
  have small := tracks.fits state (List.mem_of_getElem? found)
  have word : NetworkState.getNetwork state ||| state.addr < 2 ^ 32 :=
    Nat.or_lt_two_pow (wrap_lt 32 _) (Nat.lt_of_le_of_lt below small)
  have counted : Tracks ⟨generator.setState index { state with addr := wrap 32 (state.addr + 1) },
      given⟩ := tracks.setState small
  exact (counted.addAllocated word added).tracks

/-- What a call leads to. -/
theorem Tracks.perform {session next : Session} (tracks : Tracks session) (call : Call)
    (performed : session.perform call = some next) : Tracks next := by
  obtain ⟨generator, given⟩ := session
  cases call with
  | init net mask addr =>
      obtain ⟨changed, called, rfl⟩ := Option.map_eq_some_iff.mp performed
      exact tracks.init called
  | initAddress addr mask =>
      obtain ⟨changed, called, rfl⟩ := Option.map_eq_some_iff.mp performed
      exact tracks.initAddress called
  | nextNetwork mask =>
      obtain ⟨changed, called, rfl⟩ := Option.map_eq_some_iff.mp performed
      exact tracks.nextNetwork called
  | nextAddress mask =>
      obtain ⟨⟨changed, addr⟩, called, rfl⟩ := Option.map_eq_some_iff.mp performed
      exact tracks.nextAddress called
  | addAllocated addr =>
      obtain ⟨⟨changed, accepted⟩, called, rfl⟩ := Option.map_eq_some_iff.mp performed
      have adds := tracks.addAllocated addr.toNat_lt called
      cases accepted with
      | false => exact adds.refused rfl
      | true => exact adds.tracks
  | testMode =>
      obtain rfl := Option.some.inj performed
      exact ⟨tracks.blocks, fun off => (nomatch off), tracks.fits⟩

theorem always_tracks {calls : List Call} (legal : machine.Legal Session.start calls) :
    machine.Always Tracks Session.start calls := by
  refine legal.always (fun session call tracks enabled => ?_) Tracks.start
  obtain ⟨next, performed⟩ := Option.isSome_iff_exists.mp enabled
  have steps : machine.step session call = next := by
    show (session.perform call).getD session = next
    rw [performed, Option.getD_some]
  rw [steps]
  exact tracks.perform call performed

/-- The mask of a prefix length. -/
def prefixMask (length : Nat) : Nat := 2 ^ 32 - 2 ^ (32 - length)

/-- The block begins before the network and ends behind it. -/
def Encloses (address length : Nat) (entry : AddressEntry) : Prop :=
  entry.addrLow < address ∧ address + (2 ^ (32 - length) - 1) < entry.addrHigh

/-- What the generator tells about the addresses that it has given or accepted. A network is
reported as free, although it is full, if a block encloses it. -/
structure Accounts (session : Session) : Prop where
  sorted : session.generator.entries.Pairwise fun a b => a.addrHigh < b.addrLow
  denotes : ∀ addr, addr ∈ session.given ↔
    ∃ entry ∈ session.generator.entries, entry.addrLow ≤ addr ∧ addr ≤ entry.addrHigh
  distinct : session.generator.test = false → session.given.Nodup
  addresses : ∀ addr, 0 < addr →
    session.generator.isAddressAllocated addr = some (decide (addr ∉ session.given))
  networks : ∀ address length, length ≤ 32 → address &&& prefixMask length = address →
    (session.generator.isNetworkAllocated address (prefixMask length) = some false ↔
      (∃ addr ∈ session.given, addr &&& prefixMask length = address) ∧
        ¬ ∃ entry ∈ session.generator.entries, Encloses address length entry)

theorem and_prefixMask {x length : Nat} (fits : x < 2 ^ 32) (short : length ≤ 32) :
    x &&& prefixMask length = x / 2 ^ (32 - length) * 2 ^ (32 - length) := by
  have mask : prefixMask length = (2 ^ length - 1) <<< (32 - length) := by
    rw [prefixMask, Nat.shiftLeft_eq, Nat.sub_mul, ← Nat.pow_add, Nat.add_sub_cancel' short,
      Nat.one_mul]
  rw [mask, ← Nat.shiftRight_eq_div_pow, ← Nat.shiftLeft_eq]
  apply Nat.eq_of_testBit_eq
  intro i
  rw [Nat.testBit_and, Nat.testBit_shiftLeft, Nat.testBit_shiftLeft, Nat.testBit_shiftRight,
    Nat.testBit_two_pow_sub_one]
  by_cases low : 32 - length ≤ i
  · rw [Nat.add_sub_cancel' low]
    by_cases inside : i < 32
    · have below : i - (32 - length) < length := by omega
      simp [low, below]
    · have above : x.testBit i = false := Nat.testBit_lt_two_pow
        (Nat.lt_of_lt_of_le fits (Nat.pow_le_pow_right (by decide) (by omega)))
      rw [above, Bool.false_and, Bool.and_false]
  · simp [low]

/-- A network has the addresses from its own on. -/
theorem and_prefixMask_eq_iff {address x length : Nat} (fits : x < 2 ^ 32) (short : length ≤ 32)
    (aligned : address &&& prefixMask length = address) (word : address < 2 ^ 32) :
    x &&& prefixMask length = address ↔
      address ≤ x ∧ x ≤ address + (2 ^ (32 - length) - 1) := by
  rw [and_prefixMask word short] at aligned
  rw [and_prefixMask fits short]
  have positive : 0 < 2 ^ (32 - length) := Nat.two_pow_pos _
  generalize 2 ^ (32 - length) = size at *
  have split := Nat.div_add_mod x size
  have small := Nat.mod_lt x positive
  have product : size * (x / size) = x / size * size := Nat.mul_comm _ _
  constructor
  · intro same
    omega
  · rintro ⟨low, high⟩
    rw [← aligned] at low high ⊢
    have quotient : x / size = address / size := by
      apply Nat.div_eq_of_lt_le low
      rw [Nat.succ_mul]
      omega
    rw [quotient]

section Answers

variable {intervals : List Interval}

theorem hasPoint_iff_entries :
    HasPoint intervals addr ↔ ∃ entry ∈ intervals.map AddressEntry.ofInterval,
      entry.addrLow ≤ addr ∧ addr ≤ entry.addrHigh := by
  simp [HasPoint, Interval.Has]

theorem isAddressAllocated_eq (entries : generator.entries = intervals.map AddressEntry.ofInterval)
    (positive : 0 < addr) :
    generator.isAddressAllocated addr = some (decide (¬ HasPoint intervals addr)) := by
  rw [isAddressAllocated, if_neg positive.ne', entries, decide_not]
  congr 2
  apply Bool.eq_iff_iff.mpr
  rw [decide_eq_true_eq, hasPoint_iff_entries, List.any_eq_true]
  simp only [Bool.and_eq_true, decide_eq_true_eq]

/-- A network is not reported as free if a block begins or ends in it. -/
theorem isNetworkAllocated_eq {address mask : Nat}
    (entries : generator.entries = intervals.map AddressEntry.ofInterval)
    (aligned : address &&& mask = address) :
    generator.isNetworkAllocated address mask = some false ↔
      ∃ interval ∈ intervals, interval.low &&& mask = address ∨ interval.high &&& mask = address := by
  rw [isNetworkAllocated, if_neg (not_not.mpr aligned.symm), entries, Option.some_inj,
    Bool.not_eq_false', List.any_map, List.any_eq_true]
  simp only [Function.comp_apply, Bool.or_eq_true, beq_iff_eq, AddressEntry.ofInterval_addrLow,
    AddressEntry.ofInterval_addrHigh, @eq_comm _ address]

/-- A block that encloses the network is the only one that meets it. -/
theorem not_encloses {address length : Nat} (sorted : SortedIntervals intervals)
    {interval : Interval} (member : interval ∈ intervals)
    (meets : address ≤ interval.low ∧ interval.low ≤ address + (2 ^ (32 - length) - 1) ∨
      address ≤ interval.high ∧ interval.high ≤ address + (2 ^ (32 - length) - 1)) :
    ¬ ∃ entry ∈ intervals.map AddressEntry.ofInterval, Encloses address length entry := by
  rintro ⟨entry, inside, encloses⟩
  obtain ⟨other, otherMember, rfl⟩ := List.mem_map.mp inside
  obtain ⟨below, above⟩ := encloses
  rw [AddressEntry.ofInterval_addrLow] at below
  rw [AddressEntry.ofInterval_addrHigh] at above
  have ordered := interval.ordered
  rcases meets with ⟨low, high⟩ | ⟨low, high⟩
  · have same := sorted.unique member otherMember ⟨Nat.le_refl _, ordered⟩ ⟨by omega, by omega⟩
    subst same
    omega
  · have same := sorted.unique member otherMember ⟨ordered, Nat.le_refl _⟩ ⟨by omega, by omega⟩
    subst same
    omega

end Answers

theorem Tracks.accounts {session : Session} (tracks : Tracks session) : Accounts session := by
  obtain ⟨intervals, entries, sorted, words, has⟩ := tracks.blocks
  refine ⟨?_, fun addr => ?_, tracks.distinct, fun addr positive => ?_,
    fun address length short aligned => ?_⟩
  · rw [entries, List.pairwise_map]
    exact sorted
  · rw [← has, entries]
    exact hasPoint_iff_entries
  · rw [isAddressAllocated_eq entries positive]
    exact congrArg some (decide_eq_decide.mpr (not_congr (has addr)))
  · have word : address < 2 ^ 32 := by
      rw [← aligned]
      exact Nat.and_lt_two_pow address (Nat.sub_lt (by decide) (Nat.two_pow_pos _))
    have inside : ∀ interval ∈ intervals, interval.low < 2 ^ 32 ∧ interval.high < 2 ^ 32 :=
      fun interval member => ⟨Nat.lt_of_le_of_lt interval.ordered (words interval member).2,
        (words interval member).2⟩
    rw [isNetworkAllocated_eq entries aligned]
    constructor
    · rintro ⟨interval, member, meets⟩
      obtain ⟨low, high⟩ := inside interval member
      refine ⟨?_, ?_⟩
      · rcases meets with begins | ends
        · exact ⟨interval.low, (has _).mp ⟨interval, member, Nat.le_refl _, interval.ordered⟩,
            begins⟩
        · exact ⟨interval.high, (has _).mp ⟨interval, member, interval.ordered, Nat.le_refl _⟩,
            ends⟩
      · rw [and_prefixMask_eq_iff low short aligned word,
          and_prefixMask_eq_iff high short aligned word] at meets
        rw [entries]
        exact not_encloses sorted member meets
    · rintro ⟨⟨addr, given, within⟩, free⟩
      have hasPoint := (has addr).mpr given
      obtain ⟨block, blockMember, _, top⟩ := hasPoint
      have addrWord := Nat.lt_of_le_of_lt top (inside block blockMember).2
      obtain ⟨above, below⟩ := (and_prefixMask_eq_iff addrWord short aligned word).mp within
      rcases HasPoint.meets ((has addr).mpr given) above below with
        ⟨interval, member, meets⟩ | ⟨interval, member, encloses⟩
      · obtain ⟨low, high⟩ := inside interval member
        refine ⟨interval, member, ?_⟩
        rw [and_prefixMask_eq_iff low short aligned word,
          and_prefixMask_eq_iff high short aligned word]
        exact meets
      · rw [entries] at free
        exact absurd ⟨_, List.mem_map_of_mem member, encloses⟩ free

/-- In every run the generator accounts for the addresses. -/
theorem always_accounts {calls : List Call} (legal : machine.Legal Session.start calls) :
    machine.Always Accounts Session.start calls :=
  (always_tracks legal).mono fun _ tracks => tracks.accounts

/-- Some addresses of `10.1.1.0/24`, and one that a helper adds behind them. -/
def someCalls : List Call :=
  [.init 0x0a010100 0xffffff00 0x00000001, .nextAddress 0xffffff00, .nextAddress 0xffffff00,
    .addAllocated 0x0a010104, .nextNetwork 0xffffff00, .nextAddress 0xffffff00]

theorem always_accounts_some : machine.Legal Session.start someCalls ∧
    machine.Always Accounts Session.start someCalls :=
  ⟨by decide, always_accounts (by decide)⟩

end Ipv4AddressGenerator

end Ns3.Internet
