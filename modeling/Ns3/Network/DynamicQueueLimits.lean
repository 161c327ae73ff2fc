import Mathlib.Data.BitVec
import Ns3.Library.Machine

/-!
`ns3::DynamicQueueLimits`: how much a device may have in its queue, from what it completes.

The counters wrap; what has really been queued and completed since the last `Reset` is counted
beside them.
-/

namespace Ns3.Network

open Library

/-- `DQL_MAX_OBJECT`. -/
def dqlMaxObject : BitVec 32 := BitVec.allOnes 32 / 16

/-- `DQL_MAX_LIMIT`. -/
def dqlMaxLimit : BitVec 32 := BitVec.allOnes 32 / 2 - dqlMaxObject

/-- The attributes of `ns3::DynamicQueueLimits`, with the range that `MaxLimit` is checked for. -/
structure DynamicQueueLimitsConfig where
  maxLimit : BitVec 32
  minLimit : BitVec 32
  slackHoldTime : Int
  maxLimit_le : maxLimit ≤ dqlMaxLimit

/-- `ns3::DynamicQueueLimits`. -/
structure DynamicQueueLimits where
  numQueued : BitVec 32 := 0
  adjLimit : BitVec 32 := 0
  lastObjCnt : BitVec 32 := 0
  limit : BitVec 32 := 0
  numCompleted : BitVec 32 := 0
  prevOvlimit : BitVec 32 := 0
  prevNumQueued : BitVec 32 := 0
  prevLastObjCnt : BitVec 32 := 0
  lowestSlack : BitVec 32 := BitVec.allOnes 32
  slackStartTime : Int := 0
  deriving DecidableEq, Repr

namespace DynamicQueueLimits

/-- `std::max`. -/
def max (a b : BitVec 32) : BitVec 32 := if a < b then b else a

/-- `std::min`. -/
def min (a b : BitVec 32) : BitVec 32 := if b < a then b else a

variable (config : DynamicQueueLimitsConfig) (self : DynamicQueueLimits)

/-- `Posdiff`. -/
def posdiff (a b : BitVec 32) : BitVec 32 := if (a - b).slt 0 then 0 else a - b

/-- `Reset`. -/
def reset (now : Int) : DynamicQueueLimits :=
  { self with
    limit := 0
    numQueued := 0
    numCompleted := 0
    lastObjCnt := 0
    prevNumQueued := 0
    prevLastObjCnt := 0
    prevOvlimit := 0
    lowestSlack := BitVec.allOnes 32
    slackStartTime := now }

/-- The constructor. -/
def create (now : Int) : DynamicQueueLimits := ({} : DynamicQueueLimits).reset now

/-- The part of `Completed` for a queue that was not starved. -/
def checkDecrease (completed : BitVec 32) (now : Int) : DynamicQueueLimits × BitVec 32 :=
  let slack := posdiff (self.limit + self.prevOvlimit) (2 * (completed - self.numCompleted))
  let slackLastObjs :=
    if self.prevOvlimit ≠ 0 then posdiff self.prevLastObjCnt self.prevOvlimit else 0
  let slack := max slack slackLastObjs
  let lowestSlack := if slack < self.lowestSlack then slack else self.lowestSlack
  if now > self.slackStartTime + config.slackHoldTime then
    ({ self with slackStartTime := now, lowestSlack := BitVec.allOnes 32 },
      posdiff self.limit lowestSlack)
  else ({ self with lowestSlack := lowestSlack }, self.limit)

/-- The part of `Completed` that looks for a new limit. -/
def newLimit (completed ovlimit : BitVec 32) (now : Int) : DynamicQueueLimits × BitVec 32 :=
  let inprogress := self.numQueued - completed
  let prevInprogress := self.prevNumQueued - self.numCompleted
  let allPrevCompleted := !(completed - self.prevNumQueued).slt 0
  if (ovlimit ≠ 0 ∧ inprogress = 0) ∨ (self.prevOvlimit ≠ 0 ∧ allPrevCompleted) then
    ({ self with slackStartTime := now, lowestSlack := BitVec.allOnes 32 },
      self.limit + (posdiff completed self.prevNumQueued + self.prevOvlimit))
  else if inprogress ≠ 0 ∧ prevInprogress ≠ 0 ∧ !allPrevCompleted then
    self.checkDecrease config completed now
  else (self, self.limit)

/-- `Completed`. -/
def completed (count : BitVec 32) (now : Int) : DynamicQueueLimits :=
  let completed := self.numCompleted + count
  let ovlimit := posdiff (self.numQueued - self.numCompleted) self.limit
  let (checked, limit) := self.newLimit config completed ovlimit now
  let limit := min (max limit config.minLimit) config.maxLimit
  { checked with
    limit := limit
    adjLimit := limit + completed
    prevOvlimit := if limit ≠ self.limit then 0 else ovlimit
    prevLastObjCnt := self.lastObjCnt
    numCompleted := completed
    prevNumQueued := self.numQueued }

/-- `Available`. -/
def available : Int := (self.adjLimit - self.numQueued).toInt

/-- `Queued`. -/
def queued (count : BitVec 32) : DynamicQueueLimits :=
  { self with lastObjCnt := count, numQueued := self.numQueued + count }

variable {config} {self}

theorem checkDecrease_numQueued {completed : BitVec 32} {now : Int} :
    (self.checkDecrease config completed now).1.numQueued = self.numQueued := by
  unfold checkDecrease
  dsimp only
  split <;> rfl

theorem newLimit_numQueued {completed ovlimit : BitVec 32} {now : Int} :
    (self.newLimit config completed ovlimit now).1.numQueued = self.numQueued := by
  unfold newLimit
  dsimp only
  split
  · rfl
  · split
    · exact checkDecrease_numQueued
    · rfl

@[simp]
theorem completed_numQueued {count : BitVec 32} {now : Int} :
    (self.completed config count now).numQueued = self.numQueued := newLimit_numQueued

@[simp]
theorem completed_numCompleted {count : BitVec 32} {now : Int} :
    (self.completed config count now).numCompleted = self.numCompleted + count := rfl

@[simp]
theorem completed_adjLimit {count : BitVec 32} {now : Int} :
    (self.completed config count now).adjLimit =
      (self.completed config count now).limit + (self.numCompleted + count) := rfl

theorem min_le_right (a b : BitVec 32) : min a b ≤ b := by
  unfold min
  split <;> bv_omega

theorem le_min_max {a b c : BitVec 32} (ordered : b ≤ c) : b ≤ min (max a b) c := by
  unfold min max
  split <;> split at * <;> bv_omega

theorem completed_limit_le {count : BitVec 32} {now : Int} :
    (self.completed config count now).limit ≤ config.maxLimit := min_le_right _ _

theorem le_completed_limit (ordered : config.minLimit ≤ config.maxLimit) {count : BitVec 32}
    {now : Int} : config.minLimit ≤ (self.completed config count now).limit :=
  le_min_max ordered

end DynamicQueueLimits

/-- A call of a method, with the time where the method looks at it. -/
inductive DynamicQueueLimitsCall
  | queued (count : BitVec 32)
  | completed (count : BitVec 32) (now : Int)
  | reset (now : Int)
  deriving DecidableEq, Repr

/-- The limits with what has been queued and completed since the last `Reset`, and whether there
was a `Completed` since. -/
structure QueueLimitsSession where
  limits : DynamicQueueLimits
  queued : Nat := 0
  completed : Nat := 0
  settled : Bool := false
  deriving DecidableEq, Repr

namespace QueueLimitsSession

variable (config : DynamicQueueLimitsConfig)

/-- What is in progress. -/
def inProgress (session : QueueLimitsSession) : Nat := session.queued - session.completed

/-- One call. -/
def step (session : QueueLimitsSession) : DynamicQueueLimitsCall → QueueLimitsSession
  | .queued count =>
      { session with
        limits := session.limits.queued count
        queued := session.queued + count.toNat }
  | .completed count now =>
      { session with
        limits := session.limits.completed config count now
        completed := session.completed + count.toNat
        settled := true }
  | .reset now => { limits := session.limits.reset now }

/-- The assertions of the methods, and at most `2 ^ 31 - 1` in progress. -/
def Enabled (session : QueueLimitsSession) : DynamicQueueLimitsCall → Prop
  | .queued count => count ≤ dqlMaxObject ∧ session.inProgress + count.toNat < 2 ^ 31
  | .completed count _ => count.toNat ≤ session.inProgress
  | .reset _ => True

/-- A device that queues, completes and resets. -/
def sessions : Machine QueueLimitsSession DynamicQueueLimitsCall where
  step := step config
  Enabled := Enabled

instance : ∀ session call, Decidable ((sessions config).Enabled session call)
  | _, .queued _ => inferInstanceAs (Decidable (_ ∧ _))
  | _, .completed _ _ => inferInstanceAs (Decidable (_ ≤ _))
  | _, .reset _ => inferInstanceAs (Decidable True)

/-- What `Available` has to be, and the range of the limit after a `Completed`. -/
structure Accurate (session : QueueLimitsSession) : Prop where
  available : session.limits.available =
    session.limits.limit.toNat - (session.queued - session.completed : Int)
  bounded : session.settled = true → config.minLimit ≤ config.maxLimit →
    config.minLimit ≤ session.limits.limit ∧ session.limits.limit ≤ config.maxLimit

/-- `Reset` leaves `m_adjLimit` as it is, and is called where that is zero. -/
def ResetsAtZero (session : QueueLimitsSession) : DynamicQueueLimitsCall → Prop
  | .reset _ => session.limits.adjLimit = 0
  | _ => True

/-- The counters are those of the session, and the limit is in its range. -/
structure Invariant (session : QueueLimitsSession) : Prop where
  completed_le : session.completed ≤ session.queued
  numQueued : session.limits.numQueued = BitVec.ofNat 32 session.queued
  numCompleted : session.limits.numCompleted = BitVec.ofNat 32 session.completed
  inProgress : session.inProgress < 2 ^ 31
  limit_le : session.limits.limit ≤ config.maxLimit
  le_limit : session.settled = true → config.minLimit ≤ config.maxLimit →
    config.minLimit ≤ session.limits.limit

variable {config} {session : QueueLimitsSession}

/-- A `Reset` leaves nothing to know of what was before it. -/
theorem Invariant.reset (limits : DynamicQueueLimits) (now : Int) :
    Invariant config { limits := limits.reset now } where
  completed_le := Nat.le_refl 0
  numQueued := rfl
  numCompleted := rfl
  inProgress := Nat.two_pow_pos 31
  limit_le := Nat.zero_le _
  le_limit settled := by cases settled

/-- `Available` is what it has to be exactly where `m_adjLimit` is what its comment says. -/
theorem Invariant.accurate_iff (invariant : Invariant config session) :
    Accurate config session ↔
      session.limits.adjLimit = session.limits.limit + session.limits.numCompleted := by
  have highest : config.maxLimit.toNat ≤ dqlMaxLimit.toNat := config.maxLimit_le
  have limitLe : session.limits.limit.toNat ≤ config.maxLimit.toNat := invariant.limit_le
  have isHighest : dqlMaxLimit.toNat = 1879048192 := by decide
  obtain ⟨completedLe, numQueued, numCompleted, inProgress, -, leLimit⟩ := invariant
  unfold QueueLimitsSession.inProgress at inProgress
  have available : session.limits.available =
      session.limits.limit.toNat - (session.queued - session.completed : Int) ↔
        session.limits.adjLimit = session.limits.limit + session.limits.numCompleted := by
    unfold DynamicQueueLimits.available
    rw [numQueued, numCompleted, BitVec.toInt_eq_toNat_cond]
    constructor
    · intro same
      apply BitVec.eq_of_toNat_eq
      simp only [BitVec.toNat_sub, BitVec.toNat_ofNat, BitVec.toNat_add] at same ⊢
      have := session.limits.adjLimit.isLt
      split at same <;> omega
    · intro same
      rw [same]
      simp only [BitVec.toNat_sub, BitVec.toNat_ofNat, BitVec.toNat_add]
      split <;> omega
  exact ⟨fun accurate => available.mp accurate.available,
    fun adjusted => ⟨available.mpr adjusted, fun settled ordered =>
      ⟨leLimit settled ordered, limitLe⟩⟩⟩

theorem Invariant.queued (invariant : Invariant config session) {count : BitVec 32}
    (fits : session.inProgress + count.toNat < 2 ^ 31) :
    Invariant config (session.step config (.queued count)) where
  completed_le := Nat.le_add_right_of_le invariant.completed_le
  numQueued := by
    have before := invariant.numQueued
    simp only [step, DynamicQueueLimits.queued, before]
    bv_omega
  numCompleted := invariant.numCompleted
  inProgress := by
    have ordered := invariant.completed_le
    unfold QueueLimitsSession.inProgress at fits ⊢
    simp only [step]
    omega
  limit_le := invariant.limit_le
  le_limit := invariant.le_limit

theorem Invariant.completed (invariant : Invariant config session) {count : BitVec 32} {now : Int}
    (fits : count.toNat ≤ session.inProgress) :
    Invariant config (session.step config (.completed count now)) where
  completed_le := by
    have ordered := invariant.completed_le
    unfold QueueLimitsSession.inProgress at fits
    simp only [step]
    omega
  numQueued := DynamicQueueLimits.completed_numQueued.trans invariant.numQueued
  numCompleted := by
    have before := invariant.numCompleted
    simp only [step, DynamicQueueLimits.completed_numCompleted, before]
    bv_omega
  inProgress := Nat.lt_of_le_of_lt (Nat.sub_le_sub_left (Nat.le_add_right _ _) _)
    invariant.inProgress
  limit_le := DynamicQueueLimits.completed_limit_le
  le_limit _ ordered := DynamicQueueLimits.le_completed_limit ordered

theorem Invariant.step (invariant : Invariant config session) {call : DynamicQueueLimitsCall}
    (enabled : Enabled session call) : Invariant config (session.step config call) := by
  cases call with
  | queued count => exact invariant.queued enabled.2
  | completed count now => exact invariant.completed enabled
  | reset now => exact .reset session.limits now

/-- A step keeps `Available` right exactly where a `Reset` finds `m_adjLimit` zero. -/
theorem Accurate.step_iff (invariant : Invariant config session)
    (accurate : Accurate config session) {call : DynamicQueueLimitsCall}
    (enabled : Enabled session call) :
    Accurate config (session.step config call) ↔ ResetsAtZero session call := by
  rw [(invariant.step enabled).accurate_iff]
  have adjusted := invariant.accurate_iff.mp accurate
  cases call with
  | queued count => exact iff_of_true adjusted trivial
  | completed count now => exact iff_of_true rfl trivial
  | reset now =>
      have zero : (0 : BitVec 32) + 0 = 0 := rfl
      simp only [QueueLimitsSession.step, DynamicQueueLimits.reset, ResetsAtZero, zero]

/-- `Available` is right at all times exactly where every `Reset` finds `m_adjLimit` zero. -/
theorem always_accurate_iff (start : Int) {calls : List DynamicQueueLimitsCall}
    (legal : (sessions config).Legal { limits := .create start } calls) :
    (sessions config).Always (Accurate config) { limits := .create start } calls ↔
      (sessions config).Along ResetsAtZero { limits := .create start } calls := by
  have initial : Invariant config { limits := .create start } := .reset {} start
  constructor
  · intro always
    refine legal.along_of_always ?_ ?_ initial always
    · intro session call invariant enabled
      exact invariant.step enabled
    · intro session call invariant accurate enabled after
      exact (accurate.step_iff invariant enabled).mp after
  · intro along
    have preserved : ∀ session call, Invariant config session ∧ Accurate config session →
        (sessions config).Enabled session call → ResetsAtZero session call →
        Invariant config ((sessions config).step session call) ∧
          Accurate config ((sessions config).step session call) := by
      rintro session call ⟨invariant, accurate⟩ enabled guard
      exact ⟨invariant.step enabled, (accurate.step_iff invariant enabled).mpr guard⟩
    have kept := legal.always_of_along preserved ⟨initial, initial.accurate_iff.mpr rfl⟩ along
    exact kept.mono fun session both => both.2

/-- The attributes as they are unless they are set. -/
def defaults : DynamicQueueLimitsConfig where
  maxLimit := dqlMaxLimit
  minLimit := 0
  slackHoldTime := 1000000000
  maxLimit_le := BitVec.le_refl _

theorem always_accurate_iff_starved :
    let calls := [.queued 10, .completed 10 5, .queued 30, .completed 10 7]
    (sessions defaults).Legal { limits := .create 0 } calls ∧
      (sessions defaults).Always (Accurate defaults) { limits := .create 0 } calls := by
  have legal : (sessions defaults).Legal { limits := .create 0 }
      [.queued 10, .completed 10 5, .queued 30, .completed 10 7] := by decide
  exact ⟨legal, (always_accurate_iff 0 legal).mpr ⟨trivial, trivial, trivial, trivial, trivial⟩⟩

/-- After a `Reset` the limit of before is still available. -/
theorem not_always_accurate :
    let calls := [.queued 10, .completed 10 5, .reset 6]
    (sessions defaults).Legal { limits := .create 0 } calls ∧
      ¬ (sessions defaults).Always (Accurate defaults) { limits := .create 0 } calls := by
  refine ⟨by decide, fun always => ?_⟩
  have available := always.last.available
  exact absurd available (by decide)

end QueueLimitsSession

end Ns3.Network
