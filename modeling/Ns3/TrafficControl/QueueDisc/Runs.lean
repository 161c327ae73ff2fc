import Ns3.TrafficControl.QueueDisc.Peeking

/-!
The books of every queue disc over whole runs.

The one call that breaks them is a dequeue from the internal queue of a child that holds a
peeked item: `m_peeked` is set there, the child takes the dequeue for one that the peek has
asked for, and nobody counts it later.
-/

namespace Ns3.TrafficControl

open Library

namespace Tree

/-- The counters of a queue disc say what has happened. They are as wide as in the source, so
the numbers are those that fit in them. -/
structure Accounted (tree : Tree) (path : Path) : Prop where
  receivedPackets : (tree.discs path).stats.nTotalReceivedPackets =
    (tree.discs path).stats.nTotalEnqueuedPackets +
      (tree.discs path).stats.nTotalDroppedPacketsBeforeEnqueue
  receivedBytes : (tree.discs path).stats.nTotalReceivedBytes =
    (tree.discs path).stats.nTotalEnqueuedBytes +
      (tree.discs path).stats.nTotalDroppedBytesBeforeEnqueue
  nPackets_eq : (tree.discs path).nPackets =
    (tree.discs path).stats.nTotalEnqueuedPackets -
      (tree.discs path).stats.nTotalDequeuedPackets
  nBytes_eq : (tree.discs path).nBytes =
    ((tree.discs path).stats.nTotalEnqueuedBytes -
      (tree.discs path).stats.nTotalDequeuedBytes).setWidth 32
  nPackets_held : (tree.discs path).nPackets = BitVec.ofNat 32 (Multiset.card (tree.held path))
  nBytes_held : (tree.discs path).nBytes = BitVec.ofNat 32 (bytes (tree.held path))
  leaves_once : (tree.discs path).traces.enqueue =
    (tree.discs path).traces.dequeue + tree.held path
  dequeuedPackets : (tree.discs path).stats.nTotalDequeuedPackets =
    BitVec.ofNat 32 (Multiset.card (tree.discs path).traces.dequeue)
  dequeuedBytes : (tree.discs path).stats.nTotalDequeuedBytes =
    BitVec.ofNat 64 (bytes (tree.discs path).traces.dequeue)

end Tree

namespace Session

variable {tree : Tree} {path : Path}

/-- While nothing runs, nothing is owed. -/
theorem Accounts.accounted (accounts : Accounts ⟨tree, []⟩) (path : Path) :
    tree.Accounted path := by
  obtain ⟨tracks, received, conserved⟩ := accounts.balanced path
  simp only [Session.debt, Session.owed, List.map_nil, List.sum_nil, add_zero] at received conserved
  constructor
  case receivedPackets =>
    rw [tracks.receivedPackets, received, tracks.enqueuedPackets, tracks.droppedPackets,
      Multiset.card_add, BitVec.ofNat_add]
  case receivedBytes =>
    rw [tracks.receivedBytes, received, tracks.enqueuedBytes, tracks.droppedBytes, bytes_add,
      BitVec.ofNat_add]
  case nPackets_eq => exact tracks.nPackets_eq
  case nBytes_eq => exact tracks.nBytes_eq
  case nPackets_held =>
    rw [tracks.nPackets_eq, tracks.enqueuedPackets, tracks.dequeuedPackets, conserved,
      Multiset.card_add, BitVec.ofNat_add, add_sub_cancel_left]
  case nBytes_held =>
    rw [tracks.nBytes_eq, tracks.enqueuedBytes, tracks.dequeuedBytes, conserved, bytes_add,
      BitVec.ofNat_add, add_sub_cancel_left]
    exact BitVec.setWidth_ofNat_of_le (by decide) _
  case leaves_once => exact conserved
  case dequeuedPackets => exact tracks.dequeuedPackets
  case dequeuedBytes => exact tracks.dequeuedBytes

/-- A queue disc takes items out of the internal queues of a child only while the child holds
no peeked item. -/
def Careful (session : Session) : Action → Prop
  | .dequeueInternalOfClass index _ _ =>
      ∀ frame ∈ session.frames.head?, (session.tree.discs (index :: frame.path)).peeked = false
  | _ => True

instance decidableCareful (session : Session) (action : Action) :
    Decidable (session.Careful action) := by
  unfold Careful
  split <;> infer_instance

theorem Accounts.leave {frame : Frame} {rest : List Frame}
    (accounts : Accounts ⟨tree, frame :: rest⟩)
    (callable : Callable ⟨tree, frame :: rest⟩ frame .leave) :
    Accounts (leave ⟨tree, frame :: rest⟩ frame rest) := by
  obtain ⟨settled, hand⟩ := callable
  cases role : frame.role with
  | enqueue =>
      simp only [role] at hand
      simpa [Session.leave, role] using accounts.pop (by simp [role]) settled hand
  | browse =>
      simp only [role] at hand
      simpa [Session.leave, role] using accounts.pop (by simp [role]) settled hand
  | dequeue =>
      simp only [role] at hand
      cases held : frame.hand with
      | nil =>
          simpa [Session.leave, role, held] using accounts.pop (by simp [role]) settled held
      | cons item more =>
          obtain rfl : more = [] := by simpa [held] using hand
          simpa [Session.leave, role, held] using accounts.leaveDequeue_cons role settled held
  | peek =>
      simp only [role] at hand
      cases held : frame.hand with
      | nil => simpa [Session.leave, role, held] using accounts.leavePeek_nil role settled held
      | cons item more =>
          obtain rfl : more = [] := by simpa [held] using hand
          simpa [Session.leave, role, held] using accounts.leavePeek_cons role settled held

theorem Accounts.call {frame : Frame} {rest : List Frame} {action : Action}
    (accounts : Accounts ⟨tree, frame :: rest⟩)
    (callable : Callable ⟨tree, frame :: rest⟩ frame action)
    (careful : Careful ⟨tree, frame :: rest⟩ action) :
    Accounts (call ⟨tree, frame :: rest⟩ frame rest action) := by
  have present : frame.path ∈ tree.paths := accounts.shaped.present frame (by simp)
  have reaches : ∀ index, Reaches (frame :: rest) (index :: frame.path) :=
    fun index => ⟨⟨index, rfl⟩, accounts.shaped.chained⟩
  cases action with
  | enqueueInternal index position =>
      obtain ⟨pending, queue, found, within⟩ := callable
      obtain ⟨item, pending⟩ := Option.isSome_iff_exists.mp pending
      simpa [Session.call, pending] using accounts.enqueueInternal pending found within
  | enqueueClass index =>
      obtain ⟨pending, there⟩ := callable
      obtain ⟨item, pending⟩ := Option.isSome_iff_exists.mp pending
      simpa [Session.call, pending] using accounts.enqueueClass pending there
  | dropBeforeEnqueue reason =>
      obtain ⟨item, pending⟩ := Option.isSome_iff_exists.mp callable
      simpa [Session.call, pending] using accounts.dropBeforeEnqueue pending reason
  | dequeueInternal index position =>
      simp only [Session.call]
      split
      · exact accounts
      case h_2 item found =>
        refine accounts.dequeueInternal found present (List.suffix_refl _) ?_
        intro above reached
        simp [reached]
  | removeInternal index position => exact accounts.removeInternal present
  | dequeueClass index => exact accounts.dequeue (reaches index) callable
  | peekClass index => exact accounts.peek (reaches index) callable
  | browseClass index => exact accounts.push (reaches index) callable (by simp) (by simp)
  | dequeueInternalOfClass index queue position =>
      have unpeeked := careful frame rfl
      simp only [Session.call]
      split
      · exact accounts
      case h_2 item found =>
        refine accounts.dequeueInternal found callable (List.suffix_cons _ _) ?_
        intro above reached
        simpa [reached] using @Tree.shielded_cons_unpeeked _ _ _ above unpeeked
  | removeInternalOfClass index queue position => exact accounts.removeInternal callable
  | dropAfterDequeue chosen reason =>
      have found := List.getElem?_eq_getElem callable
      simpa [Session.call, found] using accounts.dropAfterDequeue found reason
  | leave => exact accounts.leave callable
  | _ => exact absurd callable id

/-- Every call keeps the books. -/
theorem Accounts.step {session : Session} {action : Action} (accounts : session.Accounts)
    (enabled : session.Enabled action) (careful : session.Careful action) :
    (session.step action).Accounts := by
  obtain ⟨tree, frames⟩ := session
  cases action with
  | addInternalQueue path maxSize => exact accounts.addInternalQueue enabled maxSize
  | addQueueDiscClass path index => exact accounts.addQueueDiscClass enabled.2
  | enqueueRoot item =>
      obtain rfl : frames = [] := enabled
      exact accounts.enqueueRoot
  | dequeueRoot =>
      obtain rfl : frames = [] := enabled
      exact accounts.dequeue rfl accounts.shaped.root
  | peekRoot =>
      obtain rfl : frames = [] := enabled
      exact accounts.peek rfl accounts.shaped.root
  | browseRoot =>
      obtain rfl : frames = [] := enabled
      exact accounts.push rfl accounts.shaped.root (by simp) (by simp)
  | requeueRoot item =>
      obtain ⟨rfl, requeued⟩ : frames = [] ∧ _ := enabled
      exact accounts.requeueRoot requeued
  | _ =>
      obtain ⟨frame, first, callable⟩ := enabled
      cases frames with
      | nil => simp at first
      | cons innermost rest =>
          obtain rfl : innermost = frame := by simpa using first
          exact accounts.call callable careful

theorem Accounts.start : start.Accounts := by
  constructor
  case shaped => constructor <;> simp [Session.start, Chained, QueueDisc.own]
  case balanced =>
    intro path
    refine ⟨QueueDisc.Tracks.fresh, ?_, ?_⟩
    · simp [Session.start, Session.debt]
    · simp [Session.start, Session.owed, Tree.held, QueueDisc.own]

/-- In every run in which no item is taken from the internal queue of a child that holds a
peeked item, the counters of all queue discs say what has happened whenever the root has
returned. -/
theorem always_accounted (actions : List Action) (legal : machine.Legal start actions)
    (careful : machine.Along Careful start actions) :
    machine.Always (fun session => session.frames = [] → ∀ path, session.tree.Accounted path)
      start actions := by
  have always : machine.Always Accounts start actions :=
    legal.always_of_along (fun _ _ accounts enabled guard => accounts.step enabled guard)
      Accounts.start careful
  refine always.mono ?_
  rintro ⟨tree, frames⟩ accounts rfl path
  exact accounts.accounted path

/-- A root with one class that has one internal queue, and two packets in it. -/
def twoPackets : List Action :=
  [.addQueueDiscClass [] 0, .addInternalQueue [0] (.packets 100),
    .enqueueRoot ⟨1, 100⟩, .enqueueClass 0, .enqueueInternal 0 0, .leave, .leave,
    .enqueueRoot ⟨2, 200⟩, .enqueueClass 0, .enqueueInternal 0 1, .leave, .leave]

/-- A third packet arrives, and the root drops one of the internal queue of its class. -/
def overload : List Action :=
  [.enqueueRoot ⟨3, 300⟩, .enqueueClass 0, .enqueueInternal 0 1, .leave,
    .dequeueInternalOfClass 0 0 0, .dropAfterDequeue 0 "Overlimit drop", .leave]

theorem always_accounted_overload :
    (machine.run start (twoPackets ++ [.peekRoot, .dequeueClass 0, .dequeueInternal 0 0, .leave,
        .leave] ++ overload)).frames = [] ∧
      machine.Always (fun session => session.frames = [] → ∀ path, session.tree.Accounted path)
        start (twoPackets ++ [.peekRoot, .dequeueClass 0, .dequeueInternal 0 0, .leave, .leave] ++
          overload) :=
  ⟨by decide, always_accounted _ (by decide) (by decide)⟩

/-- The root peeks at its class, which then holds a packet, and drops another one from the
internal queue of the class: nobody counts it as dequeued. -/
theorem not_always_accounted :
    ¬ ∀ actions, machine.Legal start actions →
      machine.Always (fun session => session.frames = [] → ∀ path, session.tree.Accounted path)
        start actions := by
  intro accounted
  have always := accounted (twoPackets ++ [.dequeueRoot, .peekClass 0, .dequeueInternal 0 0,
    .leave, .leave] ++ overload) (by decide)
  have wrong := (always.last (by decide) []).nPackets_held
  exact absurd wrong (by decide)

end Session

end Ns3.TrafficControl
