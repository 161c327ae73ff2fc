import Ns3.Library.Word

/-!
The links of a simulation that is split over ranks, and `CalculateLookAhead`.

A rank looks ahead by the least delay of its links to other ranks. A link has a device at both ends,
so that the rank that receives over a link looks ahead by its delay at most. A rank without such
links looks ahead as far as the rank that looks ahead farthest.
-/

namespace Ns3.Mpi

open Library

/-- `GetMaximumSimulationTime`. -/
def maximumSimulationTime : Int := 0x7fffffffffffffff

/-- A device at an end of a channel, and the rank of its node. -/
structure ChannelEnd (size : Nat) where
  device : Nat
  systemId : Fin size
  deriving DecidableEq, Repr

/-- `Channel`, with the attribute `Delay`. -/
structure Channel (size : Nat) where
  first : ChannelEnd size
  second : ChannelEnd size
  delay : Int
  deriving DecidableEq, Repr

/-- `NetDevice`. -/
structure NetDevice (size : Nat) where
  id : Nat
  isPointToPoint : Bool
  channel : Option (Channel size)
  deriving DecidableEq, Repr

/-- `Node`. -/
structure Node (size : Nat) where
  systemId : Fin size
  devices : List (NetDevice size)
  deriving DecidableEq, Repr

variable {size : Nat}

/-- The rank of the adjacent node. -/
def NetDevice.remoteSystemId (localNetDevice : NetDevice size) (channel : Channel size) :
    Fin size :=
  if channel.first.device = localNetDevice.id then channel.second.systemId
  else channel.first.systemId

/-- A device of a rank with a channel to another rank. -/
structure IsRemote (nodes : List (Node size)) (rank : Fin size) (device : NetDevice size)
    (channel : Channel size) : Prop where
  installed : ∃ node ∈ nodes, node.systemId = rank ∧ device ∈ node.devices
  pointToPoint : device.isPointToPoint = true
  attached : device.channel = some channel
  remote : device.remoteSystemId channel ≠ rank

/-- The nodes of a simulation. The channels between ranks have devices at both ends. -/
structure Network (size : Nat) where
  nodes : List (Node size)
  paired : ∀ {rank device channel}, IsRemote nodes rank device channel →
    ∃ peer, IsRemote nodes (device.remoteSystemId channel) peer channel
  delayed : ∀ {rank device channel}, IsRemote nodes rank device channel → 0 ≤ channel.delay

/-- Bound the look ahead by a device of the rank. -/
def boundByDevice (myId : Fin size) (lookAhead : Int) (localNetDevice : NetDevice size) : Int :=
  if localNetDevice.isPointToPoint then
    match localNetDevice.channel with
    | none => lookAhead
    | some channel =>
        if localNetDevice.remoteSystemId channel = myId then lookAhead
        else if channel.delay < lookAhead then channel.delay else lookAhead
  else lookAhead

/-- Bound the look ahead by the devices of a node of the rank. -/
def boundByNode (myId : Fin size) (lookAhead : Int) (node : Node size) : Int :=
  if node.systemId ≠ myId then lookAhead
  else node.devices.foldl (boundByDevice myId) lookAhead

/-- The first part of `CalculateLookAhead`, over what `BoundLookAhead` left. -/
def ownLookAhead (nodes : List (Node size)) (bound : Fin size → Int) (myId : Fin size) : Int :=
  if size ≤ 1 then 0 else nodes.foldl (boundByNode myId) (bound myId)

/-- What a rank contributes to the maximum. -/
def sendbuf (lookAhead : Int) : Int := if lookAhead = maximumSimulationTime then 0 else lookAhead

/-- The maximum of all contributions. -/
def recvbuf (nodes : List (Node size)) (bound : Fin size → Int) : Int :=
  (List.ofFn fun rank => sendbuf (ownLookAhead nodes bound rank)).foldl max 0

/-- `CalculateLookAhead`. -/
def calculateLookAhead (nodes : List (Node size)) (bound : Fin size → Int) (myId : Fin size) :
    Int :=
  let lookAhead := ownLookAhead nodes bound myId
  if lookAhead = maximumSimulationTime ∧ recvbuf nodes bound ≠ 0 then recvbuf nodes bound
  else lookAhead

/-- A fold that only lowers a bound ends below its start. -/
theorem foldl_le {Item : Type} {lower : Int → Item → Int}
    (lowers : ∀ bound item, lower bound item ≤ bound) (items : List Item) (bound : Int) :
    items.foldl lower bound ≤ bound := by
  induction items generalizing bound with
  | nil => exact le_refl bound
  | cons item items inductionHypothesis =>
      exact (inductionHypothesis (lower bound item)).trans (lowers bound item)

/-- A fold that only lowers a bound ends below what one of its items bounds by. -/
theorem foldl_le_of_mem {Item : Type} {lower : Int → Item → Int}
    (lowers : ∀ bound item, lower bound item ≤ bound) {items : List Item} {item : Item}
    (member : item ∈ items) {limit : Int} (limits : ∀ bound, lower bound item ≤ limit)
    (bound : Int) : items.foldl lower bound ≤ limit := by
  obtain ⟨before, after, rfl⟩ := List.append_of_mem member
  rw [List.foldl_append, List.foldl_cons]
  exact (foldl_le lowers after _).trans (limits _)

section Bounds

variable {myId : Fin size} {bound : Fin size → Int} {device : NetDevice size}
  {channel : Channel size}

theorem boundByDevice_le (lookAhead : Int) (localNetDevice : NetDevice size) :
    boundByDevice myId lookAhead localNetDevice ≤ lookAhead := by
  rw [boundByDevice]
  split
  · split
    · exact le_refl lookAhead
    · split
      · exact le_refl lookAhead
      · split
        · omega
        · exact le_refl lookAhead
  · exact le_refl lookAhead

theorem boundByDevice_le_delay (pointToPoint : device.isPointToPoint = true)
    (attached : device.channel = some channel) (remote : device.remoteSystemId channel ≠ myId)
    (lookAhead : Int) : boundByDevice myId lookAhead device ≤ channel.delay := by
  rw [boundByDevice, if_pos pointToPoint, attached]
  dsimp only
  rw [if_neg remote]
  split <;> omega

theorem boundByNode_le (lookAhead : Int) (node : Node size) :
    boundByNode myId lookAhead node ≤ lookAhead := by
  rw [boundByNode]
  split
  · exact le_refl lookAhead
  · exact foldl_le boundByDevice_le node.devices lookAhead

variable {network : Network size}

theorem ownLookAhead_le (remote : IsRemote network.nodes myId device channel) :
    ownLookAhead network.nodes bound myId ≤ channel.delay := by
  obtain ⟨node, member, belongs, installed⟩ := remote.installed
  rw [ownLookAhead]
  split
  · exact network.delayed remote
  · apply foldl_le_of_mem boundByNode_le member
    intro lookAhead
    rw [boundByNode, if_neg (not_not.mpr belongs)]
    exact foldl_le_of_mem boundByDevice_le installed
      (boundByDevice_le_delay remote.pointToPoint remote.attached remote.remote) lookAhead

theorem ownLookAhead_le_maximum (bounded : ∀ rank, bound rank ≤ maximumSimulationTime) :
    ownLookAhead network.nodes bound myId ≤ maximumSimulationTime := by
  rw [ownLookAhead]
  split
  · decide
  · exact (foldl_le boundByNode_le network.nodes (bound myId)).trans (bounded myId)

theorem boundByDevice_nonneg {node : Node size} (member : node ∈ network.nodes)
    (belongs : node.systemId = myId) (installed : device ∈ node.devices) {lookAhead : Int}
    (nonneg : 0 ≤ lookAhead) : 0 ≤ boundByDevice myId lookAhead device := by
  rw [boundByDevice]
  split
  · rename_i pointToPoint
    split
    · exact nonneg
    · rename_i channel attached
      split
      · exact nonneg
      · rename_i remote
        have delayed := network.delayed
          ⟨⟨node, member, belongs, installed⟩, pointToPoint, attached, remote⟩
        split
        · exact delayed
        · exact nonneg
  · exact nonneg

theorem ownLookAhead_nonneg (positive : ∀ rank, 0 ≤ bound rank) :
    0 ≤ ownLookAhead network.nodes bound myId := by
  rw [ownLookAhead]
  split
  · exact le_refl 0
  · apply List.foldlRecOn network.nodes (boundByNode myId) (positive myId)
    intro lookAhead nonneg node member
    rw [boundByNode]
    split
    · exact nonneg
    · rename_i belongs
      exact List.foldlRecOn node.devices (boundByDevice myId) nonneg
        fun lookAhead nonneg device installed =>
          boundByDevice_nonneg member (not_not.mp belongs) installed nonneg

theorem recvbuf_nonneg : 0 ≤ recvbuf network.nodes bound :=
  List.foldlRecOn _ max (le_refl 0) fun _ nonneg _ _ => le_max_of_le_left nonneg

theorem recvbuf_le (bounded : ∀ rank, bound rank ≤ maximumSimulationTime) :
    recvbuf network.nodes bound ≤ maximumSimulationTime := by
  apply List.foldlRecOn (motive := fun most => most ≤ maximumSimulationTime) _ max (by decide)
  intro most below contribution member
  obtain ⟨rank, rfl⟩ := List.mem_ofFn.mp member
  apply max_le below
  rw [sendbuf]
  split
  · decide
  · exact ownLookAhead_le_maximum bounded

/-- A rank does not look ahead beyond the delay of a link to it. -/
theorem calculateLookAhead_le (bounded : ∀ rank, bound rank ≤ maximumSimulationTime)
    (remote : IsRemote network.nodes myId device channel) :
    calculateLookAhead network.nodes bound myId ≤ channel.delay := by
  have own : ownLookAhead network.nodes bound myId ≤ channel.delay := ownLookAhead_le remote
  rw [calculateLookAhead]
  split
  · rename_i infinite
    rw [infinite.1] at own
    exact (recvbuf_le bounded).trans own
  · exact own

theorem calculateLookAhead_nonneg (positive : ∀ rank, 0 ≤ bound rank) :
    0 ≤ calculateLookAhead network.nodes bound myId := by
  rw [calculateLookAhead]
  split
  · exact recvbuf_nonneg
  · exact ownLookAhead_nonneg positive

end Bounds

end Ns3.Mpi
