import Ns3.Internet.GlobalRouting.Kernel

/-!
The entries of IPv4 routing tables, and what the routing protocols ask `ns3::Ipv4`.
-/

namespace Ns3.Internet

namespace Ipv4Mask

/-- `Ipv4Mask::IsMatch`. -/
def isMatch (mask a b : Ipv4Address) : Bool := a &&& mask == b &&& mask

/-- The loop of `GetPrefixLength`, which shifts the bits of the mask out. -/
def shiftOut : Nat → Ipv4Address → Nat
  | 0, _ => 0
  | turns + 1, mask => if mask ≠ 0 then shiftOut turns (mask <<< 1) + 1 else 0

/-- `Ipv4Mask::GetPrefixLength`; 32 shifts leave no bit. -/
def getPrefixLength (mask : Ipv4Address) : Nat := shiftOut 32 mask

theorem shiftOut_le (turns : Nat) (mask : Ipv4Address) : shiftOut turns mask ≤ turns := by
  induction turns generalizing mask with
  | zero => exact Nat.le_refl 0
  | succ turns inductionHypothesis =>
      rw [shiftOut]
      split
      · exact Nat.succ_le_succ (inductionHypothesis _)
      · exact Nat.zero_le _

theorem getPrefixLength_le (mask : Ipv4Address) : getPrefixLength mask ≤ 32 := shiftOut_le 32 mask

end Ipv4Mask

/-- `Ipv4Address::IsLocalMulticast`. -/
def Ipv4Address.isLocalMulticast (address : Ipv4Address) : Bool :=
  address &&& 0xffffff00 == 0xe0000000

/-- An `Ipv4RoutingTableEntry`. -/
structure Ipv4RoutingTableEntry where
  dest : Ipv4Address
  destNetworkMask : Ipv4Address
  gateway : Ipv4Address
  interface : BitVec 32
  deriving DecidableEq, Repr

namespace Ipv4RoutingTableEntry

/-- `CreateHostRouteTo`. -/
def createHostRouteTo (dest nextHop : Ipv4Address) (interface : BitVec 32) :
    Ipv4RoutingTableEntry :=
  ⟨dest, BitVec.allOnes 32, nextHop, interface⟩

/-- `CreateNetworkRouteTo`. -/
def createNetworkRouteTo (network networkMask nextHop : Ipv4Address) (interface : BitVec 32) :
    Ipv4RoutingTableEntry :=
  ⟨network, networkMask, nextHop, interface⟩

/-- `IsHost`. -/
def isHost (entry : Ipv4RoutingTableEntry) : Bool :=
  entry.destNetworkMask == BitVec.allOnes 32

end Ipv4RoutingTableEntry

/-- An `Ipv4Route`. -/
structure Ipv4Route (Device : Type) where
  destination : Ipv4Address
  source : Ipv4Address
  gateway : Ipv4Address
  outputDevice : Device
  deriving DecidableEq, Repr

/-- What a lookup asks the `Ipv4` of the node. -/
structure Ipv4 (Device : Type) where
  getNetDevice : BitVec 32 → Device
  getInterfaceForDevice : Device → BitVec 32
  getAddress : BitVec 32 → Ipv4Address
  sourceAddressSelection : BitVec 32 → Ipv4Address → Ipv4Address

end Ns3.Internet
