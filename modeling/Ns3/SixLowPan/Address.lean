import Mathlib.Algebra.Order.Ring.Int
import Mathlib.Tactic.Common

/-!
IPv6 addresses, prefixes and link-layer addresses.

An address is its sixteen bytes. A prefix is sixteen bytes too, of which only the first bits
may be set.
-/

namespace Ns3.SixLowPan

/-- `ns3::Ipv6Address`. -/
structure Ipv6Address where
  bytes : List UInt8
  length_bytes : bytes.length = 16
  deriving DecidableEq, Repr

/-- The bits of a byte of an address that are behind the first bits of the address. -/
def addressBitMask (length index : Nat) : UInt8 :=
  if index < length / 8 then 0
  else if index = length / 8 then UInt8.ofNat (2 ^ (8 - length % 8) - 1)
  else 255

/-- `ns3::Ipv6Prefix`; the constructors assert that no bit behind the length is set. -/
structure Ipv6Prefix where
  bytes : List UInt8
  prefixLength : Nat
  length_bytes : bytes.length = 16
  prefixLength_le : prefixLength ≤ 128
  clear : ∀ index < 16, bytes.getD index 0 &&& addressBitMask prefixLength index = 0
  deriving DecidableEq, Repr

namespace Ipv6Address

/-- `GetAny`. -/
def any : Ipv6Address := ⟨List.replicate 16 0, rfl⟩

/-- `GetOnes`. -/
def ones : Ipv6Address := ⟨List.replicate 16 255, rfl⟩

/-- `IsMulticast`. -/
def isMulticast (self : Ipv6Address) : Bool := self.bytes.head? = some 0xff

/-- `CombinePrefix`, for the bytes of the prefix. -/
def combineBytes (self : Ipv6Address) (mask : List UInt8) (whole : mask.length = 16) :
    Ipv6Address :=
  ⟨List.zipWith (· &&& ·) self.bytes mask, by simp [self.length_bytes, whole]⟩

/-- `CombinePrefix`. -/
def combinePrefix (self : Ipv6Address) (contextPrefix : Ipv6Prefix) : Ipv6Address :=
  self.combineBytes contextPrefix.bytes contextPrefix.length_bytes

/-- `HasPrefix`. -/
def hasPrefix (self : Ipv6Address) (contextPrefix : Ipv6Prefix) : Bool :=
  self.combinePrefix contextPrefix = ones.combinePrefix contextPrefix

/-- The first half of `fe80::`. -/
def linkLocalHalf : List UInt8 := [0xfe, 0x80, 0, 0, 0, 0, 0, 0]

/-- `IsLinkLocal`. -/
def isLinkLocal (self : Ipv6Address) : Bool :=
  self.combineBytes (List.replicate 8 255 ++ List.replicate 8 0) rfl =
    ⟨linkLocalHalf ++ List.replicate 8 0, rfl⟩

end Ipv6Address

/-- The link-layer addresses that IPv6 addresses are made of. -/
inductive LinkAddress
  | mac64 (a b c d e f g h : UInt8)
  | mac48 (a b c d e f : UInt8)
  | mac16 (a b : UInt8)
  | mac8 (a : UInt8)
  deriving DecidableEq, Repr

namespace LinkAddress

/-- The second half of an autoconfigured address. -/
def interfaceId : LinkAddress → List UInt8
  | mac64 a b c d e f g h => [a, b, c, d, e, f, g, h]
  | mac48 a b c d e f => [a ^^^ 2, b, c, 0xff, 0xfe, d, e, f]
  | mac16 a b => [0, 0, 0, 0xff, 0xfe, 0, a, b]
  | mac8 a => [0, 0, 0, 0xff, 0xfe, 0, 0, a]

@[simp]
theorem length_interfaceId (address : LinkAddress) : address.interfaceId.length = 8 := by
  cases address <;> rfl

end LinkAddress

namespace Ipv6Address

/-- `MakeAutoconfiguredLinkLocalAddress`. -/
def makeAutoconfiguredLinkLocalAddress (addr : LinkAddress) : Ipv6Address :=
  ⟨linkLocalHalf ++ addr.interfaceId, by simp [linkLocalHalf]⟩

/-- The address that `MakeAutoconfiguredAddress` makes of a prefix. -/
def autoconfigured (addr : LinkAddress) (contextPrefix : Ipv6Address) : Ipv6Address :=
  ⟨contextPrefix.bytes.take 8 ++ addr.interfaceId, by simp [contextPrefix.length_bytes]⟩

/-- `MakeAutoconfiguredAddress`, which aborts where the address comes out as `::`. -/
def makeAutoconfiguredAddress (addr : LinkAddress) (contextPrefix : Ipv6Prefix) :
    Option Ipv6Address :=
  let address := autoconfigured addr (ones.combinePrefix contextPrefix)
  if address = any then none else some address

@[simp]
theorem getElem?_combineBytes (self : Ipv6Address) (mask : List UInt8) (whole : mask.length = 16)
    (index : Nat) :
    (self.combineBytes mask whole).bytes[index]? =
      (self.bytes[index]?).bind fun byte => (mask[index]?).map (byte &&& ·) := by
  unfold combineBytes
  rw [List.getElem?_zipWith]
  cases self.bytes[index]? with
  | none => rfl
  | some byte =>
      cases mask[index]? with
      | none => rfl
      | some other => rfl

@[ext]
theorem ext {a b : Ipv6Address} (same : a.bytes = b.bytes) : a = b := by
  cases a
  cases b
  simp only at same
  simp [same]

theorem take_append_drop (self : Ipv6Address) (count : Nat) :
    self.bytes.take count ++ self.bytes.drop count = self.bytes :=
  List.take_append_drop count self.bytes

/-- A prefix as an address. -/
theorem ones_combinePrefix (contextPrefix : Ipv6Prefix) :
    (ones.combinePrefix contextPrefix).bytes = contextPrefix.bytes := by
  apply List.ext_getElem?
  intro index
  unfold combinePrefix
  rw [getElem?_combineBytes]
  by_cases inside : index < 16
  · have isByte : index < contextPrefix.bytes.length := by
      rw [contextPrefix.length_bytes]
      exact inside
    have one : ones.bytes[index]? = some 255 := by
      rw [ones, List.getElem?_replicate, if_pos inside]
    have neutral (byte : UInt8) : 255 &&& byte = byte := by
      apply UInt8.toBitVec_inj.mp
      rw [UInt8.toBitVec_and]
      exact BitVec.allOnes_and
    rw [one, List.getElem?_eq_getElem isByte, Option.bind_some, Option.map_some, neutral]
  · have beyond : ones.bytes[index]? = none := by
      rw [ones, List.getElem?_replicate, if_neg inside]
    rw [beyond, List.getElem?_eq_none (by rw [contextPrefix.length_bytes]; omega)]
    rfl

theorem isLinkLocal_iff (self : Ipv6Address) :
    self.isLinkLocal = true ↔ self.bytes.take 8 = linkLocalHalf := by
  have neutral (byte : UInt8) : byte &&& 255 = byte := by
    apply UInt8.toBitVec_inj.mp
    rw [UInt8.toBitVec_and]
    exact BitVec.and_allOnes
  obtain ⟨bytes, whole⟩ := self
  match bytes, whole with
  | [a, b, c, d, e, f, g, h, i, j, k, l, m, n, o, p], _ =>
    simp [isLinkLocal, combineBytes, linkLocalHalf, List.replicate, neutral]

end Ipv6Address

end Ns3.SixLowPan
