import Ns3.Internet.Ipv6Fragmentation.Kernel

/-!
The extension headers of a packet.

A header that is read from the bytes of a well-formed header is that header. The loop of
`GetFragments` over the headers therefore finds the headers of a chain, and lets the
last one point to the fragment header.
-/

namespace Ns3.Internet

open Library

namespace Ipv6ExtensionHeader

/-- The length of the header is that of its data. -/
def WellFormed : Ipv6ExtensionHeader → Prop
  | hopByHop _ length options => options.optionData.length + 2 = (length.toNat + 1) * 8
  | routing _ length _ _ addresses =>
      length.toNat = 2 * addresses.length ∧ ∀ address ∈ addresses, address.length = 16
  | destination _ length options => options.optionData.length + 2 = (length.toNat + 1) * 8

instance : (header : Ipv6ExtensionHeader) → Decidable header.WellFormed
  | hopByHop _ _ _ => inferInstanceAs (Decidable (_ = _))
  | routing _ _ _ _ _ => inferInstanceAs (Decidable (_ ∧ _))
  | destination _ _ _ => inferInstanceAs (Decidable (_ = _))

section

variable {length : UInt8} {options : OptionField}

/-- The data of a whole header needs no padding. -/
theorem calculatePad_eq_zero (whole : options.optionData.length + 2 = (length.toNat + 1) * 8) :
    options.calculatePad = 0 := by
  have small := length.toNat_lt
  unfold OptionField.calculatePad wrapSub
  omega

theorem serializeOptions_eq (next : UInt8)
    (whole : options.optionData.length + 2 = (length.toNat + 1) * 8) :
    serializeOptions next options = next :: length :: options.optionData := by
  have units : (2 + options.serializedSize) / 8 - 1 = length.toNat := by
    unfold OptionField.serializedSize
    rw [calculatePad_eq_zero whole]
    omega
  unfold serializeOptions OptionField.serialize
  rw [units, UInt8.ofNat_toNat, calculatePad_eq_zero whole]
  simp [OptionField.padding]

theorem deserializeOptions_append (next : UInt8) (rest : List UInt8)
    (whole : options.optionData.length + 2 = (length.toNat + 1) * 8) :
    deserializeOptions (serializeOptions next options ++ rest) = some (next, length, options) := by
  have size : (length.toNat + 1) * 8 - 2 = options.optionData.length := by omega
  rw [serializeOptions_eq next whole, List.cons_append, List.cons_append, deserializeOptions,
    size, List.take_left, if_pos (by simp)]

theorem readAddresses_append {addresses : List (List UInt8)}
    (whole : ∀ address ∈ addresses, address.length = 16) (rest : List UInt8) :
    readAddresses addresses.length (addresses.flatten ++ rest) = some addresses := by
  induction addresses with
  | nil => rfl
  | cons address addresses inductionHypothesis =>
      have sixteen := whole address List.mem_cons_self
      have later := inductionHypothesis fun other member =>
        whole other (List.mem_cons_of_mem address member)
      rw [List.length_cons, readAddresses, List.flatten_cons, List.append_assoc,
        List.take_left' sixteen, List.drop_left' sixteen, later, if_pos (by simp [sixteen])]
      rfl

theorem doubled_eq {count : Nat} (even : length.toNat = 2 * count) :
    UInt8.ofNat count * 2 = length := by
  have small := length.toNat_lt
  apply UInt8.toNat_inj.mp
  rw [UInt8.toNat_mul, UInt8.toNat_ofNat']
  change count % 2 ^ 8 * 2 % 2 ^ 8 = length.toNat
  omega

end

variable {header : Ipv6ExtensionHeader}

theorem deserialize_append (wellFormed : header.WellFormed) (rest : List UInt8) :
    deserialize header.number (header.serialize ++ rest) = some header := by
  cases header with
  | hopByHop next length options =>
      change deserialize Ipv6Header.extHopByHop (serializeOptions next options ++ rest) = _
      unfold deserialize
      rw [if_pos rfl, deserializeOptions_append next rest wellFormed, Option.map_some]
  | routing next length type left addresses =>
      obtain ⟨even, whole⟩ := wellFormed
      have half : length.toNat / 2 = addresses.length := by omega
      change deserialize Ipv6Header.extRouting _ = _
      unfold deserialize serialize
      dsimp only
      rw [if_neg (by decide), if_pos rfl, doubled_eq even]
      simp only [List.cons_append, deserializeRouting]
      rw [half, readAddresses_append whole, Option.map_some]
  | destination next length options =>
      change deserialize Ipv6Header.extDestination (serializeOptions next options ++ rest) = _
      unfold deserialize
      rw [if_neg (by decide), if_neg (by decide), if_pos rfl,
        deserializeOptions_append next rest wellFormed, Option.map_some]

theorem length_flatten_addresses {addresses : List (List UInt8)}
    (whole : ∀ address ∈ addresses, address.length = 16) :
    addresses.flatten.length = addresses.length * 16 := by
  induction addresses with
  | nil => rfl
  | cons address addresses inductionHypothesis =>
      rw [List.flatten_cons, List.length_append, List.length_cons, whole address List.mem_cons_self,
        inductionHypothesis fun other member => whole other (List.mem_cons_of_mem address member)]
      omega

/-- The two ways to tell the size of a header. -/
theorem length_serialize (wellFormed : header.WellFormed) :
    header.serialize.length = header.serializedSize ∧
      header.serialize.length = header.getLength := by
  cases header with
  | hopByHop next length options =>
      have pad := calculatePad_eq_zero wellFormed
      unfold WellFormed at wellFormed
      simp only [serialize, serializeOptions_eq next wellFormed, serializedSize, getLength,
        OptionField.serializedSize, pad, List.length_cons, Nat.shiftLeft_eq]
      omega
  | routing next length type left addresses =>
      obtain ⟨even, whole⟩ := wellFormed
      simp only [serialize, serializedSize, getLength, List.length_cons, Nat.shiftLeft_eq,
        length_flatten_addresses whole]
      omega
  | destination next length options =>
      have pad := calculatePad_eq_zero wellFormed
      unfold WellFormed at wellFormed
      simp only [serialize, serializeOptions_eq next wellFormed, serializedSize, getLength,
        OptionField.serializedSize, pad, List.length_cons, Nat.shiftLeft_eq]
      omega

theorem removeHeader_append (wellFormed : header.WellFormed) (rest : List UInt8) :
    removeHeader header.number (header.serialize ++ rest) = some (header, rest) := by
  unfold removeHeader
  rw [deserialize_append wellFormed, Option.map_some, ← (length_serialize wellFormed).1,
    List.drop_left]

/-- The bytes of a list of headers. -/
def bytes (headers : List Ipv6ExtensionHeader) : List UInt8 := (headers.map serialize).flatten

@[simp]
theorem bytes_nil : bytes [] = [] := rfl

@[simp]
theorem bytes_cons (header : Ipv6ExtensionHeader) (headers : List Ipv6ExtensionHeader) :
    bytes (header :: headers) = header.serialize ++ bytes headers := rfl

@[simp]
theorem bytes_append (headers others : List Ipv6ExtensionHeader) :
    bytes (headers ++ others) = bytes headers ++ bytes others := by simp [bytes]

/-- The headers with a last one that points to the fragment header. -/
def pointToFragment : List Ipv6ExtensionHeader → List Ipv6ExtensionHeader
  | [] => []
  | [last] => [last.setNextHeader Ipv6Header.extFragmentation]
  | header :: next :: rest => header :: pointToFragment (next :: rest)

/-- The type of what follows the headers. -/
def followedBy : UInt8 → List Ipv6ExtensionHeader → UInt8
  | next, [] => next
  | _, header :: rest => followedBy header.nextHeader rest

theorem length_setNextHeader (next : UInt8) (header : Ipv6ExtensionHeader) :
    (header.setNextHeader next).serialize.length = header.serialize.length := by
  cases header <;> rfl

theorem getLength_setNextHeader (next : UInt8) (header : Ipv6ExtensionHeader) :
    (header.setNextHeader next).getLength = header.getLength := by
  cases header <;> rfl

theorem length_bytes_pointToFragment (headers : List Ipv6ExtensionHeader) :
    (bytes (pointToFragment headers)).length = (bytes headers).length := by
  induction headers with
  | nil => rfl
  | cons header rest inductionHypothesis =>
      cases rest with
      | nil => simp [pointToFragment, length_setNextHeader]
      | cons next rest =>
          rw [pointToFragment, bytes_cons, bytes_cons, List.length_append, List.length_append,
            inductionHypothesis]

theorem getLength_pointToFragment (headers : List Ipv6ExtensionHeader) :
    (pointToFragment headers).map getLength = headers.map getLength := by
  induction headers with
  | nil => rfl
  | cons header rest inductionHypothesis =>
      cases rest with
      | nil => simp [pointToFragment, getLength_setNextHeader]
      | cons next rest =>
          rw [pointToFragment, List.map_cons, inductionHypothesis]
          rfl

end Ipv6ExtensionHeader

namespace Ipv6ExtensionFragment

open Ipv6ExtensionHeader

/-- The headers are those of the unfragmentable part, each one announced by the one before,
and the payload starts with something else. -/
def Chained : UInt8 → List Ipv6ExtensionHeader → List UInt8 → Prop
  | next, [], payload => moreHeader next payload = false
  | next, header :: rest, payload =>
      header.number = next ∧ header.WellFormed ∧
        moreHeader next (bytes (header :: rest) ++ payload) = true ∧
        Chained header.nextHeader rest payload

instance decidableChained : (next : UInt8) → (headers : List Ipv6ExtensionHeader) →
    (payload : List UInt8) → Decidable (Chained next headers payload)
  | next, [], payload => inferInstanceAs (Decidable (moreHeader next payload = false))
  | next, header :: rest, payload =>
      have : Decidable (Chained header.nextHeader rest payload) :=
        decidableChained header.nextHeader rest payload
      inferInstanceAs (Decidable (header.number = next ∧ header.WellFormed ∧
        moreHeader next (bytes (header :: rest) ++ payload) = true ∧
        Chained header.nextHeader rest payload))

variable {next : UInt8} {headers : List Ipv6ExtensionHeader} {payload : List UInt8}

theorem Chained.wellFormed (chained : Chained next headers payload) :
    ∀ header ∈ headers, header.WellFormed := by
  induction headers generalizing next with
  | nil => exact fun _ member => nomatch member
  | cons header rest inductionHypothesis =>
      intro other member
      rcases List.mem_cons.mp member with rfl | later
      · exact chained.2.1
      · exact inductionHypothesis chained.2.2.2 other later

/-- The loop over the headers finds those of the chain. -/
theorem Chained.removeHeaders {header : Ipv6ExtensionHeader}
    (chained : Chained next (header :: headers) payload) {turns : Nat}
    (enough : headers.length < turns) :
    removeHeaders turns next (bytes (header :: headers) ++ payload) =
      some (pointToFragment (header :: headers), followedBy next (header :: headers), payload) := by
  induction headers generalizing next header turns with
  | nil =>
      obtain ⟨rfl, wellFormed, -, stop⟩ := chained
      cases turns with
      | zero => exact absurd enough (Nat.not_lt_zero _)
      | succ turns =>
          unfold Chained at stop
          rw [Ipv6ExtensionFragment.removeHeaders, bytes_cons, bytes_nil, List.append_nil,
            removeHeader_append wellFormed]
          simp [stop, pointToFragment, followedBy]
  | cons second rest inductionHypothesis =>
      obtain ⟨rfl, wellFormed, -, later⟩ := chained
      cases turns with
      | zero => exact absurd enough (Nat.not_lt_zero _)
      | succ turns =>
          have found := inductionHypothesis later (Nat.lt_of_succ_lt_succ enough)
          rw [Ipv6ExtensionFragment.removeHeaders, bytes_cons, List.append_assoc,
            removeHeader_append wellFormed]
          simp only [Option.bind_eq_bind, Option.bind_some, later.2.2.1, if_true, found,
            Option.pure_def]
          rfl

/-- `AddHeader` puts each header in front, so that the fragment has the headers in reverse
order. -/
theorem addHeaders_eq (headers : List Ipv6ExtensionHeader) (fragment : List UInt8) :
    addHeaders headers fragment = bytes headers.reverse ++ fragment := by
  unfold addHeaders
  induction headers generalizing fragment with
  | nil => rfl
  | cons header rest inductionHypothesis =>
      rw [List.foldl_cons, inductionHypothesis, List.reverse_cons, bytes_append]
      simp

end Ipv6ExtensionFragment

end Ns3.Internet
