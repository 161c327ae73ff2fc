import Ns3.Internet.TcpTxBuffer.Kernel
import Mathlib.Data.List.Basic

/-!
The stream of bytes in the transmission buffer.

`GetPacketFromList` edits a list by splitting an item in two and by merging two items
that follow each other. `Walk.Explained` says what one walk over the list does, and
`getPacketFromList_rule` is the only induction over the walks.
-/

namespace Ns3.Internet

open Library Network SequenceSpace

namespace TcpTxBuffer

/-- The bytes of a list of items. -/
def bytes (list : List TcpTxItem) : List UInt8 := (list.map TcpTxItem.packet).flatten

section

variable (item : TcpTxItem) (list others : List TcpTxItem)

@[simp]
theorem bytes_nil : bytes [] = [] := rfl

@[simp]
theorem bytes_cons : bytes (item :: list) = item.packet ++ bytes list := rfl

@[simp]
theorem bytes_append : bytes (list ++ others) = bytes list ++ bytes others := by simp [bytes]

end

/-- What a walk over the list does: it finds an item that starts at `seq`, or splits it at its
end, or else it splits the item that holds `seq` or merges the one that starts there with
the next one. -/
def Walk.Explained (node numBytes : Nat) (seq begin : SequenceNumber32) (list : List TcpTxItem) :
    Walk → Prop
  | .fatal => True
  | .found edited index => ∃ before item after, list = before ++ item :: after ∧
      index = before.length ∧ seq = SequenceSpace.add begin (bytes before).length ∧
      (edited = list ∨ numBytes < item.packet.length ∧ edited = before ++
        (item.split numBytes node).1 :: (item.split numBytes node).2 :: after)
  | .again edited uncounted =>
      (∃ before item after count, list = before ++ item :: after ∧ 0 < count ∧
        count < item.packet.length ∧
        seq = SequenceSpace.add begin ((bytes before).length + count) ∧
        edited = before ++ (item.split count node).1 :: (item.split count node).2 :: after ∧
        uncounted = 0) ∨
      (∃ before item next after, list = before ++ item :: next :: after ∧
        item.packet.length < numBytes ∧
        seq = SequenceSpace.add begin (bytes before).length ∧
        edited = before ++ item.merge next :: after ∧ uncounted = item.uncounted next)

theorem Walk.Explained.cons {node numBytes : Nat} {seq begin : SequenceNumber32}
    {list : List TcpTxItem} (item : TcpTxItem) {result : Walk}
    (explained : result.Explained node numBytes seq
      (SequenceSpace.add begin item.packet.length) list) :
    (result.cons item).Explained node numBytes seq begin (item :: list) := by
  cases result with
  | fatal => trivial
  | found edited index =>
      obtain ⟨before, found, after, rfl, rfl, rfl, same | ⟨shorter, rfl⟩⟩ := explained
      · refine ⟨item :: before, found, after, rfl, rfl, ?_, .inl (congrArg _ same)⟩
        rw [SequenceNumber32.add_add, bytes_cons, List.length_append]
      · refine ⟨item :: before, found, after, rfl, rfl, ?_, .inr ⟨shorter, rfl⟩⟩
        rw [SequenceNumber32.add_add, bytes_cons, List.length_append]
  | again edited uncounted =>
      rcases explained with ⟨before, found, after, count, rfl, some, shorter, rfl, rfl, rfl⟩ |
        ⟨before, found, next, after, rfl, shorter, rfl, rfl, rfl⟩
      · refine .inl ⟨item :: before, found, after, count, rfl, some, shorter, ?_, rfl, rfl⟩
        rw [SequenceNumber32.add_add, bytes_cons, List.length_append, Nat.add_assoc]
      · refine .inr ⟨item :: before, found, next, after, rfl, shorter, ?_, rfl, rfl⟩
        rw [SequenceNumber32.add_add, bytes_cons, List.length_append]

theorem walkEnd_explained {node numBytes : Nat} (some : 0 < numBytes) (small : numBytes < 2 ^ 32)
    {seq : SequenceNumber32} {item : TcpTxItem} {rest : List TcpTxItem}
    (itemSmall : item.packet.length < 2 ^ 32)
    (within : lt seq (SequenceSpace.add seq item.packet.length) = true) :
    (walkEnd node numBytes seq item rest).Explained node numBytes seq seq (item :: rest) := by
  have start : seq = SequenceSpace.add seq (bytes []).length :=
    (SequenceNumber32.add_zero seq).symm
  unfold walkEnd
  split
  · split
    · exact ⟨[], item, rest, rfl, rfl, start, .inl rfl⟩
    · split
      next shorter => exact ⟨[], item, rest, rfl, rfl, start, .inr ⟨shorter, rfl⟩⟩
      next => trivial
  next beyond =>
    cases rest with
    | nil => exact ⟨[], item, [], rfl, rfl, start, .inl rfl⟩
    | cons next others =>
        exact .inr ⟨[], item, next, others, rfl,
          SequenceNumber32.lt_of_not_le itemSmall some small within beyond, start, rfl, rfl⟩

theorem walk_explained {node numBytes : Nat} (some : 0 < numBytes) (small : numBytes < 2 ^ 32)
    {seq begin : SequenceNumber32} {list : List TcpTxItem} (fits : (bytes list).length < 2 ^ 32) :
    (walk node numBytes seq list begin).Explained node numBytes seq begin list := by
  induction list generalizing begin with
  | nil => trivial
  | cons item rest inductionHypothesis =>
      rw [bytes_cons, List.length_append] at fits
      rw [walk]
      dsimp only
      split
      next within =>
        split
        next same =>
          subst same
          exact walkEnd_explained some small (by omega) within
        next =>
          split
          next after =>
            obtain ⟨positive, shorter⟩ := SequenceNumber32.sub_lt_of_within (by omega) after within
            refine .inl ⟨[], item, rest, sub seq begin, rfl, positive, shorter, ?_, rfl, rfl⟩
            rw [bytes_nil, List.length_nil, Nat.zero_add, SequenceNumber32.add_sub]
          next => trivial
      next => exact (inductionHypothesis (by omega)).cons item

/-- The invariant rule for the walks of `GetPacketFromList`. -/
theorem getPacketFromList_rule {start seq : SequenceNumber32} {numBytes : Nat}
    (Invariant : Edit → Prop) (Property : Edit → Nat → Prop)
    (again : ∀ edit list uncounted, Invariant edit →
      walk edit.nodes numBytes seq edit.list start = .again list uncounted →
      Invariant ⟨list, wrapSub 32 edit.retrans uncounted, edit.nodes + 1⟩)
    (found : ∀ edit list index, Invariant edit →
      walk edit.nodes numBytes seq edit.list start = .found list index →
      Property ⟨list, edit.retrans, edit.nodes + 1⟩ index)
    {attempts : Nat} {edit result : Edit} {index : Nat} (initial : Invariant edit)
    (gives : getPacketFromList start numBytes seq attempts edit = some (result, index)) :
    Property result index := by
  induction attempts generalizing edit with
  | zero => exact nomatch gives
  | succ attempts inductionHypothesis =>
      rw [getPacketFromList] at gives
      split at gives
      next list _ walked =>
        cases gives
        exact found edit list index initial walked
      next list uncounted walked =>
        exact inductionHypothesis (again edit list uncounted initial walked) gives
      next => exact nomatch gives

/-- No item is empty. -/
def Filled (list : List TcpTxItem) : Prop := ∀ item ∈ list, item.packet ≠ []

/-- Each item starts where the one before it ends. -/
def Consecutive : SequenceNumber32 → List TcpTxItem → Prop
  | _, [] => True
  | begin, item :: rest =>
      item.startSeq = begin ∧ Consecutive (SequenceSpace.add begin item.packet.length) rest

section

variable {begin seq : SequenceNumber32} {list others edited : List TcpTxItem}
  {node numBytes uncounted index : Nat}

theorem consecutive_append :
    Consecutive begin (list ++ others) ↔
      Consecutive begin list ∧
        Consecutive (SequenceSpace.add begin (bytes list).length) others := by
  induction list generalizing begin with
  | nil => simp [Consecutive, SequenceNumber32.add_zero]
  | cons item rest inductionHypothesis =>
      simp only [List.cons_append, Consecutive, inductionHypothesis, bytes_cons,
        List.length_append, SequenceNumber32.add_add, and_assoc]

/-- The list has the same bytes, no empty item, and items that still follow each other. -/
structure Intact (begin : SequenceNumber32) (list edited : List TcpTxItem) : Prop where
  bytes : bytes edited = bytes list
  filled : Filled list → Filled edited
  consecutive : Consecutive begin list → Consecutive begin edited

theorem Intact.refl (begin : SequenceNumber32) (list : List TcpTxItem) :
    Intact begin list list := ⟨rfl, id, id⟩

theorem Intact.trans {middle : List TcpTxItem} (first : Intact begin list middle)
    (second : Intact begin middle edited) : Intact begin list edited :=
  ⟨second.bytes.trans first.bytes, second.filled ∘ first.filled,
    second.consecutive ∘ first.consecutive⟩

theorem intact_split (before : List TcpTxItem) (item : TcpTxItem) (after : List TcpTxItem)
    {count : Nat} (some : 0 < count) (shorter : count < item.packet.length) :
    Intact begin (before ++ item :: after)
      (before ++ (item.split count node).1 :: (item.split count node).2 :: after) where
  bytes := by
    simp [TcpTxItem.split, ← List.append_assoc (List.take _ _)]
  filled whole other member := by
    simp only [List.mem_append, List.mem_cons] at member
    rcases member with old | rfl | rfl | old
    · exact whole other (List.mem_append_left _ old)
    · simp only [TcpTxItem.split, ne_eq, List.take_eq_nil_iff]
      rintro (none | none)
      · omega
      · exact absurd shorter (by simp [none])
    · simp only [TcpTxItem.split, ne_eq, List.drop_eq_nil_iff]
      omega
    · exact whole other (by simp [old])
  consecutive follows := by
    simp only [consecutive_append, Consecutive, TcpTxItem.split, List.length_take,
      List.length_drop, SequenceNumber32.add_add] at follows ⊢
    refine ⟨follows.1, follows.2.1, ?_, ?_⟩
    · rw [follows.2.1, SequenceNumber32.add_add, Nat.min_eq_left (Nat.le_of_lt shorter)]
    · convert follows.2.2 using 2
      omega

theorem intact_merge (before : List TcpTxItem) (item next : TcpTxItem) (after : List TcpTxItem) :
    Intact begin (before ++ item :: next :: after) (before ++ item.merge next :: after) where
  bytes := by simp only [bytes_append, bytes_cons, TcpTxItem.merge, List.append_assoc]
  filled whole other member := by
    simp only [List.mem_append, List.mem_cons] at member
    rcases member with old | rfl | old
    · exact whole other (List.mem_append_left _ old)
    · have itemSome := whole item (by simp)
      simp [TcpTxItem.merge, itemSome]
    · exact whole other (by simp [old])
  consecutive follows := by
    simp only [consecutive_append, Consecutive, TcpTxItem.merge, List.length_append,
      SequenceNumber32.add_add] at follows ⊢
    refine ⟨follows.1, follows.2.1, ?_⟩
    convert follows.2.2.2 using 2
    omega

theorem Walk.Explained.again_intact
    (explained : (Walk.again edited uncounted).Explained node numBytes seq begin list) :
    Intact begin list edited := by
  rcases explained with ⟨before, item, after, count, rfl, some, shorter, -, rfl, -⟩ |
    ⟨before, item, next, after, rfl, -, -, rfl, -⟩
  · exact intact_split before item after some shorter
  · exact intact_merge before item next after

theorem Walk.Explained.found_intact (some : 0 < numBytes)
    (explained : (Walk.found edited index).Explained node numBytes seq begin list) :
    Intact begin list edited := by
  obtain ⟨before, item, after, rfl, -, -, rfl | ⟨shorter, rfl⟩⟩ := explained
  · exact Intact.refl begin _
  · exact intact_split before item after some shorter

/-- The item at the index starts at `seq`. -/
def FoundAt (begin seq : SequenceNumber32) (list : List TcpTxItem) (index : Nat) : Prop :=
  ∃ before item after, list = before ++ item :: after ∧ index = before.length ∧
    seq = SequenceSpace.add begin (TcpTxBuffer.bytes before).length

theorem Walk.Explained.foundAt
    (explained : (Walk.found edited index).Explained node numBytes seq begin list) :
    FoundAt begin seq edited index := by
  obtain ⟨before, item, after, rfl, rfl, rfl, rfl | ⟨-, rfl⟩⟩ := explained
  · exact ⟨before, item, after, rfl, rfl, rfl⟩
  · exact ⟨before, _, _, rfl, rfl, rfl⟩

/-- `GetPacketFromList` keeps the bytes of the list, and finds an item that starts at
`seq`. -/
theorem getPacketFromList_intact (some : 0 < numBytes) (small : numBytes < 2 ^ 32)
    {attempts : Nat} {edit result : Edit} (fits : (TcpTxBuffer.bytes edit.list).length < 2 ^ 32)
    (gives : getPacketFromList begin numBytes seq attempts edit = .some (result, index)) :
    Intact begin edit.list result.list ∧ FoundAt begin seq result.list index := by
  refine getPacketFromList_rule (fun later => Intact begin edit.list later.list)
    (fun later index => Intact begin edit.list later.list ∧ FoundAt begin seq later.list index)
    (fun later list uncounted intact walked => ?_) (fun later list index intact walked => ?_)
    (Intact.refl begin edit.list) gives
  · have explained := @walk_explained later.nodes numBytes some small seq begin later.list
      (intact.bytes ▸ fits)
    rw [walked] at explained
    exact intact.trans explained.again_intact
  · have explained := @walk_explained later.nodes numBytes some small seq begin later.list
      (intact.bytes ▸ fits)
    rw [walked] at explained
    exact ⟨intact.trans (explained.found_intact some), explained.foundAt⟩

end

/-- The two lists hold the bytes, and the sizes are those of the lists. -/
structure Coherent (content : List UInt8) (buffer : TcpTxBuffer) : Prop where
  holds : bytes buffer.sentList ++ bytes buffer.appList = content
  consecutive : Consecutive buffer.firstByteSeq buffer.sentList
  sentFilled : Filled buffer.sentList
  appFilled : Filled buffer.appList
  size : buffer.size = content.length
  sentSize : buffer.sentSize = (bytes buffer.sentList).length
  fits : buffer.size ≤ buffer.maxBuffer ∧ buffer.maxBuffer < 2 ^ 32

variable {self : TcpTxBuffer} {content : List UInt8}

theorem coherent_create (n : SequenceNumber32) {maxBuffer : Nat} (dupAckThresh : Nat)
    (small : maxBuffer < 2 ^ 32) : Coherent [] (create n maxBuffer dupAckThresh) where
  holds := rfl
  consecutive := trivial
  sentFilled _ member := nomatch member
  appFilled _ member := nomatch member
  size := rfl
  sentSize := rfl
  fits := ⟨Nat.zero_le _, small⟩

theorem Coherent.sent_le (coherent : Coherent content self) :
    (bytes self.sentList).length + (bytes self.appList).length = self.size := by
  rw [coherent.size, ← coherent.holds, List.length_append]

theorem Coherent.add (coherent : Coherent content self) (p : List UInt8) :
    Coherent (if (self.add p).2 then content ++ p else content) (self.add p).1 := by
  obtain ⟨fits, small⟩ := coherent.fits
  have size := coherent.size
  unfold TcpTxBuffer.add available
  rw [wrapSub_of_le fits small]
  split
  next accepted =>
    split
    next some =>
      dsimp only
      rw [if_pos rfl, wrap_of_lt (by omega)]
      refine ⟨?_, coherent.consecutive, coherent.sentFilled, ?_, ?_, coherent.sentSize, ?_⟩
      · rw [← coherent.holds]
        simp
      · intro item member
        rcases List.mem_append.mp member with old | new
        · exact coherent.appFilled item old
        · obtain rfl := List.mem_singleton.mp new
          exact List.length_pos_iff.mp some
      · dsimp only
        rw [List.length_append, size]
      · exact ⟨by dsimp only; omega, small⟩
    next none =>
      dsimp only
      have empty : p = [] := List.eq_nil_of_length_eq_zero (by omega)
      rw [if_pos rfl, empty, List.append_nil]
      exact coherent
  next =>
    dsimp only
    rw [if_neg (by decide)]
    exact coherent

/-- A new sent list with the same bytes. -/
theorem Coherent.edit (coherent : Coherent content self) {sentList : List TcpTxItem}
    (intact : Intact self.firstByteSeq self.sentList sentList)
    {buffer : TcpTxBuffer}
    (same : buffer = { self with
      sentList := sentList
      highestSack := buffer.highestSack
      lostOut := buffer.lostOut
      sackedOut := buffer.sackedOut
      retrans := buffer.retrans
      nodes := buffer.nodes }) :
    Coherent content buffer := by
  rw [same]
  refine ⟨?_, intact.consecutive coherent.consecutive, intact.filled coherent.sentFilled,
    coherent.appFilled, coherent.size, ?_, coherent.fits⟩
  · dsimp only
    rw [intact.bytes]
    exact coherent.holds
  · dsimp only
    rw [intact.bytes]
    exact coherent.sentSize

/-- The start and the bytes of the items. -/
def shape (list : List TcpTxItem) : List (SequenceNumber32 × List UInt8) :=
  list.map fun item => (item.startSeq, item.packet)

theorem bytes_eq_of_shape {list others : List TcpTxItem} (same : shape list = shape others) :
    bytes list = bytes others := by
  have packets : ∀ items : List TcpTxItem, bytes items = ((shape items).map Prod.snd).flatten := by
    intro items
    simp [bytes, shape, Function.comp_def]
  rw [packets, packets, same]

/-- Flags do not matter for the bytes. -/
theorem intact_of_shape {list others : List TcpTxItem} (begin : SequenceNumber32)
    (same : shape others = shape list) : Intact begin list others := by
  refine ⟨bytes_eq_of_shape same, fun whole item member => ?_, fun follows => ?_⟩
  · have inShape : (item.startSeq, item.packet) ∈ shape list :=
      same ▸ List.mem_map_of_mem member
    obtain ⟨other, otherMember, equal⟩ := List.mem_map.mp inShape
    have packets : other.packet = item.packet := congrArg Prod.snd equal
    exact packets ▸ whole other otherMember
  · induction others generalizing list begin with
    | nil => trivial
    | cons item rest inductionHypothesis =>
        cases list with
        | nil => exact nomatch same
        | cons other others =>
            obtain ⟨first, later⟩ := List.cons.inj same
            have starts : item.startSeq = other.startSeq := congrArg Prod.fst first
            have packets : item.packet = other.packet := congrArg Prod.snd first
            refine ⟨starts.trans follows.1, ?_⟩
            rw [packets]
            exact inductionHypothesis _ later follows.2

theorem eq_nil_of_bytes {list : List TcpTxItem} (filled : Filled list)
    (none : (bytes list).length = 0) : list = [] := by
  cases list with
  | nil => rfl
  | cons item rest =>
      have some := List.length_pos_iff.mpr (filled item List.mem_cons_self)
      rw [bytes_cons, List.length_append] at none
      omega

section

variable {seq : SequenceNumber32} {numBytes : Nat} {after : TcpTxBuffer}

theorem limitToFlags_le (seq : SequenceNumber32) (s : Nat) (list : List TcpTxItem) :
    limitToFlags seq s list ≤ s := by
  induction list with
  | nil => exact Nat.le_refl s
  | cons item rest inductionHypothesis =>
      rw [limitToFlags]
      split
      · unfold limitAt
        split
        · exact Nat.min_le_left _ _
        · split
          · exact Nat.min_le_left _ _
          · exact Nat.min_le_left _ _
      · exact inductionHypothesis

theorem limitToFlags_pos (seq : SequenceNumber32) {s : Nat} (some : 0 < s) {list : List TcpTxItem} (filled : Filled list)
    (fits : (bytes list).length < 2 ^ 32) : 0 < limitToFlags seq s list := by
  induction list with
  | nil => exact some
  | cons item rest inductionHypothesis =>
      have itemSome := List.length_pos_iff.mpr (filled item List.mem_cons_self)
      rw [bytes_cons, List.length_append] at fits
      rw [limitToFlags]
      split
      · unfold limitAt
        split
        · omega
        next next others =>
          rw [bytes_cons, List.length_append] at fits
          split
          · rw [wrap_of_lt (by omega)]
            omega
          · omega
      · exact inductionHypothesis
          (fun other member => filled other (List.mem_cons_of_mem item member)) (by omega)

/-- An item with other flags in its place. -/
theorem shape_set {list : List TcpTxItem} {index : Nat} {item flagged : TcpTxItem}
    (found : list[index]? = some item)
    (same : (flagged.startSeq, flagged.packet) = (item.startSeq, item.packet)) :
    shape (list.set index flagged) = shape list := by
  obtain ⟨inside, isItem⟩ := List.getElem?_eq_some_iff.mp found
  calc shape (list.set index flagged)
      = shape (list.set index item) := by rw [shape, shape, List.map_set, List.map_set, same]
    _ = shape list := by rw [← isItem, List.set_getElem_self]

theorem countRetrans_shape {index : Nat} (counted : self.countRetrans index = some after) :
    ∃ sentList retrans, after = { self with sentList := sentList, retrans := retrans } ∧
      shape sentList = shape self.sentList := by
  unfold countRetrans at counted
  obtain ⟨item, found, rest⟩ := Option.bind_eq_some_iff.mp counted
  split at rest
  · cases rest
    exact ⟨_, _, rfl, rfl⟩
  · cases rest
    exact ⟨_, _, rfl, shape_set found rfl⟩

theorem getTransmittedSegment_intact (coherent : Coherent content self) (some : 0 < numBytes)
    (small : numBytes < 2 ^ 32) (given : self.getTransmittedSegment numBytes seq = .some after) :
    ∃ sentList retrans nodes, after =
        { self with sentList := sentList, retrans := retrans, nodes := nodes } ∧
      Intact self.firstByteSeq self.sentList sentList := by
  have total := coherent.sent_le
  obtain ⟨sizeFits, maxFits⟩ := coherent.fits
  have limitSome := limitToFlags_pos seq some coherent.sentFilled (by omega)
  have limitLe := limitToFlags_le seq numBytes self.sentList
  obtain ⟨⟨edit, index⟩, edited, counted⟩ := Option.bind_eq_some_iff.mp given
  have intact := (getPacketFromList_intact limitSome (by omega) (by dsimp only; omega) edited).1
  obtain ⟨sentList, retrans, rfl, same⟩ := countRetrans_shape counted
  exact ⟨sentList, retrans, edit.nodes, rfl, intact.trans (intact_of_shape _ same)⟩

theorem Coherent.getTransmittedSegment (coherent : Coherent content self) (some : 0 < numBytes)
    (small : numBytes < 2 ^ 32) (given : self.getTransmittedSegment numBytes seq = .some after) :
    Coherent content after := by
  obtain ⟨sentList, retrans, nodes, rfl, intact⟩ :=
    getTransmittedSegment_intact coherent some small given
  exact coherent.edit intact rfl

/-- The new segment is the first item of the list of the application. -/
theorem Coherent.getNewSegment (coherent : Coherent content self) (some : 0 < numBytes)
    (small : numBytes < 2 ^ 32) (given : self.getNewSegment numBytes = .some after) :
    Coherent content after ∧ after.firstByteSeq = self.firstByteSeq := by
  have total := coherent.sent_le
  have sentSize := coherent.sentSize
  obtain ⟨sizeFits, maxFits⟩ := coherent.fits
  obtain ⟨⟨edit, index⟩, edited, rest⟩ := Option.bind_eq_some_iff.mp given
  obtain ⟨item, atIndex, moved⟩ := Option.bind_eq_some_iff.mp rest
  obtain ⟨intact, before, first, behind, split, rfl, start⟩ :=
    getPacketFromList_intact some small (by dsimp only; omega) edited
  have filled := intact.filled coherent.appFilled
  have sameBytes := intact.bytes
  dsimp only at split sameBytes filled
  rw [split] at sameBytes filled
  have lengths := congrArg List.length sameBytes
  simp only [bytes_append, bytes_cons, List.length_append] at lengths
  have none : before = [] := by
    refine eq_nil_of_bytes (fun other member => filled other (List.mem_append_left _ member)) ?_
    refine SequenceNumber32.add_injective _ (by omega) (by omega)
      (start.symm.trans (SequenceNumber32.add_zero _).symm)
  subst none
  rw [split] at atIndex moved
  cases atIndex
  cases moved
  have smaller : self.sentSize + item.packet.length < 2 ^ 32 := by omega
  refine ⟨⟨?_, ?_, ?_, ?_, coherent.size, ?_, coherent.fits⟩, rfl⟩
  · rw [← coherent.holds, ← sameBytes]
    simp
  · refine consecutive_append.mpr ⟨coherent.consecutive, ?_, trivial⟩
    rw [sentSize]
  · intro other member
    rcases List.mem_append.mp member with old | new
    · exact coherent.sentFilled other old
    · obtain rfl := List.mem_singleton.mp new
      exact filled item List.mem_cons_self
  · exact fun other member => filled other (List.mem_cons_of_mem item member)
  · dsimp only
    rw [wrap_of_lt smaller, sentSize]
    simp

theorem sizeFromSequence_lt (self : TcpTxBuffer) (seq : SequenceNumber32) :
    self.sizeFromSequence seq < 2 ^ 32 := by
  unfold sizeFromSequence
  split
  · exact SequenceNumber32.sub_lt _ _
  · decide

theorem Coherent.copyAttempt (coherent : Coherent content self) {calls : Nat} {copied : Copied}
    (given : self.copyAttempt calls numBytes seq = some (after, copied)) :
    Coherent content after ∧ after.firstByteSeq = self.firstByteSeq := by
  induction calls generalizing numBytes with
  | zero => exact nomatch given
  | succ calls inductionHypothesis =>
      rw [TcpTxBuffer.copyAttempt] at given
      have small : min numBytes (self.sizeFromSequence seq) < 2 ^ 32 :=
        Nat.lt_of_le_of_lt (Nat.min_le_right _ _) (self.sizeFromSequence_lt seq)
      split at given
      · exact nomatch given
      · dsimp only at given
        split at given
        · cases given
          exact ⟨coherent, rfl⟩
        next some =>
          have positive : 0 < min numBytes (self.sizeFromSequence seq) := Nat.pos_of_ne_zero some
          split at given
          · obtain ⟨_, transmitted, same⟩ := Option.map_eq_some_iff.mp given
            cases same
            obtain ⟨sentList, retrans, nodes, rfl, intact⟩ :=
              getTransmittedSegment_intact coherent positive small transmitted
            exact ⟨coherent.edit intact rfl, rfl⟩
          · split at given
            · split at given
              · obtain ⟨_, fresh, same⟩ := Option.map_eq_some_iff.mp given
                cases same
                exact coherent.getNewSegment positive small fresh
              · exact nomatch given
            · split at given
              · exact inductionHypothesis given
              · exact nomatch given

theorem Coherent.copyFromSequence (coherent : Coherent content self) {copied : Copied}
    (given : self.copyFromSequence numBytes seq = some (after, copied)) :
    Coherent content after ∧ after.firstByteSeq = self.firstByteSeq := coherent.copyAttempt given

end

/-- Only flags and counters of the sent list differ. -/
structure FlagsOnly (before after : TcpTxBuffer) : Prop where
  shape : shape after.sentList = shape before.sentList
  frame : after = { before with
    sentList := after.sentList
    highestSack := after.highestSack
    lostOut := after.lostOut
    sackedOut := after.sackedOut
    retrans := after.retrans }

theorem FlagsOnly.refl (buffer : TcpTxBuffer) : FlagsOnly buffer buffer := ⟨rfl, rfl⟩

theorem FlagsOnly.trans {first second third : TcpTxBuffer} (one : FlagsOnly first second)
    (two : FlagsOnly second third) : FlagsOnly first third := by
  refine ⟨two.shape.trans one.shape, ?_⟩
  rw [two.frame, one.frame]

theorem Coherent.flagsOnly (coherent : Coherent content self) {after : TcpTxBuffer}
    (flags : FlagsOnly self after) : Coherent content after := by
  refine coherent.edit (intact_of_shape _ flags.shape) ?_
  rw [flags.frame]

theorem FlagsOnly.firstByteSeq {before after : TcpTxBuffer} (flags : FlagsOnly before after) :
    after.firstByteSeq = before.firstByteSeq := by rw [flags.frame]

section

variable {before after : TcpTxBuffer}

theorem shape_cons (item : TcpTxItem) (list : List TcpTxItem) :
    shape (item :: list) = (item.startSeq, item.packet) :: shape list := rfl

theorem sackBlock_shape (block : SequenceNumber32 × SequenceNumber32) (list : List TcpTxItem)
    (begin : SequenceNumber32) (board : Scoreboard) :
    shape (sackBlock block list begin board).1 = shape list := by
  induction list generalizing begin board with
  | nil => rfl
  | cons item rest inductionHypothesis =>
      rw [sackBlock]
      dsimp only
      split
      · split
        · rw [shape_cons, shape_cons, inductionHypothesis]
        · rw [shape_cons, shape_cons, inductionHypothesis]
      · split
        · rfl
        · rw [shape_cons, shape_cons, inductionHypothesis]

theorem sackBlocks_shape (first : SequenceNumber32) (sentSize : Nat)
    (blocks : List (SequenceNumber32 × SequenceNumber32)) (list : List TcpTxItem)
    (board : Scoreboard) :
    shape (sackBlocks first sentSize blocks list board).1 = shape list := by
  induction blocks generalizing list board with
  | nil => rfl
  | cons block blocks inductionHypothesis =>
      rw [sackBlocks]
      split
      · rfl
      · exact (inductionHypothesis _ _).trans (sackBlock_shape block list first board)

theorem markLost_shape (dupAckThresh : Nat) (list : List TcpTxItem) (sacked lostOut : Nat) :
    shape (markLost dupAckThresh list sacked lostOut).1 = shape list := by
  induction list generalizing sacked lostOut with
  | nil => rfl
  | cons item rest inductionHypothesis =>
      rw [markLost]
      dsimp only
      generalize (if item.sacked then sacked + 1 else sacked) = count
      split
      · rw [shape_cons, shape_cons, inductionHypothesis]
      · rw [shape_cons, shape_cons, inductionHypothesis]

theorem shape_append (list others : List TcpTxItem) :
    shape (list ++ others) = shape list ++ shape others := List.map_append

theorem updateLostCount_flagsOnly (given : before.updateLostCount = some after) :
    FlagsOnly before after := by
  obtain ⟨node, -, rest⟩ := Option.bind_eq_some_iff.mp given
  obtain ⟨index, -, marked⟩ := Option.bind_eq_some_iff.mp rest
  cases list : before.sentList with
  | nil =>
      rw [list] at marked
      exact nomatch marked
  | cons head rest =>
      rw [list] at marked
      dsimp only at marked
      have same : shape ((markLost before.dupAckThresh (rest.take index).reverse 0
          before.lostOut).1.reverse ++ rest.drop index) = shape rest := by
        rw [shape_append, shape, List.map_reverse, ← shape, markLost_shape, shape,
          List.map_reverse, List.reverse_reverse, ← shape, ← shape_append, List.take_append_drop]
      split at marked
      · cases marked
        exact ⟨by rw [list, shape_cons, shape_cons, same], rfl⟩
      · cases marked
        exact ⟨by rw [list, shape_cons, shape_cons, same], rfl⟩

theorem update_flagsOnly {list : List (SequenceNumber32 × SequenceNumber32)} {bytesSacked : Nat}
    (given : before.update list = some (after, bytesSacked)) : FlagsOnly before after := by
  have sacked := sackBlocks_shape before.firstByteSeq before.sentSize list before.sentList
    ⟨before.lostOut, before.sackedOut, 0, before.highestSack⟩
  unfold update at given
  dsimp only at given
  split at given
  · obtain ⟨_, counted, same⟩ := Option.map_eq_some_iff.mp given
    cases same
    refine FlagsOnly.trans ⟨?_, ?_⟩ (updateLostCount_flagsOnly counted)
    · exact sacked
    · rfl
  · cases given
    exact ⟨sacked, rfl⟩

theorem loseItems_shape (resetSack : Bool) (list : List TcpTxItem) (lostOut : Nat) :
    shape (loseItems resetSack list lostOut).1 = shape list := by
  induction list generalizing lostOut with
  | nil => rfl
  | cons item rest inductionHypothesis =>
      rw [loseItems]
      dsimp only
      split
      · rw [shape_cons, shape_cons, inductionHypothesis]
      · split
        · rw [shape_cons, shape_cons, inductionHypothesis]
        · split
          · rw [shape_cons, shape_cons, inductionHypothesis]
          · rw [shape_cons, shape_cons, inductionHypothesis]

theorem setSentListLost_flagsOnly (resetSack : Bool) :
    FlagsOnly before (before.setSentListLost resetSack) :=
  ⟨loseItems_shape _ _ _, rfl⟩

theorem markHeadAsLost_flagsOnly : FlagsOnly before before.markHeadAsLost := by
  unfold markHeadAsLost
  split
  · exact FlagsOnly.refl before
  next head rest list => exact ⟨by rw [list]; rfl, rfl⟩

theorem deleteRetransmittedFlagFromHead_flagsOnly
    (given : before.deleteRetransmittedFlagFromHead = some after) : FlagsOnly before after := by
  unfold deleteRetransmittedFlagFromHead at given
  split at given
  · cases given
    exact FlagsOnly.refl _
  · split at given
    · exact nomatch given
    next head rest list =>
      split at given
      · cases given
        exact ⟨by rw [list]; rfl, rfl⟩
      · cases given
        exact FlagsOnly.refl _

theorem sackFirst_shape (list : List TcpTxItem) : shape (sackFirst list).1 = shape list := by
  induction list with
  | nil => rfl
  | cons item rest inductionHypothesis =>
      rw [sackFirst]
      split
      · rw [shape_cons, shape_cons, inductionHypothesis]
      · rfl

theorem addRenoSack_flagsOnly (given : before.addRenoSack = some after) :
    FlagsOnly before after := by
  unfold addRenoSack at given
  split at given
  · exact nomatch given
  next head rest list =>
    have same := sackFirst_shape rest
    split at given
    · cases given
      exact FlagsOnly.refl _
    next sacked item found =>
      cases given
      rw [found] at same
      exact ⟨by rw [list, shape_cons, shape_cons, same], rfl⟩

theorem unsackHead_flagsOnly (given : before.unsackHead = some after) : FlagsOnly before after := by
  unfold unsackHead at given
  split at given
  · cases given
    exact FlagsOnly.refl _
  next head rest list =>
    split at given
    · obtain ⟨moved, sacked, same⟩ := Option.bind_eq_some_iff.mp given
      cases same
      refine FlagsOnly.trans ⟨?_, ?_⟩
        ((addRenoSack_flagsOnly sacked).trans markHeadAsLost_flagsOnly)
      · rw [list]
        rfl
      · rfl
    · cases given
      exact FlagsOnly.refl _

theorem resetRenoSack_flagsOnly : FlagsOnly before before.resetRenoSack :=
  ⟨by simp [resetRenoSack, shape, Function.comp_def], rfl⟩

end

theorem Coherent.resetSentList (coherent : Coherent content self) :
    Coherent content self.resetSentList := by
  have same : shape (self.sentList.map fun item =>
      { item with retrans := false, sacked := false, lost := false }) = shape self.sentList := by
    simp [shape, Function.comp_def]
  have intact := intact_of_shape self.firstByteSeq same
  refine ⟨?_, trivial, fun _ member => (nomatch member), fun item member => ?_, coherent.size, rfl,
    coherent.fits⟩
  · simp only [TcpTxBuffer.resetSentList, bytes_nil, List.nil_append, bytes_append]
    rw [intact.bytes]
    exact coherent.holds
  · rcases List.mem_append.mp member with sent | app
    · exact intact.filled coherent.sentFilled item sent
    · exact coherent.appFilled item app

theorem Coherent.resetLastSegmentSent (coherent : Coherent content self) :
    Coherent content self.resetLastSegmentSent := by
  unfold TcpTxBuffer.resetLastSegmentSent
  split
  · exact coherent
  next item last =>
    have list : self.sentList.dropLast ++ [item] = self.sentList :=
      List.dropLast_append_getLast? item last
    have holds := coherent.holds
    have consecutive := coherent.consecutive
    have sentSize := coherent.sentSize
    have filled := coherent.sentFilled
    have total := coherent.sent_le
    obtain ⟨sizeFits, maxFits⟩ := coherent.fits
    rw [← list] at holds consecutive sentSize filled total
    simp only [bytes_append, bytes_cons, bytes_nil, List.append_nil, List.length_append]
      at holds sentSize total
    refine ⟨?_, (consecutive_append.mp consecutive).1,
      fun other member => filled other (List.mem_append_left _ member), fun other member => ?_,
      coherent.size, ?_, coherent.fits⟩
    · rw [← holds]
      simp
    · rcases List.mem_cons.mp member with rfl | app
      · exact filled other (by simp)
      · exact coherent.appFilled other app
    · dsimp only
      rw [wrapSub_of_le (by omega) (by omega)]
      omega

theorem Coherent.removeFromCounts (coherent : Coherent content self) (item : TcpTxItem)
    (size : Nat) : Coherent content (self.removeFromCounts item size) :=
  coherent.flagsOnly ⟨rfl, rfl⟩

theorem Coherent.removeFirst (coherent : Coherent content self) {item : TcpTxItem}
    {rest : List TcpTxItem} (list : self.sentList = item :: rest) :
    Coherent (content.drop item.packet.length) (self.removeFirst item rest) := by
  refine Coherent.removeFromCounts ?_ item _
  have holds := coherent.holds
  have consecutive := coherent.consecutive
  have sentSize := coherent.sentSize
  have filled := coherent.sentFilled
  have total := coherent.sent_le
  have size := coherent.size
  obtain ⟨sizeFits, maxFits⟩ := coherent.fits
  rw [list] at holds consecutive sentSize filled total
  simp only [bytes_cons, List.append_assoc, List.length_append] at holds sentSize total
  refine ⟨?_, consecutive.2, fun other member => filled other (List.mem_cons_of_mem item member),
    coherent.appFilled, ?_, ?_, ?_⟩
  · rw [← holds, List.drop_left]
  · dsimp only
    rw [wrapSub_of_le (by omega) (by omega), List.length_drop]
    omega
  · dsimp only
    rw [wrapSub_of_le (by omega) (by omega)]
    omega
  · dsimp only
    rw [wrapSub_of_le (by omega) (by omega)]
    omega

theorem Coherent.fragmentFirst (coherent : Coherent content self) {item : TcpTxItem}
    {rest : List TcpTxItem} (list : self.sentList = item :: rest) {offset : Nat}
    (shorter : offset < item.packet.length) :
    Coherent (content.drop offset) (self.fragmentFirst item rest offset) := by
  refine Coherent.removeFromCounts ?_ _ _
  have holds := coherent.holds
  have consecutive := coherent.consecutive
  have sentSize := coherent.sentSize
  have filled := coherent.sentFilled
  have total := coherent.sent_le
  have size := coherent.size
  obtain ⟨sizeFits, maxFits⟩ := coherent.fits
  have all : (item.packet.drop offset).take (item.packet.length - offset) =
      item.packet.drop offset := List.take_of_length_le (by simp)
  rw [list] at holds consecutive sentSize filled total
  simp only [bytes_cons, List.append_assoc, List.length_append] at holds sentSize total
  rw [all]
  refine ⟨?_, ⟨?_, ?_⟩, fun other member => ?_, coherent.appFilled, ?_, ?_, ?_⟩
  · rw [← holds, List.drop_append_of_le_length (Nat.le_of_lt shorter)]
    simp
  · dsimp only
    rw [consecutive.1]
  · dsimp only
    rw [SequenceNumber32.add_add, List.length_drop, Nat.add_sub_cancel' (Nat.le_of_lt shorter)]
    exact consecutive.2
  · rcases List.mem_cons.mp member with rfl | later
    · exact List.length_pos_iff.mp (by simp only [List.length_drop]; omega)
    · exact filled other (List.mem_cons_of_mem item later)
  · dsimp only
    rw [wrapSub_of_le (by omega) (by omega), List.length_drop]
    omega
  · dsimp only
    rw [wrapSub_of_le (by omega) (by omega)]
    simp only [bytes_cons, List.length_append, List.length_drop]
    omega
  · dsimp only
    rw [wrapSub_of_le (by omega) (by omega)]
    omega

theorem Coherent.moveFirst (coherent : Coherent content self) {offset : Nat}
    {moved : TcpTxBuffer} (given : self.moveFirst offset = some moved) :
    Coherent content moved ∧ moved.firstByteSeq = self.firstByteSeq := by
  unfold TcpTxBuffer.moveFirst at given
  split at given
  · split at given
    next copied =>
      cases given
      exact coherent.copyFromSequence copied
    next => exact nomatch given
  · cases given
    exact ⟨coherent, rfl⟩

/-- The loop of `DiscardUpTo` removes as many bytes as are asked for, or all there are. -/
theorem Coherent.discard (coherent : Coherent content self) {turns offset : Nat}
    {after : TcpTxBuffer} (given : discard turns self offset = some after) :
    Coherent (content.drop offset) after ∧
      after.firstByteSeq =
        SequenceSpace.add self.firstByteSeq (min offset content.length) := by
  induction turns generalizing self content offset with
  | zero => exact nomatch given
  | succ turns inductionHypothesis =>
      have size := coherent.size
      rw [TcpTxBuffer.discard] at given
      split at given
      next more =>
        split at given
        next => exact nomatch given
        next moved found =>
          obtain ⟨movedCoherent, sameFirst⟩ := coherent.moveFirst found
          have movedLe := movedCoherent.sent_le
          have movedSize := movedCoherent.size
          split at given
          next => exact nomatch given
          next item rest list =>
            have itemLe : item.packet.length ≤ content.length := by
              rw [list, bytes_cons, List.length_append] at movedLe
              omega
            split at given
            next whole =>
              obtain ⟨dropped, first⟩ :=
                inductionHypothesis (movedCoherent.removeFirst list) given
              rw [List.drop_drop, Nat.add_sub_cancel' whole] at dropped
              refine ⟨dropped, first.trans ?_⟩
              change SequenceSpace.add (SequenceSpace.add moved.firstByteSeq _) _ = _
              rw [SequenceNumber32.add_add, sameFirst, List.length_drop]
              congr 1
              omega
            next partly =>
              cases given
              refine ⟨movedCoherent.fragmentFirst list (Nat.lt_of_not_le partly), ?_⟩
              change SequenceSpace.add moved.firstByteSeq _ = _
              rw [sameFirst, Nat.min_eq_left (by omega)]
      next stop =>
        have same : self = after := Option.some.inj given
        subst same
        by_cases empty : self.size = 0
        · have none : content = [] := List.eq_nil_of_length_eq_zero (by omega)
          subst none
          refine ⟨by simpa using coherent, ?_⟩
          rw [List.length_nil, Nat.min_zero, SequenceNumber32.add_zero]
        · have nothing : offset = 0 := by omega
          subst nothing
          refine ⟨by simpa using coherent, ?_⟩
          rw [Nat.zero_min, SequenceNumber32.add_zero]

/-- A sequence number between the head and the tail of the buffer, as `SequenceNumber32`
compares them. -/
def Within (self : TcpTxBuffer) (seq : SequenceNumber32) : Prop :=
  le self.firstByteSeq seq ∧ le seq self.tailSequence

instance (self : TcpTxBuffer) (seq : SequenceNumber32) : Decidable (self.Within seq) :=
  inferInstanceAs (Decidable (_ ∧ _))

theorem Within.sub_le {seq : SequenceNumber32} (within : self.Within seq)
    (small : self.size < 2 ^ 32) : sub seq self.firstByteSeq ≤ self.size := by
  have firstFits := self.firstByteSeq.fits
  have seqFits := seq.fits
  obtain ⟨low, high⟩ := within
  unfold tailSequence at high
  unfold SequenceSpace.le at low high
  rw [Bool.not_eq_true', ← Bool.not_eq_true, SequenceNumber32.gt_iff] at low high
  rw [SequenceNumber32.value_add] at high
  rw [SequenceNumber32.sub_eq]
  rcases Nat.lt_or_ge seq.value self.firstByteSeq.value with below | above
  · rw [Nat.mod_eq_of_lt (by omega)]
    omega
  · have distance : seq.value + (2 ^ 32 - self.firstByteSeq.value) =
        seq.value - self.firstByteSeq.value + 2 ^ 32 := by omega
    rw [distance, Nat.add_mod_right, Nat.mod_eq_of_lt (by omega)]
    omega

/-- `DiscardUpTo` drops exactly the bytes below the sequence number. -/
theorem Coherent.discardUpTo (coherent : Coherent content self) {seq : SequenceNumber32}
    (within : self.Within seq) {after : TcpTxBuffer}
    (given : self.discardUpTo seq = some after) :
    Coherent (content.drop (sub seq self.firstByteSeq)) after ∧ after.firstByteSeq = seq := by
  obtain ⟨sizeFits, maxFits⟩ := coherent.fits
  have size := coherent.size
  have few := within.sub_le (by omega)
  unfold TcpTxBuffer.discardUpTo at given
  split at given
  next behind =>
    have same : self = after := Option.some.inj given
    subst same
    have equal : self.firstByteSeq = seq := by
      have notAfter := within.1
      unfold SequenceSpace.le at notAfter
      unfold SequenceSpace.ge at behind
      rw [Bool.not_eq_true'] at notAfter
      rw [notAfter, Bool.false_or] at behind
      exact of_decide_eq_true behind
    have nothing : sub seq self.firstByteSeq = 0 := by
      rw [← equal, ← SequenceNumber32.sub_add self.firstByteSeq (Nat.two_pow_pos 32),
        SequenceNumber32.add_zero]
    rw [nothing]
    exact ⟨coherent, equal⟩
  next =>
    obtain ⟨discarded, dropped, rest⟩ := Option.bind_eq_some_iff.mp given
    obtain ⟨kept, first⟩ := coherent.discard dropped
    rw [Nat.min_eq_left (size ▸ few), SequenceNumber32.add_sub] at first
    dsimp only at rest
    have acked : (if discarded.size = 0 then { discarded with firstByteSeq := seq }
        else discarded) = discarded := by
      split
      · rw [← first]
      · rfl
    rw [acked] at rest
    obtain ⟨unsacked, moved, last⟩ := Option.bind_eq_some_iff.mp rest
    have flags := unsackHead_flagsOnly moved
    have unsackedFirst := flags.firstByteSeq
    have unsackedKept := kept.flagsOnly flags
    cases last
    split
    · exact ⟨unsackedKept.flagsOnly ⟨rfl, rfl⟩, unsackedFirst.trans first⟩
    · exact ⟨unsackedKept, unsackedFirst.trans first⟩

/-- The calls other than `Add` and `DiscardUpTo` leave the bytes. -/
theorem Coherent.call (coherent : Coherent content self) {made : Call} {after : TcpTxBuffer}
    (returned : self.call made = some after)
    (notAdd : ∀ p, made ≠ .add p) (notDiscard : ∀ seq, made ≠ .discardUpTo seq) :
    Coherent content after ∧ after.firstByteSeq = self.firstByteSeq := by
  have ofFlags : FlagsOnly self after →
      Coherent content after ∧ after.firstByteSeq = self.firstByteSeq := fun flags =>
    ⟨coherent.flagsOnly flags, flags.firstByteSeq⟩
  cases made with
  | add p => exact absurd rfl (notAdd p)
  | discardUpTo seq => exact absurd rfl (notDiscard seq)
  | copyFromSequence numBytes seq =>
      obtain ⟨⟨_, copied⟩, given, same⟩ := Option.map_eq_some_iff.mp returned
      cases same
      exact coherent.copyFromSequence given
  | update list =>
      obtain ⟨⟨_, bytesSacked⟩, given, same⟩ := Option.map_eq_some_iff.mp returned
      cases same
      exact ofFlags (update_flagsOnly given)
  | setSentListLost resetSack =>
      cases returned
      exact ofFlags (setSentListLost_flagsOnly resetSack)
  | markHeadAsLost =>
      cases returned
      exact ofFlags markHeadAsLost_flagsOnly
  | deleteRetransmittedFlagFromHead =>
      exact ofFlags (deleteRetransmittedFlagFromHead_flagsOnly returned)
  | addRenoSack => exact ofFlags (addRenoSack_flagsOnly returned)
  | resetRenoSack =>
      cases returned
      exact ofFlags resetRenoSack_flagsOnly
  | resetLastSegmentSent =>
      cases returned
      refine ⟨coherent.resetLastSegmentSent, ?_⟩
      unfold TcpTxBuffer.resetLastSegmentSent
      split <;> rfl
  | resetSentList =>
      cases returned
      exact ⟨coherent.resetSentList, rfl⟩

end TcpTxBuffer

end Ns3.Internet
