import Ns3.Aodv.Routes

/-!
The freshness of the routes of one node.

The reverse route, the route to the previous hop, the route of a hello and the end of a search are
written without a look at the sequence number and the hop count that the table has. The guard says
what this needs of the message and of the table before it.
-/

namespace Ns3.Aodv

open Library RoutingTableEntry RoutingProtocol

theorem newer_asymm {a b : BitVec 32} (newer : newer a b = true) : Aodv.newer b a = false := by
  unfold Aodv.newer at *
  simp only [BitVec.slt, BitVec.toInt, decide_eq_true_eq, decide_eq_false_iff_not] at *
  bv_omega

theorem newer_irrefl (a : BitVec 32) : newer a a = false := by
  simp [newer]

/-- The message carries an older sequence number for the destination. -/
def Message.carriesOlder (dst : Address) (seqNo : BitVec 32) : Message → Bool
  | .request rreqHeader _ =>
      rreqHeader.origin = dst && newer seqNo rreqHeader.originSeqno ||
        rreqHeader.dst = dst && !rreqHeader.unknownSeqno && newer seqNo rreqHeader.dstSeqno
  | .reply rrepHeader _ => rrepHeader.dst = dst && newer seqNo rrepHeader.dstSeqno

/-- The entry is not valid, or the sequence number is greater, or it is the same and the hop count
is not larger. -/
def Supersedes (seqNo : BitVec 32) (hops : BitVec 16) (old : RoutingTableEntry) : Prop :=
  old.flag ≠ .valid ∨ newer seqNo old.seqNo = true ∨ seqNo = old.seqNo ∧ hops ≤ old.hops

instance (seqNo : BitVec 32) (hops : BitVec 16) (old : RoutingTableEntry) :
    Decidable (Supersedes seqNo hops old) :=
  inferInstanceAs (Decidable (_ ∨ _ ∨ _ ∧ _))

/-- The routes with a valid sequence number are only replaced by fresh ones, and a message with an
older sequence number does not change the next hop. -/
def KeepsFresh (message : Message) (before after : RoutingTable) : Prop :=
  ∀ dst, ∀ old ∈ before.entry dst, ∀ new ∈ after.entry dst, old.validSeqNo = true →
    Supersedes new.seqNo new.hops old ∧
      (message.carriesOlder dst old.seqNo = true → new.nextHop = old.nextHop)

/-- What a call leaves of the routes that have not expired. -/
def Fresh (config : Config) (node : RoutingProtocol) (call : Call) : Prop :=
  KeepsFresh call.message (node.routingTable.purge call.now)
    ((receive config).step node call).routingTable

/-- The request comes from a blacklisted node, or its id has been seen. -/
def ignoresRequest (config : Config) (now : Nat) (rreqHeader : RreqHeader) (src : Address)
    (node : RoutingProtocol) : Bool :=
  (node.routingTable.lookupRoute now src).1.any (·.blackListState) ||
    (IdCache.isDuplicate now config.pathDiscoveryTime rreqHeader.origin rreqHeader.id
      node.rreqIdCache).1

/-- What is written without a look at the entry may replace it. -/
def MayOverwrite (message : Message) (table : RoutingTable) (dst : Address) (seqNo : BitVec 32)
    (hops : BitVec 16) (nextHop : Address) : Prop :=
  ∀ old ∈ table.entry dst, old.validSeqNo = true →
    Supersedes seqNo hops old ∧
      (message.carriesOlder dst old.seqNo = true → nextHop = old.nextHop)

instance (message : Message) (table : RoutingTable) (dst : Address) (seqNo : BitVec 32)
    (hops : BitVec 16) (nextHop : Address) :
    Decidable (MayOverwrite message table dst seqNo hops nextHop) :=
  inferInstanceAs (Decidable (∀ old ∈ table.entry dst, old.validSeqNo = true → _ ∧ _))

/-- The reverse route is not written over a fresher or shorter one. -/
def ReverseRouteFits (message : Message) (table : RoutingTable) (rreqHeader : RreqHeader)
    (src : Address) : Prop :=
  ∀ old ∈ table.entry rreqHeader.origin, old.validSeqNo = true →
    (old.flag ≠ .valid ∨ newer rreqHeader.originSeqno old.seqNo = true ∨
      (rreqHeader.hopCount + 1).setWidth 16 ≤ old.hops) ∧
      (message.carriesOlder rreqHeader.origin old.seqNo = true → src = old.nextHop)

instance (message : Message) (table : RoutingTable) (rreqHeader : RreqHeader) (src : Address) :
    Decidable (ReverseRouteFits message table rreqHeader src) :=
  inferInstanceAs (Decidable (∀ old ∈ table.entry rreqHeader.origin, old.validSeqNo = true →
    (_ ∨ _ ∨ _) ∧ _))

/-- A reply that ends a search does not bring an older sequence number by another next hop. -/
def SearchEndFits (table : RoutingTable) (rrepHeader : RrepHeader) (sender : Address) : Prop :=
  ∀ old ∈ table.entry rrepHeader.dst, old.validSeqNo = true → old.flag = .inSearch →
    newer old.seqNo rrepHeader.dstSeqno = true → sender = old.nextHop

instance (table : RoutingTable) (rrepHeader : RrepHeader) (sender : Address) :
    Decidable (SearchEndFits table rrepHeader sender) :=
  inferInstanceAs (Decidable (∀ old ∈ table.entry rrepHeader.dst, old.validSeqNo = true → _))

/-- The next hop of the valid route to the destination of a reply, once it has been received. -/
def forwardHop (table : RoutingTable) (rrepHeader : RrepHeader) (sender : Address) :
    Option Address :=
  match table.entry rrepHeader.dst with
  | none => some sender
  | some old =>
      if replaces rrepHeader (rrepHeader.hopCount + 1) old then some sender
      else if old.flag = .valid then some old.nextHop
      else none

/-- The table has no entry for the address, and the reply does not make one. -/
def Unknown (table : RoutingTable) (rrepHeader : RrepHeader) (address : Address) : Prop :=
  table.entry address = none ∧ address ≠ rrepHeader.dst

instance (table : RoutingTable) (rrepHeader : RrepHeader) (address : Address) :
    Decidable (Unknown table rrepHeader address) :=
  inferInstanceAs (Decidable (_ ∧ _))

/-- The precursors of a forwarded reply go to a next hop without an entry. -/
def ForwardsUnknown (table : RoutingTable) (rrepHeader : RrepHeader) (sender : Address) : Prop :=
  ∃ toOrigin ∈ table.entry rrepHeader.origin, toOrigin.flag ≠ .inSearch ∧
    ∃ nextHop ∈ forwardHop table rrepHeader sender,
      rrepHeader.origin ≠ uninitializedAddress ∧ Unknown table rrepHeader nextHop ∨
        Unknown table rrepHeader toOrigin.nextHop

instance (table : RoutingTable) (rrepHeader : RrepHeader) (sender : Address) :
    Decidable (ForwardsUnknown table rrepHeader sender) :=
  inferInstanceAs (Decidable (∃ toOrigin ∈ table.entry rrepHeader.origin, _ ∧
    ∃ nextHop ∈ forwardHop table rrepHeader sender, _ ∧ _ ∨ _))

/-- A request that is not ignored does not replace fresher routes to its origin and to the previous
hop. -/
def RequestFits (config : Config) (node : RoutingProtocol) (now : Nat) (rreqHeader : RreqHeader)
    (src : Address) : Prop :=
  let message := Message.request rreqHeader src
  let table := node.routingTable.purge now
  ignoresRequest config now rreqHeader src node = false →
    (rreqHeader.origin ≠ src → ReverseRouteFits message table rreqHeader src) ∧
      MayOverwrite message table src rreqHeader.originSeqno 1 src

instance (config : Config) (node : RoutingProtocol) (now : Nat) (rreqHeader : RreqHeader)
    (src : Address) : Decidable (RequestFits config node now rreqHeader src) :=
  inferInstanceAs (Decidable (_ = false → (_ ≠ _ → ReverseRouteFits _ _ _ _) ∧
    MayOverwrite _ _ _ _ _ _))

/-- A hello does not replace a fresher route to the neighbour, the end of a search does not take an
older one, and what is written for an unknown next hop replaces no fresher route. -/
def ReplyFits (config : Config) (node : RoutingProtocol) (now : Nat) (rrepHeader : RrepHeader)
    (sender : Address) : Prop :=
  let message := Message.reply rrepHeader sender
  let table := node.routingTable.purge now
  (rrepHeader.dst = rrepHeader.origin →
    MayOverwrite message table rrepHeader.dst rrepHeader.dstSeqno 1 rrepHeader.dst) ∧
  (rrepHeader.dst ≠ rrepHeader.origin → config.isMyOwnAddress rrepHeader.origin = true →
    SearchEndFits table rrepHeader sender) ∧
  (rrepHeader.dst ≠ rrepHeader.origin → config.isMyOwnAddress rrepHeader.origin = false →
    ForwardsUnknown table rrepHeader sender →
      MayOverwrite message table uninitializedAddress 0 0 uninitializedAddress)

instance (config : Config) (node : RoutingProtocol) (now : Nat) (rrepHeader : RrepHeader)
    (sender : Address) : Decidable (ReplyFits config node now rrepHeader sender) :=
  inferInstanceAs (Decidable ((_ = _ → MayOverwrite _ _ _ _ _ _) ∧
    (_ ≠ _ → _ = true → SearchEndFits _ _ _) ∧
    (_ ≠ _ → _ = false → ForwardsUnknown _ _ _ → MayOverwrite _ _ _ _ _ _)))

/-- What a handler writes without a look at the sequence number is as fresh as what it replaces. -/
def WritesFit (config : Config) (node : RoutingProtocol) (call : Call) : Prop :=
  match call.message with
  | .request rreqHeader src => RequestFits config node call.now rreqHeader src
  | .reply rrepHeader sender => ReplyFits config node call.now rrepHeader sender

instance (config : Config) (node : RoutingProtocol) :
    (call : Call) → Decidable (WritesFit config node call)
  | ⟨now, .request rreqHeader src⟩ =>
      inferInstanceAs (Decidable (RequestFits config node now rreqHeader src))
  | ⟨now, .reply rrepHeader sender⟩ =>
      inferInstanceAs (Decidable (ReplyFits config node now rrepHeader sender))

/-- The route is the one of an entry, but for its flag. -/
def Same (old : RoutingTableEntry) : RouteProperty where
  Holds route := route.validSeqNo = old.validSeqNo ∧ route.seqNo = old.seqNo ∧
    route.hops = old.hops ∧ route.nextHop = old.nextHop
  invalidated _ same := same

/-- The route may replace an entry of the destination. -/
def Succeeds (message : Message) (dst : Address) (old : RoutingTableEntry) : RouteProperty where
  Holds route := old.validSeqNo = true →
    Supersedes route.seqNo route.hops old ∧
      (message.carriesOlder dst old.seqNo = true → route.nextHop = old.nextHop)
  invalidated _ succeeds := succeeds

/-- If the route is valid, it leads to the next hop. -/
def LeadsTo (nextHop : Option Address) : RouteProperty where
  Holds route := route.flag = .valid → nextHop = some route.nextHop
  invalidated _ _ invalid := by cases invalid

variable {now : Nat} {table : RoutingTable} {dst : Address} {property : RouteProperty}
  {message : Message} {old : RoutingTableEntry}

/-- Every entry of a purged table is a route of its own. -/
theorem routed_of_purge (found : (table.purge now).entry dst = some old) :
    Routed now (table.purge now) dst (Same old) :=
  ⟨old, found, (RoutingTable.settled_of_purge now found).stays, rfl, rfl, rfl, rfl⟩

theorem succeeds_of_purge (message : Message) (found : (table.purge now).entry dst = some old) :
    Routed now (table.purge now) dst (Succeeds message dst old) := by
  refine (routed_of_purge found).mono ?_
  rintro route ⟨_, seqNo, hops, nextHop⟩ _
  refine ⟨.inr (.inr ⟨seqNo, ?_⟩), fun _ => nextHop⟩
  rw [hops]
  exact BitVec.le_refl _

/-- An entry with a longer life is still there after the purges to come. -/
theorem stays_of_max {rt known : RoutingTableEntry} (stays : known.Stays now)
    (flag : rt.flag = known.flag) {lifetime : Int}
    (lifeTime : rt.lifeTime = max lifetime (known.getLifeTime now) + now) : rt.Stays now := by
  intro invalid
  have lives := stays (flag ▸ invalid)
  rw [lifeTime]
  unfold getLifeTime
  omega

section Request

variable {config : Config} {rreqHeader : RreqHeader} {src : Address} {hop : BitVec 8}

theorem updateReverseRoute_of_ne (routed : Routed now table dst property)
    (other : rreqHeader.origin ≠ dst) :
    Routed now (updateReverseRoute config now rreqHeader hop src table).2 dst property := by
  unfold updateReverseRoute RoutingTable.lookupRoute
  cases found : (table.purge now).entry rreqHeader.origin with
  | none => exact routed.purge.addRoute _
  | some toOrigin =>
      apply routed.purge.update
      apply fits_of_ne
      exact ((table.purge now).dst_eq found).trans_ne other

/-- The origin has a route then. -/
theorem updateReverseRoute_origin :
    Routed now (updateReverseRoute config now rreqHeader hop src table).2 rreqHeader.origin
      .any := by
  unfold updateReverseRoute RoutingTable.lookupRoute
  cases found : (table.purge now).entry rreqHeader.origin with
  | none =>
      apply Routed.of_addRoute
      · rw [RoutingTable.purge_purge]
        exact found
      · intro invalid
        cases invalid
      · trivial
  | some toOrigin =>
      apply (routed_of_purge found).any.update
      intro _
      exact ⟨stays_of_max (RoutingTable.settled_of_purge now found).stays rfl rfl, trivial⟩

/-- The route to the origin, where the guard lets the reverse route be written. -/
theorem updateReverseRoute_succeeds (found : (table.purge now).entry rreqHeader.origin = some old)
    (fits : ReverseRouteFits message (table.purge now) rreqHeader src) :
    Routed now
      (updateReverseRoute config now rreqHeader (rreqHeader.hopCount + 1) src table).2
      rreqHeader.origin (Succeeds message rreqHeader.origin old) := by
  have isOrigin := (table.purge now).dst_eq found
  unfold updateReverseRoute RoutingTable.lookupRoute
  simp only [found]
  apply (succeeds_of_purge message found).update
  intro _
  refine ⟨stays_of_max (RoutingTable.settled_of_purge now found).stays rfl rfl, ?_⟩
  intro known
  obtain ⟨fresh, older⟩ := fits old found known
  refine ⟨?_, older⟩
  simp only [route, known, Bool.true_and]
  rcases fresh with notValid | isNewer | shorter
  · exact .inl notValid
  · simp [isNewer, Supersedes]
  · right
    cases isNewer : newer rreqHeader.originSeqno old.seqNo with
    | false => exact .inr (by simpa using shorter)
    | true => simp [isNewer]

theorem updatePreviousHop_of_ne (routed : Routed now table dst property) (other : src ≠ dst) :
    Routed now (updatePreviousHop config now rreqHeader src table) dst property := by
  unfold updatePreviousHop RoutingTable.lookupRoute
  cases found : (table.purge now).entry src with
  | none => exact routed.purge.addRoute _
  | some toNeighbor =>
      apply routed.purge.update
      apply fits_of_ne
      exact ((table.purge now).dst_eq found).trans_ne other

/-- The previous hop gets a route of one hop with the sequence number of the origin. -/
theorem updatePreviousHop_self (routed : Routed now table src .any)
    (holds : property.Holds ⟨false, rreqHeader.originSeqno, 1, src, .valid⟩) :
    Routed now (updatePreviousHop config now rreqHeader src table) src property := by
  unfold updatePreviousHop RoutingTable.lookupRoute
  cases found : (table.purge now).entry src with
  | none => exact absurd found routed.purge.ne_none
  | some toNeighbor =>
      have isSrc := (table.purge now).dst_eq found
      refine routed.purge.update_self isSrc ?_ holds
      intro invalid
      cases invalid

theorem updatePreviousHop_any (routed : Routed now table dst .any) :
    Routed now (updatePreviousHop config now rreqHeader src table) dst .any := by
  by_cases isSrc : src = dst
  · subst isSrc
    exact updatePreviousHop_self routed trivial
  · exact updatePreviousHop_of_ne routed isSrc

/-- A request that fits leaves every destination a route that may replace the one it had. -/
theorem recvRequest_succeeds {node : RoutingProtocol}
    (found : (node.routingTable.purge now).entry dst = some old)
    (fits : RequestFits config node now rreqHeader src) :
    Routed now (recvRequest config now rreqHeader src node).routingTable dst
      (Succeeds (.request rreqHeader src) dst old) := by
  have start := succeeds_of_purge (.request rreqHeader src) found
  unfold recvRequest
  dsimp only [RoutingTable.lookupRoute]
  split_ifs with blacklisted duplicate
  · exact start
  · exact start
  · have taken : ignoresRequest config now rreqHeader src node = false := by
      simp only [ignoresRequest, RoutingTable.lookupRoute, Bool.or_eq_false_iff]
      exact ⟨Bool.eq_false_iff.mpr blacklisted, Bool.eq_false_iff.mpr duplicate⟩
    obtain ⟨reverseFits, previousFits⟩ := fits taken
    apply Routed.answerRequest
    · apply Routed.neighborsUpdate
      by_cases isSrc : src = dst
      · subst isSrc
        apply updatePreviousHop_self
        · by_cases isOrigin : rreqHeader.origin = src
          · exact isOrigin ▸ updateReverseRoute_origin
          · exact (updateReverseRoute_of_ne start isOrigin).any
        · exact previousFits old found
      · apply updatePreviousHop_of_ne _ isSrc
        by_cases isOrigin : rreqHeader.origin = dst
        · subst isOrigin
          apply updateReverseRoute_succeeds
          · rw [RoutingTable.purge_purge]
            exact found
          · rw [RoutingTable.purge_purge]
            exact reverseFits (Ne.symm isSrc)
        · exact updateReverseRoute_of_ne start isOrigin
    · apply Routed.neighborsUpdate
      exact updatePreviousHop_any updateReverseRoute_origin

end Request

section Reply

variable {config : Config} {rrepHeader : RrepHeader} {sender : Address}

theorem updateHelloRoute_succeeds
    (found : (table.purge now).entry dst = some old)
    (fits : MayOverwrite message (table.purge now) rrepHeader.dst rrepHeader.dstSeqno 1
      rrepHeader.dst) :
    Routed now (updateHelloRoute config now rrepHeader table) dst
      (Succeeds message dst old) := by
  have start := succeeds_of_purge message found
  unfold updateHelloRoute RoutingTable.lookupRoute
  cases foundNeighbor : (table.purge now).entry rrepHeader.dst with
  | none => exact start.addRoute _
  | some toNeighbor =>
      apply start.update
      intro isDst
      have isNeighbor := (table.purge now).dst_eq foundNeighbor
      obtain rfl : rrepHeader.dst = dst := isNeighbor.symm.trans isDst
      constructor
      · intro invalid
        cases invalid
      · exact fits old found

theorem processHello_succeeds {node : RoutingProtocol}
    (found : (node.routingTable.purge now).entry dst = some old)
    (fits : MayOverwrite message (node.routingTable.purge now) rrepHeader.dst rrepHeader.dstSeqno
      1 rrepHeader.dst) :
    Routed now (processHello config now rrepHeader node).routingTable dst
      (Succeeds message dst old) := by
  unfold processHello
  dsimp only
  split
  · exact (updateHelloRoute_succeeds found fits).neighborsUpdate _ _ _
  · exact updateHelloRoute_succeeds found fits

variable {hop : BitVec 8} {newEntry : RoutingTableEntry}

theorem updateForwardRoute_of_ne (other : newEntry.dst ≠ dst) :
    (updateForwardRoute now rrepHeader hop newEntry table).2.entry dst =
      (table.purge now).entry dst := by
  unfold updateForwardRoute RoutingTable.lookupRoute
  cases (table.purge now).entry rrepHeader.dst with
  | none =>
      dsimp only
      rw [RoutingTable.addRoute_of_ne now other, RoutingTable.purge_purge]
  | some toDst =>
      dsimp only
      split
      · exact RoutingTable.update_of_ne other
      · rfl

variable (now rrepHeader sender) in
/-- The entry that a reply brings. -/
def replyEntry : RoutingTableEntry :=
  .make now rrepHeader.dst true rrepHeader.dstSeqno ((rrepHeader.hopCount + 1).setWidth 16) sender
    rrepHeader.getLifeTime

theorem replyEntry_stays : (replyEntry now rrepHeader sender).Stays now := by
  intro invalid
  cases invalid

/-- The route that a reply leads to. -/
theorem updateForwardRoute_leadsTo :
    Routed now (updateForwardRoute now rrepHeader (rrepHeader.hopCount + 1)
      (replyEntry now rrepHeader sender) table).2 rrepHeader.dst
      (LeadsTo (forwardHop (table.purge now) rrepHeader sender)) := by
  unfold updateForwardRoute RoutingTable.lookupRoute forwardHop
  cases found : (table.purge now).entry rrepHeader.dst with
  | none =>
      apply Routed.of_addRoute
      · rw [RoutingTable.purge_purge]
        exact found
      · exact replyEntry_stays
      · intro _
        rfl
  | some toDst =>
      dsimp only
      split
      · refine (routed_of_purge found).update_self rfl replyEntry_stays ?_
        intro _
        rfl
      · refine ⟨toDst, found, (RoutingTable.settled_of_purge now found).stays, ?_⟩
        intro valid
        exact if_pos valid

theorem supersedes_of_replaces (known : old.validSeqNo = true)
    (replaced : replaces rrepHeader hop old = true) :
    Supersedes rrepHeader.dstSeqno (hop.setWidth 16) old ∧
      newer old.seqNo rrepHeader.dstSeqno = false := by
  unfold replaces at replaced
  split_ifs at replaced with unknown isNewer inactive
  · simp [known] at unknown
  · exact ⟨.inr (.inl isNewer), newer_asymm isNewer⟩
  · exact ⟨.inl inactive.2, inactive.1 ▸ newer_irrefl _⟩
  · obtain ⟨same, shorter⟩ := of_decide_eq_true replaced
    exact ⟨.inr (.inr ⟨same, BitVec.le_of_lt shorter⟩), same ▸ newer_irrefl _⟩

/-- What `updateForwardRoute` leaves of a route. -/
theorem updateForwardRoute_succeeds (found : (table.purge now).entry dst = some old) :
    Routed now (updateForwardRoute now rrepHeader (rrepHeader.hopCount + 1)
      (replyEntry now rrepHeader sender) table).2 dst
      (Succeeds (.reply rrepHeader sender) dst old) := by
  have start := succeeds_of_purge (.reply rrepHeader sender) found
  unfold updateForwardRoute RoutingTable.lookupRoute
  cases foundDst : (table.purge now).entry rrepHeader.dst with
  | none => exact start.addRoute _
  | some toDst =>
      dsimp only
      split
      case isFalse => exact start
      case isTrue replaced =>
        apply start.update
        intro isDst
        obtain rfl : rrepHeader.dst = dst := isDst
        rw [found] at foundDst
        cases foundDst
        refine ⟨replyEntry_stays, fun known => ?_⟩
        obtain ⟨supersedes, notOlder⟩ := supersedes_of_replaces known replaced
        refine ⟨supersedes, fun older => ?_⟩
        simp [Message.carriesOlder, notOlder] at older

/-- The end of a search. -/
theorem searchEnd_succeeds (found : (table.purge now).entry dst = some old)
    (fits : SearchEndFits (table.purge now) rrepHeader sender)
    {after : RoutingTable} (routed : Routed now after dst
      (Succeeds (.reply rrepHeader sender) dst old))
    (own : config.isMyOwnAddress rrepHeader.origin = true) :
    Routed now (deliverReply config now rrepHeader (replyEntry now rrepHeader sender)
      (updateForwardRoute now rrepHeader (rrepHeader.hopCount + 1)
        (replyEntry now rrepHeader sender) table).1 after) dst
      (Succeeds (.reply rrepHeader sender) dst old) := by
  unfold deliverReply
  rw [if_pos own]
  apply Routed.purge
  split
  case isFalse => exact routed
  case isTrue inSearch =>
    apply routed.update
    intro isDst
    obtain rfl : rrepHeader.dst = dst := isDst
    have isOld : (updateForwardRoute now rrepHeader (rrepHeader.hopCount + 1)
        (replyEntry now rrepHeader sender) table).1 = old := by
      simp [updateForwardRoute, RoutingTable.lookupRoute, found]
    rw [isOld] at inSearch
    refine ⟨replyEntry_stays, fun known => ⟨.inl (by simp [inSearch]), fun older => ?_⟩⟩
    apply fits old found known inSearch
    simpa [Message.carriesOlder] using older

/-- A next hop without an entry may have one in the place of the default entry. -/
theorem insertNextHopPrecursor_keeps (routed : Routed now table dst property)
    {nextHop : Address}
    (known : Routed now table nextHop .any ∨ Fits now dst property (default now))
    (precursor : Address) :
    Routed now (insertNextHopPrecursor now nextHop precursor table) dst property := by
  unfold insertNextHopPrecursor RoutingTable.lookupRoute
  cases found : (table.purge now).entry nextHop with
  | none =>
      apply routed.purge.update
      apply Fits.insertPrecursor
      rcases known with known | fits
      · exact absurd found known.purge.ne_none
      · exact fits
  | some toNextHop => exact routed.purge.update ((routed.purge.fits found).insertPrecursor _)

theorem insertNextHopPrecursor_any (routed : Routed now table dst .any)
    (nextHop precursor : Address) :
    Routed now (insertNextHopPrecursor now nextHop precursor table) dst .any := by
  refine insertNextHopPrecursor_keeps routed (.inr fun _ => ⟨?_, trivial⟩) precursor
  intro invalid
  cases invalid

theorem update_any (routed : Routed now table dst .any) {rt : RoutingTableEntry}
    (stays : rt.Stays now) : Routed now (table.update rt) dst .any :=
  routed.update fun _ => ⟨stays, trivial⟩

/-- What the precursors leave of a route. The entry of the origin is written between the two next
hops, so that the first of them does not matter to it. -/
theorem updatePrecursors_keeps (routed : Routed now table dst property)
    {toOrigin : RoutingTableEntry} (staysOrigin : toOrigin.Stays now)
    (fitsOrigin : Fits now dst property toOrigin)
    (known : ∀ toDst ∈ (table.purge now).entry rrepHeader.dst, toDst.flag = .valid →
      (toOrigin.dst = dst ∨ Routed now table toDst.nextHop .any ∨
        Fits now dst property (default now)) ∧
      (Routed now table toOrigin.nextHop .any ∨ Fits now dst property (default now))) :
    Routed now (updatePrecursors now rrepHeader toOrigin table) dst property := by
  unfold updatePrecursors RoutingTable.lookupRoute
  cases found : (table.purge now).entry rrepHeader.dst with
  | none => exact routed.purge
  | some toDst =>
      dsimp only
      split
      case isFalse => exact routed.purge
      case isTrue valid =>
        obtain ⟨firstKnown, secondKnown⟩ := known toDst found valid
        have staysDst := insertPrecursor_stays
          (RoutingTable.settled_of_purge now found).stays toOrigin.nextHop
        have fitsDst := (routed.purge.fits found).insertPrecursor toOrigin.nextHop
        have middle := routed.purge.update fitsDst
        have staysPrecursor := insertPrecursor_stays staysOrigin toDst.nextHop
        apply insertNextHopPrecursor_keeps
        · by_cases isOrigin : toOrigin.dst = dst
          · refine (insertNextHopPrecursor_any middle.any _ _).update_self ?_ staysPrecursor ?_
            · rw [insertPrecursor_dst]
              exact isOrigin
            · rw [route_insertPrecursor]
              exact (fitsOrigin isOrigin).2
          · refine (insertNextHopPrecursor_keeps middle ?_ _).update (fitsOrigin.insertPrecursor _)
            rcases firstKnown with isDst | known | fits
            · exact absurd isDst isOrigin
            · exact .inl (update_any known.purge staysDst)
            · exact .inr fits
        · rcases secondKnown with known | fits
          · left
            apply update_any _ staysPrecursor
            exact insertNextHopPrecursor_any (update_any known.purge staysDst) _ _
          · exact .inr fits

theorem setLifeTime_stays {rt : RoutingTableEntry} (stays : rt.Stays now) (lifetime : Int) :
    (rt.setLifeTime now (max lifetime (rt.getLifeTime now))).Stays now :=
  stays_of_max stays rfl rfl

theorem default_fits (fits : MayOverwrite message (table.purge now) uninitializedAddress 0 0
      uninitializedAddress) (found : (table.purge now).entry dst = some old) :
    Fits now dst (Succeeds message dst old) (default now) := by
  intro isDst
  obtain rfl : uninitializedAddress = dst := isDst
  constructor
  · intro invalid
    cases invalid
  · exact fits old found

/-- Where the guard holds, the next hops of a forwarded reply are known, or the entry that is
written for an unknown one may replace what the destination has. -/
theorem known_or_fits (found : (table.purge now).entry dst = some old)
    (fits : ForwardsUnknown (table.purge now) rrepHeader sender →
      MayOverwrite message (table.purge now) uninitializedAddress 0 0 uninitializedAddress)
    {toOrigin : RoutingTableEntry} {nextHop : Address}
    (foundOrigin : (table.purge now).entry rrepHeader.origin = some toOrigin)
    (flag : toOrigin.flag ≠ .inSearch)
    (leadsTo : forwardHop (table.purge now) rrepHeader sender = some nextHop) :
    (rrepHeader.origin = dst ∨ ¬ Unknown (table.purge now) rrepHeader nextHop ∨
      Fits now dst (Succeeds message dst old) (default now)) ∧
    (¬ Unknown (table.purge now) rrepHeader toOrigin.nextHop ∨
      Fits now dst (Succeeds message dst old) (default now)) := by
  by_cases isDefault : uninitializedAddress = dst
  · constructor
    · by_cases originIs : rrepHeader.origin = dst
      · exact .inl originIs
      · refine .inr (Decidable.not_or_of_imp fun unknown => default_fits (fits ?_) found)
        exact ⟨toOrigin, foundOrigin, flag, nextHop, leadsTo,
          .inl ⟨isDefault ▸ originIs, unknown⟩⟩
    · refine Decidable.not_or_of_imp fun unknown => default_fits (fits ?_) found
      exact ⟨toOrigin, foundOrigin, flag, nextHop, leadsTo, .inr unknown⟩
  · exact ⟨.inr (.inr (fits_of_ne isDefault)), .inr (fits_of_ne isDefault)⟩

/-- The way of a reply to its origin. What has been done since the update of the route keeps all
routes, and the entries of other destinations. -/
theorem forwardReply_succeeds {table after : RoutingTable} {toDst : RoutingTableEntry}
    (found : (table.purge now).entry dst = some old)
    (fits : ForwardsUnknown (table.purge now) rrepHeader sender →
      MayOverwrite (.reply rrepHeader sender) (table.purge now) uninitializedAddress 0 0
        uninitializedAddress)
    (isReply : rrepHeader.dst ≠ rrepHeader.origin)
    (notOwn : config.isMyOwnAddress rrepHeader.origin = false)
    (keeps : ∀ address property, Routed now (updateForwardRoute now rrepHeader
      (rrepHeader.hopCount + 1) (replyEntry now rrepHeader sender) table).2 address property →
        Routed now after address property)
    (same : ∀ address, rrepHeader.dst ≠ address →
      (after.purge now).entry address = (table.purge now).entry address) :
    Routed now (deliverReply config now rrepHeader (replyEntry now rrepHeader sender) toDst after)
      dst (Succeeds (.reply rrepHeader sender) dst old) := by
  have routed := (keeps dst _ (updateForwardRoute_succeeds found)).purge
  have leads := (keeps rrepHeader.dst _ updateForwardRoute_leadsTo).purge
  unfold deliverReply RoutingTable.lookupRoute
  rw [notOwn, if_neg Bool.false_ne_true]
  cases foundOrigin : (after.purge now).entry rrepHeader.origin with
  | none => exact routed
  | some toOrigin =>
      dsimp only
      split_ifs with inSearch
      · exact routed
      · have stays := setLifeTime_stays (RoutingTable.settled_of_purge now foundOrigin).stays
          config.activeRouteTimeout
        have isOrigin := (after.purge now).dst_eq foundOrigin
        have before := same _ isReply ▸ foundOrigin
        -- every address that the table knew, or that the reply made known, has a route
        have known : ∀ address, ¬ Unknown (table.purge now) rrepHeader address →
            Routed now ((after.purge now).update (toOrigin.setLifeTime now
              (max config.activeRouteTimeout (toOrigin.getLifeTime now)))) address .any := by
          intro address notUnknown
          apply update_any _ stays
          by_cases isDst : address = rrepHeader.dst
          · exact isDst ▸ leads.any
          · cases foundBefore : (table.purge now).entry address with
            | none => exact absurd ⟨foundBefore, isDst⟩ notUnknown
            | some rt => exact (keeps address _ (updateForwardRoute_succeeds foundBefore)).purge.any
        have fitsOrigin : Fits now dst (Succeeds (.reply rrepHeader sender) dst old)
            (toOrigin.setLifeTime now
              (max config.activeRouteTimeout (toOrigin.getLifeTime now))) :=
          fun isDst => ⟨stays, (routed.fits foundOrigin isDst).2⟩
        refine updatePrecursors_keeps (routed.update fitsOrigin) stays fitsOrigin ?_
        intro toDst foundDst valid
        have leadsTo : forwardHop (table.purge now) rrepHeader sender = some toDst.nextHop := by
          refine (leads.update (fits_of_ne ?_)).purge.holds foundDst valid
          exact isOrigin.trans_ne isReply.symm
        obtain ⟨first, second⟩ := known_or_fits found fits before inSearch leadsTo
        constructor
        · rcases first with originIs | notUnknown | fits
          · exact .inl (isOrigin.trans originIs)
          · exact .inr (.inl (known _ notUnknown))
          · exact .inr (.inr fits)
        · rcases second with notUnknown | fits
          · exact .inl (known _ notUnknown)
          · exact .inr fits

/-- A reply that fits leaves every destination a route that may replace the one it had. -/
theorem recvReply_succeeds {node : RoutingProtocol}
    (found : (node.routingTable.purge now).entry dst = some old)
    (fits : ReplyFits config node now rrepHeader sender) :
    Routed now (recvReply config now rrepHeader sender node).routingTable dst
      (Succeeds (.reply rrepHeader sender) dst old) := by
  obtain ⟨helloFits, searchFits, forwardFits⟩ := fits
  unfold recvReply
  dsimp only
  split
  case isTrue isHello => exact processHello_succeeds found (helloFits isHello)
  case isFalse isReply =>
    cases own : config.isMyOwnAddress rrepHeader.origin with
    | true =>
        apply searchEnd_succeeds found (searchFits isReply own) _ own
        split
        · exact (updateForwardRoute_succeeds found).purge
        · exact updateForwardRoute_succeeds found
    | false =>
        apply forwardReply_succeeds found (forwardFits isReply own) isReply own
        · intro address property routed
          split
          · exact routed.purge
          · exact routed
        · intro address other
          have purged : (updateForwardRoute now rrepHeader (rrepHeader.hopCount + 1)
              (replyEntry now rrepHeader sender) node.routingTable).2.entry address =
                (node.routingTable.purge now).entry address := updateForwardRoute_of_ne other
          split
          · exact RoutingTable.purge_of_purged now (RoutingTable.purge_of_purged now purged)
          · exact RoutingTable.purge_of_purged now purged

end Reply

/-- One call. -/
theorem step_fresh {config : Config} {node : RoutingProtocol} {call : Call}
    (fits : WritesFit config node call) : Fresh config node call := by
  obtain ⟨now, message⟩ := call
  intro dst old found new foundNew
  cases message with
  | request rreqHeader src => exact (recvRequest_succeeds found fits).holds foundNew
  | reply rrepHeader sender => exact (recvReply_succeeds found fits).holds foundNew

/-- From any state of a node, if every message fits what the table has when it is received, every
call keeps the routes fresh. -/
theorem along_fresh (config : Config) (node : RoutingProtocol) {calls : List Call}
    (fit : (receive config).Along (WritesFit config) node calls) :
    (receive config).Along (Fresh config) node calls := by
  have legal : (receive config).Legal node calls :=
    Machine.legal_of_enabled (fun _ _ => trivial) node calls
  have always : (receive config).Always (fun _ => True) node calls :=
    legal.always (fun _ _ _ _ => trivial) trivial
  exact fit.mono (fun _ _ _ _ => step_fresh) always legal

/-- A node with the address 1. -/
def oneAddress : Config where
  socketAddresses := [1]
  activeRouteTimeout := 3000
  netTraversalTime := 2800
  nodeTraversalTime := 40
  pathDiscoveryTime := 5600
  allowedHelloLoss := 2
  helloInterval := 1000
  enableHello := false

/-- A node without routes. -/
def noRoutes : RoutingProtocol where
  routingTable := .empty 15000
  rreqIdCache := []
  nb := []

/-- A request of the node 10 for the node 20. -/
def requestOfTen (id originSeqno : BitVec 32) (hopCount : BitVec 8) : RreqHeader where
  gratuitousRrep := false
  destinationOnly := false
  unknownSeqno := true
  hopCount := hopCount
  id := id
  dst := 20
  dstSeqno := 0
  origin := 10
  originSeqno := originSeqno

theorem along_fresh_newer :
    (receive oneAddress).Along (Fresh oneAddress) noRoutes
      [⟨0, .request (requestOfTen 1 5 0) 2⟩, ⟨10, .request (requestOfTen 2 6 7) 3⟩] :=
  along_fresh oneAddress noRoutes (by decide)

/-- A hello of the node 2. -/
def helloOfTwo : RrepHeader where
  ackRequired := false
  hopCount := 0
  dst := 2
  dstSeqno := 5
  origin := 2
  lifeTime := 2000

/-- The request of another node gives the neighbour that passes it on the sequence number of that
node. -/
theorem not_along_fresh :
    ¬ ∀ config node calls, (receive config).Along (Fresh config) node calls := by
  intro fresh
  have second := (fresh oneAddress noRoutes [⟨0, .reply helloOfTwo 2⟩,
    ⟨10, .request (requestOfTen 1 3 0) 2⟩]).2.1
  have kept := (second 2 _ rfl _ rfl rfl).1
  revert kept
  decide

end Ns3.Aodv
