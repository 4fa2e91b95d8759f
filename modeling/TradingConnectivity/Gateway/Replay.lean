import TradingConnectivity.Gateway.JournalCodec
import TradingConnectivity.Gateway.OrderGateway
import TradingConnectivity.Machine.EventSourcing

/-! # Replaying the journal rebuilds the gateway

Every call of the gateway is event-sourced: the entries it journals (`journaled`), applied by the
replay loop, turn the orders and the highest issued counter before the call into those after it.
Together with the codec this makes recovery exact: the bytes written by a run decode to the run's
entries and replaying them yields the orders and the generator of the running gateway.
-/

namespace TradingConnectivity.Gateway

namespace OrderGateway

/-! ## What a call journals -/

/-- The tracked order of an id unless it is terminal. -/
def live? (gw : OrderGateway) (cloid : ClientOrderId) : Option PendingOrder :=
  match gw.orders[cloid]? with
  | none => none
  | some order => if order.status.isTerminal then none else some order

theorem live?_eq_some {gw : OrderGateway} {cloid : ClientOrderId} {order : PendingOrder} :
    gw.live? cloid = some order ↔
      gw.orders[cloid]? = some order ∧ order.status.isTerminal = false := by
  unfold live?
  split
  · simp_all
  · split <;> grind

/-- The entry an accepted call journals; a call that is refused or ignored journals nothing. -/
def journaled (gw : OrderGateway) : GatewayOp → Option JournalEntry
  | .enqueue request nowNs => some (.orderRequested nowNs gw.cloidGen.generate.1 request)
  | .onAck cloid exchangeId nowNs =>
      (gw.live? cloid).bind fun order =>
        if order.status = .new then none else some (.orderAcknowledged nowNs cloid exchangeId)
  | .onFill cloid fillQty fillPrice nowNs =>
      (gw.live? cloid).map fun order =>
        .orderFilled nowNs cloid fillQty fillPrice (fillOrder order fillQty nowNs).2
  | .onCancel cloid nowNs => (gw.live? cloid).map fun _ => .orderCancelled nowNs cloid
  | .onReject cloid reason nowNs => (gw.live? cloid).map fun _ => .orderRejected nowNs cloid reason
  | .onExpire cloid nowNs => (gw.live? cloid).map fun _ => .orderExpired nowNs cloid

/-! ## One call -/

section live

variable {gw : OrderGateway} {cloid : ClientOrderId} {order : PendingOrder}

/-- A call about a live order is accepted as a commit of the updated order. -/
theorem onAck_live (live : gw.live? cloid = some order) (unacked : order.status ≠ .new)
    (exchangeId : UInt64) (nowNs : Int64) :
    gw.onAck cloid exchangeId nowNs = gw.commit cloid
      { order with exchangeId := some exchangeId, status := .new, lastUpdatedNs := nowNs }
      (.orderAcknowledged nowNs cloid exchangeId) := by
  obtain ⟨found, running⟩ := live?_eq_some.mp live
  simp only [onAck, found, running, unacked, Bool.false_eq_true, if_false]

theorem onFill_live (live : gw.live? cloid = some order) (fillQty fillPrice nowNs : Int64) :
    gw.onFill cloid fillQty fillPrice nowNs =
      gw.commit cloid (fillOrder order fillQty nowNs).1
        (.orderFilled nowNs cloid fillQty fillPrice (fillOrder order fillQty nowNs).2) := by
  obtain ⟨found, running⟩ := live?_eq_some.mp live
  simp only [onFill, found, running, Bool.false_eq_true, if_false]

theorem close_live (live : gw.live? cloid = some order) (target : OrderStatus) (nowNs : Int64)
    (entry : JournalEntry) : gw.close cloid target nowNs entry =
      gw.commit cloid { order with status := target, lastUpdatedNs := nowNs } entry := by
  obtain ⟨found, running⟩ := live?_eq_some.mp live
  simp only [close, found, running, Bool.false_eq_true, if_false]

theorem onCancel_live (live : gw.live? cloid = some order) (nowNs : Int64) :
    gw.onCancel cloid nowNs =
      gw.commit cloid { order with status := .cancelled, lastUpdatedNs := nowNs }
        (.orderCancelled nowNs cloid) := by
  obtain ⟨found, running⟩ := live?_eq_some.mp live
  have open_ : order.status ≠ .cancelled := by
    rintro closed
    simp only [closed, OrderStatus.isTerminal, Bool.true_eq_false] at running
  simp only [onCancel, found, open_, if_false, close_live live]

/-- A call about an unknown or terminal order changes nothing. -/
theorem onAck_dead (dead : gw.live? cloid = none) (exchangeId : UInt64) (nowNs : Int64) :
    (gw.onAck cloid exchangeId nowNs).2 = gw := by
  grind [live?, onAck]

theorem onFill_dead (dead : gw.live? cloid = none) (fillQty fillPrice nowNs : Int64) :
    (gw.onFill cloid fillQty fillPrice nowNs).2 = gw := by
  grind [live?, onFill]

theorem close_dead (dead : gw.live? cloid = none) (target : OrderStatus) (nowNs : Int64)
    (entry : JournalEntry) : (gw.close cloid target nowNs entry).2 = gw := by
  grind [live?, close]

theorem onCancel_dead (dead : gw.live? cloid = none) (nowNs : Int64) :
    (gw.onCancel cloid nowNs).2 = gw := by
  grind [live?, onCancel, close]

/-- An entry about a live order replays as the update of this order. -/
private theorem updateLive_live (live : gw.live? cloid = some order)
    (update : PendingOrder → PendingOrder) :
    updateLive gw.orders cloid update = gw.orders.insert cloid (update order) := by
  obtain ⟨found, running⟩ := live?_eq_some.mp live
  simp only [updateLive, found, running, Bool.false_eq_true, if_false]

/-- A call leaves the gateway alone, or it commits one live order with an entry that replays to the
same order. -/
def Updates (gw : OrderGateway) (op : GatewayOp) : Prop :=
  (gw.journaled op = none ∧ (gw.exec op).2 = gw) ∨
    ∃ cloid order updated entry, gw.live? cloid = some order ∧ gw.journaled op = some entry ∧
      entry.cloid = cloid ∧ (gw.exec op).2 = (gw.commit cloid updated entry).2 ∧
      ∀ maxCounter, replayEntry (gw.orders, maxCounter) entry =
        (gw.orders.insert cloid updated, maxCounter)

/-- A call that journals an entry for every live order. -/
theorem updates_live {op : GatewayOp} {entry : PendingOrder → JournalEntry}
    (update : PendingOrder → PendingOrder)
    (journaled : gw.journaled op = (gw.live? cloid).map entry)
    (dead : gw.live? cloid = none → (gw.exec op).2 = gw)
    (running : ∀ order, gw.live? cloid = some order → (entry order).cloid = cloid ∧
      (gw.exec op).2 = (gw.commit cloid (update order) (entry order)).2 ∧
      ∀ maxCounter, replayEntry (gw.orders, maxCounter) (entry order) =
        (gw.orders.insert cloid (update order), maxCounter)) : gw.Updates op := by
  cases live : gw.live? cloid with
  | none =>
    rw [live, Option.map_none] at journaled
    exact .inl ⟨journaled, dead live⟩
  | some order =>
    rw [live, Option.map_some] at journaled
    exact .inr ⟨cloid, order, update order, entry order, live, journaled, running order live⟩

end live

/-- A call issues an id and tracks a new order, or it is an update. -/
theorem exec_cases (gw : OrderGateway) (op : GatewayOp) :
    (∃ request nowNs, op = .enqueue request nowNs) ∨ gw.Updates op := by
  cases op with
  | enqueue request nowNs => exact .inl ⟨request, nowNs, rfl⟩
  | onAck cloid exchangeId nowNs =>
    right
    cases live : gw.live? cloid with
    | none => exact .inl ⟨by simp only [journaled, live, Option.bind_none], onAck_dead live _ _⟩
    | some order =>
      -- a repeated acknowledgement is accepted but journals nothing
      by_cases acked : order.status = .new
      · have found := (live?_eq_some.mp live).1
        exact .inl ⟨by simp only [journaled, live, Option.bind_some, acked, if_true],
          by simp [exec, onAck, found, acked]⟩
      · refine .inr ⟨cloid, order, _, _, live, ?_, rfl,
          congrArg Prod.snd (onAck_live live acked _ _), ?_⟩
        · simp only [journaled, live, Option.bind_some, acked, if_false]
        · intro maxCounter
          simp only [replayEntry, updateLive_live live]
  | onFill cloid fillQty fillPrice nowNs =>
    refine .inr (updates_live (fun order => (fillOrder order fillQty nowNs).1) rfl
      (fun dead => onFill_dead dead _ _ _) fun order live => ?_)
    refine ⟨rfl, congrArg Prod.snd (onFill_live live _ _ _), fun maxCounter => ?_⟩
    simp only [replayEntry, updateLive_live live, fillOrder, decide_eq_true_eq]
  | onCancel cloid nowNs =>
    refine .inr (updates_live
      (fun order => { order with status := .cancelled, lastUpdatedNs := nowNs }) rfl
      (fun dead => onCancel_dead dead _) fun order live => ?_)
    refine ⟨rfl, congrArg Prod.snd (onCancel_live live _), fun maxCounter => ?_⟩
    simp only [replayEntry, updateLive_live live]
  | onReject cloid reason nowNs =>
    refine .inr (updates_live
      (fun order => { order with status := .rejected, lastUpdatedNs := nowNs }) rfl
      (fun dead => close_dead dead _ _ _) fun order live => ?_)
    refine ⟨rfl, congrArg Prod.snd (close_live live _ _ _), fun maxCounter => ?_⟩
    simp only [replayEntry, updateLive_live live]
  | onExpire cloid nowNs =>
    refine .inr (updates_live
      (fun order => { order with status := .expired, lastUpdatedNs := nowNs }) rfl
      (fun dead => close_dead dead _ _ _) fun order live => ?_)
    refine ⟨rfl, congrArg Prod.snd (close_live live _ _ _), fun maxCounter => ?_⟩
    simp only [replayEntry, updateLive_live live]

/-! ## Whole runs -/

/-- The highest counter the generator has issued. -/
def lastCounter (gw : OrderGateway) : Option UInt64 :=
  if gw.cloidGen.counter = 0 then none else some (gw.cloidGen.counter - 1)

/-- What the replay loop maintains, read off a running gateway. -/
def replayView (gw : OrderGateway) : Orders × Option UInt64 := (gw.orders, gw.lastCounter)

/-- Restarting after the highest issued counter restores the generator. -/
private theorem generator_of_lastCounter (gw : OrderGateway) {instanceId : UInt32}
    (same : gw.cloidGen.instanceId = instanceId) :
    gw.lastCounter.elim (.new instanceId) (.withStartAfter instanceId) = gw.cloidGen := by
  obtain ⟨_, ⟨_, counter⟩, _, _⟩ := gw
  subst same
  by_cases unused : counter = 0
  · simp only [lastCounter, unused, if_true, Option.elim_none, ClientOrderIdGenerator.new]
  · have below : counter - 1 ≠ -1 := by grind
    have back : counter - 1 + 1 = counter := by grind
    simp only [lastCounter, unused, if_false, Option.elim_some,
      ClientOrderIdGenerator.withStartAfter, below, back]

end OrderGateway

namespace GatewayOp

def isEnqueue : GatewayOp → Bool
  | .enqueue .. => true
  | _ => false

/-- The strings of a call fit the journal's length prefixes. An id of more than 255 bytes names no
order, so a rejection under such an id writes no record. -/
def Encodable : GatewayOp → Prop
  | .enqueue request _ => request.symbol.utf8ByteSize ≤ 255
  | .onReject cloid reason nowNs => cloid.asStr.utf8ByteSize ≤ 255 →
      (encodePayload (.orderRejected nowNs cloid reason)).length ≤ 65535
  | _ => True

end GatewayOp

/-- The entries journaled by one call. -/
def callEntries (gw : OrderGateway) (op : GatewayOp) : List JournalEntry :=
  (gw.journaled op).toList

/-- The entries journaled by a run, oldest first. -/
def runJournal (gw : OrderGateway) (calls : List GatewayOp) : List JournalEntry :=
  gatewayMachine.log callEntries gw calls

/-- What holds between the calls of a run: the journal works, tracked ids are short, and the
instance's generator has room for the calls to come. -/
structure Recoverable (instanceId : UInt32) (gw : OrderGateway) (calls : List GatewayOp) :
    Prop where
  reliable : gw.journal.Reliable
  generator : gw.cloidGen.instanceId = instanceId
  short : ∀ cloid ∈ gw.orders, cloid.asStr.utf8ByteSize ≤ 255
  room : gw.cloidGen.counter.toNat + calls.countP GatewayOp.isEnqueue < 2 ^ 64
  encodable : ∀ op ∈ calls, op.Encodable

namespace Recoverable

variable {instanceId : UInt32} {gw : OrderGateway} {op : GatewayOp} {rest : List GatewayOp}

private theorem short_of_live (ok : Recoverable instanceId gw (op :: rest)) {cloid : ClientOrderId}
    {order : PendingOrder} (live : gw.live? cloid = some order) :
    cloid.asStr.utf8ByteSize ≤ 255 := by
  obtain ⟨found, _⟩ := OrderGateway.live?_eq_some.mp live
  apply ok.short cloid
  rw [Std.ExtTreeMap.mem_iff_isSome_getElem?, found, Option.isSome_some]

/-- Every journaled entry can be read back. -/
theorem representable (ok : Recoverable instanceId gw (op :: rest)) {entry : JournalEntry}
    (written : gw.journaled op = some entry) : entry.Representable := by
  have strings := ok.encodable op List.mem_cons_self
  have short : entry.cloid.asStr.utf8ByteSize ≤ 255 := by
    rcases gw.exec_cases op with ⟨request, nowNs, rfl⟩ | ⟨silent, _⟩ |
        ⟨cloid, order, _, _, live, journaled, named, _⟩
    · cases written
      exact generate_utf8ByteSize _
    · rw [silent] at written
      cases written
    · obtain rfl := Option.some.inj (journaled.symm.trans written)
      exact named ▸ ok.short_of_live live
  refine .of_short short ?_ ?_
  · rintro timestampNs id request rfl
    cases op <;> simp [OrderGateway.journaled, Option.bind_eq_some_iff] at written
    obtain ⟨_, _, rfl⟩ := written
    exact strings
  · rintro timestampNs id reason rfl
    cases op <;> simp [OrderGateway.journaled, Option.bind_eq_some_iff] at written
    obtain ⟨_, rfl, rfl, rfl⟩ := written
    exact strings short

/-- Issuing an id moves the highest issued counter to the one inside the id. -/
theorem replay_enqueue (gw : OrderGateway) (request : OrderRequest) (nowNs : Int64)
    (room : gw.cloidGen.counter.toNat + 1 < 2 ^ 64) {after : OrderGateway}
    (generator : after.cloidGen = gw.cloidGen.generate.2)
    (orders : after.orders = gw.orders.insert gw.cloidGen.generate.1
      (OrderGateway.pendingOrder gw.cloidGen.generate.1 request nowNs)) :
    after.replayView = OrderGateway.replayEntry gw.replayView
      (.orderRequested nowNs gw.cloidGen.generate.1 request) := by
  have counter : after.cloidGen.counter = gw.cloidGen.counter + 1 := by rw [generator]; rfl
  have issued : after.lastCounter = some gw.cloidGen.counter := by
    rw [OrderGateway.lastCounter, counter, if_neg (UInt64.succ_ne_zero room),
      UInt64.succ_sub_one]
  have highest : gw.lastCounter.elim gw.cloidGen.counter (max · gw.cloidGen.counter) =
      gw.cloidGen.counter := by
    unfold OrderGateway.lastCounter
    split
    · rfl
    · rename_i issuedBefore
      exact if_pos (UInt64.pred_le issuedBefore)
  simp only [OrderGateway.replayView, OrderGateway.replayEntry, parseCounter_generate, issued,
    orders, highest]

/-- One call keeps the invariant, appends its entry to the journal's bytes and changes the view as
replay does. -/
theorem step (ok : Recoverable instanceId gw (op :: rest)) :
    Recoverable instanceId (gatewayMachine.next gw op) rest ∧
      gatewayMachine.Sourced callEntries (fun gw => gw.journal.contents)
        (fun bytes entry => bytes ++ encodeEntry entry) gw op ∧
      gatewayMachine.Sourced callEntries OrderGateway.replayView OrderGateway.replayEntry gw
        op := by
  have later : ∀ op ∈ rest, op.Encodable := fun op member =>
    ok.encodable op (List.mem_cons_of_mem _ member)
  have room := ok.room
  change Recoverable instanceId (gw.exec op).2 rest ∧ (gw.exec op).2.journal.contents = _ ∧
    (gw.exec op).2.replayView = _
  rcases gw.exec_cases op with ⟨request, nowNs, rfl⟩ | ⟨silent, same⟩ |
      ⟨cloid, order, updated, entry, live, journaled, _, committed, replayed⟩
  · obtain ⟨journal, appended, reliable, contents⟩ := Journal.append_reliable ok.reliable
      (.orderRequested nowNs gw.cloidGen.generate.1 request)
    have effect : (gw.exec (.enqueue request nowNs)).2 = { gw with
        cloidGen := gw.cloidGen.generate.2
        journal
        orders := gw.orders.insert gw.cloidGen.generate.1
          (OrderGateway.pendingOrder gw.cloidGen.generate.1 request nowNs) } := by
      simp only [OrderGateway.exec, OrderGateway.enqueue, appended, Prod.map, id]
    simp only [List.countP_cons, GatewayOp.isEnqueue, if_true] at room
    rw [effect]
    refine ⟨⟨reliable, ok.generator, ?_, ?_, later⟩, contents,
      replay_enqueue gw request nowNs (by omega) rfl rfl⟩
    · intro cloid member
      rcases Std.ExtTreeMap.mem_insert.mp member with same | known
      · exact Std.LawfulEqOrd.eq_of_compare same ▸ generate_utf8ByteSize _
      · exact ok.short cloid known
    · change (gw.cloidGen.counter + 1).toNat + _ < _
      rw [UInt64.toNat_succ (by omega)]
      omega
  · simp only [List.countP_cons] at room
    rw [same, callEntries, silent]
    exact ⟨⟨ok.reliable, ok.generator, ok.short, by omega, later⟩, rfl, rfl⟩
  · obtain ⟨journal, appended, reliable, contents⟩ := Journal.append_reliable ok.reliable entry
    simp only [List.countP_cons] at room
    have room' : gw.cloidGen.counter.toNat + rest.countP GatewayOp.isEnqueue < 2 ^ 64 := by omega
    rw [committed, callEntries, journaled, OrderGateway.commit, appended]
    refine ⟨⟨reliable, ok.generator, ?_, room', later⟩, contents, ?_⟩
    · intro other member
      rcases Std.ExtTreeMap.mem_insert.mp member with same | known
      · exact Std.LawfulEqOrd.eq_of_compare same ▸ ok.short_of_live live
      · exact ok.short other known
    · exact (replayed _).symm

end Recoverable

namespace Recoverable

variable {instanceId : UInt32} {gw : OrderGateway} {calls : List GatewayOp}

theorem final (ok : Recoverable instanceId gw calls) :
    Recoverable instanceId (gatewayMachine.final gw calls) [] :=
  gatewayMachine.admissible_final (fun _ _ _ before => before.step.1) ok

private theorem runJournal_representable (ok : Recoverable instanceId gw calls) :
    ∀ entry ∈ runJournal gw calls, entry.Representable :=
  gatewayMachine.forall_mem_log (fun _ _ _ before => before.step.1)
    (fun _ _ _ before _ member => before.representable (Option.mem_toList.mp member)) ok

/-- A run appends the bytes of its entries. -/
theorem contents_final (ok : Recoverable instanceId gw calls) :
    (gatewayMachine.final gw calls).journal.contents =
      gw.journal.contents ++ (runJournal gw calls).flatMap encodeEntry := by
  have folded := gatewayMachine.foldl_log (fun _ _ _ before => before.step.1)
    (fun _ _ _ before => before.step.2.1) ok
  rw [← folded, List.foldl_append_eq_append, runJournal, List.flatMap_def]

/-- The entries of a run replay to its last view. -/
theorem replayView_final (ok : Recoverable instanceId gw calls) :
    (runJournal gw calls).foldl OrderGateway.replayEntry gw.replayView =
      (gatewayMachine.final gw calls).replayView :=
  gatewayMachine.foldl_log (fun _ _ _ before => before.step.1)
    (fun _ _ _ before => before.step.2.2) ok

end Recoverable

/-- Decoding the bytes of a run's journal and replaying the entries on a fresh gateway of the same
instance gives the orders and the id generator of the gateway that made the run. -/
theorem replayJournal_decodeAll (instanceId : UInt32) {journal : Journal}
    (empty : journal.contents = []) (reliable : journal.Reliable) {calls : List GatewayOp}
    (encodable : ∀ op ∈ calls, op.Encodable) (room : calls.countP GatewayOp.isEnqueue < 2 ^ 64) :
    ∃ entries,
      decodeAll (gatewayMachine.final (.fresh instanceId journal) calls).journal.contents =
        .ok entries ∧
      ∀ blank : Journal,
        ((OrderGateway.fresh instanceId blank).replayJournal entries).orders =
          (gatewayMachine.final (.fresh instanceId journal) calls).orders ∧
        ((OrderGateway.fresh instanceId blank).replayJournal entries).cloidGen =
          (gatewayMachine.final (.fresh instanceId journal) calls).cloidGen := by
  have ok : Recoverable instanceId (.fresh instanceId journal) calls :=
    ⟨reliable, rfl, fun cloid member => absurd member Std.ExtTreeMap.not_mem_empty,
      by simpa [OrderGateway.fresh, ClientOrderIdGenerator.new] using room, encodable⟩
  refine ⟨runJournal (.fresh instanceId journal) calls, ?_, ?_⟩
  · rw [ok.contents_final]
    change decodeAll (journal.contents ++ _) = _
    rw [empty, List.nil_append]
    exact decodeAll_encodeEntries ok.runJournal_representable
  · intro blank
    have replayed : (runJournal (.fresh instanceId journal) calls).foldl
        OrderGateway.replayEntry (∅, none) = _ := ok.replayView_final
    have orders : (OrderGateway.fresh instanceId blank).orders = ∅ := rfl
    simp only [OrderGateway.replayJournal, orders, replayed, OrderGateway.replayView, true_and]
    exact (gatewayMachine.final (.fresh instanceId journal) calls).generator_of_lastCounter
      ok.final.generator

/-- An order that is acknowledged and then rejected is recovered. -/
theorem replayJournal_decodeAll_rejected :
    ∃ entries,
      decodeAll (gatewayMachine.final (.fresh 7 .inMemory)
        [.enqueue ⟨"BTCUSDT", .buy, .limit, 5, some 100, .goodTillCancel⟩ 1,
          .onAck ⟨"cc-0007-0000000000000000"⟩ 42 2,
          .onReject ⟨"cc-0007-0000000000000000"⟩ "late" 3]).journal.contents = .ok entries ∧
      ∀ blank : Journal,
        ((OrderGateway.fresh 7 blank).replayJournal entries).orders =
          (gatewayMachine.final (.fresh 7 .inMemory)
            [.enqueue ⟨"BTCUSDT", .buy, .limit, 5, some 100, .goodTillCancel⟩ 1,
              .onAck ⟨"cc-0007-0000000000000000"⟩ 42 2,
              .onReject ⟨"cc-0007-0000000000000000"⟩ "late" 3]).orders ∧
        ((OrderGateway.fresh 7 blank).replayJournal entries).cloidGen =
          (gatewayMachine.final (.fresh 7 .inMemory)
            [.enqueue ⟨"BTCUSDT", .buy, .limit, 5, some 100, .goodTillCancel⟩ 1,
              .onAck ⟨"cc-0007-0000000000000000"⟩ 42 2,
              .onReject ⟨"cc-0007-0000000000000000"⟩ "late" 3]).cloidGen := by
  have reliable : Journal.inMemory.Reliable := trivial
  refine replayJournal_decodeAll 7 rfl reliable ?_ (by decide)
  simp only [List.forall_mem_cons, GatewayOp.Encodable]
  exact ⟨by decide, trivial, fun _ => by decide, fun _ member => absurd member List.not_mem_nil⟩

end TradingConnectivity.Gateway
