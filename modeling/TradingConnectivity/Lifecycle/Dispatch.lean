import TradingConnectivity.Gateway.Replay
import TradingConnectivity.Lifecycle.Quantities

/-! # Dispatching actions to the gateway

The caller of the engine performs every returned action by the gateway method it names and stops at
the first error. A burst of fills that stays within the request's quantity is accepted as a whole,
and calls about one order leave the others alone.
-/

namespace TradingConnectivity.Lifecycle

open Gateway (ClientOrderId OrderGateway OrderStatus PendingOrder Journal)

/-- Perform one action. -/
def dispatch (gw : OrderGateway) (cloid : ClientOrderId) (nowNs : Int64) :
    SmAction → Except Gateway.Error Unit × OrderGateway
  | .applyAck exchangeId => gw.onAck cloid exchangeId nowNs
  | .applyFill fillQty fillPrice => gw.onFill cloid fillQty fillPrice nowNs
  | .applyCancel => gw.onCancel cloid nowNs
  | .applyReject reason => gw.onReject cloid reason nowNs
  | .applyExpire => gw.onExpire cloid nowNs
  | .scheduleStatusCheck => (.ok (), gw)
  | .ignored => (.ok (), gw)

/-- Perform the actions in order, up to the first error. -/
def dispatchAll (gw : OrderGateway) (nowNs : Int64) :
    List (ClientOrderId × SmAction) → Except Gateway.Error Unit × OrderGateway
  | [] => (.ok (), gw)
  | (cloid, action) :: rest =>
      match dispatch gw cloid nowNs action with
      | (.error e, gw) => (.error e, gw)
      | (.ok (), gw) => dispatchAll gw nowNs rest

/-- The actions of one order, as the dispatcher gets them. -/
def addressed (cloid : ClientOrderId) (actions : List SmAction) :
    List (ClientOrderId × SmAction) :=
  actions.map fun action => (cloid, action)

/-- Status checks are no business of the gateway. -/
theorem dispatchAll_checks (gw : OrderGateway) (nowNs : Int64)
    {actions : List (ClientOrderId × SmAction)}
    (checks : ∀ entry ∈ actions, entry.2 = .scheduleStatusCheck) :
    dispatchAll gw nowNs actions = (.ok (), gw) := by
  induction actions with
  | nil => rfl
  | cons entry rest ih =>
    obtain ⟨cloid, action⟩ := entry
    obtain rfl : action = .scheduleStatusCheck := checks _ List.mem_cons_self
    exact ih fun entry member => checks entry (List.mem_cons_of_mem _ member)

/-- The gateway holds an order and its journal works. -/
structure Holds (gw : OrderGateway) (cloid : ClientOrderId) (order : PendingOrder) : Prop where
  found : gw.orders[cloid]? = some order
  reliable : gw.journal.Reliable

namespace Holds

variable {gw : OrderGateway} {cloid : ClientOrderId} {order : PendingOrder}

theorem live (holds : Holds gw cloid order) (running : order.status.isTerminal = false) :
    gw.live? cloid = some order :=
  OrderGateway.live?_eq_some.mpr ⟨holds.found, running⟩

/-- A commit stores the order and succeeds. -/
theorem commit (holds : Holds gw cloid order) (updated : PendingOrder)
    (entry : Gateway.JournalEntry) :
    ∃ after, gw.commit cloid updated entry = (.ok (), after) ∧ Holds after cloid updated := by
  obtain ⟨journal, appended, reliable, _⟩ := Journal.append_reliable holds.reliable entry
  refine ⟨_, by rw [OrderGateway.commit, appended], ?_, reliable⟩
  simp

/-- With a working journal a request is accepted and its order held as pending. -/
theorem enqueue {gw : OrderGateway} (reliable : gw.journal.Reliable)
    (request : Gateway.OrderRequest) (nowNs : Int64) :
    (gw.enqueue request nowNs).1 = .ok gw.cloidGen.generate.1 ∧
      Holds (gw.enqueue request nowNs).2 gw.cloidGen.generate.1
        (OrderGateway.pendingOrder gw.cloidGen.generate.1 request nowNs) := by
  obtain ⟨journal, appended, kept, _⟩ := Journal.append_reliable reliable
    (.orderRequested nowNs gw.cloidGen.generate.1 request)
  simp only [OrderGateway.enqueue, appended, true_and]
  exact ⟨Std.ExtTreeMap.getElem?_insert_self, kept⟩

/-- A commit of another order does not matter. -/
private theorem commit_other (holds : Holds gw cloid order) {other : ClientOrderId}
    (different : other ≠ cloid) (updated : PendingOrder) (entry : Gateway.JournalEntry) :
    Holds (gw.commit other updated entry).2 cloid order := by
  obtain ⟨journal, appended, reliable, _⟩ := Journal.append_reliable holds.reliable entry
  rw [OrderGateway.commit, appended]
  refine ⟨?_, reliable⟩
  rw [← holds.found]
  grind

/-- An action about another order does not matter. -/
theorem dispatch_other (holds : Holds gw cloid order) {other : ClientOrderId}
    (different : other ≠ cloid) (nowNs : Int64) (action : SmAction) :
    Holds (dispatch gw other nowNs action).2 cloid order := by
  have close (target : OrderStatus) (entry : Gateway.JournalEntry) :
      Holds (gw.close other target nowNs entry).2 cloid order := by
    cases live : gw.live? other with
    | none => rwa [OrderGateway.close_dead live]
    | some found =>
      rw [OrderGateway.close_live live]
      exact holds.commit_other different _ _
  cases action with
  | applyAck exchangeId =>
    change Holds (gw.onAck other exchangeId nowNs).2 cloid order
    cases live : gw.live? other with
    | none => rwa [OrderGateway.onAck_dead live]
    | some found =>
      by_cases acked : found.status = .new
      · simpa only [OrderGateway.onAck, (OrderGateway.live?_eq_some.mp live).1, acked, if_true]
          using holds
      · rw [OrderGateway.onAck_live live acked]
        exact holds.commit_other different _ _
  | applyFill fillQty fillPrice =>
    change Holds (gw.onFill other fillQty fillPrice nowNs).2 cloid order
    cases live : gw.live? other with
    | none => rwa [OrderGateway.onFill_dead live]
    | some found =>
      rw [OrderGateway.onFill_live live]
      exact holds.commit_other different _ _
  | applyCancel =>
    change Holds (gw.onCancel other nowNs).2 cloid order
    cases live : gw.live? other with
    | none => rwa [OrderGateway.onCancel_dead live]
    | some found =>
      rw [OrderGateway.onCancel_live live]
      exact holds.commit_other different _ _
  | applyReject reason => exact close .rejected _
  | applyExpire => exact close .expired _
  | scheduleStatusCheck | ignored => exact holds

theorem dispatchAll_other (holds : Holds gw cloid order)
    {actions : List (ClientOrderId × SmAction)} (different : ∀ entry ∈ actions, entry.1 ≠ cloid)
    (nowNs : Int64) : Holds (dispatchAll gw nowNs actions).2 cloid order := by
  induction actions generalizing gw with
  | nil => exact holds
  | cons entry rest ih =>
    obtain ⟨other, action⟩ := entry
    have kept := holds.dispatch_other (different _ List.mem_cons_self) nowNs action
    rw [dispatchAll]
    split
    · rename_i failed
      rw [failed] at kept
      exact kept
    · rename_i dispatched
      rw [dispatched] at kept
      exact ih kept fun entry member => different entry (List.mem_cons_of_mem _ member)

/-- A pending order accepts its acknowledgement. -/
theorem applyAck (holds : Holds gw cloid order) (pending : order.status = .pending)
    (exchangeId : UInt64) (nowNs : Int64) :
    ∃ after, dispatch gw cloid nowNs (.applyAck exchangeId) = (.ok (), after) ∧
      Holds after cloid
        { order with exchangeId := some exchangeId, status := .new, lastUpdatedNs := nowNs } := by
  have live := holds.live (by rw [pending]; rfl)
  rw [dispatch, OrderGateway.onAck_live live (by rw [pending]; decide)]
  exact holds.commit _ _

/-- A live order accepts a fill. -/
theorem applyFill (holds : Holds gw cloid order) (running : order.status.isTerminal = false)
    (fill : BufferedFill) (nowNs : Int64) :
    ∃ after, dispatch gw cloid nowNs fill.action = (.ok (), after) ∧
      Holds after cloid (OrderGateway.fillOrder order fill.fillQty nowNs).1 := by
  rw [BufferedFill.action, dispatch, OrderGateway.onFill_live (holds.live running)]
  exact holds.commit _ _

/-- A live order accepts a burst of fills that stays within its quantity: only the last of them can
complete it. -/
theorem applyFills (holds : Holds gw cloid order) (running : order.status.isTerminal = false)
    {done fills : List BufferedFill} (filled : order.filledQty = totalQty done)
    (within : Within order.request.qty (done ++ fills)) (nowNs : Int64) :
    ∃ after order', dispatchAll gw nowNs (addressed cloid (fills.map BufferedFill.action)) =
        (.ok (), after) ∧ Holds after cloid order' ∧ order'.request = order.request ∧
      order'.filledQty = totalQty (done ++ fills) ∧
      order'.status = if fills = [] then order.status
        else if totalQty (done ++ fills) ≥ order.request.qty then .filled
        else .partiallyFilled := by
  induction fills generalizing gw order done with
  | nil => exact ⟨gw, order, rfl, holds, rfl, by rw [filled, List.append_nil], rfl⟩
  | cons f rest ih =>
    obtain ⟨after, applied, holds'⟩ := holds.applyFill running f nowNs
    have total : order.filledQty + f.fillQty = totalQty (done ++ [f]) := by
      simp [filled]
    have split : done ++ f :: rest = (done ++ [f]) ++ rest := by simp
    rw [split] at within ⊢
    rw [List.map_cons, addressed, List.map_cons, dispatchAll, applied]
    by_cases last : rest = []
    · subst last
      refine ⟨after, _, rfl, holds', rfl, ?_, ?_⟩
      · rw [List.append_nil, ← total]
        rfl
      · rw [if_neg (List.cons_ne_nil _ _), List.append_nil, ← total]
        simp only [OrderGateway.fillOrder, decide_eq_true_eq]
    · have below : totalQty (done ++ [f]) < order.request.qty := within.totalQty_lt last
      have open_ : ¬order.filledQty + f.fillQty ≥ order.request.qty := by
        rw [total]
        exact Int64.not_le.mpr below
      have partial_ : (OrderGateway.fillOrder order f.fillQty nowNs).1.status =
          .partiallyFilled := by
        simp only [OrderGateway.fillOrder, decide_eq_true_eq, if_neg open_]
      obtain ⟨final, order', dispatched, holds'', request, quantity, status⟩ :=
        ih holds' (by rw [partial_]; rfl) total within
      refine ⟨final, order', dispatched, holds'', request, quantity, ?_⟩
      rw [status, if_neg last, if_neg (List.cons_ne_nil _ _)]
      rfl

end Holds

/-- The gateway's status of an order in a given status of its machine. -/
def SmStatus.gateway : SmStatus → OrderStatus
  | .pending => .pending
  | .new => .new
  | .partiallyFilled => .partiallyFilled
  | .unknownStatus => .pending
  | .filled => .filled
  | .cancelled => .cancelled
  | .rejected => .rejected
  | .expired => .expired

theorem SmStatus.gateway_isTerminal (status : SmStatus) :
    status.gateway.isTerminal = status.isTerminal := by cases status <;> rfl

/-- A live order accepts the action that closes it. -/
theorem Holds.applyClose {gw : OrderGateway} {cloid : ClientOrderId} {order : PendingOrder}
    (holds : Holds gw cloid order) (running : order.status.isTerminal = false)
    {status target : SmStatus} {input : SmInput} {action : SmAction}
    (reacts : reaction status input = .close target action) (nowNs : Int64) :
    ∃ after, dispatch gw cloid nowNs action = (.ok (), after) ∧
      Holds after cloid { order with status := target.gateway, lastUpdatedNs := nowNs } := by
  have live := holds.live running
  have cancel : ∃ after, gw.onCancel cloid nowNs = (.ok (), after) ∧
      Holds after cloid { order with status := .cancelled, lastUpdatedNs := nowNs } := by
    rw [OrderGateway.onCancel_live live]
    exact holds.commit _ _
  have close (closed : OrderStatus) (entry : Gateway.JournalEntry) :
      ∃ after, gw.close cloid closed nowNs entry = (.ok (), after) ∧
        Holds after cloid { order with status := closed, lastUpdatedNs := nowNs } := by
    rw [OrderGateway.close_live live]
    exact holds.commit _ _
  rcases reaction_close_cases reacts with ⟨rfl, rfl⟩ | ⟨rfl, reason, rfl⟩ | ⟨rfl, rfl⟩
  · exact cancel
  · exact close .rejected _
  · exact close .expired _

end TradingConnectivity.Lifecycle
