import TradingConnectivity.Lifecycle.Fills
import TradingConnectivity.ToMathlib.FixedWidth

/-! # Fills within a limit

The quantities of positive fills whose sum stays within the order's quantity do not overflow, so
machine sums compare as the integers they stand for, and a run conserves them as integers
(`intTotal_conserved`). A part of such fills stays strictly below the limit as long as some fill is
missing.
-/

namespace TradingConnectivity.Lifecycle

open Gateway (ClientOrderId)

/-- The quantity of a list of fills, as an integer. -/
def intTotal (fills : List BufferedFill) : ℤ := (fills.map fun f => f.fillQty.toInt).sum

@[simp] theorem intTotal_nil : intTotal [] = 0 := rfl

@[simp] theorem intTotal_cons (f : BufferedFill) (rest : List BufferedFill) :
    intTotal (f :: rest) = f.fillQty.toInt + intTotal rest := rfl

@[simp] theorem intTotal_append (first second : List BufferedFill) :
    intTotal (first ++ second) = intTotal first + intTotal second := by
  simp only [intTotal, List.map_append, List.sum_append]

theorem intTotal_perm {first second : List BufferedFill} (perm : first.Perm second) :
    intTotal first = intTotal second :=
  (perm.map fun f : BufferedFill => f.fillQty.toInt).sum_eq

/-- Positive fills that together do not exceed a limit. -/
structure Within (limit : Int64) (fills : List BufferedFill) : Prop where
  positive : ∀ f ∈ fills, 0 < f.fillQty
  total : intTotal fills ≤ limit.toInt

namespace Within

variable {limit : Int64} {fills first second : List BufferedFill}

theorem perm (within : Within limit first) (perm : first.Perm second) : Within limit second :=
  ⟨fun f member => within.positive f (perm.mem_iff.mpr member),
    intTotal_perm perm ▸ within.total⟩

theorem intTotal_nonneg (positive : ∀ f ∈ fills, 0 < f.fillQty) : 0 ≤ intTotal fills := by
  apply List.sum_nonneg
  intro q member
  obtain ⟨f, inside, rfl⟩ := List.mem_map.mp member
  exact Int.le_of_lt (Int64.lt_iff_toInt_lt.mp (positive f inside))

private theorem intTotal_pos (positive : ∀ f ∈ fills, 0 < f.fillQty) (some : fills ≠ []) :
    0 < intTotal fills := by
  cases fills with
  | nil => contradiction
  | cons f rest =>
    have head := Int64.lt_iff_toInt_lt.mp (positive f List.mem_cons_self)
    have tail := intTotal_nonneg fun g member => positive g (List.mem_cons_of_mem _ member)
    rw [intTotal_cons]
    change 0 < f.fillQty.toInt at head
    omega

theorem append_left (within : Within limit (first ++ second)) : Within limit first := by
  have rest := intTotal_nonneg fun f member =>
    within.positive f (List.mem_append_right first member)
  have total := within.total
  rw [intTotal_append] at total
  exact ⟨fun f member => within.positive f (List.mem_append_left _ member), by omega⟩

/-- The machine's sum is the integer sum. -/
theorem toInt_totalQty (within : Within limit fills) :
    (totalQty fills).toInt = intTotal fills := by
  have nonneg : ∀ q ∈ fills.map BufferedFill.fillQty, 0 ≤ q.toInt := by
    intro q member
    obtain ⟨f, inside, rfl⟩ := List.mem_map.mp member
    exact Int.le_of_lt (Int64.lt_iff_toInt_lt.mp (within.positive f inside))
  have below := limit.toInt_lt
  have total := within.total
  have same : ((fills.map BufferedFill.fillQty).map Int64.toInt).sum = intTotal fills := by
    rw [List.map_map, intTotal]
    rfl
  rw [totalQty, Int64.toInt_sum_of_nonneg nonneg (by omega), same]

theorem totalQty_pos (within : Within limit fills) (some : fills ≠ []) : 0 < totalQty fills := by
  rw [Int64.lt_iff_toInt_lt, within.toInt_totalQty]
  exact intTotal_pos within.positive some

/-- As long as a fill is missing the others stay below the limit. -/
theorem totalQty_lt (within : Within limit (first ++ second)) (some : second ≠ []) :
    totalQty first < limit := by
  have rest :=
    intTotal_pos (fun f member => within.positive f (List.mem_append_right _ member)) some
  have total := within.total
  rw [intTotal_append] at total
  rw [Int64.lt_iff_toInt_lt, within.append_left.toInt_totalQty]
  omega

end Within

/-- Of fills that make up a quantity within the limit, a part makes it up exactly if it is all. -/
theorem totalQty_eq_iff {limit executed : Int64} {first missing : List BufferedFill}
    (positive : ∀ f ∈ first ++ missing, 0 < f.fillQty)
    (total : intTotal (first ++ missing) = executed.toInt) (below : executed ≤ limit) :
    Within limit first ∧ (totalQty first = executed ↔ missing = []) := by
  have bounded := Int64.le_iff_toInt_le.mp below
  have within : Within limit (first ++ missing) := ⟨positive, total ▸ bounded⟩
  refine ⟨within.append_left, ?_⟩
  rw [intTotal_append] at total
  rw [← Int64.toInt_inj, within.append_left.toInt_totalQty]
  constructor
  · intro same
    by_contra some
    have rest := Within.intTotal_pos
      (fun f member => positive f (List.mem_append_right _ member)) some
    omega
  · rintro rfl
    simpa using total

/-- The trades' first occurrences are positive and together within the order's quantity. -/
def Payable (orderQty : Int64) (trades : List Trade) : Prop :=
  Within orderQty ((trades.firstBy Trade.tradeId).map Trade.fill)

theorem Payable.append_left {orderQty : Int64} {first second : List Trade}
    (payable : Payable orderQty (first ++ second)) : Payable orderQty first := by
  rw [Payable, List.firstBy_append, List.map_append] at payable
  exact Within.append_left payable

/-- The fills of a ledger, applied or held, are within the order's quantity. -/
theorem Ledger.within {orderQty : Int64} {sm : OrderSm} {trades : List Trade}
    {emitted : List BufferedFill} {applied held : List Trade}
    (ledger : Ledger sm trades emitted applied held) (payable : Payable orderQty trades) :
    Within orderQty (emitted ++ sm.bufferedFills) := by
  rw [← ledger.applied_eq, ← ledger.held_eq, ← List.map_append]
  exact Within.perm payable (ledger.once.map _).symm

/-- As long as the examined trades fit into a machine word, quantities are conserved as integers. -/
theorem intTotal_conserved (engine : StateMachineEngine) (cloid : ClientOrderId)
    (orderQty submittedNs : Int64) {ops : List EngineOp}
    (lifetime : ∀ op ∈ ops, op.Spares cloid) {limit : Int64}
    (payable : Payable limit ((engineMachine.history (engine.track cloid orderQty submittedNs)
      ops).flatMap (observe examined cloid))) :
    let past := engineMachine.history (engine.track cloid orderQty submittedNs) ops
    let last := lastState engine.timeoutNs cloid orderQty submittedNs ops
    let firsts := (past.flatMap (observe examined cloid)).firstBy Trade.tradeId
    last.filledQty.toInt + intTotal last.bufferedFills = intTotal (firsts.map Trade.fill) ∧
      last.filledQty.toInt = intTotal (runFills cloid past) := by
  intro past last firsts
  obtain ⟨applied, held, ledger⟩ := ledger_of_run engine cloid orderQty submittedNs lifetime
  have within := ledger.within payable
  have filled : last.filledQty.toInt = intTotal (runFills cloid past) :=
    (congrArg Int64.toInt ledger.filled).trans within.append_left.toInt_totalQty
  refine ⟨?_, filled⟩
  calc last.filledQty.toInt + intTotal last.bufferedFills
      = intTotal (runFills cloid past ++ last.bufferedFills) := by rw [filled, intTotal_append]
    _ = intTotal ((applied ++ held).map Trade.fill) := by
        rw [List.map_append, ledger.applied_eq, ledger.held_eq]
    _ = intTotal (firsts.map Trade.fill) := intTotal_perm (ledger.once.map _)

end TradingConnectivity.Lifecycle
