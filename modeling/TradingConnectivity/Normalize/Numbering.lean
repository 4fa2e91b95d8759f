import Mathlib.Data.List.Iterate
import TradingConnectivity.Normalize.Futures
import TradingConnectivity.Normalize.Spot

/-! # Numbers taken by one call

Which strings of an event are parsed, and in which order, decides how a call ends. A failure before
the sequence number is taken leaves the counter as it was, a later one does not. A call that
succeeds takes as many numbers as it has messages.
-/

namespace TradingConnectivity.Normalize

open ConnectorCore

/-! ## Failures in the order of parsing -/

section Builds

variable {ε α β : Type}

def failureOf : Except (Failure ε) α → Option (Failure ε)
  | .ok _ => none
  | .error f => some f

/-- The failure of the first decimal that does not parse. -/
def firstFailure (parse : String → UInt32 → Except (Failure ε) Int64) :
    List (String × UInt32) → Option (Failure ε)
  | [] => none
  | (text, scale) :: fields => (failureOf (parse text scale)).or (firstFailure parse fields)

private theorem firstFailure_append (parse : String → UInt32 → Except (Failure ε) Int64)
    (fields more : List (String × UInt32)) : firstFailure parse (fields ++ more) =
      (firstFailure parse fields).or (firstFailure parse more) := by
  induction fields with
  | nil => rfl
  | cons field rest ih =>
    rw [List.cons_append, firstFailure, firstFailure, ih, Option.or_assoc]

/-- A message is built with this number unless there is a failure. -/
def Builds (number : α → UInt64) (failure : Option (Failure ε)) (seq : UInt64)
    (result : Except (Failure ε) α) : Prop :=
  match failure with
  | some f => result = .error f
  | none => ∃ message, result = .ok message ∧ number message = seq

namespace Builds

variable {number : α → UInt64} {seq : UInt64}

theorem done {message : α} (numbered : number message = seq) :
    Builds (ε := ε) number none seq (.ok message) :=
  ⟨message, rfl, numbered⟩

/-- A step may fail; what follows is built from its value. -/
theorem bind {x : Except (Failure ε) β} {rest : β → Except (Failure ε) α}
    {late : Option (Failure ε)} (build : ∀ v, Builds number late seq (rest v)) :
    Builds number ((failureOf x).or late) seq (x >>= rest) := by
  cases x with
  | error f => exact (rfl : Except.error f >>= rest = .error f)
  | ok v => exact build v

theorem parse {parse : String → UInt32 → Except (Failure ε) Int64} {text : String}
    {scale : UInt32} {fields : List (String × UInt32)} {rest : Int64 → Except (Failure ε) α}
    (build : ∀ v, Builds number (firstFailure parse fields) seq (rest v)) :
    Builds number (firstFailure parse ((text, scale) :: fields)) seq (parse text scale >>= rest) :=
  bind build

end Builds

/-! ## Levels -/

/-- The decimals of the levels of one side. -/
def levelDecimals (p q : UInt32) (levels : List (String × String)) : List (String × UInt32) :=
  levels.flatMap fun (price, qty) => [(price, p), (qty, q)]

private theorem failureOf_bind {x : Except (Failure ε) α} {rest : α → Except (Failure ε) β}
    {late : Option (Failure ε)} (after : ∀ v, failureOf (rest v) = late) :
    failureOf (x >>= rest) = (failureOf x).or late := by
  cases x with
  | error f => rfl
  | ok v => exact after v

private theorem failureOf_bind_pure {x : Except (Failure ε) α} {value : α → β} :
    failureOf (do return value (← x)) = failureOf x := by
  cases x <;> rfl

private theorem failureOf_levels (parse : String → UInt32 → Except (Failure ε) Int64) (p q : UInt32)
    (levels : List (String × String)) :
    failureOf (levels.mapM fun (price, qty) => do
      return ({ price := ← parse price p, qty := ← parse qty q } : MarketData.PriceLevel)) =
        firstFailure parse (levelDecimals p q levels) := by
  induction levels with
  | nil => rfl
  | cons level rest ih =>
    have head : failureOf (do
        return ({ price := ← parse level.1 p, qty := ← parse level.2 q } :
          MarketData.PriceLevel)) =
            (failureOf (parse level.1 p)).or (failureOf (parse level.2 q)) :=
      failureOf_bind fun _ => failureOf_bind_pure
    rw [List.mapM_cons, failureOf_bind fun _ => failureOf_bind_pure, ih, head]
    simp [levelDecimals, firstFailure, Option.or_assoc]

end Builds

/-! ## What a call takes -/

/-- The sequence numbers of messages. -/
def numbers (messages : List NormalizedMessage) : List UInt64 :=
  messages.map (·.header.sequenceNumber)

/-- How a call ends, given its failure before and after the first number is taken. A call takes two
numbers at most. -/
inductive Accounted {ε : Type} (early late : Option (Failure ε)) (seq : UInt64) :
    Except (Failure ε) (List NormalizedMessage) × UInt64 → Prop
  | early {f : Failure ε} (fails : early = some f) : Accounted early late seq (.error f, seq)
  | late {f : Failure ε} {next : UInt64} (passes : early = none) (fails : late = some f)
      (taken : next ≠ seq) (few : (next - seq).toNat ≤ 2) :
      Accounted early late seq (.error f, next)
  | produced {messages : List NormalizedMessage} (passes : early = none) (builds : late = none)
      (numbered : numbers messages = List.iterate (· + 1) seq messages.length)
      (few : messages.length ≤ 2) :
      Accounted early late seq (.ok messages, seq + UInt64.ofNat messages.length)

/-- The numbers that are taken without a message. -/
private theorem Accounted.late_of_add {ε : Type} {early late : Option (Failure ε)} {f : Failure ε}
    {seq taken : UInt64} (passes : early = none) (fails : late = some f) (some : taken ≠ 0)
    (few : taken.toNat ≤ 2) : Accounted early late seq (.error f, seq + taken) := by
  have advanced : seq + taken - seq = taken := by grind
  refine .late passes fails ?_ (by rwa [advanced])
  intro same
  rw [same, UInt64.sub_self] at advanced
  exact some advanced.symm

theorem Accounted.nothing {ε : Type} {seq : UInt64} :
    Accounted (none : Option (Failure ε)) none seq (.ok [], seq) := by
  have produced : Accounted (none : Option (Failure ε)) none seq (.ok [], seq + UInt64.ofNat 0) :=
    .produced rfl rfl rfl (Nat.zero_le 2)
  simpa using produced

/-- A call with a single message takes its number in any case. -/
theorem Builds.accounted {ε α : Type} {number : α → UInt64} {late : Option (Failure ε)}
    {seq : UInt64} {result : Except (Failure ε) α} (builds : Builds number late seq result)
    (message : α → NormalizedMessage)
    (headed : ∀ a, (message a).header.sequenceNumber = number a) :
    Accounted none late seq (result.map fun a => [message a], seq + 1) := by
  cases late with
  | some f =>
    obtain rfl : result = .error f := builds
    exact .late_of_add rfl rfl (by decide) (by decide)
  | none =>
    obtain ⟨a, rfl, numbered⟩ := builds
    refine .produced rfl rfl ?_ (Nat.le_succ 1)
    simp [numbers, headed, numbered]

/-! ## Spot events -/

namespace Spot

variable (inst : InstrumentDefinition) (ctx : NormalizeCtx) (recvTs : Int64) (seq : UInt64)

/-- The decimals of an event with their scales, as they are parsed. -/
def SpotEvent.decimals : SpotEvent → List (String × UInt32)
  | .bookTicker bt =>
    [(bt.bidPrice, inst.priceScale), (bt.bidQty, inst.qtyScale), (bt.askPrice, inst.priceScale),
      (bt.askQty, inst.qtyScale)]
  | .depthUpdate du =>
    levelDecimals inst.priceScale inst.qtyScale du.bids ++
      levelDecimals inst.priceScale inst.qtyScale du.asks
  | .trade tr => [(tr.price, inst.priceScale), (tr.qty, inst.qtyScale)]
  | .unknown _ => []

def SpotEvent.lateFailure (event : SpotEvent) : Option (Failure NormalizeError) :=
  firstFailure parseScaled (event.decimals inst)

private theorem failureOf_parseLevels (p q : UInt32) (levels : List (String × String)) :
    failureOf (parseLevels p q levels) = firstFailure parseScaled (levelDecimals p q levels) :=
  failureOf_levels parseScaled p q levels

private theorem builds_bookTicker (bt : SpotBookTicker) :
    Builds (·.header.sequenceNumber) ((SpotEvent.bookTicker bt).lateFailure inst) seq
      (normalizeBookTicker bt inst ctx recvTs seq) :=
  .parse fun _ => .parse fun _ => .parse fun _ => .parse fun _ => .done rfl

private theorem builds_depthUpdate (du : SpotDepthUpdate) :
    Builds (·.header.sequenceNumber) ((SpotEvent.depthUpdate du).lateFailure inst) seq
      (normalizeDepthUpdate du inst ctx recvTs seq) := by
  rw [SpotEvent.lateFailure, SpotEvent.decimals, firstFailure_append, ← failureOf_parseLevels,
    ← failureOf_parseLevels, ← Option.or_none (o := failureOf (parseLevels _ _ du.asks))]
  exact .bind fun bids => .bind fun asks => .done rfl

private theorem builds_trade (tr : SpotTrade) :
    Builds (·.header.sequenceNumber) ((SpotEvent.trade tr).lateFailure inst) seq
      (normalizeTrade tr inst ctx recvTs seq) :=
  .parse fun _ => .parse fun _ => .done rfl

/-- The messages of a call are those it returns, if any. -/
private theorem map_toList {ε α : Type} (result : Except (Failure ε) α)
    (message : α → NormalizedMessage) : (result.map fun a => some (message a)).map Option.toList =
      result.map fun a => [message a] := by
  cases result <;> rfl

/-- A spot event takes its number before anything is parsed. -/
theorem accounted (event : SpotEvent) :
    Accounted none (event.lateFailure inst) seq
      (let (result, next) := (normalizeSpotEvent event inst ctx recvTs).run.run seq
       (result.map Option.toList, next)) := by
  cases event with
  | bookTicker bt =>
    simp only [run_bookTicker, map_toList]
    exact (builds_bookTicker inst ctx recvTs seq bt).accounted .bestBidOffer fun _ => rfl
  | depthUpdate du =>
    simp only [run_depthUpdate, map_toList]
    exact (builds_depthUpdate inst ctx recvTs seq du).accounted .bookDelta fun _ => rfl
  | trade tr =>
    simp only [run_trade, map_toList]
    exact (builds_trade inst ctx recvTs seq tr).accounted .trade fun _ => rfl
  | unknown stream =>
    exact .nothing

end Spot

/-! ## Futures events -/

namespace Futures

variable (inst : InstrumentDefinition) (ctx : NormalizeCtx) (recvTs : Int64) (seq : UInt64)

/-- The decimals that are parsed after the first number is taken, with their scales. -/
def FuturesEvent.decimals : FuturesEvent → List (String × UInt32)
  | .bookTicker bt =>
    [(bt.bidPrice, inst.priceScale), (bt.bidQty, inst.qtyScale), (bt.askPrice, inst.priceScale),
      (bt.askQty, inst.qtyScale)]
  | .depthUpdate du =>
    levelDecimals inst.priceScale inst.qtyScale du.bids ++
      levelDecimals inst.priceScale inst.qtyScale du.asks
  | .aggTrade agg => [(agg.price, inst.priceScale), (agg.qty, inst.qtyScale)]
  | .markPrice mp =>
    (mp.markPrice, inst.priceScale) :: if mp.fundingRate = "" then [] else [(mp.fundingRate, 9)]
  | .forceOrder fo =>
    [(fo.order.price, inst.priceScale), (fo.order.qty, inst.qtyScale),
      (fo.order.avgPrice, inst.priceScale), (fo.order.lastFilledQty, inst.qtyScale)]
  | .unknown _ => []

/-- The index price is parsed before a number is taken. -/
def FuturesEvent.earlyFailure : FuturesEvent → Option (Failure NormalizeError)
  | .markPrice mp => failureOf (parseIndexPrice mp inst)
  | _ => none

/-- The side of a liquidation is read after its number is taken. -/
def FuturesEvent.sideFailure : FuturesEvent → Option (Failure NormalizeError)
  | .forceOrder fo => failureOf (parseSide fo.order.side)
  | _ => none

def FuturesEvent.lateFailure (event : FuturesEvent) : Option (Failure NormalizeError) :=
  event.sideFailure.or (firstFailure parseScaled (event.decimals inst))

private theorem failureOf_parseLevels (p q : UInt32) (levels : List (String × String)) :
    failureOf (parseLevels p q levels) = firstFailure parseScaled (levelDecimals p q levels) :=
  failureOf_levels parseScaled p q levels

private theorem builds_bookTicker (bt : FuturesBookTicker) :
    Builds (·.header.sequenceNumber) ((FuturesEvent.bookTicker bt).lateFailure inst) seq
      (normalizeBookTicker bt inst ctx recvTs seq) :=
  .parse fun _ => .parse fun _ => .parse fun _ => .parse fun _ => .done rfl

private theorem builds_depthUpdate (du : FuturesDepthUpdate) :
    Builds (·.header.sequenceNumber) ((FuturesEvent.depthUpdate du).lateFailure inst) seq
      (normalizeDepthUpdate du inst ctx recvTs seq) := by
  have side : (FuturesEvent.depthUpdate du).sideFailure = none := rfl
  rw [FuturesEvent.lateFailure, side, Option.none_or, FuturesEvent.decimals,
    firstFailure_append, ← failureOf_parseLevels, ← failureOf_parseLevels,
    ← Option.or_none (o := failureOf (parseLevels _ _ du.asks))]
  exact .bind fun bids => .bind fun asks => .done rfl

private theorem builds_aggTrade (agg : FuturesAggTrade) :
    Builds (·.header.sequenceNumber) ((FuturesEvent.aggTrade agg).lateFailure inst) seq
      (normalizeAggTrade agg inst ctx recvTs seq) :=
  .parse fun _ => .parse fun _ => .done rfl

private theorem builds_forceOrder (fo : FuturesForceOrder) :
    Builds (·.header.sequenceNumber) ((FuturesEvent.forceOrder fo).lateFailure inst) seq
      (normalizeForceOrder fo inst ctx recvTs seq) :=
  .bind fun _ => .parse fun _ => .parse fun _ => .parse fun _ => .parse fun _ => .done rfl

private theorem builds_mark (mp : FuturesMarkPrice) (indexPrice : Int64) :
    Builds (·.header.sequenceNumber)
      (firstFailure parseScaled [(mp.markPrice, inst.priceScale)]) seq
      (normalizeMark mp indexPrice inst ctx recvTs seq) :=
  .parse fun _ => .done rfl

private theorem builds_funding (mp : FuturesMarkPrice) :
    Builds (·.header.sequenceNumber) (firstFailure parseScaled [(mp.fundingRate, 9)]) seq
      (normalizeFunding mp inst ctx recvTs seq) :=
  .parse fun _ => .done rfl

/-- A mark price event takes a number for each of its messages before it is parsed. -/
theorem accounted_markPrice (mp : FuturesMarkPrice) :
    Accounted ((FuturesEvent.markPrice mp).earlyFailure inst)
      ((FuturesEvent.markPrice mp).lateFailure inst) seq
      ((normalizeFuturesEvent (.markPrice mp) inst ctx recvTs).run.run seq) := by
  cases index : parseIndexPrice mp inst with
  | error f =>
    rw [run_markPrice_index index]
    exact .early (congrArg failureOf index)
  | ok indexPrice =>
    have passes : (FuturesEvent.markPrice mp).earlyFailure inst = none := congrArg failureOf index
    have late : (FuturesEvent.markPrice mp).lateFailure inst =
        (firstFailure parseScaled [(mp.markPrice, inst.priceScale)]).or
          (firstFailure parseScaled
            (if mp.fundingRate = "" then [] else [(mp.fundingRate, 9)])) := by
      rw [← firstFailure_append]
      rfl
    have first := builds_mark inst ctx recvTs seq mp indexPrice
    cases marks : firstFailure parseScaled [(mp.markPrice, inst.priceScale)] with
    | some f =>
      rw [marks] at first late
      rw [run_markPrice_mark index first]
      exact .late_of_add passes late (by decide) (by decide)
    | none =>
      rw [marks, Option.none_or] at late
      rw [marks] at first
      obtain ⟨mark, marked, firstNumber⟩ := first
      by_cases unfunded : mp.fundingRate = ""
      · rw [if_pos unfunded] at late
        rw [run_markPrice_unfunded index marked unfunded]
        refine .produced passes late ?_ (Nat.le_succ 1)
        exact congrArg (fun n => [n]) firstNumber
      · have second := builds_funding inst ctx recvTs (seq + 1) mp
        rw [if_neg unfunded] at late
        rw [run_markPrice_funded index marked unfunded]
        cases funds : firstFailure parseScaled [(mp.fundingRate, 9)] with
        | some f =>
          rw [funds] at second late
          have failed : normalizeFunding mp inst ctx recvTs (seq + 1) = .error f := second
          rw [failed, UInt64.add_assoc]
          exact .late_of_add passes late (by decide) (by decide)
        | none =>
          rw [funds] at second late
          obtain ⟨rate, funded, secondNumber⟩ := second
          rw [funded, UInt64.add_assoc]
          refine .produced passes late ?_ le_rfl
          exact congrArg₂ (fun n next => [n, next]) firstNumber secondNumber

/-- A futures event takes no more numbers than it has messages unless it fails late. -/
theorem accounted (event : FuturesEvent) :
    Accounted (event.earlyFailure inst) (event.lateFailure inst) seq
      ((normalizeFuturesEvent event inst ctx recvTs).run.run seq) := by
  cases event with
  | bookTicker bt =>
    rw [run_bookTicker]
    exact (builds_bookTicker inst ctx recvTs seq bt).accounted .bestBidOffer fun _ => rfl
  | depthUpdate du =>
    rw [run_depthUpdate]
    exact (builds_depthUpdate inst ctx recvTs seq du).accounted .bookDelta fun _ => rfl
  | aggTrade agg =>
    rw [run_aggTrade]
    exact (builds_aggTrade inst ctx recvTs seq agg).accounted .trade fun _ => rfl
  | markPrice mp => exact accounted_markPrice inst ctx recvTs seq mp
  | forceOrder fo =>
    rw [run_forceOrder]
    exact (builds_forceOrder inst ctx recvTs seq fo).accounted .liquidation fun _ => rfl
  | unknown stream => exact .nothing

end Futures

end TradingConnectivity.Normalize
