import TradingConnectivity.ConnectorCore.MessageCodec
import TradingConnectivity.Normalize.Futures
import TradingConnectivity.ToMathlib.Except

/-! # The headers of normalized futures events

The messages that are made of an event announce their own types, and only a depth event makes a book
delta.
-/

namespace TradingConnectivity.Normalize.Futures

open ConnectorCore

variable {inst : InstrumentDefinition} {ctx : NormalizeCtx} {recvTs : Int64} {seq next : UInt64}

theorem header_bookTicker {bt : FuturesBookTicker} {m : BestBidOffer}
    (built : normalizeBookTicker bt inst ctx recvTs seq = .ok m) :
    m.header = makeHeader .bestBidOffer inst ctx seq tsNone recvTs := by
  simp only [normalizeBookTicker, bind, Except.bind_eq_ok_iff] at built
  obtain ⟨_, -, _, -, _, -, _, -, ⟨⟩⟩ := built
  rfl

theorem header_depthUpdate {du : FuturesDepthUpdate} {m : BookDelta}
    (built : normalizeDepthUpdate du inst ctx recvTs seq = .ok m) :
    m.header = makeHeader .bookDelta inst ctx seq (msToNs du.eventTimeMs) recvTs := by
  simp only [normalizeDepthUpdate, bind, Except.bind_eq_ok_iff] at built
  obtain ⟨_, -, _, -, ⟨⟩⟩ := built
  rfl

private theorem header_aggTrade {agg : FuturesAggTrade} {m : Trade}
    (built : normalizeAggTrade agg inst ctx recvTs seq = .ok m) :
    m.header = makeHeader .trade inst ctx seq (msToNs agg.eventTimeMs) recvTs := by
  simp only [normalizeAggTrade, bind, Except.bind_eq_ok_iff] at built
  obtain ⟨_, -, _, -, ⟨⟩⟩ := built
  rfl

private theorem header_forceOrder {fo : FuturesForceOrder} {m : Liquidation}
    (built : normalizeForceOrder fo inst ctx recvTs seq = .ok m) :
    m.header = makeHeader .liquidation inst ctx seq (msToNs fo.eventTimeMs) recvTs := by
  simp only [normalizeForceOrder, bind, Except.bind_eq_ok_iff] at built
  obtain ⟨_, -, _, -, _, -, _, -, _, -, ⟨⟩⟩ := built
  rfl

private theorem header_mark {mp : FuturesMarkPrice} {indexPrice : Int64} {m : MarkPrice}
    (built : normalizeMark mp indexPrice inst ctx recvTs seq = .ok m) :
    m.header = makeHeader .markPrice inst ctx seq (msToNs mp.eventTimeMs) recvTs := by
  simp only [normalizeMark, bind, Except.bind_eq_ok_iff] at built
  obtain ⟨_, -, ⟨⟩⟩ := built
  rfl

private theorem header_funding {mp : FuturesMarkPrice} {m : FundingRate}
    (built : normalizeFunding mp inst ctx recvTs seq = .ok m) :
    m.header = makeHeader .fundingRate inst ctx seq (msToNs mp.eventTimeMs) recvTs := by
  simp only [normalizeFunding, bind, Except.bind_eq_ok_iff] at built
  obtain ⟨_, -, ⟨⟩⟩ := built
  rfl

/-- The type of a message that carries market data of the futures streams other than depth. -/
def IsTicker (kind : MessageType) : Prop :=
  kind = .bestBidOffer ∨ kind = .trade ∨ kind = .markPrice ∨ kind = .fundingRate ∨
    kind = .liquidation

/-- A message with a header of the connection, which announces its own type. -/
def Made (inst : InstrumentDefinition) (ctx : NormalizeCtx) (recvTs : Int64)
    (msg : NormalizedMessage) : Prop :=
  ∃ seq eventTs, msg.header = makeHeader msg.messageType inst ctx seq eventTs recvTs

theorem Made.announces {msg : NormalizedMessage} (made : Made inst ctx recvTs msg) :
    msg.header.messageType = msg.messageType := by
  obtain ⟨seq, eventTs, header⟩ := made
  rw [header]
  rfl

/-- The message of one parsed event. -/
private theorem mem_of_map {α : Type} {result : Except (Failure NormalizeError) α}
    {wrap : α → NormalizedMessage} {msgs : List NormalizedMessage}
    (ran : (result.map fun m => [wrap m]) = .ok msgs) {msg : NormalizedMessage}
    (member : msg ∈ msgs) : ∃ m, result = .ok m ∧ msg = wrap m := by
  cases result with
  | error f => cases ran
  | ok m =>
    obtain rfl := Except.ok.inj ran
    exact ⟨m, rfl, List.mem_singleton.mp member⟩

/-- Events other than depth become messages of other types. -/
theorem normalized_messages {event : FuturesEvent} {msgs : List NormalizedMessage}
    (ran : (normalizeFuturesEvent event inst ctx recvTs).run.run seq = (.ok msgs, next))
    {msg : NormalizedMessage} (member : msg ∈ msgs) :
    Made inst ctx recvTs msg ∧ (IsTicker msg.messageType ∨ ∃ du bd, event = .depthUpdate du ∧
      msg = .bookDelta bd) := by
  cases event with
  | bookTicker bt =>
    rw [run_bookTicker] at ran
    obtain ⟨m, built, rfl⟩ := mem_of_map (Prod.mk.inj ran).1 member
    exact ⟨⟨_, _, header_bookTicker built⟩, .inl (.inl rfl)⟩
  | depthUpdate du =>
    rw [run_depthUpdate] at ran
    obtain ⟨m, built, rfl⟩ := mem_of_map (Prod.mk.inj ran).1 member
    exact ⟨⟨_, _, header_depthUpdate built⟩, .inr ⟨du, m, rfl, rfl⟩⟩
  | aggTrade agg =>
    rw [run_aggTrade] at ran
    obtain ⟨m, built, rfl⟩ := mem_of_map (Prod.mk.inj ran).1 member
    exact ⟨⟨_, _, header_aggTrade built⟩, .inl (.inr (.inl rfl))⟩
  | forceOrder fo =>
    rw [run_forceOrder] at ran
    obtain ⟨m, built, rfl⟩ := mem_of_map (Prod.mk.inj ran).1 member
    exact ⟨⟨_, _, header_forceOrder built⟩, .inl (.inr (.inr (.inr (.inr rfl))))⟩
  | unknown stream =>
    cases ran
    cases member
  | markPrice mp =>
    cases index : parseIndexPrice mp inst with
    | error f =>
      rw [run_markPrice_index index] at ran
      cases ran
    | ok indexPrice =>
      cases marked : normalizeMark mp indexPrice inst ctx recvTs seq with
      | error f =>
        rw [run_markPrice_mark index marked] at ran
        cases ran
      | ok mark =>
        have first : Made inst ctx recvTs (.markPrice mark) ∧
            IsTicker (NormalizedMessage.markPrice mark).messageType :=
          ⟨⟨_, _, header_mark marked⟩, .inr (.inr (.inl rfl))⟩
        by_cases unfunded : mp.fundingRate = ""
        · rw [run_markPrice_unfunded index marked unfunded] at ran
          cases ran
          obtain rfl := List.mem_singleton.mp member
          exact ⟨first.1, .inl first.2⟩
        · rw [run_markPrice_funded index marked unfunded] at ran
          cases funded : normalizeFunding mp inst ctx recvTs (seq + 1) with
          | error f =>
            rw [funded] at ran
            cases ran
          | ok rate =>
            rw [funded] at ran
            cases ran
            rcases List.mem_cons.mp member with rfl | member
            · exact ⟨first.1, .inl first.2⟩
            · obtain rfl := List.mem_singleton.mp member
              exact ⟨⟨_, _, header_funding funded⟩, .inl (.inr (.inr (.inr (.inl rfl))))⟩

end TradingConnectivity.Normalize.Futures
