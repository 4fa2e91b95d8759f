import TradingConnectivity.ConnectorCore.MessageCodec
import TradingConnectivity.Normalize.Spot
import TradingConnectivity.ToMathlib.Except

/-! # The headers of normalized spot events

Whatever message is made of an event carries the sequence number that was next and announces its
own type, which is never that of a control message.
-/

namespace TradingConnectivity.Normalize.Spot

open ConnectorCore

variable {inst : InstrumentDefinition} {ctx : NormalizeCtx} {recvTs : Int64} {seq next : UInt64}

theorem header_bookTicker {bt : SpotBookTicker} {m : BestBidOffer}
    (built : normalizeBookTicker bt inst ctx recvTs seq = .ok m) :
    m.header = makeHeader .bestBidOffer inst ctx seq tsNone recvTs := by
  simp only [normalizeBookTicker, bind, Except.bind_eq_ok_iff] at built
  obtain ⟨_, -, _, -, _, -, _, -, ⟨⟩⟩ := built
  rfl

theorem header_depthUpdate {du : SpotDepthUpdate} {m : BookDelta}
    (built : normalizeDepthUpdate du inst ctx recvTs seq = .ok m) :
    m.header = makeHeader .bookDelta inst ctx seq (msToNs du.eventTimeMs) recvTs := by
  simp only [normalizeDepthUpdate, bind, Except.bind_eq_ok_iff] at built
  obtain ⟨_, -, _, -, ⟨⟩⟩ := built
  rfl

private theorem header_trade {tr : SpotTrade} {m : Trade}
    (built : normalizeTrade tr inst ctx recvTs seq = .ok m) :
    m.header = makeHeader .trade inst ctx seq (msToNs tr.eventTimeMs) recvTs := by
  simp only [normalizeTrade, bind, Except.bind_eq_ok_iff] at built
  obtain ⟨_, -, _, -, ⟨⟩⟩ := built
  rfl

/-- The type of a message that carries market data of the spot streams. -/
def IsData (kind : MessageType) : Prop := kind = .bestBidOffer ∨ kind = .bookDelta ∨ kind = .trade

/-- A message that is made of an event has the next number and carries market data. -/
theorem normalized_header {event : SpotEvent} {msg : NormalizedMessage}
    (ran : (normalizeSpotEvent event inst ctx recvTs).run.run seq = (.ok (some msg), next)) :
    next = seq + 1 ∧ IsData msg.messageType ∧
      ∃ eventTs, msg.header = makeHeader msg.messageType inst ctx seq eventTs recvTs := by
  cases event with
  | bookTicker bt =>
    rw [run_bookTicker] at ran
    obtain ⟨built, rfl⟩ := Prod.mk.inj ran
    cases result : normalizeBookTicker bt inst ctx recvTs seq <;> rw [result] at built <;>
      cases built
    exact ⟨rfl, .inl rfl, _, header_bookTicker result⟩
  | depthUpdate du =>
    rw [run_depthUpdate] at ran
    obtain ⟨built, rfl⟩ := Prod.mk.inj ran
    cases result : normalizeDepthUpdate du inst ctx recvTs seq <;> rw [result] at built <;>
      cases built
    exact ⟨rfl, .inr (.inl rfl), _, header_depthUpdate result⟩
  | trade tr =>
    rw [run_trade] at ran
    obtain ⟨built, rfl⟩ := Prod.mk.inj ran
    cases result : normalizeTrade tr inst ctx recvTs seq <;> rw [result] at built <;> cases built
    exact ⟨rfl, .inr (.inr rfl), _, header_trade result⟩
  | unknown stream => cases ran

/-- The counter never moves by more than one. -/
theorem normalized_next {event : SpotEvent}
    {result : Except (Failure NormalizeError) (Option NormalizedMessage)}
    (ran : (normalizeSpotEvent event inst ctx recvTs).run.run seq = (result, next)) :
    next = seq ∨ next = seq + 1 := by
  cases event with
  | bookTicker bt =>
    rw [run_bookTicker] at ran
    exact .inr (Prod.mk.inj ran).2.symm
  | depthUpdate du =>
    rw [run_depthUpdate] at ran
    exact .inr (Prod.mk.inj ran).2.symm
  | trade tr =>
    rw [run_trade] at ran
    exact .inr (Prod.mk.inj ran).2.symm
  | unknown stream => exact .inl (Prod.mk.inj ran).2.symm

end TradingConnectivity.Normalize.Spot
