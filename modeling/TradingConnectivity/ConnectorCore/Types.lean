import TradingConnectivity.MarketData.OrderBook

/-! # Types shared by all connectors

The enumerations of the wire format with their bytes, and the errors of its codec. Every byte that
is not one of them is reported by value.
-/

namespace TradingConnectivity.ConnectorCore

open MarketData (BookStaleReason)

inductive VenueId
  | binanceSpot
  | binanceFutures
deriving DecidableEq, Repr

inductive MarketType
  | spot
  | usdmFutures
deriving DecidableEq, Repr

inductive MessageType
  | instrumentDefinition
  | tradingStatus
  | bookSnapshot
  | bookDelta
  | bestBidOffer
  | trade
  | markPrice
  | fundingRate
  | liquidation
  | openInterest
  | accountUpdate
  | orderUpdate
  | heartbeat
  | feedStatus
  | gapDetected
  | bookStale
  | bookRecovered
  /-- Published to the status stream only. -/
  | bookChecksum
deriving DecidableEq, Repr

/-- Whether a process is the primary instance or a shadow of it. -/
inductive InstanceRole
  | active
  | passive
deriving DecidableEq, Repr

/-- Feed health state. -/
inductive FeedState
  | connecting
  | live
  | degraded
  | stale
  | recovering
  | recovered
  | failed
deriving DecidableEq, Repr

/-- Aggressor side in a trade. -/
inductive AggressorSide
  | unknown
  | buy
  | sell
deriving DecidableEq, Repr

inductive Error
  | bufferTooShort (needed available : ℕ)
  | stringTooLong (len max : ℕ)
  | vecTooLong (count max : ℕ)
  | invalidUtf8
  | unknownVenueId (byte : UInt8)
  | unknownMarketType (byte : UInt8)
  | unknownMessageType (byte : UInt8)
  | unknownFeedState (byte : UInt8)
  | unknownAggressorSide (byte : UInt8)
  | unknownBookStaleReason (byte : UInt8)
  | messageTypeMismatch (got expected : MessageType)
deriving DecidableEq, Repr

/-- Instance 0 is active, all others are passive. -/
def InstanceRole.fromInstanceId (id : UInt32) : InstanceRole := if id = 0 then .active else .passive

namespace VenueId

def toByte : VenueId → UInt8
  | binanceSpot => 1
  | binanceFutures => 2

def tryFrom (v : UInt8) : Except Error VenueId :=
  match v with
  | 1 => .ok binanceSpot
  | 2 => .ok binanceFutures
  | _ => .error (.unknownVenueId v)

@[simp] theorem tryFrom_toByte (venue : VenueId) : tryFrom venue.toByte = .ok venue := by
  cases venue <;> rfl

end VenueId

namespace MarketType

def toByte : MarketType → UInt8
  | spot => 1
  | usdmFutures => 2

def tryFrom (v : UInt8) : Except Error MarketType :=
  match v with
  | 1 => .ok spot
  | 2 => .ok usdmFutures
  | _ => .error (.unknownMarketType v)

@[simp] theorem tryFrom_toByte (market : MarketType) : tryFrom market.toByte = .ok market := by
  cases market <;> rfl

end MarketType

namespace MessageType

def toByte : MessageType → UInt8
  | instrumentDefinition => 1
  | tradingStatus => 2
  | bookSnapshot => 3
  | bookDelta => 4
  | bestBidOffer => 5
  | trade => 6
  | markPrice => 7
  | fundingRate => 8
  | liquidation => 9
  | openInterest => 10
  | accountUpdate => 11
  | orderUpdate => 12
  | heartbeat => 13
  | feedStatus => 14
  | gapDetected => 15
  | bookStale => 16
  | bookRecovered => 17
  | bookChecksum => 18

def tryFrom (v : UInt8) : Except Error MessageType :=
  match v with
  | 1 => .ok instrumentDefinition
  | 2 => .ok tradingStatus
  | 3 => .ok bookSnapshot
  | 4 => .ok bookDelta
  | 5 => .ok bestBidOffer
  | 6 => .ok trade
  | 7 => .ok markPrice
  | 8 => .ok fundingRate
  | 9 => .ok liquidation
  | 10 => .ok openInterest
  | 11 => .ok accountUpdate
  | 12 => .ok orderUpdate
  | 13 => .ok heartbeat
  | 14 => .ok feedStatus
  | 15 => .ok gapDetected
  | 16 => .ok bookStale
  | 17 => .ok bookRecovered
  | 18 => .ok bookChecksum
  | _ => .error (.unknownMessageType v)

@[simp] theorem tryFrom_toByte (kind : MessageType) : tryFrom kind.toByte = .ok kind := by
  cases kind <;> rfl

end MessageType

namespace FeedState

def toByte : FeedState → UInt8
  | connecting => 1
  | live => 2
  | degraded => 3
  | stale => 4
  | recovering => 5
  | recovered => 6
  | failed => 7

def tryFrom (v : UInt8) : Except Error FeedState :=
  match v with
  | 1 => .ok connecting
  | 2 => .ok live
  | 3 => .ok degraded
  | 4 => .ok stale
  | 5 => .ok recovering
  | 6 => .ok recovered
  | 7 => .ok failed
  | _ => .error (.unknownFeedState v)

@[simp] theorem tryFrom_toByte (state : FeedState) : tryFrom state.toByte = .ok state := by
  cases state <;> rfl

end FeedState

namespace AggressorSide

def toByte : AggressorSide → UInt8
  | unknown => 0
  | buy => 1
  | sell => 2

def tryFrom (v : UInt8) : Except Error AggressorSide :=
  match v with
  | 0 => .ok unknown
  | 1 => .ok buy
  | 2 => .ok sell
  | _ => .error (.unknownAggressorSide v)

@[simp] theorem tryFrom_toByte (side : AggressorSide) : tryFrom side.toByte = .ok side := by
  cases side <;> rfl

end AggressorSide

/-- The wire byte of the reason a book became stale. -/
def staleReasonByte : BookStaleReason → UInt8
  | .sequenceGap => 1
  | .webSocketReconnect => 2
  | .snapshotIncompatible => 3
  | .staleTimeout => 4
  | .malformedEvent => 5
  | .exchangeShutdown => 6
  | .bboMismatch => 7
  | .bufferOverflow => 8

def staleReasonTryFrom (v : UInt8) : Except Error BookStaleReason :=
  match v with
  | 1 => .ok .sequenceGap
  | 2 => .ok .webSocketReconnect
  | 3 => .ok .snapshotIncompatible
  | 4 => .ok .staleTimeout
  | 5 => .ok .malformedEvent
  | 6 => .ok .exchangeShutdown
  | 7 => .ok .bboMismatch
  | 8 => .ok .bufferOverflow
  | _ => .error (.unknownBookStaleReason v)

@[simp] theorem staleReasonTryFrom_byte (reason : BookStaleReason) :
    staleReasonTryFrom (staleReasonByte reason) = .ok reason := by
  cases reason <;> rfl

end TradingConnectivity.ConnectorCore
