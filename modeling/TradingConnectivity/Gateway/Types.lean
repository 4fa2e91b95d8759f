import Std.Data.ExtTreeMap.Lemmas
import TradingConnectivity.ToMathlib.FixedWidth

/-! # Orders as the gateway sees them

Requests, statuses and tracked orders, the client order ids that name them, and the errors of the
gateway and its journal. A client order id is a string; ids issued here read
`cc-{instance:04x}-{counter:016x}` and `parseCounter` recovers the counter from them, which is
what recovery relies on to never issue an id twice.
-/

namespace TradingConnectivity.Gateway

inductive OrderSide
  | buy
  | sell
deriving DecidableEq, Repr

inductive OrderType
  | limit
  | market
deriving DecidableEq, Repr

inductive TimeInForce
  | goodTillCancel
  | immediateOrCancel
  | fillOrKill
deriving DecidableEq, Repr

/-- The wire byte of a side. -/
def OrderSide.toByte : OrderSide → UInt8
  | .buy => 0
  | .sell => 1

def OrderSide.tryFrom (v : UInt8) : Except UInt8 OrderSide :=
  if v = 0 then .ok .buy else if v = 1 then .ok .sell else .error v

/-- The wire byte of an order type. -/
def OrderType.toByte : OrderType → UInt8
  | .limit => 0
  | .market => 1

def OrderType.tryFrom (v : UInt8) : Except UInt8 OrderType :=
  if v = 0 then .ok .limit else if v = 1 then .ok .market else .error v

/-- The wire byte of a time in force. -/
def TimeInForce.toByte : TimeInForce → UInt8
  | .goodTillCancel => 0
  | .immediateOrCancel => 1
  | .fillOrKill => 2

def TimeInForce.tryFrom (v : UInt8) : Except UInt8 TimeInForce :=
  if v = 0 then .ok .goodTillCancel
  else if v = 1 then .ok .immediateOrCancel
  else if v = 2 then .ok .fillOrKill
  else .error v

@[simp] theorem OrderSide.tryFrom_toByte (side : OrderSide) :
    OrderSide.tryFrom side.toByte = .ok side := by cases side <;> rfl

@[simp] theorem OrderType.tryFrom_toByte (orderType : OrderType) :
    OrderType.tryFrom orderType.toByte = .ok orderType := by cases orderType <;> rfl

@[simp] theorem TimeInForce.tryFrom_toByte (tif : TimeInForce) :
    TimeInForce.tryFrom tif.toByte = .ok tif := by cases tif <;> rfl

/-- All states an order can be in from the gateway's perspective. -/
inductive OrderStatus
  | pending
  | new
  | partiallyFilled
  | filled
  | cancelling
  | cancelled
  | rejected
  | expired
deriving DecidableEq, Repr

def OrderStatus.isTerminal : OrderStatus → Bool
  | .filled | .cancelled | .rejected | .expired => true
  | _ => false

/-- A client order id, a string under the hood. -/
structure ClientOrderId where
  asStr : String
deriving DecidableEq, Repr

instance : Ord ClientOrderId := ⟨fun a b => compare a.asStr b.asStr⟩

instance : Std.TransOrd ClientOrderId where
  eq_swap := by
    intro a b
    have swap : compare a.asStr b.asStr = (compare b.asStr a.asStr).swap := Std.OrientedCmp.eq_swap
    exact swap
  isLE_trans := by
    intro a b c left right
    have chain : (compare a.asStr b.asStr).isLE → (compare b.asStr c.asStr).isLE →
        (compare a.asStr c.asStr).isLE := Std.TransCmp.isLE_trans
    exact chain left right

instance : Std.LawfulEqOrd ClientOrderId where
  eq_of_compare := by
    rintro ⟨a⟩ ⟨b⟩ equal
    have same : compare a b = .eq := equal
    exact congrArg ClientOrderId.mk (Std.LawfulEqCmp.eq_of_compare same)

structure OrderRequest where
  symbol : String
  side : OrderSide
  orderType : OrderType
  qty : Int64
  limitPrice : Option Int64
  timeInForce : TimeInForce
deriving DecidableEq, Repr

/-- An order tracked by the gateway after being enqueued. -/
structure PendingOrder where
  cloid : ClientOrderId
  request : OrderRequest
  status : OrderStatus
  exchangeId : Option UInt64
  filledQty : Int64
  submittedNs : Int64
  lastUpdatedNs : Int64
deriving DecidableEq, Repr

/-- Why a record does not decode. `utf8` carries the bytes that are no valid string. -/
inductive CorruptReason
  | payloadPastBuffer (payloadLen : ℕ)
  | unknownTag (tag : UInt8)
  | badSide (value : UInt8)
  | badOrderType (value : UInt8)
  | badTif (value : UInt8)
  | utf8 (bytes : List UInt8)
deriving DecidableEq, Repr

/-- The message of a corrupt record; the text for `utf8` is the string decoder's own. -/
def CorruptReason.text (utf8Text : List UInt8 → String) : CorruptReason → String
  | .payloadPastBuffer payloadLen => s!"payload_len={payloadLen} extends past buffer"
  | .unknownTag tag => s!"unknown entry tag {tag}"
  | .badSide value => s!"bad side {value}"
  | .badOrderType value => s!"bad order_type {value}"
  | .badTif value => s!"bad tif {value}"
  | .utf8 bytes => utf8Text bytes

inductive Error
  | orderNotFound (cloid : String)
  | invalidTransition (cloid : String) (source target : OrderStatus)
  | io (message : String)
  | journalCorrupt (offset : ℕ) (reason : CorruptReason)
  | bufferTooShort (needed available : ℕ)
deriving DecidableEq, Repr

end TradingConnectivity.Gateway
