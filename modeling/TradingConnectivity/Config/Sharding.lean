import TradingConnectivity.Codec.Bytes
import TradingConnectivity.ConnectorCore.Types
import TradingConnectivity.ToMathlib.Except
import TradingConnectivity.ToMathlib.Owners

/-! # Sharding of the symbol universe

A symbol is hashed to a logical shard and a logical shard belongs to one instance. A deployment
runs one validated instance for each residue; its instances then share the shards and the symbols
with neither an overlap nor a hole.
-/

namespace TradingConnectivity.Config

open ConnectorCore (VenueId MarketType)

inductive ConfigError
  | zeroInstances
  | invalidInstanceId (instanceId totalInstances : UInt32)
  | unknownVenue (venue : String)
  | unknownMarket (market : String)
  | zeroShards
  | insufficientShards (shards instances : UInt32)
  | invalidMtu (mtu : UInt32)
  | invalidTermLength (mib : UInt64)
deriving DecidableEq, Repr

namespace ConfigError

def message : ConfigError → String
  | zeroInstances => "instance.total must be at least 1"
  | invalidInstanceId id total =>
      "instance.id (" ++ toString id ++ ") must be less than instance.total (" ++ toString total ++
        ")"
  | unknownVenue venue =>
      "unknown venue \"" ++ venue ++ "\" (expected: binance_spot | binance_futures)"
  | unknownMarket market =>
      "unknown market \"" ++ market ++ "\" (expected: spot | usdm_futures)"
  | zeroShards => "sharding.total_logical_shards must be at least 1"
  | insufficientShards shards instances =>
      "sharding.total_logical_shards (" ++ toString shards ++ ") must be >= instance.total (" ++
        toString instances ++ ")"
  | invalidMtu mtu => "aeron.mtu " ++ toString mtu ++ " is out of range (576..=65535)"
  | invalidTermLength mib => "aeron.term_length_mib must be a power of two, got " ++ toString mib

end ConfigError

structure InstanceConfig where
  /-- Zero-based index of this process. -/
  id : UInt32
  /-- Number of connector processes. -/
  total : UInt32
  venue : String
  market : String
deriving DecidableEq, Repr

structure ShardingConfig where
  totalLogicalShards : UInt32 := 16
deriving DecidableEq, Repr

structure AeronConfig where
  mtu : UInt32 := 1408
  termLengthMib : UInt64 := 64
deriving DecidableEq, Repr

structure ConnectorConfig where
  instanceConfig : InstanceConfig
  sharding : ShardingConfig
  aeron : AeronConfig
deriving DecidableEq, Repr

def fnvBasis : UInt32 := 2166136261

def fnvPrime : UInt32 := 16777619

/-- One round of FNV-1a. -/
def fnvStep (h : UInt32) (byte : UInt8) : UInt32 := (h ^^^ byte.toUInt32) * fnvPrime

/-- The source panics on zero shards. -/
def shardForSymbol (venue : VenueId) (market : MarketType) (symbol : String)
    (totalShards : UInt32) : UInt32 :=
  let h := fnvStep fnvBasis venue.toByte
  let h := fnvStep h market.toByte
  (Codec.strBytes symbol).foldl fnvStep h % totalShards

def isPowerOfTwo (v : UInt64) : Bool := (List.range 64).any (2 ^ · == v.toNat)

namespace ConnectorConfig

def venueId (cfg : ConnectorConfig) : Except ConfigError VenueId :=
  match cfg.instanceConfig.venue with
  | "binance_spot" => .ok .binanceSpot
  | "binance_futures" => .ok .binanceFutures
  | other => .error (.unknownVenue other)

def marketType (cfg : ConnectorConfig) : Except ConfigError MarketType :=
  match cfg.instanceConfig.market with
  | "spot" => .ok .spot
  | "usdm_futures" => .ok .usdmFutures
  | other => .error (.unknownMarket other)

/-- The ids below `total_logical_shards` whose residue is this instance. -/
def ownedShards (cfg : ConnectorConfig) : List UInt32 :=
  ((List.range cfg.sharding.totalLogicalShards.toNat).map UInt32.ofNat).filter fun s =>
    s % cfg.instanceConfig.total == cfg.instanceConfig.id

def shardFor (cfg : ConnectorConfig) (venue : VenueId) (market : MarketType) (symbol : String) :
    UInt32 :=
  shardForSymbol venue market symbol cfg.sharding.totalLogicalShards

def ownsSymbol (cfg : ConnectorConfig) (venue : VenueId) (market : MarketType)
    (symbol : String) : Bool :=
  cfg.shardFor venue market symbol % cfg.instanceConfig.total == cfg.instanceConfig.id

def filterOwnedSymbols (cfg : ConnectorConfig) (venue : VenueId) (market : MarketType)
    (symbols : List String) : List String :=
  symbols.filter (cfg.ownsSymbol venue market)

def validate (cfg : ConnectorConfig) : Except ConfigError Unit :=
  let total := cfg.instanceConfig.total
  let shards := cfg.sharding.totalLogicalShards
  if total = 0 then .error .zeroInstances
  else if total ≤ cfg.instanceConfig.id then
    .error (.invalidInstanceId cfg.instanceConfig.id total)
  else do
    -- venue and market are resolved for their errors only
    let _ ← cfg.venueId
    let _ ← cfg.marketType
    if shards = 0 then .error .zeroShards
    else if shards < total then .error (.insufficientShards shards total)
    else if ¬ (576 ≤ cfg.aeron.mtu ∧ cfg.aeron.mtu ≤ 65535) then .error (.invalidMtu cfg.aeron.mtu)
    else if cfg.aeron.termLengthMib = 0 ∨ isPowerOfTwo cfg.aeron.termLengthMib = false then
      .error (.invalidTermLength cfg.aeron.termLengthMib)
    else .ok ()

/-- What sharding needs of a validated configuration. -/
theorem of_validate {cfg : ConnectorConfig} (valid : cfg.validate = .ok ()) :
    cfg.instanceConfig.id < cfg.instanceConfig.total ∧ 0 < cfg.sharding.totalLogicalShards ∧
      cfg.instanceConfig.total ≤ cfg.sharding.totalLogicalShards := by
  rw [validate] at valid
  split at valid
  · cases valid
  split at valid
  · cases valid
  next running =>
  obtain ⟨venue, -, valid⟩ := Except.bind_eq_ok_iff.mp valid
  obtain ⟨market, -, valid⟩ := Except.bind_eq_ok_iff.mp valid
  split at valid
  · cases valid
  next some_shards =>
  split at valid
  · cases valid
  next enough =>
  exact ⟨UInt32.not_le.mp running, UInt32.pos_iff_ne_zero.mpr some_shards, UInt32.not_lt.mp enough⟩

/-- The same configuration on another process. -/
def withId (cfg : ConnectorConfig) (id : UInt32) : ConnectorConfig :=
  { cfg with instanceConfig := { cfg.instanceConfig with id := id } }

/-- Validation depends on the id only through its bound. -/
private theorem validate_withId {cfg : ConnectorConfig} (valid : cfg.validate = .ok ())
    {id : UInt32}
    (below : id < cfg.instanceConfig.total) : (cfg.withId id).validate = .ok () := by
  have own := (of_validate valid).1
  rw [validate, if_neg (UInt32.not_le.mpr own)] at valid
  have inside : ¬ (cfg.withId id).instanceConfig.total ≤ (cfg.withId id).instanceConfig.id :=
    UInt32.not_le.mpr below
  rw [validate, if_neg inside]
  exact valid

end ConnectorConfig

/-- A configuration that passed `validate`. -/
structure ValidConfig extends ConnectorConfig where
  valid : toConnectorConfig.validate = .ok ()

namespace ValidConfig

variable (cfg : ValidConfig)

private theorem id_lt_total : cfg.instanceConfig.id.toNat < cfg.instanceConfig.total.toNat :=
  UInt32.lt_iff_toNat_lt.mp (ConnectorConfig.of_validate cfg.valid).1

private theorem shards_pos : 0 < cfg.sharding.totalLogicalShards.toNat :=
  UInt32.lt_iff_toNat_lt.mp (ConnectorConfig.of_validate cfg.valid).2.1

private theorem total_le_shards :
    cfg.instanceConfig.total.toNat ≤ cfg.sharding.totalLogicalShards.toNat :=
  UInt32.le_iff_toNat_le.mp (ConnectorConfig.of_validate cfg.valid).2.2

private theorem mem_ownedShards {s : UInt32} :
    s ∈ cfg.ownedShards ↔ s.toNat < cfg.sharding.totalLogicalShards.toNat ∧
      s.toNat % cfg.instanceConfig.total.toNat = cfg.instanceConfig.id.toNat := by
  have below : s ∈ (List.range cfg.sharding.totalLogicalShards.toNat).map UInt32.ofNat ↔
      s.toNat < cfg.sharding.totalLogicalShards.toNat := by
    rw [List.mem_map]
    constructor
    · rintro ⟨n, small, rfl⟩
      have bound := List.mem_range.mp small
      have word := cfg.sharding.totalLogicalShards.toNat_lt
      rw [UInt32.toNat_ofNat_of_lt' (by simpa using bound.trans word)]
      exact bound
    · intro bound
      exact ⟨s.toNat, List.mem_range.mpr bound, UInt32.ofNat_toNat⟩
  rw [ConnectorConfig.ownedShards, List.mem_filter, below, beq_iff_eq, ← UInt32.toNat_inj,
    UInt32.toNat_mod]

private theorem shardFor_lt (venue : VenueId) (market : MarketType) (symbol : String) :
    (cfg.shardFor venue market symbol).toNat < cfg.sharding.totalLogicalShards.toNat := by
  rw [ConnectorConfig.shardFor, shardForSymbol, UInt32.toNat_mod]
  exact Nat.mod_lt _ cfg.shards_pos

private theorem ownsSymbol_iff (venue : VenueId) (market : MarketType) (symbol : String) :
    cfg.ownsSymbol venue market symbol ↔
      (cfg.shardFor venue market symbol).toNat % cfg.instanceConfig.total.toNat =
        cfg.instanceConfig.id.toNat := by
  rw [ConnectorConfig.ownsSymbol, beq_iff_eq, ← UInt32.toNat_inj, UInt32.toNat_mod]

/-- The two ownership tests agree. -/
theorem ownsSymbol_iff_mem (venue : VenueId) (market : MarketType) (symbol : String) :
    cfg.ownsSymbol venue market symbol ↔
      cfg.shardFor venue market symbol ∈ cfg.ownedShards := by
  rw [mem_ownedShards, ownsSymbol_iff]
  exact ⟨fun residue => ⟨cfg.shardFor_lt venue market symbol, residue⟩, And.right⟩

/-- There are as many shards as instances, so the shard of its own number is always there. -/
theorem ownedShards_ne_nil : cfg.ownedShards ≠ [] := by
  apply List.ne_nil_of_mem (a := cfg.instanceConfig.id)
  rw [mem_ownedShards]
  have below := cfg.id_lt_total
  have enough := cfg.total_le_shards
  exact ⟨by omega, Nat.mod_eq_of_lt below⟩

end ValidConfig

/-- The running instances of one deployment generation: ids `0` to `N - 1`, once each, over one
number of instances and one number of shards. -/
structure Deployment where
  total : UInt32
  totalLogicalShards : UInt32
  instances : List ValidConfig
  running : instances ≠ []
  ids : (instances.map fun cfg => cfg.instanceConfig.id.toNat).Perm (List.range total.toNat)
  same_total : ∀ cfg ∈ instances, cfg.instanceConfig.total = total
  same_shards : ∀ cfg ∈ instances, cfg.sharding.totalLogicalShards = totalLogicalShards

namespace Deployment

variable (deployment : Deployment)

private theorem total_pos : 0 < deployment.total.toNat := by
  obtain ⟨cfg, member⟩ := List.exists_mem_of_ne_nil _ deployment.running
  have below := cfg.id_lt_total
  rw [deployment.same_total cfg member] at below
  omega

private theorem nodup_ids :
    (deployment.instances.map fun cfg => cfg.instanceConfig.id.toNat).Nodup :=
  deployment.ids.nodup_iff.mpr List.nodup_range

/-- One instance has a given residue. -/
private theorem countP_residue (s : ℕ) : deployment.instances.countP
    (fun cfg => cfg.instanceConfig.id.toNat == s % deployment.total.toNat) = 1 := by
  have below := Nat.mod_lt s deployment.total_pos
  calc deployment.instances.countP
        (fun cfg => cfg.instanceConfig.id.toNat == s % deployment.total.toNat)
      = (deployment.instances.map fun cfg => cfg.instanceConfig.id.toNat).count
          (s % deployment.total.toNat) := by rw [List.count, List.countP_map]; rfl
    _ = (List.range deployment.total.toNat).count (s % deployment.total.toNat) :=
        deployment.ids.count_eq _
    _ = 1 := List.count_eq_one_of_mem List.nodup_range (List.mem_range.mpr below)

/-- The instances hash alike: the shard of a symbol is a matter of the deployment. -/
def shardFor (venue : VenueId) (market : MarketType) (symbol : String) : UInt32 :=
  shardForSymbol venue market symbol deployment.totalLogicalShards

private theorem ownsSymbol_eq {cfg : ValidConfig} (member : cfg ∈ deployment.instances)
    (venue : VenueId) (market : MarketType) (symbol : String) :
    cfg.ownsSymbol venue market symbol = (cfg.instanceConfig.id.toNat ==
      (deployment.shardFor venue market symbol).toNat % deployment.total.toNat) := by
  rw [Bool.eq_iff_iff, cfg.ownsSymbol_iff, deployment.same_total cfg member, beq_iff_eq, eq_comm,
    ConnectorConfig.shardFor, deployment.same_shards cfg member, shardFor]

private theorem countP_ownsSymbol (venue : VenueId) (market : MarketType) (symbol : String) :
    deployment.instances.countP (fun cfg => cfg.ownsSymbol venue market symbol) = 1 := by
  rw [← deployment.countP_residue (deployment.shardFor venue market symbol).toNat]
  apply List.countP_congr
  intro cfg member
  rw [deployment.ownsSymbol_eq member]

private theorem pairwise_disjoint : deployment.instances.Pairwise fun first second =>
    first.ownedShards.Disjoint second.ownedShards := by
  have distinct := List.pairwise_map.mp deployment.nodup_ids
  refine distinct.imp_of_mem ?_
  intro first second one other apart s mine yours
  have residue := (first.mem_ownedShards.mp mine).2
  have same := (second.mem_ownedShards.mp yours).2
  rw [deployment.same_total first one] at residue
  rw [deployment.same_total second other] at same
  exact apart (residue.symm.trans same)

private theorem owned_iff_lt (s : UInt32) :
    (∃ cfg ∈ deployment.instances, s ∈ cfg.ownedShards) ↔ s < deployment.totalLogicalShards := by
  constructor
  · rintro ⟨cfg, member, owned⟩
    rw [UInt32.lt_iff_toNat_lt, ← deployment.same_shards cfg member]
    exact (cfg.mem_ownedShards.mp owned).1
  · intro small
    obtain ⟨cfg, ⟨member, residue⟩, -⟩ :=
      List.existsUnique_of_countP (deployment.countP_residue s.toNat)
    refine ⟨cfg, member, cfg.mem_ownedShards.mpr ⟨?_, ?_⟩⟩
    · rw [deployment.same_shards cfg member]
      exact UInt32.lt_iff_toNat_lt.mp small
    · rw [deployment.same_total cfg member]
      exact (beq_iff_eq.mp residue).symm

/-- Every validated configuration is the one of an instance of some deployment. -/
theorem exists_mem (cfg : ValidConfig) : ∃ deployment : Deployment, cfg ∈ deployment.instances := by
  have below : ∀ i : Fin cfg.instanceConfig.total.toNat,
      UInt32.ofNat i < cfg.instanceConfig.total := fun i => by
    rw [UInt32.lt_iff_toNat_lt, UInt32.toNat_ofNat_of_lt' (i.isLt.trans (UInt32.toNat_lt _))]
    exact i.isLt
  let instances : List ValidConfig := (List.finRange cfg.instanceConfig.total.toNat).map
    fun i : Fin cfg.instanceConfig.total.toNat =>
      ⟨cfg.withId (UInt32.ofNat i), ConnectorConfig.validate_withId cfg.valid (below i)⟩
  have own : cfg ∈ instances := by
    refine List.mem_map.mpr
      ⟨⟨cfg.instanceConfig.id.toNat, cfg.id_lt_total⟩, List.mem_finRange _, ?_⟩
    obtain ⟨config, valid⟩ := cfg
    simp only [ConnectorConfig.withId, UInt32.ofNat_toNat]
  have copies : ∀ other ∈ instances, ∃ id, other.toConnectorConfig = cfg.withId id := by
    intro other member
    obtain ⟨i, -, rfl⟩ := List.mem_map.mp member
    exact ⟨_, rfl⟩
  have ids : instances.map (fun cfg => cfg.instanceConfig.id.toNat) =
      List.range cfg.instanceConfig.total.toNat := by
    rw [List.map_map, ← List.map_coe_finRange_eq_range]
    apply List.map_congr_left
    intro i member
    exact UInt32.toNat_ofNat_of_lt' (i.isLt.trans (UInt32.toNat_lt _))
  refine ⟨⟨cfg.instanceConfig.total, cfg.sharding.totalLogicalShards, instances,
    List.ne_nil_of_mem own, ids ▸ List.Perm.refl _, ?_, ?_⟩, own⟩
  · intro other member
    obtain ⟨id, same⟩ := copies other member
    rw [same, ConnectorConfig.withId]
  · intro other member
    obtain ⟨id, same⟩ := copies other member
    rw [same, ConnectorConfig.withId]

/-- Neither an overlap nor a hole: a symbol has one owner, the subscription lists split the
universe in order, the shard lists split the shards, and the two ownership tests agree. -/
theorem one_owner (venue : VenueId) (market : MarketType) :
    (∀ symbol, ∃! cfg, cfg ∈ deployment.instances ∧ cfg.ownsSymbol venue market symbol) ∧
    (∀ symbols : List String,
      (deployment.instances.flatMap fun cfg =>
        cfg.filterOwnedSymbols venue market symbols).Perm symbols ∧
      ∀ cfg ∈ deployment.instances,
        (cfg.filterOwnedSymbols venue market symbols).Sublist symbols) ∧
    ((∀ cfg ∈ deployment.instances, cfg.ownedShards ≠ []) ∧
      deployment.instances.Pairwise (fun first second =>
        first.ownedShards.Disjoint second.ownedShards) ∧
      ∀ s, (∃ cfg ∈ deployment.instances, s ∈ cfg.ownedShards) ↔
        s < deployment.totalLogicalShards) ∧
    ∀ cfg ∈ deployment.instances, ∀ symbol,
      cfg.ownsSymbol venue market symbol ↔
        cfg.shardFor venue market symbol ∈ cfg.ownedShards := by
  refine ⟨fun symbol => ?_, fun symbols => ⟨?_, fun cfg member => ?_⟩, ⟨?_, ?_, ?_⟩, ?_⟩
  · exact List.existsUnique_of_countP (deployment.countP_ownsSymbol venue market symbol)
  · apply List.flatMap_filter_perm
    intro symbol member
    exact deployment.countP_ownsSymbol venue market symbol
  · exact List.filter_sublist
  · exact fun cfg member => cfg.ownedShards_ne_nil
  · exact deployment.pairwise_disjoint
  · exact deployment.owned_iff_lt
  · exact fun cfg member symbol => cfg.ownsSymbol_iff_mem venue market symbol

end Deployment

end TradingConnectivity.Config
