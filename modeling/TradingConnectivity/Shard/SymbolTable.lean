import TradingConnectivity.ConnectorCore.Message
import TradingConnectivity.ToMathlib.Replace

/-! # The symbols of a shard

The shard engines of the two venues keep the state of every symbol of a logical shard under its
name. They differ in the state only.
-/

namespace TradingConnectivity.Shard

open ConnectorCore (InstrumentDefinition)

/-- The symbols of one logical shard, in the order in which the map iterates. -/
structure SymbolTable (S : Type) where
  shardId : UInt32
  symbols : AList fun _ : String => S

namespace SymbolTable

variable {S : Type}

def new (shardId : UInt32) : SymbolTable S := ⟨shardId, ∅⟩

def get? (engine : SymbolTable S) (symbol : String) : Option S := engine.symbols.lookup symbol

/-- A symbol that is registered keeps its state. -/
def addSymbol (fresh : InstrumentDefinition → S) (engine : SymbolTable S)
    (inst : InstrumentDefinition) : SymbolTable S :=
  match engine.get? inst.symbol with
  | some _ => engine
  | none => { engine with symbols := engine.symbols.insert inst.symbol (fresh inst) }

/-- Write the state of a registered symbol. -/
def set (engine : SymbolTable S) (symbol : String) (state : S) : SymbolTable S :=
  { engine with symbols := engine.symbols.replace symbol state }

/-- The engine of the given instruments. -/
def ofInsts (fresh : InstrumentDefinition → S) (shardId : UInt32)
    (insts : List InstrumentDefinition) : SymbolTable S :=
  insts.foldl (addSymbol fresh) (new shardId)

variable {engine : SymbolTable S} {symbol other : String}

theorem get?_set {old : S} (found : engine.get? symbol = some old) (state : S) :
    (engine.set symbol state).get? symbol = some state := by
  rw [get?, set]
  exact AList.lookup_replace state found

theorem get?_set_ne (ne : other ≠ symbol) (state : S) :
    (engine.set symbol state).get? other = engine.get? other := by
  rw [get?, set]
  exact @AList.lookup_replace_ne String (fun _ => S) _ engine.symbols symbol other ne state

/-- Adding a symbol changes nothing but that it may be registered now. -/
theorem get?_addSymbol {fresh : InstrumentDefinition → S} {inst : InstrumentDefinition} {state : S}
    (found : (engine.addSymbol fresh inst).get? symbol = some state) :
    engine.get? symbol = some state ∨ symbol = inst.symbol ∧ state = fresh inst := by
  rw [addSymbol] at found
  cases known : engine.get? inst.symbol with
  | some old =>
    rw [known] at found
    exact .inl found
  | none =>
    rw [known] at found
    change (engine.symbols.insert inst.symbol (fresh inst)).lookup symbol = some state at found
    by_cases same : symbol = inst.symbol
    · rw [same, AList.lookup_insert] at found
      exact .inr ⟨same, (Option.some.inj found).symm⟩
    · rw [AList.lookup_insert_ne same] at found
      exact .inl found

/-- What is registered is a fresh symbol of one of the instruments, under its own name. -/
theorem get?_ofInsts {fresh : InstrumentDefinition → S} {shardId : UInt32}
    {insts : List InstrumentDefinition} {state : S}
    (found : (ofInsts fresh shardId insts).get? symbol = some state) :
    ∃ inst ∈ insts, symbol = inst.symbol ∧ state = fresh inst := by
  induction insts using List.reverseRecOn with
  | nil => cases found
  | append_singleton insts inst ih =>
    rw [ofInsts, List.foldl_append] at found
    rcases get?_addSymbol found with earlier | ⟨named, fresh⟩
    · obtain ⟨old, member, named, fresh⟩ := ih earlier
      exact ⟨old, List.mem_append_left _ member, named, fresh⟩
    · exact ⟨inst, List.mem_append_right _ List.mem_cons_self, named, fresh⟩

end SymbolTable

end TradingConnectivity.Shard
