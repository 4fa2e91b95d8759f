import TradingConnectivity.Redundancy.Comparison
import TradingConnectivity.ToMathlib.FirstByKey

/-! # Calls of the failover trigger

The trigger is called for every verdict that says diverged, and nothing remembers that a pair of
symbol and update id was reported before. `failover_once_iff` says when a run calls it at most once
for every pair; `failover_once_of_single` shows that runs in which each role reports a pair at most
once are among them.
-/

namespace TradingConnectivity.Redundancy

open ConnectorCore (BookChecksum InstanceRole)
open Machine ChecksumArbiter

/-- What a divergence is about. -/
def Divergence.pair (call : Divergence) : String × UInt64 := (call.symbol, call.updateId)

def pairOf (msg : BookChecksum) : String × UInt64 := (msg.symbol, msg.updateId)

/-- The pair for which an event called the trigger. -/
def ArbiterEvent.reported? (event : ArbiterEvent) : Option (String × UInt64) :=
  event.output.2.map Divergence.pair

/-- The pairs for which a run called the trigger, one for each call. -/
def reported (events : List ArbiterEvent) : List (String × UInt64) :=
  events.filterMap ArbiterEvent.reported?

/-- The message's id is not below its window, which holds a different checksum of the other role. -/
def Disagrees (arbiter : ChecksumArbiter) (msg : BookChecksum) : Prop :=
  ¬arbiter.Below msg ∧ ∃ other, arbiter.met msg = some other ∧ msg.checksum ≠ other

/-- Of two messages about one pair each meets a different checksum of the other role. -/
def DisagreesAgain (past : List ArbiterEvent) (event : ArbiterEvent) : Prop :=
  Disagrees event.before event.input ∧
    ∃ earlier ∈ past, pairOf earlier.input = pairOf event.input ∧
      Disagrees earlier.before earlier.input

/-- A message calls the trigger, for its own pair, exactly when it disagrees. -/
theorem reported?_eq_some_iff {arbiter : ChecksumArbiter} {msg : BookChecksum}
    {pair : String × UInt64} :
    ArbiterEvent.reported? ⟨arbiter, msg, machine.answer arbiter msg⟩ = some pair ↔
      Disagrees arbiter msg ∧ pair = pairOf msg := by
  have answer : (machine.answer arbiter msg).2 = (arbiter.process msg).1.2 := rfl
  rw [ArbiterEvent.reported?, answer, process]
  by_cases below : arbiter.Below msg
  · simp only [ingest_below below, Option.map_none, reduceCtorEq, Disagrees, below,
      not_true_eq_false, false_and]
  · rw [ingest_inside below]
    cases holds : arbiter.met msg with
    | none => simp only [Option.map_none, reduceCtorEq, Disagrees, holds, false_and, exists_false,
        and_false]
    | some other =>
      by_cases same : msg.checksum = other
      · have agreed : compared msg other = .matched msg.symbol msg.updateId msg.checksum :=
          if_pos same
        simp only [agreed, Option.map_none, reduceCtorEq, false_iff]
        rintro ⟨⟨-, differing, found, differs⟩, -⟩
        obtain rfl := Option.some.inj (holds.symm.trans found)
        exact differs same
      · have disagrees : Disagrees arbiter msg := ⟨below, other, holds, same⟩
        simp only [disagrees, true_and, compared, if_neg same]
        cases role msg <;> exact ⟨fun h => (Option.some.inj h).symm, fun h => congrArg some h.symm⟩

/-- The pairs that a run reports are those of its messages that disagree. -/
private theorem mem_reported_iff {start : ChecksumArbiter} {messages : List BookChecksum}
    {past later : List ArbiterEvent} (split : machine.history start messages = past ++ later)
    {pair : String × UInt64} :
    pair ∈ reported past ↔
      ∃ event ∈ past, pairOf event.input = pair ∧ Disagrees event.before event.input := by
  rw [reported, List.mem_filterMap]
  have caused {event : ArbiterEvent} (member : event ∈ past) :
      event.reported? = some pair ↔
        pairOf event.input = pair ∧ Disagrees event.before event.input := by
    obtain ⟨front, back, rfl⟩ := List.append_of_mem member
    rw [List.append_assoc] at split
    obtain ⟨_, msg, _, _, _, rfl, _⟩ := machine.history_split split
    rw [reported?_eq_some_iff, and_comm, eq_comm]
  exact exists_congr fun event => and_congr_right caused

/-- A run calls the trigger at most once for every pair exactly when no two messages about a pair
disagree. -/
theorem failover_once_iff {window : ℕ} (positive : 0 < window) (messages : List BookChecksum) :
    (reported (machine.history (withWindow window positive) messages)).Nodup ↔
      ∀ past event later, machine.history (withWindow window positive) messages =
        past ++ event :: later → ¬DisagreesAgain past event := by
  rw [reported, List.nodup_filterMap_iff]
  constructor
  · rintro fresh past event later split ⟨disagrees, earlier⟩
    have new := fresh past event later split
    have again := (mem_reported_iff split).mpr earlier
    obtain ⟨_, msg, _, _, _, rfl, _⟩ := machine.history_split split
    exact new _ (reported?_eq_some_iff.mpr ⟨disagrees, rfl⟩) again
  · intro never past event later split pair emits again
    have new := never past event later split
    have earlier := (mem_reported_iff split).mp again
    obtain ⟨_, msg, _, _, _, rfl, _⟩ := machine.history_split split
    obtain ⟨disagrees, rfl⟩ := reported?_eq_some_iff.mp emits
    exact new ⟨disagrees, earlier⟩

/-- Two reports disagree once, and the second of them delivered again disagrees once more. -/
theorem failover_once_iff_window_two :
    (∀ past event later, machine.history (withWindow 2 (by decide))
        [report 0 10 7, report 1 10 8] = past ++ event :: later → ¬DisagreesAgain past event) ∧
      ¬∀ past event later, machine.history (withWindow 2 (by decide))
        [report 0 10 7, report 1 10 8, report 1 10 8] = past ++ event :: later →
          ¬DisagreesAgain past event :=
  ⟨(failover_once_iff (by decide) _).mp (by decide),
    fun never => absurd ((failover_once_iff (by decide) _).mpr never) (by decide)⟩

/-- The second report is delivered twice and calls the trigger twice. -/
theorem failover_repeats :
    ¬∀ (window : ℕ) (positive : 0 < window) (messages : List BookChecksum),
      (reported (machine.history (withWindow window positive) messages)).Nodup := by
  intro claimed
  have once := claimed 2 (by decide) [report 0 10 7, report 1 10 8, report 1 10 8]
  exact absurd once (by decide)

/-! ## Single deliveries -/

/-- No role reports a pair twice. -/
def Single (messages : List BookChecksum) : Prop :=
  ∀ earlier msg later, messages = earlier ++ msg :: later →
    ∀ other ∈ earlier, pairOf other = pairOf msg → role other ≠ role msg

/-- The window holds a checksum of the role for the pair. -/
def Holds (arbiter : ChecksumArbiter) (pair : String × UInt64) (role : InstanceRole) : Prop :=
  ∃ e ∈ arbiter.entries pair.1, e.updateId = pair.2 ∧ (e.get role).isSome

private theorem holds_of_met {arbiter : ChecksumArbiter} {msg : BookChecksum} {other : UInt64}
    (holds : arbiter.met msg = some other) :
    Holds arbiter (pairOf msg) (otherRole (role msg)) := by
  obtain ⟨e, found, reports⟩ := Option.bind_eq_some_iff.mp holds
  obtain ⟨member, same⟩ := (arbiter.queue msg.symbol).find?_eq_some_iff.mp found
  exact ⟨e, member, same, Option.isSome_iff_exists.mpr ⟨other, reports⟩⟩

/-- An entry after recording was there before, or is the one that was set. -/
theorem Window.of_mem_record {capacity : ℕ} {window : Window capacity} {kind : InstanceRole}
    {updateId checksum : UInt64} {e : Entry}
    (member : e ∈ (window.record kind updateId checksum).entries) :
    e ∈ window.entries ∨ ∃ before, (before ∈ window.entries ∨ before = .new updateId) ∧
      before.updateId = updateId ∧ e = before.set checksum kind := by
  unfold Window.record at member
  split at member
  · obtain ⟨before, inside, rfl⟩ := List.mem_map.mp member
    split
    · next same => exact .inr ⟨before, .inl inside, same, rfl⟩
    · exact .inl inside
  · rw [Window.entries_push] at member
    rcases List.mem_append.mp (List.mem_of_mem_drop member) with inside | new
    · exact .inl inside
    · exact .inr ⟨_, .inr rfl, rfl, List.mem_singleton.mp new⟩

/-- A message only adds its own checksum. -/
theorem Holds.of_ingest {arbiter : ChecksumArbiter} {msg : BookChecksum} {pair : String × UInt64}
    {kind : InstanceRole} (holds : Holds (arbiter.ingest msg).2 pair kind) :
    Holds arbiter pair kind ∨ pairOf msg = pair ∧ role msg = kind := by
  obtain ⟨e, member, same, reports⟩ := holds
  by_cases below : arbiter.Below msg
  · rw [entries_ingest_below below] at member
    exact .inl ⟨e, member, same, reports⟩
  by_cases own : pair.1 = msg.symbol
  · rw [own, entries_ingest_inside below] at member
    rcases Window.of_mem_record member with inside | ⟨before, origin, about, rfl⟩
    · exact .inl ⟨e, own ▸ inside, same, reports⟩
    · rw [Entry.updateId_set] at same
      by_cases kinds : role msg = kind
      · exact .inr ⟨Prod.ext own.symm (about.symm.trans same), kinds⟩
      · have others : kind = otherRole (role msg) := by
          cases kind <;> cases kinded : role msg <;> first | rfl | exact absurd kinded kinds
        rw [others, Entry.get_set_other] at reports
        rcases origin with inside | rfl
        · exact .inl ⟨before, own ▸ inside, same, others ▸ reports⟩
        · rw [Entry.get_new] at reports
          exact absurd reports Bool.false_ne_true
  · rw [entries_ingest_of_ne _ own] at member
    exact .inl ⟨e, member, same, reports⟩

/-- What a window holds was reported in the run. -/
theorem exists_report_of_holds {window : ℕ} (positive : 0 < window) (messages : List BookChecksum)
    {pair : String × UInt64} {kind : InstanceRole}
    (holds : Holds (machine.final (withWindow window positive) messages) pair kind) :
    ∃ msg ∈ messages, pairOf msg = pair ∧ role msg = kind := by
  have run := machine.history_induction (withWindow window positive)
    (P := fun past arbiter => Holds arbiter pair kind →
      ∃ msg ∈ past.map Event.input, pairOf msg = pair ∧ role msg = kind)
    (by
      rintro ⟨e, member, -⟩
      rw [ChecksumArbiter.entries, ChecksumArbiter.queue, withWindow,
        Std.ExtTreeMap.getD_empty] at member
      exact absurd member List.not_mem_nil)
    (by
      intro past arbiter msg known holds
      rw [machine_next] at holds
      rw [List.map_append, List.map_singleton]
      rcases holds.of_ingest with before | own
      · obtain ⟨earlier, inside, about⟩ := known before
        exact ⟨earlier, List.mem_append_left _ inside, about⟩
      · exact ⟨msg, List.mem_append_right _ List.mem_cons_self, own⟩) messages
  rw [history_inputs] at run
  exact run holds

/-- When no role reports a pair twice, a run calls the trigger at most once for every pair. -/
theorem failover_once_of_single {window : ℕ} (positive : 0 < window) {messages : List BookChecksum}
    (single : Single messages) :
    (reported (machine.history (withWindow window positive) messages)).Nodup := by
  refine (failover_once_iff positive messages).mpr ?_
  rintro past event later split ⟨-, again⟩
  obtain ⟨earlier, msg, rest, rfl, rfl, rfl, -⟩ := machine.history_split split
  obtain ⟨event, member, same, disagrees⟩ := again
  obtain ⟨front, back, whole⟩ := List.append_of_mem member
  obtain ⟨first, second, between, rfl, -, rfl, -⟩ := machine.history_split whole
  obtain ⟨-, other, holds, -⟩ := disagrees
  obtain ⟨opposite, inside, about, against⟩ :=
    exists_report_of_holds positive first (holds_of_met holds)
  -- two earlier messages of both roles are about the pair
  have one := single _ msg rest rfl second (List.mem_append_right _ List.mem_cons_self) same
  have two := single _ msg rest rfl opposite (List.mem_append_left _ inside) (about.trans same)
  rw [against] at two
  cases kind : role second <;> cases last : role msg <;>
    simp only [kind, last, otherRole, ne_eq, not_true_eq_false, reduceCtorEq] at one two

end TradingConnectivity.Redundancy
