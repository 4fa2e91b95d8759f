import TradingConnectivity.Redundancy.Arbiter

/-! # What the arbiter compares

The window is a queue in the order of arrival, and staleness compares an id with the front of the
queue. Where ids do not arrive in order the two disagree: an id can be retained and below the front,
or evicted and above it. `arbiter_compares_iff` is the exact condition on the steps of a run, and
`arbiter_compares_of_ascending` shows that runs whose new ids only grow meet it.
-/

namespace TradingConnectivity.Redundancy

open ConnectorCore (BookChecksum)
open Machine ChecksumArbiter

abbrev ArbiterEvent := Event ChecksumArbiter BookChecksum (ArbiterVerdict × Option Divergence)

/-- The ids the arbiter retains for a symbol. -/
def ChecksumArbiter.ids (arbiter : ChecksumArbiter) (symbol : String) : List UInt64 :=
  (arbiter.entries symbol).map Entry.updateId

/-- The id was retained earlier in the run and is not retained now. -/
def Evicted (past : List ArbiterEvent) (arbiter : ChecksumArbiter) (symbol : String)
    (updateId : UInt64) : Prop :=
  (∃ event ∈ past, updateId ∈ event.before.ids symbol) ∧ updateId ∉ arbiter.ids symbol

/-- A message is compared with the other role's checksum if its entry is retained with one, and is
stale if its id was evicted. -/
structure Judged (past : List ArbiterEvent) (event : ArbiterEvent) : Prop where
  compared : ∀ other, event.before.met event.input = some other →
    event.output.1 = compared event.input other
  evicted : Evicted past event.before event.input.symbol event.input.updateId →
    event.output.1 = .stale

/-- The front of the window is not above an id retained with the other role's checksum, and is above
an id that was evicted. -/
structure Placed (past : List ArbiterEvent) (event : ArbiterEvent) : Prop where
  retained : (event.before.met event.input).isSome → ¬event.before.Below event.input
  evicted : Evicted past event.before event.input.symbol event.input.updateId →
    event.before.Below event.input

private theorem compared_ne_stale (msg : BookChecksum) (other : UInt64) :
    compared msg other ≠ .stale := by
  unfold compared
  split
  · exact ArbiterVerdict.noConfusion
  · split <;> exact ArbiterVerdict.noConfusion

private theorem verdict_eq_stale_iff (arbiter : ChecksumArbiter) (msg : BookChecksum) :
    (arbiter.ingest msg).1 = .stale ↔ arbiter.Below msg := by
  constructor
  · intro stale
    by_contra inside
    rw [ingest_inside inside] at stale
    cases other : arbiter.met msg with
    | none => simp only [other, reduceCtorEq] at stale
    | some checksum =>
      simp only [other] at stale
      exact compared_ne_stale msg checksum stale
  · intro below
    rw [ingest_below below]

/-- One step is judged as it should be exactly when its id stands on the right side of the front. -/
theorem judged_iff_placed (past : List ArbiterEvent) (arbiter : ChecksumArbiter)
    (msg : BookChecksum) :
    Judged past ⟨arbiter, msg, machine.answer arbiter msg⟩ ↔
      Placed past ⟨arbiter, msg, machine.answer arbiter msg⟩ := by
  constructor
  · intro judged
    constructor
    · intro holds below
      obtain ⟨other, found⟩ := Option.isSome_iff_exists.mp holds
      have verdict := judged.compared other found
      rw [machine_verdict, ingest_below below] at verdict
      exact compared_ne_stale msg other verdict.symm
    · intro evicted
      have verdict := judged.evicted evicted
      rw [machine_verdict] at verdict
      exact (verdict_eq_stale_iff arbiter msg).mp verdict
  · intro placed
    constructor
    · intro other found
      have inside := placed.retained (Option.isSome_iff_exists.mpr ⟨other, found⟩)
      have holds : arbiter.met msg = some other := found
      rw [machine_verdict, ingest_inside inside, holds]
    · intro evicted
      rw [machine_verdict]
      exact (verdict_eq_stale_iff arbiter msg).mpr (placed.evicted evicted)

/-- In a run of the arbiter every message is judged as it should be exactly when every message's id
stands on the right side of the front of the window it meets. -/
theorem arbiter_compares_iff {window : ℕ} (positive : 0 < window) (messages : List BookChecksum) :
    (∀ past event later, machine.history (withWindow window positive) messages =
        past ++ event :: later → Judged past event) ↔
      ∀ past event later, machine.history (withWindow window positive) messages =
        past ++ event :: later → Placed past event := by
  constructor
  · intro judged past event later split
    have now := judged past event later split
    obtain ⟨earlier, msg, _, _, _, rfl, _⟩ := machine.history_split split
    exact (judged_iff_placed _ _ _).mp now
  · intro placed past event later split
    have now := placed past event later split
    obtain ⟨earlier, msg, _, _, _, rfl, _⟩ := machine.history_split split
    exact (judged_iff_placed _ _ _).mpr now

/-- A checksum of one book at an update id, from an instance. -/
def report (instanceId : UInt32) (updateId checksum : UInt64) : BookChecksum where
  header := ⟨ConnectorCore.schemaVersion, .bookChecksum, .binanceSpot, .spot, 1, 0, instanceId, 0,
    ConnectorCore.tsNone, ConnectorCore.tsNone, ConnectorCore.tsNone, ConnectorCore.tsNone⟩
  symbol := "BTCUSDT"
  updateId := updateId
  bidDepth := 1
  askDepth := 1
  checksum := checksum

/-- Two reports of one id are compared; in a window of two, ids 10, 12 and 11 push the front beyond
the second report of id 11. -/
theorem arbiter_compares_iff_window_two :
    (∀ past event later, machine.history (withWindow 2 (by decide))
        [report 0 10 7, report 1 10 7] = past ++ event :: later → Judged past event) ∧
      ¬∀ past event later, machine.history (withWindow 2 (by decide))
        [report 0 10 7, report 0 12 7, report 0 11 7, report 1 11 8] = past ++ event :: later →
          Placed past event := by
  constructor
  · refine (arbiter_compares_iff (by decide) _).mpr fun past event later split => ?_
    rcases past with _ | ⟨first, _ | ⟨second, past⟩⟩
    · obtain ⟨rfl, -⟩ := List.cons.inj split
      exact ⟨by decide, fun ⟨⟨_, earlier, _⟩, _⟩ => absurd earlier List.not_mem_nil⟩
    · obtain ⟨-, split⟩ := List.cons.inj split
      obtain ⟨rfl, -⟩ := List.cons.inj split
      exact ⟨by decide, fun ⟨_, gone⟩ => absurd (by decide) gone⟩
    · have short := congrArg List.length split
      simp at short
  · intro placed
    have judged := (arbiter_compares_iff (by decide) _).mpr placed
      (machine.history (withWindow 2 (by decide)) [report 0 10 7, report 0 12 7, report 0 11 7])
      ⟨machine.final (withWindow 2 (by decide)) [report 0 10 7, report 0 12 7, report 0 11 7],
        report 1 11 8, _⟩ [] rfl
    have verdict := judged.compared 7 (by decide)
    exact absurd verdict (by decide)

/-- In a window of two, id 11 arrives after id 12 and pushes id 10 out: the second report of id 11,
which differs from the retained one, is called stale. -/
theorem arbiter_misses_retained :
    ¬∀ (window : ℕ) (positive : 0 < window) (messages : List BookChecksum) past event later,
      machine.history (withWindow window positive) messages = past ++ event :: later →
        Judged past event := by
  intro claimed
  let earlier := [report 0 10 7, report 0 12 7, report 0 11 7]
  have judged := claimed 2 (by decide) (earlier ++ [report 1 11 8])
    (machine.history (withWindow 2 (by decide)) earlier)
    ⟨machine.final (withWindow 2 (by decide)) earlier, report 1 11 8, _⟩ [] rfl
  have verdict := judged.compared 7 (by decide)
  exact absurd verdict (by decide)

/-! ## Ascending ids -/

/-- Some message was about this id of the symbol. -/
def Seen (messages : List BookChecksum) (symbol : String) (updateId : UInt64) : Prop :=
  ∃ msg ∈ messages, msg.symbol = symbol ∧ msg.updateId = updateId

/-- The id of a message is known, or above every known id of its symbol. -/
def Follows (messages : List BookChecksum) (msg : BookChecksum) : Prop :=
  Seen messages msg.symbol msg.updateId ∨
    ∀ updateId, Seen messages msg.symbol updateId → updateId < msg.updateId

/-- New ids of a symbol only grow. -/
def Ascending (messages : List BookChecksum) : Prop :=
  ∀ earlier msg later, messages = earlier ++ msg :: later → Follows earlier msg

/-- The windows are sorted, and every id seen so far is retained or below its window. -/
structure Sorted (messages : List BookChecksum) (arbiter : ChecksumArbiter) : Prop where
  sorted : ∀ symbol, (arbiter.ids symbol).Pairwise (· < ·)
  known : ∀ symbol updateId, updateId ∈ arbiter.ids symbol → Seen messages symbol updateId
  placed : ∀ symbol updateId, Seen messages symbol updateId → updateId ∈ arbiter.ids symbol ∨
    ∃ front ∈ (arbiter.ids symbol).head?, updateId < front

private theorem seen_append {messages : List BookChecksum} {msg : BookChecksum} {symbol : String}
    {updateId : UInt64} : Seen (messages ++ [msg]) symbol updateId ↔
      Seen messages symbol updateId ∨ msg.symbol = symbol ∧ msg.updateId = updateId := by
  simp only [Seen, List.mem_append, List.mem_singleton, or_and_right, exists_or, exists_eq_left]

private theorem below_iff (arbiter : ChecksumArbiter) (msg : BookChecksum) :
    arbiter.Below msg ↔ ∃ front ∈ (arbiter.ids msg.symbol).head?, msg.updateId < front := by
  rw [Below, Window.Precedes, ChecksumArbiter.ids, ChecksumArbiter.entries, List.head?_map]
  simp only [Option.mem_def, Option.map_eq_some_iff, exists_exists_and_eq_and]

private theorem mem_ids_of_met {arbiter : ChecksumArbiter} {msg : BookChecksum}
    (holds : (arbiter.met msg).isSome) : msg.updateId ∈ arbiter.ids msg.symbol := by
  unfold met Window.held at holds
  cases found : (arbiter.queue msg.symbol).find? msg.updateId with
  | none => simp only [found, Option.bind_none, Option.isSome_none, Bool.false_eq_true] at holds
  | some e =>
    obtain ⟨member, same⟩ := (arbiter.queue msg.symbol).find?_eq_some_iff.mp found
    exact List.mem_map.mpr ⟨e, member, same⟩

/-- An id in a sorted window is not below it. -/
private theorem not_lt_head {ids : List UInt64} (sorted : ids.Pairwise (· < ·)) {id : UInt64}
    (member : id ∈ ids) : ¬∃ front ∈ ids.head?, id < front := by
  rintro ⟨front, first, below⟩
  cases ids with
  | nil => exact absurd member List.not_mem_nil
  | cons head rest =>
    obtain rfl : head = front := Option.some.inj first
    rcases List.mem_cons.mp member with rfl | later
    · exact UInt64.lt_irrefl _ below
    · exact UInt64.lt_irrefl _ (UInt64.lt_trans below (List.rel_of_pairwise_cons sorted later))

/-- What the front of a sorted window leaves below it. -/
private theorem placed_drop {ids : List UInt64} (sorted : ids.Pairwise (· < ·)) {count : ℕ}
    (room : count < ids.length) {id : UInt64} (member : id ∈ ids) :
    id ∈ ids.drop count ∨ ∃ front ∈ (ids.drop count).head?, id < front := by
  rw [← List.take_append_drop count ids, List.pairwise_append] at sorted
  rw [← List.take_append_drop count ids, List.mem_append] at member
  rcases member with dropped | kept
  · have left : ids.drop count ≠ [] := by
      rw [ne_eq, List.drop_eq_nil_iff]
      omega
    obtain ⟨front, rest, same⟩ := List.exists_cons_of_ne_nil left
    refine .inr ⟨front, by rw [same]; rfl, ?_⟩
    exact sorted.2.2 id dropped front (by rw [same]; exact List.mem_cons_self)
  · exact .inl kept

/-- What is below a sorted window and below the new id stays below the window. -/
private theorem below_drop {ids : List UInt64} (sorted : ids.Pairwise (· < ·)) {count : ℕ}
    {id new : UInt64} (room : count < (ids ++ [new]).length) (above : id < new)
    (below : ∃ front ∈ ids.head?, id < front) :
    ∃ front ∈ ((ids ++ [new]).drop count).head?, id < front := by
  obtain ⟨front, first, below⟩ := below
  have left : (ids ++ [new]).drop count ≠ [] := by
    rw [ne_eq, List.drop_eq_nil_iff]
    omega
  obtain ⟨head, rest, whole⟩ := List.exists_cons_of_ne_nil left
  refine ⟨head, by rw [whole]; rfl, ?_⟩
  have member : head ∈ ids ++ [new] :=
    List.mem_of_mem_drop (by rw [whole]; exact List.mem_cons_self)
  rcases List.mem_append.mp member with old | last
  · by_contra notBelow
    apply not_lt_head sorted old
    exact ⟨front, first, UInt64.lt_of_le_of_lt (UInt64.not_lt.mp notBelow) below⟩
  · obtain rfl := List.mem_singleton.mp last
    exact above

/-- A message about a retained id changes no ids. -/
private theorem ids_ingest_of_mem {arbiter : ChecksumArbiter} {msg : BookChecksum}
    (present : msg.updateId ∈ arbiter.ids msg.symbol) (symbol : String) :
    (arbiter.ingest msg).2.ids symbol = arbiter.ids symbol := by
  by_cases below : arbiter.Below msg
  · rw [ChecksumArbiter.ids, entries_ingest_below below]
    rfl
  · by_cases same : symbol = msg.symbol
    · subst same
      have retained : msg.updateId ∈ (arbiter.queue msg.symbol).ids := present
      rw [ChecksumArbiter.ids, entries_ingest_inside below, Window.record, dif_pos retained]
      exact Window.ids_update _ _ _ _
    · rw [ChecksumArbiter.ids, entries_ingest_of_ne _ same]
      rfl

/-- A new id joins the back of the window, whose front may leave. -/
private theorem ids_ingest_of_fresh {arbiter : ChecksumArbiter} {msg : BookChecksum}
    (fresh : msg.updateId ∉ arbiter.ids msg.symbol) (inside : ¬arbiter.Below msg) :
    ∃ count < (arbiter.ids msg.symbol ++ [msg.updateId]).length,
      (arbiter.ingest msg).2.ids msg.symbol =
        (arbiter.ids msg.symbol ++ [msg.updateId]).drop count := by
  have positive := arbiter.window_pos
  refine ⟨(arbiter.entries msg.symbol).length + 1 - arbiter.window, ?_, ?_⟩
  · rw [List.length_append, ChecksumArbiter.ids, List.length_map, List.length_singleton]
    omega
  · have missing : msg.updateId ∉ (arbiter.queue msg.symbol).ids := fresh
    rw [ChecksumArbiter.ids, entries_ingest_inside inside, Window.record, dif_neg missing,
      Window.entries_push, List.map_drop, List.map_append, List.map_singleton, Entry.updateId_set]
    rfl

/-- A message whose id is retained or below its window leaves the windows as they are. -/
theorem Sorted.ingest_known {messages : List BookChecksum} {arbiter : ChecksumArbiter}
    (sorted : Sorted messages arbiter) {msg : BookChecksum}
    (known : msg.updateId ∈ arbiter.ids msg.symbol ∨ arbiter.Below msg) :
    Sorted (messages ++ [msg]) (arbiter.ingest msg).2 := by
  have same : ∀ symbol, (arbiter.ingest msg).2.ids symbol = arbiter.ids symbol := by
    intro symbol
    rcases known with present | below
    · exact ids_ingest_of_mem present symbol
    · exact congrArg (List.map Entry.updateId) (entries_ingest_below below symbol)
  constructor
  · intro symbol
    rw [same]
    exact sorted.sorted symbol
  · intro symbol updateId member
    rw [same] at member
    exact seen_append.mpr (.inl (sorted.known symbol updateId member))
  · intro symbol updateId seen
    rw [same]
    rcases seen_append.mp seen with before | ⟨rfl, rfl⟩
    · exact sorted.placed symbol updateId before
    · exact known.imp_right (below_iff arbiter msg).mp

/-- A message with a new id above all known ones extends the window of its symbol. -/
theorem Sorted.ingest_fresh {messages : List BookChecksum} {arbiter : ChecksumArbiter}
    (sorted : Sorted messages arbiter) {msg : BookChecksum}
    (fresh : msg.updateId ∉ arbiter.ids msg.symbol) (inside : ¬arbiter.Below msg)
    (above : ∀ updateId, Seen messages msg.symbol updateId → updateId < msg.updateId) :
    Sorted (messages ++ [msg]) (arbiter.ingest msg).2 := by
  obtain ⟨count, room, ids⟩ := ids_ingest_of_fresh fresh inside
  have grown : (arbiter.ids msg.symbol ++ [msg.updateId]).Pairwise (· < ·) := by
    rw [List.pairwise_append]
    refine ⟨sorted.sorted _, List.pairwise_singleton _ _, ?_⟩
    intro id member new single
    obtain rfl := List.mem_singleton.mp single
    exact above id (sorted.known _ _ member)
  have kept (symbol : String) (apart : symbol ≠ msg.symbol) :
      (arbiter.ingest msg).2.ids symbol = arbiter.ids symbol :=
    congrArg (List.map Entry.updateId) (entries_ingest_of_ne arbiter apart)
  constructor
  · intro symbol
    by_cases same : symbol = msg.symbol
    · rw [same, ids]
      exact grown.sublist (List.drop_sublist _ _)
    · rw [kept symbol same]
      exact sorted.sorted symbol
  · intro symbol updateId member
    by_cases same : symbol = msg.symbol
    · rw [same, ids] at member
      rcases List.mem_append.mp (List.mem_of_mem_drop member) with old | new
      · exact seen_append.mpr (.inl (same ▸ sorted.known _ _ old))
      · exact seen_append.mpr (.inr ⟨same.symm, (List.mem_singleton.mp new).symm⟩)
    · rw [kept symbol same] at member
      exact seen_append.mpr (.inl (sorted.known symbol updateId member))
  · intro symbol updateId seen
    by_cases same : symbol = msg.symbol
    · subst same
      rw [ids]
      rcases seen_append.mp seen with before | ⟨-, rfl⟩
      · rcases sorted.placed _ _ before with present | below
        · exact placed_drop grown room (List.mem_append_left _ present)
        · exact .inr (below_drop (sorted.sorted _) room (above updateId before) below)
      · exact placed_drop grown room (List.mem_append_right _ List.mem_cons_self)
    · rw [kept symbol same]
      rcases seen_append.mp seen with before | ⟨own, -⟩
      · exact sorted.placed symbol updateId before
      · exact absurd own.symm same

/-- A message that follows what was seen keeps the windows sorted. -/
theorem Sorted.ingest {messages : List BookChecksum} {arbiter : ChecksumArbiter}
    (sorted : Sorted messages arbiter) {msg : BookChecksum} (follows : Follows messages msg) :
    Sorted (messages ++ [msg]) (arbiter.ingest msg).2 := by
  by_cases known : msg.updateId ∈ arbiter.ids msg.symbol ∨ arbiter.Below msg
  · exact sorted.ingest_known known
  · obtain ⟨fresh, inside⟩ := not_or.mp known
    apply sorted.ingest_fresh fresh inside
    rcases follows with seen | above
    · rcases sorted.placed _ _ seen with present | below
      · exact absurd present fresh
      · exact absurd ((below_iff arbiter msg).mpr below) inside
    · exact above

theorem Ascending.before {messages : List BookChecksum} {msg : BookChecksum}
    (ascending : Ascending (messages ++ [msg])) : Ascending messages ∧ Follows messages msg := by
  constructor
  · intro earlier other later split
    apply ascending earlier other (later ++ [msg])
    rw [split, List.append_assoc, List.cons_append]
  · exact ascending messages msg [] rfl

/-- A run whose new ids only grow keeps the windows sorted. -/
theorem sorted_final {window : ℕ} (positive : 0 < window) {messages : List BookChecksum}
    (ascending : Ascending messages) :
    Sorted messages (machine.final (withWindow window positive) messages) := by
  have run := machine.history_induction (withWindow window positive)
    (P := fun past arbiter =>
      Ascending (past.map Event.input) → Sorted (past.map Event.input) arbiter)
    (by
      intro _
      have none (symbol : String) : (withWindow window positive).ids symbol = [] := by
        rw [ChecksumArbiter.ids, ChecksumArbiter.entries, ChecksumArbiter.queue, withWindow,
          Std.ExtTreeMap.getD_empty]
        rfl
      constructor
      · intro symbol
        rw [none]
        exact List.Pairwise.nil
      · intro symbol updateId member
        rw [none] at member
        exact absurd member List.not_mem_nil
      · rintro symbol updateId ⟨msg, member, -⟩
        exact absurd member List.not_mem_nil)
    (by
      intro past arbiter msg sorted ascending
      rw [List.map_append, List.map_singleton] at ascending ⊢
      obtain ⟨before, follows⟩ := ascending.before
      rw [machine_next]
      exact (sorted before).ingest follows) messages
  rw [history_inputs] at run
  exact run ascending

/-- When the new ids of every symbol only grow, every message of a run is judged as it should be. -/
theorem arbiter_judges_ascending {window : ℕ} (positive : 0 < window) {messages : List BookChecksum}
    (ascending : Ascending messages) {past later : List ArbiterEvent} {event : ArbiterEvent}
    (split : machine.history (withWindow window positive) messages = past ++ event :: later) :
    Judged past event := by
  obtain ⟨earlier, msg, rest, rfl, rfl, rfl, -⟩ := machine.history_split split
  have prior {first second : List BookChecksum} (whole : earlier = first ++ second) :
      Ascending first := by
    intro front other back inside
    apply ascending front other (back ++ second ++ msg :: rest)
    rw [whole, inside]
    simp only [List.append_assoc, List.cons_append]
  have sorted := sorted_final positive (prior (List.append_nil earlier).symm)
  refine (judged_iff_placed _ _ _).mpr ⟨?_, ?_⟩
  · intro holds below
    exact not_lt_head (sorted.sorted _) (mem_ids_of_met holds) ((below_iff _ msg).mp below)
  · rintro ⟨⟨event, member, retained⟩, gone⟩
    obtain ⟨front, back, whole⟩ := List.append_of_mem member
    obtain ⟨first, other, second, inputs, -, rfl, -⟩ := machine.history_split whole
    obtain ⟨known, inside, same⟩ := (sorted_final positive (prior inputs)).known _ _ retained
    have seen : Seen earlier msg.symbol msg.updateId :=
      ⟨known, by rw [inputs]; exact List.mem_append_left _ inside, same⟩
    exact (below_iff _ msg).mpr ((sorted.placed _ _ seen).resolve_left gone)

end TradingConnectivity.Redundancy
