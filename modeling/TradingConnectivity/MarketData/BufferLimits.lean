import TradingConnectivity.Machine.History
import TradingConnectivity.MarketData.Recovery

/-! # The limits of the recovery buffer

A push checks its limits with saturating arithmetic and then counts with wrapping arithmetic. The
two agree for limits below the ends of their ranges; at the ends a push can pass every check and
still take the buffer past a limit (`Overlooks`).
-/

namespace TradingConnectivity.MarketData

/-! ## Calls -/

inductive BufferCall
  | push (delta : BookDelta) (recvTs : Int64) (encodedSize : UInt64)
  | drainAfter (snapshotId : UInt64)
  | clear
deriving DecidableEq, Repr

inductive BufferAnswer
  | pushed (result : PushResult)
  | drained (events : List BufferedDelta)
  | cleared
deriving DecidableEq, Repr

/-- Sizes and limits are counted in 64 bits. -/
structure BufferLimits where
  maxEvents : UInt64
  maxBytes : UInt64
  maxAgeNs : Int64
deriving DecidableEq, Repr

namespace RecoveryBuffer

def ofLimits (limits : BufferLimits) : RecoveryBuffer :=
  withLimits limits.maxEvents.toNat limits.maxBytes.toNat limits.maxAgeNs

def machine : Machine RecoveryBuffer BufferCall BufferAnswer where
  step buf
    | .push delta recvTs encodedSize =>
      let (result, pushed) := buf.push delta recvTs encodedSize.toNat
      (pushed, .pushed result)
    | .drainAfter snapshotId =>
      let (events, drained) := buf.drainAfter snapshotId
      (drained, .drained events)
    | .clear => (buf.clear, .cleared)

/-- What each call is to do with the buffered events. -/
inductive Answers (buf : RecoveryBuffer) : BufferCall → BufferAnswer → RecoveryBuffer → Prop
  | overflow {delta recvTs encodedSize} (reason : OverflowReason) :
    Answers buf (.push delta recvTs encodedSize) (.pushed (.overflow reason)) buf
  | accepted {delta recvTs encodedSize next}
      (appended : next.events = buf.events ++ [⟨delta, recvTs, encodedSize.toNat⟩]) :
    Answers buf (.push delta recvTs encodedSize) (.pushed .accepted) next
  | drained {snapshotId next} (empty : next.events = []) (zero : next.totalBytes = 0) :
    Answers buf (.drainAfter snapshotId) (.drained (pastSnapshot snapshotId buf.events)) next
  | cleared {next} (empty : next.events = []) (zero : next.totalBytes = 0) :
    Answers buf .clear .cleared next

/-- The counter is exact and the buffered events respect the limits. -/
structure Bounded (limits : BufferLimits) (buf : RecoveryBuffer) : Prop where
  totalBytes : buf.totalBytes = (buf.events.map BufferedDelta.encodedSize).sum
  maxBytes : buf.totalBytes ≤ limits.maxBytes.toNat
  maxEvents : buf.events.length ≤ limits.maxEvents.toNat
  maxAge : ∀ front ∈ buf.events.head?, ∀ e ∈ buf.events,
    e.recvTs.toInt - front.recvTs.toInt ≤ limits.maxAgeNs.toInt

/-- The checks of a push. -/
structure Admits (buf : RecoveryBuffer) (recvTs : Int64) (encodedSize : ℕ) : Prop where
  age : ∀ oldest ∈ buf.events.head?, recvTs.saturatingSub oldest.recvTs ≤ buf.maxAgeNs
  count : buf.events.length < buf.maxEvents
  bytes : min (buf.totalBytes + encodedSize) usizeMax ≤ buf.maxBytes

/-- A push that passes the checks although the sizes no longer fit the counter, although the event
came later after the oldest one than any age limit, or although the first event is already older
than a negative limit. -/
structure Overlooks (buf : RecoveryBuffer) (recvTs : Int64) (encodedSize : ℕ) : Prop where
  admits : buf.Admits recvTs encodedSize
  exceeds : usizeMax < buf.totalBytes + encodedSize ∨
    (∃ oldest ∈ buf.events.head?, Int64.maxValue.toInt < recvTs.toInt - oldest.recvTs.toInt) ∨
    (buf.events = [] ∧ buf.maxAgeNs < 0)

/-- A call that is not a push past the limits. -/
def Safe (buf : RecoveryBuffer) : BufferCall → Prop
  | .push _ recvTs encodedSize => ¬buf.Overlooks recvTs encodedSize.toNat
  | .drainAfter _ => True
  | .clear => True

structure HasLimits (limits : BufferLimits) (buf : RecoveryBuffer) : Prop where
  maxEvents : buf.maxEvents = limits.maxEvents.toNat
  maxBytes : buf.maxBytes = limits.maxBytes.toNat
  maxAgeNs : buf.maxAgeNs = limits.maxAgeNs

/-- The buffer after an accepted push. -/
def appended (buf : RecoveryBuffer) (e : BufferedDelta) : RecoveryBuffer :=
  { buf with
    events := buf.events ++ [e]
    totalBytes := (buf.totalBytes + e.encodedSize) % (usizeMax + 1) }

/-! ## One call -/

private theorem push_of_admits {buf : RecoveryBuffer} {recvTs : Int64} {encodedSize : ℕ}
    (admits : buf.Admits recvTs encodedSize) (delta : BookDelta) :
    buf.push delta recvTs encodedSize =
      (.accepted, buf.appended ⟨delta, recvTs, encodedSize⟩) := by
  have young : ¬(buf.events.head?.any fun oldest =>
      recvTs.saturatingSub oldest.recvTs > buf.maxAgeNs) = true := by
    rw [Option.any_eq_true_iff_get]
    rintro ⟨first, old⟩
    exact Int64.not_lt.mpr (admits.age _ (Option.get_mem first)) (of_decide_eq_true old)
  rw [push, if_neg young, if_neg (Nat.not_le.mpr admits.count),
    if_neg (Nat.not_lt.mpr admits.bytes)]
  rfl

private theorem push_of_not_admits {buf : RecoveryBuffer} {recvTs : Int64} {encodedSize : ℕ}
    (refused : ¬buf.Admits recvTs encodedSize) (delta : BookDelta) :
    ∃ reason, buf.push delta recvTs encodedSize = (.overflow reason, buf) := by
  rw [push]
  split_ifs with old full large
  · exact ⟨_, rfl⟩
  · exact ⟨_, rfl⟩
  · exact ⟨_, rfl⟩
  · refine absurd ⟨fun oldest first => ?_, Nat.not_le.mp full, Nat.not_lt.mp large⟩ refused
    by_contra older
    rw [Option.mem_def.mp first] at old
    exact old (decide_eq_true (Int64.not_le.mp older))

private theorem answers_next (buf : RecoveryBuffer) (call : BufferCall) :
    buf.Answers call (machine.answer buf call) (machine.next buf call) := by
  cases call with
  | push delta recvTs encodedSize =>
    by_cases admits : buf.Admits recvTs encodedSize.toNat
    · simp only [Machine.answer, Machine.next, machine, push_of_admits admits delta]
      exact .accepted rfl
    · obtain ⟨reason, refused⟩ := push_of_not_admits admits delta
      simp only [Machine.answer, Machine.next, machine, refused]
      exact .overflow reason
  | drainAfter snapshotId => exact .drained rfl rfl
  | clear => exact .cleared rfl rfl

private theorem hasLimits_next {limits : BufferLimits} {buf : RecoveryBuffer}
    (has : buf.HasLimits limits)
    (call : BufferCall) : (machine.next buf call).HasLimits limits := by
  obtain ⟨maxEvents, maxBytes, maxAgeNs⟩ := has
  cases call with
  | push delta recvTs encodedSize =>
    by_cases admits : buf.Admits recvTs encodedSize.toNat
    · simp only [Machine.next, machine, push_of_admits admits delta]
      exact ⟨maxEvents, maxBytes, maxAgeNs⟩
    · obtain ⟨reason, refused⟩ := push_of_not_admits admits delta
      simp only [Machine.next, machine, refused]
      exact ⟨maxEvents, maxBytes, maxAgeNs⟩
  | drainAfter snapshotId => exact ⟨maxEvents, maxBytes, maxAgeNs⟩
  | clear => exact ⟨maxEvents, maxBytes, maxAgeNs⟩

private theorem bounded_of_empty {buf : RecoveryBuffer} (limits : BufferLimits)
    (empty : buf.events = [])
    (zero : buf.totalBytes = 0) : buf.Bounded limits where
  totalBytes := by rw [zero, empty]; rfl
  maxBytes := zero ▸ Nat.zero_le _
  maxEvents := by rw [empty]; exact Nat.zero_le _
  maxAge front first := by
    rw [empty] at first
    exact absurd first (by simp)

/-- The difference of two times that an age check lets pass is within the limit, unless it is
larger than every limit. -/
theorem age_of_saturatingSub_le {recvTs oldest limit : Int64}
    (checked : recvTs.saturatingSub oldest ≤ limit)
    (fits : recvTs.toInt - oldest.toInt ≤ Int64.maxValue.toInt) :
    recvTs.toInt - oldest.toInt ≤ limit.toInt := by
  rw [Int64.le_iff_toInt_le, Int64.toInt_saturatingSub] at checked
  have least := Int64.minValue_le_toInt limit
  omega

private theorem totalBytes_appended {buf : RecoveryBuffer} {limits : BufferLimits}
    (bounded : buf.Bounded limits) (e : BufferedDelta) : (buf.appended e).totalBytes =
      ((buf.appended e).events.map BufferedDelta.encodedSize).sum ↔
    buf.totalBytes + e.encodedSize ≤ usizeMax := by
  have sum : ((buf.appended e).events.map BufferedDelta.encodedSize).sum =
      buf.totalBytes + e.encodedSize := by
    rw [appended, List.map_append, List.sum_append, ← bounded.totalBytes]
    rfl
  rw [sum, appended, Nat.mod_eq_iff_lt (Nat.succ_ne_zero _)]
  exact Nat.lt_succ_iff

/-- Behind the age check the new event is within the age limit, unless its distance to the front
saturates or it is the front itself and the limit is negative. -/
theorem maxAge_appended {buf : RecoveryBuffer} {limits : BufferLimits} (has : buf.HasLimits limits)
    (bounded : buf.Bounded limits) {e : BufferedDelta}
    (age : ∀ oldest ∈ buf.events.head?, e.recvTs.saturatingSub oldest.recvTs ≤ buf.maxAgeNs) :
    (∀ front ∈ (buf.appended e).events.head?, ∀ other ∈ (buf.appended e).events,
      other.recvTs.toInt - front.recvTs.toInt ≤ limits.maxAgeNs.toInt) ↔
    ¬((∃ oldest ∈ buf.events.head?,
        Int64.maxValue.toInt < e.recvTs.toInt - oldest.recvTs.toInt) ∨
      (buf.events = [] ∧ buf.maxAgeNs < 0)) := by
  rw [appended]
  have young := bounded.maxAge
  rw [has.maxAgeNs] at age ⊢
  generalize buf.events = events at age young ⊢
  cases events with
  | nil => simp [Int64.lt_iff_toInt_lt]
  | cons oldest rest =>
    have checked := age oldest rfl
    have most := limits.maxAgeNs.toInt_le
    simp only [List.cons_append, List.head?_cons, Option.mem_some_iff, forall_eq', exists_eq_left',
      List.cons_ne_nil, false_and, or_false] at young ⊢
    constructor
    · intro within late
      have limited := within e (List.mem_cons_of_mem _ (List.mem_append_right _ List.mem_cons_self))
      omega
    · intro fits other member
      rw [← List.cons_append] at member
      rcases List.mem_append.mp member with old | new
      · exact young other old
      · obtain rfl := List.mem_singleton.mp new
        exact age_of_saturatingSub_le checked (Int.not_lt.mp fits)

/-- An admitted push keeps the buffer bounded exactly when it overlooks no limit. -/
theorem bounded_appended_iff {limits : BufferLimits} {buf : RecoveryBuffer}
    (has : buf.HasLimits limits) (bounded : buf.Bounded limits) {e : BufferedDelta}
    (admits : buf.Admits e.recvTs e.encodedSize) :
    (buf.appended e).Bounded limits ↔ ¬buf.Overlooks e.recvTs e.encodedSize := by
  have ages := maxAge_appended has bounded admits.age
  constructor
  · rintro after ⟨-, wraps | late⟩
    · exact Nat.not_le.mpr wraps ((totalBytes_appended bounded e).mp after.totalBytes)
    · exact ages.mp after.maxAge late
  · intro safe
    have fits : buf.totalBytes + e.encodedSize ≤ usizeMax :=
      Nat.not_lt.mp fun wraps => safe ⟨admits, .inl wraps⟩
    have counted : (buf.appended e).totalBytes = buf.totalBytes + e.encodedSize :=
      Nat.mod_eq_of_lt (Nat.lt_succ_of_le fits)
    refine ⟨(totalBytes_appended bounded e).mpr fits, ?_, ?_,
      ages.mpr fun late => safe ⟨admits, .inr late⟩⟩
    · have checked := admits.bytes
      rw [Nat.min_eq_left fits, has.maxBytes] at checked
      exact counted ▸ checked
    · have room := admits.count
      rw [has.maxEvents] at room
      rw [appended, List.length_append]
      exact room

private theorem bounded_next_iff {limits : BufferLimits} {buf : RecoveryBuffer}
    (has : buf.HasLimits limits) (bounded : buf.Bounded limits) (call : BufferCall) :
    (machine.next buf call).Bounded limits ↔ buf.Safe call := by
  cases call with
  | push delta recvTs encodedSize =>
    by_cases admits : buf.Admits recvTs encodedSize.toNat
    · simp only [Machine.next, machine, push_of_admits admits delta]
      exact bounded_appended_iff has bounded admits
    · obtain ⟨reason, refused⟩ := push_of_not_admits admits delta
      simp only [Machine.next, machine, refused]
      exact iff_of_true bounded fun overlooks => admits overlooks.admits
  | drainAfter snapshotId => exact iff_of_true (bounded_of_empty limits rfl rfl) trivial
  | clear => exact iff_of_true (bounded_of_empty limits rfl rfl) trivial

/-! ## Runs -/

/-- The buffer is bounded in every state that the calls reach, and every call does with the events
what it is to do. -/
structure Correct (limits : BufferLimits) (calls : List BufferCall) : Prop where
  bounded : ∀ earlier later, calls = earlier ++ later →
    (machine.final (ofLimits limits) earlier).Bounded limits
  answers : ∀ event ∈ machine.history (ofLimits limits) calls,
    event.before.Answers event.input event.output (machine.next event.before event.input)

private theorem bounded_run_iff (limits : BufferLimits) (calls : List BufferCall) :
    (∀ earlier later, calls = earlier ++ later →
      (machine.final (ofLimits limits) earlier).Bounded limits) ↔
    ∀ event ∈ machine.history (ofLimits limits) calls, event.before.Safe event.input := by
  have kept : ∀ (buf : RecoveryBuffer) (call : BufferCall), buf.HasLimits limits → True →
      (machine.next buf call).HasLimits limits := fun buf call has _ => hasLimits_next has call
  have step : ∀ (buf : RecoveryBuffer) (call : BufferCall), buf.HasLimits limits →
      buf.Bounded limits → True → ((machine.next buf call).Bounded limits ↔ buf.Safe call) :=
    fun buf call has bounded _ => bounded_next_iff has bounded call
  have started : (ofLimits limits).HasLimits limits := ⟨rfl, rfl, rfl⟩
  exact machine.safe_iff kept step started (bounded_of_empty limits rfl rfl) fun _ _ => trivial

/-- Limits inside the ends of their ranges are ones that no push overlooks. -/
theorem safe_of_ordinary {limits : BufferLimits} {buf : RecoveryBuffer}
    (has : buf.HasLimits limits) (bytes : limits.maxBytes.toNat < usizeMax)
    (nonnegative : 0 ≤ limits.maxAgeNs) (age : limits.maxAgeNs < Int64.maxValue)
    (call : BufferCall) : buf.Safe call := by
  cases call with
  | push delta recvTs encodedSize =>
    rintro ⟨admits, wraps | ⟨oldest, first, late⟩ | ⟨-, negative⟩⟩
    · have checked := admits.bytes
      rw [Nat.min_eq_right wraps.le, has.maxBytes] at checked
      omega
    · have checked := admits.age oldest first
      rw [has.maxAgeNs, Int64.le_iff_toInt_le, Int64.toInt_saturatingSub] at checked
      rw [Int64.lt_iff_toInt_lt] at age
      omega
    · rw [has.maxAgeNs] at negative
      exact Int64.not_lt.mpr nonnegative negative
  | drainAfter snapshotId => trivial
  | clear => trivial

private theorem bounded_final {limits : BufferLimits} (bytes : limits.maxBytes.toNat < usizeMax)
    (nonnegative : 0 ≤ limits.maxAgeNs) (age : limits.maxAgeNs < Int64.maxValue)
    (calls : List BufferCall) : (machine.final (ofLimits limits) calls).HasLimits limits ∧
      (machine.final (ofLimits limits) calls).Bounded limits := by
  have kept : ∀ (buf : RecoveryBuffer) (call : BufferCall),
      buf.HasLimits limits ∧ buf.Bounded limits →
        (machine.next buf call).HasLimits limits ∧ (machine.next buf call).Bounded limits := by
    rintro buf call ⟨has, bounded⟩
    have safe := safe_of_ordinary has bytes nonnegative age call
    exact ⟨hasLimits_next has call, (bounded_next_iff has bounded call).mpr safe⟩
  exact machine.invariant kept ⟨⟨rfl, rfl, rfl⟩, bounded_of_empty limits rfl rfl⟩ calls

def defaultLimits : BufferLimits := ⟨2048, 4 * 1024 * 1024, 10000000000⟩

/-- The default limits hold in every run. -/
theorem new_bounded (calls : List BufferCall) :
    (machine.final new calls).Bounded defaultLimits := by
  have same : new = ofLimits defaultLimits := rfl
  rw [same]
  exact (bounded_final (by decide) (by decide) (by decide) calls).2

/-- A run of the buffer is correct exactly when none of its pushes passes the checks past a
limit. -/
theorem correct_iff_safe (limits : BufferLimits) (calls : List BufferCall) :
    Correct limits calls ↔
      ∀ event ∈ machine.history (ofLimits limits) calls, event.before.Safe event.input := by
  constructor
  · intro correct
    exact (bounded_run_iff limits calls).mp correct.bounded
  · intro safe
    refine ⟨(bounded_run_iff limits calls).mpr safe, fun event member => ?_⟩
    rw [machine.output_of_mem_history member]
    exact answers_next event.before event.input

/-- Two events whose sizes add up to 2 ^ 64 bytes. -/
def oversized : List BufferCall :=
  [.push ⟨1, 1, 0, [], []⟩ 0 18446744073709551615, .push ⟨2, 2, 0, [], []⟩ 0 1]

/-- Under the largest limit of bytes both are accepted, and the counter is zero. -/
theorem counter_wraps : ¬∀ limits calls, Correct limits calls := by
  intro correct
  have reached := (correct ⟨2, 18446744073709551615, 10000000000⟩ oversized).bounded oversized []
    (List.append_nil oversized).symm
  exact absurd reached.totalBytes (by decide)

end RecoveryBuffer

end TradingConnectivity.MarketData
