import Mathlib.Data.List.Nodup
import TradingConnectivity.ConnectorCore.Message
import TradingConnectivity.Machine.History

/-! # The checksum arbiter

Two instances report checksums of their books. Per symbol the arbiter keeps a window of the update
ids it admitted last, in the order of their arrival, and compares the two checksums of an id. An id
below the one at the front of the window is called stale. `ingest_verdict` says what a message is
answered in terms of the window it meets.
-/

namespace TradingConnectivity.Redundancy

open ConnectorCore (BookChecksum InstanceRole)

/-- Outcome of ingesting one checksum message. -/
inductive ArbiterVerdict
  | matched (symbol : String) (updateId checksum : UInt64)
  | diverged (symbol : String) (updateId activeChecksum passiveChecksum : UInt64)
  /-- Only one instance has reported this id yet. -/
  | pending
  /-- The id is below the window. -/
  | stale
deriving DecidableEq, Repr

structure Entry where
  updateId : UInt64
  active : Option UInt64
  passive : Option UInt64
deriving DecidableEq, Repr

namespace Entry

/-- The checksum one role reported. -/
def get (entry : Entry) : InstanceRole → Option UInt64
  | .active => entry.active
  | .passive => entry.passive

def set (entry : Entry) (checksum : UInt64) : InstanceRole → Entry
  | .active => { entry with active := some checksum }
  | .passive => { entry with passive := some checksum }

def new (updateId : UInt64) : Entry := ⟨updateId, none, none⟩

end Entry

def otherRole : InstanceRole → InstanceRole
  | .active => .passive
  | .passive => .active

@[simp] theorem Entry.updateId_set (entry : Entry) (checksum : UInt64) (role : InstanceRole) :
    (entry.set checksum role).updateId = entry.updateId := by cases role <;> rfl

@[simp] theorem Entry.get_new (updateId : UInt64) (role : InstanceRole) :
    (Entry.new updateId).get role = none := by cases role <;> rfl

@[simp] theorem Entry.get_set_other (entry : Entry) (checksum : UInt64) (role : InstanceRole) :
    (entry.set checksum role).get (otherRole role) = entry.get (otherRole role) := by
  cases role <;> rfl

@[simp] theorem Entry.get_set_self (entry : Entry) (checksum : UInt64) (role : InstanceRole) :
    (entry.set checksum role).get role = some checksum := by cases role <;> rfl

/-- The entries of one symbol, oldest admission first. -/
structure Window (capacity : ℕ) where
  entries : List Entry
  distinct : (entries.map Entry.updateId).Nodup
  bounded : entries.length ≤ capacity

namespace Window

variable {capacity : ℕ}

def empty : Window capacity := ⟨[], List.nodup_nil, Nat.zero_le _⟩

/-- The ids of a window, oldest admission first. -/
def ids (window : Window capacity) : List UInt64 := window.entries.map Entry.updateId

def find? (window : Window capacity) (updateId : UInt64) : Option Entry :=
  window.entries.find? fun e => e.updateId = updateId

/-- The id is below the front of the window. -/
def Precedes (updateId : UInt64) (window : Window capacity) : Prop :=
  ∃ front ∈ window.entries.head?, updateId < front.updateId

instance (updateId : UInt64) (window : Window capacity) : Decidable (Precedes updateId window) :=
  decidable_of_iff (window.entries.head?.any fun front => updateId < front.updateId) (by
    simp [Precedes, Option.any_eq_true])

private theorem map_updateId_set (entries : List Entry) (role : InstanceRole)
    (updateId checksum : UInt64) :
    (entries.map fun e => if e.updateId = updateId then e.set checksum role else e).map
      Entry.updateId = entries.map Entry.updateId := by
  rw [List.map_map]
  apply List.map_congr_left
  intro e _
  simp only [Function.comp_apply]
  split
  · exact e.updateId_set checksum role
  · rfl

/-- Set a role's checksum of an id that is present. -/
def update (window : Window capacity) (role : InstanceRole) (updateId checksum : UInt64) :
    Window capacity where
  entries := window.entries.map fun e =>
    if e.updateId = updateId then e.set checksum role else e
  distinct := by
    rw [map_updateId_set]
    exact window.distinct
  bounded := by
    rw [List.length_map]
    exact window.bounded

/-- Push an entry with a new id; the oldest entry leaves a window that is full. -/
def push (window : Window capacity) (entry : Entry) (fresh : entry.updateId ∉ window.ids) :
    Window capacity :=
  let queue := window.entries ++ [entry]
  have distinct : (queue.map Entry.updateId).Nodup := by
    rw [List.map_append]
    exact List.nodup_append.mpr ⟨window.distinct, List.nodup_singleton _, by
      rintro a inside b single rfl
      obtain rfl := List.mem_singleton.mp single
      exact fresh inside⟩
  have length : queue.length = window.entries.length + 1 := List.length_append
  if full : queue.length > capacity then
    { entries := queue.tail
      distinct := by
        rw [List.map_tail]
        exact distinct.tail
      bounded := by
        have bound := window.bounded
        rw [List.length_tail]
        omega }
  else
    { entries := queue
      distinct := distinct
      bounded := Nat.not_lt.mp full }

/-- Record a checksum: in the entry of its id, or in a new entry. -/
def record (window : Window capacity) (role : InstanceRole) (updateId checksum : UInt64) :
    Window capacity :=
  if present : updateId ∈ window.ids then window.update role updateId checksum
  else window.push ((Entry.new updateId).set checksum role) (by rwa [Entry.updateId_set])

/-- The checksum a role reported for an id, if the window retains one. -/
def held (window : Window capacity) (updateId : UInt64) (role : InstanceRole) : Option UInt64 :=
  (window.find? updateId).bind fun e => e.get role

private theorem updateId_of_find? {window : Window capacity} {updateId : UInt64} {e : Entry}
    (found : window.find? updateId = some e) : e.updateId = updateId := by
  have same := List.find?_some found
  exact of_decide_eq_true same

theorem find?_eq_some_iff (window : Window capacity) {updateId : UInt64} {e : Entry} :
    window.find? updateId = some e ↔ e ∈ window.entries ∧ e.updateId = updateId := by
  constructor
  · intro found
    exact ⟨List.mem_of_find?_eq_some found, updateId_of_find? found⟩
  · rintro ⟨member, rfl⟩
    have somewhere : (window.find? e.updateId).isSome :=
      List.find?_isSome.mpr ⟨e, member, decide_eq_true rfl⟩
    obtain ⟨other, found⟩ := Option.isSome_iff_exists.mp somewhere
    have same := updateId_of_find? found
    have member' := List.mem_of_find?_eq_some found
    rw [found, List.inj_on_of_nodup_map window.distinct member' member same]

private theorem find?_eq_none_iff (window : Window capacity) {updateId : UInt64} :
    window.find? updateId = none ↔ updateId ∉ window.ids := by
  rw [find?, List.find?_eq_none, ids, List.mem_map]
  simp only [decide_eq_true_eq, not_exists, not_and]

theorem ids_update (window : Window capacity) (role : InstanceRole) (updateId checksum : UInt64) :
    (window.update role updateId checksum).ids = window.ids :=
  map_updateId_set _ _ _ _

/-- A push drops the front of a full window and keeps everything else. -/
theorem entries_push (window : Window capacity) (entry : Entry)
    (fresh : entry.updateId ∉ window.ids) :
    (window.push entry fresh).entries =
      (window.entries ++ [entry]).drop (window.entries.length + 1 - capacity) := by
  have bound := window.bounded
  have length : (window.entries ++ [entry]).length = window.entries.length + 1 :=
    List.length_append
  rw [push]
  split
  · next full =>
    have one : window.entries.length + 1 - capacity = 1 := by omega
    rw [one, List.drop_one]
  · next room =>
    have none : window.entries.length + 1 - capacity = 0 := by omega
    rw [none, List.drop_zero]

/-- In a window of positive capacity the entry pushed last stays. -/
private theorem mem_entries_push (positive : 0 < capacity) (window : Window capacity)
    (entry : Entry)
    (fresh : entry.updateId ∉ window.ids) : entry ∈ (window.push entry fresh).entries := by
  rw [entries_push, List.drop_append_of_le_length (by omega)]
  exact List.mem_append_right _ List.mem_cons_self

/-- After recording, the id has its old entry, or a new one, with the role's checksum set. -/
theorem find?_record (positive : 0 < capacity) (window : Window capacity) (role : InstanceRole)
    (updateId checksum : UInt64) :
    (window.record role updateId checksum).find? updateId =
      some (((window.find? updateId).getD (.new updateId)).set checksum role) := by
  rw [find?_eq_some_iff, record]
  by_cases present : updateId ∈ window.ids
  · obtain ⟨e, found⟩ : ∃ e, window.find? updateId = some e := by
      rw [← Option.isSome_iff_exists, Option.isSome_iff_ne_none, ne_eq, find?_eq_none_iff, not_not]
      exact present
    obtain ⟨member, same⟩ := window.find?_eq_some_iff.mp found
    rw [dif_pos present, found, Option.getD_some, Entry.updateId_set]
    refine ⟨?_, same⟩
    have mapped := List.mem_map_of_mem
      (f := fun e : Entry => if e.updateId = updateId then e.set checksum role else e) member
    rwa [if_pos same] at mapped
  · rw [dif_neg present, window.find?_eq_none_iff.mpr present, Option.getD_none, Entry.updateId_set]
    exact ⟨mem_entries_push positive _ _ _, rfl⟩

end Window

structure ChecksumArbiter where
  window : ℕ
  window_pos : 0 < window
  symbols : Std.ExtTreeMap String (Window window)

namespace ChecksumArbiter

def withWindow (window : ℕ) (positive : 0 < window) : ChecksumArbiter := ⟨window, positive, ∅⟩

def defaultWindow : ℕ := 64

def new : ChecksumArbiter := withWindow defaultWindow (by decide)

/-- The window of a symbol, empty before its first message. -/
def queue (arbiter : ChecksumArbiter) (symbol : String) : Window arbiter.window :=
  arbiter.symbols.getD symbol .empty

/-- Put a symbol's window back. -/
def setQueue (arbiter : ChecksumArbiter) (symbol : String) (queue : Window arbiter.window) :
    ChecksumArbiter :=
  { arbiter with symbols := arbiter.symbols.insert symbol queue }

def role (msg : BookChecksum) : InstanceRole := .fromInstanceId msg.header.instanceId

/-- The verdict on an entry that holds the message's own checksum. -/
def judge (symbol : String) (e : Entry) : ArbiterVerdict :=
  match e.active, e.passive with
  | some a, some p =>
    if a = p then .matched symbol e.updateId a else .diverged symbol e.updateId a p
  | _, _ => .pending

def ingest (arbiter : ChecksumArbiter) (msg : BookChecksum) : ArbiterVerdict × ChecksumArbiter :=
  let queue := arbiter.queue msg.symbol
  if queue.Precedes msg.updateId then (.stale, arbiter.setQueue msg.symbol queue)
  else
    let queue := queue.record (role msg) msg.updateId msg.checksum
    match queue.find? msg.updateId with
    | some e => (judge msg.symbol e, arbiter.setQueue msg.symbol queue)
    -- the entry was just recorded
    | none => (.pending, arbiter.setQueue msg.symbol queue)

/-! ## What a message does -/

/-- The verdict on two checksums of one id, the message's own and the other role's. -/
def compared (msg : BookChecksum) (other : UInt64) : ArbiterVerdict :=
  if msg.checksum = other then .matched msg.symbol msg.updateId msg.checksum
  else match role msg with
    | .active => .diverged msg.symbol msg.updateId msg.checksum other
    | .passive => .diverged msg.symbol msg.updateId other msg.checksum

/-- The other role's checksum that a message meets. -/
def met (arbiter : ChecksumArbiter) (msg : BookChecksum) : Option UInt64 :=
  (arbiter.queue msg.symbol).held msg.updateId (otherRole (role msg))

/-- The message's id is below the window it meets. -/
def Below (arbiter : ChecksumArbiter) (msg : BookChecksum) : Prop :=
  (arbiter.queue msg.symbol).Precedes msg.updateId

instance (arbiter : ChecksumArbiter) (msg : BookChecksum) : Decidable (arbiter.Below msg) :=
  inferInstanceAs (Decidable ((arbiter.queue msg.symbol).Precedes msg.updateId))

private theorem judge_set (msg : BookChecksum) {e : Entry} (same : e.updateId = msg.updateId) :
    judge msg.symbol (e.set msg.checksum (role msg)) =
      match e.get (otherRole (role msg)) with
      | some other => compared msg other
      | none => .pending := by
  obtain ⟨updateId, active, passive⟩ := e
  obtain rfl : updateId = msg.updateId := same
  cases kind : role msg with
  | active => cases passive <;> simp [judge, Entry.set, Entry.get, otherRole, compared, kind]
  | passive =>
    cases active with
    | none => rfl
    | some other =>
      simp only [judge, Entry.set, Entry.get, otherRole, compared, kind, eq_comm (a := other)]
      split
      · next equal => rw [equal]
      · rfl

theorem ingest_below {arbiter : ChecksumArbiter} {msg : BookChecksum} (below : arbiter.Below msg) :
    arbiter.ingest msg = (.stale, arbiter.setQueue msg.symbol (arbiter.queue msg.symbol)) := by
  unfold Below at below
  simp only [ingest, if_pos below]

/-- A message that is not below its window is recorded, and compared with the other role's checksum
of its id if the window holds one. -/
theorem ingest_inside {arbiter : ChecksumArbiter} {msg : BookChecksum}
    (inside : ¬arbiter.Below msg) :
    arbiter.ingest msg =
      (match arbiter.met msg with
        | some other => compared msg other
        | none => .pending,
      arbiter.setQueue msg.symbol
        ((arbiter.queue msg.symbol).record (role msg) msg.updateId msg.checksum)) := by
  unfold Below at inside
  simp only [ingest, if_neg inside, Window.find?_record arbiter.window_pos]
  rw [judge_set, met, Window.held]
  · cases found : (arbiter.queue msg.symbol).find? msg.updateId with
    | none => cases role msg <;> rfl
    | some e => rfl
  · cases found : (arbiter.queue msg.symbol).find? msg.updateId with
    | none => rfl
    | some e => exact (((arbiter.queue msg.symbol).find?_eq_some_iff).mp found).2

/-- The entries of a symbol. -/
def entries (arbiter : ChecksumArbiter) (symbol : String) : List Entry :=
  (arbiter.queue symbol).entries

theorem entries_setQueue_self (arbiter : ChecksumArbiter) (symbol : String)
    (queue : Window arbiter.window) :
    (arbiter.setQueue symbol queue).entries symbol = queue.entries := by
  rw [entries, ChecksumArbiter.queue, setQueue, Std.ExtTreeMap.getD_insert_self]

private theorem entries_setQueue_of_ne (arbiter : ChecksumArbiter) {symbol other : String}
    (queue : Window arbiter.window) (apart : other ≠ symbol) :
    (arbiter.setQueue symbol queue).entries other = arbiter.entries other := by
  rw [entries, ChecksumArbiter.queue, setQueue, Std.ExtTreeMap.getD_insert, if_neg]
  · rfl
  · rw [Std.LawfulEqCmp.compare_eq_iff_eq]
    exact apart.symm

/-- A message leaves the other symbols alone. -/
theorem entries_ingest_of_ne (arbiter : ChecksumArbiter) {msg : BookChecksum} {symbol : String}
    (apart : symbol ≠ msg.symbol) :
    (arbiter.ingest msg).2.entries symbol = arbiter.entries symbol := by
  by_cases below : arbiter.Below msg
  · rw [ingest_below below]
    exact entries_setQueue_of_ne _ _ apart
  · rw [ingest_inside below]
    exact entries_setQueue_of_ne _ _ apart

/-- A message below its window changes nothing. -/
theorem entries_ingest_below {arbiter : ChecksumArbiter} {msg : BookChecksum}
    (below : arbiter.Below msg) (symbol : String) :
    (arbiter.ingest msg).2.entries symbol = arbiter.entries symbol := by
  by_cases same : symbol = msg.symbol
  · rw [ingest_below below, same]
    exact entries_setQueue_self _ _ _
  · exact entries_ingest_of_ne _ same

theorem entries_ingest_inside {arbiter : ChecksumArbiter} {msg : BookChecksum}
    (inside : ¬arbiter.Below msg) : (arbiter.ingest msg).2.entries msg.symbol =
      ((arbiter.queue msg.symbol).record (role msg) msg.updateId msg.checksum).entries := by
  rw [ingest_inside inside]
  exact entries_setQueue_self _ _ _

/-! ## Runs -/

/-- The call of a failover trigger. -/
structure Divergence where
  symbol : String
  updateId : UInt64
  activeCs : UInt64
  passiveCs : UInt64
deriving DecidableEq, Repr

/-- Ingest a message and hand a divergence to the trigger; the call is part of the answer. -/
def process (arbiter : ChecksumArbiter) (msg : BookChecksum) :
    (ArbiterVerdict × Option Divergence) × ChecksumArbiter :=
  let (verdict, arbiter) := arbiter.ingest msg
  match verdict with
  | .diverged symbol updateId active passive =>
    ((verdict, some ⟨symbol, updateId, active, passive⟩), arbiter)
  | _ => ((verdict, none), arbiter)

/-- The arbiter fed with messages through `process`. -/
def machine : Machine ChecksumArbiter BookChecksum (ArbiterVerdict × Option Divergence) where
  step arbiter msg := ((arbiter.process msg).2, (arbiter.process msg).1)

theorem machine_next (arbiter : ChecksumArbiter) (msg : BookChecksum) :
    machine.next arbiter msg = (arbiter.ingest msg).2 := by
  change (arbiter.process msg).2 = _
  simp only [process]
  split <;> rfl

theorem machine_verdict (arbiter : ChecksumArbiter) (msg : BookChecksum) :
    (machine.answer arbiter msg).1 = (arbiter.ingest msg).1 := by
  change (arbiter.process msg).1.1 = _
  simp only [process]
  split <;> rfl

end ChecksumArbiter

end TradingConnectivity.Redundancy
