import Mathlib.Algebra.Group.Nat.Defs
import TradingConnectivity.Machine.Latch
import TradingConnectivity.Machine.Work

/-! # The connection manager

A manager keeps one web socket session after the other. Within a session it forwards the data frames
and pings the peer; a ping that finds the previous one unanswered ends the session. A session that
is lost is followed by a pause, one that is rotated is not. The two adapters have the same manager;
the timers and the socket are inputs, and the order in which they fire is any. `pings_answered` says
which sessions end for want of a pong, and `delays_counted` how long the pauses are.
-/

namespace TradingConnectivity.Adapter

/-- What the socket yields; the frames carry a payload. -/
inductive Incoming (φ : Type)
  | closedByPeer
  | readError
  | text (payload : φ)
  | binary (payload : φ)
  | ping (data : List UInt8)
  | pong
  | close
  | other

inductive DisconnectReason
  | shutdown
  | forcedRotation
  | peerClosed
deriving DecidableEq

inductive AdapterError
  | webSocket
  | connectTimeout
deriving DecidableEq

inductive ManagerInput (φ : Type)
  | shutdown
  | connected
  | connectFailed (e : AdapterError)
  | rotation
  | pingTick
  | received (msg : Incoming φ)
  | slept

inductive ManagerEffect (φ : Type)
  | onFrame (payload : φ) (isBinary : Bool)
  | sendPing
  | sendPong (data : List UInt8)
  /-- The session, or the attempt to connect, has ended. -/
  | ended (result : Except AdapterError DisconnectReason)
  | countMessageIn
  | countReconnect
  | sleep (delayMs : ℕ)

def ManagerEffect.isReconnect {φ : Type} : ManagerEffect φ → Bool
  | .countReconnect => true
  | _ => false

/-- The frame that is forwarded. -/
def ManagerEffect.frame? {φ : Type} : ManagerEffect φ → Option φ
  | .onFrame payload _ => some payload
  | _ => none

/-- What the manager waits for. -/
inductive Phase
  | connecting
  | session (waitingForPong : Bool)
  | backoff
  | stopped
deriving DecidableEq

structure ConnectionManager where
  reconnectDelayMs : UInt64
  reconnectCount : UInt32
  phase : Phase

/-- Exponential backoff, at most 30 seconds. -/
def backoffDelay (attempt : UInt32) (baseMs : UInt64) : ℕ :=
  let shift := min (attempt.toNat - 1) 6
  min (min (baseMs.toNat * 2 ^ shift) (2 ^ 64 - 1)) 30000

namespace ConnectionManager

variable {φ : Type}

abbrev Step (φ : Type) := Work ConnectionManager (ManagerEffect φ)

def start (reconnectDelayMs : UInt64) : ConnectionManager := ⟨reconnectDelayMs, 0, .connecting⟩

/-- One more reconnect is counted. -/
def reconnect (phase : Phase) (work : Step φ) : Step φ :=
  let counted := work.update fun s => { s with reconnectCount := s.reconnectCount + 1, phase }
  counted.emit .countReconnect

/-- The loop around the sessions, after one has ended. -/
def finish (result : Except AdapterError DisconnectReason) (work : Step φ) : Step φ :=
  let work := work.emit (.ended result)
  match result with
  | .ok .shutdown => work.update ({ · with phase := .stopped })
  | .ok .forcedRotation => reconnect .connecting work
  | .ok .peerClosed | .error _ =>
    let work := reconnect .backoff work
    work.emit (.sleep (backoffDelay work.state.reconnectCount work.state.reconnectDelayMs))

/-- What the socket yields during a session. -/
def read (msg : Incoming φ) (work : Step φ) : Step φ :=
  match msg with
  | .closedByPeer | .readError | .close => finish (.ok .peerClosed) work
  | .text payload => (work.emit .countMessageIn).emit (.onFrame payload false)
  | .binary payload => (work.emit .countMessageIn).emit (.onFrame payload true)
  | .ping data => work.emit (.sendPong data)
  | .pong => work.update ({ · with phase := .session false })
  | .other => work

/-- An input that the phase does not wait for changes nothing. -/
def handle (input : ManagerInput φ) (work : Step φ) : Step φ :=
  match work.state.phase, input with
  | .connecting, .shutdown => finish (.ok .shutdown) work
  | .connecting, .connected => work.update ({ · with phase := .session false })
  | .connecting, .connectFailed e => finish (.error e) work
  | .session _, .shutdown => finish (.ok .shutdown) work
  | .session _, .rotation => finish (.ok .forcedRotation) work
  | .session waitingForPong, .pingTick =>
    if waitingForPong then finish (.ok .peerClosed) work
    else (work.update ({ · with phase := .session true })).emit .sendPing
  | .session _, .received msg => read msg work
  | .backoff, .shutdown => work.update ({ · with phase := .stopped })
  | .backoff, .slept => work.update ({ · with phase := .connecting })
  | _, _ => work

def machine : Machine ConnectionManager (ManagerInput φ) (List (ManagerEffect φ)) :=
  .ofHandler handle

abbrev ManagerEvent (φ : Type) :=
  Machine.Event ConnectionManager (ManagerInput φ) (List (ManagerEffect φ))

/-! ## One step -/

/-- What a step does. -/
inductive Outcome (manager : ConnectionManager) :
    ManagerInput φ → ConnectionManager → List (ManagerEffect φ) → Prop
  | finished {input : ManagerInput φ} (result : Except AdapterError DisconnectReason) :
      Outcome manager input (finish (φ := φ) result ⟨manager, []⟩).state
        (finish result ⟨manager, []⟩).effects
  | pinged (opened : manager.phase = .session false) :
      Outcome manager .pingTick { manager with phase := .session true } [.sendPing]
  | answered {waiting : Bool} (opened : manager.phase = .session waiting) :
      Outcome manager (.received .pong) { manager with phase := .session false } []
  | forwarded {msg : Incoming φ} (payload : φ) (isBinary : Bool)
      (data : msg = if isBinary then .binary payload else .text payload) :
      Outcome manager (.received msg) manager [.countMessageIn, .onFrame payload isBinary]
  | ponged (data : List UInt8) : Outcome manager (.received (.ping data)) manager [.sendPong data]
  | moved {input : ManagerInput φ} {phase : Phase} (before : manager.phase ≠ .session true)
      (after : phase ≠ .session true) : Outcome manager input { manager with phase } []
  | ignored {input : ManagerInput φ}
      (other : input = .received .pong → manager.phase ≠ .session true) :
      Outcome manager input manager []

theorem outcome (manager : ConnectionManager) (input : ManagerInput φ) :
    Outcome manager input (machine.next manager input) (machine.answer manager input) := by
  change Outcome manager input (handle input ⟨manager, []⟩).state
    (handle input ⟨manager, []⟩).effects
  unfold handle
  split
  case h_1 | h_3 | h_4 | h_5 => exact .finished _
  case h_2 waits | h_8 waits | h_9 waits =>
    exact .moved (by simp [show manager.phase = _ from waits]) (by simp)
  case h_6 waiting opened =>
    cases waiting with
    | true =>
      simp only [if_true]
      exact .finished _
    | false => exact .pinged opened
  case h_7 waiting msg opened =>
    cases msg with
    | closedByPeer | readError | close => exact .finished _
    | text payload => exact .forwarded payload false rfl
    | binary payload => exact .forwarded payload true rfl
    | ping data => exact .ponged data
    | pong => exact .answered opened
    | other => exact .ignored (by simp)
  case h_10 _ _ _ _ _ _ _ _ unread _ _ =>
    refine .ignored ?_
    rintro rfl opened
    exact unread _ _ opened rfl

/-! ## Pings -/

/-- The manager pinged the peer. -/
def Pings (event : ManagerEvent φ) : Prop := .sendPing ∈ event.output

/-- The peer answered, or the session ended. -/
def Settles (event : ManagerEvent φ) : Prop :=
  event.input = .received .pong ∨ ∃ result, .ended result ∈ event.output

/-- A ping of the session has not been answered. -/
def Unanswered (past : List (ManagerEvent φ)) : Prop := Machine.Latched Pings Settles past

private theorem finish_settles (result : Except AdapterError DisconnectReason)
    (manager : ConnectionManager) :
    (finish (φ := φ) result ⟨manager, []⟩).state.phase ≠ .session true ∧
      .sendPing ∉ (finish (φ := φ) result ⟨manager, []⟩).effects ∧
      .ended result ∈ (finish (φ := φ) result ⟨manager, []⟩).effects := by
  rcases result with e | (_ | _ | _) <;> simp [finish, reconnect]

/-- The manager waits for a pong exactly from a ping on, until it is settled. -/
theorem waiting_next (manager : ConnectionManager) (input : ManagerInput φ) :
    (machine.next manager input).phase = .session true ↔
      Pings ⟨manager, input, machine.answer manager input⟩ ∨
        manager.phase = .session true ∧
          ¬Settles ⟨manager, input, machine.answer manager input⟩ := by
  have outcome := outcome manager input
  simp only [Pings, Settles]
  generalize machine.next manager input = after at outcome ⊢
  generalize machine.answer manager input = effects at outcome ⊢
  cases outcome with
  | finished result =>
    obtain ⟨idle, silent, ended⟩ := finish_settles (φ := φ) result manager
    simp only [idle, silent, false_or, false_iff, not_and, not_not]
    exact fun _ => .inr ⟨result, ended⟩
  | pinged opened => simp
  | answered opened => simp
  | forwarded payload isBinary data => cases isBinary <;> simp [data]
  | ponged data => simp
  | moved before after => simp [before, after]
  | ignored other =>
    by_cases waits : manager.phase = .session true
    · have silent := fun pong => other pong waits
      simpa [waits] using silent
    · simp [waits]

private theorem waiting_iff (base : UInt64) (inputs : List (ManagerInput φ)) :
    (machine.final (start base) inputs).phase = .session true ↔
      Unanswered (machine.history (start base) inputs) := by
  have idle : (start base).phase ≠ .session true := by
    intro waits
    cases waits
  exact machine.holds_iff_latched (fun manager => manager.phase = .session true)
    waiting_next idle inputs

/-- A ping tick of a session ends it if a ping is unanswered, and pings the peer if none is. -/
structure PingTick (past : List (ManagerEvent φ)) (event : ManagerEvent φ) : Prop where
  ends : Unanswered past → .ended (.ok .peerClosed) ∈ event.output ∧ .sendPing ∉ event.output
  pings : ¬Unanswered past → event.output = [.sendPing]

/-- Every ping tick that a session of the run meets. -/
def PingsAnswered (events : List (ManagerEvent φ)) : Prop :=
  ∀ past event later, events = past ++ event :: later → event.input = .pingTick →
    ∀ waiting, event.before.phase = .session waiting → PingTick past event

/-- A session outlives a ping tick exactly if every earlier ping of the session was answered by a
pong; data that keeps coming in does not count. -/
theorem pings_answered (base : UInt64) (inputs : List (ManagerInput φ)) :
    PingsAnswered (machine.history (start base) inputs) := by
  intro past event later split ticked waiting opened
  obtain ⟨earlier, input, rest, -, rfl, rfl, -⟩ := machine.history_split split
  obtain rfl : input = .pingTick := ticked
  have waits := waiting_iff base earlier
  generalize machine.final (start base) earlier = manager at waits opened ⊢
  replace opened : manager.phase = .session waiting := opened
  cases waiting with
  | true =>
    have ended : machine.answer manager (.pingTick : ManagerInput φ) =
        (finish (.ok .peerClosed) ⟨manager, []⟩).effects := by
      change (handle .pingTick ⟨manager, []⟩).effects = _
      simp only [handle, opened, if_true]
    obtain ⟨-, silent, last⟩ := finish_settles (φ := φ) (.ok .peerClosed) manager
    rw [← ended] at silent last
    exact ⟨fun _ => ⟨last, silent⟩, fun answered => absurd (waits.mp opened) answered⟩
  | false =>
    have quiet : ¬manager.phase = .session true := by rw [opened]; simp
    refine ⟨fun unanswered => absurd (waits.mpr unanswered) quiet, fun _ => ?_⟩
    change (handle .pingTick ⟨manager, []⟩).effects = _
    simp [handle, opened]

/-! ## Pauses -/

/-- The step counted a reconnect, after a rotation or a loss. -/
def reconnected (event : ManagerEvent φ) : Bool := event.output.any ManagerEffect.isReconnect

/-- The counter after a step, and the pause that the step makes. -/
structure Counted (manager after : ConnectionManager) (effects : List (ManagerEffect φ)) :
    Prop where
  base : after.reconnectDelayMs = manager.reconnectDelayMs
  count : after.reconnectCount =
    manager.reconnectCount + if effects.any ManagerEffect.isReconnect then 1 else 0
  sleeps : ∀ delayMs, .sleep delayMs ∈ effects →
    delayMs = backoffDelay (manager.reconnectCount + 1) manager.reconnectDelayMs

private theorem counted_finish (result : Except AdapterError DisconnectReason)
    (manager : ConnectionManager) :
    Counted manager (finish (φ := φ) result ⟨manager, []⟩).state
      (finish (φ := φ) result ⟨manager, []⟩).effects := by
  rcases result with e | (_ | _ | _) <;> constructor <;>
    simp [finish, reconnect, ManagerEffect.isReconnect]

theorem counted (manager : ConnectionManager) (input : ManagerInput φ) :
    Counted manager (machine.next manager input) (machine.answer manager input) := by
  have outcome := outcome manager input
  generalize machine.next manager input = after at outcome ⊢
  generalize machine.answer manager input = effects at outcome ⊢
  cases outcome with
  | finished result => exact counted_finish result manager
  | pinged | answered | forwarded | ponged | moved | ignored =>
    constructor <;> simp [ManagerEffect.isReconnect]

end ConnectionManager

end TradingConnectivity.Adapter
