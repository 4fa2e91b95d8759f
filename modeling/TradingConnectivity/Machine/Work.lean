import Mathlib.Logic.Relation
import TradingConnectivity.Machine.EventSourcing

/-! # Handlers with effects

A handler changes a state and emits effects on the way. It is written as a function on `Work`, the
state together with the effects emitted so far, so that handlers compose as functions do. A handler
that starts without effects is a step of a machine whose answers are the effects. A handler that is
made of moves keeps what every move keeps; in particular what an observer of the effects can
reconstruct of the state is a view that every move tracks.
-/

namespace TradingConnectivity

variable {σ ι ε ρ : Type*}

/-- A state under work, with the effects emitted so far. -/
@[ext] structure Work (σ ε : Type*) where
  state : σ
  effects : List ε

namespace Work

def update (work : Work σ ε) (change : σ → σ) : Work σ ε := { work with state := change work.state }

def emit (work : Work σ ε) (effect : ε) : Work σ ε :=
  { work with effects := work.effects ++ [effect] }

@[simp] theorem update_state (work : Work σ ε) (change : σ → σ) :
    (work.update change).state = change work.state := rfl

@[simp] theorem update_effects (work : Work σ ε) (change : σ → σ) :
    (work.update change).effects = work.effects := rfl

@[simp] theorem emit_state (work : Work σ ε) (effect : ε) : (work.emit effect).state = work.state :=
  rfl

@[simp] theorem emit_effects (work : Work σ ε) (effect : ε) :
    (work.emit effect).effects = work.effects ++ [effect] := rfl

/-- The effects rebuild the view of the state from the view of the state at the start. -/
def Tracks (view : σ → ρ) (apply : ρ → ε → ρ) (start : σ) (work : Work σ ε) : Prop :=
  work.effects.foldl apply (view start) = view work.state

namespace Tracks

variable {view : σ → ρ} {apply : ρ → ε → ρ} {start : σ} {work : Work σ ε}

theorem refl (start : σ) : Tracks view apply start ⟨start, []⟩ := rfl

/-- A change that the view does not show needs no effect. -/
theorem update (tracks : Tracks view apply start work) {change : σ → σ}
    (unseen : view (change work.state) = view work.state) :
    Tracks view apply start (work.update change) := Eq.trans tracks unseen.symm

/-- An effect that shows what has happened to the view. -/
theorem emit {work : Work σ ε} {effect : ε} {seen : ρ}
    (before : work.effects.foldl apply (view start) = seen)
    (shows : apply seen effect = view work.state) :
    Tracks view apply start (work.emit effect) := by
  rw [Tracks, emit_effects, List.foldl_append, before]
  exact shows

/-- An effect that has nothing to do with the view. -/
theorem emit_other (tracks : Tracks view apply start work) {effect : ε}
    (silent : apply (view work.state) effect = view work.state) :
    Tracks view apply start (work.emit effect) := emit tracks silent

end Tracks

/-- What every move of a handler keeps, the handler keeps. -/
theorem invariant_of_moves {Move : Work σ ε → Work σ ε → Prop} {P : Work σ ε → Prop}
    (preserved : ∀ work next, Move work next → P work → P next) {work next : Work σ ε}
    (moves : Relation.ReflTransGen Move work next) (initial : P work) : P next := by
  induction moves with
  | refl => exact initial
  | tail _ move ih => exact preserved _ _ move ih

end Work

namespace Machine

/-- The machine of a handler; its answers are the effects. -/
def ofHandler (handle : ι → Work σ ε → Work σ ε) : Machine σ ι (List ε) where
  step state input :=
    let work := handle input ⟨state, []⟩
    (work.state, work.effects)

/-- All effects of a run, oldest first. -/
def effects (m : Machine σ ι (List ε)) (start : σ) (inputs : List ι) : List ε :=
  (m.answers start inputs).flatten

@[simp] theorem effects_nil (m : Machine σ ι (List ε)) (start : σ) : m.effects start [] = [] := rfl

@[simp] theorem effects_cons (m : Machine σ ι (List ε)) (start : σ) (input : ι) (rest : List ι) :
    m.effects start (input :: rest) =
      m.answer start input ++ m.effects (m.next start input) rest := rfl

theorem effects_append (m : Machine σ ι (List ε)) (start : σ) (first second : List ι) :
    m.effects start (first ++ second) =
      m.effects start first ++ m.effects (m.final start first) second := by
  induction first generalizing start with
  | nil => rfl
  | cons input rest ih =>
    rw [List.cons_append, effects_cons, ih, effects_cons, List.append_assoc, final_cons]

theorem effects_eq_log (m : Machine σ ι (List ε)) (start : σ) (inputs : List ι) :
    m.effects start inputs = m.log m.answer start inputs := by
  induction inputs generalizing start with
  | nil => rfl
  | cons input rest ih => rw [effects_cons, log_cons, ih]

/-- If every input is handled with a tracked view, the effects of a run rebuild the last view. -/
theorem foldl_effects {handle : ι → Work σ ε → Work σ ε} {view : σ → ρ} {apply : ρ → ε → ρ}
    (tracks : ∀ state input, Work.Tracks view apply state (handle input ⟨state, []⟩))
    (start : σ) (inputs : List ι) :
    ((ofHandler handle).effects start inputs).foldl apply (view start) =
      view ((ofHandler handle).final start inputs) := by
  have sourced : ∀ state input,
      (ofHandler handle).Sourced (ofHandler handle).answer view apply state input :=
    fun state input => (tracks state input).symm
  let Always : σ → List ι → Prop := fun _ _ => True
  have initial : Always start inputs := trivial
  rw [effects_eq_log]
  exact (ofHandler handle).foldl_log (fun _ _ _ always => always)
    (fun state input _ _ => sourced state input) initial

end Machine

end TradingConnectivity
