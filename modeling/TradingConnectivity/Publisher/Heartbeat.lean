import Mathlib.Data.List.Chain
import TradingConnectivity.Machine.Work
import TradingConnectivity.ToMathlib.FixedWidth

/-! # The heartbeat of a shard

The timer says when the next heartbeat is due; its owner publishes one and records it. The interval
of a timer is positive. Whatever the clock does, at least the interval passes between two
heartbeats, and right after a tick the last heartbeat is younger than the interval (`beats_paced`).
-/

namespace TradingConnectivity.Publisher

/-- One second. -/
def heartbeatIntervalNs : Int64 := 1000000000

/-- `lastBeatNs` is zero until the first heartbeat. -/
structure Heartbeater where
  intervalNs : Int64
  lastBeatNs : Int64
  positive : 0 < intervalNs

namespace Heartbeater

def withIntervalNs (intervalNs : Int64) (positive : 0 < intervalNs) : Heartbeater where
  intervalNs := intervalNs
  lastBeatNs := 0
  positive := positive

def new : Heartbeater := withIntervalNs heartbeatIntervalNs (by decide)

def isDue (timer : Heartbeater) (nowNs : Int64) : Bool :=
  timer.intervalNs ≤ nowNs.saturatingSub timer.lastBeatNs

def recordBeat (timer : Heartbeater) (nowNs : Int64) : Heartbeater :=
  { timer with lastBeatNs := nowNs }

/-- A tick of the owner: a heartbeat that is due is published and recorded. -/
def tick (nowNs : Int64) (work : Work Heartbeater Int64) : Work Heartbeater Int64 :=
  if work.state.isDue nowNs then (work.update (·.recordBeat nowNs)).emit nowNs else work

/-- A timer and its owner; the answers are the times of the heartbeats. -/
def machine : Machine Heartbeater Int64 (List Int64) := .ofHandler tick

variable {timer : Heartbeater} {nowNs : Int64}

/-- The saturation of the difference does not matter. -/
theorem isDue_iff :
    timer.isDue nowNs ↔ timer.lastBeatNs.toInt + timer.intervalNs.toInt ≤ nowNs.toInt := by
  rw [isDue, decide_eq_true_iff, Int64.le_saturatingSub_iff (Int64.le_of_lt timer.positive)]
  omega

/-- A second time comes at least an interval after a first one. -/
def Apart (intervalNs earlier later : Int64) : Prop :=
  earlier.toInt + intervalNs.toInt ≤ later.toInt

/-- The heartbeats so far are paced, and the timer knows the last one. -/
structure Paced (timer : Heartbeater) (work : Work Heartbeater Int64) : Prop where
  apart : (timer.lastBeatNs :: work.effects).IsChain (Apart timer.intervalNs)
  last : work.state.lastBeatNs = work.effects.getLastD timer.lastBeatNs
  interval : work.state.intervalNs = timer.intervalNs

private theorem paced_tick {work : Work Heartbeater Int64} (paced : Paced timer work)
    (nowNs : Int64) :
    Paced timer (tick nowNs work) ∧
      nowNs.toInt < (tick nowNs work).state.lastBeatNs.toInt + timer.intervalNs.toInt := by
  have positive : 0 < timer.intervalNs.toInt := Int64.lt_iff_toInt_lt.mp timer.positive
  rw [tick]
  by_cases due : work.state.isDue nowNs = true
  · rw [if_pos due]
    refine ⟨⟨?_, ?_, paced.interval⟩, ?_⟩
    · have later := isDue_iff.mp due
      rw [paced.interval, paced.last] at later
      rw [Work.emit_effects, ← List.cons_append]
      refine List.isChain_append.mpr ⟨paced.apart, .singleton nowNs, ?_⟩
      intro before final after single
      rw [List.getLast?_cons, Option.mem_some] at final
      rw [List.head?_cons, Option.mem_some] at single
      rw [← single, ← final, ← List.getLastD_eq_getLast?]
      exact later
    · simp [recordBeat]
    · simpa [recordBeat] using positive
  · rw [if_neg due]
    refine ⟨paced, ?_⟩
    have early := mt isDue_iff.mpr due
    rw [paced.interval] at early
    omega

/-- A tick does not look at the heartbeats before it. -/
private theorem tick_append (nowNs : Int64) (timer : Heartbeater) (beats : List Int64) :
    tick nowNs ⟨timer, beats⟩ =
      ⟨machine.next timer nowNs, beats ++ machine.answer timer nowNs⟩ := by
  change _ = (⟨(tick nowNs ⟨timer, []⟩).state, beats ++ (tick nowNs ⟨timer, []⟩).effects⟩ :
    Work Heartbeater Int64)
  rw [tick, tick]
  by_cases due : timer.isDue nowNs = true
  · rw [if_pos due, if_pos due]
    rfl
  · rw [if_neg due, if_neg due, List.append_nil]

private theorem paced_run (timer : Heartbeater) (times : List Int64) :
    Paced timer ⟨machine.final timer times, machine.effects timer times⟩ := by
  induction times using List.reverseRecOn with
  | nil => exact ⟨.singleton _, rfl, rfl⟩
  | append_singleton times nowNs ih =>
    have step := (paced_tick ih nowNs).1
    rw [tick_append] at step
    rwa [machine.final_append, machine.effects_append, machine.effects_cons, machine.effects_nil,
      List.append_nil]

/-- Between two heartbeats of a run, and between the last one before it and its first one, at least
the interval passes, and a tick leaves the last heartbeat younger than the interval. -/
theorem beats_paced (timer : Heartbeater) (times : List Int64) :
    (timer.lastBeatNs :: machine.effects timer times).IsChain (Apart timer.intervalNs) ∧
      ∀ nowNs, nowNs.toInt < ((machine.effects timer (times ++ [nowNs])).getLastD
        timer.lastBeatNs).toInt + timer.intervalNs.toInt := by
  refine ⟨(paced_run timer times).apart, fun nowNs => ?_⟩
  have young := (paced_tick (paced_run timer times) nowNs).2
  rw [tick_append] at young
  rw [← (paced_run timer (times ++ [nowNs])).last, machine.final_append]
  exact young

end Heartbeater

end TradingConnectivity.Publisher
