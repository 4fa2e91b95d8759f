import Std.Data.ExtTreeMap
import Mathlib.Logic.Function.Basic

/-! # Accumulating events under keys

A sorted map keeps one accumulated value for every key, which starts at an initial value of its
own. An event is applied to the value of its key, and may fail. After a whole list of events each
key holds what the events of that key alone produce (`foldlM_accumulate`).
-/

namespace TradingConnectivity

variable {κ ν ε : Type*} {cmp : κ → κ → Ordering} [Std.TransCmp cmp]

/-- Apply one event to the value of its key. -/
def accumulate (key : ε → κ) (init : κ → ν) (apply : ν → ε → Option ν)
    (m : Std.ExtTreeMap κ ν cmp) (event : ε) : Option (Std.ExtTreeMap κ ν cmp) :=
  (apply ((m[key event]?).getD (init (key event))) event).map (m.insert (key event))

variable {key : ε → κ} {init : κ → ν} {apply : ν → ε → Option ν}

theorem accumulate_eq_some_iff {m m' : Std.ExtTreeMap κ ν cmp} {event : ε} :
    accumulate key init apply m event = some m' ↔
      ∃ value, apply ((m[key event]?).getD (init (key event))) event = some value ∧
        m.insert (key event) value = m' := by
  rw [accumulate, Option.map_eq_some_iff]

variable [Std.LawfulEqCmp cmp]

/-- The keys that are present afterwards are the old ones and those of the events. -/
theorem mem_foldlM_accumulate {events : List ε} {m m' : Std.ExtTreeMap κ ν cmp}
    (done : events.foldlM (accumulate key init apply) m = some m') {k : κ} :
    k ∈ m' ↔ k ∈ m ∨ k ∈ events.map key := by
  induction events generalizing m with
  | nil =>
    obtain rfl := Option.some.inj done
    simp only [List.map_nil, List.not_mem_nil, or_false]
  | cons event rest ih =>
    rw [List.foldlM_cons] at done
    obtain ⟨next, first, others⟩ := Option.bind_eq_some_iff.mp done
    obtain ⟨value, _, rfl⟩ := accumulate_eq_some_iff.mp first
    rw [ih others, Std.ExtTreeMap.mem_insert, Std.LawfulEqCmp.compare_eq_iff_eq, List.map_cons,
      List.mem_cons, or_assoc, or_left_comm, eq_comm]

variable [DecidableEq κ]

/-- Each key holds what its own events make of its old value. -/
theorem foldlM_accumulate {events : List ε} {m m' : Std.ExtTreeMap κ ν cmp}
    (done : events.foldlM (accumulate key init apply) m = some m') (k : κ) :
    (events.filter (key · = k)).foldlM apply ((m[k]?).getD (init k)) =
      some ((m'[k]?).getD (init k)) := by
  induction events generalizing m with
  | nil =>
    obtain rfl := Option.some.inj done
    rfl
  | cons event rest ih =>
    rw [List.foldlM_cons] at done
    obtain ⟨next, first, others⟩ := Option.bind_eq_some_iff.mp done
    obtain ⟨value, applied, rfl⟩ := accumulate_eq_some_iff.mp first
    have tail := ih others
    rw [Std.ExtTreeMap.getElem?_insert] at tail
    by_cases same : key event = k
    · subst same
      rw [if_pos Std.ReflCmp.compare_self] at tail
      rw [List.filter_cons_of_pos (by rw [decide_eq_true_eq]), List.foldlM_cons, applied]
      exact tail
    · rw [List.filter_cons_of_neg (by simpa using same)]
      rwa [if_neg (fun equal => same (Std.LawfulEqCmp.eq_of_compare equal))] at tail

end TradingConnectivity
