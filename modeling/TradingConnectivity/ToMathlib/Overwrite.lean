import Std.Data.ExtTreeMap
import Mathlib.Logic.Function.Basic
import Mathlib.Data.List.Induction
import Mathlib.Data.List.Nodup

/-! # Last write wins

Keyed writes applied in order to a function. What a key reads afterwards is its last write, or its
old value when nothing wrote to it, so two functions that agree off the written keys become equal
under the same writes (`overwrite_congr`). Insertion into and removal from a sorted map are such
writes on the function that looks its keys up.
-/

namespace TradingConnectivity

variable {κ ν : Type*} [DecidableEq κ]

/-- Apply keyed writes in order. -/
def overwrite (f : κ → ν) (writes : List (κ × ν)) : κ → ν :=
  writes.foldl (fun g write => Function.update g write.1 write.2) f

@[simp] theorem overwrite_nil (f : κ → ν) : overwrite f [] = f := rfl

@[simp] theorem overwrite_cons (f : κ → ν) (write : κ × ν) (rest : List (κ × ν)) :
    overwrite f (write :: rest) = overwrite (Function.update f write.1 write.2) rest := rfl

/-- After the same writes two functions read alike wherever something was written or they agreed. -/
theorem overwrite_congr_at {f g : κ → ν} {writes : List (κ × ν)} {k : κ}
    (agree : k ∉ writes.map Prod.fst → f k = g k) :
    overwrite f writes k = overwrite g writes k := by
  induction writes generalizing f g with
  | nil => exact agree List.not_mem_nil
  | cons write rest ih =>
    rw [overwrite_cons, overwrite_cons]
    apply ih
    intro unwritten
    by_cases same : k = write.1
    · subst same
      rw [Function.update_self, Function.update_self]
    · rw [Function.update_of_ne same, Function.update_of_ne same]
      apply agree
      rw [List.map_cons, List.mem_cons, not_or]
      exact ⟨same, unwritten⟩

/-- Two functions that agree off the written keys are equal after the writes. -/
theorem overwrite_congr {f g : κ → ν} {writes : List (κ × ν)}
    (agree : ∀ k, k ∉ writes.map Prod.fst → f k = g k) : overwrite f writes = overwrite g writes :=
  funext fun k => overwrite_congr_at (agree k)

/-- A key nothing wrote to keeps its value. -/
theorem overwrite_of_notMem {f : κ → ν} {writes : List (κ × ν)} {k : κ}
    (unwritten : k ∉ writes.map Prod.fst) : overwrite f writes k = f k := by
  induction writes generalizing f with
  | nil => rfl
  | cons write rest ih =>
    rw [List.map_cons, List.mem_cons, not_or] at unwritten
    rw [overwrite_cons, ih unwritten.2, Function.update_of_ne unwritten.1]

/-- Among writes to distinct keys each one is read back. -/
theorem overwrite_of_mem {f : κ → ν} {writes : List (κ × ν)} {k : κ} {v : ν}
    (distinct : (writes.map Prod.fst).Nodup) (member : (k, v) ∈ writes) :
    overwrite f writes k = v := by
  induction writes generalizing f with
  | nil => exact absurd member List.not_mem_nil
  | cons write rest ih =>
    obtain ⟨fresh, others⟩ := List.nodup_cons.mp distinct
    rcases List.mem_cons.mp member with rfl | later
    · rw [overwrite_cons, overwrite_of_notMem fresh, Function.update_self]
    · exact ih others later

theorem overwrite_append (f : κ → ν) (first second : List (κ × ν)) :
    overwrite f (first ++ second) = overwrite (overwrite f first) second := List.foldl_append

/-- A key reads its last write, or its old value when there is none. -/
theorem overwrite_eq_getLast (f : κ → ν) (writes : List (κ × ν)) (k : κ) :
    overwrite f writes k = ((writes.filter (·.1 = k)).getLast?.map Prod.snd).getD (f k) := by
  induction writes using List.reverseRecOn with
  | nil => rfl
  | append_singleton front write ih =>
    rw [overwrite_append, overwrite_cons, overwrite_nil, List.filter_append]
    by_cases same : write.1 = k
    · subst same
      simp
    · rw [Function.update_of_ne (Ne.symm same), ih]
      simp [same]

section lookup

variable {α β : Type*} [Ord α] [Std.TransOrd α] [Std.LawfulEqOrd α]

/-- What is found after an insertion was inserted under its key or was there before. -/
theorem of_getElem?_insert {m : Std.ExtTreeMap α β} {k a : α} {v w : β}
    (found : (m.insert k v)[a]? = some w) : a = k ∧ w = v ∨ m[a]? = some w := by
  rw [Std.ExtTreeMap.getElem?_insert] at found
  split at found
  next same => exact .inl ⟨(Std.compare_eq_iff_eq.mp same).symm, (Option.some.inj found).symm⟩
  next => exact .inr found

variable [DecidableEq α]

theorem getElem?_insert_eq_update (m : Std.ExtTreeMap α β) (k : α) (v : β) :
    (fun a => (m.insert k v)[a]?) = Function.update (fun a => m[a]?) k (some v) := by
  funext a
  by_cases same : a = k
  · subst same
    rw [Function.update_self, Std.ExtTreeMap.getElem?_insert_self]
  · rw [Function.update_of_ne same, Std.ExtTreeMap.getElem?_insert, if_neg]
    rw [Std.compare_eq_iff_eq]
    exact Ne.symm same

theorem getElem?_erase_eq_update (m : Std.ExtTreeMap α β) (k : α) :
    (fun a => (m.erase k)[a]?) = Function.update (fun a => m[a]?) k none := by
  funext a
  by_cases same : a = k
  · subst same
    rw [Function.update_self, Std.ExtTreeMap.getElem?_erase_self]
  · rw [Function.update_of_ne same, Std.ExtTreeMap.getElem?_erase, if_neg]
    rw [Std.compare_eq_iff_eq]
    exact Ne.symm same

end lookup

end TradingConnectivity
