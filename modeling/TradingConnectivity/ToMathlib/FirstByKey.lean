import Mathlib.Data.List.Nodup
import Mathlib.Data.List.Dedup
import Mathlib.Data.List.Induction
import Mathlib.Data.List.Perm.Lattice
import Mathlib.Data.List.Perm.Subperm

/-! # Keeping the first occurrence of every key

`firstBy key xs` is the subsequence of `xs` that survives when an element is dropped as soon as
an earlier one carries the same key. It is what a consumer with a set of seen keys accepts, so
`firstBy_append` describes one more batch of arrivals. When equal keys always carry equal
elements the result depends on the arrivals only up to their order (`firstBy_perm`).
-/

namespace List

variable {α κ : Type*} [DecidableEq κ]

/-- The elements whose key no earlier element has. -/
def firstBy (key : α → κ) : List α → List α
  | [] => []
  | x :: rest => x :: (firstBy key rest).filter (fun y => key y ≠ key x)

/-- The elements of a batch whose keys are new with respect to `seen`. -/
def freshBy (key : α → κ) (batch : List α) (seen : List κ) : List α :=
  (batch.firstBy key).filter (fun y => key y ∉ seen)

variable {key : α → κ}

@[simp] theorem firstBy_nil : ([] : List α).firstBy key = [] := rfl

theorem firstBy_cons (x : α) (rest : List α) :
    (x :: rest).firstBy key = x :: (rest.firstBy key).filter (fun y => key y ≠ key x) := rfl

theorem firstBy_sublist (xs : List α) : (xs.firstBy key).Sublist xs := by
  induction xs with
  | nil => exact .slnil
  | cons x rest ih => exact (filter_sublist.trans ih).cons_cons x

theorem mem_of_mem_firstBy {x : α} {xs : List α} (member : x ∈ xs.firstBy key) : x ∈ xs :=
  (firstBy_sublist xs).subset member

theorem nodup_firstBy (xs : List α) : ((xs.firstBy key).map key).Nodup := by
  induction xs with
  | nil => exact nodup_nil
  | cons x rest ih =>
    rw [firstBy_cons, map_cons, nodup_cons]
    constructor
    · simp only [mem_map, mem_filter, decide_eq_true_eq, not_exists, not_and, and_imp]
      intro y _ other
      exact other
    · exact ih.sublist (filter_sublist.map key)

theorem mem_map_firstBy {k : κ} {xs : List α} : k ∈ (xs.firstBy key).map key ↔ k ∈ xs.map key := by
  induction xs with
  | nil => rfl
  | cons x rest ih =>
    rw [firstBy_cons, map_cons, map_cons, mem_cons, mem_cons, ← ih]
    by_cases same : k = key x
    · simp only [same, true_or]
    · simp only [same, false_or, mem_map, mem_filter, decide_eq_true_eq]
      constructor
      · rintro ⟨y, ⟨member, _⟩, rfl⟩
        exact ⟨y, member, rfl⟩
      · rintro ⟨y, member, rfl⟩
        exact ⟨y, ⟨member, same⟩, rfl⟩

/-- Later arrivals add exactly the elements whose keys are new. -/
theorem firstBy_append (xs ys : List α) :
    (xs ++ ys).firstBy key = xs.firstBy key ++ ys.freshBy key (xs.map key) := by
  induction xs with
  | nil => simp [freshBy]
  | cons x rest ih =>
    simp only [cons_append, firstBy_cons, ih, filter_append, freshBy, filter_filter, map_cons,
      mem_cons, not_or, Bool.decide_and]

theorem freshBy_nil (seen : List κ) : ([] : List α).freshBy key seen = [] := rfl

/-- One arrival at a time: a consumer keeps the head and remembers its key, or skips it. -/
theorem freshBy_cons (seen : List κ) (x : α) (rest : List α) :
    (x :: rest).freshBy key seen =
      if key x ∈ seen then rest.freshBy key seen
      else x :: rest.freshBy key (key x :: seen) := by
  by_cases known : key x ∈ seen
  · simp only [freshBy, firstBy_cons, known, not_true_eq_false, decide_false, Bool.false_eq_true,
      not_false_eq_true, filter_cons_of_neg, if_true, filter_filter]
    apply filter_congr
    intro y _
    by_cases same : key y = key x
    · simp [same, known]
    · simp [same]
  · simp only [freshBy, firstBy_cons, known, not_false_eq_true, decide_true, filter_cons_of_pos,
      if_false, filter_filter, mem_cons, not_or]
    congr 1
    apply filter_congr
    intro y _
    by_cases same : key y = key x <;> simp [same]

theorem freshBy_singleton (seen : List κ) (x : α) :
    [x].freshBy key seen = if key x ∈ seen then [] else [x] := freshBy_cons seen x []

/-- The seen keys matter only as a set. -/
theorem freshBy_congr {seen other : List κ} (same : ∀ k, k ∈ seen ↔ k ∈ other) (batch : List α) :
    batch.freshBy key seen = batch.freshBy key other := by
  apply filter_congr
  intro y _
  simp only [same]

/-- If equal keys carry equal elements, every element survives. -/
theorem mem_firstBy_of_consistent {xs : List α} {x : α}
    (consistent : ∀ a ∈ xs, ∀ b ∈ xs, key a = key b → a = b) (member : x ∈ xs) :
    x ∈ xs.firstBy key := by
  obtain ⟨y, survives, same⟩ := mem_map.mp (mem_map_firstBy.mpr (mem_map_of_mem (f := key) member))
  exact consistent y (mem_of_mem_firstBy survives) x member same ▸ survives

/-- If equal keys carry equal elements, the survivors do not depend on the order of arrival. -/
theorem firstBy_perm {xs ys : List α} (perm : xs.Perm ys)
    (consistent : ∀ a ∈ xs, ∀ b ∈ xs, key a = key b → a = b) :
    (xs.firstBy key).Perm (ys.firstBy key) := by
  have other : ∀ a ∈ ys, ∀ b ∈ ys, key a = key b → a = b := fun a ha b hb =>
    consistent a (perm.mem_iff.mpr ha) b (perm.mem_iff.mpr hb)
  refine (perm_ext_iff_of_nodup (nodup_firstBy xs).of_map (nodup_firstBy ys).of_map).mpr ?_
  intro x
  constructor
  · intro survives
    exact mem_firstBy_of_consistent other (perm.mem_iff.mp (mem_of_mem_firstBy survives))
  · intro survives
    exact mem_firstBy_of_consistent consistent (perm.mem_iff.mpr (mem_of_mem_firstBy survives))

/-- Arrivals from a list without repeated keys survive as a part of it; nothing is missing exactly
if everything arrived. -/
theorem exists_missing {xs ys : List α} (distinct : (ys.map key).Nodup) (inside : xs ⊆ ys) :
    ∃ missing, ys.Perm (xs.firstBy key ++ missing) ∧ (missing = [] ↔ ys ⊆ xs) := by
  have survivors : (xs.firstBy key).Subperm ys :=
    subperm_of_subset (nodup_firstBy xs).of_map fun _ survives =>
      inside (mem_of_mem_firstBy survives)
  obtain ⟨first, same, sublist⟩ := survivors
  obtain ⟨missing, perm⟩ := sublist.exists_perm_append
  have split : ys.Perm (xs.firstBy key ++ missing) := perm.trans (same.append_right missing)
  refine ⟨missing, split, ?_⟩
  constructor
  · rintro rfl x member
    rw [append_nil] at split
    exact mem_of_mem_firstBy (split.mem_iff.mp member)
  · intro covered
    apply eq_nil_iff_forall_not_mem.mpr
    intro x absent
    have member := split.mem_iff.mpr (mem_append_right _ absent)
    have consistent : ∀ a ∈ xs, ∀ b ∈ xs, key a = key b → a = b := fun a ha b hb =>
      inj_on_of_nodup_map distinct (inside ha) (inside hb)
    have survives := mem_firstBy_of_consistent consistent (covered member)
    have once := split.nodup_iff.mp distinct.of_map
    exact disjoint_of_nodup_append once survives absent

omit [DecidableEq κ] in
/-- What a list emits is distinct exactly when no element emits what an earlier one emitted. -/
theorem nodup_filterMap_iff {f : α → Option κ} {xs : List α} :
    (xs.filterMap f).Nodup ↔ ∀ past x later, xs = past ++ x :: later →
      ∀ k ∈ f x, k ∉ past.filterMap f := by
  constructor
  · rintro distinct past x later rfl k emits
    rw [filterMap_append, filterMap_cons_some emits] at distinct
    intro again
    exact (nodup_append.mp distinct).2.2 k again k mem_cons_self rfl
  · intro fresh
    induction xs using reverseRecOn with
    | nil => exact nodup_nil
    | append_singleton xs x ih =>
      have before : (xs.filterMap f).Nodup := by
        apply ih
        intro past y later split
        apply fresh past y (later ++ [x])
        rw [split, append_assoc, cons_append]
      rw [filterMap_append]
      cases emits : f x with
      | none =>
        rw [filterMap_cons_none emits, filterMap_nil, append_nil]
        exact before
      | some k =>
        rw [filterMap_cons_some emits, filterMap_nil]
        have new := fresh xs x [] rfl k emits
        exact nodup_append.mpr ⟨before, nodup_singleton k, by
          rintro a member b single rfl
          exact new (mem_singleton.mp single ▸ member)⟩

end List
