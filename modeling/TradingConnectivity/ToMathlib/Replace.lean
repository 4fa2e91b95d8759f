import Mathlib.Data.List.AList

/-! # Looking up after a replacement

Replacing the value of a key in an association list changes what is found under this key and
nothing else.
-/

namespace AList

variable {α : Type*} {β : α → Type*} [DecidableEq α]

theorem kreplace_cons_eq (a : α) (b old : β a) (rest : List (Sigma β)) :
    List.kreplace a b (⟨a, old⟩ :: rest) = ⟨a, b⟩ :: rest := by
  rw [List.kreplace, List.lookmap_cons_some]
  exact if_pos rfl

theorem kreplace_cons_ne {a key : α} (ne : a ≠ key) (b : β a) (value : β key)
    (rest : List (Sigma β)) :
    List.kreplace a b (⟨key, value⟩ :: rest) = ⟨key, value⟩ :: List.kreplace a b rest := by
  rw [List.kreplace, List.lookmap_cons_none]
  exact if_neg ne

theorem dlookup_kreplace (a : α) (b : β a) (l : List (Sigma β)) :
    (l.kreplace a b).dlookup a = (l.dlookup a).map fun _ => b := by
  induction l with
  | nil => rfl
  | cons head rest ih =>
    obtain ⟨key, value⟩ := head
    by_cases same : a = key
    · subst same
      rw [kreplace_cons_eq, List.dlookup_cons_eq, List.dlookup_cons_eq, Option.map_some]
    · rw [kreplace_cons_ne same, List.dlookup_cons_ne _ _ same, List.dlookup_cons_ne _ _ same, ih]

theorem dlookup_kreplace_ne {a a' : α} (ne : a' ≠ a) (b : β a) (l : List (Sigma β)) :
    (l.kreplace a b).dlookup a' = l.dlookup a' := by
  induction l with
  | nil => rfl
  | cons head rest ih =>
    obtain ⟨key, value⟩ := head
    by_cases same : a = key
    · subst same
      rw [kreplace_cons_eq, List.dlookup_cons_ne _ _ ne, List.dlookup_cons_ne _ _ ne]
    · rw [kreplace_cons_ne same]
      by_cases found : a' = key
      · subst found
        rw [List.dlookup_cons_eq, List.dlookup_cons_eq]
      · rw [List.dlookup_cons_ne _ _ found, List.dlookup_cons_ne _ _ found, ih]

theorem lookup_replace {s : AList β} {a : α} (b : β a) {old : β a} (found : s.lookup a = some old) :
    (s.replace a b).lookup a = some b := by
  have replaced := dlookup_kreplace a b s.entries
  rw [lookup] at found
  rwa [found] at replaced

theorem lookup_replace_ne {s : AList β} {a a' : α} (ne : a' ≠ a) (b : β a) :
    (s.replace a b).lookup a' = s.lookup a' := dlookup_kreplace_ne ne b s.entries

end AList
