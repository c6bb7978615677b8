import Mathlib.Data.List.DropRight
import Mathlib.Data.List.TakeWhile

/-!
# Text — trimming a list, and parting it at the last occurrence of an element
-/

namespace Text

variable {α : Type*}

/-! ## 1. Trimming -/

/-- A list without the elements at either end that satisfy a predicate. -/
def trim (p : α → Bool) (s : List α) : List α := (s.dropWhile p).rdropWhile p

variable {p : α → Bool} {s : List α}

theorem trim_within (p : α → Bool) (s : List α) : trim p s <:+: s :=
  (List.rdropWhile_prefix p _).isInfix.trans (List.dropWhile_suffix p).isInfix

theorem length_trim_le (p : α → Bool) (s : List α) : (trim p s).length ≤ s.length :=
  (trim_within p s).length_le

theorem mem_of_mem_trim {a : α} (h : a ∈ trim p s) : a ∈ s := (trim_within p s).subset h

/-- What starts and ends with elements that are kept. -/
def Trimmed (p : α → Bool) (s : List α) : Prop :=
  (∀ a, s.head? = some a → p a = false) ∧ ∀ a, s.getLast? = some a → p a = false

theorem trim_eq_self (h : Trimmed p s) : trim p s = s := by
  obtain ⟨hhead, hlast⟩ := h
  have hdrop : s.dropWhile p = s := by
    cases s with
    | nil => rfl
    | cons a rest =>
      have ha : ¬ p a = true := by
        rw [hhead a rfl]
        decide
      exact List.dropWhile_cons_of_neg ha
  rw [trim, hdrop]
  rcases s.eq_nil_or_concat' with rfl | ⟨front, a, rfl⟩
  · rfl
  · have ha : ¬ p a = true := by
      rw [hlast a List.getLast?_concat]
      decide
    rw [List.rdropWhile_concat_neg _ _ _ ha]

/-! ## 2. Parting at the last occurrence -/

variable [DecidableEq α]

/-- `str.rpartition`: what stands before the last occurrence of a separator, the separator, and what
stands behind; two empty lists and the whole where there is none. -/
def rpartition (separator : α) (s : List α) : List α × List α × List α :=
  if separator ∈ s then
    ((s.rdropWhile (· ≠ separator)).dropLast, [separator], s.rtakeWhile (· ≠ separator))
  else ([], [], s)

theorem rpartition_of_notMem {separator : α} (h : separator ∉ s) :
    rpartition separator s = ([], [], s) := if_neg h

theorem rpartition_append {separator : α} {before after : List α} (h : separator ∉ after) :
    rpartition separator (before ++ separator :: after) = (before, [separator], after) := by
  have hmem : separator ∈ before ++ separator :: after :=
    List.mem_append_right _ List.mem_cons_self
  have hall : ∀ a ∈ after.reverse, decide (a ≠ separator) = true := by
    intro a ha
    exact decide_eq_true fun heq ↦ h (heq ▸ List.mem_reverse.mp ha)
  have hreverse : (before ++ separator :: after).reverse =
      after.reverse ++ separator :: before.reverse := by
    rw [List.reverse_append, List.reverse_cons, List.append_assoc, List.singleton_append]
  have hstop : ¬ (fun a ↦ decide (a ≠ separator)) separator = true := by simp
  have hdrop : (before ++ separator :: after).rdropWhile (· ≠ separator) = before ++ [separator] := by
    rw [List.rdropWhile, hreverse, List.dropWhile_append_of_pos hall,
      List.dropWhile_cons_of_neg (p := fun a ↦ decide (a ≠ separator)) hstop, List.reverse_cons, List.reverse_reverse]
  have htake : (before ++ separator :: after).rtakeWhile (· ≠ separator) = after := by
    rw [List.rtakeWhile, hreverse, List.takeWhile_append_of_pos hall,
      List.takeWhile_cons_of_neg (p := fun a ↦ decide (a ≠ separator)) hstop, List.append_nil, List.reverse_reverse]
  rw [rpartition, if_pos hmem, hdrop, htake, List.dropLast_concat]

theorem rpartition_cases (separator : α) (s : List α) :
    (separator ∉ s ∧ rpartition separator s = ([], [], s)) ∨
      ∃ before after, s = before ++ separator :: after ∧ separator ∉ after ∧
        rpartition separator s = (before, [separator], after) := by
  by_cases hmem : separator ∈ s
  · -- the first occurrence from behind
    obtain ⟨after, before, hreverse, hafter⟩ :=
      List.eq_append_cons_of_mem (List.mem_reverse.mpr hmem)
    have hs : s = before.reverse ++ separator :: after.reverse := by
      rw [← List.reverse_reverse s, hreverse, List.reverse_append, List.reverse_cons,
        List.append_assoc, List.singleton_append]
    have hnot : separator ∉ after.reverse := fun h ↦ hafter (List.mem_reverse.mp h)
    exact .inr ⟨before.reverse, after.reverse, hs, hnot, hs ▸ rpartition_append hnot⟩
  · exact .inl ⟨hmem, rpartition_of_notMem hmem⟩

end Text
