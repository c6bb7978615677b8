import Mathlib.Data.List.Range

/-!
# Extent — the first and the last place where a predicate holds
-/

namespace Extent

/-- The first and the last of so many places, if there is any. -/
def extent (p : Nat → Bool) (n : Nat) : Option (Nat × Nat) :=
  match ((List.range n).filter p).head?, ((List.range n).filter p).getLast? with
  | some first, some last => some (first, last)
  | _, _ => none

variable {p : Nat → Bool} {n first last : Nat}

theorem getLast?_filter_range : ((List.range n).filter p).getLast? = some last ↔
    (last < n ∧ p last = true) ∧ ∀ i < n, p i = true → i ≤ last := by
  induction n with
  | zero =>
    apply iff_of_false
    · intro h
      cases h
    · omega
  | succ n ih =>
    rw [List.range_succ, List.filter_append]
    by_cases hlast : p n = true
    · rw [List.filter_cons_of_pos hlast, List.filter_nil, List.getLast?_concat, Option.some.injEq]
      constructor
      · intro heq
        subst heq
        exact ⟨⟨Nat.lt_succ_self n, hlast⟩, fun i hi _ ↦ Nat.lt_succ_iff.mp hi⟩
      · intro h
        have hle := h.2 n (Nat.lt_succ_self n) hlast
        omega
    · rw [List.filter_cons_of_neg hlast, List.filter_nil, List.append_nil, ih]
      constructor
      · intro h
        refine ⟨⟨Nat.lt_succ_of_lt h.1.1, h.1.2⟩, fun i hi hp ↦ ?_⟩
        rcases Nat.lt_succ_iff_lt_or_eq.mp hi with hbefore | heq
        · exact h.2 i hbefore hp
        · exact absurd (heq ▸ hp) hlast
      · intro h
        have hne : last ≠ n := fun heq ↦ hlast (heq ▸ h.1.2)
        exact ⟨⟨by omega, h.1.2⟩, fun i hi ↦ h.2 i (Nat.lt_succ_of_lt hi)⟩

theorem head?_filter_range : ((List.range n).filter p).head? = some first ↔
    (first < n ∧ p first = true) ∧ ∀ i < n, p i = true → first ≤ i := by
  rw [List.head?_filter, List.find?_range_eq_some, List.mem_range]
  constructor
  · intro h
    refine ⟨⟨h.2.1, h.1⟩, fun i hi hp ↦ ?_⟩
    by_contra hbefore
    have hnot := h.2.2 i (Nat.lt_of_not_le hbefore)
    rw [hp] at hnot
    cases hnot
  · intro h
    refine ⟨h.1.2, h.1.1, fun i hi ↦ ?_⟩
    by_contra hp
    rw [Bool.not_eq_true, Bool.not_eq_false'] at hp
    have hle := h.2 i (hi.trans h.1.1) hp
    omega

/-- An extent is the least interval of all the places where the predicate holds. -/
theorem extent_eq_some : extent p n = some (first, last) ↔
    (first ≤ last ∧ last < n) ∧ (p first = true ∧ p last = true) ∧
      ∀ i < n, p i = true → first ≤ i ∧ i ≤ last := by
  have hboth : extent p n = some (first, last) ↔
      ((List.range n).filter p).head? = some first ∧
        ((List.range n).filter p).getLast? = some last := by
    unfold extent
    cases ((List.range n).filter p).head? <;> cases ((List.range n).filter p).getLast? <;> simp
  rw [hboth, head?_filter_range, getLast?_filter_range]
  constructor
  · intro h
    exact ⟨⟨h.1.2 last h.2.1.1 h.2.1.2, h.2.1.1⟩, ⟨h.1.1.2, h.2.1.2⟩,
      fun i hi hp ↦ ⟨h.1.2 i hi hp, h.2.2 i hi hp⟩⟩
  · intro h
    exact ⟨⟨⟨by omega, h.2.1.1⟩, fun i hi hp ↦ (h.2.2 i hi hp).1⟩,
      ⟨h.1.2, h.2.1.2⟩, fun i hi hp ↦ (h.2.2 i hi hp).2⟩

end Extent
