import Mathlib.Data.List.Nodup
import Mathlib.Data.List.Perm.Basic

/-!
# Distinct values — lists without their repetitions

What a list contains decides, up to order, what is left of it without repetitions.
-/

namespace Distinct

variable {α : Type} [BEq α] [LawfulBEq α]

/-- `eraseDups` leaves no duplicates. -/
theorem nodup_eraseDups (xs : List α) : xs.eraseDups.Nodup := by
  -- the tail of `eraseDups` is that of a filtered, shorter list
  induction h : xs.length using Nat.strongRecOn generalizing xs with
  | ind n ih =>
    cases xs with
    | nil => exact List.nodup_nil
    | cons x xs =>
      rw [List.eraseDups_cons, List.nodup_cons]
      constructor
      · simp [List.mem_eraseDups]
      · refine ih _ ?_ _ rfl
        rw [← h, List.length_cons]
        exact Nat.lt_succ_of_le (List.length_filter_le _ xs)

/-- One value is left exactly when it is the only one there is. -/
theorem eraseDups_eq_singleton {xs : List α} {a : α} :
    xs.eraseDups = [a] ↔ a ∈ xs ∧ ∀ x ∈ xs, x = a := by
  have hmem : ∀ x, x ∈ xs.eraseDups ↔ x ∈ xs := fun x ↦ List.mem_eraseDups
  constructor
  · intro h
    rw [h] at hmem
    exact ⟨(hmem a).mp (List.mem_singleton_self a), fun x hx ↦
      List.mem_singleton.mp ((hmem x).mpr hx)⟩
  · rintro ⟨ha, hall⟩
    refine List.perm_singleton.mp ((List.perm_ext_iff_of_nodup (nodup_eraseDups xs)
      (List.nodup_singleton a)).mpr fun x ↦ ?_)
    rw [hmem, List.mem_singleton]
    exact ⟨hall x, fun h ↦ h ▸ ha⟩

/-- More than one value is left exactly when two differ. -/
theorem one_lt_length_eraseDups {xs : List α} :
    1 < xs.eraseDups.length ↔ ∃ x ∈ xs, ∃ y ∈ xs, x ≠ y := by
  constructor
  · intro h
    by_contra hsame
    push Not at hsame
    cases xs with
    | nil => exact absurd h (Nat.not_lt_zero 1)
    | cons x xs =>
      have hone : (x :: xs).eraseDups = [x] :=
        eraseDups_eq_singleton.mpr ⟨List.mem_cons_self, fun y hy ↦
          hsame y hy x List.mem_cons_self⟩
      rw [hone] at h
      exact absurd h (Nat.lt_irrefl 1)
  · rintro ⟨x, hx, y, hy, hne⟩
    have hsub : [x, y].Subperm xs.eraseDups := by
      refine List.subperm_of_subset (by simpa using hne) fun z hz ↦ ?_
      rw [List.mem_eraseDups]
      rcases List.mem_pair.mp hz with rfl | rfl
      · exact hx
      · exact hy
    exact hsub.length_le

end Distinct
