import Mathlib.Data.List.Infix
import Mathlib.Tactic.Common

/-!
# Scan — the matches of a pattern one behind the other

A pattern says at the front of a text how long its match there is.  The search for all matches goes
on behind each of them; where no match starts inside another one, it finds every place of the
pattern.
-/

namespace Scan

variable {α : Type} (width : List α → Option Nat)

/-- The number of matches, after so many elements that are passed over. -/
def count : Nat → List α → Nat
  | _, [] => 0
  | skip + 1, _ :: rest => count skip rest
  | 0, a :: rest =>
    match width (a :: rest) with
    | some n => count (n - 1) rest + 1
    | none => count 0 rest

/-- The places from which on the pattern matches. -/
def places (text : List α) : List Nat :=
  (List.range text.length).filter fun start ↦ (width (text.drop start)).isSome

/-- No match starts inside another one. -/
def Separate : Prop :=
  ∀ text n, width text = some n → ∀ k, 0 < k → k < n → width (text.drop k) = none

variable {width}

theorem length_places_cons (a : α) (rest : List α) :
    (places width (a :: rest)).length =
      (if (width (a :: rest)).isSome then 1 else 0) + (places width rest).length := by
  -- the places of the tail, one further on
  have htail : ((List.range rest.length).map Nat.succ).filter
      (fun start ↦ (width ((a :: rest).drop start)).isSome) =
        (places width rest).map Nat.succ := by
    rw [List.filter_map]
    rfl
  rw [places, List.length_cons, List.range_succ_eq_map, List.filter_cons, htail, List.drop_zero]
  split_ifs
  · rw [List.length_cons, List.length_map, Nat.add_comm]
  · rw [List.length_map, Nat.zero_add]

/-- Passing over places where nothing matches loses none. -/
theorem length_places_drop {text : List α} {skip : Nat}
    (hskip : ∀ k < skip, width (text.drop k) = none) :
    (places width (text.drop skip)).length = (places width text).length := by
  induction skip generalizing text with
  | zero => rw [List.drop_zero]
  | succ skip ih =>
    cases text with
    | nil => rfl
    | cons a rest =>
      have hfirst : width (a :: rest) = none := hskip 0 (Nat.succ_pos skip)
      rw [List.drop_succ_cons, ih fun k hk ↦ hskip (k + 1) (Nat.succ_lt_succ hk),
        length_places_cons, hfirst]
      exact (Nat.zero_add _).symm

theorem count_eq_length_drop (hseparate : Separate width) (text : List α) (skip : Nat) :
    count width skip text = (places width (text.drop skip)).length := by
  induction text generalizing skip with
  | nil =>
    rw [List.drop_nil]
    cases skip <;> rfl
  | cons a rest ih =>
    cases skip with
    | succ skip =>
      rw [count, ih, List.drop_succ_cons]
    | zero =>
      rw [List.drop_zero, length_places_cons]
      cases hmatch : width (a :: rest) with
      | none =>
        simp only [count, hmatch, ih, List.drop_zero]
        exact (Nat.zero_add _).symm
      | some n =>
        -- the places inside the match are passed over
        have hinside : ∀ k < n - 1, width (rest.drop k) = none := by
          intro k hk
          exact hseparate (a :: rest) n hmatch (k + 1) (Nat.succ_pos k) (by omega)
        simp only [count, hmatch, ih, length_places_drop hinside]
        exact Nat.add_comm _ 1

/-- **All places are found.** -/
theorem count_eq_length_places (hseparate : Separate width) (text : List α) :
    count width 0 text = (places width text).length :=
  count_eq_length_drop hseparate text 0

end Scan
