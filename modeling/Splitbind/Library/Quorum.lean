import Mathlib.Algebra.Order.Field.Rat
import Mathlib.Data.Finset.Card
import Mathlib.Data.Finset.Image
import Mathlib.Data.Finset.Max
import Mathlib.Data.Prod.Lex

/-!
# Quorum — ballots for a choice, cast in the places of a candidate

A candidate has a number of seats, and every place votes at most once for a choice.  The strength of
a choice under a candidate is the share of the seats that vote for it, then their number; it is
decided by which ballots were cast, not by their order or by how often each was cast.
-/

namespace Quorum

/-! ## 1. Ballots -/

structure Ballot (κ τ ι : Type) where
  candidate : κ
  place : τ
  choice : ι
deriving DecidableEq, Repr

variable {κ τ ι : Type} [DecidableEq κ] [DecidableEq τ] [DecidableEq ι]

/-- The places of a candidate that vote for a choice. -/
def places (ballots : List (Ballot κ τ ι)) (candidate : κ) (choice : ι) : Finset τ :=
  ((ballots.filter fun ballot ↦ ballot.candidate = candidate ∧ ballot.choice = choice).map
    (·.place)).toFinset

/-- The share of the seats that vote for a choice, and the number of places that do. -/
def strength (seats : κ → Nat) (ballots : List (Ballot κ τ ι)) (candidate : κ) (choice : ι) :
    ℚ ×ₗ Nat :=
  toLex ((places ballots candidate choice).card / seats candidate,
    (places ballots candidate choice).card)

/-- No admitted choice is stronger. -/
structure Strongest (seats : κ → Nat) (ballots : List (Ballot κ τ ι))
    (admitted : ℚ ×ₗ Nat → Prop) (candidate : κ) (choice : ι) : Prop where
  cast : ∃ ballot ∈ ballots, ballot.candidate = candidate ∧ ballot.choice = choice
  admits : admitted (strength seats ballots candidate choice)
  ge : ∀ ballot ∈ ballots, admitted (strength seats ballots ballot.candidate ballot.choice) →
    strength seats ballots ballot.candidate ballot.choice ≤ strength seats ballots candidate choice

/-! ## 2. The ballots decide -/

section Decide

variable {seats : κ → Nat} {ballots ballots' : List (Ballot κ τ ι)}
  {admitted : ℚ ×ₗ Nat → Prop} {candidate candidate' : κ} {choice choice' : ι}

theorem mem_places {place : τ} :
    place ∈ places ballots candidate choice ↔ ⟨candidate, place, choice⟩ ∈ ballots := by
  rw [places, List.mem_toFinset, List.mem_map]
  constructor
  · rintro ⟨ballot, hballot, rfl⟩
    rw [List.mem_filter, decide_eq_true_eq] at hballot
    obtain ⟨hmem, rfl, rfl⟩ := hballot
    exact hmem
  · intro hmem
    exact ⟨_, List.mem_filter.mpr ⟨hmem, decide_eq_true ⟨rfl, rfl⟩⟩, rfl⟩

theorem places_congr (h : ∀ ballot, ballot ∈ ballots ↔ ballot ∈ ballots') :
    places ballots candidate choice = places ballots' candidate choice := by
  apply Finset.ext
  intro place
  rw [mem_places, mem_places, h]

theorem strength_congr (h : ∀ ballot, ballot ∈ ballots ↔ ballot ∈ ballots') :
    strength seats ballots candidate choice = strength seats ballots' candidate choice := by
  rw [strength, strength, places_congr h]

theorem Strongest.congr (h : ∀ ballot, ballot ∈ ballots ↔ ballot ∈ ballots')
    (hstrongest : Strongest seats ballots admitted candidate choice) :
    Strongest seats ballots' admitted candidate choice := by
  obtain ⟨ballot, hballot, hcast⟩ := hstrongest.cast
  refine ⟨⟨ballot, (h ballot).mp hballot, hcast⟩, ?_, ?_⟩
  · rw [← strength_congr h]
    exact hstrongest.admits
  · intro other hother
    rw [← strength_congr h, ← strength_congr h]
    exact hstrongest.ge other ((h other).mpr hother)

/-- Two strongest choices are equally strong. -/
theorem Strongest.strength_eq (h : Strongest seats ballots admitted candidate choice)
    (h' : Strongest seats ballots admitted candidate' choice') :
    strength seats ballots candidate choice = strength seats ballots candidate' choice' := by
  obtain ⟨ballot, hballot, rfl, rfl⟩ := h.cast
  obtain ⟨ballot', hballot', rfl, rfl⟩ := h'.cast
  exact le_antisymm (h'.ge ballot hballot h.admits) (h.ge ballot' hballot' h'.admits)

/-- Among admitted choices there is a strongest. -/
theorem exists_strongest {ballot : Ballot κ τ ι} (hballot : ballot ∈ ballots)
    (hadmits : admitted (strength seats ballots ballot.candidate ballot.choice)) :
    ∃ best ∈ ballots, Strongest seats ballots admitted best.candidate best.choice := by
  classical
  let choices := ballots.toFinset.filter fun ballot ↦
    admitted (strength seats ballots ballot.candidate ballot.choice)
  have hchoices : ∀ {other}, other ∈ choices ↔
      other ∈ ballots ∧ admitted (strength seats ballots other.candidate other.choice) := by
    intro other
    rw [Finset.mem_filter, List.mem_toFinset]
  obtain ⟨best, hbest, hmax⟩ := choices.exists_max_image
    (fun other ↦ strength seats ballots other.candidate other.choice)
    ⟨ballot, hchoices.mpr ⟨hballot, hadmits⟩⟩
  obtain ⟨hmem, hadmitted⟩ := hchoices.mp hbest
  exact ⟨best, hmem, ⟨best, hmem, rfl, rfl⟩, hadmitted, fun other hother hadmits ↦
    hmax other (hchoices.mpr ⟨hother, hadmits⟩)⟩

/-- A choice nobody votes for is the weakest there is. -/
theorem strength_le_of_empty (hempty : places ballots candidate choice = ∅) :
    strength seats ballots candidate choice ≤ strength seats ballots candidate' choice' := by
  rw [strength, strength, hempty, Finset.card_empty, Nat.cast_zero, zero_div,
    Prod.Lex.toLex_le_toLex]
  have hshare : (0 : ℚ) ≤ (places ballots candidate' choice').card / seats candidate' :=
    div_nonneg (Nat.cast_nonneg _) (Nat.cast_nonneg _)
  rcases hshare.lt_or_eq with hpos | hzero
  · exact .inl hpos
  · exact .inr ⟨hzero, Nat.zero_le _⟩

/-- Ballots that differ in their places are as many as the places. -/
theorem card_places_of_nodup (hnodup : ballots.Nodup) :
    (places ballots candidate choice).card =
      (ballots.filter fun ballot ↦
        ballot.candidate = candidate ∧ ballot.choice = choice).length := by
  rw [places, List.toFinset_card_of_nodup, List.length_map]
  refine (List.Nodup.filter _ hnodup).map_on ?_
  intro ballot hballot other hother hplace
  rw [List.mem_filter, decide_eq_true_eq] at hballot hother
  obtain ⟨-, rfl, rfl⟩ := hballot
  obtain ⟨-, hcandidate, hchoice⟩ := hother
  cases ballot
  cases other
  cases hcandidate
  cases hchoice
  cases hplace
  rfl

end Decide

end Quorum
