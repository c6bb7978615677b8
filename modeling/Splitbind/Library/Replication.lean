import Mathlib.Algebra.BigOperators.Ring.Finset
import Mathlib.Algebra.Group.Action.Defs
import Mathlib.Algebra.Order.BigOperators.Group.Finset
import Mathlib.Data.Finset.Card

/-!
# Replication — copies of a source in other places, and what damaged places cost

Every replica keeps a copy of each source in a place of its own.  A quorum of copies decides whether a
source is as it was.  A damaged place costs a replica one source at most, so damage stays in
proportion: few sources lose a quorum of their copies, and what keeps its copies keeps its verdict.
-/

namespace Replication

/-! ## 1. Verdicts -/

/-- What a copy says of its source. -/
inductive Copy
  | agrees
  | differs
  | unreadable
deriving DecidableEq, Repr

inductive Verdict
  | matching
  | mismatching
  | undecided
deriving DecidableEq, Repr

/-- A quorum of copies that agree decides, or else one of copies that differ. -/
def verdict (quorum : Nat) (copies : List Copy) : Verdict :=
  if quorum ≤ copies.count .agrees then .matching
  else if quorum ≤ copies.count .differs then .mismatching
  else .undecided

theorem verdict_matching {quorum : Nat} {copies : List Copy} :
    verdict quorum copies = .matching ↔ quorum ≤ copies.count .agrees := by
  unfold verdict
  split_ifs <;> simp_all

theorem verdict_mismatching {quorum : Nat} {copies : List Copy} :
    verdict quorum copies = .mismatching ↔
      copies.count .agrees < quorum ∧ quorum ≤ copies.count .differs := by
  unfold verdict
  split_ifs with hagree hdiffer
  · simp [Nat.not_lt_of_le hagree]
  · simp [Nat.lt_of_not_le hagree, hdiffer]
  · simp [hdiffer]

/-- A source that does not match is a mismatch or undecided. -/
theorem countP_verdicts {β : Type*} (verdictOf : β → Verdict) (rows : List β) :
    rows.countP (fun row ↦ verdictOf row = .mismatching) +
        rows.countP (fun row ↦ verdictOf row = .undecided) =
      rows.countP (fun row ↦ verdictOf row ≠ .matching) ∧
    rows.countP (fun row ↦ verdictOf row = .matching) +
        rows.countP (fun row ↦ verdictOf row ≠ .matching) = rows.length := by
  induction rows with
  | nil => exact ⟨rfl, rfl⟩
  | cons row rows ih =>
    obtain ⟨hfailing, hall⟩ := ih
    simp only [List.countP_cons, List.length_cons]
    cases verdictOf row <;> simp at hfailing hall ⊢ <;> omega

/-! ## 2. Damage -/

section Damage

variable {ρ α : Type*} [DecidableEq α] (place : ρ → α → α) (replicas : List ρ)
  (damaged : Finset α)

/-- How many copies of a source are in damaged places. -/
def lost (source : α) : Nat := replicas.countP fun replica ↦ place replica source ∈ damaged

/-- The sources with a quorum of their copies in damaged places. -/
def exposed (sources : Finset α) (quorum : Nat) : Finset α :=
  sources.filter fun source ↦ quorum ≤ lost place replicas damaged source

variable {place replicas damaged} {sources : Finset α}

/-- A replica that keeps its copies apart loses one of them for a damaged place. -/
theorem sum_lost_le (hapart : ∀ replica ∈ replicas, Set.InjOn (place replica) sources) :
    ∑ source ∈ sources, lost place replicas damaged source ≤ replicas.length * damaged.card := by
  induction replicas with
  | nil => simp [lost]
  | cons replica replicas ih =>
    rw [List.forall_mem_cons] at hapart
    have hfirst : ∑ source ∈ sources, (if place replica source ∈ damaged then 1 else 0) ≤
        damaged.card := by
      rw [← Finset.card_filter]
      refine Finset.card_le_card_of_injOn (place replica) (fun source hsource ↦ ?_) ?_
      · exact (Finset.mem_filter.mp hsource).2
      · exact hapart.1.mono fun source hsource ↦ (Finset.mem_filter.mp hsource).1
    have hsplit : ∀ source, lost place (replica :: replicas) damaged source =
        lost place replicas damaged source +
          if place replica source ∈ damaged then 1 else 0 := by
      intro source
      unfold lost
      rw [List.countP_cons]
      simp only [decide_eq_true_eq]
    calc ∑ source ∈ sources, lost place (replica :: replicas) damaged source
        = ∑ source ∈ sources, lost place replicas damaged source +
            ∑ source ∈ sources, (if place replica source ∈ damaged then 1 else 0) := by
          rw [Finset.sum_congr rfl fun source _ ↦ hsplit source, Finset.sum_add_distrib]
      _ ≤ replicas.length * damaged.card + damaged.card :=
          Nat.add_le_add (ih hapart.2) hfirst
      _ = (replica :: replicas).length * damaged.card := by
          rw [List.length_cons, Nat.succ_mul]

/-- So few sources are exposed. -/
theorem quorum_mul_card_exposed_le
    (hapart : ∀ replica ∈ replicas, Set.InjOn (place replica) sources) (quorum : Nat) :
    quorum * (exposed place replicas damaged sources quorum).card ≤
      replicas.length * damaged.card := by
  have hmany : (exposed place replicas damaged sources quorum).card • quorum ≤
      ∑ source ∈ exposed place replicas damaged sources quorum,
        lost place replicas damaged source :=
    Finset.card_nsmul_le_sum _ _ _ fun source hsource ↦ (Finset.mem_filter.mp hsource).2
  rw [smul_eq_mul, mul_comm] at hmany
  have hsub : ∑ source ∈ exposed place replicas damaged sources quorum,
      lost place replicas damaged source ≤
        ∑ source ∈ sources, lost place replicas damaged source :=
    Finset.sum_le_sum_of_subset (Finset.filter_subset _ _)
  exact hmany.trans (hsub.trans (sum_lost_le hapart))

/-! ## 3. What copies outside the damage decide -/

variable {state : ρ → Copy} {said : Copy} {source : α} {quorum : Nat}

/-- Copies that do not say what those outside the damage say are in damaged places. -/
theorem count_other_le {other : Copy} (hother : other ≠ said)
    (hkept : ∀ replica ∈ replicas, place replica source ∉ damaged → state replica = said) :
    (replicas.map state).count other ≤ lost place replicas damaged source := by
  unfold lost
  rw [List.count, List.countP_map]
  refine List.countP_mono_left fun replica hreplica hsays ↦ ?_
  have hstate : state replica = other := eq_of_beq hsays
  refine decide_eq_true (not_not.mp fun hout ↦ hother ?_)
  exact hstate.symm.trans (hkept replica hreplica hout)

/-- All the others say it. -/
theorem length_le_count_add
    (hkept : ∀ replica ∈ replicas, place replica source ∉ damaged → state replica = said) :
    replicas.length ≤ (replicas.map state).count said + lost place replicas damaged source := by
  have hcount :=
    List.length_eq_countP_add_countP (fun replica ↦ state replica == said) (l := replicas)
  have hmap : (replicas.map state).count said =
      replicas.countP fun replica ↦ state replica == said := by
    rw [List.count, List.countP_map]
    rfl
  have hrest : replicas.countP (fun replica ↦ ¬ (state replica == said) = true) ≤
      lost place replicas damaged source := by
    unfold lost
    refine List.countP_mono_left fun replica hreplica hsays ↦ ?_
    refine decide_eq_true (not_not.mp fun hout ↦ ?_)
    exact of_decide_eq_true hsays (beq_iff_eq.mpr (hkept replica hreplica hout))
  omega

/-- A source whose copies outside the damage agree matches as long as a quorum of them is left. -/
theorem verdict_of_kept
    (hkept : ∀ replica ∈ replicas, place replica source ∉ damaged → state replica = .agrees)
    (hleft : quorum + lost place replicas damaged source ≤ replicas.length) :
    verdict quorum (replicas.map state) = .matching := by
  rw [verdict_matching]
  have hcount := length_le_count_add hkept
  omega

/-- And it is accused only when a quorum of its copies is damaged. -/
theorem exposed_of_mismatching
    (hkept : ∀ replica ∈ replicas, place replica source ∉ damaged → state replica = .agrees)
    (h : verdict quorum (replicas.map state) = .mismatching) :
    quorum ≤ lost place replicas damaged source := by
  rw [verdict_mismatching] at h
  exact h.2.trans (count_other_le (by decide) hkept)

/-- A source whose copies outside the damage differ is accused when they are a quorum and the others
are none. -/
theorem verdict_of_changed
    (hkept : ∀ replica ∈ replicas, place replica source ∉ damaged → state replica = .differs)
    (hfew : lost place replicas damaged source < quorum)
    (hleft : quorum + lost place replicas damaged source ≤ replicas.length) :
    verdict quorum (replicas.map state) = .mismatching := by
  rw [verdict_mismatching]
  have hagree := count_other_le (by decide : Copy.agrees ≠ .differs) hkept
  have hcount := length_le_count_add hkept
  omega

end Damage

end Replication
