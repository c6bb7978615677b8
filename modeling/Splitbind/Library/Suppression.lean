import Mathlib.Data.List.MinMax
import Mathlib.Data.List.Sort

/-!
# Suppression — the strongest of what is near each other

A greedy scan keeps an element unless one that was kept is near it.  Taking the maximum again and
again, and dropping all that is near it, keeps the same elements as a scan in the order of strength.
-/

namespace Suppression

variable {α : Type} (near : α → α → Prop) [DecidableRel near]

/-! ## 1. The scan -/

/-- A scan that keeps what is near nothing kept, and ends with the last element there is room for. -/
def scanFrom (limit : Nat) : List α → List α → List α
  | kept, [] => kept
  | kept, x :: rest =>
    if ∃ y ∈ kept, near y x then scanFrom limit kept rest
    else if kept.length + 1 = limit then kept ++ [x]
    else scanFrom limit (kept ++ [x]) rest

/-- A scan from the start. -/
def scan (limit : Nat) (xs : List α) : List α := scanFrom near limit [] xs

/-- What is kept of the elements scanned: they are apart, and whatever was passed over is near one
that came before it, or came when there was no room. -/
structure Kept (r : α → α → Prop) (limit : Nat) (xs kept : List α) : Prop where
  sublist : kept.Sublist xs
  apart : kept.Pairwise fun y x ↦ ¬ near y x
  length_le : kept.length ≤ limit
  covers : ∀ x ∈ xs, x ∈ kept ∨ (∃ y ∈ kept, near y x ∧ r y x) ∨
    kept.length = limit ∧ ∀ y ∈ kept, r y x

variable {near} {r : α → α → Prop} {limit : Nat}

omit [DecidableRel near] in
theorem Kept.start : Kept near r limit [] [] :=
  ⟨List.Sublist.refl _, List.Pairwise.nil, Nat.zero_le _, fun _ hx ↦ absurd hx List.not_mem_nil⟩

omit [DecidableRel near] in
/-- An element that is near a kept one is passed over. -/
theorem Kept.skip {done kept : List α} {x y : α} (h : Kept near r limit done kept) (hy : y ∈ kept)
    (hnear : near y x) (hr : r y x) : Kept near r limit (done ++ [x]) kept := by
  refine ⟨h.sublist.trans (List.sublist_append_left _ _), h.apart, h.length_le, fun z hz ↦ ?_⟩
  rcases List.mem_append.mp hz with hdone | hlast
  · exact h.covers z hdone
  · obtain rfl := List.mem_singleton.mp hlast
    exact .inr (.inl ⟨y, hy, hnear, hr⟩)

omit [DecidableRel near] in
/-- An element that is near none is kept while there is room. -/
theorem Kept.keep {done kept : List α} {x : α} (h : Kept near r limit done kept)
    (hroom : kept.length < limit) (hnone : ¬ ∃ y ∈ kept, near y x) :
    Kept near r limit (done ++ [x]) (kept ++ [x]) := by
  refine ⟨h.sublist.append (List.Sublist.refl _), ?_, ?_, fun z hz ↦ ?_⟩
  · rw [List.pairwise_append]
    refine ⟨h.apart, List.pairwise_singleton _ _, fun y hy z hz ↦ ?_⟩
    rw [List.mem_singleton.mp hz]
    exact fun hnear ↦ hnone ⟨y, hy, hnear⟩
  · rw [List.length_append, List.length_singleton]
    exact hroom
  · rcases List.mem_append.mp hz with hdone | hlast
    · rcases h.covers z hdone with hkept | ⟨y, hy, hnear, hr⟩ | ⟨hfull, -⟩
      · exact .inl (List.mem_append_left _ hkept)
      · exact .inr (.inl ⟨y, List.mem_append_left _ hy, hnear, hr⟩)
      · omega
    · exact .inl (List.mem_append_right _ hlast)

omit [DecidableRel near] in
/-- Without room the rest is passed over. -/
theorem Kept.full {done kept rest : List α} (h : Kept near r limit done kept)
    (hfull : kept.length = limit) (hr : ∀ y ∈ kept, ∀ x ∈ rest, r y x) :
    Kept near r limit (done ++ rest) kept := by
  refine ⟨h.sublist.trans (List.sublist_append_left _ _), h.apart, h.length_le, fun z hz ↦ ?_⟩
  rcases List.mem_append.mp hz with hdone | hrest
  · exact h.covers z hdone
  · exact .inr (.inr ⟨hfull, fun y hy ↦ hr y hy z hrest⟩)

omit [DecidableRel near] in
/-- What is kept stays in the order of the scan. -/
theorem Kept.sorted {xs kept : List α} (h : Kept near r limit xs kept) (hsorted : xs.Pairwise r) :
    kept.Pairwise r :=
  hsorted.sublist h.sublist

theorem scanFrom_kept {done kept rest : List α} (hsorted : (done ++ rest).Pairwise r)
    (hroom : kept.length < limit) (h : Kept near r limit done kept) :
    Kept near r limit (done ++ rest) (scanFrom near limit kept rest) := by
  induction rest generalizing done kept with
  | nil =>
    rw [List.append_nil]
    exact h
  | cons x rest ih =>
    have hsplit : done ++ x :: rest = (done ++ [x]) ++ rest := List.append_cons done x rest
    -- what is kept so far came before everything that is left
    have hbefore : ∀ y ∈ kept, ∀ z ∈ x :: rest, r y z :=
      fun y hy ↦ (List.pairwise_append.mp hsorted).2.2 y (h.sublist.subset hy)
    rw [hsplit] at hsorted ⊢
    unfold scanFrom
    split_ifs with hnear hfull
    · obtain ⟨y, hy, hnear⟩ := hnear
      exact ih hsorted hroom (h.skip hy hnear (hbefore y hy x List.mem_cons_self))
    · refine (h.keep hroom hnear).full ?_ fun y hy z hz ↦ ?_
      · rw [List.length_append, List.length_singleton]
        exact hfull
      · rcases List.mem_append.mp hy with hkept | hlast
        · exact hbefore y hkept z (List.mem_cons_of_mem x hz)
        · exact (List.pairwise_append.mp hsorted).2.2 y (List.mem_append_right _ hlast) z hz
    · refine ih hsorted ?_ (h.keep hroom hnear)
      rw [List.length_append, List.length_singleton]
      omega

/-- A scan keeps the first of what is near each other. -/
theorem scan_kept {xs : List α} (hsorted : xs.Pairwise r) (hlimit : 0 < limit) :
    Kept near r limit xs (scan near limit xs) := by
  have hstart : Kept near r limit [] [] := Kept.start
  exact scanFrom_kept (List.nil_append xs ▸ hsorted) hlimit hstart

/-- A map that keeps what is near commutes with the scan. -/
theorem scanFrom_map {β : Type} {near' : β → β → Prop} [DecidableRel near'] {f : α → β}
    {kept rest : List α}
    (h : ∀ x ∈ kept ++ rest, ∀ y ∈ kept ++ rest, near' (f x) (f y) ↔ near x y) :
    scanFrom near' limit (kept.map f) (rest.map f) = (scanFrom near limit kept rest).map f := by
  induction rest generalizing kept with
  | nil => rfl
  | cons x rest ih =>
    have hsplit : kept ++ x :: rest = (kept ++ [x]) ++ rest := List.append_cons kept x rest
    have hskipped : ∀ y ∈ kept ++ rest, y ∈ kept ++ x :: rest := by
      intro y hy
      rcases List.mem_append.mp hy with hkept | hrest
      · exact List.mem_append_left _ hkept
      · exact List.mem_append_right _ (List.mem_cons_of_mem x hrest)
    have hsame : (∃ y ∈ kept.map f, near' y (f x)) ↔ ∃ y ∈ kept, near y x := by
      simp only [List.mem_map, exists_exists_and_eq_and]
      refine exists_congr fun y ↦ and_congr_right fun hy ↦ ?_
      exact h y (List.mem_append_left _ hy) x (List.mem_append_right _ List.mem_cons_self)
    have hlast : kept.map f ++ [f x] = (kept ++ [x]).map f := by
      rw [List.map_append]
      rfl
    rw [List.map_cons, scanFrom, scanFrom]
    simp only [hsame, List.length_map, hlast]
    split_ifs
    · exact ih fun y hy z hz ↦ h y (hskipped y hy) z (hskipped z hz)
    · rfl
    · exact ih (hsplit ▸ h)

theorem scan_map {β : Type} {near' : β → β → Prop} [DecidableRel near'] {f : α → β} {xs : List α}
    (h : ∀ x ∈ xs, ∀ y ∈ xs, near' (f x) (f y) ↔ near x y) :
    scan near' limit (xs.map f) = (scan near limit xs).map f := by
  have hnil : ∀ x ∈ [] ++ xs, ∀ y ∈ [] ++ xs, near' (f x) (f y) ↔ near x y := h
  exact scanFrom_map hnil

/-! ## 2. Taking the maximum -/

section Peel

variable {κ : Type} [LinearOrder κ] (near) (score : α → κ)

/-- The maximum is taken, all that is near it is dropped, and so on up to a limit. -/
def peel : Nat → List α → List α
  | 0, _ => []
  | limit + 1, xs =>
    match xs.argmax score with
    | none => []
    | some x => x :: peel limit (xs.filter fun y ↦ ¬ near x y)

variable {near score}

/-- The scan of a list of which the first is kept is one of the others that are not near it. -/
theorem scanFrom_cons {x : α} {kept rest : List α} (hroom : kept.length < limit) :
    scanFrom near (limit + 1) (x :: kept) rest =
      x :: scanFrom near limit kept (rest.filter fun y ↦ ¬ near x y) := by
  induction rest generalizing kept with
  | nil => rfl
  | cons z rest ih =>
    by_cases hx : near x z
    · have hdropped : (z :: rest).filter (fun y ↦ ¬ near x y) =
          rest.filter fun y ↦ ¬ near x y :=
        List.filter_cons_of_neg (by simpa using hx)
      rw [hdropped, ← ih hroom, scanFrom, if_pos ⟨x, List.mem_cons_self, hx⟩]
    · have hheld : (z :: rest).filter (fun y ↦ ¬ near x y) =
          z :: rest.filter fun y ↦ ¬ near x y :=
        List.filter_cons_of_pos (by simpa using hx)
      have hsame : (∃ y ∈ x :: kept, near y z) ↔ ∃ y ∈ kept, near y z := by
        rw [List.exists_mem_cons_iff, or_iff_right hx]
      rw [hheld, scanFrom, scanFrom]
      simp only [hsame, List.length_cons, Nat.add_right_cancel_iff]
      split_ifs with hnear hfull
      · exact ih hroom
      · rfl
      · rw [List.cons_append, ih]
        rw [List.length_append, List.length_singleton]
        omega

/-- Taking maxima is a scan in the order of the score. -/
theorem peel_eq_scan (hrefl : ∀ x, near x x) {xs ys : List α} (hperm : ys.Perm xs)
    (hsorted : ys.Pairwise fun x y ↦ score y < score x) (hlimit : 0 < limit) :
    peel near score limit xs = scan near limit ys := by
  classical
  induction limit generalizing xs ys with
  | zero => exact absurd hlimit (Nat.lt_irrefl 0)
  | succ limit ih =>
    cases ys with
    | nil =>
      obtain rfl := List.nil_perm.mp hperm
      rfl
    | cons x ys =>
      obtain ⟨hstrongest, hrest⟩ := List.pairwise_cons.mp hsorted
      -- the head of the sorted list is the one maximum
      have hmax : xs.argmax score = some x := by
        rw [List.argmax_eq_some_iff]
        have hle : ∀ y ∈ xs, y = x ∨ score y < score x := by
          intro y hy
          rcases List.mem_cons.mp (hperm.mem_iff.mpr hy) with rfl | hlater
          · exact .inl rfl
          · exact .inr (hstrongest y hlater)
        refine ⟨hperm.mem_iff.mp List.mem_cons_self, fun y hy ↦ ?_, fun y hy hge ↦ ?_⟩
        · rcases hle y hy with rfl | hlt
          · exact le_rfl
          · exact hlt.le
        · rcases hle y hy with rfl | hlt
          · exact le_rfl
          · exact absurd hge (not_le.mpr hlt)
      have hfilter : (ys.filter fun y ↦ ¬ near x y).Perm (xs.filter fun y ↦ ¬ near x y) := by
        have hfirst : (x :: ys).filter (fun y ↦ ¬ near x y) = ys.filter fun y ↦ ¬ near x y :=
          List.filter_cons_of_neg (by simpa using hrefl x)
        rw [← hfirst]
        exact hperm.filter _
      unfold peel
      rw [hmax]
      dsimp only
      unfold scan scanFrom
      rw [if_neg (by simp)]
      split_ifs with hlast
      · obtain rfl : limit = 0 := by
          rw [List.length_nil] at hlast
          omega
        rfl
      · have hmore : 0 < limit := by
          rw [List.length_nil] at hlast
          omega
        rw [ih hfilter (hrest.filter _) hmore]
        exact (scanFrom_cons hmore).symm

/-- So what is taken is apart, and what is not is near something stronger, or too weak for the
limit. -/
theorem peel_kept (hrefl : ∀ x, near x x) {xs : List α} (hnodup : xs.Nodup)
    (hinj : ∀ x ∈ xs, ∀ y ∈ xs, score x = score y → x = y) (hlimit : 0 < limit) :
    ∃ ys, ys.Perm xs ∧ ys.Pairwise (fun x y ↦ score y < score x) ∧
      Kept near (fun x y ↦ score y < score x) limit ys (peel near score limit xs) := by
  have hle : ∀ a b c : α, decide (score b ≤ score a) = true → decide (score c ≤ score b) = true →
      decide (score c ≤ score a) = true := by
    intro a b c hab hbc
    rw [decide_eq_true_eq] at hab hbc ⊢
    exact hbc.trans hab
  have htotal : ∀ a b : α, (decide (score b ≤ score a) || decide (score a ≤ score b)) = true := by
    intro a b
    rw [Bool.or_eq_true, decide_eq_true_eq, decide_eq_true_eq]
    exact le_total _ _
  have hperm := List.mergeSort_perm xs fun a b ↦ decide (score b ≤ score a)
  have hweak := List.pairwise_mergeSort hle htotal xs
  -- no two scores are equal
  have hsorted : (xs.mergeSort fun a b ↦ decide (score b ≤ score a)).Pairwise
      fun x y ↦ score y < score x := by
    refine (hweak.and (hperm.nodup_iff.mpr hnodup)).imp_of_mem ?_
    rintro a b ha hb ⟨hba, hne⟩
    refine lt_of_le_of_ne (of_decide_eq_true hba) fun hsame ↦ hne ?_
    exact hinj a (hperm.mem_iff.mp ha) b (hperm.mem_iff.mp hb) hsame.symm
  refine ⟨_, hperm, hsorted, ?_⟩
  rw [peel_eq_scan hrefl hperm hsorted hlimit]
  exact scan_kept hsorted hlimit

end Peel

end Suppression
