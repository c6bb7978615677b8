import Mathlib.MeasureTheory.Measure.Lebesgue.Basic

/-!
# Grids — the area of a plane set that every cell of a grid lies inside or outside of

A list of cuts in increasing order has a gap between any two neighbours; the gaps of two lists are
the cells of a grid.  `Aligned` sets contain the inside of a cell or miss it, so their area is that
of the cells whose middle they contain.
-/

open MeasureTheory

namespace Grid

/-! ## 1. Gaps -/

section Gaps

variable {K : Type*}

/-- The neighbours in a list of cuts. -/
def gaps (cuts : List K) : List (K × K) := cuts.zip cuts.tail

@[simp] theorem gaps_singleton (cut : K) : gaps [cut] = [] := rfl

@[simp] theorem gaps_cons_cons (first second : K) (cuts : List K) :
    gaps (first :: second :: cuts) = (first, second) :: gaps (second :: cuts) := rfl

variable [LinearOrder K]

/-- The bounds of a gap are cuts, in order, and no cut lies between them. -/
theorem mem_gaps {cuts : List K} (hcuts : cuts.Pairwise (· < ·)) {gap : K × K}
    (hgap : gap ∈ gaps cuts) :
    gap.1 ∈ cuts ∧ gap.2 ∈ cuts ∧ gap.1 < gap.2 ∧ ∀ cut ∈ cuts, cut ≤ gap.1 ∨ gap.2 ≤ cut := by
  induction cuts with
  | nil => exact absurd hgap List.not_mem_nil
  | cons first cuts ih =>
    cases cuts with
    | nil => exact absurd hgap List.not_mem_nil
    | cons second cuts =>
      obtain ⟨hfirst, hrest⟩ := List.pairwise_cons.mp hcuts
      rw [gaps_cons_cons, List.mem_cons] at hgap
      rcases hgap with rfl | hgap
      · refine ⟨List.mem_cons_self, List.mem_cons_of_mem _ List.mem_cons_self,
          hfirst second List.mem_cons_self, fun cut hcut ↦ ?_⟩
        rcases List.mem_cons.mp hcut with rfl | hcut
        · exact .inl le_rfl
        rcases List.mem_cons.mp hcut with rfl | hcut
        · exact .inr le_rfl
        · exact .inr ((List.pairwise_cons.mp hrest).1 cut hcut).le
      · obtain ⟨hleft, hright, hlt, hbetween⟩ := ih hrest hgap
        refine ⟨List.mem_cons_of_mem _ hleft, List.mem_cons_of_mem _ hright, hlt, fun cut hcut ↦ ?_⟩
        rcases List.mem_cons.mp hcut with rfl | hcut
        · exact .inl (hfirst gap.1 hleft).le
        · exact hbetween cut hcut

end Gaps

/-! ## 2. Cutting a set into strips -/

section Strips

variable {Ω : Type*} [MeasurableSpace Ω] (μ : Measure Ω)

/-- The part of a set between two values of a coordinate. -/
def strip (A : Set Ω) (coordinate : Ω → ℝ) (gap : ℝ × ℝ) : Set Ω :=
  A ∩ Set.preimage coordinate (Set.Ioc gap.1 gap.2)

theorem measurableSet_strip {A : Set Ω} (hA : MeasurableSet A) {coordinate : Ω → ℝ}
    (hcoordinate : Measurable coordinate) (gap : ℝ × ℝ) :
    MeasurableSet (strip A coordinate gap) :=
  hA.inter (hcoordinate measurableSet_Ioc)

/-- A strip measures as much as the strips of the gaps inside it. -/
theorem measure_strip {A : Set Ω} (hA : MeasurableSet A) {coordinate : Ω → ℝ}
    (hcoordinate : Measurable coordinate) {first last : ℝ} {cuts : List ℝ}
    (hcuts : (first :: cuts).Pairwise (· < ·)) (hlast : (first :: cuts).getLast? = some last) :
    μ (strip A coordinate (first, last)) =
      ((gaps (first :: cuts)).map fun gap ↦ μ (strip A coordinate gap)).sum := by
  induction cuts generalizing first with
  | nil =>
    obtain rfl : first = last := Option.some.inj hlast
    rw [strip, Set.Ioc_self, Set.preimage_empty, Set.inter_empty, measure_empty]
    rfl
  | cons second cuts ih =>
    obtain ⟨hfirst, hrest⟩ := List.pairwise_cons.mp hcuts
    have hrestLast : (second :: cuts).getLast? = some last := by
      rwa [List.getLast?_cons_cons] at hlast
    have hle : second ≤ last := by
      rcases List.mem_cons.mp (List.mem_of_getLast? hrestLast) with heq | hmem
      · exact heq.ge
      · exact ((List.pairwise_cons.mp hrest).1 last hmem).le
    have hsplit : strip A coordinate (first, last) =
        strip A coordinate (first, second) ∪ strip A coordinate (second, last) := by
      rw [strip, strip, strip, ← Set.inter_union_distrib_left, ← Set.preimage_union,
        Set.Ioc_union_Ioc_eq_Ioc (hfirst second List.mem_cons_self).le hle]
    have hdisjoint : Disjoint (strip A coordinate (first, second))
        (strip A coordinate (second, last)) := by
      refine Set.disjoint_left.mpr fun point hpoint hpoint' ↦ ?_
      exact absurd hpoint.2.2 hpoint'.2.1.not_ge
    rw [gaps_cons_cons, List.map_cons, List.sum_cons, hsplit,
      measure_union hdisjoint (measurableSet_strip hA hcoordinate _), ih hrest hrestLast]

end Strips

/-! ## 3. Aligned sets -/

/-- The middle of a cell. -/
noncomputable def middle (gap gap' : ℝ × ℝ) : ℝ × ℝ :=
  ((gap.1 + gap.2) / ((2 : ℕ) : ℝ), (gap'.1 + gap'.2) / ((2 : ℕ) : ℝ))

theorem middle_eq (gap gap' : ℝ × ℝ) :
    middle gap gap' = ((gap.1 + gap.2) / 2, (gap'.1 + gap'.2) / 2) := by
  rw [middle, Nat.cast_ofNat]

def insideOf (gap gap' : ℝ × ℝ) : Set (ℝ × ℝ) := Set.Ioo gap.1 gap.2 ×ˢ Set.Ioo gap'.1 gap'.2

/-- A set between the outermost cuts that contains the inside of each cell or misses it. -/
structure Aligned (xs ys : List ℝ) (A : Set (ℝ × ℝ)) : Prop where
  measurable : MeasurableSet A
  bounded : ∀ point ∈ A, (∃ left ∈ xs, left ≤ point.1) ∧ (∃ right ∈ xs, point.1 ≤ right) ∧
    (∃ top ∈ ys, top ≤ point.2) ∧ ∃ bottom ∈ ys, point.2 ≤ bottom
  uniform : ∀ gap ∈ gaps xs, ∀ gap' ∈ gaps ys, ∀ point ∈ insideOf gap gap',
    point ∈ A ↔ middle gap gap' ∈ A

namespace Aligned

variable {xs ys : List ℝ} {A B : Set (ℝ × ℝ)}

protected theorem empty : Aligned xs ys ∅ where
  measurable := MeasurableSet.empty
  bounded := fun _ hpoint ↦ hpoint.elim
  uniform := fun _ _ _ _ _ _ ↦ Iff.rfl

theorem union (hA : Aligned xs ys A) (hB : Aligned xs ys B) : Aligned xs ys (A ∪ B) where
  measurable := hA.measurable.union hB.measurable
  bounded := fun point hpoint ↦ hpoint.elim (hA.bounded point) (hB.bounded point)
  uniform := fun gap hgap gap' hgap' point hpoint ↦
    or_congr (hA.uniform gap hgap gap' hgap' point hpoint)
      (hB.uniform gap hgap gap' hgap' point hpoint)

theorem inter (hA : Aligned xs ys A) (hB : Aligned xs ys B) : Aligned xs ys (A ∩ B) where
  measurable := hA.measurable.inter hB.measurable
  bounded := fun point hpoint ↦ hA.bounded point hpoint.1
  uniform := fun gap hgap gap' hgap' point hpoint ↦
    and_congr (hA.uniform gap hgap gap' hgap' point hpoint)
      (hB.uniform gap hgap gap' hgap' point hpoint)

/-- Between two neighbouring cuts a closed interval of cuts holds everything or nothing. -/
theorem mem_Icc_iff {cuts : List ℝ} (hcuts : cuts.Pairwise (· < ·)) {low high value : ℝ}
    (hlow : low ∈ cuts) (hhigh : high ∈ cuts) {gap : ℝ × ℝ} (hgap : gap ∈ gaps cuts)
    (hvalue : value ∈ Set.Ioo gap.1 gap.2) :
    value ∈ Set.Icc low high ↔ low ≤ gap.1 ∧ gap.2 ≤ high := by
  obtain ⟨-, -, -, hbetween⟩ := mem_gaps hcuts hgap
  constructor
  · rintro ⟨hle, hge⟩
    refine ⟨(hbetween low hlow).resolve_right fun h ↦ ?_, (hbetween high hhigh).resolve_left fun h ↦ ?_⟩
    · exact absurd (hvalue.2.trans_le h) hle.not_gt
    · exact absurd (h.trans_lt hvalue.1) hge.not_gt
  · rintro ⟨hle, hge⟩
    exact ⟨hle.trans hvalue.1.le, hvalue.2.le.trans hge⟩

/-- A closed rectangle whose edges are cuts. -/
theorem rectangle (hxs : xs.Pairwise (· < ·)) (hys : ys.Pairwise (· < ·)) {left right top bottom : ℝ}
    (hleft : left ∈ xs) (hright : right ∈ xs) (htop : top ∈ ys) (hbottom : bottom ∈ ys) :
    Aligned xs ys (Set.Icc left right ×ˢ Set.Icc top bottom) where
  measurable := measurableSet_Icc.prod measurableSet_Icc
  bounded := fun point hpoint ↦ ⟨⟨left, hleft, hpoint.1.1⟩, ⟨right, hright, hpoint.1.2⟩,
    ⟨top, htop, hpoint.2.1⟩, ⟨bottom, hbottom, hpoint.2.2⟩⟩
  uniform := by
    intro gap hgap gap' hgap' point hpoint
    have hlt := (mem_gaps hxs hgap).2.2.1
    have hlt' := (mem_gaps hys hgap').2.2.1
    have hmiddle : (gap.1 + gap.2) / 2 ∈ Set.Ioo gap.1 gap.2 := ⟨by linarith, by linarith⟩
    have hmiddle' : (gap'.1 + gap'.2) / 2 ∈ Set.Ioo gap'.1 gap'.2 := ⟨by linarith, by linarith⟩
    rw [Set.mem_prod, Set.mem_prod, mem_Icc_iff hxs hleft hright hgap hpoint.1,
      mem_Icc_iff hys htop hbottom hgap' hpoint.2, middle_eq,
      mem_Icc_iff hxs hleft hright hgap hmiddle, mem_Icc_iff hys htop hbottom hgap' hmiddle']

end Aligned

/-! ## 4. The area of an aligned set -/

section Area

variable {xs ys : List ℝ} {A : Set (ℝ × ℝ)}

theorem volume_line_fst (value : ℝ) : volume (Set.preimage Prod.fst {value} : Set (ℝ × ℝ)) = 0 := by
  have hline : (Set.preimage Prod.fst {value} : Set (ℝ × ℝ)) = {value} ×ˢ Set.univ := by
    rw [Set.prod_univ]
  rw [hline, Measure.volume_eq_prod, Measure.prod_prod, Real.volume_singleton, zero_mul]

theorem volume_line_snd (value : ℝ) : volume (Set.preimage Prod.snd {value} : Set (ℝ × ℝ)) = 0 := by
  have hline : (Set.preimage Prod.snd {value} : Set (ℝ × ℝ)) = Set.univ ×ˢ {value} := by
    rw [Set.univ_prod]
  rw [hline, Measure.volume_eq_prod, Measure.prod_prod, Real.volume_singleton, mul_zero]

/-- Two lines have no area. -/
theorem volume_lines (value value' : ℝ) :
    volume (Set.preimage Prod.fst {value} ∪ Set.preimage Prod.snd {value'} : Set (ℝ × ℝ)) = 0 :=
  measure_union_null (volume_line_fst value) (volume_line_snd value')

/-- The part of a set in a cell with its right and its lower edge. -/
def inCell (A : Set (ℝ × ℝ)) (gap gap' : ℝ × ℝ) : Set (ℝ × ℝ) :=
  strip (strip A Prod.fst gap) Prod.snd gap'

theorem mem_inCell {gap gap' point : ℝ × ℝ} :
    point ∈ inCell A gap gap' ↔
      point ∈ A ∧ point.1 ∈ Set.Ioc gap.1 gap.2 ∧ point.2 ∈ Set.Ioc gap'.1 gap'.2 := by
  rw [inCell, strip, strip, and_assoc.symm]
  rfl

open Classical in
/-- What a cell adds to the area of a set. -/
noncomputable def cellArea (A : Set (ℝ × ℝ)) (gap gap' : ℝ × ℝ) : ℝ :=
  if middle gap gap' ∈ A then (gap.2 - gap.1) * (gap'.2 - gap'.1) else 0

theorem cellArea_nonneg (hxs : xs.Pairwise (· < ·)) (hys : ys.Pairwise (· < ·)) {gap gap' : ℝ × ℝ}
    (hgap : gap ∈ gaps xs) (hgap' : gap' ∈ gaps ys) : 0 ≤ cellArea A gap gap' := by
  have hlt := (mem_gaps hxs hgap).2.2.1
  have hlt' := (mem_gaps hys hgap').2.2.1
  rw [cellArea]
  split_ifs
  · exact mul_nonneg (by linarith) (by linarith)
  · exact le_rfl

theorem Aligned.volume_inCell (hA : Aligned xs ys A) (hxs : xs.Pairwise (· < ·)) {gap gap' : ℝ × ℝ}
    (hgap : gap ∈ gaps xs) (hgap' : gap' ∈ gaps ys) :
    volume (inCell A gap gap') = ENNReal.ofReal (cellArea A gap gap') := by
  have hlt := (mem_gaps hxs hgap).2.2.1
  have hwidth : 0 ≤ gap.2 - gap.1 := by linarith
  rw [cellArea]
  split_ifs with hmiddle
  · -- the inside of the cell, and some of its edge
    have hlower : insideOf gap gap' ⊆ inCell A gap gap' := by
      intro point hpoint
      rw [mem_inCell]
      exact ⟨(hA.uniform gap hgap gap' hgap' point hpoint).mpr hmiddle,
        Set.Ioo_subset_Ioc_self hpoint.1, Set.Ioo_subset_Ioc_self hpoint.2⟩
    have hupper : inCell A gap gap' ⊆ Set.Ioc gap.1 gap.2 ×ˢ Set.Ioc gap'.1 gap'.2 :=
      fun point hpoint ↦ (mem_inCell.mp hpoint).2
    apply le_antisymm
    · calc volume (inCell A gap gap')
          ≤ volume (Set.Ioc gap.1 gap.2 ×ˢ Set.Ioc gap'.1 gap'.2) := measure_mono hupper
        _ = ENNReal.ofReal ((gap.2 - gap.1) * (gap'.2 - gap'.1)) := by
          rw [Measure.volume_eq_prod, Measure.prod_prod, Real.volume_Ioc, Real.volume_Ioc,
            ENNReal.ofReal_mul hwidth]
    · calc ENNReal.ofReal ((gap.2 - gap.1) * (gap'.2 - gap'.1))
          = volume (insideOf gap gap') := by
            rw [insideOf, Measure.volume_eq_prod, Measure.prod_prod, Real.volume_Ioo,
              Real.volume_Ioo, ENNReal.ofReal_mul hwidth]
        _ ≤ volume (inCell A gap gap') := measure_mono hlower
  · -- at most some of the edge
    have hedge : inCell A gap gap' ⊆ Set.preimage Prod.fst {gap.2} ∪ Set.preimage Prod.snd {gap'.2} := by
      intro point hpoint
      obtain ⟨hmem, hfst, hsnd⟩ := mem_inCell.mp hpoint
      by_contra hoff
      rw [Set.mem_union, not_or] at hoff
      have hinside : point ∈ insideOf gap gap' :=
        ⟨⟨hfst.1, lt_of_le_of_ne hfst.2 hoff.1⟩, hsnd.1, lt_of_le_of_ne hsnd.2 hoff.2⟩
      exact hmiddle ((hA.uniform gap hgap gap' hgap' point hinside).mp hmem)
    rw [ENNReal.ofReal_zero]
    exact measure_mono_null hedge (volume_lines gap.2 gap'.2)

/-- Up to its left and its upper edge a set is what its cells hold of it. -/
theorem Aligned.volume_box {x x' y y' : ℝ} {xs ys : List ℝ}
    (hA : Aligned (x :: xs) (y :: ys) A) (hxs : (x :: xs).Pairwise (· < ·))
    (hys : (y :: ys).Pairwise (· < ·)) (hx' : (x :: xs).getLast? = some x')
    (hy' : (y :: ys).getLast? = some y') : volume A = volume (inCell A (x, x') (y, y')) := by
  have hfirst : ∀ {cut : ℝ} {cuts : List ℝ}, (cut :: cuts).Pairwise (· < ·) →
      ∀ other ∈ cut :: cuts, cut ≤ other := by
    intro cut cuts hcuts other hother
    rcases List.mem_cons.mp hother with rfl | hother
    · exact le_rfl
    · exact ((List.pairwise_cons.mp hcuts).1 other hother).le
  have hlast : ∀ {cuts : List ℝ} {cut : ℝ}, cuts.Pairwise (· < ·) → cuts.getLast? = some cut →
      ∀ other ∈ cuts, other ≤ cut := by
    intro cuts cut hcuts hcut other hother
    obtain ⟨front, rfl⟩ := List.getLast?_eq_some_iff.mp hcut
    rcases List.mem_append.mp hother with hother | hother
    · exact ((List.pairwise_append.mp hcuts).2.2 other hother cut (List.mem_singleton_self _)).le
    · exact (List.mem_singleton.mp hother).le
  have hbetween : A ⊆ inCell A (x, x') (y, y') ∪
      (Set.preimage Prod.fst {x} ∪ Set.preimage Prod.snd {y}) := by
    intro point hpoint
    obtain ⟨⟨left, hleft, hle⟩, ⟨right, hright, hge⟩, ⟨top, htop, hle'⟩, bottom, hbottom, hge'⟩ :=
      hA.bounded point hpoint
    have hx : x ≤ point.1 := (hfirst hxs left hleft).trans hle
    have hy : y ≤ point.2 := (hfirst hys top htop).trans hle'
    rw [Set.mem_union, Set.mem_union, mem_inCell]
    by_cases hon : point.1 = x ∨ point.2 = y
    · exact .inr hon
    · rw [not_or] at hon
      exact .inl ⟨hpoint, ⟨lt_of_le_of_ne hx (Ne.symm hon.1), hge.trans (hlast hxs hx' right hright)⟩,
        lt_of_le_of_ne hy (Ne.symm hon.2), hge'.trans (hlast hys hy' bottom hbottom)⟩
  apply le_antisymm
  · calc volume A ≤ volume (inCell A (x, x') (y, y') ∪
          (Set.preimage Prod.fst {x} ∪ Set.preimage Prod.snd {y})) := measure_mono hbetween
      _ ≤ volume (inCell A (x, x') (y, y')) + 0 := by
        rw [← volume_lines x y]
        exact measure_union_le _ _
      _ = volume (inCell A (x, x') (y, y')) := add_zero _
  · exact measure_mono fun point hpoint ↦ (mem_inCell.mp hpoint).1

theorem ofReal_sum {α : Type*} {items : List α} {f : α → ℝ} (hf : ∀ item ∈ items, 0 ≤ f item) :
    (items.map fun item ↦ ENNReal.ofReal (f item)).sum = ENNReal.ofReal (items.map f).sum := by
  induction items with
  | nil => rw [List.map_nil, List.map_nil, List.sum_nil, List.sum_nil, ENNReal.ofReal_zero]
  | cons item items ih =>
    have hrest : ∀ other ∈ items, 0 ≤ f other := fun other h ↦ hf other (List.mem_cons_of_mem _ h)
    have hsum : 0 ≤ (items.map f).sum := by
      apply List.sum_nonneg
      intro value hvalue
      obtain ⟨other, hother, rfl⟩ := List.mem_map.mp hvalue
      exact hrest other hother
    rw [List.map_cons, List.map_cons, List.sum_cons, List.sum_cons,
      ENNReal.ofReal_add (hf item List.mem_cons_self) hsum, ih hrest]

/-- The area of an aligned set is that of the cells whose middle it contains. -/
theorem Aligned.volume_real_eq (hA : Aligned xs ys A) (hxs : xs.Pairwise (· < ·))
    (hys : ys.Pairwise (· < ·)) :
    volume.real A =
      ((gaps xs).map fun gap ↦ ((gaps ys).map fun gap' ↦ cellArea A gap gap').sum).sum := by
  have hrow : ∀ gap ∈ gaps xs, 0 ≤ ((gaps ys).map fun gap' ↦ cellArea A gap gap').sum := by
    intro gap hgap
    apply List.sum_nonneg
    intro value hvalue
    obtain ⟨gap', hgap', rfl⟩ := List.mem_map.mp hvalue
    exact cellArea_nonneg hxs hys hgap hgap'
  have hvolume : volume A = ENNReal.ofReal
      ((gaps xs).map fun gap ↦ ((gaps ys).map fun gap' ↦ cellArea A gap gap').sum).sum := by
    cases xs with
    | nil =>
      have hempty : A = ∅ := by
        ext point
        exact ⟨fun hpoint ↦ (hA.bounded point hpoint).1.elim fun _ h ↦ absurd h.1 List.not_mem_nil,
          fun hpoint ↦ hpoint.elim⟩
      rw [hempty, measure_empty]
      exact ENNReal.ofReal_zero.symm
    | cons x xs =>
      cases ys with
      | nil =>
        have hempty : A = ∅ := by
          ext point
          exact ⟨fun hpoint ↦
            (hA.bounded point hpoint).2.2.1.elim fun _ h ↦ absurd h.1 List.not_mem_nil,
            fun hpoint ↦ hpoint.elim⟩
        have hzero : ((gaps (x :: xs)).map fun _ ↦ (0 : ℝ)).sum = 0 := by
          rw [List.map_const', List.sum_replicate, smul_zero]
        rw [hempty, measure_empty]
        show 0 = ENNReal.ofReal ((gaps (x :: xs)).map fun _ ↦ (0 : ℝ)).sum
        rw [hzero, ENNReal.ofReal_zero]
      | cons y ys =>
        obtain ⟨x', hx'⟩ : ∃ last, (x :: xs).getLast? = some last :=
          ⟨_, List.getLast?_eq_some_getLast (List.cons_ne_nil x xs)⟩
        obtain ⟨y', hy'⟩ : ∃ last, (y :: ys).getLast? = some last :=
          ⟨_, List.getLast?_eq_some_getLast (List.cons_ne_nil y ys)⟩
        rw [hA.volume_box hxs hys hx' hy', ← ofReal_sum hrow]
        -- first into columns, and each column into cells
        have hcolumns : volume (inCell A (x, x') (y, y')) =
            ((gaps (x :: xs)).map fun gap ↦ volume (inCell A gap (y, y'))).sum := by
          have hstrip := measurableSet_strip hA.measurable measurable_snd (y, y')
          have hswap : ∀ gap, inCell A gap (y, y') =
              strip (strip A Prod.snd (y, y')) Prod.fst gap := fun gap ↦ Set.inter_right_comm _ _ _
          simp only [hswap]
          exact measure_strip volume hstrip measurable_fst hxs hx'
        rw [hcolumns]
        congr 1
        refine List.map_congr_left fun gap hgap ↦ ?_
        rw [← ofReal_sum fun gap' hgap' ↦ cellArea_nonneg hxs hys hgap hgap']
        rw [inCell, measure_strip volume (measurableSet_strip hA.measurable measurable_fst gap)
          measurable_snd hys hy']
        congr 1
        exact List.map_congr_left fun gap' hgap' ↦ hA.volume_inCell hxs hgap hgap'
  rw [Measure.real, hvolume, ENNReal.toReal_ofReal]
  apply List.sum_nonneg
  intro value hvalue
  obtain ⟨gap, hgap, rfl⟩ := List.mem_map.mp hvalue
  exact hrow gap hgap

end Area

end Grid
