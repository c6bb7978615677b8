import Mathlib.Data.Prod.Lex
import Mathlib.Order.OrderDual
import Splitbind.Fingerprint.PageAlignment
import Splitbind.Library.Suppression

/-!
# Pilot peaks — separated maxima, separated similarities, separated hypotheses

The estimator of the pilot takes separated maxima of a cyclic correlation, turns them into
similarities, and keeps the strongest of those that are near each other, once before and once after
it looks for translations.  Arithmetic is exact; the transforms are parameters.
-/

namespace Splitbind

open Transaction Suppression

/-! ## 1. Peaks of a cyclic surface -/

section Peaks

variable {K : Type} [LinearOrder K]

/-- The shorter way between two coordinates around a period. -/
def cyclicDistance (period a b : Nat) : Nat :=
  let distance := max a b - min a b
  min distance (period - distance)

/-- `np.unravel_index`: a row and a column. -/
def unravelIndex (width flatIndex : Nat) : Nat × Nat := (flatIndex / width, flatIndex % width)

/-- A column, a row and what the surface has there. -/
structure Peak (K : Type) where
  x : Nat
  y : Nat
  response : K
deriving DecidableEq

/-- The sides of a surface, and how far a peak suppresses. -/
structure PeakWindow where
  height : Nat
  width : Nat
  radiusX : Nat
  radiusY : Nat

/-- A position is in the rows and in the columns that a peak suppresses. -/
def PeakWindow.Suppresses (window : PeakWindow) (peak position : Nat × Nat) : Prop :=
  cyclicDistance window.height peak.1 position.1 ≤ window.radiusY ∧
    cyclicDistance window.width peak.2 position.2 ≤ window.radiusX

instance (window : PeakWindow) : DecidableRel window.Suppresses :=
  fun _ _ ↦ inferInstanceAs (Decidable (_ ∧ _))

/-- A sample in the order of doubles; what is not finite counts as `-math.inf`. -/
def level : Option K → WithBot K
  | none => ⊥
  | some response => response

/-- The loop of `_cyclic_nms_peaks`, over what is left of the surface. -/
def peaksFrom (window : PeakWindow) : Nat → (Nat × Nat → Option K) → List (Peak K)
  | 0, _ => []
  | turns + 1, working =>
    match (List.range (window.height * window.width)).argmax fun flatIndex ↦
        level (working (unravelIndex window.width flatIndex)) with
    | none => []
    | some flatIndex =>
      let peak := unravelIndex window.width flatIndex
      match working peak with
      | none => []
      | some response =>
        ⟨peak.2, peak.1, response⟩ :: peaksFrom window turns fun position ↦
          if window.Suppresses peak position then none else working position

/-- `_cyclic_nms_peaks`; a sample of the surface is `none` when it is not finite. -/
def cyclicNmsPeaks (surface : Nat × Nat → Option K) (maximum : Nat) (window : PeakWindow) :
    Except ToolRaised (List (Peak K)) :=
  if maximum = 0 then return []
  else do
    raiseIf (window.height * window.width = 0)
      (.value "attempt to get argmax of an empty sequence")
    return peaksFrom window maximum surface

/-! ### Maxima of what is left -/

/-- `argmax` finds the first of the largest. -/
theorem argmax_range {κ : Type} [LinearOrder κ] {f : Nat → κ} {n i : Nat}
    (h : (List.range n).argmax f = some i) :
    i < n ∧ (∀ j < n, f j ≤ f i) ∧ ∀ j < n, f i ≤ f j → i ≤ j := by
  induction n generalizing i with
  | zero => cases h
  | succ n ih =>
    rw [List.range_succ, List.argmax_concat] at h
    cases hfirst : (List.range n).argmax f with
    | none =>
      rw [hfirst] at h
      obtain rfl : n = i := Option.some.inj h
      have hempty : n = 0 := by
        rw [List.argmax_eq_none, List.range_eq_nil] at hfirst
        exact hfirst
      subst hempty
      refine ⟨Nat.one_pos, fun j hj ↦ ?_, fun j _ _ ↦ Nat.zero_le j⟩
      rw [Nat.lt_one_iff.mp hj]
    | some first =>
      rw [hfirst] at h
      obtain ⟨hlt, hle, hties⟩ := ih hfirst
      dsimp only at h
      split_ifs at h with hmore
      · obtain rfl : n = i := Option.some.inj h
        -- the last one is larger than all before it
        refine ⟨Nat.lt_succ_self n, fun j hj ↦ ?_, fun j hj hge ↦ ?_⟩
        · rcases Nat.lt_succ_iff_lt_or_eq.mp hj with hbefore | rfl
          · exact (hle j hbefore).trans hmore.le
          · exact le_rfl
        · rcases Nat.lt_succ_iff_lt_or_eq.mp hj with hbefore | rfl
          · exact absurd ((hle j hbefore).trans_lt hmore) (not_lt.mpr hge)
          · exact le_rfl
      · obtain rfl : first = i := Option.some.inj h
        refine ⟨hlt.trans (Nat.lt_succ_self n), fun j hj ↦ ?_, fun j hj hge ↦ ?_⟩
        · rcases Nat.lt_succ_iff_lt_or_eq.mp hj with hbefore | rfl
          · exact hle j hbefore
          · exact not_lt.mp hmore
        · rcases Nat.lt_succ_iff_lt_or_eq.mp hj with hbefore | rfl
          · exact hties j hbefore hge
          · exact hlt.le

/-- The peak there would be at a place. -/
def peakAt (width : Nat) (working : Nat × Nat → Option K) (flatIndex : Nat) : Option (Peak K) :=
  (working (unravelIndex width flatIndex)).map fun response ↦
    ⟨flatIndex % width, flatIndex / width, response⟩

/-- All that is left of a surface, row by row. -/
def alive (window : PeakWindow) (working : Nat × Nat → Option K) : List (Peak K) :=
  (List.range (window.height * window.width)).filterMap (peakAt window.width working)

/-- A peak suppresses what is near it. -/
def PeakWindow.Near (window : PeakWindow) (peak other : Peak K) : Prop :=
  window.Suppresses (peak.y, peak.x) (other.y, other.x)

instance (window : PeakWindow) : DecidableRel (window.Near (K := K)) :=
  fun _ _ ↦ inferInstanceAs (Decidable (window.Suppresses _ _))

/-- The order in which peaks are found: by their response, and ties in the order of the rows. -/
def peakOrder (width : Nat) (peak : Peak K) : K ×ₗ Natᵒᵈ :=
  toLex (peak.response, OrderDual.toDual (peak.y * width + peak.x))

omit [LinearOrder K] in
theorem mem_alive {window : PeakWindow} {working : Nat × Nat → Option K} {peak : Peak K} :
    peak ∈ alive window working ↔
      (peak.y < window.height ∧ peak.x < window.width) ∧
        working (peak.y, peak.x) = some peak.response := by
  unfold alive
  rw [List.mem_filterMap]
  constructor
  · rintro ⟨flatIndex, hflat, hpeak⟩
    rw [List.mem_range] at hflat
    have hwidth : 0 < window.width := by
      by_contra hzero
      rw [Nat.eq_zero_of_not_pos hzero, Nat.mul_zero] at hflat
      exact Nat.not_lt_zero _ hflat
    obtain ⟨response, hresponse, rfl⟩ := Option.map_eq_some_iff.mp hpeak
    refine ⟨⟨?_, Nat.mod_lt _ hwidth⟩, hresponse⟩
    rw [Nat.div_lt_iff_lt_mul hwidth]
    exact hflat
  · rintro ⟨⟨hy, hx⟩, hresponse⟩
    have hdiv : (peak.y * window.width + peak.x) / window.width = peak.y := by
      rw [Nat.mul_comm, Nat.mul_add_div (Nat.zero_lt_of_lt hx), Nat.div_eq_of_lt hx, Nat.add_zero]
    have hmod : (peak.y * window.width + peak.x) % window.width = peak.x := by
      rw [Nat.mul_comm, Nat.mul_add_mod, Nat.mod_eq_of_lt hx]
    have hflat : peak.y * window.width + peak.x < window.height * window.width := by
      have hrow : (peak.y + 1) * window.width ≤ window.height * window.width :=
        Nat.mul_le_mul_right _ hy
      rw [Nat.succ_mul] at hrow
      omega
    refine ⟨_, List.mem_range.mpr hflat, ?_⟩
    rw [peakAt, unravelIndex, hdiv, hmod, hresponse]
    rfl

omit [LinearOrder K] in
/-- No place is listed twice. -/
theorem nodup_alive (window : PeakWindow) (working : Nat × Nat → Option K) :
    (alive window working).Nodup := by
  unfold alive
  refine List.Nodup.filterMap (fun i j peak hi hj ↦ ?_) List.nodup_range
  obtain ⟨_, -, rfl⟩ := Option.map_eq_some_iff.mp hi
  obtain ⟨_, -, hsame⟩ := Option.map_eq_some_iff.mp hj
  obtain ⟨hx, hy, -⟩ := (Peak.mk.injEq ..).mp hsame
  calc i = i / window.width * window.width + i % window.width := (Nat.div_add_mod' _ _).symm
    _ = j / window.width * window.width + j % window.width := by rw [hx, hy]
    _ = j := Nat.div_add_mod' _ _

omit [LinearOrder K] in
theorem peakOrder_inj {window : PeakWindow} {working : Nat × Nat → Option K} :
    ∀ peak ∈ alive window working, ∀ other ∈ alive window working,
      peakOrder window.width peak = peakOrder window.width other → peak = other := by
  intro peak hpeak other hother hsame
  obtain ⟨⟨-, hx⟩, -⟩ := mem_alive.mp hpeak
  obtain ⟨⟨-, hx'⟩, -⟩ := mem_alive.mp hother
  obtain ⟨hresponse, hflat⟩ := Prod.mk.inj (toLex.injective hsame)
  have hflat' : peak.y * window.width + peak.x = other.y * window.width + other.x :=
    OrderDual.toDual.injective hflat
  have hcolumn := congrArg (· % window.width) hflat'
  have hrow := congrArg (· / window.width) hflat'
  have hwidth := Nat.zero_lt_of_lt hx
  simp only [Nat.mul_comm _ window.width, Nat.mul_add_mod, Nat.mul_add_div hwidth,
    Nat.mod_eq_of_lt hx, Nat.mod_eq_of_lt hx', Nat.div_eq_of_lt hx, Nat.div_eq_of_lt hx',
    Nat.add_zero] at hcolumn hrow
  cases peak
  cases other
  dsimp only at hresponse hcolumn hrow
  rw [hresponse, hcolumn, hrow]

/-- The first maximum of the surface is the first of all that is left. -/
theorem alive_argmax {window : PeakWindow} {working : Nat × Nat → Option K} {flatIndex : Nat}
    {response : K}
    (h : (List.range (window.height * window.width)).argmax (fun flatIndex ↦
      level (working (unravelIndex window.width flatIndex))) = some flatIndex)
    (hresponse : working (unravelIndex window.width flatIndex) = some response) :
    (alive window working).argmax (peakOrder window.width) =
      some ⟨flatIndex % window.width, flatIndex / window.width, response⟩ := by
  obtain ⟨hlt, hle, hties⟩ := argmax_range h
  have hplace : flatIndex / window.width * window.width + flatIndex % window.width = flatIndex :=
    Nat.div_add_mod' _ _
  have hmem : (⟨flatIndex % window.width, flatIndex / window.width, response⟩ : Peak K) ∈
      alive window working := by
    unfold alive
    refine List.mem_filterMap.mpr ⟨flatIndex, List.mem_range.mpr hlt, ?_⟩
    rw [peakAt, hresponse]
    rfl
  have hstrongest : ∀ other ∈ alive window working, peakOrder window.width other ≤
      peakOrder window.width ⟨flatIndex % window.width, flatIndex / window.width, response⟩ := by
    intro other hother
    unfold alive at hother
    obtain ⟨index, hindex, hother⟩ := List.mem_filterMap.mp hother
    rw [List.mem_range] at hindex
    obtain ⟨response', hresponse', rfl⟩ := Option.map_eq_some_iff.mp hother
    have hbelow := hle index hindex
    have htie := hties index hindex
    rw [hresponse, hresponse'] at hbelow htie
    have hbelow' : response' ≤ response := WithBot.coe_le_coe.mp hbelow
    have hplace' : index / window.width * window.width + index % window.width = index :=
      Nat.div_add_mod' _ _
    unfold peakOrder
    rw [Prod.Lex.toLex_le_toLex]
    dsimp only
    rw [hplace, hplace']
    rcases hbelow'.lt_or_eq with hless | hsame
    · exact .inl hless
    · refine .inr ⟨hsame, OrderDual.toDual_le_toDual.mpr (htie ?_)⟩
      rw [hsame]
  rw [List.argmax_eq_some_iff]
  refine ⟨hmem, hstrongest, fun other hother hge ↦ ?_⟩
  rw [peakOrder_inj _ hother _ hmem (le_antisymm (hstrongest other hother) hge)]

omit [LinearOrder K] in
/-- Suppression drops what is near a peak. -/
theorem alive_suppressed (window : PeakWindow) (working : Nat × Nat → Option K) (peak : Peak K) :
    alive window (fun position ↦
        if window.Suppresses (peak.y, peak.x) position then none else working position) =
      (alive window working).filter fun other ↦ ¬ window.Near peak other := by
  unfold alive
  rw [List.filter_filterMap]
  refine List.filterMap_congr fun flatIndex _ ↦ ?_
  unfold peakAt unravelIndex
  by_cases hnear : window.Suppresses (peak.y, peak.x)
      (flatIndex / window.width, flatIndex % window.width)
  · simp only [if_pos hnear]
    cases working (flatIndex / window.width, flatIndex % window.width) with
    | none => rfl
    | some response =>
      have hdropped : window.Near peak
          ⟨flatIndex % window.width, flatIndex / window.width, response⟩ := hnear
      exact (Option.filter_some_neg (by simpa using hdropped)).symm
  · simp only [if_neg hnear]
    cases working (flatIndex / window.width, flatIndex % window.width) with
    | none => rfl
    | some response =>
      have hheld : ¬ window.Near peak
          ⟨flatIndex % window.width, flatIndex / window.width, response⟩ := hnear
      exact (Option.filter_some_pos (by simpa using hheld)).symm

/-- The loop takes maxima of what is left. -/
theorem peaksFrom_eq_peel (window : PeakWindow) (turns : Nat) (working : Nat × Nat → Option K) :
    peaksFrom window turns working =
      peel window.Near (peakOrder window.width) turns (alive window working) := by
  induction turns generalizing working with
  | zero => rfl
  | succ turns ih =>
    unfold peaksFrom peel
    cases hmax : (List.range (window.height * window.width)).argmax fun flatIndex ↦
        level (working (unravelIndex window.width flatIndex)) with
    | none =>
      have hempty : alive window working = [] := by
        rw [List.argmax_eq_none] at hmax
        rw [alive, hmax]
        rfl
      rw [hempty]
      rfl
    | some flatIndex =>
      dsimp only
      cases hresponse : working (unravelIndex window.width flatIndex) with
      | none =>
        -- the largest is not finite: nothing is
        have hempty : alive window working = [] := by
          rw [alive, List.filterMap_eq_nil_iff]
          intro index hindex
          have hle := (argmax_range hmax).2.1 index (List.mem_range.mp hindex)
          rw [hresponse] at hle
          unfold peakAt
          cases hother : working (unravelIndex window.width index) with
          | none => rfl
          | some response =>
            rw [hother] at hle
            exact absurd (WithBot.bot_lt_coe response) (not_lt.mpr hle)
        rw [hempty]
        rfl
      | some response =>
        rw [alive_argmax hmax hresponse]
        dsimp only
        rw [ih, ← alive_suppressed]
        rfl

/-- **Separated maxima.**  Every peak is a sample of the surface, no stronger than those before it
and in the window of none of them; every other sample is in the window of a peak that is as strong,
or came behind as many peaks as were asked for. -/
theorem cyclicNmsPeaks_separated {K : Type} [LinearOrder K] {surface : Nat × Nat → Option K}
    {maximum : Nat} {window : PeakWindow} {peaks : List (Peak K)}
    (h : cyclicNmsPeaks surface maximum window = .ok peaks) :
    peaks.length ≤ maximum ∧
      (∀ peak ∈ peaks, (peak.y < window.height ∧ peak.x < window.width) ∧
        surface (peak.y, peak.x) = some peak.response) ∧
      peaks.Pairwise (fun peak later ↦ later.response ≤ peak.response ∧
        ¬ window.Suppresses (peak.y, peak.x) (later.y, later.x)) ∧
      ∀ y < window.height, ∀ x < window.width, ∀ response, surface (y, x) = some response →
        (∃ peak ∈ peaks, response ≤ peak.response ∧ window.Suppresses (peak.y, peak.x) (y, x)) ∨
          peaks.length = maximum ∧ ∀ peak ∈ peaks, response ≤ peak.response := by
  unfold cyclicNmsPeaks at h
  have hrefl : ∀ peak : Peak K, window.Near peak peak := by
    intro peak
    unfold PeakWindow.Near PeakWindow.Suppresses cyclicDistance
    dsimp only
    omega
  split_ifs at h with hnone
  · obtain rfl := Except.ok.inj h
    exact ⟨Nat.zero_le _, fun _ hpeak ↦ absurd hpeak List.not_mem_nil, List.Pairwise.nil,
      fun _ _ _ _ _ _ ↦ .inr ⟨hnone.symm, fun _ hpeak ↦ absurd hpeak List.not_mem_nil⟩⟩
  · simp only [bind_eq_ok, exists_unit, pure_eq_ok] at h
    obtain ⟨-, rfl⟩ := h
    rw [peaksFrom_eq_peel]
    obtain ⟨order, hperm, hsorted, hkept⟩ := peel_kept hrefl (nodup_alive window surface) peakOrder_inj
      (Nat.pos_of_ne_zero hnone)
    have hweaker : ∀ peak other : Peak K,
        peakOrder window.width other < peakOrder window.width peak →
          other.response ≤ peak.response := by
      intro peak other hlt
      rcases (Prod.Lex.toLex_lt_toLex.mp hlt) with hless | ⟨hsame, -⟩
      · exact hless.le
      · exact hsame.le
    have hmem : ∀ peak ∈ peel window.Near (peakOrder window.width) maximum (alive window surface),
        peak ∈ alive window surface :=
      fun peak hpeak ↦ hperm.mem_iff.mp (hkept.sublist.subset hpeak)
    refine ⟨hkept.length_le, fun peak hpeak ↦ mem_alive.mp (hmem peak hpeak), ?_,
      fun y hy x hx response hresponse ↦ ?_⟩
    · refine ((hsorted.sublist hkept.sublist).and hkept.apart).imp ?_
      rintro peak later ⟨hlt, hapart⟩
      exact ⟨hweaker _ _ hlt, hapart⟩
    · have hsample : (⟨x, y, response⟩ : Peak K) ∈ order :=
        hperm.mem_iff.mpr (mem_alive.mpr ⟨⟨hy, hx⟩, hresponse⟩)
      rcases hkept.covers _ hsample with hpeak | ⟨peak, hpeak, hnear, hlt⟩ | ⟨hfull, hlt⟩
      · exact .inl ⟨_, hpeak, le_rfl, hrefl _⟩
      · exact .inl ⟨peak, hpeak, hweaker _ _ hlt, hnear⟩
      · exact .inr ⟨hfull, fun peak hpeak ↦ hweaker _ _ (hlt peak hpeak)⟩

/-- A surface whose strongest sample lies in a corner; the next, in the opposite one, is near it. -/
def cornerSurface (position : Nat × Nat) : Option Int :=
  if position = (0, 0) then some 100
  else if position = (3, 3) then some 90
  else if position = (1, 1) then none
  else some (4 * position.1 + position.2)

def cornerWindow : PeakWindow := ⟨4, 4, 1, 1⟩

theorem cornerSurface_separated :
    [(⟨0, 0, 100⟩ : Peak Int), ⟨2, 3, 14⟩, ⟨0, 2, 8⟩].Pairwise fun peak later ↦
      later.response ≤ peak.response ∧
        ¬ cornerWindow.Suppresses (peak.y, peak.x) (later.y, later.x) := by
  have hpeaks : cyclicNmsPeaks cornerSurface 3 cornerWindow =
      .ok [⟨0, 0, 100⟩, ⟨2, 3, 14⟩, ⟨0, 2, 8⟩] := by decide
  exact (cyclicNmsPeaks_separated hpeaks).2.2.1

/-! ### Moving a surface around its edges -/

/-- A position moved around the edges. -/
def PeakWindow.move (window : PeakWindow) (dy dx : Nat) (position : Nat × Nat) : Nat × Nat :=
  ((position.1 + dy) % window.height, (position.2 + dx) % window.width)

def PeakWindow.movePeak (window : PeakWindow) (dy dx : Nat) (peak : Peak K) : Peak K :=
  ⟨(peak.x + dx) % window.width, (peak.y + dy) % window.height, peak.response⟩

/-- Distances do not change when both coordinates move around a period. -/
theorem cyclicDistance_move {period a b : Nat} (ha : a < period) (hb : b < period) (d : Nat) :
    cyclicDistance period ((a + d) % period) ((b + d) % period) = cyclicDistance period a b := by
  have hpos : 0 < period := Nat.zero_lt_of_lt ha
  have hlt := Nat.mod_lt d hpos
  -- a coordinate passes the edge once or not at all
  have hmove : ∀ c < period, (c + d) % period =
      if c + d % period < period then c + d % period else c + d % period - period := by
    intro c hc
    rw [Nat.add_mod, Nat.mod_eq_of_lt hc]
    split_ifs with hinside
    · exact Nat.mod_eq_of_lt hinside
    · rw [Nat.mod_eq_sub_mod (by omega), Nat.mod_eq_of_lt (by omega)]
  rw [hmove a ha, hmove b hb]
  unfold cyclicDistance
  dsimp only
  split_ifs <;> omega

omit [LinearOrder K] in
theorem near_movePeak {window : PeakWindow} {working : Nat × Nat → Option K} {dy dx : Nat}
    {peak other : Peak K} (hpeak : peak ∈ alive window working) (hother : other ∈ alive window working) :
    window.Near (window.movePeak dy dx peak) (window.movePeak dy dx other) ↔
      window.Near peak other := by
  obtain ⟨⟨hy, hx⟩, -⟩ := mem_alive.mp hpeak
  obtain ⟨⟨hy', hx'⟩, -⟩ := mem_alive.mp hother
  unfold PeakWindow.Near PeakWindow.Suppresses PeakWindow.movePeak
  dsimp only
  rw [cyclicDistance_move hy hy', cyclicDistance_move hx hx']

omit [LinearOrder K] in
/-- What is left of a moved surface is what is left of the surface, moved. -/
theorem alive_moved (window : PeakWindow) (dy dx : Nat) (surface : Nat × Nat → Option K) :
    ((alive window fun position ↦ surface (window.move dy dx position)).map
      (window.movePeak dy dx)).Perm (alive window surface) := by
  -- every coordinate is reached from one before the edge
  have hback : ∀ period c d : Nat, c < period →
      (((c + (period - d % period)) % period) + d) % period = c := by
    intro period c d hc
    have hlt := Nat.mod_lt d (Nat.zero_lt_of_lt hc)
    have hwhole : c + (period - d % period) + d % period = c + period := by omega
    rw [Nat.mod_add_mod, ← Nat.add_mod_mod, hwhole, Nat.add_mod_right, Nat.mod_eq_of_lt hc]
  have hmoves : ∀ period a b d : Nat, a < period → b < period →
      (a + d) % period = (b + d) % period → a = b := by
    intro period a b d ha hb hsame
    have hcancel : a ≡ b [MOD period] := Nat.ModEq.add_right_cancel' d hsame
    exact hcancel.eq_of_lt_of_lt ha hb
  rw [List.perm_ext_iff_of_nodup ?_ (nodup_alive window surface)]
  · intro peak
    rw [List.mem_map, mem_alive]
    constructor
    · rintro ⟨moved, hmoved, rfl⟩
      obtain ⟨⟨hy, hx⟩, hresponse⟩ := mem_alive.mp hmoved
      exact ⟨⟨Nat.mod_lt _ (Nat.zero_lt_of_lt hy), Nat.mod_lt _ (Nat.zero_lt_of_lt hx)⟩, hresponse⟩
    · rintro ⟨⟨hy, hx⟩, hresponse⟩
      refine ⟨⟨(peak.x + (window.width - dx % window.width)) % window.width,
        (peak.y + (window.height - dy % window.height)) % window.height, peak.response⟩, ?_, ?_⟩
      · refine mem_alive.mpr ⟨⟨Nat.mod_lt _ (Nat.zero_lt_of_lt hy),
          Nat.mod_lt _ (Nat.zero_lt_of_lt hx)⟩, ?_⟩
        unfold PeakWindow.move
        dsimp only
        rw [hback _ _ _ hy, hback _ _ _ hx]
        exact hresponse
      · unfold PeakWindow.movePeak
        dsimp only
        rw [hback _ _ _ hy, hback _ _ _ hx]
  · refine (nodup_alive _ _).map_on fun peak hpeak other hother hsame ↦ ?_
    obtain ⟨⟨hy, hx⟩, -⟩ := mem_alive.mp hpeak
    obtain ⟨⟨hy', hx'⟩, -⟩ := mem_alive.mp hother
    obtain ⟨hcolumn, hrow, hresponse⟩ := (Peak.mk.injEq ..).mp hsame
    cases peak
    cases other
    dsimp only at hy hx hy' hx' hresponse
    rw [hmoves _ _ _ _ hx hx' hcolumn, hmoves _ _ _ _ hy hy' hrow, hresponse]

/-- Elements with different responses can be put in the order of their strength. -/
theorem exists_sorted {peaks : List (Peak K)} (hdistinct : (peaks.map Peak.response).Nodup) :
    ∃ order : List (Peak K), order.Perm peaks ∧
      order.Pairwise fun peak later ↦ later.response < peak.response := by
  have htrans : ∀ a b c : Peak K, decide (b.response ≤ a.response) = true →
      decide (c.response ≤ b.response) = true → decide (c.response ≤ a.response) = true := by
    intro a b c hab hbc
    rw [decide_eq_true_eq] at hab hbc ⊢
    exact hbc.trans hab
  have htotal : ∀ a b : Peak K,
      (decide (b.response ≤ a.response) || decide (a.response ≤ b.response)) = true := by
    intro a b
    rw [Bool.or_eq_true, decide_eq_true_eq, decide_eq_true_eq]
    exact le_total _ _
  have hperm := List.mergeSort_perm peaks fun a b ↦ decide (b.response ≤ a.response)
  have hnodup := (hperm.map Peak.response).nodup_iff.mpr hdistinct
  rw [List.Nodup, List.pairwise_map] at hnodup
  refine ⟨_, hperm, ((List.pairwise_mergeSort htrans htotal peaks).and hnodup).imp ?_⟩
  rintro a b ⟨hle, hne⟩
  exact lt_of_le_of_ne (of_decide_eq_true hle) (Ne.symm hne)

/-- Peaks are found in the order of their strength. -/
theorem peaksFrom_eq_scan {window : PeakWindow} {maximum : Nat} (hmaximum : 0 < maximum)
    {working : Nat × Nat → Option K} {order : List (Peak K)}
    (hperm : order.Perm (alive window working))
    (hsorted : order.Pairwise fun peak later ↦ later.response < peak.response) :
    peaksFrom window maximum working = scan window.Near maximum order := by
  rw [peaksFrom_eq_peel]
  apply peel_eq_scan
  · intro peak
    unfold PeakWindow.Near PeakWindow.Suppresses cyclicDistance
    dsimp only
    omega
  · exact hperm
  · exact hsorted.imp fun hlt ↦ Prod.Lex.toLex_lt_toLex.mpr (.inl hlt)
  · exact hmaximum

/-- **Edges are adjacent.**  Moving a surface without ties around its edges moves its peaks, and
changes neither their number nor their order. -/
theorem cyclicNmsPeaks_moved {K : Type} [LinearOrder K] {surface : Nat × Nat → Option K}
    {maximum : Nat} {window : PeakWindow}
    (hdistinct : ((alive window surface).map Peak.response).Nodup) (dy dx : Nat) :
    cyclicNmsPeaks surface maximum window =
      (cyclicNmsPeaks (fun position ↦ surface (window.move dy dx position)) maximum window).map
        (List.map (window.movePeak dy dx)) := by
  unfold cyclicNmsPeaks
  by_cases hnone : maximum = 0
  · rw [if_pos hnone, if_pos hnone]
    rfl
  rw [if_neg hnone, if_neg hnone]
  by_cases hempty : window.height * window.width = 0
  · rw [raiseIf_pos hempty]
    rfl
  rw [raiseIf_neg hempty, ok_bind, ok_bind]
  have hmaximum : 0 < maximum := Nat.pos_of_ne_zero hnone
  have hmoved := alive_moved window dy dx surface
  have hresponses : ((alive window fun position ↦
      surface (window.move dy dx position)).map Peak.response).Nodup := by
    have hsame := (hmoved.map Peak.response).nodup_iff.mpr hdistinct
    rw [List.map_map] at hsame
    exact hsame
  obtain ⟨order, hperm, hsorted⟩ := exists_sorted hresponses
  have hsorted' : (order.map (window.movePeak dy dx)).Pairwise fun peak later ↦
      later.response < peak.response := by
    rw [List.pairwise_map]
    exact hsorted
  have hscan : scan window.Near maximum (order.map (window.movePeak dy dx)) =
      (scan window.Near maximum order).map (window.movePeak dy dx) := by
    apply scan_map
    intro peak hpeak other hother
    exact near_movePeak (hperm.mem_iff.mp hpeak) (hperm.mem_iff.mp hother)
  rw [peaksFrom_eq_scan hmaximum ((hperm.map _).trans hmoved) hsorted', hscan,
    peaksFrom_eq_scan hmaximum hperm hsorted]
  rfl

theorem cornerSurface_moved :
    cyclicNmsPeaks cornerSurface 3 cornerWindow =
      (cyclicNmsPeaks (fun position ↦ cornerSurface (cornerWindow.move 1 2 position)) 3
        cornerWindow).map (List.map (cornerWindow.movePeak 1 2)) :=
  cyclicNmsPeaks_moved (by decide) 1 2

end Peaks

end Splitbind
