import Splitbind.Fingerprint.CenterCrop
import Splitbind.Fingerprint.PageAlignment
import Splitbind.Library.Extent

/-!
# Frame restore — the page inside a uniform border

A viewer shows a page in a frame.  The frame's level is read at the corners, what differs from it is
the page, and the least rectangle around all that differs is cut out and resized to the canvas.
-/

namespace Splitbind

open Transaction Extent

/-! ## 1. Bounds -/

/-- `cv2.INTER_AREA` and `cv2.INTER_CUBIC`. -/
inductive Interpolation
  | area
  | cubic
deriving DecidableEq, Repr

/-- A pixel by `cv2.COLOR_BGR2GRAY`, and `cv2.resize` to a height and a width. -/
structure FrameTools where
  gray : Bgr → UInt8
  resize : Interpolation → Image Bgr → Nat × Nat → Except ToolRaised (Image Bgr)

/-- The grey level of a sample, as the signed integer it is compared as. -/
def grayLevel (gray : Bgr → UInt8) (page : Image Bgr) (y x : Nat) : Int :=
  ((gray (page.pixel y x)).toNat : Nat)

/-- A rectangle of a page. -/
structure ContentBounds where
  top : Nat
  left : Nat
  height : Nat
  width : Nat
deriving DecidableEq, Repr

def wholePage (page : Image Bgr) : ContentBounds := ⟨0, 0, page.height, page.width⟩

def cornerPositions (page : Image Bgr) : List (Nat × Nat) :=
  [(0, 0), (0, page.width - 1), (page.height - 1, 0), (page.height - 1, page.width - 1)]

/-- `int(np.median(corners))`: the mean of the two in the middle, rounded towards zero. -/
def medianLevel (levels : List Int) : Int :=
  let sorted := levels.insertionSort (· ≤ ·)
  (sorted.getD 1 0 + sorted.getD 2 0) / 2

def cornerLevels (gray : Bgr → UInt8) (page : Image Bgr) : List Int :=
  (cornerPositions page).map fun corner ↦ grayLevel gray page corner.1 corner.2

/-- A sample that is not of the border. -/
def differs (gray : Bgr → UInt8) (page : Image Bgr) (tolerance border : Int) (y x : Nat) : Bool :=
  tolerance < |grayLevel gray page y x - border|

/-- The first and the last of the rows where some sample differs, and the same of the columns. -/
def contentRows (gray : Bgr → UInt8) (page : Image Bgr) (tolerance border : Int) :
    Option (Nat × Nat) :=
  extent (fun y ↦ (List.range page.width).any (differs gray page tolerance border y ·)) page.height

def contentColumns (gray : Bgr → UInt8) (page : Image Bgr) (tolerance border : Int) :
    Option (Nat × Nat) :=
  extent (fun x ↦ (List.range page.height).any (differs gray page tolerance border · x)) page.width

/-- `content_bounds`; `MIN_CONTENT_FRACTION` is one fifth. -/
def contentBounds (gray : Bgr → UInt8) (page : Image Bgr) (tolerance : Int) : ContentBounds :=
  if page.height = 0 ∨ page.width = 0 then wholePage page
  else
    let corners := cornerLevels gray page
    if tolerance < corners.max?.getD 0 - corners.min?.getD 0 then wholePage page
    else
      let border := medianLevel corners
      match contentRows gray page tolerance border, contentColumns gray page tolerance border with
      | some rows, some columns =>
        let contentHeight := rows.2 + 1 - rows.1
        let contentWidth := columns.2 + 1 - columns.1
        if (contentHeight : ℚ) < 1 / 5 * page.height ∨ (contentWidth : ℚ) < 1 / 5 * page.width then
          wholePage page
        else ⟨rows.1, columns.1, contentHeight, contentWidth⟩
      | _, _ => wholePage page

/-! ## 2. Restoring -/

section Restore

variable {K : Type} [Field K]

structure RestoredFrame (K : Type) where
  image : Image Bgr
  sourceToCanonical : Homography K
  bounds : ContentBounds
  trimmed : Bool

/-- The matrix that takes a rectangle of the page to the canvas, about the centres of the pixels. -/
def restoreMatrix (bounds : ContentBounds) (canonicalShape : Nat × Nat) : Homography K :=
  let scaleY : K := canonicalShape.1 / bounds.height
  let scaleX : K := canonicalShape.2 / bounds.width
  fun row column ↦ match row, column with
    | 0, 0 => scaleX
    | 0, 2 => -bounds.left * scaleX + (scaleX - 1) / ((2 : Nat) : K)
    | 1, 1 => scaleY
    | 1, 2 => -bounds.top * scaleY + (scaleY - 1) / ((2 : Nat) : K)
    | 2, 2 => 1
    | _, _ => 0

/-- `restore_frame`. -/
def restoreFrame (tools : FrameTools) (interpolation : Interpolation) (tolerance : Int)
    (page : Image Bgr) (canonicalShape : Nat × Nat) :
    Except ToolRaised (Option (RestoredFrame K)) := do
  if canonicalShape.1 = 0 ∨ canonicalShape.2 = 0 then return none
  let bounds := contentBounds tools.gray page tolerance
  if bounds.height = 0 ∨ bounds.width = 0 then return none
  let trimmed := bounds ≠ wholePage page
  if ¬ trimmed ∧ (page.height, page.width) = canonicalShape then return none
  let content := page.slice bounds.top bounds.left bounds.height bounds.width
  let restored ← tools.resize interpolation content canonicalShape
  return some ⟨restored, restoreMatrix bounds canonicalShape, bounds, decide trimmed⟩

end Restore

/-! ## 3. The level of a frame -/

theorem mem_range_bounds {levels : List Int} {low high : Int} (hne : levels ≠ [])
    (h : ∀ level ∈ levels, low ≤ level ∧ level ≤ high) :
    levels.max?.getD 0 - levels.min?.getD 0 ≤ high - low := by
  obtain ⟨most, hmost⟩ := Option.isSome_iff_exists.mp (List.isSome_max?_of_ne_nil hne)
  obtain ⟨least, hleast⟩ := Option.isSome_iff_exists.mp (List.isSome_min?_of_ne_nil hne)
  rw [hmost, hleast, Option.getD_some, Option.getD_some]
  have hmost' := (h most (List.max?_mem hmost)).2
  have hleast' := (h least (List.min?_mem hleast)).1
  omega

/-- The median of four levels is no further out than they are. -/
theorem medianLevel_bounds {levels : List Int} {low high : Int} (hfour : levels.length = 4)
    (h : ∀ level ∈ levels, low ≤ level ∧ level ≤ high) :
    low ≤ medianLevel levels ∧ medianLevel levels ≤ high := by
  have hlength : (levels.insertionSort (· ≤ ·)).length = 4 := by
    rw [List.length_insertionSort, hfour]
  have hmiddle : ∀ i < 4, low ≤ (levels.insertionSort (· ≤ ·)).getD i 0 ∧
      (levels.insertionSort (· ≤ ·)).getD i 0 ≤ high := by
    intro i hi
    have hlt : i < (levels.insertionSort (· ≤ ·)).length := by omega
    rw [List.getD_eq_getElem _ _ hlt]
    exact h _ ((List.mem_insertionSort _).mp (List.getElem_mem hlt))
  have hone := hmiddle 1 (by decide)
  have htwo := hmiddle 2 (by decide)
  unfold medianLevel
  dsimp only
  omega

/-! ## 4. The least rectangle -/

/-- A position outside a rectangle. -/
def ContentBounds.Outside (bounds : ContentBounds) (y x : Nat) : Prop :=
  y < bounds.top ∨ bounds.top + bounds.height ≤ y ∨ x < bounds.left ∨
    bounds.left + bounds.width ≤ x

instance (bounds : ContentBounds) (y x : Nat) : Decidable (bounds.Outside y x) :=
  inferInstanceAs (Decidable (_ ∨ _))

/-- A page that shows some content in a frame, up to some noise of the frame. -/
structure Framed (gray : Bgr → UInt8) (received content : Image Bgr) (top left : Nat)
    (border noise : Int) : Prop where
  height : top + content.height ≤ received.height
  width : left + content.width ≤ received.width
  shows : ∀ y < content.height, ∀ x < content.width,
    received.pixel (top + y) (left + x) = content.pixel y x
  frame : ∀ y < received.height, ∀ x < received.width,
    (ContentBounds.mk top left content.height content.width).Outside y x →
      |grayLevel gray received y x - border| ≤ noise
  corners : ∀ corner ∈ cornerPositions received,
    (ContentBounds.mk top left content.height content.width).Outside corner.1 corner.2

/-- Each side of the content differs somewhere from the border by more than a threshold. -/
structure Edged (gray : Bgr → UInt8) (content : Image Bgr) (border threshold : Int) : Prop where
  top : ∃ x < content.width, threshold < |grayLevel gray content 0 x - border|
  bottom : ∃ x < content.width,
    threshold < |grayLevel gray content (content.height - 1) x - border|
  left : ∃ y < content.height, threshold < |grayLevel gray content y 0 - border|
  right : ∃ y < content.height,
    threshold < |grayLevel gray content y (content.width - 1) - border|

section Framed

variable {gray : Bgr → UInt8} {received content : Image Bgr} {top left : Nat}
  {border noise tolerance : Int}

/-- The corners are alike, and the level that they say is near the border. -/
theorem Framed.median (h : Framed gray received content top left border noise)
    (hheight : 0 < received.height) (hwidth : 0 < received.width) :
    (cornerLevels gray received).max?.getD 0 - (cornerLevels gray received).min?.getD 0 ≤
        2 * noise ∧
      |medianLevel (cornerLevels gray received) - border| ≤ noise := by
  have hlevels : ∀ level ∈ cornerLevels gray received,
      border - noise ≤ level ∧ level ≤ border + noise := by
    intro level hlevel
    obtain ⟨corner, hcorner, rfl⟩ := List.mem_map.mp hlevel
    have hinside : corner.1 < received.height ∧ corner.2 < received.width := by
      simp only [cornerPositions, List.mem_cons, List.not_mem_nil, or_false] at hcorner
      rcases hcorner with rfl | rfl | rfl | rfl <;> dsimp only <;> omega
    have hnear := abs_le.mp (h.frame _ hinside.1 _ hinside.2 (h.corners corner hcorner))
    omega
  have hspread := mem_range_bounds (List.cons_ne_nil _ _) hlevels
  have hmedian := medianLevel_bounds rfl hlevels
  constructor
  · exact hspread.trans (by omega)
  · rw [abs_le]
    omega

variable {median : Int}

/-- What differs from the level of the corners lies in the content. -/
theorem Framed.differs_inside (h : Framed gray received content top left border noise)
    (hnoise : 2 * noise ≤ tolerance) (hmedian : |median - border| ≤ noise) {y x : Nat}
    (hy : y < received.height) (hx : x < received.width)
    (hdiffers : differs gray received tolerance median y x = true) :
    (top ≤ y ∧ y < top + content.height) ∧ left ≤ x ∧ x < left + content.width := by
  by_contra houtside
  have hframe : (ContentBounds.mk top left content.height content.width).Outside y x := by
    unfold ContentBounds.Outside
    dsimp only
    omega
  have hnear := abs_le.mp (h.frame y hy x hx hframe)
  have hmiddle := abs_le.mp hmedian
  have hfar := of_decide_eq_true hdiffers
  rw [lt_abs] at hfar
  omega

/-- What stands out in the content differs on the page. -/
theorem Framed.differs_shown (h : Framed gray received content top left border noise)
    (hmedian : |median - border| ≤ noise) {y x : Nat} (hy : y < content.height)
    (hx : x < content.width) (hfar : tolerance + noise < |grayLevel gray content y x - border|) :
    differs gray received tolerance median (top + y) (left + x) = true := by
  have hsame : grayLevel gray received (top + y) (left + x) = grayLevel gray content y x := by
    unfold grayLevel
    rw [h.shows y hy x hx]
  have hmiddle := abs_le.mp hmedian
  unfold differs
  rw [hsame]
  apply decide_eq_true
  rw [lt_abs] at hfar ⊢
  omega

theorem Framed.rows (h : Framed gray received content top left border noise)
    (hnoise : 2 * noise ≤ tolerance) (hmedian : |median - border| ≤ noise)
    (hedged : Edged gray content border (tolerance + noise)) :
    contentRows gray received tolerance median = some (top, top + (content.height - 1)) := by
  obtain ⟨first, hfirst, hfirstInk⟩ := hedged.top
  obtain ⟨last, hlast, hlastInk⟩ := hedged.bottom
  obtain ⟨row, hrow, -⟩ := hedged.left
  have hheight := h.height
  have hwidth := h.width
  unfold contentRows
  rw [extent_eq_some]
  refine ⟨⟨Nat.le_add_right _ _, by omega⟩, ⟨?_, ?_⟩, ?_⟩
  · have hink := h.differs_shown hmedian (Nat.zero_lt_of_lt hrow) hfirst hfirstInk
    rw [Nat.add_zero] at hink
    exact List.any_eq_true.mpr ⟨left + first, List.mem_range.mpr (by omega), hink⟩
  · have hink := h.differs_shown hmedian (by omega) hlast hlastInk
    exact List.any_eq_true.mpr ⟨left + last, List.mem_range.mpr (by omega), hink⟩
  · intro y hy hany
    obtain ⟨x, hx, hdiffers⟩ := List.any_eq_true.mp hany
    have hinside := h.differs_inside hnoise hmedian hy (List.mem_range.mp hx) hdiffers
    omega

theorem Framed.columns (h : Framed gray received content top left border noise)
    (hnoise : 2 * noise ≤ tolerance) (hmedian : |median - border| ≤ noise)
    (hedged : Edged gray content border (tolerance + noise)) :
    contentColumns gray received tolerance median = some (left, left + (content.width - 1)) := by
  obtain ⟨first, hfirst, hfirstInk⟩ := hedged.left
  obtain ⟨last, hlast, hlastInk⟩ := hedged.right
  obtain ⟨column, hcolumn, -⟩ := hedged.top
  have hheight := h.height
  have hwidth := h.width
  unfold contentColumns
  rw [extent_eq_some]
  refine ⟨⟨Nat.le_add_right _ _, by omega⟩, ⟨?_, ?_⟩, ?_⟩
  · have hink := h.differs_shown hmedian hfirst (Nat.zero_lt_of_lt hcolumn) hfirstInk
    rw [Nat.add_zero] at hink
    exact List.any_eq_true.mpr ⟨top + first, List.mem_range.mpr (by omega), hink⟩
  · have hink := h.differs_shown hmedian hlast (by omega) hlastInk
    exact List.any_eq_true.mpr ⟨top + last, List.mem_range.mpr (by omega), hink⟩
  · intro x hx hany
    obtain ⟨y, hy, hdiffers⟩ := List.any_eq_true.mp hany
    have hinside := h.differs_inside hnoise hmedian (List.mem_range.mp hy) hx hdiffers
    omega

/-- If the frame is within half the tolerance of one level and every side of the content stands out
from it, the bounds of the page are those of the content. -/
theorem contentBounds_framed (h : Framed gray received content top left border noise)
    (hnoise : 2 * noise ≤ tolerance) (hedged : Edged gray content border (tolerance + noise))
    (htall : received.height ≤ 5 * content.height) (hwide : received.width ≤ 5 * content.width) :
    contentBounds gray received tolerance = ⟨top, left, content.height, content.width⟩ := by
  obtain ⟨row, hrow, -⟩ := hedged.left
  obtain ⟨column, hcolumn, -⟩ := hedged.top
  have hheight := h.height
  have hwidth := h.width
  obtain ⟨hspread, hmedian⟩ := h.median (by omega) (by omega)
  have hrows : top + (content.height - 1) + 1 - top = content.height := by omega
  have hcolumns : left + (content.width - 1) + 1 - left = content.width := by omega
  unfold contentBounds
  rw [if_neg (by omega)]
  dsimp only
  rw [if_neg (not_lt.mpr (hspread.trans hnoise)), h.rows hnoise hmedian hedged,
    h.columns hnoise hmedian hedged]
  dsimp only
  rw [hrows, hcolumns, if_neg]
  have htall' : ((received.height : Nat) : ℚ) ≤ 5 * content.height := by exact_mod_cast htall
  have hwide' : ((received.width : Nat) : ℚ) ≤ 5 * content.width := by exact_mod_cast hwide
  rw [not_or, not_lt, not_lt]
  constructor <;> linarith

/-! ## 5. The page again -/

/-- **A framed page is restored.**  What is resized to the canvas shows the content and nothing of the
frame, and the matrix is that of its rectangle. -/
theorem framed_page_restored {K : Type} [Field K] {tools : FrameTools} {interpolation : Interpolation}
    {canonicalShape : Nat × Nat}
    (h : Framed tools.gray received content top left border noise)
    (hnoise : 2 * noise ≤ tolerance) (hedged : Edged tools.gray content border (tolerance + noise))
    (htall : received.height ≤ 5 * content.height) (hwide : received.width ≤ 5 * content.width)
    (hcanvas : 0 < canonicalShape.1 ∧ 0 < canonicalShape.2) :
    ∃ cut : Image Bgr, (cut.height, cut.width) = (content.height, content.width) ∧
      (∀ y < content.height, ∀ x < content.width, cut.pixel y x = content.pixel y x) ∧
      restoreFrame (K := K) tools interpolation tolerance received canonicalShape =
        (tools.resize interpolation cut canonicalShape).map fun image ↦
          some ⟨image, restoreMatrix ⟨top, left, content.height, content.width⟩ canonicalShape,
            ⟨top, left, content.height, content.width⟩, true⟩ := by
  have hbounds := contentBounds_framed h hnoise hedged htall hwide
  obtain ⟨row, hrow, -⟩ := hedged.left
  obtain ⟨column, hcolumn, -⟩ := hedged.top
  have hheight := h.height
  have hwidth := h.width
  refine ⟨received.slice top left content.height content.width, ?_, h.shows, ?_⟩
  · show (min content.height (received.height - top), min content.width (received.width - left)) = _
    rw [min_eq_left (by omega), min_eq_left (by omega)]
  · -- the first corner is outside, so the content is not the whole page
    have htrimmed : (⟨top, left, content.height, content.width⟩ : ContentBounds) ≠
        wholePage received := by
      intro hwhole
      have hcorner := h.corners (0, 0) List.mem_cons_self
      rw [hwhole] at hcorner
      unfold ContentBounds.Outside wholePage at hcorner
      dsimp only at hcorner
      omega
    unfold restoreFrame
    rw [if_neg (by omega), hbounds]
    dsimp only
    rw [if_neg (by omega), if_neg (fun hboth ↦ hboth.1 htrimmed)]
    cases tools.resize interpolation
      (received.slice top left content.height content.width) canonicalShape with
    | error error => rfl
    | ok image =>
      rw [decide_eq_true htrimmed]
      rfl

/-- The first channel is the grey level, and a resize shows the nearest sample. -/
def nearestTools : FrameTools where
  gray := fun pixel ↦ pixel (Fin.last 2)
  resize := fun _ image shape ↦ .ok ⟨shape.1, shape.2, fun y x ↦
    image.pixel (y * image.height / shape.1) (x * image.width / shape.2)⟩

def inkedPage : Image Bgr := ⟨2, 2, fun _ _ _ ↦ 0⟩

/-- The page in a frame of which one row is a little brighter. -/
def framedPage : Image Bgr :=
  ⟨4, 4, fun y x _ ↦ if (1 ≤ y ∧ y ≤ 2) ∧ 1 ≤ x ∧ x ≤ 2 then 0 else if y = 0 then 129 else 128⟩

theorem framedPage_restored : ∃ cut : Image Bgr, (cut.height, cut.width) = (2, 2) ∧
    (∀ y < 2, ∀ x < 2, cut.pixel y x = inkedPage.pixel y x) ∧
    restoreFrame (K := ℚ) nearestTools .cubic 6 framedPage (8, 8) =
      (nearestTools.resize .cubic cut (8, 8)).map fun image ↦
        some ⟨image, restoreMatrix ⟨1, 1, 2, 2⟩ (8, 8), ⟨1, 1, 2, 2⟩, true⟩ := by
  have hframed : Framed nearestTools.gray framedPage inkedPage 1 1 128 1 :=
    { height := by decide, width := by decide, shows := by decide +kernel
      frame := by decide +kernel, corners := by decide }
  have hedged : Edged nearestTools.gray inkedPage 128 (6 + 1) :=
    { top := ⟨0, by decide, by decide⟩, bottom := ⟨0, by decide, by decide⟩
      left := ⟨0, by decide, by decide⟩, right := ⟨0, by decide, by decide⟩ }
  exact framed_page_restored hframed (by decide) hedged (by decide) (by decide) (by decide)

end Framed

end Splitbind
