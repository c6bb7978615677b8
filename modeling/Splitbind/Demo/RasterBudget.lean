import Mathlib.Algebra.Order.BigOperators.Group.List
import Splitbind.Demo.IssuanceEvidence
import Splitbind.Library.Decimal
import Splitbind.Library.Transaction

/-!
# Raster budgets — the pages an issuance writes and a verification reads

Both workers bound the pixels their document is rendered to.  Issuance charges at least the canvas
for a page and writes its size with six decimals; verification renders the size it reads.  Sizes
are exact.
-/

namespace Splitbind

open Transaction

/-! ## 1. Limits and the loop over pages -/

/-- The limits of the deployment that concern pages and images. -/
structure RasterLimits where
  maxPdfPages : Nat
  maxImagePixels : Nat
  maxDocumentRasterPixels : Nat
deriving DecidableEq, Repr

/-- What a worker raises, and the pixels it charges for a page of a size at a scale. -/
structure RasterPolicy where
  invalid : Raised
  overLimit : Raised
  pixels : (width height scale : ℚ) → ℤ

/-- The loop of the raster budgets: a page without a positive size is invalid, and the pixels add
up to the limit at most. -/
def rasterBudget (policy : RasterPolicy) (limit : Nat) : ℤ → List ((ℚ × ℚ) × ℚ) → Except Raised Unit
  | _, [] => .ok ()
  | cumulative, ((width, height), scale) :: pages => do
    raiseIf (¬ (0 < width ∧ 0 < height)) policy.invalid
    let cumulative := cumulative + policy.pixels width height scale
    raiseIf ((limit : ℤ) < cumulative) policy.overLimit
    rasterBudget policy limit cumulative pages

/-- The pages that can be rendered within the limit are those of positive sizes whose pixels add up
to it. -/
theorem rasterBudget_eq_ok {policy : RasterPolicy} {limit : Nat} {cumulative : ℤ}
    {pages : List ((ℚ × ℚ) × ℚ)}
    (hpixels : ∀ page ∈ pages, 0 < page.1.1 → 0 < page.1.2 →
      0 ≤ policy.pixels page.1.1 page.1.2 page.2)
    (hlimit : cumulative ≤ limit) :
    rasterBudget policy limit cumulative pages = .ok () ↔
      (∀ page ∈ pages, 0 < page.1.1 ∧ 0 < page.1.2) ∧
        cumulative + (pages.map fun page ↦ policy.pixels page.1.1 page.1.2 page.2).sum ≤ limit := by
  induction pages generalizing cumulative with
  | nil => simp [rasterBudget, hlimit]
  | cons page pages ih =>
    obtain ⟨⟨width, height⟩, scale⟩ := page
    have hrest := fun page hmem ↦ hpixels page (List.mem_cons_of_mem _ hmem)
    simp only [rasterBudget, bind_eq_ok, exists_unit, raiseIf_eq_ok, not_not, not_lt, List.map_cons,
      List.sum_cons, ← add_assoc, List.forall_mem_cons]
    constructor
    · rintro ⟨hsize, hle, h⟩
      obtain ⟨hsizes, hsum⟩ := (ih hrest hle).mp h
      exact ⟨⟨hsize, hsizes⟩, hsum⟩
    · rintro ⟨⟨hsize, hsizes⟩, hsum⟩
      have hnonneg : 0 ≤ (pages.map fun page ↦ policy.pixels page.1.1 page.1.2 page.2).sum := by
        refine List.sum_nonneg fun n hn ↦ ?_
        obtain ⟨page, hpage, rfl⟩ := List.mem_map.mp hn
        exact hrest page hpage (hsizes page hpage).1 (hsizes page hpage).2
      have hle : cumulative + policy.pixels width height scale ≤ limit := by omega
      exact ⟨hsize, hle, (ih hrest hle).mpr ⟨hsizes, hsum⟩⟩

/-! ## 2. Issuance -/

def sourceRenderScale : ℚ := 2

/-- A source document as the PDF libraries read it: the page sizes of one, the user units of the
other. -/
structure PdfSource where
  encrypted : Bool
  sizes : List (ℚ × ℚ)
  units : List ℚ
deriving DecidableEq, Repr

/-- The unit bounds both workers check. -/
def UnitInBounds (unit : ℚ) : Prop := 0 < unit ∧ unit ≤ 75000

instance (unit : ℚ) : Decidable (UnitInBounds unit) := inferInstanceAs (Decidable (_ ∧ _))

/-- `_source_page_units`. -/
def sourcePageUnits (source : PdfSource) (pageCount : Nat) : Except Raised (List ℚ) := do
  raiseIf (source.encrypted = true ∨ source.units.length ≠ pageCount)
    (.demoIssuance .demoPdfInvalid 0)
  raiseIf (¬ ∀ unit ∈ source.units, UnitInBounds unit) (.demoIssuance .demoPdfInvalid 0)
  return source.units

/-- `_validate_raster_budget` charges a page the canvas it is embedded in, or what it is rendered
to, whichever is more. -/
def issuancePolicy : RasterPolicy where
  invalid := .demoIssuance .demoPdfInvalid 0
  overLimit := .demoIssuance .demoPdfRasterLimit 0
  pixels := fun width height unit ↦
    max (⌈width * sourceRenderScale * unit⌉ * ⌈height * sourceRenderScale * unit⌉)
      (demoCanonicalCanvas.1 * demoCanonicalCanvas.2 : Nat)

/-- `_pdf_number`. -/
def pdfNumber (value : ℚ) : Except Raised (List Char) := do
  raiseIf (value ≤ 0) (.demoIssuance .demoPdfOutputFailed 0)
  return Decimal.rstrip '.' (Decimal.rstrip '0' (Decimal.format 6 value))

/-- The image object of an output page. -/
structure PdfImage where
  keys : List String
  type : String
  subtype : String
  filter : String
  width : Nat
  height : Nat
  colorSpace : String
  bitsPerComponent : Nat
deriving DecidableEq, Repr

/-- A page object, with the upper right corner of its boxes as numbers are written; the lower left
one is the origin. -/
structure PdfPage where
  keys : List String
  type : String
  userUnit : ℚ
  rotation : Int
  mediaBox : List Char × List Char
  cropBox : List Char × List Char
  resources : List String
  contents : List Char
  xobjects : List String
  image : PdfImage
deriving DecidableEq, Repr

/-- A page `_build_issuance_pdf` hands to the serializer: pixels, and the size in points. -/
structure EncodedPage where
  width : Nat
  height : Nat
  pageWidth : ℚ
  pageHeight : ℚ
deriving DecidableEq, Repr

/-- One page of `_serialize_image_only_pdf`. -/
def serializePage (page : EncodedPage) : Except Raised PdfPage := do
  let width ← pdfNumber page.pageWidth
  let height ← pdfNumber page.pageHeight
  return {
    keys := ["/Type", "/Parent", "/MediaBox", "/Resources", "/Contents"]
    type := "/Page"
    userUnit := 1
    rotation := 0
    mediaBox := (width, height)
    cropBox := (width, height)
    resources := ["/XObject"]
    contents := "q\n".toList ++ width ++ " 0 0 ".toList ++ height ++ " 0 0 cm\n/Im0 Do\nQ\n".toList
    xobjects := ["/Im0"]
    image := {
      keys := ["/Type", "/Subtype", "/Width", "/Height", "/ColorSpace", "/BitsPerComponent",
        "/Filter", "/Length"]
      type := "/XObject"
      subtype := "/Image"
      filter := "/FlateDecode"
      width := page.width
      height := page.height
      colorSpace := "/DeviceRGB"
      bitsPerComponent := 8 } }

/-- `_build_issuance_pdf`, as far as pages are concerned; `rendered` is the size in pixels of the
bitmap a page is rendered to. -/
def buildIssuancePdf (limits : RasterLimits) (rendered : ℚ × ℚ → ℚ → Nat × Nat)
    (source : PdfSource) : Except Raised (List PdfPage) := do
  let pageCount := source.sizes.length
  raiseIf (¬ (1 ≤ pageCount ∧ pageCount ≤ limits.maxPdfPages)) (.demoIssuance .demoPdfPageLimit 0)
  let pageUnits ← sourcePageUnits source pageCount
  let pages := source.sizes.zip pageUnits
  rasterBudget issuancePolicy limits.maxDocumentRasterPixels 0 pages
  (pages.map fun (size, unit) ↦
    let bitmap := rendered size (sourceRenderScale * unit)
    ⟨bitmap.1, bitmap.2, size.1 * unit, size.2 * unit⟩).mapM serializePage

/-! ## 3. Verification -/

def pdfRenderScale : ℚ := 2

/-- `_is_legacy_canonical_page`. -/
def isLegacyCanonicalPage (page : PdfPage) (unit : ℚ) : Bool :=
  unit = 1 ∧ page.rotation = 0 ∧
    page.keys.Perm ["/Type", "/Parent", "/MediaBox", "/Resources", "/Contents"] ∧
    page.type = "/Page" ∧
    (Decimal.read page.mediaBox.1, Decimal.read page.mediaBox.2) = (1152, 2304) ∧
    (Decimal.read page.cropBox.1, Decimal.read page.cropBox.2) = (1152, 2304) ∧
    page.contents = "q\n1152 0 0 2304 0 0 cm\n/Im0 Do\nQ\n".toList ∧
    page.resources = ["/XObject"] ∧ page.xobjects = ["/Im0"] ∧
    page.image.keys.Perm ["/Type", "/Subtype", "/Width", "/Height", "/ColorSpace",
      "/BitsPerComponent", "/Filter"] ∧
    page.image.type = "/XObject" ∧ page.image.subtype = "/Image" ∧
    page.image.filter = "/DCTDecode" ∧ page.image.width = 1152 ∧ page.image.height = 2304 ∧
    page.image.colorSpace = "/DeviceRGB" ∧ page.image.bitsPerComponent = 8

/-- The scales of `_pdf_page_metadata`. -/
def pdfRenderScales (pages : List PdfPage) : Except Raised (List ℚ) := do
  raiseIf (¬ ∀ page ∈ pages, UnitInBounds page.userUnit) (.demoVerification .demoPdfInvalid 0)
  return pages.map fun page ↦
    if isLegacyCanonicalPage page page.userUnit then 1 else pdfRenderScale * page.userUnit

/-- `_validate_pdf_raster_budget`. -/
def verificationPolicy : RasterPolicy where
  invalid := .demoVerification .demoPdfInvalid 0
  overLimit := .demoVerification .demoInputRasterLimit 0
  pixels := fun width height scale ↦ ⌈width * scale⌉ * ⌈height * scale⌉

/-- The numbers that the media box of a page spells. -/
def PdfPage.spelled (page : PdfPage) : ℚ × ℚ :=
  (Decimal.read page.mediaBox.1, Decimal.read page.mediaBox.2)

/-- What `get_page_size` of PDFium returns for a page that is not rotated and not cropped: the size
its media box spells, and that of a letter page where the box is empty. -/
structure ReadsPageSizes (getPageSize : PdfPage → ℚ × ℚ) : Prop where
  spelled : ∀ page, page.rotation = 0 → page.cropBox = page.mediaBox →
    0 < page.spelled.1 ∧ 0 < page.spelled.2 → getPageSize page = page.spelled
  empty : ∀ page, page.rotation = 0 → page.cropBox = page.mediaBox →
    ¬ (0 < page.spelled.1 ∧ 0 < page.spelled.2) → getPageSize page = (612, 792)

/-- The checks of a PDF before it is decoded or counted. -/
def validatePdf (getPageSize : PdfPage → ℚ × ℚ) (limits : RasterLimits) (pages : List PdfPage) :
    Except Raised Nat := do
  raiseIf (¬ (1 ≤ pages.length ∧ pages.length ≤ limits.maxPdfPages))
    (.demoVerification .demoPdfPageLimit 0)
  let scales ← pdfRenderScales pages
  rasterBudget verificationPolicy limits.maxDocumentRasterPixels 0
    ((pages.map getPageSize).zip scales)
  return pages.length

/-! ## 4. What is written is what is read, rounded -/

/-- A size as the text of a page box spells it. -/
def rounded (value : ℚ) : ℚ := Rounding.halfEven (value * 10 ^ 6) / 10 ^ 6

/-- The text of a size. -/
def numberText (value : ℚ) : List Char :=
  Decimal.rstrip '.' (Decimal.rstrip '0' (Decimal.format 6 value))

theorem pdfNumber_eq {value : ℚ} (h : 0 < value) : pdfNumber value = .ok (numberText value) := by
  rw [pdfNumber, raiseIf_neg (not_le.mpr h), ok_bind]
  rfl

theorem read_numberText {value : ℚ} (h : 0 < value) :
    Decimal.read (numberText value) = rounded value := by
  have hnonneg : 0 ≤ Rounding.halfEven (value * 10 ^ 6) :=
    Rounding.halfEven_nonneg (by positivity)
  have hcast : ((Rounding.halfEven (value * 10 ^ 6)).toNat : ℚ) =
      Rounding.halfEven (value * 10 ^ 6) := by
    exact_mod_cast Int.toNat_of_nonneg hnonneg
  rw [numberText, Decimal.format, Decimal.read_fixedPoint (by decide), hcast, rounded]

/-- Rounding does not move a size up across a pixel: the boundaries are multiples of the unit. -/
theorem ceil_rounded_le (value : ℚ) : ⌈rounded value * 2⌉ ≤ ⌈value * 2⌉ := by
  have hceil := Int.le_ceil (value * 2)
  have hround : Rounding.halfEven (value * 10 ^ 6) ≤ ⌈value * 2⌉ * 500000 := by
    apply Rounding.halfEven_le
    push_cast
    linarith
  apply Int.ceil_le.mpr
  have hcast : (Rounding.halfEven (value * 10 ^ 6) : ℚ) ≤ ⌈value * 2⌉ * 500000 := by
    exact_mod_cast hround
  rw [rounded, div_mul_eq_mul_div, div_le_iff₀ (by norm_num)]
  linarith

/-- The page object of an encoded page with a positive size. -/
def writtenPage (page : EncodedPage) : PdfPage where
  keys := ["/Type", "/Parent", "/MediaBox", "/Resources", "/Contents"]
  type := "/Page"
  userUnit := 1
  rotation := 0
  mediaBox := (numberText page.pageWidth, numberText page.pageHeight)
  cropBox := (numberText page.pageWidth, numberText page.pageHeight)
  resources := ["/XObject"]
  contents := "q\n".toList ++ numberText page.pageWidth ++ " 0 0 ".toList ++
    numberText page.pageHeight ++ " 0 0 cm\n/Im0 Do\nQ\n".toList
  xobjects := ["/Im0"]
  image := {
    keys := ["/Type", "/Subtype", "/Width", "/Height", "/ColorSpace", "/BitsPerComponent",
      "/Filter", "/Length"]
    type := "/XObject"
    subtype := "/Image"
    filter := "/FlateDecode"
    width := page.width
    height := page.height
    colorSpace := "/DeviceRGB"
    bitsPerComponent := 8 }

theorem serializePage_eq {page : EncodedPage} (hwidth : 0 < page.pageWidth)
    (hheight : 0 < page.pageHeight) : serializePage page = .ok (writtenPage page) := by
  rw [serializePage, pdfNumber_eq hwidth, ok_bind, pdfNumber_eq hheight, ok_bind]
  rfl

/-- A written page is not of the legacy form: its image is deflated. -/
theorem isLegacyCanonicalPage_writtenPage (page : EncodedPage) (unit : ℚ) :
    isLegacyCanonicalPage (writtenPage page) unit = false := by
  have hfilter : (writtenPage page).image.filter ≠ "/DCTDecode" := by
    show "/FlateDecode" ≠ "/DCTDecode"
    decide
  simp [isLegacyCanonicalPage, hfilter]

/-! ## 5. Every page that is written can be read -/

section Pages

variable (rendered : ℚ × ℚ → ℚ → Nat × Nat)

/-- The page handed to the serializer for a source page and its unit. -/
def encodedPage (page : (ℚ × ℚ) × ℚ) : EncodedPage :=
  let bitmap := rendered page.1 (sourceRenderScale * page.2)
  ⟨bitmap.1, bitmap.2, page.1.1 * page.2, page.1.2 * page.2⟩

/-- The checks an issued document has passed, and what it consists of. -/
theorem buildIssuancePdf_eq_ok {limits : RasterLimits} {source : PdfSource} {pages : List PdfPage}
    (h : buildIssuancePdf limits rendered source = .ok pages) :
    source.units.length = source.sizes.length ∧
      (1 ≤ source.sizes.length ∧ source.sizes.length ≤ limits.maxPdfPages) ∧
      (∀ page ∈ source.sizes.zip source.units, (0 < page.1.1 ∧ 0 < page.1.2) ∧ 0 < page.2) ∧
      ((source.sizes.zip source.units).map fun page ↦
        issuancePolicy.pixels page.1.1 page.1.2 page.2).sum ≤ limits.maxDocumentRasterPixels ∧
      pages = (source.sizes.zip source.units).map fun page ↦
        writtenPage (encodedPage rendered page) := by
  simp only [buildIssuancePdf, sourcePageUnits, bind_eq_ok, exists_unit, raiseIf_eq_ok, not_not,
    not_or, pure_eq_ok, ne_eq] at h
  obtain ⟨hcount, _, ⟨⟨-, hlength⟩, hunits, rfl⟩, hbudget, hpages⟩ := h
  have hpixels : ∀ page ∈ source.sizes.zip source.units, 0 < page.1.1 → 0 < page.1.2 →
      0 ≤ issuancePolicy.pixels page.1.1 page.1.2 page.2 :=
    fun page _ _ _ ↦ le_max_of_le_right (Int.natCast_nonneg _)
  obtain ⟨hsizes, hsum⟩ := (rasterBudget_eq_ok hpixels (Int.natCast_nonneg _)).mp hbudget
  have hpositive : ∀ page ∈ source.sizes.zip source.units,
      (0 < page.1.1 ∧ 0 < page.1.2) ∧ 0 < page.2 :=
    fun page hpage ↦ ⟨hsizes page hpage, (hunits _ (List.of_mem_zip hpage).2).1⟩
  refine ⟨hlength, hcount, hpositive, by rwa [zero_add] at hsum, ?_⟩
  have hserialized : ∀ page ∈ (source.sizes.zip source.units).map (encodedPage rendered),
      serializePage page = .ok (writtenPage page) := by
    intro page hpage
    obtain ⟨size, hsize, rfl⟩ := List.mem_map.mp hpage
    obtain ⟨⟨hwidth, hheight⟩, hunit⟩ := hpositive size hsize
    exact serializePage_eq (mul_pos hwidth hunit) (mul_pos hheight hunit)
  have hwritten := hpages.symm.trans (mapM_eq_map hserialized)
  rw [Except.ok.inj hwritten, List.map_map]
  rfl

/-- The size that is read from a written page is positive, and what a verification charges for it is
at most what the issuance charged: the canvas is larger than a letter page. -/
theorem read_writtenPage {getPageSize : PdfPage → ℚ × ℚ} (hreads : ReadsPageSizes getPageSize)
    {page : (ℚ × ℚ) × ℚ} (hwidth : 0 < page.1.1 * page.2) (hheight : 0 < page.1.2 * page.2) :
    let size := getPageSize (writtenPage (encodedPage rendered page))
    (0 < size.1 ∧ 0 < size.2) ∧ verificationPolicy.pixels size.1 size.2 2 ≤
      issuancePolicy.pixels page.1.1 page.1.2 page.2 := by
  intro size
  have hspelled : (writtenPage (encodedPage rendered page)).spelled =
      (rounded (page.1.1 * page.2), rounded (page.1.2 * page.2)) :=
    Prod.ext (read_numberText hwidth) (read_numberText hheight)
  by_cases hbox : 0 < rounded (page.1.1 * page.2) ∧ 0 < rounded (page.1.2 * page.2)
  · -- rounding moves neither side up across a pixel
    have hsize : size = (rounded (page.1.1 * page.2), rounded (page.1.2 * page.2)) := by
      rw [← hspelled]
      exact hreads.spelled _ rfl rfl (hspelled ▸ hbox)
    rw [hsize]
    refine ⟨hbox, ?_⟩
    have hscale : ∀ side : ℚ, side * sourceRenderScale * page.2 = side * page.2 * 2 := by
      intro side
      rw [sourceRenderScale]
      ring
    have hnonneg : 0 ≤ ⌈rounded (page.1.2 * page.2) * 2⌉ :=
      Int.ceil_nonneg (mul_nonneg hbox.2.le (by norm_num))
    have hpositive : 0 ≤ ⌈page.1.1 * page.2 * 2⌉ := Int.ceil_nonneg (by positivity)
    show ⌈_⌉ * ⌈_⌉ ≤ max (⌈_⌉ * ⌈_⌉) _
    rw [hscale, hscale]
    exact le_max_of_le_left
      (mul_le_mul (ceil_rounded_le _) (ceil_rounded_le _) hnonneg hpositive)
  · -- a side that is rounded to nothing leaves a letter page
    have hsize : size = (612, 792) := by
      refine hreads.empty _ rfl rfl ?_
      rw [hspelled]
      exact hbox
    rw [hsize]
    refine ⟨by norm_num, le_max_of_le_right ?_⟩
    decide +kernel

/-- A verification accepts written pages. -/
theorem validatePdf_written {getPageSize : PdfPage → ℚ × ℚ} (hreads : ReadsPageSizes getPageSize)
    {limits : RasterLimits} {sizes : List ((ℚ × ℚ) × ℚ)}
    (hcount : 1 ≤ sizes.length ∧ sizes.length ≤ limits.maxPdfPages)
    (hpositive : ∀ page ∈ sizes, (0 < page.1.1 ∧ 0 < page.1.2) ∧ 0 < page.2)
    (hbudget : (sizes.map fun page ↦ issuancePolicy.pixels page.1.1 page.1.2 page.2).sum ≤
      limits.maxDocumentRasterPixels) :
    validatePdf getPageSize limits (sizes.map fun page ↦ writtenPage (encodedPage rendered page)) =
      .ok sizes.length := by
  set size := fun page ↦ getPageSize (writtenPage (encodedPage rendered page)) with hsize
  have hread : ∀ page ∈ sizes, (0 < (size page).1 ∧ 0 < (size page).2) ∧
      verificationPolicy.pixels (size page).1 (size page).2 2 ≤
        issuancePolicy.pixels page.1.1 page.1.2 page.2 := by
    intro page hpage
    obtain ⟨⟨hwidth, hheight⟩, hunit⟩ := hpositive page hpage
    exact read_writtenPage rendered hreads (mul_pos hwidth hunit) (mul_pos hheight hunit)
  set written := sizes.map fun page ↦ writtenPage (encodedPage rendered page) with hwritten
  have hlength : written.length = sizes.length := by rw [hwritten, List.length_map]
  have hunits : ∀ page ∈ written, UnitInBounds page.userUnit := by
    intro page hpage
    obtain ⟨source, -, rfl⟩ := List.mem_map.mp hpage
    show UnitInBounds 1
    decide +kernel
  -- every page is rendered at scale 2, in the size that is read
  have hpages : (written.map getPageSize).zip (written.map fun page ↦
      if isLegacyCanonicalPage page page.userUnit then 1 else pdfRenderScale * page.userUnit) =
        sizes.map fun page ↦ (size page, 2) := by
    rw [List.zip_map', hwritten, List.map_map]
    refine List.map_congr_left fun page _ ↦ ?_
    have hscale : pdfRenderScale * (writtenPage (encodedPage rendered page)).userUnit = 2 :=
      mul_one _
    simp only [Function.comp_apply, isLegacyCanonicalPage_writtenPage, hscale,
      Bool.false_eq_true, if_false, hsize]
  have hnonneg : ∀ page ∈ sizes.map fun page ↦ (size page, (2 : ℚ)), 0 < page.1.1 →
      0 < page.1.2 → 0 ≤ verificationPolicy.pixels page.1.1 page.1.2 page.2 := by
    intro page hpage hwidth hheight
    obtain ⟨source, -, rfl⟩ := List.mem_map.mp hpage
    exact mul_nonneg (Int.ceil_nonneg (by positivity)) (Int.ceil_nonneg (by positivity))
  have hraster : rasterBudget verificationPolicy limits.maxDocumentRasterPixels 0
      (sizes.map fun page ↦ (size page, 2)) = .ok () := by
    rw [rasterBudget_eq_ok hnonneg (Int.natCast_nonneg _), List.map_map, zero_add]
    refine ⟨fun page hpage ↦ ?_, le_trans (List.sum_le_sum fun page hpage ↦ ?_) hbudget⟩
    · obtain ⟨source, hsource, rfl⟩ := List.mem_map.mp hpage
      exact (hread source hsource).1
    · exact (hread page hpage).2
  rw [validatePdf, raiseIf_neg (not_not.mpr (hlength ▸ hcount)), ok_bind, pdfRenderScales,
    raiseIf_neg (not_not.mpr hunits), ok_bind]
  show (rasterBudget _ _ _ _ >>= _) = _
  rw [hpages, hraster, ok_bind, hlength]
  rfl

end Pages

/-! ## 6. Images -/

/-- A bitmap as the image library decodes it: it is never empty. -/
structure ImageRaster where
  height : Nat
  width : Nat
  height_pos : 0 < height
  width_pos : 0 < width

/-- `_build_issuance_image`, as far as sizes are concerned; `marked` is the size of the marked or
fingerprinted content. -/
def buildIssuanceImage (limits : RasterLimits) (marked : ImageRaster → Nat × Nat)
    (raster : Option ImageRaster) : Except Raised (Nat × Nat) := do
  let raster ← found raster (.demoIssuance .demoImageInvalid 0)
  raiseIf (limits.maxImagePixels < raster.height * raster.width)
    (.demoIssuance .demoImagePixelLimit 0)
  let content := marked raster
  if content ≠ (raster.height, raster.width) then
    return (raster.height, raster.width)
  else
    return content

/-- `_validate_image_dimensions`. -/
def validateImageDimensions (limits : RasterLimits) (width height : Nat) : Except Raised Unit := do
  raiseIf (width ≤ 0 ∨ height ≤ 0) (.demoVerification .demoImageInvalid 0)
  raiseIf (limits.maxImagePixels < width * height) (.demoVerification .demoInputRasterLimit 0)

/-- An image is issued in the size it was uploaded in. -/
theorem buildIssuanceImage_eq_ok {limits : RasterLimits} {marked : ImageRaster → Nat × Nat}
    {raster : Option ImageRaster} {size : Nat × Nat}
    (h : buildIssuanceImage limits marked raster = .ok size) :
    0 < size.1 ∧ 0 < size.2 ∧ size.1 * size.2 ≤ limits.maxImagePixels := by
  simp only [buildIssuanceImage, bind_eq_ok, found_eq_ok, raiseIf_eq_ok, exists_unit, not_lt] at h
  obtain ⟨image, -, hpixels, h⟩ := h
  have hsize : size = (image.height, image.width) := by
    split at h
    · exact (Except.ok.inj h).symm
    · rename_i hsame
      exact (Except.ok.inj h).symm.trans (not_not.mp hsame)
  rw [hsize]
  exact ⟨image.height_pos, image.width_pos, hpixels⟩

/-- **Every issued document can be verified.**  A PDF that was issued passes the checks of the
verification under the same limits, and so does an image: rounding a size to six decimals never moves
it up across a pixel, and a page that is rounded to nothing is read as a letter page, which is smaller
than the canvas its issuance was charged for. -/
theorem issued_passes_verification {getPageSize : PdfPage → ℚ × ℚ}
    (hreads : ReadsPageSizes getPageSize) (limits : RasterLimits) :
    (∀ (rendered : ℚ × ℚ → ℚ → Nat × Nat) (source : PdfSource) (pages : List PdfPage),
      buildIssuancePdf limits rendered source = .ok pages →
      validatePdf getPageSize limits pages = .ok source.sizes.length) ∧
    ∀ (marked : ImageRaster → Nat × Nat) (raster : Option ImageRaster) (size : Nat × Nat),
      buildIssuanceImage limits marked raster = .ok size →
      validateImageDimensions limits size.2 size.1 = .ok () := by
  constructor
  · intro rendered source pages h
    obtain ⟨hlength, hcount, hpositive, hbudget, rfl⟩ := buildIssuancePdf_eq_ok rendered h
    have hzip : (source.sizes.zip source.units).length = source.sizes.length := by
      rw [List.length_zip, hlength, min_self]
    rw [← hzip] at hcount ⊢
    exact validatePdf_written rendered hreads hcount hpositive hbudget
  · intro marked raster size h
    obtain ⟨hheight, hwidth, hpixels⟩ := buildIssuanceImage_eq_ok h
    have hpixels : ¬ limits.maxImagePixels < size.2 * size.1 := by
      rw [Nat.mul_comm]
      exact not_lt.mpr hpixels
    rw [validateImageDimensions, raiseIf_neg (by omega), ok_bind, raiseIf_neg hpixels]

/-! ### A letter page, and one in units of a ten-billionth -/

def sampleLimits : RasterLimits := ⟨50, 40000000, 140000000⟩

/-- The page size of PDFium, for pages that are not rotated and not cropped. -/
def PdfPage.pdfiumSize (page : PdfPage) : ℚ × ℚ :=
  if 0 < page.spelled.1 ∧ 0 < page.spelled.2 then page.spelled else (612, 792)

theorem pdfiumSize_reads : ReadsPageSizes PdfPage.pdfiumSize where
  spelled := fun _ _ _ hbox ↦ if_pos hbox
  empty := fun _ _ _ hbox ↦ if_neg hbox

def tinyUnitSource : PdfSource where
  encrypted := false
  sizes := [(612, 792), (612, 792)]
  units := [1, 1 / 10000000000]

/-- The second page is issued with a box of no size, and passes the verification all the same. -/
theorem issued_passes_verification_tinyUnit :
    ∃ pages, buildIssuancePdf sampleLimits (fun _ _ ↦ (1, 1)) tinyUnitSource = .ok pages ∧
      pages.map PdfPage.mediaBox = [(['6', '1', '2'], ['7', '9', '2']), (['0'], ['0'])] ∧
      validatePdf PdfPage.pdfiumSize sampleLimits pages = .ok 2 := by
  have hissued : buildIssuancePdf sampleLimits (fun _ _ ↦ (1, 1)) tinyUnitSource =
      .ok [writtenPage ⟨1, 1, 612, 792⟩,
        writtenPage ⟨1, 1, 612 * (1 / 10000000000), 792 * (1 / 10000000000)⟩] := by
    decide +kernel
  exact ⟨_, hissued, by decide +kernel,
    (issued_passes_verification pdfiumSize_reads sampleLimits).1 _ _ _ hissued⟩

end Splitbind
