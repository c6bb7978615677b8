import Splitbind.Demo.JpegHeader
import Splitbind.Demo.RasterBudget
import Splitbind.Demo.VerificationDecode
import Splitbind.Library.Traced

/-!
# Image admission — how a PNG or JPEG reaches the pixel decoder

Issuance and both modes of verification decode images on paths of their own.  Each path is a traced
computation: it records the dimensions it checked and every call of the decoder.  The image library
is a parameter.
-/

namespace Splitbind

open Transaction

/-! ## 1. The image library -/

/-- The flags `cv2.imdecode` is called with. -/
inductive ReadMode
  | color
  | unchanged
deriving DecidableEq, Repr

/-- A decoded array: its `shape`, and whether its `dtype` is `uint8`. -/
structure DecodedArray where
  shape : List Nat
  uint8 : Bool
deriving DecidableEq, Repr

/-- `cv2`, as far as images are decoded and encoded. -/
structure ImageCodec where
  imdecode : ReadMode → List UInt8 → Except Raised (Option DecodedArray)
  /-- The pixels the decoder allocates for a byte string. -/
  allocated : List UInt8 → Nat
  imencode : DecodedArray → Option (List UInt8)

inductive ImageEvent
  /-- A width and height were found to be positive and within the pixel limit. -/
  | dimensionsChecked (width height : Nat)
  /-- The pixel decoder was called, and allocated some pixels. -/
  | pixelsDecoded (pixels : Nat)
deriving DecidableEq, Repr

/-- A computation of one of the workers. -/
abbrev ImageRun := Traced ImageEvent Raised

def ImageCodec.decode (codec : ImageCodec) (mode : ReadMode) (source : List UInt8) :
    ImageRun (Option DecodedArray) := do
  Traced.record (.pixelsDecoded (codec.allocated source))
  Traced.quiet (codec.imdecode mode source)

/-! ## 2. Verification -/

structure ContentLimits extends RasterLimits where
  maxPdfBytes : Nat
deriving DecidableEq, Repr

def pdfMagic : List UInt8 := [0x25, 0x50, 0x44, 0x46, 0x2d]

def pngMagic : List UInt8 := [137, 80, 78, 71, 13, 10, 26, 10]

def jpegMagic : List UInt8 := [255, 216, 255]

/-- `struct.unpack` of big-endian numbers of four bytes. -/
def unpackWords (count : Nat) (bytes : List UInt8) : Except Raised (List Nat) := do
  raiseIf (bytes.length ≠ 4 * count) .other
  return (List.range count).map fun i ↦ BigEndian.fromBytes (byteSlice bytes (4 * i) (4 * i + 4))

/-- `_validate_image_dimensions`, recorded where it passes. -/
def checkDimensions (limits : ContentLimits) (width height : Nat) : ImageRun Unit := do
  Traced.quiet (validateImageDimensions limits.toRasterLimits width height)
  Traced.record (.dimensionsChecked width height)

/-- What the other stages of the workers make of documents and decoded images. -/
structure ContentStages where
  /-- `_decode_pdf`. -/
  decodePdf : List UInt8 → Except Raised (DecodeSummary × Nat)
  /-- The checks of `_inspect_integrity_content` on a document. -/
  inspectPdf : List UInt8 → Except Raised Nat
  /-- `_build_issuance_pdf`. -/
  buildPdf : List UInt8 → Except Raised (List UInt8 × Nat × String)
  /-- The canvas of `_canonicalize_page`. -/
  canonical : DecodedArray → Canvas
  /-- The image of `restore_frame`. -/
  restored : DecodedArray → Option Canvas
  /-- `apply_visible_marker`. -/
  visibleMarker : DecodedArray → DecodedArray
  /-- `_select_frozen_candidate`. -/
  selectFrozenCandidate : Except Raised String
  /-- The content that `embed_fingerprint_v2` leaves on the canonical page. -/
  fingerprinted : DecodedArray → DecodedArray

section Worker

variable (limits : ContentLimits) (codec : ImageCodec) (stages : ContentStages)

/-- `_decode_image`. -/
def decodeImage (candidates : List FingerprintV2Profile) (source : List UInt8)
    (width height : Nat) : ImageRun (DecodeSummary × Nat) := do
  let raster ← codec.decode .color source
  let raster ← Traced.quiet (found raster imageInvalid)
  Traced.quiet (raiseIf (raster.uint8 = false ∨ raster.shape.length ≠ 3 ∨
    raster.shape ≠ [height, width, 3]) imageInvalid)
  let pages := geometryHypotheses (stages.canonical raster) (stages.restored raster)
  let summary ← Traced.quiet (firstConclusiveSummary candidates none pages)
  return (summary, 1)

/-- The header checks of `_decode_png`, and the dimensions it unpacks. -/
def pngDimensions (source : List UInt8) : Except Raised (Nat × Nat) := do
  raiseIf (source.length < 33 ∨ byteSlice source 8 12 ≠ [0x00, 0x00, 0x00, 0x0d] ∨
    byteSlice source 12 16 ≠ [0x49, 0x48, 0x44, 0x52]) imageInvalid
  let words ← unpackWords 2 (byteSlice source 16 24)
  return (words.getD 0 0, words.getD 1 0)

/-- `_decode_png` and `_decode_jpeg`, which differ in how they find the dimensions. -/
def decodeSized (dimensions : List UInt8 → Except Raised (Nat × Nat))
    (candidates : List FingerprintV2Profile) (source : List UInt8) :
    ImageRun (DecodeSummary × Nat) := do
  let (width, height) ← Traced.quiet (dimensions source)
  checkDimensions limits width height
  decodeImage codec stages candidates source width height

/-- `_decode_png`. -/
def decodePng (candidates : List FingerprintV2Profile) (source : List UInt8) :
    ImageRun (DecodeSummary × Nat) :=
  decodeSized limits codec stages pngDimensions candidates source

/-- `_decode_jpeg`. -/
def decodeJpeg (candidates : List FingerprintV2Profile) (source : List UInt8) :
    ImageRun (DecodeSummary × Nat) :=
  decodeSized limits codec stages jpegDimensions candidates source

/-- `_decode_content`, from the bytes on. -/
def decodeSource (candidates : List FingerprintV2Profile) (source : List UInt8) :
    ImageRun (DecodeSummary × Nat) :=
  if limits.maxPdfBytes < source.length then
    Traced.quiet (.error (demoVerificationError .demoInputFileLimit))
  else if pdfMagic <+: source then Traced.quiet (stages.decodePdf source)
  else if pngMagic <+: source then decodePng limits codec stages candidates source
  else if jpegMagic <+: source then decodeJpeg limits codec stages candidates source
  else Traced.quiet (.error (demoVerificationError .demoInputFormatInvalid))

/-- The image branch of `_inspect_integrity_content`. -/
def inspectImage (source : List UInt8) : ImageRun Nat := do
  let image ← codec.decode .unchanged source
  let image ← Traced.quiet (found image imageInvalid)
  Traced.quiet (raiseIf (image.shape.length ≠ 2 ∧ image.shape.length ≠ 3) imageInvalid)
  checkDimensions limits (image.shape.getD 1 0) (image.shape.getD 0 0)
  return 1

/-- `_inspect_integrity_content`, from the bytes on. -/
def inspectSource (source : List UInt8) : ImageRun Nat :=
  if limits.maxPdfBytes < source.length then
    Traced.quiet (.error (demoVerificationError .demoInputFileLimit))
  else if pdfMagic <+: source then Traced.quiet (stages.inspectPdf source)
  else if pngMagic <+: source ∨ jpegMagic <+: source then inspectImage limits codec source
  else Traced.quiet (.error (demoVerificationError .demoInputFormatInvalid))

/-! ## 3. Issuance -/

/-- `_build_issuance_image` up to the raster it goes on with. -/
def admitIssuanceImage (source : List UInt8) : ImageRun DecodedArray := do
  Traced.quiet (raiseIf (limits.maxPdfBytes < source.length) (.demoIssuance .demoPdfFileLimit 0))
  let raster ← codec.decode .color source
  let raster ← Traced.quiet (found raster (.demoIssuance .demoImageInvalid 0))
  Traced.quiet (raiseIf (raster.shape.length ≠ 3 ∨ raster.shape.getD 2 0 ≠ 3)
    (.demoIssuance .demoImageInvalid 0))
  let height := raster.shape.getD 0 0
  let width := raster.shape.getD 1 0
  Traced.quiet (raiseIf (limits.maxImagePixels < height * width)
    (.demoIssuance .demoImagePixelLimit 0))
  Traced.record (.dimensionsChecked width height)
  return raster

/-- `_build_issuance_image`; the fingerprint key is there or not. -/
def buildImage (visibleMarker keyLoaded : Bool) (source : List UInt8) :
    ImageRun (List UInt8 × String) := do
  let raster ← admitIssuanceImage limits codec source
  let candidateIdentifier ← Traced.quiet <|
    if visibleMarker then .ok demoFrozenCandidateIdentifier
    else if keyLoaded then stages.selectFrozenCandidate
    else .error (.demoIssuance .demoFingerprintKeyInvalid 0)
  let content :=
    if visibleMarker then stages.visibleMarker raster else stages.fingerprinted raster
  -- content of another size is resized to that of the raster
  let content :=
    if content.shape.take 2 ≠ raster.shape.take 2 then
      { content with shape := raster.shape.take 2 ++ content.shape.drop 2 }
    else content
  let encoded ← Traced.quiet (found (codec.imencode content) (.demoIssuance .demoPdfOutputFailed 0))
  return (encoded, candidateIdentifier)

/-- `_build_issuance_artifact`. -/
def buildArtifact (visibleMarker keyLoaded : Bool) (source : List UInt8) :
    ImageRun (List UInt8 × Nat × String × String) :=
  if pngMagic <+: source ∨ jpegMagic <+: source then do
    let (output, candidateIdentifier) ←
      buildImage limits codec stages visibleMarker keyLoaded source
    return (output, 1, candidateIdentifier, "image/png")
  else do
    let (output, pageCount, candidateIdentifier) ← Traced.quiet (stages.buildPdf source)
    return (output, pageCount, candidateIdentifier, "application/pdf")

end Worker

/-! ## 4. Declared dimensions -/

/-- The first chunk of a PNG is an IHDR, which starts with the width and the height. -/
structure PngDeclares (source : List UInt8) (width height : Nat) : Prop where
  long : 33 ≤ source.length
  length : byteSlice source 8 12 = [0x00, 0x00, 0x00, 0x0d]
  type : byteSlice source 12 16 = [0x49, 0x48, 0x44, 0x52]
  numbers : byteSlice source 16 24 = BigEndian.toBytes 4 width ++ BigEndian.toBytes 4 height
  width_lt : width < 256 ^ 4
  height_lt : height < 256 ^ 4

/-- The dimensions the header of an image declares. -/
def Declares (source : List UInt8) (width height : Nat) : Prop :=
  pngMagic <+: source ∧ PngDeclares source width height ∨
    jpegMagic <+: source ∧ ∃ offset, JpegReaches source offset ∧ FrameAt source offset width height

/-- Eight bytes are two numbers. -/
theorem unpackWords_two {first second : List UInt8} (hfirst : first.length = 4)
    (hsecond : second.length = 4) :
    unpackWords 2 (first ++ second) =
      .ok [BigEndian.fromBytes first, BigEndian.fromBytes second] := by
  have hlength : (first ++ second).length = 2 * 4 := by
    rw [List.length_append, hfirst, hsecond]
  have htake : byteSlice (first ++ second) 0 4 = first := by
    rw [byteSlice, List.drop_zero, Nat.sub_zero, ← hfirst, List.take_left]
  have hdrop : byteSlice (first ++ second) 4 8 = second := by
    rw [byteSlice, ← hfirst, List.drop_left, hfirst, List.take_of_length_le (by omega)]
  rw [unpackWords, raiseIf_neg (by omega), ok_bind]
  show Except.ok [BigEndian.fromBytes (byteSlice (first ++ second) 0 4),
    BigEndian.fromBytes (byteSlice (first ++ second) 4 8)] = _
  rw [htake, hdrop]

theorem PngDeclares.pngDimensions_eq {source : List UInt8} {width height : Nat}
    (h : PngDeclares source width height) : pngDimensions source = .ok (width, height) := by
  have hvalid : ¬ (source.length < 33 ∨ byteSlice source 8 12 ≠ [0x00, 0x00, 0x00, 0x0d] ∨
      byteSlice source 12 16 ≠ [0x49, 0x48, 0x44, 0x52]) := by
    rw [not_or, not_or, not_lt, not_not, not_not]
    exact ⟨h.long, h.length, h.type⟩
  rw [pngDimensions, raiseIf_neg hvalid, ok_bind, h.numbers,
    unpackWords_two (BigEndian.length_toBytes 4 width) (BigEndian.length_toBytes 4 height), ok_bind,
    BigEndian.fromBytes_toBytes h.width_lt, BigEndian.fromBytes_toBytes h.height_lt]
  rfl

/-- A PNG whose header declares no dimensions is refused. -/
theorem pngDimensions_cases (source : List UInt8) :
    (∃ width height, PngDeclares source width height) ∨
      (∀ width height, ¬ PngDeclares source width height) ∧
        pngDimensions source = .error imageInvalid := by
  by_cases hinvalid : source.length < 33 ∨ byteSlice source 8 12 ≠ [0x00, 0x00, 0x00, 0x0d] ∨
      byteSlice source 12 16 ≠ [0x49, 0x48, 0x44, 0x52]
  · right
    refine ⟨fun width height h ↦ ?_, ?_⟩
    · rcases hinvalid with hshort | hlength | htype
      · exact absurd h.long (not_le.mpr hshort)
      · exact hlength h.length
      · exact htype h.type
    · rw [pngDimensions, raiseIf_pos hinvalid, error_bind]
  · left
    rw [not_or, not_or, not_lt, not_not, not_not] at hinvalid
    obtain ⟨hlong, hlength, htype⟩ := hinvalid
    have hfirst : (byteSlice source 16 20).length = 4 := by
      rw [byteSlice, List.length_take, List.length_drop]
      omega
    have hsecond : (byteSlice source 20 24).length = 4 := by
      rw [byteSlice, List.length_take, List.length_drop]
      omega
    have hsplit : byteSlice source 16 24 = byteSlice source 16 20 ++ byteSlice source 20 24 := by
      show (source.drop 16).take (4 + 4) = (source.drop 16).take 4 ++ (source.drop 20).take 4
      rw [List.take_add, List.drop_drop]
    have hwidth := BigEndian.toBytes_fromBytes (byteSlice source 16 20)
    have hheight := BigEndian.toBytes_fromBytes (byteSlice source 20 24)
    have hwidth_lt := BigEndian.fromBytes_lt (byteSlice source 16 20)
    have hheight_lt := BigEndian.fromBytes_lt (byteSlice source 20 24)
    rw [hfirst] at hwidth hwidth_lt
    rw [hsecond] at hheight hheight_lt
    refine ⟨_, _, hlong, hlength, htype, ?_, hwidth_lt, hheight_lt⟩
    rw [hwidth, hheight, hsplit]

/-- The magic bytes of the three formats exclude each other. -/
theorem magic_disjoint (source : List UInt8) :
    (pdfMagic <+: source → ¬ pngMagic <+: source ∧ ¬ jpegMagic <+: source) ∧
      (pngMagic <+: source → ¬ jpegMagic <+: source) := by
  have hhead : ∀ {first second : UInt8} {xs ys : List UInt8}, first :: xs <+: source →
      second :: ys <+: source → first = second := by
    intro first second xs ys ⟨_, hfirst⟩ ⟨_, hsecond⟩
    rw [← hfirst, List.cons_append, List.cons_append, List.cons.injEq] at hsecond
    exact hsecond.1.symm
  refine ⟨fun hpdf ↦ ⟨fun hpng ↦ ?_, fun hjpeg ↦ ?_⟩, fun hpng hjpeg ↦ ?_⟩
  · exact absurd (hhead hpdf hpng) (by decide)
  · exact absurd (hhead hpdf hjpeg) (by decide)
  · exact absurd (hhead hpng hjpeg) (by decide)

end Splitbind
