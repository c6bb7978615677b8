import Splitbind.Demo.ImageGuards

/-!
# Image agreement — when verification takes the images that issuance takes

Issuance goes on with whatever the image library decodes; verification wants the decoded shape to be
the declared one.  The library turns an image by its orientation, so the two differ on images that
lie on their side, and on headers that only the library reads.
-/

namespace Splitbind

open Transaction

/-! ## 1. The decision on an image raises nothing of its own -/

/-- Any exception but the one for an invalid image. -/
def NotImageInvalid (e : Raised) : Prop := e ≠ imageInvalid

theorem decidePayloadVotes_onlyRaises (votes : List PayloadVoteV2)
    (profiles : List FingerprintV2Profile) (geometryConfidence : ℚ) :
    OnlyRaises NotImageInvalid (decidePayloadVotes votes profiles geometryConfidence) := by
  have hvalue : ∀ message, NotImageInvalid (.value message) := fun _ h ↦ Raised.noConfusion h
  refine OnlyRaises.bind (OnlyRaises.foldlM (fun unique vote ↦ ?_) [] votes) fun unique ↦ ?_
  · unfold addVote
    split
    · split_ifs
      · exact .ok unique
      · exact .error (hvalue _)
    · exact .ok _
  · split_ifs
    · exact .ok _
    · dsimp only
      split
      · exact OnlyRaises.bind (.found (hvalue _) _) fun winner ↦ .ok _
      · exact OnlyRaises.bind (.found (hvalue _) _) fun strongest ↦ .ok _

theorem firstConclusive_onlyRaises (canvas : Canvas) (pageIndex : Nat)
    (fallback : Option DecodeV2Decision) (candidates : List FingerprintV2Profile) :
    OnlyRaises NotImageInvalid (firstConclusive canvas pageIndex fallback candidates) := by
  induction candidates generalizing fallback with
  | nil => exact .found Raised.noConfusion fallback
  | cons candidate rest ih =>
    refine OnlyRaises.bind ?_ fun decision ↦ ?_
    · unfold decodeFingerprintV2
      dsimp only
      split_ifs
      · exact decidePayloadVotes_onlyRaises _ _ _
      · exact .ok _
      · exact .ok _
    · split_ifs
      · exact .ok decision
      · exact ih _

theorem aggregateUnknownPageDecisions_onlyRaises (decisions : List DecodeV2Decision) :
    OnlyRaises NotImageInvalid (aggregateUnknownPageDecisions decisions) := by
  refine OnlyRaises.bind ?_ fun summary ↦ ?_
  · unfold aggregateDecisions
    dsimp only
    split_ifs
    · exact .ok _
    · split
      · exact .ok _
      · split
        · exact .ok _
        · have hfailed : demoVerificationError .demoFingerprintDecodeFailed ≠ imageInvalid := by decide
          exact .error hfailed
  · dsimp only
    split_ifs
    · exact .ok _
    · exact .ok _
    · exact .ok _

theorem firstConclusiveSummary_onlyRaises (candidates : List FingerprintV2Profile)
    (fallback : Option DecodeSummary) (pages : List Canvas) :
    OnlyRaises NotImageInvalid (firstConclusiveSummary candidates fallback pages) := by
  induction pages generalizing fallback with
  | nil => exact .found Raised.noConfusion fallback
  | cons page rest ih =>
    refine OnlyRaises.bind (OnlyRaises.mapM (fun pageIndex ↦ ?_) _) fun decisions ↦ ?_
    · exact firstConclusive_onlyRaises page pageIndex none candidates
    · refine OnlyRaises.bind (aggregateUnknownPageDecisions_onlyRaises decisions) fun summary ↦ ?_
      split_ifs
      · exact .ok summary
      · exact ih _

/-! ## 2. The image library -/

/-- An EXIF orientation that exchanges the axes. -/
def Sideways (orientation : Nat) : Prop := 5 ≤ orientation ∧ orientation ≤ 8

instance (orientation : Nat) : Decidable (Sideways orientation) :=
  inferInstanceAs (Decidable (_ ∧ _))

/-- Color decoding returns three bytes a pixel in the declared dimensions, which are exchanged when
the image lies on its side; no image is empty. -/
def ImageCodec.Orients (codec : ImageCodec) (orientation : List UInt8 → Nat) : Prop :=
  ∀ source width height raster, Declares source width height →
    codec.imdecode .color source = .ok (some raster) →
    (0 < width ∧ 0 < height) ∧ raster.uint8 = true ∧
      raster.shape =
        if Sideways (orientation source) then [width, height, 3] else [height, width, 3]

section Worker

variable {limits : ContentLimits} {codec : ImageCodec} {stages : ContentStages}

/-- What issuance goes on with is what the library decoded, within the limits. -/
theorem admitIssuanceImage_eq_ok {source : List UInt8} {raster : DecodedArray}
    (h : (admitIssuanceImage limits codec source).result = .ok raster) :
    source.length ≤ limits.maxPdfBytes ∧ codec.imdecode .color source = .ok (some raster) ∧
      raster.shape.getD 0 0 * raster.shape.getD 1 0 ≤ limits.maxImagePixels := by
  simp only [admitIssuanceImage, ImageCodec.decode, Traced.bind_result, Traced.quiet_result,
    Traced.record_result, Traced.pure_result, ok_bind, bind_eq_ok, raiseIf_eq_ok, exists_unit,
    found_eq_ok, not_lt, Except.ok.injEq] at h
  obtain ⟨hlong, decoded, hdecoded, raster', rfl, -, hpixels, rfl⟩ := h
  exact ⟨hlong, hdecoded, hpixels⟩

theorem checkDimensions_result (width height : Nat) :
    (checkDimensions limits width height).result =
      validateImageDimensions limits.toRasterLimits width height := by
  cases h : validateImageDimensions limits.toRasterLimits width height with
  | ok _ => rw [checkDimensions_of_ok h]
  | error e => rw [checkDimensions_of_error h]

/-- Of a decoded raster only the shape and the type are looked at. -/
theorem decodeImage_result {candidates : List FingerprintV2Profile} {source : List UInt8}
    {raster : DecodedArray} (hdecoded : codec.imdecode .color source = .ok (some raster))
    (htype : raster.uint8 = true) (width height : Nat) :
    (decodeImage codec stages candidates source width height).result ≠ .error imageInvalid ↔
      raster.shape = [height, width, 3] := by
  simp only [decodeImage, ImageCodec.decode, Traced.bind_result, Traced.quiet_result,
    Traced.record_result, Traced.pure_result, ok_bind, hdecoded, found_some]
  by_cases hshape : raster.shape = [height, width, 3]
  · have hvalid : ¬ (raster.uint8 = false ∨ raster.shape.length ≠ 3 ∨
        raster.shape ≠ [height, width, 3]) := by
      rw [htype, hshape]
      simp
    rw [raiseIf_neg hvalid, ok_bind]
    refine iff_of_true (fun herror ↦ ?_) hshape
    refine OnlyRaises.bind (firstConclusiveSummary_onlyRaises candidates none _)
      (fun summary ↦ OnlyRaises.ok _) imageInvalid herror rfl
  · have hinvalid : raster.uint8 = false ∨ raster.shape.length ≠ 3 ∨
        raster.shape ≠ [height, width, 3] := .inr (.inr hshape)
    rw [raiseIf_pos hinvalid, error_bind]
    exact iff_of_false (not_not.mpr rfl) hshape

/-- A path that takes the dimensions from the header, on an image that issuance takes. -/
theorem decodeSized_result {dimensions : List UInt8 → Except Raised (Nat × Nat)}
    {candidates : List FingerprintV2Profile} {source : List UInt8} {raster : DecodedArray}
    {orientation : List UInt8 → Nat} (hcodec : codec.Orients orientation)
    (hadmitted : (admitIssuanceImage limits codec source).result = .ok raster)
    (hdeclared : ∀ width height, Declares source width height →
      dimensions source = .ok (width, height))
    (hrefused : (∀ width height, ¬ Declares source width height) →
      dimensions source = .error imageInvalid) :
    (decodeSized limits codec stages dimensions candidates source).result ≠ .error imageInvalid ↔
      ∃ width height, Declares source width height ∧
        (Sideways (orientation source) → width = height) := by
  obtain ⟨-, hdecoded, hpixels⟩ := admitIssuanceImage_eq_ok hadmitted
  rw [decodeSized, Traced.bind_result, Traced.quiet_result]
  by_cases hsome : ∃ width height, Declares source width height
  · obtain ⟨width, height, hdeclares⟩ := hsome
    have heq := hdeclared width height hdeclares
    obtain ⟨hpositive, htype, hshape⟩ := hcodec source width height raster hdeclares hdecoded
    have hlimit : width * height ≤ limits.maxImagePixels := by
      rw [hshape] at hpixels
      split_ifs at hpixels
      · exact hpixels
      · rw [Nat.mul_comm]
        exact hpixels
    rw [heq, ok_bind, Traced.bind_result, checkDimensions_result,
      validateImageDimensions_eq_ok.mpr ⟨hpositive, hlimit⟩, ok_bind,
      decodeImage_result hdecoded htype, hshape]
    -- a source declares at most one size, so the condition is about the one it declares
    have hunique : (∃ width' height', Declares source width' height' ∧
        (Sideways (orientation source) → width' = height')) ↔
          (Sideways (orientation source) → width = height) := by
      constructor
      · rintro ⟨width', height', hdeclares', hsquare⟩
        have hsame := hdeclared width' height' hdeclares'
        rw [heq] at hsame
        cases hsame
        exact hsquare
      · exact fun hsquare ↦ ⟨width, height, hdeclares, hsquare⟩
    rw [hunique]
    split_ifs with hsideways
    · simp only [List.cons.injEq, and_true, hsideways, true_implies]
      exact ⟨fun h ↦ h.1, fun h ↦ ⟨h, h.symm⟩⟩
    · exact iff_of_true rfl fun h ↦ absurd h hsideways
  · rw [hrefused fun width height hdeclares ↦ hsome ⟨width, height, hdeclares⟩, error_bind]
    refine iff_of_false (not_not.mpr rfl) ?_
    rintro ⟨width, height, hdeclares, -⟩
    exact hsome ⟨width, height, hdeclares⟩

/-! ## 3. The two formats -/

theorem pngDimensions_declared {source : List UInt8} (hpng : pngMagic <+: source) :
    (∀ width height, Declares source width height → pngDimensions source = .ok (width, height)) ∧
      ((∀ width height, ¬ Declares source width height) →
        pngDimensions source = .error imageInvalid) := by
  constructor
  · intro width height hdeclares
    rcases hdeclares with ⟨-, hdeclares⟩ | ⟨hjpeg, -⟩
    · exact hdeclares.pngDimensions_eq
    · exact absurd hjpeg ((magic_disjoint source).2 hpng)
  · intro hnone
    rcases pngDimensions_cases source with ⟨width, height, hdeclares⟩ | ⟨-, herror⟩
    · exact absurd (.inl ⟨hpng, hdeclares⟩) (hnone width height)
    · exact herror

theorem jpegDimensions_declared {source : List UInt8} (hjpeg : jpegMagic <+: source) :
    (∀ width height, Declares source width height → jpegDimensions source = .ok (width, height)) ∧
      ((∀ width height, ¬ Declares source width height) →
        jpegDimensions source = .error imageInvalid) := by
  constructor
  · intro width height hdeclares
    rcases hdeclares with ⟨hpng, -⟩ | ⟨-, hframe⟩
    · exact absurd hjpeg ((magic_disjoint source).2 hpng)
    · exact jpegDimensions_eq_ok.mpr hframe
  · intro hnone
    cases h : jpegDimensions source with
    | error e => rw [(jpegDimensions_eq_error.mp h).1]
    | ok declared =>
      exact absurd (.inr ⟨hjpeg, jpegDimensions_eq_ok.mp h⟩) (hnone declared.1 declared.2)

theorem decodeSource_png {source : List UInt8} (candidates : List FingerprintV2Profile)
    (hlong : source.length ≤ limits.maxPdfBytes) (hpng : pngMagic <+: source) :
    decodeSource limits codec stages candidates source =
      decodePng limits codec stages candidates source := by
  rw [decodeSource, if_neg (not_lt.mpr hlong),
    if_neg fun hpdf ↦ ((magic_disjoint source).1 hpdf).1 hpng, if_pos hpng]

theorem decodeSource_jpeg {source : List UInt8} (candidates : List FingerprintV2Profile)
    (hlong : source.length ≤ limits.maxPdfBytes) (hjpeg : jpegMagic <+: source) :
    decodeSource limits codec stages candidates source =
      decodeJpeg limits codec stages candidates source := by
  rw [decodeSource, if_neg (not_lt.mpr hlong),
    if_neg fun hpdf ↦ ((magic_disjoint source).1 hpdf).2 hjpeg,
    if_neg fun hpng ↦ (magic_disjoint source).2 hpng hjpeg, if_pos hjpeg]

/-- **When the workers agree on an image.**  An image that issuance takes is not refused as invalid
by fingerprint verification exactly when its header declares dimensions, and it does not lie on its
side unless it is square. -/
theorem image_admission_iff (limits : ContentLimits) (codec : ImageCodec) (stages : ContentStages)
    (candidates : List FingerprintV2Profile) (orientation : List UInt8 → Nat) (source : List UInt8)
    (raster : DecodedArray) (hcodec : codec.Orients orientation)
    (himage : pngMagic <+: source ∨ jpegMagic <+: source)
    (hadmitted : (admitIssuanceImage limits codec source).result = .ok raster) :
    (decodeSource limits codec stages candidates source).result ≠ .error imageInvalid ↔
      ∃ width height, Declares source width height ∧
        (Sideways (orientation source) → width = height) := by
  obtain ⟨hlong, -, -⟩ := admitIssuanceImage_eq_ok hadmitted
  rcases himage with hpng | hjpeg
  · obtain ⟨hdeclared, hrefused⟩ := pngDimensions_declared hpng
    rw [decodeSource_png candidates hlong hpng]
    exact decodeSized_result hcodec hadmitted hdeclared hrefused
  · obtain ⟨hdeclared, hrefused⟩ := jpegDimensions_declared hjpeg
    rw [decodeSource_jpeg candidates hlong hjpeg]
    exact decodeSized_result hcodec hadmitted hdeclared hrefused

end Worker

/-! ### A photograph on its side -/

/-- A library that goes by the header, and turns every image by one orientation. -/
def headerCodec (orientation : Nat) : ImageCodec where
  imdecode _ source :=
    let dimensions := if pngMagic <+: source then pngDimensions source else jpegDimensions source
    .ok <| dimensions.toOption.bind fun (width, height) ↦
      if 0 < width ∧ 0 < height then
        some ⟨if Sideways orientation then [width, height, 3] else [height, width, 3], true⟩
      else none
  allocated _ := 0
  imencode _ := none

theorem headerCodec_imdecode {source : List UInt8} {width height : Nat} (orientation : Nat)
    (mode : ReadMode) (hdeclares : Declares source width height) :
    (headerCodec orientation).imdecode mode source =
      .ok (if 0 < width ∧ 0 < height then
        some ⟨if Sideways orientation then [width, height, 3] else [height, width, 3], true⟩
      else none) := by
  have hdimensions : (if pngMagic <+: source then pngDimensions source else jpegDimensions source) =
      .ok (width, height) := by
    split_ifs with hpng
    · exact (pngDimensions_declared hpng).1 width height hdeclares
    · have hjpeg : jpegMagic <+: source := hdeclares.elim (fun h ↦ absurd h.1 hpng) And.left
      exact (jpegDimensions_declared hjpeg).1 width height hdeclares
  show Except.ok (Option.bind (Except.toOption (if _ then _ else _)) _) = _
  rw [hdimensions]
  rfl

theorem headerCodec_orients (orientation : Nat) :
    (headerCodec orientation).Orients fun _ ↦ orientation := by
  intro source width height raster hdeclares hdecoded
  rw [headerCodec_imdecode orientation .color hdeclares, Except.ok.injEq] at hdecoded
  by_cases hpositive : 0 < width ∧ 0 < height
  · rw [if_pos hpositive] at hdecoded
    cases hdecoded
    exact ⟨hpositive, rfl, rfl⟩
  · rw [if_neg hpositive] at hdecoded
    cases hdecoded

/-- A JPEG one pixel wide and two pixels high, with an orientation in its EXIF segment. -/
def photograph (orientation : UInt8) : List UInt8 :=
  [0xff, 0xd8] ++
    [0xff, 0xe1, 0x00, 0x22, 0x45, 0x78, 0x69, 0x66, 0x00, 0x00, 0x4d, 0x4d, 0x00, 0x2a, 0x00, 0x00,
      0x00, 0x08, 0x00, 0x01, 0x01, 0x12, 0x00, 0x03, 0x00, 0x00, 0x00, 0x01, 0x00, orientation, 0x00, 0x00,
      0x00, 0x00, 0x00, 0x00] ++
    ([0xff, 0xdb, 0x00, 0x43, 0x00] ++ List.replicate 64 0x01) ++
    [0xff, 0xc0, 0x00, 0x0b, 0x08, 0x00, 0x02, 0x00, 0x01, 0x01, 0x01, 0x11, 0x00] ++
    ([0xff, 0xc4, 0x00, 0x14, 0x00, 0x01] ++ List.replicate 16 0x00) ++
    ([0xff, 0xc4, 0x00, 0x14, 0x10, 0x01] ++ List.replicate 16 0x00) ++
    [0xff, 0xda, 0x00, 0x08, 0x01, 0x01, 0x00, 0x00, 0x3f, 0x00, 0x3f, 0xff, 0xd9]

/-- One fill byte and a marker code. -/
theorem MarkerAt.single {source : List UInt8} {offset : Nat} {marker : UInt8}
    (hfill : source[offset]? = some 0xff) (hcode : source[offset + 1]? = some marker)
    (hne : marker ≠ 0xff) : MarkerAt source offset (offset + 1) marker := by
  refine ⟨Nat.lt_succ_self offset, fun i hle hlt ↦ ?_, hcode, hne⟩
  rw [show i = offset by omega]
  exact hfill

theorem photograph_length (orientation : UInt8) : (photograph orientation).length = 177 := by
  simp only [photograph, List.length_append, List.length_replicate, List.length_cons,
    List.length_nil]

theorem photograph_declares (orientation : UInt8) : Declares (photograph orientation) 1 2 := by
  have hsize := photograph_length orientation
  have hexif : JpegNext (photograph orientation) 2 38 := by
    have hmarker : MarkerAt (photograph orientation) 2 3 0xe1 := .single rfl rfl (by decide)
    have hlength : LengthAt (photograph orientation) 4 34 :=
      ⟨⟨0x00, 0x22, rfl, rfl, rfl⟩, by decide, by omega⟩
    exact .segment hmarker (by unfold Standalone; decide) (by unfold Terminal; decide) (by decide)
      hlength
  have htable : JpegNext (photograph orientation) 38 107 := by
    have hmarker : MarkerAt (photograph orientation) 38 39 0xdb := .single rfl rfl (by decide)
    have hlength : LengthAt (photograph orientation) 40 67 :=
      ⟨⟨0x00, 0x43, rfl, rfl, rfl⟩, by decide, by omega⟩
    exact .segment hmarker (by unfold Standalone; decide) (by unfold Terminal; decide) (by decide)
      hlength
  have hframe : FrameAt (photograph orientation) 107 1 2 := by
    have hmarker : MarkerAt (photograph orientation) 107 108 0xc0 := .single rfl rfl (by decide)
    have hlength : LengthAt (photograph orientation) 109 11 :=
      ⟨⟨0x00, 0x0b, rfl, rfl, rfl⟩, by decide, by omega⟩
    exact ⟨108, 0xc0, 11, hmarker, by decide, hlength, by decide, ⟨0x00, 0x02, rfl, rfl, rfl⟩,
      ⟨0x00, 0x01, rfl, rfl, rfl⟩⟩
  exact .inr ⟨⟨_, rfl⟩, 107, .tail (.single hexif) htable, hframe⟩

theorem photograph_magic (orientation : UInt8) : jpegMagic <+: photograph orientation := ⟨_, rfl⟩

/-- Issuance takes the photograph whichever way it lies. -/
theorem photograph_admitted (orientation : UInt8) :
    (admitIssuanceImage sampleContentLimits (headerCodec orientation.toNat)
      (photograph orientation)).result =
      .ok ⟨if Sideways orientation.toNat then [1, 2, 3] else [2, 1, 3], true⟩ := by
  have hshort : ¬ sampleContentLimits.maxPdfBytes < (photograph orientation).length := by
    rw [photograph_length]
    decide
  have hdecoded : (headerCodec orientation.toNat).imdecode .color (photograph orientation) =
      .ok (some ⟨if Sideways orientation.toNat then [1, 2, 3] else [2, 1, 3], true⟩) :=
    headerCodec_imdecode orientation.toNat .color (photograph_declares orientation)
  rw [admitIssuanceImage, raiseIf_neg hshort]
  simp only [ImageCodec.decode, Traced.bind_result, Traced.quiet_result, Traced.record_result,
    Traced.pure_result, ok_bind, hdecoded, found_some]
  split_ifs with hsideways
  · rfl
  · rfl

/-- A photograph on its side: issuance takes it, and fingerprint verification refuses it. -/
theorem sidewaysPhotograph_refused :
    (headerCodec 6).Orients (fun _ ↦ 6) ∧ jpegMagic <+: photograph 6 ∧
      (admitIssuanceImage sampleContentLimits (headerCodec 6) (photograph 6)).result =
        .ok ⟨[1, 2, 3], true⟩ ∧
      (decodeSource sampleContentLimits (headerCodec 6) blankStages acceptedDecodeCandidates
        (photograph 6)).result = .error imageInvalid := by
  have hshort : (photograph 6).length ≤ sampleContentLimits.maxPdfBytes := by
    rw [photograph_length]
    decide
  have hadmitted : (admitIssuanceImage sampleContentLimits (headerCodec 6) (photograph 6)).result =
      .ok ⟨[1, 2, 3], true⟩ := photograph_admitted 6
  obtain ⟨hdeclared, hrefused⟩ := jpegDimensions_declared (photograph_magic 6)
  refine ⟨headerCodec_orients 6, photograph_magic 6, hadmitted, ?_⟩
  rw [decodeSource_jpeg acceptedDecodeCandidates hshort (photograph_magic 6)]
  by_contra hagreed
  obtain ⟨width, height, hdeclares, hsquare⟩ :=
    (decodeSized_result (headerCodec_orients 6) hadmitted hdeclared hrefused).mp hagreed
  have hsize := (hdeclared width height hdeclares).symm.trans (hdeclared 1 2 (photograph_declares 6))
  cases hsize
  exact absurd (hsquare (by decide)) (by decide)

/-- Upright it passes. -/
theorem uprightPhotograph_agreed :
    (decodeSource sampleContentLimits (headerCodec 1) blankStages acceptedDecodeCandidates
      (photograph 1)).result ≠ .error imageInvalid :=
  (image_admission_iff sampleContentLimits (headerCodec 1) blankStages acceptedDecodeCandidates
    (fun _ ↦ 1) (photograph 1) ⟨[2, 1, 3], true⟩ (headerCodec_orients 1)
    (.inr (photograph_magic 1)) (photograph_admitted 1)).mpr
    ⟨1, 2, photograph_declares 1, fun hsideways ↦ absurd hsideways (by decide)⟩

end Splitbind
