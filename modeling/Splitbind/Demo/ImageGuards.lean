import Splitbind.Demo.ImageAdmission

/-!
# Image guards — which paths check the declared size before they decode

Only verification in fingerprint mode reads the dimensions from the header first; the other paths
call the pixel decoder and look at the size of what it returns.
-/

namespace Splitbind

open Transaction

/-! ## 1. What a trace has to show -/

/-- The settings that choose a path. -/
structure WorkerMode where
  integrityMode : Bool
  fingerprintEnabled : Bool
deriving DecidableEq, Repr

/-- `integrity_mode and not fingerprint_enabled`. -/
def WorkerMode.integrityOnly (mode : WorkerMode) : Bool :=
  mode.integrityMode && !mode.fingerprintEnabled

inductive ImageWorker
  | issuance
  | verification
deriving DecidableEq, Repr

section Worker

variable (limits : ContentLimits) (codec : ImageCodec) (stages : ContentStages)

/-- What a worker does with the image library on a byte string. -/
def decoderEvents (mode : WorkerMode) (keyLoaded : Bool) (candidates : List FingerprintV2Profile) :
    ImageWorker → List UInt8 → List ImageEvent
  | .issuance, source => (buildArtifact limits codec stages mode.integrityOnly keyLoaded source).events
  | .verification, source =>
    if mode.integrityOnly then (inspectSource limits codec stages source).events
    else (decodeSource limits codec stages candidates source).events

end Worker

/-- The declared dimensions were checked, and they are within the limit. -/
def ImageEvent.checks (limits : ContentLimits) (source : List UInt8) (event : ImageEvent) : Prop :=
  ∃ width height, event = .dimensionsChecked width height ∧ Declares source width height ∧
    width * height ≤ limits.maxImagePixels

def ImageEvent.decodes (event : ImageEvent) : Prop := ∃ pixels, event = .pixelsDecoded pixels

/-- Every call of the pixel decoder comes after the check of the declared dimensions, and allocates
no more pixels than the limit. -/
structure SizeChecked (limits : ContentLimits) (source : List UInt8) (events : List ImageEvent) :
    Prop where
  guarded : Traced.Guarded (ImageEvent.checks limits source) ImageEvent.decodes [] events
  bounded : ∀ pixels, .pixelsDecoded pixels ∈ events → pixels ≤ limits.maxImagePixels

/-- The library allocates what the header declares, at most. -/
def ImageCodec.AllocatesDeclared (codec : ImageCodec) : Prop :=
  ∀ source width height, Declares source width height → codec.allocated source ≤ width * height

/-! ## 2. Verification in fingerprint mode -/

section Worker

variable {limits : ContentLimits} {codec : ImageCodec} {stages : ContentStages}

/-- A trace whose decoder calls allocate for one byte string is bounded when it is guarded. -/
theorem SizeChecked.of_guarded {source : List UInt8} {events : List ImageEvent}
    (hcodec : codec.AllocatesDeclared)
    (hguarded : Traced.Guarded (ImageEvent.checks limits source) ImageEvent.decodes [] events)
    (hallocated : ∀ pixels, .pixelsDecoded pixels ∈ events → pixels = codec.allocated source) :
    SizeChecked limits source events := by
  refine ⟨hguarded, fun pixels hpixels ↦ ?_⟩
  obtain ⟨before, after, hevents⟩ := List.append_of_mem hpixels
  obtain ⟨check, -, width, height, -, hdeclares, hlimit⟩ :=
    hguarded before _ after hevents ⟨pixels, rfl⟩
  calc pixels = codec.allocated source := hallocated pixels hpixels
    _ ≤ width * height := hcodec source width height hdeclares
    _ ≤ limits.maxImagePixels := hlimit

theorem validateImageDimensions_eq_ok {limits : RasterLimits} {width height : Nat} :
    validateImageDimensions limits width height = .ok () ↔
      (0 < width ∧ 0 < height) ∧ width * height ≤ limits.maxImagePixels := by
  simp only [validateImageDimensions, bind_eq_ok, raiseIf_eq_ok, exists_unit, not_or, not_le, not_lt]

/-- What a passed check records. -/
theorem checkDimensions_of_ok {width height : Nat}
    (h : validateImageDimensions limits.toRasterLimits width height = .ok ()) :
    checkDimensions limits width height = ⟨[.dimensionsChecked width height], .ok ()⟩ := by
  rw [checkDimensions, Traced.bind_of_ok h]
  rfl

theorem checkDimensions_of_error {width height : Nat} {e : Raised}
    (h : validateImageDimensions limits.toRasterLimits width height = .error e) :
    checkDimensions limits width height = ⟨[], .error e⟩ :=
  Traced.bind_of_error h _

/-- The decoder is called once, and nothing is recorded after it. -/
theorem decodeImage_events (candidates : List FingerprintV2Profile) (source : List UInt8)
    (width height : Nat) :
    (decodeImage codec stages candidates source width height).events =
      [.pixelsDecoded (codec.allocated source)] := by
  rw [decodeImage, Traced.bind_events_of_silent]
  · rfl
  · intro raster
    rw [Traced.bind_events_of_silent]
    · rfl
    · intro raster
      rw [Traced.bind_events_of_silent]
      · rfl
      · intro _
        exact Traced.bind_events_of_silent _ fun _ ↦ rfl

/-- A path that takes the dimensions from the header is guarded. -/
theorem decodeSized_guarded {dimensions : List UInt8 → Except Raised (Nat × Nat)}
    {candidates : List FingerprintV2Profile} {source : List UInt8}
    (hdimensions : ∀ width height, dimensions source = .ok (width, height) →
      Declares source width height) :
    Traced.Guarded (ImageEvent.checks limits source) ImageEvent.decodes []
      (decodeSized limits codec stages dimensions candidates source).events := by
  refine Traced.Guarded.quiet_bind fun declared hdeclared ↦ ?_
  obtain ⟨width, height⟩ := declared
  cases hvalid : validateImageDimensions limits.toRasterLimits width height with
  | error e =>
    show Traced.Guarded _ _ [] (checkDimensions limits width height >>= _).events
    rw [checkDimensions_of_error hvalid, Traced.bind_of_error rfl]
    exact .of_unused fun event h ↦ absurd h List.not_mem_nil
  | ok _ =>
    show Traced.Guarded _ _ [] (checkDimensions limits width height >>= _).events
    rw [checkDimensions_of_ok hvalid]
    obtain ⟨-, hlimit⟩ := validateImageDimensions_eq_ok.mp hvalid
    refine Traced.Guarded.bind (.of_unused fun event h huse ↦ ?_) fun _ _ ↦ .of_guard ?_
    · rw [List.mem_singleton] at h
      rw [h] at huse
      obtain ⟨pixels, hpixels⟩ := huse
      exact ImageEvent.noConfusion hpixels
    · exact ⟨_, List.mem_singleton_self _, width, height, rfl,
        hdimensions width height hdeclared, hlimit⟩

/-- Only the bytes that are looked at are decoded. -/
theorem decodeSized_allocated {dimensions : List UInt8 → Except Raised (Nat × Nat)}
    {candidates : List FingerprintV2Profile} {source : List UInt8} {pixels : Nat}
    (h : .pixelsDecoded pixels ∈
      (decodeSized limits codec stages dimensions candidates source).events) :
    pixels = codec.allocated source := by
  rcases Traced.mem_events_bind h with hquiet | ⟨declared, -, h⟩
  · exact absurd hquiet List.not_mem_nil
  rcases Traced.mem_events_bind h with hcheck | ⟨_, -, h⟩
  · cases hvalid : validateImageDimensions limits.toRasterLimits declared.1 declared.2 with
    | error e =>
      rw [checkDimensions_of_error hvalid] at hcheck
      exact absurd hcheck List.not_mem_nil
    | ok _ =>
      rw [checkDimensions_of_ok hvalid, List.mem_singleton] at hcheck
      exact ImageEvent.noConfusion hcheck
  · rw [decodeImage_events, List.mem_singleton] at h
    exact ImageEvent.pixelsDecoded.inj h

theorem pngDimensions_declares {source : List UInt8} {width height : Nat}
    (h : pngDimensions source = .ok (width, height)) : PngDeclares source width height := by
  rcases pngDimensions_cases source with ⟨width', height', hdeclares⟩ | ⟨-, herror⟩
  · rw [hdeclares.pngDimensions_eq] at h
    cases h
    exact hdeclares
  · rw [herror] at h
    cases h

/-- In fingerprint mode every byte string is safe. -/
theorem decodeSource_sizeChecked (hcodec : codec.AllocatesDeclared)
    (candidates : List FingerprintV2Profile) (source : List UInt8) :
    SizeChecked limits source (decodeSource limits codec stages candidates source).events := by
  have hsilent : ∀ {x : Except Raised (DecodeSummary × Nat)},
      SizeChecked limits source (Traced.quiet x : ImageRun (DecodeSummary × Nat)).events :=
    ⟨.of_unused fun event h ↦ absurd h List.not_mem_nil,
      fun pixels h ↦ absurd h List.not_mem_nil⟩
  unfold decodeSource
  split_ifs with hlong hpdf hpng hjpeg
  · exact hsilent
  · exact hsilent
  · refine .of_guarded hcodec (decodeSized_guarded fun width height h ↦ ?_)
      fun pixels ↦ decodeSized_allocated
    exact .inl ⟨hpng, pngDimensions_declares h⟩
  · refine .of_guarded hcodec (decodeSized_guarded fun width height h ↦ ?_)
      fun pixels ↦ decodeSized_allocated
    exact .inr ⟨hjpeg, jpegDimensions_eq_ok.mp h⟩
  · exact hsilent

/-! ## 3. The other paths -/

/-- A path that calls the decoder first is not safe. -/
theorem not_sizeChecked_of_decode {source : List UInt8} {events : List ImageEvent} {pixels : Nat}
    (h : [.pixelsDecoded pixels] <+: events) : ¬ SizeChecked limits source events := by
  obtain ⟨rest, rfl⟩ := h
  exact fun hchecked ↦ Traced.not_guarded_cons ⟨pixels, rfl⟩ rest hchecked.guarded

/-- What is decoded first is recorded first. -/
theorem decode_recordedFirst {α : Type} (mode : ReadMode) (source : List UInt8)
    (f : Option DecodedArray → ImageRun α) :
    [.pixelsDecoded (codec.allocated source)] <+: (codec.decode mode source >>= f).events := by
  have hdecode : (codec.decode mode source).events = [.pixelsDecoded (codec.allocated source)] := rfl
  rw [← hdecode]
  exact Traced.events_prefix_bind _ f

theorem inspectSource_decodesFirst {source : List UInt8} (hlong : source.length ≤ limits.maxPdfBytes)
    (himage : pngMagic <+: source ∨ jpegMagic <+: source) :
    [.pixelsDecoded (codec.allocated source)] <+: (inspectSource limits codec stages source).events := by
  have hpdf : ¬ pdfMagic <+: source := by
    intro hpdf
    obtain ⟨hpng, hjpeg⟩ := (magic_disjoint source).1 hpdf
    exact himage.elim hpng hjpeg
  rw [inspectSource, if_neg (not_lt.mpr hlong), if_neg hpdf, if_pos himage]
  exact decode_recordedFirst .unchanged source _

theorem buildArtifact_decodesFirst {source : List UInt8} (visibleMarker keyLoaded : Bool)
    (hlong : source.length ≤ limits.maxPdfBytes)
    (himage : pngMagic <+: source ∨ jpegMagic <+: source) :
    [.pixelsDecoded (codec.allocated source)] <+:
      (buildArtifact limits codec stages visibleMarker keyLoaded source).events := by
  have hraster : [.pixelsDecoded (codec.allocated source)] <+:
      (admitIssuanceImage limits codec source).events := by
    rw [admitIssuanceImage, raiseIf_neg (not_lt.mpr hlong), Traced.bind_of_ok rfl]
    exact decode_recordedFirst .color source _
  rw [buildArtifact, if_pos himage]
  exact (hraster.trans (Traced.events_prefix_bind _ _)).trans (Traced.events_prefix_bind _ _)

/-- Where the decoder is not reached nothing is recorded. -/
theorem inspectSource_events {source : List UInt8} (h : limits.maxPdfBytes < source.length ∨
    ¬ (pngMagic <+: source ∨ jpegMagic <+: source)) :
    (inspectSource limits codec stages source).events = [] := by
  unfold inspectSource
  split_ifs with hlong hpdf himage
  · rfl
  · rfl
  · exact absurd h (not_or.mpr ⟨hlong, not_not.mpr himage⟩)
  · rfl

theorem buildArtifact_events {source : List UInt8} (visibleMarker keyLoaded : Bool)
    (h : limits.maxPdfBytes < source.length ∨ ¬ (pngMagic <+: source ∨ jpegMagic <+: source)) :
    (buildArtifact limits codec stages visibleMarker keyLoaded source).events = [] := by
  unfold buildArtifact
  split_ifs with himage
  · have hlong : limits.maxPdfBytes < source.length := h.resolve_right (not_not.mpr himage)
    have hraster : admitIssuanceImage limits codec source =
        ⟨[], .error (.demoIssuance .demoPdfFileLimit 0)⟩ := by
      rw [admitIssuanceImage, raiseIf_pos hlong, Traced.bind_of_error rfl]
      rfl
    rw [buildImage, hraster, Traced.bind_of_error rfl, Traced.bind_of_error rfl]
  · exact Traced.bind_events_of_silent _ fun _ ↦ rfl

/-- A worker that decodes first and records nothing else before has checked a source's size only when
it never reaches the decoder. -/
theorem sizeChecked_iff_unreached {source : List UInt8} {events : List ImageEvent} {pixels : Nat}
    (hempty : limits.maxPdfBytes < source.length ∨ ¬ (pngMagic <+: source ∨ jpegMagic <+: source) →
      events = [])
    (hdecodes : source.length ≤ limits.maxPdfBytes → pngMagic <+: source ∨ jpegMagic <+: source →
      [.pixelsDecoded pixels] <+: events) :
    SizeChecked limits source events ↔
      limits.maxPdfBytes < source.length ∨ ¬ (pngMagic <+: source ∨ jpegMagic <+: source) := by
  by_cases hunreached : limits.maxPdfBytes < source.length ∨
      ¬ (pngMagic <+: source ∨ jpegMagic <+: source)
  · rw [hempty hunreached]
    refine iff_of_true ⟨.of_unused fun event h ↦ absurd h List.not_mem_nil, fun pixels h ↦ ?_⟩
      hunreached
    exact absurd h List.not_mem_nil
  · refine iff_of_false ?_ hunreached
    rw [not_or, not_lt, not_not] at hunreached
    exact not_sizeChecked_of_decode (hdecodes hunreached.1 hunreached.2)

/-- **When the declared size is checked first.**  A worker calls the pixel decoder only after the
declared dimensions were found within the limit, and never allocates more, exactly in fingerprint
verification and where the decoder is not reached at all. -/
theorem size_checked_iff (limits : ContentLimits) (codec : ImageCodec) (stages : ContentStages)
    (mode : WorkerMode) (keyLoaded : Bool) (candidates : List FingerprintV2Profile)
    (worker : ImageWorker) (source : List UInt8) (hcodec : codec.AllocatesDeclared) :
    SizeChecked limits source
        (decoderEvents limits codec stages mode keyLoaded candidates worker source) ↔
      worker = .verification ∧ mode.integrityOnly = false ∨
        limits.maxPdfBytes < source.length ∨ ¬ (pngMagic <+: source ∨ jpegMagic <+: source) := by
  cases worker with
  | issuance =>
    show SizeChecked limits source
      (buildArtifact limits codec stages mode.integrityOnly keyLoaded source).events ↔ _
    rw [sizeChecked_iff_unreached (buildArtifact_events mode.integrityOnly keyLoaded)
      (buildArtifact_decodesFirst mode.integrityOnly keyLoaded)]
    exact (or_iff_right fun h ↦ ImageWorker.noConfusion h.1).symm
  | verification =>
    cases hintegrity : mode.integrityOnly with
    | false =>
      -- the one path that reads the declared size before it decodes
      refine iff_of_true ?_ (.inl ⟨rfl, rfl⟩)
      show SizeChecked limits source (if mode.integrityOnly then _ else _)
      rw [hintegrity]
      exact decodeSource_sizeChecked hcodec candidates source
    | true =>
      show SizeChecked limits source (if mode.integrityOnly then _ else _) ↔ _
      rw [hintegrity, if_pos rfl,
        sizeChecked_iff_unreached inspectSource_events inspectSource_decodesFirst]
      exact (or_iff_right fun h ↦ Bool.noConfusion h.2).symm

end Worker

/-! ### A small file that declares nine hundred million pixels -/

/-- A PNG of 30000 by 30000 pixels with an empty data stream. -/
def oversizedPng : List UInt8 :=
  pngMagic ++
    [0x00, 0x00, 0x00, 0x0d, 0x49, 0x48, 0x44, 0x52, 0x00, 0x00, 0x75, 0x30, 0x00, 0x00, 0x75, 0x30,
      0x08, 0x00, 0x00, 0x00, 0x00, 0x43, 0x4c, 0xa7, 0x66] ++
    [0x00, 0x00, 0x00, 0x08, 0x49, 0x44, 0x41, 0x54, 0x78, 0xda, 0x03, 0x00, 0x00, 0x00, 0x00, 0x01,
      0x6f, 0xdd, 0xc9, 0x91] ++
    [0x00, 0x00, 0x00, 0x00, 0x49, 0x45, 0x4e, 0x44, 0xae, 0x42, 0x60, 0x82]

def sampleContentLimits : ContentLimits := ⟨sampleLimits, 100000000⟩

/-- A library that decodes nothing, but allocates what the header of a PNG declares. -/
def allocatingCodec : ImageCodec where
  imdecode _ _ := .ok none
  allocated source :=
    if pngMagic <+: source then
      (pngDimensions source).toOption.elim 0 fun declared ↦ declared.1 * declared.2
    else 0
  imencode _ := none

def blankCanvas : Canvas := fun _ _ ↦ .unaligned none

def blankStages : ContentStages where
  decodePdf _ := .error .other
  inspectPdf _ := .error .other
  buildPdf _ := .error .other
  canonical _ := blankCanvas
  restored _ := none
  visibleMarker := id
  selectFrozenCandidate := .ok demoFrozenCandidateIdentifier
  fingerprinted := id

theorem allocatingCodec_allocatesDeclared : allocatingCodec.AllocatesDeclared := by
  intro source width height hdeclares
  show (if pngMagic <+: source then _ else 0) ≤ width * height
  rcases hdeclares with ⟨hpng, hdeclares⟩ | ⟨hjpeg, -⟩
  · rw [if_pos hpng, hdeclares.pngDimensions_eq]
    exact le_refl _
  · rw [if_neg fun hpng ↦ (magic_disjoint source).2 hpng hjpeg]
    exact Nat.zero_le _

/-- Fingerprint verification refuses the file by its header. -/
theorem oversizedPng_refused :
    SizeChecked sampleContentLimits oversizedPng (decoderEvents sampleContentLimits allocatingCodec
      blankStages ⟨true, true⟩ true acceptedDecodeCandidates .verification oversizedPng) :=
  (size_checked_iff sampleContentLimits allocatingCodec blankStages ⟨true, true⟩ true
    acceptedDecodeCandidates .verification oversizedPng allocatingCodec_allocatesDeclared).mpr
    (.inl ⟨rfl, rfl⟩)

/-- Integrity verification and issuance allocate its nine hundred million pixels, unchecked. -/
theorem oversizedPng_allocated :
    ImageEvent.pixelsDecoded 900000000 ∈ decoderEvents sampleContentLimits allocatingCodec blankStages
        ⟨true, false⟩ false [] .verification oversizedPng ∧
      ¬ SizeChecked sampleContentLimits oversizedPng (decoderEvents sampleContentLimits
        allocatingCodec blankStages ⟨true, false⟩ false [] .verification oversizedPng) ∧
      ImageEvent.pixelsDecoded 900000000 ∈ decoderEvents sampleContentLimits allocatingCodec
        blankStages ⟨true, true⟩ true [] .issuance oversizedPng ∧
      ¬ SizeChecked sampleContentLimits oversizedPng (decoderEvents sampleContentLimits
        allocatingCodec blankStages ⟨true, true⟩ true [] .issuance oversizedPng) := by
  have hlong : oversizedPng.length ≤ sampleContentLimits.maxPdfBytes := by decide
  have himage : pngMagic <+: oversizedPng ∨ jpegMagic <+: oversizedPng := .inl (by decide)
  have hallocated : allocatingCodec.allocated oversizedPng = 900000000 := by decide +kernel
  have hinspect : [.pixelsDecoded (allocatingCodec.allocated oversizedPng)] <+:
      (inspectSource sampleContentLimits allocatingCodec blankStages oversizedPng).events :=
    inspectSource_decodesFirst hlong himage
  have hbuild : [.pixelsDecoded (allocatingCodec.allocated oversizedPng)] <+:
      (buildArtifact sampleContentLimits allocatingCodec blankStages false true oversizedPng).events :=
    buildArtifact_decodesFirst false true hlong himage
  rw [hallocated] at hinspect hbuild
  exact ⟨hinspect.subset (List.mem_singleton_self _), not_sizeChecked_of_decode hinspect,
    hbuild.subset (List.mem_singleton_self _), not_sizeChecked_of_decode hbuild⟩

end Splitbind
