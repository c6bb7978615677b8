import Splitbind.Fingerprint.Decision

/-!
# Verification decode — from the pages of a suspect file to one summary

Page decisions are aggregated differently for documents, whose pages have an index, and for
images, where every index is tried on every geometry hypothesis.
-/

namespace Splitbind

open Transaction

/-- `DemoVerificationError(code)`. -/
def demoVerificationError (code : SafeErrorCode) : Raised := .demoVerification code 0

structure DecodeSummary where
  issuanceId : Option UUID
  confidence : ℚ
  validVotes : Nat
  status : DecodeStatus
deriving DecidableEq, Repr

/-! ## 1. Aggregation -/

/-- The statuses an inconclusive summary can have, in the order they are looked for. -/
def inconclusiveStatuses : List DecodeStatus :=
  [.geometryRejected, .payloadNotDetected, .insufficientSyncEvidence]

/-- `_aggregate_decisions`. -/
def aggregateDecisions (decisions : List DecodeV2Decision) : Except Raised DecodeSummary :=
  let decoded := ((decisions.filter (·.status = .decoded)).map (·.issuanceId)).eraseDups
  let confidence := (decisions.map (·.confidence)).max?.getD 0
  let validVotes := (decisions.map (·.validVotes)).sum
  if (∃ decision ∈ decisions, decision.status = .partialPayloadEvidence) ∨ decoded.length > 1 then
    .ok ⟨none, confidence, validVotes, .partialPayloadEvidence⟩
  else
    match decoded with
    | [issuanceId] => .ok ⟨issuanceId, confidence, validVotes, .decoded⟩
    | _ =>
      match inconclusiveStatuses.find? fun status ↦ ∃ decision ∈ decisions,
          decision.status = status with
      | some status => .ok ⟨none, confidence, validVotes, status⟩
      | none => .error (demoVerificationError .demoFingerprintDecodeFailed)

def unknownPageMinConsistentDecodes : Nat := 1

/-- `_aggregate_unknown_page_decisions`. -/
def aggregateUnknownPageDecisions (decisions : List DecodeV2Decision) :
    Except Raised DecodeSummary := do
  let summary ← aggregateDecisions decisions
  if summary.status ≠ .decoded then
    return summary
  else
    let consistentSupport := (decisions.filter fun decision ↦
      decision.status = .decoded ∧ decision.issuanceId = summary.issuanceId).length
    if summary.issuanceId = none ∨ consistentSupport < unknownPageMinConsistentDecodes then
      return { summary with issuanceId := none, status := .partialPayloadEvidence }
    else
      return summary

/-! ## 2. Content -/

def pageIndexHypotheses : Nat := 5

/-- What the file checks make of a suspect file: an error code, the rendered pages of a document,
or the geometry hypotheses of an image. -/
inductive Suspect
  | rejected (code : SafeErrorCode)
  | pdf (pages : List Canvas)
  | image (canonical : Canvas) (restored : Option Canvas)

/-- The geometry hypotheses of an image, the canonical page first. -/
def geometryHypotheses (canonical : Canvas) (restored : Option Canvas) : List Canvas :=
  canonical :: restored.toList

/-- The number of pages a suspect file is analysed as. -/
def Suspect.pageCount : Suspect → Nat
  | .rejected _ => 0
  | .pdf pages => pages.length
  | .image _ _ => 1

/-- One decision for every page of a document. -/
def pageDecisions (candidates : List FingerprintV2Profile) (pages : List Canvas) :
    Except Raised (List DecodeV2Decision) :=
  pages.zipIdx.mapM fun (page, pageIndex) ↦ firstConclusiveDecision page pageIndex candidates

/-- One decision for every page index an image may have been. -/
def hypothesisDecisions (candidates : List FingerprintV2Profile) (page : Canvas) :
    Except Raised (List DecodeV2Decision) :=
  (List.range pageIndexHypotheses).mapM fun pageIndex ↦
    firstConclusiveDecision page pageIndex candidates

/-- The loop of `_decode_image` over the geometry hypotheses. -/
def firstConclusiveSummary (candidates : List FingerprintV2Profile)
    (fallback : Option DecodeSummary) : List Canvas → Except Raised DecodeSummary
  | [] => found fallback .other
  | page :: rest => do
    let summary ← aggregateUnknownPageDecisions (← hypothesisDecisions candidates page)
    if summary.status.conclusive then
      return summary
    else
      firstConclusiveSummary candidates (fallback <|> some summary) rest

/-- `_decode_content`. -/
def decodeContent (maxPdfPages : Nat) (candidates : List FingerprintV2Profile) :
    Suspect → Except Raised (DecodeSummary × Nat)
  | .rejected code => .error (demoVerificationError code)
  | .pdf pages => do
    raiseIf (¬ (1 ≤ pages.length ∧ pages.length ≤ maxPdfPages))
      (demoVerificationError .demoPdfPageLimit)
    let summary ← aggregateDecisions (← pageDecisions candidates pages)
    return (summary, pages.length)
  | .image canonical restored => do
    let summary ← firstConclusiveSummary candidates none (geometryHypotheses canonical restored)
    return (summary, 1)

/-- `_inspect_integrity_content`. -/
def inspectIntegrityContent (maxPdfPages : Nat) : Suspect → Except Raised Nat
  | .rejected code => .error (demoVerificationError code)
  | .pdf pages => do
    raiseIf (¬ (1 ≤ pages.length ∧ pages.length ≤ maxPdfPages))
      (demoVerificationError .demoPdfPageLimit)
    return pages.length
  | .image _ _ => .ok 1

/-- What `process_verification_job` makes of the downloaded file: the summary and the pages. -/
def analyzeContent (exactOnly : Bool) (maxPdfPages : Nat) (candidates : List FingerprintV2Profile)
    (suspect : Suspect) : Except Raised (DecodeSummary × Nat) :=
  if exactOnly then do
    let pagesAnalyzed ← inspectIntegrityContent maxPdfPages suspect
    return (⟨none, 0, 0, .payloadNotDetected⟩, pagesAnalyzed)
  else decodeContent maxPdfPages candidates suspect

/-! ## 3. The range of a summary -/

theorem conclusive_iff {status : DecodeStatus} :
    status.conclusive = true ↔ status = .decoded ∨ status = .partialPayloadEvidence := by
  cases status <;> simp [DecodeStatus.conclusive]

/-- The issuance ids of the decoded decisions are there exactly when some decision is decoded. -/
private theorem decoded_eq_nil {decisions : List DecodeV2Decision} :
    ((decisions.filter (·.status = .decoded)).map (·.issuanceId)).eraseDups = [] ↔
      ∀ decision ∈ decisions, decision.status ≠ .decoded := by
  constructor
  · intro hnil decision hdecision hstatus
    have hmem : decision.issuanceId ∈
        ((decisions.filter (·.status = .decoded)).map (·.issuanceId)).eraseDups :=
      List.mem_eraseDups.mpr
        (List.mem_map_of_mem (List.mem_filter.mpr ⟨hdecision, by simpa using hstatus⟩))
    rw [hnil] at hmem
    simp at hmem
  · intro hnone
    rw [List.filter_eq_nil_iff.mpr (by simpa using hnone)]
    rfl

/-- An aggregated summary has the largest confidence of its decisions, and is conclusive exactly
when one of them is. -/
theorem aggregateDecisions_eq_ok {decisions : List DecodeV2Decision} {summary : DecodeSummary}
    (h : aggregateDecisions decisions = .ok summary) :
    summary.confidence = (decisions.map (·.confidence)).max?.getD 0 ∧
      (summary.status.conclusive = true ↔
        ∃ decision ∈ decisions, decision.status.conclusive = true) := by
  simp only [aggregateDecisions] at h
  split at h
  · rename_i hpartial
    obtain rfl := Except.ok.inj h
    refine ⟨rfl, iff_of_true rfl ?_⟩
    rcases hpartial with ⟨decision, hdecision, hstatus⟩ | hmany
    · exact ⟨decision, hdecision, by simp [hstatus, DecodeStatus.conclusive]⟩
    · by_contra hnone
      push Not at hnone
      rw [decoded_eq_nil.mpr fun decision hdecision hstatus ↦
        hnone decision hdecision (by simp [hstatus, DecodeStatus.conclusive])] at hmany
      simp at hmany
  · rename_i hpartial
    simp only [not_or, not_exists, not_and] at hpartial
    split at h
    · rename_i issuanceId hdecoded
      obtain rfl := Except.ok.inj h
      refine ⟨rfl, iff_of_true rfl ?_⟩
      by_contra hnone
      push Not at hnone
      rw [decoded_eq_nil.mpr fun decision hdecision hstatus ↦
        hnone decision hdecision (by simp [hstatus, DecodeStatus.conclusive])] at hdecoded
      simp at hdecoded
    · rename_i hdecoded
      split at h
      · rename_i status hstatus
        obtain rfl := Except.ok.inj h
        refine ⟨rfl, iff_of_false ?_ ?_⟩
        · have hmem := List.mem_of_find?_eq_some hstatus
          simp only [inconclusiveStatuses, List.mem_cons, List.not_mem_nil, or_false] at hmem
          rcases hmem with rfl | rfl | rfl <;> simp [DecodeStatus.conclusive]
        · -- at most one decoded id, and not exactly one: none
          have hnil : ((decisions.filter (·.status = .decoded)).map
              (·.issuanceId)).eraseDups = [] := by
            have hle := Nat.le_of_not_lt hpartial.2
            generalize ((decisions.filter (·.status = .decoded)).map
              (·.issuanceId)).eraseDups = ids at hdecoded hle
            match ids with
            | [] => rfl
            | [issuanceId] => exact absurd rfl (hdecoded issuanceId)
            | _ :: _ :: _ => simp at hle
          rintro ⟨decision, hdecision, hconclusive⟩
          rcases conclusive_iff.mp hconclusive with hs | hs
          · exact decoded_eq_nil.mp hnil decision hdecision hs
          · exact hpartial.1 decision hdecision hs
      · simp at h

theorem aggregateUnknownPageDecisions_eq_ok {decisions : List DecodeV2Decision}
    {summary : DecodeSummary} (h : aggregateUnknownPageDecisions decisions = .ok summary) :
    summary.confidence = (decisions.map (·.confidence)).max?.getD 0 ∧
      (summary.status.conclusive = true ↔
        ∃ decision ∈ decisions, decision.status.conclusive = true) := by
  simp only [aggregateUnknownPageDecisions, bind_eq_ok] at h
  obtain ⟨aggregated, haggregated, h⟩ := h
  obtain ⟨hconfidence, hconclusive⟩ := aggregateDecisions_eq_ok haggregated
  split at h
  · rw [pure_eq_ok] at h
    subst h
    exact ⟨hconfidence, hconclusive⟩
  · rename_i hdecoded
    rw [not_not] at hdecoded
    have hwas : aggregated.status.conclusive = true := conclusive_iff.mpr (.inl hdecoded)
    split at h
    · rw [pure_eq_ok] at h
      subst h
      exact ⟨hconfidence, iff_of_true rfl (hconclusive.mp hwas)⟩
    · rw [pure_eq_ok] at h
      subst h
      exact ⟨hconfidence, hconclusive⟩

/-- The largest of some confidences, zero when there are none. -/
theorem max_getD_range {xs : List ℚ} (hne : xs ≠ []) (hle : ∀ x ∈ xs, x ≤ 1) :
    xs.max?.getD 0 ≤ 1 ∧ (0 ≤ xs.max?.getD 0 ↔ ∃ x ∈ xs, 0 ≤ x) := by
  rcases hmax : xs.max? with _ | m
  · exact absurd (List.max?_eq_none_iff.mp hmax) hne
  · obtain ⟨hmem, hbound⟩ := List.max?_eq_some_iff.mp hmax
    refine ⟨hle m hmem, fun hm ↦ ⟨m, hmem, hm⟩, fun ⟨x, hx, hnonneg⟩ ↦ ?_⟩
    exact hnonneg.trans (hbound x hx)

/-- The page's decision has a confidence that is not negative: some tile shows a payload, or the
geometry of the first profile is not anti-correlated. -/
def Canvas.accepted (canvas : Canvas) (pageIndex : Nat) (candidates : List FingerprintV2Profile) :
    Prop :=
  canvas.showsPayload pageIndex candidates ∨
    ∀ score ∈ canvas.geometryScore pageIndex candidates, 0 ≤ score

instance (canvas : Canvas) (pageIndex : Nat) (candidates : List FingerprintV2Profile) :
    Decidable (canvas.accepted pageIndex candidates) :=
  inferInstanceAs (Decidable (_ ∨ _))

theorem Canvas.accepted_iff {canvas : Canvas} {pageIndex : Nat}
    {candidates : List FingerprintV2Profile} {decision : DecodeV2Decision}
    (h : firstConclusiveDecision canvas pageIndex candidates = .ok decision) :
    0 ≤ decision.confidence ↔ canvas.accepted pageIndex candidates := by
  unfold Canvas.accepted
  obtain ⟨-, ⟨hshows, -, hpos⟩ | ⟨hshows, -, hconfidence⟩⟩ := firstConclusiveDecision_eq_ok h
  · exact iff_of_true hpos.le (.inl hshows)
  · rw [hconfidence]
    cases canvas.geometryScore pageIndex candidates with
    | none => simp
    | some score => simp [clipScore_nonneg, hshows]

/-- What makes the confidence of a suspect file's summary not negative: one page of a document,
and of an image a payload on any hypothesis or one index of the canonical page. -/
def Suspect.confident (candidates : List FingerprintV2Profile) : Suspect → Prop
  | .rejected _ => False
  | .pdf pages => ∃ page ∈ pages.zipIdx, page.1.accepted page.2 candidates
  | .image canonical restored =>
    (∃ page ∈ geometryHypotheses canonical restored,
      ∃ pageIndex ∈ List.range pageIndexHypotheses, page.showsPayload pageIndex candidates) ∨
    ∃ pageIndex ∈ List.range pageIndexHypotheses, canonical.accepted pageIndex candidates

instance (candidates : List FingerprintV2Profile) (suspect : Suspect) :
    Decidable (suspect.confident candidates) := by
  cases suspect <;> unfold Suspect.confident <;> infer_instance

/-- Aggregating the decisions of some pages: the confidence is at most one, and not negative
exactly when some page is accepted; the summary is conclusive exactly when some page shows a
payload. -/
private theorem aggregated_range {candidates : List FingerprintV2Profile}
    {pages : List (Canvas × Nat)} {decisions : List DecodeV2Decision} {summary : DecodeSummary}
    (hdecisions : (pages.mapM fun page ↦ firstConclusiveDecision page.1 page.2 candidates) =
      .ok decisions)
    (hne : pages ≠ [])
    (hconfidence : summary.confidence = (decisions.map (·.confidence)).max?.getD 0)
    (hconclusive : summary.status.conclusive = true ↔
      ∃ decision ∈ decisions, decision.status.conclusive = true) :
    summary.confidence ≤ 1 ∧
      (0 ≤ summary.confidence ↔ ∃ page ∈ pages, page.1.accepted page.2 candidates) ∧
      (summary.status.conclusive = true ↔
        ∃ page ∈ pages, page.1.showsPayload page.2 candidates) := by
  have hnonempty : ∃ decision ∈ decisions, True :=
    (mapM_exists hdecisions fun _ _ _ ↦ Iff.rfl).mpr ((List.exists_mem_of_ne_nil _ hne).imp
      fun _ h ↦ ⟨h, trivial⟩)
  have hconfidences : decisions.map (·.confidence) ≠ [] := by
    obtain ⟨decision, hdecision, -⟩ := hnonempty
    exact List.ne_nil_of_mem (List.mem_map_of_mem hdecision)
  have hle : ∀ decision ∈ decisions, decision.confidence ≤ 1 :=
    mapM_forall hdecisions fun _ _ h ↦ (firstConclusiveDecision_eq_ok h).1
  obtain ⟨hmax, hnonneg⟩ := max_getD_range hconfidences (by simpa using hle)
  refine ⟨hconfidence ▸ hmax, ?_, ?_⟩
  · rw [hconfidence, hnonneg]
    calc (∃ x ∈ decisions.map (·.confidence), 0 ≤ x)
        ↔ ∃ decision ∈ decisions, 0 ≤ decision.confidence := by simp
      _ ↔ ∃ page ∈ pages, page.1.accepted page.2 candidates :=
        mapM_exists hdecisions fun _ _ h ↦ Canvas.accepted_iff h
  · rw [hconclusive]
    refine mapM_exists hdecisions fun page decision h ↦ ?_
    obtain ⟨-, ⟨hshows, hstatus, -⟩ | ⟨hshows, hstatus, -⟩⟩ := firstConclusiveDecision_eq_ok h
    · exact iff_of_true hstatus hshows
    · exact iff_of_false (by simp [hstatus]) hshows

/-- The summary of one geometry hypothesis. -/
private theorem hypothesis_range {candidates : List FingerprintV2Profile} {page : Canvas}
    {decisions : List DecodeV2Decision} {summary : DecodeSummary}
    (hdecisions : hypothesisDecisions candidates page = .ok decisions)
    (h : aggregateUnknownPageDecisions decisions = .ok summary) :
    summary.confidence ≤ 1 ∧
      (0 ≤ summary.confidence ↔
        ∃ pageIndex ∈ List.range pageIndexHypotheses, page.accepted pageIndex candidates) ∧
      (summary.status.conclusive = true ↔
        ∃ pageIndex ∈ List.range pageIndexHypotheses, page.showsPayload pageIndex candidates) := by
  obtain ⟨hconfidence, hconclusive⟩ := aggregateUnknownPageDecisions_eq_ok h
  have hmap : (((List.range pageIndexHypotheses).map fun pageIndex ↦ (page, pageIndex)).mapM
      fun page ↦ firstConclusiveDecision page.1 page.2 candidates) = .ok decisions := by
    rw [← hdecisions, hypothesisDecisions, List.mapM_map]
    rfl
  have hrange := aggregated_range hmap (by simp [pageIndexHypotheses]) hconfidence hconclusive
  simpa using hrange

/-- The loop over the hypotheses: a conclusive summary of positive confidence as soon as one of
them shows a payload, and otherwise the fallback. -/
private theorem firstConclusiveSummary_range {candidates : List FingerprintV2Profile}
    {fallback : Option DecodeSummary} {pages : List Canvas} {summary : DecodeSummary}
    (h : firstConclusiveSummary candidates fallback pages = .ok summary) :
    (∃ page ∈ pages, ∃ pageIndex ∈ List.range pageIndexHypotheses,
        page.showsPayload pageIndex candidates) ∧
      0 ≤ summary.confidence ∧ summary.confidence ≤ 1 ∨
    (¬ ∃ page ∈ pages, ∃ pageIndex ∈ List.range pageIndexHypotheses,
        page.showsPayload pageIndex candidates) ∧
      (fallback = some summary ∨ fallback = none ∧ ∃ page ∈ pages.head?,
        summary.confidence ≤ 1 ∧ (0 ≤ summary.confidence ↔
          ∃ pageIndex ∈ List.range pageIndexHypotheses, page.accepted pageIndex candidates)) := by
  induction pages generalizing fallback with
  | nil =>
    simp only [firstConclusiveSummary, found_eq_ok] at h
    exact .inr ⟨by simp, .inl h⟩
  | cons page rest ih =>
    simp only [firstConclusiveSummary, bind_eq_ok] at h
    obtain ⟨decisions, hdecisions, first, hfirst, h⟩ := h
    obtain ⟨hle, hnonneg, hconclusive⟩ := hypothesis_range hdecisions hfirst
    split at h
    · rename_i hstatus
      rw [pure_eq_ok] at h
      subst h
      obtain ⟨pageIndex, hindex, hshows⟩ := hconclusive.mp hstatus
      exact .inl ⟨⟨page, List.mem_cons_self, pageIndex, hindex, hshows⟩,
        hnonneg.mpr ⟨pageIndex, hindex, .inl hshows⟩, hle⟩
    · rename_i hstatus
      have hhidden := mt hconclusive.mpr hstatus
      simp only [List.mem_cons, exists_eq_or_imp, hhidden, false_or]
      refine (ih h).imp_right fun hlater ↦ ⟨hlater.1, ?_⟩
      have hfallback := hlater.2
      cases fallback with
      | some earlier => simpa using hfallback
      | none =>
        obtain rfl : first = summary := by simpa using hfallback
        exact .inr ⟨rfl, page, by simp, hle, hnonneg⟩

/-- What an accepted file is analysed as: its pages, within the limit, and a confidence of at most
one that is negative exactly when the file is not confident. -/
theorem decodeContent_eq_ok {maxPdfPages pagesAnalyzed : Nat}
    {candidates : List FingerprintV2Profile} {suspect : Suspect} {summary : DecodeSummary}
    (h : decodeContent maxPdfPages candidates suspect = .ok (summary, pagesAnalyzed)) :
    pagesAnalyzed = suspect.pageCount ∧ 1 ≤ pagesAnalyzed ∧ summary.confidence ≤ 1 ∧
      (0 ≤ summary.confidence ↔ suspect.confident candidates) := by
  cases suspect with
  | rejected code => simp [decodeContent] at h
  | pdf pages =>
    simp only [decodeContent, bind_eq_ok, exists_unit, raiseIf_eq_ok, not_not, pure_eq_ok,
      Prod.mk.injEq] at h
    obtain ⟨⟨hpos, -⟩, decisions, hdecisions, summary', hsummary, rfl, rfl⟩ := h
    obtain ⟨hconfidence, hconclusive⟩ := aggregateDecisions_eq_ok hsummary
    have hne : pages.zipIdx ≠ [] := by
      simpa [List.zipIdx_eq_nil_iff] using List.length_pos_iff.mp hpos
    obtain ⟨hle, hnonneg, -⟩ := aggregated_range hdecisions hne hconfidence hconclusive
    exact ⟨rfl, hpos, hle, hnonneg⟩
  | image canonical restored =>
    simp only [decodeContent, bind_eq_ok, pure_eq_ok, Prod.mk.injEq] at h
    obtain ⟨summary', hsummary, rfl, rfl⟩ := h
    refine ⟨rfl, le_rfl, ?_⟩
    simp only [Suspect.confident]
    rcases firstConclusiveSummary_range hsummary with ⟨hshows, hnonneg, hle⟩ |
      ⟨hhidden, hnone | ⟨-, page, hpage, hle, hnonneg⟩⟩
    · exact ⟨hle, iff_of_true hnonneg (.inl hshows)⟩
    · simp at hnone
    · obtain rfl : canonical = page := by simpa [geometryHypotheses] using hpage
      exact ⟨hle, hnonneg.trans (by simp only [hhidden, false_or])⟩

/-- Whether the confidence of what a file is analysed as is in range. -/
theorem analyzeContent_eq_ok {exactOnly : Bool} {maxPdfPages pagesAnalyzed : Nat}
    {candidates : List FingerprintV2Profile} {suspect : Suspect} {summary : DecodeSummary}
    (h : analyzeContent exactOnly maxPdfPages candidates suspect = .ok (summary, pagesAnalyzed)) :
    pagesAnalyzed = suspect.pageCount ∧ 1 ≤ pagesAnalyzed ∧ summary.confidence ≤ 1 ∧
      (0 ≤ summary.confidence ↔ exactOnly = true ∨ suspect.confident candidates) := by
  unfold analyzeContent at h
  split at h
  · rename_i hexact
    simp only [bind_eq_ok, pure_eq_ok, Prod.mk.injEq] at h
    obtain ⟨pages, hpages, rfl, rfl⟩ := h
    have hcount : pages = suspect.pageCount ∧ 1 ≤ pages := by
      cases suspect with
      | rejected code => simp [inspectIntegrityContent] at hpages
      | pdf content =>
        simp only [inspectIntegrityContent, bind_eq_ok, exists_unit, raiseIf_eq_ok, not_not,
          pure_eq_ok] at hpages
        exact ⟨hpages.2.symm, hpages.2 ▸ hpages.1.1⟩
      | image canonical restored =>
        obtain rfl := Except.ok.inj hpages
        exact ⟨rfl, le_rfl⟩
    exact ⟨hcount.1, hcount.2, zero_le_one, iff_of_true le_rfl (.inl hexact)⟩
  · rename_i hexact
    simpa [hexact] using decodeContent_eq_ok h

end Splitbind
