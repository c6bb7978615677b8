import Splitbind.Config.Limits
import Splitbind.Demo.IssuanceClaims
import Splitbind.Demo.IssuanceSafety
import Splitbind.Demo.VerificationSource

/-!
# Issuance replay — which committed rows their readers accept

A commit checks the row constraints, which admit fifty pages; the readers of the row also run the
validator of its page count, which admits five.  Every other column of a committed row passes.
-/

namespace Splitbind

open Transaction IssuanceRows WorkerPool

namespace IssuanceWorker

/-! ## 1. What a commit leaves in the row -/

/-- The columns a commit writes, and the page count it gives the source document. -/
structure Complete (rows : IssuanceRows) (e : DemoIssuanceResult) (pages : Nat) : Prop where
  algorithmLabel : e.algorithmLabel = some demoAlgorithmLabel
  candidateIdentifier : e.candidateIdentifier = some demoFrozenCandidateIdentifier
  canvasHeight : e.canvasHeight = some demoCanonicalCanvas.1
  canvasWidth : e.canvasWidth = some demoCanonicalCanvas.2
  inputSha256 : e.inputSha256 = some rows.document.expectedSourceSha256
  outputSha256 : e.outputSha256 ≠ none
  pageCount : e.pageCount = some pages
  documentPageCount : rows.document.pageCount = some pages
  positive : 1 ≤ pages
  bounded : pages ≤ demoMaxCommittedPages
  processingMs : ∃ ms, e.processingMs = some ms ∧ ms ≤ DemoIssuanceResult.positiveIntegerMax
  limitations : e.limitations = demoLimitations
  cleanupFailures : e.cleanupFailures = 0
  safeErrorCode : e.safeErrorCode = none

/-- A committed row is complete. -/
def CommitsComplete (store : IssuanceStore) : Prop :=
  ∀ e, store.rows.evidence = some e → e.outputState = .committed →
    ∃ pages, Complete store.rows e pages

variable {settings : Settings} {store store' : IssuanceStore} {p p' q : Phase}

theorem document_of_recordFailedJob {rows rows' : IssuanceRows} {claim : ProcessingClaim}
    {code : SafeErrorCode} {failures : Nat} {now : Instant}
    (h : rows.recordFailedJob claim code failures now = .ok ((), rows')) :
    rows'.document = rows.document := by
  rcases recordFailedJob_cases h with rfl | ⟨e, -, -, -, -, -, rfl⟩ <;> rfl

/-- Only a commit changes the source document. -/
theorem Stepped.document (h : Stepped settings store p store' p')
    (hstatus : store.rows.job.status ≠ .processing) :
    store'.rows.document = store.rows.document := by
  cases h with
  | recovered recoveryToken now result rows' p' hfresh hrecovered =>
    cases hrecovered with
    | recorded e rows' he hprocessing hstate hrecord => exact document_of_recordFailedJob hrecord
    | _ => rfl
  | committed _ _ _ _ _ _ _ _ _ _ _ hprocessing => exact absurd hprocessing hstatus
  | recorded claim code failures now rows' hrecord => exact document_of_recordFailedJob hrecord
  | _ => rfl

/-- A commit completes the row; no other step makes a row committed. -/
theorem Stepped.commitsComplete (h : Stepped settings store p store' p')
    (hconsistent : Consistent settings store) (hasserts : Asserts store p)
    (hcomplete : CommitsComplete store) (hclaimed : Claimed store p) :
    CommitsComplete store' := by
  intro e' he' hcommitted'
  by_cases hbefore : Committed store
  · obtain ⟨e, he, hcommitted⟩ := hbefore
    have hkept := (h.committed_kept hconsistent hasserts he hcommitted).1
    obtain rfl : e = e' := Option.some.inj (hkept.symm.trans he')
    obtain ⟨pages, hpages⟩ := hcomplete e he hcommitted
    have hsucceeded := hconsistent.status.succeeded.mpr ⟨e, he, hcommitted⟩
    have hdocument := h.document (by simp [hsucceeded])
    exact ⟨pages, { hpages with
      inputSha256 := hdocument ▸ hpages.inputSha256
      documentPageCount := hdocument ▸ hpages.documentPageCount }⟩
  · obtain ⟨claim, artifact, rfl, -, -⟩ := h.committed_by hbefore ⟨e', he', hcommitted'⟩
    obtain ⟨e, -, hclaim⟩ := hclaimed claim rfl
    have hsource := (congrArg ProcessingClaim.expectedSourceSha256 hclaim).symm
    cases h with
    | committed _ _ ms signing now e manifests _ he howns hnames hprocessing hcancel hstate hpos
        hmax hms =>
      obtain rfl := Option.some.inj he'
      exact ⟨artifact.pageCount, rfl, rfl, rfl, rfl, congrArg some hsource, by simp [committedEvidence],
        rfl, rfl, hpos, hmax, ⟨ms, rfl, hms⟩, rfl, rfl, rfl⟩
    | _ => exact absurd ⟨e', he', hcommitted'⟩ hbefore

def completeAssertions : Assertions IssuanceStore Phase where
  shared := CommitsComplete
  own := fun _ _ ↦ True
  apart := fun _ _ ↦ True

theorem completeAssertions_sound :
    Sound (program settings) .all ((assertions settings).and claimAssertions)
      completeAssertions where
  symm := fun _ _ _ ↦ trivial
  keeps := fun hbase hown hcomplete _ _ hcall ↦
    ⟨(call_stepped hcall).commitsComplete hbase.1 hown.1.2 hcomplete hown.2, trivial⟩
  others := fun _ _ _ _ _ _ _ _ _ _ ↦ ⟨trivial, trivial⟩
  environment := by
    intro store event store' _ hcomplete _ henvironment
    obtain ⟨job', audit', -, rfl⟩ := environment_moved henvironment
    refine ⟨fun e he hcommitted ↦ ?_, fun _ _ _ ↦ trivial⟩
    obtain ⟨pages, hpages⟩ := hcomplete e he hcommitted
    exact ⟨pages, { hpages with }⟩

theorem complete_of_reachable {W : Type*} [DecidableEq W] {pool : Pool W}
    (h : Reachable settings pool) {e : DemoIssuanceResult}
    (he : pool.store.rows.evidence = some e) (hcommitted : e.outputState = .committed) :
    ∃ pages, Complete pool.store.rows e pages := by
  obtain ⟨start, hstart, hleads⟩ := h
  have hbase : ∀ u, (program settings).Leads .all start u →
      ((assertions settings).and claimAssertions).Holds u := fun u hu ↦
    (assertions_of_reachable ⟨start, hstart, hu⟩).and
      (claimAssertions_of_reachable ⟨start, hstart, hu⟩)
  have hholds : completeAssertions.Holds start := by
    refine ⟨fun e he ↦ ?_, fun _ ↦ trivial, fun _ _ _ ↦ trivial⟩
    rw [hstart.attached.evidence] at he
    simp at he
  exact (completeAssertions_sound.leads hbase hholds hleads).shared e he hcommitted

/-! ## 2. What the readers check -/

section Readers

variable {rows : IssuanceRows} {e : DemoIssuanceResult} {pages : Nat} {job : Job}
  {issuance : Issuance}

theorem Complete.clean (h : Complete rows e pages) (hbinds : e.Binds job issuance)
    (hcommitted : e.outputState = .committed) : e.clean job issuance = .ok () := by
  obtain ⟨ms, hms, -⟩ := h.processingMs
  have hcomplete : e.complete = true := by
    simp [DemoIssuanceResult.complete, h.algorithmLabel, h.candidateIdentifier, h.canvasHeight,
      h.canvasWidth, h.inputSha256, h.pageCount, hms, Option.isSome_iff_ne_none, h.outputSha256]
  have haccepted : demoFrozenCandidateIdentifier ∈ demoAcceptedCandidateIdentifiers :=
    List.mem_cons_self
  simp only [DemoIssuanceResult.clean, bind_eq_ok, exists_unit, raiseIf_eq_ok, not_or, not_not,
    ne_eq, hcommitted, if_true]
  refine ⟨⟨hbinds.jobOrganization, hbinds.issuanceOrganization⟩,
    ⟨hbinds.kind, hbinds.issuanceId, hbinds.attempt⟩, hbinds.key, by simp [hcomplete], ?_⟩
  simp [h.algorithmLabel, h.candidateIdentifier, h.canvasHeight, h.canvasWidth, h.limitations,
    h.cleanupFailures, h.safeErrorCode, haccepted]

theorem Complete.rowConstraints (h : Complete rows e pages) (hattempt : e.attempt ≤ 2) :
    e.rowConstraints = .ok () := by
  obtain ⟨ms, hms, hmax⟩ := h.processingMs
  have haccepted : demoFrozenCandidateIdentifier ∈ demoAcceptedCandidateIdentifiers :=
    List.mem_cons_self
  have hbounded : pages ≤ 50 := h.bounded
  have hsmall : pages ≤ DemoIssuanceResult.positiveSmallIntegerMax :=
    h.bounded.trans (by decide)
  have hcanvas : demoCanonicalCanvas.1 ≤ DemoIssuanceResult.positiveIntegerMax ∧
      demoCanonicalCanvas.2 ≤ DemoIssuanceResult.positiveIntegerMax := by decide
  simp [DemoIssuanceResult.rowConstraints, hattempt, h.algorithmLabel, h.candidateIdentifier,
    h.canvasHeight, h.canvasWidth, h.inputSha256, h.pageCount, hms, hmax, hsmall, hcanvas,
    Option.isSome_iff_ne_none, h.outputSha256, h.limitations, h.cleanupFailures, h.safeErrorCode,
    haccepted, h.positive, h.bounded]

theorem Complete.cleanFields (h : Complete rows e pages) (hattempt : e.attempt ≤ 2) :
    e.cleanFields = .ok () ↔ pages ≤ 5 := by
  obtain ⟨ms, hms, hmax⟩ := h.processingMs
  have hlabel : demoAlgorithmLabel.length ≤ 64 := by decide +kernel
  have hlength : demoFrozenCandidateIdentifier.length ≤ 146 := by decide +kernel
  have hpattern : DemoIssuanceResult.candidateIdentifierPattern demoFrozenCandidateIdentifier =
      true := by decide +kernel
  have hcanvas : demoCanonicalCanvas.1 ≤ DemoIssuanceResult.positiveIntegerMax ∧
      demoCanonicalCanvas.2 ≤ DemoIssuanceResult.positiveIntegerMax := by decide
  simp [DemoIssuanceResult.cleanFields, hattempt, h.algorithmLabel, h.candidateIdentifier,
    h.canvasHeight, h.canvasWidth, h.pageCount, hms, hmax, hlabel, hlength, hpattern, hcanvas,
    h.cleanupFailures, h.safeErrorCode, h.positive]

/-- `full_clean` of a complete row looks at its page count alone. -/
theorem Complete.fullClean (h : Complete rows e pages) (hbinds : e.Binds job issuance)
    (hattempt : job.attempt ≤ 2) (hcommitted : e.outputState = .committed) :
    e.fullClean job issuance = .ok () ↔ pages ≤ 5 := by
  have hattempt' : e.attempt ≤ 2 := hbinds.attempt ▸ hattempt
  rw [← h.cleanFields hattempt']
  simp only [DemoIssuanceResult.fullClean, bind_eq_ok, exists_unit,
    h.clean hbinds hcommitted, h.rowConstraints hattempt', and_true]

end Readers

/-- The tables hold the rows of the job. -/
structure Tabled (rows : IssuanceRows) (db : SourceDatabase) : Prop where
  issuance : rows.issuance ∈ db.issuances
  evidence : ∀ e, rows.evidence = some e → e ∈ db.evidence
  job : rows.job ∈ db.jobs
  document : rows.document ∈ db.documents
  receipts : ∀ receipt ∈ rows.receipts, receipt ∈ db.receipts

section Committed

variable {e : DemoIssuanceResult} {pages : Nat}

/-- The receipt of a published job is there. -/
theorem Published.receiptExists (h : Published settings store e) {receipts : List JobResultReceipt}
    (hreceipts : ∀ receipt ∈ store.rows.receipts, receipt ∈ receipts) {organizationId : UUID}
    (horganization : store.rows.job.organizationId = organizationId) :
    Splitbind.receiptExists receipts organizationId store.rows.job = true := by
  rw [Splitbind.receiptExists, List.any_eq_true]
  refine ⟨_, hreceipts _ (by rw [h.receipts]; exact List.mem_singleton_self _), ?_⟩
  simp [horganization]

/-- The job can be replayed exactly when the document has at most five pages. -/
theorem Complete.loadReplayResult (h : Complete store.rows e pages)
    (hconsistent : Consistent settings store) (he : store.rows.evidence = some e)
    (hcommitted : e.outputState = .committed) :
    store.rows.loadReplayResult settings = .ok (resultFromEvidence settings e) ↔ pages ≤ 5 := by
  have hbinds := (hconsistent.evidence e he).binds
  have hpublished := hconsistent.published e he hcommitted
  have hreceipt := hpublished.receiptExists (fun _ h ↦ h) rfl
  rw [← h.fullClean hbinds hconsistent.attempt hcommitted]
  simp only [IssuanceRows.loadReplayResult, bind_eq_ok, exists_unit, found_eq_ok, he,
    Option.some.injEq, exists_eq_left', pure_eq_ok]
  have hissuance := hconsistent.issuanceId he
  constructor
  · exact fun hload ↦ hload.2.1
  · intro hclean
    refine ⟨?_, hclean, trivial⟩
    rw [raiseIf_eq_ok]
    simp [hcommitted, hbinds.jobOrganization.symm, hissuance, hbinds.attempt.symm,
      hpublished.outputObjectKey, hpublished.outputSha256, h.inputSha256, h.documentPageCount,
      h.pageCount, hreceipt]

/-- So acquiring the finished job again returns its result. -/
theorem Complete.acquireProcessingClaim (h : Complete store.rows e pages)
    (hconsistent : Consistent settings store) (he : store.rows.evidence = some e)
    (hcommitted : e.outputState = .committed) (ownerToken : UUID) (now : Instant) :
    store.rows.acquireProcessingClaim settings ownerToken now =
        .ok (.replay (resultFromEvidence settings e), store.rows) ↔ pages ≤ 5 := by
  have hbound := validateLockedBinding_eq_ok.mpr hconsistent.bound
  have hsucceeded := hconsistent.status.succeeded.mpr ⟨e, he, hcommitted⟩
  rw [← h.loadReplayResult hconsistent he hcommitted]
  simp only [IssuanceRows.acquireProcessingClaim, hbound, ok_bind, hsucceeded, if_true,
    bind_eq_ok, pure_eq_ok, Prod.mk.injEq, Acquired.replay.injEq, and_true]
  constructor
  · rintro ⟨result, hload, rfl⟩
    exact hload
  · exact fun hload ↦ ⟨_, hload, rfl⟩

/-- Nor does a verification retain an issuance of more than five pages. -/
theorem Complete.retained (h : Complete store.rows e pages)
    (hconsistent : Consistent settings store) (he : store.rows.evidence = some e)
    (hcommitted : e.outputState = .committed) {db : SourceDatabase}
    (htabled : Tabled store.rows db) : db.Retained store.rows.issuance ↔ pages ≤ 5 := by
  have hfits := hconsistent.evidence e he
  have hpublished := hconsistent.published e he hcommitted
  have hbound := hconsistent.bound
  have hissuance := hconsistent.issuanceId he
  rw [← h.fullClean hfits.binds hconsistent.attempt hcommitted]
  constructor
  · rintro ⟨e', job', document', hby⟩
    -- the unique columns leave no other row
    obtain rfl : e' = e := List.inj_on_of_nodup_map db.evidenceIssuances hby.evidenceRow
      (htabled.evidence e he) (hby.issuanceId.trans hissuance.symm)
    obtain rfl : job' = store.rows.job := List.inj_on_of_nodup_map db.jobIds hby.jobRow
      htabled.job (hby.jobId.trans hfits.jobId)
    exact hby.accepted
  · intro haccepted
    refine ⟨e, store.rows.job, store.rows.document, ?_⟩
    exact {
      evidenceRow := htabled.evidence e he
      issuanceId := hissuance
      organizationId := hfits.binds.issuanceOrganization.symm
      jobRow := htabled.job
      issuanceJob := by simp [hbound.issuanceId]
      jobId := hfits.jobId.symm
      documentRow := htabled.document
      documentId := hbound.documentId.symm
      accepted := haccepted
      succeeded := hconsistent.status.succeeded.mpr ⟨e, he, hcommitted⟩
      committed := hcommitted
      attempt := hfits.binds.attempt.symm
      outputObjectKey := hpublished.outputObjectKey.symm
      outputSha256 := hpublished.outputSha256.symm
      pageCount := h.pageCount.trans h.documentPageCount.symm
      receipt := hpublished.receiptExists htabled.receipts hbound.issuanceOrganization.symm }

end Committed

/-! ## 3. Committed issuances and their readers -/

variable {W : Type*} [DecidableEq W] {pool : Pool W}

/-- What the readers of a committed row find: it passes `full_clean`, the job can be replayed, and
its exact bytes are found intact, exactly when the source document has at most five pages. -/
theorem committed_accepted_iff (h : Reachable settings pool)
    (hsucceeded : pool.store.rows.job.status = .succeeded) :
    ∃ e pages, pool.store.rows.evidence = some e ∧ e.outputState = .committed ∧
      pool.store.rows.document.pageCount = some pages ∧
      (e.fullClean pool.store.rows.job pool.store.rows.issuance = .ok () ↔ pages ≤ 5) ∧
      (∀ ownerToken now,
        pool.store.rows.acquireProcessingClaim settings ownerToken now =
          .ok (.replay (resultFromEvidence settings e), pool.store.rows) ↔ pages ≤ 5) ∧
      ∀ (db : SourceDatabase) (library : ManifestLibrary) (now : Instant) (sha256 : Sha256)
        (decode : DecodeSummary) (exactOnly : Bool),
        Tabled pool.store.rows db → e.outputSha256 = some sha256 →
        db.withDigest pool.store.rows.job.organizationId sha256 = [pool.store.rows.issuance] →
        db.manifestCheck library now pool.store.rows.issuance = some true ∨
          db.manifestCheck library now pool.store.rows.issuance = none ∧ exactOnly = false →
        ((db.resolveSourceLocked library now pool.store.rows.job.organizationId sha256 decode
          exactOnly).status = .verifiedIntact ↔ pages ≤ 5) := by
  have hconsistent := (assertions_of_reachable h).shared
  obtain ⟨e, he, hcommitted⟩ := hconsistent.status.succeeded.mp hsucceeded
  obtain ⟨pages, hcomplete⟩ := complete_of_reachable h he hcommitted
  refine ⟨e, pages, he, hcommitted, hcomplete.documentPageCount, ?_, ?_, ?_⟩
  · exact hcomplete.fullClean (hconsistent.evidence e he).binds hconsistent.attempt hcommitted
  · exact hcomplete.acquireProcessingClaim hconsistent he hcommitted
  · intro db library now sha256 decode exactOnly htabled hsha256 hsingle hmanifest
    rw [SourceDatabase.resolveSourceLocked_single hsingle, SourceDatabase.resolveExact_verifiedIntact,
      hcomplete.retained hconsistent he hcommitted htabled]
    simp [hmanifest]

/-- The run of a worker that commits a document of that many pages. -/
def commitRun (pages : Nat) : List (Event (Fin 2) Input JobEvent) :=
  uploadRun ⟨⟨11⟩, pages⟩ ++ [.worker 0 (.commit 7 sampleSigning 8 .none)]

/-- A committed document of two pages is accepted. -/
theorem committed_accepted_iff_sample : ∃ pool : Pool (Fin 2), Reachable sampleSettings pool ∧
    ∃ e, pool.store.rows.evidence = some e ∧
      e.fullClean pool.store.rows.job pool.store.rows.issuance = .ok () := by
  have hrun : ∃ pool, (program sampleSettings).Leads .all samplePool pool ∧
      (pool.store.rows.job.status, pool.store.rows.document.pageCount) = (.succeeded, some 2) :=
    Program.leads_of_exec_map (commitRun 2) (by decide +kernel)
  obtain ⟨pool, hleads, hread⟩ := hrun
  simp only [Prod.mk.injEq] at hread
  obtain ⟨hsucceeded, hpages⟩ := hread
  have hreachable : Reachable sampleSettings pool := ⟨samplePool, samplePool_start, hleads⟩
  obtain ⟨e, pages, he, -, hdocument, hclean, -⟩ := committed_accepted_iff hreachable hsucceeded
  obtain rfl : pages = 2 := Option.some.inj (hdocument.symm.trans hpages)
  exact ⟨pool, hreachable, e, he, hclean.mpr (by decide)⟩

/-- A document of six pages is within the limit and committed, and then neither accepted nor
replayed. -/
theorem committed_refused_six_pages : ∃ pool : Pool (Fin 2),
    RuntimeLimit.maxPdfPages.Admits sampleSettings.maxPdfPages ∧
    Reachable sampleSettings pool ∧ pool.store.rows.job.status = .succeeded ∧
    pool.store.rows.document.pageCount = some 6 ∧
    ∃ e, pool.store.rows.evidence = some e ∧ e.outputState = .committed ∧
      e.fullClean pool.store.rows.job pool.store.rows.issuance ≠ .ok () ∧
      ∀ ownerToken now, pool.store.rows.acquireProcessingClaim sampleSettings ownerToken now ≠
        .ok (.replay (resultFromEvidence sampleSettings e), pool.store.rows) := by
  have hrun : ∃ pool, (program sampleSettings).Leads .all samplePool pool ∧
      (pool.store.rows.job.status, pool.store.rows.document.pageCount) = (.succeeded, some 6) :=
    Program.leads_of_exec_map (commitRun 6) (by decide +kernel)
  obtain ⟨pool, hleads, hread⟩ := hrun
  simp only [Prod.mk.injEq] at hread
  obtain ⟨hsucceeded, hpages⟩ := hread
  have hreachable : Reachable sampleSettings pool := ⟨samplePool, samplePool_start, hleads⟩
  have hconsistent := (assertions_of_reachable hreachable).shared
  obtain ⟨e, he, hcommitted⟩ := hconsistent.status.succeeded.mp hsucceeded
  obtain ⟨pages, hcomplete⟩ := complete_of_reachable hreachable he hcommitted
  obtain rfl : pages = 6 := Option.some.inj (hcomplete.documentPageCount.symm.trans hpages)
  have hbinds := (hconsistent.evidence e he).binds
  refine ⟨pool, RuntimeLimit.admits_runtimeDefault .maxPdfPages, hreachable, hsucceeded, hpages,
    e, he, hcommitted, fun hclean ↦ ?_, fun ownerToken now hreplay ↦ ?_⟩
  · exact absurd ((hcomplete.fullClean hbinds hconsistent.attempt hcommitted).mp hclean) (by decide)
  · exact absurd ((hcomplete.acquireProcessingClaim hconsistent he hcommitted ownerToken now).mp
      hreplay) (by decide)

end IssuanceWorker

end Splitbind
