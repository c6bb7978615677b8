import Splitbind.Demo.VerificationTransactions
import Splitbind.Config.Limits
import Splitbind.Library.Distinct

/-!
# Verification commit — which analysed files a commit can store

The values of a commit come from three places: the resolved source, whose status and limitations
are always storable, the page count of the file, and the confidence of the decoder.  The last two
range further than `clean` accepts.
-/

namespace Splitbind

open Transaction

/-! ## 1. What a resolved source contributes -/

/-- Limitations `clean` accepts. -/
def AllowedLimitations (limitations : List String) : Prop :=
  ∀ limitation ∈ limitations, limitation ∈ demoVerificationAllowedLimitations

instance (limitations : List String) : Decidable (AllowedLimitations limitations) :=
  inferInstanceAs (Decidable (∀ _ ∈ _, _))

theorem allowed_signed_evidence_unavailable :
    AllowedLimitations ["manifest.signed_evidence_unavailable"] := by
  decide +kernel

theorem allowed_retained_issuance_invalid :
    AllowedLimitations ["evidence.retained_issuance_invalid"] := by
  decide +kernel

namespace SourceDatabase

variable {db : SourceDatabase} {library : ManifestLibrary} {now : Instant}

theorem organizationOf_eq_some {issuance : Issuance} (h : issuance ∈ db.issuances) :
    db.organizationOf issuance.id = some issuance.organizationId := by
  have hfound : db.issuances.find? (·.id = issuance.id) = some issuance :=
    Table.find?_eq_some db.issuanceIds h (by simp) fun other hother ↦ by simpa using hother
  simp [organizationOf, hfound]

/-- What a resolution contributes to the row of a commit: a storable status, allowed limitations
and an issuance of the organization. -/
structure Storable (db : SourceDatabase) (organizationId : UUID) (exactOnly : Bool)
    (source : SourceResolution) : Prop where
  status : source.status ≠ .processingFailed
  limitations : exactOnly = false → AllowedLimitations source.limitations
  recovered : ∀ issuanceId ∈ source.recoveredIssuanceId,
    db.organizationOf issuanceId = some organizationId

theorem Storable.unexposed {organizationId : UUID} {exactOnly : Bool} {source : SourceResolution}
    (hstatus : source.status ≠ .processingFailed)
    (hlimitations : exactOnly = false → AllowedLimitations source.limitations)
    (hnone : source.recoveredIssuanceId = none) : db.Storable organizationId exactOnly source :=
  ⟨hstatus, hlimitations, by simp [hnone]⟩

theorem resolveExact_storable {exactOnly : Bool} {issuance : Issuance}
    (hmem : issuance ∈ db.issuances) :
    db.Storable issuance.organizationId exactOnly
      (db.resolveExact library now exactOnly issuance) := by
  unfold resolveExact
  dsimp only
  split
  · exact ⟨by simp, by simp [AllowedLimitations], by simp [organizationOf_eq_some hmem]⟩
  split
  · exact ⟨by simp, fun _ ↦ allowed_signed_evidence_unavailable,
      by simp [organizationOf_eq_some hmem]⟩
  · exact .unexposed (by simp) (fun _ ↦ allowed_retained_issuance_invalid) rfl

theorem resolveDecoded_storable {organizationId issuanceId : UUID} {exactOnly : Bool} :
    db.Storable organizationId exactOnly
      (db.resolveDecoded library now organizationId issuanceId) := by
  unfold resolveDecoded
  split
  · exact .unexposed (by simp) (fun _ ↦ by decide +kernel) rfl
  · rename_i issuance hfound
    obtain ⟨rfl, -⟩ := by simpa using List.find?_some hfound
    have hmem := List.mem_of_find?_eq_some hfound
    dsimp only
    split
    · exact .unexposed (by simp) (fun _ ↦ allowed_retained_issuance_invalid) rfl
    · refine ⟨by simp, fun _ ↦ ?_, by simp [organizationOf_eq_some hmem]⟩
      dsimp only
      split
      · exact allowed_signed_evidence_unavailable
      · simp [AllowedLimitations]

/-- Every resolution can be stored. -/
theorem resolveSourceLocked_storable (organizationId : UUID) (inputSha256 : Sha256)
    (decode : DecodeSummary) (exactOnly : Bool) :
    db.Storable organizationId exactOnly
      (db.resolveSourceLocked library now organizationId inputSha256 decode exactOnly) := by
  unfold resolveSourceLocked
  split
  · rename_i issuance htake
    have hsingle := take_two_eq_singleton.mp htake
    have hmem : issuance ∈ db.withDigest organizationId inputSha256 := by simp [hsingle]
    simp only [withDigest, List.mem_filter, decide_eq_true_eq] at hmem
    obtain ⟨hmem, rfl, -⟩ := hmem
    exact resolveExact_storable hmem
  · exact .unexposed (by simp) (fun _ ↦ by decide +kernel) rfl
  · split
    · rename_i hexact
      exact .unexposed (by simp) (by simp [hexact]) rfl
    split
    · exact resolveDecoded_storable
    · exact .unexposed (by simp) (fun _ ↦ by decide +kernel) rfl
    · exact .unexposed (by simp) (fun _ ↦ by decide +kernel) rfl

end SourceDatabase

/-! ## 2. The limitations of a commit -/

/-- The limitations of a commit start with the fixed ones, repeat nothing, and are allowed. -/
theorem commitLimitations_accepted {exactOnly : Bool} (source : SourceResolution)
    (h : exactOnly = false → AllowedLimitations source.limitations) :
    (commitLimitations exactOnly source).take demoVerificationLimitations.length =
        demoVerificationLimitations ∧
      (commitLimitations exactOnly source).Nodup ∧
      AllowedLimitations (commitLimitations exactOnly source) := by
  have hbase : AllowedLimitations demoVerificationLimitations := by decide +kernel
  cases exactOnly with
  | true =>
    simp only [commitLimitations, if_true]
    exact ⟨by decide +kernel, by decide +kernel, hbase⟩
  | false =>
    simp only [commitLimitations, Bool.false_eq_true, if_false]
    refine ⟨?_, Distinct.nodup_eraseDups _, fun limitation hlimitation ↦ ?_⟩
    · have hdistinct : demoVerificationLimitations.eraseDups = demoVerificationLimitations := by
        decide +kernel
      rw [List.eraseDups_append, hdistinct, List.take_left']
      rfl
    · rw [List.mem_eraseDups, List.mem_append] at hlimitation
      exact hlimitation.elim (hbase limitation) (h rfl limitation)

/-! ## 3. The row of a commit -/

/-- The evidence of a commit has the members `clean` asks for, in shape whatever their values. -/
theorem commitEvidence_accepted {decode : DecodeSummary} {pagesAnalyzed : Nat}
    (processingMs : Nat) {exactOnly : Bool} {source : SourceResolution}
    (h : exactOnly = false → AllowedLimitations source.limitations) :
    DemoVerificationResult.evidenceShapeAccepted
        (commitEvidence decode pagesAnalyzed exactOnly source)
        (processingMetrics processingMs pagesAnalyzed 0) ↔
      0 ≤ decode.confidence ∧ decode.confidence ≤ 1 ∧ 1 ≤ pagesAnalyzed ∧ pagesAnalyzed ≤ 5 := by
  obtain ⟨htake, hnodup, hallowed⟩ := commitLimitations_accepted source h
  have hstatus : decode.status.text ∈ demoVerificationDecodeStatuses := by
    cases decode.status <;> decide +kernel
  have hsignature : DemoVerificationResult.triState
      (optionalFlag source.manifestSignatureValid) = true := by
    rcases source.manifestSignatureValid with _ | _ <;> rfl
  have hshape : DemoVerificationResult.evidenceShapeAccepted
        (commitEvidence decode pagesAnalyzed exactOnly source)
        (processingMetrics processingMs pagesAnalyzed 0) ↔
      decode.status.text ∈ demoVerificationDecodeStatuses ∧
        (0 ≤ decode.confidence ∧ decode.confidence ≤ 1) ∧
        (1 ≤ pagesAnalyzed ∧ pagesAnalyzed ≤ 5) ∧
        DemoVerificationResult.triState (optionalFlag source.manifestSignatureValid) = true ∧
        (commitLimitations exactOnly source).take demoVerificationLimitations.length =
          demoVerificationLimitations ∧
        (commitLimitations exactOnly source).Nodup ∧
        AllowedLimitations (commitLimitations exactOnly source) := by
    simp [DemoVerificationResult.evidenceShapeAccepted, commitEvidence, processingMetrics,
      JsonObject.get, DemoVerificationResult.numeric, DemoVerificationResult.countValue,
      DemoVerificationResult.textItems, AllowedLimitations]
  rw [hshape]
  constructor
  · rintro ⟨-, ⟨hnonneg, hle⟩, ⟨hpos, hpages⟩, -⟩
    exact ⟨hnonneg, hle, hpos, hpages⟩
  · rintro ⟨hnonneg, hle, hpos, hpages⟩
    exact ⟨hstatus, ⟨hnonneg, hle⟩, ⟨hpos, hpages⟩, hsignature, htake, hnodup, hallowed⟩

/-- `clean` of the row a commit builds looks at the confidence and the pages alone. -/
theorem clean_committedWith {record : DemoVerificationResult} {job : Job}
    {verification : Verification} {inputSha256 : Sha256} {decode : DecodeSummary}
    {pagesAnalyzed processingMs : Nat} {exactOnly : Bool} {source : SourceResolution}
    {recoveredOrganization : Option UUID} {now : Instant}
    (hrecord : record.clean job verification none = .ok ())
    (hreserved : record.resultState = .reserved) (hstatus : source.status ≠ .processingFailed)
    (hlimitations : exactOnly = false → AllowedLimitations source.limitations)
    (hrecovered : ∀ organization ∈ recoveredOrganization,
      organization = record.organizationId) :
    (record.committedWith inputSha256 decode pagesAnalyzed processingMs exactOnly source now).clean
        job verification recoveredOrganization = .ok () ↔
      0 ≤ decode.confidence ∧ decode.confidence ≤ 1 ∧ 1 ≤ pagesAnalyzed ∧ pagesAnalyzed ≤ 5 := by
  rw [← commitEvidence_accepted processingMs hlimitations]
  obtain ⟨hjob, hverification, hkind, hid, hattempt⟩ :=
    DemoVerificationResult.Binds.of_clean hrecord
  have hcode : record.safeErrorCode = none := by
    simp only [DemoVerificationResult.clean, hreserved, bind_eq_ok, exists_unit, raiseIf_eq_ok,
      not_or, not_not] at hrecord
    exact hrecord.2.2.2.2.2.2.2.2
  have hlabel : (commitEvidence decode pagesAnalyzed exactOnly source).get "algorithm_label" =
      some (.text demoAlgorithmLabel) := rfl
  have hevidence : DemoVerificationResult.sameKeys
      (commitEvidence decode pagesAnalyzed exactOnly source) demoVerificationEvidenceKeys = true :=
    show DemoVerificationResult.sameKeys (demoVerificationEvidenceKeys.map (·, .null))
      demoVerificationEvidenceKeys = true by decide +kernel
  have hmetrics : DemoVerificationResult.sameKeys (processingMetrics processingMs pagesAnalyzed 0)
      demoVerificationMetricKeys = true :=
    show DemoVerificationResult.sameKeys (demoVerificationMetricKeys.map (·, .null))
      demoVerificationMetricKeys = true by decide +kernel
  simp only [DemoVerificationResult.clean, DemoVerificationResult.committedWith, bind_eq_ok,
    exists_unit]
  constructor
  · rintro ⟨-, -, -, -, hshape⟩
    exact not_not.mp ((raiseIf_eq_ok _ _ _).mp hshape)
  · intro hshape
    refine ⟨?_, ?_, ?_, ?_, (raiseIf_eq_ok _ _ _).mpr (not_not.mpr hshape)⟩
    · simpa [hjob, hverification] using hrecovered
    · simp [hkind, hid, hattempt]
    · simp [hstatus, hcode, hlabel]
    · simp [hevidence, hmetrics]

/-! ## 4. The commit of an analysed file -/

/-- A reserved row whose owner may commit it: everything the commit checks besides the values. -/
structure CommitReady (rows : VerificationRows) (claim : VerificationClaim)
    (record : DemoVerificationResult) : Prop where
  owned : rows.lockOwned claim = .ok record
  processing : rows.job.status = .processing
  unflagged : rows.job.cancelRequestedAt = none
  reserved : record.resultState = .reserved
  accepted : record.clean rows.job rows.verification none = .ok ()
  attempt : rows.job.attempt ≤ 2
  unreceipted : ∀ receipt ∈ rows.receipts, receipt.messageId ≠ receiptId rows.job
  requester : rows.requesterOrganizationId = rows.verification.organizationId

/-- What the locks and checks of an owned row establish. -/
theorem lockOwned_eq_ok {rows : VerificationRows} {claim : VerificationClaim}
    {record : DemoVerificationResult} (h : rows.lockOwned claim = .ok record) :
    rows.result = some record ∧ record.ownerToken = claim.ownerToken ∧
      claim.organizationId = rows.job.organizationId ∧
      rows.verification.organizationId = rows.job.organizationId ∧
      rows.upload.organizationId = rows.job.organizationId := by
  simp only [VerificationRows.lockOwned, VerificationRows.validateClaimBinding,
    VerificationRows.validateLockedBinding, VerificationRows.lockedResult, bind_eq_ok, exists_unit,
    raiseIf_eq_ok, found_eq_ok, pure_eq_ok, not_or, not_not, ne_eq] at h
  obtain ⟨-, -, ⟨⟨-, -, -, hverification, hupload, -⟩, -, horganization, -⟩, _, hresult,
    ⟨-, -, -, htoken⟩, rfl⟩ := h
  exact ⟨hresult, htoken, horganization.symm, hverification, hupload⟩

/-- The result of a row that has been committed can be read back. -/
theorem toResult_committedWith (settings : Settings) (record : DemoVerificationResult)
    (inputSha256 : Sha256) (decode : DecodeSummary) (pagesAnalyzed processingMs : Nat)
    (exactOnly : Bool) (source : SourceResolution) (now : Instant) :
    ∃ result, { record.committedWith inputSha256 decode pagesAnalyzed processingMs exactOnly source
      now with updatedAt := now }.toResult settings = .ok result := by
  cases hmode : settings.integrityMode <;>
    exact ⟨_, by simp [DemoVerificationResult.toResult, DemoVerificationResult.committedWith,
      DemoVerificationResult.member, commitEvidence, processingMetrics, JsonObject.get, hmode]; rfl⟩

variable {rows : VerificationRows} {claim : VerificationClaim} {record : DemoVerificationResult}
  {settings : Settings} {db : SourceDatabase} {library : ManifestLibrary} {now : Instant}
  {inputSha256 : Sha256} {decode : DecodeSummary} {pagesAnalyzed processingMs : Nat}

/-- The source a commit resolves. -/
def commitSource (rows : VerificationRows) (db : SourceDatabase) (library : ManifestLibrary)
    (settings : Settings) (inputSha256 : Sha256) (decode : DecodeSummary) (now : Instant) :
    SourceResolution :=
  db.resolveSourceLocked library now rows.job.organizationId inputSha256 decode settings.exactOnly

/-- The source of a commit is storable for the organization of the job. -/
theorem commitSource_storable : db.Storable rows.job.organizationId settings.exactOnly
    (commitSource rows db library settings inputSha256 decode now) :=
  SourceDatabase.resolveSourceLocked_storable ..

/-- The organization of a recovered issuance is that of the job. -/
theorem SourceDatabase.Storable.organization {organizationId : UUID} {exactOnly : Bool}
    {source : SourceResolution} (h : db.Storable organizationId exactOnly source) :
    ∀ organization ∈ source.recoveredIssuanceId.bind db.organizationOf,
      organization = organizationId := by
  intro organization horganization
  obtain ⟨issuanceId, hid, horganization⟩ := Option.mem_bind_iff.mp horganization
  rw [Option.mem_def, h.recovered issuanceId hid] at horganization
  exact (Option.some.inj horganization).symm

/-- With everything else in order, a commit stands or falls with `clean` of its row. -/
theorem CommitReady.commits_iff (h : CommitReady rows claim record) {source : SourceResolution}
    (hsource : commitSource rows db library settings inputSha256 decode now = source) :
    (∃ result rows', rows.commitVerificationResult settings db library claim inputSha256 decode
        pagesAnalyzed processingMs now = .ok (some result, rows')) ↔
      (record.committedWith inputSha256 decode pagesAnalyzed processingMs settings.exactOnly source
        now).clean rows.job rows.verification
          (source.recoveredIssuanceId.bind db.organizationOf) = .ok () := by
  obtain ⟨-, -, horganization, hverification, hupload⟩ := lockOwned_eq_ok h.owned
  have hresolved : db.resolveSourceLocked library now claim.organizationId inputSha256 decode
      settings.exactOnly = source := by rw [horganization, ← hsource]; rfl
  have hstorable : db.Storable rows.job.organizationId settings.exactOnly source :=
    hsource ▸ commitSource_storable
  obtain ⟨result, hresult⟩ := toResult_committedWith settings record inputSha256 decode
    pagesAnalyzed processingMs settings.exactOnly source now
  have hidentity : ¬ (record.committedWith inputSha256 decode pagesAnalyzed processingMs
      settings.exactOnly source now).identityChanged record := by
    simp [DemoVerificationResult.identityChanged, DemoVerificationResult.committedWith]
  have hstate : (record.committedWith inputSha256 decode pagesAnalyzed processingMs
      settings.exactOnly source now).resultState ≠ .reserved := by
    simp [DemoVerificationResult.committedWith]
  have hattempt : (record.committedWith inputSha256 decode pagesAnalyzed processingMs
      settings.exactOnly source now).rowConstraints = .ok () := by
    simpa [DemoVerificationResult.rowConstraints, DemoVerificationResult.committedWith,
      ← (DemoVerificationResult.Binds.of_clean h.accepted).attempt] using h.attempt
  generalize hcommitted : record.committedWith inputSha256 decode pagesAnalyzed processingMs
    settings.exactOnly source now = committed at *
  constructor
  · -- a commit has checked the row it saves
    rintro ⟨result, rows', hcommit⟩
    simp only [VerificationRows.commitVerificationResult, h.owned, ok_bind, bind_eq_ok,
      hresolved, hcommitted] at hcommit
    obtain ⟨_, -, hcommit⟩ := hcommit
    rw [if_neg (not_not.mpr h.unflagged)] at hcommit
    simp only [bind_eq_ok] at hcommit
    obtain ⟨verification, hsaved, _, -, _, hrecord, -⟩ := hcommit
    simp only [VerificationRows.saveVerification, bind_eq_ok, pure_eq_ok] at hsaved
    obtain ⟨_, -, rfl⟩ := hsaved
    exact (DemoVerificationResult.save_eq_ok.mp hrecord).2.2.2.1
  · intro hclean
    -- the other tables accept their rows whatever the decision is
    have hsaved : rows.saveVerification (rows.commitVerification committed)
        (source.recoveredIssuanceId.bind db.organizationOf) =
          .ok (rows.commitVerification committed) := by
      rw [VerificationRows.saveVerification, raiseIf_neg, ok_bind]
      · rfl
      · rintro (hbad | hbad | ⟨organization, hmem, hbad⟩)
        · exact hbad (hupload.trans hverification.symm)
        · exact hbad h.requester
        · exact hbad ((hstorable.organization organization hmem).trans hverification.symm)
    have hreceipts : createReceipt rows.receipts claim.organizationId rows.job =
        .ok (rows.receipts ++ [⟨receiptId rows.job, claim.organizationId, rows.job.id⟩]) := by
      rw [createReceipt, raiseIf_neg, ok_bind, raiseIf_neg, ok_bind]
      · rfl
      · exact not_not.mpr horganization
      · rintro ⟨receipt, hmem, hid⟩
        exact h.unreceipted receipt hmem hid
    have hrecord : committed.save record rows.job (rows.commitVerification committed)
        (source.recoveredIssuanceId.bind db.organizationOf) now =
          .ok { committed with updatedAt := now } :=
      DemoVerificationResult.save_eq_ok.mpr
        ⟨hidentity, h.reserved, hstate, hclean, hattempt, rfl⟩
    have hjob : terminalizeLockedJob rows.job .succeeded none now =
        .ok { rows.job with status := .succeeded, safeErrorCode := none, updatedAt := now } :=
      terminalizeLockedJob_eq_ok.mpr
        ⟨h.attempt, by simp [h.processing, transitions], by simp, rfl⟩
    refine ⟨result, { rows with
      job := { rows.job with status := .succeeded, safeErrorCode := none, updatedAt := now }
      verification := rows.commitVerification committed
      result := some { committed with updatedAt := now }
      receipts := rows.receipts ++ [⟨receiptId rows.job, claim.organizationId, rows.job.id⟩] }, ?_⟩
    simp only [VerificationRows.commitVerificationResult, h.owned, ok_bind, hresolved, hcommitted,
      raiseIf_neg (not_not.mpr h.processing), if_neg (not_not.mpr h.unflagged), hsaved, hreceipts,
      hrecord, hjob, hresult]
    rfl

/-- Whether the values of an analysed file can be stored: at most five pages, and a confidence that
is not negative. -/
def Suspect.storable (suspect : Suspect) (settings : Settings)
    (candidates : List FingerprintV2Profile) : Prop :=
  suspect.pageCount ≤ 5 ∧ (settings.exactOnly = true ∨ suspect.confident candidates)

instance (suspect : Suspect) (settings : Settings) (candidates : List FingerprintV2Profile) :
    Decidable (suspect.storable settings candidates) :=
  inferInstanceAs (Decidable (_ ∧ _))

section Analyzed

variable {candidates : List FingerprintV2Profile} {suspect : Suspect}

/-- The row a commit builds for an analysed file is accepted exactly for the storable files. -/
theorem clean_committedWith_analyzed
    (hanalyzed : analyzeContent settings.exactOnly settings.maxPdfPages candidates suspect =
      .ok (decode, pagesAnalyzed))
    (hready : CommitReady rows claim record) {source : SourceResolution}
    (hsource : commitSource rows db library settings inputSha256 decode now = source) :
    (record.committedWith inputSha256 decode pagesAnalyzed processingMs settings.exactOnly source
        now).clean rows.job rows.verification
          (source.recoveredIssuanceId.bind db.organizationOf) = .ok () ↔
      suspect.storable settings candidates := by
  obtain ⟨hpages, hpos, hle, hnonneg⟩ := analyzeContent_eq_ok hanalyzed
  have hstorable : db.Storable rows.job.organizationId settings.exactOnly source :=
    hsource ▸ commitSource_storable
  have horganization := (DemoVerificationResult.Binds.of_clean hready.accepted).jobOrganization
  rw [clean_committedWith hready.accepted hready.reserved hstorable.status hstorable.limitations
    fun organization hmem ↦ (hstorable.organization organization hmem).trans horganization]
  unfold Suspect.storable
  rw [← hnonneg, ← hpages]
  exact ⟨fun ⟨hconfidence, _, _, hfive⟩ ↦ ⟨hfive, hconfidence⟩,
    fun ⟨hfive, hconfidence⟩ ↦ ⟨hconfidence, hle, hpos, hfive⟩⟩

/-- The commit of an analysed file goes through exactly for the storable files. -/
theorem commitVerificationResult_analyzed
    (hanalyzed : analyzeContent settings.exactOnly settings.maxPdfPages candidates suspect =
      .ok (decode, pagesAnalyzed))
    (hready : CommitReady rows claim record) :
    (∃ result rows', rows.commitVerificationResult settings db library claim inputSha256 decode
        pagesAnalyzed processingMs now = .ok (some result, rows')) ↔
      suspect.storable settings candidates :=
  (hready.commits_iff rfl).trans (clean_committedWith_analyzed hanalyzed hready rfl)

/-- For an analysed file, `clean` accepts the evidence and the metrics of its commit, and the
commit goes through, exactly when the file is storable. -/
theorem commit_accepted_iff
    (hanalyzed : analyzeContent settings.exactOnly settings.maxPdfPages candidates suspect =
      .ok (decode, pagesAnalyzed))
    (hready : CommitReady rows claim record) :
    ((record.committedWith inputSha256 decode pagesAnalyzed processingMs settings.exactOnly
        (commitSource rows db library settings inputSha256 decode now) now).clean rows.job
          rows.verification ((commitSource rows db library settings inputSha256 decode
            now).recoveredIssuanceId.bind db.organizationOf) = .ok () ↔
      suspect.storable settings candidates) ∧
    ((∃ result rows', rows.commitVerificationResult settings db library claim inputSha256 decode
        pagesAnalyzed processingMs now = .ok (some result, rows')) ↔
      suspect.storable settings candidates) :=
  ⟨clean_committedWith_analyzed hanalyzed hready rfl,
    commitVerificationResult_analyzed hanalyzed hready⟩

end Analyzed

/-! ## 5. Files that are analysed and refused -/

def sampleVerification : Verification where
  id := ⟨23⟩
  organizationId := ⟨2⟩
  uploadRequestId := ⟨28⟩
  requestedById := ⟨7⟩
  recoveredIssuanceId := none
  status := none
  evidence := []
  metrics := []
  completedAt := none

def sampleVerificationJob : Job where
  id := ⟨21⟩
  organizationId := ⟨2⟩
  target := .verification ⟨23⟩
  status := .processing
  attempt := 0
  deadlineAt := 1000
  correlationId := ⟨24⟩
  cancelRequestedAt := none
  safeErrorCode := none
  createdAt := 0
  updatedAt := 0

def sampleUpload : UploadRequest where
  id := ⟨28⟩
  organizationId := ⟨2⟩
  requestedById := ⟨7⟩
  purpose := .verification
  objectKey := .orphan .verification ⟨2⟩ ⟨29⟩
  sourceContentType := "application/pdf"
  expectedSha256 := some ⟨30⟩
  sizeBytes := some 1000
  expiresAt := 1000
  finalizedAt := some 0
  orphanDeletedAt := none
  promotionTargetKey := some (.promotedInput .verification ⟨2⟩ ⟨28⟩)
  promotionStatus := .attached
  promotionStatusChangedAt := 0
  safeErrorCode := none
  promotionTargetDeletedAt := none
  promotionTargetReconciledAt := none
  createdAt := 0

def sampleRecord : DemoVerificationResult := .reserve ⟨2⟩ ⟨21⟩ ⟨23⟩ 0 ⟨31⟩ 0

def sampleVerificationRows : VerificationRows where
  job := sampleVerificationJob
  verification := sampleVerification
  upload := sampleUpload
  requesterOrganizationId := ⟨2⟩
  result := some sampleRecord
  receipts := []
  audit := []

/-- A database without issuances. -/
def emptySources : SourceDatabase where
  issuances := []
  evidence := []
  jobs := []
  documents := []
  receipts := []
  manifests := []
  signingKeys := []
  issuanceIds := .nil
  evidenceIssuances := .nil
  jobIds := .nil
  documentIds := .nil
  manifestIssuances := .nil
  signingKeyIds := .nil
  evidenceJobs := by simp
  issuanceDocuments := by simp

theorem sampleVerificationRows_ready : CommitReady sampleVerificationRows
    (sampleVerificationRows.claimOf ⟨31⟩) sampleRecord where
  owned := by decide +kernel
  processing := rfl
  unflagged := rfl
  reserved := rfl
  accepted := by decide +kernel
  attempt := by decide
  unreceipted := by simp [sampleVerificationRows]
  requester := rfl

/-- A deployment in demo mode, and one in integrity mode without fingerprints. -/
def demoSettings : Settings := ⟨true, false, true, 50, 600⟩

def integritySettings : Settings := ⟨false, true, false, 50, 600⟩

/-- A page without a pilot: what correlates with it is too weak to align the page. -/
def plainPage : Canvas := fun _ _ ↦ .unaligned (some (1 / 10))

/-- A document of one plain page is committed. -/
theorem commit_accepted_iff_sample : ∃ result rows',
    sampleVerificationRows.commitVerificationResult demoSettings emptySources .rejecting
      (sampleVerificationRows.claimOf ⟨31⟩) ⟨30⟩ ⟨none, 1 / 10, 0, .insufficientSyncEvidence⟩ 1
        5 6 = .ok (some result, rows') := by
  have hanalyzed : analyzeContent demoSettings.exactOnly demoSettings.maxPdfPages
      acceptedDecodeCandidates (.pdf [plainPage]) =
        .ok (⟨none, 1 / 10, 0, .insufficientSyncEvidence⟩, 1) := by decide +kernel
  exact (commit_accepted_iff hanalyzed sampleVerificationRows_ready).2.mpr (by decide +kernel)

/-- A file that is analysed within the limits, and whose commit is refused. -/
def RefusedAfterAnalysis (settings : Settings) (suspect : Suspect) : Prop :=
  RuntimeLimit.maxPdfPages.Admits settings.maxPdfPages ∧
  ∃ decode pagesAnalyzed, analyzeContent settings.exactOnly settings.maxPdfPages
      acceptedDecodeCandidates suspect = .ok (decode, pagesAnalyzed) ∧
    ¬ ∃ result rows', sampleVerificationRows.commitVerificationResult settings emptySources
      .rejecting (sampleVerificationRows.claimOf ⟨31⟩) ⟨30⟩ decode pagesAnalyzed 5 6 =
        .ok (some result, rows')

/-- Six plain pages in integrity mode. -/
theorem commit_refused_after_analysis :
    RefusedAfterAnalysis integritySettings (.pdf (List.replicate 6 plainPage)) := by
  have hanalyzed : analyzeContent integritySettings.exactOnly integritySettings.maxPdfPages
      acceptedDecodeCandidates (.pdf (List.replicate 6 plainPage)) =
        .ok (⟨none, 0, 0, .payloadNotDetected⟩, 6) := by decide +kernel
  refine ⟨RuntimeLimit.admits_runtimeDefault .maxPdfPages, _, _, hanalyzed, fun hcommits ↦ ?_⟩
  have hstorable : (Suspect.pdf (List.replicate 6 plainPage)).storable integritySettings
      acceptedDecodeCandidates :=
    (commitVerificationResult_analyzed hanalyzed sampleVerificationRows_ready).mp hcommits
  exact absurd hstorable (by decide +kernel)

end Splitbind
