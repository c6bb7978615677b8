import Splitbind.Demo.VerificationDecode
import Splitbind.Documents.Manifests
import Splitbind.Library.Table

/-!
# Verification source — which issuance a suspect file is traced to

`resolveSourceLocked` looks for the exact digest first and for the decoded issuance second, and
trusts an issuance only with its retained evidence.  Everything it reads belongs to the
organization that asks.
-/

namespace Splitbind

open Transaction

/-! ## 1. The tables -/

/-- The tables a verification is resolved against.  Primary keys and one-to-one columns are
unique, and related records belong to one organization. -/
structure SourceDatabase where
  issuances : List Issuance
  evidence : List DemoIssuanceResult
  jobs : List Job
  documents : List Document
  receipts : List JobResultReceipt
  manifests : List Manifest
  signingKeys : List SigningKey
  issuanceIds : (issuances.map (·.id)).Nodup
  evidenceIssuances : (evidence.map (·.issuanceId)).Nodup
  jobIds : (jobs.map (·.id)).Nodup
  documentIds : (documents.map (·.id)).Nodup
  manifestIssuances : (manifests.map (·.issuanceId)).Nodup
  signingKeyIds : (signingKeys.map (·.id)).Nodup
  evidenceJobs : ∀ e ∈ evidence, ∀ job ∈ jobs, job.id = e.jobId →
    job.organizationId = e.organizationId
  issuanceDocuments : ∀ issuance ∈ issuances, ∀ document ∈ documents,
    document.id = issuance.documentId → document.organizationId = issuance.organizationId

structure SourceResolution where
  status : VerificationStatus
  recoveredIssuanceId : Option UUID
  exactFileHashMatch : Bool
  manifestSignatureValid : Option Bool
  limitations : List String
deriving DecidableEq, Repr

def transformedAttributionUnavailable : String := "fingerprint.transformed_attribution_unavailable"

namespace SourceDatabase

variable (db : SourceDatabase) (library : ManifestLibrary) (now : Instant)

/-! ## 2. Retained evidence -/

/-- The rows `_validate_retained_source_locked` locks, once the evidence passes `full_clean`. -/
def retainedRows (issuance : Issuance) : Except Raised (DemoIssuanceResult × Job × Document) := do
  let evidence ← found (db.evidence.find? fun row ↦ row.issuanceId = issuance.id ∧
    row.organizationId = issuance.organizationId) (.doesNotExist "DemoIssuanceResult")
  let sourceJob ← found (db.jobs.find? fun job ↦ job.issuanceId ≠ none ∧ job.id = evidence.jobId)
    (.doesNotExist "Job")
  let document ← found (db.documents.find? fun document ↦ document.id = issuance.documentId)
    (.doesNotExist "Document")
  evidence.fullClean sourceJob issuance
  return (evidence, sourceJob, document)

/-- `evidence_valid`. -/
def evidenceValid (issuance : Issuance) (evidence : DemoIssuanceResult) (sourceJob : Job)
    (document : Document) : Bool :=
  sourceJob.status = .succeeded ∧ evidence.outputState = .committed ∧
    evidence.attempt = sourceJob.attempt ∧
    some evidence.outputObjectKey = issuance.outputObjectKey ∧
    evidence.outputSha256 = issuance.outputSha256 ∧ evidence.pageCount = document.pageCount ∧
    receiptExists db.receipts issuance.organizationId sourceJob

/-- The manifest check of an issuance whose evidence is valid: `none` without a manifest. -/
def manifestCheck (issuance : Issuance) : Option Bool :=
  match db.manifests.find? fun manifest ↦ manifest.issuanceId = issuance.id ∧
      manifest.organizationId = issuance.organizationId with
  | none => none
  | some manifest =>
    match db.signingKeys.find? fun key ↦ key.id = manifest.signingKeyId ∧
        key.organizationId = issuance.organizationId with
    | none => some false
    | some signingKey =>
      if (verifyStoredManifest library manifest.publicPayload manifest.publicSignatureEnvelope
          signingKey now (some .publicKind)).trusted then
        match library.loads manifest.publicPayload with
        | none => some false
        | some payload =>
          some (payload.get "issuance_id" = some (.text issuance.id.text) ∧
            payload.get "output_sha256" = issuance.outputSha256.map fun sha256 ↦ .text sha256.text)
      else some false

/-- `_validate_retained_source_locked`. -/
def validateRetainedSourceLocked (issuance : Issuance) : Bool × Option Bool :=
  match db.retainedRows issuance with
  | .error _ => (false, none)
  | .ok (evidence, sourceJob, document) =>
    if db.evidenceValid issuance evidence sourceJob document then
      (true, db.manifestCheck library now issuance)
    else (false, none)

/-! ## 3. Resolution -/

/-- The issuances of the organization with the digest, by id. -/
def exactMatches (organizationId : UUID) (inputSha256 : Sha256) : List Issuance :=
  (db.issuances.filter fun issuance ↦ issuance.organizationId = organizationId ∧
    issuance.outputSha256 = some inputSha256).insertionSort
      fun a b ↦ a.id.value.toNat ≤ b.id.value.toNat

/-- `_resolve_source_locked` with exactly one issuance of that digest. -/
def resolveExact (exactOnly : Bool) (issuance : Issuance) : SourceResolution :=
  let (evidenceValid, manifestValid) := db.validateRetainedSourceLocked library now issuance
  if evidenceValid ∧ manifestValid = some true then
    ⟨.verifiedIntact, some issuance.id, true, manifestValid, []⟩
  else if evidenceValid ∧ manifestValid = none ∧ ¬ exactOnly then
    ⟨.verifiedIntact, some issuance.id, true, none, ["manifest.signed_evidence_unavailable"]⟩
  else ⟨.invalidManifest, none, true, manifestValid, ["evidence.retained_issuance_invalid"]⟩

/-- Without a matching digest, when the fingerprint has been decoded. -/
def resolveDecoded (organizationId issuanceId : UUID) : SourceResolution :=
  match db.issuances.find? fun issuance ↦ issuance.organizationId = organizationId ∧
      issuance.id = issuanceId with
  | none => ⟨.partialEvidence, none, false, none,
      ["fingerprint.decoded_source_not_available", "manifest.signed_evidence_unavailable"]⟩
  | some issuance =>
    let (evidenceValid, manifestValid) := db.validateRetainedSourceLocked library now issuance
    if ¬ evidenceValid ∨ manifestValid = some false then
      ⟨.invalidManifest, none, false, manifestValid, ["evidence.retained_issuance_invalid"]⟩
    else
      ⟨.sourceIdentifiedModified, some issuance.id, false, manifestValid,
        if manifestValid = none then ["manifest.signed_evidence_unavailable"] else []⟩

/-- `_resolve_source_locked`. -/
def resolveSourceLocked (organizationId : UUID) (inputSha256 : Sha256) (decode : DecodeSummary)
    (exactOnly : Bool) : SourceResolution :=
  match (db.exactMatches organizationId inputSha256).take 2 with
  | [issuance] => db.resolveExact library now exactOnly issuance
  | _ :: _ => ⟨.partialEvidence, none, true, none,
      ["evidence.exact_hash_ambiguous", "manifest.signed_evidence_unavailable"]⟩
  | [] =>
    if exactOnly then ⟨.noWatermark, none, false, none, [transformedAttributionUnavailable]⟩
    else
      match decode.status, decode.issuanceId with
      | .decoded, some issuanceId => db.resolveDecoded library now organizationId issuanceId
      | .partialPayloadEvidence, _ => ⟨.partialEvidence, none, false, none,
          ["fingerprint.partial_payload_evidence", "manifest.signed_evidence_unavailable"]⟩
      | _, _ => ⟨.noWatermark, none, false, none,
          ["fingerprint.no_watermark_not_exclusion", "manifest.signed_evidence_unavailable"]⟩

/-! ## 4. What a valid source retains -/

/-- The evidence, job and document that vouch for an issuance. -/
structure RetainedBy (issuance : Issuance) (evidence : DemoIssuanceResult) (sourceJob : Job)
    (document : Document) : Prop where
  evidenceRow : evidence ∈ db.evidence
  issuanceId : evidence.issuanceId = issuance.id
  organizationId : evidence.organizationId = issuance.organizationId
  jobRow : sourceJob ∈ db.jobs
  issuanceJob : sourceJob.issuanceId ≠ none
  jobId : sourceJob.id = evidence.jobId
  documentRow : document ∈ db.documents
  documentId : document.id = issuance.documentId
  accepted : evidence.fullClean sourceJob issuance = .ok ()
  succeeded : sourceJob.status = .succeeded
  committed : evidence.outputState = .committed
  attempt : evidence.attempt = sourceJob.attempt
  outputObjectKey : some evidence.outputObjectKey = issuance.outputObjectKey
  outputSha256 : evidence.outputSha256 = issuance.outputSha256
  pageCount : evidence.pageCount = document.pageCount
  receipt : receiptExists db.receipts issuance.organizationId sourceJob = true

/-- The issuance has a committed row that passes full validation, a succeeded job, and the
matching keys, digest, page count and receipt. -/
def Retained (issuance : Issuance) : Prop :=
  ∃ evidence sourceJob document, db.RetainedBy issuance evidence sourceJob document

variable {db library now}

theorem retainedRows_eq_ok {issuance : Issuance} {evidence : DemoIssuanceResult} {sourceJob : Job}
    {document : Document} :
    db.retainedRows issuance = .ok (evidence, sourceJob, document) ↔
      evidence ∈ db.evidence ∧ evidence.issuanceId = issuance.id ∧
      evidence.organizationId = issuance.organizationId ∧ sourceJob ∈ db.jobs ∧
      sourceJob.issuanceId ≠ none ∧ sourceJob.id = evidence.jobId ∧ document ∈ db.documents ∧
      document.id = issuance.documentId ∧ evidence.fullClean sourceJob issuance = .ok () := by
  simp only [retainedRows, bind_eq_ok, found_eq_ok, exists_unit, pure_eq_ok, Prod.mk.injEq]
  constructor
  · rintro ⟨_, hevidence, _, hjob, _, hdocument, haccepted, rfl, rfl, rfl⟩
    obtain ⟨hissuance, horganization⟩ := by simpa using List.find?_some hevidence
    obtain ⟨hissuanceJob, hjobId⟩ := by simpa using List.find?_some hjob
    have hdocumentId := by simpa using List.find?_some hdocument
    exact ⟨List.mem_of_find?_eq_some hevidence, hissuance, horganization,
      List.mem_of_find?_eq_some hjob, hissuanceJob, hjobId, List.mem_of_find?_eq_some hdocument,
      hdocumentId, haccepted⟩
  · rintro ⟨hevidence, hissuance, horganization, hjob, hissuanceJob, hjobId, hdocument,
      hdocumentId, haccepted⟩
    refine ⟨evidence, ?_, sourceJob, ?_, document, ?_, haccepted, rfl, rfl, rfl⟩
    · exact Table.find?_eq_some db.evidenceIssuances hevidence
        (by simp [hissuance, horganization]) fun other hother ↦ by simp_all
    · exact Table.find?_eq_some db.jobIds hjob (by simp [hissuanceJob, hjobId])
        fun other hother ↦ by simp_all
    · exact Table.find?_eq_some db.documentIds hdocument (by simp [hdocumentId])
        fun other hother ↦ by simp_all

theorem evidenceValid_iff {issuance : Issuance} {evidence : DemoIssuanceResult} {sourceJob : Job}
    {document : Document} :
    db.evidenceValid issuance evidence sourceJob document = true ↔
      sourceJob.status = .succeeded ∧ evidence.outputState = .committed ∧
      evidence.attempt = sourceJob.attempt ∧
      some evidence.outputObjectKey = issuance.outputObjectKey ∧
      evidence.outputSha256 = issuance.outputSha256 ∧ evidence.pageCount = document.pageCount ∧
      receiptExists db.receipts issuance.organizationId sourceJob = true := by
  simp only [evidenceValid, decide_eq_true_eq]

/-- The check is what it says: valid with the manifest check of a retained issuance, and otherwise
neither. -/
theorem validateRetainedSourceLocked_eq {issuance : Issuance} [Decidable (db.Retained issuance)] :
    db.validateRetainedSourceLocked library now issuance =
      if db.Retained issuance then (true, db.manifestCheck library now issuance)
      else (false, none) := by
  unfold validateRetainedSourceLocked
  rcases hrows : db.retainedRows issuance with error | ⟨evidence, sourceJob, document⟩
  · rw [if_neg]
    rintro ⟨evidence, sourceJob, document, h⟩
    have := retainedRows_eq_ok.mpr ⟨h.evidenceRow, h.issuanceId, h.organizationId, h.jobRow,
      h.issuanceJob, h.jobId, h.documentRow, h.documentId, h.accepted⟩
    rw [hrows] at this
    simp at this
  · have hretained : db.Retained issuance ↔
        db.evidenceValid issuance evidence sourceJob document = true := by
      obtain ⟨hevidence, hissuance, horganization, hjob, hissuanceJob, hjobId, hdocument,
        hdocumentId, haccepted⟩ := retainedRows_eq_ok.mp hrows
      rw [evidenceValid_iff]
      constructor
      · rintro ⟨evidence', sourceJob', document', h⟩
        have hrows' := retainedRows_eq_ok.mpr ⟨h.evidenceRow, h.issuanceId, h.organizationId,
          h.jobRow, h.issuanceJob, h.jobId, h.documentRow, h.documentId, h.accepted⟩
        rw [hrows, Except.ok.injEq, Prod.mk.injEq, Prod.mk.injEq] at hrows'
        obtain ⟨rfl, rfl, rfl⟩ := hrows'
        exact ⟨h.succeeded, h.committed, h.attempt, h.outputObjectKey, h.outputSha256,
          h.pageCount, h.receipt⟩
      · rintro ⟨hsucceeded, hcommitted, hattempt, hkey, hsha, hpages, hreceipt⟩
        exact ⟨evidence, sourceJob, document, hevidence, hissuance, horganization, hjob,
          hissuanceJob, hjobId, hdocument, hdocumentId, haccepted, hsucceeded, hcommitted,
          hattempt, hkey, hsha, hpages, hreceipt⟩
    simp only [hretained]

/-! ## 5. Exact matches -/

/-- The issuances of the organization with the digest, as the table holds them. -/
def withDigest (db : SourceDatabase) (organizationId : UUID) (inputSha256 : Sha256) :
    List Issuance :=
  db.issuances.filter fun issuance ↦ issuance.organizationId = organizationId ∧
    issuance.outputSha256 = some inputSha256

theorem exactMatches_perm (db : SourceDatabase) (organizationId : UUID) (inputSha256 : Sha256) :
    (db.exactMatches organizationId inputSha256).Perm (db.withDigest organizationId inputSha256) :=
  List.perm_insertionSort _ _

theorem take_two_eq_singleton {organizationId : UUID} {inputSha256 : Sha256}
    {issuance : Issuance} :
    (db.exactMatches organizationId inputSha256).take 2 = [issuance] ↔
      db.withDigest organizationId inputSha256 = [issuance] := by
  have hperm := exactMatches_perm db organizationId inputSha256
  constructor
  · intro htake
    have hmatches : db.exactMatches organizationId inputSha256 = [issuance] := by
      match hlist : db.exactMatches organizationId inputSha256 with
      | [] => simp [hlist] at htake
      | [other] => simpa [hlist] using htake
      | _ :: _ :: _ => simp [hlist] at htake
    exact List.perm_singleton.mp (hmatches ▸ hperm).symm
  · intro hsingle
    have hmatches : db.exactMatches organizationId inputSha256 = [issuance] :=
      List.perm_singleton.mp (hsingle ▸ hperm)
    rw [hmatches]
    rfl

theorem take_two_eq_nil {organizationId : UUID} {inputSha256 : Sha256} :
    (db.exactMatches organizationId inputSha256).take 2 = [] ↔
      db.withDigest organizationId inputSha256 = [] := by
  have hperm := exactMatches_perm db organizationId inputSha256
  rw [List.take_eq_nil_iff]
  simp only [OfNat.ofNat_ne_zero, false_or]
  exact ⟨fun h ↦ (h ▸ hperm).symm.eq_nil, fun h ↦ (h ▸ hperm).eq_nil⟩

theorem withDigest_ne_nil {organizationId : UUID} {inputSha256 : Sha256} :
    db.withDigest organizationId inputSha256 ≠ [] ↔ ∃ issuance ∈ db.issuances,
      issuance.organizationId = organizationId ∧ issuance.outputSha256 = some inputSha256 := by
  simp [withDigest, List.filter_eq_nil_iff]

/-! ## 6. The scope of a resolution -/

/-- Two databases that hold the same rows of an organization. -/
structure Agree (organizationId : UUID) (db db' : SourceDatabase) : Prop where
  issuances : db.issuances.filter (·.organizationId = organizationId) =
    db'.issuances.filter (·.organizationId = organizationId)
  evidence : db.evidence.filter (·.organizationId = organizationId) =
    db'.evidence.filter (·.organizationId = organizationId)
  jobs : db.jobs.filter (·.organizationId = organizationId) =
    db'.jobs.filter (·.organizationId = organizationId)
  documents : db.documents.filter (·.organizationId = organizationId) =
    db'.documents.filter (·.organizationId = organizationId)
  receipts : db.receipts.filter (·.organizationId = organizationId) =
    db'.receipts.filter (·.organizationId = organizationId)
  manifests : db.manifests.filter (·.organizationId = organizationId) =
    db'.manifests.filter (·.organizationId = organizationId)
  signingKeys : db.signingKeys.filter (·.organizationId = organizationId) =
    db'.signingKeys.filter (·.organizationId = organizationId)

theorem Agree.symm {organizationId : UUID} {db db' : SourceDatabase}
    (h : Agree organizationId db db') : Agree organizationId db' db :=
  ⟨h.issuances.symm, h.evidence.symm, h.jobs.symm, h.documents.symm, h.receipts.symm,
    h.manifests.symm, h.signingKeys.symm⟩

variable {db' : SourceDatabase} {issuance : Issuance}

private theorem mem_of_agree {α : Type} {rows rows' : List α} {scope : α → Bool} {row : α}
    (h : rows.filter scope = rows'.filter scope) (hmem : row ∈ rows) (hscope : scope row = true) :
    row ∈ rows' := by
  have hfiltered : row ∈ rows.filter scope := List.mem_filter.mpr ⟨hmem, hscope⟩
  rw [h] at hfiltered
  exact (List.mem_filter.mp hfiltered).1

private theorem receiptExists_of_agree {organizationId : UUID} {sourceJob : Job}
    (h : Agree organizationId db db') :
    receiptExists db.receipts organizationId sourceJob =
      receiptExists db'.receipts organizationId sourceJob := by
  have hscope : ∀ rows : List JobResultReceipt,
      receiptExists (rows.filter (·.organizationId = organizationId)) organizationId sourceJob =
        receiptExists rows organizationId sourceJob := by
    intro rows
    refine Table.any_filter fun receipt _ hreceipt ↦ ?_
    simp only [decide_eq_true_eq] at hreceipt ⊢
    exact hreceipt.2.1
  rw [← hscope db.receipts, h.receipts, hscope db'.receipts]

theorem RetainedBy.of_agree {evidence : DemoIssuanceResult} {sourceJob : Job} {document : Document}
    (h : Agree issuance.organizationId db db') (hmem : issuance ∈ db.issuances)
    (hretained : db.RetainedBy issuance evidence sourceJob document) :
    db'.RetainedBy issuance evidence sourceJob document where
  evidenceRow := mem_of_agree h.evidence hretained.evidenceRow
    (by simpa using hretained.organizationId)
  issuanceId := hretained.issuanceId
  organizationId := hretained.organizationId
  jobRow := by
    refine mem_of_agree h.jobs hretained.jobRow ?_
    have horganization := db.evidenceJobs evidence hretained.evidenceRow sourceJob
      hretained.jobRow hretained.jobId
    simpa using horganization.trans hretained.organizationId
  issuanceJob := hretained.issuanceJob
  jobId := hretained.jobId
  documentRow := by
    refine mem_of_agree h.documents hretained.documentRow ?_
    simpa using db.issuanceDocuments issuance hmem document hretained.documentRow
      hretained.documentId
  documentId := hretained.documentId
  accepted := hretained.accepted
  succeeded := hretained.succeeded
  committed := hretained.committed
  attempt := hretained.attempt
  outputObjectKey := hretained.outputObjectKey
  outputSha256 := hretained.outputSha256
  pageCount := hretained.pageCount
  receipt := receiptExists_of_agree h ▸ hretained.receipt

theorem Retained.of_agree (h : Agree issuance.organizationId db db')
    (hmem : issuance ∈ db.issuances) (hretained : db.Retained issuance) :
    db'.Retained issuance := by
  obtain ⟨evidence, sourceJob, document, hby⟩ := hretained
  exact ⟨evidence, sourceJob, document, hby.of_agree h hmem⟩

theorem manifestCheck_of_agree (h : Agree issuance.organizationId db db') :
    db.manifestCheck library now issuance = db'.manifestCheck library now issuance := by
  have hmanifests : ∀ rows : List Manifest,
      rows.find? (fun manifest ↦ manifest.issuanceId = issuance.id ∧
        manifest.organizationId = issuance.organizationId) =
      (rows.filter (·.organizationId = issuance.organizationId)).find?
        (fun manifest ↦ manifest.issuanceId = issuance.id ∧
          manifest.organizationId = issuance.organizationId) := by
    intro rows
    refine (Table.find?_filter fun manifest _ hmanifest ↦ ?_).symm
    simp only [decide_eq_true_eq] at hmanifest ⊢
    exact hmanifest.2
  have hkeys : ∀ (rows : List SigningKey) (id : UUID),
      rows.find? (fun key ↦ key.id = id ∧ key.organizationId = issuance.organizationId) =
      (rows.filter (·.organizationId = issuance.organizationId)).find?
        (fun key ↦ key.id = id ∧ key.organizationId = issuance.organizationId) := by
    intro rows id
    refine (Table.find?_filter fun key _ hkey ↦ ?_).symm
    simp only [decide_eq_true_eq] at hkey ⊢
    exact hkey.2
  unfold manifestCheck
  rw [hmanifests db.manifests, h.manifests, ← hmanifests db'.manifests]
  split
  · rfl
  · rename_i manifest hmanifest
    rw [hkeys db.signingKeys, h.signingKeys, ← hkeys db'.signingKeys]

theorem validateRetainedSourceLocked_of_agree (h : Agree issuance.organizationId db db')
    (hmem : issuance ∈ db.issuances) (hmem' : issuance ∈ db'.issuances) :
    db.validateRetainedSourceLocked library now issuance =
      db'.validateRetainedSourceLocked library now issuance := by
  classical
  have hiff : db.Retained issuance ↔ db'.Retained issuance :=
    ⟨.of_agree h hmem, .of_agree h.symm hmem'⟩
  simp only [validateRetainedSourceLocked_eq, hiff, manifestCheck_of_agree h]

theorem withDigest_of_agree {organizationId : UUID} {inputSha256 : Sha256}
    (h : Agree organizationId db db') :
    db.withDigest organizationId inputSha256 = db'.withDigest organizationId inputSha256 := by
  have hscope : ∀ db : SourceDatabase, db.withDigest organizationId inputSha256 =
      (db.issuances.filter (·.organizationId = organizationId)).filter fun issuance ↦
        issuance.organizationId = organizationId ∧ issuance.outputSha256 = some inputSha256 := by
    intro db
    refine (Table.filter_filter fun issuance _ hissuance ↦ ?_).symm
    simp only [decide_eq_true_eq] at hissuance ⊢
    exact hissuance.1
  rw [hscope db, h.issuances, ← hscope db']

/-- A resolution reads no other organization's rows. -/
theorem resolveSourceLocked_of_agree {organizationId : UUID} {inputSha256 : Sha256}
    {decode : DecodeSummary} {exactOnly : Bool} (h : Agree organizationId db db') :
    db.resolveSourceLocked library now organizationId inputSha256 decode exactOnly =
      db'.resolveSourceLocked library now organizationId inputSha256 decode exactOnly := by
  have hvalidate : ∀ issuance, issuance.organizationId = organizationId →
      issuance ∈ db.issuances → db.validateRetainedSourceLocked library now issuance =
        db'.validateRetainedSourceLocked library now issuance := by
    rintro issuance rfl hmem
    exact validateRetainedSourceLocked_of_agree h hmem
      (mem_of_agree h.issuances hmem (by simp))
  have hmatches : db.exactMatches organizationId inputSha256 =
      db'.exactMatches organizationId inputSha256 := by
    have hdigest : db.withDigest organizationId inputSha256 =
        db'.withDigest organizationId inputSha256 := withDigest_of_agree h
    simp only [withDigest] at hdigest
    simp only [exactMatches, hdigest]
  unfold resolveSourceLocked
  rw [← hmatches]
  split
  · rename_i issuance htake
    have hsingle := take_two_eq_singleton.mp htake
    have hmem : issuance ∈ db.withDigest organizationId inputSha256 := by simp [hsingle]
    simp only [withDigest, List.mem_filter, decide_eq_true_eq] at hmem
    simp only [resolveExact, hvalidate issuance hmem.2.1 hmem.1]
  · rfl
  · split
    · rfl
    · split
      · rename_i issuanceId _ _
        -- the lookup asks for the organization too, so it sees its rows only
        have hlookup : ∀ rows : List Issuance,
            rows.find? (fun issuance ↦ issuance.organizationId = organizationId ∧
              issuance.id = issuanceId) =
            (rows.filter (·.organizationId = organizationId)).find?
              (fun issuance ↦ issuance.organizationId = organizationId ∧
                issuance.id = issuanceId) := by
          intro rows
          refine (Table.find?_filter fun issuance _ hissuance ↦ ?_).symm
          simp only [decide_eq_true_eq] at hissuance ⊢
          exact hissuance.1
        unfold resolveDecoded
        rw [hlookup db'.issuances, ← h.issuances, ← hlookup db.issuances]
        split
        · rfl
        · rename_i issuance hfound
          obtain ⟨horganization, -⟩ := by simpa using List.find?_some hfound
          rw [hvalidate issuance horganization (List.mem_of_find?_eq_some hfound)]
      · rfl
      · rfl

/-! ## 7. Source resolution -/

theorem resolveExact_verifiedIntact {exactOnly : Bool} :
    (db.resolveExact library now exactOnly issuance).status = .verifiedIntact ↔
      db.Retained issuance ∧ (db.manifestCheck library now issuance = some true ∨
        db.manifestCheck library now issuance = none ∧ exactOnly = false) := by
  classical
  simp only [resolveExact, validateRetainedSourceLocked_eq]
  by_cases hretained : db.Retained issuance
  · rcases hcheck : db.manifestCheck library now issuance with _ | _ | _ <;>
      cases exactOnly <;> simp [hretained]
  · simp [hretained]

/-- Without a match of the digest, nothing is found intact, and a modified source is identified
only by its decoded issuance. -/
theorem resolveDecoded_identified (db : SourceDatabase) (library : ManifestLibrary)
    (now : Instant) (organizationId issuanceId : UUID) :
    (db.resolveDecoded library now organizationId issuanceId).status ≠ .verifiedIntact ∧
      ((db.resolveDecoded library now organizationId issuanceId).status =
          .sourceIdentifiedModified →
        ∃ issuance ∈ db.issuances, issuance.organizationId = organizationId ∧
          issuance.id = issuanceId ∧ db.Retained issuance ∧
          db.manifestCheck library now issuance ≠ some false) ∧
      ((db.resolveDecoded library now organizationId issuanceId).recoveredIssuanceId ≠ none →
        (db.resolveDecoded library now organizationId issuanceId).status =
          .sourceIdentifiedModified) := by
  classical
  unfold resolveDecoded
  split
  · simp
  · rename_i issuance hfound
    obtain ⟨horganization, hid⟩ := by simpa using List.find?_some hfound
    have hmem := List.mem_of_find?_eq_some hfound
    simp only [validateRetainedSourceLocked_eq]
    by_cases hretained : db.Retained issuance
    · simp only [hretained, if_true, not_true_eq_false, false_or]
      split
      · simp
      · rename_i hcheck
        exact ⟨by simp, fun _ ↦ ⟨issuance, hmem, horganization, hid, hretained, hcheck⟩,
          fun _ ↦ rfl⟩
    · simp [hretained]

/-- A single match of the digest is decided by its own evidence, whatever was decoded. -/
theorem resolveSourceLocked_single {organizationId : UUID} {inputSha256 : Sha256}
    {decode : DecodeSummary} {exactOnly : Bool}
    (hsingle : db.withDigest organizationId inputSha256 = [issuance]) :
    db.resolveSourceLocked library now organizationId inputSha256 decode exactOnly =
      db.resolveExact library now exactOnly issuance := by
  unfold resolveSourceLocked
  rw [take_two_eq_singleton.mpr hsingle]

/-- Several matches of the digest are never resolved. -/
theorem resolveSourceLocked_several {organizationId : UUID} {inputSha256 : Sha256}
    {decode : DecodeSummary} {exactOnly : Bool}
    (hsome : db.withDigest organizationId inputSha256 ≠ [])
    (hsingle : ∀ issuance, db.withDigest organizationId inputSha256 ≠ [issuance]) :
    db.resolveSourceLocked library now organizationId inputSha256 decode exactOnly =
      ⟨.partialEvidence, none, true, none,
        ["evidence.exact_hash_ambiguous", "manifest.signed_evidence_unavailable"]⟩ := by
  unfold resolveSourceLocked
  match htake : (db.exactMatches organizationId inputSha256).take 2 with
  | [] => exact absurd (take_two_eq_nil.mp htake) hsome
  | [issuance] => exact absurd (take_two_eq_singleton.mp htake) (hsingle issuance)
  | _ :: _ :: _ => rfl

/-- Without a match of the digest nothing is found intact, and an issuance is exposed only as the
decoded and retained source of a modified file. -/
theorem resolveSourceLocked_unmatched {organizationId : UUID} {inputSha256 : Sha256}
    {decode : DecodeSummary} {exactOnly : Bool}
    (hnone : db.withDigest organizationId inputSha256 = []) :
    let result := db.resolveSourceLocked library now organizationId inputSha256 decode exactOnly
    result.status ≠ .verifiedIntact ∧
      (result.status = .sourceIdentifiedModified → exactOnly = false ∧
        ∃ issuance ∈ db.issuances, issuance.organizationId = organizationId ∧
          decode.issuanceId = some issuance.id ∧ db.Retained issuance ∧
          db.manifestCheck library now issuance ≠ some false) ∧
      (result.recoveredIssuanceId ≠ none → result.status = .sourceIdentifiedModified) := by
  unfold resolveSourceLocked
  rw [take_two_eq_nil.mpr hnone]
  cases exactOnly with
  | true => simp
  | false =>
    simp only [Bool.false_eq_true, if_false, true_and]
    split
    · rename_i issuanceId _ hdecoded
      obtain ⟨hintact, hmodified, hexposed⟩ :=
        resolveDecoded_identified db library now organizationId issuanceId
      refine ⟨hintact, fun hstatus ↦ ?_, hexposed⟩
      obtain ⟨issuance, hmem, horganization, rfl, hretained⟩ := hmodified hstatus
      exact ⟨issuance, hmem, horganization, hdecoded, hretained⟩
    · simp
    · simp

theorem resolveExact_exposed {exactOnly : Bool} :
    (db.resolveExact library now exactOnly issuance).status ≠ .sourceIdentifiedModified ∧
      ((db.resolveExact library now exactOnly issuance).recoveredIssuanceId ≠ none →
        (db.resolveExact library now exactOnly issuance).status = .verifiedIntact) := by
  unfold resolveExact
  dsimp only
  split
  · simp
  · split <;> simp

/-- What a resolution may depend on and what it may expose. -/
theorem resolveSourceLocked_sound (db : SourceDatabase) (library : ManifestLibrary) (now : Instant)
    (organizationId : UUID) (inputSha256 : Sha256) :
    ((∃ issuance ∈ db.issuances, issuance.organizationId = organizationId ∧
        issuance.outputSha256 = some inputSha256) →
      ∀ decode decode' exactOnly,
        db.resolveSourceLocked library now organizationId inputSha256 decode exactOnly =
          db.resolveSourceLocked library now organizationId inputSha256 decode' exactOnly) ∧
    (∀ decode exactOnly,
      (db.resolveSourceLocked library now organizationId inputSha256 decode exactOnly).status =
          .verifiedIntact ↔
        ∃ issuance, db.withDigest organizationId inputSha256 = [issuance] ∧
          db.Retained issuance ∧ (db.manifestCheck library now issuance = some true ∨
            db.manifestCheck library now issuance = none ∧ exactOnly = false)) ∧
    (∀ decode exactOnly,
      (db.resolveSourceLocked library now organizationId inputSha256 decode exactOnly).status =
          .sourceIdentifiedModified →
        (¬ ∃ issuance ∈ db.issuances, issuance.organizationId = organizationId ∧
          issuance.outputSha256 = some inputSha256) ∧ exactOnly = false ∧
        ∃ issuance ∈ db.issuances, issuance.organizationId = organizationId ∧
          decode.issuanceId = some issuance.id ∧ db.Retained issuance ∧
          db.manifestCheck library now issuance ≠ some false) ∧
    (∀ decode exactOnly,
      (db.resolveSourceLocked library now organizationId inputSha256 decode
          exactOnly).recoveredIssuanceId ≠ none →
        (db.resolveSourceLocked library now organizationId inputSha256 decode exactOnly).status ∈
          [VerificationStatus.verifiedIntact, .sourceIdentifiedModified]) ∧
    ∀ db', Agree organizationId db db' → ∀ decode exactOnly,
      db.resolveSourceLocked library now organizationId inputSha256 decode exactOnly =
        db'.resolveSourceLocked library now organizationId inputSha256 decode exactOnly := by
  -- the digest has no match, one match or several
  have hsplit : db.withDigest organizationId inputSha256 = [] ∨
      (∃ issuance, db.withDigest organizationId inputSha256 = [issuance]) ∨
      db.withDigest organizationId inputSha256 ≠ [] ∧
        ∀ issuance, db.withDigest organizationId inputSha256 ≠ [issuance] := by
    by_cases hnone : db.withDigest organizationId inputSha256 = []
    · exact .inl hnone
    · by_cases hsingle : ∃ issuance, db.withDigest organizationId inputSha256 = [issuance]
      · exact .inr (.inl hsingle)
      · exact .inr (.inr ⟨hnone, fun issuance h ↦ hsingle ⟨issuance, h⟩⟩)
  refine ⟨?_, ?_, ?_, ?_, fun db' hagree decode exactOnly ↦ resolveSourceLocked_of_agree hagree⟩
  · intro hmatch decode decode' exactOnly
    rw [← withDigest_ne_nil] at hmatch
    rcases hsplit with hnone | ⟨issuance, hsingle⟩ | ⟨hsome, hsingle⟩
    · exact absurd hnone hmatch
    · rw [resolveSourceLocked_single hsingle, resolveSourceLocked_single hsingle]
    · rw [resolveSourceLocked_several hsome hsingle, resolveSourceLocked_several hsome hsingle]
  · intro decode exactOnly
    rcases hsplit with hnone | ⟨issuance, hsingle⟩ | ⟨hsome, hsingle⟩
    · have hunmatched :
          (db.resolveSourceLocked library now organizationId inputSha256 decode exactOnly).status ≠
            .verifiedIntact := (resolveSourceLocked_unmatched hnone).1
      simp [hnone, hunmatched]
    · rw [resolveSourceLocked_single hsingle, resolveExact_verifiedIntact, hsingle]
      simp
    · rw [resolveSourceLocked_several hsome hsingle]
      simp [hsingle]
  · intro decode exactOnly hstatus
    rcases hsplit with hnone | ⟨issuance, hsingle⟩ | ⟨hsome, hsingle⟩
    · exact ⟨fun h ↦ withDigest_ne_nil.mpr h hnone,
        (resolveSourceLocked_unmatched hnone).2.1 hstatus⟩
    · rw [resolveSourceLocked_single hsingle] at hstatus
      exact absurd hstatus resolveExact_exposed.1
    · rw [resolveSourceLocked_several hsome hsingle] at hstatus
      cases hstatus
  · intro decode exactOnly hexposed
    rcases hsplit with hnone | ⟨issuance, hsingle⟩ | ⟨hsome, hsingle⟩
    · simp [(resolveSourceLocked_unmatched hnone).2.2 hexposed]
    · rw [resolveSourceLocked_single hsingle] at hexposed ⊢
      simp [resolveExact_exposed.2 hexposed]
    · rw [resolveSourceLocked_several hsome hsingle] at hexposed
      exact absurd rfl hexposed

end SourceDatabase

end Splitbind
