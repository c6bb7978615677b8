import Splitbind.Demo.EvidenceColumns
import Splitbind.Demo.IssuanceSafety
import Splitbind.Library.Table

/-!
# Evidence rewrites — sequences of forged saves against the evidence tables

A save that is refused leaves the tables as they were.  What a sequence of attempts keeps of every
row is kept by each attempt and carried along the sequence by induction.
-/

namespace Splitbind

open Transaction

/-! ## 1. Attempts -/

structure EvidenceTables where
  issuances : List IssuanceColumns
  verifications : List VerificationColumns

/-- A save of a loaded row with new values, under the capabilities of its caller and with the
related rows as they stand at the time. -/
inductive SaveAttempt
  | issuance (row : IssuanceColumns) (capability : DemoIssuanceResult.WriteCapability) (job : Job)
      (issuance : Issuance) (now : Instant)
  | verification (row : VerificationColumns) (capability : DemoIssuanceResult.WriteCapability)
      (job : Job) (verification : Verification) (recoveredOrganization : Option UUID)
      (now : Instant)

def SaveAttempt.capability : SaveAttempt → DemoIssuanceResult.WriteCapability
  | .issuance _ capability _ _ _ => capability
  | .verification _ capability _ _ _ _ => capability

namespace EvidenceTables

/-- The save and the unique columns of its table. -/
def save (tables : EvidenceTables) : SaveAttempt → Except Raised EvidenceTables
  | .issuance row capability job issuance now => do
    let row ← row.save capability (tables.issuances.find? fun other ↦ other.jobId = row.jobId)
      job issuance now
    raiseIf (∃ other ∈ tables.issuances, other.jobId ≠ row.jobId ∧
        (other.issuanceId = row.issuanceId ∨ other.ownerToken = row.ownerToken ∨
          other.outputObjectKey = row.outputObjectKey))
      (.integrity "demo_demoissuanceresult_key")
    return { tables with issuances := Table.save IssuanceColumns.jobId tables.issuances row }
  | .verification row capability job verification recoveredOrganization now => do
    let row ← row.save capability (tables.verifications.find? fun other ↦ other.jobId = row.jobId)
      job verification recoveredOrganization now
    raiseIf (∃ other ∈ tables.verifications, other.jobId ≠ row.jobId ∧
        (other.verificationId = row.verificationId ∨ other.ownerToken = row.ownerToken))
      (.integrity "demo_demoverificationresult_key")
    return { tables with
      verifications := Table.save VerificationColumns.jobId tables.verifications row }

/-- The tables after an attempt: a refused one changes nothing. -/
def attempt (tables : EvidenceTables) (attempt : SaveAttempt) : EvidenceTables :=
  match tables.save attempt with
  | .ok tables' => tables'
  | .error _ => tables

/-- The tables after a sequence of attempts. -/
def attempts (tables : EvidenceTables) (sequence : List SaveAttempt) : EvidenceTables :=
  sequence.foldl attempt tables

theorem attempts_append (tables : EvidenceTables) (earlier later : List SaveAttempt) :
    tables.attempts (earlier ++ later) = (tables.attempts earlier).attempts later :=
  List.foldl_append

/-- Tables with primary keys, whose issuance rows passed `clean` when they were stored. -/
structure Stored (tables : EvidenceTables) : Prop where
  issuances : (tables.issuances.map IssuanceColumns.jobId).Nodup
  verifications : (tables.verifications.map VerificationColumns.jobId).Nodup
  cleaned : ∀ row ∈ tables.issuances, ∃ job issuance, row.clean job issuance = .ok ()

/-! ## 2. One attempt -/

/-- What an attempt does to the issuance rows, and to the verification rows. -/
structure Step (attempt : SaveAttempt) (tables tables' : EvidenceTables) : Prop where
  issuances : List.Forall₂ (fun row row' ↦ row.Kept row' ∧
    (row'.ownerToken ≠ row.ownerToken →
      IssuanceColumns.Transferred attempt.capability row row')) tables.issuances tables'.issuances
  verifications : List.Forall₂ VerificationColumns.Kept tables.verifications tables'.verifications

theorem Step.refl (attempt : SaveAttempt) (tables : EvidenceTables) :
    Step attempt tables tables where
  issuances := List.forall₂_same.mpr fun row _ ↦ ⟨.refl row, fun howner ↦ absurd rfl howner⟩
  verifications := List.forall₂_same.mpr fun row _ ↦ .refl row

theorem save_step {tables tables' : EvidenceTables} {attempt : SaveAttempt}
    (hissuances : (tables.issuances.map IssuanceColumns.jobId).Nodup)
    (hverifications : (tables.verifications.map VerificationColumns.jobId).Nodup)
    (h : tables.save attempt = .ok tables') : Step attempt tables tables' := by
  cases attempt with
  | issuance row capability job issuance now =>
    simp only [save, bind_eq_ok, exists_unit, pure_eq_ok] at h
    obtain ⟨row', hrow, -, rfl⟩ := h
    obtain ⟨stored, hfind, -⟩ := IssuanceColumns.save_eq_ok hrow
    rw [hfind] at hrow
    obtain ⟨hkept, howner⟩ := IssuanceColumns.save_kept hrow
    refine ⟨Table.forall₂_save hissuances (fun other ↦ ⟨.refl other, fun h ↦ absurd rfl h⟩)
      (List.mem_of_find?_eq_some hfind) hkept.jobId.symm ⟨hkept, howner⟩, ?_⟩
    exact List.forall₂_same.mpr fun row _ ↦ .refl row
  | verification row capability job verification recoveredOrganization now =>
    simp only [save, bind_eq_ok, exists_unit, pure_eq_ok] at h
    obtain ⟨row', hrow, -, rfl⟩ := h
    rcases hfind : tables.verifications.find? (fun other ↦ other.jobId = row.jobId) with _ | stored
    · simp [hfind, VerificationColumns.save] at hrow
    · rw [hfind] at hrow
      have hkept := VerificationColumns.save_kept hrow
      exact ⟨List.forall₂_same.mpr fun row _ ↦ ⟨.refl row, fun h ↦ absurd rfl h⟩,
        Table.forall₂_save hverifications VerificationColumns.Kept.refl
          (List.mem_of_find?_eq_some hfind) hkept.jobId.symm hkept⟩

/-- An accepted save stores a row that passed `clean`. -/
theorem save_coherent {tables tables' : EvidenceTables} {attempt : SaveAttempt}
    (hcoherent : ∀ row ∈ tables.issuances, row.Coherent)
    (h : tables.save attempt = .ok tables') : ∀ row ∈ tables'.issuances, row.Coherent := by
  cases attempt with
  | issuance row capability job issuance now =>
    simp only [save, bind_eq_ok, exists_unit, pure_eq_ok] at h
    obtain ⟨row', hrow, -, rfl⟩ := h
    obtain ⟨-, -, -, -, -, hclean, rfl⟩ := IssuanceColumns.save_eq_ok hrow
    intro other hother
    rcases Table.mem_save hother with rfl | ⟨hother, -⟩
    · exact (IssuanceColumns.Coherent.of_clean hclean).saved now
    · exact hcoherent other hother
  | verification row capability job verification recoveredOrganization now =>
    simp only [save, bind_eq_ok, exists_unit, pure_eq_ok] at h
    obtain ⟨row', -, -, rfl⟩ := h
    exact hcoherent

/-- What every sequence of attempts keeps true. -/
structure Invariant (tables : EvidenceTables) : Prop where
  issuances : (tables.issuances.map IssuanceColumns.jobId).Nodup
  verifications : (tables.verifications.map VerificationColumns.jobId).Nodup
  coherent : ∀ row ∈ tables.issuances, row.Coherent

theorem Invariant.of_stored {tables : EvidenceTables} (h : tables.Stored) : tables.Invariant where
  issuances := h.issuances
  verifications := h.verifications
  coherent row hrow := by
    obtain ⟨job, issuance, hclean⟩ := h.cleaned row hrow
    exact .of_clean hclean

/-- An attempt, accepted or refused. -/
theorem Invariant.attempt {tables : EvidenceTables} (h : tables.Invariant)
    (attempt : SaveAttempt) :
    Step attempt tables (tables.attempt attempt) ∧ (tables.attempt attempt).Invariant := by
  rw [EvidenceTables.attempt]
  rcases hsave : tables.save attempt with e | tables'
  · exact ⟨.refl attempt tables, h⟩
  · have hstep := save_step h.issuances h.verifications hsave
    refine ⟨hstep, ?_, ?_, save_coherent h.coherent hsave⟩
    · rw [Table.map_eq_of_forall₂ (fun row row' hrow ↦ hrow.1.jobId) hstep.issuances]
      exact h.issuances
    · rw [Table.map_eq_of_forall₂ (fun row row' hrow ↦ hrow.jobId) hstep.verifications]
      exact h.verifications

/-! ## 3. Sequences of attempts -/

/-- What a sequence of attempts does to the rows it started from. -/
structure Run (tables tables' : EvidenceTables) : Prop where
  issuances : List.Forall₂ IssuanceColumns.Kept tables.issuances tables'.issuances
  verifications : List.Forall₂ VerificationColumns.Kept tables.verifications tables'.verifications

theorem Run.refl (tables : EvidenceTables) : Run tables tables where
  issuances := List.forall₂_same.mpr fun row _ ↦ .refl row
  verifications := List.forall₂_same.mpr fun row _ ↦ .refl row

theorem Run.trans {tables tables' tables'' : EvidenceTables} (h : Run tables tables')
    (h' : Run tables' tables'') : Run tables tables'' where
  issuances := Table.forall₂_trans (fun _ _ _ ↦ .trans) h.issuances h'.issuances
  verifications := Table.forall₂_trans (fun _ _ _ ↦ .trans) h.verifications h'.verifications

theorem Step.run {attempt : SaveAttempt} {tables tables' : EvidenceTables}
    (h : Step attempt tables tables') : Run tables tables' where
  issuances := h.issuances.imp fun _ _ hrow ↦ hrow.1
  verifications := h.verifications

theorem Invariant.attempts {tables : EvidenceTables} (h : tables.Invariant)
    (sequence : List SaveAttempt) :
    Run tables (tables.attempts sequence) ∧ (tables.attempts sequence).Invariant := by
  induction sequence generalizing tables with
  | nil => exact ⟨.refl tables, h⟩
  | cons attempt sequence ih =>
    obtain ⟨hstep, hattempt⟩ := h.attempt attempt
    obtain ⟨hrun, hinvariant⟩ := ih hattempt
    exact ⟨hstep.run.trans hrun, hinvariant⟩

end EvidenceTables

/-! ## 4. No sequence of saves rewrites the evidence -/

/-- Between any two points of a sequence of attempts the identity of every row stays what it was,
committed issuance evidence and terminal verification evidence is untouched and a cleaned row
remains cleaned; one more attempt moves an owner token only by a recovery transfer; and the success
values and error codes are those of the row's state. -/
theorem evidence_not_rewritten {tables : EvidenceTables} (h : tables.Stored)
    (earlier later : List SaveAttempt) (attempt : SaveAttempt) :
    (List.Forall₂ (fun row row' ↦ row.Kept row') (tables.attempts earlier).issuances
        (tables.attempts (earlier ++ later)).issuances ∧
      List.Forall₂ (fun row row' ↦ row.Kept row') (tables.attempts earlier).verifications
        (tables.attempts (earlier ++ later)).verifications) ∧
    List.Forall₂ (fun row row' ↦ row'.ownerToken ≠ row.ownerToken →
        IssuanceColumns.Transferred attempt.capability row row')
      (tables.attempts earlier).issuances ((tables.attempts earlier).attempt attempt).issuances ∧
    ∀ row ∈ (tables.attempts earlier).issuances, row.Coherent := by
  obtain ⟨-, hinvariant⟩ := (EvidenceTables.Invariant.of_stored h).attempts earlier
  obtain ⟨hrun, -⟩ := hinvariant.attempts later
  obtain ⟨hstep, -⟩ := hinvariant.attempt attempt
  rw [← EvidenceTables.attempts_append] at hrun
  exact ⟨⟨hrun.issuances, hrun.verifications⟩, hstep.issuances.imp fun _ _ hrow ↦ hrow.2,
    hinvariant.coherent⟩

/-- An output that is being uploaded. -/
def uploadingColumns : IssuanceColumns where
  organizationId := ⟨2⟩
  jobId := ⟨1⟩
  issuanceId := ⟨3⟩
  attempt := 0
  ownerToken := ⟨10⟩
  outputObjectKey := ObjectKey.text (.issuanceOutput ⟨2⟩ ⟨3⟩ .pdf)
  outputState := "uploading"
  algorithmLabel := none
  candidateIdentifier := none
  canvasHeight := none
  canvasWidth := none
  inputSha256 := none
  outputSha256 := none
  pageCount := none
  processingMs := none
  limitations := .array []
  cleanupFailures := 0
  safeErrorCode := none
  createdAt := 0
  updatedAt := 0

/-- The save a stale recovery makes. -/
def transferAttempt : SaveAttempt :=
  .issuance
    { uploadingColumns with
      ownerToken := ⟨11⟩
      outputState := "cleanup_required"
      safeErrorCode := some "DEMO_STALE_RECOVERY_FENCED" }
    .allowRecoveryTransfer IssuanceWorker.sampleJob IssuanceWorker.sampleIssuance 5

/-- The recovery transfer is accepted: the token moves, and nothing else of the identity. -/
theorem evidence_not_rewritten_sample : ∃ row' rest,
    ((EvidenceTables.mk [uploadingColumns] []).attempt transferAttempt).issuances = row' :: rest ∧
      row'.ownerToken ≠ uploadingColumns.ownerToken ∧ uploadingColumns.Kept row' ∧
      IssuanceColumns.Transferred .allowRecoveryTransfer uploadingColumns row' := by
  have hstored : (EvidenceTables.mk [uploadingColumns] []).Stored := by
    refine ⟨by simp, by simp, fun row hrow ↦ ?_⟩
    rw [List.mem_singleton.mp hrow]
    exact ⟨IssuanceWorker.sampleJob, IssuanceWorker.sampleIssuance, by decide +kernel⟩
  obtain ⟨⟨hkept, -⟩, howner, -⟩ := evidence_not_rewritten hstored [] [transferAttempt]
    transferAttempt
  obtain ⟨row', rest, hrow, -, hrows⟩ := List.forall₂_cons_left_iff.mp hkept
  obtain ⟨_, _, hmoved, -, hrows'⟩ := List.forall₂_cons_left_iff.mp howner
  obtain ⟨rfl, -⟩ := List.cons.inj (hrows.symm.trans hrows')
  have htoken : row'.ownerToken = ⟨11⟩ := by
    have hmap : ((EvidenceTables.mk [uploadingColumns] []).attempt transferAttempt).issuances.map
        (·.ownerToken) = [⟨11⟩] := by decide +kernel
    have hmap' := (congrArg (List.map (·.ownerToken)) hrows').symm.trans hmap
    exact (List.cons.inj hmap').1
  have hne : row'.ownerToken ≠ uploadingColumns.ownerToken := by
    rw [htoken]
    decide
  exact ⟨row', rest, hrows, hne, hrow, hmoved hne⟩

end Splitbind
