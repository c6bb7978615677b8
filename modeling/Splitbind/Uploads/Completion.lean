import Splitbind.Audit.Redaction
import Splitbind.Library.WorkerPool
import Splitbind.Uploads.Services

/-!
# Completion — concurrent calls that complete an upload

Each statement of `complete_upload` is a step of its own.  A transaction locks the row it has read
until it ends, and what it writes is seen by nobody before it commits.
-/

namespace Splitbind

open Transaction WorkerPool

/-! ## 1. Calls, statement by statement -/

def MetadataValue.text (s : String) : MetadataValue := .scalar (.text s.toList)

/-- An event, and the metadata that it is recorded with. -/
structure RecordedEvent where
  event : AuditEvent
  metadata : Metadata

/-- The arguments of a call, what the clock and the storage answer while it runs (an `error` is any
other exception that the storage raises), and the correlation ids of the events. -/
structure CompleteCall where
  actor : User
  uploadId : UUID
  sha256 : String
  now : Instant
  later : Instant
  finalizedAt : Instant
  head : Except Raised HeadResult
  rejectionId : UUID
  denialId : UUID
  completionId : UUID

/-- `_kind_for`. -/
def kindFor (upload : UploadRequest) : String := upload.purpose.orphanText

/-- The roles `_authorize` allows to go on. -/
def MayUpload (actor : User) (kind : String) : Prop :=
  actor.role = .administrator ∨ actor.role = .issuer ∧ kind = "issuance_input" ∨
    actor.role = .verifier ∧ kind = "verification_input"

instance (actor : User) (kind : String) : Decidable (MayUpload actor kind) :=
  inferInstanceAs (Decidable (_ ∨ _ ∨ _))

/-- The metadata of a denial. -/
def denialMetadata (kind code : String) : Metadata where
  items := (.text "safe_error_code", .text code) ::
    if kind = "" then [] else [(.text "kind", .text kind)]
  nodup := by
    split
    · exact List.nodup_singleton _
    · show [MetadataKey.text "safe_error_code", MetadataKey.text "kind"].Nodup
      decide

/-- The metadata of a completion. -/
def completionMetadata (upload : UploadRequest) : Metadata where
  items := [(.text "kind", .text (kindFor upload)),
    (.text "object_size", upload.sizeBytes.elim .none fun sizeBytes ↦ .scalar (.int sizeBytes)),
    (.text "status", .text "ready")]
  nodup := by
    show [MetadataKey.text "kind", MetadataKey.text "object_size", MetadataKey.text "status"].Nodup
    decide

namespace CompleteCall

/-- `_record_denial`. -/
def denial (call : CompleteCall) (correlationId : UUID) (kind code : String) : RecordedEvent :=
  ⟨denialEvent call.actor "upload.complete.denied" correlationId, denialMetadata kind code⟩

def completion (call : CompleteCall) (upload : UploadRequest) : RecordedEvent :=
  ⟨uploadEvent call.actor "upload.completed" upload.id call.completionId, completionMetadata upload⟩

def finalized (call : CompleteCall) (upload : UploadRequest) : UploadRequest :=
  { upload with finalizedAt := some call.finalizedAt }

/-- The rows `_scoped_upload` selects. -/
def Scopes (call : CompleteCall) (upload : UploadRequest) : Prop :=
  upload.organizationId = call.actor.organizationId ∧ upload.id = call.uploadId ∧
    (call.actor.role ≠ .administrator → upload.requestedById = call.actor.id)

instance (call : CompleteCall) (upload : UploadRequest) : Decidable (call.Scopes upload) :=
  inferInstanceAs (Decidable (_ ∧ _ ∧ _))

end CompleteCall

/-- Where a call stands between two statements, with the row as it has it. -/
inductive CompleteStage
  | ready
  | checking (upload : UploadRequest)
  | asking (upload : UploadRequest)
  | answered (upload : UploadRequest) (head : HeadResult)
  | saving (upload : UploadRequest)
  | recording (upload : UploadRequest)
  | committing (upload : UploadRequest)
  | leaving (upload : UploadRequest)
  | rejecting (kind code : String)
  | rollingBack (kind : String) (error : Raised)
  | denying (kind code : String)
  | completed (upload : UploadRequest)
  | repeated (upload : UploadRequest)
  | refused (kind code : String)
  | failed (error : Raised)
deriving DecidableEq

/-- What a call has returned or raised. -/
def CompleteStage.result : CompleteStage → Option (Except Raised UploadRequest)
  | .completed upload | .repeated upload => some (.ok upload)
  | .refused _ code => some (.error (.uploadRejected code))
  | .failed error => some (.error error)
  | _ => none

/-- An open transaction: the row it has locked, and its writes. -/
structure UploadTransaction where
  locked : Option UUID
  finalized : Option (UUID × Instant)
  audit : List RecordedEvent

def UploadTransaction.closed : UploadTransaction := ⟨none, none, []⟩

structure CompletePhase where
  call : CompleteCall
  transaction : UploadTransaction
  stage : CompleteStage

/-- What is committed, the rows that open transactions have locked, and the users'
organisations. -/
structure UploadStore where
  uploads : List UploadRequest
  audit : List RecordedEvent
  locked : List UUID
  organizationOf : UUID → UUID

/-- `UPDATE ... SET finalized_at`. -/
def updateFinalizedAt (id : UUID) (finalizedAt : Instant) (rows : List UploadRequest) :
    List UploadRequest :=
  rows.map fun row ↦ if row.id = id then { row with finalizedAt := some finalizedAt } else row

namespace UploadStore

def rollback (store : UploadStore) (transaction : UploadTransaction) : UploadStore :=
  { store with locked := store.locked.filter fun id ↦ transaction.locked ≠ some id }

def commit (store : UploadStore) (transaction : UploadTransaction) : UploadStore where
  uploads := transaction.finalized.elim store.uploads fun update ↦
    updateFinalizedAt update.1 update.2 store.uploads
  audit := store.audit ++ transaction.audit
  locked := store.locked.filter fun id ↦ transaction.locked ≠ some id
  organizationOf := store.organizationOf

end UploadStore

/-- From the row to the storage: `_authorize`, the digest, a finalised upload, the expiry. -/
def checkUpload (call : CompleteCall) (upload : UploadRequest) : CompleteStage :=
  if ¬ MayUpload call.actor (kindFor upload) then .rejecting (kindFor upload) "UPLOAD_FORBIDDEN"
  else if some call.sha256 ≠ upload.expectedSha256.map (·.text) then
    .rejecting (kindFor upload) "UPLOAD_METADATA_MISMATCH"
  else if upload.finalizedAt ≠ none then .leaving upload
  else if call.now ≥ upload.expiresAt then .rejecting (kindFor upload) "UPLOAD_EXPIRED"
  else .asking upload

/-- What the storage observes, against the clock and the row. -/
def compareObserved (call : CompleteCall) (upload : UploadRequest) (head : HeadResult) :
    CompleteStage :=
  if call.later ≥ upload.expiresAt then .rejecting (kindFor upload) "UPLOAD_EXPIRED"
  else if ¬ ∃ sizeBytes ∈ upload.sizeBytes,
      head = .found sizeBytes (upload.expectedSha256.map (·.text)) then
    .rejecting (kindFor upload) "UPLOAD_METADATA_MISMATCH"
  else .saving upload

/-- `except UploadRejected`. -/
def exceptRejected (kind : String) : Raised → CompleteStage
  | .uploadRejected code => .denying kind code
  | error => .failed error

/-- The next statement of a call. -/
def completeStatement (store : UploadStore) (call : CompleteCall)
    (transaction : UploadTransaction) :
    CompleteStage → Option (UploadStore × UploadTransaction × CompleteStage)
  | .ready =>
    match store.uploads.find? (fun upload ↦ call.Scopes upload) with
    | none => some (store, transaction, .rejecting "" "UPLOAD_NOT_FOUND")
    | some upload =>
      -- the query waits while another transaction holds the row
      if upload.id ∈ store.locked then none
      else some ({ store with locked := upload.id :: store.locked },
        { transaction with locked := some upload.id }, .checking upload)
  | .checking upload => some (store, transaction, checkUpload call upload)
  | .asking upload =>
    match call.head with
    | .error error => some (store, transaction, .rollingBack (kindFor upload) error)
    | .ok .unavailable =>
      some (store, transaction, .rejecting (kindFor upload) "STORAGE_UNAVAILABLE")
    | .ok head => some (store, transaction, .answered upload head)
  | .answered upload head => some (store, transaction, compareObserved call upload head)
  | .saving upload =>
    match store.uploads.find? fun row ↦ row.id = upload.id with
    | none => some (store, transaction, .rollingBack (kindFor upload)
        (.validation "persisted organization record no longer exists"))
    | some row =>
      if row.organizationId ≠ upload.organizationId then
        some (store, transaction, .rollingBack (kindFor upload)
          (.validation "organization cannot be changed after creation"))
      else if store.organizationOf upload.requestedById ≠ upload.organizationId then
        some (store, transaction, .rollingBack (kindFor upload)
          (.validation "Related records must belong to the same organization."))
      else
        some (store, { transaction with finalized := some (upload.id, call.finalizedAt) },
          .recording (call.finalized upload))
  | .recording upload =>
    if upload.organizationId ≠ call.actor.organizationId then
      some (store, transaction, .rollingBack (kindFor upload)
        (.validation "audit actor and target must belong to the same organization"))
    else
      some (store, { transaction with audit := transaction.audit ++ [call.completion upload] },
        .committing upload)
  | .committing upload => some (store.commit transaction, .closed, .completed upload)
  | .leaving upload => some (store.commit transaction, .closed, .repeated upload)
  | .rejecting kind code =>
    some (store,
      { transaction with
        audit := transaction.audit ++ [call.denial call.rejectionId kind code] },
      .rollingBack kind (.uploadRejected code))
  | .rollingBack kind error => some (store.rollback transaction, .closed, exceptRejected kind error)
  | .denying kind code =>
    some ({ store with audit := store.audit ++ [call.denial call.denialId kind code] },
      transaction, .refused kind code)
  | .completed _ | .repeated _ | .refused _ _ | .failed _ => none

/-- Requests that complete uploads, and nothing else. -/
def completeProgram : Program UploadStore CompletePhase Unit Empty where
  call store p _ :=
    (completeStatement store p.call p.transaction p.stage).map fun r ↦
      (r.1, ⟨p.call, r.2.1, r.2.2⟩)
  environment _ e := nomatch e

/-! ## 2. What a call knows -/

/-- What a call has written to the log. -/
def CompletePhase.written (p : CompletePhase) : List RecordedEvent :=
  match p.stage with
  | .completed upload => [p.call.completion upload]
  | .refused kind code => [p.call.denial p.call.denialId kind code]
  | _ => []

/-- A row that a call selects, may complete, and names the digest of. -/
structure CompleteCall.Serves (call : CompleteCall) (upload : UploadRequest) : Prop where
  scopes : call.Scopes upload
  allowed : MayUpload call.actor (kindFor upload)
  digest : some call.sha256 = upload.expectedSha256.map (·.text)

/-- The row that a call is about to finalise. -/
structure CompleteCall.Finalizes (call : CompleteCall) (store : UploadStore)
    (row : UploadRequest) : Prop where
  mem : row ∈ store.uploads
  serves : call.Serves row
  pending : row.finalizedAt = none

/-- An exception that is no rejection: the storage raises it, or the requester of the row is of
another organisation. -/
def CompleteCall.FailsWith (call : CompleteCall) (store : UploadStore) (error : Raised) : Prop :=
  call.head = .error error ∨
    error = .validation "Related records must belong to the same organization." ∧
      ∃ row ∈ store.uploads, row.id = call.uploadId ∧
        store.organizationOf row.requestedById ≠ row.organizationId

/-- The transaction of a call that has locked a row and written nothing. -/
def UploadTransaction.reading (id : UUID) : UploadTransaction := ⟨some id, none, []⟩

/-- What a call may rely on between two statements. -/
def CompleteCall.Knows (call : CompleteCall) (store : UploadStore)
    (transaction : UploadTransaction) : CompleteStage → Prop
  | .ready | .denying _ _ | .refused _ _ => transaction = .closed
  | .checking upload =>
    upload ∈ store.uploads ∧ call.Scopes upload ∧ transaction = .reading upload.id
  | .asking upload | .answered upload _ | .saving upload =>
    call.Finalizes store upload ∧ transaction = .reading upload.id
  | .recording upload => ∃ row, call.Finalizes store row ∧ upload = call.finalized row ∧
      transaction = ⟨some row.id, some (row.id, call.finalizedAt), []⟩
  | .committing upload => ∃ row, call.Finalizes store row ∧ upload = call.finalized row ∧
      transaction = ⟨some row.id, some (row.id, call.finalizedAt), [call.completion upload]⟩
  | .leaving upload => upload ∈ store.uploads ∧ call.Serves upload ∧
      upload.finalizedAt ≠ none ∧ transaction = .reading upload.id
  | .rejecting _ _ => True
  | .rollingBack _ error => (∃ code, error = .uploadRejected code) ∨ call.FailsWith store error
  | .failed error => call.FailsWith store error ∧ transaction = .closed
  | .completed upload | .repeated upload => upload ∈ store.uploads ∧ call.Serves upload ∧
      upload.finalizedAt ≠ none ∧ transaction = .closed

/-- The primary keys are distinct, no two open transactions have locked the same row, and no two
calls have completed the same upload. -/
def completionAssertions : Assertions UploadStore CompletePhase where
  shared store := (store.uploads.map (·.id)).Nodup
  own store p := (∀ id, p.transaction.locked = some id → id ∈ store.locked) ∧
    p.call.Knows store p.transaction p.stage
  apart p q := (∀ id, p.transaction.locked = some id → q.transaction.locked ≠ some id) ∧
    ∀ upload upload', p.stage = .completed upload → q.stage = .completed upload' →
      upload.id ≠ upload'.id

/-! ## 3. What a statement does -/

section Effect

variable {store store' : UploadStore} {p p' : CompletePhase}

/-- What a statement does, as the other calls and the log see it. -/
structure CompleteEffect (store : UploadStore) (p : CompletePhase) (store' : UploadStore)
    (p' : CompletePhase) : Prop where
  call : p'.call = p.call
  organizationOf : store'.organizationOf = store.organizationOf
  uploads : store'.uploads = store.uploads ∧ (∀ upload, p'.stage ≠ .completed upload) ∨
    ∃ row, p.call.Finalizes store row ∧ p.transaction.locked = some row.id ∧
      p'.stage = .completed (p.call.finalized row) ∧
      store'.uploads = updateFinalizedAt row.id p.call.finalizedAt store.uploads
  audit : ∃ added, store'.audit = store.audit ++ added ∧ p'.written = p.written ++ added
  keeps : ∀ id ∈ store.locked, p.transaction.locked ≠ some id → id ∈ store'.locked
  locks : ∀ id ∈ store'.locked, p'.transaction.locked = some id ∨
    id ∈ store.locked ∧ p.transaction.locked ≠ some id
  takes : ∀ id, p'.transaction.locked = some id → p.transaction.locked = some id ∨ id ∉ store.locked

/-- A statement that the others see nothing of. -/
theorem CompleteEffect.still (hcall : p'.call = p.call)
    (hlocked : p'.transaction.locked = p.transaction.locked)
    (hcompleted : ∀ upload, p'.stage ≠ .completed upload)
    (hwritten : p'.written = p.written) : CompleteEffect store p store p' where
  call := hcall
  organizationOf := rfl
  uploads := Or.inl ⟨rfl, hcompleted⟩
  audit := ⟨[], (List.append_nil _).symm, hwritten.trans (List.append_nil _).symm⟩
  keeps _ hid _ := hid
  locks id hid := by
    by_cases hown : p.transaction.locked = some id
    · exact Or.inl (hlocked.trans hown)
    · exact Or.inr ⟨hid, hown⟩
  takes id hid := Or.inl (hlocked.symm.trans hid)

/-- A transaction that ends gives up its lock, and no other one. -/
theorem CompleteEffect.ends {transaction : UploadTransaction} {call : CompleteCall}
    {stage stage' : CompleteStage} {uploads : List UploadRequest} {audit added : List RecordedEvent}
    (huploads : uploads = store.uploads ∧ (∀ upload, stage' ≠ .completed upload) ∨
      ∃ row, call.Finalizes store row ∧ transaction.locked = some row.id ∧
        stage' = .completed (call.finalized row) ∧
        uploads = updateFinalizedAt row.id call.finalizedAt store.uploads)
    (haudit : audit = store.audit ++ added)
    (hwritten : CompletePhase.written ⟨call, .closed, stage'⟩ =
      CompletePhase.written ⟨call, transaction, stage⟩ ++ added) :
    CompleteEffect store ⟨call, transaction, stage⟩
      ⟨uploads, audit, store.locked.filter fun id ↦ transaction.locked ≠ some id,
        store.organizationOf⟩ ⟨call, .closed, stage'⟩ where
  call := rfl
  organizationOf := rfl
  uploads := huploads
  audit := ⟨added, haudit, hwritten⟩
  keeps id hid hother := List.mem_filter.mpr ⟨hid, decide_eq_true hother⟩
  locks id hid := by
    have hfilter := List.mem_filter.mp hid
    exact Or.inr ⟨hfilter.1, of_decide_eq_true hfilter.2⟩
  takes id hid := nomatch hid

theorem map_id_updateFinalizedAt (id : UUID) (finalizedAt : Instant) (rows : List UploadRequest) :
    (updateFinalizedAt id finalizedAt rows).map (·.id) = rows.map (·.id) := by
  rw [updateFinalizedAt, List.map_map]
  refine List.map_congr_left fun row _ ↦ ?_
  show (if row.id = id then { row with finalizedAt := some finalizedAt } else row).id = row.id
  split <;> rfl

theorem mem_updateFinalizedAt {id : UUID} {finalizedAt : Instant} {rows : List UploadRequest}
    {row : UploadRequest} (hmem : row ∈ rows) (hne : row.id ≠ id) :
    row ∈ updateFinalizedAt id finalizedAt rows :=
  List.mem_map.mpr ⟨row, hmem, if_neg hne⟩

theorem finalized_mem_updateFinalizedAt (call : CompleteCall) {rows : List UploadRequest}
    {row : UploadRequest} (hmem : row ∈ rows) :
    call.finalized row ∈ updateFinalizedAt row.id call.finalizedAt rows :=
  List.mem_map.mpr ⟨row, hmem, if_pos rfl⟩

/-- A call serves the row it has finalised as it served the row before. -/
theorem CompleteCall.Serves.finalized {call : CompleteCall} {row : UploadRequest}
    (h : call.Serves row) : call.Serves (call.finalized row) :=
  ⟨h.scopes, h.allowed, h.digest⟩

namespace CompleteEffect

/-- The rows keep their keys. -/
theorem ids (h : CompleteEffect store p store' p') :
    store'.uploads.map (·.id) = store.uploads.map (·.id) := by
  rcases h.uploads with ⟨hsame, -⟩ | ⟨row, -, -, -, hupdate⟩
  · rw [hsame]
  · rw [hupdate, map_id_updateFinalizedAt]

/-- A row that the moving call has not locked stays, and so does a finalised one. -/
theorem row (h : CompleteEffect store p store' p') (hids : (store.uploads.map (·.id)).Nodup)
    {row : UploadRequest} (hmem : row ∈ store.uploads)
    (hkept : p.transaction.locked ≠ some row.id ∨ row.finalizedAt ≠ none) :
    row ∈ store'.uploads := by
  rcases h.uploads with ⟨hsame, -⟩ | ⟨written, hfinalizes, hlocked, -, hupdate⟩
  · rw [hsame]
    exact hmem
  · rw [hupdate]
    refine mem_updateFinalizedAt hmem fun hid ↦ ?_
    obtain rfl := List.inj_on_of_nodup_map hids hmem hfinalizes.mem hid
    rcases hkept with hother | hfinalized
    · exact hother hlocked
    · exact hfinalized hfinalizes.pending

/-- A row stays, but for the time it is finalised at. -/
theorem exists_row (h : CompleteEffect store p store' p') {row : UploadRequest}
    (hmem : row ∈ store.uploads) : ∃ row' ∈ store'.uploads, row'.id = row.id ∧
      row'.requestedById = row.requestedById ∧ row'.organizationId = row.organizationId := by
  rcases h.uploads with ⟨hsame, -⟩ | ⟨written, -, -, -, hupdate⟩
  · rw [hsame]
    exact ⟨row, hmem, rfl, rfl, rfl⟩
  · rw [hupdate]
    refine ⟨_, List.mem_map_of_mem hmem, ?_⟩
    split
    · exact ⟨rfl, rfl, rfl⟩
    · exact ⟨rfl, rfl, rfl⟩

/-- A statement that completes an upload finds it open. -/
theorem completed (h : CompleteEffect store p store' p') {upload : UploadRequest}
    (hstage : p'.stage = .completed upload) :
    ∃ row, p.call.Finalizes store row ∧ upload = p.call.finalized row ∧
      store'.uploads = updateFinalizedAt row.id p.call.finalizedAt store.uploads := by
  rcases h.uploads with ⟨-, hnot⟩ | ⟨row, hfinalizes, -, hcompleted, hupdate⟩
  · exact absurd hstage (hnot upload)
  · rw [hcompleted] at hstage
    exact ⟨row, hfinalizes, (CompleteStage.completed.inj hstage).symm, hupdate⟩

end CompleteEffect

end Effect

section Statement

variable {store store' : UploadStore} {call : CompleteCall}
  {transaction transaction' : UploadTransaction} {stage stage' : CompleteStage}

/-- The checks of a row reject it, leave with it when it is finalised, or go on to the storage. -/
theorem checkUpload_cases {upload : UploadRequest} (hscopes : call.Scopes upload) :
    (∃ kind code, checkUpload call upload = .rejecting kind code) ∨
      call.Serves upload ∧ upload.finalizedAt ≠ none ∧ checkUpload call upload = .leaving upload ∨
      call.Serves upload ∧ upload.finalizedAt = none ∧ checkUpload call upload = .asking upload := by
  unfold checkUpload
  by_cases hallowed : MayUpload call.actor (kindFor upload)
  · rw [if_neg (not_not.mpr hallowed)]
    by_cases hdigest : some call.sha256 = upload.expectedSha256.map (·.text)
    · rw [if_neg (not_not.mpr hdigest)]
      have hserves : call.Serves upload := ⟨hscopes, hallowed, hdigest⟩
      by_cases hpending : upload.finalizedAt = none
      · rw [if_neg (not_not.mpr hpending)]
        by_cases hexpired : call.now ≥ upload.expiresAt
        · rw [if_pos hexpired]
          exact Or.inl ⟨_, _, rfl⟩
        · rw [if_neg hexpired]
          exact Or.inr (Or.inr ⟨hserves, hpending, rfl⟩)
      · rw [if_pos hpending]
        exact Or.inr (Or.inl ⟨hserves, hpending, rfl⟩)
    · rw [if_pos hdigest]
      exact Or.inl ⟨_, _, rfl⟩
  · rw [if_pos hallowed]
    exact Or.inl ⟨_, _, rfl⟩

theorem compareObserved_cases (call : CompleteCall) (upload : UploadRequest) (head : HeadResult) :
    (∃ kind code, compareObserved call upload head = .rejecting kind code) ∨
      compareObserved call upload head = .saving upload := by
  unfold compareObserved
  split
  · exact Or.inl ⟨_, _, rfl⟩
  · split
    · exact Or.inl ⟨_, _, rfl⟩
    · exact Or.inr rfl

/-- What is asked of a statement: its effect, and what the call knows behind it. -/
structure StatementMeets (store : UploadStore) (call : CompleteCall)
    (transaction : UploadTransaction) (stage : CompleteStage) (store' : UploadStore)
    (transaction' : UploadTransaction) (stage' : CompleteStage) : Prop where
  effect : CompleteEffect store ⟨call, transaction, stage⟩ store' ⟨call, transaction', stage'⟩
  locked : ∀ id, transaction'.locked = some id → id ∈ store'.locked
  knows : call.Knows store' transaction' stage'

/-- A statement that reads, or writes to its own transaction. -/
theorem StatementMeets.still (hlocked : ∀ id, transaction.locked = some id → id ∈ store.locked)
    (hsame : transaction'.locked = transaction.locked)
    (hcompleted : ∀ upload, stage' ≠ .completed upload)
    (hwritten : CompletePhase.written ⟨call, transaction', stage'⟩ =
      CompletePhase.written ⟨call, transaction, stage⟩)
    (hknows : call.Knows store transaction' stage') :
    StatementMeets store call transaction stage store transaction' stage' :=
  ⟨.still rfl hsame hcompleted hwritten, fun id hid ↦ hlocked id (hsame.symm.trans hid), hknows⟩

/-- `SELECT ... FOR UPDATE`. -/
theorem ready_meets (hknows : call.Knows store transaction .ready)
    (h : completeStatement store call transaction .ready = some (store', transaction', stage')) :
    StatementMeets store call transaction .ready store' transaction' stage' := by
  have hclosed : transaction = .closed := hknows
  subst hclosed
  rw [completeStatement] at h
  split at h
  · cases h
    exact .still (fun id hid ↦ nomatch hid) rfl (fun upload heq ↦ nomatch heq) rfl True.intro
  · rename_i upload hfind
    split at h
    · cases h
    · rename_i hfree
      cases h
      refine ⟨⟨rfl, rfl, Or.inl ⟨rfl, fun upload heq ↦ nomatch heq⟩,
        ⟨[], (List.append_nil _).symm, rfl⟩, fun id hid _ ↦ List.mem_cons_of_mem _ hid,
        fun id hid ↦ ?_, fun id hid ↦ ?_⟩, fun id hid ↦ ?_, ?_⟩
      · rcases List.mem_cons.mp hid with rfl | hid
        · exact Or.inl rfl
        · exact Or.inr ⟨hid, fun hnone ↦ nomatch hnone⟩
      · cases hid
        exact Or.inr hfree
      · cases hid
        exact List.mem_cons_self
      · have hscopes := List.find?_some hfind
        exact ⟨List.mem_of_find?_eq_some hfind, of_decide_eq_true hscopes, rfl⟩

/-- From the row to the storage. -/
theorem checking_meets {upload : UploadRequest}
    (hlocked : ∀ id, transaction.locked = some id → id ∈ store.locked)
    (hknows : call.Knows store transaction (.checking upload)) :
    StatementMeets store call transaction (.checking upload) store transaction
      (checkUpload call upload) := by
  obtain ⟨hmem, hscopes, hreading⟩ := hknows
  rcases checkUpload_cases hscopes with ⟨kind, code, h⟩ | ⟨hserves, hfinal, h⟩ |
    ⟨hserves, hpending, h⟩ <;> rw [h]
  · exact .still hlocked rfl (fun upload heq ↦ nomatch heq) rfl True.intro
  · exact .still hlocked rfl (fun upload heq ↦ nomatch heq) rfl ⟨hmem, hserves, hfinal, hreading⟩
  · exact .still hlocked rfl (fun upload heq ↦ nomatch heq) rfl
      ⟨⟨hmem, hserves, hpending⟩, hreading⟩

/-- The storage. -/
theorem asking_meets {upload : UploadRequest}
    (hlocked : ∀ id, transaction.locked = some id → id ∈ store.locked)
    (hknows : call.Knows store transaction (.asking upload))
    (h : completeStatement store call transaction (.asking upload) =
      some (store', transaction', stage')) :
    StatementMeets store call transaction (.asking upload) store' transaction' stage' := by
  rw [completeStatement] at h
  split at h
  · rename_i error hhead
    cases h
    exact .still hlocked rfl (fun upload heq ↦ nomatch heq) rfl (Or.inr (Or.inl hhead))
  · cases h
    exact .still hlocked rfl (fun upload heq ↦ nomatch heq) rfl True.intro
  · cases h
    exact .still hlocked rfl (fun upload heq ↦ nomatch heq) rfl hknows

theorem answered_meets {upload : UploadRequest} {head : HeadResult}
    (hlocked : ∀ id, transaction.locked = some id → id ∈ store.locked)
    (hknows : call.Knows store transaction (.answered upload head)) :
    StatementMeets store call transaction (.answered upload head) store transaction
      (compareObserved call upload head) := by
  rcases compareObserved_cases call upload head with ⟨kind, code, h⟩ | h <;> rw [h]
  · exact .still hlocked rfl (fun upload heq ↦ nomatch heq) rfl True.intro
  · exact .still hlocked rfl (fun upload heq ↦ nomatch heq) rfl hknows

/-- `UPDATE`: the row is there and its organisation the same, as the call has locked it. -/
theorem saving_meets {upload : UploadRequest} (hids : (store.uploads.map (·.id)).Nodup)
    (hlocked : ∀ id, transaction.locked = some id → id ∈ store.locked)
    (hknows : call.Knows store transaction (.saving upload))
    (h : completeStatement store call transaction (.saving upload) =
      some (store', transaction', stage')) :
    StatementMeets store call transaction (.saving upload) store' transaction' stage' := by
  obtain ⟨hfinalizes, hreading⟩ := hknows
  subst hreading
  have hfind : store.uploads.find? (fun row ↦ row.id = upload.id) = some upload :=
    Table.find?_eq_some hids hfinalizes.mem (decide_eq_true rfl) fun _ hid ↦ of_decide_eq_true hid
  simp only [completeStatement, hfind, ne_eq, not_true_eq_false, if_false] at h
  split at h
  · rename_i hother
    cases h
    exact .still hlocked rfl (fun upload heq ↦ nomatch heq) rfl
      (Or.inr (Or.inr ⟨rfl, upload, hfinalizes.mem, hfinalizes.serves.scopes.2.1, hother⟩))
  · cases h
    exact .still hlocked rfl (fun upload heq ↦ nomatch heq) rfl ⟨upload, hfinalizes, rfl, rfl⟩

/-- `INSERT` of the completion, which is of the actor's organisation. -/
theorem recording_meets {upload : UploadRequest}
    (hlocked : ∀ id, transaction.locked = some id → id ∈ store.locked)
    (hknows : call.Knows store transaction (.recording upload))
    (h : completeStatement store call transaction (.recording upload) =
      some (store', transaction', stage')) :
    StatementMeets store call transaction (.recording upload) store' transaction' stage' := by
  obtain ⟨row, hfinalizes, hupload, htransaction⟩ := hknows
  subst htransaction
  have hsame : upload.organizationId = call.actor.organizationId := by
    rw [hupload]
    exact hfinalizes.serves.scopes.1
  rw [completeStatement, if_neg (not_not.mpr hsame)] at h
  cases h
  exact .still hlocked rfl (fun upload heq ↦ nomatch heq) rfl ⟨row, hfinalizes, hupload, rfl⟩

/-- `COMMIT` of a completed upload. -/
theorem committing_meets {upload : UploadRequest}
    (hknows : call.Knows store transaction (.committing upload)) :
    StatementMeets store call transaction (.committing upload) (store.commit transaction) .closed
      (.completed upload) := by
  obtain ⟨row, hfinalizes, rfl, rfl⟩ := hknows
  refine ⟨.ends (Or.inr ⟨row, hfinalizes, rfl, rfl, rfl⟩) rfl rfl, fun id hid ↦ (nomatch hid), ?_⟩
  exact ⟨finalized_mem_updateFinalizedAt call hfinalizes.mem, hfinalizes.serves.finalized,
    Option.some_ne_none _, rfl⟩

/-- `COMMIT` of a transaction that has only read. -/
theorem leaving_meets {upload : UploadRequest}
    (hknows : call.Knows store transaction (.leaving upload)) :
    StatementMeets store call transaction (.leaving upload) (store.commit transaction) .closed
      (.repeated upload) := by
  obtain ⟨hmem, hserves, hfinal, rfl⟩ := hknows
  refine ⟨.ends (Or.inl ⟨rfl, fun upload heq ↦ nomatch heq⟩) rfl rfl, fun id hid ↦ (nomatch hid), ?_⟩
  exact ⟨hmem, hserves, hfinal, rfl⟩

theorem exceptRejected_cases (kind : String) (error : Raised) :
    (∃ code, exceptRejected kind error = .denying kind code) ∨
      (∀ code, error ≠ .uploadRejected code) ∧ exceptRejected kind error = .failed error := by
  cases error with
  | uploadRejected code => exact Or.inl ⟨code, rfl⟩
  | _ => exact Or.inr ⟨fun code heq ↦ (nomatch heq), rfl⟩

/-- `ROLLBACK`, and what is made of the exception. -/
theorem rollingBack_meets {kind : String} {error : Raised}
    (hknows : call.Knows store transaction (.rollingBack kind error)) :
    StatementMeets store call transaction (.rollingBack kind error) (store.rollback transaction)
      .closed (exceptRejected kind error) := by
  rcases exceptRejected_cases kind error with ⟨code, h⟩ | ⟨hother, h⟩ <;> rw [h]
  · exact ⟨.ends (Or.inl ⟨rfl, fun upload heq ↦ nomatch heq⟩) (List.append_nil _).symm rfl,
      fun id hid ↦ (nomatch hid), rfl⟩
  · exact ⟨.ends (Or.inl ⟨rfl, fun upload heq ↦ nomatch heq⟩) (List.append_nil _).symm rfl,
      fun id hid ↦ (nomatch hid), hknows.resolve_left fun ⟨code, heq⟩ ↦ hother code heq, rfl⟩

/-- `INSERT` of the denial, in a transaction of its own. -/
theorem denying_meets {kind code : String}
    (hlocked : ∀ id, transaction.locked = some id → id ∈ store.locked)
    (hknows : call.Knows store transaction (.denying kind code)) :
    StatementMeets store call transaction (.denying kind code)
      { store with audit := store.audit ++ [call.denial call.denialId kind code] } transaction
      (.refused kind code) := by
  have hclosed : transaction = .closed := hknows
  subst hclosed
  refine ⟨⟨rfl, rfl, Or.inl ⟨rfl, fun upload heq ↦ nomatch heq⟩, ⟨_, rfl, rfl⟩, fun id hid _ ↦ hid,
    fun id hid ↦ Or.inr ⟨hid, fun hnone ↦ nomatch hnone⟩, fun id hid ↦ nomatch hid⟩, hlocked, rfl⟩

/-- Every statement has its effect, and leaves the call with what it knows next. -/
theorem completeStatement_meets (hids : (store.uploads.map (·.id)).Nodup)
    (hlocked : ∀ id, transaction.locked = some id → id ∈ store.locked)
    (hknows : call.Knows store transaction stage)
    (h : completeStatement store call transaction stage = some (store', transaction', stage')) :
    StatementMeets store call transaction stage store' transaction' stage' := by
  cases stage with
  | ready => exact ready_meets hknows h
  | checking upload =>
    cases h
    exact checking_meets hlocked hknows
  | asking upload => exact asking_meets hlocked hknows h
  | answered upload head =>
    cases h
    exact answered_meets hlocked hknows
  | saving upload => exact saving_meets hids hlocked hknows h
  | recording upload => exact recording_meets hlocked hknows h
  | committing upload =>
    cases h
    exact committing_meets hknows
  | leaving upload =>
    cases h
    exact leaving_meets hknows
  | rejecting kind code =>
    cases h
    exact .still hlocked rfl (fun upload heq ↦ nomatch heq) rfl (Or.inl ⟨code, rfl⟩)
  | rollingBack kind error =>
    cases h
    exact rollingBack_meets hknows
  | denying kind code =>
    cases h
    exact denying_meets hlocked hknows
  | completed upload => cases h
  | repeated upload => cases h
  | refused kind code => cases h
  | failed error => cases h

end Statement

/-! ## 4. Calls beside each other -/

section Others

variable {store store' : UploadStore} {p p' : CompletePhase} {call : CompleteCall}
  {transaction : UploadTransaction} {stage : CompleteStage}

theorem CompleteCall.FailsWith.survives {error : Raised}
    (heffect : CompleteEffect store p store' p') (h : call.FailsWith store error) :
    call.FailsWith store' error := by
  rcases h with hhead | ⟨herror, row, hmem, hid, hother⟩
  · exact Or.inl hhead
  · obtain ⟨row', hmem', hid', hrequester, horganization⟩ := heffect.exists_row hmem
    refine Or.inr ⟨herror, row', hmem', hid'.trans hid, ?_⟩
    rw [heffect.organizationOf, hrequester, horganization]
    exact hother

/-- What a call knows outlives the statement of a call that has locked another row. -/
theorem CompleteCall.Knows.survives (heffect : CompleteEffect store p store' p')
    (hids : (store.uploads.map (·.id)).Nodup)
    (hapart : ∀ id, p.transaction.locked = some id → transaction.locked ≠ some id)
    (h : call.Knows store transaction stage) : call.Knows store' transaction stage := by
  have hlocked : ∀ row ∈ store.uploads, transaction.locked = some row.id →
      row ∈ store'.uploads := fun row hmem hlock ↦
    heffect.row hids hmem (Or.inl fun hown ↦ hapart row.id hown hlock)
  have hfinalizes : ∀ row, call.Finalizes store row → transaction.locked = some row.id →
      call.Finalizes store' row := fun row hrow hlock ↦
    ⟨hlocked row hrow.mem hlock, hrow.serves, hrow.pending⟩
  -- what a stage knows is of rows it holds the lock of, or of rows that are final
  cases stage with
  | ready => exact h
  | denying kind code => exact h
  | refused kind code => exact h
  | rejecting kind code => exact h
  | rollingBack kind error => exact Or.imp_right (.survives heffect) h
  | failed error => exact ⟨h.1.survives heffect, h.2⟩
  | checking upload =>
    obtain ⟨hmem, hscopes, rfl⟩ := h
    exact ⟨hlocked upload hmem rfl, hscopes, rfl⟩
  | asking upload =>
    obtain ⟨hrow, rfl⟩ := h
    exact ⟨hfinalizes upload hrow rfl, rfl⟩
  | answered upload head =>
    obtain ⟨hrow, rfl⟩ := h
    exact ⟨hfinalizes upload hrow rfl, rfl⟩
  | saving upload =>
    obtain ⟨hrow, rfl⟩ := h
    exact ⟨hfinalizes upload hrow rfl, rfl⟩
  | recording upload =>
    obtain ⟨row, hrow, hupload, rfl⟩ := h
    exact ⟨row, hfinalizes row hrow rfl, hupload, rfl⟩
  | committing upload =>
    obtain ⟨row, hrow, hupload, rfl⟩ := h
    exact ⟨row, hfinalizes row hrow rfl, hupload, rfl⟩
  | leaving upload =>
    obtain ⟨hmem, hserves, hfinal, rfl⟩ := h
    exact ⟨hlocked upload hmem rfl, hserves, hfinal, rfl⟩
  | completed upload =>
    obtain ⟨hmem, hserves, hfinal, hclosed⟩ := h
    exact ⟨heffect.row hids hmem (Or.inr hfinal), hserves, hfinal, hclosed⟩
  | repeated upload =>
    obtain ⟨hmem, hserves, hfinal, hclosed⟩ := h
    exact ⟨heffect.row hids hmem (Or.inr hfinal), hserves, hfinal, hclosed⟩

theorem completeProgram_call {i : Unit} (h : completeProgram.call store p i = some (store', p')) :
    p'.call = p.call ∧
      completeStatement store p.call p.transaction p.stage =
        some (store', p'.transaction, p'.stage) := by
  obtain ⟨r, hr, heq⟩ := Option.map_eq_some_iff.mp h
  cases heq
  exact ⟨rfl, hr⟩

theorem completeProgram_meets {i : Unit} (hids : (store.uploads.map (·.id)).Nodup)
    (hown : completionAssertions.own store p)
    (h : completeProgram.call store p i = some (store', p')) :
    CompleteEffect store p store' p' ∧ completionAssertions.own store' p' := by
  obtain ⟨hcall, hstatement⟩ := completeProgram_call h
  have hmeets := completeStatement_meets hids hown.1 hown.2 hstatement
  obtain ⟨call', transaction', stage'⟩ := p'
  cases hcall
  exact ⟨hmeets.effect, hmeets.locked, hmeets.knows⟩

/-- A finalised row, as a call knows it that has ended with it. -/
theorem CompleteCall.Knows.ended {upload : UploadRequest}
    (h : call.Knows store transaction stage) (hresult : stage.result = some (.ok upload)) :
    upload ∈ store.uploads ∧ call.Serves upload ∧ upload.finalizedAt ≠ none := by
  cases stage with
  | completed upload' =>
    cases hresult
    exact ⟨h.1, h.2.1, h.2.2.1⟩
  | repeated upload' =>
    cases hresult
    exact ⟨h.1, h.2.1, h.2.2.1⟩
  | _ => cases hresult

/-- No call takes the lock of another one, or completes what another one has completed. -/
theorem complete_apart {q : CompletePhase} (hids : (store.uploads.map (·.id)).Nodup)
    (heffect : CompleteEffect store p store' p') (hother : completionAssertions.own store q)
    (hapart : completionAssertions.apart p q) : completionAssertions.apart p' q := by
  refine ⟨fun id hlock hlock' ↦ ?_, fun upload upload' hstage hstage' hid ↦ ?_⟩
  · rcases heffect.takes id hlock with hbefore | hfree
    · exact hapart.1 id hbefore hlock'
    · exact hfree (hother.1 id hlock')
  · obtain ⟨row, hfinalizes, rfl, -⟩ := heffect.completed hstage
    have hresult : q.stage.result = some (.ok upload') := by
      rw [hstage']
      rfl
    obtain ⟨hmem, -, hfinal⟩ := hother.2.ended hresult
    obtain rfl := List.inj_on_of_nodup_map hids hfinalizes.mem hmem hid
    exact hfinal hfinalizes.pending

theorem complete_sound : Sound completeProgram .all .trivial completionAssertions where
  symm p q h := ⟨fun id hq hp ↦ h.1 id hp hq, fun upload upload' hq hp hid ↦
    h.2 upload' upload hp hq hid.symm⟩
  keeps {store p i store' p'} _ _ hids hown _ hcall := by
    obtain ⟨heffect, hnext⟩ := completeProgram_meets hids hown hcall
    refine ⟨?_, hnext⟩
    show (store'.uploads.map (·.id)).Nodup
    rw [heffect.ids]
    exact hids
  others {store p q i store' p'} _ _ _ _ hids hown hother hapart _ hcall := by
    obtain ⟨heffect, -⟩ := completeProgram_meets hids hown hcall
    refine ⟨⟨fun id hlock ↦ ?_, ?_⟩, complete_apart hids heffect hother hapart⟩
    · exact heffect.keeps id (hother.1 id hlock) fun hown ↦ hapart.1 id hown hlock
    · exact hother.2.survives heffect hids hapart.1
  environment {store e} := nomatch e

/-- The audit log, and what a call has written to it. -/
def completeLog : WorkerPool.Log UploadStore CompletePhase RecordedEvent where
  entries := UploadStore.audit
  written := CompletePhase.written

theorem completeLog_sound : completeLog.Sound completeProgram completionAssertions where
  call hids hown hcall := (completeProgram_meets hids hown hcall).1.audit
  environment {_ e} := nomatch e

/-- A locked row, and the call whose transaction has locked it. -/
def rowLock (id : UUID) : Debt UploadStore CompletePhase where
  owed store := id ∈ store.locked
  paying _ p := p.transaction.locked = some id

theorem rowLock_sound {W : Type*} (id : UUID)
    {permits : Pool W UploadStore CompletePhase → WorkerPool.Event W Unit Empty → Prop} :
    (rowLock id).Sound completeProgram permits completionAssertions where
  call {s w i store' p'} hbase _ hcall howed := by
    obtain ⟨heffect, -⟩ := completeProgram_meets hbase.shared (hbase.own w) hcall
    rcases heffect.locks id howed with htaken | ⟨hbefore, hnot⟩
    · exact Or.inl htaken
    · exact Or.inr ⟨Or.inl hbefore, hnot, fun q _ _ hq ↦ hq⟩
  environment {s e} := nomatch e

end Others

end Splitbind
