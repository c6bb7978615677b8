import Splitbind.Access.Recipients
import Splitbind.Retention.Platform

/-!
# Issuance requests — the view that creates an issuance

The view validates the request, resolves an e-mail address to a recipient, and calls
`create_issuance`, which authorizes the actor and reserves the upload.  Each of these commits on
its own.  An answer is what the view has decided by then: a refusal, or that the storage is asked
to copy the upload.
-/

namespace Splitbind

open Transaction

/-! ## 1. The serializer -/

structure CreateAttrs where
  recipientId : Option UUID
  recipientEmail : Option String
  recipientName : Option String
  uploadId : UUID
  correlationId : UUID
deriving DecidableEq, Repr

/-- `IssuanceCreateSerializer.validate`. -/
def CreateAttrs.validate (attrs : CreateAttrs) : Except (List String) CreateAttrs := do
  let hasId := attrs.recipientId.isSome
  let hasEmail := attrs.recipientEmail.getD "" ≠ ""
  raiseIf (hasId ∧ hasEmail)
    ["Chỉ được cung cấp mã người nhận (recipient_id) hoặc email người nhận (recipient_email), không được cung cấp cả hai."]
  raiseIf (¬ hasId ∧ ¬ hasEmail)
    ["Cần cung cấp email người nhận (recipient_email) hoặc mã người nhận (recipient_id)."]
  if hasEmail then
    return { attrs with
      recipientEmail := attrs.recipientEmail.map strip
      recipientName := attrs.recipientName.map strip }
  else
    return attrs

/-- `is_valid`; `fields` is what the declared fields of the serializer make of a body. -/
def validatedData {Body : Type} (fields : Body → Except (List String) CreateAttrs) (body : Body) :
    Except (List String) CreateAttrs := do
  let attrs ← fields body
  attrs.validate

/-! ## 2. The view -/

inductive Answer
  /-- `serializer.errors`, with status 400. -/
  | invalid (errors : List String)
  | refused (status : Nat) (code : String)
  | serverError
  /-- The upload is reserved and its copy is next. -/
  | copying (call : PromotionCall)
deriving DecidableEq, Repr

/-- `_error_response`, and the framework's answer to `PermissionDenied`; nothing handles the other
errors. -/
def errorAnswer : Raised → Answer
  | .workflowNotFound code => .refused 404 code
  | .jobConflict code => .refused 409 code
  | .uploadRejected code => .refused 400 code
  | .permissionDenied code => .refused 403 code
  | _ => .serverError

/-- The keys `uuid4` returns to the view: of a recipient, and of a serializer's denial. -/
structure ViewIds where
  recipient : UUID
  denial : UUID
deriving DecidableEq, Repr

/-- The recipient a request names: by its key, or by an address that is resolved. -/
def requestedRecipient (rules : TextRules) (ids : ViewIds) (actor : User) (data : CreateAttrs)
    (db : Database) : Except Raised (Option UUID × Database) :=
  match data.recipientId with
  | some recipientId => .ok (some recipientId, db)
  | none =>
    match data.recipientEmail with
    | some email =>
      if email = "" then .ok (none, db)
      else do
        let (recipient, db) ← resolveRecipientForIssue rules actor.organizationId email
          data.recipientName ids.recipient db
        return (some recipient.id, db)
    | none => .ok (none, db)

/-- `create_issuance` up to the copy; without a key there is no recipient to find. -/
def beginIssuance (now : Instant) (actor : User) (recipientId : Option UUID) (data : CreateAttrs)
    (db : Database) : Except Raised (PromotionCall × Database) :=
  match recipientId with
  | some recipientId =>
    Platform.beginCreate now actor (.issuance recipientId) data.uploadId data.correlationId db
  | none => do
    authorizeCreate actor .issuance
    throw (.workflowNotFound "WORKFLOW_NOT_FOUND")

/-- `IssuanceCreateView.post`. -/
def post {Body : Type} (rules : TextRules) (fields : Body → Except (List String) CreateAttrs)
    (now : Instant) (ids : ViewIds) (actor : User) (body : Body) (db : Database) :
    Answer × Database :=
  match validatedData fields body with
  | .error errors =>
    (.invalid errors, { db with
      audit := db.audit ++ [denialEvent actor "issuance.create_denied" ids.denial] })
  | .ok data =>
    match requestedRecipient rules ids actor data db with
    | .error error => (errorAnswer error, db)
    | .ok (recipientId, db) =>
      match beginIssuance now actor recipientId data db with
      | .ok (call, db) => (.copying call, db)
      | .error error => (errorAnswer error,
          Platform.recordCreateDenial actor .issuance data.correlationId error db)

/-! ## 3. When the upload is reserved -/

/-- Whether the actor may create an issuance. -/
def MayIssue (actor : User) : Prop := actor.role = .administrator ∨ actor.role = .issuer

/-- An upload of the actor that can be promoted to an issuance. -/
def Reservable (now : Instant) (actor : User) (uploadId : UUID) (uploads : List UploadRequest) :
    Prop :=
  ∃ upload, uploads.find? (fun upload ↦ upload.id = uploadId ∧
      upload.organizationId = actor.organizationId ∧ upload.requestedById = actor.id) =
        some upload ∧
    upload.purpose = .issuance ∧ upload.finalizedAt ≠ none ∧ now < upload.expiresAt ∧
    upload.expectedSha256 ≠ none ∧ upload.sizeBytes ≠ none ∧ upload.promotionStatus = .none ∧
    upload.promotionTargetKey = none ∧ upload.promotionTargetDeletedAt = none

theorem authorizeCreate_eq_ok {actor : User} {u : Unit} :
    authorizeCreate actor .issuance = .ok u ↔ MayIssue actor := by
  rw [authorizeCreate, raiseIf_eq_ok, not_not, MayIssue]
  simp

/-- A reservation starts a promotion to the upload's own target. -/
theorem savePromotion_reserved {upload : UploadRequest} {actor : User} {now : Instant}
    (horganization : upload.organizationId = actor.organizationId)
    (hpurpose : upload.purpose = .issuance) (hstatus : upload.promotionStatus = .none)
    (hkey : upload.promotionTargetKey = none) (hdeleted : upload.promotionTargetDeletedAt = none) :
    ∃ saved, upload.savePromotion .copying
      (some (promotedInputKey .issuance actor.organizationId upload.id)) none now = .ok saved := by
  have htarget : promotedInputKey .issuance actor.organizationId upload.id = upload.target := by
    rw [UploadRequest.target, hpurpose, horganization]
    rfl
  rw [htarget]
  simp [UploadRequest.savePromotion, UploadRequest.allowedPromotions, raiseIf, hstatus, hkey,
    hdeleted]

theorem reservePromotion_isOk {now : Instant} {actor : User} {uploadId : UUID} {db : Database} :
    (∃ result, reservePromotion now actor uploadId .issuance db = .ok result) ↔
      MayIssue actor ∧ Reservable now actor uploadId db.uploads := by
  constructor
  · rintro ⟨⟨reserved, db'⟩, h⟩
    simp only [reservePromotion, bind_eq_ok, raiseIf_eq_ok, found_eq_ok, pure_eq_ok, not_or,
      not_not] at h
    obtain ⟨u, hauthorized, upload, hfind, _, hpurpose, _, hfinalized, _, hexpires, _, ⟨hsha, hsize⟩,
      _, ⟨hstatus, hkey⟩, saved, hsave, -⟩ := h
    obtain ⟨hdeleted, -⟩ := UploadRequest.savePromotion_cases hsave
    exact ⟨authorizeCreate_eq_ok.mp hauthorized, upload, hfind, hpurpose, hfinalized,
      lt_of_not_ge hexpires, hsha, hsize, hstatus, hkey, hdeleted⟩
  · rintro ⟨hissue, upload, hfind, hpurpose, hfinalized, hexpires, hsha, hsize, hstatus, hkey,
      hdeleted⟩
    have hrow := List.find?_some hfind
    simp only [decide_eq_true_eq] at hrow
    obtain ⟨saved, hsave⟩ :=
      savePromotion_reserved hrow.2.1 hpurpose hstatus hkey hdeleted
    have hauthorized : authorizeCreate actor .issuance = .ok () := authorizeCreate_eq_ok.mpr hissue
    have hpurpose : ¬ upload.purpose ≠ JobKind.issuance.purpose := not_not.mpr hpurpose
    have hexpires : ¬ now ≥ upload.expiresAt := not_le.mpr hexpires
    have hmetadata : ¬ (upload.expectedSha256 = none ∨ upload.sizeBytes = none) :=
      not_or.mpr ⟨hsha, hsize⟩
    have hunreserved : ¬ (upload.promotionStatus ≠ .none ∨ upload.promotionTargetKey ≠ none) :=
      not_or.mpr ⟨not_not.mpr hstatus, not_not.mpr hkey⟩
    refine ⟨(saved, db.saveUpload saved), ?_⟩
    rw [reservePromotion, hauthorized, ok_bind, hfind, found_some, ok_bind,
      raiseIf_neg hpurpose, ok_bind, raiseIf_neg hfinalized, ok_bind, raiseIf_neg hexpires, ok_bind,
      raiseIf_neg hmetadata, ok_bind, raiseIf_neg hunreserved, ok_bind]
    show (upload.savePromotion _ _ _ _ >>= _) = _
    rw [hsave]
    rfl

/-- A call with a recipient of the organisation reserves what is reservable. -/
theorem beginIssuance_isOk {now : Instant} {actor : User} {data : CreateAttrs} {db : Database}
    {recipient : Recipient} (hmem : recipient ∈ db.recipients)
    (horganization : recipient.organizationId = actor.organizationId) :
    (∃ result, beginIssuance now actor (some recipient.id) data db = .ok result) ↔
      MayIssue actor ∧ Reservable now actor data.uploadId db.uploads := by
  have hfound : ∃ found, findRecipient actor recipient.id db = .ok found := by
    simp only [findRecipient, found_eq_ok]
    exact Option.isSome_iff_exists.mp (List.find?_isSome.mpr
      ⟨recipient, hmem, decide_eq_true ⟨rfl, horganization⟩⟩)
  obtain ⟨found, hfound⟩ := hfound
  rw [← reservePromotion_isOk]
  constructor
  · rintro ⟨result, h⟩
    simp only [beginIssuance, Platform.beginCreate, bind_eq_ok] at h
    obtain ⟨_, _, _, _, reserved, hreserved, -⟩ := h
    exact ⟨reserved, hreserved⟩
  · rintro ⟨⟨reserved, db'⟩, hreserved⟩
    have hauthorized : authorizeCreate actor .issuance = .ok () :=
      authorizeCreate_eq_ok.mpr (reservePromotion_isOk.mp ⟨_, hreserved⟩).1
    refine ⟨(⟨actor, .issuance found, data.correlationId, reserved⟩, db'), ?_⟩
    show (authorizeCreate actor .issuance >>= _) = _
    rw [hauthorized, ok_bind]
    show (findRecipient actor recipient.id db >>= _) = _
    rw [hfound, ok_bind, hreserved]
    rfl

/-! ## 4. What a refusal leaves behind -/

/-- Only audit events were added. -/
def OnlyAudited (db db' : Database) : Prop :=
  ∃ events, db' = { db with audit := db.audit ++ events }

theorem OnlyAudited.refl (db : Database) : OnlyAudited db db :=
  ⟨[], by rw [List.append_nil]⟩

theorem recordCreateDenial_onlyAudited (actor : User) (kind : JobKind) (correlationId : UUID)
    (error : Raised) (db : Database) :
    OnlyAudited db (Platform.recordCreateDenial actor kind correlationId error db) := by
  rw [Platform.recordCreateDenial]
  split
  · exact ⟨_, rfl⟩
  · exact OnlyAudited.refl db

/-- Whether the answer refuses the request. -/
def Answer.refuses : Answer → Prop
  | .copying _ => False
  | _ => True

theorem errorAnswer_refuses (error : Raised) : (errorAnswer error).refuses := by
  cases error <;> trivial

section Post

variable {Body : Type} (rules : TextRules) (fields : Body → Except (List String) CreateAttrs)
  (now : Instant) (ids : ViewIds) (actor : User) (body : Body) (db : Database)

/-- When a request writes a recipient before it is authorized. -/
def WritesFirst (data : CreateAttrs) : Prop :=
  data.recipientId = none ∧ ∃ email, data.recipientEmail = some email ∧ email ≠ "" ∧
    WritesRecipient rules actor.organizationId email data.recipientName ids.recipient db.recipients

/-- The tables are as they were when the call to `create_issuance` starts, unless the request
writes a recipient. -/
theorem requestedRecipient_kept {data : CreateAttrs}
    (h : ¬ WritesFirst rules ids actor db data) {recipientId : Option UUID} {db' : Database}
    (hrequested : requestedRecipient rules ids actor data db = .ok (recipientId, db')) :
    db' = db := by
  rw [requestedRecipient] at hrequested
  split at hrequested
  · exact (congrArg Prod.snd (Except.ok.inj hrequested)).symm
  · rename_i hid
    split at hrequested
    · rename_i email hemail
      split at hrequested
      · exact (congrArg Prod.snd (Except.ok.inj hrequested)).symm
      · rename_i hne
        simp only [bind_eq_ok, Prod.exists, pure_eq_ok, Prod.mk.injEq] at hrequested
        obtain ⟨recipient, db'', hresolve, -, rfl⟩ := hrequested
        exact resolveRecipientForIssue_kept (fun hwrites ↦ h ⟨hid, email, hemail, hne, hwrites⟩)
          hresolve
    · exact (congrArg Prod.snd (Except.ok.inj hrequested)).symm

/-- **When a refused request changes nothing.**  It does exactly when every recipient it writes is
written for an actor who may issue and an upload that can be reserved. -/
theorem post_refusal_iff :
    ((post rules fields now ids actor body db).1.refuses →
        OnlyAudited db (post rules fields now ids actor body db).2) ↔
      ∀ data, validatedData fields body = .ok data → WritesFirst rules ids actor db data →
        MayIssue actor ∧ Reservable now actor data.uploadId db.uploads := by
  rw [post]
  cases hdata : validatedData fields body with
  | error errors =>
    constructor
    · intro _ data hok
      cases hok
    · intro _ _
      exact ⟨_, rfl⟩
  | ok data =>
    by_cases hwrites : WritesFirst rules ids actor db data
    · obtain ⟨hid, email, hemail, hne, hrecipient⟩ := hwrites
      obtain ⟨recipient, rows, hresolve, hrows, hmem, horganization⟩ :=
        resolveRecipientForIssue_writes hrecipient
      have hrequested : requestedRecipient rules ids actor data db =
          .ok (some recipient.id, { db with recipients := rows }) := by
        rw [requestedRecipient, hid, hemail]
        simp only [if_neg hne, hresolve]
        rfl
      have hreserves : (∃ result, beginIssuance now actor (some recipient.id) data
          { db with recipients := rows } = .ok result) ↔ _ := beginIssuance_isOk hmem horganization
      simp only [hrequested]
      cases hbegin : beginIssuance now actor (some recipient.id) data
          { db with recipients := rows } with
      | ok result =>
        have hreservable := hreserves.mp ⟨result, hbegin⟩
        refine ⟨fun _ data' hok _ ↦ ?_, fun _ hrefuses ↦ hrefuses.elim⟩
        rw [← Except.ok.inj hok]
        exact hreservable
      | error error =>
        constructor
        · -- the recipient stays, so the tables are not what they were
          intro honly
          have hdenied := recordCreateDenial_onlyAudited actor .issuance data.correlationId error
            { db with recipients := rows }
          obtain ⟨events, hdb⟩ := honly (errorAnswer_refuses error)
          obtain ⟨events', hdb'⟩ := hdenied
          exact absurd (congrArg Database.recipients (hdb'.symm.trans hdb)) hrows
        · intro hreservable
          obtain ⟨result, hok⟩ := hreserves.mpr
            (hreservable data rfl ⟨hid, email, hemail, hne, hrecipient⟩)
          rw [hbegin] at hok
          cases hok
    · refine ⟨fun _ data' hok hwrites' ↦ ?_, fun _ hrefuses ↦ ?_⟩
      · rw [← Except.ok.inj hok] at hwrites'
        exact absurd hwrites' hwrites
      · cases hrequested : requestedRecipient rules ids actor data db with
        | error error =>
          simp only [hrequested]
          exact OnlyAudited.refl db
        | ok result =>
          obtain ⟨recipientId, db'⟩ := result
          obtain rfl := requestedRecipient_kept rules ids actor db hwrites hrequested
          simp only [hrequested] at hrefuses ⊢
          cases hbegin : beginIssuance now actor recipientId data db' with
          | ok result =>
            simp only [hbegin] at hrefuses
            exact hrefuses.elim
          | error error =>
            exact recordCreateDenial_onlyAudited actor .issuance data.correlationId error db'

end Post

/-! ### An auditor who names a new address -/

def sampleTextRules : TextRules where
  lower := id
  upper := id
  validEmail := fun email ↦ email = "a@b.example"

/-- A body that names a new address and an upload that does not exist. -/
def sampleAttrs : CreateAttrs where
  recipientId := none
  recipientEmail := some "a@b.example"
  recipientName := none
  uploadId := ⟨3⟩
  correlationId := ⟨4⟩

def sampleAuditor : User := ⟨⟨1⟩, ⟨2⟩, .auditor⟩

def samplePost : Answer × Database :=
  post sampleTextRules (fun _ : Unit ↦ .ok sampleAttrs) 0 ⟨⟨5⟩, ⟨6⟩⟩ sampleAuditor () emptyDatabase

/-- The auditor is refused, and the organisation has a new recipient. -/
theorem samplePost_writes :
    samplePost.1 = .refused 403 "WORKFLOW_FORBIDDEN" ∧
      samplePost.2.recipients = [⟨⟨5⟩, ⟨2⟩, "a@b.example", ""⟩] ∧
      ¬ (samplePost.1.refuses → OnlyAudited emptyDatabase samplePost.2) := by
  have hanswer : samplePost.1 = .refused 403 "WORKFLOW_FORBIDDEN" := by decide +kernel
  have hrecipients : samplePost.2.recipients = [⟨⟨5⟩, ⟨2⟩, "a@b.example", ""⟩] := by
    decide +kernel
  refine ⟨hanswer, hrecipients, fun honly ↦ ?_⟩
  rw [hanswer] at honly
  obtain ⟨events, hdb⟩ := honly trivial
  rw [hdb] at hrecipients
  cases hrecipients

end Splitbind
