import Splitbind.Jobs.Ledger
import Splitbind.Retention.Locks

/-!
# The saga — uploads over whole runs of create calls and cleanup runs

Every change of the tables keeps the ledger, and it keeps each upload row: its target and its
deletion timestamps stay once they are set, a tombstone ends its promotion, and attached is final.
-/

namespace Splitbind

open Transaction WorkerPool

namespace Platform

/-! ## 1. Rows over time -/

/-- What stays of an upload row, whatever happens. -/
structure Kept (upload upload' : UploadRequest) : Prop where
  id : upload'.id = upload.id
  organization : upload'.organizationId = upload.organizationId
  purpose : upload'.purpose = upload.purpose
  digest : upload'.expectedSha256 = upload.expectedSha256
  target : upload.promotionTargetKey ≠ none →
    upload'.promotionTargetKey = upload.promotionTargetKey
  orphanDeleted : upload.orphanDeletedAt ≠ none → upload'.orphanDeletedAt = upload.orphanDeletedAt
  fenced : upload.promotionTargetDeletedAt ≠ none →
    upload'.promotionTargetDeletedAt = upload.promotionTargetDeletedAt ∧
      upload'.promotionStatus = upload.promotionStatus ∧
      upload'.promotionStatusChangedAt = upload.promotionStatusChangedAt
  attached : upload.promotionStatus = .attached → upload'.promotionStatus = .attached
  failed : upload.promotionStatus = .failed → upload'.promotionStatus = .failed
  reserved : upload.promotionStatus ≠ .none → upload'.promotionStatus ≠ .none
  reconciled : ∀ time ∈ upload.promotionTargetReconciledAt,
    ∃ time' ∈ upload'.promotionTargetReconciledAt, time ≤ time'

theorem Kept.refl (upload : UploadRequest) : Kept upload upload where
  id := rfl
  organization := rfl
  purpose := rfl
  digest := rfl
  target _ := rfl
  orphanDeleted _ := rfl
  fenced _ := ⟨rfl, rfl, rfl⟩
  attached h := h
  failed h := h
  reserved h := h
  reconciled time h := ⟨time, h, le_rfl⟩

theorem Kept.trans {a b c : UploadRequest} (h : Kept a b) (h' : Kept b c) : Kept a c where
  id := h'.id.trans h.id
  organization := h'.organization.trans h.organization
  purpose := h'.purpose.trans h.purpose
  digest := h'.digest.trans h.digest
  target hne := (h'.target (h.target hne ▸ hne)).trans (h.target hne)
  orphanDeleted hne := (h'.orphanDeleted (h.orphanDeleted hne ▸ hne)).trans (h.orphanDeleted hne)
  fenced hne := by
    obtain ⟨hdeleted, hstatus, hchanged⟩ := h.fenced hne
    obtain ⟨hdeleted', hstatus', hchanged'⟩ := h'.fenced (hdeleted ▸ hne)
    exact ⟨hdeleted'.trans hdeleted, hstatus'.trans hstatus, hchanged'.trans hchanged⟩
  attached hattached := h'.attached (h.attached hattached)
  failed hfailed := h'.failed (h.failed hfailed)
  reserved hne := h'.reserved (h.reserved hne)
  reconciled time htime := by
    obtain ⟨time', htime', hle⟩ := h.reconciled time htime
    obtain ⟨time'', htime'', hle'⟩ := h'.reconciled time' htime'
    exact ⟨time'', htime'', hle.trans hle'⟩

/-- A promotion of a row without a tombstone, to the target it has, if any. -/
theorem Kept.promoted {upload : UploadRequest} {status : PromotionStatus} {code : Option String}
    {now : Instant}
    (hkey : upload.promotionTargetKey = none ∨ upload.promotionTargetKey = some upload.target)
    (hdeleted : upload.promotionTargetDeletedAt = none)
    (hbefore : upload.promotionStatus = .none ∨ upload.promotionStatus = .copying)
    (hstatus : status ≠ .none) : Kept upload (upload.promoted status code now) where
  id := rfl
  organization := rfl
  purpose := rfl
  digest := rfl
  target hne := (hkey.resolve_left hne).symm
  orphanDeleted _ := rfl
  fenced hne := absurd hdeleted hne
  attached hattached := by simp [hattached] at hbefore
  failed hfailed := by simp [hfailed] at hbefore
  reserved _ := hstatus
  reconciled time h := ⟨time, h, le_rfl⟩

theorem UploadChange.kept {clock : Instant} {upload upload' : UploadRequest}
    (h : UploadChange clock upload upload') : Kept upload upload' := by
  cases h with
  | finalized time => exact { Kept.refl upload with }
  | reserved hstatus hkey hdeleted =>
    exact .promoted (.inl hkey) hdeleted (.inl hstatus) (by simp)
  | failed code hstatus hkey hdeleted =>
    exact .promoted (.inr hkey) hdeleted (.inr hstatus) (by simp)
  | deleted field time hnone =>
    cases field with
    | orphanDeletedAt =>
      exact { Kept.refl upload with orphanDeleted := fun hne ↦ absurd hnone hne }
    | promotionTargetDeletedAt | outputDeletedAt =>
      exact { Kept.refl upload with fenced := fun hne ↦ absurd hnone hne }
  | reconciled time hdeleted hle =>
    exact { Kept.refl upload with reconciled := fun previous hprevious ↦
      ⟨time, rfl, hle previous hprevious⟩ }

/-- What stays of an issuance row. -/
structure IssuanceKept (issuance issuance' : Issuance) : Prop where
  id : issuance'.id = issuance.id
  organization : issuance'.organizationId = issuance.organizationId
  outputDeleted : issuance.outputDeletedAt ≠ none →
    issuance'.outputDeletedAt = issuance.outputDeletedAt

theorem IssuanceKept.refl (issuance : Issuance) : IssuanceKept issuance issuance :=
  ⟨rfl, rfl, fun _ ↦ rfl⟩

theorem IssuanceKept.trans {a b c : Issuance} (h : IssuanceKept a b) (h' : IssuanceKept b c) :
    IssuanceKept a c where
  id := h'.id.trans h.id
  organization := h'.organization.trans h.organization
  outputDeleted hne :=
    (h'.outputDeleted (h.outputDeleted hne ▸ hne)).trans (h.outputDeleted hne)

/-! ## 2. What a change keeps -/

section Changes

variable {formats : FormatChecker} {settings : ServiceSettings} {free : Lock → Prop}
  {clock : Instant} {db db' : Database}

/-- A row that is saved over another one is the only one that changes. -/
theorem saved_kept {rows : List UploadRequest} {upload upload' : UploadRequest}
    (hunique : (rows.map (·.id)).Nodup) (hmem : upload ∈ rows) (hkept : Kept upload upload')
    {other : UploadRequest} (hother : other ∈ rows) :
    ∃ other' ∈ Table.save (·.id) rows upload', Kept other other' := by
  by_cases heq : other.id = upload.id
  · obtain rfl := List.inj_on_of_nodup_map hunique hother hmem heq
    exact ⟨upload', Table.mem_save_self hmem hkept.id.symm, hkept⟩
  · exact ⟨other, Table.mem_save_of_ne hother (hkept.id ▸ heq), .refl other⟩

theorem Change.uploads_kept (h : Change formats settings free clock db db') (hkeyed : db.Keyed)
    {upload : UploadRequest} (hmem : upload ∈ db.uploads) :
    ∃ upload' ∈ db'.uploads, Kept upload upload' := by
  cases h with
  | kept | outputDeleted => exact ⟨upload, hmem, .refl upload⟩
  | created => exact ⟨upload, List.mem_append_left _ hmem, .refl upload⟩
  | saved saved saved' logs hsaved hfree hchange =>
    exact saved_kept hkeyed.uploads hsaved hchange.kept hmem
  | attached promotion ids locked sha256 job hfree hattaches hjob =>
    refine saved_kept hkeyed.uploads hattaches.mem ?_ hmem
    exact .promoted (.inr hattaches.target) hattaches.deleted (.inr hattaches.copying) (by simp)
  | worked job change result => exact ⟨upload, by simpa [Database.saveJob] using hmem, .refl upload⟩

theorem Change.issuances_kept (h : Change formats settings free clock db db')
    (hkeyed : db.Keyed) {issuance : Issuance} (hmem : issuance ∈ db.issuances) :
    ∃ issuance' ∈ db'.issuances, IssuanceKept issuance issuance' := by
  cases h with
  | kept | created | saved => exact ⟨issuance, hmem, .refl issuance⟩
  | attached promotion ids locked sha256 job hfree hattaches hjob =>
    exact ⟨issuance, List.mem_append_left _ hmem, .refl issuance⟩
  | outputDeleted other time logs hother hfree hnone =>
    by_cases heq : issuance.id = other.id
    · obtain rfl := List.inj_on_of_nodup_map hkeyed.issuances hmem hother heq
      exact ⟨_, Table.mem_save_self hmem rfl, rfl, rfl, fun hne ↦ absurd hnone hne⟩
    · exact ⟨issuance, Table.mem_save_of_ne hmem heq, .refl issuance⟩
  | worked job change result =>
    obtain ⟨f, hf, hrow⟩ := WorkResult.apply_issuances result job clock db
    obtain ⟨⟨key, sha256, heq⟩, -⟩ := hrow issuance
    refine ⟨f issuance, ?_, ?_⟩
    · simpa [Database.saveJob, hf] using ⟨issuance, hmem, rfl⟩
    · rw [heq]
      exact ⟨rfl, rfl, fun _ ↦ rfl⟩

/-- The columns of an attached row that other rows refer to. -/
theorem Kept.attachedFor {upload upload' : UploadRequest} (h : Kept upload upload') {id organization : UUID}
    {purpose : UploadPurpose} {key : ObjectKey} {sha256 : Sha256}
    (hfor : AttachedFor upload id organization purpose key sha256) :
    AttachedFor upload' id organization purpose key sha256 := by
  obtain ⟨hid, horganization, hpurpose, hattached, hkey, hdigest⟩ := hfor
  refine ⟨h.id.trans hid, h.organization.trans horganization, h.purpose.trans hpurpose,
    h.attached hattached, ?_, h.digest.trans hdigest⟩
  rw [h.target (by simp [hkey]), hkey]

/-- A write that does not attach a row finds it attached. -/
theorem UploadChange.attached {upload upload' : UploadRequest}
    (h : UploadChange clock upload upload') (hattached : upload'.promotionStatus = .attached) :
    upload.promotionStatus = .attached := by
  cases h with
  | reserved | failed => simp [UploadRequest.promoted] at hattached
  | deleted field => cases field <;> exact hattached
  | _ => exact hattached

/-- A change is an attach, or keeps all references. -/
theorem Change.references (h : Change formats settings free clock db db') (hkeyed : db.Keyed) :
    SameReferences db db' ∨ ∃ promotion ids locked sha256 job,
      Attaches formats promotion ids db locked sha256 job ∧
      job = newJob settings.jobTimeoutSeconds promotion (promotion.request.target ids) ids clock ∧
      db' = attachedDatabase promotion locked ids sha256 job clock db := by
  -- a change that attaches is the only one that adds rows with references
  by_cases hattach : ∃ promotion ids locked sha256 job,
      Attaches formats promotion ids db locked sha256 job ∧
      job = newJob settings.jobTimeoutSeconds promotion (promotion.request.target ids) ids clock ∧
      db' = attachedDatabase promotion locked ids sha256 job clock db
  · exact .inr hattach
  refine .inl ?_
  have huploads : ∀ upload ∈ db.uploads, ∃ upload' ∈ db'.uploads,
      ∀ id organization purpose key sha256,
        AttachedFor upload id organization purpose key sha256 →
          AttachedFor upload' id organization purpose key sha256 := by
    intro upload hmem
    obtain ⟨upload', hmem', hkept⟩ := h.uploads_kept hkeyed hmem
    exact ⟨upload', hmem', fun _ _ _ _ _ ↦ hkept.attachedFor⟩
  have hsame := SameReferences.refl db
  cases h with
  | kept => exact { hsame with uploads := huploads }
  | created row logs hid hstatus =>
    refine { hsame with uploads := huploads, attached := ?_ }
    intro upload hmem hattached
    rcases List.mem_append.mp hmem with hold | hnew
    · exact hsame.attached upload hold hattached
    · -- an upload is not created attached
      rw [List.mem_singleton.mp hnew, hstatus] at hattached
      exact absurd hattached (by simp)
  | saved saved saved' logs hsaved hfree hchange =>
    refine { hsame with uploads := huploads, attached := ?_ }
    intro upload hmem hattached
    rcases Table.mem_save hmem with rfl | ⟨hold, -⟩
    · exact ⟨saved, hsaved, hchange.attached hattached, hchange.id.symm,
        hchange.kept.purpose.symm⟩
    · exact hsame.attached upload hold hattached
  | attached promotion ids locked sha256 job hfree hattaches hjob =>
    exact absurd ⟨promotion, ids, locked, sha256, job, hattaches, hjob, rfl⟩ hattach
  | outputDeleted other time logs hother hfree hnone =>
    refine { hsame with uploads := huploads, issuances := ⟨_, rfl, fun issuance hmem ↦ ?_⟩ }
    by_cases heq : issuance.id = other.id
    · obtain rfl := List.inj_on_of_nodup_map hkeyed.issuances hmem hother heq
      simp
    · rw [if_neg heq]
      exact ⟨rfl, rfl, rfl⟩
  | worked job change result hmem hadmitted hfree =>
    obtain ⟨f, hf, hfrow⟩ := WorkResult.apply_issuances result job clock db
    obtain ⟨g, hg, hgrow⟩ := WorkResult.apply_documents result job clock db
    obtain ⟨k, hk, hkrow⟩ := WorkResult.apply_verifications result job clock db
    -- the results of work rewrite rows but keep their references
    refine ⟨⟨g, hg, fun document ↦ ?_⟩, ⟨f, hf, fun issuance _ ↦ ?_⟩, ⟨k, hk, hkrow⟩,
      ⟨_, by simp only [Database.saveJob, WorkResult.apply_jobs]; rfl, fun other hother ↦ ?_⟩,
      by simp [Database.saveJob], huploads, ?_⟩
    · obtain ⟨pageCount, heq⟩ := hgrow document
      rw [heq]
      exact ⟨rfl, rfl, rfl, rfl, rfl⟩
    · obtain ⟨⟨key, sha256, heq⟩, -⟩ := hfrow issuance
      rw [heq]
      exact ⟨rfl, rfl, rfl⟩
    · by_cases heq : other.id = job.id
      · obtain rfl := List.inj_on_of_nodup_map hkeyed.jobs hother hmem heq
        simp [JobChange.apply]
      · simp [JobChange.apply, heq]
    · simpa [Database.saveJob] using hsame.attached

theorem Change.ledger (h : Change formats settings free clock db db') (hkeyed : db.Keyed)
    (hledger : Ledger db) : Ledger db' := by
  rcases h.references hkeyed with hsame | ⟨promotion, ids, locked, sha256, job, hattaches, rfl, rfl⟩
  · exact hledger.references hsame
  · exact hattaches.ledger hkeyed hledger rfl rfl

end Changes

/-! ## 3. Whole runs -/

section Runs

variable {formats : FormatChecker} {settings : ServiceSettings} {W : Type*} [DecidableEq W]
  {pool pool' : Pool W}

theorem locks_leads (hlocks : lockAssertions.Holds pool)
    (h : (program formats settings).Leads .all pool pool') : lockAssertions.Holds pool' :=
  lockAssertions_sound.leads (fun u _ ↦ Assertions.trivial_holds u) hlocks h

/-- What holds of the tables at the start and survives every change holds in every reachable
pool. -/
theorem Reachable.tables (h : Reachable formats settings pool) (I : Database → Prop)
    (hstart : ∀ start : Pool W, Start start → I start.store.db)
    (hchange : ∀ {clock : Instant} {db db' : Database}, db.Keyed → I db →
      Change formats settings (fun _ ↦ True) clock db db' → I db') : I pool.store.db := by
  obtain ⟨start, hs, hleads⟩ := h
  have hboth : lockAssertions.Holds pool ∧ I pool.store.db :=
    hleads.keeps (fun u ↦ lockAssertions.Holds u ∧ I u.store.db)
      (fun u e v _ he hu ↦ ⟨locks_leads hu.1 (.single ⟨e, Program.Allowed.all_permits u e, he⟩),
        hchange hu.1.shared hu.2 (step_change hu.1 he)⟩)
      ⟨hs.locks, hstart start hs⟩
  exact hboth.2

theorem Reachable.ledger (h : Reachable formats settings pool) : Ledger pool.store.db := by
  refine h.tables Ledger (fun start hs ↦ ?_)
    fun hkeyed hledger hchange ↦ hchange.ledger hkeyed hledger
  have hnone : ∀ upload ∈ start.store.db.uploads, upload.promotionStatus ≠ .attached :=
    fun upload hmem ↦ by simp [(hs.uploads upload hmem).1]
  constructor <;>
    simp only [hs.documents, hs.issuances, hs.verifications, hs.jobs, hs.events] <;>
    simp only [List.map_nil, List.filterMap_nil, List.nodup_nil, List.not_mem_nil,
      IsEmpty.forall_iff, implies_true, false_and, exists_false, imp_false]
  · exact fun upload hmem hattached ↦ absurd hattached (hnone upload hmem)
  · exact fun upload hmem hattached ↦ absurd hattached (hnone upload hmem)

/-- Each upload of a pool is still there in every continuation of it. -/
theorem uploads_kept (hlocks : lockAssertions.Holds pool)
    (h : (program formats settings).Leads .all pool pool') {upload : UploadRequest}
    (hmem : upload ∈ pool.store.db.uploads) :
    ∃ upload' ∈ pool'.store.db.uploads, Kept upload upload' := by
  induction h with
  | refl => exact ⟨upload, hmem, .refl upload⟩
  | tail hleads hstep ih =>
    obtain ⟨e, -, he⟩ := hstep
    have hmiddle := locks_leads hlocks hleads
    obtain ⟨middle, hmem, hkept⟩ := ih
    obtain ⟨upload', hmem', hkept'⟩ := (step_change hmiddle he).uploads_kept hmiddle.shared hmem
    exact ⟨upload', hmem', hkept.trans hkept'⟩

theorem issuances_kept (hlocks : lockAssertions.Holds pool)
    (h : (program formats settings).Leads .all pool pool') {issuance : Issuance}
    (hmem : issuance ∈ pool.store.db.issuances) :
    ∃ issuance' ∈ pool'.store.db.issuances, IssuanceKept issuance issuance' := by
  induction h with
  | refl => exact ⟨issuance, hmem, .refl issuance⟩
  | tail hleads hstep ih =>
    obtain ⟨e, -, he⟩ := hstep
    have hmiddle := locks_leads hlocks hleads
    obtain ⟨middle, hmem, hkept⟩ := ih
    obtain ⟨issuance', hmem', hkept'⟩ :=
      (step_change hmiddle he).issuances_kept hmiddle.shared hmem
    exact ⟨issuance', hmem', hkept.trans hkept'⟩

/-- The row that an upload has become. -/
theorem upload_kept (hlocks : lockAssertions.Holds pool)
    (h : (program formats settings).Leads .all pool pool') {upload upload' : UploadRequest}
    (hmem : upload ∈ pool.store.db.uploads) (hmem' : upload' ∈ pool'.store.db.uploads)
    (hid : upload'.id = upload.id) : Kept upload upload' := by
  obtain ⟨other, hother, hkept⟩ := uploads_kept hlocks h hmem
  obtain rfl := List.inj_on_of_nodup_map (locks_leads hlocks h).shared.uploads hmem' hother
    (hid.trans hkept.id.symm)
  exact hkept

/-! ## 4. The promotion saga -/

/-- Both have the same domain records, jobs and events. -/
def SameRecords (db db' : Database) : Prop :=
  db'.documents.map (·.id) = db.documents.map (·.id) ∧
    db'.issuances.map (·.id) = db.issuances.map (·.id) ∧
    db'.verifications.map (·.id) = db.verifications.map (·.id) ∧
    db'.jobs.map (·.id) = db.jobs.map (·.id) ∧
    db'.events.map (·.messageId) = db.events.map (·.messageId)

theorem sameRecords_of_references {db db' : Database} (h : SameReferences db db') :
    SameRecords db db' := by
  obtain ⟨d, hd, hdrow⟩ := h.documents
  obtain ⟨i, hi, hirow⟩ := h.issuances
  obtain ⟨v, hv, hvrow⟩ := h.verifications
  obtain ⟨j, hj, hjrow⟩ := h.jobs
  refine ⟨?_, ?_, ?_, ?_, by rw [h.events]⟩
  · rw [hd, List.map_map]
    exact List.map_congr_left fun row _ ↦ (hdrow row).1
  · rw [hi, List.map_map]
    exact List.map_congr_left fun row hrow ↦ (hirow row hrow).1
  · rw [hv, List.map_map]
    exact List.map_congr_left fun row _ ↦ (hvrow row).1
  · rw [hj, List.map_map]
    exact List.map_congr_left fun row hrow ↦ (hjrow row hrow).1

/-- The attach transaction of the call `promotion` has committed. -/
def Committed (promotion : PromotionCall) (db db' : Database) : Prop :=
  ∃ upload ∈ db.uploads, ∃ upload' ∈ db'.uploads, upload.id = promotion.upload.id ∧
    upload'.id = upload.id ∧ upload.promotionStatus = .copying ∧
    upload.promotionTargetDeletedAt = none ∧ upload'.promotionStatus = .attached

/-- A worker's step adds no job unless it commits the attach of its call. -/
theorem Stepped.jobs {store store' : Store} {p p' : Phase}
    (h : Stepped formats settings store p store' p') :
    store'.db.jobs = store.db.jobs ∨
      ∃ promotion, p = .copied promotion ∧ Committed promotion store.db store'.db := by
  cases h with
  | attached promotion ids locked sha256 job p' hfree hattaches hjob hp' =>
    exact .inr ⟨promotion, rfl, locked, hattaches.mem, _, Table.mem_save_self hattaches.mem rfl,
      hattaches.id, rfl, hattaches.copying, hattaches.deleted, rfl⟩
  | recorded run candidate record => cases record <;> exact .inl rfl
  | _ => exact .inl rfl

/-- An event of the environment adds none. -/
theorem Happened.jobs {store store' : Store} (h : Happened formats settings store store') :
    store'.db.jobs.length = store.db.jobs.length := by
  cases h with
  | changed db time hle hchange hjobs => exact congrArg List.length hjobs
  | worked job change result => simp [Database.saveJob, Table.save]
  | _ => rfl

/-- The only step that adds records is the commit of the attach transaction of a call. -/
theorem step_records (hlocks : lockAssertions.Holds pool)
    {event : WorkerPool.Event W Input Event}
    (hstep : (program formats settings).step pool event = some pool') :
    SameRecords pool.store.db pool'.store.db ∨
      ∃ w input promotion, event = .worker w input ∧ pool.phase w = .copied promotion ∧
        Committed promotion pool.store.db pool'.store.db := by
  rcases (step_change hlocks hstep).references hlocks.shared with hsame |
    ⟨promotion, ids, locked, sha256, job, -, -, hdb⟩
  · exact .inl (sameRecords_of_references hsame)
  have hadded : pool'.store.db.jobs.length = pool.store.db.jobs.length + 1 := by
    simp [hdb, attachedDatabase]
  rcases step_cases hlocks hstep with ⟨w, input, rfl, hstepped⟩ | ⟨-, hhappened, -⟩
  · rcases hstepped.jobs with hjobs | ⟨promotion, hphase, hcommitted⟩
    · rw [hjobs] at hadded
      omega
    · exact .inr ⟨w, input, promotion, rfl, hphase, hcommitted⟩
  · rw [hhappened.jobs] at hadded
    omega

/-- In every reachable pool an upload has at most one domain record, one job and one event, and
has them exactly when it is attached; only the commit of an attach transaction adds them; and an
upload that was tombstoned before is never attached. -/
theorem promotion_saga (h : Reachable formats settings pool) :
    (∀ upload ∈ pool.store.db.uploads, PromotedOnce pool.store.db upload) ∧
    (∀ event pool', (program formats settings).step pool event = some pool' →
      SameRecords pool.store.db pool'.store.db ∨
        ∃ w input promotion, event = .worker w input ∧ pool.phase w = .copied promotion ∧
          Committed promotion pool.store.db pool'.store.db) ∧
    ∀ upload ∈ pool.store.db.uploads, upload.promotionTargetDeletedAt ≠ none →
      upload.promotionStatus ≠ .attached →
      ∀ pool', (program formats settings).Leads .all pool pool' →
        ∀ upload' ∈ pool'.store.db.uploads, upload'.id = upload.id →
          upload'.promotionStatus ≠ .attached := by
  have hlocks := h.locks
  refine ⟨fun upload hmem ↦ h.ledger.promotedOnce hlocks.shared hmem,
    fun event pool' hstep ↦ step_records hlocks hstep, ?_⟩
  intro upload hmem hdeleted hunattached pool' hleads upload' hmem' hid hattached
  obtain ⟨-, hstatus, -⟩ := (upload_kept hlocks hleads hmem hmem' hid).fenced hdeleted
  exact hunattached (hstatus ▸ hattached)

end Runs

/-! ## 5. A sample run -/

def sampleSettings : ServiceSettings := ⟨900, 1000000, 60⟩

def sampleActor : User := ⟨⟨2⟩, ⟨1⟩, .administrator⟩

def sampleUpload : UploadRequest where
  id := ⟨5⟩
  organizationId := ⟨1⟩
  requestedById := ⟨2⟩
  purpose := .issuance
  objectKey := .orphan .issuance ⟨1⟩ ⟨5⟩
  sourceContentType := "application/pdf"
  expectedSha256 := some ⟨7⟩
  sizeBytes := some 1000
  expiresAt := minutes 15
  finalizedAt := some 0
  orphanDeletedAt := none
  promotionTargetKey := none
  promotionStatus := .none
  promotionStatusChangedAt := 0
  safeErrorCode := none
  promotionTargetDeletedAt := none
  promotionTargetReconciledAt := none
  createdAt := 0

/-- One upload, and nothing done yet. -/
def sampleStore : Store where
  db :=
    { emptyDatabase with
      uploads := [sampleUpload]
      recipients := [⟨⟨3⟩, ⟨1⟩, "R-1", "Recipient"⟩] }
  objects := fun _ ↦ none
  copies := []
  locked := []
  clock := 1
  ended := []
  tokens := []

def samplePool : Pool (Fin 2) := ⟨sampleStore, fun _ ↦ .idle⟩

theorem samplePool_start : Start samplePool where
  keyed := by constructor <;> simp [samplePool, sampleStore, emptyDatabase]
  uploads := by simp [samplePool, sampleStore, sampleUpload]
  documents := rfl
  issuances := rfl
  verifications := rfl
  jobs := rfl
  events := rfl
  systemAudit := rfl
  schedule := rfl
  objects _ _ _ := rfl
  copies := rfl
  locked := rfl
  ended := rfl
  tokens := rfl
  idle _ := rfl

/-- A create call that reserves, copies and attaches the sample upload. -/
def createRun (w : Fin 2) : List (WorkerPool.Event (Fin 2) Input Event) :=
  [.worker w (.create sampleActor (.issuance ⟨3⟩) ⟨5⟩ ⟨9⟩ .none),
    .worker w (.copy ⟨7⟩ (.observed (some ⟨sampleUpload.target, 1000, some ⟨7⟩⟩))),
    .worker w (.attach ⟨⟨11⟩, ⟨12⟩, ⟨13⟩, ⟨14⟩⟩ .none)]

theorem sample_attached :
    ∃ pool, (program sampleFormats sampleSettings).Leads .all samplePool pool ∧
      pool.store.db.uploads.map (·.promotionStatus) = [.attached] :=
  Program.leads_of_exec_map (createRun 0) (by decide +kernel)

/-- The upload of the sample run is attached, with one domain record. -/
theorem promotion_saga_sample : ∃ pool : Pool (Fin 2),
    Reachable sampleFormats sampleSettings pool ∧
    ∃ upload ∈ pool.store.db.uploads, upload.promotionStatus = .attached ∧
      OneDomain pool.store.db upload := by
  obtain ⟨pool, hleads, hstatus⟩ := sample_attached
  have hreachable : Reachable sampleFormats sampleSettings pool :=
    ⟨samplePool, samplePool_start, hleads⟩
  have hmem : PromotionStatus.attached ∈ pool.store.db.uploads.map (·.promotionStatus) := by
    simp [hstatus]
  obtain ⟨upload, hupload, hattached⟩ := List.mem_map.mp hmem
  have hsaga := (promotion_saga hreachable).1 upload hupload
  exact ⟨pool, hreachable, upload, hupload, hattached, (hsaga.attached.mp hattached).1⟩

end Platform

end Splitbind
