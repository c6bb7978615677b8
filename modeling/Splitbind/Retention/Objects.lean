import Splitbind.Retention.Saga

/-!
# Promoted objects — every object at a promoted-input key has an upload that names the key

A copy may happen long after its call has failed and its target was deleted.  What keeps the
object from being forgotten is the upload row: it keeps its target key for ever, so retention or
reconciliation finds the object again.
-/

namespace Splitbind

open Transaction WorkerPool

namespace Platform

/-! ## 1. Targets -/

/-- A row is reserved for its own target or for none. -/
def TargetOwned (upload : UploadRequest) : Prop :=
  (upload.promotionStatus = .none ↔ upload.promotionTargetKey = none) ∧
    ∀ key ∈ upload.promotionTargetKey, key = upload.target

theorem TargetOwned.promoted (upload : UploadRequest) {status : PromotionStatus}
    (code : Option String) (now : Instant) (hstatus : status ≠ .none) :
    TargetOwned (upload.promoted status code now) := by
  constructor
  · simp [UploadRequest.promoted, hstatus]
  · intro key hkey
    exact (Option.some.inj hkey).symm

theorem UploadChange.targetOwned {clock : Instant} {upload upload' : UploadRequest}
    (h : UploadChange clock upload upload') (howned : TargetOwned upload) :
    TargetOwned upload' := by
  cases h with
  | reserved | failed => exact .promoted upload _ clock (by simp)
  | deleted field => cases field <;> exact howned
  | finalized | reconciled => exact howned

section Changes

variable {formats : FormatChecker} {settings : ServiceSettings} {free : Lock → Prop}
  {clock : Instant} {db db' : Database}

theorem Change.targetOwned (h : Change formats settings free clock db db')
    (howned : ∀ upload ∈ db.uploads, TargetOwned upload) :
    ∀ upload ∈ db'.uploads, TargetOwned upload := by
  intro upload hmem
  cases h with
  | kept | outputDeleted => exact howned upload hmem
  | created row logs hid hstatus hkey =>
    rcases List.mem_append.mp hmem with hold | hnew
    · exact howned upload hold
    · rw [List.mem_singleton.mp hnew, TargetOwned, hstatus, hkey]
      simp
  | saved saved saved' logs hsaved hfree hchange =>
    rcases Table.mem_save hmem with rfl | ⟨hold, -⟩
    · exact hchange.targetOwned (howned saved hsaved)
    · exact howned upload hold
  | attached promotion ids locked sha256 job hfree hattaches hjob =>
    rcases Table.mem_save hmem with rfl | ⟨hold, -⟩
    · exact .promoted locked none clock (by simp)
    · exact howned upload hold
  | worked job change result =>
    rw [Database.saveJob, WorkResult.apply_uploads] at hmem
    exact howned upload hmem

/-- Some upload is reserved for a key. -/
def Targeted (db : Database) (key : ObjectKey) : Prop :=
  ∃ upload ∈ db.uploads, upload.promotionTargetKey = some key

theorem Change.targeted (h : Change formats settings free clock db db') (hkeyed : db.Keyed)
    {key : ObjectKey} (htargeted : Targeted db key) : Targeted db' key := by
  obtain ⟨upload, hmem, hkey⟩ := htargeted
  obtain ⟨upload', hmem', hkept⟩ := h.uploads_kept hkeyed hmem
  exact ⟨upload', hmem', (hkept.target (by simp [hkey])).trans hkey⟩

end Changes

/-! ## 2. Objects -/

section Steps

variable {formats : FormatChecker} {settings : ServiceSettings} {store store' : Store}
  {p p' : Phase}

/-- A delete, seen to fail or not, makes no object appear. -/
theorem apply_eq_some {outcome : DeleteOutcome} {objects : ObjectStore} {key key' : ObjectKey}
    {content : Sha256} (h : outcome.apply objects key key' = some content) :
    objects key' = some content := by
  cases outcome with
  | failed => exact h
  | deleted | deletedThenFailed => exact ObjectStore.delete_eq_some h

theorem orphanDeleted_eq_some {objects objects' : ObjectStore} {key : ObjectKey}
    {content : Sha256} (h : orphanDeleted objects objects') (hcontent : objects' key = some content) :
    objects key = some content := by
  rcases h with rfl | ⟨purpose, organization, object, rfl⟩
  · exact hcontent
  · exact ObjectStore.delete_eq_some hcontent

/-- A worker's step makes an object appear only at the target of its reservation. -/
theorem Stepped.objects (h : Stepped formats settings store p store' p') {key : ObjectKey}
    {content : Sha256} (hcontent : store'.objects key = some content) :
    store.objects key = some content ∨
      ∃ promotion, p = .reserved promotion ∧ promotion.upload.promotionTargetKey = some key := by
  cases h with
  | copied promotion target put htarget =>
    by_cases heq : key = target
    · subst heq
      exact .inr ⟨promotion, rfl, htarget⟩
    · exact .inl ((ObjectStore.put_of_ne _ _ heq).symm.trans hcontent)
  | orphanRecorded promotion domainId upload audit objects hmem hfree hnone hobjects =>
    exact .inl (orphanDeleted_eq_some hobjects hcontent)
  | orphanDeferred promotion domainId audit objects hobjects =>
    exact .inl (orphanDeleted_eq_some hobjects hcontent)
  | refenced | deletionFailed | attempted => exact .inl (apply_eq_some hcontent)
  | deleted => exact .inl (ObjectStore.delete_eq_some hcontent)
  | _ => exact .inl hcontent

/-- It asks for copies to that target only. -/
theorem Stepped.copies (h : Stepped formats settings store p store' p') {key : ObjectKey}
    (hkey : key ∈ store'.copies) :
    key ∈ store.copies ∨
      ∃ promotion, p = .reserved promotion ∧ promotion.upload.promotionTargetKey = some key := by
  cases h with
  | copied promotion target put htarget =>
    rcases List.mem_cons.mp hkey with rfl | hold
    · exact .inr ⟨promotion, rfl, htarget⟩
    · exact .inl hold
  | copyFailed promotion target code error htarget =>
    rcases List.mem_cons.mp hkey with rfl | hold
    · exact .inr ⟨promotion, rfl, htarget⟩
    · exact .inl hold
  | _ => exact .inl hkey

/-- The phase after a reservation. -/
theorem Stepped.reserved {promotion : PromotionCall}
    (h : Stepped formats settings store p store' p') (hp' : p' = .reserved promotion) :
    ∃ upload ∈ store'.db.uploads,
      upload.promotionTargetKey = promotion.upload.promotionTargetKey := by
  cases h with
  | began upload call audit p' hmem hfree hstatus hkey hdeleted hupload hp =>
    rcases hp with rfl | rfl
    · obtain rfl := Phase.reserved.inj hp'
      refine ⟨call.upload, Table.mem_save_self hmem ?_, rfl⟩
      rw [hupload]
      rfl
    · simp at hp'
  | attached call ids locked sha256 job p' hfree hattaches hjob hp =>
    rcases hp with ⟨domainId, rfl⟩ | ⟨code, error, rfl⟩ <;> simp at hp'
  | turned _ _ _ _ _ _ hp =>
    rcases hp with ⟨fallback, rfl⟩ | ⟨fallback, rfl⟩ | ⟨candidate, rfl⟩ | rfl <;> simp at hp'
  | recorded _ _ _ _ hp | unclaimed _ _ _ _ hp | claimCleared _ _ _ _ _ hp
  | claimed _ _ _ _ _ _ _ _ _ hp | dropped _ _ _ _ _ _ hp
  | reconciled _ _ _ _ _ _ _ _ _ _ _ hp =>
    rcases hp with rfl | rfl <;> simp at hp'
  | _ => simp at hp'

end Steps

/-! ## 3. Reachable pools -/

def objectAssertions : Assertions Store Phase where
  shared store := (∀ upload ∈ store.db.uploads, TargetOwned upload) ∧
    (∀ key content, isPromoted key = true → store.objects key = some content →
      Targeted store.db key) ∧
    ∀ key ∈ store.copies, Targeted store.db key
  own store p := ∀ promotion, p = .reserved promotion → ∀ key,
    promotion.upload.promotionTargetKey = some key → Targeted store.db key
  apart _ _ := True

section Runs

variable {formats : FormatChecker} {settings : ServiceSettings} {W : Type*} [DecidableEq W]
  {pool pool' : Pool W}

theorem objectAssertions_sound :
    Sound (program formats settings) .all lockAssertions objectAssertions where
  symm _ _ _ := trivial
  keeps {store p i store' p'} hkeyed hopened hshared hown _ hcall := by
    obtain ⟨hrows, hobjects, hcopies⟩ := hshared
    have hstep : Stepped formats settings store p store' p' := call_stepped hcall
    have hchange := hstep.change hkeyed hopened
    -- a copy or an object that appears is the one the reserved promotion targets
    have hreserved : ∀ key, (∃ promotion, p = .reserved promotion ∧
        promotion.upload.promotionTargetKey = some key) → Targeted store'.db key := by
      rintro key ⟨promotion, hp, hkey⟩
      exact hchange.targeted hkeyed (hown promotion hp key hkey)
    refine ⟨⟨hchange.targetOwned hrows, fun key content hpromoted hcontent ↦ ?_,
      fun key hkey ↦ ?_⟩, fun promotion hp' key hkey ↦ ?_⟩
    · rcases hstep.objects hcontent with hold | hnew
      · exact hchange.targeted hkeyed (hobjects key content hpromoted hold)
      · exact hreserved key hnew
    · rcases hstep.copies hkey with hold | hnew
      · exact hchange.targeted hkeyed (hcopies key hold)
      · exact hreserved key hnew
    · obtain ⟨upload, hmem, htarget⟩ := hstep.reserved hp'
      exact ⟨upload, hmem, htarget.trans hkey⟩
  others {store p q i store' p'} hkeyed hopened _ _ _ _ hother _ _ hcall := by
    have hstep : Stepped formats settings store p store' p' := call_stepped hcall
    refine ⟨fun promotion hq key hkey ↦ ?_, trivial⟩
    exact (hstep.change hkeyed hopened).targeted hkeyed (hother promotion hq key hkey)
  environment {store e store'} hkeyed hshared _ henv := by
    obtain ⟨hrows, hobjects, hcopies⟩ := hshared
    have hhappened : Happened formats settings store store' := environment_happened hkeyed henv
    have hchange := hhappened.change hkeyed
    have htargeted : ∀ {key}, Targeted store.db key → Targeted store'.db key :=
      fun h ↦ hchange.targeted hkeyed h
    refine ⟨⟨hchange.targetOwned hrows, fun key content hpromoted hcontent ↦ htargeted ?_,
      fun key hkey ↦ htargeted (hcopies key ?_)⟩,
      fun q _ hown promotion hq key hkey ↦ htargeted (hown promotion hq key hkey)⟩
    · cases hhappened with
      | landed landed put hlanded =>
        by_cases heq : key = landed
        · exact heq ▸ hcopies landed hlanded
        · exact hobjects key content hpromoted
            ((ObjectStore.put_of_ne _ _ heq).symm.trans hcontent)
      | stored stored put hstored =>
        have hne : key ≠ stored := fun heq ↦ by simp [← heq, hpromoted] at hstored
        exact hobjects key content hpromoted (by simpa [hne] using hcontent)
      | _ => exact hobjects key content hpromoted hcontent
    · cases hhappened <;> exact hkey

omit [DecidableEq W] in
theorem Start.objectsHold {pool : Pool W} (h : Start pool) : objectAssertions.Holds pool where
  shared := by
    refine ⟨fun upload hmem ↦ ?_, fun key content hpromoted hcontent ↦ ?_, by simp [h.copies]⟩
    · obtain ⟨hstatus, hkey, -⟩ := h.uploads upload hmem
      simp [TargetOwned, hstatus, hkey]
    · cases key with
      | promotedInput kind organization upload => simp [h.objects] at hcontent
      | orphan | issuanceOutput => simp [isPromoted] at hpromoted
  own w promotion hp := by
    rw [h.idle w] at hp
    simp at hp
  apart _ _ _ := trivial

theorem Reachable.objectsHold (h : Reachable formats settings pool) :
    objectAssertions.Holds pool := by
  obtain ⟨start, hstart, hleads⟩ := h
  exact objectAssertions_sound.leads (fun u hu ↦ locks_leads hstart.locks hu) hstart.objectsHold
    hleads

/-! ## 4. Every promoted object is accounted for -/

/-- Retention selects the upload once it is old enough, and then may delete the key. -/
def StaleSelected (db : Database) (upload : UploadRequest) (key : ObjectKey) : Prop :=
  ∀ now, upload.promotionStatusChangedAt ≤ now - hours 1 →
    ⟨.stalePromotion upload.promotionStatus, upload.id⟩ ∈
        stalePromotions db upload.promotionStatus now ∧
      (LockedRecord.upload upload).eligible (.stalePromotion upload.promotionStatus) now = true ∧
      (LockedRecord.upload upload).ownedKey (.stalePromotion upload.promotionStatus) = some key

/-- Reconciliation comes to the upload's tombstone, and then deletes the key. -/
def ReconciliationSelected (db : Database) (upload : UploadRequest) (key : ObjectKey) : Prop :=
  ∃ deletedAt, ⟨deletedAt, upload.id⟩ ∈ tombstones db ∧
    ∀ token, reconciliationTarget ⟨upload.id, token⟩ db = .inr key

/-- Somebody is responsible for the object at a key. -/
def AccountedFor (db : Database) (upload : UploadRequest) (key : ObjectKey) : Prop :=
  (upload.promotionTargetDeletedAt = none ∧
      (upload.promotionStatus = .copying ∨ upload.promotionStatus = .failed) ∧
      StaleSelected db upload key) ∨
    (upload.promotionTargetDeletedAt = none ∧ upload.promotionStatus = .attached) ∨
    upload.promotionTargetDeletedAt ≠ none ∧ ReconciliationSelected db upload key

theorem keyIsOwned_target (upload : UploadRequest) (state : PromotionStatus) :
    keyIsOwned upload (.stalePromotion state) upload.target = true := by
  simp [keyIsOwned, UploadRequest.target, promotedInputKey]

theorem staleSelected {db : Database} {upload : UploadRequest} (hmem : upload ∈ db.uploads)
    (hkey : upload.promotionTargetKey = some upload.target)
    (hdeleted : upload.promotionTargetDeletedAt = none)
    (hstatus : upload.promotionStatus = .copying ∨ upload.promotionStatus = .failed) :
    StaleSelected db upload upload.target := by
  intro now hold
  replace hold : upload.promotionStatusChangedAt ≤
    now - (Category.stalePromotion upload.promotionStatus).window := hold
  refine ⟨?_, ?_, ?_⟩
  · refine List.mem_map.mpr ⟨upload, (List.mem_insertionSort _).mpr ?_, rfl⟩
    simpa [List.mem_filter, hmem, hkey, hdeleted] using hold
  · simpa [LockedRecord.eligible, hdeleted, hstatus.symm] using hold
  · simp [LockedRecord.ownedKey, hkey, Option.filter, keyIsOwned_target]

theorem reconciliationSelected {db : Database} (hkeyed : db.Keyed) {upload : UploadRequest}
    (hmem : upload ∈ db.uploads) (hkey : upload.promotionTargetKey = some upload.target)
    {deletedAt : Instant} (hdeleted : upload.promotionTargetDeletedAt = some deletedAt) :
    ReconciliationSelected db upload upload.target := by
  refine ⟨deletedAt, (List.mem_insertionSort _).mpr ?_, fun token ↦ ?_⟩
  · exact List.mem_filterMap.mpr ⟨upload, hmem, by simp [hdeleted, hkey]⟩
  · have hfind : db.uploads.find? (·.id = upload.id) = some upload :=
      Table.find?_eq_some hkeyed.uploads hmem (by simp) (by simp)
    simp [reconciliationTarget, hfind, hdeleted, hkey, Option.filter, keyIsOwned_target]

/-- In every reachable pool an object at a promoted-input key, and a copy that may still land
there, has an upload with that target, which retention selects, a job needs or reconciliation
visits; and target keys and deletion timestamps are never taken back. -/
theorem promoted_objects_accounted (h : Reachable formats settings pool) :
    (∀ key content, isPromoted key = true → pool.store.objects key = some content →
      ∃ upload ∈ pool.store.db.uploads, upload.promotionTargetKey = some key ∧
        AccountedFor pool.store.db upload key) ∧
    (∀ key ∈ pool.store.copies,
      ∃ upload ∈ pool.store.db.uploads, upload.promotionTargetKey = some key ∧
        AccountedFor pool.store.db upload key) ∧
    ∀ pool', (program formats settings).Leads .all pool pool' →
      (∀ upload ∈ pool.store.db.uploads, ∃ upload' ∈ pool'.store.db.uploads,
        upload'.id = upload.id ∧
        (∀ key, upload.promotionTargetKey = some key → upload'.promotionTargetKey = some key) ∧
        (∀ time, upload.promotionTargetDeletedAt = some time →
          upload'.promotionTargetDeletedAt = some time) ∧
        ∀ time, upload.orphanDeletedAt = some time → upload'.orphanDeletedAt = some time) ∧
      ∀ issuance ∈ pool.store.db.issuances, ∃ issuance' ∈ pool'.store.db.issuances,
        issuance'.id = issuance.id ∧
        ∀ time, issuance.outputDeletedAt = some time → issuance'.outputDeletedAt = some time := by
  have hlocks := h.locks
  obtain ⟨hrows, hobjects, hcopies⟩ := h.objectsHold.shared
  -- whatever a row targets is waiting to be cleaned, attached, or to be reconciled
  have haccounted : ∀ key, Targeted pool.store.db key →
      ∃ upload ∈ pool.store.db.uploads, upload.promotionTargetKey = some key ∧
        AccountedFor pool.store.db upload key := by
    rintro key ⟨upload, hmem, hkey⟩
    obtain ⟨hstatus, htarget⟩ := hrows upload hmem
    obtain rfl := htarget key hkey
    refine ⟨upload, hmem, hkey, ?_⟩
    rcases hdeleted : upload.promotionTargetDeletedAt with _ | deletedAt
    · cases hpromotion : upload.promotionStatus with
      | none => simp [hstatus.mp hpromotion] at hkey
      | copying =>
        exact .inl ⟨hdeleted, .inl hpromotion, staleSelected hmem hkey hdeleted (.inl hpromotion)⟩
      | failed =>
        exact .inl ⟨hdeleted, .inr hpromotion, staleSelected hmem hkey hdeleted (.inr hpromotion)⟩
      | attached => exact .inr (.inl ⟨hdeleted, hpromotion⟩)
    · exact .inr (.inr ⟨by simp [hdeleted],
        reconciliationSelected hlocks.shared hmem hkey hdeleted⟩)
  refine ⟨fun key content hpromoted hcontent ↦
      haccounted key (hobjects key content hpromoted hcontent),
    fun key hkey ↦ haccounted key (hcopies key hkey), fun pool' hleads ↦ ⟨?_, ?_⟩⟩
  · intro upload hmem
    obtain ⟨upload', hmem', hkept⟩ := uploads_kept hlocks hleads hmem
    refine ⟨upload', hmem', hkept.id, fun key hkey ↦ ?_, fun time htime ↦ ?_, fun time htime ↦ ?_⟩
    · exact (hkept.target (by simp [hkey])).trans hkey
    · exact (hkept.fenced (by simp [htime])).1.trans htime
    · exact (hkept.orphanDeleted (by simp [htime])).trans htime
  · intro issuance hmem
    obtain ⟨issuance', hmem', hkept⟩ := issuances_kept hlocks hleads hmem
    exact ⟨issuance', hmem', hkept.id, fun time htime ↦
      (hkept.outputDeleted (by simp [htime])).trans htime⟩

end Runs

/-- The copy of a call that failed lands after retention has deleted the target. -/
def lateCopyRun : List (WorkerPool.Event (Fin 2) Input Event) :=
  [.worker 0 (.create sampleActor (.issuance ⟨3⟩) ⟨5⟩ ⟨9⟩ .none),
    .worker 0 (.copy ⟨7⟩ (.raised .other)),
    .worker 0 (.fence .deleted),
    .worker 0 (.markFailed .none),
    .environment (.tick (hours 2)),
    .worker 1 (.cleanup (hours 2) 1),
    .worker 1 .proceed, .worker 1 .proceed, .worker 1 .proceed, .worker 1 .proceed,
    .worker 1 (.delete .deleted),
    .worker 1 (.record .none),
    .environment (.copyLands sampleUpload.target ⟨7⟩)]

theorem sample_late_copy :
    ∃ pool, (program sampleFormats sampleSettings).Leads .all samplePool pool ∧
      (pool.store.objects sampleUpload.target,
        pool.store.db.uploads.map (·.promotionTargetDeletedAt)) = (some ⟨7⟩, [some (hours 2)]) :=
  Program.leads_of_exec_map lateCopyRun (by decide +kernel)

/-- The late object belongs to the sample upload, which reconciliation visits. -/
theorem promoted_objects_accounted_sample : ∃ pool : Pool (Fin 2),
    Reachable sampleFormats sampleSettings pool ∧
    ∃ upload ∈ pool.store.db.uploads, upload.promotionTargetKey = some sampleUpload.target ∧
      AccountedFor pool.store.db upload sampleUpload.target := by
  obtain ⟨pool, hleads, hread⟩ := sample_late_copy
  have hreachable : Reachable sampleFormats sampleSettings pool :=
    ⟨samplePool, samplePool_start, hleads⟩
  exact ⟨pool, hreachable, (promoted_objects_accounted hreachable).1 sampleUpload.target ⟨7⟩ rfl
    (Prod.mk.inj hread).1⟩

end Platform

end Splitbind
