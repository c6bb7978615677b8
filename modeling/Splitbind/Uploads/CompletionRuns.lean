import Splitbind.Uploads.Completion

/-!
# Runs of completions — one call alone, and any number at once

Alone, the statements of a call do what the service does as one step.  Together, the calls write to
a row and to the log as if each of them had done all its writing at once.
-/

namespace Splitbind

open Transaction WorkerPool

/-! ## 1. A call on its own -/

section Alone

variable {call : CompleteCall} {head : HeadResult} {db : Database} {upload : UploadRequest}
  {audit : List RecordedEvent} {organizationOf : UUID → UUID} {kind code : String}

/-- The transaction of the service as one step, at the times and with the answers of a call. -/
def CompleteCall.body (call : CompleteCall) (head : HeadResult) (db : Database) :
    Except Raised (UploadRequest × Database) :=
  completeUploadLocked call.now call.later head call.denialId call.actor call.uploadId call.sha256 db

def CompleteCall.service (call : CompleteCall) (head : HeadResult) (db : Database) :
    Except Raised UploadRequest × Database :=
  completeUpload call.now call.later head call.denialId call.actor call.uploadId call.sha256 db

theorem service_of_refused (h : call.body head db = .error (.uploadRejected code)) :
    call.service head db = (.error (.uploadRejected code),
      { db with audit :=
          db.audit ++ [denialEvent call.actor "upload.complete.denied" call.denialId] }) :=
  congrArg (recordingRejection call.actor "upload.complete.denied" call.denialId · db) h

theorem service_of_ok {db' : Database} (h : call.body head db = .ok (upload, db')) :
    call.service head db = (.ok upload, db') :=
  congrArg (recordingRejection call.actor "upload.complete.denied" call.denialId · db) h

theorem body_of_none (h : db.uploads.find? (fun upload ↦ call.Scopes upload) = none) :
    call.body head db = .error (.uploadRejected "UPLOAD_NOT_FOUND") := by
  have hscoped : scopedUpload call.actor call.uploadId db =
      .error (.uploadRejected "UPLOAD_NOT_FOUND") := by
    show found (db.uploads.find? fun upload ↦ call.Scopes upload) _ = _
    rw [h]
    rfl
  rw [CompleteCall.body, completeUploadLocked, hscoped]
  rfl

/-- The transaction behind the query. -/
theorem body_of_some (h : db.uploads.find? (fun upload ↦ call.Scopes upload) = some upload) :
    call.body head db =
      (raiseIf (¬ MayUpload call.actor (kindFor upload)) (.uploadRejected "UPLOAD_FORBIDDEN") >>=
        fun _ ↦ raiseIf (some call.sha256 ≠ upload.expectedSha256.map (·.text))
          (.uploadRejected "UPLOAD_METADATA_MISMATCH") >>= fun _ ↦
        if upload.finalizedAt ≠ none then pure (upload, db)
        else
          raiseIf (call.now ≥ upload.expiresAt) (.uploadRejected "UPLOAD_EXPIRED") >>= fun _ ↦
          raiseIf (head = .unavailable) (.uploadRejected "STORAGE_UNAVAILABLE") >>= fun _ ↦
          raiseIf (call.later ≥ upload.expiresAt) (.uploadRejected "UPLOAD_EXPIRED") >>= fun _ ↦
          raiseIf (¬ ∃ sizeBytes ∈ upload.sizeBytes, head = .found sizeBytes
            (upload.expectedSha256.map (·.text))) (.uploadRejected "UPLOAD_METADATA_MISMATCH") >>=
          fun _ ↦ pure ({ upload with finalizedAt := some call.later },
            { db.saveUpload { upload with finalizedAt := some call.later } with
              audit := db.audit ++
                [uploadEvent call.actor "upload.completed" upload.id call.denialId] })) := by
  have hscoped : scopedUpload call.actor call.uploadId db = .ok upload := by
    show found (db.uploads.find? fun upload ↦ call.Scopes upload) _ = _
    rw [h]
    rfl
  rw [CompleteCall.body, completeUploadLocked, hscoped]
  rfl

/-- Some statements of a call lead from one point to another. -/
def CompleteLeads (call : CompleteCall) :
    UploadStore × UploadTransaction × CompleteStage →
      UploadStore × UploadTransaction × CompleteStage → Prop :=
  Relation.ReflTransGen fun a b ↦ completeStatement a.1 call a.2.1 a.2.2 = some b

/-- From a point a call ends as the service does: with its answer, its rows and its events. -/
def EndsAsService (call : CompleteCall) (head : HeadResult) (db : Database)
    (organizationOf : UUID → UUID) (point : UploadStore × UploadTransaction × CompleteStage) :
    Prop :=
  ∃ audit' stage, CompleteLeads call point
      (⟨(call.service head db).2.uploads, audit', [], organizationOf⟩, .closed, stage) ∧
    stage.result = some (call.service head db).1 ∧
    audit'.map (·.event) = (call.service head db).2.audit

theorem EndsAsService.step {point next : UploadStore × UploadTransaction × CompleteStage}
    (hstep : completeStatement point.1 call point.2.1 point.2.2 = some next)
    (h : EndsAsService call head db organizationOf next) :
    EndsAsService call head db organizationOf point := by
  obtain ⟨audit', stage, hleads, hresult, haudit⟩ := h
  exact ⟨audit', stage, .head hstep hleads, hresult, haudit⟩

/-- A rejection is rolled back, and recorded once. -/
theorem EndsAsService.rejecting {transaction : UploadTransaction} {locked : List UUID}
    (haudit : audit.map (·.event) = db.audit)
    (hlocked : locked.filter (fun id ↦ transaction.locked ≠ some id) = [])
    (h : call.body head db = .error (.uploadRejected code)) :
    EndsAsService call head db organizationOf
      (⟨db.uploads, audit, locked, organizationOf⟩, transaction, .rejecting kind code) := by
  refine ⟨audit ++ [call.denial call.denialId kind code], .refused kind code, ?_, ?_, ?_⟩
  · rw [service_of_refused h]
    refine .head rfl (.head rfl (.single ?_))
    show some _ = some _
    rw [← hlocked]
    rfl
  · rw [service_of_refused h]
    rfl
  · rw [service_of_refused h, List.map_append, haudit]
    rfl

theorem filter_reading (id : UUID) :
    [id].filter (fun id' ↦ (UploadTransaction.reading id).locked ≠ some id') = [] := by
  simp [UploadTransaction.reading]

theorem updateFinalizedAt_eq_save {rows : List UploadRequest} (hids : (rows.map (·.id)).Nodup)
    {row : UploadRequest} (hrow : row ∈ rows) (finalizedAt : Instant) :
    updateFinalizedAt row.id finalizedAt rows =
      Table.save (·.id) rows { row with finalizedAt := some finalizedAt } :=
  Table.map_update_eq_save hids hrow rfl

/-- From the storage's answer to the commit. -/
theorem EndsAsService.saving (hids : (db.uploads.map (·.id)).Nodup)
    (haudit : audit.map (·.event) = db.audit)
    (hrequester : organizationOf upload.requestedById = upload.organizationId)
    (hclock : call.finalizedAt = call.later) (hid : call.completionId = call.denialId)
    (hmem : upload ∈ db.uploads) (hscopes : call.Scopes upload)
    (h : call.body head db = .ok ({ upload with finalizedAt := some call.later },
      { db.saveUpload { upload with finalizedAt := some call.later } with
        audit := db.audit ++
          [uploadEvent call.actor "upload.completed" upload.id call.denialId] })) :
    EndsAsService call head db organizationOf
      (⟨db.uploads, audit, [upload.id], organizationOf⟩, .reading upload.id, .saving upload) := by
  have hfind : db.uploads.find? (fun row ↦ row.id = upload.id) = some upload :=
    Table.find?_eq_some hids hmem (decide_eq_true rfl) fun _ hid ↦ of_decide_eq_true hid
  have hsaved : completeStatement ⟨db.uploads, audit, [upload.id], organizationOf⟩ call
      (.reading upload.id) (.saving upload) =
        some (⟨db.uploads, audit, [upload.id], organizationOf⟩,
          ⟨some upload.id, some (upload.id, call.finalizedAt), []⟩,
          .recording (call.finalized upload)) := by
    simp only [completeStatement, hfind, ne_eq, not_true_eq_false, if_false, hrequester]
    rfl
  have hrecorded : completeStatement ⟨db.uploads, audit, [upload.id], organizationOf⟩ call
      ⟨some upload.id, some (upload.id, call.finalizedAt), []⟩
      (.recording (call.finalized upload)) =
        some (⟨db.uploads, audit, [upload.id], organizationOf⟩,
          ⟨some upload.id, some (upload.id, call.finalizedAt),
            [call.completion (call.finalized upload)]⟩,
          .committing (call.finalized upload)) := by
    have hsame : (call.finalized upload).organizationId = call.actor.organizationId := hscopes.1
    rw [completeStatement, if_neg (not_not.mpr hsame)]
    rfl
  -- save, record, commit: nobody else holds the row, so the run goes straight through
  refine .step hsaved (.step hrecorded ?_)
  refine ⟨audit ++ [call.completion (call.finalized upload)],
    .completed (call.finalized upload), ?_, ?_, ?_⟩
  · rw [service_of_ok h]
    refine .single ?_
    show some (UploadStore.mk (updateFinalizedAt upload.id call.finalizedAt db.uploads) _
      ([upload.id].filter fun id ↦ (UploadTransaction.reading upload.id).locked ≠ some id) _, _, _) =
      some _
    rw [updateFinalizedAt_eq_save hids hmem, filter_reading, hclock]
    rfl
  · rw [service_of_ok h, CompleteCall.finalized, hclock]
    rfl
  · rw [service_of_ok h, List.map_append, haudit]
    show db.audit ++ [uploadEvent call.actor "upload.completed" upload.id call.completionId] = _
    rw [hid]

/-- **A call that nothing interrupts** is the service as one step, which reads the clock once after
the storage has answered. -/
theorem complete_alone (hids : (db.uploads.map (·.id)).Nodup)
    (haudit : audit.map (·.event) = db.audit)
    (hrequester : ∀ row ∈ db.uploads, organizationOf row.requestedById = row.organizationId)
    (hhead : call.head = .ok head) (hclock : call.finalizedAt = call.later)
    (hid : call.completionId = call.denialId) :
    EndsAsService call head db organizationOf
      (⟨db.uploads, audit, [], organizationOf⟩, .closed, .ready) := by
  -- the statements follow the checks of the service, one after the other
  cases hfind : db.uploads.find? fun upload ↦ call.Scopes upload with
  | none =>
    have hread : completeStatement ⟨db.uploads, audit, [], organizationOf⟩ call .closed .ready =
        some (⟨db.uploads, audit, [], organizationOf⟩, .closed,
          .rejecting "" "UPLOAD_NOT_FOUND") := by
      rw [completeStatement, hfind]
    exact .step hread (.rejecting haudit rfl (body_of_none hfind))
  | some upload =>
    have hmem := List.mem_of_find?_eq_some hfind
    have hscopes : call.Scopes upload := by
      have hfound := List.find?_some hfind
      exact of_decide_eq_true hfound
    have hbody : call.body head db = _ := body_of_some hfind
    have hread : completeStatement ⟨db.uploads, audit, [], organizationOf⟩ call .closed .ready =
        some (⟨db.uploads, audit, [upload.id], organizationOf⟩, .reading upload.id,
          .checking upload) := by
      rw [completeStatement, hfind]
      exact if_neg List.not_mem_nil
    refine .step hread (.step rfl ?_)
    rw [checkUpload]
    by_cases hallowed : ¬ MayUpload call.actor (kindFor upload)
    · rw [raiseIf_pos hallowed, error_bind] at hbody
      rw [if_pos hallowed]
      exact .rejecting haudit (filter_reading _) hbody
    rw [raiseIf_neg hallowed, ok_bind] at hbody
    rw [if_neg hallowed]
    by_cases hdigest : some call.sha256 ≠ upload.expectedSha256.map (·.text)
    · rw [raiseIf_pos hdigest, error_bind] at hbody
      rw [if_pos hdigest]
      exact .rejecting haudit (filter_reading _) hbody
    rw [raiseIf_neg hdigest, ok_bind] at hbody
    rw [if_neg hdigest]
    -- a repetition writes nothing
    by_cases hfinal : upload.finalizedAt ≠ none
    · rw [if_pos hfinal] at hbody ⊢
      have hservice := service_of_ok hbody
      refine ⟨audit, .repeated upload, ?_, ?_, ?_⟩
      · rw [hservice]
        refine .single ?_
        show some (UploadStore.mk db.uploads (audit ++ [])
          ([upload.id].filter fun id ↦ (UploadTransaction.reading upload.id).locked ≠ some id) _,
          _, _) = some _
        rw [filter_reading, List.append_nil]
      · rw [hservice]
        rfl
      · rw [hservice, haudit]
    rw [if_neg hfinal] at hbody ⊢
    by_cases hexpired : call.now ≥ upload.expiresAt
    · rw [raiseIf_pos hexpired, error_bind] at hbody
      rw [if_pos hexpired]
      exact .rejecting haudit (filter_reading _) hbody
    rw [raiseIf_neg hexpired, ok_bind] at hbody
    rw [if_neg hexpired]
    by_cases hunavailable : head = .unavailable
    · rw [raiseIf_pos hunavailable, error_bind] at hbody
      have hasked : completeStatement ⟨db.uploads, audit, [upload.id], organizationOf⟩ call
          (.reading upload.id) (.asking upload) =
            some (⟨db.uploads, audit, [upload.id], organizationOf⟩, .reading upload.id,
              .rejecting (kindFor upload) "STORAGE_UNAVAILABLE") := by
        rw [completeStatement, hhead, hunavailable]
      exact .step hasked (.rejecting haudit (filter_reading _) hbody)
    rw [raiseIf_neg hunavailable, ok_bind] at hbody
    have hanswered : completeStatement ⟨db.uploads, audit, [upload.id], organizationOf⟩ call
        (.reading upload.id) (.asking upload) =
          some (⟨db.uploads, audit, [upload.id], organizationOf⟩, .reading upload.id,
            .answered upload head) := by
      rw [completeStatement, hhead]
      cases head with
      | unavailable => exact absurd rfl hunavailable
      | missing => rfl
      | found sizeBytes clientSha256Metadata => rfl
    refine .step hanswered (.step rfl ?_)
    rw [compareObserved]
    -- the clock is read again once the storage has answered
    by_cases hlate : call.later ≥ upload.expiresAt
    · rw [raiseIf_pos hlate, error_bind] at hbody
      rw [if_pos hlate]
      exact .rejecting haudit (filter_reading _) hbody
    rw [raiseIf_neg hlate, ok_bind] at hbody
    rw [if_neg hlate]
    by_cases hmismatch : ¬ ∃ sizeBytes ∈ upload.sizeBytes,
        head = .found sizeBytes (upload.expectedSha256.map (·.text))
    · rw [raiseIf_pos hmismatch, error_bind] at hbody
      rw [if_pos hmismatch]
      exact .rejecting haudit (filter_reading _) hbody
    rw [raiseIf_neg hmismatch, ok_bind] at hbody
    rw [if_neg hmismatch]
    exact .saving hids haudit (hrequester upload hmem) hclock hid hmem hscopes hbody

end Alone

/-! ## 2. Any interleaving -/

section Runs

variable {W : Type*} [DecidableEq W] {start mid pool : Pool W UploadStore CompletePhase}

/-- Calls that have not begun, over any table with a primary key. -/
structure CompleteStart (calls : W → CompleteCall) (pool : Pool W UploadStore CompletePhase) :
    Prop where
  phases : ∀ w, pool.phase w = ⟨calls w, .closed, .ready⟩
  locked : pool.store.locked = []
  ids : (pool.store.uploads.map (·.id)).Nodup

omit [DecidableEq W] in
theorem CompleteStart.holds {calls : W → CompleteCall} (h : CompleteStart calls pool) :
    completionAssertions.Holds pool where
  shared := h.ids
  own w := by
    rw [h.phases w]
    exact ⟨fun id hid ↦ (nomatch hid), rfl⟩
  apart w v _ := by
    rw [h.phases w, h.phases v]
    exact ⟨fun id hid ↦ (nomatch hid), fun upload upload' hstage ↦ nomatch hstage⟩

theorem CompleteStart.holds_of_leads {calls : W → CompleteCall} (h : CompleteStart calls start)
    (hrun : completeProgram.Leads .all start pool) : completionAssertions.Holds pool :=
  complete_sound.leads (fun u _ ↦ Assertions.trivial_holds u) h.holds hrun

/-- A call that has an answer makes no other statement. -/
theorem completeStatement_of_result {store : UploadStore} {call : CompleteCall}
    {transaction : UploadTransaction} {stage : CompleteStage} (h : stage.result ≠ none) :
    completeStatement store call transaction stage = none := by
  cases stage with
  | completed upload => rfl
  | repeated upload => rfl
  | refused kind code => rfl
  | failed error => rfl
  | _ => exact absurd rfl h

/-- A call that has no answer can go on, unless the row it asks for is locked. -/
theorem completeStatement_waits {store : UploadStore} {call : CompleteCall}
    {transaction : UploadTransaction} {stage : CompleteStage} (h : stage.result = none) :
    (∃ next, completeStatement store call transaction stage = some next) ∨
      stage = .ready ∧ ∃ upload ∈ store.uploads, upload.id ∈ store.locked := by
  -- only the first statement asks for a lock that another call may hold
  cases stage with
  | ready =>
    cases hfind : store.uploads.find? fun upload ↦ call.Scopes upload with
    | none => exact Or.inl ⟨_, by rw [completeStatement, hfind]⟩
    | some upload =>
      by_cases hlocked : upload.id ∈ store.locked
      · exact Or.inr ⟨rfl, upload, List.mem_of_find?_eq_some hfind, hlocked⟩
      · refine Or.inl ?_
        rw [completeStatement, hfind]
        exact ⟨_, if_neg hlocked⟩
  | asking upload =>
    cases hhead : call.head with
    | error error => exact Or.inl ⟨_, by rw [completeStatement, hhead]⟩
    | ok head => cases head <;> exact Or.inl ⟨_, by rw [completeStatement, hhead]⟩
  | saving upload =>
    cases hfind : store.uploads.find? fun row ↦ row.id = upload.id with
    | none => exact Or.inl ⟨_, by rw [completeStatement, hfind]⟩
    | some row =>
      by_cases hother : row.organizationId ≠ upload.organizationId
      · refine Or.inl ?_
        rw [completeStatement, hfind]
        exact ⟨_, if_pos hother⟩
      · by_cases hrelated : store.organizationOf upload.requestedById ≠ upload.organizationId
        · refine Or.inl ?_
          rw [completeStatement, hfind]
          exact ⟨_, (if_neg hother).trans (if_pos hrelated)⟩
        · refine Or.inl ?_
          rw [completeStatement, hfind]
          exact ⟨_, (if_neg hother).trans (if_neg hrelated)⟩
  | recording upload =>
    by_cases hother : upload.organizationId ≠ call.actor.organizationId
    · exact Or.inl ⟨_, by rw [completeStatement, if_pos hother]⟩
    · exact Or.inl ⟨_, by rw [completeStatement, if_neg hother]⟩
  | checking upload => exact Or.inl ⟨_, rfl⟩
  | answered upload head => exact Or.inl ⟨_, rfl⟩
  | committing upload => exact Or.inl ⟨_, rfl⟩
  | leaving upload => exact Or.inl ⟨_, rfl⟩
  | rejecting kind code => exact Or.inl ⟨_, rfl⟩
  | rollingBack kind error => exact Or.inl ⟨_, rfl⟩
  | denying kind code => exact Or.inl ⟨_, rfl⟩
  | completed upload => cases h
  | repeated upload => cases h
  | refused kind code => cases h
  | failed error => cases h

/-- A call that has an answer stays as it is. -/
theorem answered_stays {w : W} (hrun : completeProgram.Leads .all mid pool)
    (h : (mid.phase w).stage.result ≠ none) : pool.phase w = mid.phase w := by
  refine hrun.keeps (fun u ↦ u.phase w = mid.phase w) (fun u e v _ hstep hu ↦ ?_) rfl
  cases e with
  | environment e => exact nomatch e
  | worker w' i =>
    obtain ⟨store, p, hcall, rfl⟩ := Program.step_worker hstep
    have hne : w ≠ w' := by
      rintro rfl
      have hnone := (completeProgram_call hcall).2
      rw [completeStatement_of_result (by rw [hu]; exact h)] at hnone
      cases hnone
    show Function.update u.phase w' p w = _
    rw [Function.update_of_ne hne]
    exact hu

/-- **What becomes of a row**: it stays as it is and no call completes it, or it was open and one
call has completed it meanwhile. -/
theorem complete_row (hmid : completionAssertions.Holds mid)
    (hrun : completeProgram.Leads .all mid pool) {row : UploadRequest}
    (hrow : row ∈ mid.store.uploads) :
    (row ∈ pool.store.uploads ∧ ∀ w upload, (pool.phase w).stage = .completed upload →
      upload.id = row.id → (mid.phase w).stage = .completed upload) ∨
    row.finalizedAt = none ∧ ∃ w, (mid.phase w).stage.result = none ∧
      (pool.phase w).stage = .completed ((pool.phase w).call.finalized row) := by
  induction hrun with
  | refl => exact Or.inl ⟨hrow, fun w upload hstage _ ↦ hstage⟩
  | @tail u v hu hstep ih =>
    have hholds := complete_sound.leads (fun u _ ↦ Assertions.trivial_holds u) hmid hu
    obtain ⟨e, -, he⟩ := hstep
    cases e with
    | environment e => exact nomatch e
    | worker w i =>
      obtain ⟨store, p, hcall, rfl⟩ := Program.step_worker he
      obtain ⟨heffect, -⟩ := completeProgram_meets hholds.shared (hholds.own w) hcall
      -- the worker that steps has no answer yet, so it is not the one that finalized
      have hunanswered : (u.phase w).stage.result = none := by
        by_contra hanswered
        have hnone := (completeProgram_call hcall).2
        rw [completeStatement_of_result hanswered] at hnone
        cases hnone
      rcases ih with ⟨hmem, hcompleted⟩ | ⟨hpending, v, hopen, hstage⟩
      · -- either the uploads stay, or this worker finalizes one of them
        rcases heffect.uploads with ⟨hsame, hnot⟩ | ⟨written, hfinalizes, -, hstage, hupdate⟩
        · refine Or.inl ⟨hsame ▸ hmem, fun v upload hstage hid ↦ ?_⟩
          change (Function.update u.phase w p v).stage = _ at hstage
          by_cases hv : v = w
          · subst hv
            rw [Function.update_self] at hstage
            exact absurd hstage (hnot upload)
          · rw [Function.update_of_ne hv] at hstage
            exact hcompleted v upload hstage hid
        · by_cases hid : row.id = written.id
          · obtain rfl := List.inj_on_of_nodup_map hholds.shared hmem hfinalizes.mem hid
            refine Or.inr ⟨hfinalizes.pending, w, ?_, ?_⟩
            · by_contra hanswered
              rw [← answered_stays hu hanswered] at hanswered
              exact hanswered hunanswered
            · show (Function.update u.phase w p w).stage =
                .completed ((Function.update u.phase w p w).call.finalized row)
              rw [Function.update_self, heffect.call]
              exact hstage
          · refine Or.inl ⟨?_, fun v upload hstage' hid' ↦ ?_⟩
            · show row ∈ store.uploads
              rw [hupdate]
              exact mem_updateFinalizedAt hmem hid
            · change (Function.update u.phase w p v).stage = _ at hstage'
              by_cases hv : v = w
              · subst hv
                rw [Function.update_self, hstage] at hstage'
                obtain rfl := CompleteStage.completed.inj hstage'
                exact absurd hid'.symm hid
              · rw [Function.update_of_ne hv] at hstage'
                exact hcompleted v upload hstage' hid'
      · have hv : v ≠ w := by
          rintro rfl
          rw [hstage] at hunanswered
          cases hunanswered
        refine Or.inr ⟨hpending, v, hopen, ?_⟩
        show (Function.update u.phase w p v).stage =
          .completed ((Function.update u.phase w p v).call.finalized row)
        rw [Function.update_of_ne hv]
        exact hstage

/-- Where a call stands that finds an upload finalised. -/
def Repeating (upload : UploadRequest) : CompleteStage → Prop
  | .ready => True
  | .checking upload' | .leaving upload' | .repeated upload' => upload' = upload
  | _ => False

/-- A call that finds an upload finalised writes nothing, and returns it. -/
theorem repeating_step {store store' : UploadStore} {call : CompleteCall}
    {transaction transaction' : UploadTransaction} {stage stage' : CompleteStage}
    {upload : UploadRequest} (hids : (store.uploads.map (·.id)).Nodup)
    (hmem : upload ∈ store.uploads) (hserves : call.Serves upload)
    (hfinal : upload.finalizedAt ≠ none) (hstage : Repeating upload stage)
    (h : completeStatement store call transaction stage = some (store', transaction', stage')) :
    Repeating upload stage' := by
  cases stage with
  | ready =>
    have hfind : store.uploads.find? (fun upload ↦ call.Scopes upload) = some upload := by
      refine Table.find?_eq_some hids hmem (decide_eq_true hserves.scopes) fun other hother ↦ ?_
      have hscopes : call.Scopes other := of_decide_eq_true hother
      exact hscopes.2.1.trans hserves.scopes.2.1.symm
    rw [completeStatement, hfind] at h
    by_cases hlocked : upload.id ∈ store.locked
    · cases (if_pos hlocked).symm.trans h
    · cases (if_neg hlocked).symm.trans h
      rfl
  | checking upload' =>
    have hsame : upload' = upload := hstage
    subst hsame
    have hleaves : checkUpload call upload' = .leaving upload' := by
      rw [checkUpload, if_neg (not_not.mpr hserves.allowed), if_neg (not_not.mpr hserves.digest),
        if_pos hfinal]
    rw [completeStatement, hleaves] at h
    cases h
    rfl
  | leaving upload' =>
    cases h
    exact hstage
  | repeated upload' => cases h
  | _ => exact hstage.elim

theorem repeating_leads {v : W} {upload : UploadRequest} (hmid : completionAssertions.Holds mid)
    (hrun : completeProgram.Leads .all mid pool) (hmem : upload ∈ mid.store.uploads)
    (hserves : (mid.phase v).call.Serves upload) (hfinal : upload.finalizedAt ≠ none)
    (hstage : Repeating upload (mid.phase v).stage) :
    upload ∈ pool.store.uploads ∧ Repeating upload (pool.phase v).stage := by
  induction hrun with
  | refl => exact ⟨hmem, hstage⟩
  | @tail u t hu hstep ih =>
    have hholds := complete_sound.leads (fun u _ ↦ Assertions.trivial_holds u) hmid hu
    have hcall : (u.phase v).call = (mid.phase v).call :=
      Program.LeadsWhen.phase_eq (fun hmoves ↦ (completeProgram_call hmoves).1) hu v
    obtain ⟨e, -, he⟩ := hstep
    cases e with
    | environment e => exact nomatch e
    | worker w i =>
      obtain ⟨store, p, hmoves, rfl⟩ := Program.step_worker he
      obtain ⟨heffect, -⟩ := completeProgram_meets hholds.shared (hholds.own w) hmoves
      refine ⟨heffect.row hholds.shared ih.1 (Or.inr hfinal), ?_⟩
      show Repeating upload (Function.update u.phase w p v).stage
      by_cases hv : v = w
      · subst hv
        rw [Function.update_self]
        exact repeating_step hholds.shared ih.1 (hcall ▸ hserves) hfinal ih.2
          (completeProgram_call hmoves).2
      · rw [Function.update_of_ne hv]
        exact ih.2

omit [DecidableEq W] in
/-- A call without an answer can go on, or waits for one that can. -/
theorem complete_goes_on (hholds : completionAssertions.Holds pool)
    (howned : ∀ id, (rowLock id).Holds pool) {w : W} (h : (pool.phase w).stage.result = none) :
    ∃ v next, (v = w ∨ ∃ id, (pool.phase v).transaction.locked = some id) ∧
      completeProgram.call pool.store (pool.phase v) () = some next := by
  have hgoes : ∀ v, (pool.phase v).stage.result = none →
      (pool.phase v).stage ≠ .ready → ∃ next, completeProgram.call pool.store (pool.phase v) () =
        some next := by
    intro v hv hready
    rcases completeStatement_waits hv with ⟨next, hnext⟩ | ⟨hwaits, -⟩
    · exact ⟨_, Option.map_eq_some_iff.mpr ⟨next, hnext, rfl⟩⟩
    · exact absurd hwaits hready
  rcases completeStatement_waits h with ⟨next, hnext⟩ | ⟨-, upload, -, hlocked⟩
  · exact ⟨w, _, Or.inl rfl, Option.map_eq_some_iff.mpr ⟨next, hnext, rfl⟩⟩
  · -- the transaction that holds the lock is open, so its call has neither begun nor ended
    obtain ⟨v, hv⟩ := howned upload.id hlocked
    have hv : (pool.phase v).transaction.locked = some upload.id := hv
    have hopen : ∀ stage, (pool.phase v).stage = stage →
        (pool.phase v).call.Knows pool.store (pool.phase v).transaction stage :=
      fun stage hstage ↦ hstage ▸ (hholds.own v).2
    have hclosed : (pool.phase v).transaction ≠ .closed := by
      intro hclosed
      rw [hclosed] at hv
      cases hv
    have hresult : (pool.phase v).stage.result = none := by
      cases hstage : (pool.phase v).stage with
      | completed upload => exact absurd (hopen _ hstage).2.2.2 hclosed
      | repeated upload => exact absurd (hopen _ hstage).2.2.2 hclosed
      | refused kind code => exact absurd (hopen _ hstage) hclosed
      | failed error => exact absurd (hopen _ hstage).2 hclosed
      | _ => rfl
    have hready : (pool.phase v).stage ≠ .ready := fun hstage ↦ hclosed (hopen _ hstage)
    obtain ⟨next, hnext⟩ := hgoes v hresult hready
    exact ⟨v, next, Or.inr ⟨_, hv⟩, hnext⟩

/-- What calls do between two moments, whatever else they do in between. -/
structure CompletesAtomically (calls : W → CompleteCall)
    (mid pool : Pool W UploadStore CompletePhase) : Prop where
  /-- The log grows by what the calls write in between, each entry by one of them. -/
  audit : ∃ added : List (W × RecordedEvent),
    pool.store.audit = mid.store.audit ++ added.map Prod.snd ∧
      ∀ w, (pool.phase w).written =
        (mid.phase w).written ++ (added.filter (·.1 = w)).map Prod.snd
  ids : pool.store.uploads.map (·.id) = mid.store.uploads.map (·.id)
  /-- A row stays as it is, or one call has completed it. -/
  rows : ∀ row ∈ mid.store.uploads,
    (row ∈ pool.store.uploads ∧ ∀ w upload, (pool.phase w).stage = .completed upload →
      upload.id = row.id → (mid.phase w).stage = .completed upload) ∨
    row.finalizedAt = none ∧ ∃ w, (mid.phase w).stage.result = none ∧
      (pool.phase w).stage = .completed ((calls w).finalized row) ∧
      (calls w).finalized row ∈ pool.store.uploads
  once : ∀ w v upload upload', (pool.phase w).stage = .completed upload →
    (pool.phase v).stage = .completed upload' → upload.id = upload'.id → w = v
  /-- No other statement writes to the table than the one that completes an open upload. -/
  changes : ∀ w next, completeProgram.step pool (.worker w ()) = some next →
    next.store.uploads = pool.store.uploads ∨
      ∃ row ∈ pool.store.uploads, row.finalizedAt = none ∧
        (next.phase w).stage = .completed ((calls w).finalized row) ∧
        next.store.uploads = updateFinalizedAt row.id (calls w).finalizedAt pool.store.uploads
  returned : ∀ w upload, (pool.phase w).stage.result = some (.ok upload) →
    upload ∈ pool.store.uploads ∧ (calls w).Serves upload ∧ upload.finalizedAt ≠ none
  /-- A call that begins when the same one has returned can only return the same upload. -/
  repeats : ∀ w v upload, (mid.phase w).stage.result = some (.ok upload) →
    (calls v).actor = (calls w).actor → (calls v).uploadId = (calls w).uploadId →
    (calls v).sha256 = (calls w).sha256 → (mid.phase v).stage = .ready →
    ∀ result, (pool.phase v).stage.result = some result →
      (pool.phase v).stage = .repeated upload
  failed : ∀ w error, (pool.phase w).stage = .failed error → (calls w).FailsWith pool.store error
  /-- A call without an answer can go on, or waits for the lock of one that can. -/
  goesOn : ∀ w, (pool.phase w).stage.result = none →
    ∃ v next, (v = w ∨ ∃ id, (pool.phase v).transaction.locked = some id) ∧
      completeProgram.step pool (.worker v ()) = some next

theorem CompleteCall.Serves.congr {call call' : CompleteCall} {upload : UploadRequest}
    (h : call.Serves upload) (hactor : call'.actor = call.actor)
    (hid : call'.uploadId = call.uploadId) (hsha256 : call'.sha256 = call.sha256) :
    call'.Serves upload := by
  refine ⟨?_, ?_, ?_⟩
  · show upload.organizationId = call'.actor.organizationId ∧ upload.id = call'.uploadId ∧
      (call'.actor.role ≠ .administrator → upload.requestedById = call'.actor.id)
    rw [hactor, hid]
    exact h.scopes
  · rw [hactor]
    exact h.allowed
  · rw [hsha256]
    exact h.digest

theorem CompleteStart.call {calls : W → CompleteCall} (h : CompleteStart calls start)
    (hrun : completeProgram.Leads .all start pool) (w : W) : (pool.phase w).call = calls w := by
  rw [Program.LeadsWhen.phase_eq (fun hmoves ↦ (completeProgram_call hmoves).1) hrun w, h.phases w]

/-- What a call has returned is a finalised row, which it serves. -/
theorem complete_returned {calls : W → CompleteCall} (hstart : CompleteStart calls start)
    (hrun : completeProgram.Leads .all start pool) {w : W} {upload : UploadRequest}
    (hresult : (pool.phase w).stage.result = some (.ok upload)) :
    upload ∈ pool.store.uploads ∧ (calls w).Serves upload ∧ upload.finalizedAt ≠ none := by
  have hended := ((hstart.holds_of_leads hrun).own w).2.ended hresult
  rw [hstart.call hrun w] at hended
  exact hended

theorem complete_ids (hmid : completionAssertions.Holds mid)
    (hrun : completeProgram.Leads .all mid pool) :
    pool.store.uploads.map (·.id) = mid.store.uploads.map (·.id) := by
  have hboth : completionAssertions.Holds pool ∧
      pool.store.uploads.map (·.id) = mid.store.uploads.map (·.id) := by
    refine hrun.keeps (fun u ↦ completionAssertions.Holds u ∧
      u.store.uploads.map (·.id) = mid.store.uploads.map (·.id)) ?_ ⟨hmid, rfl⟩
    rintro u e v hok hstep ⟨hu, hids⟩
    refine ⟨complete_sound.steps (Assertions.trivial_holds u) hu ⟨e, hok, hstep⟩, ?_⟩
    cases e with
    | environment e => exact nomatch e
    | worker w i =>
      obtain ⟨store, p, hmoves, rfl⟩ := Program.step_worker hstep
      exact (completeProgram_meets hu.shared (hu.own w) hmoves).1.ids.trans hids
  exact hboth.2

/-- A call that begins when the same one has returned can only return the same upload. -/
theorem complete_repeats {calls : W → CompleteCall} (hstart : CompleteStart calls start)
    (hbefore : completeProgram.Leads .all start mid) (hrun : completeProgram.Leads .all mid pool)
    {w v : W} {upload : UploadRequest} (hw : (mid.phase w).stage.result = some (.ok upload))
    (hactor : (calls v).actor = (calls w).actor) (hid : (calls v).uploadId = (calls w).uploadId)
    (hsha256 : (calls v).sha256 = (calls w).sha256) (hready : (mid.phase v).stage = .ready)
    {result : Except Raised UploadRequest} (hresult : (pool.phase v).stage.result = some result) :
    (pool.phase v).stage = .repeated upload := by
  obtain ⟨hmem, hserves, hfinal⟩ := complete_returned hstart hbefore hw
  have hserves' : (mid.phase v).call.Serves upload := by
    rw [hstart.call hbefore v]
    exact hserves.congr hactor hid hsha256
  have hstage : Repeating upload (mid.phase v).stage := by
    rw [hready]
    trivial
  obtain ⟨-, hrepeating⟩ :=
    repeating_leads (hstart.holds_of_leads hbefore) hrun hmem hserves' hfinal hstage
  cases hstage' : (pool.phase v).stage with
  | repeated upload' =>
    rw [hstage'] at hrepeating
    have hsame : upload' = upload := hrepeating
    rw [hsame]
  | completed upload' | refused kind code | failed error =>
    rw [hstage'] at hrepeating
    exact hrepeating.elim
  | _ =>
    rw [hstage'] at hresult
    cases hresult

/-- A locked row is locked by a call whose transaction is open. -/
theorem complete_owned {calls : W → CompleteCall} (hstart : CompleteStart calls start)
    (hrun : completeProgram.Leads .all start pool) (id : UUID) : (rowLock id).Holds pool := by
  refine (rowLock_sound id).leads (fun u hu ↦ hstart.holds_of_leads hu) ?_ hrun
  intro howed
  have hmem : id ∈ start.store.locked := howed
  rw [hstart.locked] at hmem
  exact absurd hmem List.not_mem_nil

/-- **Concurrent completions.**  Any number of calls on any uploads, in any interleaving: between
two moments, a call that is refused adds one denial and changes no row, one that completes an upload
finalises it once and adds one completion, and a repeated one changes and adds nothing. -/
theorem complete_concurrent {calls : W → CompleteCall} (hstart : CompleteStart calls start)
    (hbefore : completeProgram.Leads .all start mid) (hrun : completeProgram.Leads .all mid pool) :
    CompletesAtomically calls mid pool := by
  have hmid := hstart.holds_of_leads hbefore
  have hafter : completeProgram.Leads .all start pool := hbefore.trans hrun
  have hholds := hstart.holds_of_leads hafter
  refine ⟨?_, complete_ids hmid hrun, fun row hrow ↦ ?_, fun w v upload upload' hw hv hid ↦ ?_,
    fun w next hnext ↦ ?_, fun w upload hresult ↦ complete_returned hstart hafter hresult,
    fun w v upload hw hactor hid hsha256 hready result hresult ↦
      complete_repeats hstart hbefore hrun hw hactor hid hsha256 hready hresult,
    fun w error hstage ↦ ?_, fun w hw ↦ ?_⟩
  · exact completeLog_sound.leads (fun u hu ↦ hstart.holds_of_leads (hbefore.trans hu)) hrun
  · rcases complete_row hmid hrun hrow with hstays | ⟨hpending, w, hopen, hstage⟩
    · exact Or.inl hstays
    · rw [hstart.call hafter w] at hstage
      have hresult : (pool.phase w).stage.result = some (.ok ((calls w).finalized row)) := by
        rw [hstage]
        rfl
      exact Or.inr ⟨hpending, w, hopen, hstage, (complete_returned hstart hafter hresult).1⟩
  · by_contra hne
    exact (hholds.apart w v hne).2 upload upload' hw hv hid
  · obtain ⟨store, p, hmoves, rfl⟩ := Program.step_worker hnext
    obtain ⟨heffect, -⟩ := completeProgram_meets hholds.shared (hholds.own w) hmoves
    rcases heffect.uploads with ⟨hsame, -⟩ | ⟨row, hfinalizes, -, hstage, hupdate⟩
    · exact Or.inl hsame
    · rw [hstart.call hafter w] at hstage hupdate
      refine Or.inr ⟨row, hfinalizes.mem, hfinalizes.pending, ?_, hupdate⟩
      show (Function.update pool.phase w p w).stage = _
      rw [Function.update_self]
      exact hstage
  · have hknows := (hholds.own w).2
    rw [hstage, hstart.call hafter w] at hknows
    exact hknows.1
  · obtain ⟨v, next, hv, hnext⟩ := complete_goes_on hholds (complete_owned hstart hafter) hw
    refine ⟨v, ⟨next.1, Function.update pool.phase v next.2⟩, hv, ?_⟩
    show (completeProgram.call pool.store (pool.phase v) ()).map _ = _
    rw [hnext]
    rfl

end Runs

/-! ## 3. A sample -/

/-- An upload of three bytes by user 1. -/
def pendingUpload : UploadRequest :=
  uploadIntent ⟨⟨1⟩, ⟨2⟩, .issuer⟩ .issuance "application/pdf" ⟨0⟩ 3 ⟨7⟩ 0

/-- Two calls by the user who has requested the upload, and one by another user. -/
def competingCalls (w : Fin 3) : CompleteCall where
  actor := if w = 2 then ⟨⟨3⟩, ⟨2⟩, .issuer⟩ else ⟨⟨1⟩, ⟨2⟩, .issuer⟩
  uploadId := ⟨7⟩
  sha256 := Sha256.text ⟨0⟩
  now := 1
  later := 2
  finalizedAt := 3
  head := .ok (.found 3 (some (Sha256.text ⟨0⟩)))
  rejectionId := ⟨10⟩
  denialId := ⟨11⟩
  completionId := ⟨12⟩

def competingPool : Pool (Fin 3) UploadStore CompletePhase :=
  ⟨⟨[pendingUpload], [], [], fun _ ↦ ⟨2⟩⟩, fun w ↦ ⟨competingCalls w, .closed, .ready⟩⟩

/-- The first call completes the upload, the second waits for it and repeats it, and the third is
refused meanwhile. -/
theorem complete_concurrent_sample :
    ∃ pool, CompletesAtomically competingCalls competingPool pool ∧
      (pool.phase 0).stage = .completed { pendingUpload with finalizedAt := some 3 } ∧
      (pool.phase 1).stage = .repeated { pendingUpload with finalizedAt := some 3 } ∧
      (pool.phase 2).stage = .refused "" "UPLOAD_NOT_FOUND" ∧
      pool.store.audit.map (·.event) =
        [denialEvent ⟨⟨3⟩, ⟨2⟩, .issuer⟩ "upload.complete.denied" ⟨11⟩,
          uploadEvent ⟨⟨1⟩, ⟨2⟩, .issuer⟩ "upload.completed" ⟨7⟩ ⟨12⟩] := by
  have hstart : CompleteStart competingCalls competingPool :=
    ⟨fun _ ↦ rfl, rfl, List.nodup_singleton _⟩
  have hrun : ∃ pool, completeProgram.Leads .all competingPool pool ∧
      ((pool.phase 0).stage, (pool.phase 1).stage, (pool.phase 2).stage,
        pool.store.audit.map (·.event)) =
      (.completed { pendingUpload with finalizedAt := some 3 },
        .repeated { pendingUpload with finalizedAt := some 3 }, .refused "" "UPLOAD_NOT_FOUND",
        [denialEvent ⟨⟨3⟩, ⟨2⟩, .issuer⟩ "upload.complete.denied" ⟨11⟩,
          uploadEvent ⟨⟨1⟩, ⟨2⟩, .issuer⟩ "upload.completed" ⟨7⟩ ⟨12⟩]) :=
    Program.leads_of_exec_map
      (([0, 0, 2, 0, 2, 0, 2, 0, 0, 2, 0, 1, 1, 1] : List (Fin 3)).map fun w ↦ .worker w ())
      (by decide +kernel)
  obtain ⟨pool, hleads, hends⟩ := hrun
  simp only [Prod.mk.injEq] at hends
  exact ⟨pool, complete_concurrent hstart .refl hleads, hends⟩

end Splitbind
