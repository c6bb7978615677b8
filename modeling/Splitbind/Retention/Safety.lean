import Splitbind.Retention.Due

/-!
# Retention safety — no deletion of live data

In every reachable pool a cleanup run that deletes an object, or records that it has, does so for
a row whose jobs have ended long enough ago; and once the object of an upload that is not attached
is gone, no call attaches it any more.
-/

namespace Splitbind

open Transaction WorkerPool

namespace Platform

/-! ## 1. Open runs -/

/-- The cleanup run a worker is in. -/
def Phase.run : Phase → Option CleanupRun
  | .cleaning run => some run
  | .ordinary run _ => some run
  | .selected run _ => some run
  | .checking run _ _ _ => some run
  | .deleting run _ _ _ => some run
  | .deleted run _ _ => some run
  | .tried run => some run
  | .reconciling run _ => some run
  | .claimed run _ => some run
  | .attempted run _ _ => some run
  | _ => none

/-- The open transaction of a run, with the queries it has still to ask. -/
def Phase.asks : Phase → Option (CleanupRun × Candidate × LockedRecord × List JobQuery)
  | .checking run candidate record queries => some (run, candidate, record, queries)
  | .deleting run candidate record _ => some (run, candidate, record, [])
  | .deleted run candidate record => some (run, candidate, record, [])
  | _ => none

theorem Phase.opened_of_asks {p : Phase} {run : CleanupRun} {candidate : Candidate}
    {record : LockedRecord} {queries : List JobQuery}
    (h : p.asks = some (run, candidate, record, queries)) :
    p.opened = some (run, candidate, record) ∧ p.run = some run := by
  cases p <;> simp_all [Phase.asks, Phase.opened, Phase.run]

section Steps

variable {formats : FormatChecker} {settings : ServiceSettings} {store store' : Store}
  {p p' : Phase}

/-- A run keeps the time it has started at, which is not ahead of the clock. -/
theorem Stepped.run_now (h : Stepped formats settings store p store' p') {run' : CleanupRun}
    (hrun : p'.run = some run') :
    run'.now ≤ store.clock ∨ ∃ run, p.run = some run ∧ run'.now = run.now := by
  cases h with
  | began upload promotion audit p' hmem hfree hstatus hkey hdeleted hupload hp' =>
    rcases hp' with rfl | rfl <;> simp [Phase.run] at hrun
  | attached promotion ids locked sha256 job p' hfree hattaches hjob hp' =>
    rcases hp' with ⟨domainId, rfl⟩ | ⟨code, error, rfl⟩ <;> simp [Phase.run] at hrun
  | started run hnow =>
    simp only [Phase.run, Option.some.injEq] at hrun
    exact .inl (hrun ▸ hnow)
  | turned run next p p' hnow hp hp' =>
    have hbefore : p.run = some run := by
      rcases hp with rfl | ⟨fallback, rfl⟩ | ⟨candidate, rfl⟩ <;> rfl
    have hafter : p'.run = some next := by
      rcases hp' with ⟨fallback, rfl⟩ | ⟨fallback, rfl⟩ | ⟨candidate, rfl⟩ | rfl <;> rfl
    rw [hafter, Option.some.injEq] at hrun
    exact .inr ⟨run, hbefore, hrun ▸ hnow⟩
  | recorded run candidate record p' hp' | unclaimed run fallback token p' hp'
  | claimCleared run fallback token p' hexpired hp' | dropped run claim attempt p' hmatches hgone hp'
  | claimed run fallback token upload p' hfresh hmem hdeleted hexpired hp'
  | reconciled run claim attempt upload deletedAt p' hmatches hmem hfree hid hdeleted hp' =>
    rcases hp' with rfl | rfl <;> simp only [Phase.run, reduceCtorEq, Option.some.injEq] at hrun
    all_goals exact .inr ⟨run, rfl, by rw [← hrun]⟩
  | locked run | passed run | owned run | left run | deleted run | deletionFailed run | marked run
  | unattempted run | attempted run | ignored run =>
    simp only [Phase.run, Option.some.injEq] at hrun
    exact .inr ⟨run, rfl, by rw [← hrun]⟩
  | _ => simp [Phase.run] at hrun

/-- How far the queries of an open transaction are: none asked yet, as before, or one more. -/
theorem Stepped.asks_cases (h : Stepped formats settings store p store' p') :
    p'.asks = none ∨
      (∃ run candidate record, p'.asks =
        some (run, candidate, record, candidate.category.jobQueries)) ∨
      (p'.asks = p.asks ∧ store'.db = store.db ∧ store'.ended = store.ended) ∨
      ∃ run candidate record query queries, store' = store ∧
        p.asks = some (run, candidate, record, query :: queries) ∧
        p'.asks = some (run, candidate, record, queries) ∧
        candidate.passes query run.now store.db = true := by
  cases h with
  | attached promotion ids locked sha256 job p' hfree hattaches hjob hp' =>
    rcases hp' with ⟨domainId, rfl⟩ | ⟨code, error, rfl⟩ <;> exact .inl rfl
  | turned run run' p p' hnow hp hp' =>
    rcases hp' with ⟨fallback, rfl⟩ | ⟨fallback, rfl⟩ | ⟨candidate, rfl⟩ | rfl <;> exact .inl rfl
  | locked run candidate record => exact .inr (.inl ⟨run, candidate, record, rfl⟩)
  | passed run candidate record query queries hpasses =>
    exact .inr (.inr (.inr ⟨run, candidate, record, query, queries, rfl, rfl, rfl, hpasses⟩))
  | owned | deleted => exact .inr (.inr (.inl ⟨rfl, rfl, rfl⟩))
  | began _ _ _ _ _ _ _ _ _ _ hp' | recorded _ _ _ _ hp' | unclaimed _ _ _ _ hp'
  | claimCleared _ _ _ _ _ hp' | claimed _ _ _ _ _ _ _ _ _ hp' | dropped _ _ _ _ _ _ hp'
  | reconciled _ _ _ _ _ _ _ _ _ _ _ hp' =>
    rcases hp' with rfl | rfl <;> exact .inl rfl
  | _ => exact .inl rfl

/-- A run deletes the key that its locked row owns. -/
theorem Stepped.deleting (h : Stepped formats settings store p store' p') {run : CleanupRun}
    {candidate : Candidate} {record : LockedRecord} {key : ObjectKey}
    (hp' : p' = .deleting run candidate record key) :
    record.ownedKey candidate.category = some key := by
  cases h with
  | owned run' candidate' record' key' hkey =>
    simp only [Phase.deleting.injEq] at hp'
    obtain ⟨rfl, rfl, rfl, rfl⟩ := hp'
    exact hkey
  | attached promotion ids locked sha256 job p' hfree hattaches hjob hp =>
    rcases hp with ⟨domainId, rfl⟩ | ⟨code, error, rfl⟩ <;> simp at hp'
  | turned _ _ _ _ _ _ hp =>
    rcases hp with ⟨fallback, rfl⟩ | ⟨fallback, rfl⟩ | ⟨candidate, rfl⟩ | rfl <;> simp at hp'
  | began _ _ _ _ _ _ _ _ _ _ hp | recorded _ _ _ _ hp | unclaimed _ _ _ _ hp
  | claimCleared _ _ _ _ _ hp | claimed _ _ _ _ _ _ _ _ _ hp | dropped _ _ _ _ _ _ hp
  | reconciled _ _ _ _ _ _ _ _ _ _ _ hp =>
    rcases hp with rfl | rfl <;> simp at hp'
  | _ => simp at hp'

/-! ## 2. Tombstones -/

/-- A saved table has the saved row and the others. -/
theorem saved_row {rows : List UploadRequest} {before saved row row' : UploadRequest}
    (hunique : (rows.map (·.id)).Nodup) (hbefore : before ∈ rows) (hid : saved.id = before.id)
    (hmem : row ∈ rows) (hmem' : row' ∈ Table.save (·.id) rows saved) (hsame : row'.id = row.id) :
    (row = before ∧ row' = saved) ∨ row' = row := by
  rcases Table.mem_save hmem' with rfl | ⟨hold, -⟩
  · exact .inl ⟨List.inj_on_of_nodup_map hunique hmem hbefore (hsame.symm.trans hid), rfl⟩
  · exact .inr (List.inj_on_of_nodup_map hunique hold hmem hsame)

/-- A tombstone is set by the end of a cleanup run's deletion, and by nothing else. -/
theorem Stepped.tombstoned (h : Stepped formats settings store p store' p')
    (hkeyed : store.db.Keyed)
    (hopened : ∀ run candidate record, p.opened = some (run, candidate, record) →
      Holding store run candidate record) {row row' : UploadRequest}
    (hmem : row ∈ store.db.uploads) (hmem' : row' ∈ store'.db.uploads) (hid : row'.id = row.id)
    (hnone : row.promotionTargetDeletedAt = none)
    (hdeleted : row'.promotionTargetDeletedAt ≠ none) :
    ∃ run candidate, p = .deleted run candidate (.upload row) ∧
      candidate.category.field = .promotionTargetDeletedAt ∧
      row' = row.deleted .promotionTargetDeletedAt run.now := by
  -- a save that keeps the stamp is not the step that set it
  have hsaved : ∀ before saved, before ∈ store.db.uploads →
      row' ∈ Table.save (·.id) store.db.uploads saved → saved.id = before.id →
      saved.promotionTargetDeletedAt = before.promotionTargetDeletedAt → False := by
    intro before saved hbefore hrow hsame hkept
    rcases saved_row hkeyed.uploads hbefore hsame hmem hrow hid with ⟨rfl, rfl⟩ | rfl
    · exact hdeleted (hkept.trans hnone)
    · exact hdeleted hnone
  have hunchanged : row' ∈ store.db.uploads → False := by
    intro hrow
    obtain rfl := List.inj_on_of_nodup_map hkeyed.uploads hrow hmem hid
    exact hdeleted hnone
  -- only recording a deletion stamps a row, and it stamps the field of its category
  cases h with
  | began upload promotion audit p' hupload hfree hstatus hkey hfenced hpromoted =>
    have hsame : promotion.upload.id = upload.id := by rw [hpromoted]; rfl
    exact (hsaved upload _ hupload hmem' hsame (by rw [hpromoted]; rfl)).elim
  | attached promotion ids locked sha256 job p' hfree hattaches =>
    exact (hsaved locked _ hattaches.mem hmem' rfl rfl).elim
  | markedFailed promotion code error upload audit hupload =>
    exact (hsaved upload _ hupload hmem' rfl rfl).elim
  | orphanRecorded promotion domainId upload audit objects hupload =>
    exact (hsaved upload _ hupload hmem' rfl rfl).elim
  | reconciled run claim attempt upload deletedAt p' hmatches hupload =>
    exact (hsaved upload _ hupload hmem' rfl rfl).elim
  | recorded run candidate record p' hp' =>
    obtain ⟨-, hrecord, -⟩ := hopened run candidate record rfl
    cases record with
    | issuance issuance => exact (hunchanged hmem').elim
    | upload upload =>
      obtain ⟨hupload, -, -⟩ := record_upload hrecord
      have hsame : (upload.deleted candidate.category.field run.now).id = upload.id := by
        cases candidate.category.field <;> rfl
      rcases saved_row hkeyed.uploads hupload hsame hmem hmem' hid with ⟨rfl, rfl⟩ | rfl
      · cases hfield : candidate.category.field with
        | promotionTargetDeletedAt => exact ⟨run, candidate, rfl, hfield, rfl⟩
        | orphanDeletedAt => exact absurd hnone (by simpa [hfield, UploadRequest.deleted] using hdeleted)
        | outputDeletedAt =>
          cases hcategory : candidate.category <;>
            simp [hcategory, Category.field, Candidate.record] at hfield hrecord
      · exact absurd hnone hdeleted
  | _ => exact (hunchanged hmem').elim

/-- An output is marked deleted by the end of a cleanup run's deletion. -/
theorem Stepped.outputDeleted (h : Stepped formats settings store p store' p')
    (hkeyed : store.db.Keyed)
    (hopened : ∀ run candidate record, p.opened = some (run, candidate, record) →
      Holding store run candidate record) {row row' : Issuance}
    (hmem : row ∈ store.db.issuances) (hmem' : row' ∈ store'.db.issuances) (hid : row'.id = row.id)
    (hnone : row.outputDeletedAt = none) (hdeleted : row'.outputDeletedAt ≠ none) :
    ∃ run candidate, p = .deleted run candidate (.issuance row) := by
  have hunchanged : row' ∈ store.db.issuances → False := by
    intro hrow
    obtain rfl := List.inj_on_of_nodup_map hkeyed.issuances hrow hmem hid
    exact hdeleted hnone
  cases h with
  | attached promotion ids locked sha256 job p' hfree hattaches =>
    rcases List.mem_append.mp hmem' with hold | hnew
    · exact (hunchanged hold).elim
    · cases hrequest : promotion.request with
      | issuance recipient =>
        rw [hrequest] at hnew
        exact absurd (List.mem_singleton.mp hnew ▸ rfl) hdeleted
      | verification => simp [hrequest, DomainRequest.issuances] at hnew
  | recorded run candidate record p' hp' =>
    obtain ⟨-, hrecord, -⟩ := hopened run candidate record rfl
    cases record with
    | upload upload => exact (hunchanged hmem').elim
    | issuance issuance =>
      rcases Table.mem_save hmem' with rfl | ⟨hold, -⟩
      · obtain rfl := List.inj_on_of_nodup_map hkeyed.issuances (record_issuance hrecord).1 hmem hid
        exact ⟨run, candidate, rfl⟩
      · exact (hunchanged hold).elim
  | _ => exact (hunchanged hmem').elim

end Steps

/-! ## 3. What an open transaction may rely on -/

def dueAssertions : Assertions Store Phase where
  shared store := Ledger store.db ∧ EndedOk store ∧
    ∀ upload ∈ store.db.uploads, upload.promotionTargetDeletedAt ≠ none → Due store upload
  own store p := (∀ run, p.run = some run → run.now ≤ store.clock) ∧
    (∀ run candidate record queries, p.asks = some (run, candidate, record, queries) →
      ∃ done, candidate.category.jobQueries = done ++ queries ∧
        ∀ query ∈ done, Settled store run candidate query) ∧
    ∀ run candidate record key, p = .deleting run candidate record key →
      record.ownedKey candidate.category = some key
  apart _ _ := True

/-- The jobs are known to be terminal before their times are compared. -/
theorem allTerminal_before {category : Category} {done queries : List JobQuery}
    (h : category.jobQueries = done ++ .latestBefore :: queries) : .allTerminal ∈ done := by
  have hmem : ∀ {asked : List JobQuery}, asked = done ++ .latestBefore :: queries →
      asked.take 2 = [.exist, .allTerminal] → .allTerminal ∈ done := by
    intro asked heq hasked
    rcases done with _ | ⟨a, _ | ⟨b, rest⟩⟩
    · simp [heq] at hasked
    · simp [heq] at hasked
    · simp only [heq, List.cons_append, List.take_succ_cons, List.take_zero, List.cons.injEq,
        and_true] at hasked
      simp [hasked.2]
  cases category with
  | stalePromotion | orphan => simp [Category.jobQueries] at h
  | issuanceInput | verificationInput | issuanceOutput => exact hmem h rfl

section Runs

variable {formats : FormatChecker} {settings : ServiceSettings} {store store' : Store}
  {p p' : Phase}

theorem Change.uploads_back {free : Lock → Prop} {clock : Instant} {db db' : Database}
    (h : Change formats settings free clock db db') {row' : UploadRequest}
    (hmem : row' ∈ db'.uploads) (hdeleted : row'.promotionTargetDeletedAt ≠ none) :
    ∃ row ∈ db.uploads, row'.id = row.id := by
  cases h with
  | kept | outputDeleted => exact ⟨row', hmem, rfl⟩
  | created row logs hid hstatus hkey hnone =>
    rcases List.mem_append.mp hmem with hold | hnew
    · exact ⟨row', hold, rfl⟩
    · exact absurd (List.mem_singleton.mp hnew ▸ hnone) hdeleted
  | saved saved saved' logs hsaved hfree hchange =>
    rcases Table.mem_save hmem with rfl | ⟨hold, -⟩
    · exact ⟨saved, hsaved, hchange.id⟩
    · exact ⟨row', hold, rfl⟩
  | attached promotion ids locked sha256 job hfree hattaches =>
    rcases Table.mem_save hmem with rfl | ⟨hold, -⟩
    · exact ⟨locked, hattaches.mem, rfl⟩
    · exact ⟨row', hold, rfl⟩
  | worked job change result =>
    rw [Database.saveJob, WorkResult.apply_uploads] at hmem
    exact ⟨row', hmem, rfl⟩

/-- No event of the environment sets a tombstone. -/
theorem Happened.untombstoned (h : Happened formats settings store store')
    (hkeyed : store.db.Keyed) {row row' : UploadRequest} (hmem : row ∈ store.db.uploads)
    (hmem' : row' ∈ store'.db.uploads) (hid : row'.id = row.id)
    (hnone : row.promotionTargetDeletedAt = none) : row'.promotionTargetDeletedAt = none := by
  have hsame : row' ∈ store.db.uploads → row'.promotionTargetDeletedAt = none := by
    intro hrow
    obtain rfl := List.inj_on_of_nodup_map hkeyed.uploads hrow hmem hid
    exact hnone
  cases h with
  | changed db time hle hchange hjobs hissuances hsystem hschedule hrows =>
    exact (hrows row' hmem' row hmem hid).1.trans hnone
  | worked job change result =>
    simp only [Database.saveJob, WorkResult.apply_uploads] at hmem'
    exact hsame hmem'
  | ticked | landed | stored => exact hsame hmem'

/-- A tombstoned row after a step is due, if it was before and the new tombstones are. -/
theorem fenced_due (h : Advance formats settings store store') (hkeyed : store.db.Keyed)
    (hledger : Ledger store.db)
    (hdue : ∀ upload ∈ store.db.uploads, upload.promotionTargetDeletedAt ≠ none → Due store upload)
    (hnew : ∀ row ∈ store.db.uploads, ∀ row' ∈ store'.db.uploads, row'.id = row.id →
      row.promotionTargetDeletedAt = none → row'.promotionTargetDeletedAt ≠ none →
      Due store row ∧ row' = row.deleted .promotionTargetDeletedAt
        (row'.promotionTargetDeletedAt.getD 0)) :
    ∀ upload ∈ store'.db.uploads, upload.promotionTargetDeletedAt ≠ none → Due store' upload := by
  intro row' hmem' hdeleted
  have hkeyed' := h.change.keyed hkeyed
  have hledger' := h.change.ledger hkeyed hledger
  obtain ⟨row, hmem, hid⟩ := h.change.uploads_back hmem' hdeleted
  by_cases hnone : row.promotionTargetDeletedAt = none
  · obtain ⟨hrow, heq⟩ := hnew row hmem row' hmem' hid hnone hdeleted
    refine hrow.advance h hkeyed hkeyed' hledger hledger' hmem hmem' hid ?_ ?_ ?_ <;> rw [heq] <;>
      rfl
  · obtain ⟨kept, hkeptMem, hkept⟩ := h.change.uploads_kept hkeyed hmem
    obtain rfl := List.inj_on_of_nodup_map hkeyed'.uploads hkeptMem hmem'
      (hkept.id.trans hid.symm)
    obtain ⟨-, hstatus, hchanged⟩ := hkept.fenced hnone
    exact (hdue row hmem hnone).advance h hkeyed hkeyed' hledger hledger' hmem hmem' hid
      hkept.purpose hstatus hchanged

/-- The checks an open transaction has made stay true while it holds its row. -/
theorem settled_stays (h : Advance formats settings store store') (hkeyed : store.db.Keyed)
    (hledger : Ledger store.db) {run : CleanupRun} {candidate : Candidate}
    {record : LockedRecord} {query : JobQuery} (hquery : query ∈ candidate.category.jobQueries)
    (hbefore : Holding store run candidate record) (hafter : Holding store' run candidate record)
    (hsettled : Settled store run candidate query) : Settled store' run candidate query := by
  have hqueries : candidate.category.jobQueries ≠ [] := List.ne_nil_of_mem hquery
  obtain ⟨job, hjob⟩ := related_single hledger hkeyed hbefore.2.1 hbefore.2.2 hqueries
  obtain ⟨job', hjob'⟩ := related_single (h.change.ledger hkeyed hledger)
    (h.change.keyed hkeyed) hafter.2.1 hafter.2.2 hqueries
  exact hsettled.advance h hkeyed hjob hjob'

theorem dueAssertions_sound :
    Sound (program formats settings) .all lockAssertions dueAssertions where
  symm _ _ _ := trivial
  keeps {store p i store' p'} hkeyed hopened hshared hown _ hcall := by
    obtain ⟨hledger, hended, hdue⟩ := hshared
    obtain ⟨hnow, hasks, hkeys⟩ := hown
    have hstep : Stepped formats settings store p store' p' := call_stepped hcall
    have hchange := hstep.change hkeyed hopened
    have hadvance := hstep.advance hchange
    refine ⟨⟨hchange.ledger hkeyed hledger, hstep.endedOk hended,
      fenced_due hadvance hkeyed hledger hdue ?_⟩, fun run' hrun' ↦ ?_, ?_,
      fun run candidate record key hp' ↦ hstep.deleting hp'⟩
    · -- a row that was tombstoned now: the run had settled every query for it
      intro row hmem row' hmem' hid hnone hdeleted
      obtain ⟨run, candidate, rfl, hfield, heq⟩ :=
        hstep.tombstoned hkeyed hopened hmem hmem' hid hnone hdeleted
      obtain ⟨-, hrecord, heligible⟩ := hopened run candidate (.upload row) rfl
      obtain ⟨done, hdone, hsettled⟩ := hasks run candidate (.upload row) [] rfl
      rw [List.append_nil] at hdone
      refine ⟨due_of_settled hledger hkeyed hended (hnow run rfl) hrecord heligible hfield
        (hdone ▸ hsettled), ?_⟩
      rw [heq]
      rfl
    · rw [hstep.clock]
      rcases hstep.run_now hrun' with hle | ⟨run, hrun, heq⟩
      · exact hle
      · exact heq ▸ hnow run hrun
    · intro run candidate record queries hasks'
      -- the queries of a run begin, stay, or lose the one that passed
      rcases hstep.asks_cases with hnone | ⟨run₁, candidate₁, record₁, hnew⟩ |
        ⟨hsame, hdb, hendedSame⟩ | ⟨run₁, candidate₁, record₁, query, rest, rfl, hbefore, hafter,
          hpasses⟩
      · simp [hnone] at hasks'
      · rw [hnew] at hasks'
        simp only [Option.some.injEq, Prod.mk.injEq] at hasks'
        obtain ⟨rfl, rfl, rfl, rfl⟩ := hasks'
        exact ⟨[], rfl, by simp⟩
      · obtain ⟨done, hdone, hsettled⟩ := hasks run candidate record queries (hsame ▸ hasks')
        refine ⟨done, hdone, fun query hquery ↦ ?_⟩
        have hbefore := hsettled query hquery
        cases query <;> simpa only [Settled, hdb, hendedSame] using hbefore
      · rw [hafter] at hasks'
        simp only [Option.some.injEq, Prod.mk.injEq] at hasks'
        obtain ⟨rfl, rfl, rfl, rfl⟩ := hasks'
        obtain ⟨done, hdone, hsettled⟩ := hasks _ _ _ _ hbefore
        refine ⟨done ++ [query], by simp [hdone], fun other hother ↦ ?_⟩
        rcases List.mem_append.mp hother with hold | hlast
        · exact hsettled other hold
        · obtain rfl := List.mem_singleton.mp hlast
          refine settled_of_passes hkeyed hended hpasses fun hlatest ↦ ?_
          subst hlatest
          exact hsettled .allTerminal (allTerminal_before hdone)
  others {store p q i store' p'} hkeyed hopened hother hapart hshared _ hown _ _ hcall := by
    obtain ⟨hnow, hasks, hkeys⟩ := hown
    have hstep : Stepped formats settings store p store' p' := call_stepped hcall
    have hadvance := hstep.advance (hstep.change hkeyed hopened)
    -- the lock assertions tell that the row is still locked by its own run
    have hafter : lockAssertions.own store' q := (lockAssertions_sound.others trivial trivial
      trivial trivial hkeyed hopened hother hapart trivial hcall).1
    refine ⟨⟨fun run hrun ↦ (hnow run hrun).trans hadvance.clock, ?_, hkeys⟩, trivial⟩
    intro run candidate record queries hq
    obtain ⟨done, hdone, hsettled⟩ := hasks run candidate record queries hq
    obtain ⟨hopen, -⟩ := Phase.opened_of_asks hq
    refine ⟨done, hdone, fun query hquery ↦ ?_⟩
    exact settled_stays hadvance hkeyed hshared.1 (hdone ▸ List.mem_append_left _ hquery)
      (hother _ _ _ hopen) (hafter _ _ _ hopen) (hsettled query hquery)
  environment {store e store'} hkeyed hshared _ henv := by
    obtain ⟨hledger, hended, hdue⟩ := hshared
    have hhappened : Happened formats settings store store' := environment_happened hkeyed henv
    have hadvance := hhappened.advance hkeyed
    refine ⟨⟨hadvance.change.ledger hkeyed hledger, hhappened.endedOk hkeyed hended,
      fenced_due hadvance hkeyed hledger hdue ?_⟩, fun q hother hown ↦ ?_⟩
    · intro row hmem row' hmem' hid hnone hdeleted
      -- nothing outside a run tombstones a row
      exact absurd (hhappened.untombstoned hkeyed hmem hmem' hid hnone) hdeleted
    · obtain ⟨hnow, hasks, hkeys⟩ := hown
      have hafter : lockAssertions.own store' q :=
        (lockAssertions_sound.environment trivial hkeyed trivial henv).2 q trivial hother
      refine ⟨fun run hrun ↦ (hnow run hrun).trans hadvance.clock, ?_, hkeys⟩
      intro run candidate record queries hq
      obtain ⟨done, hdone, hsettled⟩ := hasks run candidate record queries hq
      obtain ⟨hopen, -⟩ := Phase.opened_of_asks hq
      refine ⟨done, hdone, fun query hquery ↦ ?_⟩
      exact settled_stays hadvance hkeyed hledger (hdone ▸ List.mem_append_left _ hquery)
        (hother _ _ _ hopen) (hafter _ _ _ hopen) (hsettled query hquery)

/-! ## 4. Removals -/

theorem apply_removes {outcome : DeleteOutcome} {objects : ObjectStore} {key key' : ObjectKey}
    (hbefore : objects key' ≠ none) (hafter : outcome.apply objects key key' = none) :
    key' = key := by
  by_contra hne
  refine hbefore ?_
  cases outcome with
  | failed => exact hafter
  | deleted | deletedThenFailed => exact (ObjectStore.delete_of_ne _ hne).symm.trans hafter

theorem orphanDeleted_removes {objects objects' : ObjectStore} {key : ObjectKey}
    (h : orphanDeleted objects objects') (hbefore : objects key ≠ none)
    (hafter : objects' key = none) :
    ∃ purpose organization object, key = .orphan purpose organization object := by
  rcases h with rfl | ⟨purpose, organization, object, rfl⟩
  · exact absurd hafter hbefore
  · refine ⟨purpose, organization, object, ?_⟩
    by_contra hne
    exact hbefore ((ObjectStore.delete_of_ne _ hne).symm.trans hafter)

/-- A worker's step removes an orphan, the object of a tombstoned target, or the object of the
deletion it is in. -/
theorem Stepped.removed (h : Stepped formats settings store p store' p') {key : ObjectKey}
    (hbefore : store.objects key ≠ none) (hafter : store'.objects key = none) :
    (∃ purpose organization object, key = .orphan purpose organization object) ∨
    (∃ upload ∈ store.db.uploads, upload.promotionTargetDeletedAt ≠ none ∧
      upload.promotionTargetKey = some key) ∨
    ∃ run candidate record, p = .deleting run candidate record key := by
  cases h with
  | copied promotion target content htarget =>
    by_cases heq : key = target
    · simp [heq] at hafter
    · exact absurd ((ObjectStore.put_of_ne _ _ heq).symm.trans hafter) hbefore
  | refenced promotion code error upload target outcome hmem hdeleted hkey =>
    exact .inr (.inl ⟨upload, hmem, hdeleted, apply_removes hbefore hafter ▸ hkey⟩)
  | attempted run claim upload target outcome hmem hid hdeleted hkey =>
    exact .inr (.inl ⟨upload, hmem, hdeleted, apply_removes hbefore hafter ▸ hkey⟩)
  | orphanRecorded promotion domainId upload audit objects hmem hfree hnone hobjects =>
    exact .inl (orphanDeleted_removes hobjects hbefore hafter)
  | orphanDeferred promotion domainId audit objects hobjects =>
    exact .inl (orphanDeleted_removes hobjects hbefore hafter)
  | deleted run candidate record target =>
    have heq : key = target := by
      by_contra hne
      exact hbefore ((ObjectStore.delete_of_ne _ hne).symm.trans hafter)
    exact .inr (.inr ⟨run, candidate, record, by rw [heq]⟩)
  | deletionFailed run candidate record target outcome =>
    exact .inr (.inr ⟨run, candidate, record, by rw [apply_removes hbefore hafter]⟩)
  | _ => exact absurd hafter hbefore

/-- No event of the environment removes a promoted object. -/
theorem Happened.removed (h : Happened formats settings store store') {key : ObjectKey}
    (hbefore : store.objects key ≠ none) (hafter : store'.objects key = none) :
    isPromoted key = false := by
  cases h with
  | landed target content =>
    by_cases heq : key = target
    · simp [heq] at hafter
    · exact absurd ((ObjectStore.put_of_ne _ _ heq).symm.trans hafter) hbefore
  | stored target content htarget =>
    by_cases heq : key = target
    · exact heq ▸ htarget
    · exact absurd (by simpa [heq] using hafter) hbefore
  | _ => exact absurd hafter hbefore

/-- The row that owns a promoted-input key. -/
theorem ownedKey_promoted {record : LockedRecord} {category : Category} {kind : JobKind}
    {organization id : UUID}
    (h : record.ownedKey category = some (.promotedInput kind organization id)) :
    ∃ row, record = .upload row ∧ row.id = id ∧
      category.field = .promotionTargetDeletedAt := by
  cases record with
  | upload row =>
    simp only [LockedRecord.ownedKey, Option.filter_eq_some_iff] at h
    refine ⟨row, rfl, ?_⟩
    cases category <;> simp_all [keyIsOwned, Category.field]
  | issuance row => simp [LockedRecord.ownedKey, Option.filter_eq_some_iff, outputKeyIsOwned] at h

/-- The row that owns an output key. -/
theorem ownedKey_output {record : LockedRecord} {category : Category} {organization id : UUID}
    {extension : OutputExtension}
    (h : record.ownedKey category = some (.issuanceOutput organization id extension)) :
    ∃ row, record = .issuance row ∧ row.id = id ∧ row.organizationId = organization := by
  cases record with
  | upload row =>
    simp only [LockedRecord.ownedKey, Option.filter_eq_some_iff] at h
    cases category <;> simp [keyIsOwned] at h
  | issuance row =>
    simp only [LockedRecord.ownedKey, Option.filter_eq_some_iff, outputKeyIsOwned,
      Bool.and_eq_true, decide_eq_true_eq] at h
    exact ⟨row, rfl, h.2.2.symm, h.2.1.symm⟩

variable {W : Type*} [DecidableEq W] {pool pool' : Pool W}

omit [DecidableEq W] in
theorem Start.dueHold {pool : Pool W} (h : Start pool) (hledger : Ledger pool.store.db) :
    dueAssertions.Holds pool where
  shared := by
    refine ⟨hledger, ⟨by simp [h.jobs], by simp [h.ended]⟩, fun upload hmem hdeleted ↦ ?_⟩
    exact absurd (h.uploads upload hmem).2.2.1 hdeleted
  own w := by
    rw [h.idle w]
    exact ⟨by simp [Phase.run], by simp [Phase.asks], by simp⟩
  apart _ _ _ := trivial

theorem Reachable.dueHold (h : Reachable formats settings pool) : dueAssertions.Holds pool := by
  obtain ⟨start, hstart, hleads⟩ := h
  have hreachable : Reachable formats settings start :=
    ⟨start, hstart, (.refl : (program formats settings).Leads .all start start)⟩
  have hledger := hreachable.ledger
  exact dueAssertions_sound.leads (fun u hu ↦ locks_leads hstart.locks hu)
    (hstart.dueHold hledger) hleads

/-- An upload whose tombstone is set by a step, or whose promoted object a step removes. -/
def RemovesPromoted (store store' : Store) (upload : UploadRequest) : Prop :=
  (upload.promotionTargetDeletedAt = none ∧ ∃ upload' ∈ store'.db.uploads,
      upload'.id = upload.id ∧ upload'.promotionTargetDeletedAt ≠ none) ∨
    ∃ key, upload.promotionTargetKey = some key ∧ store.objects key ≠ none ∧
      store'.objects key = none

omit [DecidableEq W] in
/-- The deletion a worker is in, where it concerns a promoted object. -/
theorem deletion_due (hlocks : lockAssertions.Holds pool) (hdue : dueAssertions.Holds pool) {w : W}
    {run : CleanupRun} {candidate : Candidate} {upload : UploadRequest}
    (hasks : (pool.phase w).asks = some (run, candidate, .upload upload, []))
    (hfield : candidate.category.field = .promotionTargetDeletedAt) : Due pool.store upload := by
  obtain ⟨hopen, hrun⟩ := Phase.opened_of_asks hasks
  obtain ⟨-, hrecord, heligible⟩ := hlocks.own w _ _ _ hopen
  obtain ⟨hledger, hended, -⟩ := hdue.shared
  obtain ⟨hnow, hdone, -⟩ := hdue.own w
  obtain ⟨done, hqueries, hsettled⟩ := hdone _ _ _ _ hasks
  rw [List.append_nil] at hqueries
  exact due_of_settled hledger hlocks.shared hended (hnow run hrun) hrecord heligible hfield
    (hqueries ▸ hsettled)

omit [DecidableEq W] in
theorem output_deletion_due (hlocks : lockAssertions.Holds pool) (hdue : dueAssertions.Holds pool)
    {w : W} {run : CleanupRun} {candidate : Candidate} {issuance : Issuance}
    (hasks : (pool.phase w).asks = some (run, candidate, .issuance issuance, [])) :
    OutputDue pool.store issuance := by
  obtain ⟨hopen, hrun⟩ := Phase.opened_of_asks hasks
  obtain ⟨-, hrecord, -⟩ := hlocks.own w _ _ _ hopen
  obtain ⟨hnow, hdone, -⟩ := hdue.own w
  obtain ⟨done, hqueries, hsettled⟩ := hdone _ _ _ _ hasks
  rw [List.append_nil] at hqueries
  exact outputDue_of_settled hdue.shared.2.1 (hnow run hrun) hrecord (hqueries ▸ hsettled)

/-- The row a deletion of a target is about. -/
theorem deleting_target (h : Reachable formats settings pool) {w : W} {run : CleanupRun}
    {candidate : Candidate} {record : LockedRecord} {key : ObjectKey} {upload : UploadRequest}
    (hphase : pool.phase w = .deleting run candidate record key)
    (hmem : upload ∈ pool.store.db.uploads) (hkey : upload.promotionTargetKey = some key) :
    record = .upload upload ∧ candidate.category.field = .promotionTargetDeletedAt := by
  have hlocks := h.locks
  obtain rfl := (h.objectsHold.shared.1 upload hmem).2 key hkey
  obtain ⟨row, rfl, hid, hfield⟩ := ownedKey_promoted ((h.dueHold.own w).2.2 _ _ _ _ hphase)
  obtain ⟨-, hrecord, -⟩ := hlocks.own w run candidate (.upload row) (by rw [hphase]; rfl)
  obtain rfl := List.inj_on_of_nodup_map hlocks.shared.uploads (record_upload hrecord).1 hmem hid
  exact ⟨rfl, hfield⟩

/-- No two uploads have one target. -/
theorem same_target (h : Reachable formats settings pool) {upload other : UploadRequest}
    (hmem : upload ∈ pool.store.db.uploads) (hother : other ∈ pool.store.db.uploads)
    {key : ObjectKey} (hkey : upload.promotionTargetKey = some key)
    (hotherKey : other.promotionTargetKey = some key) : upload = other := by
  have htarget := (h.objectsHold.shared.1 upload hmem).2 key hkey
  have hotherTarget := (h.objectsHold.shared.1 other hother).2 key hotherKey
  simp only [htarget, UploadRequest.target, promotedInputKey,
    ObjectKey.promotedInput.injEq] at hotherTarget
  exact List.inj_on_of_nodup_map h.locks.shared.uploads hmem hother hotherTarget.2.2

/-- A removal is due. -/
theorem removed_due (h : Reachable formats settings pool)
    {event : WorkerPool.Event W Input Event}
    (hstep : (program formats settings).step pool event = some pool') {upload : UploadRequest}
    (hmem : upload ∈ pool.store.db.uploads)
    (hremoves : RemovesPromoted pool.store pool'.store upload) : Due pool.store upload := by
  have hlocks := h.locks
  have hdue := h.dueHold
  rcases step_cases hlocks hstep with ⟨w, input, -, hstepped⟩ | ⟨-, hhappened, -⟩
  · rcases hremoves with ⟨hnone, upload', hmem', hid, hdeleted⟩ | ⟨key, hkey, hbefore, hafter⟩
    · obtain ⟨run, candidate, hphase, hfield, -⟩ := hstepped.tombstoned hlocks.shared (hlocks.own w)
        hmem hmem' hid hnone hdeleted
      exact deletion_due hlocks hdue (by rw [hphase]; rfl) hfield
    · rcases hstepped.removed hbefore hafter with ⟨purpose, organization, object, rfl⟩ |
        ⟨other, hother, hdeleted, hotherKey⟩ | ⟨run, candidate, record, hphase⟩
      · have htarget := (h.objectsHold.shared.1 upload hmem).2 _ hkey
        simp [UploadRequest.target, promotedInputKey] at htarget
      · obtain rfl := same_target h hmem hother hkey hotherKey
        exact hdue.shared.2.2 upload hmem hdeleted
      · obtain ⟨rfl, hfield⟩ := deleting_target h hphase hmem hkey
        exact deletion_due hlocks hdue (by rw [hphase]; rfl) hfield
  · rcases hremoves with ⟨hnone, upload', hmem', hid, hdeleted⟩ | ⟨key, hkey, hbefore, hafter⟩
    · exact absurd (hhappened.untombstoned hlocks.shared hmem hmem' hid hnone) hdeleted
    · have hpromoted := hhappened.removed hbefore hafter
      rw [(h.objectsHold.shared.1 upload hmem).2 key hkey] at hpromoted
      simp [UploadRequest.target, promotedInputKey, isPromoted] at hpromoted

/-- A deletion of an output by a worker is due. -/
theorem output_removed_due (h : Reachable formats settings pool) {w : W} {input : Input}
    (hstep : (program formats settings).step pool (.worker w input) = some pool') :
    (∀ issuance ∈ pool.store.db.issuances, issuance.outputDeletedAt = none →
      (∃ issuance' ∈ pool'.store.db.issuances, issuance'.id = issuance.id ∧
        issuance'.outputDeletedAt ≠ none) → OutputDue pool.store issuance) ∧
    ∀ organization id extension,
      pool.store.objects (.issuanceOutput organization id extension) ≠ none →
      pool'.store.objects (.issuanceOutput organization id extension) = none →
      ∃ issuance ∈ pool.store.db.issuances, issuance.id = id ∧
        issuance.organizationId = organization ∧ OutputDue pool.store issuance := by
  have hlocks := h.locks
  have hdue := h.dueHold
  obtain ⟨store, p, hcall, rfl⟩ := Program.step_worker hstep
  have hstepped : Stepped formats settings pool.store (pool.phase w) store p := call_stepped hcall
  constructor
  · rintro issuance hmem hnone ⟨issuance', hmem', hid, hdeleted⟩
    obtain ⟨run, candidate, hphase⟩ :=
      hstepped.outputDeleted hlocks.shared (hlocks.own w) hmem hmem' hid hnone hdeleted
    exact output_deletion_due hlocks hdue (by rw [hphase]; rfl)
  · intro organization id extension hbefore hafter
    rcases hstepped.removed hbefore hafter with ⟨_, _, _, horphan⟩ |
      ⟨upload, hmem, -, hkey⟩ | ⟨run, candidate, record, hphase⟩
    · simp at horphan
    · have htarget := (h.objectsHold.shared.1 upload hmem).2 _ hkey
      simp [UploadRequest.target, promotedInputKey] at htarget
    · obtain ⟨issuance, rfl, hid, horganization⟩ :=
        ownedKey_output ((hdue.own w).2.2 _ _ _ _ hphase)
      obtain ⟨-, hrecord, -⟩ := hlocks.own w run candidate (.issuance issuance)
        (by rw [hphase]; rfl)
      exact ⟨issuance, (record_issuance hrecord).1, hid, horganization,
        output_deletion_due hlocks hdue (by rw [hphase]; rfl)⟩

/-! ## 5. No attach afterwards -/

/-- A deletion that the storage has made is also recorded. -/
def CarriedOut (pool : Pool W) : WorkerPool.Event W Input Event → Prop
  | .worker w input => input ≠ .delete .deletedThenFailed ∧
      (input = .crash ∨ input = .record .rolledBack →
        ∀ run candidate record, pool.phase w ≠ .deleted run candidate record)
  | .environment _ => True

/-- The promotion of an upload is over, or about to be ended by the deletion of its target. -/
def Settling (pool : Pool W) (upload : UploadRequest) : Prop :=
  upload.promotionTargetDeletedAt ≠ none ∨ upload.promotionStatus = .attached ∨
    upload.promotionStatus = .failed ∨
    ∃ w run candidate, pool.phase w = .deleted run candidate (.upload upload) ∧
      candidate.category.field = .promotionTargetDeletedAt

/-- An attach that commits needs the lock of its upload. -/
theorem Change.committed {free : Lock → Prop} {clock : Instant} {db db' : Database}
    {promotion : PromotionCall} (h : Change formats settings free clock db db')
    (hkeyed : db.Keyed) (hcommitted : Committed promotion db db') :
    free (.upload promotion.upload.id) ∧ db'.jobs.length = db.jobs.length + 1 := by
  obtain ⟨upload, hmem, upload', hmem', hid, hsame, hcopying, -, hattached⟩ := hcommitted
  have hunchanged : upload' ∈ db.uploads → False := by
    intro hrow
    obtain rfl := List.inj_on_of_nodup_map hkeyed.uploads hrow hmem hsame
    simp [hattached] at hcopying
  cases h with
  | kept | outputDeleted => exact absurd hmem' hunchanged
  | created row logs hfresh hstatus =>
    rcases List.mem_append.mp hmem' with hold | hnew
    · exact absurd hold hunchanged
    · simp [List.mem_singleton.mp hnew, hstatus] at hattached
  | saved before saved logs hbefore hfree hchange =>
    rcases saved_row hkeyed.uploads hbefore hchange.id hmem hmem' hsame with ⟨rfl, rfl⟩ | rfl
    · simp [hchange.attached hattached] at hcopying
    · exact absurd hmem hunchanged
  | attached call ids locked sha256 job hfree hattaches =>
    have hlocked : (locked.promoted .attached none clock).id = locked.id := rfl
    rcases saved_row hkeyed.uploads hattaches.mem hlocked hmem hmem' hsame with ⟨rfl, -⟩ | rfl
    · exact ⟨hid ▸ hfree, by simp [attachedDatabase]⟩
    · exact absurd hmem hunchanged
  | worked job change result =>
    rw [Database.saveJob, WorkResult.apply_uploads] at hmem'
    exact absurd hmem' hunchanged

theorem step_committed_free (hlocks : lockAssertions.Holds pool)
    {event : WorkerPool.Event W Input Event}
    (hstep : (program formats settings).step pool event = some pool') {promotion : PromotionCall}
    (hcommitted : Committed promotion pool.store.db pool'.store.db) :
    .upload promotion.upload.id ∉ pool.store.locked := by
  rcases step_cases hlocks hstep with ⟨w, input, -, hstepped⟩ | ⟨-, hhappened, -⟩
  · obtain ⟨hfree, hadded⟩ :=
      (hstepped.change hlocks.shared (hlocks.own w)).committed hlocks.shared hcommitted
    rcases hstepped.jobs with hjobs | ⟨call, hphase, -⟩
    · rw [hjobs] at hadded
      omega
    · exact hfree.resolve_right (by simp [hphase, Phase.lock])
  · exact ((hhappened.change hlocks.shared).committed hlocks.shared hcommitted).1

/-- While the promotion of an upload is settling, no attach of it commits. -/
theorem settling_not_committed (hlocks : lockAssertions.Holds pool)
    {event : WorkerPool.Event W Input Event}
    (hstep : (program formats settings).step pool event = some pool') {upload : UploadRequest}
    (hmem : upload ∈ pool.store.db.uploads) (hsettling : Settling pool upload)
    {promotion : PromotionCall} (hid : promotion.upload.id = upload.id) :
    ¬ Committed promotion pool.store.db pool'.store.db := by
  intro hcommitted
  have hfree := step_committed_free hlocks hstep hcommitted
  obtain ⟨other, hother, -, -, hotherId, -, hcopying, hnone, -⟩ := hcommitted
  obtain rfl := List.inj_on_of_nodup_map hlocks.shared.uploads hother hmem (hotherId.trans hid)
  rcases hsettling with hdeleted | hattached | hfailed | ⟨w, run, candidate, hphase, hfield⟩
  · exact hdeleted hnone
  · simp [hattached] at hcopying
  · simp [hfailed] at hcopying
  · obtain ⟨hlocked, hrecord, -⟩ := hlocks.own w run candidate (.upload other)
      (by rw [hphase]; rfl)
    obtain ⟨-, hpk, hlock⟩ := record_upload hrecord
    rw [hlock, ← hpk, ← hid] at hlocked
    exact hfree hlocked

/-- A deletion that is carried out keeps the promotion settling. -/
theorem settling_step (hlocks : lockAssertions.Holds pool)
    {event : WorkerPool.Event W Input Event}
    (hstep : (program formats settings).step pool event = some pool')
    (hcarried : CarriedOut pool event) {upload : UploadRequest}
    (hmem : upload ∈ pool.store.db.uploads) (hsettling : Settling pool upload) :
    ∃ upload' ∈ pool'.store.db.uploads, upload'.id = upload.id ∧ Settling pool' upload' := by
  obtain ⟨upload', hmem', hkept⟩ := (step_change hlocks hstep).uploads_kept hlocks.shared hmem
  rcases hsettling with hdeleted | hattached | hfailed | ⟨w, run, candidate, hphase, hfield⟩
  · exact ⟨upload', hmem', hkept.id, .inl ((hkept.fenced hdeleted).1 ▸ hdeleted)⟩
  · exact ⟨upload', hmem', hkept.id, .inr (.inl (hkept.attached hattached))⟩
  · exact ⟨upload', hmem', hkept.id, .inr (.inr (.inl (hkept.failed hfailed)))⟩
  · have hlocks' : lockAssertions.Holds pool' :=
      locks_leads hlocks (.single ⟨event, Program.Allowed.all_permits pool event, hstep⟩)
    -- while the worker stays where it is, its lock keeps the row
    have hstays : pool'.phase w = pool.phase w →
        ∃ upload' ∈ pool'.store.db.uploads, upload'.id = upload.id ∧ Settling pool' upload' := by
      intro hsame
      obtain ⟨-, hrecord, -⟩ := hlocks'.own w run candidate (.upload upload)
        (by rw [hsame, hphase]; rfl)
      exact ⟨upload, (record_upload hrecord).1, rfl,
        .inr (.inr (.inr ⟨w, run, candidate, hsame.trans hphase, hfield⟩))⟩
    cases event with
    | environment e =>
      obtain ⟨store, -, rfl⟩ := Program.step_environment hstep
      exact hstays rfl
    | worker v input =>
      obtain ⟨store, p, hcall, rfl⟩ := Program.step_worker hstep
      by_cases hv : w = v
      · subst hv
        obtain ⟨-, hrecord, -⟩ := hlocks.own w run candidate (.upload upload)
          (by rw [hphase]; rfl)
        have hcall : call formats settings pool.store (.deleted run candidate (.upload upload))
            input = some (store, p) := hphase ▸ hcall
        -- its own step records the deletion: a crash and a rollback are not carried out
        have hrecorded : store.db = recordDeletionEvidence candidate (.upload upload) run.now
            pool.store.db := by
          cases input with
          | record fault =>
            cases fault with
            | rolledBack => exact absurd hphase (hcarried.2 (.inr rfl) _ _ _)
            | none | acknowledgementLost =>
              simp only [call, Option.some.injEq] at hcall
              exact (congrArg (fun s : Store × Phase ↦ s.1.db) hcall).symm
          | crash => exact absurd hphase (hcarried.2 (.inl rfl) _ _ _)
          | _ => simp [call] at hcall
        refine ⟨upload.deleted .promotionTargetDeletedAt run.now, ?_, rfl, .inl (by
          simp [UploadRequest.deleted])⟩
        rw [hrecorded, recordDeletionEvidence, hfield]
        exact Table.mem_save_self (record_upload hrecord).1 rfl
      · exact hstays (by simp [hv])

/-! ## 6. Retention never deletes live data -/

theorem removal_settling (h : Reachable formats settings pool)
    {event : WorkerPool.Event W Input Event}
    (hstep : (program formats settings).step pool event = some pool')
    (hcarried : CarriedOut pool event) {upload : UploadRequest}
    (hmem : upload ∈ pool.store.db.uploads)
    (hremoves : RemovesPromoted pool.store pool'.store upload) :
    ∃ upload' ∈ pool'.store.db.uploads, upload'.id = upload.id ∧ Settling pool' upload' := by
  have hlocks := h.locks
  obtain ⟨upload', hmem', hkept⟩ := (step_change hlocks hstep).uploads_kept hlocks.shared hmem
  by_cases hover : upload.promotionTargetDeletedAt ≠ none ∨ upload.promotionStatus = .attached ∨
      upload.promotionStatus = .failed
  · -- a row that is already settled stays settled whatever the step does
    exact settling_step hlocks hstep hcarried hmem (hover.imp_right (Or.imp_right .inl))
  rw [not_or, not_not] at hover
  -- either the step fenced the row itself or it took the object away
  rcases hremoves with ⟨-, fenced, hfenced, hid, hdeleted⟩ | ⟨key, hkey, hbefore, hafter⟩
  · exact ⟨fenced, hfenced, hid, .inl hdeleted⟩
  cases event with
  | environment e =>
    obtain ⟨store, henv, rfl⟩ := Program.step_environment hstep
    have hhappened : Happened formats settings pool.store store :=
      environment_happened hlocks.shared henv
    have hpromoted := hhappened.removed hbefore hafter
    rw [(h.objectsHold.shared.1 upload hmem).2 key hkey] at hpromoted
    simp [UploadRequest.target, promotedInputKey, isPromoted] at hpromoted
  | worker w input =>
    obtain ⟨store, p, hcall, rfl⟩ := Program.step_worker hstep
    have hstepped : Stepped formats settings pool.store (pool.phase w) store p :=
      call_stepped hcall
    -- only the owning row's deletion can take a promoted object away
    rcases hstepped.removed hbefore hafter with ⟨purpose, organization, object, rfl⟩ |
      ⟨other, hother, hdeleted, hotherKey⟩ | ⟨run, candidate, record, hphase⟩
    · have htarget := (h.objectsHold.shared.1 upload hmem).2 _ hkey
      simp [UploadRequest.target, promotedInputKey] at htarget
    · obtain rfl := same_target h hmem hother hkey hotherKey
      exact absurd hover.1 hdeleted
    · obtain ⟨rfl, hfield⟩ := deleting_target h hphase hmem hkey
      have hcall : call formats settings pool.store
          (.deleting run candidate (.upload upload) key) input = some (store, p) := hphase ▸ hcall
      -- the deletion's own outcome decides where the worker stands next
      cases input with
      | delete outcome =>
        cases outcome with
        | deleted =>
          simp only [call, deleteCandidate, if_pos, Option.some.injEq, Prod.mk.injEq] at hcall
          obtain ⟨rfl, rfl⟩ := hcall
          exact ⟨upload, hmem, rfl, .inr (.inr (.inr ⟨w, run, candidate, by simp, hfield⟩))⟩
        | deletedThenFailed => exact absurd rfl hcarried.1
        | failed =>
          simp only [call, deleteCandidate, reduceCtorEq, if_false, Option.some.injEq,
            Prod.mk.injEq] at hcall
          obtain ⟨rfl, rfl⟩ := hcall
          exact absurd hafter hbefore
      | crash =>
        simp only [call, Option.some.injEq, Prod.mk.injEq] at hcall
        obtain ⟨rfl, rfl⟩ := hcall
        exact absurd hafter hbefore
      | _ => simp [call] at hcall

/-- No step of a reachable pool sets the tombstone of an upload or removes its promoted object
before its jobs have all ended, or its promotion has been stuck or failed, for the retention
window; and if that deletion is carried out no attach of the upload commits any more.  Cleanup
runs mark and remove outputs only of issuances whose jobs have all ended, one of them with
success, 30 days before. -/
theorem retention_never_deletes_live (h : Reachable formats settings pool)
    {event : WorkerPool.Event W Input Event}
    (hstep : (program formats settings).step pool event = some pool') :
    (∀ upload ∈ pool.store.db.uploads, RemovesPromoted pool.store pool'.store upload →
      Due pool.store upload ∧
      (CarriedOut pool event → ∀ later event' later',
        (program formats settings).LeadsWhen CarriedOut pool' later →
        (program formats settings).step later event' = some later' →
        ∀ promotion : PromotionCall, promotion.upload.id = upload.id →
          ¬ Committed promotion later.store.db later'.store.db)) ∧
    ∀ w input, event = .worker w input →
      (∀ issuance ∈ pool.store.db.issuances, issuance.outputDeletedAt = none →
        (∃ issuance' ∈ pool'.store.db.issuances, issuance'.id = issuance.id ∧
          issuance'.outputDeletedAt ≠ none) → OutputDue pool.store issuance) ∧
      ∀ organization id extension,
        pool.store.objects (.issuanceOutput organization id extension) ≠ none →
        pool'.store.objects (.issuanceOutput organization id extension) = none →
        ∃ issuance ∈ pool.store.db.issuances, issuance.id = id ∧
          issuance.organizationId = organization ∧ OutputDue pool.store issuance := by
  refine ⟨fun upload hmem hremoves ↦ ⟨removed_due h hstep hmem hremoves, ?_⟩, ?_⟩
  · intro hcarried later event' later' hleads hlater promotion hid
    have hlocks' : lockAssertions.Holds pool' :=
      locks_leads h.locks (.single ⟨event, Program.Allowed.all_permits pool event, hstep⟩)
    obtain ⟨hlocks, row, hrow, hrowId, hsettling⟩ :=
      hleads.keeps (fun u ↦ lockAssertions.Holds u ∧ ∃ row ∈ u.store.db.uploads,
          row.id = upload.id ∧ Settling u row)
        (fun u e v hok he ⟨hu, row, hrow, hrowId, hsettling⟩ ↦ by
          obtain ⟨next, hnext, hnextId, hafter⟩ := settling_step hu he hok hrow hsettling
          exact ⟨locks_leads hu (.single ⟨e, Program.Allowed.all_permits u e, he⟩), next, hnext,
            hnextId.trans hrowId, hafter⟩)
        ⟨hlocks', removal_settling h hstep hcarried hmem hremoves⟩
    exact settling_not_committed hlocks hlater hrow hsettling (hid.trans hrowId.symm)
  · rintro w input rfl
    exact output_removed_due h hstep

end Runs

/-- A cleanup run comes to the target of a call that failed two hours ago. -/
def staleRun : List (WorkerPool.Event (Fin 2) Input Event) :=
  [.worker 0 (.create sampleActor (.issuance ⟨3⟩) ⟨5⟩ ⟨9⟩ .none),
    .worker 0 (.copy ⟨7⟩ (.raised .other)),
    .environment (.copyLands sampleUpload.target ⟨7⟩),
    .worker 0 (.fence .deleted),
    .worker 0 (.markFailed .none),
    .environment (.tick (hours 2)),
    .worker 1 (.cleanup (hours 2) 1),
    .worker 1 .proceed, .worker 1 .proceed, .worker 1 .proceed, .worker 1 .proceed]

def sampleFailed : UploadRequest :=
  sampleUpload.promoted .failed (some "PROMOTION_COPY_FAILED") 1

theorem sample_stale :
    ∃ pool, (program sampleFormats sampleSettings).Leads .all samplePool pool ∧
      ((program sampleFormats sampleSettings).step pool (.worker 1 (.delete .deleted))).map
        (fun pool' ↦ (pool.store.objects sampleUpload.target,
          pool'.store.objects sampleUpload.target, pool.store.db.uploads)) =
      some (some ⟨7⟩, none, [sampleFailed]) :=
  Program.leads_of_exec_map staleRun (by decide +kernel)

/-- The run deletes the object, which is due, as nobody attaches the upload any more. -/
theorem retention_never_deletes_live_sample : ∃ pool pool' : Pool (Fin 2),
    Reachable sampleFormats sampleSettings pool ∧
    (program sampleFormats sampleSettings).step pool (.worker 1 (.delete .deleted)) = some pool' ∧
    ∃ upload ∈ pool.store.db.uploads, RemovesPromoted pool.store pool'.store upload ∧
      Due pool.store upload := by
  obtain ⟨pool, hleads, hread⟩ := sample_stale
  obtain ⟨pool', hstep, hread⟩ := Option.map_eq_some_iff.mp hread
  simp only [Prod.mk.injEq] at hread
  obtain ⟨hbefore, hafter, huploads⟩ := hread
  have hreachable : Reachable sampleFormats sampleSettings pool :=
    ⟨samplePool, samplePool_start, hleads⟩
  have hmem : sampleFailed ∈ pool.store.db.uploads := by simp [huploads]
  have hremoves : RemovesPromoted pool.store pool'.store sampleFailed :=
    .inr ⟨sampleUpload.target, rfl, by simp [hbefore], hafter⟩
  exact ⟨pool, pool', hreachable, hstep, sampleFailed, hmem, hremoves,
    ((retention_never_deletes_live hreachable hstep).1 sampleFailed hmem hremoves).1⟩

/-- A call has copied its upload and stands still for two hours, until a cleanup run comes to the
target. -/
def stalledRun : List (WorkerPool.Event (Fin 2) Input Event) :=
  (createRun 0).take 2 ++ [
    .environment (.tick (hours 2)),
    .worker 1 (.cleanup (hours 2) 1),
    .worker 1 .proceed, .worker 1 .proceed, .worker 1 .proceed, .worker 1 .proceed]

def sampleCopying : UploadRequest :=
  { sampleUpload.promoted .copying none 1 with promotionTargetKey := some sampleUpload.target }

/-- The storage deletes the object and reports that it has not; the row is not fenced, and the call
attaches it without its object. -/
theorem unrecorded_deletion_attached : ∃ pool pool' later : Pool (Fin 2),
    Reachable sampleFormats sampleSettings pool ∧
    (program sampleFormats sampleSettings).step pool (.worker 1 (.delete .deletedThenFailed)) =
      some pool' ∧
    (program sampleFormats sampleSettings).step pool'
      (.worker 0 (.attach ⟨⟨11⟩, ⟨12⟩, ⟨13⟩, ⟨14⟩⟩ .none)) = some later ∧
    ∃ upload ∈ pool.store.db.uploads, RemovesPromoted pool.store pool'.store upload ∧
      ∃ promotion : PromotionCall, promotion.upload.id = upload.id ∧
        Committed promotion pool'.store.db later.store.db := by
  have hrun : ∃ pool, (program sampleFormats sampleSettings).Leads .all samplePool pool ∧
      (((program sampleFormats sampleSettings).step pool
          (.worker 1 (.delete .deletedThenFailed))).bind fun pool' ↦
        ((program sampleFormats sampleSettings).step pool'
          (.worker 0 (.attach ⟨⟨11⟩, ⟨12⟩, ⟨13⟩, ⟨14⟩⟩ .none))).map fun later ↦
        (pool.store.objects sampleUpload.target, pool'.store.objects sampleUpload.target,
          [pool.store.db.uploads, pool'.store.db.uploads, later.store.db.uploads])) =
      some (some ⟨7⟩, none, [[sampleCopying], [sampleCopying],
        [sampleCopying.promoted .attached none (hours 2)]]) :=
    Program.leads_of_exec_map stalledRun (by decide +kernel)
  obtain ⟨pool, hleads, hread⟩ := hrun
  obtain ⟨pool', hdelete, hread⟩ := Option.bind_eq_some_iff.mp hread
  obtain ⟨later, hattach, hread⟩ := Option.map_eq_some_iff.mp hread
  simp only [Prod.mk.injEq, List.cons.injEq, and_true] at hread
  obtain ⟨hbefore, hafter, huploads, huploads', hlater⟩ := hread
  refine ⟨pool, pool', later, ⟨samplePool, samplePool_start, hleads⟩, hdelete, hattach,
    sampleCopying, by simp [huploads], .inr ⟨sampleUpload.target, rfl, by simp [hbefore], hafter⟩,
    ⟨sampleActor, .verification, ⟨9⟩, sampleCopying⟩, rfl, sampleCopying, by simp [huploads'],
    sampleCopying.promoted .attached none (hours 2), by simp [hlater], rfl, rfl, rfl, rfl, rfl⟩

end Platform

end Splitbind
