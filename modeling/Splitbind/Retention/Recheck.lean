import Splitbind.Retention.Cleanup

/-!
# Recheck — the query of a category against the checks of the locked row

The rule of a category is written twice: as filters with EXISTS sub-queries, and as conditions on
the locked row with queries of their own.  The database lets a key column hold any text, so the
text of a key is a parameter here.
-/

namespace Splitbind

/-! ## 1. Both rules -/

/-- The query of a category without its limit; promotions are looked for in two states only. -/
def Category.query (category : Category) (now : Instant) (db : Database) : List Candidate :=
  match category with
  | .stalePromotion state =>
    if state = .failed ∨ state = .copying then stalePromotions db state now else []
  | .issuanceInput => expiredInputs db .issuanceInput .issuance now
  | .verificationInput => expiredInputs db .verificationInput .verification now
  | .issuanceOutput => expiredOutputs db now
  | .orphan => expiredOrphans db now

/-- `getattr(record, key_field)`. -/
def LockedRecord.key (record : LockedRecord) (category : Category) : Option ObjectKey :=
  match record with
  | .upload row => if category = .orphan then some row.objectKey else row.promotionTargetKey
  | .issuance row => row.outputObjectKey

section Rules

variable (text : ObjectKey → String) (now : Instant) (db : Database) (candidate : Candidate)

/-- What `_delete_one` asks before it looks at the owner of the key: the deletion timestamp and
`_eligible_locked`, and a key that is neither null nor empty. -/
def recheck : Bool :=
  match candidate.record db with
  | none => false
  | some record =>
    record.eligible candidate.category now &&
      candidate.category.jobQueries.all (fun query ↦ candidate.passes query now db) &&
      (record.key candidate.category).any fun key ↦ text key ≠ ""

/-- The key column of the row is not null, and holds the empty text. -/
def EmptyKey : Prop :=
  ∃ record, candidate.record db = some record ∧
    ∃ key ∈ record.key candidate.category, text key = ""

end Rules

/-! ## 2. The rules about jobs -/

/-- The annotations of the input queries say what the checks of the locked row ask. -/
theorem finishedBefore_iff {jobs : List Job} {deadline : Instant} :
    finishedBefore jobs deadline = true ↔
      ∀ query ∈ [JobQuery.exist, .allTerminal, .latestBefore], query.holds jobs deadline = true := by
  refine ⟨finishedBefore_holds, fun h ↦ ?_⟩
  have hexist := h .exist (by simp)
  have hterminal := h .allTerminal (by simp)
  have hlatest := h .latestBefore (by simp)
  simp only [JobQuery.holds, decide_eq_true_eq, Bool.not_eq_true', List.any_eq_false, not_not,
    Bool.and_eq_true, List.all_eq_true] at hexist hterminal hlatest
  -- some job exists, and as no job is left open, that one has ended
  obtain ⟨job, hjob⟩ := List.exists_mem_of_ne_nil jobs hexist
  simp only [finishedBefore, Bool.and_eq_true, Bool.not_eq_true', List.any_eq_true,
    List.any_eq_false, decide_eq_true_eq, not_and, not_lt, not_not]
  exact ⟨⟨⟨job, hjob, hterminal job hjob⟩, hterminal⟩, fun job hjob _ ↦ hlatest.2 job hjob⟩

theorem outputFinishedBefore_iff {jobs : List Job} {deadline : Instant} :
    outputFinishedBefore jobs deadline = true ↔
      ∀ query ∈ Category.issuanceOutput.jobQueries, query.holds jobs deadline = true := by
  refine ⟨outputFinishedBefore_holds, fun h ↦ ?_⟩
  have hfinished : finishedBefore jobs deadline = true := by
    refine finishedBefore_iff.mpr fun query hquery ↦ h query ?_
    revert hquery
    cases query <;> simp [Category.jobQueries]
  have hsucceeded := h .oneSucceeded (by simp [Category.jobQueries])
  rw [JobQuery.holds] at hsucceeded
  rw [finishedBefore, Bool.and_eq_true, Bool.and_eq_true] at hfinished
  rw [outputFinishedBefore, hsucceeded, hfinished.1.2, hfinished.2]
  rfl

/-! ## 3. The row of a candidate -/

/-- A query over rows with a primary key selects a key when it selects the row it stands for. -/
theorem mem_candidates_iff {α : Type} {time : α → Instant} {id : α → UUID} {rows : List α}
    (hnodup : (rows.map id).Nodup) {selects : α → Bool} {category : Category} {pk : UUID} :
    (⟨category, pk⟩ : Candidate) ∈
        ((rows.filter selects).insertionSort (rowBefore time id)).map
          (fun row ↦ (⟨category, id row⟩ : Candidate)) ↔
      ∃ row, rows.find? (fun row ↦ id row = pk) = some row ∧ selects row = true := by
  constructor
  · intro h
    obtain ⟨row, hrow, heq⟩ := List.mem_map.mp h
    obtain ⟨hmem, hselects⟩ := List.mem_filter.mp ((List.mem_insertionSort _).mp hrow)
    injection heq with _ hid
    refine ⟨row, Table.find?_eq_some hnodup hmem (by simpa using hid) fun other hother ↦ ?_, hselects⟩
    rw [decide_eq_true_eq] at hother
    exact hother.trans hid.symm
  · rintro ⟨row, hfind, hselects⟩
    have hid : id row = pk := by simpa using List.find?_some hfind
    refine List.mem_map.mpr ⟨row, (List.mem_insertionSort _).mpr (List.mem_filter.mpr
      ⟨List.mem_of_find?_eq_some hfind, hselects⟩), ?_⟩
    rw [hid]

theorem mem_uploadCandidates_iff {db : Database} (hkeyed : db.Keyed) {category : Category}
    {selects : UploadRequest → Bool} {pk : UUID} :
    (⟨category, pk⟩ : Candidate) ∈ uploadCandidates db category selects ↔
      ∃ upload, db.uploads.find? (fun upload ↦ upload.id = pk) = some upload ∧
        selects upload = true :=
  mem_candidates_iff hkeyed.uploads

theorem mem_expiredOutputs_iff {db : Database} (hkeyed : db.Keyed) {now : Instant} {pk : UUID} :
    (⟨.issuanceOutput, pk⟩ : Candidate) ∈ expiredOutputs db now ↔
      ∃ issuance, db.issuances.find? (fun issuance ↦ issuance.id = pk) = some issuance ∧
        (issuance.outputDeletedAt = none && issuance.outputObjectKey ≠ none &&
          outputFinishedBefore (relatedJobs db .issuanceOutput issuance.id)
            (now - Category.issuanceOutput.window)) = true :=
  mem_candidates_iff hkeyed.issuances

/-- The row passes the checks of its category, and its key column is not null. -/
structure Rechecked (now : Instant) (db : Database) (candidate : Candidate)
    (record : LockedRecord) : Prop extends Checked now db candidate record where
  key : (record.key candidate.category).isSome = true

theorem recheck_iff {text : ObjectKey → String} {now : Instant} {db : Database}
    {candidate : Candidate} :
    recheck text now db candidate = true ↔
      (∃ record, Rechecked now db candidate record) ∧ ¬ EmptyKey text db candidate := by
  rw [recheck, EmptyKey]
  cases hrecord : candidate.record db with
  | none =>
    refine iff_of_false (by simp) ?_
    rintro ⟨⟨record, hchecked⟩, -⟩
    cases hrecord.symm.trans hchecked.found
  | some record =>
    simp only [Bool.and_eq_true, Option.any_eq_true, decide_eq_true_eq]
    constructor
    · rintro ⟨⟨heligible, hpasses⟩, key, hkey, htext⟩
      refine ⟨⟨record, ⟨hrecord, heligible, hpasses⟩, by rw [hkey]; rfl⟩, ?_⟩
      rintro ⟨other, heq, key', hkey', hempty⟩
      cases heq
      cases hkey.symm.trans hkey'
      exact htext hempty
    · rintro ⟨⟨other, hchecked⟩, hempty⟩
      cases hrecord.symm.trans hchecked.found
      obtain ⟨key, hkey⟩ := Option.isSome_iff_exists.mp hchecked.key
      exact ⟨⟨hchecked.eligible, hchecked.passes⟩, key, hkey, fun htext ↦
        hempty ⟨record, rfl, key, hkey, htext⟩⟩

/-! ## 4. The two rules agree -/

section Agree

variable {now : Instant} {db : Database}

/-- The uploads of a database meet the constraints of their table. -/
def Database.UploadsConstrained (db : Database) : Prop :=
  ∀ upload ∈ db.uploads, upload.Constrained

/-- For a category of uploads: what its query filters by is what the locked row is asked. -/
theorem mem_uploadCandidates_iff_rechecked (hkeyed : db.Keyed) {category : Category}
    (hcategory : category ≠ .issuanceOutput) {selects : UploadRequest → Bool} {pk : UUID}
    (hselects : ∀ upload ∈ db.uploads, upload.id = pk → (selects upload = true ↔
      (LockedRecord.upload upload).eligible category now = true ∧
        (∀ query ∈ category.jobQueries,
          query.holds (relatedJobs db category pk) (now - category.window) = true) ∧
        ((LockedRecord.upload upload).key category).isSome = true)) :
    (⟨category, pk⟩ : Candidate) ∈ uploadCandidates db category selects ↔
      ∃ record, Rechecked now db ⟨category, pk⟩ record := by
  have hrecord : Candidate.record ⟨category, pk⟩ db =
      (db.uploads.find? fun upload ↦ upload.id = pk).map .upload := by
    cases category <;> first | rfl | exact absurd rfl hcategory
  rw [mem_uploadCandidates_iff hkeyed]
  constructor
  · rintro ⟨upload, hfind, hselect⟩
    have hid : upload.id = pk := by simpa using List.find?_some hfind
    obtain ⟨heligible, hpasses, hkey⟩ :=
      (hselects upload (List.mem_of_find?_eq_some hfind) hid).mp hselect
    exact ⟨.upload upload, ⟨by rw [hrecord, hfind, Option.map_some], heligible,
      List.all_eq_true.mpr hpasses⟩, hkey⟩
  · rintro ⟨record, hchecked⟩
    have hfound := hchecked.found
    rw [hrecord, Option.map_eq_some_iff] at hfound
    obtain ⟨upload, hfind, rfl⟩ := hfound
    have hid : upload.id = pk := by simpa using List.find?_some hfind
    exact ⟨upload, hfind, (hselects upload (List.mem_of_find?_eq_some hfind) hid).mpr
      ⟨hchecked.eligible, List.all_eq_true.mp hchecked.passes, hchecked.key⟩⟩

/-- A promoted upload has a target key. -/
theorem UploadRequest.Constrained.key_isSome {upload : UploadRequest} (h : upload.Constrained)
    (hstatus : upload.promotionStatus ≠ .none) : upload.promotionTargetKey.isSome = true := by
  rw [Option.isSome_iff_ne_none]
  exact mt h.target.mpr hstatus

/-- **The query and the checks agree** on which rows have a category's retention behind them, as
far as the key column is only asked to be not null. -/
theorem mem_query_iff_rechecked (hkeyed : db.Keyed) (hconstrained : db.UploadsConstrained)
    (candidate : Candidate) :
    candidate ∈ candidate.category.query now db ↔ ∃ record, Rechecked now db candidate record := by
  obtain ⟨category, pk⟩ := candidate
  -- an input row is attached, so its target key is not null
  have hinput : ∀ {category purpose}, category = .issuanceInput ∧ purpose = .issuance ∨
      category = .verificationInput ∧ purpose = .verification →
      ((⟨category, pk⟩ : Candidate) ∈ expiredInputs db category purpose now ↔
        ∃ record, Rechecked now db ⟨category, pk⟩ record) := by
    intro category purpose hcategory
    rw [expiredInputs]
    refine mem_uploadCandidates_iff_rechecked hkeyed (by rcases hcategory with ⟨rfl, -⟩ | ⟨rfl, -⟩ <;> simp)
      fun upload hupload hid ↦ ?_
    have hkey : upload.promotionStatus = .attached → upload.promotionTargetKey.isSome = true :=
      fun hstatus ↦ (hconstrained upload hupload).key_isSome (by rw [hstatus]; simp)
    rw [Bool.and_eq_true, hid, finishedBefore_iff]
    rcases hcategory with ⟨rfl, rfl⟩ | ⟨rfl, rfl⟩ <;>
    · simp only [LockedRecord.eligible, LockedRecord.key, Category.jobQueries, Bool.and_eq_true,
        decide_eq_true_eq, reduceCtorEq, if_false]
      tauto
  cases category with
  | stalePromotion state =>
    rw [Category.query]
    by_cases hstate : state = .failed ∨ state = .copying
    · rw [if_pos hstate, stalePromotions]
      refine mem_uploadCandidates_iff_rechecked hkeyed (by simp) fun upload _ _ ↦ ?_
      simp only [LockedRecord.eligible, LockedRecord.key, Category.jobQueries, Bool.and_eq_true,
        Bool.or_eq_true, decide_eq_true_eq, reduceCtorEq, if_false, Option.isSome_iff_ne_none,
        List.not_mem_nil, false_imp_iff, implies_true, true_and, hstate, and_true]
      tauto
    · rw [if_neg hstate]
      refine iff_of_false List.not_mem_nil ?_
      rintro ⟨record | record, hchecked⟩
      · have heligible := hchecked.eligible
        simp only [LockedRecord.eligible, Bool.and_eq_true, Bool.or_eq_true,
          decide_eq_true_eq] at heligible
        exact hstate heligible.1.2
      · cases hchecked.eligible
  | issuanceInput => exact hinput (.inl ⟨rfl, rfl⟩)
  | verificationInput => exact hinput (.inr ⟨rfl, rfl⟩)
  | issuanceOutput =>
    rw [Category.query, mem_expiredOutputs_iff hkeyed]
    constructor
    · rintro ⟨issuance, hfind, hselect⟩
      have hid : issuance.id = pk := by simpa using List.find?_some hfind
      rw [Bool.and_eq_true, Bool.and_eq_true, decide_eq_true_eq, decide_eq_true_eq, hid,
        outputFinishedBefore_iff] at hselect
      exact ⟨.issuance issuance, ⟨congrArg (Option.map _) hfind, decide_eq_true hselect.1.1,
        List.all_eq_true.mpr hselect.2⟩, Option.isSome_iff_ne_none.mpr hselect.1.2⟩
    · rintro ⟨record, hchecked⟩
      obtain ⟨issuance, hfind, rfl⟩ := Option.map_eq_some_iff.mp hchecked.found
      have hid : issuance.id = pk := by simpa using List.find?_some hfind
      refine ⟨issuance, hfind, ?_⟩
      rw [Bool.and_eq_true, Bool.and_eq_true, decide_eq_true_eq, decide_eq_true_eq, hid,
        outputFinishedBefore_iff]
      exact ⟨⟨of_decide_eq_true hchecked.eligible, Option.isSome_iff_ne_none.mp hchecked.key⟩,
        List.all_eq_true.mp hchecked.passes⟩
  | orphan =>
    refine mem_uploadCandidates_iff_rechecked hkeyed (by simp) fun upload _ _ ↦ ?_
    simp [LockedRecord.eligible, LockedRecord.key, Category.jobQueries]

/-- **Query and recheck.**  The recheck accepts the rows the query selects, but for those whose
key column holds the empty text. -/
theorem recheck_iff_mem_query (hkeyed : db.Keyed) (hconstrained : db.UploadsConstrained)
    (text : ObjectKey → String) (candidate : Candidate) :
    recheck text now db candidate = true ↔
      candidate ∈ candidate.category.query now db ∧ ¬ EmptyKey text db candidate := by
  rw [mem_query_iff_rechecked hkeyed hconstrained, recheck_iff]

theorem ObjectKey.text_ne_empty (key : ObjectKey) : key.text ≠ "" := by
  intro hempty
  unfold ObjectKey.text at hempty
  cases key <;> simp only [String.append_eq_empty_iff] at hempty
  · exact absurd hempty.1.1.1.1.1.1 (by decide)
  · exact absurd hempty.1.1.1.1.1.1 (by decide)
  · exact absurd hempty.1.1.1.1.1 (by decide)

/-- Without a key there is none the row owns. -/
theorem LockedRecord.ownedKey_eq_none {record : LockedRecord} {category : Category}
    (h : record.key category = none) : record.ownedKey category = none := by
  cases record with
  | upload row =>
    rw [LockedRecord.key] at h
    rw [LockedRecord.ownedKey, h]
    rfl
  | issuance row =>
    rw [LockedRecord.key] at h
    rw [LockedRecord.ownedKey, h]
    rfl

/-- The keys the code writes are not empty, so on its own rows the rules agree. -/
theorem recheck_iff_mem_query_of_written (hkeyed : db.Keyed)
    (hconstrained : db.UploadsConstrained) (candidate : Candidate) :
    recheck ObjectKey.text now db candidate = true ↔
      candidate ∈ candidate.category.query now db := by
  rw [recheck_iff, ← mem_query_iff_rechecked hkeyed hconstrained, and_iff_left]
  rintro ⟨_, _, key, _, hempty⟩
  exact key.text_ne_empty hempty

end Agree

/-! ## 5. An empty key -/

/-- An upload nobody finished, two days old. -/
def abandonedUpload : UploadRequest where
  id := ⟨1⟩
  organizationId := ⟨1⟩
  requestedById := ⟨2⟩
  purpose := .issuance
  objectKey := .orphan .issuance ⟨1⟩ ⟨1⟩
  sourceContentType := "application/pdf"
  expectedSha256 := none
  sizeBytes := none
  expiresAt := 0
  finalizedAt := none
  orphanDeletedAt := none
  promotionTargetKey := none
  promotionStatus := .none
  promotionStatusChangedAt := 0
  safeErrorCode := none
  promotionTargetDeletedAt := none
  promotionTargetReconciledAt := none
  createdAt := 0

def abandonedDatabase : Database :=
  { emptyDatabase with uploads := [abandonedUpload] }

theorem abandonedDatabase_keyed : abandonedDatabase.Keyed := by
  constructor <;> decide

theorem abandonedDatabase_constrained : abandonedDatabase.UploadsConstrained := by
  intro upload hupload
  rw [List.mem_singleton.mp hupload]
  exact ⟨by decide, by decide⟩

theorem recheck_iff_mem_query_sample :
    recheck ObjectKey.text (days 2) abandonedDatabase ⟨.orphan, ⟨1⟩⟩ = true ↔
      (⟨.orphan, ⟨1⟩⟩ : Candidate) ∈ Category.orphan.query (days 2) abandonedDatabase ∧
        ¬ EmptyKey ObjectKey.text abandonedDatabase ⟨.orphan, ⟨1⟩⟩ :=
  recheck_iff_mem_query abandonedDatabase_keyed abandonedDatabase_constrained ObjectKey.text
    ⟨.orphan, ⟨1⟩⟩

/-- With the empty text in its key column the row is selected, and refused. -/
theorem query_selects_empty_key :
    ¬ ∀ (text : ObjectKey → String) (now : Instant) (db : Database) (candidate : Candidate),
      db.Keyed → db.UploadsConstrained →
        (candidate ∈ candidate.category.query now db ↔ recheck text now db candidate = true) := by
  intro h
  have hagree := h (fun _ ↦ "") (days 2) abandonedDatabase ⟨.orphan, ⟨1⟩⟩ abandonedDatabase_keyed
    abandonedDatabase_constrained
  have hselected : (⟨.orphan, ⟨1⟩⟩ : Candidate) ∈
      Category.orphan.query (days 2) abandonedDatabase := by decide +kernel
  have hrefused : recheck (fun _ ↦ "") (days 2) abandonedDatabase ⟨.orphan, ⟨1⟩⟩ = false := by
    decide +kernel
  rw [hagree.mp hselected] at hrefused
  cases hrefused

end Splitbind
