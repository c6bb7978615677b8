import Splitbind.Demo.VerificationDecode
import Splitbind.Library.Distinct

/-!
# Aggregation — when the pages of a suspect file attribute it

A file is attributed when one id is decoded and nothing contradicts it.  What contradicts (a second
id, partial evidence) cannot be outvoted, and the order of the pages is of no account.
-/

namespace Splitbind

open Transaction

/-! ## 1. Decisions of a page -/

/-- What `decode_fingerprint_v2` can return. -/
def Returnable (decision : DecodeV2Decision) : Prop :=
  ∃ canvas pageIndex profiles, decodeFingerprintV2 canvas pageIndex profiles = .ok decision

theorem Returnable.id {decision : DecodeV2Decision} (h : Returnable decision) :
    decision.issuanceId.isSome = true ↔ decision.status = .decoded := by
  obtain ⟨canvas, pageIndex, profiles, h⟩ := h
  simp only [decodeFingerprintV2] at h
  split_ifs at h
  · exact decidePayloadVotes_id h
  · cases h
    simp
  · cases h
    simp

/-! ## 2. Aggregation -/

/-- The decoded ids of some pages. -/
def decodedIds (decisions : List DecodeV2Decision) : List (Option UUID) :=
  (decisions.filter (·.status = .decoded)).map (·.issuanceId)

theorem mem_decodedIds {decisions : List DecodeV2Decision} {id : Option UUID} :
    id ∈ decodedIds decisions ↔
      ∃ decision ∈ decisions, decision.status = .decoded ∧ decision.issuanceId = id := by
  simp only [decodedIds, List.mem_map, List.mem_filter, decide_eq_true_eq, and_assoc]

/-- Some page contradicts every attribution: it is partial, or it decodes to another id than a
second one. -/
def Contradicted (decisions : List DecodeV2Decision) : Prop :=
  (∃ decision ∈ decisions, decision.status = .partialPayloadEvidence) ∨
    ∃ id ∈ decodedIds decisions, ∃ other ∈ decodedIds decisions, id ≠ other

theorem aggregateDecisions_contradicted {decisions : List DecodeV2Decision}
    (h : Contradicted decisions) :
    aggregateDecisions decisions = .ok ⟨none, (decisions.map (·.confidence)).max?.getD 0,
      (decisions.map (·.validVotes)).sum, .partialPayloadEvidence⟩ := by
  rw [Contradicted, ← Distinct.one_lt_length_eraseDups] at h
  exact if_pos h

/-- Pages that decode to one id attribute the file to it. -/
theorem aggregateDecisions_decoded {decisions : List DecodeV2Decision} {id : Option UUID}
    (hcontradicted : ¬ Contradicted decisions) (hid : id ∈ decodedIds decisions) :
    aggregateDecisions decisions = .ok ⟨id, (decisions.map (·.confidence)).max?.getD 0,
      (decisions.map (·.validVotes)).sum, .decoded⟩ := by
  have hone : (decodedIds decisions).eraseDups = [id] := by
    refine Distinct.eraseDups_eq_singleton.mpr ⟨hid, fun other hother ↦ ?_⟩
    by_contra hne
    exact hcontradicted (.inr ⟨other, hother, id, hid, hne⟩)
  rw [Contradicted, ← Distinct.one_lt_length_eraseDups] at hcontradicted
  rw [aggregateDecisions]
  refine (if_neg hcontradicted).trans ?_
  rw [decodedIds] at hone
  simp only [hone]

/-- The first status of the fixed order that some page has. -/
def firstStatus (decisions : List DecodeV2Decision) : Option DecodeStatus :=
  inconclusiveStatuses.find? fun status ↦ ∃ decision ∈ decisions, decision.status = status

theorem aggregateDecisions_inconclusive {decisions : List DecodeV2Decision} {status : DecodeStatus}
    (hcontradicted : ¬ Contradicted decisions) (hnone : decodedIds decisions = [])
    (hstatus : firstStatus decisions = some status) :
    aggregateDecisions decisions = .ok ⟨none, (decisions.map (·.confidence)).max?.getD 0,
      (decisions.map (·.validVotes)).sum, status⟩ := by
  rw [Contradicted, ← Distinct.one_lt_length_eraseDups] at hcontradicted
  rw [aggregateDecisions]
  refine (if_neg hcontradicted).trans ?_
  rw [decodedIds] at hnone
  rw [firstStatus] at hstatus
  simp only [hnone, hstatus]
  rfl

/-- Pages none of which is conclusive have one of the statuses that are looked for. -/
theorem exists_firstStatus {decisions : List DecodeV2Decision} (hne : decisions ≠ [])
    (hcontradicted : ¬ Contradicted decisions) (hnone : decodedIds decisions = []) :
    ∃ status ∈ inconclusiveStatuses, firstStatus decisions = some status := by
  obtain ⟨decision, hdecision⟩ := List.exists_mem_of_ne_nil decisions hne
  have hdecoded : decision.status ≠ .decoded := by
    intro hstatus
    have hmem := mem_decodedIds.mpr ⟨decision, hdecision, hstatus, rfl⟩
    rw [hnone] at hmem
    exact absurd hmem List.not_mem_nil
  have hpartial : decision.status ≠ .partialPayloadEvidence :=
    fun hstatus ↦ hcontradicted (.inl ⟨decision, hdecision, hstatus⟩)
  have hlisted : decision.status ∈ inconclusiveStatuses := by
    cases hcase : decision.status with
    | decoded => exact absurd hcase hdecoded
    | partialPayloadEvidence => exact absurd hcase hpartial
    | payloadNotDetected => decide
    | insufficientSyncEvidence => decide
    | geometryRejected => decide
  cases hfind : firstStatus decisions with
  | none =>
    have hnot := List.find?_eq_none.mp hfind _ hlisted
    exact absurd (decide_eq_true ⟨decision, hdecision, rfl⟩) hnot
  | some status => exact ⟨status, List.mem_of_find?_eq_some hfind, rfl⟩

/-! ## 3. Order and contradiction -/

theorem max?_perm {xs ys : List ℚ} (h : xs.Perm ys) : xs.max? = ys.max? := by
  cases hmax : ys.max? with
  | none =>
    rw [List.max?_eq_none_iff] at hmax ⊢
    rw [hmax] at h
    exact h.eq_nil
  | some m =>
    rw [List.max?_eq_some_iff] at hmax ⊢
    exact ⟨h.mem_iff.mpr hmax.1, fun x hx ↦ hmax.2 x (h.mem_iff.mp hx)⟩

theorem Contradicted.mono {decisions decisions' : List DecodeV2Decision}
    (h : Contradicted decisions) (hsub : decisions ⊆ decisions') : Contradicted decisions' := by
  rcases h with ⟨decision, hdecision, hstatus⟩ | ⟨id, hid, other, hother, hne⟩
  · exact .inl ⟨decision, hsub hdecision, hstatus⟩
  · obtain ⟨decision, hdecision, hdecoded⟩ := mem_decodedIds.mp hid
    obtain ⟨decision', hdecision', hdecoded'⟩ := mem_decodedIds.mp hother
    exact .inr ⟨id, mem_decodedIds.mpr ⟨decision, hsub hdecision, hdecoded⟩, other,
      mem_decodedIds.mpr ⟨decision', hsub hdecision', hdecoded'⟩, hne⟩

/-- The order of the pages is of no account. -/
theorem aggregateDecisions_perm {decisions decisions' : List DecodeV2Decision} (hne : decisions ≠ [])
    (h : decisions.Perm decisions') : aggregateDecisions decisions' = aggregateDecisions decisions := by
  have hconfidence := max?_perm (h.map (·.confidence))
  have hvotes := (h.map (·.validVotes)).sum_nat
  by_cases hcontradicted : Contradicted decisions
  · rw [aggregateDecisions_contradicted hcontradicted,
      aggregateDecisions_contradicted (hcontradicted.mono h.subset), hconfidence, hvotes]
  have hcontradicted' : ¬ Contradicted decisions' :=
    fun hback ↦ hcontradicted (hback.mono h.symm.subset)
  have hids : (decodedIds decisions).Perm (decodedIds decisions') := (h.filter _).map _
  rcases List.eq_nil_or_concat (decodedIds decisions) with hnil | ⟨ids, id, hid⟩
  · obtain ⟨status, -, hstatus⟩ := exists_firstStatus hne hcontradicted hnil
    have hstatus' : firstStatus decisions' = some status := by
      rw [← hstatus]
      refine congrArg (List.find? · inconclusiveStatuses) (funext fun status ↦ ?_)
      exact decide_eq_decide.mpr (exists_congr fun _ ↦ and_congr_left fun _ ↦ h.mem_iff.symm)
    rw [hnil] at hids
    rw [aggregateDecisions_inconclusive hcontradicted hnil hstatus,
      aggregateDecisions_inconclusive hcontradicted' hids.nil_eq.symm hstatus', hconfidence, hvotes]
  · have hmem : id ∈ decodedIds decisions := by
      rw [hid]
      simp
    rw [aggregateDecisions_decoded hcontradicted hmem,
      aggregateDecisions_decoded hcontradicted' (hids.mem_iff.mp hmem), hconfidence, hvotes]

/-! ## 4. Attribution -/

def DecodeSummary.Attributed (summary : DecodeSummary) (issuanceId : UUID) : Prop :=
  summary.status = .decoded ∧ summary.issuanceId = some issuanceId

/-- One id occurs among the decoded pages, and no page is partial. -/
def Unanimous (decisions : List DecodeV2Decision) (issuanceId : UUID) : Prop :=
  (∃ decision ∈ decisions, decision.status = .decoded) ∧
    (∀ decision ∈ decisions, decision.status = .decoded →
      decision.issuanceId = some issuanceId) ∧
    ∀ decision ∈ decisions, decision.status ≠ .partialPayloadEvidence

/-- The aggregation of pages never raises, and attributes exactly the unanimous ones. -/
theorem aggregateDecisions_attributed {decisions : List DecodeV2Decision} (hne : decisions ≠ []) :
    ∃ summary, aggregateDecisions decisions = .ok summary ∧
      ∀ issuanceId, summary.Attributed issuanceId ↔ Unanimous decisions issuanceId := by
  by_cases hcontradicted : Contradicted decisions
  · refine ⟨_, aggregateDecisions_contradicted hcontradicted, fun issuanceId ↦ ?_⟩
    refine iff_of_false (fun h ↦ absurd h.1 DecodeStatus.noConfusion) ?_
    rintro ⟨-, hsame, hpartial⟩
    rcases hcontradicted with ⟨decision, hdecision, hstatus⟩ | ⟨id, hid, other, hother, hdiffer⟩
    · exact hpartial decision hdecision hstatus
    · obtain ⟨decision, hdecision, hdecoded, rfl⟩ := mem_decodedIds.mp hid
      obtain ⟨decision', hdecision', hdecoded', rfl⟩ := mem_decodedIds.mp hother
      exact hdiffer ((hsame decision hdecision hdecoded).trans
        (hsame decision' hdecision' hdecoded').symm)
  have hpartial : ∀ decision ∈ decisions, decision.status ≠ .partialPayloadEvidence :=
    fun decision hdecision hstatus ↦ hcontradicted (.inl ⟨decision, hdecision, hstatus⟩)
  by_cases hdecoded : ∃ decision ∈ decisions, decision.status = .decoded
  · obtain ⟨decision, hdecision, hstatus⟩ := hdecoded
    have hmem := mem_decodedIds.mpr ⟨decision, hdecision, hstatus, rfl⟩
    refine ⟨_, aggregateDecisions_decoded hcontradicted hmem, fun issuanceId ↦ ?_⟩
    constructor
    · rintro ⟨-, hid⟩
      refine ⟨⟨decision, hdecision, hstatus⟩, fun other hother hdecoded ↦ ?_, hpartial⟩
      by_contra hdiffer
      refine hcontradicted (.inr ⟨_, mem_decodedIds.mpr ⟨other, hother, hdecoded, rfl⟩, _, hmem, ?_⟩)
      rw [show decision.issuanceId = some issuanceId from hid]
      exact hdiffer
    · rintro ⟨-, hsame, -⟩
      exact ⟨rfl, hsame decision hdecision hstatus⟩
  · have hnone : decodedIds decisions = [] := by
      refine List.eq_nil_iff_forall_not_mem.mpr fun id hid ↦ hdecoded ?_
      obtain ⟨decision, hdecision, hstatus, -⟩ := mem_decodedIds.mp hid
      exact ⟨decision, hdecision, hstatus⟩
    obtain ⟨status, hlisted, hstatus⟩ := exists_firstStatus hne hcontradicted hnone
    refine ⟨_, aggregateDecisions_inconclusive hcontradicted hnone hstatus, fun issuanceId ↦ ?_⟩
    exact iff_of_false (fun h ↦ absurd h.2.symm (Option.some_ne_none _)) fun h ↦ hdecoded h.1

/-- Under an unknown page index nothing changes: one consistent decode is what an attribution has
anyway. -/
theorem aggregateUnknownPageDecisions_eq {decisions : List DecodeV2Decision} (hne : decisions ≠ [])
    (hreturnable : ∀ decision ∈ decisions, Returnable decision) :
    aggregateUnknownPageDecisions decisions = aggregateDecisions decisions := by
  have hexit : ∀ {summary : DecodeSummary}, aggregateDecisions decisions = .ok summary →
      summary.status ≠ .decoded → aggregateUnknownPageDecisions decisions = .ok summary := by
    intro summary h hstatus
    rw [aggregateUnknownPageDecisions, h, ok_bind, if_pos hstatus]
    rfl
  by_cases hcontradicted : Contradicted decisions
  · rw [aggregateDecisions_contradicted hcontradicted]
    exact hexit (aggregateDecisions_contradicted hcontradicted) DecodeStatus.noConfusion
  by_cases hdecoded : ∃ decision ∈ decisions, decision.status = .decoded
  · obtain ⟨decision, hdecision, hstatus⟩ := hdecoded
    have hmem := mem_decodedIds.mpr ⟨decision, hdecision, hstatus, rfl⟩
    have hsome : decision.issuanceId ≠ none := by
      rw [← Option.isSome_iff_ne_none, (hreturnable decision hdecision).id]
      exact hstatus
    have hsupport : ¬ (decisions.filter fun other ↦ other.status = .decoded ∧
        other.issuanceId = decision.issuanceId).length < unknownPageMinConsistentDecodes := by
      have hin : decision ∈ decisions.filter fun other ↦ other.status = .decoded ∧
          other.issuanceId = decision.issuanceId :=
        List.mem_filter.mpr ⟨hdecision, decide_eq_true ⟨hstatus, rfl⟩⟩
      exact not_lt.mpr (List.length_pos_of_mem hin)
    rw [aggregateUnknownPageDecisions, aggregateDecisions_decoded hcontradicted hmem, ok_bind]
    simp only [ne_eq, not_true_eq_false, if_false]
    rw [if_neg (not_or.mpr ⟨hsome, hsupport⟩)]
    rfl
  · have hnone : decodedIds decisions = [] := by
      refine List.eq_nil_iff_forall_not_mem.mpr fun id hid ↦ hdecoded ?_
      obtain ⟨decision, hdecision, hstatus, -⟩ := mem_decodedIds.mp hid
      exact ⟨decision, hdecision, hstatus⟩
    obtain ⟨status, hlisted, hstatus⟩ := exists_firstStatus hne hcontradicted hnone
    rw [aggregateDecisions_inconclusive hcontradicted hnone hstatus]
    refine hexit (aggregateDecisions_inconclusive hcontradicted hnone hstatus) ?_
    have hinconclusive : ∀ status ∈ inconclusiveStatuses, status ≠ .decoded := by decide
    exact hinconclusive status hlisted

/-- The summary of one geometry hypothesis of an image. -/
def hypothesisSummary (candidates : List FingerprintV2Profile) (page : Canvas) :
    Except Raised DecodeSummary := do
  aggregateUnknownPageDecisions (← hypothesisDecisions candidates page)

/-- An attribution comes from one hypothesis, the first conclusive one. -/
theorem firstConclusiveSummary_attributed {candidates : List FingerprintV2Profile}
    {fallback : Option DecodeSummary} {pages : List Canvas} {summary : DecodeSummary}
    (hfallback : ∀ earlier ∈ fallback, earlier.status.conclusive = false)
    (h : firstConclusiveSummary candidates fallback pages = .ok summary)
    (hdecoded : summary.status = .decoded) :
    ∃ earlier page later, pages = earlier ++ page :: later ∧
      (∀ other ∈ earlier, ∃ attempt, hypothesisSummary candidates other = .ok attempt ∧
        attempt.status.conclusive = false) ∧
      hypothesisSummary candidates page = .ok summary := by
  induction pages generalizing fallback with
  | nil =>
    simp only [firstConclusiveSummary, found_eq_ok] at h
    have hinconclusive := hfallback summary h
    rw [hdecoded] at hinconclusive
    cases hinconclusive
  | cons page rest ih =>
    simp only [firstConclusiveSummary, bind_eq_ok] at h
    obtain ⟨decisions, hdecisions, attempt, hattempt, h⟩ := h
    have hpage : hypothesisSummary candidates page = .ok attempt := by
      rw [hypothesisSummary, hdecisions, ok_bind]
      exact hattempt
    split_ifs at h with hconclusive
    · rw [pure_eq_ok] at h
      subst h
      exact ⟨[], page, rest, rfl, fun other hother ↦ absurd hother List.not_mem_nil, hpage⟩
    · rw [Bool.not_eq_true] at hconclusive
      have hnext : ∀ earlier ∈ (fallback <|> some attempt), earlier.status.conclusive = false := by
        cases fallback with
        | some earlier => exact hfallback
        | none =>
          intro earlier hearlier
          cases hearlier
          exact hconclusive
      obtain ⟨earlier, first, later, rfl, hearlier, hfirst⟩ := ih hnext h
      refine ⟨page :: earlier, first, later, rfl, ?_, hfirst⟩
      rw [List.forall_mem_cons]
      exact ⟨⟨attempt, hpage, hconclusive⟩, hearlier⟩

/-- **Aggregation fails closed.**  Decisions of pages are attributed exactly when they are
unanimous, in any order, and never after a page that contradicts them; an image is attributed only
by its first conclusive geometry hypothesis, alone. -/
theorem aggregation_fails_closed :
    (∀ decisions : List DecodeV2Decision, decisions ≠ [] →
      (∀ decision ∈ decisions, Returnable decision) →
      ∃ summary, aggregateDecisions decisions = .ok summary ∧
        aggregateUnknownPageDecisions decisions = .ok summary ∧
        (∀ issuanceId, summary.Attributed issuanceId ↔ Unanimous decisions issuanceId) ∧
        (∀ decisions', decisions.Perm decisions' →
          aggregateDecisions decisions' = .ok summary ∧
          aggregateUnknownPageDecisions decisions' = .ok summary) ∧
        ∀ page, Returnable page →
          (page.status = .partialPayloadEvidence ∨ page.status = .decoded ∧
            ∃ decision ∈ decisions, decision.status = .decoded ∧
              decision.issuanceId ≠ page.issuanceId) →
          ∀ decisions', (page :: decisions).Perm decisions' →
            ∃ summary', aggregateDecisions decisions' = .ok summary' ∧
              aggregateUnknownPageDecisions decisions' = .ok summary' ∧
              summary'.status ≠ .decoded ∧ summary'.issuanceId = none) ∧
    ∀ (maxPdfPages pagesAnalyzed : Nat) (candidates : List FingerprintV2Profile)
      (canonical : Canvas) (restored : Option Canvas) (summary : DecodeSummary)
      (issuanceId : UUID),
      decodeContent maxPdfPages candidates (.image canonical restored) =
          .ok (summary, pagesAnalyzed) → summary.Attributed issuanceId →
      ∃ earlier page later, geometryHypotheses canonical restored = earlier ++ page :: later ∧
        (∀ other ∈ earlier, ∃ attempt, hypothesisSummary candidates other = .ok attempt ∧
          attempt.status.conclusive = false) ∧
        hypothesisSummary candidates page = .ok summary := by
  constructor
  · intro decisions hne hreturnable
    obtain ⟨summary, hsummary, hattributed⟩ := aggregateDecisions_attributed hne
    refine ⟨summary, hsummary, ?_, hattributed, ?_, ?_⟩
    · rw [aggregateUnknownPageDecisions_eq hne hreturnable, hsummary]
    · intro decisions' hperm
      have hne' : decisions' ≠ [] := fun hnil ↦ hne (List.perm_nil.mp (hnil ▸ hperm))
      have hreturnable' : ∀ decision ∈ decisions', Returnable decision :=
        fun decision hdecision ↦ hreturnable decision (hperm.mem_iff.mpr hdecision)
      rw [aggregateUnknownPageDecisions_eq hne' hreturnable', aggregateDecisions_perm hne hperm,
        and_self]
      exact hsummary
    · intro page hpage hcontradicts decisions' hperm
      -- the page contradicts the others wherever it stands among them
      have hcontradicted : Contradicted (page :: decisions) := by
        rcases hcontradicts with hpartial | ⟨hdecoded, decision, hdecision, hstatus, hdiffer⟩
        · exact .inl ⟨page, List.mem_cons_self, hpartial⟩
        · exact .inr ⟨_, mem_decodedIds.mpr ⟨decision, List.mem_cons_of_mem _ hdecision, hstatus,
            rfl⟩, _, mem_decodedIds.mpr ⟨page, List.mem_cons_self, hdecoded, rfl⟩, hdiffer⟩
      have hcontradicted' := hcontradicted.mono hperm.subset
      have hne' : decisions' ≠ [] :=
        fun hnil ↦ List.cons_ne_nil page decisions (List.perm_nil.mp (hnil ▸ hperm))
      have hreturnable' : ∀ decision ∈ decisions', Returnable decision := by
        intro decision hdecision
        rcases List.mem_cons.mp (hperm.mem_iff.mpr hdecision) with rfl | hold
        · exact hpage
        · exact hreturnable decision hold
      refine ⟨_, aggregateDecisions_contradicted hcontradicted', ?_, DecodeStatus.noConfusion, rfl⟩
      rw [aggregateUnknownPageDecisions_eq hne' hreturnable',
        aggregateDecisions_contradicted hcontradicted']
  · intro maxPdfPages pagesAnalyzed candidates canonical restored summary issuanceId h hattributed
    simp only [decodeContent, bind_eq_ok, pure_eq_ok, Prod.mk.injEq] at h
    obtain ⟨summary', hsummary, rfl, -⟩ := h
    exact firstConclusiveSummary_attributed (fun earlier h ↦ absurd h (Option.not_mem_none _))
      hsummary hattributed.1

end Splitbind
