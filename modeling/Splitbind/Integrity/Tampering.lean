import Splitbind.Integrity.AcceptedProfile
import Splitbind.Library.Cosine

/-!
# Tampering — what altered regions cost, and what they give away

The loops of the verifier count, for every region, the verdict of a quorum of copies.  When some
regions of an intact page are altered, only these and the regions that lose a quorum of copies with
them can be accused; and an altered region is accused unless its copies went with it.
-/

namespace Splitbind

open Transaction Replication

/-! ## 1. What the loops count -/

section Counts

variable {K : Type} [Field K] [LinearOrder K] [FloorRing K] (tools : IntegrityTools K)
  (profile : IntegrityProfile) (regions : List (Nat × Nat)) (partners : List (List Nat))
  (luminance : Image UInt8)

/-- What the copy of a tag says of the tag that is expected. -/
def copyState (expectedTag : List UInt8) (source : Nat) (replica : List Nat × Nat) : Copy :=
  let corner := regions.getD (destination replica source) (0, 0)
  let (actual, confidence) := extractBits tools (regionAt profile.regionSize luminance corner)
    (replicaPositions profile replica) (profile.qimDelta : K)
  if (profile.minimumBitConfidence : K) ≤ confidence then
    if actual = expectedTag then .agrees else .differs
  else .unreadable

/-- The verdict of the copies of a tag. -/
def regionVerdict (expected : List UInt8 × Nat) : Verdict :=
  verdict profile.minimumReplicaVotes
    (partners.zipIdx.map (copyState tools profile regions luminance expected.1 expected.2))

/-- A copy counts for what it says. -/
theorem tallyCopy_counts (expectedTag : List UInt8) (source : Nat) (tally : CopyTally K)
    (replica : List Nat × Nat) :
    (tallyCopy tools profile regions luminance expectedTag source tally replica).matchVotes =
        tally.matchVotes +
          [copyState tools profile regions luminance expectedTag source replica].count .agrees ∧
      (tallyCopy tools profile regions luminance expectedTag source tally replica).mismatchVotes =
        tally.mismatchVotes +
          [copyState tools profile regions luminance expectedTag source replica].count
            .differs := by
  unfold tallyCopy copyState
  dsimp only
  split_ifs <;> exact ⟨rfl, rfl⟩

theorem tallyCopies_counts (expectedTag : List UInt8) (source : Nat)
    (replicas : List (List Nat × Nat)) (tally : CopyTally K) :
    (replicas.foldl (tallyCopy tools profile regions luminance expectedTag source)
          tally).matchVotes = tally.matchVotes +
        (replicas.map (copyState tools profile regions luminance expectedTag source)).count
          .agrees ∧
      (replicas.foldl (tallyCopy tools profile regions luminance expectedTag source)
          tally).mismatchVotes = tally.mismatchVotes +
        (replicas.map (copyState tools profile regions luminance expectedTag source)).count
          .differs := by
  induction replicas generalizing tally with
  | nil => exact ⟨rfl, rfl⟩
  | cons replica replicas ih =>
    obtain ⟨hmatch, hmismatch⟩ := tallyCopy_counts tools profile regions luminance expectedTag source
      tally replica
    obtain ⟨hmatches, hmismatches⟩ := ih
      (tallyCopy tools profile regions luminance expectedTag source tally replica)
    have happend : ∀ copy : Copy,
        ((replica :: replicas).map
            (copyState tools profile regions luminance expectedTag source)).count copy =
          [copyState tools profile regions luminance expectedTag source replica].count copy +
            (replicas.map
              (copyState tools profile regions luminance expectedTag source)).count copy := by
      intro copy
      rw [List.map_cons, ← List.singleton_append, List.count_append]
    rw [List.foldl_cons, hmatches, hmismatches, hmatch, hmismatch, happend, happend]
    exact ⟨Nat.add_assoc _ _ _, Nat.add_assoc _ _ _⟩

/-- A region counts for the verdict of its copies. -/
theorem tallyRegion_counts (tally : RegionTally K) (expected : List UInt8 × Nat) :
    (tallyRegion tools profile regions partners luminance tally expected).suspiciousIndexes =
        tally.suspiciousIndexes ++
          ([expected].filter fun row ↦
            regionVerdict tools profile regions partners luminance row = .mismatching).map
              Prod.snd ∧
      (tallyRegion tools profile regions partners luminance tally expected).matched =
        tally.matched + [expected].countP (fun row ↦
          regionVerdict tools profile regions partners luminance row = .matching) ∧
      (tallyRegion tools profile regions partners luminance tally expected).mismatchCount =
        tally.mismatchCount + [expected].countP (fun row ↦
          regionVerdict tools profile regions partners luminance row = .mismatching) ∧
      (tallyRegion tools profile regions partners luminance tally expected).indeterminateCount =
        tally.indeterminateCount + [expected].countP (fun row ↦
          regionVerdict tools profile regions partners luminance row = .undecided) := by
  obtain ⟨hmatch, hmismatch⟩ := tallyCopies_counts tools profile regions luminance expected.1
    expected.2 partners.zipIdx ⟨0, 0, tally.confidences⟩
  rw [Nat.zero_add] at hmatch hmismatch
  -- the votes that the loop compares with the quorum are those of the verdict
  have hverdict : regionVerdict tools profile regions partners luminance expected =
      if profile.minimumReplicaVotes ≤ (partners.zipIdx.foldl
          (tallyCopy tools profile regions luminance expected.1 expected.2)
          ⟨0, 0, tally.confidences⟩).matchVotes then .matching
      else if profile.minimumReplicaVotes ≤ (partners.zipIdx.foldl
          (tallyCopy tools profile regions luminance expected.1 expected.2)
          ⟨0, 0, tally.confidences⟩).mismatchVotes then .mismatching
      else .undecided := by
    rw [hmatch, hmismatch]
    rfl
  unfold tallyRegion
  dsimp only
  split_ifs with hmatching hmismatching
  · rw [if_pos hmatching] at hverdict
    simp [hverdict]
  · rw [if_neg hmatching, if_pos hmismatching] at hverdict
    simp [hverdict]
  · rw [if_neg hmatching, if_neg hmismatching] at hverdict
    simp [hverdict]

/-- What the outer loop has counted behind some regions. -/
structure RegionTally.Counts (tally : RegionTally K) (verdictOf : List UInt8 × Nat → Verdict)
    (expected : List (List UInt8 × Nat)) : Prop where
  suspiciousIndexes : tally.suspiciousIndexes =
    (expected.filter fun row ↦ verdictOf row = .mismatching).map Prod.snd
  matched : tally.matched = expected.countP fun row ↦ verdictOf row = .matching
  mismatchCount : tally.mismatchCount = expected.countP fun row ↦ verdictOf row = .mismatching
  indeterminateCount : tally.indeterminateCount =
    expected.countP fun row ↦ verdictOf row = .undecided

theorem tallyRegions_counts (expected : List (List UInt8 × Nat)) :
    (expected.foldl (tallyRegion tools profile regions partners luminance)
      RegionTally.empty).Counts (regionVerdict tools profile regions partners luminance)
        expected := by
  induction expected using List.reverseRecOn with
  | nil => exact ⟨rfl, rfl, rfl, rfl⟩
  | append_singleton rows row ih =>
    rw [List.foldl_concat]
    obtain ⟨hsuspicious, hmatched, hmismatch, hundecided⟩ :=
      tallyRegion_counts tools profile regions partners luminance
        (rows.foldl (tallyRegion tools profile regions partners luminance) RegionTally.empty) row
    constructor
    · rw [hsuspicious, ih.suspiciousIndexes, List.filter_append, List.map_append]
    · rw [hmatched, ih.matched, List.countP_append]
    · rw [hmismatch, ih.mismatchCount, List.countP_append]
    · rw [hundecided, ih.indeterminateCount, List.countP_append]

omit [Field K] [LinearOrder K] [FloorRing K] in
/-- A region that does not match counts as a mismatch or as undecided. -/
theorem RegionTally.Counts.failing {tally : RegionTally K}
    {verdictOf : List UInt8 × Nat → Verdict} {expected : List (List UInt8 × Nat)}
    (h : tally.Counts verdictOf expected) :
    tally.mismatchCount + tally.indeterminateCount =
        expected.countP (fun row ↦ verdictOf row ≠ .matching) ∧
      tally.matched + expected.countP (fun row ↦ verdictOf row ≠ .matching) =
        expected.length := by
  rw [h.mismatchCount, h.indeterminateCount, h.matched]
  exact countP_verdicts verdictOf expected

omit [Field K] [LinearOrder K] [FloorRing K] in
/-- What the verifier suspects are the regions with the verdict of a mismatch. -/
theorem RegionTally.Counts.mem_suspiciousIndexes {tally : RegionTally K}
    {verdictOf : List UInt8 × Nat → Verdict} {tags : List (List UInt8)}
    (h : tally.Counts verdictOf tags.zipIdx) {index : Nat} :
    index ∈ tally.suspiciousIndexes ↔
      ∃ tag, tags[index]? = some tag ∧ verdictOf (tag, index) = .mismatching := by
  rw [h.suspiciousIndexes, List.mem_map]
  constructor
  · rintro ⟨⟨tag, index⟩, hrow, rfl⟩
    rw [List.mem_filter, List.mem_zipIdx_iff_getElem?, decide_eq_true_eq] at hrow
    exact ⟨tag, hrow⟩
  · rintro ⟨tag, htag, hverdict⟩
    refine ⟨(tag, index), ?_, rfl⟩
    rw [List.mem_filter, List.mem_zipIdx_iff_getElem?, decide_eq_true_eq]
    exact ⟨htag, hverdict⟩

omit [Field K] [LinearOrder K] [FloorRing K] in
/-- And each of them once. -/
theorem RegionTally.Counts.nodup_suspiciousIndexes {tally : RegionTally K}
    {verdictOf : List UInt8 × Nat → Verdict} {tags : List (List UInt8)}
    (h : tally.Counts verdictOf tags.zipIdx) : tally.suspiciousIndexes.Nodup := by
  have hplaces : (tags.zipIdx.map Prod.snd).Nodup := by
    rw [List.zipIdx_map_snd]
    exact List.nodup_range'
  rw [h.suspiciousIndexes]
  exact hplaces.sublist (List.filter_sublist.map _)

end Counts

/-! ## 2. What the verifier decides -/

section Decided

variable {K : Type} [Field K] [LinearOrder K] [FloorRing K] (tools : IntegrityTools K)
  (profile : IntegrityProfile) (page : IntegrityPage) (key nonce : List UInt8)

/-- The corners of the complete regions of a page. -/
def pageRegions : List (Nat × Nat) := integrityRegions page.shape profile.regionSize

def pageTags : Except IntegrityError (List (List UInt8)) :=
  regionTags tools profile (pageLuminance tools page) (pageRegions profile page) nonce key

def pagePartners : Except IntegrityError (List (List Nat)) :=
  partnerRegions tools.hmac (pageRegions profile page).length key nonce profile

/-- What a copy in a page says of the tag that is expected. -/
def pageCopy (expectedTag : List UInt8) (source : Nat) (replica : List Nat × Nat) : Copy :=
  copyState tools profile (pageRegions profile page) (pageLuminance tools page) expectedTag source
    replica

def pageVerdict (partners : List (List Nat)) (expected : List UInt8 × Nat) : Verdict :=
  regionVerdict tools profile (pageRegions profile page) partners (pageLuminance tools page) expected

/-- How a decision comes from the verdicts of the regions. -/
structure Judged (tags : List (List UInt8)) (partners : List (List Nat)) (tally : RegionTally K)
    (decision : IntegrityDecision K) : Prop where
  tagged : pageTags tools profile page key nonce = .ok tags
  partnered : pagePartners tools profile page key nonce = .ok partners
  counts : tally.Counts (pageVerdict tools profile page partners) tags.zipIdx
  score : decision.score = (tally.matched : K) / ((pageRegions profile page).length : K)
  evaluated : decision.evaluatedRegions = (pageRegions profile page).length
  limitations : decision.limitations =
    pageLimitations profile (pageRegions profile page).length tally
  accused : suspiciousRects page.shape profile.regionSize (pageRegions profile page)
    decision.limitations tally.suspiciousIndexes = .ok decision.suspiciousRegions

variable {tools profile page key nonce}

theorem shape_of_validateInputs {shape : Nat × Nat}
    (h : validateInputs page.input (some key) (some nonce) profile = .ok shape) :
    shape = page.shape := by
  cases page with
  | gray image =>
    simp only [IntegrityPage.input, validateInputs, bind_eq_ok, exists_unit, pure_eq_ok] at h
    obtain ⟨-, -, -, -, -, -, -, rfl⟩ := h
    rfl
  | bgr image =>
    simp only [IntegrityPage.input, validateInputs, bind_eq_ok, exists_unit, pure_eq_ok] at h
    obtain ⟨-, -, -, -, -, -, -, rfl⟩ := h
    rfl

/-- A decision on a page with enough regions comes from their verdicts. -/
theorem judged_of_verify {value : ProfileValue} {decision : IntegrityDecision K}
    (hprofile : validateIntegrityProfile tools.sha256 tools.numbers value = .ok profile)
    (henough : profile.minimumRegions ≤ (pageRegions profile page).length)
    (h : verifyIntegrity tools page key nonce value = .ok decision) :
    ∃ tags partners tally, Judged tools profile page key nonce tags partners tally decision := by
  simp only [verifyIntegrity, bind_eq_ok, hprofile, Except.ok.injEq, exists_eq_left'] at h
  obtain ⟨shape, hinputs, h⟩ := h
  obtain rfl := shape_of_validateInputs hinputs
  have hmany : ¬ (integrityRegions page.shape profile.regionSize).length <
      profile.minimumRegions := Nat.not_lt_of_le henough
  rw [if_neg hmany] at h
  simp only [bind_eq_ok, pure_eq_ok] at h
  obtain ⟨tags, htags, partners, hpartners, suspicious, hsuspicious, rfl⟩ := h
  exact ⟨tags, partners, _, htags, hpartners, tallyRegions_counts tools profile _ partners _ _, rfl,
    rfl, rfl, hsuspicious⟩

end Decided

section Total

/-- A complete region lies in its page. -/
theorem corner_le {shape corner : Nat × Nat} {regionSize : Nat}
    (h : corner ∈ integrityRegions shape regionSize) :
    corner.1 + regionSize ≤ shape.2 ∧ corner.2 + regionSize ≤ shape.1 := by
  have hside : ∀ side start, start ∈ rangeStep (side + 1 - regionSize) regionSize →
      start + regionSize ≤ side := by
    intro side start hstart
    rw [rangeStep, List.mem_range'] at hstart
    obtain ⟨i, hi, rfl⟩ := hstart
    have hcount : (i + 1) * regionSize ≤ side + 1 - regionSize + regionSize - 1 :=
      (Nat.mul_le_mul_right _ hi).trans (Nat.div_mul_le_self _ _)
    rw [Nat.succ_mul, mul_comm] at hcount
    omega
  unfold integrityRegions at h
  obtain ⟨y, hrow, hcorner⟩ := List.mem_flatMap.mp h
  obtain ⟨x, hcolumn, rfl⟩ := List.mem_map.mp hcorner
  exact ⟨hside _ _ hcolumn, hside _ _ hrow⟩

variable {K : Type} [Field K] [LinearOrder K] [IsStrictOrderedRing K]

/-- So it has a rectangle in the coordinates of the page. -/
theorem regionRect_total {shape corner : Nat × Nat} {regionSize : Nat} (hpos : 0 < regionSize)
    (h : corner ∈ integrityRegions shape regionSize) :
    ∃ rect : NormalizedRect K, regionRect shape regionSize corner = .ok rect := by
  obtain ⟨hx, hy⟩ := corner_le h
  have hwidth : (0 : K) < (shape.2 : K) := by exact_mod_cast (by omega : 0 < shape.2)
  have hheight : (0 : K) < (shape.1 : K) := by exact_mod_cast (by omega : 0 < shape.1)
  have hsize : (0 : K) < (regionSize : K) := by exact_mod_cast hpos
  have hright : (corner.1 : K) + (regionSize : K) ≤ (shape.2 : K) := by exact_mod_cast hx
  have hbottom : (corner.2 : K) + (regionSize : K) ≤ (shape.1 : K) := by exact_mod_cast hy
  have hrect : normalizedRect ((corner.1 : K) / (shape.2 : K)) ((corner.2 : K) / (shape.1 : K))
      ((regionSize : K) / (shape.2 : K)) ((regionSize : K) / (shape.1 : K)) =
        .ok ⟨(corner.1 : K) / (shape.2 : K), (corner.2 : K) / (shape.1 : K),
          (regionSize : K) / (shape.2 : K), (regionSize : K) / (shape.1 : K)⟩ := by
    simp only [normalizedRect, bind_eq_ok, exists_unit, raiseIf_eq_ok, pure_eq_ok, not_or, not_lt,
      not_le, and_true]
    refine ⟨⟨by positivity, by positivity, by positivity, by positivity⟩, ?_, ?_⟩
    · rw [← add_div, div_le_one hwidth]
      exact hright
    · rw [← add_div, div_le_one hheight]
      exact hbottom
  rw [regionRect, hrect]
  exact ⟨_, rfl⟩

/-- A page whose regions have tags and partners is decided on. -/
theorem verifyIntegrity_total [FloorRing K] {tools : IntegrityTools K} {profile : IntegrityProfile}
    {page : IntegrityPage} {key nonce : List UInt8} {value : ProfileValue}
    {tags : List (List UInt8)} {partners : List (List Nat)}
    (hprofile : validateIntegrityProfile tools.sha256 tools.numbers value = .ok profile)
    (hinputs : validateInputs page.input (some key) (some nonce) profile = .ok page.shape)
    (henough : profile.minimumRegions ≤ (pageRegions profile page).length)
    (htags : pageTags tools profile page key nonce = .ok tags)
    (htagged : tags.length = (pageRegions profile page).length)
    (hpartners : pagePartners tools profile page key nonce = .ok partners) :
    ∃ decision : IntegrityDecision K, verifyIntegrity tools page key nonce value = .ok decision := by
  have hsize : 0 < profile.regionSize := by
    rw [(wellFormed_of_validate hprofile).regionSize]
    decide
  have hcounts := tallyRegions_counts tools profile (pageRegions profile page) partners
    (pageLuminance tools page) tags.zipIdx
  set tally := tags.zipIdx.foldl (tallyRegion tools profile (pageRegions profile page) partners
    (pageLuminance tools page)) RegionTally.empty with htally
  obtain ⟨suspicious, hsuspicious⟩ : ∃ suspicious : List (NormalizedRect K),
      suspiciousRects page.shape profile.regionSize (pageRegions profile page)
        (pageLimitations profile (pageRegions profile page).length tally)
          tally.suspiciousIndexes = .ok suspicious := by
    unfold suspiciousRects
    split_ifs
    · exact ⟨[], rfl⟩
    · apply mapM_total
      intro index hindex
      obtain ⟨tag, htag, -⟩ := hcounts.mem_suspiciousIndexes.mp hindex
      have hlt : index < (pageRegions profile page).length := by
        rw [← htagged]
        exact (List.getElem?_eq_some_iff.mp htag).1
      rw [List.getD_eq_getElem _ _ hlt]
      exact regionRect_total hsize (List.getElem_mem hlt)
  have hmany : ¬ (integrityRegions page.shape profile.regionSize).length <
      profile.minimumRegions := Nat.not_lt_of_le henough
  refine ⟨⟨(tally.matched : K) / ((pageRegions profile page).length : K), suspicious,
    (pageRegions profile page).length,
    pageLimitations profile (pageRegions profile page).length tally⟩, ?_⟩
  simp only [verifyIntegrity, bind_eq_ok]
  refine ⟨profile, hprofile, page.shape, hinputs, ?_⟩
  rw [if_neg hmany]
  simp only [bind_eq_ok, pure_eq_ok]
  exact ⟨tags, htags, partners, hpartners, suspicious, hsuspicious, rfl⟩

end Total

/-! ## 3. Partner regions -/

section Partnered

variable {hmac : HmacSha256} {count : Nat} {key nonce : List UInt8} {profile : IntegrityProfile}
  {partners : List (List Nat)}

/-- Mappings that are given out are independent, whatever the shifts of the profile. -/
theorem independent_of_partnerRegions (hpos : 0 < count)
    (h : partnerRegions hmac count key nonce profile = .ok partners) :
    IndependentMappings count partners ∧ partners.length = profile.replicaShifts.length := by
  have horder : ∃ order, partnerOrder hmac count key nonce profile = .ok order := by
    simp only [partnerRegions, bind_eq_ok] at h
    obtain ⟨order, horder, -⟩ := h
    exact ⟨order, horder⟩
  have hfits : count ≤ 2 ^ 32 := by
    by_contra hlarge
    rw [partnerOrder_of_lt (Nat.lt_of_not_le hlarge)] at horder
    obtain ⟨order, horder⟩ := horder
    cases horder
  have hshifts : Rotation.Independent profile.replicaShifts count := by
    simp only [partnerRegions, bind_eq_ok, exists_unit, raiseIf_eq_ok, not_or, not_not] at h
    obtain ⟨-, -, -, hindependent, -⟩ := h
    exact hindependent
  obtain ⟨order, horder, hperm⟩ := partnerOrder_of_le hfits
  have hmappings := partnerRegions_of_order horder hperm hpos hshifts
  rw [Except.ok.inj (h.symm.trans hmappings)]
  refine ⟨rotations_independent hperm hpos hshifts, ?_⟩
  rw [List.length_map, List.length_map]

/-- A replica keeps the tags of all regions in all regions. -/
theorem destination_lt (h : IndependentMappings count partners) {replica : List Nat × Nat}
    (hreplica : replica ∈ partners.zipIdx) {source : Nat} (hsource : source < count) :
    destination replica source < count := by
  have hperm := h.bijective replica.1 (List.fst_mem_of_mem_zipIdx hreplica)
  have hlt : source < replica.1.length := by
    rw [hperm.length_eq, List.length_range]
    exact hsource
  unfold destination
  rw [List.getD_eq_getElem _ _ hlt]
  exact List.mem_range.mp (hperm.mem_iff.mp (List.getElem_mem hlt))

theorem destination_injOn (h : IndependentMappings count partners) {replica : List Nat × Nat}
    (hreplica : replica ∈ partners.zipIdx) :
    Set.InjOn (destination replica) (Finset.range count) := by
  have hperm := h.bijective replica.1 (List.fst_mem_of_mem_zipIdx hreplica)
  have hnodup : replica.1.Nodup := hperm.nodup_iff.mpr List.nodup_range
  have hlength : replica.1.length = count := hperm.length_eq.trans List.length_range
  intro source hsource other hother hsame
  rw [Finset.mem_coe, Finset.mem_range, ← hlength] at hsource hother
  unfold destination at hsame
  rw [List.getD_eq_getElem _ _ hsource, List.getD_eq_getElem _ _ hother] at hsame
  exact (hnodup.getElem_inj_iff).mp hsame

/-- Few regions have a quorum of their copies in few others. -/
theorem quorum_mul_exposed_le (h : IndependentMappings count partners) (altered : Finset Nat)
    (quorum : Nat) :
    quorum * (exposed destination partners.zipIdx altered (Finset.range count) quorum).card ≤
      partners.length * altered.card :=
  calc _ ≤ partners.zipIdx.length * altered.card :=
        quorum_mul_card_exposed_le (fun _ hreplica ↦ destination_injOn h hreplica) quorum
    _ = partners.length * altered.card := by rw [List.length_zipIdx]

end Partnered

/-! ## 4. Altered regions -/

section Altered

variable {K : Type} [Field K] [LinearOrder K] [FloorRing K]

/-- A page with its tags, in which every copy of every tag is clear and right. -/
structure Intact (tools : IntegrityTools K) (profile : IntegrityProfile) (page : IntegrityPage)
    (key nonce : List UInt8) (tags : List (List UInt8)) (partners : List (List Nat)) : Prop where
  tagged : pageTags tools profile page key nonce = .ok tags
  partnered : pagePartners tools profile page key nonce = .ok partners
  copies : ∀ source tag, tags[source]? = some tag → ∀ replica ∈ partners.zipIdx,
    pageCopy tools profile page tag source replica = .agrees

/-- Two pages of one shape have the same samples of luminance in all regions but the altered ones. -/
structure AlteredIn (tools : IntegrityTools K) (profile : IntegrityProfile)
    (before after : IntegrityPage) (altered : Finset Nat) : Prop where
  shape : before.shape = after.shape
  same : ∀ index corner, (pageRegions profile before)[index]? = some corner → index ∉ altered →
    regionAt profile.regionSize (pageLuminance tools before) corner =
      regionAt profile.regionSize (pageLuminance tools after) corner

/-- How many regions can fail to match when some are altered: these, and those that lose too many of
their copies with them. -/
def damageBound (profile : IntegrityProfile) (altered : Finset Nat) : Nat :=
  altered.card + profile.replicaShifts.length * altered.card /
    (profile.replicaShifts.length + 1 - profile.minimumReplicaVotes)

variable {tools : IntegrityTools K} {profile : IntegrityProfile} {before after : IntegrityPage}
  {key nonce : List UInt8} {tags tags' : List (List UInt8)} {partners : List (List Nat)}
  {altered : Finset Nat}

omit [Field K] [LinearOrder K] [FloorRing K] in
theorem AlteredIn.regions (h : AlteredIn tools profile before after altered) :
    pageRegions profile before = pageRegions profile after := by
  unfold pageRegions
  rw [h.shape]

/-- A tag belongs to the region it was made of. -/
theorem tag_of_region {page : IntegrityPage}
    (h : pageTags tools profile page key nonce = .ok tags) :
    tags.length = (pageRegions profile page).length ∧
      ∀ (index : Nat) tag, tags[index]? = some tag →
        ∃ corner feature, (pageRegions profile page)[index]? = some corner ∧
          contentFeature tools profile
            (regionAt profile.regionSize (pageLuminance tools page) corner) = .ok feature ∧
          regionTag tools feature index nonce key = .ok tag := by
  simp only [pageTags, regionTags, bind_eq_ok] at h
  obtain ⟨features, hfeatures, htags⟩ := h
  have hfeatures' := mapM_forall₂ hfeatures
  have htags' := mapM_forall₂ htags
  constructor
  · rw [← htags'.length_eq, List.length_zipIdx, hfeatures'.length_eq]
  · intro index tag htag
    obtain ⟨hlt, rfl⟩ := List.getElem?_eq_some_iff.mp htag
    have hlt' : index < features.zipIdx.length := htags'.length_eq ▸ hlt
    have hlt'' : index < features.length := by rwa [List.length_zipIdx] at hlt'
    have hcorner : index < (pageRegions profile page).length := hfeatures'.length_eq ▸ hlt''
    have htagged := htags'.get hlt' hlt
    have hfeature := hfeatures'.get hcorner hlt''
    rw [List.get_eq_getElem, List.get_eq_getElem, List.getElem_zipIdx, Nat.zero_add] at htagged
    rw [List.get_eq_getElem, List.get_eq_getElem] at hfeature
    exact ⟨_, _, List.getElem?_eq_getElem hcorner, hfeature, htagged⟩

/-- A region that was not altered is still given its tag. -/
theorem AlteredIn.tag_eq (h : AlteredIn tools profile before after altered)
    (hbefore : pageTags tools profile before key nonce = .ok tags)
    (hafter : pageTags tools profile after key nonce = .ok tags') {index : Nat}
    (hindex : index ∉ altered) : tags'[index]? = tags[index]? := by
  obtain ⟨hlength, hmade⟩ := tag_of_region hbefore
  obtain ⟨hlength', hmade'⟩ := tag_of_region hafter
  rw [← h.regions, ← hlength] at hlength'
  rcases Nat.lt_or_ge index tags.length with hlt | hge
  · have htag := List.getElem?_eq_getElem hlt
    have htag' := List.getElem?_eq_getElem (hlength'.symm ▸ hlt : index < tags'.length)
    obtain ⟨corner, feature, hcorner, hfeature, hmade⟩ := hmade index _ htag
    obtain ⟨corner', feature', hcorner', hfeature', hmade'⟩ := hmade' index _ htag'
    -- the same corner, so the same samples, so the same feature
    rw [← h.regions] at hcorner'
    obtain rfl : corner = corner' := Option.some.inj (hcorner.symm.trans hcorner')
    rw [← h.same index corner hcorner hindex] at hfeature'
    obtain rfl : feature = feature' := Except.ok.inj (hfeature.symm.trans hfeature')
    rw [htag, htag', Except.ok.inj (hmade.symm.trans hmade')]
  · rw [List.getElem?_eq_none hge, List.getElem?_eq_none (hlength'.symm ▸ hge)]

/-- A copy in a region that was not altered says what it said. -/
theorem AlteredIn.copy_eq (h : AlteredIn tools profile before after altered)
    {replica : List Nat × Nat} {source : Nat}
    (hlt : destination replica source < (pageRegions profile before).length)
    (hout : destination replica source ∉ altered) (expectedTag : List UInt8) :
    pageCopy tools profile after expectedTag source replica =
      pageCopy tools profile before expectedTag source replica := by
  have hcorner := List.getElem?_eq_getElem hlt
  have hsame := h.same _ _ hcorner hout
  have hread : (pageRegions profile before).getD (destination replica source) (0, 0) =
      (pageRegions profile before)[destination replica source] := List.getD_eq_getElem _ _ hlt
  unfold pageCopy copyState
  rw [← h.regions, hread]
  dsimp only
  rw [hsame]

/-- A copy that agrees with a tag differs from any other. -/
theorem copy_differs {page : IntegrityPage} {tag other : List UInt8} {source : Nat}
    {replica : List Nat × Nat} (h : pageCopy tools profile page tag source replica = .agrees)
    (hother : other ≠ tag) : pageCopy tools profile page other source replica = .differs := by
  unfold pageCopy copyState at h ⊢
  dsimp only at h ⊢
  split_ifs at h with hclear hagree
  rw [if_pos hclear, hagree, if_neg hother.symm]

/-- Outside the damage all copies of a region that was not altered agree, as they did. -/
theorem Intact.copies_kept (hintact : Intact tools profile before key nonce tags partners)
    (haltered : AlteredIn tools profile before after altered)
    (hpos : 0 < (pageRegions profile before).length)
    (htags' : pageTags tools profile after key nonce = .ok tags') {source : Nat}
    {tag : List UInt8} (htag : tags'[source]? = some tag) (hsource : source ∉ altered) :
    ∀ replica ∈ partners.zipIdx, destination replica source ∉ altered →
      pageCopy tools profile after tag source replica = .agrees := by
  intro replica hreplica hout
  obtain ⟨hindependent, -⟩ := independent_of_partnerRegions hpos hintact.partnered
  rw [haltered.tag_eq hintact.tagged htags' hsource] at htag
  have hlt : source < (pageRegions profile before).length := by
    rw [← (tag_of_region hintact.tagged).1]
    exact (List.getElem?_eq_some_iff.mp htag).1
  rw [haltered.copy_eq (destination_lt hindependent hreplica hlt) hout]
  exact hintact.copies source tag htag replica hreplica

/-- The copies of a region whose tag changed differ from the new one, where they were kept. -/
theorem Intact.copies_changed (hintact : Intact tools profile before key nonce tags partners)
    (haltered : AlteredIn tools profile before after altered)
    (hpos : 0 < (pageRegions profile before).length) {source : Nat} {tag tag' : List UInt8}
    (htag : tags[source]? = some tag) (hchanged : tag' ≠ tag) :
    ∀ replica ∈ partners.zipIdx, destination replica source ∉ altered →
      pageCopy tools profile after tag' source replica = .differs := by
  intro replica hreplica hout
  obtain ⟨hindependent, -⟩ := independent_of_partnerRegions hpos hintact.partnered
  have hlt : source < (pageRegions profile before).length := by
    rw [← (tag_of_region hintact.tagged).1]
    exact (List.getElem?_eq_some_iff.mp htag).1
  rw [haltered.copy_eq (destination_lt hindependent hreplica hlt) hout]
  exact copy_differs (hintact.copies source tag htag replica hreplica) hchanged

/-- The regions that a page fails to match are few when few were altered. -/
theorem card_failing_le (hprofile : profile.WellFormed)
    (hintact : Intact tools profile before key nonce tags partners)
    (haltered : AlteredIn tools profile before after altered)
    (hpos : 0 < (pageRegions profile before).length)
    (htags' : pageTags tools profile after key nonce = .ok tags') :
    (tags'.zipIdx.countP fun row ↦
      pageVerdict tools profile after partners row ≠ .matching) ≤ damageBound profile altered := by
  obtain ⟨hindependent, hreplicas⟩ := independent_of_partnerRegions hpos hintact.partnered
  set failing := ((tags'.zipIdx.filter fun row ↦
    pageVerdict tools profile after partners row ≠ .matching).map Prod.snd).toFinset with hfailing
  set exposedSources := exposed destination partners.zipIdx altered
    (Finset.range (pageRegions profile before).length)
      (profile.replicaShifts.length + 1 - profile.minimumReplicaVotes) with hexposed
  have hcard : failing.card = tags'.zipIdx.countP fun row ↦
      pageVerdict tools profile after partners row ≠ .matching := by
    have hplaces : (tags'.zipIdx.map Prod.snd).Nodup := by
      rw [List.zipIdx_map_snd]
      exact List.nodup_range'
    rw [hfailing, List.toFinset_card_of_nodup (hplaces.sublist (List.filter_sublist.map _)),
      List.length_map, List.countP_eq_length_filter]
  -- what fails was altered, or keeps less than a quorum of its copies
  have hsub : failing ⊆ altered ∪ exposedSources := by
    intro source hsource
    rw [hfailing, List.mem_toFinset] at hsource
    obtain ⟨row, hrow, rfl⟩ := List.mem_map.mp hsource
    rw [List.mem_filter, decide_eq_true_eq] at hrow
    obtain ⟨hrow, hverdict⟩ := hrow
    have htag : tags'[row.2]? = some row.1 := List.mem_zipIdx_iff_getElem?.mp hrow
    by_cases hin : row.2 ∈ altered
    · exact Finset.mem_union_left _ hin
    · apply Finset.mem_union_right
      rw [hexposed, exposed, Finset.mem_filter, Finset.mem_range, haltered.regions,
        ← (tag_of_region htags').1]
      refine ⟨(List.getElem?_eq_some_iff.mp htag).1, ?_⟩
      by_contra hfew
      apply hverdict
      apply verdict_of_kept (hintact.copies_kept haltered hpos htags' htag hin)
      rw [List.length_zipIdx, hreplicas]
      have hvotes := hprofile.votesLe
      omega
  have hexposedCard : (profile.replicaShifts.length + 1 - profile.minimumReplicaVotes) *
      exposedSources.card ≤ profile.replicaShifts.length * altered.card := by
    refine (quorum_mul_exposed_le hindependent altered _).trans_eq ?_
    rw [hreplicas]
  have hspare : 0 < profile.replicaShifts.length + 1 - profile.minimumReplicaVotes := by
    have hvotes := hprofile.votesLe
    omega
  have hshare : exposedSources.card ≤ profile.replicaShifts.length * altered.card /
      (profile.replicaShifts.length + 1 - profile.minimumReplicaVotes) := by
    rw [Nat.le_div_iff_mul_le hspare, mul_comm]
    exact hexposedCard
  rw [← hcard, damageBound]
  exact (Finset.card_le_card hsub).trans
    ((Finset.card_union_le _ _).trans (Nat.add_le_add_left hshare _))

end Altered

/-- **Damage is contained.**  When some regions of an intact page are altered, a region is accused
only if it was altered or has lost a quorum of its copies with them.  Of the latter there are few, and
so are the regions that no longer match. -/
theorem damage_contained {K : Type} [Field K] [LinearOrder K] [FloorRing K]
    (tools : IntegrityTools K) (value : ProfileValue) (profile : IntegrityProfile)
    (before after : IntegrityPage) (key nonce : List UInt8) (tags : List (List UInt8))
    (partners : List (List Nat)) (altered : Finset Nat) (decision : IntegrityDecision K)
    (hprofile : validateIntegrityProfile tools.sha256 tools.numbers value = .ok profile)
    (henough : profile.minimumRegions ≤ (pageRegions profile after).length)
    (hintact : Intact tools profile before key nonce tags partners)
    (haltered : AlteredIn tools profile before after altered)
    (h : verifyIntegrity tools after key nonce value = .ok decision) :
    ∃ (accused : Finset Nat) (matched : Nat),
      (∀ rect ∈ decision.suspiciousRegions, ∃ index ∈ accused, ∃ corner,
        (pageRegions profile after)[index]? = some corner ∧
          regionRect after.shape profile.regionSize corner = .ok rect) ∧
      (∀ index ∈ accused, index ∈ altered ∨
        profile.minimumReplicaVotes ≤ lost destination partners.zipIdx altered index) ∧
      decision.suspiciousRegions.length ≤ accused.card ∧
      profile.minimumReplicaVotes * (accused \ altered).card ≤
        profile.replicaShifts.length * altered.card ∧
      decision.score = (matched : K) / ((pageRegions profile after).length : K) ∧
      (pageRegions profile after).length ≤ matched + damageBound profile altered := by
  have hwell := wellFormed_of_validate hprofile
  obtain ⟨tags', partners', tally, hjudged⟩ := judged_of_verify hprofile henough h
  have hpos : 0 < (pageRegions profile before).length := by
    rw [haltered.regions]
    exact (Nat.zero_le _).trans_lt (hwell.regions.trans_le henough)
  -- the ring does not depend on the samples
  obtain rfl : partners' = partners := by
    have hpartners := hintact.partnered
    unfold pagePartners at hpartners
    rw [haltered.regions] at hpartners
    exact Except.ok.inj (hjudged.partnered.symm.trans hpartners)
  obtain ⟨hindependent, hreplicas⟩ := independent_of_partnerRegions hpos hintact.partnered
  obtain ⟨hlength, -⟩ := tag_of_region hjudged.tagged
  have hcontained : ∀ index ∈ tally.suspiciousIndexes, index ∉ altered →
      profile.minimumReplicaVotes ≤ lost destination partners'.zipIdx altered index := by
    intro index hindex hout
    obtain ⟨tag, htag, hverdict⟩ := hjudged.counts.mem_suspiciousIndexes.mp hindex
    exact exposed_of_mismatching
      (hintact.copies_kept haltered hpos hjudged.tagged htag hout) hverdict
  refine ⟨tally.suspiciousIndexes.toFinset, tally.matched, ?_, ?_, ?_, ?_, hjudged.score, ?_⟩
  · intro rect hrect
    have haccused := hjudged.accused
    unfold suspiciousRects at haccused
    split_ifs at haccused
    · rw [← (pure_eq_ok _ _).mp haccused] at hrect
      cases hrect
    · obtain ⟨index, hindex, hrects⟩ := (mem_mapM_iff haccused).mp hrect
      obtain ⟨tag, htag, -⟩ := hjudged.counts.mem_suspiciousIndexes.mp hindex
      have hlt : index < (pageRegions profile after).length := by
        rw [← hlength]
        exact (List.getElem?_eq_some_iff.mp htag).1
      rw [List.getD_eq_getElem _ _ hlt] at hrects
      exact ⟨index, List.mem_toFinset.mpr hindex, _, List.getElem?_eq_getElem hlt, hrects⟩
  · intro index hindex
    rw [List.mem_toFinset] at hindex
    exact or_iff_not_imp_left.mpr (hcontained index hindex)
  · rw [List.toFinset_card_of_nodup hjudged.counts.nodup_suspiciousIndexes]
    have haccused := hjudged.accused
    unfold suspiciousRects at haccused
    split_ifs at haccused
    · rw [← (pure_eq_ok _ _).mp haccused]
      exact Nat.zero_le _
    · exact (mapM_forall₂ haccused).length_eq.ge
  · have hsub : tally.suspiciousIndexes.toFinset \ altered ⊆
        exposed destination partners'.zipIdx altered
          (Finset.range (pageRegions profile before).length) profile.minimumReplicaVotes := by
      intro index hindex
      rw [Finset.mem_sdiff, List.mem_toFinset] at hindex
      obtain ⟨tag, htag, -⟩ := hjudged.counts.mem_suspiciousIndexes.mp hindex.1
      rw [exposed, Finset.mem_filter, Finset.mem_range, haltered.regions, ← hlength]
      exact ⟨(List.getElem?_eq_some_iff.mp htag).1, hcontained index hindex.1 hindex.2⟩
    have hfew := quorum_mul_exposed_le hindependent altered profile.minimumReplicaVotes
    rw [hreplicas] at hfew
    exact (Nat.mul_le_mul_left _ (Finset.card_le_card hsub)).trans hfew
  · obtain ⟨-, hall⟩ := hjudged.counts.failing
    have hfew := card_failing_le hwell hintact haltered hpos hjudged.tagged
    rw [List.length_zipIdx, hlength] at hall
    unfold pageVerdict at hfew hall
    omega

/-- **Tampering is found.**  When so few regions of an intact page are altered that no limitation
applies, every altered region whose tag changed is reported, as long as less than a quorum of its
copies, and no more than the replicas can spare, went with it. -/
theorem tampering_reported {K : Type} [Field K] [LinearOrder K] [IsStrictOrderedRing K]
    [FloorRing K] (tools : IntegrityTools K) (value : ProfileValue) (profile : IntegrityProfile)
    (before after : IntegrityPage) (key nonce : List UInt8) (tags tags' : List (List UInt8))
    (partners : List (List Nat)) (altered : Finset Nat) (decision : IntegrityDecision K)
    (hprofile : validateIntegrityProfile tools.sha256 tools.numbers value = .ok profile)
    (henough : profile.minimumRegions ≤ (pageRegions profile after).length)
    (hintact : Intact tools profile before key nonce tags partners)
    (haltered : AlteredIn tools profile before after altered)
    (htags' : pageTags tools profile after key nonce = .ok tags')
    (hhalf : 2 * damageBound profile altered < (pageRegions profile after).length)
    (hcompression : (damageBound profile altered : ℚ) <
      profile.compressionRatio * (pageRegions profile after).length)
    (hgeometry : (damageBound profile altered : ℚ) <
      profile.geometryRatio * (pageRegions profile after).length)
    (h : verifyIntegrity tools after key nonce value = .ok decision) :
    decision.limitations = [] ∧
      ∀ (index : Nat) (tag tag' : List UInt8), tags[index]? = some tag →
        tags'[index]? = some tag' → tag' ≠ tag →
        lost destination partners.zipIdx altered index < profile.minimumReplicaVotes →
        profile.minimumReplicaVotes + lost destination partners.zipIdx altered index ≤
          profile.replicaShifts.length →
        ∃ corner, (pageRegions profile after)[index]? = some corner ∧
          ∃ rect ∈ decision.suspiciousRegions,
            regionRect after.shape profile.regionSize corner = .ok rect := by
  have hwell := wellFormed_of_validate hprofile
  obtain ⟨tags'', partners', tally, hjudged⟩ := judged_of_verify hprofile henough h
  obtain rfl : tags'' = tags' := Except.ok.inj (hjudged.tagged.symm.trans htags')
  have hregions : 0 < (pageRegions profile after).length :=
    (Nat.zero_le _).trans_lt (hwell.regions.trans_le henough)
  have hpos : 0 < (pageRegions profile before).length := by
    rw [haltered.regions]
    exact hregions
  obtain rfl : partners' = partners := by
    have hpartners := hintact.partnered
    unfold pagePartners at hpartners
    rw [haltered.regions] at hpartners
    exact Except.ok.inj (hjudged.partnered.symm.trans hpartners)
  obtain ⟨hindependent, hreplicas⟩ := independent_of_partnerRegions hpos hintact.partnered
  obtain ⟨hlength, -⟩ := tag_of_region hjudged.tagged
  -- the mismatches and the undecided regions are within the damage
  have hfailing : tally.mismatchCount + tally.indeterminateCount ≤ damageBound profile altered := by
    rw [hjudged.counts.failing.1]
    exact card_failing_le hwell hintact haltered hpos hjudged.tagged
  have hbelow : ∀ ratio : ℚ, (damageBound profile altered : ℚ) <
      ratio * (pageRegions profile after).length →
        ¬ (ratio : K) ≤ (tally.mismatchCount : K) / ((pageRegions profile after).length : K) := by
    intro ratio hratio
    have hcast : ((damageBound profile altered : ℚ) : K) <
        ((ratio * (pageRegions profile after).length : ℚ) : K) := Rat.cast_lt.mpr hratio
    push_cast at hcast
    have hcount : (tally.mismatchCount : K) ≤ (damageBound profile altered : K) := by
      exact_mod_cast (Nat.le_add_right _ _).trans hfailing
    have hlengthPos : (0 : K) < ((pageRegions profile after).length : K) := by
      exact_mod_cast hregions
    rw [le_div_iff₀ hlengthPos, not_le]
    exact hcount.trans_lt hcast
  have hlimitations : decision.limitations = [] := by
    rw [hjudged.limitations, pageLimitations, if_neg (by omega), if_neg fun hboth ↦ hbelow _ hgeometry hboth.1,
      if_neg fun hboth ↦ hbelow _ hcompression hboth.1]
  refine ⟨hlimitations, fun index tag tag' htag htag' hchanged hfew hleft ↦ ?_⟩
  have hlt : index < (pageRegions profile after).length := by
    rw [← hlength]
    exact (List.getElem?_eq_some_iff.mp htag').1
  have hindex : index ∈ tally.suspiciousIndexes := by
    rw [hjudged.counts.mem_suspiciousIndexes]
    refine ⟨tag', htag', ?_⟩
    apply verdict_of_changed (hintact.copies_changed haltered hpos htag hchanged) hfew
    rw [List.length_zipIdx, hreplicas]
    exact hleft
  have haccused := hjudged.accused
  rw [suspiciousRects, if_neg (not_not.mpr hlimitations)] at haccused
  obtain ⟨rect, hrect⟩ := mapM_ok_of_mem haccused hindex
  refine ⟨_, List.getElem?_eq_getElem hlt, rect,
    (mem_mapM_iff haccused).mpr ⟨index, hindex, hrect⟩, ?_⟩
  rwa [List.getD_eq_getElem _ _ hlt] at hrect

/-! ### A plain sheet -/

/-- A digest that tells the feature of a plain sheet from every other message. -/
def sheetHmac : HmacSha256 where
  digest := fun _ message ↦ List.replicate 32 (if message.take 2 = [0, 32] then 0 else 255)
  length_digest := fun _ _ ↦ List.length_replicate

/-- The orthonormal transform; a page of luminance is not converted. -/
noncomputable def sheetTools : IntegrityTools ℝ where
  hmac := sheetHmac
  sha256 := Sha256.hexdigest
  numbers := sampleNumbers
  dct := fun square ↦ Cosine.transform (Matrix.of square)
  idct := fun coefficients ↦ Cosine.inverse (Matrix.of coefficients)
  grayOfBgr := fun pixel ↦ pixel (Fin.last 2)
  ycrcbOfBgr := fun pixel ↦ pixel
  bgrOfYcrcb := fun pixel ↦ pixel

def plainSheet : IntegrityPage := .gray ⟨640, 640, fun _ _ ↦ 128⟩

/-- The sheet with its first region covered. -/
def coveredSheet : IntegrityPage := .gray ⟨640, 640, fun y x ↦ if y < 128 ∧ x < 128 then 0 else 128⟩

/-- What a sheet needs of the frozen profile. -/
def SheetFields (profile : IntegrityProfile) : Prop :=
  (profile.featureStep = 512 ∧ profile.featurePositions.head? = some (0, 0)) ∧
    (profile.replicaShifts.length = 3 ∧ profile.minimumReplicaVotes = 2) ∧
    (profile.minimumBitConfidence ≤ 1 ∧ profile.minimumRegions ≤ 25) ∧
    (1 / 10 < profile.compressionRatio ∧ 1 / 10 < profile.geometryRatio) ∧
    (profile.keyMin ≤ 16 ∧ 16 ≤ profile.keyMax) ∧ (profile.nonceMin ≤ 8 ∧ 8 ≤ profile.nonceMax) ∧
    profile.maxPixels = 40000000 ∧
    profile.qimDelta = 48 ∧ profile.minimumBitConfidence ≤ 1 / 2

instance (profile : IntegrityProfile) : Decidable (SheetFields profile) :=
  inferInstanceAs (Decidable (_ ∧ _))

theorem frozenValue_sheetFields : (validateIntegrityProfile Sha256.hexdigest sampleNumbers
    frozenValue).toOption.any (fun profile ↦ SheetFields profile) = true := by
  decide +kernel

theorem exists_sheetProfile : ∃ profile,
    validateIntegrityProfile sheetTools.sha256 sheetTools.numbers frozenValue = .ok profile ∧
      SheetFields profile := by
  obtain ⟨profile, hprofile⟩ := frozenValue_accepted
  have hfields := frozenValue_sheetFields
  rw [hprofile] at hfields
  exact ⟨profile, hprofile, of_decide_eq_true hfields⟩

section Sheet

variable {profile : IntegrityProfile}

/-- A flat region has no coefficients but the first. -/
theorem coefficientAt_flat {n : Nat} (hn : n = 128) (v : UInt8) {position : Int × Int}
    (h : InRegion position) :
    coefficientAt (sheetTools.dct (samples fun (_ _ : Fin n) ↦ v)) position =
      if position = (0, 0) then ((128 : Nat) : ℝ) * v.toNat else 0 := by
  subst hn
  obtain ⟨⟨hrow, hrow'⟩, hcolumn, hcolumn'⟩ := h
  have hin : position.1.toNat < 128 ∧ position.2.toNat < 128 := by omega
  have horigin : (position.1.toNat = 0 ∧ position.2.toNat = 0) ↔ position = (0, 0) := by
    rw [Prod.ext_iff]
    dsimp only
    omega
  rw [coefficientAt, dif_pos hin]
  refine (Cosine.transform_const (v.toNat : ℝ) ⟨_, hin.1⟩ ⟨_, hin.2⟩).trans ?_
  simp only [horigin]

/-- The feature of a flat region begins with its level. -/
theorem contentFeature_flat (hwell : profile.WellFormed) (hfields : SheetFields profile)
    {v : UInt8} {level : Nat} (hlevel : 128 * v.toNat = 512 * level) (hle : level < 32768) :
    ∃ rest, contentFeature sheetTools profile (fun (_ _ : Fin profile.regionSize) ↦ v) =
      .ok (BigEndian.toBytes 2 level ++ rest) := by
  obtain ⟨⟨hstep, hhead⟩, -⟩ := hfields
  have hbytes : ∀ m : Nat, m < 32768 →
      featureBytes ((profile.featureStep : ℚ) : ℝ) (((512 * m : Nat) : ℝ)) =
        .ok (BigEndian.toBytes 2 m) := by
    intro m hm
    have hscaled : ((512 * m : Nat) : ℝ) / ((profile.featureStep : ℚ) : ℝ) = ((m : ℤ) : ℝ) := by
      rw [hstep]
      push_cast
      field_simp
    have hfits : ¬ ¬ (-32768 ≤ (m : ℤ) ∧ (m : ℤ) ≤ 32767) := by omega
    have hmod : ((m : ℤ) % 65536).toNat = m := by omega
    rw [featureBytes, hscaled, Rounding.halfEven_intCast, raiseIf_neg hfits, ok_bind, hmod]
    rfl
  obtain ⟨positions, hpositions⟩ : ∃ positions, profile.featurePositions = (0, 0) :: positions := by
    cases hcases : profile.featurePositions with
    | nil => rw [hcases] at hhead; cases hhead
    | cons position positions =>
      rw [hcases] at hhead
      cases hhead
      exact ⟨positions, rfl⟩
  have hread : ∀ position ∈ profile.featurePositions, coefficientAt
      (sheetTools.dct (samples fun (_ _ : Fin profile.regionSize) ↦ v)) position =
        if position = (0, 0) then ((128 : Nat) : ℝ) * v.toNat else 0 :=
    fun position hposition ↦
      coefficientAt_flat hwell.regionSize v (hwell.featuresInside position hposition)
  have hfirst : featureBytes ((profile.featureStep : ℚ) : ℝ) (coefficientAt
      (sheetTools.dct (samples fun (_ _ : Fin profile.regionSize) ↦ v)) (0, 0)) =
        .ok (BigEndian.toBytes 2 level) := by
    rw [hread _ (hpositions ▸ List.mem_cons_self), if_pos rfl, ← hbytes level hle, ← hlevel]
    push_cast
    rfl
  obtain ⟨rest, hrest⟩ : ∃ rest, positions.mapM (fun position ↦
      featureBytes ((profile.featureStep : ℚ) : ℝ) (coefficientAt
        (sheetTools.dct (samples fun (_ _ : Fin profile.regionSize) ↦ v)) position)) = .ok rest := by
    apply mapM_total
    intro position hposition
    rw [hread position (hpositions ▸ List.mem_cons_of_mem _ hposition)]
    split_ifs
    · refine ⟨BigEndian.toBytes 2 level, ?_⟩
      rw [← hbytes level hle, ← hlevel]
      push_cast
      rfl
    · refine ⟨BigEndian.toBytes 2 0, ?_⟩
      rw [← hbytes 0 (by decide), Nat.mul_zero, Nat.cast_zero]
  refine ⟨rest.flatten, ?_⟩
  unfold contentFeature
  rw [hpositions]
  dsimp only
  rw [List.mapM_cons, hfirst, ok_bind, hrest]
  rfl

/-- The copies in a flat region say zero, and clearly. -/
theorem extractBits_flat (hwell : profile.WellFormed) (v : UInt8) {positions : List (Int × Int)}
    (hpositions : positions ∈ profile.coefficientSets)
    (hfields : SheetFields profile) (delta : ℝ) :
    extractBits sheetTools (fun (_ _ : Fin profile.regionSize) ↦ v) positions delta =
      (List.replicate 4 0, 1) := by
  have hlength := hwell.setLength positions hpositions
  have hread : ∀ position ∈ positions, coefficientAt
      (sheetTools.dct (samples fun (_ _ : Fin profile.regionSize) ↦ v)) position = 0 := by
    intro position hposition
    have hmem : position ∈ profile.coefficientSets.flatten :=
      List.mem_flatten.mpr ⟨positions, hpositions, hposition⟩
    have horigin : position ≠ (0, 0) := by
      rintro rfl
      refine hwell.featuresApart _ (List.mem_of_mem_head? ?_) hmem
      exact hfields.1.2
    rw [coefficientAt_flat hwell.regionSize v (hwell.inside position hmem), if_neg horigin]
  have hzero : readBit delta (0 : ℝ) = (0, 1) := by
    have hround : Rounding.halfEven (0 : ℝ) = 0 := by
      exact_mod_cast Rounding.halfEven_intCast (K := ℝ) 0
    simp [readBit, hround]
  have hall : positions.map (fun position ↦ readBit delta (coefficientAt
      (sheetTools.dct (samples fun (_ _ : Fin profile.regionSize) ↦ v)) position)) =
        List.replicate 32 ((0 : Int), (1 : ℝ)) := by
    rw [← hlength, ← List.map_const']
    exact List.map_congr_left fun position hposition ↦ by rw [hread position hposition, hzero]
  unfold extractBits
  dsimp only
  rw [hall, List.map_replicate, List.map_replicate, List.sum_replicate, List.length_replicate]
  refine Prod.ext rfl ?_
  norm_num

/-- The tag of a flat region says whether it has the level of the sheet. -/
theorem regionTag_flat (hwell : profile.WellFormed) (hfields : SheetFields profile) (v : UInt8)
    (level : Nat) {index : Nat} {feature tag key nonce : List UInt8}
    (hlevel : 128 * v.toNat = 512 * level) (hle : level < 32768)
    (hfeature : contentFeature sheetTools profile (fun (_ _ : Fin profile.regionSize) ↦ v) =
      .ok feature)
    (htag : regionTag sheetTools feature index nonce key = .ok tag) :
    tag = List.replicate 4 (if BigEndian.toBytes 2 level = [0, 32] then 0 else 255) := by
  obtain ⟨rest, hrest⟩ := contentFeature_flat hwell hfields hlevel hle
  obtain rfl : feature = BigEndian.toBytes 2 level ++ rest :=
    Except.ok.inj (hfeature.symm.trans hrest)
  simp only [regionTag, bind_eq_ok, exists_unit, pure_eq_ok] at htag
  obtain ⟨-, htag⟩ := htag
  rw [← htag]
  have htake : ((BigEndian.toBytes 2 level ++ rest) ++ BigEndian.toBytes 4 index ++ nonce).take 2 =
      BigEndian.toBytes 2 level := by
    rw [List.append_assoc, List.append_assoc,
      List.take_left' (BigEndian.length_toBytes 2 level)]
  show (List.replicate 32 (if _ = _ then (0 : UInt8) else 255)).take 4 = _
  rw [htake, List.take_replicate]
  rfl

theorem sheet_regions {page : IntegrityPage} (hwell : profile.WellFormed)
    (hshape : page.shape = (640, 640)) :
    pageRegions profile page = integrityRegions (640, 640) 128 := by
  rw [pageRegions, hshape, hwell.regionSize]

theorem coveredSheet_first (hwell : profile.WellFormed) :
    regionAt profile.regionSize (pageLuminance sheetTools coveredSheet) (0, 0) =
      fun _ _ ↦ 0 := by
  funext i j
  have hi : i.val < 128 := i.isLt.trans_eq hwell.regionSize
  have hj : j.val < 128 := j.isLt.trans_eq hwell.regionSize
  show (if 0 + i.val < 128 ∧ 0 + j.val < 128 then (0 : UInt8) else 128) = 0
  rw [if_pos (by omega)]

theorem coveredSheet_other {corner : Nat × Nat} (h : 128 ≤ corner.1 ∨ 128 ≤ corner.2) :
    regionAt profile.regionSize (pageLuminance sheetTools coveredSheet) corner =
      fun _ _ ↦ 128 := by
  funext i j
  show (if corner.2 + i.val < 128 ∧ corner.1 + j.val < 128 then (0 : UInt8) else 128) = 128
  rw [if_neg (by omega)]

theorem sheet_corners : ∀ row ∈ (integrityRegions (640, 640) 128).zipIdx,
    if row.2 = 0 then row.1 = (0, 0) else 128 ≤ row.1.1 ∨ 128 ≤ row.1.2 := by
  decide

/-- The covered sheet is the plain one, but for its first region. -/
theorem coveredSheet_altered (hwell : profile.WellFormed) :
    AlteredIn sheetTools profile plainSheet coveredSheet {0} := by
  refine ⟨rfl, fun index corner hcorner hindex ↦ ?_⟩
  rw [sheet_regions hwell rfl] at hcorner
  have hplace := sheet_corners (corner, index) (List.mem_zipIdx_iff_getElem?.mpr hcorner)
  rw [if_neg (Finset.notMem_singleton.mp hindex)] at hplace
  rw [coveredSheet_other hplace]
  rfl

/-- A sheet has the tags of its features. -/
theorem sheet_tagged {K : Type} [Field K] [LinearOrder K] [FloorRing K] {tools : IntegrityTools K}
    {page : IntegrityPage} (hwell : profile.WellFormed) (hshape : page.shape = (640, 640))
    {features : List (List UInt8)}
    (hfeatures : (pageRegions profile page).mapM (fun corner ↦ contentFeature tools profile
      (regionAt profile.regionSize (pageLuminance tools page) corner)) = .ok features)
    (key nonce : List UInt8) : ∃ tags, pageTags tools profile page key nonce = .ok tags := by
  have hlength : features.length = 25 := by
    rw [← (mapM_forall₂ hfeatures).length_eq, sheet_regions hwell hshape]
    decide
  obtain ⟨tags, htags⟩ : ∃ tags, features.zipIdx.mapM (fun row ↦
      regionTag tools row.1 row.2 nonce key) = .ok tags := by
    apply mapM_total
    intro row hrow
    have hlt := (List.getElem?_eq_some_iff.mp (List.mem_zipIdx_iff_getElem?.mp hrow)).1
    have hfits : ¬ 2 ^ 32 ≤ row.2 := by omega
    dsimp only [regionTag]
    rw [raiseIf_neg hfits]
    exact ⟨_, rfl⟩
  refine ⟨tags, ?_⟩
  simp only [pageTags, regionTags, bind_eq_ok]
  exact ⟨features, hfeatures, htags⟩

/-- A sheet of flat regions has tags. -/
theorem sheet_tags (page : IntegrityPage) (hwell : profile.WellFormed)
    (hfields : SheetFields profile) (hshape : page.shape = (640, 640))
    (hflat : ∀ corner ∈ pageRegions profile page, ∃ (v : UInt8) (level : Nat),
      regionAt profile.regionSize (pageLuminance sheetTools page) corner = (fun _ _ ↦ v) ∧
        128 * v.toNat = 512 * level ∧ level < 32768) (key nonce : List UInt8) :
    ∃ tags, pageTags sheetTools profile page key nonce = .ok tags := by
  obtain ⟨features, hfeatures⟩ : ∃ features, (pageRegions profile page).mapM (fun corner ↦
      contentFeature sheetTools profile
        (regionAt profile.regionSize (pageLuminance sheetTools page) corner)) = .ok features := by
    apply mapM_total
    intro corner hcorner
    obtain ⟨v, level, hregion, hlevel, hle⟩ := hflat corner hcorner
    obtain ⟨rest, hrest⟩ := contentFeature_flat hwell hfields hlevel hle
    rw [hregion]
    exact ⟨_, hrest⟩
  exact sheet_tagged hwell hshape hfeatures key nonce

theorem sheet_inputs (page : IntegrityPage) (hfields : SheetFields profile)
    (hpage : page.input = .array true [640, 640]) :
    validateInputs page.input (some (List.replicate 16 7)) (some (List.replicate 8 9)) profile =
      .ok (640, 640) := by
  obtain ⟨-, -, -, -, hkey, hnonce, hpixels, -⟩ := hfields
  rw [hpage]
  simp only [validateInputs, validateSecret, bind_eq_ok, exists_unit, raiseIf_eq_ok, pure_eq_ok,
    found_eq_ok, Option.some.injEq, exists_eq_left', List.length_replicate, not_not]
  refine ⟨by decide, by decide, by decide, by decide, ?_, hkey, hnonce, rfl⟩
  rw [hpixels]
  decide

theorem sheet_partners {K : Type} (tools : IntegrityTools K)
    (hprofile : validateIntegrityProfile sheetTools.sha256 sheetTools.numbers frozenValue =
      .ok profile) (hfields : SheetFields profile) (page : IntegrityPage)
    (hpage : page.input = .array true [640, 640]) (hshape : page.shape = (640, 640)) :
    ∃ partners, pagePartners tools profile page (List.replicate 16 7) (List.replicate 8 9) =
      .ok partners := by
  have hwell := wellFormed_of_validate hprofile
  have hmany : profile.minimumRegions ≤
      (integrityRegions (640, 640) profile.regionSize).length := by
    rw [hwell.regionSize]
    exact hfields.2.2.1.2
  obtain ⟨partners, hpartners, -⟩ := accepted_page_partnered hprofile frozenValue_pinned
    (sheet_inputs page hfields hpage) hmany tools.hmac (List.replicate 16 7) (List.replicate 8 9)
  refine ⟨partners, ?_⟩
  unfold pagePartners pageRegions
  rw [hshape]
  exact hpartners

theorem plainSheet_intact
    (hprofile : validateIntegrityProfile sheetTools.sha256 sheetTools.numbers frozenValue =
      .ok profile) (hfields : SheetFields profile) :
    ∃ tags partners, Intact sheetTools profile plainSheet (List.replicate 16 7)
      (List.replicate 8 9) tags partners := by
  have hwell := wellFormed_of_validate hprofile
  obtain ⟨tags, htags⟩ := sheet_tags plainSheet hwell hfields rfl
    (fun corner _ ↦ ⟨128, 32, rfl, by decide, by decide⟩) (List.replicate 16 7)
    (List.replicate 8 9)
  obtain ⟨partners, hpartners⟩ := sheet_partners sheetTools hprofile hfields plainSheet rfl rfl
  refine ⟨tags, partners, htags, hpartners, fun source tag htag replica hreplica ↦ ?_⟩
  obtain ⟨corner, feature, -, hfeature, hmade⟩ := (tag_of_region htags).2 source tag htag
  have hzero := regionTag_flat hwell hfields 128 32 (by decide) (by decide)
    hfeature hmade
  have hpos : 0 < (pageRegions profile plainSheet).length := by
    rw [sheet_regions hwell rfl]
    decide
  -- the replica has coefficients of its own
  have hset : replicaPositions profile replica ∈ profile.coefficientSets := by
    have hlt : replica.2 < partners.length :=
      (List.getElem?_eq_some_iff.mp (List.mem_zipIdx_iff_getElem?.mp hreplica)).1
    rw [(independent_of_partnerRegions hpos hpartners).2, ← hwell.sets] at hlt
    rw [replicaPositions, List.getD_eq_getElem _ _ hlt]
    exact List.getElem_mem hlt
  have hread := extractBits_flat hwell 128 hset hfields ((profile.qimDelta : ℚ) : ℝ)
  have hclear : ((profile.minimumBitConfidence : ℚ) : ℝ) ≤ 1 := by
    exact_mod_cast hfields.2.2.1.1
  have hflat : ∀ corner, regionAt profile.regionSize (pageLuminance sheetTools plainSheet) corner =
      fun _ _ ↦ 128 := fun _ ↦ rfl
  unfold pageCopy copyState
  dsimp only
  rw [hflat, hread]
  dsimp only
  rw [if_pos hclear, hzero]
  rfl

/-- The covered sheet has tags too, and is decided on. -/
theorem coveredSheet_decided
    (hprofile : validateIntegrityProfile sheetTools.sha256 sheetTools.numbers frozenValue =
      .ok profile) (hfields : SheetFields profile) :
    ∃ tags decision, pageTags sheetTools profile coveredSheet (List.replicate 16 7)
        (List.replicate 8 9) = .ok tags ∧
      verifyIntegrity sheetTools coveredSheet (List.replicate 16 7) (List.replicate 8 9)
        frozenValue = .ok decision := by
  have hwell := wellFormed_of_validate hprofile
  have hflat : ∀ corner ∈ pageRegions profile coveredSheet, ∃ (v : UInt8) (level : Nat),
      regionAt profile.regionSize (pageLuminance sheetTools coveredSheet) corner = (fun _ _ ↦ v) ∧
        128 * v.toNat = 512 * level ∧ level < 32768 := by
    intro corner hcorner
    rw [sheet_regions hwell rfl] at hcorner
    obtain ⟨index, hindex⟩ := List.getElem?_of_mem hcorner
    have hplace := sheet_corners (corner, index) (List.mem_zipIdx_iff_getElem?.mpr hindex)
    split_ifs at hplace
    · obtain rfl : corner = (0, 0) := hplace
      exact ⟨0, 0, coveredSheet_first hwell, by decide, by decide⟩
    · exact ⟨128, 32, coveredSheet_other hplace, by decide, by decide⟩
  obtain ⟨tags, htags⟩ :=
    sheet_tags coveredSheet hwell hfields rfl hflat (List.replicate 16 7) (List.replicate 8 9)
  obtain ⟨partners, hpartners⟩ := sheet_partners sheetTools hprofile hfields coveredSheet rfl rfl
  have henough : profile.minimumRegions ≤ (pageRegions profile coveredSheet).length := by
    rw [sheet_regions hwell rfl]
    exact hfields.2.2.1.2
  obtain ⟨decision, hdecision⟩ := verifyIntegrity_total hprofile
    (sheet_inputs coveredSheet hfields rfl) henough htags (tag_of_region htags).1
    hpartners
  exact ⟨tags, decision, htags, hdecision⟩

end Sheet

/-- Of twenty-five regions at least twenty-three still match when one is covered. -/
theorem damage_contained_sheet : ∃ decision matched,
    verifyIntegrity sheetTools coveredSheet (List.replicate 16 7) (List.replicate 8 9)
        frozenValue = .ok decision ∧
      decision.score = ((matched : Nat) : ℝ) / ((25 : Nat) : ℝ) ∧ 23 ≤ matched := by
  obtain ⟨profile, hprofile, hfields⟩ := exists_sheetProfile
  have hwell := wellFormed_of_validate hprofile
  obtain ⟨tags, partners, hintact⟩ := plainSheet_intact hprofile hfields
  obtain ⟨-, decision, -, hdecision⟩ := coveredSheet_decided hprofile hfields
  have hregions : pageRegions profile coveredSheet = integrityRegions (640, 640) 128 :=
    sheet_regions hwell rfl
  have henough : profile.minimumRegions ≤ (pageRegions profile coveredSheet).length := by
    rw [hregions]
    exact hfields.2.2.1.2
  obtain ⟨accused, matched, -, -, -, -, hscore, hmatched⟩ := damage_contained sheetTools frozenValue
    profile plainSheet coveredSheet _ _ tags partners {0} decision hprofile henough hintact
    (coveredSheet_altered hwell) hdecision
  have hbound : damageBound profile {0} = 2 := by
    rw [damageBound, hfields.2.1.1, hfields.2.1.2]
    rfl
  have hcount : (integrityRegions (640, 640) 128).length = 25 := by decide
  rw [hregions, hcount] at hscore hmatched
  rw [hbound] at hmatched
  exact ⟨decision, matched, hdecision, hscore, by omega⟩

/-- The covered region is reported. -/
theorem tampering_reported_sheet : ∃ decision,
    verifyIntegrity sheetTools coveredSheet (List.replicate 16 7) (List.replicate 8 9)
        frozenValue = .ok decision ∧
      decision.limitations = [] ∧
      ∃ rect ∈ decision.suspiciousRegions, regionRect (640, 640) 128 (0, 0) = .ok rect := by
  obtain ⟨profile, hprofile, hfields⟩ := exists_sheetProfile
  have hwell := wellFormed_of_validate hprofile
  obtain ⟨tags, partners, hintact⟩ := plainSheet_intact hprofile hfields
  obtain ⟨tags', decision, htags', hdecision⟩ := coveredSheet_decided hprofile hfields
  have hregions : pageRegions profile coveredSheet = integrityRegions (640, 640) 128 :=
    sheet_regions hwell rfl
  have hcount : (integrityRegions (640, 640) 128).length = 25 := by decide
  have henough : profile.minimumRegions ≤ (pageRegions profile coveredSheet).length := by
    rw [hregions]
    exact hfields.2.2.1.2
  have hbound : damageBound profile {0} = 2 := by
    rw [damageBound, hfields.2.1.1, hfields.2.1.2]
    rfl
  have hratio : ∀ ratio : ℚ, 1 / 10 < ratio → ((damageBound profile {0} : Nat) : ℚ) <
      ratio * (pageRegions profile coveredSheet).length := by
    intro ratio hratio
    rw [hbound, hregions, hcount]
    push_cast
    linarith
  obtain ⟨hclear, hreported⟩ := tampering_reported sheetTools frozenValue profile plainSheet
    coveredSheet _ _ tags tags' partners {0} decision hprofile henough hintact
    (coveredSheet_altered hwell) htags' (by rw [hbound, hregions, hcount]; decide)
    (hratio _ hfields.2.2.2.1.1) (hratio _ hfields.2.2.2.1.2) hdecision
  -- the tags of the first region
  have hfirst : (pageRegions profile coveredSheet)[0]? = some (0, 0) := by
    rw [hregions]
    decide
  have hlt : 0 < tags.length := by
    rw [(tag_of_region hintact.tagged).1, (coveredSheet_altered hwell).regions, hregions, hcount]
    decide
  have hlt' : 0 < tags'.length := by
    rw [(tag_of_region htags').1, hregions, hcount]
    decide
  obtain ⟨corner, feature, -, hfeature, hmade⟩ :=
    (tag_of_region hintact.tagged).2 0 _ (List.getElem?_eq_getElem hlt)
  have htag := regionTag_flat hwell hfields 128 32 (by decide) (by decide)
    hfeature hmade
  obtain ⟨corner', feature', hcorner', hfeature', hmade'⟩ :=
    (tag_of_region htags').2 0 _ (List.getElem?_eq_getElem hlt')
  obtain rfl : (0, 0) = corner' := Option.some.inj (hfirst.symm.trans hcorner')
  rw [coveredSheet_first hwell] at hfeature'
  have htag' := regionTag_flat hwell hfields 0 0 (by decide) (by decide)
    hfeature' hmade'
  -- none of its copies are in it
  have hpos : 0 < (pageRegions profile plainSheet).length := by
    rw [(coveredSheet_altered hwell).regions, hregions]
    decide
  obtain ⟨hindependent, -⟩ := independent_of_partnerRegions hpos hintact.partnered
  have hkept : lost destination partners.zipIdx {0} 0 = 0 := by
    rw [lost, List.countP_eq_zero]
    intro replica hreplica hin
    have hmem := List.fst_mem_of_mem_zipIdx hreplica
    have hzero := Finset.mem_singleton.mp (of_decide_eq_true hin)
    have hshort : 0 < replica.1.length := by
      rw [(hindependent.bijective _ hmem).length_eq, List.length_range]
      exact hpos
    apply hindependent.moves _ hmem 0 hpos
    rw [destination, List.getD_eq_getElem _ _ hshort] at hzero
    rw [List.getElem?_eq_getElem hshort, hzero]
  obtain ⟨corner, hcorner, rect, hrect, hat⟩ := hreported 0 _ _ (List.getElem?_eq_getElem hlt)
    (List.getElem?_eq_getElem hlt') (by rw [htag, htag']; decide)
    (by rw [hkept, hfields.2.1.2]; decide) (by rw [hkept, hfields.2.1.1, hfields.2.1.2]; decide)
  obtain rfl : (0, 0) = corner := Option.some.inj (hfirst.symm.trans hcorner)
  rw [hwell.regionSize] at hat
  exact ⟨decision, hdecision, hclear, rect, hrect, hat⟩

end Splitbind
