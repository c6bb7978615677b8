import Mathlib.Data.Bool.AllAny
import Splitbind.Access.Recipients
import Splitbind.Contracts.Schema
import Splitbind.Library.HeaderValue
import Splitbind.Library.Text

/-!
# File names — from an upload, through the store, into a download's header

A name is cleaned when it is uploaded, made into a slug when the result is downloaded, and written
twice into a `Content-Disposition` header.  Each step is checked by `validate_download_filename`.
-/

namespace Splitbind

open Transaction Text

/-! ## 1. The check -/

/-- `ValueError`. -/
inductive FilenameError
  | value (text : String)
deriving DecidableEq, Repr

/-- `FORBIDDEN_FILENAME_CHARACTERS`. -/
def forbiddenFilenameCharacters : List Char := ['"', '\\', '/', ':', '*', '?', '<', '>', '|']

/-- A control character, or one that a path or a header takes a meaning from. -/
def isForbidden (c : Char) : Bool :=
  c.toNat < 32 || c.toNat = 127 || forbiddenFilenameCharacters.contains c

/-- `DOWNLOAD_FILENAME_EXTENSION`. -/
def isDownloadExtension (extension : List Char) : Bool :=
  1 ≤ extension.length && extension.length ≤ 8 && extension.all Char.isAlphanum

def validateDownloadFilename (filename : List Char) : Except FilenameError (List Char) := do
  raiseIf (¬ (1 ≤ filename.length ∧ filename.length ≤ 180))
    (.value "download filename must be a short non-empty string")
  raiseIf (filename.any isForbidden = true)
    (.value "download filename must not contain control or path characters")
  raiseIf (filename.head? = some '.' ∨ filename ≠ trim isSpace filename)
    (.value "download filename must not be dot-led or padded")
  let (stem, separator, extension) := rpartition '.' filename
  raiseIf (separator = [] ∨ stem = [] ∨ isDownloadExtension extension = false)
    (.value "download filename must end in a short alphanumeric extension")
  return filename

/-- The names that pass. -/
structure DownloadName (name : List Char) : Prop where
  length : 1 ≤ name.length ∧ name.length ≤ 180
  characters : ∀ c ∈ name, isForbidden c = false
  notDotLed : name.head? ≠ some '.'
  unpadded : trim isSpace name = name
  parts : ∃ stem extension, name = stem ++ '.' :: extension ∧ stem ≠ [] ∧
    isDownloadExtension extension = true

theorem dot_notMem {extension : List Char} (h : isDownloadExtension extension = true) :
    '.' ∉ extension := by
  intro hdot
  rw [isDownloadExtension, Bool.and_eq_true, List.all_eq_true] at h
  exact absurd (h.2 '.' hdot) (by decide)

theorem validateDownloadFilename_eq_ok {filename name : List Char} :
    validateDownloadFilename filename = .ok name ↔ name = filename ∧ DownloadName filename := by
  simp only [validateDownloadFilename, bind_eq_ok, exists_unit, raiseIf_eq_ok, pure_eq_ok, not_not,
    not_or, Bool.not_eq_true, Bool.not_eq_false, List.any_eq_false]
  constructor
  · rintro ⟨hlength, hcharacters, ⟨hdot, hunpadded⟩, ⟨hseparator, hstem, hextension⟩, rfl⟩
    refine ⟨rfl, hlength, hcharacters, hdot, hunpadded.symm, ?_⟩
    rcases rpartition_cases '.' filename with ⟨-, hparts⟩ | ⟨stem, extension, heq, -, hparts⟩
    · rw [hparts] at hseparator
      exact absurd rfl hseparator
    · rw [hparts] at hstem hextension
      exact ⟨stem, extension, heq, hstem, hextension⟩
  · rintro ⟨hsame, hname⟩
    obtain ⟨stem, extension, heq, hstem, hextension⟩ := hname.parts
    have hparts : rpartition '.' filename = (stem, ['.'], extension) := by
      rw [heq]
      exact rpartition_append (dot_notMem hextension)
    rw [hparts]
    exact ⟨hname.length, hname.characters, ⟨hname.notDotLed, hname.unpadded.symm⟩,
      ⟨List.cons_ne_nil _ _, hstem, hextension⟩, hsame.symm⟩

/-! ## 2. Cleaning the name of an upload -/

/-- What stands behind the last slash, of either kind. -/
def lastComponent (filename : List Char) : List Char :=
  (rpartition '/' (filename.map fun c ↦ if c = '\\' then '/' else c)).2.2

/-- `while cleaned.startswith("."): cleaned = cleaned[1:].strip()`. -/
def dropLeadingDots : List Char → List Char
  | [] => []
  | c :: rest => if c = '.' then dropLeadingDots (trim isSpace rest) else c :: rest
termination_by name => name.length
decreasing_by exact Nat.lt_succ_of_le (length_trim_le isSpace rest)

/-- A stem of more than 120 characters is cut, and so is a name without an extension. -/
def truncateStem (cleaned : List Char) : List Char :=
  if 120 < cleaned.length then
    let (stem, separator, extension) := rpartition '.' cleaned
    if separator ≠ [] then stem.take 120 ++ separator ++ extension else cleaned.take 120
  else cleaned

/-- The name that `safe_source_filename` puts to the check. -/
def cleanFilename (filename : List Char) : List Char :=
  let candidate := trim isSpace (lastComponent filename)
  let cleaned := trim isSpace (candidate.filter fun c ↦ !isForbidden c)
  truncateStem (dropLeadingDots cleaned)

def safeSourceFilename (filename : List Char) : List Char :=
  match validateDownloadFilename (cleanFilename filename) with
  | .ok name => name
  | .error _ => []

/-- What is returned is the cleaned name or nothing. -/
theorem safeSourceFilename_cases (filename : List Char) :
    safeSourceFilename filename = [] ∨
      safeSourceFilename filename = cleanFilename filename ∧
        DownloadName (cleanFilename filename) := by
  rw [safeSourceFilename]
  cases hvalid : validateDownloadFilename (cleanFilename filename) with
  | error e => exact .inl rfl
  | ok name =>
    obtain ⟨rfl, hname⟩ := validateDownloadFilename_eq_ok.mp hvalid
    exact .inr ⟨rfl, hname⟩

theorem truncateStem_dot {stem extension : List Char} (hdot : '.' ∉ extension)
    (hlong : 120 < (stem ++ '.' :: extension).length) :
    truncateStem (stem ++ '.' :: extension) = stem.take 120 ++ '.' :: extension := by
  rw [truncateStem, if_pos hlong, rpartition_append hdot]
  show (if ['.'] ≠ [] then stem.take 120 ++ ['.'] ++ extension else _) = _
  rw [if_pos (List.cons_ne_nil _ _), List.append_assoc]
  rfl

theorem truncateStem_noDot {cleaned : List Char} (hdot : '.' ∉ cleaned)
    (hlong : 120 < cleaned.length) : truncateStem cleaned = cleaned.take 120 := by
  rw [truncateStem, if_pos hlong, rpartition_of_notMem hdot]
  exact if_neg (not_not.mpr rfl)

/-- The stem of a cut name has at most 120 characters. -/
theorem truncateStem_stem {cleaned stem extension : List Char}
    (heq : truncateStem cleaned = stem ++ '.' :: extension) (hdot : '.' ∉ extension) :
    stem.length ≤ 120 := by
  by_cases hlong : 120 < cleaned.length
  · rcases rpartition_cases '.' cleaned with ⟨hnone, -⟩ | ⟨before, after, rfl, hafter, -⟩
    · rw [truncateStem_noDot hnone hlong] at heq
      have hlength := congrArg List.length heq
      rw [List.length_take, List.length_append] at hlength
      omega
    · rw [truncateStem_dot hafter hlong] at heq
      -- the last dot parts both in the same way
      have hsame := congrArg (rpartition '.') heq
      rw [rpartition_append hafter, rpartition_append hdot, Prod.mk.injEq] at hsame
      rw [← hsame.1, List.length_take]
      exact Nat.min_le_left _ _
  · rw [truncateStem, if_neg hlong] at heq
    rw [heq, List.length_append] at hlong
    omega

theorem dropLeadingDots_eq_self {name : List Char} (h : name.head? ≠ some '.') :
    dropLeadingDots name = name := by
  cases name with
  | nil => rw [dropLeadingDots]
  | cons c rest =>
    have hc : c ≠ '.' := fun heq ↦ h (by rw [heq]; rfl)
    rw [dropLeadingDots, if_neg hc]

theorem truncateStem_eq_self {stem extension : List Char} (hdot : '.' ∉ extension)
    (hstem : stem.length ≤ 120) :
    truncateStem (stem ++ '.' :: extension) = stem ++ '.' :: extension := by
  by_cases hlong : 120 < (stem ++ '.' :: extension).length
  · rw [truncateStem_dot hdot hlong, List.take_of_length_le hstem]
  · rw [truncateStem, if_neg hlong]

/-- Cleaning leaves a name that passes as it is, if its stem is short enough. -/
theorem cleanFilename_eq_self {name stem extension : List Char} (hname : DownloadName name)
    (heq : name = stem ++ '.' :: extension) (hdot : '.' ∉ extension) (hstem : stem.length ≤ 120) :
    cleanFilename name = name := by
  have hslash : '/' ∉ name := fun h ↦ absurd (hname.characters '/' h) (by decide)
  have hmap : (name.map fun c ↦ if c = '\\' then '/' else c) = name := by
    refine (List.map_congr_left fun c hc ↦ if_neg ?_).trans (List.map_id' name)
    rintro rfl
    exact absurd (hname.characters '\\' hc) (by decide)
  have hlast : lastComponent name = name := by
    rw [lastComponent, hmap, rpartition_of_notMem hslash]
  have hfilter : (name.filter fun c ↦ !isForbidden c) = name := by
    rw [List.filter_eq_self]
    intro c hc
    rw [hname.characters c hc]
    rfl
  rw [cleanFilename, hlast, hname.unpadded, hfilter, hname.unpadded,
    dropLeadingDots_eq_self hname.notDotLed, heq]
  exact truncateStem_eq_self hdot hstem

theorem safeSourceFilename_idempotent (filename : List Char) :
    safeSourceFilename (safeSourceFilename filename) = safeSourceFilename filename := by
  rcases safeSourceFilename_cases filename with hnil | ⟨hsafe, hname⟩
  · rw [hnil]
    decide +kernel
  · obtain ⟨stem, extension, heq, -, hextension⟩ := hname.parts
    have hdot := dot_notMem hextension
    have hclean : cleanFilename (cleanFilename filename) = cleanFilename filename :=
      cleanFilename_eq_self hname heq hdot (truncateStem_stem heq hdot)
    rw [hsafe, safeSourceFilename, hclean, validateDownloadFilename_eq_ok.mpr ⟨rfl, hname⟩]

/-! ## 3. The name of a download -/

/-- What the code takes from `unicodedata` and `str`. -/
structure UnicodeRules where
  /-- `unicodedata.normalize("NFD", ·)`. -/
  nfd : List Char → List Char
  /-- Whether `unicodedata.category` is `Mn`. -/
  isNonspacingMark : Char → Bool
  /-- `str.lower`. -/
  lower : List Char → List Char

/-- `[a-z0-9]`. -/
def isSlugCharacter (c : Char) : Bool := ('a' ≤ c ∧ c ≤ 'z') ∨ ('0' ≤ c ∧ c ≤ '9')

/-- `re.sub(r"[^a-z0-9]+", "-", ·)`; the flag tells that the run before has its dash. -/
def dashRuns : Bool → List Char → List Char
  | _, [] => []
  | inRun, c :: rest =>
    if isSlugCharacter c then c :: dashRuns false rest
    else if inRun then dashRuns true rest
    else '-' :: dashRuns true rest

section Download

variable (unicode : UnicodeRules)

def documentNameSlug (name : List Char) : List Char :=
  let folded := unicode.nfd name
  let latinised := (folded.filter fun c ↦ !unicode.isNonspacingMark c).map fun c ↦
    if c = 'đ' then 'd' else if c = 'Đ' then 'D' else c
  let asciiOnly := (latinised.filter fun c ↦ c.toNat < 128).map Char.toLower
  let slug := trim (· = '-') (dashRuns false asciiOnly)
  trim (· = '-') (slug.take 80)

/-- `DOWNLOAD_EXTENSIONS`. -/
def downloadExtensions : List (List Char) := ["pdf".toList, "png".toList]

/-- The extension of a download: the output's, or `pdf`. -/
def downloadExtension (outputObjectKey : List Char) : List Char :=
  let suffix := unicode.lower (rpartition '.' outputObjectKey).2.2
  if suffix ∈ downloadExtensions then suffix else "pdf".toList

/-- The stem of the name that was uploaded. -/
def originalStem (sourceFilename : List Char) : List Char :=
  let original := trim isSpace sourceFilename
  let (stem, dotted, _) := rpartition '.' original
  if dotted ≠ [] then stem else original

/-- `splitbind-` and the first eight digits of an issuance's key. -/
def downloadReference (issuanceId : UUID) : List Char :=
  "splitbind-".toList ++ issuanceId.text.toList.take 8

/-- The candidate of a download, without its extension. -/
def downloadStem (slug reference : List Char) : List Char :=
  if slug ≠ [] then slug ++ '-' :: reference else reference

/-- `issuance_download_filename` of an issuance whose upload has this source name. -/
def issuanceDownloadFilename (issuanceId : UUID) (sourceFilename outputObjectKey : List Char) :
    List Char :=
  let reference := downloadReference issuanceId
  let extension := downloadExtension unicode outputObjectKey
  let slug := documentNameSlug unicode (originalStem sourceFilename)
  match validateDownloadFilename (downloadStem slug reference ++ '.' :: extension) with
  | .ok name => name
  | .error _ => reference ++ '.' :: extension

end Download

/-- A slug character or a dash. -/
def isReferenceCharacter (c : Char) : Bool := isSlugCharacter c || c = '-'

theorem mem_dashRuns {inRun : Bool} {s : List Char} {c : Char} (h : c ∈ dashRuns inRun s) :
    isReferenceCharacter c = true := by
  induction s generalizing inRun with
  | nil => exact absurd h List.not_mem_nil
  | cons d rest ih =>
    rw [dashRuns] at h
    split_ifs at h with hslug hrun
    · rcases List.mem_cons.mp h with rfl | h
      · rw [isReferenceCharacter, hslug, Bool.true_or]
      · exact ih h
    · exact ih h
    · rcases List.mem_cons.mp h with rfl | h
      · rfl
      · exact ih h

theorem documentNameSlug_spec (unicode : UnicodeRules) (name : List Char) :
    (∀ c ∈ documentNameSlug unicode name, isReferenceCharacter c = true) ∧
      (documentNameSlug unicode name).length ≤ 80 := by
  rw [documentNameSlug]
  constructor
  · intro c hc
    exact mem_dashRuns (mem_of_mem_trim (List.mem_of_mem_take (mem_of_mem_trim hc)))
  · refine (length_trim_le _ _).trans ?_
    rw [List.length_take]
    exact Nat.min_le_left _ _

/-- A character of a reference prints, and has no meaning to a path or a header. -/
theorem isReferenceCharacter_spec {c : Char} (h : isReferenceCharacter c = true) :
    isForbidden c = false ∧ isSpace c = false ∧ c ≠ '.' ∧ 32 < c.toNat ∧ c.toNat < 127 := by
  have hrange : (97 ≤ c.toNat ∧ c.toNat ≤ 122) ∨ (48 ≤ c.toNat ∧ c.toNat ≤ 57) ∨ c.toNat = 45 := by
    rw [isReferenceCharacter, Bool.or_eq_true, isSlugCharacter, decide_eq_true_eq,
      decide_eq_true_eq] at h
    rcases h with (⟨hlow, hhigh⟩ | ⟨hlow, hhigh⟩) | rfl
    · exact .inl ⟨hlow, hhigh⟩
    · exact .inr (.inl ⟨hlow, hhigh⟩)
    · exact .inr (.inr rfl)
  have hne : ∀ {d : Char}, d.toNat < 45 ∨ d.toNat = 46 ∨ d.toNat = 47 ∨
      (57 < d.toNat ∧ d.toNat < 97) ∨ 122 < d.toNat → c ≠ d := by
    rintro d hd rfl
    omega
  refine ⟨?_, ?_, hne (by decide), by omega, by omega⟩
  · have hnot : c ∉ forbiddenFilenameCharacters := by
      intro hmem
      simp only [forbiddenFilenameCharacters, List.mem_cons, List.not_mem_nil, or_false] at hmem
      rcases hmem with h | h | h | h | h | h | h | h | h <;> exact hne (by decide) h
    have hcontains : forbiddenFilenameCharacters.contains c = false := by
      rw [List.contains_eq_mem, decide_eq_false hnot]
    rw [isForbidden, hcontains, decide_eq_false (by omega), decide_eq_false (by omega)]
    rfl
  · rw [isSpace]
    exact decide_eq_false (by omega)

theorem downloadExtensions_spec {extension : List Char} (h : extension ∈ downloadExtensions) :
    isDownloadExtension extension = true ∧ ∀ c ∈ extension, isReferenceCharacter c = true := by
  simp only [downloadExtensions, List.mem_cons, List.not_mem_nil, or_false] at h
  rcases h with rfl | rfl <;> exact ⟨by decide, List.all_eq_true.mp (by decide)⟩

/-- A reference with an extension passes the check. -/
theorem downloadName_of_reference {front extension : List Char}
    (hfront : ∀ c ∈ front, isReferenceCharacter c = true) (hne : front ≠ [])
    (hlength : front.length ≤ 170) (hextension : extension ∈ downloadExtensions) :
    DownloadName (front ++ '.' :: extension) := by
  obtain ⟨haccepted, hcharacters⟩ := downloadExtensions_spec hextension
  have hshort : extension.length ≤ 8 := by
    simp only [isDownloadExtension, Bool.and_eq_true, decide_eq_true_eq] at haccepted
    exact haccepted.1.2
  have hall : ∀ c ∈ front ++ '.' :: extension, c = '.' ∨ isReferenceCharacter c = true := by
    intro c hc
    rcases List.mem_append.mp hc with hc | hc
    · exact .inr (hfront c hc)
    · exact (List.mem_cons.mp hc).imp id (hcharacters c)
  have hspace : ∀ c ∈ front ++ '.' :: extension, isSpace c = false := by
    intro c hc
    rcases hall c hc with rfl | hreference
    · decide
    · exact (isReferenceCharacter_spec hreference).2.1
  constructor
  · rw [List.length_append, List.length_cons]
    omega
  · intro c hc
    rcases hall c hc with rfl | hreference
    · decide
    · exact (isReferenceCharacter_spec hreference).1
  · cases front with
    | nil => exact absurd rfl hne
    | cons c front =>
      intro hdot
      rw [List.cons_append, List.head?_cons, Option.some.injEq] at hdot
      exact (isReferenceCharacter_spec (hfront c List.mem_cons_self)).2.2.1 hdot
  · refine trim_eq_self ⟨fun c hc ↦ ?_, fun c hc ↦ ?_⟩
    · exact hspace c (List.mem_of_head? hc)
    · exact hspace c (List.mem_of_getLast? hc)
  · exact ⟨front, extension, rfl, hne, haccepted⟩

theorem downloadExtension_mem (unicode : UnicodeRules) (outputObjectKey : List Char) :
    downloadExtension unicode outputObjectKey ∈ downloadExtensions := by
  rw [downloadExtension]
  split_ifs with h
  · exact h
  · exact List.mem_cons_self

/-- `str(issuance.id)[:8]`. -/
theorem take_text (id : UUID) : id.text.toList.take 8 = (hexDigits 32 id.value.toNat).take 8 := by
  have hlength : ((hexDigits 32 id.value.toNat).take 8).length = 8 := by
    rw [List.length_take, length_hexDigits]
    rfl
  rw [UUID.text, String.toList_ofList, List.append_assoc, List.append_assoc, List.append_assoc,
    List.take_append_of_le_length hlength.ge, List.take_of_length_le hlength.le]

theorem isSlugCharacter_of_lowerHex {c : Char} (h : isLowerHex c = true) :
    isSlugCharacter c = true := by
  rw [isLowerHex, decide_eq_true_eq] at h
  rw [isSlugCharacter, decide_eq_true_eq]
  rcases h with hdigit | hletter
  · exact .inr hdigit
  · exact .inl ⟨hletter.1, Char.le_trans hletter.2 (by decide)⟩

theorem isReferenceCharacter_take_text (id : UUID) :
    ∀ c ∈ id.text.toList.take 8, isReferenceCharacter c = true := by
  intro c hc
  rw [take_text] at hc
  rw [isReferenceCharacter, isSlugCharacter_of_lowerHex
    (isLowerHex_of_mem_hexDigits (List.mem_of_mem_take hc)), Bool.true_or]

theorem length_take_text (id : UUID) : (id.text.toList.take 8).length = 8 := by
  rw [take_text, List.length_take, length_hexDigits]
  rfl

theorem isReferenceCharacter_splitbind :
    ∀ c ∈ "splitbind-".toList, isReferenceCharacter c = true :=
  List.all_eq_true.mp (by decide +kernel)

theorem length_splitbind : "splitbind-".toList.length = 10 := by
  decide

theorem downloadReference_characters (id : UUID) :
    ∀ c ∈ downloadReference id, isReferenceCharacter c = true := by
  show ∀ c ∈ "splitbind-".toList ++ id.text.toList.take 8, isReferenceCharacter c = true
  rw [List.forall_mem_append]
  exact ⟨isReferenceCharacter_splitbind, isReferenceCharacter_take_text id⟩

theorem length_downloadReference (id : UUID) : (downloadReference id).length = 18 := by
  show ("splitbind-".toList ++ id.text.toList.take 8).length = 18
  rw [List.length_append, length_splitbind, length_take_text]

theorem downloadStem_spec {slug reference : List Char}
    (hslug : (∀ c ∈ slug, isReferenceCharacter c = true) ∧ slug.length ≤ 80)
    (hreference : (∀ c ∈ reference, isReferenceCharacter c = true) ∧ reference.length = 18) :
    (∀ c ∈ downloadStem slug reference, isReferenceCharacter c = true) ∧
      downloadStem slug reference ≠ [] ∧ (downloadStem slug reference).length ≤ 170 := by
  rw [downloadStem]
  split_ifs with hempty
  · refine ⟨fun c hc ↦ ?_, fun hnil ↦ ?_, ?_⟩
    · rcases List.mem_append.mp hc with hc | hc
      · exact hslug.1 c hc
      · rcases List.mem_cons.mp hc with rfl | hc
        · rfl
        · exact hreference.1 c hc
    · exact hempty (List.append_eq_nil_iff.mp hnil).1
    · rw [List.length_append, List.length_cons]
      omega
  · refine ⟨hreference.1, fun hnil ↦ ?_, by omega⟩
    rw [hnil] at hreference
    cases hreference.2

/-- A download is named by the slug and the reference; the candidate always passes the check. -/
theorem issuanceDownloadFilename_eq (unicode : UnicodeRules) (issuanceId : UUID)
    (sourceFilename outputObjectKey : List Char) :
    ∃ front, (∀ c ∈ front, isReferenceCharacter c = true) ∧
      issuanceDownloadFilename unicode issuanceId sourceFilename outputObjectKey =
        front ++ '.' :: downloadExtension unicode outputObjectKey ∧
      DownloadName (front ++ '.' :: downloadExtension unicode outputObjectKey) := by
  obtain ⟨hfront, hne, hlength⟩ := downloadStem_spec
    (documentNameSlug_spec unicode (originalStem sourceFilename))
    ⟨downloadReference_characters issuanceId, length_downloadReference issuanceId⟩
  have hname := downloadName_of_reference hfront hne hlength
    (downloadExtension_mem unicode outputObjectKey)
  refine ⟨_, hfront, ?_, hname⟩
  rw [issuanceDownloadFilename, validateDownloadFilename_eq_ok.mpr ⟨rfl, hname⟩]

/-! ## 4. The header -/

/-- The octets that `quote(·, safe="")` leaves as they are. -/
def isUnreserved (octet : UInt8) : Bool :=
  (Char.ofNat octet.toNat).isAlphanum && octet.toNat < 128 ||
    "_.-~".toList.contains (.ofNat octet.toNat)

def quote (filename : List Char) : List Char :=
  HeaderValue.percentEncode isUnreserved (filename.flatMap String.utf8EncodeChar)

/-- `filename.encode("ascii", "replace").decode("ascii").replace("?", "_")`. -/
def asciiFallback (filename : List Char) : List Char :=
  (filename.map fun c ↦ if c.toNat < 128 then c else '?').map fun c ↦ if c = '?' then '_' else c

/-- The value that is returned for a name that passes. -/
def dispositionHeader (filename : List Char) : List Char :=
  "attachment; filename=\"".toList ++ asciiFallback filename ++ "\"; filename*=UTF-8''".toList ++
    quote filename

def contentDisposition (filename : List Char) : Except FilenameError (List Char) := do
  let _ ← validateDownloadFilename filename
  return dispositionHeader filename

/-- ASCII letters, digits and four marks. -/
theorem isUnreserved_printable : HeaderValue.Printable isUnreserved := by
  intro octet
  have hall : ∀ n < 256, isUnreserved (.ofNat n) = true →
      HeaderValue.isToken (.ofNat (UInt8.ofNat n).toNat) = true ∧ (UInt8.ofNat n).toNat < 127 ∧
        UInt8.ofNat n ≠ 37 := by
    decide +kernel
  have h := hall octet.toNat octet.toNat_lt
  rwa [UInt8.ofNat_toNat] at h

theorem isToken_of_mem_quote {filename : List Char} {c : Char} (h : c ∈ quote filename) :
    HeaderValue.isToken c = true ∧ c.toNat < 127 :=
  HeaderValue.isToken_of_mem_percentEncode isUnreserved_printable h

/-- A character of the fallback is ASCII, and one of the name or an underscore. -/
theorem mem_asciiFallback {filename : List Char} {c : Char} (h : c ∈ asciiFallback filename) :
    c.toNat < 128 ∧ (c ∈ filename ∨ c = '_') := by
  obtain ⟨d, hd, rfl⟩ := List.mem_map.mp h
  obtain ⟨e, he, rfl⟩ := List.mem_map.mp hd
  by_cases hascii : e.toNat < 128
  · rw [if_pos hascii]
    split_ifs
    · exact ⟨by decide, .inr rfl⟩
    · exact ⟨hascii, .inl he⟩
  · rw [if_neg hascii, if_pos rfl]
    exact ⟨by decide, .inr rfl⟩

/-- An ASCII character that the check lets pass. -/
theorem isForbidden_spec {c : Char} (h : isForbidden c = false) :
    32 ≤ c.toNat ∧ c.toNat ≠ 127 ∧ c ≠ '"' ∧ c ≠ '\\' := by
  rw [isForbidden, Bool.or_eq_false_iff, Bool.or_eq_false_iff, decide_eq_false_iff_not,
    decide_eq_false_iff_not] at h
  obtain ⟨⟨hcontrol, hdelete⟩, hcharacter⟩ := h
  refine ⟨not_lt.mp hcontrol, hdelete, ?_, ?_⟩ <;>
  · rintro rfl
    exact absurd hcharacter (by decide)

theorem asciiFallback_spec {filename : List Char} (hname : DownloadName filename) :
    ∀ c ∈ asciiFallback filename, (32 ≤ c.toNat ∧ c.toNat < 127) ∧ c ≠ '"' ∧ c ≠ '\\' := by
  intro c hc
  obtain ⟨hascii, hmem | rfl⟩ := mem_asciiFallback hc
  · obtain ⟨hlow, hdelete, hquotes⟩ := isForbidden_spec (hname.characters c hmem)
    exact ⟨⟨hlow, by omega⟩, hquotes⟩
  · decide

theorem dispositionHeader_eq (filename : List Char) : dispositionHeader filename =
    "attachment".toList ++ (';' :: ' ' :: "filename".toList ++ '=' :: ('"' :: asciiFallback filename ++
      '"' :: (';' :: ' ' :: "filename*".toList ++ '=' :: ("UTF-8''".toList ++ quote filename)))) := by
  have hfirst : "attachment; filename=\"".toList =
      "attachment".toList ++ (';' :: ' ' :: "filename".toList ++ ['=', '"']) := by
    decide
  have hsecond : "\"; filename*=UTF-8''".toList =
      '"' :: (';' :: ' ' :: "filename*".toList ++ '=' :: "UTF-8''".toList) := by
    decide
  show "attachment; filename=\"".toList ++ asciiFallback filename ++
    "\"; filename*=UTF-8''".toList ++ quote filename = _
  rw [hfirst, hsecond]
  simp only [List.append_assoc, List.cons_append, List.nil_append]

theorem isToken_literals : (∀ c ∈ "attachment".toList, HeaderValue.isToken c = true) ∧
    (∀ c ∈ "filename".toList, HeaderValue.isToken c = true) ∧
    (∀ c ∈ "filename*".toList, HeaderValue.isToken c = true) ∧
    ∀ c ∈ "UTF-8''".toList, HeaderValue.isToken c = true :=
  ⟨List.all_eq_true.mp (by decide +kernel), List.all_eq_true.mp (by decide +kernel),
    List.all_eq_true.mp (by decide +kernel), List.all_eq_true.mp (by decide +kernel)⟩

/-- No name makes the header read otherwise than as the two parameters written. -/
theorem parse_dispositionHeader {filename : List Char} (hname : DownloadName filename) :
    HeaderValue.parse (dispositionHeader filename) = some ("attachment".toList,
      [("filename".toList, asciiFallback filename),
        ("filename*".toList, "UTF-8''".toList ++ quote filename)]) := by
  obtain ⟨hattachment, hplain, hstar, hutf⟩ := isToken_literals
  have hquoted := HeaderValue.readValue_quoted
    (fun c hc ↦ (asciiFallback_spec hname c hc).2)
    (';' :: ' ' :: "filename*".toList ++ '=' :: ("UTF-8''".toList ++ quote filename))
  have hnonempty : "UTF-8''".toList ++ quote filename ≠ [] :=
    List.append_ne_nil_of_left_ne_nil (by decide) _
  have htoken := HeaderValue.readValue_token
    (List.forall_mem_append.mpr ⟨hutf, fun c hc ↦ (isToken_of_mem_quote hc).1⟩) hnonempty
  obtain ⟨htake, hdrop⟩ := HeaderValue.span_token
    (';' :: ' ' :: "filename".toList ++ '=' :: ('"' :: asciiFallback filename ++
      '"' :: (';' :: ' ' :: "filename*".toList ++ '=' :: ("UTF-8''".toList ++ quote filename))))
    hattachment (by rintro c ⟨⟩; decide)
  -- a parameter takes one of the fuel, and the header is longer than that
  obtain ⟨fuel, hfuel⟩ : ∃ fuel, (dispositionHeader filename).length = fuel + 2 := by
    refine ⟨(dispositionHeader filename).length - 2, (Nat.sub_add_cancel ?_).symm⟩
    rw [dispositionHeader_eq, List.length_append]
    exact le_add_right (by decide)
  rw [HeaderValue.parse, hfuel, dispositionHeader_eq, htake, hdrop,
    HeaderValue.readParameters_cons hplain (by decide) (fuel + 1) hquoted,
    HeaderValue.readParameters_cons hstar (by decide) fuel htoken]
  cases fuel <;> rfl

theorem printable_dispositionHeader {filename : List Char} (hname : DownloadName filename) :
    ∀ c ∈ dispositionHeader filename, 32 ≤ c.toNat ∧ c.toNat < 127 := by
  have hliterals : (∀ c ∈ "attachment; filename=\"".toList, 32 ≤ c.toNat ∧ c.toNat < 127) ∧
      ∀ c ∈ "\"; filename*=UTF-8''".toList, 32 ≤ c.toNat ∧ c.toNat < 127 :=
    ⟨List.all_iff_forall_prop.mp (by decide +kernel),
      List.all_iff_forall_prop.mp (by decide +kernel)⟩
  have hquote : ∀ c ∈ quote filename, 32 ≤ c.toNat ∧ c.toNat < 127 := by
    intro c hc
    obtain ⟨htoken, hascii⟩ := isToken_of_mem_quote hc
    exact ⟨le_of_lt (HeaderValue.lt_of_isToken htoken), hascii⟩
  show ∀ c ∈ "attachment; filename=\"".toList ++ asciiFallback filename ++
    "\"; filename*=UTF-8''".toList ++ quote filename, _
  simp only [List.forall_mem_append]
  exact ⟨⟨⟨hliterals.1, fun c hc ↦ (asciiFallback_spec hname c hc).1⟩, hliterals.2⟩, hquote⟩

/-- A header that is returned: it prints, and is read as the two parameters written, the second of
them the name itself. -/
structure ReadsAs (value filename : List Char) : Prop where
  printable : ∀ c ∈ value, 32 ≤ c.toNat ∧ c.toNat < 127
  quoted : ∀ c ∈ asciiFallback filename, c ≠ '"' ∧ c ≠ '\\'
  parse : HeaderValue.parse value = some ("attachment".toList,
    [("filename".toList, asciiFallback filename),
      ("filename*".toList, "UTF-8''".toList ++ quote filename)])
  decode : HeaderValue.percentDecode (quote filename) = filename.flatMap String.utf8EncodeChar

theorem contentDisposition_eq_ok {filename value : List Char} :
    contentDisposition filename = .ok value ↔
      DownloadName filename ∧ value = dispositionHeader filename := by
  simp only [contentDisposition, bind_eq_ok, validateDownloadFilename_eq_ok, pure_eq_ok]
  constructor
  · rintro ⟨name, ⟨-, hname⟩, rfl⟩
    exact ⟨hname, rfl⟩
  · rintro ⟨hname, rfl⟩
    exact ⟨filename, ⟨rfl, hname⟩, rfl⟩

theorem readsAs_of_contentDisposition {filename value : List Char}
    (h : contentDisposition filename = .ok value) : ReadsAs value filename := by
  obtain ⟨hname, rfl⟩ := contentDisposition_eq_ok.mp h
  exact ⟨printable_dispositionHeader hname, fun c hc ↦ (asciiFallback_spec hname c hc).2,
    parse_dispositionHeader hname,
    HeaderValue.percentDecode_percentEncode isUnreserved_printable _⟩

/-! ## 5. The three filters together -/

/-- A name that is offered for a download: printable ASCII, accepted, with the extension of the
output if that is one of the two. -/
structure OfferedName (unicode : UnicodeRules) (outputObjectKey name : List Char) : Prop where
  accepted : validateDownloadFilename name = .ok name
  ascii : ∀ c ∈ name, 32 ≤ c.toNat ∧ c.toNat < 127
  extension : (rpartition '.' name).2.2 = downloadExtension unicode outputObjectKey
  known : downloadExtension unicode outputObjectKey ∈ downloadExtensions
  output : ∀ extension ∈ downloadExtensions,
    unicode.lower (rpartition '.' outputObjectKey).2.2 = extension →
      downloadExtension unicode outputObjectKey = extension

theorem issuanceDownloadFilename_spec (unicode : UnicodeRules) (issuanceId : UUID)
    (sourceFilename outputObjectKey : List Char) : OfferedName unicode outputObjectKey
      (issuanceDownloadFilename unicode issuanceId sourceFilename outputObjectKey) := by
  obtain ⟨front, hfront, heq, hname⟩ :=
    issuanceDownloadFilename_eq unicode issuanceId sourceFilename outputObjectKey
  have hknown := downloadExtension_mem unicode outputObjectKey
  obtain ⟨haccepted, hcharacters⟩ := downloadExtensions_spec hknown
  rw [heq]
  constructor
  · exact validateDownloadFilename_eq_ok.mpr ⟨rfl, hname⟩
  · intro c hc
    rcases List.mem_append.mp hc with hc | hc
    · have hc := isReferenceCharacter_spec (hfront c hc)
      omega
    · rcases List.mem_cons.mp hc with rfl | hc
      · decide
      · have hc := isReferenceCharacter_spec (hcharacters c hc)
        omega
  · rw [rpartition_append (dot_notMem haccepted)]
  · exact hknown
  · intro extension hextension hlower
    rw [downloadExtension, hlower, if_pos hextension]

/-- No name that is uploaded reaches the store, a download or its header as anything but a name. -/
theorem fileNames_spec (unicode : UnicodeRules) :
    (∀ filename, (safeSourceFilename filename = [] ∨
        validateDownloadFilename (safeSourceFilename filename) = .ok (safeSourceFilename filename)) ∧
      safeSourceFilename (safeSourceFilename filename) = safeSourceFilename filename) ∧
    (∀ issuanceId sourceFilename outputObjectKey, OfferedName unicode outputObjectKey
      (issuanceDownloadFilename unicode issuanceId sourceFilename outputObjectKey)) ∧
    ∀ filename, validateDownloadFilename filename = .ok filename →
      ∃ value, contentDisposition filename = .ok value ∧ ReadsAs value filename := by
  refine ⟨fun filename ↦ ⟨?_, safeSourceFilename_idempotent filename⟩,
    issuanceDownloadFilename_spec unicode, fun filename hvalid ↦ ?_⟩
  · rcases safeSourceFilename_cases filename with hnil | ⟨hsafe, hname⟩
    · exact .inl hnil
    · right
      rw [hsafe]
      exact validateDownloadFilename_eq_ok.mpr ⟨rfl, hname⟩
  · have hheader := contentDisposition_eq_ok.mpr
      ⟨(validateDownloadFilename_eq_ok.mp hvalid).2, rfl⟩
    exact ⟨_, hheader, readsAs_of_contentDisposition hheader⟩

/-- The rules as they are on ASCII. -/
def asciiUnicode : UnicodeRules where
  nfd := id
  isNonspacingMark _ := false
  lower := List.map Char.toLower

/-- A path with a quote in it is stored as a name, and its header is read as that name. -/
theorem fileNames_quotedPath :
    safeSourceFilename "C:\\in\\..báo\"cáo.pdf".toList = "báocáo.pdf".toList ∧
      ∃ value, contentDisposition "báocáo.pdf".toList = .ok value ∧
        ReadsAs value "báocáo.pdf".toList :=
  ⟨by decide +kernel, (fileNames_spec asciiUnicode).2.2 _ (by decide +kernel)⟩

end Splitbind
