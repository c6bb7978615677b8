import Mathlib.Tactic.IntervalCases
import Splitbind.Demo.PdfWellFormed
import Splitbind.Library.Scan
import Splitbind.Library.Sha256

/-!
# Page pre-check — what the browser counts before it uploads

The browser counts the places of a file where a page object seems to be named, and refuses the file
when there are too many.  It looks at the bytes as they stand: in comments, in streams and in
objects that an update has replaced.  The services behind the upload are parameters.
-/

namespace Splitbind

open Transaction Pdf

/-! ## 1. Counting -/

/-- `String.fromCharCode` of bytes. -/
def fromCharCode (bytes : List UInt8) : List Char :=
  bytes.map fun byte ↦ Char.ofNat byte.toNat

/-- The loop that reads the bytes in steps. -/
def textFrom (step : Nat) (bytes : List UInt8) (start : Nat) (text : List Char) : List Char :=
  if start < bytes.length ∧ 0 < step then
    textFrom step bytes (start + step) (text ++ fromCharCode ((bytes.drop start).take step))
  else text
termination_by bytes.length - start

/-- `\s`, as far as bytes go. -/
def isRegexSpace (c : Char) : Bool :=
  ['\t', '\n', '\x0b', '\x0c', '\r', ' ', '\u00a0'].contains c

/-- `[sA-Za-z]`. -/
def isRegexLetter (c : Char) : Bool :=
  c = 's' || ('A' ≤ c && c ≤ 'Z') || ('a' ≤ c && c ≤ 'z')

/-- How long a match of `PAGE_OBJECT` is that starts at the front. -/
def pageObjectWidth (text : List Char) : Option Nat := do
  let afterType ← "/Type".toList.isPrefixOf? text
  let afterPage ← "/Page".toList.isPrefixOf? (afterType.dropWhile isRegexSpace)
  if afterPage.head?.any isRegexLetter then none
  else some (text.length - afterPage.length)

def unknownPageCount : Int := -1

/-- A file that was chosen; `contents` are what `arrayBuffer` resolves to, unless it rejects. -/
structure BrowserFile where
  name : List Char
  type : String
  size : Nat
  contents : Option (List UInt8)

def countPdfPages (file : BrowserFile) : Int :=
  match file.contents with
  | none => unknownPageCount
  | some bytes =>
    let matched := Scan.count pageObjectWidth 0 (textFrom 0x8000 bytes 0 [])
    if 0 < matched then matched else unknownPageCount

/-! ## 2. Uploading -/

def maxPdfBytes : Nat := 100 * 1000 * 1000

def maxPdfPages : Nat := 50

/-- A number from its last digit on, with a mark after every three digits. -/
def groupDigits : List Char → List Char
  | a :: b :: c :: d :: rest => a :: b :: c :: '.' :: groupDigits (d :: rest)
  | digits => digits

/-- `toLocaleString("vi-VN")` of a whole number. -/
def toLocaleString (n : Nat) : String :=
  String.ofList (groupDigits (Nat.toDigits 10 n).reverse).reverse

example : toLocaleString 1234567 = "1.234.567" := by decide +kernel

/-- What is thrown: a `SafeApiError` with its message, or an error of the browser. -/
inductive UploadError
  | safeApi (message : String)
  | browser (message : String)
deriving DecidableEq, Repr

def UploadError.message : UploadError → String
  | .safeApi message => message
  | .browser message => message

/-- `formatBytes(MAX_PDF_BYTES)`. -/
def maxPdfLabel : String := "100 MB"

def sizeError : UploadError :=
  .safeApi <| "Tệp vượt quá giới hạn " ++ maxPdfLabel ++ ". Chọn tệp nhỏ hơn rồi thử lại."

def contentTypeError (exactOnly : Bool) : UploadError :=
  .safeApi <| if exactOnly then "Tệp đã chọn không phải PDF. Chọn tệp có định dạng PDF rồi thử lại."
    else "Tệp chưa đúng định dạng. Chọn tệp PDF, PNG hoặc JPEG rồi thử lại."

def pageLimitError (pages : Nat) : UploadError :=
  .safeApi <| "Tệp có " ++ toLocaleString pages ++ " trang, vượt giới hạn " ++
    toString maxPdfPages ++ " trang. " ++ "Chọn tệp ngắn hơn hoặc tách bớt trang rồi thử lại."

def storageError : UploadError :=
  .safeApi <| "Không thể tải tệp lên kho lưu trữ. Giữ nguyên tệp và thử lại."

inductive BrowserUploadKind
  | issuanceInput
  | verificationInput
deriving DecidableEq, Repr

inductive UploadStage
  | hashing
  | intent
  | uploading
  | finalizing
deriving DecidableEq, Repr

structure UploadReady where
  uploadId : String
  sha256 : String
deriving DecidableEq, Repr

structure IntentBody where
  kind : BrowserUploadKind
  filename : List Char
  contentType : String
  sizeBytes : Nat
  sha256 : String

structure UploadIntent where
  id : String
  uploadUrl : String
  requiredHeaders : List (String × String)

/-- What the upload asks of others: a digest, the API with the message for its errors, the store. -/
structure UploadServices where
  toLocaleLowerCase : List Char → List Char
  sha256 : BrowserFile → Except UploadError String
  createIntent : IntentBody → Except UploadError UploadIntent
  put : UploadIntent → BrowserFile → Except UploadError Bool
  complete : String → String → Except UploadError String

section Upload

variable (services : UploadServices)

def validateSize (file : BrowserFile) : Except UploadError Unit :=
  raiseIf (maxPdfBytes < file.size) sizeError

/-- The suffixes of names and their type. -/
def fileCandidates (exactOnly : Bool) : List (List String × String) :=
  if exactOnly then [([".pdf"], "application/pdf")]
  else [([".pdf"], "application/pdf"), ([".png"], "image/png"), ([".jpg", ".jpeg"], "image/jpeg")]

def normalizedContentType (file : BrowserFile) (exactOnly : Bool) : Option String := do
  let name := services.toLocaleLowerCase file.name
  let candidate ← (fileCandidates exactOnly).find? fun candidate ↦
    candidate.1.any fun suffix ↦ suffix.toList.isSuffixOf name
  if file.type ≠ "" ∧ file.type ≠ candidate.2 then none else some candidate.2

/-- `validateIssuanceFile` and `validateVerificationFile`. -/
def validateFile (file : BrowserFile) (exactOnly : Bool) : Except UploadError Unit := do
  validateSize file
  raiseIf (normalizedContentType services file exactOnly = none) (contentTypeError exactOnly)

/-- The page pre-check of a PDF. -/
def precheckPages (file : BrowserFile) : Except UploadError Unit :=
  let pages := countPdfPages file
  raiseIf (pages ≠ unknownPageCount ∧ (maxPdfPages : Int) < pages) (pageLimitError pages.toNat)

/-- The stages that are announced, and how the upload ends. -/
def uploadPdf (file : BrowserFile) (kind : BrowserUploadKind) (exactOnly : Bool) :
    List UploadStage × Except UploadError UploadReady :=
  match validateFile services file exactOnly with
  | .error error => ([], .error error)
  | .ok _ =>
    let contentType := (normalizedContentType services file exactOnly).getD ""
    match if contentType = "application/pdf" then precheckPages file else .ok () with
    | .error error => ([], .error error)
    | .ok _ =>
      match services.sha256 file with
      | .error error => ([.hashing], .error error)
      | .ok checksum =>
        match services.createIntent ⟨kind, file.name, contentType, file.size, checksum⟩ with
        | .error error => ([.hashing, .intent], .error error)
        | .ok intent =>
          match services.put intent file with
          | .error error => ([.hashing, .intent, .uploading], .error error)
          | .ok false => ([.hashing, .intent, .uploading], .error storageError)
          | .ok true =>
            ([.hashing, .intent, .uploading, .finalizing],
              (services.complete intent.id checksum).map fun id ↦ ⟨id, checksum⟩)

end Upload

/-! ## 3. The places that are counted -/

/-- `/Type`, white space, and `/Page` that no letter continues. -/
def PageMarkerAt (text : List Char) : Prop :=
  ∃ blanks rest, text = "/Type".toList ++ (blanks ++ ("/Page".toList ++ rest)) ∧
    (∀ c ∈ blanks, isRegexSpace c = true) ∧ rest.head?.any isRegexLetter = false

theorem dropWhile_blanks {blanks rest : List Char} (hblanks : ∀ c ∈ blanks, isRegexSpace c = true) :
    (blanks ++ ("/Page".toList ++ rest)).dropWhile isRegexSpace = "/Page".toList ++ rest := by
  rw [List.dropWhile_append_of_pos hblanks]
  rfl

/-- A match is a marker, and as long as the marker is. -/
theorem pageObjectWidth_eq_some {text : List Char} {n : Nat} :
    pageObjectWidth text = some n ↔ ∃ blanks rest,
      text = "/Type".toList ++ (blanks ++ ("/Page".toList ++ rest)) ∧
      (∀ c ∈ blanks, isRegexSpace c = true) ∧ rest.head?.any isRegexLetter = false ∧
      n = blanks.length + 10 := by
  simp only [pageObjectWidth, Option.bind_eq_bind, Option.bind_eq_some_iff,
    List.isPrefixOf?_eq_some_iff_append_eq]
  have hlength : ∀ blanks rest : List Char,
      ("/Type".toList ++ (blanks ++ ("/Page".toList ++ rest))).length - rest.length =
        blanks.length + 10 := by
    intro blanks rest
    have hliterals : "/Type".toList.length = 5 ∧ "/Page".toList.length = 5 := by decide
    rw [List.length_append, List.length_append, List.length_append, hliterals.1, hliterals.2]
    omega
  constructor
  · rintro ⟨afterType, rfl, rest, hpage, h⟩
    have hsplit : afterType = afterType.takeWhile isRegexSpace ++ ("/Page".toList ++ rest) := by
      rw [hpage, List.takeWhile_append_dropWhile]
    split_ifs at h with hletter
    refine ⟨afterType.takeWhile isRegexSpace, rest, congrArg _ hsplit,
      fun c hc ↦ List.mem_takeWhile_imp hc, Bool.eq_false_iff.mpr hletter, ?_⟩
    rw [← hlength _ rest, ← hsplit]
    exact (Option.some.inj h).symm
  · rintro ⟨blanks, rest, rfl, hblanks, hletter, rfl⟩
    refine ⟨_, rfl, rest, (dropWhile_blanks hblanks).symm, ?_⟩
    rw [hletter, hlength]
    rfl

theorem isSome_pageObjectWidth {text : List Char} :
    (pageObjectWidth text).isSome = true ↔ PageMarkerAt text := by
  rw [Option.isSome_iff_exists]
  constructor
  · rintro ⟨n, h⟩
    obtain ⟨blanks, rest, htext, hblanks, hletter, -⟩ := pageObjectWidth_eq_some.mp h
    exact ⟨blanks, rest, htext, hblanks, hletter⟩
  · rintro ⟨blanks, rest, htext, hblanks, hletter⟩
    exact ⟨_, pageObjectWidth_eq_some.mpr ⟨blanks, rest, htext, hblanks, hletter, rfl⟩⟩

instance : DecidablePred PageMarkerAt := fun _ ↦ decidable_of_iff _ isSome_pageObjectWidth

/-- A marker begins with these two characters. -/
theorem PageMarkerAt.front {text : List Char} {k : Nat} (h : PageMarkerAt (text.drop k)) :
    text[k]? = some '/' ∧ text[k + 1]? = some 'T' := by
  obtain ⟨blanks, rest, htext, -⟩ := h
  have hfirst : (text.drop k)[0]? = some '/' := by rw [htext]; rfl
  have hsecond : (text.drop k)[1]? = some 'T' := by rw [htext]; rfl
  rw [List.getElem?_drop] at hfirst hsecond
  exact ⟨hfirst, hsecond⟩

/-- Within a marker none begins. -/
theorem pageObjectWidth_separate : Scan.Separate pageObjectWidth := by
  intro text n h k hpos hk
  obtain ⟨blanks, rest, rfl, hblanks, -, rfl⟩ := pageObjectWidth_eq_some.mp h
  rw [Option.eq_none_iff_forall_ne_some]
  intro m hmatch
  have hmarker := isSome_pageObjectWidth.mp (Option.isSome_iff_exists.mpr ⟨m, hmatch⟩)
  obtain ⟨hslash, htype⟩ := hmarker.front
  have htail : ∀ j, ("/Type".toList ++ (blanks ++ ("/Page".toList ++ rest)))[j + 5]? =
      (blanks ++ ("/Page".toList ++ rest))[j]? := fun j ↦ rfl
  have hpage : ∀ i, (blanks ++ ("/Page".toList ++ rest))[blanks.length + i]? =
      ("/Page".toList ++ rest)[i]? := by
    intro i
    rw [List.getElem?_append_right (Nat.le_add_right _ _), Nat.add_sub_cancel_left]
  -- a marker needs a slash with a `T` behind it, wherever in the match it would begin
  rcases Nat.lt_or_ge k 5 with hfront | hbehind
  · -- the letters of the first name
    have hletter : ∀ i < 5, 0 < i → ("/Type".toList ++ (blanks ++ ("/Page".toList ++ rest)))[i]? ≠
        some '/' := by
      intro i hi hpos
      interval_cases i <;> exact fun h ↦ absurd (Option.some.inj h) (by decide)
    exact hletter k hfront hpos hslash
  · obtain ⟨j, rfl⟩ := Nat.exists_eq_add_of_le' hbehind
    rcases Nat.lt_or_ge j blanks.length with hblank | hlater
    · rw [htail, List.getElem?_append_left hblank, List.getElem?_eq_getElem hblank] at hslash
      have hspace := hblanks _ (List.getElem_mem hblank)
      rw [Option.some.inj hslash] at hspace
      exact absurd hspace (by decide)
    · -- the slash of the second name is not followed by the first one's letter
      obtain ⟨i, rfl⟩ := Nat.exists_eq_add_of_le hlater
      have hi : i < 5 := by omega
      rw [htail, hpage] at hslash
      rw [show blanks.length + i + 5 + 1 = blanks.length + (i + 1) + 5 by omega, htail, hpage]
        at htype
      interval_cases i
      · exact absurd (Option.some.inj htype) (by decide)
      all_goals exact absurd (Option.some.inj hslash) (by decide)

theorem textFrom_eq {step : Nat} (hstep : 0 < step) (bytes : List UInt8) (start : Nat)
    (text : List Char) :
    textFrom step bytes start text = text ++ fromCharCode (bytes.drop start) := by
  induction start, text using textFrom.induct step bytes with
  | case1 start text hmore ih =>
    rw [textFrom, if_pos hmore, ih, List.append_assoc, fromCharCode, fromCharCode, fromCharCode,
      ← List.map_append, ← List.drop_drop, List.take_append_drop]
  | case2 start text hdone =>
    have hend : bytes.length ≤ start := by omega
    rw [textFrom, if_neg hdone, List.drop_eq_nil_of_le hend]
    exact (List.append_nil text).symm

/-- Where the bytes of a file name a page object, whatever the bytes there are part of. -/
def pageMarkers (bytes : List UInt8) : List Nat :=
  (List.range bytes.length).filter fun start ↦ PageMarkerAt ((fromCharCode bytes).drop start)

/-- The search finds every marker. -/
theorem count_eq_length_pageMarkers (bytes : List UInt8) :
    Scan.count pageObjectWidth 0 (fromCharCode bytes) = (pageMarkers bytes).length := by
  have hplaces : Scan.places pageObjectWidth (fromCharCode bytes) = pageMarkers bytes := by
    rw [Scan.places, pageMarkers, fromCharCode, List.length_map]
    refine List.filter_congr fun start _ ↦ ?_
    rw [Bool.eq_iff_iff, isSome_pageObjectWidth, decide_eq_true_iff]
  rw [Scan.count_eq_length_places pageObjectWidth_separate, hplaces]

theorem countPdfPages_eq {file : BrowserFile} {bytes : List UInt8}
    (hcontents : file.contents = some bytes) :
    countPdfPages file =
      if 0 < (pageMarkers bytes).length then ((pageMarkers bytes).length : Int)
      else unknownPageCount := by
  have htext : textFrom 0x8000 bytes 0 [] = fromCharCode bytes := by
    rw [textFrom_eq (by decide), List.nil_append, List.drop_zero]
  rw [countPdfPages, hcontents]
  simp only [htext, count_eq_length_pageMarkers]

/-! ## 4. Files that are refused -/

/-- An upload that ends for too many pages, before anything was announced. -/
def RefusedForPages (services : UploadServices) (file : BrowserFile) (kind : BrowserUploadKind)
    (exactOnly : Bool) : Prop :=
  ∃ pages, uploadPdf services file kind exactOnly = ([], .error (pageLimitError pages))

theorem pageLimitError_front (pages : Nat) :
    (pageLimitError pages).message.toList[5]? = some 'ó' := by
  rw [pageLimitError, UploadError.message, String.append_assoc, String.append_assoc,
    String.append_assoc, String.append_assoc, String.toList_append]
  rfl

theorem sizeError_ne (pages : Nat) : sizeError ≠ pageLimitError pages := by
  intro h
  have hfront := pageLimitError_front pages
  rw [← h] at hfront
  exact absurd hfront (by decide)

theorem contentTypeError_ne (exactOnly : Bool) (pages : Nat) :
    contentTypeError exactOnly ≠ pageLimitError pages := by
  intro h
  have hfront := pageLimitError_front pages
  rw [← h] at hfront
  cases exactOnly
  · exact absurd hfront (by decide)
  · exact absurd hfront (by decide)

theorem validateFile_ne (services : UploadServices) (file : BrowserFile) (exactOnly : Bool)
    (pages : Nat) : validateFile services file exactOnly ≠ .error (pageLimitError pages) := by
  intro h
  rw [validateFile, validateSize] at h
  -- neither of its messages is that of the page limit
  by_cases hsize : maxPdfBytes < file.size
  · rw [raiseIf_pos hsize] at h
    exact sizeError_ne pages (Except.error.inj h)
  · rw [raiseIf_neg hsize, ok_bind, raiseIf_eq_error] at h
    exact contentTypeError_ne exactOnly pages h.2

theorem precheckPages_eq {file : BrowserFile} {bytes : List UInt8}
    (hcontents : file.contents = some bytes) :
    precheckPages file =
      raiseIf (maxPdfPages < (pageMarkers bytes).length)
        (pageLimitError (pageMarkers bytes).length) := by
  rw [precheckPages, countPdfPages_eq hcontents]
  by_cases hmany : maxPdfPages < (pageMarkers bytes).length
  · have hpos : 0 < (pageMarkers bytes).length := Nat.zero_lt_of_lt hmany
    have hknown : ((pageMarkers bytes).length : Int) ≠ unknownPageCount := by
      rw [unknownPageCount]
      omega
    rw [raiseIf_pos hmany]
    simp only [if_pos hpos, Int.toNat_natCast]
    exact raiseIf_pos ⟨hknown, Int.ofNat_lt.mpr hmany⟩ _
  · rw [raiseIf_neg hmany]
    refine raiseIf_neg ?_ _
    rintro ⟨hknown, hlimit⟩
    split_ifs at hknown hlimit with hpos
    · exact hmany (Int.ofNat_lt.mp hlimit)
    · exact hknown rfl

/-- What is checked before the first stage. -/
def checkFile (services : UploadServices) (file : BrowserFile) (exactOnly : Bool) :
    Except UploadError Unit := do
  validateFile services file exactOnly
  if (normalizedContentType services file exactOnly).getD "" = "application/pdf" then
    precheckPages file
  else .ok ()

theorem uploadPdf_error {services : UploadServices} {file : BrowserFile} {exactOnly : Bool}
    {error : UploadError} (h : checkFile services file exactOnly = .error error)
    (kind : BrowserUploadKind) : uploadPdf services file kind exactOnly = ([], .error error) := by
  rw [checkFile] at h
  cases hvalid : validateFile services file exactOnly with
  | error other =>
    rw [hvalid] at h
    rw [uploadPdf, hvalid, Except.error.inj h]
  | ok _ =>
    rw [hvalid, ok_bind] at h
    rw [uploadPdf, hvalid]
    simp only [h]

theorem uploadPdf_ok {services : UploadServices} {file : BrowserFile} {exactOnly : Bool}
    (h : checkFile services file exactOnly = .ok ()) (kind : BrowserUploadKind) :
    (uploadPdf services file kind exactOnly).1 ≠ [] := by
  rw [checkFile] at h
  cases hvalid : validateFile services file exactOnly with
  | error other =>
    rw [hvalid] at h
    exact nomatch h
  | ok _ =>
    rw [hvalid, ok_bind] at h
    rw [uploadPdf, hvalid]
    simp only [h]
    split
    · exact List.cons_ne_nil _ _
    split
    · exact List.cons_ne_nil _ _
    split <;> exact List.cons_ne_nil _ _

/-- The upload is refused for its pages when it is a PDF with too many of the counted places. -/
theorem refusedForPages_iff {file : BrowserFile} {bytes : List UInt8}
    (hcontents : file.contents = some bytes) (services : UploadServices)
    (kind : BrowserUploadKind) (exactOnly : Bool) :
    RefusedForPages services file kind exactOnly ↔
      validateFile services file exactOnly = .ok () ∧
        normalizedContentType services file exactOnly = some "application/pdf" ∧
        maxPdfPages < (pageMarkers bytes).length := by
  -- an upload that has announced a stage is no longer refused in this way
  have hchecked : RefusedForPages services file kind exactOnly ↔
      ∃ pages, checkFile services file exactOnly = .error (pageLimitError pages) := by
    refine exists_congr fun pages ↦ ⟨fun h ↦ ?_, fun h ↦ uploadPdf_error h kind⟩
    cases hfile : checkFile services file exactOnly with
    | error error =>
      rw [uploadPdf_error hfile kind] at h
      rw [Except.error.inj (Prod.mk.inj h).2]
    | ok _ => exact absurd (congrArg Prod.fst h) (uploadPdf_ok hfile kind)
  rw [hchecked, checkFile, precheckPages_eq hcontents]
  cases hvalid : validateFile services file exactOnly with
  | error error =>
    refine iff_of_false ?_ (fun h ↦ nomatch h.1)
    rintro ⟨pages, h⟩
    exact validateFile_ne services file exactOnly pages (hvalid.trans h)
  | ok _ =>
    have htype : (normalizedContentType services file exactOnly).getD "" = "application/pdf" ↔
        normalizedContentType services file exactOnly = some "application/pdf" := by
      cases normalizedContentType services file exactOnly with
      | none => exact iff_of_false (by decide) (by decide)
      | some contentType => exact (Option.some_inj).symm
    rw [ok_bind]
    by_cases hpdf : normalizedContentType services file exactOnly = some "application/pdf"
    · rw [if_pos (htype.mpr hpdf)]
      simp only [raiseIf_eq_error, hpdf, true_and]
      exact ⟨fun ⟨_, hmany, _⟩ ↦ hmany, fun hmany ↦ ⟨_, hmany, rfl⟩⟩
    · rw [if_neg (mt htype.mp hpdf)]
      exact iff_of_false (fun ⟨_, h⟩ ↦ nomatch h) (fun h ↦ hpdf h.2.1)

theorem countPdfPages_within {file : BrowserFile} {bytes : List UInt8}
    (hcontents : file.contents = some bytes) :
    (countPdfPages file = unknownPageCount ∨ countPdfPages file ≤ maxPdfPages) ↔
      (pageMarkers bytes).length ≤ maxPdfPages := by
  rw [countPdfPages_eq hcontents]
  -- no marker at all is an unknown count, which is within the limit too
  split_ifs with hpos
  · rw [unknownPageCount]
    omega
  · exact iff_of_true (.inl rfl) (by omega)

/-- **When the pre-check lets a file pass.**  Whatever the page tree says, the browser counts no
more than the limit, and does not refuse the file for its pages, when its bytes as they stand name
at most so many page objects. -/
theorem pagePrecheck_passes_iff (services : UploadServices) (file : BrowserFile)
    (bytes : List UInt8) (hcontents : file.contents = some bytes) (kind : BrowserUploadKind)
    (exactOnly : Bool) :
    ((countPdfPages file = unknownPageCount ∨ countPdfPages file ≤ maxPdfPages) ∧
        ¬ RefusedForPages services file kind exactOnly) ↔
      (pageMarkers bytes).length ≤ maxPdfPages := by
  rw [countPdfPages_within hcontents, refusedForPages_iff hcontents]
  exact ⟨And.left, fun hfew ↦ ⟨hfew, fun h ↦ Nat.not_le_of_lt h.2.2 hfew⟩⟩

/-! ### One page whose pixels name a page object fifty-one times -/

def documentFile (bytes : List UInt8) : BrowserFile where
  name := "document.pdf".toList
  type := "application/pdf"
  size := bytes.length
  contents := some bytes

/-- Three pages below a page tree. -/
def threePages : List UInt8 :=
  ascii "%PDF-1.7\n1 0 obj<</Type/Pages/Count 3/Kids[2 0 R 3 0 R 4 0 R]>>endobj\n" ++
    ascii "2 0 obj<</Type/Page/Parent 1 0 R>>endobj\n3 0 obj<</Type /Page/Parent 1 0 R>>endobj\n" ++
    ascii "4 0 obj<</Type/Page>>endobj\n"

/-- An API and a store that accept whatever they are asked. -/
def acceptingServices : UploadServices where
  toLocaleLowerCase name := name.map Char.toLower
  sha256 file := .ok (String.ofList (Sha256.hexdigest (file.contents.getD [])))
  createIntent _ := .ok ⟨"intent", "https://store.example/upload", []⟩
  put _ _ := .ok true
  complete id _ := .ok id

theorem pagePrecheck_passes_threePages :
    (countPdfPages (documentFile threePages) = unknownPageCount ∨
        countPdfPages (documentFile threePages) ≤ maxPdfPages) ∧
      ¬ RefusedForPages acceptingServices (documentFile threePages) .issuanceInput true :=
  (pagePrecheck_passes_iff acceptingServices (documentFile threePages) threePages rfl .issuanceInput
    true).mpr (by rw [← count_eq_length_pageMarkers]; decide +kernel)

/-- A line of 187 pixels, as a stored block with its checksum. -/
def markedPage : LosslessPage where
  width := 187
  height := 1
  pageWidth := 612
  pageHeight := 792
  compressedRgb := [0x78, 0x01, 0x01, 0x31, 0x02, 0xce, 0xfd] ++
    (List.replicate 51 (ascii "/Type/Page ")).flatten ++ [0x6a, 0x46, 0xb8, 0x48]

theorem documentFile_type {services : UploadServices}
    (hname : services.toLocaleLowerCase "document.pdf".toList = "document.pdf".toList)
    (bytes : List UInt8) :
    normalizedContentType services (documentFile bytes) true = some "application/pdf" := by
  have hsuffix : (fileCandidates true).find? (fun candidate ↦
      candidate.1.any fun suffix ↦ suffix.toList.isSuffixOf "document.pdf".toList) =
        some ([".pdf"], "application/pdf") := by decide +kernel
  show ((fileCandidates true).find? (fun candidate ↦ candidate.1.any fun suffix ↦
    suffix.toList.isSuffixOf (services.toLocaleLowerCase "document.pdf".toList)) >>= _) = _
  rw [hname, hsuffix]
  rfl

theorem documentFile_valid {services : UploadServices}
    (hname : services.toLocaleLowerCase "document.pdf".toList = "document.pdf".toList)
    {bytes : List UInt8} (hsize : bytes.length ≤ maxPdfBytes) :
    validateFile services (documentFile bytes) true = .ok () := by
  have hfits : validateSize (documentFile bytes) = .ok () := raiseIf_neg (Nat.not_lt.mpr hsize) _
  rw [validateFile, hfits, ok_bind, documentFile_type hname]
  exact raiseIf_neg (Option.some_ne_none _) _

theorem markedPage_refused : ∃ file, serializeImageOnlyPdf [markedPage] = .ok file ∧
    (∃ xref table offset, WellFormedPdf [markedPage] file 5 xref table offset) ∧
    countPdfPages (documentFile file) = 52 ∧
    ∀ services kind, services.toLocaleLowerCase "document.pdf".toList = "document.pdf".toList →
      RefusedForPages services (documentFile file) kind true := by
  have hwritten : serializeImageOnlyPdf [markedPage] =
      .ok (writePdf (documentBodies [markedPage])) :=
    serializeImageOnlyPdf_eq (by decide +kernel)
  have hsize : (writePdf (documentBodies [markedPage])).length ≤ maxPdfBytes := by decide +kernel
  have hshort : (writePdf (documentBodies [markedPage])).length < 10 ^ 10 :=
    Nat.lt_of_le_of_lt hsize (by decide +kernel)
  have hmarkers : (pageMarkers (writePdf (documentBodies [markedPage]))).length = 52 := by
    rw [← count_eq_length_pageMarkers]
    decide +kernel
  have hcount : countPdfPages (documentFile (writePdf (documentBodies [markedPage]))) = 52 := by
    rw [countPdfPages_eq rfl, hmarkers]
    rfl
  refine ⟨_, hwritten, ⟨_, _, _, wellFormed_writePdf hshort⟩, hcount, fun services kind hname ↦ ?_⟩
  rw [refusedForPages_iff rfl, hmarkers]
  exact ⟨documentFile_valid hname hsize, documentFile_type hname _, by decide⟩

end Splitbind
