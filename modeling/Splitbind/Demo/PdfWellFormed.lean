import Mathlib.Data.List.Forall2
import Splitbind.Demo.PdfLayout

/-!
# PDF well-formedness — a reader finds every page of the written file

Whoever follows the offsets from the end of the file finds the table, the objects it lists, and for
every page its own image and content.
-/

namespace Splitbind

open Transaction Pdf

/-! ## 1. The values of the objects -/

/-- `_pdf_number` of a positive number, encoded. -/
def writtenNumber (value : ℚ) : List UInt8 :=
  (Decimal.rstrip '.' (Decimal.rstrip '0' (Decimal.format 6 value))).map byteOf

theorem encodedNumber_eq {value : ℚ} (h : 0 < value) :
    encodedNumber value = .ok (writtenNumber value) := by
  rw [encodedNumber, pdfNumber, raiseIf_neg (not_le.mpr h)]
  rfl

theorem writtenNumber_isNumber (value : ℚ) : IsNumber (writtenNumber value) := by
  set m := (Rounding.halfEven (value * 10 ^ 6)).toNat
  have hformat : Decimal.format 6 value = Decimal.fixedPoint 6 m := rfl
  refine isNumber_map (fun hnil ↦ ?_) fun c hc ↦ ?_
  · -- a digit is left
    rw [hformat, Decimal.fixedPoint, Decimal.rstrip_zero, Decimal.rstrip,
      List.rdropWhile_eq_nil_iff] at hnil
    obtain ⟨c, hc⟩ := List.exists_mem_of_ne_nil _ (Nat.toDigits_ne_nil (b := 10) (n := m / 10 ^ 6))
    have hpoint := of_decide_eq_true (hnil c (List.mem_append_left _ hc))
    rw [hpoint] at hc
    exact Decimal.point_notMem_toDigits _ hc
  · have hmem := Decimal.mem_of_mem_rstrip (Decimal.mem_of_mem_rstrip hc)
    rw [hformat, Decimal.fixedPoint, List.mem_append, List.mem_cons, List.leftpad,
      List.mem_append] at hmem
    rcases hmem with hwhole | hpoint | hzero | hfraction
    · exact .inl (toDigits_isDigit c hwhole)
    · exact .inr hpoint
    · rw [List.eq_of_mem_replicate hzero]
      exact .inl (by decide)
    · exact .inl (toDigits_isDigit c hfraction)

/-- A name as a key or a value of a dictionary. -/
def name (text : String) : Value := .atom (ascii text)

def catalogValue : Value :=
  .dictionary [name "/Type", name "/Catalog", name "/Pages", .reference 2]

def treeValue (pageRefs : List Nat) : Value :=
  .dictionary [name "/Type", name "/Pages", name "/Count", .number (decimal pageRefs.length),
    name "/Kids", .array (pageRefs.map .reference)]

def pageValue (pageRef : Nat) (width height : Token) : Value :=
  .dictionary [name "/Type", name "/Page", name "/Parent", .reference 2, name "/MediaBox",
    .array [.number (ascii "0"), .number (ascii "0"), .number width, .number height],
    name "/Resources",
    .dictionary [name "/XObject", .dictionary [name "/Im0", .reference (pageRef + 1)]],
    name "/Contents", .reference (pageRef + 2)]

def imageValue (width height length : Nat) : Value :=
  .dictionary [name "/Type", name "/XObject", name "/Subtype", name "/Image", name "/Width",
    .number (decimal width), name "/Height", .number (decimal height), name "/ColorSpace",
    name "/DeviceRGB", name "/BitsPerComponent", .number (ascii "8"), name "/Filter",
    name "/FlateDecode", name "/Length", .number (decimal length)]

def streamValue (length : Nat) : Value := .dictionary [name "/Length", .number (decimal length)]

def trailerValue (count : Nat) : Value :=
  .dictionary [name "/Size", .number (decimal (count + 1)), name "/Root", .reference 1]

/-! ## 2. Their texts -/

theorem catalogValue_text : catalogValue.text = ascii "<< /Type /Catalog /Pages 2 0 R >>" := by
  decide +kernel

theorem treeValue_text (pageRefs : List Nat) :
    (treeValue pageRefs).text = ascii "<< /Type /Pages /Count " ++ decimal pageRefs.length ++
      ascii " /Kids [" ++
      (ascii " ").intercalate (pageRefs.map fun pageRef ↦ decimal pageRef ++ ascii " 0 R") ++
      ascii "] >>" := by
  have htokens : (treeValue pageRefs).tokens =
      [openDictionary, ascii "/Type", ascii "/Pages"] ++ ascii "/Count" ::
        decimal pageRefs.length :: ascii "/Kids" :: openBracket ::
          (tokensAll (pageRefs.map .reference) ++ closeBracket :: [closeDictionary]) := by
    simp only [treeValue, name, Value.tokens, tokensAll, List.cons_append, List.nil_append,
      List.append_assoc]
  rw [Value.text, htokens, spell_number (decimal_isNumber _) _ _ (by decide) (by decide),
    spell_cons (by decide) (by decide), spell_open, spell_references]
  simp only [List.append_assoc]
  rfl

theorem pageValue_text {width height : Token} (pageRef : Nat) (hwidth : IsNumber width)
    (hheight : IsNumber height) :
    (pageValue pageRef width height).text =
      ascii "<< /Type /Page /Parent 2 0 R /MediaBox [0 0 " ++ width ++ ascii " " ++ height ++
      ascii "] /Resources << /XObject << /Im0 " ++ decimal (pageRef + 1) ++
      ascii " 0 R >> >> /Contents " ++ decimal (pageRef + 2) ++ ascii " 0 R >>" := by
  show spell ([openDictionary, ascii "/Type", ascii "/Page", ascii "/Parent", decimal 2, decimal 0,
      referenceMark, ascii "/MediaBox", openBracket, ascii "0"] ++ ascii "0" :: width :: height ::
      closeBracket :: ([ascii "/Resources", openDictionary, ascii "/XObject", openDictionary] ++
        ascii "/Im0" :: decimal (pageRef + 1) :: decimal 0 :: ([referenceMark, closeDictionary,
          closeDictionary] ++ ascii "/Contents" :: decimal (pageRef + 2) :: decimal 0 ::
            [referenceMark, closeDictionary]))) = _
  rw [spell_number hwidth _ _ (by decide) (hheight.ne (by decide)), spell_close,
    ← List.cons_append, spell_number (decimal_isNumber _) _ _ (by decide) (by decide),
    ← List.cons_append, spell_number (decimal_isNumber _) _ _ (by decide) (by decide)]
  simp only [List.append_assoc]
  rfl

theorem imageValue_text (width height length : Nat) :
    (imageValue width height length).text =
      ascii "<< /Type /XObject /Subtype /Image /Width " ++ decimal width ++ ascii " /Height " ++
      decimal height ++
      ascii " /ColorSpace /DeviceRGB /BitsPerComponent 8 /Filter /FlateDecode /Length " ++
      decimal length ++ ascii " >>" := by
  have htokens : (imageValue width height length).tokens =
      [openDictionary, ascii "/Type", ascii "/XObject", ascii "/Subtype", ascii "/Image"] ++
        ascii "/Width" :: decimal width :: ascii "/Height" :: decimal height ::
          ascii "/ColorSpace" :: ([ascii "/DeviceRGB", ascii "/BitsPerComponent", ascii "8",
            ascii "/Filter", ascii "/FlateDecode"] ++ ascii "/Length" :: decimal length ::
              [closeDictionary]) := rfl
  rw [Value.text, htokens, spell_number (decimal_isNumber _) _ _ (by decide) (by decide),
    spell_cons (by decide) ((decimal_isNumber _).ne (by decide)),
    spell_cons ((decimal_isNumber _).ne (by decide)) (by decide), ← List.cons_append,
    spell_number (decimal_isNumber _) _ _ (by decide) (by decide)]
  simp only [List.append_assoc]
  rfl

theorem streamValue_text (length : Nat) :
    (streamValue length).text = ascii "<< /Length " ++ decimal length ++ ascii " >>" := by
  show spell ([openDictionary] ++ ascii "/Length" :: decimal length :: [closeDictionary]) = _
  rw [spell_number (decimal_isNumber length) _ _ (by decide) (by decide)]
  simp only [List.append_assoc]
  rfl

theorem trailerValue_text (count : Nat) :
    (trailerValue count).text =
      ascii "<< /Size " ++ decimal (count + 1) ++ ascii " /Root 1 0 R >>" := by
  show spell ([openDictionary] ++ ascii "/Size" :: decimal (count + 1) :: ascii "/Root" ::
    [decimal 1, decimal 0, referenceMark, closeDictionary]) = _
  rw [spell_number (decimal_isNumber _) _ _ (by decide) (by decide)]
  simp only [List.append_assoc]
  rfl

/-! ## 3. They are read back -/

theorem name_atomic {text : String} (h : IsAtom (ascii text)) : (name text).Atomic := h

theorem catalogValue_atomic : catalogValue.Atomic :=
  ⟨name_atomic (by decide +kernel), name_atomic (by decide +kernel), name_atomic (by decide +kernel),
    trivial, trivial⟩

theorem references_atomic (numbers : List Nat) : AtomicAll (numbers.map .reference) := by
  induction numbers with
  | nil => trivial
  | cons n numbers ih => exact ⟨trivial, ih⟩

theorem treeValue_atomic (pageRefs : List Nat) : (treeValue pageRefs).Atomic :=
  ⟨name_atomic (by decide +kernel), name_atomic (by decide +kernel), name_atomic (by decide +kernel),
    decimal_isNumber _, name_atomic (by decide +kernel), references_atomic pageRefs, trivial⟩

theorem pageValue_atomic {width height : Token} (pageRef : Nat) (hwidth : IsNumber width)
    (hheight : IsNumber height) : (pageValue pageRef width height).Atomic :=
  ⟨name_atomic (by decide +kernel), name_atomic (by decide +kernel), name_atomic (by decide +kernel),
    trivial, name_atomic (by decide +kernel),
    ⟨decimal_isNumber 0, decimal_isNumber 0, hwidth, hheight, trivial⟩,
    name_atomic (by decide +kernel),
    ⟨name_atomic (by decide +kernel), ⟨name_atomic (by decide +kernel), trivial, trivial⟩, trivial⟩,
    name_atomic (by decide +kernel), trivial, trivial⟩

theorem imageValue_atomic (width height length : Nat) : (imageValue width height length).Atomic :=
  ⟨name_atomic (by decide +kernel), name_atomic (by decide +kernel), name_atomic (by decide +kernel),
    name_atomic (by decide +kernel), name_atomic (by decide +kernel), decimal_isNumber width,
    name_atomic (by decide +kernel), decimal_isNumber height, name_atomic (by decide +kernel),
    name_atomic (by decide +kernel), name_atomic (by decide +kernel), decimal_isNumber 8,
    name_atomic (by decide +kernel), name_atomic (by decide +kernel), name_atomic (by decide +kernel),
    decimal_isNumber length, trivial⟩

theorem streamValue_atomic (length : Nat) : (streamValue length).Atomic :=
  ⟨name_atomic (by decide +kernel), decimal_isNumber length, trivial⟩

theorem trailerValue_atomic (count : Nat) : (trailerValue count).Atomic :=
  ⟨name_atomic (by decide +kernel), decimal_isNumber (count + 1), name_atomic (by decide +kernel),
    trivial, trivial⟩

/-- An object whose body is the text of a value. -/
theorem objectAt_plain {objects : List (List UInt8)} {i offset : Nat} {value : Value}
    (hvalue : value.Atomic) (hbody : objects[i]? = some value.text)
    (hoffset : (objectOffsets objects)[i]? = some offset) :
    ObjectAt (writePdf objects) offset (i + 1) value none :=
  .plain (textAt_object hbody hoffset) (readValue_text hvalue)

/-- An object whose body is a dictionary with a stream. -/
theorem objectAt_stream {objects : List (List UInt8)} {i offset : Nat} {value : Value}
    {data lineEnd : List UInt8} (hvalue : value.Atomic)
    (hbody : objects[i]? = some (value.text ++ ascii "\nstream\n" ++ data ++ lineEnd ++
      ascii "endstream"))
    (hlength : value.get (ascii "/Length") = some (.number (decimal data.length)))
    (hend : lineEnd = [] ∨ lineEnd = ascii "\n")
    (hoffset : (objectOffsets objects)[i]? = some offset) :
    ObjectAt (writePdf objects) offset (i + 1) value (some data) :=
  .stream (textAt_object hbody hoffset) (readValue_text hvalue) hlength (readNat_decimal _) hend

/-! ## 4. The objects of the document -/

/-- The operators that draw the image over the whole page. -/
def contentText (page : LosslessPage) : List UInt8 :=
  ascii "q\n" ++ writtenNumber page.pageWidth ++ ascii " 0 0 " ++ writtenNumber page.pageHeight ++
    ascii " 0 0 cm\n/Im0 Do\nQ\n"

/-- The three bodies of a page. -/
def pageBodies (pageRef : Nat) (page : LosslessPage) : List (List UInt8) :=
  [(pageValue pageRef (writtenNumber page.pageWidth) (writtenNumber page.pageHeight)).text,
    (imageValue page.width page.height page.compressedRgb.length).text ++ ascii "\nstream\n" ++
      page.compressedRgb ++ ascii "\n" ++ ascii "endstream",
    (streamValue (contentText page).length).text ++ ascii "\nstream\n" ++ contentText page ++ [] ++
      ascii "endstream"]

theorem pageObjects_eq {page : LosslessPage} (pageRef : Nat) (hwidth : 0 < page.pageWidth)
    (hheight : 0 < page.pageHeight) :
    pageObjects pageRef page = .ok (pageBodies pageRef page) := by
  rw [pageObjects, encodedNumber_eq hwidth, ok_bind, encodedNumber_eq hheight, ok_bind, pageBodies,
    pageValue_text pageRef (writtenNumber_isNumber _) (writtenNumber_isNumber _), imageValue_text,
    streamValue_text, contentText, pdfStream]
  simp only [List.append_assoc, List.nil_append]
  rfl

/-- The bodies of a page lie three apart, after those of the catalog and the tree. -/
def documentBodies (pages : List LosslessPage) : List (List UInt8) :=
  [catalogValue.text, (treeValue ((List.range pages.length).map pageRef)).text] ++
    (pages.zipIdx.map fun (page, pageIndex) ↦ pageBodies (pageRef pageIndex) page).flatten

theorem pdfObjects_eq {pages : List LosslessPage}
    (hpositive : ∀ page ∈ pages, 0 < page.pageWidth ∧ 0 < page.pageHeight) :
    pdfObjects pages = .ok (documentBodies pages) := by
  have hpages : (pages.zipIdx.mapM fun (page, pageIndex) ↦ pageObjects (pageRef pageIndex) page) =
      .ok (pages.zipIdx.map fun (page, pageIndex) ↦ pageBodies (pageRef pageIndex) page) := by
    refine mapM_eq_map fun indexed hindexed ↦ ?_
    obtain ⟨hwidth, hheight⟩ := hpositive indexed.1 (List.fst_mem_of_mem_zipIdx hindexed)
    exact pageObjects_eq (pageRef indexed.2) hwidth hheight
  rw [pdfObjects, hpages, ok_bind, documentBodies, catalogValue_text, treeValue_text]
  rfl

theorem length_pageBodies {pages : List LosslessPage} : ∀ bodies ∈ pages.zipIdx.map
    (fun indexed : LosslessPage × Nat ↦ pageBodies (pageRef indexed.2) indexed.1),
      bodies.length = 3 := by
  intro bodies hbodies
  obtain ⟨indexed, -, rfl⟩ := List.mem_map.mp hbodies
  rfl

theorem length_documentBodies (pages : List LosslessPage) :
    (documentBodies pages).length = 2 + 3 * pages.length := by
  rw [documentBodies, List.length_append, List.length_flatten,
    List.map_congr_left length_pageBodies, List.map_const', List.sum_replicate_nat,
    List.length_map, List.length_zipIdx, Nat.mul_comm]
  rfl

theorem documentBodies_page {pages : List LosslessPage} {i j : Nat} {page : LosslessPage}
    (hpage : pages[i]? = some page) (hj : j < 3) :
    (documentBodies pages)[2 + (3 * i + j)]? = (pageBodies (pageRef i) page)[j]? := by
  have hbodies : (pages.zipIdx.map fun (page, pageIndex) ↦ pageBodies (pageRef pageIndex) page)[i]? =
      some (pageBodies (pageRef i) page) := by
    rw [List.getElem?_map, List.getElem?_zipIdx, hpage, Option.map_some, Option.map_some,
      Nat.zero_add]
  rw [documentBodies, List.getElem?_append_right (Nat.le_add_right 2 _)]
  show (List.flatten _)[2 + (3 * i + j) - 2]? = _
  rw [Nat.add_sub_cancel_left]
  exact getElem?_flatten_of_length length_pageBodies hj hbodies

/-! ## 5. Well-formed files -/

/-- The image of a page, with its compressed bytes as the data of the stream. -/
def ImageAt (file : List UInt8) (count : Nat) (offset : Nat → Nat) (page : LosslessPage)
    (number : Nat) : Prop :=
  number ≤ count ∧ ∃ value, ObjectAt file (offset number) number value (some page.compressedRgb) ∧
    value.get (ascii "/Type") = some (name "/XObject") ∧
    value.get (ascii "/Subtype") = some (name "/Image") ∧
    value.get (ascii "/Width") = some (.number (decimal page.width)) ∧
    value.get (ascii "/Height") = some (.number (decimal page.height))

/-- The content stream of a page. -/
def ContentAt (file : List UInt8) (count : Nat) (offset : Nat → Nat) (page : LosslessPage)
    (number : Nat) : Prop :=
  number ≤ count ∧ ∃ value, ObjectAt file (offset number) number value (some (contentText page))

/-- A page, whose references lead to the page tree and to its own image and content. -/
def PageAt (file : List UInt8) (count : Nat) (offset : Nat → Nat) (page : LosslessPage)
    (number : Nat) : Prop :=
  number ≤ count ∧ ∃ value resources xobjects image content,
    ObjectAt file (offset number) number value none ∧
    value.get (ascii "/Type") = some (name "/Page") ∧
    value.get (ascii "/Parent") = some (.reference 2) ∧
    value.get (ascii "/Resources") = some resources ∧
    resources.get (ascii "/XObject") = some xobjects ∧
    xobjects.get (ascii "/Im0") = some (.reference image) ∧
    value.get (ascii "/Contents") = some (.reference content) ∧
    ImageAt file count offset page image ∧ ContentAt file count offset page content

/-- A file with a table at `xref`, which gives every object its offset. -/
structure WellFormedPdf (pages : List LosslessPage) (file : List UInt8) (count xref table : Nat)
    (offset : Nat → Nat) : Prop where
  startxref : ascii "startxref\n" ++ decimal xref ++ ascii "\n%%EOF\n" <:+ file
  header : TextAt file xref (ascii "xref\n0 " ++ decimal (count + 1) ++ ascii "\n")
  table_eq : table = xref + (ascii "xref\n0 " ++ decimal (count + 1) ++ ascii "\n").length
  free : entryAt file table 0 = ascii "0000000000 65535 f \n"
  entry : ∀ number, 1 ≤ number → number ≤ count →
    entryOffset (entryAt file table number) = some (offset number) ∧
      TextAt file (offset number) (decimal number ++ ascii " 0 obj")
  entry_length : ∀ number ≤ count, (entryAt file table number).length = 20
  trailer : ∃ text value, TextAt file (table + 20 * (count + 1))
      (ascii "trailer\n" ++ text ++ ascii "\nstartxref\n") ∧ readValue (lex text) = some value ∧
    value.get (ascii "/Size") = some (.number (decimal (count + 1))) ∧
    value.get (ascii "/Root") = some (.reference 1)
  catalog : 1 ≤ count ∧ ∃ value, ObjectAt file (offset 1) 1 value none ∧
    value.get (ascii "/Type") = some (name "/Catalog") ∧
    value.get (ascii "/Pages") = some (.reference 2)
  tree : 2 ≤ count ∧ ∃ value kids, ObjectAt file (offset 2) 2 value none ∧
    value.get (ascii "/Type") = some (name "/Pages") ∧
    value.get (ascii "/Count") = some (.number (decimal pages.length)) ∧
    value.get (ascii "/Kids") = some (.array (kids.map .reference)) ∧
    List.Forall₂ (PageAt file count offset) pages kids
  every : ∀ number, 1 ≤ number → number ≤ count →
    ∃ value stream, ObjectAt file (offset number) number value stream

/-- The offset of the object of a number. -/
def offsetOf (objects : List (List UInt8)) (number : Nat) : Nat :=
  (objectOffsets objects).getD (number - 1) 0

theorem objectOffsets_get {objects : List (List UInt8)} {i : Nat} (hi : i < objects.length) :
    (objectOffsets objects)[i]? = some (offsetOf objects (i + 1)) := by
  have hlength : i < (objectOffsets objects).length := by
    rw [objectOffsets, length_layout, length_objectTexts]
    exact hi
  rw [offsetOf, Nat.add_sub_cancel, List.getD_eq_getElem?_getD, List.getElem?_eq_getElem hlength]
  rfl

/-- The three objects of a page of the document. -/
theorem objectsAt_page {pages : List LosslessPage} {i : Nat} {page : LosslessPage}
    (hpage : pages[i]? = some page) :
    ObjectAt (writePdf (documentBodies pages)) (offsetOf (documentBodies pages) (pageRef i))
        (pageRef i)
        (pageValue (pageRef i) (writtenNumber page.pageWidth) (writtenNumber page.pageHeight)) none ∧
      ObjectAt (writePdf (documentBodies pages)) (offsetOf (documentBodies pages) (pageRef i + 1))
        (pageRef i + 1) (imageValue page.width page.height page.compressedRgb.length)
        (some page.compressedRgb) ∧
      ObjectAt (writePdf (documentBodies pages)) (offsetOf (documentBodies pages) (pageRef i + 2))
        (pageRef i + 2) (streamValue (contentText page).length) (some (contentText page)) := by
  have hi := (List.getElem?_eq_some_iff.mp hpage).1
  have hobject : ∀ {j : Nat} {body : List UInt8}, j < 3 →
      (pageBodies (pageRef i) page)[j]? = some body →
      (documentBodies pages)[2 + (3 * i + j)]? = some body ∧
        (objectOffsets (documentBodies pages))[2 + (3 * i + j)]? =
          some (offsetOf (documentBodies pages) (2 + (3 * i + j) + 1)) := by
    intro j body hj hbody
    have hlt : 2 + (3 * i + j) < (documentBodies pages).length := by
      rw [length_documentBodies]
      omega
    exact ⟨(documentBodies_page hpage hj).trans hbody, objectOffsets_get hlt⟩
  have hnumber : ∀ j, pageRef i + j = 2 + (3 * i + j) + 1 := by
    intro j
    rw [pageRef]
    omega
  obtain ⟨hpageBody, hpageOffset⟩ := hobject (by decide : 0 < 3) rfl
  obtain ⟨himageBody, himageOffset⟩ := hobject (by decide : 1 < 3) rfl
  obtain ⟨hcontentBody, hcontentOffset⟩ := hobject (by decide : 2 < 3) rfl
  have hdictionary := objectAt_plain (pageValue_atomic (pageRef i) (writtenNumber_isNumber _)
    (writtenNumber_isNumber _)) hpageBody hpageOffset
  have himage := objectAt_stream (imageValue_atomic page.width page.height _) himageBody rfl
    (.inr rfl) himageOffset
  have hcontent := objectAt_stream (streamValue_atomic _) hcontentBody rfl (.inl rfl) hcontentOffset
  rw [← hnumber] at hdictionary himage hcontent
  exact ⟨hdictionary, himage, hcontent⟩

theorem pageAt_document {pages : List LosslessPage} {i : Nat} {page : LosslessPage}
    (hpage : pages[i]? = some page) :
    PageAt (writePdf (documentBodies pages)) (2 + 3 * pages.length)
      (offsetOf (documentBodies pages)) page (pageRef i) := by
  have hi := (List.getElem?_eq_some_iff.mp hpage).1
  have hle : ∀ j < 3, pageRef i + j ≤ 2 + 3 * pages.length := by
    intro j hj
    rw [pageRef]
    omega
  obtain ⟨hdictionary, himage, hcontent⟩ := objectsAt_page hpage
  exact ⟨hle 0 (by decide), _, _, _, pageRef i + 1, pageRef i + 2, hdictionary, rfl, rfl, rfl, rfl,
    rfl, rfl, ⟨hle 1 (by decide), _, himage, rfl, rfl, rfl, rfl⟩, hle 2 (by decide), _, hcontent⟩

theorem catalogAt_document (pages : List LosslessPage) :
    ObjectAt (writePdf (documentBodies pages)) (offsetOf (documentBodies pages) 1) 1 catalogValue
      none := by
  have hlt : 0 < (documentBodies pages).length := by
    rw [length_documentBodies]
    omega
  exact objectAt_plain catalogValue_atomic rfl (objectOffsets_get hlt)

theorem treeAt_document (pages : List LosslessPage) :
    ObjectAt (writePdf (documentBodies pages)) (offsetOf (documentBodies pages) 2) 2
      (treeValue ((List.range pages.length).map pageRef)) none := by
  have hlt : 1 < (documentBodies pages).length := by
    rw [length_documentBodies]
    omega
  exact objectAt_plain (treeValue_atomic _) rfl (objectOffsets_get hlt)

/-- There is no number without an object. -/
theorem objectAt_every {pages : List LosslessPage} {number : Nat} (hpos : 1 ≤ number)
    (hle : number ≤ 2 + 3 * pages.length) :
    ∃ value stream, ObjectAt (writePdf (documentBodies pages))
      (offsetOf (documentBodies pages) number) number value stream := by
  rcases (by omega : number = 1 ∨ number = 2 ∨ 3 ≤ number) with rfl | rfl | hpage
  · exact ⟨_, _, catalogAt_document pages⟩
  · exact ⟨_, _, treeAt_document pages⟩
  · have hi : (number - 3) / 3 < pages.length := by omega
    obtain ⟨hdictionary, himage, hcontent⟩ := objectsAt_page (List.getElem?_eq_getElem hi)
    have hnumber : number = pageRef ((number - 3) / 3) + (number - 3) % 3 := by
      rw [pageRef]
      omega
    rw [hnumber]
    rcases (by omega : (number - 3) % 3 = 0 ∨ (number - 3) % 3 = 1 ∨ (number - 3) % 3 = 2) with
      hj | hj | hj
    · rw [hj]
      exact ⟨_, _, hdictionary⟩
    · rw [hj]
      exact ⟨_, _, himage⟩
    · rw [hj]
      exact ⟨_, _, hcontent⟩

theorem trailerText_eq (count xref : Nat) :
    trailerText count xref = ascii "trailer\n" ++ (trailerValue count).text ++ ascii "\nstartxref\n" ++
      (decimal xref ++ ascii "\n%%EOF\n") := by
  rw [trailerText, trailerValue_text]
  simp only [List.append_assoc]
  rfl

theorem startxref_suffix (count xref : Nat) :
    ascii "startxref\n" ++ decimal xref ++ ascii "\n%%EOF\n" <:+ trailerText count xref := by
  have hline : ascii " /Root 1 0 R >>\nstartxref\n" =
      ascii " /Root 1 0 R >>\n" ++ ascii "startxref\n" := by decide
  refine ⟨ascii "trailer\n<< /Size " ++ decimal (count + 1) ++ ascii " /Root 1 0 R >>\n", ?_⟩
  rw [trailerText, hline]
  simp only [List.append_assoc]

/-- The table lists the offset of every object. -/
theorem entryAt_document {objects : List (List UInt8)} {number : Nat}
    (hsize : (writePdf objects).length < 10 ^ 10) (hpos : 1 ≤ number)
    (hle : number ≤ objects.length) :
    entryAt (writePdf objects) (tableOffset objects) number = usedEntry (offsetOf objects number) ∧
      entryOffset (usedEntry (offsetOf objects number)) = some (offsetOf objects number) ∧
      TextAt (writePdf objects) (offsetOf objects number) (decimal number ++ ascii " 0 obj") := by
  obtain ⟨i, rfl⟩ : ∃ i, number = i + 1 := ⟨number - 1, by omega⟩
  have hoffset : (objectOffsets objects)[i]? = some (offsetOf objects (i + 1)) :=
    objectOffsets_get hle
  have hentry : (xrefEntries objects)[i + 1]? = some (usedEntry (offsetOf objects (i + 1))) := by
    rw [xrefEntries, List.getElem?_cons_succ, List.getElem?_map, hoffset, Option.map_some]
  refine ⟨entryAt_xref hsize hentry, entryOffset_usedEntry (offset_lt hsize hoffset), ?_⟩
  refine List.IsPrefix.trans ?_ (textAt_object (List.getElem?_eq_getElem hle) hoffset)
  have hline : ascii " 0 obj\n" = ascii " 0 obj" ++ ascii "\n" := by decide
  rw [objectText, hline]
  simp only [List.append_assoc]
  rw [← List.append_assoc]
  exact List.prefix_append _ _

theorem serializeImageOnlyPdf_eq {pages : List LosslessPage}
    (hpositive : ∀ page ∈ pages, 0 < page.pageWidth ∧ 0 < page.pageHeight) :
    serializeImageOnlyPdf pages = .ok (writePdf (documentBodies pages)) := by
  rw [serializeImageOnlyPdf, pdfObjects_eq hpositive]
  rfl

/-- The file of the pages, followed from its end. -/
theorem wellFormed_writePdf {pages : List LosslessPage}
    (hsize : (writePdf (documentBodies pages)).length < 10 ^ 10) :
    WellFormedPdf pages (writePdf (documentBodies pages)) (2 + 3 * pages.length)
      (xrefOffset (documentBodies pages)) (tableOffset (documentBodies pages))
      (offsetOf (documentBodies pages)) := by
  have hlength := length_documentBodies pages
  rw [← hlength]
  have htrailer := textAt_trailer hsize
  rw [trailerText_eq] at htrailer
  have hfree : entryAt (writePdf (documentBodies pages)) (tableOffset (documentBodies pages)) 0 =
      freeEntry := entryAt_xref hsize rfl
  have hcount : ((List.range pages.length).map pageRef).length = pages.length := by
    rw [List.length_map, List.length_range]
  refine {
    startxref := (startxref_suffix _ _).trans (trailer_suffix _)
    header := textAt_xref _
    table_eq := rfl
    free := hfree
    entry := fun number hpos hle ↦ ?_
    entry_length := fun number hle ↦ ?_
    trailer := ⟨_, _, (List.prefix_append _ _).trans htrailer,
      readValue_text (trailerValue_atomic _), rfl, rfl⟩
    catalog := ⟨by omega, _, catalogAt_document pages, rfl, rfl⟩
    tree := ⟨by omega, _, _, treeAt_document pages, rfl, ?_, rfl, ?_⟩
    every := fun number hpos hle ↦ objectAt_every hpos (hlength ▸ hle) }
  · obtain ⟨hentry, hoffset, htext⟩ := entryAt_document hsize hpos hle
    rw [hentry]
    exact ⟨hoffset, htext⟩
  · have hlt : number < (xrefEntries (documentBodies pages)).length := by
      rw [length_xrefEntries]
      omega
    rw [entryAt_xref hsize (List.getElem?_eq_getElem hlt)]
    exact length_xrefEntry hsize _ (List.getElem_mem hlt)
  · show some (Value.number (decimal ((List.range pages.length).map pageRef).length)) = _
    rw [hcount]
  · -- the kids are the pages, in order
    rw [List.forall₂_iff_get]
    refine ⟨hcount.symm, fun i hi _ ↦ ?_⟩
    rw [List.get_eq_getElem, List.get_eq_getElem, List.getElem_map, List.getElem_range, hlength]
    exact pageAt_document (List.getElem?_eq_getElem hi)

/-- **The written file is well formed.**  For pages of positive sizes there is a file; while it has
fewer than ten billion bytes, its table gives every object its offset in entries of twenty bytes,
and whoever follows it from the trailer finds every page with its own image and content. -/
theorem serializeImageOnlyPdf_wellFormed (pages : List LosslessPage)
    (hpositive : ∀ page ∈ pages, 0 < page.pageWidth ∧ 0 < page.pageHeight) :
    ∃ file, serializeImageOnlyPdf pages = .ok file ∧ (file.length < 10 ^ 10 →
      ∃ xref table offset, WellFormedPdf pages file (2 + 3 * pages.length) xref table offset) :=
  ⟨_, serializeImageOnlyPdf_eq hpositive, fun hsize ↦ ⟨_, _, _, wellFormed_writePdf hsize⟩⟩

/-! ### Two pages with an image each -/

/-- A black pixel, and a red one beside a blue one. -/
def pixelPages : List LosslessPage :=
  [⟨⟨1, 1, 612, 792⟩,
      [0x78, 0xda, 0x63, 0x60, 0x60, 0x00, 0x00, 0x00, 0x03, 0x00, 0x01]⟩,
    ⟨⟨2, 1, 300, 150⟩,
      [0x78, 0xda, 0xfb, 0xcf, 0x00, 0x04, 0xff, 0x01, 0x06, 0xff, 0x01, 0xff]⟩]

theorem pixelPages_wellFormed :
    ∃ file, serializeImageOnlyPdf pixelPages = .ok file ∧
      ∃ xref table offset, WellFormedPdf pixelPages file 8 xref table offset := by
  obtain ⟨file, hfile, hformed⟩ := serializeImageOnlyPdf_wellFormed pixelPages (by decide +kernel)
  have hwritten := serializeImageOnlyPdf_eq (show ∀ page ∈ pixelPages,
    0 < page.pageWidth ∧ 0 < page.pageHeight by decide +kernel)
  have hshort : (writePdf (documentBodies pixelPages)).length < 10 ^ 10 := by decide +kernel
  rw [hwritten] at hfile
  cases hfile
  exact ⟨_, hwritten, hformed hshort⟩

end Splitbind
