import Splitbind.Demo.RasterBudget
import Splitbind.Library.PdfSyntax

/-!
# PDF serializer — the image-only document that issuance writes

Objects are written one after the other while their offsets are collected; their numbers are
arithmetic on the index of the page.
-/

namespace Splitbind

open Transaction Pdf

/-! ## 1. The serializer -/

/-- What `_encode_lossless_page` returns. -/
structure LosslessPage extends EncodedPage where
  compressedRgb : List UInt8
deriving DecidableEq, Repr

/-- `_pdf_stream`. -/
def pdfStream (contents : List UInt8) : List UInt8 :=
  ascii "<< /Length " ++ decimal contents.length ++ ascii " >>\nstream\n" ++ contents ++
    ascii "endstream"

/-- `_pdf_number`, encoded. -/
def encodedNumber (value : ℚ) : Except Raised (List UInt8) := do
  let text ← pdfNumber value
  return text.map byteOf

/-- The objects of a page: its dictionary, its image and its content. -/
def pageObjects (pageRef : Nat) (page : LosslessPage) : Except Raised (List (List UInt8)) := do
  let imageRef := pageRef + 1
  let contentRef := pageRef + 2
  let pageWidth ← encodedNumber page.pageWidth
  let pageHeight ← encodedNumber page.pageHeight
  return [
    ascii "<< /Type /Page /Parent 2 0 R /MediaBox [0 0 " ++ pageWidth ++ ascii " " ++ pageHeight ++
      ascii "] /Resources << /XObject << /Im0 " ++ decimal imageRef ++ ascii " 0 R >> >> /Contents " ++
      decimal contentRef ++ ascii " 0 R >>",
    ascii "<< /Type /XObject /Subtype /Image /Width " ++ decimal page.width ++ ascii " /Height " ++
      decimal page.height ++
      ascii " /ColorSpace /DeviceRGB /BitsPerComponent 8 /Filter /FlateDecode /Length " ++
      decimal page.compressedRgb.length ++ ascii " >>\nstream\n" ++ page.compressedRgb ++
      ascii "\nendstream",
    pdfStream (ascii "q\n" ++ pageWidth ++ ascii " 0 0 " ++ pageHeight ++
      ascii " 0 0 cm\n/Im0 Do\nQ\n")]

/-- The number of the dictionary of a page. -/
def pageRef (pageIndex : Nat) : Nat := 3 + pageIndex * 3

/-- The objects of the document: the catalog, the page tree, and those of the pages. -/
def pdfObjects (encodedPages : List LosslessPage) : Except Raised (List (List UInt8)) := do
  let pageRefs := (List.range encodedPages.length).map pageRef
  let pages ← encodedPages.zipIdx.mapM fun (page, pageIndex) ↦ pageObjects (pageRef pageIndex) page
  return [
    ascii "<< /Type /Catalog /Pages 2 0 R >>",
    ascii "<< /Type /Pages /Count " ++ decimal pageRefs.length ++ ascii " /Kids [" ++
      (ascii " ").intercalate (pageRefs.map fun pageRef ↦ decimal pageRef ++ ascii " 0 R") ++
      ascii "] >>"] ++ pages.flatten

/-- The first two lines of the file; the second is binary. -/
def pdfHeader : List UInt8 := ascii "%PDF-1.4\n%" ++ [0xe2, 0xe3, 0xcf, 0xd3] ++ ascii "\n"

/-- One turn of the loop that writes the objects: the output, and the offsets so far. -/
def writeObject (state : List UInt8 × List Nat) (object : List UInt8 × Nat) :
    List UInt8 × List Nat :=
  (state.1 ++ (decimal object.2 ++ ascii " 0 obj\n") ++ object.1 ++ ascii "\nendobj\n",
    state.2 ++ [state.1.length])

/-- One turn of the loop that writes the cross-reference table. -/
def writeEntry (output : List UInt8) (offset : Nat) : List UInt8 :=
  output ++ (padded 10 offset ++ ascii " 00000 n \n")

/-- The file around the objects. -/
def writePdf (objects : List (List UInt8)) : List UInt8 :=
  let (output, offsets) := (objects.zipIdx 1).foldl writeObject (pdfHeader, [0])
  let xrefOffset := output.length
  let output := output ++ (ascii "xref\n0 " ++ decimal (objects.length + 1) ++ ascii "\n")
  let output := output ++ ascii "0000000000 65535 f \n"
  let output := (offsets.drop 1).foldl writeEntry output
  output ++ (ascii "trailer\n<< /Size " ++ decimal (objects.length + 1) ++
    ascii " /Root 1 0 R >>\nstartxref\n" ++ decimal xrefOffset ++ ascii "\n%%EOF\n")

/-- `_serialize_image_only_pdf`. -/
def serializeImageOnlyPdf (encodedPages : List LosslessPage) : Except Raised (List UInt8) := do
  let objects ← pdfObjects encodedPages
  return writePdf objects

end Splitbind
