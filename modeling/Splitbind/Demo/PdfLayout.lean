import Splitbind.Demo.PdfSerializer

/-!
# PDF layout — the offsets of the written file are those of its parts
-/

namespace Splitbind

open Transaction Pdf

/-! ## 1. The file as a sequence of texts -/

/-- A numbered object. -/
def objectText (object : List UInt8 × Nat) : List UInt8 :=
  decimal object.2 ++ ascii " 0 obj\n" ++ object.1 ++ ascii "\nendobj\n"

def objectTexts (objects : List (List UInt8)) : List (List UInt8) :=
  (objects.zipIdx 1).map objectText

def freeEntry : List UInt8 := ascii "0000000000 65535 f \n"

def usedEntry (offset : Nat) : List UInt8 := padded 10 offset ++ ascii " 00000 n \n"

def xrefHeader (count : Nat) : List UInt8 := ascii "xref\n0 " ++ decimal (count + 1) ++ ascii "\n"

/-- The part after the table. -/
def trailerText (count xref : Nat) : List UInt8 :=
  ascii "trailer\n<< /Size " ++ decimal (count + 1) ++ ascii " /Root 1 0 R >>\nstartxref\n" ++
    decimal xref ++ ascii "\n%%EOF\n"

/-- The loop over the objects writes their texts, and collects their offsets. -/
theorem foldl_writeObject (output : List UInt8) (offsets : List Nat)
    (objects : List (List UInt8 × Nat)) :
    objects.foldl writeObject (output, offsets) =
      (output ++ (objects.map objectText).flatten,
        offsets ++ layout output.length (objects.map objectText)) := by
  induction objects generalizing output offsets with
  | nil => rw [List.foldl_nil, List.map_nil, List.flatten_nil, layout, List.append_nil,
      List.append_nil]
  | cons object rest ih =>
    have hturn : writeObject (output, offsets) object =
        (output ++ objectText object, offsets ++ [output.length]) := by
      simp only [writeObject, objectText, List.append_assoc]
    rw [List.foldl_cons, hturn, ih, List.map_cons, List.flatten_cons, layout, List.append_assoc,
      List.append_assoc, List.singleton_append, List.length_append]

theorem foldl_writeEntry (output : List UInt8) (offsets : List Nat) :
    offsets.foldl writeEntry output = output ++ (offsets.map usedEntry).flatten := by
  induction offsets generalizing output with
  | nil => rw [List.foldl_nil, List.map_nil, List.flatten_nil, List.append_nil]
  | cons offset rest ih =>
    rw [List.foldl_cons, ih, List.map_cons, List.flatten_cons, ← List.append_assoc]
    rfl

/-- The offsets of the objects. -/
def objectOffsets (objects : List (List UInt8)) : List Nat :=
  layout pdfHeader.length (objectTexts objects)

/-- The offset of the table. -/
def xrefOffset (objects : List (List UInt8)) : Nat :=
  pdfHeader.length + (objectTexts objects).flatten.length

/-- The entries of the table, the free one first. -/
def xrefEntries (objects : List (List UInt8)) : List (List UInt8) :=
  freeEntry :: (objectOffsets objects).map usedEntry

theorem writePdf_eq (objects : List (List UInt8)) :
    writePdf objects = pdfHeader ++ ((objectTexts objects).flatten ++
      (xrefHeader objects.length ++ ((xrefEntries objects).flatten ++
        trailerText objects.length (xrefOffset objects)))) := by
  rw [writePdf, foldl_writeObject]
  show (([0] ++ objectOffsets objects).drop 1).foldl writeEntry _ ++ _ = _
  rw [foldl_writeEntry]
  simp only [xrefEntries, List.flatten_cons, xrefHeader, freeEntry, trailerText, xrefOffset,
    objectTexts, List.append_assoc, List.length_append]
  rfl

@[simp] theorem length_objectTexts (objects : List (List UInt8)) :
    (objectTexts objects).length = objects.length := by
  rw [objectTexts, List.length_map, List.length_zipIdx]

theorem length_xrefEntries (objects : List (List UInt8)) :
    (xrefEntries objects).length = objects.length + 1 := by
  rw [xrefEntries, List.length_cons, List.length_map, objectOffsets, length_layout,
    length_objectTexts]

/-! ## 2. What stands at the offsets -/

theorem objectTexts_get {objects : List (List UInt8)} {i : Nat} {body : List UInt8}
    (h : objects[i]? = some body) :
    (objectTexts objects)[i]? = some (objectText (body, i + 1)) := by
  rw [objectTexts, List.getElem?_map, List.getElem?_zipIdx, h, Option.map_some, Option.map_some,
    Nat.add_comm 1 i]

/-- Every object stands at the offset that was collected for it. -/
theorem textAt_object {objects : List (List UInt8)} {i offset : Nat} {body : List UInt8}
    (hbody : objects[i]? = some body) (hoffset : (objectOffsets objects)[i]? = some offset) :
    TextAt (writePdf objects) offset (objectText (body, i + 1)) := by
  rw [writePdf_eq]
  exact textAt_layout (objectTexts_get hbody) hoffset

theorem textAt_xref (objects : List (List UInt8)) :
    TextAt (writePdf objects) (xrefOffset objects) (xrefHeader objects.length) := by
  rw [writePdf_eq, ← List.append_assoc, xrefOffset, ← List.length_append]
  exact textAt_append

/-- The offset of the first entry. -/
def tableOffset (objects : List (List UInt8)) : Nat :=
  xrefOffset objects + (xrefHeader objects.length).length

/-- The offsets of the objects have ten digits when the file is short enough. -/
theorem offset_lt {objects : List (List UInt8)} {i offset : Nat}
    (hsize : (writePdf objects).length < 10 ^ 10)
    (hoffset : (objectOffsets objects)[i]? = some offset) : offset < 10 ^ 10 := by
  have hi : i < objects.length := by
    have hlt := (List.getElem?_eq_some_iff.mp hoffset).1
    rwa [objectOffsets, length_layout, length_objectTexts] at hlt
  have htext := textAt_object (List.getElem?_eq_getElem hi) hoffset
  have hle := htext.length_le
  rw [objectText, List.length_append, List.length_drop] at hle
  have hpos : 0 < (ascii "\nendobj\n").length := by decide
  omega

theorem length_xrefEntry {objects : List (List UInt8)}
    (hsize : (writePdf objects).length < 10 ^ 10) :
    ∀ entry ∈ xrefEntries objects, entry.length = 20 := by
  intro entry hentry
  rcases List.mem_cons.mp hentry with rfl | hused
  · decide
  · obtain ⟨offset, hoffset, rfl⟩ := List.mem_map.mp hused
    obtain ⟨i, hi⟩ := List.mem_iff_getElem?.mp hoffset
    rw [usedEntry, List.length_append, (padded_spec (by decide) (offset_lt hsize hi)).1]
    decide

/-- The entries stand twenty bytes apart. -/
theorem entryAt_xref {objects : List (List UInt8)} (hsize : (writePdf objects).length < 10 ^ 10)
    {i : Nat} {entry : List UInt8} (hentry : (xrefEntries objects)[i]? = some entry) :
    entryAt (writePdf objects) (tableOffset objects) i = entry := by
  have hlength := length_xrefEntry hsize
  have hi := (List.getElem?_eq_some_iff.mp hentry).1
  have htext : TextAt (writePdf objects) (tableOffset objects + 20 * i) entry := by
    rw [writePdf_eq, ← List.append_assoc, ← List.append_assoc]
    refine textAt_layout hentry ?_
    rw [layout_of_length hlength hi, tableOffset, xrefOffset, List.length_append,
      List.length_append]
  have htake := List.prefix_iff_eq_take.mp htext
  rw [hlength entry (List.mem_of_getElem? hentry)] at htake
  exact htake.symm

theorem entryOffset_usedEntry {offset : Nat} (h : offset < 10 ^ 10) :
    entryOffset (usedEntry offset) = some offset := by
  obtain ⟨hlength, hvalue⟩ := padded_spec (by decide : 0 < 10) h
  have hdrop : (usedEntry offset).drop 10 = ascii " 00000 n \n" := by
    rw [usedEntry, List.drop_left' hlength]
  have htake : (usedEntry offset).take 10 = padded 10 offset := by
    rw [usedEntry, List.take_left' hlength]
  have htwenty : (usedEntry offset).length = 20 := by
    rw [usedEntry, List.length_append, hlength]
    decide
  rw [entryOffset, if_pos ⟨htwenty, hdrop⟩, htake, hvalue]

/-- The trailer follows the table. -/
theorem textAt_trailer {objects : List (List UInt8)}
    (hsize : (writePdf objects).length < 10 ^ 10) :
    TextAt (writePdf objects) (tableOffset objects + 20 * (objects.length + 1))
      (trailerText objects.length (xrefOffset objects)) := by
  have hlength : (xrefEntries objects).flatten.length = 20 * (objects.length + 1) := by
    rw [List.length_flatten, List.map_congr_left (length_xrefEntry hsize), List.map_const',
      List.sum_replicate_nat, length_xrefEntries, Nat.mul_comm]
  have hend : tableOffset objects + 20 * (objects.length + 1) =
      (pdfHeader ++ (objectTexts objects).flatten ++ xrefHeader objects.length ++
        (xrefEntries objects).flatten).length := by
    rw [List.length_append, List.length_append, List.length_append, hlength]
    rfl
  refine ⟨[], ?_⟩
  rw [hend, writePdf_eq, ← List.append_assoc, ← List.append_assoc, ← List.append_assoc,
    List.drop_left, List.append_nil]

theorem trailer_suffix (objects : List (List UInt8)) :
    trailerText objects.length (xrefOffset objects) <:+ writePdf objects := by
  rw [writePdf_eq, ← List.append_assoc, ← List.append_assoc, ← List.append_assoc]
  exact List.suffix_append _ _

end Splitbind
