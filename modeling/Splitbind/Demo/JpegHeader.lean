import Mathlib.Logic.Relation
import Mathlib.Tactic.IntervalCases
import Splitbind.Identifiers
import Splitbind.Library.BigEndian
import Splitbind.Library.Transaction

/-!
# JPEG headers — the dimensions of the first start-of-frame segment

The parser walks over markers and segments by offset.  The grammar it follows is stated as a
relation between offsets; the parser returns what the grammar leads to, and is refused exactly
where the grammar gets stuck.
-/

namespace Splitbind

open Transaction

/-! ## 1. The parser -/

/-- `source[start:stop]`. -/
def byteSlice (source : List UInt8) (start stop : Nat) : List UInt8 :=
  (source.drop start).take (stop - start)

/-- `source[offset]`, which raises past the end. -/
def byteAt (source : List UInt8) (offset : Nat) : Except Raised UInt8 :=
  found source[offset]? .other

/-- `struct.unpack` of big-endian numbers of two bytes, which takes exactly their bytes. -/
def unpackShorts (count : Nat) (bytes : List UInt8) : Except Raised (List Nat) := do
  raiseIf (bytes.length ≠ 2 * count) .other
  return (List.range count).map fun i ↦ BigEndian.fromBytes (byteSlice bytes (2 * i) (2 * i + 2))

def startOfFrame : List UInt8 :=
  [0xc0, 0xc1, 0xc2, 0xc3, 0xc5, 0xc6, 0xc7, 0xc9, 0xca, 0xcb, 0xcd, 0xce, 0xcf]

def imageInvalid : Raised := .demoVerification .demoImageInvalid 0

/-- Where one turn of the loop ends. -/
inductive JpegTurn
  | returned (width height : Nat)
  | continued (offset : Nat)
deriving DecidableEq, Repr

/-- The inner loop: the first offset that does not hold a fill byte. -/
def skipFill (source : List UInt8) (offset : Nat) : Nat :=
  if h : offset < source.length then
    if source[offset] = 0xff then skipFill source (offset + 1) else offset
  else offset
termination_by source.length - offset

/-- A turn of the loop after the marker has been read; every `break` raises. -/
def jpegMarker (source : List UInt8) (marker : UInt8) (offset : Nat) : Except Raised JpegTurn :=
  if marker = 0x00 ∨ marker = 0xd8 then .ok (.continued offset)
  else if marker = 0xd9 ∨ marker = 0xda then .error imageInvalid
  else if marker = 0x01 ∨ 0xd0 ≤ marker ∧ marker ≤ 0xd7 then .ok (.continued offset)
  else if source.length < offset + 2 then .error imageInvalid
  else do
    let lengths ← unpackShorts 1 (byteSlice source offset (offset + 2))
    let segmentLength := lengths.headD 0
    raiseIf (segmentLength < 2 ∨ source.length < offset + segmentLength) imageInvalid
    if marker ∈ startOfFrame then
      raiseIf (segmentLength < 8) imageInvalid
      let shorts ← unpackShorts 2 (byteSlice source (offset + 3) (offset + 7))
      return .returned (shorts.getD 1 0) (shorts.getD 0 0)
    else
      return .continued (offset + segmentLength)

def jpegTurn (source : List UInt8) (offset : Nat) : Except Raised JpegTurn := do
  let start ← byteAt source offset
  raiseIf (start ≠ 0xff) imageInvalid
  let offset := skipFill source offset
  raiseIf (source.length ≤ offset) imageInvalid
  let marker ← byteAt source offset
  jpegMarker source marker (offset + 1)

theorem le_skipFill (source : List UInt8) (offset : Nat) : offset ≤ skipFill source offset := by
  fun_induction skipFill source offset with
  | case1 offset hlt hfill ih => omega
  | case2 offset hlt hfill => exact le_refl offset
  | case3 offset hlt => exact le_refl offset

theorem le_of_jpegMarker_eq_continued {source : List UInt8} {marker : UInt8}
    {offset offset' : Nat} (h : jpegMarker source marker offset = .ok (.continued offset')) :
    offset ≤ offset' := by
  unfold jpegMarker at h
  split_ifs at h
  · cases h
    exact le_refl offset
  · cases h
    exact le_refl offset
  · simp only [bind_eq_ok, exists_unit] at h
    obtain ⟨lengths, -, -, -, shorts, -, h⟩ := h
    cases h
  · simp only [bind_eq_ok, exists_unit] at h
    obtain ⟨lengths, -, -, h⟩ := h
    cases h
    exact Nat.le_add_right _ _

/-- Every turn advances. -/
theorem lt_of_jpegTurn_eq_continued {source : List UInt8} {offset offset' : Nat}
    (h : jpegTurn source offset = .ok (.continued offset')) : offset < offset' := by
  simp only [jpegTurn, bind_eq_ok, exists_unit] at h
  obtain ⟨start, -, -, -, marker, -, hmarker⟩ := h
  have hskip := le_skipFill source offset
  have hle := le_of_jpegMarker_eq_continued hmarker
  omega

/-- The loop of `_jpeg_dimensions`. -/
def jpegLoop (source : List UInt8) (offset : Nat) : Except Raised (Nat × Nat) :=
  if offset < source.length then
    match _h : jpegTurn source offset with
    | .error e => .error e
    | .ok (.returned width height) => .ok (width, height)
    | .ok (.continued offset') => jpegLoop source offset'
  else .error imageInvalid
termination_by source.length - offset
decreasing_by
  have hlt := lt_of_jpegTurn_eq_continued _h
  omega

/-- `_jpeg_dimensions`. -/
def jpegDimensions (source : List UInt8) : Except Raised (Nat × Nat) := jpegLoop source 2

/-! ## 2. The grammar -/

/-- A big-endian number of two bytes. -/
def ShortAt (source : List UInt8) (offset n : Nat) : Prop :=
  ∃ high low : UInt8, source[offset]? = some high ∧ source[offset + 1]? = some low ∧
    n = 256 * high.toNat + low.toNat

/-- One or more fill bytes from `offset` on, and then the marker code at `position`. -/
structure MarkerAt (source : List UInt8) (offset position : Nat) (marker : UInt8) : Prop where
  fill : offset < position
  filled : ∀ i, offset ≤ i → i < position → source[i]? = some 0xff
  code : source[position]? = some marker
  code_ne : marker ≠ 0xff

/-- A stuffed zero, SOI, TEM and RSTn have no length. -/
def Standalone (marker : UInt8) : Prop :=
  (marker = 0x00 ∨ marker = 0xd8) ∨ marker = 0x01 ∨ 0xd0 ≤ marker ∧ marker ≤ 0xd7

/-- EOI and SOS. -/
def Terminal (marker : UInt8) : Prop := marker = 0xd9 ∨ marker = 0xda

/-- A length counts its own two bytes, and the segment stays within the string. -/
structure LengthAt (source : List UInt8) (offset length : Nat) : Prop where
  short : ShortAt source offset length
  two_le : 2 ≤ length
  within : offset + length ≤ source.length

/-- From one marker to the next. -/
inductive JpegNext (source : List UInt8) (offset : Nat) : Nat → Prop
  | standalone {position : Nat} {marker : UInt8} :
      MarkerAt source offset position marker → Standalone marker →
      JpegNext source offset (position + 1)
  | segment {position length : Nat} {marker : UInt8} :
      MarkerAt source offset position marker → ¬ Standalone marker → ¬ Terminal marker →
      marker ∉ startOfFrame → LengthAt source (position + 1) length →
      JpegNext source offset (position + 1 + length)

/-- A start-of-frame segment with its height and width. -/
def FrameAt (source : List UInt8) (offset width height : Nat) : Prop :=
  ∃ position marker length, MarkerAt source offset position marker ∧ marker ∈ startOfFrame ∧
    LengthAt source (position + 1) length ∧ 8 ≤ length ∧
    ShortAt source (position + 4) height ∧ ShortAt source (position + 6) width

/-- Where neither a marker nor a segment can be read. -/
inductive JpegStuck (source : List UInt8) (offset : Nat) : Prop
  | endOfString : source.length ≤ offset → JpegStuck source offset
  | notMarker {start : UInt8} : source[offset]? = some start → start ≠ 0xff →
      JpegStuck source offset
  | fillToEnd : offset < source.length →
      (∀ i, offset ≤ i → i < source.length → source[i]? = some 0xff) → JpegStuck source offset
  | terminal {position : Nat} {marker : UInt8} : MarkerAt source offset position marker →
      Terminal marker → JpegStuck source offset
  | invalidLength {position : Nat} {marker : UInt8} : MarkerAt source offset position marker →
      ¬ Standalone marker → ¬ Terminal marker → (∀ length, ¬ LengthAt source (position + 1) length) →
      JpegStuck source offset
  | shortFrame {position length : Nat} {marker : UInt8} : MarkerAt source offset position marker →
      marker ∈ startOfFrame → LengthAt source (position + 1) length → length < 8 →
      JpegStuck source offset

/-- The offsets the grammar reaches; the first marker is looked for behind the first two bytes. -/
def JpegReaches (source : List UInt8) (offset : Nat) : Prop :=
  Relation.ReflTransGen (JpegNext source) 2 offset

/-! ## 3. The parser follows the grammar -/

theorem ShortAt.fromBytes {source : List UInt8} {offset n : Nat} (h : ShortAt source offset n) :
    BigEndian.fromBytes (byteSlice source offset (offset + 2)) = n := by
  obtain ⟨high, low, hhigh, hlow, rfl⟩ := h
  have hslice : byteSlice source offset (offset + 2) = [high, low] := by
    rw [byteSlice, Nat.add_sub_cancel_left, List.take_add_one, List.take_add_one, List.take_zero,
      List.getElem?_drop, List.getElem?_drop, Nat.add_zero, hhigh, hlow]
    rfl
  rw [hslice, BigEndian.fromBytes]
  show 256 * (256 * 0 + high.toNat) + low.toNat = _
  omega

theorem shortAt_of_lt {source : List UInt8} {offset : Nat} (h : offset + 1 < source.length) :
    ∃ n, ShortAt source offset n :=
  ⟨_, source[offset], source[offset + 1], List.getElem?_eq_getElem _, List.getElem?_eq_getElem _,
    rfl⟩

theorem ShortAt.lt_length {source : List UInt8} {offset n : Nat} (h : ShortAt source offset n) :
    offset + 1 < source.length := by
  obtain ⟨high, low, -, hlow, -⟩ := h
  exact (List.getElem?_eq_some_iff.mp hlow).1

/-- Numbers that lie next to each other are unpacked together. -/
theorem unpackShorts_eq {source : List UInt8} {offset count : Nat} (numbers : Nat → Nat)
    (hwithin : offset + 2 * count ≤ source.length)
    (hnumbers : ∀ i < count, ShortAt source (offset + 2 * i) (numbers i)) :
    unpackShorts count (byteSlice source offset (offset + 2 * count)) =
      .ok ((List.range count).map numbers) := by
  have hlength : (byteSlice source offset (offset + 2 * count)).length = 2 * count := by
    rw [byteSlice, List.length_take, List.length_drop]
    omega
  rw [unpackShorts, raiseIf_neg (not_not.mpr hlength), ok_bind]
  refine congrArg Except.ok (List.map_congr_left fun i hi ↦ ?_)
  rw [List.mem_range] at hi
  have hslice : byteSlice (byteSlice source offset (offset + 2 * count)) (2 * i) (2 * i + 2) =
      byteSlice source (offset + 2 * i) (offset + 2 * i + 2) := by
    have hmin : min 2 (2 * count - 2 * i) = 2 := by omega
    rw [byteSlice, byteSlice, byteSlice, Nat.add_sub_cancel_left, Nat.add_sub_cancel_left,
      Nat.add_sub_cancel_left, List.drop_take, List.take_take, List.drop_drop, hmin]
  rw [hslice, (hnumbers i hi).fromBytes]

theorem ShortAt.unpackShorts {source : List UInt8} {offset n : Nat} (h : ShortAt source offset n) :
    unpackShorts 1 (byteSlice source offset (offset + 2)) = .ok [n] := by
  have hlt := h.lt_length
  refine unpackShorts_eq (fun _ ↦ n) (by omega) fun i hi ↦ ?_
  rw [Nat.lt_one_iff.mp hi]
  exact h

/-- From the first offset that does not hold a fill byte on, there is a marker code or the end. -/
theorem skipFill_spec {source : List UInt8} {offset : Nat} (hle : offset ≤ source.length) :
    skipFill source offset ≤ source.length ∧
      (∀ i, offset ≤ i → i < skipFill source offset → source[i]? = some 0xff) ∧
      source[skipFill source offset]? ≠ some 0xff := by
  fun_induction skipFill source offset with
  | case1 offset hlt hfill ih =>
    obtain ⟨hend, hfilled, hstop⟩ := ih hlt
    refine ⟨hend, fun i hi hi' ↦ ?_, hstop⟩
    rcases Nat.eq_or_lt_of_le hi with rfl | hgt
    · rw [List.getElem?_eq_getElem hlt, hfill]
    · exact hfilled i hgt hi'
  | case2 offset hlt hfill =>
    refine ⟨hle, fun i hi hi' ↦ absurd hi (not_le.mpr hi'), fun h ↦ hfill ?_⟩
    rw [List.getElem?_eq_getElem hlt] at h
    exact Option.some.inj h
  | case3 offset hlt =>
    refine ⟨hle, fun i hi hi' ↦ absurd hi (not_le.mpr hi'), fun h ↦ hlt ?_⟩
    exact (List.getElem?_eq_some_iff.mp h).1

/-- Where all that is left are fill bytes, the inner loop runs to the end. -/
theorem skipFill_toEnd {source : List UInt8} {offset : Nat} (hlt : offset < source.length)
    (hfill : ∀ i, offset ≤ i → i < source.length → source[i]? = some 0xff) :
    source.length ≤ skipFill source offset := by
  obtain ⟨-, -, hstop⟩ := skipFill_spec (Nat.le_of_lt hlt)
  by_contra hinside
  exact hstop (hfill _ (le_skipFill source offset) (not_le.mp hinside))

/-- The inner loop stops at the marker code. -/
theorem MarkerAt.skipFill_eq {source : List UInt8} {offset position : Nat} {marker : UInt8}
    (h : MarkerAt source offset position marker) : skipFill source offset = position := by
  have hposition := (List.getElem?_eq_some_iff.mp h.code).1
  obtain ⟨-, hfilled, hstop⟩ := skipFill_spec (Nat.le_of_lt (lt_trans h.fill hposition))
  rcases lt_trichotomy (skipFill source offset) position with hlt | heq | hgt
  · exact absurd (h.filled _ (le_skipFill source offset) hlt) hstop
  · exact heq
  · have hcode := hfilled position (Nat.le_of_lt h.fill) hgt
    rw [h.code] at hcode
    exact absurd (Option.some.inj hcode) h.code_ne

/-- After a fill byte there is a marker code, or nothing but fill bytes. -/
theorem marker_or_fill {source : List UInt8} {offset : Nat} (hstart : source[offset]? = some 0xff) :
    (∀ i, offset ≤ i → i < source.length → source[i]? = some 0xff) ∨
      ∃ position marker, MarkerAt source offset position marker := by
  have hlt := (List.getElem?_eq_some_iff.mp hstart).1
  obtain ⟨hend, hfilled, hstop⟩ := skipFill_spec (Nat.le_of_lt hlt)
  rcases Nat.eq_or_lt_of_le hend with heq | hinside
  · rw [heq] at hfilled
    exact .inl hfilled
  · right
    have hcode : source[skipFill source offset]? = some source[skipFill source offset] :=
      List.getElem?_eq_getElem hinside
    have hfill : offset ≠ skipFill source offset := fun heq ↦ hstop (heq ▸ hstart)
    refine ⟨skipFill source offset, source[skipFill source offset],
      lt_of_le_of_ne (le_skipFill source offset) hfill, hfilled, hcode, fun heq ↦ hstop ?_⟩
    rw [hcode, heq]

/-- A turn that finds a marker looks at what follows it. -/
theorem MarkerAt.jpegTurn_eq {source : List UInt8} {offset position : Nat} {marker : UInt8}
    (h : MarkerAt source offset position marker) :
    jpegTurn source offset = jpegMarker source marker (position + 1) := by
  obtain ⟨hlt, -⟩ := List.getElem?_eq_some_iff.mp h.code
  have hstart : source[offset]? = some 0xff := h.filled offset (le_refl _) h.fill
  rw [jpegTurn, byteAt, hstart, found_some, ok_bind, raiseIf_neg (not_not.mpr rfl), ok_bind]
  simp only [h.skipFill_eq, raiseIf_neg (not_le.mpr hlt), ok_bind, byteAt, h.code, found_some]

theorem jpegMarker_standalone {marker : UInt8} (h : Standalone marker) (source : List UInt8)
    (offset : Nat) : jpegMarker source marker offset = .ok (.continued offset) := by
  unfold jpegMarker
  rcases h with h | h
  · rw [if_pos h]
  · split_ifs with hzero hterminal
    · rfl
    · rcases hterminal with rfl | rfl <;> exact absurd h (by decide)
    · rfl

theorem jpegMarker_terminal {marker : UInt8} (h : Terminal marker) (source : List UInt8)
    (offset : Nat) : jpegMarker source marker offset = .error imageInvalid := by
  rcases h with rfl | rfl <;> rfl

/-- A marker with a segment of a valid length. -/
theorem jpegMarker_segment {source : List UInt8} {marker : UInt8} {offset length : Nat}
    (hstandalone : ¬ Standalone marker) (hterminal : ¬ Terminal marker)
    (hlength : LengthAt source offset length) :
    jpegMarker source marker offset =
      if marker ∈ startOfFrame then do
        raiseIf (length < 8) imageInvalid
        let shorts ← unpackShorts 2 (byteSlice source (offset + 3) (offset + 7))
        return .returned (shorts.getD 1 0) (shorts.getD 0 0)
      else return .continued (offset + length) := by
  rw [Standalone, not_or] at hstandalone
  rw [Terminal] at hterminal
  have hroom : ¬ source.length < offset + 2 := by
    have hlt := hlength.short.lt_length
    omega
  have hvalid : ¬ (length < 2 ∨ source.length < offset + length) := by
    have htwo := hlength.two_le
    have hwithin := hlength.within
    omega
  rw [jpegMarker, if_neg hstandalone.1, if_neg hterminal, if_neg hstandalone.2, if_neg hroom,
    hlength.short.unpackShorts, ok_bind]
  show (raiseIf (length < 2 ∨ source.length < offset + length) imageInvalid >>= _) = _
  rw [raiseIf_neg hvalid, ok_bind]
  rfl

/-- A marker whose length is missing or out of range. -/
theorem jpegMarker_invalid {source : List UInt8} {marker : UInt8} {offset : Nat}
    (hstandalone : ¬ Standalone marker) (hterminal : ¬ Terminal marker)
    (hlength : ∀ length, ¬ LengthAt source offset length) :
    jpegMarker source marker offset = .error imageInvalid := by
  rw [Standalone, not_or] at hstandalone
  rw [Terminal] at hterminal
  rw [jpegMarker, if_neg hstandalone.1, if_neg hterminal, if_neg hstandalone.2]
  by_cases hroom : source.length < offset + 2
  · rw [if_pos hroom]
  · rw [if_neg hroom]
    obtain ⟨n, hshortAt⟩ := shortAt_of_lt (show offset + 1 < source.length by omega)
    have hinvalid : n < 2 ∨ source.length < offset + n := by
      by_contra hvalid
      rw [not_or, not_lt, not_lt] at hvalid
      exact hlength n ⟨hshortAt, hvalid.1, hvalid.2⟩
    rw [hshortAt.unpackShorts, ok_bind]
    show (raiseIf (n < 2 ∨ source.length < offset + n) imageInvalid >>= _) = _
    rw [raiseIf_pos hinvalid, error_bind]

/-- A start-of-frame marker has a length. -/
theorem takesLength_of_mem_startOfFrame : ∀ marker ∈ startOfFrame,
    ¬ ((marker = 0x00 ∨ marker = 0xd8) ∨ marker = 0x01 ∨ 0xd0 ≤ marker ∧ marker ≤ 0xd7) ∧
      ¬ (marker = 0xd9 ∨ marker = 0xda) := by
  decide +kernel

/-! ## 4. The loop -/

/-- How the loop goes on after a turn. -/
def afterTurn (source : List UInt8) : Except Raised JpegTurn → Except Raised (Nat × Nat)
  | .error e => .error e
  | .ok (.returned width height) => .ok (width, height)
  | .ok (.continued offset) => jpegLoop source offset

theorem jpegLoop_eq {source : List UInt8} {offset : Nat} (hlt : offset < source.length) :
    jpegLoop source offset = afterTurn source (jpegTurn source offset) := by
  rw [jpegLoop, if_pos hlt]
  split
  · rename_i hturn
    rw [hturn, afterTurn]
  · rename_i hturn
    rw [hturn, afterTurn]
  · rename_i hturn
    rw [hturn, afterTurn]

theorem MarkerAt.lt_length {source : List UInt8} {offset position : Nat} {marker : UInt8}
    (h : MarkerAt source offset position marker) : offset < source.length :=
  lt_trans h.fill (List.getElem?_eq_some_iff.mp h.code).1

/-- The loop goes on from the next marker. -/
theorem jpegLoop_next {source : List UInt8} {offset offset' : Nat}
    (h : JpegNext source offset offset') : jpegLoop source offset = jpegLoop source offset' := by
  cases h with
  | standalone hmarker hstandalone =>
    rw [jpegLoop_eq hmarker.lt_length, hmarker.jpegTurn_eq, jpegMarker_standalone hstandalone,
      afterTurn]
  | segment hmarker hstandalone hterminal hframe hlength =>
    rw [jpegLoop_eq hmarker.lt_length, hmarker.jpegTurn_eq,
      jpegMarker_segment hstandalone hterminal hlength, if_neg hframe]
    rfl

theorem jpegLoop_frame {source : List UInt8} {offset width height : Nat}
    (h : FrameAt source offset width height) : jpegLoop source offset = .ok (width, height) := by
  obtain ⟨position, marker, length, hmarker, hframe, hlength, hlong, hheight, hwidth⟩ := h
  obtain ⟨hstandalone, hterminal⟩ := takesLength_of_mem_startOfFrame marker hframe
  have hwithin := hlength.within
  have hshorts : unpackShorts 2 (byteSlice source (position + 1 + 3) (position + 1 + 7)) =
      .ok [height, width] := by
    refine unpackShorts_eq (fun i ↦ if i = 0 then height else width) (by omega) fun i hi ↦ ?_
    interval_cases i
    · exact hheight
    · exact hwidth
  rw [jpegLoop_eq hmarker.lt_length, hmarker.jpegTurn_eq,
    jpegMarker_segment hstandalone hterminal hlength, if_pos hframe, raiseIf_neg (not_lt.mpr hlong),
    ok_bind, hshorts]
  rfl

/-- The loop raises where the grammar is stuck. -/
theorem jpegLoop_stuck {source : List UInt8} {offset : Nat} (h : JpegStuck source offset) :
    jpegLoop source offset = .error imageInvalid := by
  cases h with
  | endOfString hle => rw [jpegLoop, if_neg (not_lt.mpr hle)]
  | notMarker hstart hne =>
    have hlt := (List.getElem?_eq_some_iff.mp hstart).1
    rw [jpegLoop_eq hlt, jpegTurn, byteAt, hstart, found_some, ok_bind, raiseIf_pos hne, error_bind,
      afterTurn]
  | fillToEnd hlt hfill =>
    rw [jpegLoop_eq hlt, jpegTurn, byteAt, hfill offset (le_refl _) hlt, found_some, ok_bind,
      raiseIf_neg (not_not.mpr rfl), ok_bind]
    simp only [raiseIf_pos (skipFill_toEnd hlt hfill), error_bind, afterTurn]
  | terminal hmarker hterminal =>
    rw [jpegLoop_eq hmarker.lt_length, hmarker.jpegTurn_eq, jpegMarker_terminal hterminal, afterTurn]
  | invalidLength hmarker hstandalone hterminal hlength =>
    rw [jpegLoop_eq hmarker.lt_length, hmarker.jpegTurn_eq,
      jpegMarker_invalid hstandalone hterminal hlength, afterTurn]
  | shortFrame hmarker hframe hlength hshort =>
    obtain ⟨hstandalone, hterminal⟩ := takesLength_of_mem_startOfFrame _ hframe
    rw [jpegLoop_eq hmarker.lt_length, hmarker.jpegTurn_eq,
      jpegMarker_segment hstandalone hterminal hlength, if_pos hframe, raiseIf_pos hshort,
      error_bind, afterTurn]

/-- Wherever the grammar is, it is stuck, at a start-of-frame segment, or goes on further right. -/
theorem jpeg_progress (source : List UInt8) (offset : Nat) :
    JpegStuck source offset ∨ (∃ width height, FrameAt source offset width height) ∨
      ∃ offset', JpegNext source offset offset' ∧ offset < offset' := by
  rcases Nat.lt_or_ge offset source.length with hlt | hle
  · have hstart : source[offset]? = some source[offset] := List.getElem?_eq_getElem hlt
    by_cases hfill : source[offset] = 0xff
    · rw [hfill] at hstart
      rcases marker_or_fill hstart with hall | ⟨position, marker, hmarker⟩
      · exact .inl (.fillToEnd hlt hall)
      have hposition := hmarker.fill
      by_cases hstandalone : Standalone marker
      · exact .inr (.inr ⟨position + 1, .standalone hmarker hstandalone, by omega⟩)
      by_cases hterminal : Terminal marker
      · exact .inl (.terminal hmarker hterminal)
      by_cases hlength : ∃ length, LengthAt source (position + 1) length
      · obtain ⟨length, hlength⟩ := hlength
        by_cases hframe : marker ∈ startOfFrame
        · by_cases hshort : length < 8
          · exact .inl (.shortFrame hmarker hframe hlength hshort)
          have hwithin := hlength.within
          obtain ⟨height, hheight⟩ := shortAt_of_lt (show position + 4 + 1 < source.length by omega)
          obtain ⟨width, hwidth⟩ := shortAt_of_lt (show position + 6 + 1 < source.length by omega)
          exact .inr (.inl ⟨width, height, position, marker, length, hmarker, hframe, hlength,
            not_lt.mp hshort, hheight, hwidth⟩)
        · exact .inr (.inr ⟨_, .segment hmarker hstandalone hterminal hframe hlength, by omega⟩)
      · exact .inl (.invalidLength hmarker hstandalone hterminal (not_exists.mp hlength))
    · exact .inl (.notMarker hstart hfill)
  · exact .inl (.endOfString hle)

/-- The grammar leads from every offset to a start-of-frame segment or gets stuck. -/
theorem jpeg_leads (source : List UInt8) (offset : Nat) :
    ∃ last, Relation.ReflTransGen (JpegNext source) offset last ∧
      (JpegStuck source last ∨ ∃ width height, FrameAt source last width height) := by
  -- by induction on what is left of the string
  induction h : source.length - offset using Nat.strong_induction_on generalizing offset with
  | _ left ih =>
    rcases jpeg_progress source offset with hstuck | hframe | ⟨offset', hnext, hlt⟩
    · exact ⟨offset, .refl, .inl hstuck⟩
    · exact ⟨offset, .refl, .inr hframe⟩
    · have hinside : offset < source.length := by
        cases hnext with
        | standalone hmarker => exact hmarker.lt_length
        | segment hmarker => exact hmarker.lt_length
      obtain ⟨last, hreach, hlast⟩ := ih (source.length - offset') (by omega) offset' rfl
      exact ⟨last, .head hnext hreach, hlast⟩

theorem jpegLoop_reaches {source : List UInt8} {offset last : Nat}
    (h : Relation.ReflTransGen (JpegNext source) offset last) :
    jpegLoop source offset = jpegLoop source last := by
  induction h with
  | refl => rfl
  | tail _ hnext ih => exact ih.trans (jpegLoop_next hnext)

theorem jpegDimensions_of_frame {source : List UInt8} {offset width height : Nat}
    (hreach : JpegReaches source offset) (hframe : FrameAt source offset width height) :
    jpegDimensions source = .ok (width, height) :=
  (jpegLoop_reaches hreach).trans (jpegLoop_frame hframe)

theorem jpegDimensions_of_stuck {source : List UInt8} {offset : Nat}
    (hreach : JpegReaches source offset) (hstuck : JpegStuck source offset) :
    jpegDimensions source = .error imageInvalid :=
  (jpegLoop_reaches hreach).trans (jpegLoop_stuck hstuck)

/-- The dimensions returned are those of the first frame that the grammar reaches. -/
theorem jpegDimensions_eq_ok {source : List UInt8} {width height : Nat} :
    jpegDimensions source = .ok (width, height) ↔
      ∃ offset, JpegReaches source offset ∧ FrameAt source offset width height := by
  constructor
  · intro h
    obtain ⟨last, hreach, hlast⟩ := jpeg_leads source 2
    rcases hlast with hat | ⟨width', height', hat⟩
    · rw [jpegDimensions_of_stuck hreach hat] at h
      cases h
    · rw [jpegDimensions_of_frame hreach hat] at h
      cases h
      exact ⟨last, hreach, hat⟩
  · rintro ⟨offset, hreach, hat⟩
    exact jpegDimensions_of_frame hreach hat

/-- The one error is raised where the grammar gets stuck. -/
theorem jpegDimensions_eq_error {source : List UInt8} {e : Raised} :
    jpegDimensions source = .error e ↔
      e = imageInvalid ∧ ∃ offset, JpegReaches source offset ∧ JpegStuck source offset := by
  constructor
  · intro h
    obtain ⟨last, hreach, hlast⟩ := jpeg_leads source 2
    rcases hlast with hat | ⟨width', height', hat⟩
    · rw [jpegDimensions_of_stuck hreach hat] at h
      cases h
      exact ⟨rfl, last, hreach, hat⟩
    · rw [jpegDimensions_of_frame hreach hat] at h
      cases h
  · rintro ⟨rfl, offset, hreach, hat⟩
    exact jpegDimensions_of_stuck hreach hat

/-- **The parser follows the grammar.**  For every byte string it ends; it returns the dimensions
of the first start-of-frame segment the grammar reaches, and raises exactly where the grammar gets
stuck before one, and only that the image is invalid: no access leaves the string. -/
theorem jpegDimensions_iff (source : List UInt8) :
    (∀ width height, jpegDimensions source = .ok (width, height) ↔
      ∃ offset, JpegReaches source offset ∧ FrameAt source offset width height) ∧
    ∀ e, jpegDimensions source = .error e ↔
      e = imageInvalid ∧ ∃ offset, JpegReaches source offset ∧ JpegStuck source offset :=
  ⟨fun _ _ ↦ jpegDimensions_eq_ok, fun _ ↦ jpegDimensions_eq_error⟩

end Splitbind
