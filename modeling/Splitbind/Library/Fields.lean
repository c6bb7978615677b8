import Mathlib.Data.List.Basic

/-!
# Fields — a concatenation that is read back without marks

Fields of known widths follow one another, and what varies in length comes after a count of its
items.  Two such concatenations are equal only if their fields are, whatever follows them.
-/

namespace Fields

variable {β : Type}

/-- Fields of the same widths are read off one after the other. -/
theorem flatten_inj {xs ys : List (List β)} {s t : List β}
    (hwidths : xs.map List.length = ys.map List.length) (h : xs.flatten ++ s = ys.flatten ++ t) :
    xs = ys ∧ s = t := by
  induction xs generalizing ys with
  | nil =>
    cases ys with
    | nil => exact ⟨rfl, h⟩
    | cons y ys => cases hwidths
  | cons x xs ih =>
    cases ys with
    | nil => cases hwidths
    | cons y ys =>
      obtain ⟨hwidth, hrest⟩ := List.cons.inj hwidths
      rw [List.flatten_cons, List.flatten_cons, List.append_assoc, List.append_assoc] at h
      obtain ⟨rfl, htail⟩ := List.append_inj h hwidth
      obtain ⟨rfl, hst⟩ := ih hrest htail
      exact ⟨rfl, hst⟩

/-- Items of one width after their number. -/
theorem counted_inj {count : Nat → List β} {bound countWidth width : Nat}
    (hcount : ∀ m < bound, ∀ n < bound, count m = count n → m = n)
    (hcountWidth : ∀ n, (count n).length = countWidth) {xs ys : List (List β)} {s t : List β}
    (hxs : xs.length < bound ∧ ∀ x ∈ xs, x.length = width)
    (hys : ys.length < bound ∧ ∀ y ∈ ys, y.length = width)
    (h : count xs.length ++ (xs.flatten ++ s) = count ys.length ++ (ys.flatten ++ t)) :
    xs = ys ∧ s = t := by
  -- the count has a width of its own, so it is read before the items whose number it tells
  obtain ⟨hlength, hitems⟩ := List.append_inj h (by rw [hcountWidth, hcountWidth])
  have hlength' := hcount _ hxs.1 _ hys.1 hlength
  refine flatten_inj ?_ hitems
  rw [List.map_congr_left hxs.2, List.map_congr_left hys.2, List.map_const', List.map_const',
    hlength']

/-- The code units of a text determine it. -/
theorem utf8_inj {a b : List Char}
    (h : a.flatMap String.utf8EncodeChar = b.flatMap String.utf8EncodeChar) : a = b := by
  have hbytes : a.utf8Encode = b.utf8Encode := congrArg List.toByteArray h
  -- the library decodes what it encodes
  have hdecode := congrArg ByteArray.utf8Decode? hbytes
  rw [List.utf8Decode?_utf8Encode, List.utf8Decode?_utf8Encode, Option.some.injEq] at hdecode
  exact List.toArray_inj hdecode

end Fields
