import Mathlib.Data.List.GetD
import Mathlib.Data.List.Nodup
import Mathlib.Data.List.Perm.Basic
import Mathlib.Data.Nat.ModEq
import Mathlib.Tactic.Common

/-!
# Rotations — an order that is closed to a ring, and shifts along it

Every element of an order goes to the one some places further on.  A rotation that moves at all
moves everything, and two rotations by different shifts agree nowhere.
-/

namespace Rotation

variable {α : Type} [DecidableEq α]

/-- The element some places behind another one. -/
def image (order : List α) (shift : Nat) (a : α) : α :=
  order.getD ((order.idxOf a + shift) % order.length) a

section Image

variable {order : List α} {shift shift' : Nat} {a b : α}

theorem image_eq (shift : Nat) (ha : a ∈ order) :
    ∃ h : (order.idxOf a + shift) % order.length < order.length,
      image order shift a = order[(order.idxOf a + shift) % order.length] := by
  have h := Nat.mod_lt (order.idxOf a + shift) (List.length_pos_of_mem ha)
  exact ⟨h, List.getD_eq_getElem _ _ h⟩

theorem image_mem (ha : a ∈ order) : image order shift a ∈ order := by
  obtain ⟨h, heq⟩ := image_eq shift ha
  rw [heq]
  exact List.getElem_mem h

/-- Equal images stand at equal places. -/
theorem place_eq (hnodup : order.Nodup) (ha : a ∈ order) (hb : b ∈ order)
    (h : image order shift a = image order shift' b) :
    (order.idxOf a + shift) % order.length = (order.idxOf b + shift') % order.length := by
  obtain ⟨hlt, heq⟩ := image_eq shift ha
  obtain ⟨hlt', heq'⟩ := image_eq shift' hb
  rw [heq, heq'] at h
  exact (hnodup.getElem_inj_iff).mp h

theorem image_inj (hnodup : order.Nodup) (ha : a ∈ order) (hb : b ∈ order)
    (h : image order shift a = image order shift b) : a = b := by
  have hplace : order.idxOf a ≡ order.idxOf b [MOD order.length] :=
    Nat.ModEq.add_right_cancel' shift (place_eq hnodup ha hb h)
  have hidx := hplace.eq_of_lt_of_lt (List.idxOf_lt_length_of_mem ha)
    (List.idxOf_lt_length_of_mem hb)
  exact (List.idxOf_inj ha).mp hidx

/-- Different shifts move an element to different places. -/
theorem shift_inj (hnodup : order.Nodup) (ha : a ∈ order) (hshift : shift < order.length)
    (hshift' : shift' < order.length) (h : image order shift a = image order shift' a) :
    shift = shift' := by
  have hplace : shift ≡ shift' [MOD order.length] :=
    Nat.ModEq.add_left_cancel' (order.idxOf a) (place_eq hnodup ha ha h)
  exact hplace.eq_of_lt_of_lt hshift hshift'

theorem image_zero (ha : a ∈ order) : image order 0 a = a := by
  obtain ⟨h, heq⟩ := image_eq 0 ha
  have hidx := List.idxOf_lt_length_of_mem ha
  rw [heq]
  simp only [Nat.add_zero, Nat.mod_eq_of_lt hidx, List.getElem_idxOf]

/-- A shift that moves leaves nothing in place. -/
theorem image_ne (hnodup : order.Nodup) (ha : a ∈ order) (hpos : 0 < shift)
    (hshift : shift < order.length) : image order shift a ≠ a := by
  intro h
  have hzero := shift_inj hnodup ha hshift (List.length_pos_of_mem ha)
    (h.trans (image_zero ha).symm)
  exact Nat.ne_of_gt hpos hzero

/-- A rotation reaches everything once. -/
theorem map_image_perm (hnodup : order.Nodup) {sources : List α} (hperm : order.Perm sources) :
    (sources.map (image order shift)).Perm sources := by
  have hmap : (order.map (image order shift)).Nodup :=
    List.Nodup.map_on (fun a ha b hb h ↦ image_inj hnodup ha hb h) hnodup
  have hsubset : order.map (image order shift) ⊆ order := by
    intro b hb
    obtain ⟨a, ha, rfl⟩ := List.mem_map.mp hb
    exact image_mem ha
  -- distinct images within the order, as many as the order is long
  have hself : (order.map (image order shift)).Perm order :=
    (List.subperm_of_subset hmap hsubset).perm_of_length_le (List.length_map _).ge
  exact (hperm.symm.map _).trans (hself.trans hperm)

end Image

/-! ## Shifts -/

/-- The shifts move, and differ, along a ring of so many places. -/
def Independent (shifts : List Nat) (count : Nat) : Prop :=
  0 ∉ shifts.map (· % count) ∧ (shifts.map (· % count)).Nodup

instance (shifts : List Nat) (count : Nat) : Decidable (Independent shifts count) :=
  inferInstanceAs (Decidable (_ ∧ _))

/-- The shifts are independent along every longer ring when they fit into the shortest one.  It is
not enough that they are independent along that one. -/
theorem independent_forall_iff {shifts : List Nat} {minimum : Nat} :
    (∀ count, minimum ≤ count → Independent shifts count) ↔
      shifts.Nodup ∧ ∀ shift ∈ shifts, 0 < shift ∧ shift < minimum := by
  constructor
  · intro h
    refine ⟨List.Nodup.of_map _ (h minimum le_rfl).2, fun shift hshift ↦ ?_⟩
    have hmoves : ∀ count, minimum ≤ count → shift % count ≠ 0 := by
      intro count hcount hzero
      exact (h count hcount).1 (List.mem_map.mpr ⟨shift, hshift, hzero⟩)
    constructor
    · refine Nat.pos_of_ne_zero fun hzero ↦ hmoves minimum le_rfl ?_
      rw [hzero, Nat.zero_mod]
    · -- along a ring of its own length a shift does not move
      by_contra hlong
      exact hmoves shift (Nat.le_of_not_lt hlong) (Nat.mod_self shift)
  · rintro ⟨hnodup, hfits⟩ count hcount
    -- the remainders are the shifts themselves along every ring at least so long
    have hself : shifts.map (· % count) = shifts := by
      conv_rhs => rw [← List.map_id shifts]
      refine List.map_congr_left fun shift hshift ↦ ?_
      exact Nat.mod_eq_of_lt ((hfits shift hshift).2.trans_le hcount)
    rw [Independent, hself]
    exact ⟨fun hzero ↦ Nat.lt_irrefl 0 (hfits 0 hzero).1, hnodup⟩

example : Independent [5] 4 ∧ ¬ Independent [5] 5 := by decide

end Rotation
