import Mathlib.Data.List.GetD
import Mathlib.Data.List.Nodup
import Mathlib.Data.List.Perm.Basic
import Mathlib.Data.List.Range

/-!
# Interleaving — a word read off in strides, and written back

`order n depth` lists the positions of a word of length `n` in the order in which its lanes are
joined.  Interleaving reads a word in that order and deinterleaving writes one back in it, also
when the last row is ragged.
-/

namespace Interleave

variable {α : Type*}

/-! ## 1. The order of the positions -/

/-- `range(start, stop, step)`. -/
def strided (start stop step : Nat) : List Nat :=
  (List.range ((stop - start + (step - 1)) / step)).map fun k ↦ start + step * k

def order (n depth : Nat) : List Nat :=
  (List.range depth).flatMap fun offset ↦ strided offset n depth

theorem mem_strided {start stop step i : Nat} (hstep : 0 < step) :
    i ∈ strided start stop step ↔ ∃ k, i = start + step * k ∧ i < stop := by
  simp only [strided, List.mem_map, List.mem_range, Nat.lt_div_iff_mul_lt hstep]
  constructor
  · rintro ⟨k, hk, rfl⟩
    refine ⟨k, rfl, ?_⟩
    rw [Nat.mul_comm] at hk
    omega
  · rintro ⟨k, rfl, hlt⟩
    refine ⟨k, ?_, rfl⟩
    rw [Nat.mul_comm]
    omega

theorem nodup_strided {start stop step : Nat} (hstep : 0 < step) :
    (strided start stop step).Nodup := by
  refine List.Nodup.map (fun a b hab ↦ ?_) List.nodup_range
  exact Nat.eq_of_mul_eq_mul_left hstep (Nat.add_left_cancel hab)

theorem mem_order {n depth i : Nat} (hdepth : 0 < depth) : i ∈ order n depth ↔ i < n := by
  simp only [order, List.mem_flatMap, List.mem_range, mem_strided hdepth]
  constructor
  · rintro ⟨offset, -, k, -, hlt⟩
    exact hlt
  · intro hlt
    exact ⟨i % depth, Nat.mod_lt i hdepth, i / depth, (Nat.mod_add_div i depth).symm, hlt⟩

theorem nodup_order {n depth : Nat} (hdepth : 0 < depth) : (order n depth).Nodup := by
  refine List.nodup_flatMap.mpr ⟨fun _ _ ↦ nodup_strided hdepth, ?_⟩
  refine List.Pairwise.imp_of_mem ?_ List.nodup_range
  intro a b ha hb hne i hia hib
  obtain ⟨k, rfl, -⟩ := (mem_strided hdepth).mp hia
  obtain ⟨l, heq, -⟩ := (mem_strided hdepth).mp hib
  -- the lane of a position is its remainder
  have hmod := congrArg (· % depth) heq
  simp only [Nat.add_mul_mod_self_left] at hmod
  rw [Nat.mod_eq_of_lt (List.mem_range.mp ha), Nat.mod_eq_of_lt (List.mem_range.mp hb)] at hmod
  exact hne hmod

/-- The order visits every position once. -/
theorem order_perm {n depth : Nat} (hdepth : 0 < depth) :
    (order n depth).Perm (List.range n) :=
  (List.perm_ext_iff_of_nodup (nodup_order hdepth) List.nodup_range).mpr fun i ↦ by
    rw [mem_order hdepth, List.mem_range]

theorem length_order {n depth : Nat} (hdepth : 0 < depth) : (order n depth).length = n := by
  rw [(order_perm hdepth).length_eq, List.length_range]

/-! ## 2. Writing at positions -/

/-- Write values at positions. -/
def assign (restored : List α) (places : List (Nat × α)) : List α :=
  places.foldl (fun word place ↦ word.set place.1 place.2) restored

theorem length_assign (word : List α) (places : List (Nat × α)) :
    (assign word places).length = word.length := by
  induction places generalizing word with
  | nil => rfl
  | cons place places ih =>
    rw [assign, List.foldl_cons, ← assign, ih, List.length_set]

theorem assign_append (word : List α) (places places' : List (Nat × α)) :
    assign word (places ++ places') = assign (assign word places) places' :=
  List.foldl_append

/-- A position that is not written holds what it held. -/
theorem getElem?_assign_of_notMem {word : List α} {places : List (Nat × α)} {i : Nat}
    (hi : i ∉ places.map Prod.fst) : (assign word places)[i]? = word[i]? := by
  induction places generalizing word with
  | nil => rfl
  | cons place places ih =>
    rw [List.map_cons, List.mem_cons, not_or] at hi
    rw [assign, List.foldl_cons, ← assign, ih hi.2, List.getElem?_set_ne (Ne.symm hi.1)]

/-- A position that is written once holds what was written. -/
theorem getElem?_assign {word : List α} {places : List (Nat × α)}
    (hnodup : (places.map Prod.fst).Nodup) {place : Nat × α} (hplace : place ∈ places)
    (hlt : place.1 < word.length) : (assign word places)[place.1]? = some place.2 := by
  induction places generalizing word with
  | nil => cases hplace
  | cons head places ih =>
    rw [List.map_cons, List.nodup_cons] at hnodup
    rw [assign, List.foldl_cons, ← assign]
    rcases List.mem_cons.mp hplace with rfl | hplace
    · rw [getElem?_assign_of_notMem hnodup.1, List.getElem?_set_self hlt]
    · exact ih hnodup.2 hplace (by rwa [List.length_set])

/-- The first positions take the first values. -/
theorem zip_append_left {β : Type*} (as as' : List α) (bs : List β) :
    (as ++ as').zip bs = as.zip (bs.take as.length) ++ as'.zip (bs.drop as.length) := by
  induction as generalizing bs with
  | nil => simp
  | cons a as ih =>
    cases bs with
    | nil => simp
    | cons b bs => simp [ih]

/-- One lane: `restored[offset::depth] = data[cursor : cursor + lane_length]`. -/
def restoreLane (data : List α) (depth : Nat) (state : List α × Nat) (offset : Nat) :
    List α × Nat :=
  let lane := strided offset data.length depth
  (assign state.1 (lane.zip ((data.drop state.2).take lane.length)), state.2 + lane.length)

/-- The lanes are written one after the other, each from where the one before ended. -/
theorem foldl_restoreLane (data : List α) (depth : Nat) (offsets : List Nat) (word : List α)
    (cursor : Nat) :
    offsets.foldl (restoreLane data depth) (word, cursor) =
      (assign word ((offsets.flatMap fun offset ↦ strided offset data.length depth).zip
        (data.drop cursor)),
        cursor + (offsets.flatMap fun offset ↦ strided offset data.length depth).length) := by
  induction offsets generalizing word cursor with
  | nil => simp [assign]
  | cons offset offsets ih =>
    rw [List.foldl_cons, restoreLane, ih, List.flatMap_cons, zip_append_left, assign_append,
      List.drop_drop, List.length_append, Nat.add_assoc]

/-! ## 3. Reading in strides -/

section Words

variable [Inhabited α]

/-- `data[offset::depth]`. -/
def slice (data : List α) (offset depth : Nat) : List α :=
  (strided offset data.length depth).map fun i ↦ data.getD i default

def interleave (data : List α) (depth : Nat) : List α :=
  (List.range depth).flatMap fun offset ↦ slice data offset depth

theorem interleave_eq (data : List α) (depth : Nat) :
    interleave data depth = (order data.length depth).map fun i ↦ data.getD i default := by
  rw [order, List.map_flatMap]
  rfl

theorem length_interleave (data : List α) {depth : Nat} (hdepth : 0 < depth) :
    (interleave data depth).length = data.length := by
  rw [interleave_eq, List.length_map, length_order hdepth]

theorem interleave_range (n depth : Nat) : interleave (List.range n) depth = order n depth := by
  rcases Nat.eq_zero_or_pos depth with rfl | hdepth
  · rfl
  rw [interleave_eq, List.length_range]
  refine (List.map_congr_left fun i hi ↦ ?_).trans (List.map_id _)
  have hlt : i < n := (mem_order hdepth).mp hi
  rw [List.getD_eq_getElem?_getD, List.getElem?_range hlt]
  rfl

/-! ## 4. Writing back in strides -/

def deinterleave (data : List α) (depth : Nat) : List α :=
  ((List.range depth).foldl (restoreLane data depth) (List.replicate data.length default, 0)).1

theorem deinterleave_eq (data : List α) (depth : Nat) :
    deinterleave data depth =
      assign (List.replicate data.length default) ((order data.length depth).zip data) := by
  rw [deinterleave, foldl_restoreLane, List.drop_zero]
  rfl

/-- What is written back at a position is what the order reads there. -/
theorem getElem?_deinterleave {data : List α} {depth : Nat} (hdepth : 0 < depth) {p i : Nat}
    (hi : (order data.length depth)[p]? = some i) : (deinterleave data depth)[i]? = data[p]? := by
  have hp : p < data.length := by
    have hlength := (List.getElem?_eq_some_iff.mp hi).1
    rwa [length_order hdepth] at hlength
  have hlt : i < data.length := (mem_order hdepth).mp (List.mem_of_getElem? hi)
  rw [deinterleave_eq, List.getElem?_eq_getElem hp]
  have hfst : ((order data.length depth).zip data).map Prod.fst = order data.length depth :=
    List.map_fst_zip (length_order hdepth).le
  have hplace : (i, data[p]) ∈ (order data.length depth).zip data := by
    refine List.mem_of_getElem? (i := p) ?_
    rw [List.getElem?_zip_eq_some]
    exact ⟨hi, List.getElem?_eq_getElem hp⟩
  exact getElem?_assign (by rw [hfst]; exact nodup_order hdepth) hplace
    (by rwa [List.length_replicate])

theorem length_deinterleave (data : List α) (depth : Nat) :
    (deinterleave data depth).length = data.length := by
  rw [deinterleave_eq, length_assign, List.length_replicate]

/-- Reading in strides commutes with any change of the letters. -/
theorem interleave_map {β : Type*} [Inhabited β] (f : α → β) (data : List α) {depth : Nat}
    (hdepth : 0 < depth) : interleave (data.map f) depth = (interleave data depth).map f := by
  rw [interleave_eq, interleave_eq, List.length_map, List.map_map]
  refine List.map_congr_left fun i hi ↦ ?_
  have hlt : i < data.length := (mem_order hdepth).mp hi
  rw [Function.comp_apply, List.getD_eq_getElem _ _ (by rwa [List.length_map]),
    List.getElem_map, List.getD_eq_getElem _ _ hlt]

/-! ## 5. Damage travels with the order -/

section Damage

variable [DecidableEq α]

/-- How many positions outside `erased` hold something else than was sent. -/
def wrong (sent received : List α) (erased : List Nat) : Nat :=
  (List.range sent.length).countP fun p ↦ p ∉ erased ∧ received[p]? ≠ sent[p]?

omit [Inhabited α] in
/-- A word has no wrong positions of its own. -/
theorem wrong_self (word : List α) (erased : List Nat) : wrong word word erased = 0 := by
  unfold wrong
  rw [List.countP_eq_zero]
  intro p _ h
  exact (of_decide_eq_true h).2 rfl

/-- Where a position of the interleaved word comes from. -/
def source (n depth p : Nat) : Nat := (order n depth).getD p 0

theorem getElem?_order {n depth p : Nat} (hdepth : 0 < depth) (hp : p < n) :
    (order n depth)[p]? = some (source n depth p) := by
  have hlt : p < (order n depth).length := by rwa [length_order hdepth]
  rw [source, List.getD_eq_getElem _ _ hlt, List.getElem?_eq_getElem hlt]

theorem source_lt {n depth p : Nat} (hdepth : 0 < depth) (hp : p < n) : source n depth p < n :=
  (mem_order hdepth).mp (List.mem_of_getElem? (getElem?_order hdepth hp))

theorem source_injective {n depth p p' : Nat} (hdepth : 0 < depth) (hp : p < n) (hp' : p' < n)
    (heq : source n depth p = source n depth p') : p = p' := by
  have hlt : p < (order n depth).length := by rwa [length_order hdepth]
  refine (List.getElem?_inj hlt (nodup_order hdepth)).mp ?_
  rw [getElem?_order hdepth hp, getElem?_order hdepth hp', heq]

theorem order_eq_map_source {n depth : Nat} (hdepth : 0 < depth) :
    order n depth = (List.range n).map (source n depth) := by
  refine List.ext_getElem? fun p ↦ ?_
  by_cases hp : p < n
  · rw [getElem?_order hdepth hp, List.getElem?_map, List.getElem?_range hp, Option.map_some]
  · rw [List.getElem?_eq_none (by rw [length_order hdepth]; omega),
      List.getElem?_eq_none (by rw [List.length_map, List.length_range]; omega)]

/-- The erased positions, in the word before it was interleaved, are those the order maps there:
the damage a deinterleaved word carries is the damage of the interleaved one. -/
theorem wrong_deinterleave {codeword received : List α} {depth : Nat} (hdepth : 0 < depth)
    (hlength : received.length = codeword.length) {erased : List Nat}
    (herased : ∀ p ∈ erased, p < codeword.length) :
    wrong codeword (deinterleave received depth) (erased.map (source codeword.length depth)) =
      wrong (interleave codeword depth) received erased := by
  -- count along the order instead of along the range
  rw [wrong, wrong, length_interleave codeword hdepth,
    ← (order_perm (n := codeword.length) hdepth).countP_eq, order_eq_map_source hdepth,
    List.countP_map]
  refine List.countP_congr fun p hp ↦ ?_
  have hp : p < codeword.length := List.mem_range.mp hp
  have hmem : source codeword.length depth p ∈ erased.map (source codeword.length depth) ↔
      p ∈ erased := by
    rw [List.mem_map]
    refine ⟨?_, fun h ↦ ⟨p, h, rfl⟩⟩
    rintro ⟨p', hp', heq⟩
    rwa [source_injective hdepth hp (herased p' hp') heq.symm]
  have hreceived : (deinterleave received depth)[source codeword.length depth p]? = received[p]? :=
    getElem?_deinterleave hdepth (by rw [hlength]; exact getElem?_order hdepth hp)
  have hsent : (interleave codeword depth)[p]? = codeword[source codeword.length depth p]? := by
    have hlt := source_lt hdepth hp
    rw [interleave_eq, List.getElem?_map, getElem?_order hdepth hp, Option.map_some,
      List.getD_eq_getElem _ _ hlt, List.getElem?_eq_getElem hlt]
  simp only [Function.comp_apply, hmem, hreceived, hsent]

end Damage

end Words

end Interleave
