import Mathlib.Data.List.Nodup
import Mathlib.Data.List.Sort

/-!
# Tables — lists of rows with a unique column, and queries that stay within a scope

A table is a list of rows; a unique column is one whose values have no duplicates.  A lookup by a
unique column finds the row that has the value, and a query whose rows all lie in a scope cannot
tell the table from its restriction to that scope.  Saving a row replaces the one that has its
value in the unique column.
-/

namespace Table

variable {α β : Type*}

/-- A lookup that determines a unique column finds the one row it describes. -/
theorem find?_eq_some {rows : List α} {column : α → β} {p : α → Bool} {row : α}
    (hunique : (rows.map column).Nodup) (hmem : row ∈ rows) (hp : p row = true)
    (hcolumn : ∀ other, p other = true → column other = column row) :
    rows.find? p = some row := by
  induction rows with
  | nil => simp at hmem
  | cons head tail ih =>
    rw [List.map_cons, List.nodup_cons] at hunique
    rcases List.mem_cons.mp hmem with rfl | hmem
    · exact List.find?_cons_of_pos hp
    · have hhead : p head = false := by
        by_contra hhead
        rw [Bool.not_eq_false] at hhead
        exact hunique.1 (hcolumn head hhead ▸ List.mem_map_of_mem hmem)
      rw [List.find?_cons_of_neg (by simp [hhead])]
      exact ih hunique.2 hmem

/-- A lookup after the other columns of the rows were rewritten. -/
theorem find?_map_of_column [DecidableEq β] {rows : List α} (column : α → β) {rewrite : α → α}
    (hcolumn : ∀ row ∈ rows, column (rewrite row) = column row) (value : β) :
    (rows.map rewrite).find? (fun row ↦ column row = value) =
      (rows.find? fun row ↦ column row = value).map rewrite := by
  induction rows with
  | nil => rfl
  | cons head tail ih =>
    have hhead := hcolumn head List.mem_cons_self
    rw [List.map_cons]
    by_cases hvalue : column head = value
    · rw [List.find?_cons_of_pos (by simpa [hhead] using hvalue),
        List.find?_cons_of_pos (by simpa using hvalue), Option.map_some]
    · rw [List.find?_cons_of_neg (by simpa [hhead] using hvalue),
        List.find?_cons_of_neg (by simpa using hvalue)]
      exact ih fun row hrow ↦ hcolumn row (List.mem_cons_of_mem _ hrow)

/-- A selection by a unique column. -/
theorem filter_eq_singleton [DecidableEq β] {rows : List α} {column : α → β} {row : α} {value : β}
    (hunique : (rows.map column).Nodup) (hmem : row ∈ rows) (hvalue : column row = value) :
    rows.filter (fun other ↦ column other = value) = [row] := by
  subst hvalue
  induction rows with
  | nil => simp at hmem
  | cons head tail ih =>
    rw [List.map_cons, List.nodup_cons] at hunique
    rcases List.mem_cons.mp hmem with rfl | hmem
    · rw [List.filter_cons_of_pos (by simp), List.filter_eq_nil_iff.mpr]
      intro other hother heq
      exact hunique.1 (of_decide_eq_true heq ▸ List.mem_map_of_mem hother)
    · have hne : column head ≠ column row :=
        fun heq ↦ hunique.1 (heq ▸ List.mem_map_of_mem hmem)
      rw [List.filter_cons_of_neg (by simpa using hne)]
      exact ih hunique.2 hmem

/-- A selection by a unique optional column. -/
theorem filter_eq_singleton_of_filterMap [DecidableEq β] {rows : List α} {column : α → Option β}
    {value : β} (hunique : (rows.filterMap column).Nodup) (hmem : value ∈ rows.filterMap column) :
    ∃ row ∈ rows, column row = some value ∧
      rows.filter (fun other ↦ column other = some value) = [row] := by
  induction rows with
  | nil => simp at hmem
  | cons head tail ih =>
    rcases hcolumn : column head with _ | headValue
    · rw [List.filterMap_cons_none hcolumn] at hunique hmem
      obtain ⟨row, hrow, hvalue, hfilter⟩ := ih hunique hmem
      refine ⟨row, List.mem_cons_of_mem _ hrow, hvalue, ?_⟩
      rw [List.filter_cons_of_neg (by simp [hcolumn]), hfilter]
    · rw [List.filterMap_cons_some hcolumn] at hunique hmem
      rw [List.nodup_cons] at hunique
      by_cases heq : headValue = value
      · subst heq
        refine ⟨head, List.mem_cons_self, hcolumn, ?_⟩
        rw [List.filter_cons_of_pos (by simp [hcolumn]), List.filter_eq_nil_iff.mpr]
        intro other hother hvalue
        exact hunique.1 (List.mem_filterMap.mpr ⟨other, hother, of_decide_eq_true hvalue⟩)
      · have htail : value ∈ tail.filterMap column :=
          (List.mem_cons.mp hmem).resolve_left (Ne.symm heq)
        obtain ⟨row, hrow, hvalue, hfilter⟩ := ih hunique.2 htail
        refine ⟨row, List.mem_cons_of_mem _ hrow, hvalue, ?_⟩
        rw [List.filter_cons_of_neg (by simpa [hcolumn] using heq), hfilter]

/-- A lookup within a scope. -/
theorem find?_filter {rows : List α} {p scope : α → Bool}
    (h : ∀ row ∈ rows, p row = true → scope row = true) :
    (rows.filter scope).find? p = rows.find? p := by
  induction rows with
  | nil => rfl
  | cons head tail ih =>
    have hrest := ih fun row hrow ↦ h row (List.mem_cons_of_mem _ hrow)
    by_cases hscope : scope head = true
    · rw [List.filter_cons_of_pos hscope]
      by_cases hp : p head = true
      · rw [List.find?_cons_of_pos hp, List.find?_cons_of_pos hp]
      · rw [List.find?_cons_of_neg hp, List.find?_cons_of_neg hp, hrest]
    · have hp : ¬ p head = true := fun hp ↦ hscope (h head List.mem_cons_self hp)
      rw [List.filter_cons_of_neg hscope, List.find?_cons_of_neg hp, hrest]

/-- A selection within a scope. -/
theorem filter_filter {rows : List α} {p scope : α → Bool}
    (h : ∀ row ∈ rows, p row = true → scope row = true) :
    (rows.filter scope).filter p = rows.filter p := by
  rw [List.filter_filter]
  refine List.filter_congr fun row hrow ↦ ?_
  rw [Bool.eq_iff_iff, Bool.and_eq_true]
  exact ⟨And.left, fun hp ↦ ⟨hp, h row hrow hp⟩⟩

/-- A row within a scope. -/
theorem exists_mem_filter {rows : List α} {p : α → Prop} {scope : α → Bool}
    (h : ∀ row ∈ rows, p row → scope row = true) :
    (∃ row ∈ rows.filter scope, p row) ↔ ∃ row ∈ rows, p row := by
  constructor
  · rintro ⟨row, hrow, hp⟩
    exact ⟨row, (List.mem_filter.mp hrow).1, hp⟩
  · rintro ⟨row, hrow, hp⟩
    exact ⟨row, List.mem_filter.mpr ⟨hrow, h row hrow hp⟩, hp⟩

/-- An existence query within a scope. -/
theorem any_filter {rows : List α} {p scope : α → Bool}
    (h : ∀ row ∈ rows, p row = true → scope row = true) :
    (rows.filter scope).any p = rows.any p := by
  rw [Bool.eq_iff_iff, List.any_eq_true, List.any_eq_true]
  exact exists_mem_filter h

/-- What precedes the first row a query refuses is among what it selects. -/
theorem takeWhile_sublist_filter (p : α → Bool) (rows : List α) :
    (rows.takeWhile p).Sublist (rows.filter p) := by
  have hall : (rows.takeWhile p).filter p = rows.takeWhile p :=
    List.filter_eq_self.mpr (List.all_eq_true.mp List.all_takeWhile)
  have hfilter : ((rows.takeWhile p).filter p).Sublist (rows.filter p) :=
    (List.takeWhile_sublist p).filter p
  rwa [hall] at hfilter

/-- What precedes the first row a query refuses is all it selects exactly when no selected row
comes after a refused one. -/
theorem takeWhile_eq_filter_iff (p : α → Bool) (rows : List α) :
    rows.takeWhile p = rows.filter p ↔ rows.Pairwise fun a b ↦ p b = true → p a = true := by
  induction rows with
  | nil => simp
  | cons head tail ih =>
    rw [List.pairwise_cons]
    by_cases hp : p head = true
    · rw [List.takeWhile_cons_of_pos hp, List.filter_cons_of_pos hp, List.cons.injEq, ih]
      simp [hp]
    · rw [List.takeWhile_cons_of_neg hp, List.filter_cons_of_neg hp, eq_comm,
        List.filter_eq_nil_iff]
      constructor
      · intro hnone
        refine ⟨fun b hb hpb ↦ absurd hpb (hnone b hb), ?_⟩
        exact List.pairwise_of_forall_mem_list fun a _ b hb hpb ↦ absurd hpb (hnone b hb)
      · exact fun h b hb hpb ↦ hp (h.1 b hb hpb)

/-! ## Tables related row by row -/

theorem map_eq_of_forall₂ {r : α → α → Prop} {column : α → β}
    (hcolumn : ∀ row row', r row row' → column row' = column row) {rows rows' : List α}
    (h : List.Forall₂ r rows rows') : rows'.map column = rows.map column := by
  induction h with
  | nil => rfl
  | cons hrow _ ih => rw [List.map_cons, List.map_cons, hcolumn _ _ hrow, ih]

theorem forall₂_trans {r : α → α → Prop} (htrans : ∀ a b c, r a b → r b c → r a c)
    {rows rows' rows'' : List α} (h : List.Forall₂ r rows rows')
    (h' : List.Forall₂ r rows' rows'') : List.Forall₂ r rows rows'' := by
  induction h generalizing rows'' with
  | nil => exact h'
  | cons hrow _ ih =>
    cases h' with
    | cons hrow' h' => exact .cons (htrans _ _ _ hrow hrow') (ih h')

/-! ## Selecting in an order -/

section Sorted

variable {r : α → α → Prop} [DecidableRel r]

theorem filter_orderedInsert_of_neg {p : α → Bool} {row : α} (hp : ¬ p row = true)
    (rows : List α) : (rows.orderedInsert r row).filter p = rows.filter p := by
  induction rows with
  | nil => exact List.filter_cons_of_neg hp
  | cons head tail ih =>
    rw [List.orderedInsert_cons]
    split
    · exact List.filter_cons_of_neg hp
    · rw [List.filter_cons, List.filter_cons, ih]

theorem filter_orderedInsert_of_pos [IsTrans α r] {p : α → Bool} {row : α} (hp : p row = true)
    {rows : List α} (hsorted : rows.Pairwise r) :
    (rows.orderedInsert r row).filter p = (rows.filter p).orderedInsert r row := by
  induction rows with
  | nil => exact List.filter_cons_of_pos hp
  | cons head tail ih =>
    rw [List.pairwise_cons] at hsorted
    rw [List.orderedInsert_cons]
    split
    · rename_i hfirst
      rw [List.filter_cons_of_pos hp]
      -- the row comes before everything that is selected
      rcases hselected : (head :: tail).filter p with _ | ⟨next, rest⟩
      · rfl
      · have hnext : next ∈ head :: tail := (List.mem_filter.mp (hselected ▸ List.mem_cons_self)).1
        have hbefore : r row next := by
          rcases List.mem_cons.mp hnext with rfl | hnext
          · exact hfirst
          · exact trans_of r hfirst (hsorted.1 next hnext)
        rw [List.orderedInsert_cons, if_pos hbefore]
    · rename_i hlater
      by_cases hhead : p head = true
      · rw [List.filter_cons_of_pos hhead, List.filter_cons_of_pos hhead, ih hsorted.2,
          List.orderedInsert_cons, if_neg hlater]
      · rw [List.filter_cons_of_neg hhead, List.filter_cons_of_neg hhead, ih hsorted.2]

/-- Selecting before sorting and after it. -/
theorem filter_insertionSort [Std.Total r] [IsTrans α r]
    (p : α → Bool) (rows : List α) :
    (rows.insertionSort r).filter p = (rows.filter p).insertionSort r := by
  induction rows with
  | nil => rfl
  | cons head tail ih =>
    have hsorted := List.pairwise_insertionSort r tail
    rw [List.insertionSort_cons]
    by_cases hp : p head = true
    · rw [List.filter_cons_of_pos hp, List.insertionSort_cons, ← ih]
      exact filter_orderedInsert_of_pos hp hsorted
    · rw [List.filter_cons_of_neg hp, ← ih]
      exact filter_orderedInsert_of_neg hp _

end Sorted

/-! ## Saving a row -/

section Save

variable [DecidableEq β] {column : α → β}

/-- Replace the row that has the saved row's value in the column. -/
def save (column : α → β) (rows : List α) (row : α) : List α :=
  rows.map fun other ↦ if column other = column row then row else other

/-- Only the row itself is replaced. -/
theorem save_eq_self {rows : List α} {row : α} (h : ∀ other ∈ rows, column other ≠ column row) :
    save column rows row = rows := by
  unfold save
  rw [List.map_congr_left (fun other hother ↦ if_neg (h other hother)), List.map_id']

@[simp] theorem map_save {rows : List α} {row : α} :
    (save column rows row).map column = rows.map column := by
  rw [save, List.map_map]
  refine List.map_congr_left fun other _ ↦ ?_
  by_cases heq : column other = column row <;> simp [heq]

/-- An update of one row by its unique column is a save. -/
theorem map_update_eq_save {rows : List α} (hunique : (rows.map column).Nodup) {row : α}
    (hmem : row ∈ rows) {update : α → α} (hcolumn : column (update row) = column row) :
    rows.map (fun other ↦ if column other = column row then update other else other) =
      save column rows (update row) := by
  refine List.map_congr_left fun other hother ↦ ?_
  rw [hcolumn]
  by_cases heq : column other = column row
  · rw [if_pos heq, if_pos heq, List.inj_on_of_nodup_map hunique hother hmem heq]
  · rw [if_neg heq, if_neg heq]

/-- A lookup of another row. -/
theorem find?_save_of_ne {rows : List α} {row : α} {key : β} (h : column row ≠ key) :
    (save column rows row).find? (fun other ↦ column other = key) =
      rows.find? (fun other ↦ column other = key) := by
  induction rows with
  | nil => rfl
  | cons head tail ih =>
    unfold save at ih ⊢
    rw [List.map_cons]
    by_cases hhead : column head = column row
    · have hne : column head ≠ key := hhead ▸ h
      rw [if_pos hhead, List.find?_cons_of_neg (by simpa using h),
        List.find?_cons_of_neg (by simpa using hne), ih]
    · rw [if_neg hhead]
      by_cases hkey : column head = key
      · rw [List.find?_cons_of_pos (by simpa using hkey),
          List.find?_cons_of_pos (by simpa using hkey)]
      · rw [List.find?_cons_of_neg (by simpa using hkey),
          List.find?_cons_of_neg (by simpa using hkey), ih]

/-- A lookup of the saved row. -/
theorem find?_save_self {rows : List α} {row before : α}
    (h : rows.find? (fun other ↦ column other = column row) = some before) :
    (save column rows row).find? (fun other ↦ column other = column row) = some row := by
  induction rows with
  | nil => cases h
  | cons head tail ih =>
    unfold save at ih ⊢
    rw [List.map_cons]
    by_cases hhead : column head = column row
    · rw [if_pos hhead, List.find?_cons_of_pos (by simp)]
    · rw [List.find?_cons_of_neg (by simpa using hhead)] at h
      rw [if_neg hhead, List.find?_cons_of_neg (by simpa using hhead), ih h]

/-- The rows after a save are the others and the saved one. -/
theorem mem_save {rows : List α} {row other : α} (h : other ∈ save column rows row) :
    other = row ∨ other ∈ rows ∧ column other ≠ column row := by
  obtain ⟨before, hbefore, rfl⟩ := List.mem_map.mp h
  by_cases heq : column before = column row
  · exact .inl (if_pos heq)
  · rw [if_neg heq]
    exact .inr ⟨hbefore, heq⟩

theorem mem_save_of_ne {rows : List α} {row other : α} (hmem : other ∈ rows)
    (hne : column other ≠ column row) : other ∈ save column rows row :=
  List.mem_map.mpr ⟨other, hmem, if_neg hne⟩

theorem mem_save_self {rows : List α} {row before : α} (hmem : before ∈ rows)
    (hsame : column before = column row) : row ∈ save column rows row :=
  List.mem_map.mpr ⟨before, hmem, if_pos hsame⟩

/-- What relates a row to the one saved over it, and every row to itself, relates the table to the
saved one. -/
theorem forall₂_save {rows : List α} (hunique : (rows.map column).Nodup) {r : α → α → Prop}
    (hrefl : ∀ other, r other other) {row before : α} (hmem : before ∈ rows)
    (hsame : column before = column row) (hrow : r before row) :
    List.Forall₂ r rows (save column rows row) := by
  rw [save, List.forall₂_map_right_iff, List.forall₂_same]
  intro other hother
  split
  · rename_i heq
    rw [List.inj_on_of_nodup_map hunique hother hmem (heq.trans hsame.symm)]
    exact hrow
  · exact hrefl other

/-- A saved row that a query no longer selects leaves its result, and nothing else changes. -/
theorem filter_save {rows : List α} (hunique : (rows.map column).Nodup) {p : α → Bool}
    {row row' : α} {rest : List α} (hrows : rows.filter p = row :: rest)
    (hcolumn : column row' = column row) (hleaves : p row' = false) :
    (save column rows row').filter p = rest := by
  induction rows with
  | nil => simp at hrows
  | cons head tail ih =>
    rw [List.map_cons, List.nodup_cons] at hunique
    by_cases hp : p head = true
    · rw [List.filter_cons_of_pos hp, List.cons.injEq] at hrows
      obtain ⟨rfl, rfl⟩ := hrows
      have htail : save column tail row' = tail := by
        refine save_eq_self fun other hother heq ↦ hunique.1 ?_
        rw [← hcolumn, ← heq]
        exact List.mem_map_of_mem hother
      rw [show save column (head :: tail) row' = row' :: tail by
        simp only [save, List.map_cons, hcolumn, if_pos] at htail ⊢
        rw [htail], List.filter_cons_of_neg (by simp [hleaves])]
    · rw [List.filter_cons_of_neg hp] at hrows
      have hne : column head ≠ column row' := by
        have hmem : row ∈ tail := (List.mem_filter.mp (hrows ▸ List.mem_cons_self)).1
        intro heq
        exact hunique.1 (heq ▸ hcolumn ▸ List.mem_map_of_mem hmem)
      rw [show save column (head :: tail) row' = head :: save column tail row' by
        simp only [save, List.map_cons, if_neg hne], List.filter_cons_of_neg hp]
      exact ih hunique.2 hrows

/-- A selection by something the saved row shares with the row it replaces. -/
theorem filter_save_of_eq {rows : List α} (hunique : (rows.map column).Nodup) {p : α → Bool}
    {row before : α} (hmem : before ∈ rows) (hsame : column row = column before)
    (hp : p row = p before) :
    (save column rows row).filter p = save column (rows.filter p) row := by
  rw [save, List.filter_map, save]
  refine congrArg (List.map _) (List.filter_congr fun other hother ↦ ?_)
  show p (if column other = column row then row else other) = p other
  split
  · rename_i hcolumn
    rw [List.inj_on_of_nodup_map hunique hother hmem (hcolumn.trans hsame)]
    exact hp
  · rfl

/-- A selection that has neither the saved row nor the row it replaces. -/
theorem filter_save_of_false {rows : List α} (hunique : (rows.map column).Nodup) {p : α → Bool}
    {row before : α} (hmem : before ∈ rows) (hsame : column row = column before)
    (hrow : p row = false) (hbefore : p before = false) :
    (save column rows row).filter p = rows.filter p := by
  rw [filter_save_of_eq hunique hmem hsame (hrow.trans hbefore.symm)]
  refine save_eq_self fun other hother hcolumn ↦ ?_
  obtain ⟨hother, hp⟩ := List.mem_filter.mp hother
  rw [List.inj_on_of_nodup_map hunique hother hmem (hcolumn.trans hsame), hbefore] at hp
  cases hp

/-- A query in an order that saving does not change. -/
theorem insertionSort_save {rows : List α} {r : α → α → Prop} [DecidableRel r] {row : α}
    (hkey : ∀ a ∈ rows, column a = column row → ∀ b, (r a b ↔ r row b) ∧ (r b a ↔ r b row)) :
    (save column rows row).insertionSort r = save column (rows.insertionSort r) row := by
  refine (List.map_insertionSort r r _ rows fun a ha b hb ↦ ?_).symm
  split <;> split
  · rename_i ha' hb'
    rw [(hkey a ha ha' b).1, (hkey b hb hb' row).2]
  · rename_i ha' _
    exact (hkey a ha ha' b).1
  · rename_i _ hb'
    exact (hkey b hb hb' a).2
  · exact Iff.rfl

end Save

end Table
