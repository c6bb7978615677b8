import Mathlib.Data.List.Basic
import Mathlib.Data.List.Forall2

/-!
# Patterns — texts in parts of fixed widths

A pattern is a sequence of parts, a part has some alternatives, and an alternative says of every
place which characters may stand there.  Where no alternative of a part continues another, a text is
divided in one way.
-/

namespace Splitbind

namespace Pattern

/-- The characters that may stand in each place. -/
abbrev Shape := List (Char → Bool)

def accepts : Shape → List Char → Bool
  | [], [] => true
  | allowed :: shape, c :: text => allowed c && accepts shape text
  | _, _ => false

/-- The text itself. -/
def spelled (text : String) : Shape := text.toList.map fun c ↦ fun other ↦ other == c

/-- The ways to divide a text into the parts of a pattern. -/
def divisions : List (List Shape) → List Char → List (List (List Char))
  | [], text => if text = [] then [[]] else []
  | shapes :: pattern, text => shapes.flatMap fun shape ↦
    if accepts shape (text.take shape.length) then
      (divisions pattern (text.drop shape.length)).map fun groups ↦
        text.take shape.length :: groups
    else []

/-- `re.fullmatch`, with the parts as its groups. -/
def fullmatch (pattern : List (List Shape)) (text : List Char) : Option (List (List Char)) :=
  (divisions pattern text).head?

/-- The parts are as the pattern has them. -/
def Divides (pattern : List (List Shape)) (groups : List (List Char)) : Prop :=
  List.Forall₂ (fun shapes group ↦ ∃ shape ∈ shapes, accepts shape group = true) pattern groups

theorem length_of_accepts {shape : Shape} {text : List Char} (h : accepts shape text = true) :
    text.length = shape.length := by
  induction shape generalizing text with
  | nil =>
    cases text with
    | nil => rfl
    | cons c text => cases h
  | cons allowed shape ih =>
    cases text with
    | nil => cases h
    | cons c text =>
      rw [accepts, Bool.and_eq_true] at h
      rw [List.length_cons, List.length_cons, ih h.2]

theorem accepts_append {shape shape' : Shape} {text : List Char} :
    accepts (shape ++ shape') text = true ↔
      ∃ left right, text = left ++ right ∧ accepts shape left = true ∧
        accepts shape' right = true := by
  induction shape generalizing text with
  | nil =>
    constructor
    · exact fun h ↦ ⟨[], text, rfl, rfl, h⟩
    · rintro ⟨left, right, rfl, hleft, hright⟩
      -- the empty shape accepts the empty text only
      obtain rfl := List.eq_nil_of_length_eq_zero (length_of_accepts hleft)
      exact hright
  | cons allowed shape ih =>
    cases text with
    | nil =>
      refine iff_of_false (fun h ↦ by cases h) ?_
      rintro ⟨left, right, htext, hleft, -⟩
      have hlength := length_of_accepts hleft
      rw [(List.append_eq_nil_iff.mp htext.symm).1] at hlength
      cases hlength
    | cons c text =>
      rw [List.cons_append, accepts, Bool.and_eq_true, ih]
      constructor
      · rintro ⟨hc, left, right, rfl, hleft, hright⟩
        exact ⟨c :: left, right, rfl, by rw [accepts, hc, hleft]; rfl, hright⟩
      · rintro ⟨left, right, htext, hleft, hright⟩
        cases left with
        | nil => cases hleft
        | cons d left =>
          rw [List.cons_append, List.cons.injEq] at htext
          obtain ⟨rfl, rfl⟩ := htext
          rw [accepts, Bool.and_eq_true] at hleft
          exact ⟨hleft.1, left, right, rfl, hleft.2, hright⟩

theorem accepts_replicate {count : Nat} {allowed : Char → Bool} {text : List Char} :
    accepts (List.replicate count allowed) text = true ↔
      text.length = count ∧ ∀ c ∈ text, allowed c = true := by
  induction count generalizing text with
  | zero =>
    cases text with
    | nil => exact iff_of_true rfl ⟨rfl, fun c hc ↦ absurd hc List.not_mem_nil⟩
    | cons c text => exact iff_of_false (fun h ↦ by cases h) fun h ↦ by cases h.1
  | succ count ih =>
    cases text with
    | nil => exact iff_of_false (fun h ↦ by cases h) fun h ↦ by cases h.1
    | cons c text =>
      rw [List.replicate_succ, accepts, Bool.and_eq_true, ih, List.length_cons,
        List.forall_mem_cons, Nat.succ_inj]
      exact and_left_comm

theorem accepts_spelled {spelling : String} {text : List Char} :
    accepts (spelled spelling) text = true ↔ text = spelling.toList := by
  unfold spelled
  generalize spelling.toList = word
  induction word generalizing text with
  | nil =>
    cases text with
    | nil => exact iff_of_true rfl rfl
    | cons c text => exact iff_of_false (fun h ↦ by cases h) fun h ↦ by cases h
  | cons d word ih =>
    cases text with
    | nil => exact iff_of_false (fun h ↦ by cases h) fun h ↦ by cases h
    | cons c text =>
      rw [List.map_cons, accepts, Bool.and_eq_true, ih, beq_iff_eq, List.cons.injEq]

/-- The divisions of a text are the parts that make it up. -/
theorem mem_divisions {pattern : List (List Shape)} {text : List Char}
    {groups : List (List Char)} :
    groups ∈ divisions pattern text ↔ Divides pattern groups ∧ groups.flatten = text := by
  induction pattern generalizing text groups with
  | nil =>
    rw [divisions, Divides, List.forall₂_nil_left_iff]
    by_cases hempty : text = []
    · rw [if_pos hempty, List.mem_singleton, hempty]
      exact ⟨fun h ↦ ⟨h, by rw [h]; rfl⟩, And.left⟩
    · rw [if_neg hempty]
      refine iff_of_false List.not_mem_nil ?_
      rintro ⟨rfl, htext⟩
      exact hempty htext.symm
  | cons shapes pattern ih =>
    rw [divisions, List.mem_flatMap, Divides, List.forall₂_cons_left_iff]
    constructor
    · rintro ⟨shape, hshape, hmem⟩
      by_cases haccepts : accepts shape (text.take shape.length) = true
      · rw [if_pos haccepts] at hmem
        obtain ⟨rest, hrest, rfl⟩ := List.mem_map.mp hmem
        obtain ⟨hdivides, hflatten⟩ := ih.mp hrest
        refine ⟨⟨_, rest, ⟨shape, hshape, haccepts⟩, hdivides, rfl⟩, ?_⟩
        rw [List.flatten_cons, hflatten, List.take_append_drop]
      · rw [if_neg haccepts] at hmem
        exact absurd hmem List.not_mem_nil
    · rintro ⟨⟨group, rest, ⟨shape, hshape, haccepts⟩, hdivides, rfl⟩, rfl⟩
      -- a group is as long as the shape that accepts it, so that many characters are the group
      have hlength := length_of_accepts haccepts
      refine ⟨shape, hshape, ?_⟩
      rw [List.flatten_cons, ← hlength, List.take_left, List.drop_left, if_pos haccepts]
      exact List.mem_map_of_mem (ih.mpr ⟨hdivides, rfl⟩)

theorem divides_cons {shapes : List Shape} {pattern : List (List Shape)}
    {groups : List (List Char)} :
    Divides (shapes :: pattern) groups ↔ ∃ group rest,
      groups = group :: rest ∧ (∃ shape ∈ shapes, accepts shape group = true) ∧
        Divides pattern rest := by
  rw [Divides, List.forall₂_cons_left_iff]
  constructor
  · rintro ⟨group, rest, hgroup, hrest, hgroups⟩
    exact ⟨group, rest, hgroups, hgroup, hrest⟩
  · rintro ⟨group, rest, hgroups, hgroup, hrest⟩
    exact ⟨group, rest, hgroup, hrest, hgroups⟩

theorem divides_nil {groups : List (List Char)} : Divides [] groups ↔ groups = [] :=
  List.forall₂_nil_left_iff

theorem divides_spelled {spelling : String} {pattern : List (List Shape)}
    {groups : List (List Char)} :
    Divides ([spelled spelling] :: pattern) groups ↔
      ∃ rest, groups = spelling.toList :: rest ∧ Divides pattern rest := by
  simp only [divides_cons, List.mem_singleton, exists_eq_left, accepts_spelled]
  constructor
  · rintro ⟨group, rest, hgroups, hgroup, hrest⟩
    exact ⟨rest, hgroup ▸ hgroups, hrest⟩
  · rintro ⟨rest, hgroups, hrest⟩
    exact ⟨_, rest, hgroups, rfl, hrest⟩

/-- A part whose texts are the spellings of some values. -/
theorem divides_values {α : Type} {shapes : List Shape} (value : α → List Char)
    (hvalues : ∀ group, (∃ shape ∈ shapes, accepts shape group = true) ↔ ∃ a, value a = group)
    {pattern : List (List Shape)} {groups : List (List Char)} :
    Divides (shapes :: pattern) groups ↔
      ∃ a rest, groups = value a :: rest ∧ Divides pattern rest := by
  simp only [divides_cons, hvalues]
  constructor
  · rintro ⟨group, rest, hgroups, ⟨a, ha⟩, hrest⟩
    exact ⟨a, rest, ha ▸ hgroups, hrest⟩
  · rintro ⟨a, rest, hgroups, hrest⟩
    exact ⟨_, rest, hgroups, ⟨a, rfl⟩, hrest⟩

/-- A part that spells one of two values. -/
theorem divides_either {α : Type} (value : α → String) {first second : α}
    (hall : ∀ a, a = first ∨ a = second) {pattern : List (List Shape)} {groups : List (List Char)} :
    Divides ([spelled (value first), spelled (value second)] :: pattern) groups ↔
      ∃ (a : α) (rest : List (List Char)), groups = (value a).toList :: rest ∧
        Divides pattern rest := by
  refine divides_values (fun a ↦ (value a).toList) fun group ↦ ?_
  simp only [List.mem_cons, List.not_mem_nil, or_false, exists_eq_or_imp, exists_eq_left,
    accepts_spelled]
  constructor
  · rintro (hgroup | hgroup)
    · exact ⟨first, hgroup.symm⟩
    · exact ⟨second, hgroup.symm⟩
  · rintro ⟨a, rfl⟩
    rcases hall a with rfl | rfl
    · exact .inl rfl
    · exact .inr rfl

/-- No alternative continues another. -/
def Apart (shapes : List Shape) : Prop :=
  ∀ group group' rest rest' : List Char, (∃ shape ∈ shapes, accepts shape group = true) →
    (∃ shape ∈ shapes, accepts shape group' = true) → group ++ rest = group' ++ rest' →
      group = group'

theorem apart_singleton (shape : Shape) : Apart [shape] := by
  intro group group' rest rest' hgroup hgroup' heq
  simp only [List.mem_singleton, exists_eq_left] at hgroup hgroup'
  exact (List.append_inj heq
    ((length_of_accepts hgroup).trans (length_of_accepts hgroup').symm)).1

/-- Two spellings that differ in a place they both have. -/
theorem apart_spelled {first second : String}
    (hfirst : ¬ first.toList <+: second.toList) (hsecond : ¬ second.toList <+: first.toList) :
    Apart [spelled first, spelled second] := by
  intro group group' rest rest' hgroup hgroup' heq
  simp only [List.mem_cons, List.not_mem_nil, or_false, exists_eq_or_imp, exists_eq_left,
    accepts_spelled] at hgroup hgroup'
  -- of two texts that begin one text, the shorter begins the longer
  have hprefix := List.prefix_or_prefix_of_prefix (List.prefix_append group rest)
    (heq ▸ List.prefix_append group' rest')
  rcases hgroup with rfl | rfl <;> rcases hgroup' with rfl | rfl
  · rfl
  · exact absurd hprefix (not_or.mpr ⟨hfirst, hsecond⟩)
  · exact absurd hprefix (not_or.mpr ⟨hsecond, hfirst⟩)
  · rfl

theorem Divides.unique {pattern : List (List Shape)} {groups groups' : List (List Char)}
    (hapart : ∀ shapes ∈ pattern, Apart shapes) (h : Divides pattern groups)
    (h' : Divides pattern groups') (heq : groups.flatten = groups'.flatten) : groups = groups' := by
  induction pattern generalizing groups groups' with
  | nil =>
    rw [List.forall₂_nil_left_iff.mp h, List.forall₂_nil_left_iff.mp h']
  | cons shapes pattern ih =>
    obtain ⟨group, rest, hgroup, hrest, rfl⟩ := List.forall₂_cons_left_iff.mp h
    obtain ⟨group', rest', hgroup', hrest', rfl⟩ := List.forall₂_cons_left_iff.mp h'
    rw [List.forall_mem_cons] at hapart
    rw [List.flatten_cons, List.flatten_cons] at heq
    -- the first groups are one, so what follows them is one text
    obtain rfl := hapart.1 _ _ _ _ hgroup hgroup' heq
    rw [ih hapart.2 hrest hrest' (List.append_cancel_left heq)]

/-- A match is the one division of the text. -/
theorem fullmatch_eq_some {pattern : List (List Shape)} {text : List Char}
    {groups : List (List Char)} (hapart : ∀ shapes ∈ pattern, Apart shapes) :
    fullmatch pattern text = some groups ↔ Divides pattern groups ∧ groups.flatten = text := by
  rw [fullmatch, ← mem_divisions]
  constructor
  · exact List.mem_of_mem_head?
  · intro hmem
    cases hdivisions : divisions pattern text with
    | nil =>
      rw [hdivisions] at hmem
      exact absurd hmem List.not_mem_nil
    | cons first others =>
      -- the first division is the only one
      have hfirst : first ∈ divisions pattern text := hdivisions ▸ List.mem_cons_self
      obtain ⟨hdivides, hflatten⟩ := mem_divisions.mp hmem
      obtain ⟨hdivides', hflatten'⟩ := mem_divisions.mp hfirst
      rw [List.head?_cons, hdivides'.unique hapart hdivides (hflatten'.trans hflatten.symm)]

end Pattern

end Splitbind
