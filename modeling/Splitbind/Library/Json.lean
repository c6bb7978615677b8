import Mathlib.Data.Rat.Defs
import Splitbind.Library.Table

/-!
# JSON values — trees as a parser returns them, and as a program may build them

An object is the list of its members as they stand, a name once or more often.  A number is a whole
number or a float taken at its exact value; a float without one is written as a constant (`NaN`,
`Infinity`) or as a number too large.
-/

inductive Json
  | null
  | bool (b : Bool)
  | int (i : Int)
  | float (q : ℚ)
  | nonFinite (constant : Bool)
  | text (s : String)
  | array (items : List Json)
  | object (members : List (String × Json))

namespace Json

/-! ## 1. Equality -/

mutual

/-- Whether two trees are the same. -/
def same : Json → Json → Bool
  | .null, .null => true
  | .bool a, .bool b => a = b
  | .int a, .int b => a = b
  | .float a, .float b => a = b
  | .nonFinite a, .nonFinite b => a = b
  | .text a, .text b => a = b
  | .array as, .array bs => sameItems as bs
  | .object as, .object bs => sameMembers as bs
  | _, _ => false

def sameItems : List Json → List Json → Bool
  | [], [] => true
  | a :: as, b :: bs => same a b && sameItems as bs
  | _, _ => false

def sameMembers : List (String × Json) → List (String × Json) → Bool
  | [], [] => true
  | (k, a) :: as, (l, b) :: bs => k = l && same a b && sameMembers as bs
  | _, _ => false

end

mutual

theorem same_iff : ∀ a b : Json, same a b = true ↔ a = b
  | .null, b => by cases b <;> simp [same]
  | .bool a, b => by cases b <;> simp [same]
  | .int a, b => by cases b <;> simp [same]
  | .float a, b => by cases b <;> simp [same]
  | .nonFinite a, b => by cases b <;> simp [same]
  | .text a, b => by cases b <;> simp [same]
  | .array as, b => by cases b <;> simp [same, sameItems_iff as]
  | .object as, b => by cases b <;> simp [same, sameMembers_iff as]

theorem sameItems_iff : ∀ as bs : List Json, sameItems as bs = true ↔ as = bs
  | [], bs => by cases bs <;> simp [sameItems]
  | a :: as, bs => by cases bs <;> simp [sameItems, same_iff a, sameItems_iff as]

theorem sameMembers_iff : ∀ as bs : List (String × Json), sameMembers as bs = true ↔ as = bs
  | [], bs => by cases bs <;> simp [sameMembers]
  | (k, a) :: as, bs => by
    rcases bs with _ | ⟨⟨l, b⟩, bs⟩ <;> simp [sameMembers, same_iff a, sameMembers_iff as]

end

instance : DecidableEq Json := fun a b ↦ decidable_of_iff _ (same_iff a b)

/-! ## 2. Reading -/

/-- The truth value of a tree: null, zero and what is empty count as false. -/
def truthy : Json → Bool
  | .null => false
  | .bool b => b
  | .int i => i ≠ 0
  | .float q => q ≠ 0
  | .nonFinite _ => true
  | .text s => s ≠ ""
  | .array items => !items.isEmpty
  | .object members => !members.isEmpty

mutual

/-- Whether every float of the tree is a number. -/
def finite : Json → Bool
  | .nonFinite _ => false
  | .array items => finiteItems items
  | .object members => finiteMembers members
  | _ => true

def finiteItems : List Json → Bool
  | [] => true
  | item :: items => finite item && finiteItems items

def finiteMembers : List (String × Json) → Bool
  | [] => true
  | (_, value) :: members => finite value && finiteMembers members

/-- Whether no object of the tree names a member twice. -/
def unique : Json → Bool
  | .array items => uniqueItems items
  | .object members => decide (members.map Prod.fst).Nodup && uniqueMembers members
  | _ => true

def uniqueItems : List Json → Bool
  | [] => true
  | item :: items => unique item && uniqueItems items

def uniqueMembers : List (String × Json) → Bool
  | [] => true
  | (_, value) :: members => unique value && uniqueMembers members

end

/-- The members of an object. -/
def members? : Json → Option (List (String × Json))
  | .object members => some members
  | _ => none

def text? : Json → Option String
  | .text s => some s
  | _ => none

theorem text?_eq_some {v : Json} {s : String} : v.text? = some s ↔ v = .text s := by
  cases v <;> simp [text?]

/-- A list read item by item, where an item is read as what is written so. -/
theorem mapM_eq_some_iff {α β : Type} {read : α → Option β} {write : β → α}
    (h : ∀ a b, read a = some b ↔ a = write b) {as : List α} {bs : List β} :
    as.mapM read = some bs ↔ as = bs.map write := by
  induction as generalizing bs with
  | nil => cases bs <;> simp
  | cons a as ih =>
    rw [List.mapM_cons]
    cases bs with
    | nil => simp [Option.bind_eq_some_iff]
    | cons b bs => simp [Option.bind_eq_some_iff, h, ih]

/-- The member of the given name. -/
def get (members : List (String × Json)) (name : String) : Option Json :=
  (members.find? fun member ↦ member.1 = name).map Prod.snd

/-! ## 3. Members -/

theorem get_eq_some_iff {members : List (String × Json)} (hnames : (members.map Prod.fst).Nodup)
    {name : String} {value : Json} : get members name = some value ↔ (name, value) ∈ members := by
  rw [get, Option.map_eq_some_iff]
  constructor
  · rintro ⟨⟨name', value'⟩, hfind, rfl⟩
    have hname : name' = name := by simpa using List.find?_some hfind
    exact hname ▸ List.mem_of_find?_eq_some hfind
  · intro hmem
    exact ⟨(name, value), Table.find?_eq_some hnames hmem (by simp) (by simp), rfl⟩

/-- What is found does not depend on the order of the members. -/
theorem get_perm {members members' : List (String × Json)} (hperm : members'.Perm members)
    (hnames : (members.map Prod.fst).Nodup) (name : String) :
    get members' name = get members name := by
  have hnames' : (members'.map Prod.fst).Nodup := (hperm.map Prod.fst).nodup_iff.mpr hnames
  ext value
  rw [get_eq_some_iff hnames, get_eq_some_iff hnames', hperm.mem_iff]

/-- The members after an assignment to a name, which keeps its place or comes last. -/
def set (name : String) (value : Json) : List (String × Json) → List (String × Json)
  | [] => [(name, value)]
  | member :: members =>
    if member.1 = name then (name, value) :: members else member :: set name value members

theorem mem_map_set {name other : String} {value : Json} {members : List (String × Json)}
    (h : other ∈ (set name value members).map Prod.fst) :
    other = name ∨ other ∈ members.map Prod.fst := by
  induction members with
  | nil => exact .inl (List.mem_singleton.mp h)
  | cons member members ih =>
    rw [set] at h
    split_ifs at h with hname
    · rw [List.map_cons, List.mem_cons] at h
      exact h.imp_right (List.mem_cons_of_mem _)
    · rw [List.map_cons, List.mem_cons] at h
      rcases h with rfl | hmem
      · exact .inr List.mem_cons_self
      · exact (ih hmem).imp_right (List.mem_cons_of_mem _)

/-- An assignment names no member twice. -/
theorem nodup_set {name : String} {value : Json} {members : List (String × Json)}
    (h : (members.map Prod.fst).Nodup) : ((set name value members).map Prod.fst).Nodup := by
  induction members with
  | nil => exact List.nodup_singleton name
  | cons member members ih =>
    obtain ⟨hnotMem, htail⟩ := List.nodup_cons.mp h
    rw [set]
    split_ifs with hname
    · subst hname
      exact List.nodup_cons.mpr ⟨hnotMem, htail⟩
    · refine List.nodup_cons.mpr ⟨fun hmem ↦ ?_, ih htail⟩
      exact (mem_map_set hmem).elim hname hnotMem

theorem uniqueMembers_set {name : String} {value : Json} {members : List (String × Json)}
    (hvalue : unique value = true) (h : uniqueMembers members = true) :
    uniqueMembers (set name value members) = true := by
  induction members with
  | nil => simp [set, uniqueMembers, hvalue]
  | cons member members ih =>
    obtain ⟨other, previous⟩ := member
    simp only [uniqueMembers, Bool.and_eq_true] at h
    rw [set]
    split_ifs
    · simp only [uniqueMembers, hvalue, h.2, Bool.and_self]
    · simp only [uniqueMembers, h.1, ih h.2, Bool.and_self]

theorem unique_of_mem {members : List (String × Json)} (h : uniqueMembers members = true)
    {name : String} {value : Json} (hmem : (name, value) ∈ members) : unique value = true := by
  induction members with
  | nil => cases hmem
  | cons member members ih =>
    obtain ⟨other, first⟩ := member
    simp only [uniqueMembers, Bool.and_eq_true] at h
    rcases List.mem_cons.mp hmem with heq | htail
    · cases heq
      exact h.1
    · exact ih h.2 htail

/-- A member of a tree without repeated names has none. -/
theorem unique_get {members : List (String × Json)} (h : unique (.object members) = true)
    {name : String} {value : Json} (hget : get members name = some value) :
    unique value = true := by
  rw [unique, Bool.and_eq_true, decide_eq_true_iff] at h
  exact unique_of_mem h.2 ((get_eq_some_iff h.1).mp hget)

end Json
