import Mathlib.Data.Bool.AllAny
import Mathlib.Data.List.Sort
import Splitbind.Library.Json

/-!
# JSON text — what a tree is written as, without blanks

Numbers are written in characters that end no value, so a text is read back from its front: two
trees with one text are the same tree.  The canonical text names the members of every object in
order, so trees with one canonical text differ at most in the order of their members.
-/

namespace JsonText

/-! ## 1. Writing -/

/-- The characters of numbers. -/
def isNumeral (c : Char) : Bool := c.isDigit || ['-', '+', '.', 'e'].contains c

/-- How floats are written: each in its own way, in the characters of numbers, and never like a
whole number. -/
structure FloatText where
  repr : ℚ → List Char
  injective : Function.Injective repr
  numeral : ∀ q, ∀ c ∈ repr q, isNumeral c = true
  marked : ∀ q, ∃ c ∈ repr q, c = '.' ∨ c = 'e'

def intText (i : Int) : List Char :=
  if i < 0 then '-' :: Nat.toDigits 10 i.natAbs else Nat.toDigits 10 i.natAbs

/-- How a control character is written: with a letter of its own, or by its number. -/
def escapeControl (n : Nat) : List Char :=
  if n = 0x08 then ['b']
  else if n = 0x09 then ['t']
  else if n = 0x0a then ['n']
  else if n = 0x0c then ['f']
  else if n = 0x0d then ['r']
  else ['u', '0', '0', Nat.digitChar (n / 16), Nat.digitChar (n % 16)]

def escape (c : Char) : List Char :=
  if c.toNat = 0x22 then ['\\', '"']
  else if c.toNat = 0x5c then ['\\', '\\']
  else if c.toNat < 0x20 then '\\' :: escapeControl c.toNat
  else [c]

def quote (s : List Char) : List Char := '"' :: (s.flatMap escape ++ ['"'])

section Writing

variable (floats : FloatText)

mutual

def text : Json → List Char
  | .null => ['n', 'u', 'l', 'l']
  | .bool true => ['t', 'r', 'u', 'e']
  | .bool false => ['f', 'a', 'l', 's', 'e']
  | .int i => intText i
  | .float q => floats.repr q
  | .nonFinite true => ['N', 'a', 'N']
  | .nonFinite false => ['I', 'n', 'f', 'i', 'n', 'i', 't', 'y']
  | .text s => quote s.toList
  | .array items => '[' :: (textItems false items ++ [']'])
  | .object members => '\x7b' :: (textMembers false members ++ ['\x7d'])

/-- The items, each behind a comma but for a first one. -/
def textItems (more : Bool) : List Json → List Char
  | [] => []
  | v :: vs => (if more then [','] else []) ++ (text v ++ textItems true vs)

def textMembers (more : Bool) : List (String × Json) → List Char
  | [] => []
  | (name, v) :: members =>
    (if more then [','] else []) ++
      (quote name.toList ++ ':' :: (text v ++ textMembers true members))

end

end Writing

/-- The order of names: by the numbers of their characters. -/
def nameLe (a b : String × Json) : Bool :=
  !b.1.toList.lex a.1.toList fun c d ↦ c.toNat < d.toNat

mutual

/-- The tree with the members of every object in the order of their names. -/
def sorted : Json → Json
  | .array items => .array (sortedItems items)
  | .object members =>
    .object ((sortedMembers members).insertionSort fun a b ↦ nameLe a b = true)
  | v => v

def sortedItems : List Json → List Json
  | [] => []
  | v :: vs => sorted v :: sortedItems vs

def sortedMembers : List (String × Json) → List (String × Json)
  | [] => []
  | (name, v) :: members => (name, sorted v) :: sortedMembers members

end

/-- `json.dumps(v, sort_keys=True, separators=(",", ":"), ensure_ascii=False)`. -/
def canonical (floats : FloatText) (v : Json) : List Char := text floats (sorted v)

/-! ## 2. Numbers -/

/-- What follows a value. -/
def Ended (rest : List Char) : Prop := ∀ c ∈ rest.head?, c = ',' ∨ c = ']' ∨ c = '\x7d'

theorem not_isNumeral_of_ended {rest : List Char} (h : Ended rest) :
    ∀ c ∈ rest.head?, isNumeral c = false := by
  intro c hc
  rcases h c hc with rfl | rfl | rfl <;> decide

theorem takeWhile_isNumeral {digits rest : List Char} (hdigits : ∀ c ∈ digits, isNumeral c = true)
    (hrest : Ended rest) : (digits ++ rest).takeWhile isNumeral = digits := by
  rw [List.takeWhile_append_of_pos hdigits]
  cases rest with
  | nil => rw [List.takeWhile_nil, List.append_nil]
  | cons c rest =>
    rw [List.takeWhile_cons_of_neg, List.append_nil]
    rw [not_isNumeral_of_ended hrest c rfl]
    exact Bool.false_ne_true

/-- The characters of a number are read up to its end. -/
theorem numeral_append_inj {digits digits' rest rest' : List Char}
    (hdigits : ∀ c ∈ digits, isNumeral c = true) (hdigits' : ∀ c ∈ digits', isNumeral c = true)
    (hrest : Ended rest) (hrest' : Ended rest') (h : digits ++ rest = digits' ++ rest') :
    digits = digits' ∧ rest = rest' := by
  have heq : digits = digits' := by
    rw [← takeWhile_isNumeral hdigits hrest, h, takeWhile_isNumeral hdigits' hrest']
  subst heq
  exact ⟨rfl, List.append_cancel_left h⟩

theorem isDigit_of_mem_toDigits {n : Nat} {c : Char} (hc : c ∈ Nat.toDigits 10 n) :
    c.isDigit = true :=
  Nat.isDigit_of_mem_toDigits (by decide) (by decide) hc

/-- A whole number is written in digits behind at most a sign. -/
theorem mem_intText {i : Int} {c : Char} (hc : c ∈ intText i) : c.isDigit = true ∨ c = '-' := by
  rw [intText] at hc
  split_ifs at hc
  · rcases List.mem_cons.mp hc with hsign | hdigit
    · exact .inr hsign
    · exact .inl (isDigit_of_mem_toDigits hdigit)
  · exact .inl (isDigit_of_mem_toDigits hc)

theorem isNumeral_intText {i : Int} : ∀ c ∈ intText i, isNumeral c = true := by
  intro c hc
  rcases mem_intText hc with hdigit | rfl
  · rw [isNumeral, hdigit, Bool.true_or]
  · decide

theorem toDigits_inj {m n : Nat} (h : Nat.toDigits 10 m = Nat.toDigits 10 n) : m = n := by
  rw [← Nat.ofDigitChars_ten_toDigits (n := m), h, Nat.ofDigitChars_ten_toDigits]

theorem intText_inj {i j : Int} (h : intText i = intText j) : i = j := by
  -- a sign is no digit, so the signs agree before the digits are compared
  have hsign : ∀ n : Nat, '-' ∉ Nat.toDigits 10 n := by
    intro n hmem
    exact absurd (isDigit_of_mem_toDigits hmem) (by decide)
  rw [intText, intText] at h
  split_ifs at h with hi hj hj
  · have habs := toDigits_inj (List.cons.inj h).2
    omega
  · exact absurd (h ▸ List.mem_cons_self) (hsign _)
  · exact absurd (h ▸ List.mem_cons_self) (hsign _)
  · have habs := toDigits_inj h
    omega

theorem intText_ne_repr (floats : FloatText) (i : Int) (q : ℚ) : intText i ≠ floats.repr q := by
  intro h
  obtain ⟨c, hc, hmark⟩ := floats.marked q
  rw [← h] at hc
  rcases mem_intText hc with hdigit | rfl
  · rcases hmark with rfl | rfl <;> exact absurd hdigit (by decide)
  · exact absurd hmark (by decide)

/-! ## 3. Texts in quotes -/

/-- The characters that are not written as they are. -/
def escaped : List Char := (List.range 0x20).map Char.ofNat ++ ['"', '\\']

theorem mem_escaped {c : Char} (h : c.toNat = 0x22 ∨ c.toNat = 0x5c ∨ c.toNat < 0x20) :
    c ∈ escaped := by
  rcases h with hquote | hslash | hcontrol
  · rw [← Char.ofNat_toNat c, hquote]
    decide
  · rw [← Char.ofNat_toNat c, hslash]
    decide
  · exact List.mem_append_left _
      (List.mem_map.mpr ⟨c.toNat, List.mem_range.mpr hcontrol, Char.ofNat_toNat c⟩)

theorem escape_of_notMem {c : Char} (h : c ∉ escaped) : escape c = [c] := by
  have hquote : c.toNat ≠ 0x22 := fun heq ↦ h (mem_escaped (.inl heq))
  have hslash : c.toNat ≠ 0x5c := fun heq ↦ h (mem_escaped (.inr (.inl heq)))
  have hcontrol : ¬ c.toNat < 0x20 := fun hlt ↦ h (mem_escaped (.inr (.inr hlt)))
  rw [escape, if_neg hquote, if_neg hslash, if_neg hcontrol]

theorem escape_front {c : Char} (h : c ∈ escaped) : ∃ rest, escape c = '\\' :: rest := by
  have hfront : ∀ c ∈ escaped, (escape c).head? = some '\\' :=
    List.all_iff_forall_prop.mp (by decide +kernel)
  exact List.head?_eq_some_iff.mp (hfront c h)

/-- No escape begins with another one. -/
theorem escape_separate {c d : Char} (hc : c ∈ escaped) (hd : d ∈ escaped)
    (h : escape c <+: escape d) : c = d := by
  -- a finite table: no entry of it is a prefix of another
  have hall : (escaped.all fun c ↦ escaped.all fun d ↦
      !(escape c).isPrefixOf (escape d) || c == d) = true := by decide +kernel
  have hpair := List.all_eq_true.mp (List.all_eq_true.mp hall c hc) d hd
  rw [List.isPrefixOf_iff_prefix.mpr h, Bool.not_true, Bool.false_or] at hpair
  exact eq_of_beq hpair

theorem escape_append_inj {c d : Char} {rest rest' : List Char}
    (h : escape c ++ rest = escape d ++ rest') : c = d ∧ rest = rest' := by
  -- the front is a backslash just when the character is one of the escaped ones
  by_cases hc : c ∈ escaped
  · by_cases hd : d ∈ escaped
    · have heq : c = d := by
        rcases List.prefix_or_prefix_of_prefix (List.prefix_append (escape c) rest)
          (h ▸ List.prefix_append (escape d) rest') with hfront | hfront
        · exact escape_separate hc hd hfront
        · exact (escape_separate hd hc hfront).symm
      subst heq
      exact ⟨rfl, List.append_cancel_left h⟩
    · obtain ⟨code, hcode⟩ := escape_front hc
      rw [hcode, escape_of_notMem hd] at h
      exact absurd ((List.cons.inj h).1 ▸ (by decide : '\\' ∈ escaped)) hd
  · by_cases hd : d ∈ escaped
    · obtain ⟨code, hcode⟩ := escape_front hd
      rw [hcode, escape_of_notMem hc] at h
      exact absurd ((List.cons.inj h).1 ▸ (by decide : '\\' ∈ escaped)) hc
    · rw [escape_of_notMem hc, escape_of_notMem hd] at h
      exact List.cons.inj h

theorem escape_append_ne {c : Char} {rest rest' : List Char} : escape c ++ rest ≠ '"' :: rest' := by
  intro h
  by_cases hc : c ∈ escaped
  · obtain ⟨code, hcode⟩ := escape_front hc
    rw [hcode] at h
    exact absurd (List.cons.inj h).1 (by decide)
  · rw [escape_of_notMem hc] at h
    exact hc ((List.cons.inj h).1 ▸ (by decide : '"' ∈ escaped))

/-- A text is read up to its closing quote. -/
theorem quote_append_inj {s t rest rest' : List Char} (h : quote s ++ rest = quote t ++ rest') :
    s = t ∧ rest = rest' := by
  -- on the characters before the closing quote, which no escape begins with
  have hbody : ∀ s t : List Char,
      s.flatMap escape ++ '"' :: rest = t.flatMap escape ++ '"' :: rest' →
        s = t ∧ rest = rest' := by
    intro s
    induction s with
    | nil =>
      intro t h
      cases t with
      | nil => exact ⟨rfl, (List.cons.inj h).2⟩
      | cons d t =>
        rw [List.flatMap_cons, List.append_assoc] at h
        exact absurd h.symm escape_append_ne
    | cons c s ih =>
      intro t h
      cases t with
      | nil =>
        rw [List.flatMap_cons, List.append_assoc] at h
        exact absurd h escape_append_ne
      | cons d t =>
        rw [List.flatMap_cons, List.flatMap_cons, List.append_assoc, List.append_assoc] at h
        obtain ⟨rfl, htail⟩ := escape_append_inj h
        obtain ⟨rfl, hrest⟩ := ih t htail
        exact ⟨rfl, hrest⟩
  rw [quote, quote, List.cons_append, List.cons_append, List.append_assoc, List.append_assoc] at h
  exact hbody s t (List.cons.inj h).2

/-! ## 4. Trees -/

/-- What the first character tells about a value. -/
inductive Kind
  | null
  | bool
  | number
  | nonFinite
  | text
  | array
  | object
  | none
deriving DecidableEq

def kindOfChar (c : Char) : Kind :=
  if c = 'n' then .null
  else if c = 't' ∨ c = 'f' then .bool
  else if isNumeral c then .number
  else if c = 'N' ∨ c = 'I' then .nonFinite
  else if c = '"' then .text
  else if c = '[' then .array
  else if c = '\x7b' then .object
  else .none

def kind : Json → Kind
  | .null => .null
  | .bool _ => .bool
  | .int _ => .number
  | .float _ => .number
  | .nonFinite _ => .nonFinite
  | .text _ => .text
  | .array _ => .array
  | .object _ => .object

theorem kindOfChar_numeral {c : Char} (h : isNumeral c = true) : kindOfChar c = .number := by
  have hne : ∀ d, isNumeral d = false → c ≠ d := by
    rintro d hd rfl
    exact Bool.false_ne_true (hd.symm.trans h)
  rw [kindOfChar, if_neg (hne _ (by decide)), if_neg (not_or.mpr ⟨hne _ (by decide),
    hne _ (by decide)⟩), if_pos h]

section Trees

variable {floats : FloatText}

theorem numeral_front {digits : List Char} (hne : digits ≠ [])
    (hdigits : ∀ c ∈ digits, isNumeral c = true) :
    ∃ c rest, digits = c :: rest ∧ kindOfChar c = .number := by
  obtain ⟨c, rest, rfl⟩ := List.exists_cons_of_ne_nil hne
  exact ⟨c, rest, rfl, kindOfChar_numeral (hdigits c List.mem_cons_self)⟩

theorem intText_ne_nil (i : Int) : intText i ≠ [] := by
  rw [intText]
  split_ifs
  · exact List.cons_ne_nil _ _
  · exact Nat.toDigits_ne_nil

theorem repr_ne_nil (floats : FloatText) (q : ℚ) : floats.repr q ≠ [] := by
  obtain ⟨c, hc, -⟩ := floats.marked q
  exact List.ne_nil_of_mem hc

/-- The first character tells the kind of a value. -/
theorem text_front (floats : FloatText) (v : Json) :
    ∃ c rest, text floats v = c :: rest ∧ kindOfChar c = kind v := by
  cases v with
  | int i => exact numeral_front (intText_ne_nil i) isNumeral_intText
  | float q => exact numeral_front (repr_ne_nil floats q) (floats.numeral q)
  | bool b => cases b <;> exact ⟨_, _, rfl, rfl⟩
  | nonFinite constant => cases constant <;> exact ⟨_, _, rfl, rfl⟩
  | null | text _ | array _ | object _ => exact ⟨_, _, rfl, rfl⟩

theorem kind_eq {v w : Json} {rest rest' : List Char}
    (h : text floats v ++ rest = text floats w ++ rest') : kind v = kind w := by
  obtain ⟨c, tail, hv, hc⟩ := text_front floats v
  obtain ⟨d, tail', hw, hd⟩ := text_front floats w
  rw [hv, hw] at h
  rw [← hc, ← hd, (List.cons.inj h).1]

/-- No value begins with a character that ends one. -/
theorem text_append_ne {v : Json} {c : Char} {rest rest' : List Char}
    (hc : kindOfChar c = .none) : text floats v ++ rest ≠ c :: rest' := by
  intro h
  obtain ⟨d, tail, hv, hd⟩ := text_front floats v
  rw [hv] at h
  rw [← (List.cons.inj h).1, hd] at hc
  cases v <;> cases hc

theorem ended_textItems (items : List Json) (rest : List Char) :
    Ended (textItems floats true items ++ ']' :: rest) := by
  intro c hc
  cases items with
  | nil => exact .inr (.inl (Option.some.inj hc).symm)
  | cons v vs => exact .inl (Option.some.inj hc).symm

theorem ended_textMembers (members : List (String × Json)) (rest : List Char) :
    Ended (textMembers floats true members ++ '\x7d' :: rest) := by
  intro c hc
  cases members with
  | nil => exact .inr (.inr (Option.some.inj hc).symm)
  | cons member members => exact .inl (Option.some.inj hc).symm

/-- A list that goes on does not begin as one that ends. -/
theorem textItems_cons_ne {more : Bool} {v : Json} {vs : List Json} {rest rest' : List Char} :
    textItems floats more (v :: vs) ++ rest ≠ ']' :: rest' := by
  cases more with
  | true => exact fun h ↦ absurd (List.cons.inj h).1 (by decide)
  | false =>
    rw [textItems, List.append_assoc, List.append_assoc]
    exact text_append_ne rfl

theorem textMembers_cons_ne {more : Bool} {member : String × Json}
    {members : List (String × Json)} {rest rest' : List Char} :
    textMembers floats more (member :: members) ++ rest ≠ '\x7d' :: rest' := by
  cases more <;> exact fun h ↦ absurd (List.cons.inj h).1 (by decide)

/-- Two words that differ at once are told apart. -/
theorem word_append_inj (word : Bool → List Char) {b b' : Bool} {rest rest' : List Char}
    (hapart : (word true).head? ≠ (word false).head?) (hne : ∀ b, word b ≠ [])
    (h : word b ++ rest = word b' ++ rest') : b = b' ∧ rest = rest' := by
  have hheads : (word b).head? = (word b').head? := by
    rw [← List.head?_append_of_ne_nil _ (hne b), h, List.head?_append_of_ne_nil _ (hne b')]
  cases b <;> cases b'
  · exact ⟨rfl, List.append_cancel_left h⟩
  · exact absurd hheads.symm hapart
  · exact absurd hheads hapart
  · exact ⟨rfl, List.append_cancel_left h⟩

theorem boolText_append_inj {b b' : Bool} {rest rest' : List Char}
    (h : text floats (.bool b) ++ rest = text floats (.bool b') ++ rest') :
    b = b' ∧ rest = rest' := by
  refine word_append_inj (fun b ↦ text floats (.bool b)) ?_ (fun b ↦ ?_) h
  · exact fun heq ↦ absurd (Option.some.inj heq) (by decide)
  · cases b <;> exact List.cons_ne_nil _ _

theorem nonFiniteText_append_inj {b b' : Bool} {rest rest' : List Char}
    (h : text floats (.nonFinite b) ++ rest = text floats (.nonFinite b') ++ rest') :
    b = b' ∧ rest = rest' := by
  refine word_append_inj (fun b ↦ text floats (.nonFinite b)) ?_ (fun b ↦ ?_) h
  · exact fun heq ↦ absurd (Option.some.inj heq) (by decide)
  · cases b <;> exact List.cons_ne_nil _ _

mutual

/-- **A text is read back from its front.** -/
theorem text_append_inj (v w : Json) {rest rest' : List Char} (hrest : Ended rest)
    (hrest' : Ended rest') (h : text floats v ++ rest = text floats w ++ rest') :
    v = w ∧ rest = rest' := by
  -- the first character settles the kind; what is left is one kind on both sides
  have hkind := kind_eq h
  cases v with
  | null =>
    cases w <;> cases hkind
    exact ⟨rfl, List.append_cancel_left h⟩
  | bool b =>
    cases w <;> cases hkind
    obtain ⟨rfl, htail⟩ := boolText_append_inj h
    exact ⟨rfl, htail⟩
  | nonFinite constant =>
    cases w <;> cases hkind
    obtain ⟨rfl, htail⟩ := nonFiniteText_append_inj h
    exact ⟨rfl, htail⟩
  | int i =>
    cases w with
    | int j =>
      obtain ⟨hdigits, htail⟩ :=
        numeral_append_inj isNumeral_intText isNumeral_intText hrest hrest' h
      exact ⟨congrArg Json.int (intText_inj hdigits), htail⟩
    | float q =>
      obtain ⟨hdigits, -⟩ := numeral_append_inj isNumeral_intText (floats.numeral q) hrest hrest' h
      exact absurd hdigits (intText_ne_repr floats i q)
    | null | bool _ | nonFinite _ | text _ | array _ | object _ => cases hkind
  | float q =>
    cases w with
    | int j =>
      obtain ⟨hdigits, -⟩ := numeral_append_inj (floats.numeral q) isNumeral_intText hrest hrest' h
      exact absurd hdigits.symm (intText_ne_repr floats j q)
    | float p =>
      obtain ⟨hdigits, htail⟩ :=
        numeral_append_inj (floats.numeral q) (floats.numeral p) hrest hrest' h
      exact ⟨congrArg Json.float (floats.injective hdigits), htail⟩
    | null | bool _ | nonFinite _ | text _ | array _ | object _ => cases hkind
  | text s =>
    cases w <;> cases hkind
    obtain ⟨hchars, htail⟩ := quote_append_inj h
    exact ⟨congrArg Json.text (String.toList_inj.mp hchars), htail⟩
  | array items =>
    cases w <;> cases hkind
    simp only [text, List.cons_append, List.append_assoc, List.nil_append] at h
    obtain ⟨rfl, hrest⟩ := textItems_append_inj false items _ (List.cons.inj h).2
    exact ⟨rfl, hrest⟩
  | object members =>
    cases w <;> cases hkind
    simp only [text, List.cons_append, List.append_assoc, List.nil_append] at h
    obtain ⟨rfl, hrest⟩ := textMembers_append_inj false members _ (List.cons.inj h).2
    exact ⟨rfl, hrest⟩

theorem textItems_append_inj (more : Bool) (vs ws : List Json) {rest rest' : List Char}
    (h : textItems floats more vs ++ ']' :: rest = textItems floats more ws ++ ']' :: rest') :
    vs = ws ∧ rest = rest' := by
  cases vs with
  | nil =>
    cases ws with
    | nil => exact ⟨rfl, (List.cons.inj h).2⟩
    | cons w ws => exact absurd h.symm textItems_cons_ne
  | cons v vs =>
    cases ws with
    | nil => exact absurd h textItems_cons_ne
    | cons w ws =>
      simp only [textItems, List.append_assoc] at h
      -- the item is read back first, then the rest behind a comma
      obtain ⟨rfl, htail⟩ := text_append_inj v w (ended_textItems vs rest)
        (ended_textItems ws rest') (List.append_cancel_left h)
      obtain ⟨rfl, hrest⟩ := textItems_append_inj true vs ws htail
      exact ⟨rfl, hrest⟩

theorem textMembers_append_inj (more : Bool) (vs ws : List (String × Json)) {rest rest' : List Char}
    (h : textMembers floats more vs ++ '\x7d' :: rest =
      textMembers floats more ws ++ '\x7d' :: rest') : vs = ws ∧ rest = rest' := by
  cases vs with
  | nil =>
    cases ws with
    | nil => exact ⟨rfl, (List.cons.inj h).2⟩
    | cons w ws => exact absurd h.symm textMembers_cons_ne
  | cons v vs =>
    cases ws with
    | nil => exact absurd h textMembers_cons_ne
    | cons w ws =>
      obtain ⟨name, v⟩ := v
      obtain ⟨name', w⟩ := w
      simp only [textMembers, List.append_assoc, List.cons_append] at h
      obtain ⟨hname, hvalue⟩ := quote_append_inj (List.append_cancel_left h)
      obtain rfl := String.toList_inj.mp hname
      obtain ⟨rfl, htail⟩ := text_append_inj v w (ended_textMembers vs rest)
        (ended_textMembers ws rest') (List.cons.inj hvalue).2
      obtain ⟨rfl, hrest⟩ := textMembers_append_inj true vs ws htail
      exact ⟨rfl, hrest⟩

end

/-- Trees with one canonical text are the same once their members are in order. -/
theorem sorted_eq_of_canonical_eq {v w : Json} (h : canonical floats v = canonical floats w) :
    sorted v = sorted w := by
  have hended : Ended [] := fun c hc ↦ nomatch hc
  have htext : text floats (sorted v) ++ [] = text floats (sorted w) ++ [] := by
    rw [List.append_nil, List.append_nil]
    exact h
  exact (text_append_inj _ _ hended hended htext).1

end Trees

/-! ## 5. Members in order -/

theorem sortedItems_eq_map (items : List Json) : sortedItems items = items.map sorted := by
  induction items with
  | nil => rfl
  | cons v vs ih => rw [sortedItems, ih, List.map_cons]

theorem sortedMembers_eq_map (members : List (String × Json)) :
    sortedMembers members = members.map fun member ↦ (member.1, sorted member.2) := by
  induction members with
  | nil => rfl
  | cons member members ih =>
    obtain ⟨name, v⟩ := member
    rw [sortedMembers, ih, List.map_cons]

theorem exists_sorted_object (members : List (String × Json)) :
    ∃ ordered, sorted (.object members) = .object ordered ∧
      ordered.Perm (members.map fun member ↦ (member.1, sorted member.2)) := by
  refine ⟨_, by rw [sorted], ?_⟩
  rw [sortedMembers_eq_map]
  exact List.perm_insertionSort _ _

/-- What is found in an object whose members are put in order. -/
theorem get_sorted {members ordered : List (String × Json)}
    (hnames : (members.map Prod.fst).Nodup) (h : sorted (.object members) = .object ordered)
    (name : String) : Json.get ordered name = (Json.get members name).map sorted := by
  obtain ⟨ordered', heq, hperm⟩ := exists_sorted_object members
  obtain rfl : ordered' = ordered := Json.object.inj (heq.symm.trans h)
  -- the names stay what they are, so they stay distinct
  have hmap : ((members.map fun member ↦ (member.1, sorted member.2)).map Prod.fst) =
      members.map Prod.fst := by
    rw [List.map_map]
    rfl
  rw [Json.get_perm hperm (by rw [hmap]; exact hnames), Json.get, Json.get, List.find?_map,
    Option.map_map, Option.map_map]
  rfl

/-- Objects that are the same in order have the same members, up to an order within them. -/
theorem map_sorted_get_eq {members members' : List (String × Json)}
    (hnames : (members.map Prod.fst).Nodup) (hnames' : (members'.map Prod.fst).Nodup)
    (h : sorted (.object members) = sorted (.object members')) (name : String) :
    (Json.get members name).map sorted = (Json.get members' name).map sorted := by
  obtain ⟨ordered, heq, -⟩ := exists_sorted_object members
  rw [← get_sorted hnames heq, ← get_sorted hnames' (h.symm.trans heq)]

theorem sorted_eq_int {v : Json} {i : Int} (h : sorted v = .int i) : v = .int i := by
  cases v <;> first | exact h | cases h

theorem sorted_eq_ints {v : Json} {is : List Int} (h : sorted v = .array (is.map .int)) :
    v = .array (is.map .int) := by
  cases v with
  | array items =>
    rw [sorted, Json.array.injEq, sortedItems_eq_map] at h
    -- item by item: whole numbers have nothing in them to be put in order
    refine congrArg Json.array (List.ext_getElem? fun k ↦ ?_)
    have hk := congrArg (·[k]?) h
    simp only [List.getElem?_map] at hk ⊢
    cases hitem : items[k]? with
    | none => rwa [hitem] at hk
    | some item =>
      rw [hitem] at hk
      cases hi : is[k]? with
      | none => rw [hi] at hk; cases hk
      | some i =>
        rw [hi] at hk
        exact congrArg some (sorted_eq_int (Option.some.inj hk))
  | object members => cases h
  | _ => exact h

end JsonText
