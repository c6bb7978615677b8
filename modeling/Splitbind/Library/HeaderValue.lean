import Mathlib.Data.List.TakeWhile
import Mathlib.Tactic.IntervalCases

/-!
# Header values — a type and its parameters, and percent-encoded octets

`parse` reads a token and then parameters, each a name and a token or a quoted string in which a
backslash quotes the next character.  Octets outside a set are written as a percent sign and two
upper-case hexadecimal digits.
-/

namespace HeaderValue

/-! ## 1. The parser -/

def isToken (c : Char) : Bool := c.isAlphanum || "!#$%&'*+-.^_`|~".toList.contains c

/-- The rest of a quoted string whose opening quote has been read, and what follows it. -/
def readQuoted : List Char → Option (List Char × List Char)
  | [] => none
  | '"' :: rest => some ([], rest)
  | '\\' :: c :: rest => (readQuoted rest).map fun (value, rest) ↦ (c :: value, rest)
  | c :: rest => (readQuoted rest).map fun (value, rest) ↦ (c :: value, rest)

def readValue : List Char → Option (List Char × List Char)
  | '"' :: rest => readQuoted rest
  | s => if s.takeWhile isToken = [] then none else some (s.takeWhile isToken, s.dropWhile isToken)

/-- Parameters up to the end; every one consumes a character of the fuel at least. -/
def readParameters : Nat → List Char → Option (List (List Char × List Char))
  | _, [] => some []
  | fuel + 1, ';' :: rest =>
    let rest := rest.dropWhile (· = ' ')
    match rest.dropWhile isToken with
    | '=' :: value => do
      let (value, remaining) ← readValue value
      let parameters ← readParameters fuel remaining
      return (rest.takeWhile isToken, value) :: parameters
    | _ => none
  | _, _ => none

def parse (s : List Char) : Option (List Char × List (List Char × List Char)) := do
  let parameters ← readParameters s.length (s.dropWhile isToken)
  return (s.takeWhile isToken, parameters)

/-! ## 2. Reading what was written -/

/-- Neither a blank nor a control character. -/
theorem lt_of_isToken {c : Char} (h : isToken c = true) : 32 < c.toNat := by
  rw [isToken, Bool.or_eq_true, List.contains_eq_mem, decide_eq_true_eq] at h
  rcases h with h | h
  · have hclass : ((c.isUpper || c.isLower) || c.isDigit) = true := h
    rw [Bool.or_eq_true, Bool.or_eq_true] at hclass
    -- the first character of each class
    rcases hclass with (hupper | hlower) | hdigit
    · have hlow : 'A'.val ≤ c.val ∧ c.val ≤ 'Z'.val := of_decide_eq_true hupper
      exact lt_of_lt_of_le (by decide) (UInt32.le_iff_toNat_le.mp hlow.1)
    · have hlow : (decide ('a'.val ≤ c.val) && decide (c.val ≤ 'z'.val)) = true := hlower
      rw [Bool.and_eq_true, decide_eq_true_eq, UInt32.le_iff_toNat_le] at hlow
      exact lt_of_lt_of_le (by decide) hlow.1
    · exact lt_of_lt_of_le (by decide) (Char.isDigit_iff_toNat.mp hdigit).1
  · have hall : "!#$%&'*+-.^_`|~".toList.all (fun c ↦ 32 < c.toNat) = true := by decide +kernel
    exact of_decide_eq_true (List.all_eq_true.mp hall c h)

theorem readQuoted_append {value : List Char} (hvalue : ∀ c ∈ value, c ≠ '"' ∧ c ≠ '\\')
    (rest : List Char) : readQuoted (value ++ '"' :: rest) = some (value, rest) := by
  induction value with
  | nil => rfl
  | cons c value ih =>
    obtain ⟨hquote, hbackslash⟩ := hvalue c List.mem_cons_self
    have hrest := ih fun d hd ↦ hvalue d (List.mem_cons_of_mem _ hd)
    rw [List.cons_append, readQuoted.eq_4 _ _ (fun h ↦ hquote h) (fun _ _ h ↦ absurd h hbackslash), hrest]
    rfl

/-- A stretch of tokens, up to a character that is none. -/
theorem span_token {name : List Char} (rest : List Char) (hname : ∀ c ∈ name, isToken c = true)
    (hrest : ∀ c, rest.head? = some c → isToken c = false) :
    (name ++ rest).takeWhile isToken = name ∧ (name ++ rest).dropWhile isToken = rest := by
  rw [List.takeWhile_append_of_pos hname, List.dropWhile_append_of_pos hname]
  cases rest with
  | nil => exact ⟨List.append_nil name, rfl⟩
  | cons c rest =>
    have hc : ¬ isToken c = true := by
      rw [hrest c rfl]
      decide
    rw [List.takeWhile_cons_of_neg hc, List.dropWhile_cons_of_neg hc, List.append_nil]
    exact ⟨rfl, rfl⟩

/-- A name of tokens does not start with a blank. -/
theorem dropWhile_blank {name : List Char} (hname : ∀ c ∈ name, isToken c = true) (hne : name ≠ [])
    (rest : List Char) : (' ' :: name ++ rest).dropWhile (· = ' ') = name ++ rest := by
  cases name with
  | nil => exact absurd rfl hne
  | cons c name =>
    have hc : ¬ (decide (c = ' ') = true) := by
      intro h
      have htoken := hname c List.mem_cons_self
      rw [of_decide_eq_true h] at htoken
      exact absurd htoken (by decide)
    rw [List.cons_append, List.dropWhile_cons_of_pos (by rfl), List.cons_append,
      List.dropWhile_cons_of_neg (p := fun d ↦ decide (d = ' ')) hc]

theorem readParameters_cons {name value : List Char} (hname : ∀ c ∈ name, isToken c = true)
    (hne : name ≠ []) (fuel : Nat) {text remaining : List Char}
    (hvalue : readValue text = some (value, remaining)) :
    readParameters (fuel + 1) (';' :: ' ' :: name ++ '=' :: text) =
      (readParameters fuel remaining).map fun parameters ↦ (name, value) :: parameters := by
  obtain ⟨htake, hdrop⟩ := span_token ('=' :: text) hname (by
    intro c hc
    cases hc
    rfl)
  have hblank := dropWhile_blank hname hne ('=' :: text)
  show (match ((' ' :: name ++ '=' :: text).dropWhile (· = ' ')).dropWhile isToken with
    | '=' :: value => do
      let (value, remaining) ← readValue value
      let parameters ← readParameters fuel remaining
      return (((' ' :: name ++ '=' :: text).dropWhile (· = ' ')).takeWhile isToken, value) :: parameters
    | _ => none) = _
  rw [hblank, hdrop, htake]
  show (readValue text >>= fun read ↦ readParameters fuel read.2 >>= fun parameters ↦
    some ((name, read.1) :: parameters)) = _
  rw [hvalue]
  show (readParameters fuel remaining >>= fun parameters ↦ some ((name, value) :: parameters)) = _
  cases readParameters fuel remaining <;> rfl

theorem readValue_quoted {value : List Char} (hvalue : ∀ c ∈ value, c ≠ '"' ∧ c ≠ '\\')
    (rest : List Char) : readValue ('"' :: value ++ '"' :: rest) = some (value, rest) :=
  readQuoted_append hvalue rest

theorem readValue_token {value : List Char} (hvalue : ∀ c ∈ value, isToken c = true)
    (hne : value ≠ []) : readValue value = some (value, []) := by
  obtain ⟨htake, hdrop⟩ := span_token [] hvalue (by intro c hc; cases hc)
  rw [List.append_nil] at htake hdrop
  cases value with
  | nil => exact absurd rfl hne
  | cons c value =>
    have hquote : c ≠ '"' := by
      rintro rfl
      exact absurd (hvalue '"' List.mem_cons_self) (by decide)
    rw [readValue.eq_2 _ (by rintro rest heq; exact hquote (List.cons.inj heq).1), htake, hdrop,
      if_neg (List.cons_ne_nil c value)]

/-! ## 3. Percent-encoded octets -/

def hexDigit (n : Nat) : Char := if n < 10 then .ofNat (48 + n) else .ofNat (55 + n)

def hexValue (c : Char) : Nat := if c.toNat < 58 then c.toNat - 48 else c.toNat - 55

/-- An octet outside the set of those that stand for themselves. -/
def encodeOctet (plain : UInt8 → Bool) (octet : UInt8) : List Char :=
  if plain octet then [.ofNat octet.toNat]
  else ['%', hexDigit (octet.toNat / 16), hexDigit (octet.toNat % 16)]

def percentEncode (plain : UInt8 → Bool) (octets : List UInt8) : List Char :=
  octets.flatMap (encodeOctet plain)

def percentDecode : List Char → List UInt8
  | '%' :: high :: low :: rest =>
    .ofNat (16 * hexValue high + hexValue low) :: percentDecode rest
  | c :: rest => .ofNat c.toNat :: percentDecode rest
  | [] => []

theorem toNat_ofNat {n : Nat} (h : n < 127) : (Char.ofNat n).toNat = n := by
  have hvalid : n.isValidChar := .inl (by omega)
  rw [Char.ofNat, dif_pos hvalid]
  rfl

theorem hexDigit_spec {n : Nat} (h : n < 16) :
    isToken (hexDigit n) = true ∧ (hexDigit n).toNat < 127 ∧ hexValue (hexDigit n) = n := by
  interval_cases n <;> decide

/-- A plain octet is ASCII, prints, and is not the percent sign. -/
def Printable (plain : UInt8 → Bool) : Prop :=
  ∀ octet, plain octet = true → isToken (.ofNat octet.toNat) = true ∧ octet.toNat < 127 ∧
    octet ≠ 37

variable {plain : UInt8 → Bool}

theorem percentDecode_encodeOctet (hplain : Printable plain) (octet : UInt8) (rest : List Char) :
    percentDecode (encodeOctet plain octet ++ rest) = octet :: percentDecode rest := by
  rw [encodeOctet]
  split_ifs with h
  · obtain ⟨-, hlt, hne⟩ := hplain octet h
    have hnat : (Char.ofNat octet.toNat).toNat = octet.toNat := toNat_ofNat hlt
    have hpercent : Char.ofNat octet.toNat ≠ '%' := by
      intro heq
      rw [heq] at hnat
      exact hne (UInt8.toNat_inj.mp hnat.symm)
    rw [List.singleton_append, percentDecode.eq_2 _ _ (fun _ _ _ h ↦ absurd h hpercent), hnat,
      UInt8.ofNat_toNat]
  · have hlt := octet.toNat_lt
    have hhigh := (hexDigit_spec (show octet.toNat / 16 < 16 by omega)).2.2
    have hlow := (hexDigit_spec (show octet.toNat % 16 < 16 by omega)).2.2
    show UInt8.ofNat (16 * hexValue (hexDigit (octet.toNat / 16)) +
      hexValue (hexDigit (octet.toNat % 16))) :: percentDecode rest = _
    rw [hhigh, hlow, Nat.div_add_mod, UInt8.ofNat_toNat]

/-- Decoding gives the octets back. -/
theorem percentDecode_percentEncode (hplain : Printable plain) (octets : List UInt8) :
    percentDecode (percentEncode plain octets) = octets := by
  induction octets with
  | nil => rfl
  | cons octet octets ih =>
    rw [percentEncode, List.flatMap_cons, percentDecode_encodeOctet hplain]
    exact congrArg (octet :: ·) ih

/-- What is written is tokens. -/
theorem isToken_of_mem_percentEncode (hplain : Printable plain) {octets : List UInt8} {c : Char}
    (h : c ∈ percentEncode plain octets) : isToken c = true ∧ c.toNat < 127 := by
  obtain ⟨octet, -, hc⟩ := List.mem_flatMap.mp h
  rw [encodeOctet] at hc
  split_ifs at hc with hoctet
  · obtain ⟨htoken, hlt, -⟩ := hplain octet hoctet
    obtain rfl := List.mem_singleton.mp hc
    rw [toNat_ofNat hlt]
    exact ⟨htoken, hlt⟩
  · have hlt := octet.toNat_lt
    have hhigh := hexDigit_spec (show octet.toNat / 16 < 16 by omega)
    have hlow := hexDigit_spec (show octet.toNat % 16 < 16 by omega)
    simp only [List.mem_cons, List.not_mem_nil, or_false] at hc
    rcases hc with rfl | rfl | rfl
    · decide
    · exact ⟨hhigh.1, hhigh.2.1⟩
    · exact ⟨hlow.1, hlow.2.1⟩

end HeaderValue
