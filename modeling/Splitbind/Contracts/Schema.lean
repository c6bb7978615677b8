import Mathlib.Data.Rat.Floor
import Splitbind.Identifiers
import Splitbind.Library.Calendar

/-!
# JSON contracts — what the versioned JSON schemas ask of an object

A contract lists its properties, all of them required and no others allowed, each with the check
its schema states.  Patterns are searched, so that `$` also matches before a final newline.
-/

namespace Splitbind

/-! ## 1. Comparing JSON values -/

/-- The number a value is compared as; a truth value is one too. -/
def JsonValue.number : JsonValue → Option ℚ
  | .bool b => some (if b then 1 else 0)
  | .int i => some i
  | .float q => some q
  | _ => none

/-- Equality as Python has it. -/
def JsonValue.equals (v w : JsonValue) : Bool :=
  match v.number, w.number with
  | some p, some q => p = q
  | none, none => v = w
  | _, _ => false

/-- Equality of two objects, whatever the order of their members. -/
def JsonObject.equals (object expected : JsonObject) : Bool :=
  object.keys.all (· ∈ expected.keys) &&
    expected.all fun member ↦ (object.get member.1).any (·.equals member.2)

/-- Whether the schema type `integer` admits the value; a truth value is none. -/
def JsonValue.isInteger : JsonValue → Bool
  | .int _ => true
  | .float q => q.den = 1
  | _ => false

theorem JsonValue.equals_refl (v : JsonValue) : v.equals v = true := by
  cases v <;> simp [JsonValue.equals, JsonValue.number]

/-- A value that equals an integer is compared as that integer. -/
theorem JsonValue.number_of_equals_int {v : JsonValue} {i : Int}
    (h : v.equals (.int i) = true) : v.number = some (i : ℚ) := by
  rw [JsonValue.equals, show (JsonValue.int i).number = some (i : ℚ) from rfl] at h
  cases hv : v.number with
  | none => simp [hv] at h
  | some q => simpa [hv] using h

/-! ## 2. Formats and patterns -/

/-- The formats `FormatChecker()` checks. -/
structure FormatChecker where
  uuid : String → Bool
  dateTime : String → Bool

/-- The checker admits every UUID as `str` spells it, and every RFC 3339 date-time. -/
structure FormatChecker.Conforms (formats : FormatChecker) : Prop where
  uuid : ∀ u : UUID, formats.uuid u.text = true
  dateTime : ∀ s : List Char, Calendar.accepts s = true →
    formats.dateTime (String.ofList s) = true

def beforeFinalNewline (s : List Char) : List Char :=
  if s.getLast? = some '\n' then s.dropLast else s

def isLowerHex (c : Char) : Bool := ('0' ≤ c ∧ c ≤ '9') ∨ ('a' ≤ c ∧ c ≤ 'f')

/-- `^[0-9a-f]{64}$`. -/
def sha256Pattern (s : String) : Bool :=
  let text := beforeFinalNewline s.toList
  text.length = 64 ∧ text.all isLowerHex

/-- `Z$`. -/
def endsWithZ (s : String) : Bool := (beforeFinalNewline s.toList).getLast? = some 'Z'

/-- A value that is a text and passes the check. -/
def textThat (check : String → Bool) : JsonValue → Bool
  | .text s => check s
  | _ => false

theorem beforeFinalNewline_eq {s : List Char} (h : '\n' ∉ s) : beforeFinalNewline s = s := by
  unfold beforeFinalNewline
  rw [if_neg fun hlast ↦ h (List.mem_of_getLast? hlast)]

/-! ## 3. Contracts -/

/-- The properties of a schema with their checks. -/
abbrev Contract := List (String × (JsonValue → Bool))

/-- Every property is there and passes its check, and there is no other member. -/
def Contract.accepts (contract : Contract) (object : JsonObject) : Bool :=
  (contract.all fun property ↦ (object.get property.1).any property.2) &&
    object.keys.all fun name ↦ contract.any fun property ↦ property.1 = name

/-! ## 4. The texts of identifiers -/

theorem isLowerHex_hexDigit {n : Nat} (h : n < 16) : isLowerHex (hexDigit n) = true := by
  interval_cases n <;> decide

theorem length_hexDigits (width n : Nat) : (hexDigits width n).length = width := by
  simp [hexDigits]

theorem mem_hexDigits {width n : Nat} {c : Char} (h : c ∈ hexDigits width n) :
    ∃ d < 16, c = hexDigit d := by
  simp only [hexDigits, List.mem_map] at h
  obtain ⟨i, -, rfl⟩ := h
  exact ⟨_, Nat.mod_lt _ (by decide), rfl⟩

theorem isLowerHex_of_mem_hexDigits {width n : Nat} {c : Char} (h : c ∈ hexDigits width n) :
    isLowerHex c = true := by
  obtain ⟨d, hd, rfl⟩ := mem_hexDigits h
  exact isLowerHex_hexDigit hd

theorem newline_not_mem_hexDigits (width n : Nat) : '\n' ∉ hexDigits width n := by
  intro h
  have hhex := isLowerHex_of_mem_hexDigits h
  simp [isLowerHex] at hhex

theorem sha256Pattern_text (s : Sha256) : sha256Pattern s.text = true := by
  have hhex : ∀ c ∈ hexDigits 64 s.value.toNat, isLowerHex c = true :=
    fun c hc ↦ isLowerHex_of_mem_hexDigits hc
  simpa [sha256Pattern, Sha256.text, beforeFinalNewline_eq (newline_not_mem_hexDigits _ _),
    length_hexDigits] using hhex

/-- A UUID is spelled in digits and dashes. -/
theorem mem_text_uuid {u : UUID} {c : Char} (h : c ∈ u.text.toList) :
    (∃ d < 16, c = hexDigit d) ∨ c = '-' := by
  simp only [UUID.text, String.toList_ofList, List.mem_append, List.mem_cons] at h
  rcases h with (((h | h | h) | h | h) | h | h) | h | h
  all_goals first
    | exact .inr h
    | exact .inl (mem_hexDigits (List.mem_of_mem_take h))
    | exact .inl (mem_hexDigits (List.mem_of_mem_drop (List.mem_of_mem_take h)))
    | exact .inl (mem_hexDigits (List.mem_of_mem_drop h))

theorem length_text_uuid (u : UUID) : u.text.toList.length = 36 := by
  simp [UUID.text, length_hexDigits]

end Splitbind
