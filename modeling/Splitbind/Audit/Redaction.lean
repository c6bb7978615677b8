import Splitbind.Library.Transaction
import Splitbind.Library.Url

/-!
# Audit redaction — what of an event's metadata is kept

Only texts and numbers under six keys are kept, cut to 256 characters, and no complete URL.
-/

namespace Splitbind

open Transaction Url

/-! ## 1. The redaction -/

def safeAuditKeys : List String :=
  ["kind", "role", "status", "safe_error_code", "object_size", "attempt"]

def maxAuditMetadataValueLength : Nat := 256

/-- `sys.int_info.default_max_str_digits`. -/
def maxStrDigits : Nat := 4300

/-- The values that `str` is asked for; a float is given by its text. -/
inductive Scalar
  | text (s : List Char)
  | int (n : Int)
  | float (s : List Char)
  | bool (b : Bool)
deriving DecidableEq, Repr

inductive MetadataValue
  | scalar (value : Scalar)
  | container
  | none
  | other
deriving DecidableEq, Repr

/-- A text, or one of the keys that are none. -/
inductive MetadataKey
  | text (s : String)
  | other (index : Nat)
deriving DecidableEq, Repr

/-- A mapping, in the order of its items. -/
structure Metadata where
  items : List (MetadataKey × MetadataValue)
  nodup : (items.map Prod.fst).Nodup

/-- `ValueError`, of `str` and of the URL parser. -/
inductive RedactionError
  | intMaxStrDigits
  | url (error : ParseError)
deriving DecidableEq, Repr

/-- `str(value)`. -/
def Scalar.str : Scalar → Except RedactionError (List Char)
  | .text s => .ok s
  | .int n =>
    if maxStrDigits < (Nat.toDigits 10 n.natAbs).length then .error .intMaxStrDigits
    else .ok (toString n).toList
  | .float s => .ok s
  | .bool b => .ok (if b then "True".toList else "False".toList)

section Redaction

variable (rules : Rules)

/-- `value.startswith("//")`. -/
def startsWithSlashes (value : List Char) : Bool := value.take 2 = ['/', '/']

def isFullUrl (value : List Char) : Except RedactionError Bool :=
  match urlsplit rules value with
  | .error e => .error (.url e)
  | .ok parsed => .ok (parsed.netloc ≠ [] ∧ (parsed.scheme ≠ [] ∨ startsWithSlashes value = true))

/-- One pass of the loop: what an item adds. -/
def redactItem : MetadataKey × MetadataValue → Except RedactionError (Option (String × List Char))
  | (.text key, .scalar value) =>
    if key ∈ safeAuditKeys then do
      let normalized ← value.str
      if ← isFullUrl rules normalized then
        return none
      else
        return some (key, normalized.take maxAuditMetadataValueLength)
    else return none
  | _ => return none

/-- The loop; the keys are different, so every kept value is a new entry. -/
def redactItems : List (MetadataKey × MetadataValue) →
    Except RedactionError (List (String × List Char))
  | [] => return []
  | item :: items => do
    let kept ← redactItem rules item
    let safe ← redactItems items
    return kept.toList ++ safe

/-- `redact_metadata`; `none` is what is no mapping. -/
def redactMetadata (metadata : Option Metadata) :
    Except RedactionError (List (String × List Char)) :=
  match metadata with
  | none => .ok []
  | some metadata => redactItems rules metadata.items

/-! ## 2. The law, and what breaks it -/

/-- An entry that may be stored: the parser finds no network location in it. -/
structure SafeEntry (entry : String × List Char) : Prop where
  key : entry.1 ∈ safeAuditKeys
  length : entry.2.length ≤ maxAuditMetadataValueLength
  location : ∀ parsed, urlsplit rules entry.2 = .ok parsed → parsed.netloc = []

/-- Total, and closed: it returns, with safe entries only. -/
def RedactsSafely (metadata : Option Metadata) : Prop :=
  ∃ safe, redactMetadata rules metadata = .ok safe ∧ ∀ entry ∈ safe, SafeEntry rules entry

/-- A value whose text can be had and read, and which is not read as a reference with a host and
no scheme unless it starts with the two slashes. -/
def Harmless (value : Scalar) : Prop :=
  ∃ normalized parsed, value.str = .ok normalized ∧ urlsplit rules normalized = .ok parsed ∧
    (startsWithSlashes normalized = false →
      ∀ kept, urlsplit rules (normalized.take maxAuditMetadataValueLength) = .ok kept →
        kept.scheme = [] → kept.netloc = [])

variable {rules}

theorem redactItems_safe_iff (items : List (MetadataKey × MetadataValue)) :
    (∃ safe, redactItems rules items = .ok safe ∧ ∀ entry ∈ safe, SafeEntry rules entry) ↔
      ∀ item ∈ items, ∃ kept, redactItem rules item = .ok kept ∧
        ∀ entry ∈ kept, SafeEntry rules entry := by
  induction items with
  | nil =>
    exact ⟨fun _ _ h ↦ absurd h List.not_mem_nil,
      fun _ ↦ ⟨[], rfl, fun _ h ↦ absurd h List.not_mem_nil⟩⟩
  | cons item items ih =>
    rw [List.forall_mem_cons, ← ih]
    simp only [redactItems, bind_eq_ok, pure_eq_ok]
    constructor
    · rintro ⟨_, ⟨kept, hkept, safe, hsafe, rfl⟩, hall⟩
      rw [List.forall_mem_append] at hall
      exact ⟨⟨kept, hkept, fun entry h ↦ hall.1 entry (Option.mem_toList.mpr h)⟩, safe, hsafe, hall.2⟩
    · rintro ⟨⟨kept, hkept, hall⟩, safe, hsafe, hrest⟩
      refine ⟨_, ⟨kept, hkept, safe, hsafe, rfl⟩, List.forall_mem_append.mpr ⟨?_, hrest⟩⟩
      exact fun entry h ↦ hall entry (Option.mem_toList.mp h)

/-- An allow-listed scalar adds a safe entry or none exactly when it is harmless. -/
theorem redactItem_safe_iff {key : String} (hkey : key ∈ safeAuditKeys) (value : Scalar) :
    (∃ kept, redactItem rules (.text key, .scalar value) = .ok kept ∧
      ∀ entry ∈ kept, SafeEntry rules entry) ↔ Harmless rules value := by
  have hitem : redactItem rules (.text key, .scalar value) = (value.str >>= fun normalized ↦
      isFullUrl rules normalized >>= fun full ↦ if full then pure none
        else pure (some (key, normalized.take maxAuditMetadataValueLength))) := if_pos hkey
  rw [hitem, Harmless]
  cases hstr : value.str with
  | error e =>
    rw [error_bind]
    exact ⟨fun ⟨_, h, _⟩ ↦ (nomatch h), fun ⟨_, _, h, _⟩ ↦ (nomatch h)⟩
  | ok normalized =>
    rw [ok_bind, isFullUrl]
    cases hparse : urlsplit rules normalized with
    | error e =>
      refine ⟨fun ⟨_, h, _⟩ ↦ (nomatch h), fun ⟨text, parsed, htext, hparsed, _⟩ ↦ ?_⟩
      obtain rfl := Except.ok.inj htext
      rw [hparse] at hparsed
      cases hparsed
    | ok parsed =>
      -- what is kept is the start of the text, and its location is one of the text
      have hstart := List.take_prefix maxAuditMetadataValueLength normalized
      rw [ok_bind]
      by_cases hfull : parsed.netloc ≠ [] ∧
          (parsed.scheme ≠ [] ∨ startsWithSlashes normalized = true)
      · rw [if_pos (decide_eq_true hfull)]
        refine iff_of_true ⟨none, rfl, fun _ h ↦ (nomatch h)⟩
          ⟨normalized, parsed, rfl, hparse, fun hplain kept hkept hscheme ↦ ?_⟩
        by_contra hne
        have hsame := (netloc_of_start hstart hkept hparse hne).1
        rcases hfull.2 with hscheme' | hslashes
        · exact hscheme' (hsame.trans hscheme)
        · rw [hplain] at hslashes
          cases hslashes
      · rw [if_neg (by rw [decide_eq_false hfull]; decide)]
        constructor
        · rintro ⟨kept, hkept, hsafe⟩
          obtain rfl := Except.ok.inj hkept
          have hentry := hsafe _ rfl
          exact ⟨normalized, parsed, rfl, hparse, fun _ kept hkept _ ↦ hentry.location kept hkept⟩
        · rintro ⟨text, reparsed, htext, -, hharmless⟩
          obtain rfl := Except.ok.inj htext
          refine ⟨_, rfl, fun entry hentry ↦ ?_⟩
          obtain rfl := Option.some.inj hentry
          refine ⟨hkey, List.length_take_le _ _, fun kept hkept ↦ ?_⟩
          by_contra hne
          obtain ⟨hsame, hlocation⟩ := netloc_of_start hstart hkept hparse hne
          have hnot : ¬ (parsed.scheme ≠ [] ∨ startsWithSlashes normalized = true) :=
            fun h ↦ hfull ⟨hlocation, h⟩
          rw [not_or, not_not, Bool.not_eq_true] at hnot
          exact hne (hharmless hnot.2 kept hkept (hsame.symm.trans hnot.1))

/-- Redaction is total and closed exactly when no allow-listed scalar does harm. -/
theorem redactMetadata_safe_iff (metadata : Metadata) :
    RedactsSafely rules (some metadata) ↔ ∀ key value,
      (.text key, .scalar value) ∈ metadata.items → key ∈ safeAuditKeys → Harmless rules value := by
  refine (redactItems_safe_iff metadata.items).trans ⟨fun h key value hmem hkey ↦ ?_,
    fun h item hmem ↦ ?_⟩
  · exact (redactItem_safe_iff hkey value).mp (h _ hmem)
  · have hnone : ∀ item, redactItem rules item = .ok none →
        ∃ kept, redactItem rules item = .ok kept ∧ ∀ entry ∈ kept, SafeEntry rules entry :=
      fun item h ↦ ⟨none, h, fun entry hentry ↦ nomatch hentry⟩
    rcases item with ⟨key | _, value | _ | _ | _⟩
    · by_cases hkey : key ∈ safeAuditKeys
      · exact (redactItem_safe_iff hkey value).mpr (h key value hmem hkey)
      · exact hnone _ (if_neg hkey)
    all_goals exact hnone _ rfl

end Redaction

/-- Addresses in brackets, as far as the examples need them, and ASCII, which is composed. -/
def sampleUrlRules : Rules where
  bracketedHost host := host = "::1".toList
  nfkc := id

/-- An event whose status is a text. -/
def statusMetadata (status : String) : Metadata where
  items := [(.text "status", .scalar (.text status.toList))]
  nodup := by simp

/-- A bracket that is left open raises; a blank before the two slashes gets a host past the
filter. -/
theorem statusMetadata_unsafe :
    ¬ RedactsSafely sampleUrlRules (some (statusMetadata "http://[")) ∧
      ¬ RedactsSafely sampleUrlRules (some (statusMetadata " //host/signed?credential=secret")) := by
  have hraises : redactMetadata sampleUrlRules (some (statusMetadata "http://[")) =
      .error (.url .brackets) := by
    decide +kernel
  have hkept : redactMetadata sampleUrlRules
      (some (statusMetadata " //host/signed?credential=secret")) =
        .ok [("status", " //host/signed?credential=secret".toList)] := by
    decide +kernel
  have hlocation : urlsplit sampleUrlRules " //host/signed?credential=secret".toList =
      .ok ⟨[], "host".toList⟩ := by
    decide +kernel
  constructor
  · rintro ⟨safe, hsafe, -⟩
    rw [hraises] at hsafe
    cases hsafe
  · rintro ⟨safe, hsafe, hall⟩
    rw [hkept] at hsafe
    obtain rfl := Except.ok.inj hsafe
    have hempty := (hall _ List.mem_cons_self).location _ hlocation
    exact absurd hempty (by decide)

end Splitbind
