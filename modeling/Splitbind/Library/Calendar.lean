import Mathlib.Data.Nat.Notation
import Mathlib.Tactic.IntervalCases

/-!
# Calendar — days of the proleptic Gregorian calendar and RFC 3339 timestamps

A day is counted from 1 January of the year 1, an instant in microseconds since 1 January 1970.
`accepts` reads a timestamp as RFC 3339 spells it; `text` writes an instant in UTC, and what it
writes is accepted.
-/

namespace Calendar

/-! ## 1. Dates -/

def isLeap (year : Nat) : Bool :=
  year % 4 = 0 ∧ (year % 100 ≠ 0 ∨ year % 400 = 0)

/-- The days of a common year before each month. -/
def daysBeforeMonth (month : Nat) : Nat :=
  [0, 0, 31, 59, 90, 120, 151, 181, 212, 243, 273, 304, 334].getD month 365

def daysInMonth (leap : Bool) (month : Nat) : Nat :=
  [0, 31, if leap then 29 else 28, 31, 30, 31, 30, 31, 31, 30, 31, 30, 31].getD month 0

theorem daysInMonth_le (leap : Bool) {month : Nat} (h : month ≤ 12) :
    daysInMonth leap month ≤ 31 := by
  interval_cases month <;> cases leap <;> decide

structure Date where
  year : Nat
  month : Nat
  day : Nat
deriving DecidableEq, Repr

/-- A day that the calendar has. -/
structure Date.Valid (date : Date) : Prop where
  month_pos : 1 ≤ date.month
  month_le : date.month ≤ 12
  day_pos : 1 ≤ date.day
  day_le : date.day ≤ daysInMonth (isLeap date.year) date.month

/-- The month and the day of the `n`-th day of a year, counted from zero. -/
def monthDay (leap : Bool) (n : Nat) : Nat × Nat :=
  let month := (n + 50) / 32
  let preceding := daysBeforeMonth month + if month > 2 ∧ leap then 1 else 0
  if preceding > n then
    (month - 1, n - (preceding - daysInMonth leap (month - 1)) + 1)
  else (month, n - preceding + 1)

theorem monthDay_valid : ∀ leap : Bool, ∀ n < if leap then 366 else 365,
    1 ≤ (monthDay leap n).1 ∧ (monthDay leap n).1 ≤ 12 ∧ 1 ≤ (monthDay leap n).2 ∧
      (monthDay leap n).2 ≤ daysInMonth leap (monthDay leap n).1 := by
  decide +kernel

/-- The date of the `n`-th day since 1 January of the year 1, counted from zero: cycles of 400,
100, 4 and 1 years are taken off in turn. -/
def dateOfDay (n : Nat) : Date :=
  let n400 := n / 146097
  let r400 := n % 146097
  let n100 := r400 / 36524
  let r100 := r400 % 36524
  let n4 := r100 / 1461
  let r4 := r100 % 1461
  let n1 := r4 / 365
  let year := 400 * n400 + 100 * n100 + 4 * n4 + n1
  -- the last day of a leap year ends its cycle
  if n1 = 4 ∨ n100 = 4 then ⟨year, 12, 31⟩
  else
    let leap := n1 = 3 ∧ (n4 ≠ 24 ∨ n100 = 3)
    let (month, day) := monthDay leap (r4 % 365)
    ⟨year + 1, month, day⟩

/-- A year of the cycles is leap as its number says. -/
theorem isLeap_cycle {n400 n100 n4 n1 : Nat} (h100 : n100 < 4) (h4 : n4 < 25) (h1 : n1 < 4) :
    isLeap (400 * n400 + 100 * n100 + 4 * n4 + n1 + 1) =
      decide (n1 = 3 ∧ (n4 ≠ 24 ∨ n100 = 3)) := by
  unfold isLeap
  rw [decide_eq_decide]
  omega

theorem dateOfDay_valid (n : Nat) : (dateOfDay n).Valid := by
  unfold dateOfDay
  simp only
  split
  · constructor <;> simp [daysInMonth]
  · rename_i hcycle
    rw [not_or] at hcycle
    have h100 : n % 146097 / 36524 < 4 := by omega
    have h4 : n % 146097 % 36524 / 1461 < 25 := by omega
    have h1 : n % 146097 % 36524 % 1461 / 365 < 4 := by omega
    have hvalid := monthDay_valid
      (decide (n % 146097 % 36524 % 1461 / 365 = 3 ∧
        (n % 146097 % 36524 / 1461 ≠ 24 ∨ n % 146097 / 36524 = 3)))
      (n % 146097 % 36524 % 1461 % 365) (by split <;> omega)
    obtain ⟨hmonth, hmonth', hday, hday'⟩ := hvalid
    refine ⟨hmonth, hmonth', hday, ?_⟩
    rw [isLeap_cycle h100 h4 h1]
    exact hday'

/-- The years of the days a four-digit calendar has. -/
theorem dateOfDay_year {n : Nat} (h : n < 3652059) :
    1 ≤ (dateOfDay n).year ∧ (dateOfDay n).year ≤ 9999 := by
  unfold dateOfDay
  simp only
  split <;> dsimp only <;> omega

/-! ## 2. Decimal numbers -/

def digit (n : Nat) : Char := Char.ofNat (48 + n % 10)

/-- The last `width` decimal digits of `n`. -/
def digits : (width n : Nat) → List Char
  | 0, _ => []
  | width + 1, n => digits width (n / 10) ++ [digit n]

/-- The value of a decimal digit. -/
def digitValue (c : Char) : Option Nat :=
  if '0' ≤ c ∧ c ≤ '9' then some (c.toNat - 48) else none

def isDigit (c : Char) : Bool := (digitValue c).isSome

/-- Read a number of exactly `width` digits. -/
def readNumber : Nat → List Char → Option (Nat × List Char)
  | 0, s => some (0, s)
  | _ + 1, [] => none
  | width + 1, c :: s => do
    let d ← digitValue c
    let (n, rest) ← readNumber width s
    return (d * 10 ^ width + n, rest)

def expect (c : Char) : List Char → Option (List Char)
  | d :: s => if d = c then some s else none
  | [] => none

@[simp] theorem expect_cons (c : Char) (s : List Char) : expect c (c :: s) = some s := by
  simp [expect]

theorem digitValue_digit (n : Nat) : digitValue (digit n) = some (n % 10) := by
  have hlt : n % 10 < 10 := Nat.mod_lt n (by decide)
  unfold digit
  interval_cases n % 10 <;> decide

theorem digits_length (width n : Nat) : (digits width n).length = width := by
  induction width generalizing n with
  | zero => rfl
  | succ width ih => simp [digits, ih]

/-- The most significant digit comes first. -/
theorem digits_succ (width n : Nat) :
    digits (width + 1) n = digit (n / 10 ^ width) :: digits width n := by
  induction width generalizing n with
  | zero => simp [digits]
  | succ width ih =>
    rw [digits, ih (n / 10), Nat.div_div_eq_div_mul, ← Nat.pow_succ', List.cons_append]
    rfl

theorem readNumber_digits (width n : Nat) (s : List Char) :
    readNumber width (digits width n ++ s) = some (n % 10 ^ width, s) := by
  induction width with
  | zero => simp [readNumber, digits, Nat.mod_one]
  | succ width ih =>
    have hsplit : n / 10 ^ width % 10 * 10 ^ width + n % 10 ^ width = n % 10 ^ (width + 1) := by
      rw [Nat.pow_succ, Nat.mod_mul, Nat.mul_comm, Nat.add_comm]
    simp [digits_succ, readNumber, digitValue_digit, ih, hsplit]

/-! ## 3. RFC 3339 -/

/-- An optional fraction of a second, of at least one digit. -/
def readFraction : List Char → Option (List Char)
  | '.' :: s =>
    if s.takeWhile isDigit = [] then none else some (s.dropWhile isDigit)
  | s => some s

/-- `Z`, or an offset of hours and minutes, and nothing after it. -/
def readOffset : List Char → Bool
  | ['Z'] => true
  | sign :: s =>
    (sign = '+' ∨ sign = '-') ∧ ∃ hour ∈ readNumber 2 s, hour.1 < 24 ∧
      ∃ rest ∈ expect ':' hour.2, ∃ minute ∈ readNumber 2 rest, minute.1 < 60 ∧ minute.2 = []
  | [] => false

/-- The fields of a timestamp up to its seconds, and the text after them. -/
structure Timestamp where
  date : Date
  hour : Nat
  minute : Nat
  second : Nat
deriving DecidableEq, Repr

def readTimestamp (s : List Char) : Option (Timestamp × List Char) := do
  let (year, s) ← readNumber 4 s
  let (month, s) ← readNumber 2 (← expect '-' s)
  let (day, s) ← readNumber 2 (← expect '-' s)
  let (hour, s) ← readNumber 2 (← expect 'T' s)
  let (minute, s) ← readNumber 2 (← expect ':' s)
  let (second, s) ← readNumber 2 (← expect ':' s)
  return (⟨⟨year, month, day⟩, hour, minute, second⟩, s)

/-- A timestamp of the calendar; leap seconds are not supported. -/
structure Timestamp.Valid (timestamp : Timestamp) : Prop where
  year : timestamp.date.year ≠ 0
  date : timestamp.date.Valid
  hour : timestamp.hour < 24
  minute : timestamp.minute < 60
  second : timestamp.second < 60

instance (date : Date) : Decidable date.Valid :=
  decidable_of_iff (1 ≤ date.month ∧ date.month ≤ 12 ∧ 1 ≤ date.day ∧
      date.day ≤ daysInMonth (isLeap date.year) date.month)
    ⟨fun h ↦ ⟨h.1, h.2.1, h.2.2.1, h.2.2.2⟩, fun h ↦ ⟨h.1, h.2, h.3, h.4⟩⟩

instance (timestamp : Timestamp) : Decidable timestamp.Valid :=
  decidable_of_iff (timestamp.date.year ≠ 0 ∧ timestamp.date.Valid ∧ timestamp.hour < 24 ∧
      timestamp.minute < 60 ∧ timestamp.second < 60)
    ⟨fun h ↦ ⟨h.1, h.2.1, h.2.2.1, h.2.2.2.1, h.2.2.2.2⟩, fun h ↦ ⟨h.1, h.2, h.3, h.4, h.5⟩⟩

/-- Whether the text is an RFC 3339 date-time. -/
def accepts (s : List Char) : Bool :=
  match readTimestamp s with
  | some (timestamp, rest) => decide timestamp.Valid && (readFraction rest).any readOffset
  | none => false

/-! ## 4. Instants in UTC -/

/-- The instants between 1 January 0001 and 31 December 9999. -/
def InRange (t : Int) : Prop := -62135596800000000 ≤ t ∧ t < 253402300800000000

instance (t : Int) : Decidable (InRange t) := inferInstanceAs (Decidable (_ ∧ _))

/-- The microseconds since the midnight before. -/
def timeOfDay (t : Int) : Nat := (t % 86400000000).toNat

/-- The day, counted from 1 January of the year 1. -/
def dayOf (t : Int) : Nat := (t / 86400000000 + 719162).toNat

def utc (t : Int) : Timestamp where
  date := dateOfDay (dayOf t)
  hour := timeOfDay t / 3600000000
  minute := timeOfDay t / 60000000 % 60
  second := timeOfDay t / 1000000 % 60

def Timestamp.text (timestamp : Timestamp) : List Char :=
  digits 4 timestamp.date.year ++ '-' :: digits 2 timestamp.date.month ++ '-' ::
    digits 2 timestamp.date.day ++ 'T' :: digits 2 timestamp.hour ++ ':' ::
    digits 2 timestamp.minute ++ ':' :: digits 2 timestamp.second

/-- The fraction of the second, in six digits. -/
def fraction (t : Int) : List Char := '.' :: digits 6 (timeOfDay t % 1000000)

/-- The instant with its microseconds, whatever they are. -/
def textMicroseconds (t : Int) : List Char := (utc t).text ++ fraction t ++ ['Z']

/-- The instant with its microseconds unless they are zero. -/
def text (t : Int) : List Char :=
  (utc t).text ++ (if timeOfDay t % 1000000 = 0 then [] else fraction t) ++ ['Z']

theorem utc_valid {t : Int} (h : InRange t) : (utc t).Valid := by
  obtain ⟨hlow, hhigh⟩ := h
  have hday : dayOf t < 3652059 := by
    unfold dayOf
    omega
  have htime : timeOfDay t < 86400000000 := by
    unfold timeOfDay
    omega
  refine ⟨?_, dateOfDay_valid _, ?_, ?_, ?_⟩
  · have hyear := (dateOfDay_year hday).1
    simp only [utc]
    omega
  all_goals simp only [utc]
  all_goals omega

theorem utc_year_le {t : Int} (h : InRange t) : (utc t).date.year ≤ 9999 := by
  obtain ⟨hlow, hhigh⟩ := h
  refine (dateOfDay_year ?_).2
  unfold dayOf
  omega

/-- What is written of a valid timestamp is read back. -/
theorem readTimestamp_text {timestamp : Timestamp} (h : timestamp.Valid)
    (hyear : timestamp.date.year ≤ 9999) (s : List Char) :
    readTimestamp (timestamp.text ++ s) = some (timestamp, s) := by
  have hday := h.date.day_le.trans (daysInMonth_le (isLeap timestamp.date.year) h.date.month_le)
  have hmonth := h.date.month_le
  have hhour := h.hour
  have hminute := h.minute
  have hsecond := h.second
  obtain ⟨⟨year, month, day⟩, hour, minute, second⟩ := timestamp
  dsimp only at *
  simp [readTimestamp, Timestamp.text, readNumber_digits]
  omega

theorem isDigit_of_mem_digits {width n : Nat} {c : Char} (h : c ∈ digits width n) :
    isDigit c = true := by
  induction width generalizing n with
  | zero => simp [digits] at h
  | succ width ih =>
    rw [digits, List.mem_append, List.mem_singleton] at h
    rcases h with h | rfl
    · exact ih h
    · simp [isDigit, digitValue_digit]

theorem readFraction_fraction (t : Int) : readFraction (fraction t ++ ['Z']) = some ['Z'] := by
  have hdigits : ∀ c ∈ digits 6 (timeOfDay t % 1000000), isDigit c = true :=
    fun c hc ↦ isDigit_of_mem_digits hc
  have hend : isDigit 'Z' = false := by decide
  have hsome : digits 6 (timeOfDay t % 1000000) ≠ [] :=
    List.ne_nil_of_length_pos (by simp [digits_length])
  rw [fraction, List.cons_append, readFraction, List.takeWhile_append_of_pos hdigits,
    List.dropWhile_append_of_pos hdigits]
  simp [hend, hsome]

/-- A valid timestamp is accepted with any fraction and offset that can be read. -/
theorem accepts_append {timestamp : Timestamp} (h : timestamp.Valid)
    (hyear : timestamp.date.year ≤ 9999) {s : List Char}
    (hrest : (readFraction s).any readOffset) : accepts (timestamp.text ++ s) := by
  rw [accepts, readTimestamp_text h hyear]
  simp [h, hrest]

theorem accepts_text {t : Int} (h : InRange t) : accepts (text t) := by
  rw [text, List.append_assoc]
  refine accepts_append (utc_valid h) (utc_year_le h) ?_
  split
  · rfl
  · rw [readFraction_fraction]
    rfl

end Calendar
