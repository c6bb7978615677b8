import Mathlib.Data.Nat.Digits.Defs
import Mathlib.Tactic.Common

/-!
# PDF syntax — tokens, values and indirect objects

A reader of the part of the format that image files use: tokens between blanks and brackets, values
read from them with a stack, and objects found by their offset.  What is spelled is read back.
-/

namespace Pdf

/-! ## 1. Text and numbers -/

/-- The byte of an ASCII character. -/
def byteOf (c : Char) : UInt8 := UInt8.ofNat c.toNat

/-- The bytes of an ASCII text. -/
def ascii (text : String) : List UInt8 := text.toList.map byteOf

/-- A number in decimal. -/
def decimal (n : Nat) : List UInt8 := (Nat.toDigits 10 n).map byteOf

/-- A number in decimal, with zeros in front up to a width. -/
def padded (width n : Nat) : List UInt8 := ((Nat.toDigits 10 n).leftpad width '0').map byteOf

def charOf (byte : UInt8) : Char := Char.ofNat byte.toNat

/-- The number some digits stand for. -/
def readNat (bytes : List UInt8) : Option Nat :=
  if bytes ≠ [] ∧ bytes.all (fun byte ↦ (charOf byte).isDigit) = true then
    some (Nat.ofDigitChars 10 (bytes.map charOf) 0)
  else none

theorem charOf_byteOf {c : Char} (h : c.toNat < 256) : charOf (byteOf c) = c := by
  rw [charOf, byteOf, UInt8.toNat_ofNat', Nat.mod_eq_of_lt h, Char.ofNat_toNat]

theorem toNat_lt_of_isDigit {c : Char} (h : c.isDigit = true) : c.toNat < 256 := by
  rw [Char.isDigit_iff_toNat] at h
  exact lt_of_le_of_lt h.2 (by decide)

/-- Digits are read as the number they stand for. -/
theorem readNat_map {digits : List Char} (hne : digits ≠ [])
    (hdigits : ∀ c ∈ digits, c.isDigit = true) :
    readNat (digits.map byteOf) = some (Nat.ofDigitChars 10 digits 0) := by
  have hback : (digits.map byteOf).map charOf = digits := by
    rw [List.map_map]
    refine (List.map_congr_left fun c hc ↦ ?_).trans (List.map_id digits)
    exact charOf_byteOf (toNat_lt_of_isDigit (hdigits c hc))
  have hvalid : digits.map byteOf ≠ [] ∧
      (digits.map byteOf).all (fun byte ↦ (charOf byte).isDigit) = true := by
    refine ⟨fun hnil ↦ hne (List.map_eq_nil_iff.mp hnil), List.all_eq_true.mpr fun byte hbyte ↦ ?_⟩
    obtain ⟨c, hc, rfl⟩ := List.mem_map.mp hbyte
    rw [charOf_byteOf (toNat_lt_of_isDigit (hdigits c hc))]
    exact hdigits c hc
  rw [readNat, if_pos hvalid, hback]

theorem toDigits_isDigit {n : Nat} : ∀ c ∈ Nat.toDigits 10 n, c.isDigit = true :=
  fun _ h ↦ Nat.isDigit_of_mem_toDigits (by decide) (by decide) h

@[simp] theorem readNat_decimal (n : Nat) : readNat (decimal n) = some n := by
  rw [decimal, readNat_map Nat.toDigits_ne_nil toDigits_isDigit, Nat.ofDigitChars_ten_toDigits]

/-- A padded number has its width and its value, when it fits. -/
theorem padded_spec {width n : Nat} (hwidth : 0 < width) (hn : n < 10 ^ width) :
    (padded width n).length = width ∧ readNat (padded width n) = some n := by
  have hlength : (Nat.toDigits 10 n).length ≤ width :=
    (Nat.length_toDigits_le_iff (by decide) hwidth).mpr hn
  have hne : (Nat.toDigits 10 n).leftpad width '0' ≠ [] := by
    rw [List.leftpad]
    exact List.append_ne_nil_of_right_ne_nil _ Nat.toDigits_ne_nil
  have hdigits : ∀ c ∈ (Nat.toDigits 10 n).leftpad width '0', c.isDigit = true := by
    intro c hc
    rw [List.leftpad, List.mem_append] at hc
    rcases hc with hzero | hdigit
    · rw [List.eq_of_mem_replicate hzero]
      decide
    · exact toDigits_isDigit c hdigit
  constructor
  · rw [padded, List.length_map, List.leftpad, List.length_append, List.length_replicate]
    omega
  · rw [padded, readNat_map hne hdigits, List.leftpad, Nat.ofDigitChars_append,
      Nat.ofDigitChars_replicate_zero, Nat.mul_zero, Nat.ofDigitChars_ten_toDigits]

/-! ## 2. Tokens -/

abbrev Token := List UInt8

def isBlank (byte : UInt8) : Bool := byte ∈ [0x00, 0x09, 0x0a, 0x0c, 0x0d, 0x20]

def isBracket (byte : UInt8) : Bool := byte ∈ [0x5b, 0x5d]

/-- The finished tokens, with the one that is being read unless it is empty. -/
def flush (state : List Token × Token) : List Token :=
  if state.2 = [] then state.1 else state.1 ++ [state.2]

/-- Blanks separate tokens, and a bracket is a token of its own. -/
def lexByte (state : List Token × Token) (byte : UInt8) : List Token × Token :=
  if isBlank byte then (flush state, [])
  else if isBracket byte then (flush state ++ [[byte]], [])
  else (state.1, state.2 ++ [byte])

def lex (bytes : List UInt8) : List Token := flush (bytes.foldl lexByte ([], []))

/-- A token that is not a bracket. -/
def Plain (token : Token) : Prop :=
  token ≠ [] ∧ ∀ byte ∈ token, isBlank byte = false ∧ isBracket byte = false

instance (token : Token) : Decidable (Plain token) := inferInstanceAs (Decidable (_ ∧ _))

def openBracket : Token := [0x5b]

def closeBracket : Token := [0x5d]

def IsToken (token : Token) : Prop := token = openBracket ∨ token = closeBracket ∨ Plain token

/-- Tokens with a blank between them, but none within brackets. -/
def spell : List Token → List UInt8
  | [] => []
  | [token] => token
  | token :: next :: rest =>
    token ++ (if token = openBracket ∨ next = closeBracket then [] else [0x20]) ++
      spell (next :: rest)

theorem foldl_lexByte_plain {token : Token} (h : ∀ byte ∈ token, isBlank byte = false ∧
    isBracket byte = false) (done : List Token) (current : Token) :
    token.foldl lexByte (done, current) = (done, current ++ token) := by
  induction token generalizing current with
  | nil => rw [List.foldl_nil, List.append_nil]
  | cons byte rest ih =>
    rw [List.forall_mem_cons] at h
    have hbyte : lexByte (done, current) byte = (done, current ++ [byte]) := by
      rw [lexByte, h.1.1, h.1.2]
      rfl
    rw [List.foldl_cons, hbyte, ih h.2, List.append_assoc, List.singleton_append]

/-- What comes after a token that is finished by a blank or a bracket. -/
theorem lexByte_flush {state : List Token × Token} {byte : UInt8}
    (hbyte : isBlank byte = true ∨ isBracket byte = true) :
    lexByte state byte = lexByte (flush state, []) byte := by
  have hflush : flush (flush state, ([] : Token)) = flush state := if_pos rfl
  cases hblank : isBlank byte with
  | true => rw [lexByte, lexByte, hblank, if_pos rfl, if_pos rfl, hflush]
  | false =>
    have hbracket : isBracket byte = true :=
      hbyte.resolve_left (Bool.eq_false_iff.mp hblank)
    rw [lexByte, lexByte, hblank, hbracket, hflush]
    rfl

/-- After a token the lexer is as good as finished with it, before a blank or a bracket. -/
theorem foldl_lexByte_token {token : Token} (h : IsToken token) (done : List Token) :
    ∃ state, token.foldl lexByte (done, []) = state ∧ flush state = done ++ [token] := by
  rcases h with rfl | rfl | ⟨hne, hplain⟩
  · exact ⟨_, rfl, rfl⟩
  · exact ⟨_, rfl, rfl⟩
  · refine ⟨_, foldl_lexByte_plain hplain done [], ?_⟩
    rw [List.nil_append, flush, if_neg hne]

theorem spell_closeBracket (rest : List Token) :
    ∃ bytes, spell (closeBracket :: rest) = 0x5d :: bytes := by
  cases rest with
  | nil => exact ⟨[], rfl⟩
  | cons next rest => exact ⟨_, rfl⟩

theorem foldl_spell {tokens : List Token} (h : ∀ token ∈ tokens, IsToken token)
    (done : List Token) :
    flush ((spell tokens).foldl lexByte (done, [])) = done ++ tokens := by
  induction tokens generalizing done with
  | nil =>
    rw [List.append_nil]
    rfl
  | cons token rest ih =>
    rw [List.forall_mem_cons] at h
    obtain ⟨state, hstate, hflush⟩ := foldl_lexByte_token h.1 done
    cases rest with
    | nil => rw [spell, hstate, hflush]
    | cons next rest =>
      have hrest := ih h.2 (done ++ [token])
      rw [List.append_assoc, List.singleton_append] at hrest
      rw [spell, List.foldl_append, List.foldl_append, hstate]
      split_ifs with htight
      · rw [List.foldl_nil]
        rcases htight with rfl | rfl
        · have hopen : openBracket.foldl lexByte (done, []) = (done ++ [openBracket], []) := rfl
          rw [← hstate, hopen, hrest]
        · -- the bracket that comes next finishes the token
          obtain ⟨bytes, hbytes⟩ := spell_closeBracket rest
          rw [hbytes, List.foldl_cons] at hrest ⊢
          rw [← hrest, ← hflush, lexByte_flush (.inr rfl)]
      · have hblank : lexByte state 0x20 = (done ++ [token], []) := by
          rw [← hflush]
          rfl
        rw [List.foldl_cons, List.foldl_nil, hblank, hrest]

/-- **Round trip.**  Tokens are read back as they were spelled. -/
theorem lex_spell {tokens : List Token} (h : ∀ token ∈ tokens, IsToken token) :
    lex (spell tokens) = tokens :=
  foldl_spell h []

theorem spell_cons {token next : Token} (hopen : token ≠ openBracket) (hclose : next ≠ closeBracket)
    (rest : List Token) :
    spell (token :: next :: rest) = token ++ ([0x20] ++ spell (next :: rest)) := by
  rw [spell, if_neg (not_or.mpr ⟨hopen, hclose⟩), List.append_assoc]

theorem spell_open (tokens : List Token) :
    spell (openBracket :: tokens) = openBracket ++ spell tokens := by
  cases tokens with
  | nil => rfl
  | cons next rest => rw [spell, if_pos (.inl rfl), List.append_nil]

theorem spell_close (token : Token) (rest : List Token) :
    spell (token :: closeBracket :: rest) = token ++ spell (closeBracket :: rest) := by
  rw [spell, if_pos (.inr rfl), List.append_nil]

/-- Away from brackets a text can be cut at a blank. -/
theorem spell_append (before : List Token) {last next : Token} (hopen : last ≠ openBracket)
    (hclose : next ≠ closeBracket) (rest : List Token) :
    spell (before ++ last :: next :: rest) =
      spell (before ++ [last]) ++ ([0x20] ++ spell (next :: rest)) := by
  induction before with
  | nil => rw [List.nil_append, List.nil_append, spell_cons hopen hclose, spell]
  | cons first before ih =>
    cases before with
    | nil =>
      show spell (first :: last :: next :: rest) = spell [first, last] ++ _
      rw [spell, spell_cons hopen hclose, spell, spell, List.append_assoc, List.append_assoc,
        List.append_assoc]
    | cons second before =>
      rw [List.cons_append, List.cons_append, List.cons_append, List.cons_append, spell, spell]
      rw [List.cons_append, List.cons_append] at ih
      rw [ih, List.append_assoc, List.append_assoc, List.append_assoc]

/-! ## 3. Values -/

/-- The value of a token or a group of tokens; a number is kept as it is spelled, and a dictionary
has its keys and values in turn. -/
inductive Value
  | atom (token : Token)
  | number (text : Token)
  | reference (n : Nat)
  | array (items : List Value)
  | dictionary (items : List Value)

/-- The open groups, innermost first, each with what opened it and its last items first. -/
abbrev Stack := List (Token × List Value)

def openDictionary : Token := ascii "<<"

def closeDictionary : Token := ascii ">>"

def referenceMark : Token := ascii "R"

/-- A finished group is an item of the group around it. -/
def close (opener : Token) (build : List Value → Value) : Stack → Option Stack
  | (opener', items) :: (outer, rest) :: stack =>
    if opener' = opener then some ((outer, build items.reverse :: rest) :: stack) else none
  | _ => none

/-- Digits and points; signs are not read. -/
def IsNumber (token : Token) : Prop :=
  token ≠ [] ∧ ∀ byte ∈ token, byte = 0x2e ∨ 0x30 ≤ byte ∧ byte ≤ 0x39

instance (token : Token) : Decidable (IsNumber token) := inferInstanceAs (Decidable (_ ∧ _))

def readAtom (token : Token) : Value :=
  if IsNumber token then .number token else .atom token

/-- Two numbers and a mark are a reference; only first generations are read. -/
def mark : Stack → Option Stack
  | (opener, .number generation :: .number number :: items) :: stack =>
    if readNat generation = some 0 then
      (readNat number).map fun n ↦ (opener, .reference n :: items) :: stack
    else none
  | _ => none

def push (value : Value) : Stack → Option Stack
  | (opener, items) :: stack => some ((opener, value :: items) :: stack)
  | [] => none

def readToken (stack : Stack) (token : Token) : Option Stack :=
  if token = openDictionary ∨ token = openBracket then some ((token, []) :: stack)
  else if token = closeDictionary then close openDictionary .dictionary stack
  else if token = closeBracket then close openBracket .array stack
  else if token = referenceMark then mark stack
  else push (readAtom token) stack

/-- The one value that some tokens spell. -/
def readValue (tokens : List Token) : Option Value :=
  match tokens.foldlM readToken [([], [])] with
  | some [(_, [value])] => some value
  | _ => none

mutual

def Value.tokens : Value → List Token
  | .atom token => [token]
  | .number text => [text]
  | .reference n => [decimal n, decimal 0, referenceMark]
  | .array items => openBracket :: tokensAll items ++ [closeBracket]
  | .dictionary items => openDictionary :: tokensAll items ++ [closeDictionary]

def tokensAll : List Value → List Token
  | [] => []
  | value :: rest => value.tokens ++ tokensAll rest

end

/-- A token that stands for itself. -/
def IsAtom (token : Token) : Prop :=
  Plain token ∧ ¬ IsNumber token ∧ token ≠ openDictionary ∧ token ≠ closeDictionary ∧
    token ≠ referenceMark

instance (token : Token) : Decidable (IsAtom token) := inferInstanceAs (Decidable (_ ∧ _))

mutual

/-- Every atom of the value stands for itself. -/
def Value.Atomic : Value → Prop
  | .atom token => IsAtom token
  | .number text => IsNumber text
  | .reference _ => True
  | .array items => AtomicAll items
  | .dictionary items => AtomicAll items

def AtomicAll : List Value → Prop
  | [] => True
  | value :: rest => value.Atomic ∧ AtomicAll rest

end

/-- Digits and points spell a number. -/
theorem isNumber_map {text : List Char} (hne : text ≠ [])
    (h : ∀ c ∈ text, c.isDigit = true ∨ c = '.') : IsNumber (text.map byteOf) := by
  refine ⟨fun hnil ↦ hne (List.map_eq_nil_iff.mp hnil), fun byte hbyte ↦ ?_⟩
  obtain ⟨c, hc, rfl⟩ := List.mem_map.mp hbyte
  rcases h c hc with hdigit | rfl
  · have hrange := Char.isDigit_iff_toNat.mp hdigit
    have hdigits : ∀ n < 58, 48 ≤ n → 0x30 ≤ UInt8.ofNat n ∧ UInt8.ofNat n ≤ 0x39 := by decide
    exact .inr (hdigits c.toNat (Nat.lt_succ_of_le hrange.2) hrange.1)
  · exact .inl rfl

theorem decimal_isNumber (n : Nat) : IsNumber (decimal n) :=
  isNumber_map Nat.toDigits_ne_nil fun c hc ↦ .inl (toDigits_isDigit c hc)

theorem IsNumber.plain {token : Token} (h : IsNumber token) : Plain token := by
  have hbytes : ∀ byte : UInt8, byte = 0x2e ∨ 0x30 ≤ byte ∧ byte ≤ 0x39 →
      isBlank byte = false ∧ isBracket byte = false := by
    intro byte hbyte
    rcases hbyte with rfl | ⟨hlow, hhigh⟩
    · decide
    · have hdigits : ∀ n < 58, 48 ≤ n →
          isBlank (UInt8.ofNat n) = false ∧ isBracket (UInt8.ofNat n) = false := by decide
      rw [← UInt8.ofNat_toNat (x := byte)]
      exact hdigits byte.toNat (Nat.lt_succ_of_le hhigh) hlow
  exact ⟨h.1, fun byte hbyte ↦ hbytes byte (h.2 byte hbyte)⟩

theorem IsNumber.ne {text token : Token} (h : IsNumber text) (htoken : ¬ IsNumber token) :
    text ≠ token :=
  fun heq ↦ htoken (heq ▸ h)

/-- A number stands between blanks. -/
theorem spell_number {text last next : Token} (htext : IsNumber text) (before rest : List Token)
    (hopen : last ≠ openBracket) (hclose : next ≠ closeBracket) :
    spell (before ++ last :: text :: next :: rest) =
      spell (before ++ [last]) ++ ([0x20] ++ (text ++ ([0x20] ++ spell (next :: rest)))) := by
  rw [spell_append before hopen (htext.ne (by decide)),
    spell_cons (htext.ne (by decide)) hclose]

/-- References within brackets stand between blanks. -/
theorem spell_references (numbers : List Nat) (rest : List Token) :
    spell (tokensAll (numbers.map .reference) ++ closeBracket :: rest) =
      [0x20].intercalate (numbers.map fun n ↦ decimal n ++ ascii " 0 R") ++
        spell (closeBracket :: rest) := by
  induction numbers with
  | nil => rfl
  | cons n numbers ih =>
    have hnumber := decimal_isNumber n
    cases numbers with
    | nil =>
      show spell (decimal n :: decimal 0 :: referenceMark :: closeBracket :: rest) = _
      rw [spell_cons (hnumber.ne (by decide)) (by decide), spell_cons (by decide) (by decide),
        spell_close, List.map_cons, List.map_nil, List.intercalate_singleton, List.append_assoc]
      rfl
    | cons next numbers =>
      show spell (decimal n :: decimal 0 :: referenceMark :: decimal next ::
        (decimal 0 :: referenceMark :: (tokensAll (numbers.map .reference) ++ closeBracket :: rest))) = _
      rw [spell_cons (hnumber.ne (by decide)) (by decide), spell_cons (by decide) (by decide),
        spell_cons (by decide) ((decimal_isNumber next).ne (by decide)), List.map_cons, List.map_cons,
        List.intercalate_cons_cons, List.append_assoc, List.append_assoc, List.append_assoc]
      rw [List.map_cons, List.map_cons] at ih
      rw [← ih]
      rfl

theorem readToken_number {text : Token} (h : IsNumber text) (stack : Stack) :
    readToken stack text = push (.number text) stack := by
  have hopen : ¬ (text = openDictionary ∨ text = openBracket) :=
    not_or.mpr ⟨h.ne (by decide), h.ne (by decide)⟩
  rw [readToken, if_neg hopen, if_neg (h.ne (by decide)), if_neg (h.ne (by decide)),
    if_neg (h.ne (by decide)), readAtom, if_pos h]

theorem readToken_atom {token : Token} (h : IsAtom token) (stack : Stack) :
    readToken stack token = push (.atom token) stack := by
  obtain ⟨⟨-, hplain⟩, hnumber, hopen, hclose, hmark⟩ := h
  have hbracket : token ≠ openBracket ∧ token ≠ closeBracket := by
    constructor
    · rintro rfl
      exact absurd (hplain 0x5b (List.mem_singleton_self _)).2 (by decide)
    · rintro rfl
      exact absurd (hplain 0x5d (List.mem_singleton_self _)).2 (by decide)
  rw [readToken, if_neg (not_or.mpr ⟨hopen, hbracket.1⟩), if_neg hclose, if_neg hbracket.2,
    if_neg hmark, readAtom, if_neg hnumber]

theorem readToken_mark (stack : Stack) : readToken stack referenceMark = mark stack := rfl

/-- A group of values, between what opens and what closes it. -/
theorem foldlM_group {body : List Token} {values : List Value} {opening closing : Token}
    {build : List Value → Value} (opener : Token) (items : List Value) (stack : Stack)
    (hopen : ∀ stack, readToken stack opening = some ((opening, []) :: stack))
    (hclose : ∀ stack, readToken stack closing = close opening build stack)
    (hbody : ∀ stack, body.foldlM readToken ((opening, []) :: stack) =
      some ((opening, values.reverse) :: stack)) :
    (opening :: body ++ [closing]).foldlM readToken ((opener, items) :: stack) =
      some ((opener, build values :: items) :: stack) := by
  rw [List.cons_append, List.foldlM_cons, hopen]
  show (body ++ [closing]).foldlM readToken ((opening, []) :: (opener, items) :: stack) = _
  rw [List.foldlM_append, hbody]
  show [closing].foldlM readToken ((opening, values.reverse) :: (opener, items) :: stack) = _
  rw [List.foldlM_cons, hclose, close, if_pos rfl, List.reverse_reverse]
  rfl

mutual

/-- Reading the tokens of a value pushes it. -/
theorem foldlM_tokens (value : Value) (h : value.Atomic) (opener : Token) (items : List Value)
    (stack : Stack) :
    value.tokens.foldlM readToken ((opener, items) :: stack) =
      some ((opener, value :: items) :: stack) := by
  cases value with
  | atom token =>
    rw [Value.tokens, List.foldlM_cons, readToken_atom h]
    rfl
  | number text =>
    rw [Value.tokens, List.foldlM_cons, readToken_number h]
    rfl
  | reference n =>
    rw [Value.tokens, List.foldlM_cons, readToken_number (decimal_isNumber n), push, Option.bind_eq_bind, Option.bind_some,
      List.foldlM_cons, readToken_number (decimal_isNumber 0), push, Option.bind_eq_bind, Option.bind_some, List.foldlM_cons,
      readToken_mark, mark, readNat_decimal, if_pos rfl, readNat_decimal]
    rfl
  | array values =>
    rw [Value.tokens]
    refine foldlM_group opener items stack (fun _ ↦ rfl) (fun _ ↦ rfl) fun inner ↦ ?_
    have hvalues := foldlM_tokensAll values h openBracket [] inner
    rw [List.append_nil] at hvalues
    exact hvalues
  | dictionary values =>
    rw [Value.tokens]
    refine foldlM_group opener items stack (fun _ ↦ rfl) (fun _ ↦ rfl) fun inner ↦ ?_
    have hvalues := foldlM_tokensAll values h openDictionary [] inner
    rw [List.append_nil] at hvalues
    exact hvalues

theorem foldlM_tokensAll (values : List Value) (h : AtomicAll values) (opener : Token)
    (items : List Value) (stack : Stack) :
    (tokensAll values).foldlM readToken ((opener, items) :: stack) =
      some ((opener, values.reverse ++ items) :: stack) := by
  cases values with
  | nil => rfl
  | cons value rest =>
    rw [tokensAll, List.foldlM_append, foldlM_tokens value h.1]
    show (tokensAll rest).foldlM readToken ((opener, value :: items) :: stack) = _
    rw [foldlM_tokensAll rest h.2, List.reverse_cons, List.append_assoc, List.singleton_append]

end

/-- **Round trip.**  The tokens of a value are read as the value. -/
theorem readValue_tokens {value : Value} (h : value.Atomic) : readValue value.tokens = some value := by
  rw [readValue, foldlM_tokens value h]

mutual

theorem Value.isToken (value : Value) (h : value.Atomic) : ∀ token ∈ value.tokens, IsToken token := by
  cases value with
  | atom token =>
    rw [Value.tokens, List.forall_mem_singleton]
    exact .inr (.inr (And.left h))
  | number text =>
    rw [Value.tokens, List.forall_mem_singleton]
    exact .inr (.inr (IsNumber.plain h))
  | reference n =>
    rw [Value.tokens, List.forall_mem_cons, List.forall_mem_cons, List.forall_mem_singleton]
    exact ⟨.inr (.inr (decimal_isNumber n).plain), .inr (.inr (decimal_isNumber 0).plain),
      .inr (.inr (by decide +kernel))⟩
  | array items =>
    rw [Value.tokens, List.forall_mem_append, List.forall_mem_cons, List.forall_mem_singleton]
    exact ⟨⟨.inl rfl, isTokenAll items h⟩, .inr (.inl rfl)⟩
  | dictionary items =>
    rw [Value.tokens, List.forall_mem_append, List.forall_mem_cons, List.forall_mem_singleton]
    exact ⟨⟨.inr (.inr (by decide +kernel)), isTokenAll items h⟩, .inr (.inr (by decide +kernel))⟩

theorem isTokenAll (values : List Value) (h : AtomicAll values) :
    ∀ token ∈ tokensAll values, IsToken token := by
  cases values with
  | nil => exact fun token hmem ↦ absurd hmem List.not_mem_nil
  | cons value rest =>
    rw [tokensAll, List.forall_mem_append]
    exact ⟨value.isToken h.1, isTokenAll rest h.2⟩

end

/-- The text of a value. -/
def Value.text (value : Value) : List UInt8 := spell value.tokens

/-- **Round trip.**  The text of a value is read as the value. -/
theorem readValue_text {value : Value} (h : value.Atomic) :
    readValue (lex value.text) = some value := by
  rw [Value.text, lex_spell (value.isToken h), readValue_tokens h]

/-- What follows a key among keys and values in turn. -/
def lookup (key : Token) : List Value → Option Value
  | .atom token :: value :: rest => if token = key then some value else lookup key rest
  | _ => none

def Value.get (value : Value) (key : Token) : Option Value :=
  match value with
  | .dictionary items => lookup key items
  | _ => none

/-! ## 4. Files -/

/-- The text stands in the file at the offset. -/
def TextAt (file : List UInt8) (offset : Nat) (text : List UInt8) : Prop :=
  text <+: file.drop offset

/-- The indirect object of a number, with its value and its stream; the data of a stream starts
after the end of the line of its keyword, and has the length its dictionary says. -/
inductive ObjectAt (file : List UInt8) (offset number : Nat) (value : Value) :
    Option (List UInt8) → Prop
  | plain {text : List UInt8} :
      TextAt file offset (decimal number ++ ascii " 0 obj\n" ++ text ++ ascii "\nendobj\n") →
      readValue (lex text) = some value → ObjectAt file offset number value none
  | stream {text length data lineEnd : List UInt8} :
      TextAt file offset (decimal number ++ ascii " 0 obj\n" ++ (text ++ ascii "\nstream\n" ++ data ++
        lineEnd ++ ascii "endstream") ++ ascii "\nendobj\n") →
      readValue (lex text) = some value →
      value.get (ascii "/Length") = some (.number length) → readNat length = some data.length →
      lineEnd = [] ∨ lineEnd = ascii "\n" → ObjectAt file offset number value (some data)

/-- The offset an entry of twenty bytes holds, for an object in use. -/
def entryOffset (entry : List UInt8) : Option Nat :=
  if entry.length = 20 ∧ entry.drop 10 = ascii " 00000 n \n" then readNat (entry.take 10) else none

/-- The entry of an object in a table of entries of twenty bytes. -/
def entryAt (file : List UInt8) (table number : Nat) : List UInt8 :=
  (file.drop (table + 20 * number)).take 20

/-! ## 5. Layout -/

/-- Lists of one length, one after the other. -/
theorem getElem?_flatten_of_length {α : Type} {lists : List (List α)} {width : Nat}
    (h : ∀ list ∈ lists, list.length = width) {i j : Nat} (hj : j < width) {list : List α}
    (hlist : lists[i]? = some list) : lists.flatten[width * i + j]? = list[j]? := by
  induction lists generalizing i with
  | nil => cases hlist
  | cons first rest ih =>
    rw [List.forall_mem_cons] at h
    rw [List.flatten_cons]
    cases i with
    | zero =>
      cases hlist
      rw [Nat.mul_zero, Nat.zero_add, List.getElem?_append_left (h.1 ▸ hj)]
    | succ i =>
      have hindex : width * (i + 1) + j = first.length + (width * i + j) := by
        rw [h.1, Nat.mul_succ]
        omega
      rw [hindex, List.getElem?_append_right (Nat.le_add_right _ _), Nat.add_sub_cancel_left]
      exact ih h.2 hlist

/-- The offsets at which some texts stand when they are written one after the other. -/
def layout (base : Nat) : List (List UInt8) → List Nat
  | [] => []
  | text :: rest => base :: layout (base + text.length) rest

@[simp] theorem length_layout (base : Nat) (texts : List (List UInt8)) :
    (layout base texts).length = texts.length := by
  induction texts generalizing base with
  | nil => rfl
  | cons text rest ih => rw [layout, List.length_cons, List.length_cons, ih]

/-- Texts of one length stand that far apart. -/
theorem layout_of_length {texts : List (List UInt8)} {width : Nat}
    (h : ∀ text ∈ texts, text.length = width) {base i : Nat} (hi : i < texts.length) :
    (layout base texts)[i]? = some (base + width * i) := by
  induction texts generalizing base i with
  | nil => exact absurd hi (Nat.not_lt_zero i)
  | cons text rest ih =>
    rw [List.forall_mem_cons] at h
    cases i with
    | zero => rfl
    | succ i =>
      rw [layout, List.getElem?_cons_succ, ih h.2 (Nat.lt_of_succ_lt_succ hi), h.1, Nat.mul_succ]
      congr 1
      omega

theorem textAt_append {before text after : List UInt8} :
    TextAt (before ++ (text ++ after)) before.length text := by
  rw [TextAt, List.drop_left]
  exact List.prefix_append text after

/-- Every text stands at its offset. -/
theorem textAt_layout {before after : List UInt8} {texts : List (List UInt8)} {i offset : Nat}
    {text : List UInt8} (htext : texts[i]? = some text)
    (hoffset : (layout before.length texts)[i]? = some offset) :
    TextAt (before ++ (texts.flatten ++ after)) offset text := by
  induction texts generalizing before i with
  | nil => cases htext
  | cons first rest ih =>
    rw [List.flatten_cons, List.append_assoc]
    cases i with
    | zero =>
      cases htext
      cases hoffset
      exact textAt_append
    | succ i =>
      rw [← List.append_assoc]
      refine ih htext ?_
      rw [List.length_append]
      exact hoffset

end Pdf
