import Mathlib.Data.List.TakeWhile

/-!
# URLs — the scheme and the network location that a text is split into

Leading blanks and control characters, and every tab and newline, are dropped before a text is
read.  What is read of a text is read of everything that starts with it.
-/

namespace Url

/-! ## 1. Splitting -/

inductive ParseError
  | brackets
  | host
  | normalization
deriving DecidableEq, Repr

/-- What is not decided here: which hosts may stand in brackets, and compatibility composition. -/
structure Rules where
  bracketedHost : List Char → Bool
  nfkc : List Char → List Char

structure Split where
  scheme : List Char
  netloc : List Char
deriving DecidableEq, Repr

def isControlOrSpace (c : Char) : Bool := c.toNat ≤ 32

def isUnsafe (c : Char) : Bool := c = '\t' || c = '\r' || c = '\n'

def clean (s : List Char) : List Char := (s.dropWhile isControlOrSpace).filter (!isUnsafe ·)

def isSchemeCharacter (c : Char) : Bool := c.isAlphanum || c = '+' || c = '-' || c = '.'

def isScheme (front : List Char) : Bool := front.head?.any Char.isAlpha && front.all isSchemeCharacter

/-- What stands before the first colon, if it is a scheme, and the rest. -/
def splitScheme (url : List Char) : List Char × List Char :=
  match url.dropWhile (· ≠ ':') with
  | [] => ([], url)
  | _ :: rest =>
    if isScheme (url.takeWhile (· ≠ ':')) then
      ((url.takeWhile (· ≠ ':')).map Char.toLower, rest)
    else ([], url)

def isDelimiter (c : Char) : Bool := c = '/' || c = '?' || c = '#'

/-- What stands behind two slashes, up to a delimiter. -/
def authority : List Char → List Char
  | '/' :: '/' :: rest => rest.takeWhile (!isDelimiter ·)
  | _ => []

/-- What stands between the first opening bracket and the closing one. -/
def bracketed (netloc : List Char) : List Char :=
  ((netloc.dropWhile (· ≠ '[')).drop 1).takeWhile (· ≠ ']')

section Rules

variable (rules : Rules)

/-- Composition may bring no delimiter into a location. -/
def checkNetloc (netloc : List Char) : Bool :=
  let bare := netloc.filter fun c ↦ !(['@', ':', '#', '?'].contains c)
  netloc.all (·.toNat < 128) || bare = rules.nfkc bare ||
    !(rules.nfkc bare).any (['/', '?', '#', '@', ':'].contains ·)

def urlsplit (s : List Char) : Except ParseError Split :=
  let parts := splitScheme (clean s)
  let netloc := authority parts.2
  if netloc.contains '[' ≠ netloc.contains ']' then .error .brackets
  else if netloc.contains '[' ∧ rules.bracketedHost (bracketed netloc) = false then .error .host
  else if checkNetloc rules netloc = false then .error .normalization
  else .ok ⟨parts.1, netloc⟩

/-! ## 2. Texts that start alike -/

theorem urlsplit_eq_ok {rules : Rules} {s : List Char} {split : Split}
    (h : urlsplit rules s = .ok split) :
    split.scheme = (splitScheme (clean s)).1 ∧ split.netloc = authority (splitScheme (clean s)).2 := by
  simp only [urlsplit] at h
  split_ifs at h
  obtain rfl := Except.ok.inj h
  exact ⟨rfl, rfl⟩

theorem clean_prefix {s t : List Char} (h : s <+: t) : clean s <+: clean t := by
  obtain ⟨rest, rfl⟩ := h
  rw [clean, clean, List.dropWhile_append]
  split_ifs with hempty
  · rw [List.isEmpty_iff.mp hempty]
    exact List.nil_prefix
  · exact (List.prefix_append _ rest).filter _

theorem splitScheme_noColon {s : List Char} (h : s.dropWhile (· ≠ ':') = []) :
    splitScheme s = ([], s) := by
  rw [splitScheme, h]

theorem splitScheme_colon {s rest : List Char} {c : Char}
    (h : s.dropWhile (· ≠ ':') = c :: rest) : splitScheme s =
      if isScheme (s.takeWhile (· ≠ ':')) then
        ((s.takeWhile (· ≠ ':')).map Char.toLower, rest)
      else ([], s) := by
  rw [splitScheme, h]

theorem splitScheme_slash (rest : List Char) : splitScheme ('/' :: rest) = ([], '/' :: rest) := by
  have hfront : isScheme (('/' :: rest).takeWhile (· ≠ ':')) = false := by
    rw [List.takeWhile_cons_of_pos (by decide)]
    rfl
  cases hcolon : ('/' :: rest).dropWhile (· ≠ ':') with
  | nil => exact splitScheme_noColon hcolon
  | cons c more =>
    rw [splitScheme_colon hcolon, hfront]
    rfl

/-- Once the two slashes are read, the scheme is settled. -/
theorem splitScheme_append {s rest : List Char} (h : (splitScheme s).2 = '/' :: '/' :: rest)
    (t : List Char) : splitScheme (s ++ t) = ((splitScheme s).1, (splitScheme s).2 ++ t) := by
  cases hcolon : s.dropWhile (· ≠ ':') with
  | nil =>
    rw [splitScheme_noColon hcolon] at h ⊢
    obtain rfl : s = '/' :: '/' :: rest := h
    exact splitScheme_slash _
  | cons c more =>
    have hdrop : (s ++ t).dropWhile (· ≠ ':') = c :: (more ++ t) := by
      rw [List.dropWhile_append, hcolon]
      rfl
    have htake : (s ++ t).takeWhile (· ≠ ':') = s.takeWhile (· ≠ ':') := by
      have hlength := congrArg List.length (List.takeWhile_append_dropWhile (p := (· ≠ ':')) (l := s))
      rw [hcolon, List.length_append, List.length_cons] at hlength
      rw [List.takeWhile_append, if_neg (by omega)]
    rw [splitScheme_colon hdrop, splitScheme_colon hcolon, htake]
    split_ifs <;> rfl

/-- A location that is not empty has two slashes before it. -/
theorem authority_ne_nil {url : List Char} (h : authority url ≠ []) :
    ∃ c rest, url = '/' :: '/' :: c :: rest ∧ isDelimiter c = false := by
  unfold authority at h
  split at h
  · rename_i rest
    cases rest with
    | nil => exact absurd rfl h
    | cons c rest =>
      cases hc : isDelimiter c with
      | false => exact ⟨c, rest, rfl, hc⟩
      | true =>
        rw [List.takeWhile_cons_of_neg (by rw [hc]; decide)] at h
        exact absurd rfl h
  · exact absurd rfl h

theorem authority_append_ne_nil {url : List Char} (h : authority url ≠ []) (t : List Char) :
    authority (url ++ t) ≠ [] := by
  obtain ⟨c, rest, rfl, hc⟩ := authority_ne_nil h
  show ((c :: rest ++ t).takeWhile (!isDelimiter ·)) ≠ []
  rw [List.cons_append, List.takeWhile_cons_of_pos (by rw [hc]; rfl)]
  exact List.cons_ne_nil _ _

variable {rules}

/-- A location that is read stays one when more text follows, with the same scheme. -/
theorem netloc_of_start {s t : List Char} (h : s <+: t) {short whole : Split}
    (hshort : urlsplit rules s = .ok short) (hwhole : urlsplit rules t = .ok whole)
    (hne : short.netloc ≠ []) : whole.scheme = short.scheme ∧ whole.netloc ≠ [] := by
  obtain ⟨hscheme, hnetloc⟩ := urlsplit_eq_ok hshort
  obtain ⟨hscheme', hnetloc'⟩ := urlsplit_eq_ok hwhole
  obtain ⟨more, hmore⟩ := clean_prefix h
  rw [hnetloc] at hne
  obtain ⟨c, rest, hslashes, -⟩ := authority_ne_nil hne
  have hsplit := splitScheme_append hslashes more
  rw [hmore] at hsplit
  rw [hscheme', hscheme, hnetloc', hsplit]
  exact ⟨rfl, authority_append_ne_nil hne more⟩

end Rules

end Url
