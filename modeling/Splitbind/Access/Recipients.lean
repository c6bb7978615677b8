import Mathlib.Data.List.DropRight
import Mathlib.Data.List.MinMax
import Splitbind.Database

/-!
# Recipients — the row an e-mail address stands for

`resolve_recipient_for_issue` finds the organisation's recipient of an address, or creates it, and
may fill in a name.  Letter case and the syntax of an address are those of the libraries.
-/

namespace Splitbind

open Transaction

/-! ## 1. Text -/

/-- `str.isspace` of one character. -/
def isSpace (c : Char) : Bool :=
  let n := c.toNat
  (9 ≤ n ∧ n ≤ 13) ∨ (28 ≤ n ∧ n ≤ 32) ∨ n = 0x85 ∨ n = 0xa0 ∨ n = 0x1680 ∨
    (0x2000 ≤ n ∧ n ≤ 0x200a) ∨ n = 0x2028 ∨ n = 0x2029 ∨ n = 0x202f ∨ n = 0x205f ∨ n = 0x3000

def strip (s : String) : String :=
  String.ofList ((s.toList.dropWhile isSpace).rdropWhile isSpace)

/-- What is left of a text ends in something that is no space. -/
theorem strip_strip_ne_empty {s : String} (h : strip s ≠ "") : strip (strip s) ≠ "" := by
  have hne : (s.toList.dropWhile isSpace).rdropWhile isSpace ≠ [] := by
    intro hnil
    exact h (by rw [strip, hnil, String.ofList_nil])
  set rest := (s.toList.dropWhile isSpace).rdropWhile isSpace with hrest
  have hlast : ¬ isSpace (rest.getLast hne) = true :=
    List.rdropWhile_last_not isSpace (s.toList.dropWhile isSpace) hne
  have hlist : (strip s).toList = rest := String.toList_ofList
  intro hempty
  have hnil : (rest.dropWhile isSpace).rdropWhile isSpace = [] := by
    rw [strip, hlist] at hempty
    exact String.ofList_inj.mp hempty
  have hall : ∀ c ∈ rest.dropWhile isSpace, isSpace c = true := List.rdropWhile_eq_nil_iff.mp hnil
  have hmem : rest.getLast hne ∈ rest.dropWhile isSpace := by
    have hdrop : rest.dropWhile isSpace ≠ [] := by
      intro hdrop
      exact hlast (List.dropWhile_eq_nil_iff.mp hdrop _ (List.getLast_mem hne))
    have hsuffix : rest.dropWhile isSpace <:+ rest := List.dropWhile_suffix isSpace
    rw [← hsuffix.getLast hdrop]
    exact List.getLast_mem hdrop
  exact hlast (hall _ hmem)

/-- What the code takes from its libraries about texts. -/
structure TextRules where
  /-- `str.lower`. -/
  lower : String → String
  /-- `UPPER`, by which `__iexact` compares. -/
  upper : String → String
  /-- Whether `validate_email` lets an address pass. -/
  validEmail : String → Bool

/-! ## 2. The service -/

section Resolve

variable (rules : TextRules) (organizationId : UUID)

/-- `filter(organization=..., external_reference__iexact=email)`. -/
def matchingRecipients (email : String) (rows : List Recipient) : List Recipient :=
  rows.filter fun recipient ↦ recipient.organizationId = organizationId ∧
    rules.upper recipient.externalReference = rules.upper email

/-- `first()`: an unordered query is ordered by the primary key. -/
def firstRecipient (rows : List Recipient) : Option Recipient :=
  rows.argmin (·.id.value.toNat)

/-- Fill in a missing display name. -/
def fillDisplayName (name : String) (recipient : Recipient) (db : Database) :
    Except Raised (Recipient × Database) :=
  if name ≠ "" ∧ strip recipient.displayName = "" then do
    -- the column is a `varchar(200)`
    raiseIf (200 < name.length) .other
    let named := { recipient with displayName := name }
    return (named, { db with recipients := Table.save (·.id) db.recipients named })
  else
    return (recipient, db)

/-- `Recipient.objects.create`. -/
def createRecipient (email name : String) (fresh : UUID) (db : Database) :
    Except Raised (Recipient × Database) := do
  raiseIf (120 < email.length ∨ 200 < name.length) .other
  raiseIf (∃ other ∈ db.recipients, other.id = fresh) (.integrity "access_recipient_pkey")
  raiseIf (∃ other ∈ db.recipients,
      other.organizationId = organizationId ∧ other.externalReference = email)
    (.integrity "recipient_org_ref_uniq")
  let recipient : Recipient := ⟨fresh, organizationId, email, name⟩
  return (recipient, { db with recipients := db.recipients ++ [recipient] })

/-- The canonical form of an address. -/
def canonicalEmail (recipientEmail : String) : String := rules.lower (strip recipientEmail)

/-- `resolve_recipient_for_issue`; `fresh` is the key a created row gets. -/
def resolveRecipientForIssue (recipientEmail : String) (recipientName : Option String)
    (fresh : UUID) (db : Database) : Except Raised (Recipient × Database) := do
  let email := canonicalEmail rules recipientEmail
  raiseIf (rules.validEmail email = false) (.validation "Enter a valid email address.")
  let name := strip (recipientName.getD "")
  match firstRecipient (matchingRecipients rules organizationId email db.recipients) with
  | some recipient => fillDisplayName name recipient db
  | none =>
    match createRecipient organizationId email name fresh db with
    | .error (.integrity _) =>
      -- another request was faster
      match matchingRecipients rules organizationId email db.recipients with
      | [recipient] => fillDisplayName name recipient db
      | [] => throw (.doesNotExist "Recipient")
      | _ => throw .other
    | created => created

end Resolve

/-! ## 3. What it writes -/

section Writes

variable (rules : TextRules) (organizationId : UUID)

theorem firstRecipient_eq_none {rows : List Recipient} : firstRecipient rows = none ↔ rows = [] :=
  List.argmin_eq_none

theorem mem_of_firstRecipient {rows : List Recipient} {recipient : Recipient}
    (h : firstRecipient rows = some recipient) : recipient ∈ rows := List.argmin_mem h

/-- When resolving an address writes a row: it creates one, or fills in the name of one. -/
def WritesRecipient (recipientEmail : String) (recipientName : Option String) (fresh : UUID)
    (rows : List Recipient) : Prop :=
  let email := canonicalEmail rules recipientEmail
  let name := strip (recipientName.getD "")
  rules.validEmail email = true ∧ name.length ≤ 200 ∧
    match firstRecipient (matchingRecipients rules organizationId email rows) with
    | some recipient => name ≠ "" ∧ strip recipient.displayName = ""
    | none => email.length ≤ 120 ∧ ∀ other ∈ rows, other.id ≠ fresh

variable {rules organizationId} {recipientEmail : String} {recipientName : Option String}
  {fresh : UUID} {db : Database}

/-- A resolution that writes leaves the row it returns in a table that has changed. -/
theorem resolveRecipientForIssue_writes
    (h : WritesRecipient rules organizationId recipientEmail recipientName fresh db.recipients) :
    ∃ recipient rows,
      resolveRecipientForIssue rules organizationId recipientEmail recipientName fresh db =
        .ok (recipient, { db with recipients := rows }) ∧ rows ≠ db.recipients ∧
      recipient ∈ rows ∧ recipient.organizationId = organizationId := by
  obtain ⟨hvalid, hname, h⟩ := h
  have hemail : ¬ rules.validEmail (canonicalEmail rules recipientEmail) = false := by
    rw [hvalid]
    decide
  simp only [resolveRecipientForIssue, raiseIf_neg hemail, ok_bind]
  set email := canonicalEmail rules recipientEmail
  set name := strip (recipientName.getD "") with hstripped
  cases hfirst : firstRecipient (matchingRecipients rules organizationId email db.recipients) with
  | some recipient =>
    rw [hfirst] at h
    obtain ⟨hne, hblank⟩ := h
    have hmem := List.mem_filter.mp (mem_of_firstRecipient hfirst)
    have horganization : recipient.organizationId = organizationId :=
      (of_decide_eq_true hmem.2).1
    refine ⟨{ recipient with displayName := name },
      Table.save (·.id) db.recipients { recipient with displayName := name }, ?_, ?_, ?_,
      horganization⟩
    · show fillDisplayName name recipient db = _
      rw [fillDisplayName, if_pos ⟨hne, hblank⟩, raiseIf_neg (by omega), ok_bind]
      rfl
    · -- the row had a blank name, and the given one is not
      intro hsame
      rw [← hsame] at hmem
      rcases Table.mem_save hmem.1 with heq | ⟨-, hother⟩
      · have hdisplay : recipient.displayName = name := congrArg Recipient.displayName heq
        rw [hdisplay, hstripped] at hblank
        exact strip_strip_ne_empty hne hblank
      · exact hother rfl
    · exact Table.mem_save_self hmem.1 rfl
  | none =>
    rw [hfirst] at h
    obtain ⟨hlength, hfresh⟩ := h
    have hnil := firstRecipient_eq_none.mp hfirst
    have hkey : ¬ ∃ other ∈ db.recipients, other.id = fresh := by
      rintro ⟨other, hother, heq⟩
      exact hfresh other hother heq
    have hunique : ¬ ∃ other ∈ db.recipients,
        other.organizationId = organizationId ∧ other.externalReference = email := by
      rintro ⟨other, hother, horganization, hreference⟩
      have hmatches : other ∈ matchingRecipients rules organizationId email db.recipients :=
        List.mem_filter.mpr ⟨hother, decide_eq_true ⟨horganization, by rw [hreference]⟩⟩
      rw [hnil] at hmatches
      exact List.not_mem_nil hmatches
    have hcreated : createRecipient organizationId email name fresh db =
        .ok (⟨fresh, organizationId, email, name⟩,
          { db with recipients := db.recipients ++ [⟨fresh, organizationId, email, name⟩] }) := by
      rw [createRecipient, raiseIf_neg (by omega), ok_bind, raiseIf_neg hkey, ok_bind,
        raiseIf_neg hunique, ok_bind]
      rfl
    refine ⟨⟨fresh, organizationId, email, name⟩,
      db.recipients ++ [⟨fresh, organizationId, email, name⟩], ?_, ?_, ?_, rfl⟩
    · simp only [hcreated]
    · intro hsame
      have hlength := congrArg List.length hsame
      rw [List.length_append, List.length_singleton] at hlength
      omega
    · exact List.mem_append_right _ (List.mem_singleton_self _)

theorem fillDisplayName_kept {name : String} {recipient recipient' : Recipient} {db' : Database}
    (h : fillDisplayName name recipient db = .ok (recipient', db')) :
    db' = db ∨ name.length ≤ 200 ∧ name ≠ "" ∧ strip recipient.displayName = "" := by
  rw [fillDisplayName] at h
  split at h
  · rename_i hfills
    simp only [bind_eq_ok, exists_unit, raiseIf_eq_ok] at h
    exact .inr ⟨by omega, hfills⟩
  · exact .inl (congrArg Prod.snd (Except.ok.inj h)).symm

/-- Any other resolution that returns leaves the tables as they are. -/
theorem resolveRecipientForIssue_kept
    (h : ¬ WritesRecipient rules organizationId recipientEmail recipientName fresh db.recipients)
    {recipient : Recipient} {db' : Database}
    (hresolve : resolveRecipientForIssue rules organizationId recipientEmail recipientName fresh
      db = .ok (recipient, db')) : db' = db := by
  simp only [resolveRecipientForIssue, bind_eq_ok, exists_unit, raiseIf_eq_ok,
    Bool.not_eq_false] at hresolve
  obtain ⟨hvalid, hresolve⟩ := hresolve
  cases hfirst : firstRecipient (matchingRecipients rules organizationId
      (canonicalEmail rules recipientEmail) db.recipients) with
  | some row =>
    rw [hfirst] at hresolve
    rcases fillDisplayName_kept hresolve with hkept | ⟨hname, hfills⟩
    · exact hkept
    · refine absurd ⟨hvalid, hname, ?_⟩ h
      rw [hfirst]
      exact hfills
  | none =>
    rw [hfirst] at hresolve
    have hnil := firstRecipient_eq_none.mp hfirst
    cases hcreated : createRecipient organizationId (canonicalEmail rules recipientEmail)
        (strip (recipientName.getD "")) fresh db with
    | error error =>
      rw [hcreated] at hresolve
      -- no row matches, so neither does one that another request could have created
      cases error <;> simp only [hnil] at hresolve <;> cases hresolve
    | ok created =>
      simp only [createRecipient, bind_eq_ok, exists_unit, raiseIf_eq_ok, not_or] at hcreated
      obtain ⟨hlength, hkey, -⟩ := hcreated
      refine absurd ⟨hvalid, by omega, ?_⟩ h
      rw [hfirst]
      exact ⟨by omega, fun other hother heq ↦ hkey ⟨other, hother, heq⟩⟩

end Writes

end Splitbind
