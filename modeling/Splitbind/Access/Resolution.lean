import Splitbind.Access.Recipients
import Splitbind.Library.WorkerPool

/-!
# Resolution — concurrent requests for the recipient of an address

Each database statement of `resolve_recipient_for_issue` is a step of its own.  A statement reads
what is committed, and an insertion waits while another one of the same address is open.
-/

namespace Splitbind

open Transaction WorkerPool

/-! ## 1. Calls, statement by statement -/

/-- The arguments of a call, and the key of the row it would create. -/
structure ResolveCall where
  organizationId : UUID
  recipientEmail : String
  recipientName : Option String
  fresh : UUID

def ResolveCall.email (rules : TextRules) (call : ResolveCall) : String :=
  canonicalEmail rules call.recipientEmail

def ResolveCall.name (call : ResolveCall) : String := strip (call.recipientName.getD "")

/-- Where a call stands between two statements; `read` is the row as the call has read it. -/
inductive ResolveStage
  | ready
  | absent
  | inserted (row : Recipient)
  | conflict
  | checking (read : Recipient)
  | writing (read : Recipient)
  | returned (recipient : Recipient)
  | failed (error : Raised)
deriving DecidableEq

structure ResolvePhase where
  call : ResolveCall
  stage : ResolveStage

/-- The committed rows, and those of open insertions. -/
structure RecipientStore where
  recipients : List Recipient
  inserting : List Recipient

/-- What a call does with a row it has read. -/
def fillStage (call : ResolveCall) (read : Recipient) : ResolveStage :=
  if call.name ≠ "" ∧ strip read.displayName = "" then .checking read else .returned read

/-- `UPDATE ... SET display_name`. -/
def updateDisplayName (id : UUID) (name : String) (rows : List Recipient) : List Recipient :=
  rows.map fun row ↦ if row.id = id then { row with displayName := name } else row

section Program

variable (rules : TextRules)

/-- Whether a row keeps another one from being inserted for a call. -/
def ResolveCall.ClashesWith (call : ResolveCall) (row : Recipient) : Prop :=
  row.id = call.fresh ∨
    row.organizationId = call.organizationId ∧ row.externalReference = call.email rules

instance (call : ResolveCall) (row : Recipient) : Decidable (call.ClashesWith rules row) :=
  inferInstanceAs (Decidable (_ ∨ _))

/-- The reference or the name is longer than its column. -/
def ResolveCall.TooLong (call : ResolveCall) : Prop :=
  120 < (call.email rules).length ∨ 200 < call.name.length

instance (call : ResolveCall) : Decidable (call.TooLong rules) :=
  inferInstanceAs (Decidable (_ ∨ _))

/-- The row that a call inserts. -/
def ResolveCall.row (call : ResolveCall) : Recipient :=
  ⟨call.fresh, call.organizationId, call.email rules, call.name⟩

/-- The next statement of a call. -/
def resolveStatement (store : RecipientStore) (call : ResolveCall) :
    ResolveStage → Option (RecipientStore × ResolveStage)
  | .ready =>
    if rules.validEmail (call.email rules) = false then
      some (store, .failed (.validation "Enter a valid email address."))
    else
      match firstRecipient (matchingRecipients rules call.organizationId (call.email rules)
        store.recipients) with
      | some read => some (store, fillStage call read)
      | none => some (store, .absent)
  | .absent =>
    if call.TooLong rules then some (store, .failed .other)
    else if ∃ row ∈ store.inserting, call.ClashesWith rules row then none
    else if ∃ row ∈ store.recipients, call.ClashesWith rules row then some (store, .conflict)
    else
      some ({ store with inserting := call.row rules :: store.inserting },
        .inserted (call.row rules))
  | .inserted row =>
    some (⟨store.recipients ++ [row], store.inserting.filter (· ≠ row)⟩, .returned row)
  | .conflict =>
    match matchingRecipients rules call.organizationId (call.email rules) store.recipients with
    | [read] => some (store, fillStage call read)
    | [] => some (store, .failed (.doesNotExist "Recipient"))
    | _ => some (store, .failed .other)
  | .checking read =>
    match store.recipients.find? fun row ↦ row.id = read.id with
    | none => some (store, .failed (.validation "persisted organization record no longer exists"))
    | some row =>
      if row.organizationId ≠ read.organizationId then
        some (store, .failed (.validation "organization cannot be changed after creation"))
      else some (store, .writing read)
  | .writing read =>
    if 200 < call.name.length then some (store, .failed .other)
    else if ∃ row ∈ store.recipients, row.id = read.id then
      some ({ store with recipients := updateDisplayName read.id call.name store.recipients },
        .returned { read with displayName := call.name })
    else some (store, .failed .other)
  | .returned _ => none
  | .failed _ => none

/-- Requests that resolve recipients, and nothing else. -/
def resolveProgram : Program RecipientStore ResolvePhase Unit Empty where
  call store p _ :=
    (resolveStatement rules store p.call p.stage).map fun r ↦ (r.1, ⟨p.call, r.2⟩)
  environment _ e := nomatch e

/-- A statement that finds what its call has read: an insertion finds no row of the address in
another spelling, and a name is written where it is still blank or the same.  A statement that the
database refuses for the length of its values finds what it may. -/
def FindsAsRead (store : RecipientStore) (p : ResolvePhase) : Prop :=
  match p.stage with
  | .absent => p.call.TooLong rules ∨ ∀ row ∈ store.recipients ++ store.inserting,
      row.organizationId = p.call.organizationId →
      rules.upper row.externalReference = rules.upper (p.call.email rules) →
      row.externalReference = p.call.email rules
  | .writing read => 200 < p.call.name.length ∨ ∀ row ∈ store.recipients, row.id = read.id →
      strip row.displayName = "" ∨ row.displayName = p.call.name
  | _ => True

instance (store : RecipientStore) (p : ResolvePhase) : Decidable (FindsAsRead rules store p) :=
  match p with
  | ⟨call, .absent⟩ => inferInstanceAs (Decidable (call.TooLong rules ∨
      ∀ row ∈ store.recipients ++ store.inserting, row.organizationId = call.organizationId →
        rules.upper row.externalReference = rules.upper (call.email rules) →
        row.externalReference = call.email rules))
  | ⟨call, .writing read⟩ => inferInstanceAs (Decidable (200 < call.name.length ∨
      ∀ row ∈ store.recipients, row.id = read.id →
        strip row.displayName = "" ∨ row.displayName = call.name))
  | ⟨_, .ready⟩ | ⟨_, .inserted _⟩ | ⟨_, .conflict⟩ | ⟨_, .checking _⟩ | ⟨_, .returned _⟩
  | ⟨_, .failed _⟩ => .isTrue True.intro

def asRead : Program.Allowed RecipientStore ResolvePhase Unit Empty where
  call store p _ := FindsAsRead rules store p
  environment _ _ := True

instance (store : RecipientStore) (p : ResolvePhase) (i : Unit) :
    Decidable ((asRead rules).call store p i) :=
  inferInstanceAs (Decidable (FindsAsRead rules store p))

instance (store : RecipientStore) (e : Empty) : Decidable ((asRead rules).environment store e) :=
  .isTrue True.intro

end Program

/-! ## 2. What the calls keep -/

/-- What no call changes of a row. -/
def Recipient.identity (row : Recipient) : UUID × UUID × String :=
  (row.id, row.organizationId, row.externalReference)

def RecipientStore.committed (store : RecipientStore) : List (UUID × UUID × String) :=
  store.recipients.map Recipient.identity

def RecipientStore.all (store : RecipientStore) : List (UUID × UUID × String) :=
  store.committed ++ store.inserting.map Recipient.identity

theorem identity_updateDisplayName (id : UUID) (name : String) (rows : List Recipient) :
    (updateDisplayName id name rows).map Recipient.identity = rows.map Recipient.identity := by
  rw [updateDisplayName, List.map_map]
  refine List.map_congr_left fun row _ ↦ ?_
  rw [Function.comp_apply]
  split <;> rfl

section Invariant

variable (rules : TextRules)

/-- The primary keys are distinct, and so are the addresses of an organisation. -/
structure RecipientStore.Single (store : RecipientStore) : Prop where
  keys : (store.all.map Prod.fst).Nodup
  addresses : ∀ a ∈ store.all, ∀ b ∈ store.all, a.2.1 = b.2.1 →
    rules.upper a.2.2 = rules.upper b.2.2 → a = b

/-- A row of the address of a call. -/
def ResolveCall.Matches (call : ResolveCall) (row : UUID × UUID × String) : Prop :=
  row.2.1 = call.organizationId ∧ rules.upper row.2.2 = rules.upper (call.email rules)

/-- What a call fails for by itself. -/
def ResolveCall.OwnFault (call : ResolveCall) (error : Raised) : Prop :=
  rules.validEmail (call.email rules) = false ∧
      error = .validation "Enter a valid email address." ∨
    call.TooLong rules ∧ error = .other

/-- What a call may rely on between two statements. -/
def StandsBy (store : RecipientStore) (p : ResolvePhase) : Prop :=
  match p.stage with
  | .ready => p.call.fresh ∉ store.all.map Prod.fst
  | .absent => p.call.fresh ∉ store.all.map Prod.fst
  | .inserted row => row = p.call.row rules ∧ row ∈ store.inserting
  | .conflict => ∃ row ∈ store.committed, p.call.Matches rules row
  | .checking read => read.identity ∈ store.committed ∧ p.call.Matches rules read.identity
  | .writing read => read.identity ∈ store.committed ∧ p.call.Matches rules read.identity
  | .returned recipient =>
    recipient.identity ∈ store.committed ∧ p.call.Matches rules recipient.identity
  | .failed error => p.call.OwnFault rules error

def resolveAssertions : Assertions RecipientStore ResolvePhase where
  shared := RecipientStore.Single rules
  own := StandsBy rules
  apart p q := p.call.fresh ≠ q.call.fresh

variable {rules} {store store' : RecipientStore} {call : ResolveCall} {stage stage' : ResolveStage}

theorem mem_matchingRecipients {row : Recipient} {organizationId : UUID} {email : String}
    {rows : List Recipient} : row ∈ matchingRecipients rules organizationId email rows ↔
      row ∈ rows ∧ row.organizationId = organizationId ∧
        rules.upper row.externalReference = rules.upper email := by
  rw [matchingRecipients, List.mem_filter, decide_eq_true_iff]

/-- A row that was read stands behind whatever is done with it. -/
theorem StandsBy.fill {read : Recipient} (hread : read.identity ∈ store.committed)
    (hmatches : call.Matches rules read.identity) :
    StandsBy rules store ⟨call, fillStage call read⟩ := by
  rw [fillStage]
  split
  · exact ⟨hread, hmatches⟩
  · exact ⟨hread, hmatches⟩

theorem mem_all_of_mem {row : Recipient} (h : row ∈ store.recipients) :
    row.identity ∈ store.committed := List.mem_map_of_mem h

theorem RecipientStore.Single.ids (hsingle : store.Single rules) :
    (store.recipients.map Recipient.id).Nodup := by
  have hkeys := hsingle.keys
  rw [RecipientStore.all, List.map_append, List.nodup_append, RecipientStore.committed,
    List.map_map] at hkeys
  exact hkeys.1

/-- The rows of a call's address are one row. -/
theorem matching_eq_singleton (hsingle : store.Single rules) {row : UUID × UUID × String}
    (hrow : row ∈ store.committed) (hmatches : call.Matches rules row) :
    ∃ read, matchingRecipients rules call.organizationId (call.email rules) store.recipients =
      [read] := by
  obtain ⟨read, hread, rfl⟩ := List.mem_map.mp hrow
  refine ⟨read, List.perm_singleton.mp ((List.perm_ext_iff_of_nodup ?_ ?_).mpr fun other ↦ ?_)⟩
  · exact (List.Nodup.of_map _ hsingle.ids).filter _
  · exact List.nodup_singleton read
  · rw [mem_matchingRecipients, List.mem_singleton]
    constructor
    · rintro ⟨hother, horganization, hupper⟩
      have hidentity := hsingle.addresses _ (List.mem_append_left _ (mem_all_of_mem hother)) _
        (List.mem_append_left _ hrow) (horganization.trans hmatches.1.symm)
        (hupper.trans hmatches.2.symm)
      exact List.inj_on_of_nodup_map hsingle.ids hother hread (Prod.ext_iff.mp hidentity).1
    · rintro rfl
      exact ⟨hread, hmatches⟩

/-! ## 3. What a statement does -/

/-- What a statement of a call does to the table, seen from the other calls. -/
structure LeavesOthers (store : RecipientStore) (call : ResolveCall) (store' : RecipientStore) :
    Prop where
  committed : ∀ row ∈ store.committed, row ∈ store'.committed
  inserting : ∀ row ∈ store.inserting, row.id ≠ call.fresh → row ∈ store'.inserting
  keys : ∀ id ∈ store'.all.map Prod.fst, id ∈ store.all.map Prod.fst ∨ id = call.fresh

theorem LeavesOthers.refl (store : RecipientStore) (call : ResolveCall) :
    LeavesOthers store call store where
  committed := fun _ h ↦ h
  inserting := fun _ h _ ↦ h
  keys := fun _ h ↦ Or.inl h

/-- What another call relies on outlives the statement. -/
theorem LeavesOthers.standsBy (hleaves : LeavesOthers store call store') {q : ResolvePhase}
    (hfresh : q.call.fresh ≠ call.fresh) (hq : StandsBy rules store q) :
    StandsBy rules store' q := by
  obtain ⟨other, stage⟩ := q
  have hunused : other.fresh ∉ store.all.map Prod.fst → other.fresh ∉ store'.all.map Prod.fst := by
    intro hnot hmem
    rcases hleaves.keys _ hmem with hmem | heq
    · exact hnot hmem
    · exact hfresh heq
  cases stage with
  | ready => exact hunused hq
  | absent => exact hunused hq
  | inserted row =>
    have hq : row = other.row rules ∧ row ∈ store.inserting := hq
    obtain ⟨rfl, hmem⟩ := hq
    exact ⟨rfl, hleaves.inserting _ hmem hfresh⟩
  | conflict =>
    obtain ⟨row, hmem, hmatches⟩ := hq
    exact ⟨row, hleaves.committed row hmem, hmatches⟩
  | checking read => exact ⟨hleaves.committed _ hq.1, hq.2⟩
  | writing read => exact ⟨hleaves.committed _ hq.1, hq.2⟩
  | returned recipient => exact ⟨hleaves.committed _ hq.1, hq.2⟩
  | failed error => exact hq

/-- **An insertion** adds the address of the call, which no other row has. -/
theorem insertion_keeps (hsingle : store.Single rules)
    (hfresh : call.fresh ∉ store.all.map Prod.fst)
    (hfinds : FindsAsRead rules store ⟨call, .absent⟩) (hlong : ¬ call.TooLong rules)
    (hinserting : ¬ ∃ row ∈ store.inserting, call.ClashesWith rules row)
    (hrecipients : ¬ ∃ row ∈ store.recipients, call.ClashesWith rules row) :
    let store' := { store with inserting := call.row rules :: store.inserting }
    RecipientStore.Single rules store' ∧ LeavesOthers store call store' := by
  intro store'
  have hall : store'.all.Perm ((call.row rules).identity :: store.all) := List.perm_middle
  have hother : ∀ row ∈ store.all, row.2.1 = call.organizationId →
      rules.upper row.2.2 ≠ rules.upper (call.email rules) := by
    intro identity hidentity horganization hupper
    rw [RecipientStore.all, RecipientStore.committed, ← List.map_append] at hidentity
    obtain ⟨row, hrow, rfl⟩ := List.mem_map.mp hidentity
    have hreference := hfinds.resolve_left hlong row hrow horganization hupper
    have hclash : call.ClashesWith rules row := Or.inr ⟨horganization, hreference⟩
    rcases List.mem_append.mp hrow with hcommitted | hopen
    · exact hrecipients ⟨row, hcommitted, hclash⟩
    · exact hinserting ⟨row, hopen, hclash⟩
  refine ⟨⟨?_, ?_⟩, ?_⟩
  · rw [(hall.map Prod.fst).nodup_iff]
    exact List.nodup_cons.mpr ⟨hfresh, hsingle.keys⟩
  · intro a ha b hb horganization hupper
    rcases List.mem_cons.mp (hall.mem_iff.mp ha) with rfl | ha <;>
      rcases List.mem_cons.mp (hall.mem_iff.mp hb) with rfl | hb
    · rfl
    · exact absurd hupper.symm (hother b hb horganization.symm)
    · exact absurd hupper (hother a ha horganization)
    · exact hsingle.addresses a ha b hb horganization hupper
  · refine ⟨fun row h ↦ h, fun row h _ ↦ List.mem_cons_of_mem _ h, fun id hid ↦ ?_⟩
    rcases List.mem_cons.mp ((hall.map Prod.fst).mem_iff.mp hid) with rfl | hid
    · exact Or.inr rfl
    · exact Or.inl hid

/-- **A commit** makes the row of an open insertion one of the table. -/
theorem commit_keeps (hsingle : store.Single rules) (hrow : call.row rules ∈ store.inserting) :
    let store' : RecipientStore := ⟨store.recipients ++ [call.row rules],
      store.inserting.filter (· ≠ call.row rules)⟩
    RecipientStore.Single rules store' ∧ LeavesOthers store call store' := by
  intro store'
  have hnodup : store.inserting.Nodup := by
    have hkeys := hsingle.keys
    rw [RecipientStore.all, List.map_append, List.nodup_append, List.map_map] at hkeys
    exact List.Nodup.of_map _ hkeys.2.1
  have hinserting : store.inserting.Perm
      (call.row rules :: store.inserting.filter (· ≠ call.row rules)) := by
    have hremoved := List.perm_cons_erase hrow
    rw [hnodup.erase_eq_filter] at hremoved
    refine hremoved.trans (List.Perm.of_eq (congrArg _ ?_))
    exact List.filter_congr fun row _ ↦ Bool.eq_iff_iff.mpr (by simp)
  have hall : store'.all.Perm store.all := by
    show ((store.recipients ++ [call.row rules]).map Recipient.identity ++ _).Perm _
    rw [List.map_append, List.append_assoc, List.map_singleton, List.singleton_append,
      ← List.map_cons]
    exact (hinserting.symm.map _).append_left _
  refine ⟨⟨?_, ?_⟩, ?_, ?_, ?_⟩
  · rw [(hall.map Prod.fst).nodup_iff]
    exact hsingle.keys
  · intro a ha b hb
    exact hsingle.addresses a (hall.mem_iff.mp ha) b (hall.mem_iff.mp hb)
  · intro row hmem
    show row ∈ (store.recipients ++ [call.row rules]).map Recipient.identity
    rw [List.map_append]
    exact List.mem_append_left _ hmem
  · intro row hmem hne
    refine List.mem_filter.mpr ⟨hmem, decide_eq_true ?_⟩
    rintro rfl
    exact hne rfl
  · intro id hid
    exact Or.inl ((hall.map Prod.fst).mem_iff.mp hid)

/-- **An update of a name** changes nothing else. -/
theorem update_keeps (call : ResolveCall) (hsingle : store.Single rules) (id : UUID)
    (name : String) :
    let store' := { store with recipients := updateDisplayName id name store.recipients }
    RecipientStore.Single rules store' ∧ LeavesOthers store call store' ∧
      store'.committed = store.committed := by
  intro store'
  have hcommitted : store'.committed = store.committed :=
    identity_updateDisplayName id name store.recipients
  have hall : store'.all = store.all := by
    rw [RecipientStore.all, hcommitted]
    rfl
  refine ⟨⟨?_, ?_⟩, ⟨?_, fun _ h _ ↦ h, ?_⟩, hcommitted⟩
  · rw [hall]
    exact hsingle.keys
  · rw [hall]
    exact hsingle.addresses
  · rw [hcommitted]
    exact fun _ h ↦ h
  · rw [hall]
    exact fun _ h ↦ Or.inl h

/-- **One statement.**  It keeps the addresses of an organisation distinct, what its call relies on
next, and what the others rely on. -/
theorem resolveStatement_keeps (hsingle : store.Single rules)
    (hown : StandsBy rules store ⟨call, stage⟩) (hfinds : FindsAsRead rules store ⟨call, stage⟩)
    (h : resolveStatement rules store call stage = some (store', stage')) :
    store'.Single rules ∧ StandsBy rules store' ⟨call, stage'⟩ ∧ LeavesOthers store call store' := by
  cases stage with
  | ready =>
    rw [resolveStatement] at h
    split at h
    case isTrue hvalid =>
      cases h
      exact ⟨hsingle, Or.inl ⟨hvalid, rfl⟩, LeavesOthers.refl store call⟩
    case isFalse hvalid =>
      cases hfirst : firstRecipient (matchingRecipients rules call.organizationId
          (call.email rules) store.recipients) with
      | none =>
        rw [hfirst] at h
        cases h
        exact ⟨hsingle, hown, LeavesOthers.refl store call⟩
      | some read =>
        rw [hfirst] at h
        cases h
        obtain ⟨hmem, hmatches⟩ := mem_matchingRecipients.mp (mem_of_firstRecipient hfirst)
        exact ⟨hsingle, StandsBy.fill (mem_all_of_mem hmem) hmatches, LeavesOthers.refl store call⟩
  | absent =>
    rw [resolveStatement] at h
    split at h
    case isTrue hlong =>
      cases h
      exact ⟨hsingle, Or.inr ⟨hlong, rfl⟩, LeavesOthers.refl store call⟩
    case isFalse hlong =>
      split at h
      · cases h
      rename_i hinserting
      split at h
      case isTrue hclash =>
        cases h
        refine ⟨hsingle, ?_, LeavesOthers.refl store call⟩
        obtain ⟨row, hmem, hclash⟩ := hclash
        rcases hclash with hid | ⟨horganization, hreference⟩
        · -- the key of the call is its own
          have hall : row.identity ∈ store.all := List.mem_append_left _ (mem_all_of_mem hmem)
          have hkey : row.identity.1 ∈ store.all.map Prod.fst := List.mem_map_of_mem hall
          rw [show row.identity.1 = call.fresh from hid] at hkey
          exact absurd hkey hown
        · exact ⟨row.identity, mem_all_of_mem hmem, horganization, congrArg rules.upper hreference⟩
      case isFalse hrecipients =>
        cases h
        obtain ⟨hkept, hleaves⟩ := insertion_keeps hsingle hown hfinds hlong hinserting
          hrecipients
        exact ⟨hkept, ⟨rfl, List.mem_cons_self⟩, hleaves⟩
  | inserted row =>
    have hown : row = call.row rules ∧ row ∈ store.inserting := hown
    obtain ⟨rfl, hmem⟩ := hown
    cases h
    obtain ⟨hkept, hleaves⟩ := commit_keeps hsingle hmem
    refine ⟨hkept, ⟨?_, rfl, rfl⟩, hleaves⟩
    exact List.mem_map_of_mem (List.mem_append_right _ (List.mem_singleton_self _))
  | conflict =>
    obtain ⟨row, hrow, hmatches⟩ := hown
    obtain ⟨read, hread⟩ := matching_eq_singleton hsingle hrow hmatches
    rw [resolveStatement, hread] at h
    cases h
    obtain ⟨hmem, hmatches⟩ := mem_matchingRecipients.mp
      (hread ▸ List.mem_singleton_self read : read ∈ matchingRecipients rules call.organizationId
        (call.email rules) store.recipients)
    exact ⟨hsingle, StandsBy.fill (mem_all_of_mem hmem) hmatches, LeavesOthers.refl store call⟩
  | checking read =>
    obtain ⟨row, hrow, hidentity⟩ := List.mem_map.mp hown.1
    have hid : row.id = read.id := (Prod.ext_iff.mp hidentity).1
    -- no statement takes away a row or moves it, so both refusals of `save` are out of reach
    have hfind : store.recipients.find? (fun other ↦ other.id = read.id) = some row :=
      Table.find?_eq_some hsingle.ids hrow (decide_eq_true hid) fun other hother ↦
        (of_decide_eq_true hother).trans hid.symm
    have horganization : row.organizationId = read.organizationId :=
      (Prod.ext_iff.mp (Prod.ext_iff.mp hidentity).2).1
    rw [resolveStatement, hfind] at h
    dsimp only at h
    rw [if_neg (not_not.mpr horganization)] at h
    cases h
    exact ⟨hsingle, hown, LeavesOthers.refl store call⟩
  | writing read =>
    rw [resolveStatement] at h
    split at h
    case isTrue hlong =>
      cases h
      exact ⟨hsingle, Or.inr ⟨Or.inr hlong, rfl⟩, LeavesOthers.refl store call⟩
    case isFalse hlong =>
      obtain ⟨row, hrow, hidentity⟩ := List.mem_map.mp hown.1
      rw [if_pos ⟨row, hrow, (Prod.ext_iff.mp hidentity).1⟩] at h
      cases h
      obtain ⟨hkept, hleaves, hcommitted⟩ := update_keeps call hsingle read.id call.name
      refine ⟨hkept, ⟨?_, hown.2⟩, hleaves⟩
      rw [hcommitted]
      exact hown.1
  | returned recipient => cases h
  | failed error => cases h

/-- Only a commit and an update change the table. -/
theorem resolveStatement_reads
    (h : resolveStatement rules store call stage = some (store', stage'))
    (hinserted : ∀ row, stage ≠ .inserted row) (hwriting : ∀ read, stage ≠ .writing read) :
    store'.recipients = store.recipients := by
  cases stage with
  | inserted row => exact absurd rfl (hinserted row)
  | writing read => exact absurd rfl (hwriting read)
  | ready =>
    rw [resolveStatement] at h
    split at h
    · cases h
      rfl
    split at h <;> cases h <;> rfl
  | absent =>
    rw [resolveStatement] at h
    split at h
    · cases h
      rfl
    split at h
    · cases h
    split at h <;> cases h <;> rfl
  | conflict =>
    rw [resolveStatement] at h
    split at h <;> cases h <;> rfl
  | checking read =>
    rw [resolveStatement] at h
    split at h
    · cases h
      rfl
    split at h <;> cases h <;> rfl
  | returned recipient => cases h
  | failed error => cases h

/-- An open insertion is one of before, or the one that the call has opened. -/
theorem resolveStatement_inserting
    (h : resolveStatement rules store call stage = some (store', stage')) {row : Recipient}
    (hrow : row ∈ store'.inserting) :
    stage' = .inserted row ∨ row ∈ store.inserting ∧ stage ≠ .inserted row := by
  -- a pending row leaves with its own commit and enters from an absent recipient only
  cases stage with
  | inserted other =>
    cases h
    obtain ⟨hmem, hne⟩ := List.mem_filter.mp hrow
    rw [decide_eq_true_iff] at hne
    exact Or.inr ⟨hmem, fun heq ↦ hne (ResolveStage.inserted.inj heq).symm⟩
  | absent =>
    rw [resolveStatement] at h
    split at h
    · cases h
      exact Or.inr ⟨hrow, nofun⟩
    split at h
    · cases h
    split at h
    · cases h
      exact Or.inr ⟨hrow, nofun⟩
    · cases h
      rcases List.mem_cons.mp hrow with rfl | hmem
      · exact Or.inl rfl
      · exact Or.inr ⟨hmem, nofun⟩
  | ready =>
    rw [resolveStatement] at h
    split at h
    · cases h
      exact Or.inr ⟨hrow, nofun⟩
    split at h <;> cases h <;> exact Or.inr ⟨hrow, nofun⟩
  | conflict =>
    rw [resolveStatement] at h
    split at h <;> cases h <;> exact Or.inr ⟨hrow, nofun⟩
  | checking read =>
    rw [resolveStatement] at h
    split at h
    · cases h
      exact Or.inr ⟨hrow, nofun⟩
    split at h <;> cases h <;> exact Or.inr ⟨hrow, nofun⟩
  | writing read =>
    rw [resolveStatement] at h
    split at h
    · cases h
      exact Or.inr ⟨hrow, nofun⟩
    split at h <;> cases h <;> exact Or.inr ⟨hrow, nofun⟩
  | returned recipient => cases h
  | failed error => cases h

/-- Only an insertion waits, and for an open one. -/
theorem resolveStatement_waits (hreturned : ∀ recipient, stage ≠ .returned recipient)
    (hfailed : ∀ error, stage ≠ .failed error) :
    (∃ next, resolveStatement rules store call stage = some next) ∨
      ∃ row ∈ store.inserting, call.ClashesWith rules row := by
  cases stage with
  | returned recipient => exact absurd rfl (hreturned recipient)
  | failed error => exact absurd rfl (hfailed error)
  | inserted row => exact Or.inl ⟨_, rfl⟩
  | absent =>
    by_cases hwaits : ∃ row ∈ store.inserting, call.ClashesWith rules row
    · exact Or.inr hwaits
    · left
      rw [resolveStatement, if_neg hwaits]
      split
      · exact ⟨_, rfl⟩
      split <;> exact ⟨_, rfl⟩
  | ready =>
    left
    rw [resolveStatement]
    split
    · exact ⟨_, rfl⟩
    split <;> exact ⟨_, rfl⟩
  | conflict =>
    left
    rw [resolveStatement]
    split <;> exact ⟨_, rfl⟩
  | checking read =>
    left
    rw [resolveStatement]
    split
    · exact ⟨_, rfl⟩
    split <;> exact ⟨_, rfl⟩
  | writing read =>
    left
    rw [resolveStatement]
    split
    · exact ⟨_, rfl⟩
    split <;> exact ⟨_, rfl⟩

/-- A row that has a name stays as it is. -/
theorem resolveStatement_named (hfinds : FindsAsRead rules store ⟨call, stage⟩)
    (h : resolveStatement rules store call stage = some (store', stage')) {row : Recipient}
    (hrow : row ∈ store.recipients) (hnamed : strip row.displayName ≠ "") :
    row ∈ store'.recipients := by
  cases stage with
  | inserted other =>
    cases h
    exact List.mem_append_left _ hrow
  | writing read =>
    rw [resolveStatement] at h
    split at h
    · cases h
      exact hrow
    rename_i hlong
    split at h
    · cases h
      -- the row itself, or one that this statement writes and whose name it already has
      refine List.mem_map.mpr ⟨row, hrow, ?_⟩
      by_cases hid : row.id = read.id
      · rcases hfinds.resolve_left hlong row hrow hid with hblank | hsame
        · exact absurd hblank hnamed
        · rw [if_pos hid, ← hsame]
      · rw [if_neg hid]
    · cases h
      exact hrow
  | ready =>
    rw [resolveStatement_reads h (fun _ hne ↦ nomatch hne) fun _ hne ↦ nomatch hne]
    exact hrow
  | absent =>
    rw [resolveStatement_reads h (fun _ hne ↦ nomatch hne) fun _ hne ↦ nomatch hne]
    exact hrow
  | conflict =>
    rw [resolveStatement_reads h (fun _ hne ↦ nomatch hne) fun _ hne ↦ nomatch hne]
    exact hrow
  | checking read =>
    rw [resolveStatement_reads h (fun _ hne ↦ nomatch hne) fun _ hne ↦ nomatch hne]
    exact hrow
  | returned recipient => cases h
  | failed error => cases h

end Invariant

end Splitbind
