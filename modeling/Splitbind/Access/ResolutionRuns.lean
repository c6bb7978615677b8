import Splitbind.Access.Resolution

/-!
# Runs of resolutions — one call alone, and any number at once

Alone, the statements of a call do what the service does as one step.  Together, calls agree on one
row of an address, as long as no statement acts on what has changed since its call read it.
-/

namespace Splitbind

open Transaction WorkerPool

/-! ## 1. A call on its own -/

section Alone

variable {rules : TextRules} {call : ResolveCall} {db : Database}

/-- Where a call that nothing interrupts ends. -/
def resolveEnd (rules : TextRules) (call : ResolveCall) (db : Database) :
    RecipientStore × ResolveStage :=
  match resolveRecipientForIssue rules call.organizationId call.recipientEmail call.recipientName
    call.fresh db with
  | .ok (recipient, db') => (⟨db'.recipients, []⟩, .returned recipient)
  | .error error => (⟨db.recipients, []⟩, .failed error)

/-- Some statements of a call lead from one stage to another. -/
def ResolveLeads (rules : TextRules) (call : ResolveCall) :
    RecipientStore × ResolveStage → RecipientStore × ResolveStage → Prop :=
  Relation.ReflTransGen fun a b ↦ resolveStatement rules a.1 call a.2 = some b

theorem updateDisplayName_eq_save {rows : List Recipient}
    (hids : (rows.map Recipient.id).Nodup) {read : Recipient} (hread : read ∈ rows)
    (name : String) : updateDisplayName read.id name rows =
      Table.save (·.id) rows { read with displayName := name } :=
  Table.map_update_eq_save hids hread rfl

/-- The statements after a row was read do what filling in its name does. -/
theorem fillStage_leads (hids : (db.recipients.map Recipient.id).Nodup) {read : Recipient}
    (hread : read ∈ db.recipients) :
    ResolveLeads rules call (⟨db.recipients, []⟩, fillStage call read)
      (match fillDisplayName call.name read db with
      | .ok (recipient, db') => (⟨db'.recipients, []⟩, .returned recipient)
      | .error error => (⟨db.recipients, []⟩, .failed error)) := by
  rw [fillStage, fillDisplayName]
  by_cases hfills : call.name ≠ "" ∧ strip read.displayName = ""
  · rw [if_pos hfills, if_pos hfills]
    have hchecked : resolveStatement rules ⟨db.recipients, []⟩ call (.checking read) =
        some (⟨db.recipients, []⟩, .writing read) := by
      have hfind : db.recipients.find? (fun row ↦ row.id = read.id) = some read :=
        Table.find?_eq_some hids hread (decide_eq_true rfl) fun _ hid ↦ of_decide_eq_true hid
      rw [resolveStatement, hfind]
      exact if_neg fun h ↦ h rfl
    refine Relation.ReflTransGen.head hchecked (Relation.ReflTransGen.single ?_)
    rw [resolveStatement]
    by_cases hlong : 200 < call.name.length
    · rw [if_pos hlong, raiseIf_pos hlong]
      rfl
    · rw [if_neg hlong, if_pos ⟨read, hread, rfl⟩, raiseIf_neg hlong,
        updateDisplayName_eq_save hids hread]
      rfl
  · rw [if_neg hfills, if_neg hfills]
    exact Relation.ReflTransGen.refl

/-- **A call that nothing interrupts** is the service as one step. -/
theorem resolve_alone (hids : (db.recipients.map Recipient.id).Nodup) :
    ResolveLeads rules call (⟨db.recipients, []⟩, .ready) (resolveEnd rules call db) := by
  have hemail : canonicalEmail rules call.recipientEmail = call.email rules := rfl
  have hname : strip (call.recipientName.getD "") = call.name := rfl
  rw [resolveEnd]
  unfold resolveRecipientForIssue
  rw [hemail, hname]
  dsimp only
  -- an address that is not valid is refused before anything is read
  by_cases hvalid : rules.validEmail (call.email rules) = false
  · rw [raiseIf_pos hvalid]
    refine Relation.ReflTransGen.single ?_
    rw [resolveStatement, if_pos hvalid]
    rfl
  rw [raiseIf_neg hvalid, ok_bind]
  cases hfirst : firstRecipient (matchingRecipients rules call.organizationId (call.email rules)
      db.recipients) with
  | some read =>
    have hread := (mem_matchingRecipients.mp (mem_of_firstRecipient hfirst)).1
    refine Relation.ReflTransGen.head ?_ (fillStage_leads hids hread)
    rw [resolveStatement, if_neg hvalid, hfirst]
  | none =>
    have hnil := firstRecipient_eq_none.mp hfirst
    have hread : resolveStatement rules ⟨db.recipients, []⟩ call .ready =
        some (⟨db.recipients, []⟩, .absent) := by
      rw [resolveStatement, if_neg hvalid, hfirst]
    refine Relation.ReflTransGen.head hread ?_
    -- a call alone has no rows of its own before it inserts one
    have hnone : ¬ ∃ row ∈ ([] : List Recipient), call.ClashesWith rules row := by
      rintro ⟨row, hrow, -⟩
      exact List.not_mem_nil hrow
    by_cases hlong : 120 < (call.email rules).length ∨ 200 < call.name.length
    · have hcreated : createRecipient call.organizationId (call.email rules) call.name call.fresh
          db = .error .other := by
        rw [createRecipient, raiseIf_pos hlong]
        rfl
      rw [hcreated]
      refine Relation.ReflTransGen.single ?_
      rw [resolveStatement, if_pos (show call.TooLong rules from hlong)]
    have hshort : ¬ call.TooLong rules := hlong
    by_cases hclash : ∃ row ∈ db.recipients, call.ClashesWith rules row
    · -- the row that the insertion runs into is not found again
      have hcreated : ∃ constraint, createRecipient call.organizationId (call.email rules)
          call.name call.fresh db = .error (.integrity constraint) := by
        rw [createRecipient, raiseIf_neg hlong, ok_bind]
        by_cases hkey : ∃ other ∈ db.recipients, other.id = call.fresh
        · exact ⟨_, by rw [raiseIf_pos hkey]; rfl⟩
        · rw [raiseIf_neg hkey, ok_bind]
          refine ⟨"recipient_org_ref_uniq", ?_⟩
          obtain ⟨row, hrow, hid | hreference⟩ := hclash
          · exact absurd ⟨row, hrow, hid⟩ hkey
          · rw [raiseIf_pos ⟨row, hrow, hreference⟩]
            rfl
      obtain ⟨constraint, hcreated⟩ := hcreated
      rw [hcreated]
      have hinserted : resolveStatement rules ⟨db.recipients, []⟩ call .absent =
          some (⟨db.recipients, []⟩, .conflict) := by
        rw [resolveStatement, if_neg hshort, if_neg hnone, if_pos hclash]
      refine Relation.ReflTransGen.head hinserted (Relation.ReflTransGen.single ?_)
      rw [resolveStatement, hnil]
      rfl
    · -- nothing is in the way of the insertion
      have hkey : ¬ ∃ other ∈ db.recipients, other.id = call.fresh := by
        rintro ⟨row, hrow, hid⟩
        exact hclash ⟨row, hrow, Or.inl hid⟩
      have hunique : ¬ ∃ other ∈ db.recipients,
          other.organizationId = call.organizationId ∧
            other.externalReference = call.email rules := by
        rintro ⟨row, hrow, hreference⟩
        exact hclash ⟨row, hrow, Or.inr hreference⟩
      have hcreated : createRecipient call.organizationId (call.email rules) call.name call.fresh
          db = .ok (call.row rules,
            { db with recipients := db.recipients ++ [call.row rules] }) := by
        rw [createRecipient, raiseIf_neg hlong, ok_bind, raiseIf_neg hkey, ok_bind,
          raiseIf_neg hunique]
        rfl
      rw [hcreated]
      have hinserted : resolveStatement rules ⟨db.recipients, []⟩ call .absent =
          some (⟨db.recipients, [call.row rules]⟩, .inserted (call.row rules)) := by
        rw [resolveStatement, if_neg hshort, if_neg hnone, if_neg hclash]
      refine Relation.ReflTransGen.head hinserted (Relation.ReflTransGen.single ?_)
      simp [resolveStatement]

end Alone

/-! ## 2. Runs of any number of calls -/

section Runs

variable {rules : TextRules} {W : Type*} [DecidableEq W]

theorem resolveProgram_call {store store' : RecipientStore} {p p' : ResolvePhase} {i : Unit}
    (h : (resolveProgram rules).call store p i = some (store', p')) :
    p'.call = p.call ∧ resolveStatement rules store p.call p.stage = some (store', p'.stage) := by
  obtain ⟨⟨store, stage⟩, hstatement, heq⟩ := Option.map_eq_some_iff.mp h
  cases heq
  exact ⟨rfl, hstatement⟩

theorem resolve_sound : Sound (resolveProgram rules) (asRead rules) .trivial
    (resolveAssertions rules) where
  symm _ _ h := h.symm
  keeps {store p i store' p'} _ _ hshared hown hfinds hcall := by
    obtain ⟨hsame, hstatement⟩ := resolveProgram_call hcall
    obtain ⟨hsingle, hnext, -⟩ := resolveStatement_keeps hshared hown hfinds hstatement
    obtain ⟨call, stage⟩ := p'
    cases hsame
    exact ⟨hsingle, hnext⟩
  others {store p q i store' p'} _ _ _ _ hshared hown hother hapart hfinds hcall := by
    obtain ⟨hsame, hstatement⟩ := resolveProgram_call hcall
    obtain ⟨-, -, hleaves⟩ := resolveStatement_keeps hshared hown hfinds hstatement
    refine ⟨hleaves.standsBy (Ne.symm hapart) hother, ?_⟩
    show p'.call.fresh ≠ q.call.fresh
    rw [hsame]
    exact hapart
  environment {store e} := nomatch e

/-- Calls that have not begun, over a table in which no two rows of an organisation are of one
address; the keys of the rows they would create are new. -/
structure ResolveStart (rules : TextRules) (calls : W → ResolveCall)
    (pool : Pool W RecipientStore ResolvePhase) : Prop where
  phases : ∀ w, pool.phase w = ⟨calls w, .ready⟩
  inserting : pool.store.inserting = []
  keys : (pool.store.recipients.map Recipient.id).Nodup
  addresses : ∀ row ∈ pool.store.recipients, ∀ other ∈ pool.store.recipients,
    row.organizationId = other.organizationId →
    rules.upper row.externalReference = rules.upper other.externalReference → row = other
  fresh : ∀ w, ∀ row ∈ pool.store.recipients, row.id ≠ (calls w).fresh
  distinct : ∀ w v, w ≠ v → (calls w).fresh ≠ (calls v).fresh

omit [DecidableEq W] in
theorem ResolveStart.holds {calls : W → ResolveCall} {pool : Pool W RecipientStore ResolvePhase}
    (h : ResolveStart rules calls pool) : (resolveAssertions rules).Holds pool := by
  have hall : pool.store.all = pool.store.recipients.map Recipient.identity := by
    rw [RecipientStore.all, h.inserting, List.map_nil, List.append_nil]
    rfl
  have hkeys : pool.store.all.map Prod.fst = pool.store.recipients.map Recipient.id := by
    rw [hall, List.map_map]
    rfl
  refine ⟨⟨?_, ?_⟩, fun w ↦ ?_, fun w v hwv ↦ ?_⟩
  · rw [hkeys]
    exact h.keys
  · intro a ha b hb horganization hupper
    rw [hall] at ha hb
    obtain ⟨row, hrow, rfl⟩ := List.mem_map.mp ha
    obtain ⟨other, hother, rfl⟩ := List.mem_map.mp hb
    rw [h.addresses row hrow other hother horganization hupper]
  · rw [h.phases w]
    show (calls w).fresh ∉ pool.store.all.map Prod.fst
    rw [hkeys]
    intro hmem
    obtain ⟨row, hrow, heq⟩ := List.mem_map.mp hmem
    exact h.fresh w row hrow heq
  · rw [h.phases w, h.phases v]
    exact h.distinct w v hwv

/-- An open insertion is that of a call which is about to commit it. -/
theorem resolve_owned
    {permits : Pool W RecipientStore ResolvePhase → WorkerPool.Event W Unit Empty → Prop}
    {start pool : Pool W RecipientStore ResolvePhase} (hstart : start.store.inserting = [])
    (hrun : (resolveProgram rules).LeadsWhen permits start pool) :
    ∀ row ∈ pool.store.inserting, ∃ w, (pool.phase w).stage = .inserted row := by
  refine hrun.keeps (fun pool ↦ ∀ row ∈ pool.store.inserting,
    ∃ w, (pool.phase w).stage = .inserted row) ?_ fun row hrow ↦ ?_
  · intro u e v _ hstep hu row hrow
    cases e with
    | environment e => exact nomatch e
    | worker w i =>
      obtain ⟨store, p, hcall, rfl⟩ := Program.step_worker hstep
      rcases resolveStatement_inserting (resolveProgram_call hcall).2 hrow with
        hnew | ⟨hmem, hother⟩
      · refine ⟨w, ?_⟩
        show (Function.update u.phase w p w).stage = _
        rw [Function.update_self]
        exact hnew
      · obtain ⟨owner, howner⟩ := hu row hmem
        refine ⟨owner, ?_⟩
        show (Function.update u.phase w p owner).stage = _
        have hne : owner ≠ w := by
          rintro rfl
          exact hother howner
        rw [Function.update_of_ne hne]
        exact howner
  · rw [hstart] at hrow
    exact absurd hrow List.not_mem_nil

/-- A row that has a name keeps it through every run whose statements find what was read. -/
theorem resolve_named {pool later : Pool W RecipientStore ResolvePhase}
    (hholds : (resolveAssertions rules).Holds pool)
    (hrun : (resolveProgram rules).Leads (asRead rules) pool later) {row : Recipient}
    (hrow : row ∈ pool.store.recipients) (hnamed : strip row.displayName ≠ "") :
    row ∈ later.store.recipients := by
  have hboth : (resolveAssertions rules).Holds later ∧ row ∈ later.store.recipients := by
    refine hrun.keeps (fun pool ↦ (resolveAssertions rules).Holds pool ∧
      row ∈ pool.store.recipients) ?_ ⟨hholds, hrow⟩
    rintro u e v hok hstep ⟨hu, hmem⟩
    refine ⟨resolve_sound.steps (Assertions.trivial_holds u) hu ⟨e, hok, hstep⟩, ?_⟩
    cases e with
    | environment e => exact nomatch e
    | worker w i =>
      obtain ⟨store, p, hcall, rfl⟩ := Program.step_worker hstep
      exact resolveStatement_named hok (resolveProgram_call hcall).2 hmem hnamed
  exact hboth.2

/-- **Concurrent resolutions.**  As long as each statement finds what its call has read, an
organisation has one row of an address at most, calls for one address return one row, a call fails
for what it was called with only, or waits for another one that can go on, and a name is never
replaced. -/
theorem resolve_concurrent {calls : W → ResolveCall}
    {start pool : Pool W RecipientStore ResolvePhase} (hstart : ResolveStart rules calls start)
    (hrun : (resolveProgram rules).Leads (asRead rules) start pool) :
    (∀ row ∈ pool.store.recipients, ∀ other ∈ pool.store.recipients,
      row.organizationId = other.organizationId →
      rules.upper row.externalReference = rules.upper other.externalReference → row = other) ∧
    (∀ w v recipient recipient', (pool.phase w).stage = .returned recipient →
      (pool.phase v).stage = .returned recipient' →
      (calls w).organizationId = (calls v).organizationId →
      rules.upper ((calls w).email rules) = rules.upper ((calls v).email rules) →
      recipient.id = recipient'.id) ∧
    (∀ w error, (pool.phase w).stage = .failed error → (calls w).OwnFault rules error) ∧
    (∀ w, (∀ recipient, (pool.phase w).stage ≠ .returned recipient) →
      (∀ error, (pool.phase w).stage ≠ .failed error) →
      (∃ next, (resolveProgram rules).step pool (.worker w ()) = some next) ∨
        ∃ v row, (pool.phase v).stage = .inserted row ∧ (calls w).ClashesWith rules row) ∧
    ∀ later, (resolveProgram rules).Leads (asRead rules) pool later →
      ∀ row ∈ pool.store.recipients, strip row.displayName ≠ "" →
        row ∈ later.store.recipients := by
  have hholds := resolve_sound.leads (fun u _ ↦ Assertions.trivial_holds u) hstart.holds hrun
  -- a call's arguments never change, so what a phase stands by is about the call itself
  have hcalls : ∀ w, (pool.phase w).call = calls w := by
    intro w
    rw [Program.LeadsWhen.phase_eq (fun hmoves ↦ (resolveProgram_call hmoves).1) hrun w,
      hstart.phases w]
  have hown : ∀ w stage, (pool.phase w).stage = stage →
      StandsBy rules pool.store ⟨calls w, stage⟩ := by
    intro w stage hstage
    have h := hholds.own w
    rw [← hcalls w, ← hstage]
    exact h
  refine ⟨fun row hrow other hother horganization hupper ↦ ?_,
    fun w v recipient recipient' hw hv horganization hupper ↦ ?_,
    fun w error herror ↦ hown w _ herror, fun w hreturned hfailed ↦ ?_,
    fun later hlater row hrow hnamed ↦ resolve_named hholds hlater hrow hnamed⟩
  · have hidentity := hholds.shared.addresses _ (List.mem_append_left _ (mem_all_of_mem hrow)) _
      (List.mem_append_left _ (mem_all_of_mem hother)) horganization hupper
    exact List.inj_on_of_nodup_map hholds.shared.ids hrow hother (Prod.ext_iff.mp hidentity).1
  · obtain ⟨hmem, hmatches⟩ := hown w _ hw
    obtain ⟨hmem', hmatches'⟩ := hown v _ hv
    have hidentity := hholds.shared.addresses _ (List.mem_append_left _ hmem) _
      (List.mem_append_left _ hmem') (hmatches.1.trans (horganization.trans hmatches'.1.symm))
      (hmatches.2.trans (hupper.trans hmatches'.2.symm))
    exact (Prod.ext_iff.mp hidentity).1
  · -- a call that can take no statement waits on a pending insert, which some call owns
    rcases resolveStatement_waits hreturned hfailed with ⟨next, hnext⟩ | ⟨row, hrow, hclash⟩
    · refine Or.inl ⟨⟨next.1, Function.update pool.phase w ⟨(pool.phase w).call, next.2⟩⟩, ?_⟩
      show ((resolveStatement rules pool.store (pool.phase w).call (pool.phase w).stage).map _).map
        _ = _
      rw [hnext]
      rfl
    · obtain ⟨v, hv⟩ := resolve_owned hstart.inserting hrun row hrow
      rw [hcalls w] at hclash
      exact Or.inr ⟨v, row, hv, hclash⟩

end Runs

/-! ## 3. Samples -/

/-- Texts in lower case; `UPPER` takes the long s to the letter that it is a form of. -/
def upperTextRules : TextRules where
  lower s := s
  upper s := String.ofList (s.toList.map fun c ↦ if c = 'ſ' then 'S' else c.toUpper)
  validEmail _ := true

def sampleCall (email name : String) (fresh : UUID) : ResolveCall :=
  ⟨⟨1⟩, email, some name, fresh⟩

/-- Calls that have not begun. -/
def resolvePool (calls : Fin 2 → ResolveCall) (rows : List Recipient) :
    Pool (Fin 2) RecipientStore ResolvePhase :=
  ⟨⟨rows, []⟩, fun w ↦ ⟨calls w, .ready⟩⟩

/-- The workers whose turn it is, one after the other. -/
def turns (workers : List (Fin 2)) : List (WorkerPool.Event (Fin 2) Unit Empty) :=
  workers.map fun w ↦ .worker w ()

theorem resolvePool_start {calls : Fin 2 → ResolveCall} {rows : List Recipient}
    (hkeys : (rows.map Recipient.id).Nodup) (hlength : rows.length ≤ 1)
    (hfresh : ∀ w, ∀ row ∈ rows, row.id ≠ (calls w).fresh)
    (hdistinct : (calls 0).fresh ≠ (calls 1).fresh) :
    ResolveStart upperTextRules calls (resolvePool calls rows) where
  phases _ := rfl
  inserting := rfl
  keys := hkeys
  addresses row hrow other hother _ _ := by
    have hrow : row ∈ rows := hrow
    have hother : other ∈ rows := hother
    match rows, hlength with
    | [], _ => exact absurd hrow List.not_mem_nil
    | [only], _ => rw [List.mem_singleton.mp hrow, List.mem_singleton.mp hother]
  fresh := hfresh
  distinct w v hwv := by
    match w, v with
    | 0, 0 | 1, 1 => exact absurd rfl hwv
    | 0, 1 => exact hdistinct
    | 1, 0 => exact hdistinct.symm

/-- Two calls, of which each has its own name to give. -/
def sampleCalls (email : Fin 2 → String) (w : Fin 2) : ResolveCall :=
  if w = 0 then sampleCall (email w) "Ann" ⟨10⟩ else sampleCall (email w) "Bob" ⟨11⟩

/-- The address of both calls of a sample. -/
def oneEmail (_ : Fin 2) : String := "ann@example.com"

/-- The second call finds the name that the first has given, and leaves it. -/
theorem resolve_concurrent_sample :
    ∃ pool : Pool (Fin 2) RecipientStore ResolvePhase,
      pool.store.recipients = [⟨⟨10⟩, ⟨1⟩, "ann@example.com", "Ann"⟩] ∧
      ∀ later, (resolveProgram upperTextRules).Leads (asRead upperTextRules) pool later →
        ⟨⟨10⟩, ⟨1⟩, "ann@example.com", "Ann"⟩ ∈ later.store.recipients := by
  have hstart : ResolveStart upperTextRules (sampleCalls oneEmail)
      (resolvePool (sampleCalls oneEmail) []) :=
    resolvePool_start (by decide) (by decide) (by decide) (by decide)
  have hrun : ∃ pool, (resolveProgram upperTextRules).Leads (asRead upperTextRules)
      (resolvePool (sampleCalls oneEmail) []) pool ∧
        pool.store.recipients = [⟨⟨10⟩, ⟨1⟩, "ann@example.com", "Ann"⟩] :=
    Program.leads_of_exec_map (turns [0, 0, 0, 1]) (by decide +kernel)
  obtain ⟨pool, hleads, hrows⟩ := hrun
  refine ⟨pool, hrows, fun later hlater ↦ ?_⟩
  refine (resolve_concurrent hstart hleads).2.2.2.2 later hlater _ ?_ (by decide)
  rw [hrows]
  exact List.mem_singleton_self _

/-- Two spellings of one address, where letter case is ignored as the database does. -/
def twoSpellings (w : Fin 2) : String := if w = 0 then "ſam@example.com" else "sam@example.com"

/-- Two calls that have both read a blank name both write theirs, and the second replaces the first;
and two calls that have both found no row of an address insert one for each of its spellings. -/
theorem name_replaced :
    (∃ named later, ResolveStart upperTextRules (sampleCalls oneEmail)
        (resolvePool (sampleCalls oneEmail) [⟨⟨7⟩, ⟨1⟩, "ann@example.com", ""⟩]) ∧
      (resolveProgram upperTextRules).Leads .all
        (resolvePool (sampleCalls oneEmail) [⟨⟨7⟩, ⟨1⟩, "ann@example.com", ""⟩]) named ∧
      (resolveProgram upperTextRules).Leads .all named later ∧
      named.store.recipients = [⟨⟨7⟩, ⟨1⟩, "ann@example.com", "Ann"⟩] ∧
      later.store.recipients = [⟨⟨7⟩, ⟨1⟩, "ann@example.com", "Bob"⟩]) ∧
    ∃ pool, ResolveStart upperTextRules (sampleCalls twoSpellings)
        (resolvePool (sampleCalls twoSpellings) []) ∧
      (resolveProgram upperTextRules).Leads .all (resolvePool (sampleCalls twoSpellings) []) pool ∧
      pool.store.recipients = [⟨⟨10⟩, ⟨1⟩, "ſam@example.com", "Ann"⟩,
        ⟨⟨11⟩, ⟨1⟩, "sam@example.com", "Bob"⟩] ∧
      upperTextRules.upper "ſam@example.com" = upperTextRules.upper "sam@example.com" := by
  constructor
  · have hrun : ∃ named, (resolveProgram upperTextRules).Leads .all
        (resolvePool (sampleCalls oneEmail) [⟨⟨7⟩, ⟨1⟩, "ann@example.com", ""⟩]) named ∧
          (named.store.recipients, ((resolveProgram upperTextRules).exec
            (Program.Allowed.all).permits named (turns [1, 1])).map (·.store.recipients)) =
          ([⟨⟨7⟩, ⟨1⟩, "ann@example.com", "Ann"⟩],
            some [⟨⟨7⟩, ⟨1⟩, "ann@example.com", "Bob"⟩]) :=
      Program.leads_of_exec_map (turns [0, 1, 0, 0]) (by decide +kernel)
    obtain ⟨named, hleads, hrows⟩ := hrun
    rw [Prod.mk.injEq] at hrows
    obtain ⟨later, hlater, hreplaced⟩ := Program.leads_of_exec_map (turns [1, 1]) hrows.2
    exact ⟨named, later, resolvePool_start (by decide) (by decide) (by decide) (by decide), hleads,
      hlater, hrows.1, hreplaced⟩
  · have hrun : ∃ pool, (resolveProgram upperTextRules).Leads .all
        (resolvePool (sampleCalls twoSpellings) []) pool ∧
          pool.store.recipients = [⟨⟨10⟩, ⟨1⟩, "ſam@example.com", "Ann"⟩,
            ⟨⟨11⟩, ⟨1⟩, "sam@example.com", "Bob"⟩] :=
      Program.leads_of_exec_map (turns [0, 1, 0, 0, 1, 1]) (by decide +kernel)
    obtain ⟨pool, hleads, hrows⟩ := hrun
    exact ⟨pool, resolvePool_start (by decide) (by decide) (by decide) (by decide), hleads, hrows,
      by decide⟩

end Splitbind
