import Splitbind.Retention.Changes

/-!
# Locks — the rows that open cleanup transactions keep to themselves

In every reachable pool the primary keys hold, no two workers hold one lock, and a worker inside a
deletion still finds the row it has locked as it was when it checked it.
-/

namespace Splitbind

open Transaction WorkerPool

namespace Platform

variable {formats : FormatChecker} {settings : ServiceSettings} {W : Type*} [DecidableEq W]

def lockAssertions : Assertions Store Phase where
  shared store := store.db.Keyed
  own store p := ∀ run candidate record, p.opened = some (run, candidate, record) →
    Holding store run candidate record
  apart p q := ∀ lock, p.lock = some lock → q.lock ≠ some lock

/-- A step gives back no lock but the worker's own. -/
theorem Stepped.locked_mem {store store' : Store} {p p' : Phase}
    (h : Stepped formats settings store p store' p') {lock : Lock} (hmem : lock ∈ store.locked)
    (hother : p.lock ≠ some lock) : lock ∈ store'.locked := by
  have hrelease : ∀ candidate : Candidate, p.lock = some (lockOf candidate) →
      lock ∈ store.locked.filter (· ≠ lockOf candidate) := by
    intro candidate hp
    rw [List.mem_filter]
    exact ⟨hmem, by simpa using fun heq : lock = lockOf candidate ↦ hother (heq ▸ hp)⟩
  cases h with
  | locked => exact List.mem_cons_of_mem _ hmem
  | left run candidate => exact hrelease candidate rfl
  | deletionFailed run candidate => exact hrelease candidate rfl
  | recorded run candidate => exact hrelease candidate rfl
  | unrecorded run candidate => exact hrelease candidate rfl
  | crashed =>
    simp only [Phase.crash, List.mem_filter]
    exact ⟨hmem, by simpa using fun heq ↦ hother heq.symm⟩
  | _ => exact hmem

/-- The open transaction after a step is none, the one before with nothing changed, or a new one
on a row nobody had locked. -/
theorem Stepped.opened_cases {store store' : Store} {p p' : Phase}
    (h : Stepped formats settings store p store' p') :
    p'.opened = none ∨
      (p'.opened = p.opened ∧ store'.locked = store.locked ∧ store'.db = store.db) ∨
      ∃ run candidate record, p'.opened = some (run, candidate, record) ∧
        lockOf candidate ∉ store.locked ∧ Holding store' run candidate record := by
  cases h with
  | attached promotion ids locked sha256 job p' hfree hattaches hjob hp' =>
    rcases hp' with ⟨domainId, rfl⟩ | ⟨code, error, rfl⟩ <;> exact .inl rfl
  | turned run run' p p' hnow hp hp' =>
    rcases hp' with ⟨fallback, rfl⟩ | ⟨fallback, rfl⟩ | ⟨candidate, rfl⟩ | rfl <;> exact .inl rfl
  | locked run candidate record hfree hrecord heligible =>
    exact .inr (.inr ⟨run, candidate, record, rfl, hfree, List.mem_cons_self, hrecord, heligible⟩)
  | passed | owned | deleted => exact .inr (.inl ⟨rfl, rfl, rfl⟩)
  | began _ _ _ _ _ _ _ _ _ _ hp' | recorded _ _ _ _ hp' | unclaimed _ _ _ _ hp'
  | claimCleared _ _ _ _ _ hp' | claimed _ _ _ _ _ _ _ _ _ hp' | dropped _ _ _ _ _ _ hp'
  | reconciled _ _ _ _ _ _ _ _ _ _ _ hp' =>
    rcases hp' with rfl | rfl <;> exact .inl rfl
  | _ => exact .inl rfl

/-- The lock of an open transaction, by its candidate. -/
theorem Phase.lock_of_opened {p : Phase} {run : CleanupRun} {candidate : Candidate}
    {record : LockedRecord} (h : p.opened = some (run, candidate, record)) :
    p.lock = some (lockOf candidate) := by
  rw [Phase.lock_eq, h, Option.map_some]

theorem lockAssertions_sound :
    Sound (program formats settings) .all .trivial lockAssertions where
  symm p q hpq lock hq hp := hpq lock hp hq
  keeps {store p i store' p'} _ _ hkeyed hown _ hcall := by
    have hstep : Stepped formats settings store p store' p' := call_stepped hcall
    refine ⟨(hstep.change hkeyed hown).keyed hkeyed, fun run candidate record hopened ↦ ?_⟩
    rcases hstep.opened_cases with hnone | ⟨hsame, hlocked, hdb⟩ |
      ⟨run', candidate', record', hnew, -, hholding⟩
    · simp [hnone] at hopened
    · obtain ⟨hmem, hrecord, heligible⟩ := hown run candidate record (hsame ▸ hopened)
      exact ⟨hlocked ▸ hmem, hdb ▸ hrecord, heligible⟩
    · obtain ⟨rfl, rfl, rfl⟩ : run' = run ∧ candidate' = candidate ∧ record' = record := by
        simpa [hnew] using hopened
      exact hholding
  others {store p q i store' p'} _ _ _ _ hkeyed hown hother hapart _ hcall := by
    have hstep : Stepped formats settings store p store' p' := call_stepped hcall
    constructor
    · intro run candidate record hopened
      obtain ⟨hlocked, hrecord, heligible⟩ := hother run candidate record hopened
      have hlock := Phase.lock_of_opened hopened
      have hnot : p.lock ≠ some (lockOf candidate) := fun hp ↦ hapart _ hp hlock
      refine ⟨hstep.locked_mem hlocked hnot, ?_, heligible⟩
      refine (hstep.change hkeyed hown).record ?_ hrecord
      simp only [freeFor, not_or, not_not]
      exact ⟨hlocked, hnot⟩
    · intro lock hp' hq
      rw [Phase.lock_eq, Option.map_eq_some_iff] at hp'
      obtain ⟨⟨run, candidate, record⟩, hopened', rfl⟩ := hp'
      rcases hstep.opened_cases with hnone | ⟨hsame, -, -⟩ |
        ⟨run', candidate', record', hnew, hfree, -⟩
      · simp [hnone] at hopened'
      · exact hapart _ (Phase.lock_of_opened (hsame ▸ hopened')) hq
      · obtain ⟨rfl, rfl, rfl⟩ : run' = run ∧ candidate' = candidate ∧ record' = record := by
          simpa [hnew] using hopened'
        rw [Phase.lock_eq, Option.map_eq_some_iff] at hq
        obtain ⟨⟨run, other, record⟩, hopened, heq⟩ := hq
        exact hfree (heq ▸ (hother run other record hopened).1)
  environment {store e store'} _ hkeyed _ henv := by
    have hhappened : Happened formats settings store store' := environment_happened hkeyed henv
    have hlocked : store'.locked = store.locked := by cases hhappened <;> rfl
    have hchange := hhappened.change hkeyed
    refine ⟨hchange.keyed hkeyed, fun q _ hown run candidate record hopened ↦ ?_⟩
    obtain ⟨hmem, hrecord, heligible⟩ := hown run candidate record hopened
    exact ⟨hlocked ▸ hmem, hchange.record (not_not.mpr hmem) hrecord, heligible⟩

omit [DecidableEq W] in
theorem Start.locks {pool : Pool W} (h : Start pool) : lockAssertions.Holds pool where
  shared := h.keyed
  own w run candidate record hopened := by
    rw [h.idle w] at hopened
    simp [Phase.opened] at hopened
  apart w v _ lock hlock := by
    rw [h.idle w] at hlock
    simp [Phase.lock] at hlock

theorem Reachable.locks {pool : Pool W} (h : Reachable formats settings pool) :
    lockAssertions.Holds pool := by
  obtain ⟨start, hstart, hleads⟩ := h
  exact lockAssertions_sound.leads (fun u _ ↦ Assertions.trivial_holds u) hstart.locks hleads

/-- What one step of a pool does: a worker's step, or an event. -/
theorem step_cases {pool pool' : Pool W} {event : WorkerPool.Event W Input Event}
    (hlocks : lockAssertions.Holds pool)
    (hstep : (program formats settings).step pool event = some pool') :
    (∃ w input, event = .worker w input ∧
      Stepped formats settings pool.store (pool.phase w) pool'.store (pool'.phase w)) ∨
    ((∃ e, event = .environment e) ∧ Happened formats settings pool.store pool'.store ∧
      pool'.phase = pool.phase) := by
  cases event with
  | worker w input =>
    obtain ⟨store, p, hcall, rfl⟩ := Program.step_worker hstep
    refine .inl ⟨w, input, rfl, ?_⟩
    simpa using call_stepped hcall
  | environment e =>
    obtain ⟨store, henv, rfl⟩ := Program.step_environment hstep
    exact .inr ⟨⟨e, rfl⟩, environment_happened hlocks.shared henv, rfl⟩

/-- What one step of a pool changes. -/
theorem step_change {pool pool' : Pool W} {event : WorkerPool.Event W Input Event}
    (hlocks : lockAssertions.Holds pool)
    (hstep : (program formats settings).step pool event = some pool') :
    Change formats settings (fun _ ↦ True) pool.store.clock pool.store.db pool'.store.db := by
  rcases step_cases hlocks hstep with ⟨w, -, -, hstepped⟩ | ⟨-, hhappened, -⟩
  · exact (hstepped.change hlocks.shared (hlocks.own w)).mono fun _ _ ↦ trivial
  · exact (hhappened.change hlocks.shared).mono fun _ _ ↦ trivial

end Platform

end Splitbind
