import Mathlib.Algebra.GroupWithZero.Nat
import Mathlib.Logic.Function.Basic
import Mathlib.Logic.Relation

/-!
# Worker pools — interference-free assertions of concurrent workers

Any number of workers run one program against a shared store, one atomic step at a time; an
environment may change the store between two steps.  `Assertions` give a shared invariant,
what a worker's phase asserts of the store, and what the phases of two workers keep apart.
`Sound.leads` turns three local checks (the worker that moves keeps the invariant and reaches its
next assertion, its step leaves the others' assertions true, the environment does both) into a
statement about every interleaving.  A `Debt` is open only while somebody is on its way to pay it,
and a `Log` grows by what its workers write.
-/

namespace WorkerPool

variable {W σ π ι ε : Type*}

/-! ## 1. Programs, pools and runs -/

/-- One atomic step of a worker in a given phase, and one of the environment.  The input
resolves whatever the step itself does not determine; `none` means it is not enabled. -/
structure Program (σ π ι ε : Type*) where
  call : σ → π → ι → Option (σ × π)
  environment : σ → ε → Option σ

structure Pool (W σ π : Type*) where
  store : σ
  phase : W → π

inductive Event (W ι ε : Type*)
  | worker (w : W) (input : ι)
  | environment (event : ε)

/-- The workers of a pool of two are numbered from zero. -/
instance twoWorkers : NeZero 2 := ⟨by decide⟩

namespace Program

variable (P : Program σ π ι ε)

def step [DecidableEq W] (s : Pool W σ π) : Event W ι ε → Option (Pool W σ π)
  | .worker w i => (P.call s.store (s.phase w) i).map fun r ↦
      ⟨r.1, Function.update s.phase w r.2⟩
  | .environment e => (P.environment s.store e).map fun store ↦ ⟨store, s.phase⟩

/-- Which steps a run may take, seen from the store and phase before each of them. -/
structure Allowed (σ π ι ε : Type*) where
  call : σ → π → ι → Prop
  environment : σ → ε → Prop

/-- Every enabled step. -/
def Allowed.all : Allowed σ π ι ε := ⟨fun _ _ _ ↦ True, fun _ _ ↦ True⟩

def Allowed.permits (ok : Allowed σ π ι ε) (s : Pool W σ π) : Event W ι ε → Prop
  | .worker w i => ok.call s.store (s.phase w) i
  | .environment e => ok.environment s.store e

@[simp] theorem Allowed.all_permits (s : Pool W σ π) (e : Event W ι ε) :
    (Allowed.all : Allowed σ π ι ε).permits s e := by
  cases e <;> trivial

instance (s : Pool W σ π) (e : Event W ι ε) : Decidable ((Allowed.all : Allowed σ π ι ε).permits s e) :=
  .isTrue (Allowed.all_permits s e)

instance (ok : Allowed σ π ι ε) [∀ store p i, Decidable (ok.call store p i)]
    [∀ store e, Decidable (ok.environment store e)] (s : Pool W σ π) (e : Event W ι ε) :
    Decidable (ok.permits s e) :=
  match e with
  | .worker w i => inferInstanceAs (Decidable (ok.call s.store (s.phase w) i))
  | .environment e => inferInstanceAs (Decidable (ok.environment s.store e))

/-- Run a list of events; `none` as soon as one of them is not permitted or not enabled. -/
def exec [DecidableEq W] (permits : Pool W σ π → Event W ι ε → Prop)
    [∀ s e, Decidable (permits s e)] :
    Pool W σ π → List (Event W ι ε) → Option (Pool W σ π)
  | s, [] => some s
  | s, e :: events =>
    if permits s e then (P.step s e).bind fun t ↦ exec permits t events else none

/-- Some event that `permits` lets through, in the pool as a whole, takes `s` to `t`. -/
def StepsWhen [DecidableEq W] (permits : Pool W σ π → Event W ι ε → Prop)
    (s t : Pool W σ π) : Prop :=
  ∃ e, permits s e ∧ P.step s e = some t

/-- Some run of such events takes `s` to `t`. -/
def LeadsWhen [DecidableEq W] (permits : Pool W σ π → Event W ι ε → Prop) :
    Pool W σ π → Pool W σ π → Prop :=
  Relation.ReflTransGen (P.StepsWhen permits)

/-- Some allowed event takes `s` to `t`. -/
abbrev Steps [DecidableEq W] (ok : Allowed σ π ι ε) : Pool W σ π → Pool W σ π → Prop :=
  P.StepsWhen ok.permits

/-- Some run of allowed events takes `s` to `t`. -/
abbrev Leads [DecidableEq W] (ok : Allowed σ π ι ε) : Pool W σ π → Pool W σ π → Prop :=
  P.LeadsWhen ok.permits

variable {P}

theorem step_worker [DecidableEq W] {s t : Pool W σ π} {w : W} {i : ι}
    (h : P.step s (.worker w i) = some t) :
    ∃ store p, P.call s.store (s.phase w) i = some (store, p) ∧
      t = ⟨store, Function.update s.phase w p⟩ := by
  simp only [step, Option.map_eq_some_iff] at h
  obtain ⟨⟨store, p⟩, hcall, rfl⟩ := h
  exact ⟨store, p, hcall, rfl⟩

theorem step_environment [DecidableEq W] {s t : Pool W σ π} {e : ε}
    (h : P.step s (.environment e) = some t) :
    ∃ store, P.environment s.store e = some store ∧ t = ⟨store, s.phase⟩ := by
  simp only [step, Option.map_eq_some_iff] at h
  obtain ⟨store, henv, rfl⟩ := h
  exact ⟨store, henv, rfl⟩

section Exec

variable [DecidableEq W] {permits : Pool W σ π → Event W ι ε → Prop}
  [∀ s e, Decidable (permits s e)]

/-- A run that is not refused is a run. -/
theorem leads_of_exec {s t : Pool W σ π} {events : List (Event W ι ε)}
    (h : P.exec permits s events = some t) : P.LeadsWhen permits s t := by
  induction events generalizing s with
  | nil =>
    simp only [exec, Option.some.injEq] at h
    exact h ▸ .refl
  | cons e events ih =>
    unfold exec at h
    split at h
    · rename_i hok
      obtain ⟨u, hu, hrest⟩ := Option.bind_eq_some_iff.mp h
      exact .head ⟨e, hok, hu⟩ (ih hrest)
    · simp at h

/-- What can be read off the end of a run holds of a pool it leads to. -/
theorem leads_of_exec_map {γ : Type*} {s : Pool W σ π} (events : List (Event W ι ε))
    {f : Pool W σ π → γ} {c : γ} (h : (P.exec permits s events).map f = some c) :
    ∃ t, P.LeadsWhen permits s t ∧ f t = c := by
  simp only [Option.map_eq_some_iff] at h
  obtain ⟨t, ht, hf⟩ := h
  exact ⟨t, leads_of_exec ht, hf⟩

end Exec

/-- What every permitted event preserves holds wherever a run leads. -/
theorem LeadsWhen.keeps [DecidableEq W] {permits : Pool W σ π → Event W ι ε → Prop}
    {s t : Pool W σ π} (h : P.LeadsWhen permits s t) (I : Pool W σ π → Prop)
    (hstep : ∀ u e v, permits u e → P.step u e = some v → I u → I v) (hs : I s) : I t := by
  induction h with
  | refl => exact hs
  | tail _ hsteps ih =>
    obtain ⟨e, hok, he⟩ := hsteps
    exact hstep _ e _ hok he ih

/-- A run of permitted events is a run. -/
theorem LeadsWhen.weaken [DecidableEq W] {permits : Pool W σ π → Event W ι ε → Prop}
    {s t : Pool W σ π} (h : P.LeadsWhen permits s t) : P.Leads .all s t := by
  refine Relation.ReflTransGen.mono ?_ _ _ h
  rintro u v ⟨e, -, he⟩
  exact ⟨e, Allowed.all_permits u e, he⟩

end Program

/-! ## 2. Assertions -/

structure Assertions (σ π : Type*) where
  shared : σ → Prop
  own : σ → π → Prop
  apart : π → π → Prop

namespace Assertions

/-- The assertions that say nothing. -/
def trivial : Assertions σ π := ⟨fun _ ↦ True, fun _ _ ↦ True, fun _ _ ↦ True⟩

structure Holds (A : Assertions σ π) (s : Pool W σ π) : Prop where
  shared : A.shared s.store
  own : ∀ w, A.own s.store (s.phase w)
  apart : ∀ w v, w ≠ v → A.apart (s.phase w) (s.phase v)

theorem trivial_holds (s : Pool W σ π) : (trivial : Assertions σ π).Holds s :=
  ⟨True.intro, fun _ ↦ True.intro, fun _ _ _ ↦ True.intro⟩

/-- What two assertions say together. -/
def and (A B : Assertions σ π) : Assertions σ π where
  shared := fun store ↦ A.shared store ∧ B.shared store
  own := fun store p ↦ A.own store p ∧ B.own store p
  apart := fun p q ↦ A.apart p q ∧ B.apart p q

theorem Holds.and {A B : Assertions σ π} {s : Pool W σ π} (hA : A.Holds s) (hB : B.Holds s) :
    (A.and B).Holds s :=
  ⟨⟨hA.shared, hB.shared⟩, fun w ↦ ⟨hA.own w, hB.own w⟩,
    fun w v hwv ↦ ⟨hA.apart w v hwv, hB.apart w v hwv⟩⟩

end Assertions

open Program

/-- The local checks of assertions `A`, which may use the assertions `base` already known. -/
structure Sound (P : Program σ π ι ε) (ok : Allowed σ π ι ε) (base A : Assertions σ π) :
    Prop where
  symm : ∀ p q, A.apart p q → A.apart q p
  keeps : ∀ {store p i store' p'}, base.shared store → base.own store p →
    A.shared store → A.own store p → ok.call store p i →
    P.call store p i = some (store', p') → A.shared store' ∧ A.own store' p'
  others : ∀ {store p q i store' p'}, base.shared store → base.own store p →
    base.own store q → base.apart p q →
    A.shared store → A.own store p → A.own store q → A.apart p q → ok.call store p i →
    P.call store p i = some (store', p') → A.own store' q ∧ A.apart p' q
  environment : ∀ {store e store'}, base.shared store → A.shared store →
    ok.environment store e → P.environment store e = some store' →
    A.shared store' ∧ ∀ q, base.own store q → A.own store q → A.own store' q

/-- Sound assertions survive one allowed step. -/
theorem Sound.steps [DecidableEq W] {P : Program σ π ι ε} {ok : Allowed σ π ι ε}
    {base A : Assertions σ π} (hA : Sound P ok base A) {s t : Pool W σ π} (hbase : base.Holds s)
    (hs : A.Holds s) (h : P.Steps ok s t) : A.Holds t := by
  obtain ⟨e, hok, he⟩ := h
  cases e with
  | worker w i =>
    obtain ⟨store, p, hcall, rfl⟩ := step_worker he
    have hkeeps := hA.keeps hbase.shared (hbase.own w) hs.shared (hs.own w) hok hcall
    have hothers : ∀ v, v ≠ w → A.own store (s.phase v) ∧ A.apart p (s.phase v) := fun v hv ↦
      hA.others hbase.shared (hbase.own w) (hbase.own v) (hbase.apart w v hv.symm)
        hs.shared (hs.own w) (hs.own v) (hs.apart w v hv.symm) hok hcall
    refine ⟨hkeeps.1, fun v ↦ ?_, fun u v huv ↦ ?_⟩
    · by_cases hv : v = w
      · subst hv
        simpa using hkeeps.2
      · simpa [hv] using (hothers v hv).1
    · by_cases hu : u = w
      · subst hu
        simpa [huv.symm] using (hothers v huv.symm).2
      · by_cases hv : v = w
        · subst hv
          simpa [hu] using hA.symm _ _ (hothers u hu).2
        · simpa [hu, hv] using hs.apart u v huv
  | environment e =>
    obtain ⟨store, henv, rfl⟩ := step_environment he
    obtain ⟨hshared, hown⟩ := hA.environment hbase.shared hs.shared hok henv
    exact ⟨hshared, fun w ↦ hown _ (hbase.own w) (hs.own w), hs.apart⟩

/-- Sound assertions hold wherever an allowed run leads. -/
theorem Sound.leads [DecidableEq W] {P : Program σ π ι ε} {ok : Allowed σ π ι ε}
    {base A : Assertions σ π} (hA : Sound P ok base A) {s t : Pool W σ π}
    (hbase : ∀ u, P.Leads ok s u → base.Holds u) (hs : A.Holds s) (h : P.Leads ok s t) :
    A.Holds t := by
  induction h with
  | refl => exact hs
  | tail hsu hstep ih => exact hA.steps (hbase _ hsu) ih hstep

/-! ## 3. Debts -/

/-- A debt of the store that some worker is on its way to pay. -/
structure Debt (σ π : Type*) where
  owed : σ → Prop
  paying : σ → π → Prop

def Debt.Holds (D : Debt σ π) (s : Pool W σ π) : Prop :=
  D.owed s.store → ∃ w, D.paying s.store (s.phase w)

/-- The checks of a debt: the worker that moves pays from now on, or the debt was there before or
had its payer already, somebody else pays it, and goes on paying. -/
structure Debt.Sound (P : Program σ π ι ε) (permits : Pool W σ π → Event W ι ε → Prop)
    (base : Assertions σ π) (D : Debt σ π) : Prop where
  call : ∀ {s w i store' p'}, base.Holds s → permits s (.worker w i) →
    P.call s.store (s.phase w) i = some (store', p') → D.owed store' →
    D.paying store' p' ∨
      (D.owed s.store ∨ ∃ v, D.paying s.store (s.phase v)) ∧ ¬ D.paying s.store (s.phase w) ∧
        ∀ q, base.own s.store q → base.apart (s.phase w) q → D.paying s.store q →
          D.paying store' q
  environment : ∀ {s e store'}, base.Holds s → permits s (.environment e) →
    P.environment s.store e = some store' → D.owed store' →
    D.owed s.store ∧ ∀ q, base.own s.store q → D.paying s.store q → D.paying store' q

theorem Debt.Sound.steps [DecidableEq W] {P : Program σ π ι ε}
    {permits : Pool W σ π → Event W ι ε → Prop} {base : Assertions σ π} {D : Debt σ π}
    (hD : D.Sound P permits base) {s t : Pool W σ π} (hbase : base.Holds s) (hs : D.Holds s)
    (h : P.StepsWhen permits s t) : D.Holds t := by
  obtain ⟨e, hok, he⟩ := h
  intro howed
  cases e with
  | worker w i =>
    obtain ⟨store, p, hcall, rfl⟩ := step_worker he
    rcases hD.call hbase hok hcall howed with hpays | ⟨hbefore, hnot, hstay⟩
    · exact ⟨w, by simpa using hpays⟩
    · obtain ⟨v, hv⟩ := hbefore.elim hs id
      have hvw : v ≠ w := fun hvw ↦ hnot (hvw ▸ hv)
      refine ⟨v, ?_⟩
      simpa [hvw] using hstay _ (hbase.own v) (hbase.apart w v hvw.symm) hv
  | environment e =>
    obtain ⟨store, henv, rfl⟩ := step_environment he
    obtain ⟨hbefore, hstay⟩ := hD.environment hbase hok henv howed
    obtain ⟨v, hv⟩ := hs hbefore
    exact ⟨v, hstay _ (hbase.own v) hv⟩

/-- Wherever a permitted run leads, an open debt has its payer. -/
theorem Debt.Sound.leads [DecidableEq W] {P : Program σ π ι ε}
    {permits : Pool W σ π → Event W ι ε → Prop} {base : Assertions σ π} {D : Debt σ π}
    (hD : D.Sound P permits base) {s t : Pool W σ π}
    (hbase : ∀ u, P.LeadsWhen permits s u → base.Holds u) (hs : D.Holds s)
    (h : P.LeadsWhen permits s t) : D.Holds t := by
  induction h with
  | refl => exact hs
  | tail hsu hstep ih => exact hD.steps (hbase _ hsu) ih hstep

/-! ## 4. Logs -/

/-- What no step changes of a worker's own phase stays as it is. -/
theorem Program.LeadsWhen.phase_eq [DecidableEq W] {P : Program σ π ι ε}
    {permits : Pool W σ π → Event W ι ε → Prop} {γ : Type*} {f : π → γ}
    (hcall : ∀ {store p i store' p'}, P.call store p i = some (store', p') → f p' = f p)
    {s t : Pool W σ π} (h : P.LeadsWhen permits s t) (w : W) : f (t.phase w) = f (s.phase w) := by
  refine h.keeps (fun u ↦ f (u.phase w) = f (s.phase w)) (fun u e v _ hstep hu ↦ ?_) rfl
  cases e with
  | worker w' i =>
    obtain ⟨store, p, hmoves, rfl⟩ := step_worker hstep
    show f (Function.update u.phase w' p w) = _
    by_cases hw : w = w'
    · subst hw
      rw [Function.update_self, hcall hmoves, hu]
    · rw [Function.update_of_ne hw, hu]
  | environment e =>
    obtain ⟨store, -, rfl⟩ := step_environment hstep
    exact hu

/-- A log in the store, and what of it a worker in some phase has written. -/
structure Log (σ π α : Type*) where
  entries : σ → List α
  written : π → List α

/-- The checks of a log: a step appends to it what it adds to the worker's own part. -/
structure Log.Sound {α : Type*} (P : Program σ π ι ε) (base : Assertions σ π) (L : Log σ π α) :
    Prop where
  call : ∀ {store p i store' p'}, base.shared store → base.own store p →
    P.call store p i = some (store', p') →
    ∃ added, L.entries store' = L.entries store ++ added ∧ L.written p' = L.written p ++ added
  environment : ∀ {store e store'}, P.environment store e = some store' →
    L.entries store' = L.entries store

/-- A run appends to the log what its workers have written meanwhile, each entry by one of them. -/
theorem Log.Sound.leads [DecidableEq W] {α : Type*} {P : Program σ π ι ε}
    {permits : Pool W σ π → Event W ι ε → Prop} {base : Assertions σ π} {L : Log σ π α}
    (hL : L.Sound P base) {s t : Pool W σ π}
    (hbase : ∀ u, P.LeadsWhen permits s u → base.Holds u) (h : P.LeadsWhen permits s t) :
    ∃ added : List (W × α), L.entries t.store = L.entries s.store ++ added.map Prod.snd ∧
      ∀ w, L.written (t.phase w) =
        L.written (s.phase w) ++ (added.filter (·.1 = w)).map Prod.snd := by
  induction h with
  | refl => exact ⟨[], (List.append_nil _).symm, fun w ↦ (List.append_nil _).symm⟩
  | @tail u _ hsu hstep ih =>
    obtain ⟨added, hentries, hwritten⟩ := ih
    obtain ⟨e, -, he⟩ := hstep
    cases e with
    | worker w i =>
      obtain ⟨store, p, hmoves, rfl⟩ := step_worker he
      obtain ⟨new, hnew, hown⟩ := hL.call (hbase u hsu).shared ((hbase u hsu).own w) hmoves
      refine ⟨added ++ new.map (Prod.mk w), ?_, fun v ↦ ?_⟩
      · show L.entries store = _
        rw [hnew, hentries, List.append_assoc, List.map_append, List.map_map]
        exact congrArg _ (congrArg _ (List.map_id' new).symm)
      · show L.written (Function.update u.phase w p v) = _
        rw [List.filter_append, List.map_append, ← List.append_assoc, ← hwritten v]
        by_cases hv : v = w
        · subst hv
          have hall : (new.map (Prod.mk v)).filter (·.1 = v) = new.map (Prod.mk v) := by
            refine List.filter_eq_self.mpr fun entry hentry ↦ ?_
            obtain ⟨a, -, rfl⟩ := List.mem_map.mp hentry
            exact decide_eq_true rfl
          rw [Function.update_self, hown, hall, List.map_map]
          exact congrArg _ (List.map_id' new).symm
        · have hnone : (new.map (Prod.mk w)).filter (·.1 = v) = [] := by
            refine List.filter_eq_nil_iff.mpr fun entry hentry ↦ ?_
            obtain ⟨a, -, rfl⟩ := List.mem_map.mp hentry
            exact fun heq ↦ hv (of_decide_eq_true heq).symm
          rw [Function.update_of_ne hv, hnone, List.map_nil, List.append_nil]
    | environment e =>
      obtain ⟨store, henv, rfl⟩ := step_environment he
      exact ⟨added, (hL.environment henv).trans hentries, hwritten⟩

end WorkerPool
