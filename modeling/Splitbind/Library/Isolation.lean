import Splitbind.Library.Transaction

/-!
# Isolation — the operations of one tenant over a store that many share

`restrict t s` is what a store `s` holds of the tenant `t`.  A body or an operation is isolated when
it does to the store what it does to the restriction alone, and nothing to the other tenants.  Then
two stores that agree on a tenant look the same to all its operations, and so do two runs in which
other tenants do different things in between.
-/

namespace Isolation

open Transaction

universe u

variable {S α β : Type u} {ε T A : Type*} {restrict : T → S → S} {t : T} {s : S}

/-! ## 1. Writes -/

/-- A write to what the store holds of one tenant. -/
structure Local (restrict : T → S → S) (t : T) (f : S → S) (s : S) : Prop where
  own : f (restrict t s) = restrict t (f s)
  others : ∀ u ≠ t, restrict u (f s) = restrict u s

theorem Local.id : Local restrict t (fun s ↦ s) s := ⟨rfl, fun _ _ ↦ rfl⟩

theorem Local.comp {f g : S → S} (hg : Local restrict t g (f s)) (hf : Local restrict t f s) :
    Local restrict t (fun s ↦ g (f s)) s where
  own := by
    show g (f (restrict t s)) = _
    rw [hf.own, hg.own]
  others := fun u hu ↦ (hg.others u hu).trans (hf.others u hu)

/-! ## 2. Transaction bodies -/

/-- A body that reads and writes what the store holds of one tenant. -/
structure Confined (restrict : T → S → S) (t : T) (body : S → Except ε (α × S)) (s : S) :
    Prop where
  own : body (restrict t s) = (fun r ↦ (r.1, restrict t r.2)) <$> body s
  others : ∀ a s', body s = .ok (a, s') → ∀ u ≠ t, restrict u s' = restrict u s

/-- A body that first asks something the restriction answers as well. -/
theorem Confined.query {q : S → Except ε β} {k : β → S → Except ε (α × S)}
    (hq : q (restrict t s) = q s) (hk : ∀ b, q s = .ok b → Confined restrict t (k b) s) :
    Confined restrict t (fun s ↦ q s >>= fun b ↦ k b s) s where
  own := by
    show (q (restrict t s) >>= fun b ↦ k b (restrict t s)) = _
    rw [hq]
    cases hb : q s with
    | error e => rfl
    | ok b => exact (hk b hb).own
  others := by
    intro a s' h u hu
    rw [bind_eq_ok] at h
    obtain ⟨b, hb, h⟩ := h
    exact (hk b hb).others a s' h u hu

/-- Two bodies in sequence. -/
theorem Confined.bind {body : S → Except ε (β × S)} {k : β × S → Except ε (α × S)}
    (hbody : Confined restrict t body s)
    (hk : ∀ b s', body s = .ok (b, s') → Confined restrict t (fun s ↦ k (b, s)) s') :
    Confined restrict t (fun s ↦ body s >>= k) s where
  own := by
    show (body (restrict t s) >>= k) = _
    rw [hbody.own]
    cases hb : body s with
    | error e => rfl
    | ok r =>
      obtain ⟨b, s'⟩ := r
      exact (hk b s' hb).own
  others := by
    intro a s'' h u hu
    rw [bind_eq_ok] at h
    obtain ⟨⟨b, s'⟩, hb, h⟩ := h
    rw [(hk b s' hb).others a s'' h u hu]
    exact hbody.others b s' hb u hu

/-- The end of a body. -/
theorem Confined.commit {f : S → S} (hf : Local restrict t f s) (a : α) :
    Confined restrict t (fun s ↦ (Except.ok (a, f s) : Except ε (α × S))) s where
  own := by
    show Except.ok (a, f (restrict t s)) = _
    rw [hf.own]
    rfl
  others := by
    intro a' s' h u hu
    cases h
    exact hf.others u hu

theorem Confined.congr {body body' : S → Except ε (α × S)} (h : Confined restrict t body s)
    (hs : body' s = body s) (hrestrict : body' (restrict t s) = body (restrict t s)) :
    Confined restrict t body' s where
  own := by
    rw [hs, hrestrict]
    exact h.own
  others := by
    rw [hs]
    exact h.others

/-- A body whose errors are replaced. -/
theorem Confined.mapError {body : S → Except ε (α × S)} (h : Confined restrict t body s)
    (f : ε → ε) : Confined restrict t (fun s ↦ (body s).mapError f) s where
  own := by
    show (body (restrict t s)).mapError f = _
    rw [h.own]
    cases body s <;> rfl
  others := by
    intro a s' hok
    cases hbody : body s with
    | error e => rw [hbody] at hok; cases hok
    | ok r =>
      rw [hbody] at hok
      cases hok
      exact h.others a s' hbody

theorem Confined.ite {c : Prop} [Decidable c] {body body' : S → Except ε (α × S)}
    (hbody : c → Confined restrict t body s) (hbody' : ¬ c → Confined restrict t body' s) :
    Confined restrict t (fun s ↦ if c then body s else body' s) s := by
  by_cases hc : c
  · simp only [if_pos hc]
    exact hbody hc
  · simp only [if_neg hc]
    exact hbody' hc

/-! ## 3. Operations -/

/-- An operation that answers from one tenant's part of the store, and changes that part alone. -/
structure Isolated (restrict : T → S → S) (t : T) (op : S → A × S) (s : S) : Prop where
  own : op (restrict t s) = ((op s).1, restrict t (op s).2)
  others : ∀ u ≠ t, restrict u (op s).2 = restrict u s

/-- A transaction, whatever the database does to it. -/
theorem Confined.attempt {fault : Fault} {unavailable : ε} {body : S → Except ε (α × S)}
    (h : Confined restrict t body s) :
    Isolated restrict t (fun s ↦ Transaction.attempt fault unavailable (body s) s) s where
  own := by
    show Transaction.attempt fault unavailable (body (restrict t s)) (restrict t s) = _
    rw [h.own]
    cases hbody : body s <;> cases fault <;> rfl
  others := by
    intro u hu
    cases hbody : body s with
    | error e => cases fault <;> rfl
    | ok r =>
      obtain ⟨a, s'⟩ := r
      have hothers := h.others a s' hbody u hu
      cases fault
      · exact hothers
      · rfl
      · exact hothers

/-- An operation that writes something more after an error of another one. -/
theorem Isolated.logging {op logged : S → Except ε A × S} (log : ε → S → S)
    (hop : Isolated restrict t op s) (hok : ∀ s a, (op s).1 = .ok a → logged s = op s)
    (herror : ∀ s e, (op s).1 = .error e → logged s = (.error e, log e (op s).2))
    (hlog : ∀ e, Local restrict t (log e) (op s).2) : Isolated restrict t logged s := by
  have hanswer : (op (restrict t s)).1 = (op s).1 := by rw [hop.own]
  have hstore : (op (restrict t s)).2 = restrict t (op s).2 := by rw [hop.own]
  cases hresult : (op s).1 with
  | ok a =>
    rw [hresult] at hanswer
    constructor
    · rw [hok s a hresult, hok _ a hanswer]
      exact hop.own
    · rw [hok s a hresult]
      exact hop.others
  | error e =>
    rw [hresult] at hanswer
    constructor
    · rw [herror s e hresult, herror _ e hanswer, hstore, (hlog e).own]
    · intro u hu
      rw [herror s e hresult]
      exact ((hlog e).others u hu).trans (hop.others u hu)

/-- A question that changes nothing. -/
theorem Isolated.query {q : S → A} (h : q (restrict t s) = q s) :
    Isolated restrict t (fun s ↦ (q s, s)) s where
  own := by
    show (q (restrict t s), restrict t s) = _
    rw [h]
  others := fun _ _ ↦ rfl

/-- What an operation does to the store is a write. -/
theorem Isolated.write {op : S → A × S} (h : Isolated restrict t op s) :
    Local restrict t (fun s ↦ (op s).2) s where
  own := by
    show (op (restrict t s)).2 = _
    rw [h.own]
  others := h.others

/-- A write with an answer that does not depend on the store. -/
theorem Local.answer {f : S → S} (h : Local restrict t f s) (a : A) :
    Isolated restrict t (fun s ↦ (a, f s)) s where
  own := by
    show (a, f (restrict t s)) = _
    rw [h.own]
  others := h.others

/-- One operation, and then another that depends on its answer. -/
theorem Isolated.andThen {B : Type*} {op : S → A × S} {whole : S → B × S} (k : A → S → B × S)
    (hop : Isolated restrict t op s) (hk : Isolated restrict t (k (op s).1) (op s).2)
    (hwhole : ∀ s, whole s = k (op s).1 (op s).2) : Isolated restrict t whole s where
  own := by
    rw [hwhole, hwhole, hop.own]
    exact hk.own
  others := by
    intro u hu
    rw [hwhole]
    exact (hk.others u hu).trans (hop.others u hu)

/-- Stores that agree on a tenant cannot be told apart by its operations. -/
theorem Isolated.agree {op : S → A × S} {s₁ s₂ : S} (h₁ : Isolated restrict t op s₁)
    (h₂ : Isolated restrict t op s₂) (hagree : restrict t s₁ = restrict t s₂) :
    (op s₁).1 = (op s₂).1 ∧ restrict t (op s₁).2 = restrict t (op s₂).2 := by
  have hsame := h₁.own
  rw [hagree, h₂.own] at hsame
  exact ⟨(congrArg Prod.fst hsame).symm, (congrArg Prod.snd hsame).symm⟩

/-! ## 4. Runs -/

section Runs

variable {L : Type*} (step : L → S → A × S)

/-- The store after a list of operations. -/
def run (ops : List L) (s : S) : S := ops.foldl (fun s op ↦ (step op s).2) s

/-- What the operations of one tenant are answered. -/
def answers (owns : L → Bool) : List L → S → List A
  | [], _ => []
  | op :: ops, s =>
    if owns op then (step op s).1 :: answers owns ops (step op s).2
    else answers owns ops (step op s).2

/-- Every operation of a run is one that may happen where it does. -/
def Admissible (ok : L → S → Prop) : List L → S → Prop
  | [], _ => True
  | op :: ops, s => ok op s ∧ Admissible ok ops (step op s).2

variable {step}

/-- An invariant may be assumed of every store of a run. -/
theorem Admissible.and_invariant {ok : L → S → Prop} {I : S → Prop}
    (hstep : ∀ op s, I s → ok op s → I (step op s).2) {ops : List L} {s : S} (hs : I s)
    (h : Admissible step ok ops s) : Admissible step (fun op s ↦ I s ∧ ok op s) ops s := by
  induction ops generalizing s with
  | nil => exact trivial
  | cons op ops ih => exact ⟨⟨hs, h.1⟩, ih (hstep op s hs h.1) h.2⟩

variable [DecidableEq T] {owner : L → T} {ok : L → S → Prop}

/-- The operations of a tenant do to the restriction what a whole run does to the store. -/
theorem run_restrict (hisolated : ∀ op s, ok op s → Isolated restrict (owner op) (step op) s)
    (t : T) {ops : List L} {s : S} (h : Admissible step ok ops s) :
    run step (ops.filter (owner · = t)) (restrict t s) = restrict t (run step ops s) ∧
      answers step (owner · = t) (ops.filter (owner · = t)) (restrict t s) =
        answers step (owner · = t) ops s := by
  induction ops generalizing s with
  | nil => exact ⟨rfl, rfl⟩
  | cons op ops ih =>
    obtain ⟨hok, h⟩ := h
    obtain ⟨hrun, hanswers⟩ := ih h
    have hop := hisolated op s hok
    by_cases howner : owner op = t
    · subst howner
      rw [List.filter_cons_of_pos (by simp), answers, answers, if_pos (by simp), if_pos (by simp)]
      rw [hop.own]
      refine ⟨?_, ?_⟩
      · rw [run, List.foldl_cons, hop.own]
        exact hrun
      · rw [hanswers]
    · -- another tenant's operation is not seen
      have hkept : restrict t (step op s).2 = restrict t s := hop.others t (Ne.symm howner)
      rw [hkept] at hrun hanswers
      rw [List.filter_cons_of_neg (by simpa using howner)]
      refine ⟨hrun, ?_⟩
      rw [hanswers, answers, if_neg (by simpa using howner)]

/-- Runs with the same operations of a tenant, from stores that agree on it, look the same to
it. -/
theorem runs_agree (hisolated : ∀ op s, ok op s → Isolated restrict (owner op) (step op) s)
    {t : T} {ops₁ ops₂ : List L} {s₁ s₂ : S} (h₁ : Admissible step ok ops₁ s₁)
    (h₂ : Admissible step ok ops₂ s₂) (hagree : restrict t s₁ = restrict t s₂)
    (hops : ops₁.filter (owner · = t) = ops₂.filter (owner · = t)) :
    answers step (owner · = t) ops₁ s₁ = answers step (owner · = t) ops₂ s₂ ∧
      restrict t (run step ops₁ s₁) = restrict t (run step ops₂ s₂) := by
  obtain ⟨hrun₁, hanswers₁⟩ := run_restrict hisolated t h₁
  obtain ⟨hrun₂, hanswers₂⟩ := run_restrict hisolated t h₂
  rw [← hrun₁, ← hrun₂, ← hanswers₁, ← hanswers₂, hagree, hops]
  exact ⟨rfl, rfl⟩

end Runs

end Isolation
