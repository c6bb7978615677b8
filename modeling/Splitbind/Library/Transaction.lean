import Mathlib.Data.List.Forall2
import Mathlib.Logic.Basic
import Mathlib.Tactic.Basic

/-!
# Transactions — atomic bodies over an explicitly passed store

A transaction body reads a store and either raises or returns a value together with the store
it commits, `Except ε (α × σ)`.  Rolling back is then nothing but the `error` branch: the caller
keeps the store it already had.  `attempt` runs a body against a database that may itself fail,
and `attempt_cases` is the one inversion the callers need.
-/

namespace Transaction

universe u v

variable {α β σ : Type u} {ε : Type v}

/-! ## 1. Bodies that raise -/

/-- Raise `error` when `bad` holds, and go on otherwise. -/
def raiseIf (bad : Prop) [Decidable bad] (error : ε) : Except ε PUnit :=
  if bad then .error error else .ok ⟨⟩

@[simp] theorem raiseIf_eq_ok (bad : Prop) [Decidable bad] (error : ε) (u : PUnit) :
    raiseIf bad error = .ok u ↔ ¬ bad := by
  by_cases h : bad <;> simp [raiseIf, h]

@[simp] theorem raiseIf_eq_error (bad : Prop) [Decidable bad] (error e : ε) :
    raiseIf bad error = .error e ↔ bad ∧ error = e := by
  by_cases h : bad <;> simp [raiseIf, h]

theorem raiseIf_pos {bad : Prop} [Decidable bad] (h : bad) (error : ε) :
    raiseIf bad error = .error error := by
  rw [raiseIf, if_pos h]

theorem raiseIf_neg {bad : Prop} [Decidable bad] (h : ¬ bad) (error : ε) :
    raiseIf bad error = .ok ⟨⟩ := by
  rw [raiseIf, if_neg h]

theorem raiseIf_congr {bad bad' : Prop} [Decidable bad] [Decidable bad'] (h : bad ↔ bad')
    (error : ε) : raiseIf bad error = raiseIf bad' error := by
  by_cases hbad : bad
  · rw [raiseIf_pos hbad, raiseIf_pos (h.mp hbad)]
  · rw [raiseIf_neg hbad, raiseIf_neg (mt h.mpr hbad)]

/-- The value of an optional row, or `error` when the query finds none. -/
def found (row : Option α) (error : ε) : Except ε α :=
  match row with
  | some a => .ok a
  | none => .error error

@[simp] theorem found_some (a : α) (error : ε) : found (some a) error = .ok a := rfl

@[simp] theorem found_none (error : ε) : found (none : Option α) error = .error error := rfl

@[simp] theorem found_eq_ok (row : Option α) (error : ε) (a : α) :
    found row error = .ok a ↔ row = some a := by
  cases row <;> simp [found]

/-- A sequence succeeds exactly when its first part does and the rest does from there. -/
@[simp] theorem bind_eq_ok (x : Except ε α) (f : α → Except ε β) (b : β) :
    (x >>= f) = .ok b ↔ ∃ a, x = .ok a ∧ f a = .ok b := by
  cases x <;> simp [bind, Except.bind]

/-- A sequence raises where its first part does, or where the rest does from there. -/
theorem bind_eq_error (x : Except ε α) (f : α → Except ε β) (e : ε) :
    (x >>= f) = .error e ↔ x = .error e ∨ ∃ a, x = .ok a ∧ f a = .error e := by
  cases x <;> simp [bind, Except.bind]

theorem found_eq_error (row : Option α) (error e : ε) :
    found row error = .error e ↔ row = none ∧ error = e := by
  cases row <;> simp [found]

/-- The result of a check carries nothing. -/
@[simp] theorem exists_unit {p : PUnit.{u + 1} → Prop} : (∃ u, p u) ↔ p ⟨⟩ :=
  ⟨fun ⟨_, h⟩ ↦ h, fun h ↦ ⟨_, h⟩⟩

@[simp] theorem map_eq_ok (x : Except ε α) (f : α → β) (b : β) :
    f <$> x = .ok b ↔ ∃ a, x = .ok a ∧ f a = b := by
  cases x <;> simp [Functor.map, Except.map]

@[simp] theorem ok_bind (a : α) (f : α → Except ε β) : ((Except.ok a) >>= f) = f a := rfl

@[simp] theorem error_bind (e : ε) (f : α → Except ε β) :
    ((Except.error e) >>= f) = .error e := rfl

@[simp] theorem pure_eq_ok (a b : α) : (pure a : Except ε α) = .ok b ↔ a = b := by
  simp [pure, Except.pure]

@[simp] theorem throw_eq (e : ε) : (throw e : Except ε α) = .error e := rfl

/-- A call that is seen to succeed has a result. -/
theorem exists_ok {x : Except ε α} (h : x.toOption.isSome = true) : ∃ a, x = .ok a := by
  cases x with
  | error e => cases h
  | ok a => exact ⟨a, rfl⟩

/-- Every result of a list of calls is the result of one of them. -/
theorem mapM_forall {f : α → Except ε β} {xs : List α} {ys : List β} {q : β → Prop}
    (h : xs.mapM f = .ok ys) (hq : ∀ x y, f x = .ok y → q y) : ∀ y ∈ ys, q y := by
  induction xs generalizing ys with
  | nil =>
    rw [List.mapM_nil, pure_eq_ok] at h
    simp [← h]
  | cons x xs ih =>
    simp only [List.mapM_cons, bind_eq_ok, pure_eq_ok] at h
    obtain ⟨y, hy, ys, hys, rfl⟩ := h
    exact List.forall_mem_cons.mpr ⟨hq x y hy, ih hys⟩

/-- Some call has a property exactly when some result has the matching one. -/
theorem mapM_exists {f : α → Except ε β} {xs : List α} {ys : List β} {p : α → Prop}
    {q : β → Prop} (h : xs.mapM f = .ok ys) (hpq : ∀ x y, f x = .ok y → (q y ↔ p x)) :
    (∃ y ∈ ys, q y) ↔ ∃ x ∈ xs, p x := by
  induction xs generalizing ys with
  | nil =>
    rw [List.mapM_nil, pure_eq_ok] at h
    simp [← h]
  | cons x xs ih =>
    simp only [List.mapM_cons, bind_eq_ok, pure_eq_ok] at h
    obtain ⟨y, hy, ys, hys, rfl⟩ := h
    simp only [List.mem_cons, exists_eq_or_imp, hpq x y hy, ih hys]

/-- The results of a list of calls are what its calls give. -/
theorem mem_mapM_iff {f : α → Except ε β} {xs : List α} {ys : List β} (h : xs.mapM f = .ok ys)
    {y : β} : y ∈ ys ↔ ∃ x ∈ xs, f x = .ok y := by
  have hread : ∀ x b, f x = .ok b → (b = y ↔ f x = .ok y) := fun x b hb ↦
    ⟨fun hsame ↦ hsame ▸ hb, fun hy ↦ Except.ok.inj (hb.symm.trans hy)⟩
  rw [← mapM_exists h hread]
  exact ⟨fun hy ↦ ⟨y, hy, rfl⟩, fun ⟨b, hb, hsame⟩ ↦ hsame ▸ hb⟩

/-- Where a list of calls succeeds, each of them does. -/
theorem mapM_ok_of_mem {f : α → Except ε β} {xs : List α} {ys : List β} (h : xs.mapM f = .ok ys)
    {x : α} (hx : x ∈ xs) : ∃ y, f x = .ok y := by
  induction xs generalizing ys with
  | nil => cases hx
  | cons head xs ih =>
    simp only [List.mapM_cons, bind_eq_ok, pure_eq_ok] at h
    obtain ⟨y, hy, ys, hys, rfl⟩ := h
    rcases List.mem_cons.mp hx with rfl | hrest
    · exact ⟨y, hy⟩
    · exact ih hys hrest

/-- A list of calls that all succeed succeeds. -/
theorem mapM_total {f : α → Except ε β} {xs : List α} (h : ∀ x ∈ xs, ∃ y, f x = .ok y) :
    ∃ ys, xs.mapM f = .ok ys := by
  induction xs with
  | nil => exact ⟨[], rfl⟩
  | cons x xs ih =>
    rw [List.forall_mem_cons] at h
    obtain ⟨y, hy⟩ := h.1
    obtain ⟨ys, hys⟩ := ih h.2
    refine ⟨y :: ys, ?_⟩
    rw [List.mapM_cons, hy, ok_bind, hys]
    rfl

/-- The results of a list of calls are those of each of them, in order. -/
theorem mapM_forall₂ {f : α → Except ε β} {xs : List α} {ys : List β} (h : xs.mapM f = .ok ys) :
    List.Forall₂ (fun x y ↦ f x = .ok y) xs ys := by
  induction xs generalizing ys with
  | nil =>
    rw [List.mapM_nil, pure_eq_ok] at h
    subst h
    exact .nil
  | cons x xs ih =>
    simp only [List.mapM_cons, bind_eq_ok, pure_eq_ok] at h
    obtain ⟨y, hy, ys, hys, rfl⟩ := h
    exact .cons hy (ih hys)

/-- What is read off the results is what is read off the arguments. -/
theorem mapM_map_eq {γ : Type*} {f : α → Except ε β} {xs : List α} {ys : List β} {g : β → γ}
    {k : α → γ} (h : xs.mapM f = .ok ys) (hread : ∀ x ∈ xs, ∀ y, f x = .ok y → g y = k x) :
    ys.map g = xs.map k := by
  induction xs generalizing ys with
  | nil =>
    rw [List.mapM_nil, pure_eq_ok] at h
    rw [← h]
    rfl
  | cons x xs ih =>
    simp only [List.mapM_cons, bind_eq_ok, pure_eq_ok] at h
    obtain ⟨y, hy, ys, hys, rfl⟩ := h
    rw [List.forall_mem_cons] at hread
    rw [List.map_cons, List.map_cons, hread.1 y hy, ih hys hread.2]

/-- A list of calls that all succeed gives the list of their results. -/
theorem mapM_eq_map {f : α → Except ε β} {g : α → β} {xs : List α}
    (h : ∀ x ∈ xs, f x = .ok (g x)) : xs.mapM f = .ok (xs.map g) := by
  induction xs with
  | nil => rfl
  | cons x xs ih =>
    rw [List.forall_mem_cons] at h
    rw [List.mapM_cons, h.1, ok_bind, ih h.2]
    rfl

/-- What calls give, other calls give that agree with them on success. -/
theorem mapM_of_forall {ε' : Type*} {f : α → Except ε β} {g : α → Except ε' β} {xs : List α}
    {ys : List β} (h : xs.mapM f = .ok ys) (hfg : ∀ x ∈ xs, ∀ y, f x = .ok y → g x = .ok y) :
    xs.mapM g = .ok ys := by
  induction xs generalizing ys with
  | nil =>
    rw [List.mapM_nil, pure_eq_ok] at h
    rw [← h]
    rfl
  | cons x xs ih =>
    simp only [List.mapM_cons, bind_eq_ok, pure_eq_ok] at h ⊢
    obtain ⟨y, hy, ys, hys, rfl⟩ := h
    rw [List.forall_mem_cons] at hfg
    exact ⟨y, hfg.1 y hy, ys, ih hys hfg.2, rfl⟩

/-- A list of calls that can only raise one exception raises it when some call does. -/
theorem mapM_eq_error {f : α → Except ε β} {xs : List α} {e : ε}
    (honly : ∀ x e', f x = .error e' → e' = e) {x : α} (hx : x ∈ xs) (h : f x = .error e) :
    xs.mapM f = .error e := by
  induction xs with
  | nil => cases hx
  | cons y ys ih =>
    rw [List.mapM_cons]
    cases hy : f y with
    | error e' => rw [honly y e' hy, error_bind]
    | ok b =>
      have hne : x ≠ y := by
        rintro rfl
        exact nomatch h.symm.trans hy
      rw [ok_bind, ih (List.mem_of_ne_of_mem hne hx), error_bind]

/-! ## 2. What a body can raise -/

/-- Every exception of `x` satisfies `p`. -/
def OnlyRaises (p : ε → Prop) (x : Except ε α) : Prop := ∀ e, x = .error e → p e

theorem OnlyRaises.ok {p : ε → Prop} (a : α) : OnlyRaises p (.ok a : Except ε α) := by
  intro e h
  cases h

theorem OnlyRaises.error {p : ε → Prop} {e : ε} (h : p e) :
    OnlyRaises p (.error e : Except ε α) := by
  intro e' heq
  cases heq
  exact h

theorem OnlyRaises.found {p : ε → Prop} {error : ε} (h : p error) (row : Option α) :
    OnlyRaises p (found row error) := by
  cases row with
  | none => exact .error h
  | some a => exact .ok a

theorem OnlyRaises.bind {p : ε → Prop} {x : Except ε α} {f : α → Except ε β}
    (hx : OnlyRaises p x) (hf : ∀ a, OnlyRaises p (f a)) : OnlyRaises p (x >>= f) := by
  cases x with
  | error e => exact .error (hx e rfl)
  | ok a => exact hf a

theorem OnlyRaises.foldlM {p : ε → Prop} {f : β → α → Except ε β}
    (hf : ∀ b a, OnlyRaises p (f b a)) (b : β) (xs : List α) : OnlyRaises p (xs.foldlM f b) := by
  induction xs generalizing b with
  | nil => exact .ok b
  | cons x xs ih => exact OnlyRaises.bind (hf b x) fun b' ↦ ih b'

theorem OnlyRaises.mapM {p : ε → Prop} {f : α → Except ε β} (hf : ∀ a, OnlyRaises p (f a))
    (xs : List α) : OnlyRaises p (xs.mapM f) := by
  induction xs with
  | nil => exact .ok []
  | cons x xs ih =>
    rw [List.mapM_cons]
    exact OnlyRaises.bind (hf x) fun y ↦ OnlyRaises.bind ih fun ys ↦ .ok (y :: ys)

/-! ## 3. A database that may fail -/

/-- What the database does to one transaction besides running its body. -/
inductive Fault
  | none
  | rolledBack
  | acknowledgementLost
deriving DecidableEq, Repr

/-- Run a body: the caller sees a result, the database keeps a store.  A lost acknowledgement
commits the body and still shows the caller `unavailable`. -/
def attempt (fault : Fault) (unavailable : ε) (body : Except ε (α × σ)) (store : σ) :
    Except ε α × σ :=
  match fault, body with
  | .rolledBack, _ => (.error unavailable, store)
  | _, .error e => (.error e, store)
  | .none, .ok (a, store') => (.ok a, store')
  | .acknowledgementLost, .ok (_, store') => (.error unavailable, store')

/-- A transaction either commits its body or leaves the store as it was and raises. -/
theorem attempt_cases (fault : Fault) (unavailable : ε) (body : Except ε (α × σ)) (store : σ) :
    (∃ a store', body = .ok (a, store') ∧ (attempt fault unavailable body store).2 = store' ∧
      ((attempt fault unavailable body store).1 = .ok a ∨
        (attempt fault unavailable body store).1 = .error unavailable)) ∨
    ((attempt fault unavailable body store).2 = store ∧
      ∃ e, (attempt fault unavailable body store).1 = .error e) := by
  rcases body with e | ⟨a, store'⟩
  · right
    cases fault <;> simp [attempt]
  · cases fault with
    | none => exact .inl ⟨a, store', rfl, rfl, .inl rfl⟩
    | rolledBack => exact .inr ⟨rfl, unavailable, rfl⟩
    | acknowledgementLost => exact .inl ⟨a, store', rfl, rfl, .inr rfl⟩

/-- What the caller is told is what the body returned. -/
theorem attempt_ok {fault : Fault} {unavailable : ε} {body : Except ε (α × σ)} {store store' : σ}
    {a : α} (h : attempt fault unavailable body store = (.ok a, store')) :
    body = .ok (a, store') := by
  cases fault <;> rcases body with e | ⟨b, t⟩ <;> simp_all [attempt]

/-- After an error the store is the one the body commits, or the one it started from. -/
theorem attempt_error {fault : Fault} {unavailable e : ε} {body : Except ε (α × σ)}
    {store store' : σ} (h : attempt fault unavailable body store = (.error e, store')) :
    store' = store ∨ ∃ a, body = .ok (a, store') := by
  cases fault <;> rcases body with e' | ⟨b, t⟩ <;> simp_all [attempt]

end Transaction
