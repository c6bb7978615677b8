import Splitbind.Library.Transaction

/-!
# Traced computations — what was done before an exception stays recorded

A computation records events and then returns or raises.  An event that needs a guard is guarded
when a guarding event was recorded before it.
-/

universe u v w

/-- The recorded events, in order, and the result. -/
structure Traced (ν : Type u) (ε : Type v) (α : Type w) where
  events : List ν
  result : Except ε α

namespace Traced

variable {ν : Type u} {ε : Type v} {α β : Type w}

/-! ## 1. Sequences -/

/-- Go on with what `x` returned; nothing runs after an exception. -/
def andThen (x : Traced ν ε α) (f : α → Traced ν ε β) : Traced ν ε β :=
  match x.result with
  | .ok a => ⟨x.events ++ (f a).events, (f a).result⟩
  | .error e => ⟨x.events, .error e⟩

instance : Monad (Traced ν ε) where
  pure a := ⟨[], .ok a⟩
  bind := andThen

/-- A computation that records nothing. -/
def quiet (x : Except ε α) : Traced ν ε α := ⟨[], x⟩

instance : MonadLift (Except ε) (Traced ν ε) := ⟨quiet⟩

def record (event : ν) : Traced ν ε PUnit := ⟨[event], .ok ⟨⟩⟩

@[simp] theorem quiet_events (x : Except ε α) : (quiet x : Traced ν ε α).events = [] := rfl

@[simp] theorem quiet_result (x : Except ε α) : (quiet x : Traced ν ε α).result = x := rfl

@[simp] theorem pure_result (a : α) : (pure a : Traced ν ε α).result = .ok a := rfl

@[simp] theorem record_result (event : ν) :
    (record event : Traced ν ε PUnit).result = .ok ⟨⟩ := rfl

theorem bind_of_ok {x : Traced ν ε α} {a : α} (h : x.result = .ok a) (f : α → Traced ν ε β) :
    x >>= f = ⟨x.events ++ (f a).events, (f a).result⟩ := by
  show x.andThen f = _
  rw [andThen, h]

theorem bind_of_error {x : Traced ν ε α} {e : ε} (h : x.result = .error e)
    (f : α → Traced ν ε β) : x >>= f = ⟨x.events, .error e⟩ := by
  show x.andThen f = _
  rw [andThen, h]

/-- The results follow the sequence of results alone. -/
@[simp] theorem bind_result (x : Traced ν ε α) (f : α → Traced ν ε β) :
    (x >>= f).result = x.result >>= fun a ↦ (f a).result := by
  cases h : x.result with
  | ok a => rw [bind_of_ok h, Transaction.ok_bind]
  | error e => rw [bind_of_error h, Transaction.error_bind]

/-- What the first part recorded comes first. -/
theorem events_prefix_bind (x : Traced ν ε α) (f : α → Traced ν ε β) :
    x.events <+: (x >>= f).events := by
  cases h : x.result with
  | ok a =>
    rw [bind_of_ok h]
    exact List.prefix_append x.events _
  | error e => exact ⟨[], by rw [bind_of_error h, List.append_nil]⟩

/-- What records nothing leaves the trace as it is. -/
theorem bind_events_of_silent (x : Traced ν ε α) {f : α → Traced ν ε β}
    (h : ∀ a, (f a).events = []) : (x >>= f).events = x.events := by
  cases hresult : x.result with
  | ok a =>
    rw [bind_of_ok hresult]
    show x.events ++ (f a).events = x.events
    rw [h a, List.append_nil]
  | error e => rw [bind_of_error hresult]

theorem mem_events_bind {x : Traced ν ε α} {f : α → Traced ν ε β} {event : ν}
    (h : event ∈ (x >>= f).events) :
    event ∈ x.events ∨ ∃ a, x.result = .ok a ∧ event ∈ (f a).events := by
  cases hresult : x.result with
  | ok a =>
    rw [bind_of_ok hresult, List.mem_append] at h
    exact h.imp_right fun h ↦ ⟨a, rfl, h⟩
  | error e =>
    rw [bind_of_error hresult] at h
    exact .inl h

/-! ## 2. Guarded events -/

section Guards

variable (guard use : ν → Prop)

/-- Every use among the events comes after a guard; the events of `earlier` are older. -/
def Guarded (earlier events : List ν) : Prop :=
  ∀ before event after, events = before ++ event :: after → use event →
    ∃ g ∈ earlier ++ before, guard g

variable {guard use}

theorem Guarded.of_guard {earlier events : List ν} (h : ∃ g ∈ earlier, guard g) :
    Guarded guard use earlier events := by
  intro before event after _ _
  obtain ⟨g, hmem, hguard⟩ := h
  exact ⟨g, List.mem_append_left before hmem, hguard⟩

theorem Guarded.of_unused {earlier events : List ν} (h : ∀ event ∈ events, ¬ use event) :
    Guarded guard use earlier events := by
  intro before event after hevents huse
  have hmem : event ∈ before ++ event :: after := List.mem_append_right before List.mem_cons_self
  rw [← hevents] at hmem
  exact absurd huse (h event hmem)

/-- Events in sequence are guarded when the first are, and the second are after them. -/
theorem Guarded.append {earlier xs ys : List ν} (hxs : Guarded guard use earlier xs)
    (hys : Guarded guard use (earlier ++ xs) ys) : Guarded guard use earlier (xs ++ ys) := by
  intro before event after hevents huse
  rcases List.append_eq_append_iff.mp hevents with ⟨middle, rfl, hmiddle⟩ | ⟨middle, hmiddle, hrest⟩
  · -- the use is among the second events
    obtain ⟨g, hmem, hguard⟩ := hys middle event after hmiddle huse
    rw [List.append_assoc] at hmem
    exact ⟨g, hmem, hguard⟩
  · cases middle with
    | nil =>
      rw [List.append_nil] at hmiddle
      rw [List.nil_append] at hrest
      obtain ⟨g, hmem, hguard⟩ := hys [] event after hrest.symm huse
      rw [List.append_nil, hmiddle] at hmem
      exact ⟨g, hmem, hguard⟩
    | cons first middle =>
      rw [List.cons_append, List.cons.injEq] at hrest
      obtain ⟨rfl, -⟩ := hrest
      exact hxs before event middle hmiddle huse

theorem Guarded.bind {earlier : List ν} {x : Traced ν ε α} {f : α → Traced ν ε β}
    (hx : Guarded guard use earlier x.events)
    (hf : ∀ a, x.result = .ok a → Guarded guard use (earlier ++ x.events) (f a).events) :
    Guarded guard use earlier (x >>= f).events := by
  cases h : x.result with
  | ok a =>
    rw [bind_of_ok h]
    exact hx.append (hf a h)
  | error e =>
    rw [bind_of_error h]
    exact hx

/-- A quiet part adds no event. -/
theorem Guarded.quiet_bind {earlier : List ν} {x : Except ε α} {f : α → Traced ν ε β}
    (hf : ∀ a, x = .ok a → Guarded guard use earlier (f a).events) :
    Guarded guard use earlier ((quiet x : Traced ν ε α) >>= f).events := by
  refine Guarded.bind (.of_unused fun event h ↦ absurd h List.not_mem_nil) fun a ha ↦ ?_
  rw [quiet_events, List.append_nil]
  exact hf a ha

/-- A trace that starts with a use is not guarded. -/
theorem not_guarded_cons {event : ν} (huse : use event) (events : List ν) :
    ¬ Guarded guard use [] (event :: events) := by
  intro h
  obtain ⟨g, hmem, -⟩ := h [] event events rfl huse
  exact absurd hmem List.not_mem_nil

end Guards

end Traced
