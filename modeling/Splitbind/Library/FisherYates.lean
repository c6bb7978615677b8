import Mathlib.Data.List.Perm.Basic
import Splitbind.Library.Transaction

/-!
# Fisher–Yates — a shuffle that draws its indices from a source of randomness

The shuffle swaps every element, from the last on, with one at an index drawn below it or at it.
Whatever is drawn, the result is a permutation; and it fails only where a draw does.
-/

namespace FisherYates

open Transaction

variable {α σ ε : Type}

/-- The loop from an index down to one; a draw below a bound may fail and moves the source. -/
def shuffleFrom (draw : Nat → σ → Except ε (Nat × σ)) :
    Nat → Array α → σ → Except ε (Array α × σ)
  | 0, values, source => .ok (values, source)
  | index + 1, values, source => do
    let (replacement, source) ← draw (index + 2) source
    shuffleFrom draw index (values.swapIfInBounds (index + 1) replacement) source

def shuffle (draw : Nat → σ → Except ε (Nat × σ)) (values : Array α) (source : σ) :
    Except ε (Array α × σ) :=
  shuffleFrom draw (values.size - 1) values source

/-- The draws of the loop, without what they are for. -/
def drawsFrom (draw : Nat → σ → Except ε (Nat × σ)) : Nat → σ → Except ε σ
  | 0, source => .ok source
  | index + 1, source => do
    let (_, source) ← draw (index + 2) source
    drawsFrom draw index source

theorem swapIfInBounds_perm (values : Array α) (i j : Nat) :
    (values.swapIfInBounds i j).Perm values := by
  rw [Array.swapIfInBounds_def]
  split_ifs with hi hj
  · exact Array.swap_perm hi hj
  · exact Array.Perm.refl values
  · exact Array.Perm.refl values

theorem shuffleFrom_perm {draw : Nat → σ → Except ε (Nat × σ)} {index : Nat}
    {values values' : Array α} {source source' : σ}
    (h : shuffleFrom draw index values source = .ok (values', source')) :
    values'.Perm values := by
  induction index generalizing values source with
  | zero =>
    rw [shuffleFrom, Except.ok.injEq, Prod.mk.injEq] at h
    rw [h.1]
  | succ index ih =>
    simp only [shuffleFrom, bind_eq_ok] at h
    obtain ⟨⟨replacement, next⟩, -, h⟩ := h
    exact (ih h).trans (swapIfInBounds_perm values (index + 1) replacement)

/-- The result is a permutation of what was shuffled. -/
theorem shuffle_perm {draw : Nat → σ → Except ε (Nat × σ)} {values values' : Array α}
    {source source' : σ} (h : shuffle draw values source = .ok (values', source')) :
    values'.toList.Perm values.toList :=
  (shuffleFrom_perm h).toList

/-- The numbers drawn are below two or more. -/
theorem shuffle_congr {draw draw' : Nat → σ → Except ε (Nat × σ)}
    (h : ∀ bound, 0 < bound → draw bound = draw' bound) (values : Array α) (source : σ) :
    shuffle draw values source = shuffle draw' values source := by
  unfold shuffle
  generalize values.size - 1 = index
  induction index generalizing values source with
  | zero => rfl
  | succ index ih =>
    rw [shuffleFrom, shuffleFrom, h _ (Nat.succ_pos (index + 1))]
    simp only [ih]

/-- The shuffle fails exactly where its draws do, and leaves the source where they leave it. -/
theorem shuffleFrom_draws (draw : Nat → σ → Except ε (Nat × σ)) (index : Nat)
    (values : Array α) (source : σ) :
    (shuffleFrom draw index values source).map Prod.snd = drawsFrom draw index source := by
  induction index generalizing values source with
  | zero => rfl
  | succ index ih =>
    rw [shuffleFrom, drawsFrom]
    cases draw (index + 2) source with
    | error e => rfl
    | ok drawn => exact ih _ _

theorem shuffle_eq_error {draw : Nat → σ → Except ε (Nat × σ)} {values : Array α} {source : σ}
    {e : ε} :
    shuffle draw values source = .error e ↔ drawsFrom draw (values.size - 1) source = .error e := by
  rw [← shuffleFrom_draws draw _ values, shuffle]
  cases shuffleFrom draw (values.size - 1) values source with
  | error e' =>
    constructor <;> intro h <;> cases h <;> rfl
  | ok result =>
    constructor <;> intro h <;> cases h

end FisherYates
