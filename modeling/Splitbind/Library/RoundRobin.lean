import Mathlib.Data.List.Chain
import Mathlib.Data.List.Rotate

/-!
# Round robin — items in a strict order, served from a cursor on

The item served next is the first one after the cursor, and the first of all when there is none.
A cursor need not be an item.  From any start, as many turns as there are items serve each of
them once, in the order that wraps around.
-/

namespace RoundRobin

variable {α : Type*} (after : α → α → Bool)

/-- The first item after the cursor, or the first of all. -/
def next (items : List α) (cursor : Option α) : Option α :=
  (cursor.bind fun cursor ↦ items.find? (after cursor)).or items.head?

variable {after} {items : List α}

theorem mem_of_next {cursor : Option α} {item : α} (h : next after items cursor = some item) :
    item ∈ items := by
  rcases Option.or_eq_some_iff.mp h with hafter | ⟨-, hfirst⟩
  · obtain ⟨cursor, -, hfind⟩ := Option.bind_eq_some_iff.mp hafter
    exact List.mem_of_find?_eq_some hfind
  · exact List.mem_of_mem_head? hfirst

/-- There is a next item unless there is none at all. -/
theorem exists_next (hne : items ≠ []) (cursor : Option α) :
    ∃ item, next after items cursor = some item := by
  obtain ⟨head, tail, rfl⟩ := List.exists_cons_of_ne_nil hne
  rw [next, List.head?_cons]
  cases cursor.bind fun cursor ↦ (head :: tail).find? (after cursor) with
  | none => exact ⟨head, rfl⟩
  | some item => exact ⟨item, rfl⟩

/-- From an item the turn goes to the one behind it, and from the last to the first. -/
theorem next_getElem (hsorted : items.Pairwise fun a b ↦ after a b = true)
    (hasymm : ∀ a b, after a b = true → after b a = false) {i : Nat} (hi : i < items.length) :
    next after items (some items[i]) = items[(i + 1) % items.length]? := by
  have hbefore : ∀ j, (hj : j < items.length) → j ≤ i → after items[i] items[j] = false := by
    intro j hj hle
    rcases Nat.lt_or_eq_of_le hle with hlt | rfl
    · exact hasymm _ _ (List.pairwise_iff_getElem.mp hsorted j i hj hi hlt)
    · cases h : after items[j] items[j] with
      | false => rfl
      | true => exact h.symm.trans (hasymm _ _ h)
  rw [next]
  by_cases hlast : i + 1 < items.length
  · have hfind : items.find? (after items[i]) = some items[i + 1] := by
      rw [List.find?_eq_some_iff_getElem]
      refine ⟨List.pairwise_iff_getElem.mp hsorted i (i + 1) hi hlast (Nat.lt_succ_self i),
        i + 1, hlast, rfl, fun j hj ↦ ?_⟩
      rw [hbefore j (by omega) (by omega)]
      rfl
    rw [Option.bind_some, hfind, Option.some_or, Nat.mod_eq_of_lt hlast,
      List.getElem?_eq_getElem hlast]
  · have hfind : items.find? (after items[i]) = none := by
      refine List.find?_eq_none.mpr fun item hitem ↦ ?_
      obtain ⟨j, hj, rfl⟩ := List.mem_iff_getElem.mp hitem
      rw [hbefore j hj (by omega)]
      exact Bool.false_ne_true
    have hwrap : (i + 1) % items.length = 0 := by
      rw [show i + 1 = items.length by omega, Nat.mod_self]
    rw [Option.bind_some, hfind, Option.none_or, hwrap, List.head?_eq_getElem?]

/-- **A full turn.**  Items each of which is the next after the one before, and as many as there
are, are all the items in the order that wraps around. -/
theorem eq_rotate_of_isChain (hsorted : items.Pairwise fun a b ↦ after a b = true)
    (hasymm : ∀ a b, after a b = true → after b a = false) {served : List α}
    (hchain : served.IsChain fun a b ↦ next after items (some a) = some b)
    (hlength : served.length = items.length) {k : Nat} (hk : k < items.length)
    (hfirst : served.head? = some items[k]) :
    served = items.rotate k := by
  have hget : ∀ i < served.length, served[i]? = items[(i + k) % items.length]? := by
    intro i
    induction i with
    | zero =>
      intro hi
      rw [← List.head?_eq_getElem?, hfirst, Nat.zero_add, Nat.mod_eq_of_lt hk,
        List.getElem?_eq_getElem hk]
    | succ i ih =>
      intro hi
      have hlt : (i + k) % items.length < items.length := Nat.mod_lt _ (by omega)
      have hitem := ih (by omega)
      rw [List.getElem?_eq_getElem (by omega), List.getElem?_eq_getElem hlt,
        Option.some.injEq] at hitem
      have hstep := List.isChain_iff_getElem.mp hchain i hi
      rw [hitem, next_getElem hsorted hasymm hlt, Nat.mod_add_mod] at hstep
      rw [List.getElem?_eq_getElem hi, ← hstep, show i + k + 1 = i + 1 + k by omega]
  refine List.ext_getElem (by rw [List.length_rotate, hlength]) fun i hi hi' ↦ ?_
  have hturn := hget i hi
  rw [List.getElem?_eq_getElem hi, List.getElem?_eq_getElem (Nat.mod_lt _ (by omega)),
    Option.some.injEq] at hturn
  rw [hturn, List.getElem_rotate]

end RoundRobin
