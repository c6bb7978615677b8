import Mathlib.Algebra.Order.Ring.Nat
import Splitbind.Library.Table

/-!
# Retry queues — a bounded round takes the front, and what is not done keeps its place

A round serves the first items of a queue up to its capacity.  An item that is done leaves, one
that has to be retried keeps its place, and new items come last.  Whether an item is ever served
depends on how many items ahead of it stay for ever.
-/

namespace RetryQueue

variable {α : Type*} (stays : α → Bool)

/-! ## 1. One round -/

/-- What a round with the given capacity leaves of a queue. -/
def serve (capacity : Nat) (queue : List α) : List α :=
  (queue.take capacity).filter stays ++ queue.drop capacity

/-- A round that ends ahead of an item leaves the item where it is. -/
theorem serve_append {capacity : Nat} {ahead : List α} (h : capacity ≤ ahead.length)
    (rest : List α) :
    serve stays capacity (ahead ++ rest) = serve stays capacity ahead ++ rest := by
  rw [serve, serve, List.take_append_of_le_length h, List.drop_append_of_le_length h,
    List.append_assoc]

theorem serve_sublist (capacity : Nat) (queue : List α) :
    (serve stays capacity queue).Sublist queue := by
  have hfront : ((queue.take capacity).filter stays).Sublist (queue.take capacity) :=
    List.filter_sublist
  have happend := hfront.append_right (queue.drop capacity)
  rwa [List.take_append_drop] at happend

/-- The items that stay are all still there. -/
theorem countP_serve (capacity : Nat) (queue : List α) :
    (serve stays capacity queue).countP stays = queue.countP stays := by
  rw [serve, List.countP_append, List.countP_filter]
  simp only [Bool.and_self]
  rw [← List.countP_append, List.take_append_drop]

/-- A round that has room for more than the items that stay gets something done. -/
theorem length_serve_lt {capacity : Nat} {queue : List α} (hroom : queue.countP stays < capacity)
    (hfull : capacity ≤ queue.length) : (serve stays capacity queue).length < queue.length := by
  have hstay : (queue.take capacity).countP stays ≤ queue.countP stays :=
    (List.take_sublist capacity queue).countP_le
  rw [serve, List.length_append, ← List.countP_eq_length_filter, List.length_drop]
  omega

@[simp] theorem serve_false (capacity : Nat) (queue : List α) :
    serve (fun _ ↦ false) capacity queue = queue.drop capacity := by
  rw [serve, List.filter_eq_nil_iff.mpr (by simp), List.nil_append]

/-- Dropping by name what a round got done. -/
theorem filter_eq_serve {β : Type*} {name : α → β} {queue : List α}
    (hnames : (queue.map name).Nodup) {capacity : Nat} {stays p : α → Bool}
    (hp : ∀ item ∈ queue, p item = true ↔
      name item ∉ ((queue.take capacity).filter fun item ↦ !stays item).map name) :
    queue.filter p = serve stays capacity queue := by
  have hsplit : queue.map name =
      (queue.take capacity).map name ++ (queue.drop capacity).map name := by
    rw [← List.map_append, List.take_append_drop]
  have hdisjoint := hnames
  rw [hsplit, List.nodup_append] at hdisjoint
  have hfront : (queue.take capacity).filter p = (queue.take capacity).filter stays := by
    refine List.filter_congr fun item hitem ↦ ?_
    rw [Bool.eq_iff_iff, hp item (List.mem_of_mem_take hitem)]
    constructor
    · intro hnot
      by_contra hdone
      exact hnot (List.mem_map_of_mem (List.mem_filter.mpr ⟨hitem, by simpa using hdone⟩))
    · intro hstays hmem
      obtain ⟨other, hother, heq⟩ := List.mem_map.mp hmem
      obtain ⟨hother, hdone⟩ := List.mem_filter.mp hother
      have hsame := List.inj_on_of_nodup_map hnames (List.mem_of_mem_take hother)
        (List.mem_of_mem_take hitem) heq
      rw [hsame, hstays] at hdone
      cases hdone
  have hback : (queue.drop capacity).filter p = queue.drop capacity := by
    refine List.filter_eq_self.mpr fun item hitem ↦ (hp item (List.mem_of_mem_drop hitem)).mpr ?_
    intro hmem
    obtain ⟨other, hother, heq⟩ := List.mem_map.mp hmem
    exact hdisjoint.2.2 _ (List.mem_map_of_mem (List.mem_of_mem_filter hother)) _
      (List.mem_map_of_mem hitem) heq
  calc queue.filter p
      = (queue.take capacity ++ queue.drop capacity).filter p := by rw [List.take_append_drop]
    _ = serve stays capacity queue := by rw [List.filter_append, hfront, hback, serve]

/-! ## 2. Rounds after rounds -/

/-- A queue that rounds of these capacities serve: what is ahead of an item that waits is served
like a queue of its own, and nothing new comes ahead of it. -/
structure Rounds (waits : α → Prop) (capacities : Nat → Nat) (queues : Nat → List α) : Prop where
  ahead : ∀ {r : Nat} {ahead behind : List α} {item : α}, waits item →
    queues r = ahead ++ item :: behind → capacities r ≤ ahead.length →
    ∃ behind', queues (r + 1) = serve stays (capacities r) ahead ++ item :: behind'

variable {stays} {waits : α → Prop} {capacities : Nat → Nat} {queues : Nat → List α}

/-- A queue of which every round leaves what it does not serve. -/
theorem Rounds.of_serve
    (h : ∀ r, queues (r + 1) = serve stays (capacities r) (queues r)) :
    Rounds stays waits capacities queues where
  ahead := by
    intro r ahead behind item _ hqueue hwaits
    rw [h, hqueue, serve_append stays hwaits]
    exact ⟨behind, rfl⟩

/-- An item within the capacity of a round. -/
theorem mem_take {capacity : Nat} {ahead behind : List α} {item : α}
    (h : ahead.length < capacity) : item ∈ (ahead ++ item :: behind).take capacity := by
  rw [List.take_append, List.mem_append]
  refine .inr ?_
  rw [show capacity - ahead.length = (capacity - ahead.length - 1) + 1 by omega,
    List.take_succ_cons]
  exact List.mem_cons_self

/-- A round that serves the whole queue, or has the given room. -/
def Roomy (capacities : Nat → Nat) (queues : Nat → List α) (room r : Nat) : Prop :=
  (queues r).length ≤ capacities r ∨ room ≤ capacities r

/-- **Progress.**  When one of any two rounds serves everything or has room for more than the
items that stay ahead of an item, the item is served; what is ahead of it is the rank. -/
theorem Rounds.served (hrounds : Rounds stays waits capacities queues) {room : Nat}
    (hroomy : ∀ r, Roomy capacities queues room r ∨ Roomy capacities queues room (r + 1))
    {item : α} (hitem : waits item) (n : Nat) :
    ∀ {r : Nat} {ahead behind : List α}, ahead.length < n →
      queues r = ahead ++ item :: behind → ahead.countP stays < room →
      ∃ s, r ≤ s ∧ s < r + 2 * n ∧ item ∈ (queues s).take (capacities s) := by
  induction n with
  | zero => exact fun hlength ↦ absurd hlength (Nat.not_lt_zero _)
  | succ n ih =>
    intro r ahead behind hlength hqueue hstays
    by_cases hnow : ahead.length < capacities r
    · exact ⟨r, le_rfl, by omega, hqueue ▸ mem_take hnow⟩
    -- an item that waits is behind a round that had less room than the queue is long
    have hroom : ∀ {r : Nat} {ahead behind : List α}, queues r = ahead ++ item :: behind →
        capacities r ≤ ahead.length → Roomy capacities queues room r → room ≤ capacities r := by
      intro r ahead behind hqueue hwaits hroomy
      refine hroomy.resolve_left fun hall ↦ ?_
      rw [hqueue, List.length_append, List.length_cons] at hall
      omega
    obtain ⟨behind', hnext⟩ := hrounds.ahead hitem hqueue (by omega)
    have hcount := countP_serve stays (capacities r) ahead
    have hshort : (serve stays (capacities r) ahead).length ≤ ahead.length :=
      (serve_sublist stays _ _).length_le
    rcases hroomy r with hr | hr
    · have hr := hroom hqueue (by omega) hr
      have hlt := length_serve_lt stays (show ahead.countP stays < capacities r by omega)
        (by omega)
      obtain ⟨s, hle, hs, hserved⟩ := ih (by omega) hnext (by omega)
      exact ⟨s, by omega, by omega, hserved⟩
    · -- the round may have had too little room; the next one has enough
      by_cases hthen : (serve stays (capacities r) ahead).length < capacities (r + 1)
      · exact ⟨r + 1, by omega, by omega, hnext ▸ mem_take hthen⟩
      have hr := hroom hnext (by omega) hr
      obtain ⟨behind'', hnext'⟩ := hrounds.ahead hitem hnext (by omega)
      have hcount' := countP_serve stays (capacities (r + 1)) (serve stays (capacities r) ahead)
      have hlt := length_serve_lt stays (show (serve stays (capacities r) ahead).countP stays <
        capacities (r + 1) by omega) (by omega)
      obtain ⟨s, hle, hs, hserved⟩ := ih (by omega) hnext' (by omega)
      exact ⟨s, by omega, by omega, hserved⟩

/-- **Starvation.**  When no round from one on has room for more than the items that stay ahead
of an item, the item is not served in any of them. -/
theorem Rounds.starved (hrounds : Rounds stays waits capacities queues) {start : Nat}
    {ahead : List α} (hroom : ∀ r, start ≤ r → capacities r ≤ ahead.countP stays) {behind : List α} {item : α}
    (hitem : waits item) (hqueue : queues start = ahead ++ item :: behind) (hnew : item ∉ ahead)
    (d : Nat) :
    item ∉ (queues (start + d)).take (capacities (start + d)) := by
  have hwaits : ∀ d, ∃ ahead' behind', queues (start + d) = ahead' ++ item :: behind' ∧
      ahead'.Sublist ahead ∧ ahead'.countP stays = ahead.countP stays := by
    intro d
    induction d with
    | zero => exact ⟨ahead, behind, hqueue, List.Sublist.refl _, rfl⟩
    | succ d ih =>
      obtain ⟨ahead', behind', hd, hsub, hcount⟩ := ih
      have hle : capacities (start + d) ≤ ahead'.length :=
        (hroom _ (by omega)).trans (hcount ▸ List.countP_le_length)
      obtain ⟨behind'', hnext⟩ := hrounds.ahead hitem hd hle
      exact ⟨_, behind'', hnext, (serve_sublist stays _ _).trans hsub,
        (countP_serve stays _ _).trans hcount⟩
  obtain ⟨ahead', behind', hd, hsub, hcount⟩ := hwaits d
  have hle : capacities (start + d) ≤ ahead'.length :=
    (hroom _ (by omega)).trans (hcount ▸ List.countP_le_length)
  rw [hd, List.take_append_of_le_length hle]
  exact fun hmem ↦ hnew (hsub.subset (List.mem_of_mem_take hmem))

/-! ## 3. A queue selected from a table -/

section Selected

variable {β : Type*} [DecidableEq β] {name : α → β} {before : α → α → Prop} [DecidableRel before]

/-- The rows ahead of a row in a sorted queue are those the order puts ahead of it. -/
theorem filter_before {queue ahead behind : List α} {item : α}
    (hqueue : queue = ahead ++ item :: behind) (hsorted : queue.Pairwise before)
    (hnames : (queue.map name).Nodup)
    (hantisymm : ∀ a b, before a b → before b a → name a = name b) :
    queue.filter (fun other ↦ before other item ∧ name other ≠ name item) = ahead := by
  subst hqueue
  rw [List.map_append, List.map_cons, List.nodup_append, List.nodup_cons] at hnames
  obtain ⟨-, ⟨hbehindNames, -⟩, hdisjoint⟩ := hnames
  rw [List.pairwise_append, List.pairwise_cons] at hsorted
  obtain ⟨-, ⟨hbehind, -⟩, hahead⟩ := hsorted
  have hfront : ahead.filter (fun other ↦ before other item ∧ name other ≠ name item) = ahead := by
    refine List.filter_eq_self.mpr fun other hother ↦ ?_
    rw [decide_eq_true_eq]
    exact ⟨hahead other hother item List.mem_cons_self,
      hdisjoint _ (List.mem_map_of_mem hother) _ List.mem_cons_self⟩
  have hback : (item :: behind).filter
      (fun other ↦ before other item ∧ name other ≠ name item) = [] := by
    refine List.filter_eq_nil_iff.mpr fun other hother hboth ↦ ?_
    rw [decide_eq_true_eq] at hboth
    rcases List.mem_cons.mp hother with rfl | hother
    · exact hboth.2 rfl
    · exact hboth.2 (hantisymm _ _ hboth.1 (hbehind other hother))
  rw [List.filter_append, hfront, hback, List.append_nil]

variable [Std.Total before] [IsTrans α before]

/-- A row is among the first of a sorted table when fewer rows than that come ahead of it. -/
theorem mem_take_insertionSort {rows : List α} (hnames : (rows.map name).Nodup)
    (hantisymm : ∀ a b, before a b → before b a → name a = name b) {capacity : Nat} {item : α} :
    item ∈ (rows.insertionSort before).take capacity ↔ item ∈ rows ∧
      rows.countP (fun other ↦ before other item ∧ name other ≠ name item) < capacity := by
  have hperm := List.perm_insertionSort before rows
  have hnames' : ((rows.insertionSort before).map name).Nodup :=
    (hperm.map name).nodup_iff.mpr hnames
  -- the rows ahead of an item of the queue are those the count is about
  have hcount : ∀ {ahead behind}, rows.insertionSort before = ahead ++ item :: behind →
      rows.countP (fun other ↦ before other item ∧ name other ≠ name item) = ahead.length := by
    intro ahead behind hqueue
    rw [← hperm.countP_eq, List.countP_eq_length_filter,
      filter_before hqueue (List.pairwise_insertionSort before rows) hnames' hantisymm]
  constructor
  · intro htake
    have hqueued := List.mem_of_mem_take htake
    obtain ⟨ahead, behind, hqueue⟩ := List.append_of_mem hqueued
    refine ⟨hperm.mem_iff.mp hqueued, ?_⟩
    rw [hcount hqueue]
    by_contra hlate
    rw [hqueue, List.take_append_of_le_length (by omega)] at htake
    rw [hqueue, List.map_append, List.nodup_append] at hnames'
    exact hnames'.2.2 _ (List.mem_map_of_mem (List.mem_of_mem_take htake)) _
      (List.mem_map_of_mem List.mem_cons_self) rfl
  · intro ⟨hrow, hahead⟩
    obtain ⟨ahead, behind, hqueue⟩ := List.append_of_mem (hperm.mem_iff.mpr hrow)
    rw [hcount hqueue] at hahead
    rw [hqueue]
    exact mem_take hahead

/-- **A round over a table**: the rows it serves are rewritten, those that stay are not, and the
others no longer come ahead of the item. -/
theorem serve_of_rewrite {stays selected : α → Bool} {rows : List α} {rewrite : α → α}
    {capacity : Nat} {ahead behind : List α} {item : α}
    (hnames : (rows.map name).Nodup) (hname : ∀ row ∈ rows, name (rewrite row) = name row)
    (hantisymm : ∀ a b, before a b → before b a → name a = name b)
    (hqueue : (rows.filter selected).insertionSort before = ahead ++ item :: behind)
    (hkeeps : ∀ row ∈ rows, (row ∈ ahead.take capacity → stays row = true) → rewrite row = row)
    (hleaves : ∀ row ∈ ahead.take capacity, stays row = false →
      selected (rewrite row) = true → ¬ before (rewrite row) item) :
    ∃ behind', ((rows.map rewrite).filter selected).insertionSort before =
      serve stays capacity ahead ++ item :: behind' := by
  let comes : α → Bool := fun other ↦ before other item ∧ name other ≠ name item
  have hmem : ∀ {row}, row ∈ ahead ++ item :: behind ↔ row ∈ rows ∧ selected row = true := by
    intro row
    rw [← hqueue, List.mem_insertionSort, List.mem_filter]
  have hnodup : ∀ {table : List α}, (table.map name).Nodup →
      (((table.filter selected).insertionSort before).map name).Nodup := by
    intro table htable
    refine ((List.perm_insertionSort before _).map name).nodup_iff.mpr ?_
    exact htable.sublist (List.filter_sublist.map name)
  have hqueueNames : ((ahead ++ item :: behind).map name).Nodup := hqueue ▸ hnodup hnames
  have hitem : item ∈ rows ∧ selected item = true :=
    hmem.mp (List.mem_append_right _ List.mem_cons_self)
  have hnew : item ∉ ahead := by
    rw [List.map_append, List.map_cons, List.nodup_append] at hqueueNames
    exact fun hahead ↦
      hqueueNames.2.2 _ (List.mem_map_of_mem hahead) _ List.mem_cons_self rfl
  have hitemKept : rewrite item = item :=
    hkeeps item hitem.1 fun htake ↦ absurd (List.mem_of_mem_take htake) hnew
  have hitem' : item ∈ ((rows.map rewrite).filter selected).insertionSort before := by
    rw [List.mem_insertionSort, List.mem_filter]
    exact ⟨hitemKept ▸ List.mem_map_of_mem hitem.1, hitem.2⟩
  obtain ⟨ahead', behind', hqueue'⟩ := List.append_of_mem hitem'
  have hnames' : ((rows.map rewrite).map name).Nodup := by
    have hsame : (rows.map rewrite).map name = rows.map name := by
      rw [List.map_map]
      exact List.map_congr_left fun row hrow ↦ hname row hrow
    rw [hsame]
    exact hnames
  have hahead := filter_before hqueue (List.pairwise_insertionSort before _) (hnodup hnames)
    hantisymm
  have hahead' := filter_before hqueue' (List.pairwise_insertionSort before _) (hnodup hnames')
    hantisymm
  -- of the rewritten rows, those ahead of the item are the old ones that were not done
  let keeps : α → Bool := fun row ↦
    name row ∉ ((ahead.take capacity).filter fun other ↦ !stays other).map name
  have hdone : ∀ row ∈ rows, keeps row = false →
      ∃ other ∈ ahead.take capacity, stays other = false ∧ other = row := by
    intro row hrow hdone
    obtain ⟨other, hother, heq⟩ := List.mem_map.mp (not_not.mp (of_decide_eq_false hdone))
    obtain ⟨hother, hstays⟩ := List.mem_filter.mp hother
    have hrows : other ∈ rows :=
      (hmem.mp (List.mem_append_left _ (List.mem_of_mem_take hother))).1
    exact ⟨other, hother, by simpa using hstays, List.inj_on_of_nodup_map hnames hrows hrow heq⟩
  have hrewrite : ∀ row ∈ rows, keeps row = true → rewrite row = row := by
    intro row hrow hkeep
    refine hkeeps row hrow fun htake ↦ ?_
    by_contra hstays
    refine of_decide_eq_true hkeep (List.mem_map_of_mem (List.mem_filter.mpr ⟨htake, ?_⟩))
    simpa using hstays
  have hpoint : ∀ row ∈ rows, (comes (rewrite row) && selected (rewrite row)) =
      (keeps row && (comes row && selected row)) := by
    intro row hrow
    by_cases hkeep : keeps row = true
    · rw [hrewrite row hrow hkeep, hkeep, Bool.true_and]
    · rw [Bool.not_eq_true] at hkeep
      obtain ⟨other, hother, hstays, rfl⟩ := hdone row hrow hkeep
      rw [hkeep, Bool.false_and, Bool.and_eq_false_iff]
      by_cases hselected : selected (rewrite other) = true
      · exact .inl (decide_eq_false fun hcomes ↦ hleaves other hother hstays hselected hcomes.1)
      · exact .inr (by simpa using hselected)
  have hselect : ((rows.map rewrite).filter selected).filter comes =
      ((rows.filter selected).filter comes).filter keeps := by
    have hkept : ∀ row ∈ rows.filter fun row ↦ keeps row && (comes row && selected row),
        rewrite row = row := by
      intro row hrow
      obtain ⟨hrow, hkept⟩ := List.mem_filter.mp hrow
      rw [Bool.and_eq_true] at hkept
      exact hrewrite row hrow hkept.1
    have hfiltered : rows.filter ((fun row ↦ comes row && selected row) ∘ rewrite) =
        rows.filter fun row ↦ keeps row && (comes row && selected row) :=
      List.filter_congr hpoint
    calc ((rows.map rewrite).filter selected).filter comes
        = (rows.filter ((fun row ↦ comes row && selected row) ∘ rewrite)).map rewrite := by
          rw [List.filter_filter, List.filter_map]
      _ = rows.filter fun row ↦ keeps row && (comes row && selected row) := by
          rw [hfiltered, List.map_congr_left hkept, List.map_id']
      _ = _ := by simp only [List.filter_filter]
  have hserve : ahead.filter keeps = serve stays capacity ahead := by
    rw [List.map_append] at hqueueNames
    refine filter_eq_serve (List.nodup_append.mp hqueueNames).1 fun row _ ↦ ?_
    rw [decide_eq_true_eq]
  refine ⟨behind', ?_⟩
  have hfront : ahead' = serve stays capacity ahead := by
    rw [← hserve, ← hahead, ← hahead', Table.filter_insertionSort, Table.filter_insertionSort,
      Table.filter_insertionSort, hselect]
  rw [← hfront]
  exact hqueue'

end Selected

end RetryQueue
