import Mathlib.Data.List.Nodup
import Mathlib.Data.List.Perm.Subperm
import Mathlib.Data.List.Range
import Mathlib.Data.List.Sort

/-!
# Work lists — tasks in an order, dealt to parties and done over several sittings

A list of tasks is dealt in turn to `n` parties.  A party does its tasks in any number of sittings,
each of which goes through what is still open and may end early; keys tell which tasks are done.
-/

namespace Worklist

variable {α β σ ε κ τ : Type*}

/-! ## 1. Dealing -/

/-- What party `i` of `n` is dealt of the tasks that are numbered from `first` on. -/
def deal (n i : Nat) : Nat → List α → List α
  | _, [] => []
  | first, a :: rest =>
    if first % n = i then a :: deal n i (first + 1) rest else deal n i (first + 1) rest

theorem deal_append (n i : Nat) : ∀ (first : Nat) (l l' : List α),
    deal n i first (l ++ l') = deal n i first l ++ deal n i (first + l.length) l'
  | first, [], l' => rfl
  | first, a :: l, l' => by
    have hfirst : first + 1 + l.length = first + (a :: l).length := by
      rw [List.length_cons]
      omega
    rw [List.cons_append, deal, deal, deal_append n i (first + 1) l l', hfirst]
    split <;> rfl

theorem deal_sublist (n i : Nat) : ∀ (first : Nat) (l : List α), (deal n i first l).Sublist l
  | _, [] => List.Sublist.slnil
  | first, a :: l => by
    rw [deal]
    split
    · exact (deal_sublist n i (first + 1) l).cons_cons a
    · exact (deal_sublist n i (first + 1) l).cons a

theorem deal_map (n i : Nat) (f : α → β) : ∀ (first : Nat) (l : List α),
    deal n i first (l.map f) = (deal n i first l).map f
  | _, [] => rfl
  | first, a :: l => by
    rw [List.map_cons, deal, deal, deal_map n i f (first + 1) l]
    split <;> rfl

theorem deal_one (first : Nat) : ∀ l : List α, deal 1 0 first l = l
  | [] => rfl
  | a :: l => by rw [deal, if_pos (Nat.mod_one first), deal_one (first + 1) l]

/-- One more task for one of the parties is one more task in all. -/
theorem flatMap_cons_perm {i : κ} {a : α} [DecidableEq κ] (f : κ → List α) : ∀ {parties : List κ},
    parties.Nodup → i ∈ parties →
    (parties.flatMap fun j ↦ if i = j then a :: f j else f j).Perm (a :: parties.flatMap f)
  | [], _, hmem => absurd hmem List.not_mem_nil
  | j :: parties, hnodup, hmem => by
    obtain ⟨hj, hnodup⟩ := List.nodup_cons.mp hnodup
    rw [List.flatMap_cons, List.flatMap_cons]
    rcases List.mem_cons.mp hmem with rfl | hmem
    · have hrest : (parties.flatMap fun j ↦ if i = j then a :: f j else f j) =
          parties.flatMap f :=
        List.flatMap_congr fun k hk ↦ if_neg fun heq : i = k ↦ hj (heq ▸ hk)
      rw [if_pos rfl, hrest]
      exact List.Perm.refl _
    · have hne : i ≠ j := fun heq ↦ hj (heq ▸ hmem)
      rw [if_neg hne]
      exact ((flatMap_cons_perm f hnodup hmem).append_left _).trans List.perm_middle

/-- **A fair deal.**  What all the parties are dealt is the whole list, each task once. -/
theorem deals_perm {n : Nat} (hn : 0 < n) : ∀ (first : Nat) (l : List α),
    ((List.range n).flatMap fun i ↦ deal n i first l).Perm l
  | first, [] => by
    have hnone : ((List.range n).flatMap fun i ↦ deal n i first ([] : List α)) = [] :=
      List.flatMap_eq_nil_iff.mpr fun _ _ ↦ rfl
    rw [hnone]
  | first, a :: l => by
    have hmem : first % n ∈ List.range n := List.mem_range.mpr (Nat.mod_lt first hn)
    exact (flatMap_cons_perm (fun i ↦ deal n i (first + 1) l) List.nodup_range hmem).trans
      ((deals_perm hn (first + 1) l).cons a)

/-! ## 2. Sittings -/

section Sittings

/-- Each task done is one of the list, and is done once. -/
def Part (l done : List κ) : Prop := done.Nodup ∧ done ⊆ l

theorem Part.nil (l : List κ) : Part l [] := ⟨List.nodup_nil, List.nil_subset l⟩

/-- As much done as there are tasks is all of them done. -/
theorem Part.perm {l done : List κ} (hdone : Part l done) (hlength : l.length ≤ done.length) :
    done.Perm l :=
  (List.subperm_of_subset hdone.1 hdone.2).perm_of_length_le hlength

variable [DecidableEq κ]

/-- What is still open of a list of tasks. -/
def remaining (key : α → κ) (done : List κ) (l : List α) : List α :=
  l.filter fun a ↦ key a ∉ done

/-- What is done after a sitting that does the first `k` tasks still open. -/
def sit (l done : List κ) (k : Nat) : List κ := done ++ (remaining id done l).take k

variable {key : α → κ} {done l : List κ}

theorem remaining_append (tasks tasks' : List α) :
    remaining key done (tasks ++ tasks') = remaining key done tasks ++ remaining key done tasks' :=
  List.filter_append ..

theorem remaining_cons_of_mem {a : α} (h : key a ∈ done) (tasks : List α) :
    remaining key done (a :: tasks) = remaining key done tasks :=
  List.filter_cons_of_neg (by simpa using h)

theorem remaining_cons_of_notMem {a : α} (h : key a ∉ done) (tasks : List α) :
    remaining key done (a :: tasks) = a :: remaining key done tasks :=
  List.filter_cons_of_pos (decide_eq_true h)

theorem remaining_map (f : β → α) (tasks : List β) :
    remaining key done (tasks.map f) = (remaining (key ∘ f) done tasks).map f := by
  rw [remaining, remaining, List.filter_map]
  rfl

/-- Only which tasks are done matters. -/
theorem remaining_congr {done' : List κ} (h : ∀ k, k ∈ done ↔ k ∈ done') (tasks : List α) :
    remaining key done tasks = remaining key done' tasks :=
  List.filter_congr fun a _ ↦ decide_eq_decide.mpr (not_congr (h (key a)))

theorem map_remaining (tasks : List α) :
    (remaining key done tasks).map key = remaining id done (tasks.map key) := by
  rw [remaining, remaining, List.filter_map]
  rfl

/-- What is done in between leaves other tasks as they are. -/
theorem remaining_eq_of_notMem {new : List κ} {tasks : List α} (h : ∀ a ∈ tasks, key a ∉ new) :
    remaining key (done ++ new) tasks = remaining key done tasks := by
  refine List.filter_congr fun a ha ↦ decide_eq_decide.mpr (not_congr ?_)
  rw [List.mem_append, or_iff_left (h a ha)]

theorem Part.sit (hl : l.Nodup) (hdone : Part l done) (k : Nat) :
    Part l (Worklist.sit l done k) := by
  obtain ⟨hnodup, hsubset⟩ := hdone
  have hopen : ((remaining id done l).take k).Sublist (remaining id done l) :=
    List.take_sublist k _
  constructor
  · refine List.nodup_append'.mpr ⟨hnodup, hopen.nodup (hl.filter _), ?_⟩
    intro a hdone hnew
    have ha := List.of_mem_filter (hopen.subset hnew)
    rw [decide_eq_true_iff] at ha
    exact ha hdone
  · refine List.append_subset.mpr ⟨hsubset, fun a ha ↦ ?_⟩
    exact List.mem_of_mem_filter (hopen.subset ha)

/-- A sitting through all that is open does the rest. -/
theorem Part.sit_all (hl : l.Nodup) (hdone : Part l done) {k : Nat}
    (hk : (remaining id done l).length ≤ k) : (Worklist.sit l done k).Perm l := by
  have hpart : Part l (Worklist.sit l done k) := Part.sit hl hdone k
  refine (List.perm_ext_iff_of_nodup hpart.1 hl).mpr fun a ↦ ⟨fun ha ↦ hpart.2 ha, fun ha ↦ ?_⟩
  rw [Worklist.sit, List.take_of_length_le hk, List.mem_append]
  by_cases hmem : a ∈ done
  · exact Or.inl hmem
  · exact Or.inr (List.mem_filter.mpr ⟨ha, decide_eq_true hmem⟩)

end Sittings

/-! ## 3. Loops with an early exit -/

theorem sublist_flatMap_of_mem (f : α → List β) {l : List α} {a : α} (h : a ∈ l) :
    (f a).Sublist (l.flatMap f) := List.sublist_flatten_of_mem (List.mem_map_of_mem h)

/-- A loop whose body may leave it. -/
def exitLoop (body : α → σ → σ × Option ε) : List α → σ → σ × Option ε
  | [], s => (s, none)
  | a :: rest, s =>
    match body a s with
    | (s', none) => exitLoop body rest s'
    | (s', some exit) => (s', some exit)

theorem exitLoop_cons_none {body : α → σ → σ × Option ε} {a : α} {s s' : σ}
    (h : body a s = (s', none)) (rest : List α) :
    exitLoop body (a :: rest) s = exitLoop body rest s' := by
  rw [exitLoop, h]

theorem exitLoop_cons_some {body : α → σ → σ × Option ε} {a : α} {s s' : σ} {exit : ε}
    (h : body a s = (s', some exit)) (rest : List α) :
    exitLoop body (a :: rest) s = (s', some exit) := by
  rw [exitLoop, h]

/-- **The rule for a loop of loops.**  What each pass of the body brings about on its own tasks, and
what composes along the order of the tasks, the whole loop brings about on all of them. -/
theorem exitLoop_rule {body : α → σ → σ × Option ε} {tasks : α → List τ}
    (Good : σ → Prop) (Apart : List τ → List τ → Prop) {Brings : List τ → σ → σ → Option ε → Prop}
    (hnil : ∀ s, Good s → Brings [] s s none)
    (hgood : ∀ {l s s' exit}, Brings l s s' exit → Good s')
    (happend : ∀ {l l' s s' s'' exit}, Apart l l' → Brings l s s' none →
      Brings l' s' s'' exit → Brings (l ++ l') s s'' exit)
    (hexit : ∀ {l l' s s' exit}, Brings l s s' (some exit) →
      Brings (l ++ l') s s' (some exit)) :
    ∀ {l : List α}, (∀ a ∈ l, ∀ s, Good s → Brings (tasks a) s (body a s).1 (body a s).2) →
      (∀ a rest, (a :: rest) <:+ l → Apart (tasks a) (rest.flatMap tasks)) →
      ∀ s, Good s →
        Brings (l.flatMap tasks) s (exitLoop body l s).1 (exitLoop body l s).2
  | [], _, _, s, hs => hnil s hs
  | a :: rest, hbody, hapart, s, hs => by
    have hpass := hbody a List.mem_cons_self s hs
    have hsplit := hapart a rest List.suffix_rfl
    have hrest := exitLoop_rule Good Apart hnil hgood happend hexit (l := rest)
      (fun b hb ↦ hbody b (List.mem_cons_of_mem a hb))
      fun b more hmore ↦ hapart b more (hmore.trans (List.suffix_cons a rest))
    rw [List.flatMap_cons]
    rcases hrun : body a s with ⟨s', _ | exit⟩
    · rw [hrun] at hpass
      rw [exitLoop_cons_none hrun]
      exact happend hsplit hpass (hrest s' (hgood hpass))
    · rw [hrun] at hpass
      rw [exitLoop_cons_some hrun]
      exact hexit hpass

/-! ## 4. Tables by key -/

section Tables

/-- A table with the keys of another, of whose rows all its rows are. -/
theorem perm_of_keys {rows reference : List (κ × β)} (hnodup : (reference.map Prod.fst).Nodup)
    (hkeys : (rows.map Prod.fst).Perm (reference.map Prod.fst)) (hrows : rows ⊆ reference) :
    rows.Perm reference := by
  have hdistinct : rows.Nodup := List.Nodup.of_map Prod.fst (hkeys.nodup_iff.mpr hnodup)
  refine (List.subperm_of_subset hdistinct hrows).perm_of_length_le ?_
  rw [← List.length_map (f := Prod.fst), ← hkeys.length_eq, List.length_map]

variable [LinearOrder κ]

/-- The rows of a table in the order of their keys. -/
def byKey (rows : List (κ × β)) : List (κ × β) :=
  rows.insertionSort fun a b ↦ a.1 ≤ b.1

theorem byKey_perm (rows : List (κ × β)) : (byKey rows).Perm rows := List.perm_insertionSort _ _

/-- The order of the keys is the only one. -/
theorem byKey_congr {rows rows' : List (κ × β)} (hnodup : (rows.map Prod.fst).Nodup)
    (hperm : rows.Perm rows') : byKey rows = byKey rows' := by
  have hsorted : ∀ rows : List (κ × β), (byKey rows).Pairwise fun a b ↦ a.1 ≤ b.1 :=
    fun rows ↦ List.pairwise_insertionSort _ rows
  refine List.Perm.eq_of_pairwise ?_ (hsorted rows) (hsorted rows')
    ((byKey_perm rows).trans (hperm.trans (byKey_perm rows').symm))
  intro a b ha hb hab hba
  have ha' : a ∈ rows := (byKey_perm rows).mem_iff.mp ha
  have hb' : b ∈ rows := hperm.mem_iff.mpr ((byKey_perm rows').mem_iff.mp hb)
  exact List.inj_on_of_nodup_map hnodup ha' hb' (le_antisymm hab hba)

/-- What is done to the contents of the rows does not touch their order. -/
theorem map_byKey {γ : Type*} (f : β → γ) (rows : List (κ × β)) :
    (byKey rows).map (Prod.map id f) = byKey (rows.map (Prod.map id f)) :=
  List.map_insertionSort _ _ _ rows fun _ _ _ _ ↦ Iff.rfl

end Tables

end Worklist
