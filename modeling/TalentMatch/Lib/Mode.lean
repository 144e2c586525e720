import Mathlib.Data.List.Dedup
import Mathlib.Data.List.Forall2
import Mathlib.Data.List.Nodup

/-!
# The maximum of a collection without an order

`max(collection, key=weight)` goes through the collection and keeps the first
element of the greatest weight. A collection such as a set has no order of its
own: it can be gone through in any.

Results:
1. `firstMax_mem`, `le_firstMax`: what is kept is in the collection and has the
   greatest weight.
2. `firstMax_cons_of_max`: an element of the greatest weight that comes first is
   kept.
3. `firstMax_independent_iff`: every order keeps the same element exactly when no
   two elements share the greatest weight.
4. `firstMax_of_moved`: the most frequent element stays the one when other votes
   move to it.
-/

namespace Mode

variable {α : Type*} (weight : α → Nat)

/-- Go on with `best` as the element kept so far. -/
def keepMax (best : α) : List α → α
  | [] => best
  | a :: order => if weight best < weight a then keepMax a order else keepMax best order

/-- The first element of the greatest weight. -/
def firstMax : List α → Option α
  | [] => none
  | a :: order => some (keepMax weight a order)

variable {weight}

theorem keepMax_mem (best : α) (order : List α) : keepMax weight best order ∈ best :: order := by
  induction order generalizing best with
  | nil => exact List.mem_singleton.mpr rfl
  | cons a order ih =>
    unfold keepMax
    split
    · exact List.mem_cons_of_mem best (ih a)
    · rcases List.mem_cons.mp (ih best) with heq | hmem
      · rw [heq]
        exact List.mem_cons_self
      · exact List.mem_cons_of_mem best (List.mem_cons_of_mem a hmem)

theorem le_keepMax (best : α) (order : List α) :
    ∀ x ∈ best :: order, weight x ≤ weight (keepMax weight best order) := by
  induction order generalizing best with
  | nil =>
    intro x hx
    rw [List.mem_singleton.mp hx]
    exact Nat.le_refl _
  | cons a order ih =>
    unfold keepMax
    split
    · next hlt =>
      intro x hx
      rcases List.mem_cons.mp hx with rfl | hx
      · exact Nat.le_trans (Nat.le_of_lt hlt) (ih a a List.mem_cons_self)
      · exact ih a x hx
    · next hge =>
      intro x hx
      rcases List.mem_cons.mp hx with rfl | hx
      · exact ih x x List.mem_cons_self
      · rcases List.mem_cons.mp hx with rfl | hx
        · exact Nat.le_trans (Nat.le_of_not_lt hge) (ih best best List.mem_cons_self)
        · exact ih best x (List.mem_cons_of_mem best hx)

/-- Nothing replaces an element of the greatest weight. -/
theorem keepMax_of_max {best : α} {order : List α} (h : ∀ x ∈ order, weight x ≤ weight best) :
    keepMax weight best order = best := by
  induction order with
  | nil => rfl
  | cons a order ih =>
    have ha : ¬ weight best < weight a := Nat.not_lt.mpr (h a List.mem_cons_self)
    rw [keepMax, if_neg ha]
    exact ih fun x hx => h x (List.mem_cons_of_mem a hx)

theorem firstMax_mem {order : List α} {a : α} (h : firstMax weight order = some a) : a ∈ order := by
  cases order with
  | nil => cases h
  | cons b order =>
    cases h
    exact keepMax_mem b order

theorem le_firstMax {order : List α} {a : α} (h : firstMax weight order = some a) :
    ∀ x ∈ order, weight x ≤ weight a := by
  cases order with
  | nil => cases h
  | cons b order =>
    cases h
    exact le_keepMax b order

theorem firstMax_cons_of_max {a : α} {order : List α} (h : ∀ x ∈ order, weight x ≤ weight a) :
    firstMax weight (a :: order) = some a :=
  congrArg some (keepMax_of_max h)

/-- An element can come first. -/
theorem exists_perm_cons {l : List α} {a : α} (h : a ∈ l) : ∃ rest, (a :: rest).Perm l := by
  obtain ⟨before, after, rfl⟩ := List.append_of_mem h
  exact ⟨before ++ after, List.perm_middle.symm⟩

/-- Every order keeps the same element exactly when no two elements share the
greatest weight. -/
theorem firstMax_independent_iff {l : List α} :
    (∀ order order' : List α, order.Perm l → order'.Perm l →
        firstMax weight order = firstMax weight order') ↔
      ∀ a ∈ l, ∀ b ∈ l, (∀ x ∈ l, weight x ≤ weight a) → (∀ x ∈ l, weight x ≤ weight b) → a = b := by
  constructor
  · intro h a ha b hb hmax hmax'
    obtain ⟨rest, hrest⟩ := exists_perm_cons ha
    obtain ⟨rest', hrest'⟩ := exists_perm_cons hb
    have heq := h _ _ hrest hrest'
    rw [firstMax_cons_of_max fun x hx => hmax x (hrest.mem_iff.mp (List.mem_cons_of_mem a hx)),
      firstMax_cons_of_max fun x hx => hmax' x (hrest'.mem_iff.mp (List.mem_cons_of_mem b hx))] at heq
    exact Option.some.inj heq
  · intro h order order' hp hp'
    cases hm : firstMax weight order with
    | none =>
      cases order with
      | nil =>
        rw [List.nil_perm.mp hp] at hp'
        rw [List.perm_nil.mp hp']
        rfl
      | cons a order => cases hm
    | some a =>
      cases hm' : firstMax weight order' with
      | none =>
        cases order' with
        | nil =>
          rw [List.nil_perm.mp hp'] at hp
          rw [List.perm_nil.mp hp] at hm
          cases hm
        | cons b order' => cases hm'
      | some b =>
        have ha := hp.mem_iff.mp (firstMax_mem hm)
        have hb := hp'.mem_iff.mp (firstMax_mem hm')
        refine congrArg some (h a ha b hb ?_ ?_)
        · exact fun x hx => le_firstMax hm x (hp.mem_iff.mpr hx)
        · exact fun x hx => le_firstMax hm' x (hp'.mem_iff.mpr hx)

/-! ## Votes -/

/-- A vote, and the same after it may have moved from `a` to `b`. -/
def Moved (a b x y : α) : Prop := y = x ∨ (x = a ∧ y = b)

variable [DecidableEq α] {a b : α}

/-- Votes for anything else are as many as before. -/
theorem count_of_moved {l m : List α} (h : List.Forall₂ (Moved a b) l m) {c : α} (ha : c ≠ a)
    (hb : c ≠ b) : m.count c = l.count c := by
  induction h with
  | nil => rfl
  | cons hxy _ ih =>
    rcases hxy with rfl | ⟨rfl, rfl⟩
    · rw [List.count_cons, List.count_cons, ih]
    · rw [List.count_cons_of_ne hb.symm, List.count_cons_of_ne ha.symm, ih]

/-- No vote moved, or `a` has lost some and `b` has won some. -/
theorem moved_cases {l m : List α} (hab : a ≠ b) (h : List.Forall₂ (Moved a b) l m) :
    m = l ∨ (m.count a < l.count a ∧ l.count b < m.count b) := by
  induction h with
  | nil => exact .inl rfl
  | cons hxy _ ih =>
    rcases hxy with rfl | ⟨rfl, rfl⟩
    · rcases ih with rfl | ⟨ha, hb⟩
      · exact .inl rfl
      · refine .inr ⟨?_, ?_⟩
        · rw [List.count_cons, List.count_cons]
          exact Nat.add_lt_add_right ha _
        · rw [List.count_cons, List.count_cons]
          exact Nat.add_lt_add_right hb _
    · right
      rw [List.count_cons_of_ne hab.symm, List.count_cons_self, List.count_cons_of_ne hab,
        List.count_cons_self]
      rcases ih with rfl | ⟨ha, hb⟩
      · exact ⟨Nat.lt_succ_self _, Nat.lt_succ_self _⟩
      · exact ⟨Nat.lt_succ_of_lt ha, Nat.lt_succ_of_lt hb⟩

/-- The element with the most votes still has the most after others moved to it. The
order of the elements may depend on the votes. -/
theorem firstMax_of_moved {l m order order' : List α} (hab : a ≠ b)
    (h : List.Forall₂ (Moved a b) l m) (hperm : order.Perm l.dedup) (hperm' : order'.Perm m.dedup)
    (hsame : m = l → order' = order) (hb : firstMax (fun x => l.count x) order = some b) :
    firstMax (fun x => m.count x) order' = some b := by
  rcases moved_cases hab h with heq | ⟨hlost, hwon⟩
  · rw [heq, hsame heq]
    exact hb
  · have hmax : ∀ x, l.count x ≤ l.count b := by
      intro x
      by_cases hx : x ∈ l
      · exact le_firstMax hb x (hperm.mem_iff.mpr (List.mem_dedup.mpr hx))
      · rw [List.count_eq_zero_of_not_mem hx]
        exact Nat.zero_le _
    have hbm : b ∈ order' := by
      rw [hperm'.mem_iff, List.mem_dedup, ← List.count_pos_iff]
      omega
    cases hx : firstMax (fun x => m.count x) order' with
    | none =>
      cases order' with
      | nil => cases hbm
      | cons c order' => cases hx
    | some x =>
      have hle : m.count b ≤ m.count x := le_firstMax hx b hbm
      -- nothing else has as many votes as `b` has now
      by_cases hxb : x = b
      · rw [hxb]
      · have hlt : m.count x < m.count b := by
          by_cases hxa : x = a
          · have hmaxa := hmax a
            rw [hxa]
            omega
          · have hmaxx := hmax x
            rw [count_of_moved h hxa hxb]
            omega
        omega

end Mode
