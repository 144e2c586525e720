import Mathlib.Algebra.BigOperators.Group.List.Basic
import Mathlib.Algebra.BigOperators.Ring.List
import Mathlib.Algebra.Order.BigOperators.Group.List
import Mathlib.Algebra.Order.Field.Basic
import Mathlib.Data.List.MinMax
import Mathlib.Data.List.Sort
import Mathlib.Tactic.FieldSimp
import Mathlib.Tactic.Linarith
import Mathlib.Tactic.Ring

/-!
# Means of windows of the sorted values

The mean, the median and the trimmed means of a list of numbers are all of one
kind: sort the values, keep those between two positions, take their mean. The two
positions depend on the number of values only.

Results:
1. `sorted_map_of_antitone`, `forall₂_sorted`: sorting after a reflection, and
   after some values were raised.
2. `isAverage_windowMean`: the mean of a window that is never empty is an average.
3. `windowMean_reflect_iff`: it treats both tails alike exactly when the window and
   its mirror image have one mean.
-/

namespace OrderStat

/-! ## 1. Sorting -/

section Sorted
variable {α β : Type*} [LinearOrder α] [LinearOrder β]

/-- The values in increasing order. -/
def sorted (values : List α) : List α := values.insertionSort (· ≤ ·)

/-- The elements from position `lo` on and before position `hi`. -/
def slice (l : List α) (lo hi : Nat) : List α := (l.take hi).drop lo

@[simp] theorem length_sorted (values : List α) : (sorted values).length = values.length :=
  List.length_insertionSort _ values

@[simp] theorem mem_sorted {values : List α} {v : α} : v ∈ sorted values ↔ v ∈ values :=
  List.mem_insertionSort _

theorem perm_sorted (values : List α) : (sorted values).Perm values :=
  List.perm_insertionSort _ values

theorem pairwise_sorted (values : List α) : (sorted values).Pairwise (· ≤ ·) :=
  List.pairwise_insertionSort _ values

/-- A sorted list with these values is the one that sorting gives. -/
theorem eq_sorted {l values : List α} (hl : l.Pairwise (· ≤ ·)) (hp : l.Perm values) :
    l = sorted values :=
  (hp.trans (perm_sorted values).symm).eq_of_pairwise' hl (pairwise_sorted values)

theorem sorted_eq_of_perm {values values' : List α} (h : values.Perm values') :
    sorted values = sorted values' :=
  eq_sorted (pairwise_sorted values) ((perm_sorted values).trans h)

theorem sorted_map_of_monotone {f : α → β} (hf : Monotone f) (values : List α) :
    sorted (values.map f) = (sorted values).map f := by
  symm
  apply eq_sorted
  · exact (pairwise_sorted values).map f fun _ _ h => hf h
  · exact (perm_sorted values).map f

theorem sorted_map_of_antitone {f : α → β} (hf : Antitone f) (values : List α) :
    sorted (values.map f) = ((sorted values).map f).reverse := by
  symm
  apply eq_sorted
  · rw [List.pairwise_reverse]
    exact (pairwise_sorted values).map f fun _ _ h => hf h
  · exact (List.reverse_perm _).trans ((perm_sorted values).map f)

/-- An element below all others stays in front of them. -/
theorem orderedInsert_of_le {a : α} {l : List α} (h : ∀ b ∈ l, a ≤ b) :
    l.orderedInsert (· ≤ ·) a = a :: l := by
  cases l with
  | nil => rfl
  | cons b l => exact List.orderedInsert_cons_of_le (· ≤ ·) l (h b List.mem_cons_self)

/-- Inserting a greater value into a list of greater values. -/
theorem forall₂_orderedInsert {l m : List α} (h : List.Forall₂ (· ≤ ·) l m)
    (hl : l.Pairwise (· ≤ ·)) (hm : m.Pairwise (· ≤ ·)) {a b : α} (hab : a ≤ b) :
    List.Forall₂ (· ≤ ·) (l.orderedInsert (· ≤ ·) a) (m.orderedInsert (· ≤ ·) b) := by
  induction h generalizing a b with
  | nil => exact .cons hab .nil
  | @cons x y l m hxy h ih =>
    obtain ⟨hx, hl⟩ := List.pairwise_cons.mp hl
    obtain ⟨hy, hm⟩ := List.pairwise_cons.mp hm
    rw [List.orderedInsert_cons, List.orderedInsert_cons]
    split
    · next hax =>
      split
      · exact .cons hab (.cons hxy h)
      · next hyb =>
        -- `x` moves one place on, to where `b` may have gone
        have hxb : x ≤ b := le_trans hxy (le_of_not_ge hyb)
        refine .cons (le_trans hax hxy) ?_
        rw [← orderedInsert_of_le hx]
        exact ih hl hm hxb
    · next hxa =>
      have hxa : x ≤ a := le_of_not_ge hxa
      split
      · next hby =>
        refine .cons (le_trans hxa hab) ?_
        rw [← orderedInsert_of_le hy]
        exact ih hl hm (le_trans hab hby)
      · exact .cons hxy (ih hl hm hab)

/-- Where every value is raised, every order statistic is. -/
theorem forall₂_sorted {values values' : List α} (h : List.Forall₂ (· ≤ ·) values values') :
    List.Forall₂ (· ≤ ·) (sorted values) (sorted values') := by
  induction h with
  | nil => exact .nil
  | cons hab h ih =>
    exact forall₂_orderedInsert ih (pairwise_sorted _) (pairwise_sorted _) hab

/-- Raising one value raises no other. -/
theorem forall₂_le_set {values : List α} {i : Nat} {v v' : α} (hv : values[i]? = some v)
    (hle : v ≤ v') : List.Forall₂ (· ≤ ·) values (values.set i v') := by
  induction values generalizing i with
  | nil => cases hv
  | cons u values ih =>
    cases i with
    | zero =>
      cases hv
      exact .cons hle (List.forall₂_same.mpr fun _ _ => le_refl _)
    | succ i => exact .cons (le_refl u) (ih hv)

end Sorted

/-! ## 2. Slices -/

section Slice
variable {α β : Type*}

theorem length_slice (l : List α) (lo hi : Nat) :
    (slice l lo hi).length = min hi l.length - lo := by
  rw [slice, List.length_drop, List.length_take]

theorem slice_map (f : α → β) (l : List α) (lo hi : Nat) :
    slice (l.map f) lo hi = (slice l lo hi).map f := by
  rw [slice, slice, List.map_drop, List.map_take]

theorem mem_of_mem_slice {l : List α} {lo hi : Nat} {a : α} (h : a ∈ slice l lo hi) : a ∈ l :=
  List.mem_of_mem_take (List.mem_of_mem_drop h)

theorem slice_zero_length (l : List α) : slice l 0 l.length = l := by
  rw [slice, List.take_length, List.drop_zero]

/-- The slice of a reversed list is the mirrored slice, reversed. -/
theorem slice_reverse (l : List α) {lo hi : Nat} (hlo : lo ≤ hi) (hhi : hi ≤ l.length) :
    slice l.reverse lo hi = (slice l (l.length - hi) (l.length - lo)).reverse := by
  rw [slice, slice, List.take_reverse, List.drop_reverse, List.length_drop, List.take_drop]
  congr 3
  omega

theorem forall₂_slice {R : α → β → Prop} {l : List α} {m : List β} (h : List.Forall₂ R l m)
    (lo hi : Nat) : List.Forall₂ R (slice l lo hi) (slice m lo hi) :=
  List.forall₂_drop lo (List.forall₂_take hi h)

/-- A slice that starts one place earlier has one more element in front. -/
theorem slice_eq_cons (l : List α) {lo hi : Nat} (hlo : lo < hi) (hhi : hi ≤ l.length) :
    slice l lo hi = l[lo] :: slice l (lo + 1) hi := by
  have hlt : lo < (l.take hi).length := by
    rw [List.length_take]
    omega
  rw [slice, slice, List.drop_eq_getElem_cons hlt, List.getElem_take]

/-- A slice that ends one place later has one more element at the end. -/
theorem slice_succ (l : List α) {lo hi : Nat} (hlo : lo ≤ hi) (hhi : hi < l.length) :
    slice l lo (hi + 1) = slice l lo hi ++ [l[hi]] := by
  have hle : lo ≤ (l.take hi).length := by
    rw [List.length_take]
    omega
  rw [slice, slice, List.take_succ_eq_append_getElem hhi, List.drop_append_of_le_length hle]

/-- The window lies in the list and is not empty. -/
def IsWindow (lo hi : Nat → Nat) : Prop := ∀ n, 0 < n → lo n < hi n ∧ hi n ≤ n

theorem slice_ne_nil {lo hi : Nat → Nat} (h : IsWindow lo hi) {l : List α} (hne : l ≠ []) :
    slice l (lo l.length) (hi l.length) ≠ [] := by
  obtain ⟨hlt, hle⟩ := h l.length (List.length_pos_iff.mpr hne)
  apply List.ne_nil_of_length_pos
  rw [length_slice]
  omega

theorem window_ne_nil [LinearOrder α] {lo hi : Nat → Nat} (h : IsWindow lo hi) {values : List α}
    (hne : values ≠ []) :
    slice (sorted values) (lo values.length) (hi values.length) ≠ [] := by
  have hsorted : sorted values ≠ [] := by
    apply List.ne_nil_of_length_pos
    rw [length_sorted]
    exact List.length_pos_iff.mpr hne
  have h := slice_ne_nil h hsorted
  rwa [length_sorted] at h

/-- The mirror image of a window. -/
theorem IsWindow.mirror {lo hi : Nat → Nat} (h : IsWindow lo hi) :
    IsWindow (fun n => n - hi n) (fun n => n - lo n) := by
  intro n hn
  obtain ⟨hlt, hle⟩ := h n hn
  show n - hi n < n - lo n ∧ n - lo n ≤ n
  omega

end Slice

/-! ## 3. Means -/

section Mean
variable {𝕜 : Type*} [Field 𝕜]

/-- The arithmetic mean. -/
def mean (l : List 𝕜) : 𝕜 := l.sum / l.length

theorem mean_eq_of_perm {l m : List 𝕜} (h : l.Perm m) : mean l = mean m := by
  rw [mean, mean, h.sum_eq, h.length_eq]

variable [LinearOrder 𝕜] [IsStrictOrderedRing 𝕜]

theorem length_pos {l : List 𝕜} (h : l ≠ []) : (0 : 𝕜) < l.length :=
  Nat.cast_pos.mpr (List.length_pos_iff.mpr h)

theorem mean_map_affine {l : List 𝕜} (h : l ≠ []) (a b : 𝕜) :
    mean (l.map fun v => a * v + b) = a * mean l + b := by
  have hlen := (length_pos h).ne'
  have hsum : (l.map fun v => a * v + b).sum = a * l.sum + l.length * b := by
    rw [List.sum_map_add, List.sum_map_mul_left, List.map_id', List.map_const', List.sum_replicate,
      nsmul_eq_mul]
  rw [mean, mean, hsum, List.length_map]
  field_simp

theorem le_mean {l : List 𝕜} (h : l ≠ []) {m : 𝕜} (hm : ∀ v ∈ l, m ≤ v) : m ≤ mean l := by
  rw [mean, le_div_iff₀ (length_pos h), mul_comm, ← nsmul_eq_mul]
  exact List.card_nsmul_le_sum l m hm

theorem mean_le {l : List 𝕜} (h : l ≠ []) {m : 𝕜} (hm : ∀ v ∈ l, v ≤ m) : mean l ≤ m := by
  rw [mean, div_le_iff₀ (length_pos h), mul_comm, ← nsmul_eq_mul]
  exact List.sum_le_card_nsmul l m hm

theorem mean_mono {l m : List 𝕜} (h : List.Forall₂ (· ≤ ·) l m) : mean l ≤ mean m := by
  rw [mean, mean, h.length_eq]
  exact div_le_div_of_nonneg_right h.sum_le_sum (Nat.cast_nonneg _)

/-- The mean of a window that moves one place on stays the same exactly when the
element that leaves is the one that comes in. -/
theorem mean_slice_succ_iff {l : List 𝕜} {lo hi : Nat} (hlo : lo < hi) (hhi : hi < l.length) :
    mean (slice l (lo + 1) (hi + 1)) = mean (slice l lo hi) ↔ l[lo] = l[hi] := by
  have hlen : (slice l (lo + 1) (hi + 1)).length = (slice l lo hi).length := by
    rw [length_slice, length_slice]
    omega
  have hne : slice l lo hi ≠ [] := by
    rw [slice_eq_cons l hlo (Nat.le_of_lt hhi)]
    exact List.cons_ne_nil _ _
  -- both windows extend to the same one
  have hsum : l[lo] + (slice l (lo + 1) (hi + 1)).sum = (slice l lo hi).sum + l[hi] := by
    have hcons := slice_eq_cons l (Nat.lt_succ_of_lt hlo) hhi
    rw [slice_succ l (Nat.le_of_lt hlo) hhi] at hcons
    have h := congrArg List.sum hcons
    rw [List.sum_append, List.sum_singleton, List.sum_cons] at h
    exact h.symm
  rw [mean, mean, hlen, div_left_inj' (length_pos hne).ne']
  constructor
  · intro h
    rw [h] at hsum
    linarith
  · intro h
    rw [h] at hsum
    linarith

end Mean

/-! ## 4. Averages -/

section Average
variable {𝕜 : Type*} [Field 𝕜] [LinearOrder 𝕜]

/-- An average of numbers does not depend on their order, lies between the least and
the greatest of them, follows a change of unit and of origin, and does not fall when
one of them is raised. -/
structure IsAverage (f : List 𝕜 → 𝕜) : Prop where
  perm : ∀ {values values' : List 𝕜}, values.Perm values' → f values = f values'
  between : ∀ {values : List 𝕜}, values ≠ [] → values.minimum ≤ f values ∧ f values ≤ values.maximum
  affine : ∀ {values : List 𝕜}, values ≠ [] → ∀ a b : 𝕜, 0 < a →
    f (values.map fun v => a * v + b) = a * f values + b
  mono : ∀ {values : List 𝕜} {i : Nat} {v v' : 𝕜}, values[i]? = some v → v ≤ v' →
    f values ≤ f (values.set i v')

/-- The mean of the sorted values from one position on and before another one. -/
def windowMean (lo hi : Nat → Nat) (values : List 𝕜) : 𝕜 :=
  mean (slice (sorted values) (lo values.length) (hi values.length))

variable {lo hi : Nat → Nat} [IsStrictOrderedRing 𝕜]

theorem windowMean_map_affine (h : IsWindow lo hi) {values : List 𝕜} (hne : values ≠ []) {a b : 𝕜}
    (ha : 0 < a) :
    windowMean lo hi (values.map fun v => a * v + b) = a * windowMean lo hi values + b := by
  have hmono : Monotone fun v : 𝕜 => a * v + b := by
    intro v v' hv
    exact add_le_add_left (mul_le_mul_of_nonneg_left hv ha.le) b
  rw [windowMean, windowMean, sorted_map_of_monotone hmono, List.length_map, slice_map,
    mean_map_affine (window_ne_nil h hne)]

theorem windowMean_between (h : IsWindow lo hi) {values : List 𝕜} (hne : values ≠ []) :
    values.minimum ≤ windowMean lo hi values ∧ windowMean lo hi values ≤ values.maximum := by
  have hmem : ∀ v ∈ slice (sorted values) (lo values.length) (hi values.length), v ∈ values :=
    fun v hv => mem_sorted.mp (mem_of_mem_slice hv)
  have hlen := List.length_pos_iff.mpr hne
  rw [← List.coe_minimum_of_length_pos hlen, ← List.coe_maximum_of_length_pos hlen,
    WithTop.coe_le_coe, WithBot.coe_le_coe]
  constructor
  · apply le_mean (window_ne_nil h hne)
    exact fun v hv => List.minimum_of_length_pos_le_of_mem (hmem v hv) hlen
  · apply mean_le (window_ne_nil h hne)
    exact fun v hv => List.le_maximum_of_length_pos_of_mem (hmem v hv) hlen

/-- The mean of a window that is never empty is an average. -/
theorem isAverage_windowMean (h : IsWindow lo hi) :
    IsAverage fun values : List 𝕜 => windowMean lo hi values where
  perm hp := by rw [windowMean, windowMean, sorted_eq_of_perm hp, hp.length_eq]
  between hne := windowMean_between h hne
  affine hne a b ha := windowMean_map_affine h hne ha
  mono hv hle := by
    rw [windowMean, windowMean, List.length_set]
    exact mean_mono (forall₂_slice (forall₂_sorted (forall₂_le_set hv hle)) _ _)

/-- The values reflected at a point: the window is mirrored. -/
theorem windowMean_reflect (h : IsWindow lo hi) {values : List 𝕜} (hne : values ≠ []) (c : 𝕜) :
    windowMean lo hi (values.map fun v => c - v) =
      c - windowMean (fun n => n - hi n) (fun n => n - lo n) values := by
  have hanti : Antitone fun v : 𝕜 => c - v := fun v v' hv => sub_le_sub_left hv c
  obtain ⟨hlt, hle⟩ := h values.length (List.length_pos_iff.mpr hne)
  have haffine : (fun v : 𝕜 => c - v) = fun v => -1 * v + c := by
    funext v
    ring
  have hlen : hi values.length ≤ ((sorted values).map fun v => c - v).length := by
    rw [List.length_map, length_sorted]
    exact hle
  rw [windowMean, windowMean, sorted_map_of_antitone hanti, List.length_map,
    slice_reverse _ (Nat.le_of_lt hlt) hlen, mean_eq_of_perm (List.reverse_perm _), slice_map,
    List.length_map, length_sorted, haffine, mean_map_affine (window_ne_nil h.mirror hne)]
  ring

/-- Both tails are treated alike exactly when the mirrored window has the same
mean. -/
theorem windowMean_reflect_iff (h : IsWindow lo hi) {values : List 𝕜} (hne : values ≠ []) (c : 𝕜) :
    windowMean lo hi (values.map fun v => c - v) = c - windowMean lo hi values ↔
      windowMean lo hi values = windowMean (fun n => n - hi n) (fun n => n - lo n) values := by
  rw [windowMean_reflect h hne, sub_right_inj, eq_comm]

end Average

end OrderStat
