import Mathlib.Data.List.GetD
import TalentMatch.Lib.OrderStat

/-!
# The aggregation methods

`_aggregate_values` of `runtime/aggregation/shared.py` over exact rational numbers,
where `int(n * 0.1)` is the whole part of `n / 10`.

Results:
1. `aggregateValues_eq_windowMean`: every method takes the mean of a window of the
   sorted values.
2. `aggregateValues_isAverage`: every method is an average, and no window is empty.
3. `aggregateValues_reflect_iff`: a method treats both tails alike, except the
   interquartile mean of a number of values that four divides: its window reaches
   one place further up than down.
-/

namespace TalentMatch

open OrderStat

/-! ## 1. The methods -/

/-- `statistics.median`. -/
def median (values : List ℚ) : ℚ :=
  let data := sorted values
  let n := data.length
  if n % 2 = 1 then data.getD (n / 2) 0 else (data.getD (n / 2 - 1) 0 + data.getD (n / 2) 0) / 2

/-- `trim_count`. -/
def trimCount (n : Nat) : Nat := if 2 < n then max 1 (n / 10) else 0

/-- `trimmed`. -/
def trimmed (values : List ℚ) : List ℚ :=
  let sortedValues := sorted values
  let trim := trimCount sortedValues.length
  if trim ≠ 0 then slice sortedValues trim (sortedValues.length - trim) else sortedValues

/-- `middle`. -/
def middle (values : List ℚ) : List ℚ :=
  let sortedValues := sorted values
  let q1Index := sortedValues.length / 4
  let q3Index := 3 * sortedValues.length / 4
  slice sortedValues q1Index (q3Index + 1)

/-- `l or values`. -/
def orValues (l values : List ℚ) : List ℚ := if l.isEmpty then values else l

/-- `_aggregate_values`. -/
def aggregateValues (values : List ℚ) (method : String) : ℚ :=
  if values.isEmpty then 0
  else if method = "mean" then mean values
  else if method = "trimmed_mean" then mean (orValues (trimmed values) values)
  else if method = "interquartile_mean" then
    if values.length < 4 then mean values else mean (orValues (middle values) values)
  else median values

/-! ## 2. The window of a method -/

/-- Where the window of a method begins, in `n` sorted values. -/
def windowStart (method : String) (n : Nat) : Nat :=
  if method = "mean" then 0
  else if method = "trimmed_mean" then trimCount n
  else if method = "interquartile_mean" then if n < 4 then 0 else n / 4
  else (n - 1) / 2

/-- The place after its end. -/
def windowEnd (method : String) (n : Nat) : Nat :=
  if method = "mean" then n
  else if method = "trimmed_mean" then n - trimCount n
  else if method = "interquartile_mean" then if n < 4 then n else 3 * n / 4 + 1
  else n / 2 + 1

namespace AggregateValuesLemmas

theorem two_mul_trimCount_lt {n : Nat} (h : 0 < n) : 2 * trimCount n < n := by
  unfold trimCount
  split <;> omega

theorem isWindow (method : String) : IsWindow (windowStart method) (windowEnd method) := by
  intro n hn
  have htrim := two_mul_trimCount_lt hn
  unfold windowStart windowEnd
  repeat' split
  all_goals omega

theorem mean_eq_windowMean (values : List ℚ) :
    mean values = mean (slice (sorted values) 0 values.length) := by
  have hslice := slice_zero_length (sorted values)
  rw [length_sorted] at hslice
  rw [hslice, mean_eq_of_perm (perm_sorted values)]

theorem trimmed_eq_slice (values : List ℚ) :
    trimmed values = slice (sorted values) (trimCount values.length)
      (values.length - trimCount values.length) := by
  simp only [trimmed, length_sorted]
  split
  · rfl
  · next h =>
    have h0 : trimCount values.length = 0 := of_not_not h
    have hslice := slice_zero_length (sorted values)
    rw [length_sorted] at hslice
    rw [h0, Nat.sub_zero, hslice]

theorem trimmed_ne_nil {values : List ℚ} (h : values ≠ []) : trimmed values ≠ [] := by
  have hlt := two_mul_trimCount_lt (List.length_pos_iff.mpr h)
  apply List.ne_nil_of_length_pos
  rw [trimmed_eq_slice, length_slice, length_sorted]
  omega

theorem middle_eq_slice (values : List ℚ) :
    middle values = slice (sorted values) (values.length / 4) (3 * values.length / 4 + 1) := by
  simp only [middle, length_sorted]

theorem middle_ne_nil {values : List ℚ} (h : 4 ≤ values.length) : middle values ≠ [] := by
  apply List.ne_nil_of_length_pos
  rw [middle_eq_slice, length_slice, length_sorted]
  omega

theorem orValues_of_ne_nil {l : List ℚ} (h : l ≠ []) (values : List ℚ) : orValues l values = l := by
  cases l with
  | nil => exact absurd rfl h
  | cons v l => rfl

/-- The median is the mean of the one or two values in the middle. -/
theorem median_eq_windowMean {values : List ℚ} (h : values ≠ []) :
    median values =
      mean (slice (sorted values) ((values.length - 1) / 2) (values.length / 2 + 1)) := by
  have hpos := List.length_pos_iff.mpr h
  have hlen := length_sorted values
  have hmid : values.length / 2 < (sorted values).length := by omega
  unfold median
  simp only [hlen]
  rw [slice_succ _ (by omega) hmid]
  split
  · next hodd =>
    have hstart : (values.length - 1) / 2 = values.length / 2 := by omega
    have hempty : slice (sorted values) (values.length / 2) (values.length / 2) = [] := by
      apply List.eq_nil_of_length_eq_zero
      rw [length_slice]
      omega
    rw [hstart, hempty, List.getD_eq_getElem _ _ hmid]
    simp [mean]
  · next heven =>
    have hstart : (values.length - 1) / 2 = values.length / 2 - 1 := by omega
    have hlow : values.length / 2 - 1 < (sorted values).length := by omega
    have hempty : slice (sorted values) (values.length / 2 - 1 + 1) (values.length / 2) = [] := by
      apply List.eq_nil_of_length_eq_zero
      rw [length_slice]
      omega
    rw [hstart, slice_eq_cons _ (by omega) (Nat.le_of_lt hmid), hempty,
      List.getD_eq_getElem _ _ hlow, List.getD_eq_getElem _ _ hmid]
    simp [mean]

end AggregateValuesLemmas

open AggregateValuesLemmas

/-- Every method takes the mean of its window of the sorted values. -/
theorem aggregateValues_eq_windowMean (values : List ℚ) (method : String) :
    aggregateValues values method = windowMean (windowStart method) (windowEnd method) values := by
  unfold aggregateValues windowMean windowStart windowEnd
  cases hempty : values.isEmpty with
  | true =>
    rw [List.isEmpty_iff.mp hempty]
    simp [sorted, slice, mean]
  | false =>
    have hne : values ≠ [] := by
      rintro rfl
      cases hempty
    simp only [Bool.false_eq_true, if_false]
    split
    · exact mean_eq_windowMean values
    split
    · rw [orValues_of_ne_nil (trimmed_ne_nil hne), trimmed_eq_slice]
    split
    · split
      · exact mean_eq_windowMean values
      · next hlen =>
        rw [orValues_of_ne_nil (middle_ne_nil (Nat.le_of_not_lt hlen)), middle_eq_slice]
    · exact median_eq_windowMean hne

/-! ## 3. Averages -/

/-- Every method is an average, and the slices it takes the mean of have
elements. -/
theorem aggregateValues_isAverage (method : String) :
    IsAverage (fun values => aggregateValues values method) ∧
      ∀ values : List ℚ, values ≠ [] →
        trimmed values ≠ [] ∧ (4 ≤ values.length → middle values ≠ []) := by
  constructor
  · have heq : (fun values => aggregateValues values method) =
        fun values => windowMean (windowStart method) (windowEnd method) values :=
      funext fun values => aggregateValues_eq_windowMean values method
    rw [heq]
    exact isAverage_windowMean (isWindow method)
  · intro values hne
    exact ⟨trimmed_ne_nil hne, middle_ne_nil⟩

/-! ## 4. Both tails -/

/-- A window that is its own mirror image, unless it is the interquartile one of a
number of values that four divides. -/
theorem mirror_window {method : String} {n : Nat} (hn : 0 < n)
    (h : ¬ (method = "interquartile_mean" ∧ 4 ∣ n)) :
    n - windowEnd method n = windowStart method n ∧
      n - windowStart method n = windowEnd method n := by
  have htrim := two_mul_trimCount_lt hn
  unfold windowStart windowEnd
  split
  · omega
  split
  · omega
  split
  · next hm =>
    have hdvd : ¬ 4 ∣ n := fun hd => h ⟨hm, hd⟩
    split <;> omega
  · omega

/-- A method treats both tails alike. The interquartile mean of `4 * k` values does
exactly when the greatest value below its window equals the greatest one in it. -/
theorem aggregateValues_reflect_iff {values : List ℚ} (hne : values ≠ []) (method : String) (c : ℚ) :
    aggregateValues (values.map fun v => c - v) method = c - aggregateValues values method ↔
      (method = "interquartile_mean" → 4 ∣ values.length →
        (sorted values)[values.length / 4 - 1]? = (sorted values)[3 * values.length / 4]?) := by
  have hpos := List.length_pos_iff.mpr hne
  rw [aggregateValues_eq_windowMean, aggregateValues_eq_windowMean,
    windowMean_reflect_iff (isWindow method) hne]
  by_cases h : method = "interquartile_mean" ∧ 4 ∣ values.length
  · obtain ⟨rfl, k, hk⟩ := h
    have hlen := length_sorted values
    have hstart : windowStart "interquartile_mean" values.length = k - 1 + 1 := by
      have h4 : ¬ values.length < 4 := by omega
      simp [windowStart, h4]
      omega
    have hend : windowEnd "interquartile_mean" values.length = 3 * k + 1 := by
      have h4 : ¬ values.length < 4 := by omega
      simp [windowEnd, h4]
      omega
    have hlow : values.length / 4 - 1 = k - 1 := by omega
    have hhigh : 3 * values.length / 4 = 3 * k := by omega
    have hmlo : values.length - (3 * k + 1) = k - 1 := by omega
    have hmhi : values.length - (k - 1 + 1) = 3 * k := by omega
    have hlt : 3 * k < (sorted values).length := by omega
    rw [windowMean, windowMean, hstart, hend, hmlo, hmhi,
      mean_slice_succ_iff (by omega) hlt, hlow, hhigh,
      List.getElem?_eq_getElem (by omega), List.getElem?_eq_getElem hlt]
    simp [hk]
  · obtain ⟨hlo, hhi⟩ := mirror_window hpos h
    have heq : windowMean (windowStart method) (windowEnd method) values =
        windowMean (fun n => n - windowEnd method n) (fun n => n - windowStart method n) values := by
      rw [windowMean, windowMean, hlo, hhi]
    constructor
    · intro _ hm hd
      exact absurd ⟨hm, hd⟩ h
    · exact fun _ => heq

/-- Of four values only the lowest one is left out, so reflecting them moves the mean
by something else. -/
theorem interquartile_mean_not_symmetric :
    ¬ ∀ (values : List ℚ) (c : ℚ) (method : String), values ≠ [] →
        method ∈ ["median", "mean", "trimmed_mean", "interquartile_mean"] →
        aggregateValues (values.map fun v => c - v) method = c - aggregateValues values method := by
  intro h
  have heq := h [1, 2, 3, 4] 5 "interquartile_mean" (by decide) (by decide)
  have hne : aggregateValues ([1, 2, 3, 4].map fun v => 5 - v) "interquartile_mean" ≠
      5 - aggregateValues [1, 2, 3, 4] "interquartile_mean" := by decide +kernel
  exact hne heq

/-- Five values: one is left out at each end. -/
theorem aggregateValues_reflect_sample :
    aggregateValues ([1, 2, 3, 4, 10].map fun v => 5 - v) "interquartile_mean" =
      5 - aggregateValues [1, 2, 3, 4, 10] "interquartile_mean" :=
  (aggregateValues_reflect_iff (List.cons_ne_nil 1 [2, 3, 4, 10]) "interquartile_mean" 5).mpr
    fun _ hdvd => absurd hdvd (by decide)

end TalentMatch
