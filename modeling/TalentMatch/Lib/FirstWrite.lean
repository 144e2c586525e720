import Mathlib.Data.List.Nodup
import Mathlib.Logic.Function.Basic

/-!
# First-write-wins registers

A family of registers `κ → Option ν`, each of which keeps the first value that
is written to it. It is the meaning of a create-if-absent store and of a ledger
that ignores duplicates.

* `record_of_some`, `record_of_none`, `record_of_ne`: one write.
* `recordAll_of_some`: a register that is set never changes.
* `recordAll_of_mem`: writes to pairwise distinct registers all take effect.
-/

namespace FirstWrite

variable {κ ν : Type*} [DecidableEq κ]

/-- Write `v` to register `k` unless the register is set. -/
def record (m : κ → Option ν) (k : κ) (v : ν) : κ → Option ν :=
  if (m k).isSome then m else Function.update m k (some v)

/-- Write a list of values one after the other. -/
def recordAll (m : κ → Option ν) (writes : List (κ × ν)) : κ → Option ν :=
  writes.foldl (fun m w => record m w.1 w.2) m

theorem record_of_isSome {m : κ → Option ν} {k : κ} (h : (m k).isSome) (v : ν) :
    record m k v = m :=
  if_pos h

theorem record_of_none {m : κ → Option ν} {k : κ} (h : m k = none) (v : ν) :
    record m k v k = some v := by
  simp [record, h]

theorem record_of_ne (m : κ → Option ν) {k k' : κ} (h : k' ≠ k) (v : ν) :
    record m k v k' = m k' := by
  unfold record
  split
  · rfl
  · exact Function.update_of_ne h _ _

/-- A register that is set keeps its value. -/
theorem record_of_some {m : κ → Option ν} {k : κ} {w : ν} (h : m k = some w) (k' : κ) (v : ν) :
    record m k' v k = some w := by
  by_cases hk : k = k'
  · subst hk
    rw [record_of_isSome (by simp [h]), h]
  · rw [record_of_ne m hk, h]

theorem recordAll_of_some {m : κ → Option ν} {k : κ} {w : ν} (h : m k = some w)
    (writes : List (κ × ν)) : recordAll m writes k = some w := by
  induction writes generalizing m with
  | nil => exact h
  | cons p writes ih => exact ih (record_of_some h _ _)

/-- A register that is not written to keeps its value. -/
theorem recordAll_of_not_mem {m : κ → Option ν} {k : κ} {writes : List (κ × ν)}
    (h : k ∉ writes.map Prod.fst) : recordAll m writes k = m k := by
  induction writes generalizing m with
  | nil => rfl
  | cons p writes ih =>
    simp only [List.map_cons, List.mem_cons, not_or] at h
    exact (ih h.2).trans (record_of_ne m h.1 _)

/-- When no register is written twice, every write to an empty register takes
effect. -/
theorem recordAll_of_mem {m : κ → Option ν} {k : κ} {v : ν} {writes : List (κ × ν)}
    (hn : (writes.map Prod.fst).Nodup) (h : (k, v) ∈ writes) (hk : m k = none) :
    recordAll m writes k = some v := by
  induction writes generalizing m with
  | nil => cases h
  | cons p writes ih =>
    simp only [List.map_cons, List.nodup_cons] at hn
    rcases List.mem_cons.mp h with rfl | h
    · exact recordAll_of_some (record_of_none hk v) writes
    · have hne : k ≠ p.1 := by
        rintro rfl
        exact hn.1 (List.mem_map.mpr ⟨_, h, rfl⟩)
      exact ih hn.2 h ((record_of_ne m hne _).trans hk)

end FirstWrite
