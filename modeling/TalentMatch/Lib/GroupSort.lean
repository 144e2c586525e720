import Mathlib.Data.List.Sort
import Mathlib.Data.List.Nodup

/-!
# Grouping and sorting

`groupSorted key idx k l` is the group of `k` in `l`, sorted stably by `idx`.
When no two elements share key and index, the order of `l` is forgotten and no
element is lost:

* `groupSorted_perm`: permuted lists have the same groups.
* `pairwise_groupSorted`: a group is strictly increasing.
* `flatMap_groupSorted_perm`: the groups of all keys are the list again.
-/

namespace GroupSort

variable {α κ ι : Type*} [DecidableEq κ] [LinearOrder ι]

/-- The elements with key `k`, in the order of their indices. -/
def groupSorted (key : α → κ) (idx : α → ι) (k : κ) (l : List α) : List α :=
  (l.filter fun a => key a = k).insertionSort fun a b => idx a ≤ idx b

variable {key : α → κ} {idx : α → ι} {k : κ} {l l' : List α}

theorem mem_groupSorted {a : α} : a ∈ groupSorted key idx k l ↔ a ∈ l ∧ key a = k := by
  simp [groupSorted, List.mem_insertionSort]

theorem groupSorted_perm_filter : (groupSorted key idx k l).Perm (l.filter fun a => key a = k) :=
  List.perm_insertionSort _ _

theorem pairwise_le_groupSorted :
    (groupSorted key idx k l).Pairwise fun a b => idx a ≤ idx b := by
  have htotal : Std.Total fun a b : α => idx a ≤ idx b := ⟨fun a b => le_total (idx a) (idx b)⟩
  have htrans : IsTrans α fun a b : α => idx a ≤ idx b := ⟨fun _ _ _ => le_trans⟩
  exact List.pairwise_insertionSort _ _

/-- No two elements of the list have the same key and the same index. -/
def KeyIndexDistinct (key : α → κ) (idx : α → ι) (l : List α) : Prop :=
  (l.map fun a => (key a, idx a)).Nodup

omit [DecidableEq κ] [LinearOrder ι] in
theorem KeyIndexDistinct.eq (h : KeyIndexDistinct key idx l) {a b : α} (ha : a ∈ l) (hb : b ∈ l)
    (hk : key a = key b) (hi : idx a = idx b) : a = b :=
  List.inj_on_of_nodup_map h ha hb (Prod.ext hk hi)

theorem nodup_groupSorted (h : KeyIndexDistinct key idx l) : (groupSorted key idx k l).Nodup :=
  groupSorted_perm_filter.nodup_iff.mpr ((List.Nodup.of_map _ h).filter _)

/-- A group is strictly increasing. -/
theorem pairwise_groupSorted (h : KeyIndexDistinct key idx l) :
    (groupSorted key idx k l).Pairwise fun a b => idx a < idx b := by
  refine ((nodup_groupSorted h).and pairwise_le_groupSorted).imp_of_mem ?_
  intro a b ha hb hab
  obtain ⟨hma, hka⟩ := mem_groupSorted.mp ha
  obtain ⟨hmb, hkb⟩ := mem_groupSorted.mp hb
  refine lt_of_le_of_ne hab.2 fun heq => hab.1 ?_
  exact h.eq hma hmb (hka.trans hkb.symm) heq

/-- The groups do not depend on the order of the list. -/
theorem groupSorted_perm (h : KeyIndexDistinct key idx l) (hp : l.Perm l') :
    groupSorted key idx k l = groupSorted key idx k l' := by
  refine List.Perm.eq_of_pairwise ?_ pairwise_le_groupSorted pairwise_le_groupSorted ?_
  · intro a b ha hb hab hba
    obtain ⟨hma, hka⟩ := mem_groupSorted.mp ha
    obtain ⟨hmb, hkb⟩ := mem_groupSorted.mp hb
    exact h.eq hma (hp.mem_iff.mpr hmb) (hka.trans hkb.symm) (le_antisymm hab hba)
  · exact groupSorted_perm_filter.trans ((hp.filter _).trans groupSorted_perm_filter.symm)

/-- Every element is in the group of its key, once. -/
theorem flatMap_groupSorted_perm (hl : KeyIndexDistinct key idx l) {keys : List κ}
    (hk : keys.Nodup) (h : ∀ a ∈ l, key a ∈ keys) :
    (keys.flatMap fun k => groupSorted key idx k l).Perm l := by
  have hn : (keys.flatMap fun k => groupSorted key idx k l).Nodup := by
    refine List.nodup_flatMap.mpr ⟨fun _ _ => nodup_groupSorted hl, hk.imp ?_⟩
    intro k k' hne a ha ha'
    exact hne ((mem_groupSorted.mp ha).2.symm.trans (mem_groupSorted.mp ha').2)
  refine (List.perm_ext_iff_of_nodup hn (List.Nodup.of_map _ hl)).mpr fun a => ?_
  rw [List.mem_flatMap]
  constructor
  · rintro ⟨k, -, ha⟩
    exact (mem_groupSorted.mp ha).1
  · intro ha
    exact ⟨key a, h a ha, mem_groupSorted.mpr ⟨ha, rfl⟩⟩

end GroupSort
