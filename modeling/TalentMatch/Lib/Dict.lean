import Mathlib.Data.List.Forall2
import Mathlib.Data.List.Induction
import Mathlib.Data.List.Nodup

/-!
# Python dictionaries

A `dict` is a list of key and value pairs in insertion order. `set` overwrites
the value of a key that is present in place and appends a new key at the end,
so a dictionary built from the empty one by `set` has distinct keys.

* `get?_set_of_ne`: what a lookup of another key sees after an assignment.
* `mem_set`: the entries after an assignment.
* `ofPairs_of_nodup`: a dictionary filled from pairs with distinct keys holds
  these pairs.
* `get?_ofPairs`, `get?_ofPairs_eq_getLast?`: without that condition it holds the last of the
  values of each key.
* `nodup_keys_ofPairs`, `mem_of_mem_ofPairs`: its keys are distinct and its entries
  are some of the pairs.
* `mem_group`, `exists_mem_group`: the lists that `append` collects under each key.
* `get?_remove`: what a lookup sees after some keys were removed.
* `get?_related`: lookups in two dictionaries that differ in their values only.
* `get?_of_mem`, `mem_of_get?`, `get?_eq_some_iff`: what a lookup finds are the entries.
-/

namespace Dict

variable {κ ν : Type*}

/-- The keys, in insertion order. -/
def keys (d : List (κ × ν)) : List κ := d.map Prod.fst

/-- Two dictionaries with the same keys in the same order and related values. -/
def Related (R : κ → ν → ν → Prop) (d d' : List (κ × ν)) : Prop :=
  List.Forall₂ (fun p p' => p.1 = p'.1 ∧ R p.1 p.2 p'.2) d d'

variable [DecidableEq κ]

/-- `d.get(k)`. -/
def get? : List (κ × ν) → κ → Option ν
  | [], _ => none
  | (k', v) :: d, k => if k' = k then some v else get? d k

/-- `d[k] = v`. -/
def set : List (κ × ν) → κ → ν → List (κ × ν)
  | [], k, v => [(k, v)]
  | (k', v') :: d, k, v => if k' = k then (k', v) :: d else (k', v') :: set d k v

/-- The dictionary that a loop of assignments builds from the empty one. -/
def ofPairs (pairs : List (κ × ν)) : List (κ × ν) :=
  pairs.foldl (fun d p => set d p.1 p.2) []

/-- `d[k].append(v)` on a `defaultdict(list)`. -/
def append (d : List (κ × List ν)) (k : κ) (v : ν) : List (κ × List ν) :=
  set d k ((get? d k).getD [] ++ [v])

/-- The lists that a loop of such calls builds from the empty dictionary. -/
def group (pairs : List (κ × ν)) : List (κ × List ν) :=
  pairs.foldl (fun d p => append d p.1 p.2) []

/-- The dictionary without the entries of some keys. -/
def remove (keys : List κ) (d : List (κ × ν)) : List (κ × ν) := d.filter fun p => p.1 ∉ keys

theorem get?_remove (keys : List κ) (d : List (κ × ν)) (k : κ) :
    get? (remove keys d) k = if k ∈ keys then none else get? d k := by
  induction d with
  | nil => simp [remove, get?]
  | cons p d ih =>
    obtain ⟨j, w⟩ := p
    by_cases hj : j ∈ keys
    · rw [remove, List.filter_cons_of_neg (by simpa using hj), ← remove, ih, get?]
      split
      · rfl
      · next hk =>
        have hne : j ≠ k := by
          rintro rfl
          exact hk hj
        rw [if_neg hne]
    · rw [remove, List.filter_cons_of_pos (by simpa using hj), ← remove, get?, get?, ih]
      by_cases hk : j = k
      · rw [if_pos hk, if_pos hk, if_neg (hk ▸ hj)]
      · rw [if_neg hk, if_neg hk]

theorem get?_set_of_ne (d : List (κ × ν)) {k k' : κ} (v : ν) (h : k' ≠ k) :
    get? (set d k v) k' = get? d k' := by
  induction d with
  | nil => simp [set, get?, Ne.symm h]
  | cons p d ih =>
    obtain ⟨j, w⟩ := p
    by_cases hj : j = k
    · subst hj
      simp [set, get?, Ne.symm h]
    · rw [set, if_neg hj, get?, get?, ih]

@[simp] theorem get?_set_self (d : List (κ × ν)) (k : κ) (v : ν) : get? (set d k v) k = some v := by
  induction d with
  | nil => simp [set, get?]
  | cons p d ih =>
    obtain ⟨j, w⟩ := p
    by_cases hj : j = k
    · simp [set, get?, hj]
    · rw [set, if_neg hj, get?, if_neg hj, ih]

/-- The entries after an assignment. -/
theorem mem_set {d : List (κ × ν)} {k j : κ} {v w : ν} (h : (j, w) ∈ set d k v) :
    (j, w) ∈ d ∨ j = k ∧ w = v := by
  induction d with
  | nil => exact .inr (by simpa [set] using h)
  | cons p d ih =>
    obtain ⟨i, u⟩ := p
    rw [set] at h
    split at h
    · next hk =>
      rcases List.mem_cons.mp h with heq | h
      · cases heq
        exact .inr ⟨hk, rfl⟩
      · exact .inl (List.mem_cons_of_mem _ h)
    · rcases List.mem_cons.mp h with heq | h
      · exact .inl (heq ▸ List.mem_cons_self)
      · exact (ih h).imp_left (List.mem_cons_of_mem _)

/-- A new key goes to the end. -/
theorem set_of_not_mem {d : List (κ × ν)} {k : κ} (h : k ∉ keys d) (v : ν) :
    set d k v = d ++ [(k, v)] := by
  induction d with
  | nil => rfl
  | cons p d ih =>
    obtain ⟨j, w⟩ := p
    simp only [keys, List.map_cons, List.mem_cons, not_or] at h
    have hj : j ≠ k := fun heq => h.1 heq.symm
    rw [set, if_neg hj, ih h.2]
    rfl

/-- Distinct new keys are appended one after the other. -/
theorem foldl_set_of_nodup {d pairs : List (κ × ν)} (h : (keys d ++ keys pairs).Nodup) :
    pairs.foldl (fun d p => set d p.1 p.2) d = d ++ pairs := by
  induction pairs generalizing d with
  | nil => exact (List.append_nil d).symm
  | cons p pairs ih =>
    obtain ⟨k, v⟩ := p
    have hk : k ∉ keys d := fun hk => (List.nodup_append.mp h).2.2 k hk k (by simp [keys]) rfl
    have hrest : (keys (d ++ [(k, v)]) ++ keys pairs).Nodup := by simpa [keys] using h
    rw [List.foldl_cons, set_of_not_mem hk, ih hrest, List.append_assoc]
    rfl

theorem ofPairs_of_nodup {pairs : List (κ × ν)} (h : (keys pairs).Nodup) :
    ofPairs pairs = pairs := by
  have hnew : (keys ([] : List (κ × ν)) ++ keys pairs).Nodup := h
  exact foldl_set_of_nodup hnew

theorem get?_of_mem {d : List (κ × ν)} (hd : (keys d).Nodup) {k : κ} {v : ν} (h : (k, v) ∈ d) :
    get? d k = some v := by
  induction d with
  | nil => cases h
  | cons p d ih =>
    obtain ⟨j, w⟩ := p
    simp only [keys, List.map_cons, List.nodup_cons] at hd
    rcases List.mem_cons.mp h with heq | hmem
    · cases heq
      simp [get?]
    · have hj : j ≠ k := by
        rintro rfl
        exact hd.1 (List.mem_map.mpr ⟨(j, v), hmem, rfl⟩)
      simpa [get?, hj] using ih hd.2 hmem

theorem mem_of_get? {d : List (κ × ν)} {k : κ} {v : ν} (h : get? d k = some v) : (k, v) ∈ d := by
  induction d with
  | nil => cases h
  | cons p d ih =>
    obtain ⟨j, w⟩ := p
    simp only [get?] at h
    split at h
    · next hj =>
      cases h
      simp [hj]
    · exact List.mem_cons_of_mem _ (ih h)

/-- A lookup in a dictionary, whose keys are distinct, finds its entries. -/
theorem get?_eq_some_iff {d : List (κ × ν)} (hd : (keys d).Nodup) {k : κ} {v : ν} :
    get? d k = some v ↔ (k, v) ∈ d :=
  ⟨mem_of_get?, get?_of_mem hd⟩

/-- Related dictionaries have the same keys, and related values under each. -/
theorem get?_related {R : κ → ν → ν → Prop} {d d' : List (κ × ν)} (h : Related R d d') (k : κ) :
    (get? d k = none ∧ get? d' k = none) ∨
      ∃ v v', get? d k = some v ∧ get? d' k = some v' ∧ R k v v' := by
  induction h with
  | nil => exact .inl ⟨rfl, rfl⟩
  | @cons p p' d d' hp _ ih =>
    obtain ⟨j, v⟩ := p
    obtain ⟨j', v'⟩ := p'
    obtain ⟨hj, hR⟩ := hp
    have hj : j = j' := hj
    subst hj
    simp only [get?]
    split
    · next hk =>
      subst hk
      exact .inr ⟨v, v', rfl, rfl, hR⟩
    · exact ih

/-- Assignments to other keys leave a value alone. -/
theorem get?_foldl_set_of_not_mem {d pairs : List (κ × ν)} {k : κ} (h : k ∉ keys pairs) :
    get? (pairs.foldl (fun d p => set d p.1 p.2) d) k = get? d k := by
  induction pairs generalizing d with
  | nil => rfl
  | cons p pairs ih =>
    simp only [keys, List.map_cons, List.mem_cons, not_or] at h
    rw [List.foldl_cons, ih h.2, get?_set_of_ne _ _ h.1]

/-- A key that was assigned has one of the values assigned to it. -/
theorem get?_ofPairs {pairs : List (κ × ν)} {k : κ} (h : k ∈ keys pairs) :
    ∃ v, get? (ofPairs pairs) k = some v ∧ (k, v) ∈ pairs := by
  have hfold : ∀ d : List (κ × ν), ∃ v,
      get? (pairs.foldl (fun d p => set d p.1 p.2) d) k = some v ∧ (k, v) ∈ pairs := by
    induction pairs with
    | nil => cases h
    | cons p pairs ih =>
      intro d
      rw [List.foldl_cons]
      by_cases hrest : k ∈ keys pairs
      · obtain ⟨v, hv, hmem⟩ := ih hrest (set d p.1 p.2)
        exact ⟨v, hv, List.mem_cons_of_mem _ hmem⟩
      · have hk : k = p.1 := (List.mem_cons.mp h).resolve_right hrest
        refine ⟨p.2, ?_, by rw [hk]; exact List.mem_cons_self⟩
        rw [get?_foldl_set_of_not_mem hrest, hk, get?_set_self]
  exact hfold []

/-- Of the assignments to a key the last one counts. -/
theorem get?_ofPairs_eq_getLast? (pairs : List (κ × ν)) (k : κ) :
    get? (ofPairs pairs) k =
      (pairs.filterMap fun p => if p.1 = k then some p.2 else none).getLast? := by
  induction pairs using List.reverseRecOn with
  | nil => rfl
  | append_singleton pairs p ih =>
    have hset : ofPairs (pairs ++ [p]) = set (ofPairs pairs) p.1 p.2 := by simp [ofPairs]
    rw [hset, List.filterMap_append]
    by_cases hk : p.1 = k
    · rw [← hk, get?_set_self]
      simp
    · rw [get?_set_of_ne _ _ (Ne.symm hk), ih]
      simp [hk]

/-- Assignments keep the keys distinct. -/
theorem nodup_keys_set {d : List (κ × ν)} (h : (keys d).Nodup) (k : κ) (v : ν) :
    (keys (set d k v)).Nodup := by
  induction d with
  | nil => simp [set, keys]
  | cons p d ih =>
    obtain ⟨j, w⟩ := p
    simp only [keys, List.map_cons, List.nodup_cons] at h
    by_cases hj : j = k
    · rw [set, if_pos hj]
      exact List.nodup_cons.mpr h
    · rw [set, if_neg hj]
      refine List.nodup_cons.mpr ⟨fun hmem => ?_, ih h.2⟩
      obtain ⟨⟨j', w'⟩, hp, rfl⟩ := List.mem_map.mp hmem
      have hget := get?_of_mem (ih h.2) hp
      rw [get?_set_of_ne d v hj] at hget
      exact h.1 (List.mem_map_of_mem (mem_of_get? hget))

theorem nodup_keys_ofPairs (pairs : List (κ × ν)) : (keys (ofPairs pairs)).Nodup := by
  have hfold : ∀ d : List (κ × ν), (keys d).Nodup →
      (keys (pairs.foldl (fun d p => set d p.1 p.2) d)).Nodup := by
    induction pairs with
    | nil => exact fun _ hd => hd
    | cons p pairs ih => exact fun d hd => ih _ (nodup_keys_set hd _ _)
  exact hfold [] List.nodup_nil

/-- A dictionary filled from pairs holds none but these pairs. -/
theorem mem_of_mem_ofPairs {pairs : List (κ × ν)} {p : κ × ν} (h : p ∈ ofPairs pairs) :
    p ∈ pairs := by
  have hfold : ∀ d : List (κ × ν), p ∈ pairs.foldl (fun d p => set d p.1 p.2) d →
      p ∈ d ∨ p ∈ pairs := by
    clear h
    induction pairs with
    | nil => exact fun _ hp => .inl hp
    | cons q pairs ih =>
      intro d hp
      rcases ih _ hp with hp | hp
      · rcases mem_set hp with hp | ⟨hk, hv⟩
        · exact .inl hp
        · exact .inr (by rw [show p = q from Prod.ext hk hv]; exact List.mem_cons_self)
      · exact .inr (List.mem_cons_of_mem q hp)
  exact (hfold [] h).resolve_left List.not_mem_nil

theorem nodup_keys_group (pairs : List (κ × ν)) : (keys (group pairs)).Nodup := by
  have hfold : ∀ d : List (κ × List ν), (keys d).Nodup →
      (keys (pairs.foldl (fun d p => append d p.1 p.2) d)).Nodup := by
    induction pairs with
    | nil => exact fun _ hd => hd
    | cons p pairs ih => exact fun d hd => ih _ (nodup_keys_set hd _ _)
  exact hfold [] List.nodup_nil

/-- A grouped list holds the values of its key, in their order. -/
theorem get?_group (pairs : List (κ × ν)) (k : κ) :
    (get? (group pairs) k).getD [] = (pairs.filter fun p => p.1 = k).map Prod.snd := by
  have hfold : ∀ d : List (κ × List ν),
      (get? (pairs.foldl (fun d p => append d p.1 p.2) d) k).getD [] =
        (get? d k).getD [] ++ (pairs.filter fun p => p.1 = k).map Prod.snd := by
    induction pairs with
    | nil => exact fun d => (List.append_nil _).symm
    | cons p pairs ih =>
      intro d
      rw [List.foldl_cons, ih]
      by_cases hk : p.1 = k
      · rw [append, hk, get?_set_self, List.filter_cons_of_pos (by simpa using hk)]
        simp
      · rw [append, get?_set_of_ne _ _ (Ne.symm hk), List.filter_cons_of_neg (by simpa using hk)]
  exact hfold []

/-- No grouped list is empty. -/
theorem get?_group_ne_nil (pairs : List (κ × ν)) (k : κ) : get? (group pairs) k ≠ some [] := by
  have hfold : ∀ d : List (κ × List ν), get? d k ≠ some [] →
      get? (pairs.foldl (fun d p => append d p.1 p.2) d) k ≠ some [] := by
    induction pairs with
    | nil => exact fun _ hd => hd
    | cons p pairs ih =>
      intro d hd
      refine ih _ ?_
      show get? (append d p.1 p.2) k ≠ some []
      by_cases hk : p.1 = k
      · rw [append, hk, get?_set_self]
        simp
      · rw [append, get?_set_of_ne _ _ (Ne.symm hk)]
        exact hd
  exact hfold [] (by simp [get?])

/-- The entries of a grouping are the lists of values of each key, in their order. -/
theorem mem_group {pairs : List (κ × ν)} {k : κ} {vs : List ν} (h : (k, vs) ∈ group pairs) :
    vs = (pairs.filter fun p => p.1 = k).map Prod.snd ∧ vs ≠ [] := by
  have hget := get?_of_mem (nodup_keys_group pairs) h
  refine ⟨?_, fun hnil => get?_group_ne_nil pairs k (by rw [hget, hnil])⟩
  rw [← get?_group pairs k, hget, Option.getD_some]

/-- Every pair has a group. -/
theorem exists_mem_group {pairs : List (κ × ν)} {k : κ} {v : ν} (h : (k, v) ∈ pairs) :
    ∃ vs, (k, vs) ∈ group pairs := by
  have hmem : v ∈ (get? (group pairs) k).getD [] := by
    rw [get?_group]
    exact List.mem_map.mpr ⟨(k, v), List.mem_filter.mpr ⟨h, by simp⟩, rfl⟩
  cases hget : get? (group pairs) k with
  | none =>
    rw [hget] at hmem
    cases hmem
  | some vs => exact ⟨vs, mem_of_get? hget⟩

end Dict
