import Mathlib.Data.List.Basic
import Mathlib.Data.List.Forall2
import Mathlib.Data.List.Nodup

/-!
# Finding and overwriting one element of a list

* `findFirst f l`: the first element of `l` on which `f` succeeds, with its
  position and what `f` returned. `findFirst_eq_some` and `findFirst_eq_none`
  say when it finds an element, `findFirst_set` what it finds after an update.
* `forall₂_set`: overwriting one place of a list related to another one.
* `mem_set_self`, `mem_set_of_ne`, `getElem?_of_not_mem_eraseIdx`: the elements of a list
  after one place was overwritten or removed.
* `map_set_eq`: overwriting one place of a mapped list is mapping a function
  that differs from the first one there only.
* `countP_update`: a predicate that becomes true of one element counts one more.
* `mapM_eq_some_map`: a traversal that never fails is a map.
* `mapM_map_some`: a traversal whose results are mapped.
* `mapM_returns_iff`, `exists_of_mapM_error`: when a traversal returns, where it raises.
* `SameOutcome`: two computations that raise the same or return related values, with
  `SameOutcome.bind`, `SameOutcome.map` and `sameOutcome_mapM`.
* `isSome_of_length_filterMap`: two partial functions that succeed equally often.
* `forM_ok_or_error`: what a check of every element raises.
* `countP_mem_comm`: two lists without repetition have as many elements of the
  second in the first as elements of the first in the second.
-/

namespace Search

variable {α β γ : Type*}

/-- The first element on which `f` succeeds: its position, the element and the
value of `f`. -/
def findFirst (f : α → Option β) : List α → Option (Nat × α × β)
  | [] => none
  | a :: l =>
    match f a with
    | some b => some (0, a, b)
    | none => (findFirst f l).map fun r => (r.1 + 1, r.2.1, r.2.2)

theorem findFirst_eq_none {f : α → Option β} {l : List α} (h : ∀ a ∈ l, f a = none) :
    findFirst f l = none := by
  induction l with
  | nil => rfl
  | cons a l ih =>
    simp [findFirst, h a (by simp), ih fun c hc => h c (by simp [hc])]

/-- `findFirst` stops at position `i` when `f` fails before `i` and succeeds
there. -/
theorem findFirst_eq_some {f : α → Option β} {l : List α} {i : Nat} {a : α} {b : β}
    (hi : l[i]? = some a) (hf : f a = some b)
    (hbefore : ∀ j c, j < i → l[j]? = some c → f c = none) : findFirst f l = some (i, a, b) := by
  induction l generalizing i with
  | nil => simp at hi
  | cons c l ih =>
    cases i with
    | zero =>
      simp only [List.getElem?_cons_zero, Option.some.injEq] at hi
      simp [findFirst, hi, hf]
    | succ i =>
      have hc : f c = none := hbefore 0 c (by simp) (by simp)
      have hl := ih (i := i) (by simpa using hi)
        (fun j d hj hd => hbefore (j + 1) d (by simpa using hj) (by simpa using hd))
      simp [findFirst, hc, hl]

/-- What `findFirst` returns is at the position it returns, and `f` fails before
that position. -/
theorem findFirst_spec {f : α → Option β} {l : List α} {i : Nat} {a : α} {b : β}
    (h : findFirst f l = some (i, a, b)) :
    l[i]? = some a ∧ f a = some b ∧ ∀ j c, j < i → l[j]? = some c → f c = none := by
  induction l generalizing i with
  | nil => cases h
  | cons c l ih =>
    simp only [findFirst] at h
    split at h
    · next hb =>
      cases h
      exact ⟨rfl, hb, fun j _ hj => absurd hj (Nat.not_lt_zero j)⟩
    · next hc =>
      obtain ⟨⟨i', a', b'⟩, hr, he⟩ := Option.map_eq_some_iff.mp h
      simp only [Prod.mk.injEq] at he
      obtain ⟨rfl, rfl, rfl⟩ := he
      obtain ⟨hi, hf, hbefore⟩ := ih hr
      refine ⟨by simpa using hi, hf, fun j d hj hd => ?_⟩
      cases j with
      | zero =>
        cases hd
        exact hc
      | succ j => exact hbefore j d (by omega) (by simpa using hd)

/-- After the element found is overwritten by another one on which `f` succeeds,
`findFirst` finds that one. -/
theorem findFirst_set {f : α → Option β} {l : List α} {i : Nat} {a a' : α} {b b' : β}
    (h : findFirst f l = some (i, a, b)) (hf : f a' = some b') :
    findFirst f (l.set i a') = some (i, a', b') := by
  obtain ⟨hi, -, hbefore⟩ := findFirst_spec h
  have hlt : i < l.length := (List.getElem?_eq_some_iff.mp hi).1
  refine findFirst_eq_some (by simp [hlt]) hf fun j c hj hc => ?_
  rw [List.getElem?_set_ne (Nat.ne_of_gt hj)] at hc
  exact hbefore j c hj hc

/-- `findFirst` finds an element when `f` succeeds on one. -/
theorem isSome_findFirst {f : α → Option β} {l : List α} {a : α} (ha : a ∈ l)
    (hf : (f a).isSome) : (findFirst f l).isSome := by
  induction l with
  | nil => cases ha
  | cons c l ih =>
    simp only [findFirst]
    split
    · rfl
    · next hc =>
      rcases List.mem_cons.mp ha with rfl | ha
      · rw [hc] at hf
        cases hf
      · rw [Option.isSome_map]
        exact ih ha

/-- Overwriting an element with a related one keeps two lists related. -/
theorem forall₂_set {R : α → β → Prop} {l : List α} {m : List β} (h : List.Forall₂ R l m) {i : Nat}
    {a : α} {b : β} (hi : l[i]? = some a) (hab : R a b) : List.Forall₂ R l (m.set i b) := by
  induction h generalizing i with
  | nil => cases hi
  | cons hr h ih =>
    cases i with
    | zero =>
      cases hi
      exact .cons hab h
    | succ i => exact .cons hr (ih (by simpa using hi))

/-- The elements at one position of two related lists are related. -/
theorem forall₂_getElem? {R : α → β → Prop} {l : List α} {m : List β} (h : List.Forall₂ R l m)
    {i : Nat} {b : β} (hi : m[i]? = some b) : ∃ a, l[i]? = some a ∧ R a b := by
  induction h generalizing i with
  | nil => cases hi
  | cons hr h ih =>
    cases i with
    | zero =>
      cases hi
      exact ⟨_, rfl, hr⟩
    | succ i => simpa using ih (by simpa using hi)

theorem mem_set_self {l : List α} {i : Nat} {x : α} (hi : l[i]? = some x) (y : α) :
    y ∈ l.set i y :=
  List.mem_set (List.getElem?_eq_some_iff.mp hi).1 y

/-- Overwriting one place loses one element at most. -/
theorem mem_set_of_ne {l : List α} {i : Nat} {x z : α} (hi : l[i]? = some x) (y : α)
    (hz : z ∈ l) (hne : z ≠ x) : z ∈ l.set i y := by
  obtain ⟨j, hj⟩ := List.mem_iff_getElem?.mp hz
  refine List.mem_iff_getElem?.mpr ⟨j, ?_⟩
  rw [List.getElem?_set_ne, hj]
  rintro rfl
  rw [hi] at hj
  cases hj
  exact hne rfl

theorem getElem?_of_not_mem_eraseIdx {l : List α} {i : Nat} {x : α} (hx : x ∈ l)
    (hnot : x ∉ l.eraseIdx i) : l[i]? = some x := by
  obtain ⟨j, hj⟩ := List.mem_iff_getElem?.mp hx
  by_contra hne
  refine hnot (List.mem_eraseIdx_iff_getElem?.mpr ⟨j, ?_, hj⟩)
  rintro rfl
  exact hne hj

/-- Overwriting the image of `x` in a mapped list of distinct elements gives the
list mapped with a function that agrees with the first one away from `x`. -/
theorem map_set_eq {f g : α → γ} {l : List α} {i : Nat} {x : α} (hl : l.Nodup) (hi : l[i]? = some x)
    (h : ∀ y ∈ l, y ≠ x → g y = f y) : (l.map f).set i (g x) = l.map g := by
  apply List.ext_getElem?
  intro n
  rw [List.getElem?_set, List.getElem?_map, List.getElem?_map]
  by_cases hn : i = n
  · subst hn
    obtain ⟨hlt, hx⟩ := List.getElem?_eq_some_iff.mp hi
    simp [hlt, hx]
  · rw [if_neg hn]
    cases hy : l[n]? with
    | none => rfl
    | some y =>
      have hne : y ≠ x := by
        rintro rfl
        exact hn ((List.getElem?_inj (List.getElem?_eq_some_iff.mp hi).1 hl).mp (hi.trans hy.symm))
      simp [h y (List.mem_of_getElem? hy) hne]

/-- A predicate that becomes true of exactly one element counts one more. -/
theorem countP_update {p q : α → Bool} {l : List α} {x : α} (hl : l.Nodup) (hx : x ∈ l)
    (h : ∀ y ∈ l, y ≠ x → q y = p y) (hp : p x = false) (hq : q x = true) :
    l.countP q = l.countP p + 1 := by
  induction l with
  | nil => cases hx
  | cons y l ih =>
    rw [List.nodup_cons] at hl
    rw [List.countP_cons, List.countP_cons]
    by_cases hy : y = x
    · subst hy
      have hrest : l.countP q = l.countP p := by
        refine List.countP_congr fun z hz => ?_
        rw [h z (List.mem_cons_of_mem _ hz) (by rintro rfl; exact hl.1 hz)]
      simp [hp, hq, hrest]
    · have hx' : x ∈ l := (List.mem_cons.mp hx).resolve_left (Ne.symm hy)
      rw [ih hl.2 hx' (fun z hz => h z (List.mem_cons_of_mem _ hz)), h y (by simp) hy]
      omega

/-- A traversal none of whose steps fails. -/
theorem mapM_eq_some_map {f : α → Option β} {g : α → β} {l : List α}
    (h : ∀ a ∈ l, f a = some (g a)) : l.mapM f = some (l.map g) := by
  induction l with
  | nil => rfl
  | cons a l ih =>
    rw [List.mapM_cons, h a (by simp), ih fun b hb => h b (by simp [hb])]
    rfl

/-- What is done with each result can be done with all of them at the end. -/
theorem mapM_map_some (f : α → Option β) (g : β → γ) (l : List α) :
    (l.mapM fun a => (f a).map g) = (l.mapM f).map (List.map g) := by
  induction l with
  | nil => rfl
  | cons a l ih =>
    rw [List.mapM_cons, List.mapM_cons, ih]
    cases f a with
    | none => rfl
    | some b => cases l.mapM f <;> rfl

/-- The same with exceptions. -/
theorem mapM_eq_ok_map {ε : Type*} {f : α → Except ε β} {g : α → β} {l : List α}
    (h : ∀ a ∈ l, f a = .ok (g a)) : l.mapM f = .ok (l.map g) := by
  induction l with
  | nil => rfl
  | cons a l ih =>
    rw [List.mapM_cons, h a (by simp), ih fun b hb => h b (by simp [hb])]
    rfl

theorem eq_ok_of_toOption {ε : Type*} {x : Except ε β} {b : β} (h : x.toOption = some b) :
    x = .ok b := by
  cases x with
  | error e => cases h
  | ok b' =>
    cases h
    rfl

/-- A traversal that raises nowhere. -/
theorem map_of_mapM_ok {ε : Type*} {f : α → Except ε β} {l : List α} {m : List β}
    (h : l.mapM f = .ok m) : l.map f = m.map Except.ok := by
  induction l generalizing m with
  | nil =>
    cases h
    rfl
  | cons a l ih =>
    rw [List.mapM_cons] at h
    cases ha : f a with
    | error e =>
      rw [ha] at h
      cases h
    | ok b =>
      rw [ha] at h
      cases hl : l.mapM f with
      | error e =>
        rw [hl] at h
        cases h
      | ok bs =>
        rw [hl] at h
        cases h
        rw [List.map_cons, List.map_cons, ha, ih hl]

/-- What the traversal keeps of each element. -/
theorem map_eq_of_mapM_ok {ε γ : Type*} {f : α → Except ε β} {g : α → γ} {g' : β → γ} {l : List α}
    {m : List β} (h : l.mapM f = .ok m) (hg : ∀ a b, f a = .ok b → g' b = g a) :
    m.map g' = l.map g := by
  have hmap := map_of_mapM_ok h
  clear h
  induction l generalizing m with
  | nil =>
    cases m with
    | nil => rfl
    | cons b m => cases hmap
  | cons a l ih =>
    cases m with
    | nil => cases hmap
    | cons b m =>
      rw [List.map_cons, List.map_cons] at hmap
      obtain ⟨ha, hl⟩ := List.cons.inj hmap
      rw [List.map_cons, List.map_cons, hg a b ha, ih hl]

/-- A traversal that raises does so at one of its elements. -/
theorem exists_of_mapM_error {ε : Type*} {f : α → Except ε β} {l : List α} {e : ε}
    (h : l.mapM f = .error e) : ∃ a ∈ l, f a = .error e := by
  induction l with
  | nil => cases h
  | cons a l ih =>
    rw [List.mapM_cons] at h
    cases ha : f a with
    | error e' =>
      rw [ha] at h
      cases h
      exact ⟨a, List.mem_cons_self, ha⟩
    | ok b =>
      rw [ha] at h
      cases hl : l.mapM f with
      | error e' =>
        rw [hl] at h
        cases h
        obtain ⟨a', ha', he⟩ := ih hl
        exact ⟨a', List.mem_cons_of_mem a ha', he⟩
      | ok bs =>
        rw [hl] at h
        cases h

/-- A traversal returns exactly when it does at every element. -/
theorem mapM_returns_iff {ε : Type*} {f : α → Except ε β} {l : List α} :
    (∃ m, l.mapM f = .ok m) ↔ ∀ a ∈ l, ∃ b, f a = .ok b := by
  constructor
  · rintro ⟨m, h⟩ a ha
    have hmem : f a ∈ m.map Except.ok := by
      rw [← map_of_mapM_ok h]
      exact List.mem_map_of_mem ha
    obtain ⟨b, -, hb⟩ := List.mem_map.mp hmem
    exact ⟨b, hb.symm⟩
  · intro h
    cases hm : l.mapM f with
    | ok m => exact ⟨m, rfl⟩
    | error e =>
      obtain ⟨a, ha, he⟩ := exists_of_mapM_error hm
      obtain ⟨b, hb⟩ := h a ha
      rw [hb] at he
      cases he

/-- Two computations that raise the same or return related values. -/
inductive SameOutcome {ε α β : Type*} (R : α → β → Prop) : Except ε α → Except ε β → Prop
  | error (e : ε) : SameOutcome R (.error e) (.error e)
  | ok {a : α} {b : β} (h : R a b) : SameOutcome R (.ok a) (.ok b)

theorem SameOutcome.bind {ε γ δ : Type*} {R : α → β → Prop} {S : γ → δ → Prop} {x : Except ε α}
    {y : Except ε β} {f : α → Except ε γ} {g : β → Except ε δ} (h : SameOutcome R x y)
    (hfg : ∀ a b, R a b → SameOutcome S (f a) (g b)) : SameOutcome S (x.bind f) (y.bind g) := by
  cases h with
  | error e => exact .error e
  | ok hR => exact hfg _ _ hR

theorem SameOutcome.map {ε γ δ : Type*} {R : α → β → Prop} {S : γ → δ → Prop} {x : Except ε α}
    {y : Except ε β} {f : α → γ} {g : β → δ} (h : SameOutcome R x y)
    (hfg : ∀ a b, R a b → S (f a) (g b)) : SameOutcome S (x.map f) (y.map g) := by
  cases h with
  | error e => exact .error e
  | ok hR => exact .ok (hfg _ _ hR)

/-- Two traversals that do the same at every place. -/
theorem sameOutcome_mapM {ε γ δ : Type*} {f : α → Except ε γ} {g : β → Except ε δ}
    {S : γ → δ → Prop} {l : List α} {m : List β}
    (h : List.Forall₂ (fun a b => SameOutcome S (f a) (g b)) l m) :
    SameOutcome (List.Forall₂ S) (l.mapM f) (m.mapM g) := by
  induction h with
  | nil => exact .ok .nil
  | @cons a b l m hab _ ih =>
    rw [List.mapM_cons, List.mapM_cons]
    exact hab.bind fun _ _ hS => ih.bind fun _ _ hl => .ok (.cons hS hl)

/-- A check of every element passes, or raises what it raises for one of them. -/
theorem forM_ok_or_error {ε : Type*} (f : α → Except ε Unit) (l : List α) :
    (l.forM f = .ok () ∧ ∀ a ∈ l, f a = .ok ()) ∨ ∃ a ∈ l, ∃ e, f a = .error e ∧ l.forM f = .error e := by
  induction l with
  | nil => exact .inl ⟨rfl, fun a ha => by cases ha⟩
  | cons a l ih =>
    have hstep : (a :: l).forM f = (f a >>= fun _ => l.forM f) := rfl
    cases ha : f a with
    | error e => exact .inr ⟨a, by simp, e, ha, by rw [hstep, ha]; rfl⟩
    | ok u =>
      rcases ih with ⟨hok, hall⟩ | ⟨b, hb, e, he, hl⟩
      · refine .inl ⟨by rw [hstep, ha]; exact hok, fun b hb => ?_⟩
        rcases List.mem_cons.mp hb with rfl | hb
        · exact ha
        · exact hall b hb
      · exact .inr ⟨b, List.mem_cons_of_mem a hb, e, he, by rw [hstep, ha]; exact hl⟩

/-- Filtering what a function keeps, when the elements behind it can be filtered. -/
theorem length_filter_filterMap_le {f : α → Option β} {p : β → Bool} {q : α → Bool} {l : List α}
    (h : ∀ a b, f a = some b → p b = true → q a = true) :
    ((l.filterMap f).filter p).length ≤ (l.filter q).length := by
  induction l with
  | nil => exact Nat.le_refl 0
  | cons a l ih =>
    cases hf : f a with
    | none =>
      rw [List.filterMap_cons_none hf]
      exact Nat.le_trans ih ((List.sublist_cons_self a l).filter q).length_le
    | some b =>
      rw [List.filterMap_cons_some hf]
      by_cases hp : p b = true
      · rw [List.filter_cons_of_pos hp, List.filter_cons_of_pos (h a b hf hp)]
        exact Nat.succ_le_succ ih
      · rw [List.filter_cons_of_neg hp]
        exact Nat.le_trans ih ((List.sublist_cons_self a l).filter q).length_le

/-- Where `f` succeeds only on elements on which `g` does, and as often, it succeeds on
all of these. -/
theorem isSome_of_length_filterMap {f : α → Option β} {g : α → Option γ} {l : List α}
    (h : ∀ a, (f a).isSome → (g a).isSome)
    (hlen : (l.filterMap f).length = (l.filterMap g).length) :
    ∀ a ∈ l, (g a).isSome → (f a).isSome := by
  rw [List.length_filterMap_eq_countP, List.length_filterMap_eq_countP] at hlen
  induction l with
  | nil => exact fun a ha => absurd ha List.not_mem_nil
  | cons b l ih =>
    have hle := List.countP_mono_left (l := l) fun a _ => h a
    rw [List.countP_cons, List.countP_cons] at hlen
    have hb := h b
    cases hg : (g b).isSome with
    | false =>
      have hf : (f b).isSome = false := by
        rw [← Bool.not_eq_true]
        intro hf
        rw [hb hf] at hg
        cases hg
      rw [hf, hg] at hlen
      intro a ha hsome
      rcases List.mem_cons.mp ha with rfl | ha
      · rw [hg] at hsome
        cases hsome
      · exact ih hlen a ha hsome
    | true =>
      cases hf : (f b).isSome with
      | false =>
        rw [hf, hg] at hlen
        simp only [Bool.false_eq_true, if_false, if_true] at hlen
        omega
      | true =>
        rw [hf, hg] at hlen
        intro a ha hsome
        rcases List.mem_cons.mp ha with rfl | ha
        · exact hf
        · exact ih (Nat.add_right_cancel hlen) a ha hsome

/-- Counting the common elements from either side. -/
theorem countP_mem_comm [DecidableEq α] {l m : List α} (hl : l.Nodup) (hm : m.Nodup) :
    l.countP (fun a => a ∈ m) = m.countP (fun a => a ∈ l) := by
  rw [List.countP_eq_length_filter, List.countP_eq_length_filter]
  refine ((List.perm_ext_iff_of_nodup (hl.filter _) (hm.filter _)).mpr fun a => ?_).length_eq
  simp [and_comm]

/-- What a computation did when the one that starts with it returned. -/
theorem of_bind_eq_ok {ε : Type*} {α β : Type _} {x : Except ε α} {f : α → Except ε β} {b : β}
    (h : x >>= f = .ok b) : ∃ a, x = .ok a ∧ f a = .ok b := by
  cases x with
  | error e => cases h
  | ok a => exact ⟨a, rfl, h⟩

end Search
