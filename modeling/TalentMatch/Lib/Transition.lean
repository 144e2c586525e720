import Mathlib.Data.List.Basic
import Mathlib.Logic.Function.Basic

/-!
# Labelled transition systems with an executable step

A system is a function `step : σ → α → Option σ`: in a state, an action either
leads to one next state or is not enabled. A run is a list of actions.

* `exec`: the state a run leads to, `exec_append`, `exec_snoc`: runs compose.
* `exec_invariant`: what every step preserves, every run preserves.
* `Guarded`, `guarded_invariant`: the same for runs all of whose steps meet a
  condition on the state before the step and the action. `Leads`: the states such runs
  lead to.
* `exec_simulation`, `Leads.simulation`: a relation that every step keeps, matched by a
  run of another system, is kept by whole runs.
* `pointwise`, `exec_localRun`: a family of systems, and the run of one of them in a
  run of the family.
-/

namespace Transition

variable {σ α : Type*} {step : σ → α → Option σ}

/-- The state that a run leads to, when all its actions are enabled. -/
def exec (step : σ → α → Option σ) : σ → List α → Option σ
  | s, [] => some s
  | s, a :: as => (step s a).bind fun t => exec step t as

/-- The states that runs from `s` lead to. -/
def Reachable (step : σ → α → Option σ) (s t : σ) : Prop :=
  ∃ as, exec step s as = some t

@[simp] theorem exec_nil (s : σ) : exec step s [] = some s := rfl

theorem exec_cons (s : σ) (a : α) (as : List α) :
    exec step s (a :: as) = (step s a).bind fun t => exec step t as := rfl

theorem exec_append (s : σ) (as bs : List α) :
    exec step s (as ++ bs) = (exec step s as).bind fun t => exec step t bs := by
  induction as generalizing s with
  | nil => rfl
  | cons a as ih =>
    simp only [List.cons_append, exec_cons]
    cases step s a with
    | none => rfl
    | some t => exact ih t

theorem exec_snoc {s u t : σ} {as : List α} {a : α} (h : exec step s as = some u)
    (ht : step u a = some t) : exec step s (as ++ [a]) = some t := by
  rw [exec_append, h]
  simp [exec_cons, ht]

theorem foldlM_eq_exec (s : σ) (as : List α) : as.foldlM step s = exec step s as := by
  induction as generalizing s with
  | nil => rfl
  | cons a as ih =>
    rw [List.foldlM_cons, exec_cons]
    exact Option.bind_congr fun t _ => ih t

/-- The invariant rule: what every step preserves holds after every run. -/
theorem exec_invariant {I : σ → Prop} (hstep : ∀ s a t, I s → step s a = some t → I t) {s t : σ}
    {as : List α} (hs : I s) (h : exec step s as = some t) : I t := by
  induction as generalizing s with
  | nil =>
    cases h
    exact hs
  | cons a as ih =>
    rw [exec_cons] at h
    cases hu : step s a with
    | none => rw [hu] at h; cases h
    | some u =>
      rw [hu] at h
      exact ih (hstep s a u hs hu) h

theorem Reachable.refl (s : σ) : Reachable step s s := ⟨[], rfl⟩

/-- Every step of the run from `s` meets the condition `G`. -/
def Guarded (step : σ → α → Option σ) (G : σ → α → Prop) : σ → List α → Prop
  | _, [] => True
  | s, a :: as => G s a ∧ ∀ t, step s a = some t → Guarded step G t as

/-- The invariant rule for runs whose steps all meet a condition. -/
theorem guarded_invariant {I : σ → Prop} {G : σ → α → Prop}
    (hstep : ∀ s a t, I s → G s a → step s a = some t → I t) {s t : σ} {as : List α} (hs : I s)
    (hG : Guarded step G s as) (h : exec step s as = some t) : I t := by
  induction as generalizing s with
  | nil =>
    cases h
    exact hs
  | cons a as ih =>
    rw [exec_cons] at h
    cases hu : step s a with
    | none => rw [hu] at h; cases h
    | some u =>
      rw [hu] at h
      exact ih (hstep s a u hs hG.1 hu) (hG.2 u hu) h

/-- The last step of a run. -/
theorem of_exec_snoc {s t : σ} {as : List α} {a : α} (h : exec step s (as ++ [a]) = some t) :
    ∃ u, exec step s as = some u ∧ step u a = some t := by
  rw [exec_append] at h
  obtain ⟨u, hu, hlast⟩ := Option.bind_eq_some_iff.mp h
  rw [exec_cons] at hlast
  obtain ⟨v, hv, hnil⟩ := Option.bind_eq_some_iff.mp hlast
  cases hnil
  exact ⟨u, hu, hv⟩

theorem Guarded.append_left {G : σ → α → Prop} {s : σ} {as bs : List α}
    (h : Guarded step G s (as ++ bs)) : Guarded step G s as := by
  induction as generalizing s with
  | nil => trivial
  | cons a as ih => exact ⟨h.1, fun t ht => ih (h.2 t ht)⟩

theorem Guarded.append_right {G : σ → α → Prop} {s t : σ} {as bs : List α}
    (h : Guarded step G s (as ++ bs)) (hs : exec step s as = some t) : Guarded step G t bs := by
  induction as generalizing s with
  | nil =>
    cases hs
    exact h
  | cons a as ih =>
    rw [exec_cons] at hs
    obtain ⟨u, hu, hrest⟩ := Option.bind_eq_some_iff.mp hs
    exact ih (h.2 u hu) hrest

/-- A run that does not meet a condition has a first step that does not. -/
theorem exists_of_not_guarded {G : σ → α → Prop} {s u : σ} {as : List α}
    (h : exec step s as = some u) (hG : ¬ Guarded step G s as) :
    ∃ before a after t v, as = before ++ a :: after ∧ Guarded step G s before ∧
      exec step s before = some t ∧ step t a = some v ∧ ¬ G t a := by
  induction as generalizing s with
  | nil => exact absurd trivial hG
  | cons a as ih =>
    rw [exec_cons] at h
    obtain ⟨t, ht, hrest⟩ := Option.bind_eq_some_iff.mp h
    by_cases ha : G s a
    · have hnext : ∀ {as : List α}, Guarded step G t as → Guarded step G s (a :: as) := by
        intro as hguarded
        refine ⟨ha, fun t' ht' => ?_⟩
        rw [ht] at ht'
        cases ht'
        exact hguarded
      obtain ⟨before, b, after, t', v, rfl, hguarded, hbefore, hb, hGb⟩ := ih hrest (hG ∘ hnext)
      refine ⟨a :: before, b, after, t', v, rfl, hnext hguarded, ?_, hb, hGb⟩
      rw [exec_cons, ht]
      exact hbefore
    · exact ⟨[], a, as, s, t, rfl, trivial, rfl, ht, ha⟩

/-- A condition on the actions alone. -/
theorem guarded_of_forall {G : α → Prop} {s : σ} {as : List α} (h : ∀ a ∈ as, G a) :
    Guarded step (fun _ a => G a) s as := by
  induction as generalizing s with
  | nil => trivial
  | cons a as ih =>
    exact ⟨h a (List.mem_cons_self ..), fun t _ => ih fun b hb => h b (List.mem_cons_of_mem a hb)⟩

/-- The states that runs from `s` lead to whose steps all meet a condition. -/
def Leads (step : σ → α → Option σ) (G : σ → α → Prop) (s t : σ) : Prop :=
  ∃ as, Guarded step G s as ∧ exec step s as = some t

section Leads
variable {G G' : σ → α → Prop} {s t u : σ}

theorem Leads.refl (s : σ) : Leads step G s s := ⟨[], trivial, rfl⟩

theorem Leads.head {a : α} (ha : G s a) (h : step s a = some t) (ht : Leads step G t u) :
    Leads step G s u := by
  obtain ⟨as, hG, has⟩ := ht
  refine ⟨a :: as, ⟨ha, fun t' ht' => ?_⟩, ?_⟩
  · rw [h] at ht'
    cases ht'
    exact hG
  · rw [exec_cons, h]
    exact has

theorem Leads.of_step {a : α} (ha : G s a) (h : step s a = some t) : Leads step G s t :=
  Leads.head ha h (.refl t)

theorem Leads.trans (hst : Leads step G s t) (htu : Leads step G t u) : Leads step G s u := by
  obtain ⟨as, hG, has⟩ := hst
  induction as generalizing s with
  | nil =>
    cases has
    exact htu
  | cons a as ih =>
    rw [exec_cons] at has
    obtain ⟨v, hv, hrest⟩ := Option.bind_eq_some_iff.mp has
    exact .head hG.1 hv (ih (hG.2 v hv) hrest)

theorem Leads.invariant {I : σ → Prop} (h : Leads step G s t)
    (hstep : ∀ s a t, I s → G s a → step s a = some t → I t) (hs : I s) : I t := by
  obtain ⟨as, hG, has⟩ := h
  exact guarded_invariant hstep hs hG has

theorem Leads.mono (h : Leads step G s t) (hG : ∀ s a, G s a → G' s a) : Leads step G' s t := by
  obtain ⟨as, hguard, has⟩ := h
  induction as generalizing s with
  | nil =>
    cases has
    exact .refl _
  | cons a as ih =>
    rw [exec_cons] at has
    obtain ⟨v, hv, hrest⟩ := Option.bind_eq_some_iff.mp has
    exact .head (hG s a hguard.1) hv (ih (hguard.2 v hv) hrest)

end Leads

/-! ## Simulations -/

section Simulation
variable {τ β : Type*} {step' : τ → β → Option τ} {P : α → Prop} {Q : β → Prop} {R : σ → τ → Prop}

/-- When related states stay related while each step is matched by a run of the other system,
whole runs are matched by runs. `P` is what the actions satisfy, `Q` what those that match them
satisfy. -/
theorem exec_simulation
    (hstep : ∀ s t a s', R s t → P a → step s a = some s' →
      ∃ bs t', (∀ b ∈ bs, Q b) ∧ exec step' t bs = some t' ∧ R s' t')
    {s s' : σ} {t : τ} {as : List α} (hR : R s t) (has : ∀ a ∈ as, P a)
    (h : exec step s as = some s') :
    ∃ bs t', (∀ b ∈ bs, Q b) ∧ exec step' t bs = some t' ∧ R s' t' := by
  induction as generalizing s t with
  | nil =>
    cases h
    exact ⟨[], t, by simp, rfl, hR⟩
  | cons a as ih =>
    rw [exec_cons] at h
    obtain ⟨u, hu, hrest⟩ := Option.bind_eq_some_iff.mp h
    obtain ⟨ha, has⟩ := List.forall_mem_cons.mp has
    obtain ⟨bs, t₁, hbs, ht₁, hR₁⟩ := hstep s t a u hR ha hu
    obtain ⟨bs', t₂, hbs', ht₂, hR₂⟩ := ih hR₁ has hrest
    refine ⟨bs ++ bs', t₂, fun b hb => ?_, ?_, hR₂⟩
    · rcases List.mem_append.mp hb with hb | hb
      · exact hbs b hb
      · exact hbs' b hb
    · rw [exec_append, ht₁]
      exact ht₂

/-- When related states stay related while each step that meets a condition is matched by steps of
the other system that meet another, so is every run of such steps. -/
theorem Leads.simulation {G : σ → α → Prop} {G' : τ → β → Prop}
    (hstep : ∀ s t a s', R s t → G s a → step s a = some s' →
      ∃ t', Leads step' G' t t' ∧ R s' t')
    {s s' : σ} {t : τ} (hR : R s t) (h : Leads step G s s') :
    ∃ t', Leads step' G' t t' ∧ R s' t' := by
  obtain ⟨as, hG, has⟩ := h
  induction as generalizing s t with
  | nil =>
    cases has
    exact ⟨t, .refl t, hR⟩
  | cons a as ih =>
    rw [exec_cons] at has
    obtain ⟨u, hu, hrest⟩ := Option.bind_eq_some_iff.mp has
    obtain ⟨t₁, hleads, hR₁⟩ := hstep s t a u hR hG.1 hu
    obtain ⟨t₂, hleads', hR₂⟩ := ih hR₁ (hG.2 u hu) hrest
    exact ⟨t₂, hleads.trans hleads', hR₂⟩

end Simulation

/-! ## Families -/

section Pointwise
variable {ι : Type*} [DecidableEq ι] {step : ι → σ → α → Option σ}

/-- A system for every index, and steps of one of them at a time. -/
def pointwise (step : ι → σ → α → Option σ) (s : ι → σ) (a : ι × α) : Option (ι → σ) :=
  (step a.1 (s a.1) a.2).map fun t => Function.update s a.1 t

/-- The actions of one system. -/
def localRun (i : ι) (as : List (ι × α)) : List α :=
  (as.filter fun a => a.1 = i).map Prod.snd

theorem localRun_cons_self (i : ι) (a : α) (as : List (ι × α)) :
    localRun i ((i, a) :: as) = a :: localRun i as := by
  simp [localRun]

theorem localRun_cons_of_ne {i : ι} {a : ι × α} (h : a.1 ≠ i) (as : List (ι × α)) :
    localRun i (a :: as) = localRun i as := by
  simp [localRun, h]

theorem pointwise_self {s t : ι → σ} {i : ι} {a : α} (h : pointwise step s (i, a) = some t) :
    step i (s i) a = some (t i) := by
  obtain ⟨u, hu, rfl⟩ := Option.map_eq_some_iff.mp h
  rw [Function.update_self]
  exact hu

theorem pointwise_of_ne {s t : ι → σ} {i : ι} {a : ι × α} (hne : a.1 ≠ i)
    (h : pointwise step s a = some t) : t i = s i := by
  obtain ⟨u, -, rfl⟩ := Option.map_eq_some_iff.mp h
  exact Function.update_of_ne hne.symm ..

/-- A run of one system is a run of the family. -/
theorem exec_pointwise {s : ι → σ} {i : ι} {t : σ} {as : List α}
    (h : exec (step i) (s i) as = some t) :
    exec (pointwise step) s (as.map fun a => (i, a)) = some (Function.update s i t) := by
  induction as generalizing s with
  | nil =>
    cases h
    rw [Function.update_eq_self]
    rfl
  | cons a as ih =>
    rw [exec_cons] at h
    obtain ⟨u, hu, hrest⟩ := Option.bind_eq_some_iff.mp h
    have hstep : pointwise step s (i, a) = some (Function.update s i u) := by
      unfold pointwise
      rw [hu]
      rfl
    rw [List.map_cons, exec_cons, hstep, Option.bind_some]
    rw [ih (s := Function.update s i u) (by rwa [Function.update_self]), Function.update_idem]

/-- In a run of the family, each system makes a run of its own. -/
theorem exec_localRun {s t : ι → σ} {as : List (ι × α)}
    (h : exec (pointwise step) s as = some t) (i : ι) :
    exec (step i) (s i) (localRun i as) = some (t i) := by
  induction as generalizing s with
  | nil =>
    cases h
    rfl
  | cons a as ih =>
    rw [exec_cons] at h
    obtain ⟨u, hu, hrest⟩ := Option.bind_eq_some_iff.mp h
    obtain ⟨j, a⟩ := a
    by_cases hj : j = i
    · subst hj
      rw [localRun_cons_self, exec_cons, pointwise_self hu]
      exact ih hrest
    · rw [localRun_cons_of_ne (a := (j, a)) hj, ← pointwise_of_ne (a := (j, a)) hj hu]
      exact ih hrest

end Pointwise

end Transition
