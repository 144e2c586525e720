import TalentMatch.Lib.Transition
import Mathlib.Data.List.Nodup
import Mathlib.Logic.Function.Basic

/-!
# Check, then act

Workers that look whether the key of their job exists and, when it does not, bring
it into being with a second step. Both steps are atomic, and steps of other workers
may come between them. A worker can stop at any time.

Results:
1. `inv_step`: as long as no step is unsafe, a worker that found its key missing is
   the only one of that key, and the key was not acted on.
2. `nodup_of_guarded`: runs without unsafe steps act at most once on each key.
3. `acts_twice_of_unsafe`: a single unsafe step can be continued to a state in which
   one key was acted on twice.
-/

namespace CheckThenAct

variable {ι κ : Type*} [DecidableEq κ]

/-! ## 1. The protocol -/

/-- How far a worker is. -/
inductive Pc where
  | ready
  | absent
  | attached
  | acted
  | stopped
  deriving DecidableEq

/-- A worker, for one job. -/
structure Worker (ι : Type*) where
  job : ι
  pc : Pc
  deriving DecidableEq

/-- Workers are numbered in the order of their jobs. `acts` are the jobs acted on. -/
structure State (ι κ : Type*) where
  present : κ → Bool
  workers : List (Worker ι)
  acts : List ι

/-- What can happen next. -/
inductive Action (ι : Type*) where
  | request (job : ι)
  | check (n : Nat)
  | act (n : Nat)
  | stop (n : Nat)
  deriving DecidableEq

namespace State

/-- Nobody works yet, and the keys of `present` exist. -/
def initial (present : κ → Bool) : State ι κ where
  present := present
  workers := []
  acts := []

/-- Worker `n` moves on to `pc`. -/
def setPc (s : State ι κ) (n : Nat) (job : ι) (pc : Pc) : State ι κ :=
  { s with workers := s.workers.set n ⟨job, pc⟩ }

/-- Worker `n` brings its key into being. -/
def setActed (key : ι → κ) (s : State ι κ) (n : Nat) (job : ι) : State ι κ where
  present := Function.update s.present (key job) true
  workers := s.workers.set n ⟨job, .acted⟩
  acts := s.acts ++ [job]

end State

open State

section Step
variable (key : ι → κ)

/-- One atomic step. -/
def step (s : State ι κ) : Action ι → Option (State ι κ)
  | .request job => some { s with workers := s.workers ++ [⟨job, .ready⟩] }
  | .check n =>
    match s.workers[n]? with
    | some ⟨job, .ready⟩ =>
      if s.present (key job) then some (s.setPc n job .attached) else some (s.setPc n job .absent)
    | _ => none
  | .act n =>
    match s.workers[n]? with
    | some ⟨job, .absent⟩ => some (s.setActed key n job)
    | _ => none
  | .stop n =>
    match s.workers[n]? with
    | some ⟨job, .ready⟩ => some (s.setPc n job .stopped)
    | some ⟨job, .absent⟩ => some (s.setPc n job .stopped)
    | _ => none

/-- What a step can do. -/
inductive Steps (s : State ι κ) : Action ι → State ι κ → Prop
  | request (job : ι) : Steps s (.request job) { s with workers := s.workers ++ [⟨job, .ready⟩] }
  | attached {n : Nat} {job : ι} (hw : s.workers[n]? = some ⟨job, .ready⟩)
      (hp : s.present (key job) = true) : Steps s (.check n) (s.setPc n job .attached)
  | absent {n : Nat} {job : ι} (hw : s.workers[n]? = some ⟨job, .ready⟩)
      (hp : s.present (key job) = false) : Steps s (.check n) (s.setPc n job .absent)
  | acted {n : Nat} {job : ι} (hw : s.workers[n]? = some ⟨job, .absent⟩) :
      Steps s (.act n) (s.setActed key n job)
  | stopped {n : Nat} {job : ι} {pc : Pc} (hw : s.workers[n]? = some ⟨job, pc⟩) :
      Steps s (.stop n) (s.setPc n job .stopped)

/-- A check that finds a key missing which another worker found missing too and has
not acted on yet. -/
def Unsafe (s : State ι κ) : Action ι → Prop
  | .check n =>
    ∃ job : ι, s.workers[n]? = some ⟨job, .ready⟩ ∧ s.present (key job) = false ∧
      ∃ (m : Nat) (other : ι), s.workers[m]? = some ⟨other, .absent⟩ ∧ key other = key job
  | _ => False

end Step

variable {key : ι → κ} {s s' : State ι κ} {a : Action ι}

theorem steps_of_step (h : step key s a = some s') : Steps key s a s' := by
  cases a with
  | request job =>
    cases h
    exact .request job
  | check n =>
    simp only [step] at h
    split at h
    · next job hw =>
      split at h
      · next hp =>
        cases h
        exact .attached hw hp
      · next hp =>
        cases h
        exact .absent hw (Bool.eq_false_iff.mpr hp)
    · cases h
  | act n =>
    simp only [step] at h
    split at h
    · next job hw =>
      cases h
      exact .acted hw
    · cases h
  | stop n =>
    simp only [step] at h
    split at h
    · next job hw =>
      cases h
      exact .stopped hw
    · next job hw =>
      cases h
      exact .stopped hw
    · cases h

/-- A single worker whose key exists. -/
theorem exec_lone_attached {present : κ → Bool} {job : ι} (h : present (key job) = true) :
    Transition.exec (step key) (initial present) [.request job, .check 0] =
      some ⟨present, [⟨job, .attached⟩], []⟩ := by
  simp [Transition.exec, step, initial, setPc, h]

/-- A single worker whose key is missing. -/
theorem exec_lone_acted {present : κ → Bool} {job : ι} (h : present (key job) = false) :
    Transition.exec (step key) (initial present) [.request job, .check 0, .act 0] =
      some ⟨Function.update present (key job) true, [⟨job, .acted⟩], [job]⟩ := by
  simp [Transition.exec, step, initial, setPc, setActed, h]

/-! ## 2. Safe runs -/

/-- A worker that found its key missing is the only one of that key, and a key that
was acted on exists. -/
structure Inv (key : ι → κ) (s : State ι κ) : Prop where
  single : ∀ (n m : Nat) (job other : ι), s.workers[n]? = some ⟨job, .absent⟩ →
    s.workers[m]? = some ⟨other, .absent⟩ → key job = key other → n = m
  fresh : ∀ (n : Nat) (job : ι), s.workers[n]? = some ⟨job, .absent⟩ → key job ∉ s.acts.map key
  present : ∀ k ∈ s.acts.map key, s.present k = true
  nodup : (s.acts.map key).Nodup

omit [DecidableEq κ] in
theorem inv_initial (present : κ → Bool) : Inv key (initial present : State ι κ) where
  single n m job other hn := by simp [initial] at hn
  fresh n job hn := by simp [initial] at hn
  present k hk := by cases hk
  nodup := List.nodup_nil

omit [DecidableEq κ] in
/-- Who is at `absent` after worker `n` moved on to another place was there before. -/
theorem absent_of_setPc {n m : Nat} {job other : ι} {pc : Pc} (hpc : pc ≠ .absent)
    (h : (s.setPc n job pc).workers[m]? = some ⟨other, .absent⟩) :
    m ≠ n ∧ s.workers[m]? = some ⟨other, .absent⟩ := by
  unfold setPc at h
  rw [List.getElem?_set] at h
  split at h
  · split at h
    · cases h
      exact absurd rfl hpc
    · cases h
  · next hne => exact ⟨Ne.symm hne, h⟩

omit [DecidableEq κ] in
/-- The same for a worker that moved on to `absent`. -/
theorem absent_of_setPc_absent {n m : Nat} {job other : ι}
    (h : (s.setPc n job .absent).workers[m]? = some ⟨other, .absent⟩) :
    m = n ∧ other = job ∨ s.workers[m]? = some ⟨other, .absent⟩ := by
  unfold setPc at h
  rw [List.getElem?_set] at h
  split at h
  · next heq =>
    split at h
    · cases h
      exact .inl ⟨heq.symm, rfl⟩
    · cases h
  · exact .inr h

omit [DecidableEq κ] in
/-- A worker that leaves `absent`, or never was there, keeps the invariant. -/
theorem inv_setPc {n : Nat} {job : ι} {pc : Pc} (hpc : pc ≠ .absent) (h : Inv key s) :
    Inv key (s.setPc n job pc) where
  single m m' job₁ job₂ h₁ h₂ hk :=
    h.single m m' job₁ job₂ (absent_of_setPc hpc h₁).2 (absent_of_setPc hpc h₂).2 hk
  fresh m job₁ h₁ := h.fresh m job₁ (absent_of_setPc hpc h₁).2
  present := h.present
  nodup := h.nodup

/-- A step that is not unsafe keeps the invariant. -/
theorem inv_step (h : Inv key s) (hsafe : ¬ Unsafe key s a) (hstep : step key s a = some s') :
    Inv key s' := by
  cases steps_of_step hstep with
  | request job =>
    have hold : ∀ {m : Nat} {other : ι},
        (s.workers ++ [⟨job, .ready⟩])[m]? = some ⟨other, .absent⟩ →
          s.workers[m]? = some ⟨other, .absent⟩ := by
      intro m other hm
      rw [List.getElem?_append] at hm
      split at hm
      · exact hm
      · have hmem := List.mem_of_getElem? hm
        cases List.mem_singleton.mp hmem
    exact
      { single := fun m m' job₁ job₂ h₁ h₂ hk => h.single m m' job₁ job₂ (hold h₁) (hold h₂) hk
        fresh := fun m job₁ h₁ => h.fresh m job₁ (hold h₁)
        present := h.present
        nodup := h.nodup }
  | attached hw hp => exact inv_setPc (by decide) h
  | stopped hw => exact inv_setPc (by decide) h
  | @absent n job hw hp =>
    have hother : ∀ {m : Nat} {other : ι}, s.workers[m]? = some ⟨other, .absent⟩ →
        key other ≠ key job := fun hm heq => hsafe ⟨job, hw, hp, _, _, hm, heq⟩
    refine ⟨fun m m' job₁ job₂ h₁ h₂ hk => ?_, fun m job₁ h₁ => ?_, h.present, h.nodup⟩
    · rcases absent_of_setPc_absent h₁ with ⟨rfl, rfl⟩ | hold₁
      · rcases absent_of_setPc_absent h₂ with ⟨rfl, -⟩ | hold₂
        · rfl
        · exact absurd hk.symm (hother hold₂)
      · rcases absent_of_setPc_absent h₂ with ⟨rfl, rfl⟩ | hold₂
        · exact absurd hk (hother hold₁)
        · exact h.single m m' job₁ job₂ hold₁ hold₂ hk
    · rcases absent_of_setPc_absent h₁ with ⟨-, rfl⟩ | hold₁
      · intro hmem
        rw [h.present _ hmem] at hp
        cases hp
      · exact h.fresh m job₁ hold₁
  | @acted n job hw =>
    have hmoved : ∀ {m : Nat} {other : ι},
        (s.setActed key n job).workers[m]? = some ⟨other, .absent⟩ →
          m ≠ n ∧ s.workers[m]? = some ⟨other, .absent⟩ :=
      fun {m other} (hm : (s.setPc n job .acted).workers[m]? = some ⟨other, .absent⟩) =>
        absent_of_setPc (by decide) hm
    have hacts : (s.acts ++ [job]).map key = s.acts.map key ++ [key job] := by simp
    refine ⟨fun m m' job₁ job₂ h₁ h₂ hk => ?_, fun m job₁ h₁ => ?_, fun k hk => ?_, ?_⟩
    · exact h.single m m' job₁ job₂ (hmoved h₁).2 (hmoved h₂).2 hk
    · obtain ⟨hne, hold⟩ := hmoved h₁
      show key job₁ ∉ (s.acts ++ [job]).map key
      rw [hacts, List.mem_append, List.mem_singleton, not_or]
      exact ⟨h.fresh m job₁ hold, fun hk => hne (h.single m n job₁ job hold hw hk)⟩
    · by_cases heq : k = key job
      · show Function.update s.present (key job) true k = true
        rw [heq, Function.update_self]
      · show Function.update s.present (key job) true k = true
        rw [Function.update_of_ne heq]
        replace hk : k ∈ (s.acts ++ [job]).map key := hk
        rw [hacts, List.mem_append, List.mem_singleton] at hk
        exact h.present k (hk.resolve_right heq)
    · show ((s.acts ++ [job]).map key).Nodup
      rw [hacts, List.nodup_append]
      refine ⟨h.nodup, List.nodup_singleton _, fun k hk k' hk' heq => ?_⟩
      cases List.mem_singleton.mp hk'
      exact h.fresh n job hw (heq ▸ hk)

/-- In a run without unsafe steps, each key is acted on at most once. -/
theorem nodup_of_guarded {present : κ → Bool} {as : List (Action ι)}
    (hsafe : Transition.Guarded (step key) (fun s a => ¬ Unsafe key s a) (initial present) as)
    (h : Transition.exec (step key) (initial present) as = some s) : (s.acts.map key).Nodup :=
  (Transition.guarded_invariant (I := Inv key) (fun _ _ _ hinv hG hs => inv_step hinv hG hs)
    (inv_initial present) hsafe h).nodup

/-! ## 3. Unsafe steps -/

/-- The step of a worker that found its key missing. -/
theorem step_act {n : Nat} {job : ι} (hw : s.workers[n]? = some ⟨job, .absent⟩) :
    step key s (.act n) = some (s.setActed key n job) := by
  simp only [step, hw]

/-- After an unsafe step both workers can act. -/
theorem acts_twice_of_unsafe (h : Unsafe key s a) :
    ∃ k as t, Transition.exec (step key) s (a :: as) = some t ∧ 2 ≤ (t.acts.map key).count k := by
  cases a with
  | check n =>
    obtain ⟨job, hw, hp, m, other, hm, hk⟩ := h
    have hne : n ≠ m := by
      rintro rfl
      rw [hw] at hm
      cases hm
    have hn : n < s.workers.length := (List.getElem?_eq_some_iff.mp hw).1
    have hcheck : step key s (.check n) = some (s.setPc n job .absent) := by
      simp only [step, hw, hp]
      rfl
    have hn₁ : (s.setPc n job .absent).workers[n]? = some ⟨job, .absent⟩ := by
      show (s.workers.set n _)[n]? = _
      rw [List.getElem?_set_self hn]
    have hm₂ : ((s.setPc n job .absent).setActed key n job).workers[m]? = some ⟨other, .absent⟩ := by
      show ((s.workers.set n _).set n _)[m]? = _
      rw [List.getElem?_set_ne hne, List.getElem?_set_ne hne, hm]
    refine ⟨key job, [.act n, .act m], ?_⟩
    rw [Transition.exec_cons, hcheck, Option.bind_some, Transition.exec_cons, step_act hn₁,
      Option.bind_some, Transition.exec_cons, step_act hm₂, Option.bind_some]
    refine ⟨_, rfl, ?_⟩
    show 2 ≤ (List.map key (s.acts ++ [job] ++ [other])).count (key job)
    simp [List.count_append, hk]
  | request job => exact h.elim
  | act n => exact h.elim
  | stop n => exact h.elim

end CheckThenAct
