import TalentMatch.Lib.FirstWrite
import TalentMatch.Lib.Transition

/-!
# Claim, then publish

A protocol for work that is delivered at least once. Every delivery gets a worker
that looks up a target, claims the key of its job with a create-if-absent marker,
publishes to the target when it made the marker, and then acknowledges the
delivery. A worker that finds the marker acknowledges without publishing. Workers
interleave in any order, a publication can fail and a worker can stop between any
two steps.

Results, for every run:
1. `inv_step`, `length_attemptsFor_le_one`: markers, workers and publications
   agree, and a key is published at most once.
2. `targets_step`, `notFound_step`: targets come from lookups.
3. `settled_step`: while no step is unsafe, whoever is acknowledged was published.
4. `lost_of_unsafe`: a single unsafe step can be continued to a state in which a
   delivery is acknowledged and its key was never published.
-/

namespace ClaimOnce

variable {ι κ τ : Type*} [DecidableEq κ]

/-! ## 1. The protocol -/

/-- How far a worker is. -/
inductive Pc (τ : Type*) where
  | received
  | found (target : τ)
  | unknown
  | claimed (target : τ)
  | duplicate
  | published
  | acknowledged
  | dropped
  | stopped
  deriving DecidableEq

/-- A worker, for one delivery of a job. -/
structure Worker (ι τ : Type*) where
  job : ι
  pc : Pc τ
  deriving DecidableEq

/-- Workers are numbered by delivery. A marker holds the number of its creator.
`attempts` are the publications started, `published` those that succeeded. -/
structure State (ι κ τ : Type*) where
  workers : List (Worker ι τ)
  markers : κ → Option Nat
  attempts : List (Nat × τ)
  published : List (Nat × τ)

/-- What can happen next. -/
inductive Action (ι : Type*) where
  | deliver (job : ι)
  | lookup (n : Nat)
  | claim (n : Nat)
  | publish (n : Nat) (ok : Bool)
  | finish (n : Nat)
  | stop (n : Nat)
  deriving DecidableEq

namespace State

def initial : State ι κ τ where
  workers := []
  markers := fun _ => none
  attempts := []
  published := []

/-- Worker `n` moves on to `pc`. -/
def setPc (s : State ι κ τ) (n : Nat) (job : ι) (pc : Pc τ) : State ι κ τ :=
  { s with workers := s.workers.set n ⟨job, pc⟩ }

/-- The job that delivery `n` was about. -/
def jobOf (s : State ι κ τ) (n : Nat) : Option ι := s.workers[n]?.map Worker.job

end State

open State

section Step
variable (look : κ → Option τ) (key : ι → κ)

/-- One atomic step. -/
def step (s : State ι κ τ) : Action ι → Option (State ι κ τ)
  | .deliver job => some { s with workers := s.workers ++ [⟨job, .received⟩] }
  | .lookup n =>
    match s.workers[n]? with
    | some ⟨job, .received⟩ =>
      match look (key job) with
      | some t => some (s.setPc n job (.found t))
      | none => some (s.setPc n job .unknown)
    | _ => none
  | .claim n =>
    match s.workers[n]? with
    | some ⟨job, .found t⟩ =>
      if (s.markers (key job)).isSome then some (s.setPc n job .duplicate)
      else
        some { s.setPc n job (.claimed t) with markers := FirstWrite.record s.markers (key job) n }
    | _ => none
  | .publish n ok =>
    match s.workers[n]? with
    | some ⟨job, .claimed t⟩ =>
      if ok then
        some { s.setPc n job .published with
          attempts := s.attempts ++ [(n, t)]
          published := s.published ++ [(n, t)] }
      else some { s.setPc n job .stopped with attempts := s.attempts ++ [(n, t)] }
    | _ => none
  | .finish n =>
    match s.workers[n]? with
    | some ⟨job, .published⟩ => some (s.setPc n job .acknowledged)
    | some ⟨job, .duplicate⟩ => some (s.setPc n job .acknowledged)
    | some ⟨job, .unknown⟩ => some (s.setPc n job .dropped)
    | _ => none
  | .stop n =>
    match s.workers[n]? with
    | none => none
    | some ⟨_, .acknowledged⟩ => none
    | some ⟨_, .dropped⟩ => none
    | some ⟨_, .stopped⟩ => none
    | some ⟨job, _⟩ => some (s.setPc n job .stopped)

/-- What a step can do. -/
inductive Steps (s : State ι κ τ) : Action ι → State ι κ τ → Prop
  | deliver (job : ι) :
      Steps s (.deliver job) { s with workers := s.workers ++ [⟨job, .received⟩] }
  | found {n : Nat} {job : ι} {t : τ} (hw : s.workers[n]? = some ⟨job, .received⟩)
      (ht : look (key job) = some t) : Steps s (.lookup n) (s.setPc n job (.found t))
  | unknown {n : Nat} {job : ι} (hw : s.workers[n]? = some ⟨job, .received⟩)
      (ht : look (key job) = none) : Steps s (.lookup n) (s.setPc n job .unknown)
  | duplicate {n m : Nat} {job : ι} {t : τ} (hw : s.workers[n]? = some ⟨job, .found t⟩)
      (hm : s.markers (key job) = some m) : Steps s (.claim n) (s.setPc n job .duplicate)
  | claimed {n : Nat} {job : ι} {t : τ} (hw : s.workers[n]? = some ⟨job, .found t⟩)
      (hm : s.markers (key job) = none) :
      Steps s (.claim n)
        { s.setPc n job (.claimed t) with markers := FirstWrite.record s.markers (key job) n }
  | published {n : Nat} {job : ι} {t : τ} (hw : s.workers[n]? = some ⟨job, .claimed t⟩) :
      Steps s (.publish n true)
        { s.setPc n job .published with
          attempts := s.attempts ++ [(n, t)]
          published := s.published ++ [(n, t)] }
  | failed {n : Nat} {job : ι} {t : τ} (hw : s.workers[n]? = some ⟨job, .claimed t⟩) :
      Steps s (.publish n false) { s.setPc n job .stopped with attempts := s.attempts ++ [(n, t)] }
  | finished {n : Nat} {job : ι} {pc : Pc τ} (hw : s.workers[n]? = some ⟨job, pc⟩)
      (hpc : pc = .published ∨ pc = .duplicate) : Steps s (.finish n) (s.setPc n job .acknowledged)
  | dropped {n : Nat} {job : ι} (hw : s.workers[n]? = some ⟨job, .unknown⟩) :
      Steps s (.finish n) (s.setPc n job .dropped)
  | stopped {n : Nat} {job : ι} {pc : Pc τ} (hw : s.workers[n]? = some ⟨job, pc⟩) :
      Steps s (.stop n) (s.setPc n job .stopped)

variable {look key}

theorem steps_of_step {s s' : State ι κ τ} {a : Action ι} (h : step look key s a = some s') :
    Steps look key s a s' := by
  cases a with
  | deliver job =>
    cases h
    exact .deliver job
  | lookup n =>
    simp only [step] at h
    split at h
    · next job hw =>
      split at h
      · next t ht =>
        cases h
        exact .found hw ht
      · next ht =>
        cases h
        exact .unknown hw ht
    · cases h
  | claim n =>
    simp only [step] at h
    split at h
    · next job t hw =>
      split at h
      · next hm =>
        obtain ⟨m, hm⟩ := Option.isSome_iff_exists.mp hm
        cases h
        exact .duplicate hw hm
      · next hm =>
        cases h
        exact .claimed hw (by simpa using hm)
    · cases h
  | publish n ok =>
    simp only [step] at h
    split at h
    · next job t hw =>
      cases ok with
      | true =>
        cases h
        exact .published hw
      | false =>
        cases h
        exact .failed hw
    · cases h
  | finish n =>
    simp only [step] at h
    split at h
    · next job hw =>
      cases h
      exact .finished hw (Or.inl rfl)
    · next job hw =>
      cases h
      exact .finished hw (Or.inr rfl)
    · next job hw =>
      cases h
      exact .dropped hw
    · cases h
  | stop n =>
    simp only [step] at h
    split at h
    · cases h
    · cases h
    · cases h
    · cases h
    · next job pc _ _ _ hw =>
      cases h
      exact .stopped hw

end Step

/-! ## 2. What no step changes -/

section Frame
variable {look : κ → Option τ} {key : ι → κ} {s s' : State ι κ τ} {a : Action ι}

omit [DecidableEq κ] in
/-- After worker `n` moved on. -/
theorem getElem?_setPc {n : Nat} {job : ι} {pc pc' : Pc τ}
    (hw : s.workers[n]? = some ⟨job, pc⟩) (m : Nat) :
    (s.setPc n job pc').workers[m]? = if n = m then some ⟨job, pc'⟩ else s.workers[m]? := by
  have hlt : n < s.workers.length := (List.getElem?_eq_some_iff.mp hw).1
  rw [setPc, List.getElem?_set]
  by_cases h : n = m
  · rw [if_pos h, if_pos h, if_pos (h ▸ hlt)]
  · rw [if_neg h, if_neg h]

omit [DecidableEq κ] in
theorem jobOf_setPc {n : Nat} {job : ι} {pc pc' : Pc τ} (hw : s.workers[n]? = some ⟨job, pc⟩)
    (m : Nat) : (s.setPc n job pc').jobOf m = s.jobOf m := by
  rw [jobOf, getElem?_setPc hw]
  split
  · next h =>
    subst h
    simp [jobOf, hw]
  · rfl

omit [DecidableEq κ] in
theorem jobOf_of_worker {n : Nat} {w : Worker ι τ} (hw : s.workers[n]? = some w) :
    s.jobOf n = some w.job := by
  simp [jobOf, hw]

/-- The job of a delivery stays. -/
theorem jobOf_step (h : Steps look key s a s') {n : Nat} {job : ι} (hj : s.jobOf n = some job) :
    s'.jobOf n = some job := by
  cases h with
  | deliver job' =>
    obtain ⟨w, hw, rfl⟩ := Option.map_eq_some_iff.mp hj
    have hlt : n < s.workers.length := (List.getElem?_eq_some_iff.mp hw).1
    simp [jobOf, List.getElem?_append_left hlt, hw]
  | found hw ht => rwa [jobOf_setPc hw]
  | unknown hw ht => rwa [jobOf_setPc hw]
  | duplicate hw hm => rwa [jobOf_setPc hw]
  | claimed hw hm => exact (jobOf_setPc hw n).trans hj
  | published hw => exact (jobOf_setPc hw n).trans hj
  | failed hw => exact (jobOf_setPc hw n).trans hj
  | finished hw hpc => rwa [jobOf_setPc hw]
  | dropped hw => rwa [jobOf_setPc hw]
  | stopped hw => rwa [jobOf_setPc hw]

/-- No job comes from nowhere. -/
theorem job_of_step (h : Steps look key s a s') {w' : Worker ι τ} (hw' : w' ∈ s'.workers) :
    (∃ w ∈ s.workers, w.job = w'.job) ∨ a = .deliver w'.job := by
  have hset : ∀ {n : Nat} {job : ι} {pc pc' : Pc τ}, s.workers[n]? = some ⟨job, pc⟩ →
      w' ∈ s.workers.set n ⟨job, pc'⟩ → ∃ w ∈ s.workers, w.job = w'.job := by
    intro n job pc pc' hw hmem
    rcases List.mem_or_eq_of_mem_set hmem with hold | rfl
    · exact ⟨w', hold, rfl⟩
    · exact ⟨⟨job, pc⟩, List.mem_of_getElem? hw, rfl⟩
  cases h with
  | deliver job =>
    rcases List.mem_append.mp hw' with hold | hnew
    · exact Or.inl ⟨w', hold, rfl⟩
    · cases List.mem_singleton.mp hnew
      exact Or.inr rfl
  | found hw ht => exact Or.inl (hset hw hw')
  | unknown hw ht => exact Or.inl (hset hw hw')
  | duplicate hw hm => exact Or.inl (hset hw hw')
  | claimed hw hm => exact Or.inl (hset hw hw')
  | published hw => exact Or.inl (hset hw hw')
  | failed hw => exact Or.inl (hset hw hw')
  | finished hw hpc => exact Or.inl (hset hw hw')
  | dropped hw => exact Or.inl (hset hw hw')
  | stopped hw => exact Or.inl (hset hw hw')

/-- A marker stays with its creator. -/
theorem markers_step (h : Steps look key s a s') {k : κ} {m : Nat} (hm : s.markers k = some m) :
    s'.markers k = some m := by
  cases h with
  | claimed hw hnone => exact FirstWrite.record_of_some hm _ _
  | _ => exact hm

/-- What was published stays published. -/
theorem published_step (h : Steps look key s a s') {p : Nat × τ} (hp : p ∈ s.published) :
    p ∈ s'.published := by
  cases h with
  | published hw => exact List.mem_append_left _ hp
  | _ => exact hp

end Frame

/-! ## 3. Markers, workers and publications agree -/

/-- Every marker belongs to the job of its creator, a worker that holds a claim has
not started to publish, and who started to publish has the marker. -/
structure Inv (key : ι → κ) (s : State ι κ τ) : Prop where
  marker : ∀ k m, s.markers k = some m → ∃ job, s.jobOf m = some job ∧ key job = k
  claimed : ∀ n job t, s.workers[n]? = some ⟨job, .claimed t⟩ →
    s.markers (key job) = some n ∧ n ∉ s.attempts.map Prod.fst
  attempt : ∀ n ∈ s.attempts.map Prod.fst,
    ∃ job, s.jobOf n = some job ∧ s.markers (key job) = some n
  nodup : (s.attempts.map Prod.fst).Nodup
  published : s.published.Sublist s.attempts

section Inv
variable {look : κ → Option τ} {key : ι → κ} {s s' : State ι κ τ} {a : Action ι}

omit [DecidableEq κ] in
theorem inv_initial : Inv key (initial : State ι κ τ) where
  marker := fun _ _ h => by cases h
  claimed := fun _ _ _ h => by simp [initial] at h
  attempt := fun _ h => by simp [initial] at h
  nodup := List.nodup_nil
  published := List.Sublist.refl _

omit [DecidableEq κ] in
/-- A worker moves on to something other than a claim. -/
theorem inv_setPc (hi : Inv key s) {n : Nat} {job : ι} {pc pc' : Pc τ}
    (hw : s.workers[n]? = some ⟨job, pc⟩) (hpc : ∀ t, pc' ≠ .claimed t) :
    Inv key (s.setPc n job pc') where
  marker := fun k m hm => by
    rw [jobOf_setPc hw]
    exact hi.marker k m hm
  claimed := fun m job' t hm => by
    rw [getElem?_setPc hw] at hm
    split at hm
    · cases hm
      exact absurd rfl (hpc t)
    · exact hi.claimed m job' t hm
  attempt := fun m hm => by
    rw [jobOf_setPc hw]
    exact hi.attempt m hm
  nodup := hi.nodup
  published := hi.published

omit [DecidableEq κ] in
/-- A worker with a claim starts to publish. -/
theorem inv_attempt (hi : Inv key s) {n : Nat} {job : ι} {t : τ} {pc' : Pc τ}
    (hw : s.workers[n]? = some ⟨job, .claimed t⟩) (hpc : ∀ t, pc' ≠ .claimed t)
    {published : List (Nat × τ)} (hp : published.Sublist (s.attempts ++ [(n, t)])) :
    Inv key { s.setPc n job pc' with
      attempts := s.attempts ++ [(n, t)]
      published := published } := by
  obtain ⟨hmark, hnew⟩ := hi.claimed n job t hw
  have hquiet := inv_setPc hi hw hpc
  refine ⟨hquiet.marker, fun m job' u hm => ?_, fun m hm => ?_, ?_, hp⟩
  · obtain ⟨h1, h2⟩ := hquiet.claimed m job' u hm
    have hne : m ≠ n := by
      rintro rfl
      rw [getElem?_setPc hw, if_pos rfl] at hm
      cases hm
      exact hpc u rfl
    refine ⟨h1, ?_⟩
    rw [List.map_append, List.mem_append]
    rintro (h | h)
    · exact h2 h
    · exact hne (by simpa using h)
  · rw [List.map_append, List.mem_append] at hm
    rcases hm with hm | hm
    · exact hquiet.attempt m hm
    · obtain rfl : m = n := by simpa using hm
      exact ⟨job, (jobOf_setPc hw m).trans (jobOf_of_worker hw), hmark⟩
  · rw [List.map_append]
    exact hi.nodup.append (by simp) (by simpa using hnew)

/-- A worker makes the marker of its key. -/
theorem inv_claimed (hi : Inv key s) {n : Nat} {job : ι} {t : τ}
    (hw : s.workers[n]? = some ⟨job, .found t⟩) (hnone : s.markers (key job) = none) :
    Inv key { s.setPc n job (.claimed t) with
      markers := FirstWrite.record s.markers (key job) n } := by
  have hjob : ∀ m, ({ s.setPc n job (.claimed t) with
      markers := FirstWrite.record s.markers (key job) n } : State ι κ τ).jobOf m = s.jobOf m :=
    jobOf_setPc hw
  refine ⟨fun k m hm => ?_, fun m job' u hm => ?_, fun m hm => ?_, hi.nodup, hi.published⟩
  · rw [hjob]
    by_cases hk : k = key job
    · subst hk
      have hn : m = n := by simpa [FirstWrite.record_of_none hnone] using hm.symm
      exact ⟨job, hn ▸ jobOf_of_worker hw, rfl⟩
    · exact hi.marker k m (by simpa [FirstWrite.record_of_ne _ hk] using hm)
  · have hget : (if n = m then some ⟨job, .claimed t⟩ else s.workers[m]?) =
        some (⟨job', .claimed u⟩ : Worker ι τ) := (getElem?_setPc hw m).symm.trans hm
    split at hget
    · next heq =>
      cases hget
      subst heq
      refine ⟨FirstWrite.record_of_none hnone _, fun hin => ?_⟩
      obtain ⟨job', hj, hmark⟩ := hi.attempt n hin
      rw [jobOf_of_worker hw] at hj
      cases hj
      rw [hnone] at hmark
      cases hmark
    · obtain ⟨h1, h2⟩ := hi.claimed m job' u hget
      exact ⟨FirstWrite.record_of_some h1 _ _, h2⟩
  · obtain ⟨job', hj, hmark⟩ := hi.attempt m hm
    exact ⟨job', (hjob m).trans hj, FirstWrite.record_of_some hmark _ _⟩

omit [DecidableEq κ] in
/-- A new delivery. -/
theorem inv_deliver (hi : Inv key s) (job : ι) :
    Inv key { s with workers := s.workers ++ [⟨job, .received⟩] } := by
  have hjob : ∀ {n job'}, s.jobOf n = some job' →
      ({ s with workers := s.workers ++ [⟨job, .received⟩] } : State ι κ τ).jobOf n = some job' := by
    intro n job' hj
    obtain ⟨w, hw, rfl⟩ := Option.map_eq_some_iff.mp hj
    have hlt : n < s.workers.length := (List.getElem?_eq_some_iff.mp hw).1
    simp [jobOf, List.getElem?_append_left hlt, hw]
  refine ⟨fun k m hm => ?_, fun n job' t hm => ?_, fun n hn => ?_, hi.nodup, hi.published⟩
  · obtain ⟨job', hj, hk⟩ := hi.marker k m hm
    exact ⟨job', hjob hj, hk⟩
  · refine hi.claimed n job' t ?_
    rcases Nat.lt_or_ge n s.workers.length with hlt | hge
    · rwa [List.getElem?_append_left hlt] at hm
    · rw [List.getElem?_append_right hge] at hm
      have hmem := List.mem_of_getElem? hm
      simp at hmem
  · obtain ⟨job', hj, hk⟩ := hi.attempt n hn
    exact ⟨job', hjob hj, hk⟩

theorem inv_step (hi : Inv key s) (h : Steps look key s a s') : Inv key s' := by
  cases h with
  | deliver job => exact inv_deliver hi job
  | found hw ht => exact inv_setPc hi hw (by simp)
  | unknown hw ht => exact inv_setPc hi hw (by simp)
  | duplicate hw hm => exact inv_setPc hi hw (by simp)
  | claimed hw hnone => exact inv_claimed hi hw hnone
  | published hw => exact inv_attempt hi hw (by simp) (hi.published.append (List.Sublist.refl _))
  | failed hw =>
    exact inv_attempt hi hw (by simp) (hi.published.trans (List.sublist_append_left _ _))
  | finished hw hpc => exact inv_setPc hi hw (by simp)
  | dropped hw => exact inv_setPc hi hw (by simp)
  | stopped hw => exact inv_setPc hi hw (by simp)

end Inv

section Consequences
variable {key : ι → κ} {s : State ι κ τ}

/-- The publications that were started for a key. -/
def attemptsFor (key : ι → κ) (s : State ι κ τ) (k : κ) : List (Nat × τ) :=
  s.attempts.filter fun p => (s.jobOf p.1).map key = some k

/-- Whoever started to publish for a key is the creator of its marker. -/
theorem marker_of_mem_attemptsFor (hi : Inv key s) {k : κ} {p : Nat × τ}
    (hp : p ∈ attemptsFor key s k) : s.markers k = some p.1 := by
  obtain ⟨hmem, hk⟩ := List.mem_filter.mp hp
  obtain ⟨job, hj, hmark⟩ := hi.attempt p.1 (List.mem_map_of_mem hmem)
  have hkey : key job = k := by simpa [hj] using hk
  exact hkey ▸ hmark

/-- A key is published at most once. -/
theorem length_attemptsFor_le_one (hi : Inv key s) (k : κ) :
    (attemptsFor key s k).length ≤ 1 := by
  have hn : ((attemptsFor key s k).map Prod.fst).Nodup :=
    hi.nodup.sublist (List.filter_sublist.map _)
  have hall : ∀ n ∈ (attemptsFor key s k).map Prod.fst,
      ∀ m ∈ (attemptsFor key s k).map Prod.fst, n = m := by
    intro n hn m hm
    obtain ⟨p, hp, rfl⟩ := List.mem_map.mp hn
    obtain ⟨q, hq, rfl⟩ := List.mem_map.mp hm
    have heq := (marker_of_mem_attemptsFor hi hp).symm.trans (marker_of_mem_attemptsFor hi hq)
    exact Option.some.inj heq
  rw [← List.length_map Prod.fst]
  match h : (attemptsFor key s k).map Prod.fst with
  | [] => exact Nat.zero_le 1
  | [_] => exact Nat.le_refl 1
  | n :: m :: l =>
    rw [h] at hn hall
    exact absurd (hall n (by simp) m (by simp)) (by
      rintro rfl
      simp at hn)

end Consequences

/-! ## 4. Targets come from lookups -/

/-- The target that a worker holds. -/
def Pc.target : Pc τ → Option τ
  | .found t => some t
  | .claimed t => some t
  | _ => none

/-- The targets that workers hold and publish to satisfy `P`. -/
structure Targets (key : ι → κ) (P : κ → τ → Prop) (s : State ι κ τ) : Prop where
  worker : ∀ (n : Nat) (job : ι) (pc : Pc τ) (t : τ), s.workers[n]? = some ⟨job, pc⟩ →
    pc.target = some t → P (key job) t
  attempt : ∀ n t, (n, t) ∈ s.attempts → ∃ job, s.jobOf n = some job ∧ P (key job) t

section Targets
variable {look : κ → Option τ} {key : ι → κ} {P : κ → τ → Prop} {s s' : State ι κ τ} {a : Action ι}

omit [DecidableEq κ] in
theorem targets_initial : Targets key P (initial : State ι κ τ) where
  worker := fun _ _ _ _ h => by simp [initial] at h
  attempt := fun _ _ h => by simp [initial] at h

omit [DecidableEq κ] in
theorem targets_setPc (ht : Targets key P s) {n : Nat} {job : ι} {pc pc' : Pc τ}
    (hw : s.workers[n]? = some ⟨job, pc⟩) (hpc : ∀ t, pc'.target = some t → P (key job) t) :
    Targets key P (s.setPc n job pc') where
  worker := fun m job' pc t hm htarget => by
    rw [getElem?_setPc hw] at hm
    split at hm
    · cases hm
      exact hpc t htarget
    · exact ht.worker m job' pc t hm htarget
  attempt := fun m t hm => by
    rw [jobOf_setPc hw]
    exact ht.attempt m t hm

/-- Lookups with good targets keep all targets good. -/
theorem targets_step (ht : Targets key P s) (hlook : ∀ k t, look k = some t → P k t)
    (h : Steps look key s a s') : Targets key P s' := by
  have hattempts : ∀ {n : Nat} {job : ι} {t : τ} {pc' : Pc τ},
      s.workers[n]? = some ⟨job, .claimed t⟩ → ∀ m u, (m, u) ∈ s.attempts ++ [(n, t)] →
        ∃ job', (s.setPc n job pc').jobOf m = some job' ∧ P (key job') u := by
    intro n job t pc' hw m u hm
    rw [jobOf_setPc hw]
    rcases List.mem_append.mp hm with hm | hm
    · exact ht.attempt m u hm
    · obtain ⟨rfl, rfl⟩ : m = n ∧ u = t := by simpa using hm
      exact ⟨job, jobOf_of_worker hw, ht.worker m job _ u hw rfl⟩
  cases h with
  | deliver job =>
    refine ⟨fun n job' pc t hm htarget => ?_, fun n t hm => ?_⟩
    · rcases Nat.lt_or_ge n s.workers.length with hlt | hge
      · rw [List.getElem?_append_left hlt] at hm
        exact ht.worker n job' pc t hm htarget
      · rw [List.getElem?_append_right hge] at hm
        have hmem := List.mem_of_getElem? hm
        simp only [List.mem_singleton, Worker.mk.injEq] at hmem
        rw [hmem.2] at htarget
        cases htarget
    · obtain ⟨job', hj, hp⟩ := ht.attempt n t hm
      have hdeliver : Steps look key s (.deliver job) _ := .deliver job
      exact ⟨job', jobOf_step hdeliver hj, hp⟩
  | found hw hfound =>
    refine targets_setPc ht hw fun t htarget => ?_
    cases htarget
    exact hlook _ _ hfound
  | unknown hw _ => exact targets_setPc ht hw (by simp [Pc.target])
  | duplicate hw _ => exact targets_setPc ht hw (by simp [Pc.target])
  | @claimed n job t hw _ =>
    have hset : Targets key P (s.setPc n job (.claimed t)) :=
      targets_setPc ht hw fun u htarget => ht.worker n job (.found t) u hw htarget
    exact ⟨hset.worker, hset.attempt⟩
  | published hw =>
    exact ⟨(targets_setPc ht hw (by simp [Pc.target])).worker, hattempts hw⟩
  | failed hw =>
    exact ⟨(targets_setPc ht hw (by simp [Pc.target])).worker, hattempts hw⟩
  | finished hw _ => exact targets_setPc ht hw (by simp [Pc.target])
  | dropped hw => exact targets_setPc ht hw (by simp [Pc.target])
  | stopped hw => exact targets_setPc ht hw (by simp [Pc.target])

/-- Whoever did not find a target: there is none. -/
def NotFound (look : κ → Option τ) (key : ι → κ) (s : State ι κ τ) : Prop :=
  ∀ (n : Nat) (job : ι) (pc : Pc τ), s.workers[n]? = some ⟨job, pc⟩ →
    pc = .unknown ∨ pc = .dropped → look (key job) = none

omit [DecidableEq κ] in
theorem notFound_initial : NotFound look key (initial : State ι κ τ) :=
  fun _ _ _ h => by simp [initial] at h

omit [DecidableEq κ] in
theorem notFound_setPc (hs : NotFound look key s) {n : Nat} {job : ι} {pc pc' : Pc τ}
    (hw : s.workers[n]? = some ⟨job, pc⟩)
    (hpc : pc' = .unknown ∨ pc' = .dropped → look (key job) = none) :
    NotFound look key (s.setPc n job pc') := by
  intro m job' pc'' hm
  rw [getElem?_setPc hw] at hm
  split at hm
  · cases hm
    exact hpc
  · exact hs m job' pc'' hm

theorem notFound_step (hs : NotFound look key s) (h : Steps look key s a s') :
    NotFound look key s' := by
  cases h with
  | deliver job =>
    intro n job' pc hm hpc
    rcases Nat.lt_or_ge n s.workers.length with hlt | hge
    · rw [List.getElem?_append_left hlt] at hm
      exact hs n job' pc hm hpc
    · rw [List.getElem?_append_right hge] at hm
      have hmem := List.mem_of_getElem? hm
      simp only [List.mem_singleton, Worker.mk.injEq] at hmem
      simp [hmem.2] at hpc
  | found hw _ => exact notFound_setPc hs hw (by simp)
  | unknown hw hnone => exact notFound_setPc hs hw fun _ => hnone
  | duplicate hw _ => exact notFound_setPc hs hw (by simp)
  | @claimed n job t hw _ =>
    have hset : NotFound look key (s.setPc n job (.claimed t)) := notFound_setPc hs hw (by simp)
    exact hset
  | @published n job t hw =>
    have hset : NotFound look key (s.setPc n job .published) := notFound_setPc hs hw (by simp)
    exact hset
  | @failed n job t hw =>
    have hset : NotFound look key (s.setPc n job .stopped) := notFound_setPc hs hw (by simp)
    exact hset
  | finished hw _ => exact notFound_setPc hs hw (by simp)
  | dropped hw => exact notFound_setPc hs hw fun _ => hs _ _ _ hw (Or.inl rfl)
  | stopped hw => exact notFound_setPc hs hw (by simp)

end Targets

/-! ## 5. Acknowledged work is published -/

/-- The worker has nothing left to do but to acknowledge, or did. -/
def Pc.Done (pc : Pc τ) : Prop := pc = .duplicate ∨ pc = .published ∨ pc = .acknowledged

/-- A creator of a marker is about to publish or has published, and behind every
worker that is done its key is published. -/
structure Settled (key : ι → κ) (s : State ι κ τ) : Prop where
  marker : ∀ k m, s.markers k = some m →
    (∃ job t, s.workers[m]? = some ⟨job, .claimed t⟩) ∨ ∃ t, (m, t) ∈ s.published
  done : ∀ (n : Nat) (job : ι) (pc : Pc τ), s.workers[n]? = some ⟨job, pc⟩ → pc.Done →
    ∃ m t, s.markers (key job) = some m ∧ (m, t) ∈ s.published

/-- A step that is not unsafe: no publication fails, no worker stops while it holds
a claim, and nobody tries a claim while another worker holds it. -/
def Safe (key : ι → κ) (s : State ι κ τ) : Action ι → Prop
  | .publish _ ok => ok = true
  | .stop n => ∀ job t, s.workers[n]? ≠ some ⟨job, .claimed t⟩
  | .claim n => ∀ job t m job' t', s.workers[n]? = some ⟨job, .found t⟩ →
      s.markers (key job) = some m → s.workers[m]? ≠ some ⟨job', .claimed t'⟩
  | _ => True

section Settled
variable {look : κ → Option τ} {key : ι → κ} {s s' : State ι κ τ} {a : Action ι}

omit [DecidableEq κ] in
theorem settled_initial : Settled key (initial : State ι κ τ) where
  marker := fun _ _ h => by cases h
  done := fun _ _ _ h => by simp [initial] at h

omit [DecidableEq κ] in
/-- A worker without a claim moves on. -/
theorem settled_setPc (hs : Settled key s) {n : Nat} {job : ι} {pc pc' : Pc τ}
    (hw : s.workers[n]? = some ⟨job, pc⟩) (hpc : ∀ t, pc ≠ .claimed t)
    (hdone : pc'.Done → ∃ m t, s.markers (key job) = some m ∧ (m, t) ∈ s.published) :
    Settled key (s.setPc n job pc') where
  marker := fun k m hm => by
    rcases hs.marker k m hm with ⟨job', t, hclaim⟩ | hp
    · refine Or.inl ⟨job', t, ?_⟩
      rw [getElem?_setPc hw, if_neg]
      · exact hclaim
      · rintro rfl
        rw [hw] at hclaim
        cases hclaim
        exact hpc t rfl
    · exact Or.inr hp
  done := fun m job' pc'' hm hd => by
    rw [getElem?_setPc hw] at hm
    split at hm
    · cases hm
      exact hdone hd
    · exact hs.done m job' pc'' hm hd

theorem settled_step (hi : Inv key s) (hs : Settled key s) (hsafe : Safe key s a)
    (h : Steps look key s a s') : Settled key s' := by
  cases h with
  | deliver job =>
    refine ⟨fun k m hm => ?_, fun n job' pc hm hd => ?_⟩
    · rcases hs.marker k m hm with ⟨job', t, hclaim⟩ | hp
      · have hlt : m < s.workers.length := (List.getElem?_eq_some_iff.mp hclaim).1
        exact Or.inl ⟨job', t, by rw [List.getElem?_append_left hlt, hclaim]⟩
      · exact Or.inr hp
    · rcases Nat.lt_or_ge n s.workers.length with hlt | hge
      · rw [List.getElem?_append_left hlt] at hm
        exact hs.done n job' pc hm hd
      · rw [List.getElem?_append_right hge] at hm
        have hmem := List.mem_of_getElem? hm
        simp only [List.mem_singleton, Worker.mk.injEq] at hmem
        simp [Pc.Done, hmem.2] at hd
  | found hw ht => exact settled_setPc hs hw (by simp) (by simp [Pc.Done])
  | unknown hw ht => exact settled_setPc hs hw (by simp) (by simp [Pc.Done])
  | @duplicate n m job t hw hm =>
    refine settled_setPc hs hw (by simp) fun _ => ?_
    -- nobody holds the claim, so the creator of the marker has published
    rcases hs.marker _ _ hm with ⟨job', t', hclaim⟩ | ⟨t', hp⟩
    · exact absurd hclaim (hsafe job t m job' t' hw hm)
    · exact ⟨m, t', hm, hp⟩
  | @claimed n job t hw hnone =>
    have hmono : ∀ {k m}, s.markers k = some m →
        FirstWrite.record s.markers (key job) n k = some m :=
      fun hm => FirstWrite.record_of_some hm _ _
    have hquiet : Settled key (s.setPc n job (.claimed t)) :=
      settled_setPc hs hw (by simp) (by simp [Pc.Done])
    refine ⟨fun k m hm => ?_, fun m job' pc hm hd => ?_⟩
    · by_cases hk : k = key job
      · subst hk
        have hn : m = n := by simpa [FirstWrite.record_of_none hnone] using hm.symm
        subst hn
        exact Or.inl ⟨job, t, (getElem?_setPc hw m).trans (if_pos rfl)⟩
      · exact hquiet.marker k m (by simpa [setPc, FirstWrite.record_of_ne _ hk] using hm)
    · obtain ⟨m', t', hmark, hp⟩ := hquiet.done m job' pc hm hd
      exact ⟨m', t', hmono hmark, hp⟩
  | @published n job t hw =>
    obtain ⟨hmark, -⟩ := hi.claimed n job t hw
    refine ⟨fun k m hm => ?_, fun m job' pc hm hd => ?_⟩
    · by_cases hmn : m = n
      · subst hmn
        exact Or.inr ⟨t, by simp⟩
      · rcases hs.marker k m hm with ⟨job', t', hclaim⟩ | ⟨t', hp⟩
        · exact Or.inl ⟨job', t', ((getElem?_setPc hw m).trans (if_neg (Ne.symm hmn))).trans hclaim⟩
        · exact Or.inr ⟨t', List.mem_append_left _ hp⟩
    · have hget : (if n = m then some ⟨job, .published⟩ else s.workers[m]?) =
          some (⟨job', pc⟩ : Worker ι τ) := (getElem?_setPc hw m).symm.trans hm
      split at hget
      · cases hget
        exact ⟨n, t, hmark, by simp⟩
      · obtain ⟨m', t', hmark', hp⟩ := hs.done m job' pc hget hd
        exact ⟨m', t', hmark', List.mem_append_left _ hp⟩
  | failed hw => cases hsafe
  | finished hw hpc =>
    have hdone := hs.done _ _ _ hw (by
      rcases hpc with rfl | rfl
      · exact Or.inr (Or.inl rfl)
      · exact Or.inl rfl)
    exact settled_setPc hs hw (by rcases hpc with rfl | rfl <;> simp) fun _ => hdone
  | dropped hw => exact settled_setPc hs hw (by simp) (by simp [Pc.Done])
  | stopped hw =>
    refine settled_setPc hs hw ?_ (by simp [Pc.Done])
    rintro t rfl
    exact hsafe _ t hw

omit [DecidableEq κ] in
/-- Acknowledged work is published. -/
theorem Settled.published_of_acknowledged (hs : Settled key s) {n : Nat} {job : ι}
    (hw : s.workers[n]? = some ⟨job, .acknowledged⟩) :
    ∃ m t, s.markers (key job) = some m ∧ (m, t) ∈ s.published :=
  hs.done n job _ hw (Or.inr (Or.inr rfl))

/-! ## 6. One unsafe step can lose a job -/

/-- Some delivery with a target is acknowledged, and its key was never published. -/
def Lost (look : κ → Option τ) (key : ι → κ) (s : State ι κ τ) : Prop :=
  ∃ (n : Nat) (job : ι), s.workers[n]? = some ⟨job, .acknowledged⟩ ∧ (look (key job)).isSome ∧
    ∀ p ∈ s.published, (s.jobOf p.1).map key ≠ some (key job)

/-- A new delivery of a job whose marker exists ends acknowledged without
publishing. -/
theorem exec_redeliver {job : ι} {t : τ} {m : Nat} (ht : look (key job) = some t)
    (hm : s.markers (key job) = some m) :
    Transition.exec (step look key) s
        [.deliver job, .lookup s.workers.length, .claim s.workers.length,
          .finish s.workers.length] =
      some { s with workers := s.workers ++ [⟨job, .acknowledged⟩] } := by
  simp [Transition.exec, step, setPc, ht, hm]

/-- While the creator of a marker has not published, its job can still be lost. -/
theorem lost_of_unpublished (hi : Inv key s) {job : ι} {t : τ} {m : Nat}
    (ht : look (key job) = some t) (hm : s.markers (key job) = some m)
    (hnot : m ∉ s.published.map Prod.fst) :
    ∃ as s', Transition.exec (step look key) s as = some s' ∧ Lost look key s' := by
  refine ⟨_, _, exec_redeliver ht hm, s.workers.length, job, by simp, by simp [ht], ?_⟩
  intro p hp hkey
  have hattempt : p.1 ∈ s.attempts.map Prod.fst := List.mem_map_of_mem (hi.published.subset hp)
  obtain ⟨job', hj, hmark⟩ := hi.attempt p.1 hattempt
  have hdeliver : Steps look key s (.deliver job) _ := .deliver job
  have hj' := jobOf_step hdeliver hj
  have hsame : key job' = key job := by
    have hlt : p.1 < s.workers.length := by
      obtain ⟨w, hw, -⟩ := Option.map_eq_some_iff.mp hj
      exact (List.getElem?_eq_some_iff.mp hw).1
    rw [jobOf, List.getElem?_append_left hlt] at hkey
    rw [jobOf] at hj
    rw [hj] at hkey
    exact Option.some.inj hkey
  rw [hsame, hm] at hmark
  cases hmark
  exact hnot (List.mem_map_of_mem hp)

/-- An unsafe step can be continued to a loss. -/
theorem lost_of_unsafe (hi : Inv key s) (ht : Targets key (fun k t => look k = some t) s)
    (hstep : step look key s a = some s') (hbad : ¬ Safe key s a) :
    ∃ as s'', Transition.exec (step look key) s' as = some s'' ∧ Lost look key s'' := by
  have h := steps_of_step hstep
  have hi' := inv_step hi h
  -- the creator that holds the claim has not published
  have hnot : ∀ {n : Nat} {job : ι} {t : τ}, s.workers[n]? = some ⟨job, .claimed t⟩ →
      n ∉ s.published.map Prod.fst := fun hw hn =>
    (hi.claimed _ _ _ hw).2 ((hi.published.map Prod.fst).subset hn)
  cases h with
  | deliver job => exact absurd trivial hbad
  | found hw hlook => exact absurd trivial hbad
  | unknown hw hlook => exact absurd trivial hbad
  | @duplicate n m job t hw hm =>
    have hclaim : m ∉ s.published.map Prod.fst := by
      refine fun hp => hbad fun job' t' m' job'' t'' hw' hm' hclaimed => ?_
      rw [hw] at hw'
      cases hw'
      rw [hm] at hm'
      cases hm'
      exact hnot hclaimed hp
    exact lost_of_unpublished hi' (ht.worker n job _ t hw rfl) hm hclaim
  | @claimed n job t hw hnone =>
    refine absurd (fun job' t' m job'' t'' hw' hm => ?_) hbad
    rw [hw] at hw'
    cases hw'
    rw [hnone] at hm
    cases hm
  | published hw => exact absurd rfl hbad
  | @failed n job t hw =>
    exact lost_of_unpublished hi' (ht.worker n job _ t hw rfl) (hi.claimed n job t hw).1 (hnot hw)
  | finished hw hpc => exact absurd trivial hbad
  | dropped hw => exact absurd trivial hbad
  | @stopped n job pc hw =>
    have hclaim : ∃ t, pc = .claimed t := by
      by_contra hno
      refine hbad fun job' t hw' => hno ⟨t, ?_⟩
      rw [hw] at hw'
      cases hw'
      rfl
    obtain ⟨t, rfl⟩ := hclaim
    exact lost_of_unpublished hi' (ht.worker n job _ t hw rfl) (hi.claimed n job t hw).1 (hnot hw)

end Settled

/-! ## 7. Keys that can still be published -/

/-- The creator of the marker has not published, and does not hold its claim. -/
def Blocked (s : State ι κ τ) (k : κ) : Prop :=
  ∃ n, s.markers k = some n ∧ (∀ job t, s.workers[n]? ≠ some ⟨job, .claimed t⟩) ∧
    ∀ t, (n, t) ∉ s.published

/-- No publication fails, and no worker stops while it holds a claim. -/
def Careful (s : State ι κ τ) : Action ι → Prop
  | .publish _ ok => ok = true
  | .stop n => ∀ job t, s.workers[n]? ≠ some ⟨job, .claimed t⟩
  | _ => True

section Blocked
variable {look : κ → Option τ} {key : ι → κ} {s s' : State ι κ τ} {a : Action ι}

omit [DecidableEq κ] in
/-- Behind a marker there is a claim or a publication, unless the key is blocked. -/
theorem claimed_or_published {k : κ} {n : Nat} (hm : s.markers k = some n) (hb : ¬ Blocked s k) :
    (∃ job t, s.workers[n]? = some ⟨job, .claimed t⟩) ∨ ∃ t, (n, t) ∈ s.published := by
  by_contra hno
  rw [not_or] at hno
  exact hb ⟨n, hm, fun job t hw => hno.1 ⟨job, t, hw⟩, fun t hp => hno.2 ⟨t, hp⟩⟩

omit [DecidableEq κ] in
/-- No publication has gone out for a blocked key. -/
theorem Blocked.not_published (hi : Inv key s) {n : Nat} {t : τ} {job : ι}
    (hb : Blocked s (key job)) (hj : s.jobOf n = some job) : (n, t) ∉ s.published := by
  intro hp
  obtain ⟨m, hm, -, hnone⟩ := hb
  obtain ⟨job', hj', hmark⟩ := hi.attempt n (List.mem_map_of_mem (hi.published.subset hp))
  rw [hj] at hj'
  cases hj'
  rw [hm] at hmark
  cases hmark
  exact hnone t hp

omit [DecidableEq κ] in
/-- A worker moves on to something other than a claim. -/
theorem Blocked.setPc {k : κ} (hb : Blocked s k) {n : Nat} {job : ι} {pc pc' : Pc τ}
    (hw : s.workers[n]? = some ⟨job, pc⟩) (hpc : ∀ t, pc' ≠ .claimed t) :
    Blocked (s.setPc n job pc') k := by
  obtain ⟨m, hm, hclaimed, hp⟩ := hb
  refine ⟨m, hm, fun job' t hw' => ?_, hp⟩
  rw [getElem?_setPc hw] at hw'
  split at hw'
  · cases hw'
    exact hpc t rfl
  · exact hclaimed job' t hw'

omit [DecidableEq κ] in
/-- A worker without a claim moves on. -/
theorem blocked_of_setPc {k : κ} {n : Nat} {job : ι} {pc pc' : Pc τ}
    (hb : Blocked (s.setPc n job pc') k) (hw : s.workers[n]? = some ⟨job, pc⟩)
    (hpc : ∀ t, pc ≠ .claimed t) : Blocked s k := by
  obtain ⟨m, hm, hclaimed, hp⟩ := hb
  refine ⟨m, hm, fun job' t hw' => hclaimed job' t ?_, hp⟩
  rw [getElem?_setPc hw, if_neg, hw']
  rintro rfl
  rw [hw] at hw'
  cases hw'
  exact hpc t rfl

omit [DecidableEq κ] in
theorem blocked_deliver {k : κ} (hi : Inv key s) (job : ι) :
    Blocked { s with workers := s.workers ++ [⟨job, .received⟩] } k ↔ Blocked s k := by
  refine exists_congr fun m => and_congr_right fun hm => and_congr_left fun _ => forall_congr'
    fun job' => forall_congr' fun t => not_congr ?_
  obtain ⟨job'', hj, -⟩ := hi.marker k m hm
  obtain ⟨w, hw, -⟩ := Option.map_eq_some_iff.mp hj
  rw [List.getElem?_append_left (List.getElem?_eq_some_iff.mp hw).1]

/-- A blocked key stays blocked. -/
theorem blocked_step (hi : Inv key s) (h : Steps look key s a s') {k : κ} (hb : Blocked s k) :
    Blocked s' k := by
  cases h with
  | deliver job => exact (blocked_deliver hi job).mpr hb
  | found hw ht => exact hb.setPc hw (by simp)
  | unknown hw ht => exact hb.setPc hw (by simp)
  | duplicate hw hm => exact hb.setPc hw (by simp)
  | @claimed n job t hw hnone =>
    obtain ⟨m, hm, hclaimed, hp⟩ := hb
    refine ⟨m, FirstWrite.record_of_some hm _ _, fun job' t' hw' => ?_, hp⟩
    have hne : n ≠ m := by
      -- the worker has made no marker yet
      rintro rfl
      obtain ⟨job'', hj, hk⟩ := hi.marker k n hm
      rw [jobOf_of_worker hw] at hj
      cases hj
      rw [hk, hm] at hnone
      cases hnone
    exact hclaimed job' t' (((getElem?_setPc hw m).trans (if_neg hne)).symm.trans hw')
  | @published n job t hw =>
    have hset : Blocked (s.setPc n job .published) k := hb.setPc hw (by simp)
    obtain ⟨m, hm, hclaimed, hp⟩ := hset
    refine ⟨m, hm, hclaimed, fun t' hp' => ?_⟩
    rcases List.mem_append.mp hp' with hold | hnew
    · exact hp t' hold
    · cases List.mem_singleton.mp hnew
      obtain ⟨m', hm', hclaimed', -⟩ := hb
      have hsame : some m' = some n := hm'.symm.trans hm
      cases hsame
      exact hclaimed' job t hw
  | failed hw => exact hb.setPc hw (by simp)
  | finished hw hpc => exact hb.setPc hw (by simp)
  | dropped hw => exact hb.setPc hw (by simp)
  | stopped hw => exact hb.setPc hw (by simp)

/-- A careful step blocks no key. -/
theorem blocked_of_step (hi : Inv key s) (hc : Careful s a) (h : Steps look key s a s') {k : κ}
    (hb : Blocked s' k) : Blocked s k := by
  cases h with
  | deliver job => exact (blocked_deliver hi job).mp hb
  | found hw ht => exact blocked_of_setPc hb hw (by simp)
  | unknown hw ht => exact blocked_of_setPc hb hw (by simp)
  | duplicate hw hm => exact blocked_of_setPc hb hw (by simp)
  | @claimed n job t hw hnone =>
    obtain ⟨m, hm, hclaimed, hp⟩ := hb
    have hget : ∀ m, (s.setPc n job (.claimed t)).workers[m]? =
        if n = m then some ⟨job, .claimed t⟩ else s.workers[m]? := getElem?_setPc hw
    by_cases hk : k = key job
    · subst hk
      have hn : m = n := by simpa [FirstWrite.record_of_none hnone] using hm.symm
      subst hn
      exact absurd ((hget m).trans (if_pos rfl)) (hclaimed job t)
    · refine ⟨m, by simpa [setPc, FirstWrite.record_of_ne _ hk] using hm, fun job' t' hw' => ?_, hp⟩
      refine hclaimed job' t' ((hget m).trans ?_)
      rw [if_neg, hw']
      rintro rfl
      rw [hw] at hw'
      cases hw'
  | @published n job t hw =>
    obtain ⟨m, hm, hclaimed, hp⟩ := hb
    refine ⟨m, hm, fun job' t' hw' => ?_, fun t' hp' => hp t' (List.mem_append_left _ hp')⟩
    by_cases hn : n = m
    · subst hn
      exact hp t (List.mem_append_right _ List.mem_cons_self)
    · exact hclaimed job' t' (((getElem?_setPc hw m).trans (if_neg hn)).trans hw')
  | failed hw => cases hc
  | finished hw hpc =>
    refine blocked_of_setPc hb hw fun t heq => ?_
    subst heq
    rcases hpc with hpc | hpc <;> cases hpc
  | dropped hw => exact blocked_of_setPc hb hw (by simp)
  | stopped hw =>
    refine blocked_of_setPc hb hw fun t heq => ?_
    subst heq
    exact hc _ t hw

/-- A new delivery of a job whose key has no marker ends published. -/
theorem exec_publish {job : ι} {t : τ} (ht : look (key job) = some t)
    (hm : s.markers (key job) = none) :
    Transition.exec (step look key) s
        [.deliver job, .lookup s.workers.length, .claim s.workers.length,
          .publish s.workers.length true] =
      some
        { workers := s.workers ++ [⟨job, .published⟩]
          markers := FirstWrite.record s.markers (key job) s.workers.length
          attempts := s.attempts ++ [(s.workers.length, t)]
          published := s.published ++ [(s.workers.length, t)] } := by
  simp [Transition.exec, step, setPc, ht, hm]

/-- A worker with a claim publishes. -/
theorem exec_publish_claim {n : Nat} {job : ι} {t : τ}
    (hw : s.workers[n]? = some ⟨job, .claimed t⟩) :
    Transition.exec (step look key) s [.publish n true] =
      some { s.setPc n job .published with
        attempts := s.attempts ++ [(n, t)]
        published := s.published ++ [(n, t)] } := by
  simp [Transition.exec, step, hw]

end Blocked

end ClaimOnce
