import TalentMatch.Lib.Mode
import TalentMatch.Aggregation

/-!
# The final decision of a CV

`max(set(decisions), key=decisions.count)` in `_aggregate_cv_scoring`. The set is
iterated in an order that differs from one process to the next.

Results:
1. `mostCommon_eq_firstMax`: the decision is the first most frequent one of the
   order.
2. `final_decision_reproducible_iff`: every order gives the same decision exactly
   when the outputs that approve and those that reject are not equally many.
-/

namespace TalentMatch

variable {φ : Type}

/-- `finalDecision` of what `_aggregate_cv_scoring` returns, if it returns. -/
def finalDecisionOf (result : Except AggregateError (Option (CvAggregate φ))) :
    Except AggregateError (Option String) :=
  result.map fun aggregated => aggregated.bind CvAggregate.finalDecision

section Decisions
variable (num : Numerics φ) (str : Json φ → String)

/-- The signals of the outputs, when every output can be read and the variance of
their scores has a value. -/
def readSignals (outputs : List (Fields φ)) : Option (List (CvSignal φ)) :=
  match outputs.mapM (extractCvSignal num str) with
  | .error _ => none
  | .ok signals =>
    let parsed := signals.filterMap id
    match scoreVariance num (parsed.filterMap CvSignal.score) with
    | .error _ => none
    | .ok _ => some parsed

/-- As many outputs approve as reject, and there are some. -/
def TiedDecisions (outputs : List (Fields φ)) : Prop :=
  ∃ signals, readSignals num str outputs = some signals ∧ signals ≠ [] ∧
    (signals.map CvSignal.decision).count "Approve" = (signals.map CvSignal.decision).count "Reject"

end Decisions

/-- An order that goes through the values of a given list in a given order. -/
def SetOrder.through (values order : List String) (h : order.Perm values.dedup) : SetOrder where
  iterate vs := if vs = values then order else vs.dedup
  perm vs := by
    split
    · next heq =>
      rw [heq]
      exact h
    · exact List.Perm.refl _

namespace DecisionLemmas

variable {num : Numerics φ} {str : Json φ → String}

/-- The scan of `max` is the one of the library. -/
theorem mostCommon_eq_firstMax (order decisions : List String) :
    mostCommon order decisions = Mode.firstMax (fun d => decisions.count d) order := by
  -- the step of `max` keeps the best key so far
  have hkeep : ∀ f : Option String → String → Option String,
      (∀ best d, f (some best) d =
        if decisions.count best < decisions.count d then some d else some best) →
      ∀ (order : List String) (best : String), order.foldl f (some best) =
        some (Mode.keepMax (fun d => decisions.count d) best order) := by
    intro f hf order
    induction order with
    | nil => exact fun _ => rfl
    | cons d order ih =>
      intro best
      simp only [List.foldl_cons, hf, Mode.keepMax]
      split
      · exact ih d
      · exact ih best
  cases order with
  | nil => rfl
  | cons d order => exact hkeep _ (fun _ _ => rfl) order d

/-- A signal either approves or rejects. -/
theorem decision_of_extract {output : Fields φ} {signal : CvSignal φ}
    (h : extractCvSignal num str output = .ok (some signal)) :
    signal.decision = "Approve" ∨ signal.decision = "Reject" := by
  simp only [extractCvSignal] at h
  split at h
  · cases h
  · split at h
    · cases h
    · split at h
      · cases h
      · cases h
        simp only
        split
        · exact .inl rfl
        · split
          · exact .inr rfl
          · split
            · exact .inl rfl
            · exact .inr rfl

theorem decision_of_readSignals {outputs : List (Fields φ)} {signals : List (CvSignal φ)}
    (h : readSignals num str outputs = some signals) :
    ∀ d ∈ signals.map CvSignal.decision, d = "Approve" ∨ d = "Reject" := by
  unfold readSignals at h
  split at h
  · cases h
  · next all hall =>
    simp only at h
    split at h
    · cases h
    · cases h
      intro d hd
      obtain ⟨signal, hs, rfl⟩ := List.mem_map.mp hd
      obtain ⟨output, -, he⟩ := (mem_parsed_iff hall).mp hs
      exact decision_of_extract he

/-- Either the order plays no role, or the decision is the first most frequent
one. -/
theorem finalDecisionOf_cases (num : Numerics φ) (str : Json φ → String) (outputs : List (Fields φ))
    (sourceArtifacts : List SourceArtifact) :
    ((readSignals num str outputs = none ∨ readSignals num str outputs = some []) ∧
        ∃ r, ∀ order, finalDecisionOf
          (aggregateCvScoring num str order outputs sourceArtifacts) = r) ∨
      ∃ signals, readSignals num str outputs = some signals ∧ signals ≠ [] ∧
        ∀ order, finalDecisionOf (aggregateCvScoring num str order outputs sourceArtifacts) =
          .ok (mostCommon (order.iterate (signals.map CvSignal.decision))
            (signals.map CvSignal.decision)) := by
  cases hall : outputs.mapM (extractCvSignal num str) with
  | error e =>
    refine .inl ⟨.inl (by simp only [readSignals, hall]), .error e, fun order => ?_⟩
    rw [aggregateCvScoring_of_error sourceArtifacts hall]
    rfl
  | ok all =>
    cases hvariance : scoreVariance num ((all.filterMap id).filterMap CvSignal.score) with
    | error e =>
      have hparsed : (all.filterMap id).isEmpty = false := by
        cases hp : all.filterMap id with
        | nil =>
          rw [hp] at hvariance
          cases hvariance
        | cons signal signals => rfl
      refine .inl ⟨.inl (by simp only [readSignals, hall, hvariance]), .error e, fun order => ?_⟩
      rw [aggregateCvScoring_of_ok sourceArtifacts hall, hparsed, aggregateSignals, hvariance]
      rfl
    | ok variance =>
      have hread : readSignals num str outputs = some (all.filterMap id) := by
        simp only [readSignals, hall, hvariance]
      cases hp : all.filterMap id with
      | nil =>
        rw [hp] at hread
        refine .inl ⟨.inr hread, .ok none, fun order => ?_⟩
        rw [aggregateCvScoring_of_ok sourceArtifacts hall, hp]
        rfl
      | cons signal signals =>
        rw [hp] at hread hvariance
        refine .inr ⟨_, hread, List.cons_ne_nil _ _, fun order => ?_⟩
        rw [aggregateCvScoring_of_ok sourceArtifacts hall, hp, aggregateSignals, hvariance]
        rfl

/-- Among values of two kinds, no two distinct ones are the most frequent exactly
when the kinds are not equally frequent. -/
theorem unique_max_iff {decisions : List String}
    (h : ∀ d ∈ decisions, d = "Approve" ∨ d = "Reject") (hne : decisions ≠ []) :
    (∀ a ∈ decisions.dedup, ∀ b ∈ decisions.dedup,
        (∀ x ∈ decisions.dedup, decisions.count x ≤ decisions.count a) →
        (∀ x ∈ decisions.dedup, decisions.count x ≤ decisions.count b) → a = b) ↔
      decisions.count "Approve" ≠ decisions.count "Reject" := by
  simp only [List.mem_dedup]
  constructor
  · intro hunique hcount
    -- equally many are at least one of each
    obtain ⟨d, hd⟩ := List.exists_mem_of_ne_nil decisions hne
    have hpos : 0 < decisions.count d := List.count_pos_iff.mpr hd
    have hboth : 0 < decisions.count "Approve" ∧ 0 < decisions.count "Reject" := by
      rcases h d hd with rfl | rfl
      · exact ⟨hpos, hcount ▸ hpos⟩
      · exact ⟨hcount ▸ hpos, hpos⟩
    have hmax : ∀ x ∈ decisions, decisions.count x = decisions.count "Approve" := by
      intro x hx
      rcases h x hx with rfl | rfl
      · rfl
      · exact hcount.symm
    have heq := hunique "Approve" (List.count_pos_iff.mp hboth.1) "Reject"
      (List.count_pos_iff.mp hboth.2) (fun x hx => (hmax x hx).le)
      (fun x hx => hcount ▸ (hmax x hx).le)
    exact absurd heq (by decide)
  · intro hcount a ha b hb hmax hmax'
    have hle := hmax b hb
    have hle' := hmax' a ha
    rcases h a ha with rfl | rfl
    · rcases h b hb with rfl | rfl
      · rfl
      · exact absurd (Nat.le_antisymm hle' hle) hcount
    · rcases h b hb with rfl | rfl
      · exact absurd (Nat.le_antisymm hle hle') hcount
      · rfl

end DecisionLemmas

open DecisionLemmas

/-- Every iteration order of the set gives the same final decision exactly when the
outputs that approve and those that reject are not equally many. -/
theorem final_decision_reproducible_iff (num : Numerics φ) (str : Json φ → String)
    (outputs : List (Fields φ)) (sourceArtifacts : List SourceArtifact) :
    (∀ order order' : SetOrder,
        finalDecisionOf (aggregateCvScoring num str order outputs sourceArtifacts) =
          finalDecisionOf (aggregateCvScoring num str order' outputs sourceArtifacts)) ↔
      ¬ TiedDecisions num str outputs := by
  rcases finalDecisionOf_cases num str outputs sourceArtifacts with
    ⟨hread, r, hr⟩ | ⟨signals, hread, hne, hr⟩
  · constructor
    · rintro - ⟨signals, hsome, hne, -⟩
      rcases hread with hread | hread
      · rw [hread] at hsome
        cases hsome
      · rw [hread] at hsome
        cases hsome
        exact hne rfl
    · intro _ order order'
      rw [hr, hr]
  · have hkinds := decision_of_readSignals hread
    have hdecisions : signals.map CvSignal.decision ≠ [] := by simpa using hne
    have htied : TiedDecisions num str outputs ↔
        (signals.map CvSignal.decision).count "Approve" =
          (signals.map CvSignal.decision).count "Reject" := by
      constructor
      · rintro ⟨signals', hread', -, hcount⟩
        rw [hread] at hread'
        cases hread'
        exact hcount
      · intro hcount
        exact ⟨signals, hread, hne, hcount⟩
    rw [htied]
    refine Iff.trans ?_ (unique_max_iff hkinds hdecisions)
    rw [← Mode.firstMax_independent_iff]
    constructor
    · intro h order order' hp hp'
      have heq := h (SetOrder.through (signals.map CvSignal.decision) order hp)
        (SetOrder.through (signals.map CvSignal.decision) order' hp')
      rw [hr, hr, mostCommon_eq_firstMax, mostCommon_eq_firstMax] at heq
      simpa [SetOrder.through] using heq
    · intro h order order'
      rw [hr, hr, mostCommon_eq_firstMax, mostCommon_eq_firstMax]
      exact congrArg Except.ok (h _ _ (order.perm _) (order'.perm _))

namespace Sample

/-- One output approves, the other rejects. -/
def tiedOutputs : List (Fields ℚ) :=
  [[("decision", .str "approve")], [("decision", .str "reject")]]

/-- The same sets gone through from the other end. -/
def reversedSetOrder : SetOrder where
  iterate values := values.dedup.reverse
  perm values := List.reverse_perm values.dedup

end Sample

/-- The same outputs approve in one process and reject in another. -/
theorem tied_decision_varies :
    finalDecisionOf (aggregateCvScoring Sample.numerics Sample.str Sample.setOrder
        Sample.tiedOutputs []) = .ok (some "Approve") ∧
      finalDecisionOf (aggregateCvScoring Sample.numerics Sample.str Sample.reversedSetOrder
        Sample.tiedOutputs []) = .ok (some "Reject") :=
  ⟨rfl, rfl⟩

end TalentMatch
