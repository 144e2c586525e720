import TalentMatch.Malformed

/-!
# The outcome of an application

A block of the result document says what came of an application: an aggregate of its
runs, or an error with the message of one that failed. The two are found by different
scans of the runs, and there are runs that neither of them takes notice of.

Results:
1. `isSome_aggregated_iff`: a CV has an aggregate when one of its runs succeeded with
   an output that says something.
2. `isSome_error_iff`: it has an error when one of its runs failed with a message.
3. `explained_iff`: every block of a document has one of the two exactly when every
   application has a run of one of these kinds.
-/

namespace TalentMatch

open MustHavesLemmas

variable {φ : Type}

/-! ## 1. Runs that are taken notice of -/

section Accounted
variable (num : Numerics φ) (str : Json φ → String) (readObject : String → Option (Fields φ))

/-- No score, no must-haves, no decision and no status. -/
def SaysNothing (output : Fields φ) : Prop :=
  rawScore output = .null ∧ (mustHaves num output).truthy num.isZero = false ∧
    decisionRaw num str output = "" ∧ textOf num str (valueAt output "status") = ""

/-- The run succeeded and its output was read and says something, or it ended in
another way and left a message. -/
def Accounted (result : RunResult) : Prop :=
  (result.status = "Succeeded" ∧
      ∃ output, readOutputArtifact readObject result.artifactList = some output ∧
        ¬ SaysNothing num str output) ∨
    (result.status ≠ "Succeeded" ∧ result.errorMessage.getD "" ≠ "")

end Accounted

namespace ExplainedLemmas

variable {num : Numerics φ} {str : Json φ → String} {order : SetOrder}
  {readObject : String → Option (Fields φ)}

/-- Nothing is recognised where there is no score, before it is replaced, and nothing
else. -/
theorem isBlank_effective_iff {score must : Json φ} {decision status : String} :
    isBlank num (effectiveScore num score status) must decision status = true ↔
      score = .null ∧ must.truthy num.isZero = false ∧ decision = "" ∧ status = "" := by
  by_cases hstatus : status = ""
  · -- without a status the score is not replaced
    have hscore : effectiveScore num score "" = score := by
      cases score <;> rfl
    rw [hstatus, hscore]
    cases score <;> simp [isBlank]
  · simp [isBlank, hstatus]

/-- An output that is read gives no signal when it says nothing. -/
theorem extractCvSignal_eq_none_iff {output : Fields φ} {signal : Option (CvSignal φ)}
    (h : extractCvSignal num str output = .ok signal) :
    signal = none ↔ SaysNothing num str output := by
  obtain ⟨met, hmet⟩ : ∃ met,
      mustAllMet num (mustHaves num output) (decisionRaw num str output) = .ok met := by
    cases hmet : mustAllMet num (mustHaves num output) (decisionRaw num str output) with
    | ok met => exact ⟨met, rfl⟩
    | error e =>
      simp only [extractCvSignal, hmet] at h
      cases h
  rw [extractCvSignal_of_met hmet] at h
  split at h
  · next htrue =>
    cases h
    exact ⟨fun _ => isBlank_effective_iff.mp htrue, fun _ => rfl⟩
  · next hfalse =>
    refine ⟨fun hnone => ?_, fun hnothing => absurd (isBlank_effective_iff.mpr hnothing) hfalse⟩
    rw [hnone] at h
    cases hread : readScore num (effectiveScore num (rawScore output)
        (textOf num str (valueAt output "status"))) with
    | error e =>
      rw [hread] at h
      cases h
    | ok score =>
      rw [hread] at h
      cases h

theorem isSome_aggregateCvScoring_iff {outputs : List (Fields φ)}
    {sourceArtifacts : List SourceArtifact} {aggregated : Option (CvAggregate φ)}
    (h : aggregateCvScoring num str order outputs sourceArtifacts = .ok aggregated) :
    aggregated.isSome ↔ ∃ output ∈ outputs, ¬ SaysNothing num str output := by
  obtain ⟨signals, hm, hcases⟩ := aggregateCvScoring_cases h
  have hparsed : signals.filterMap id ≠ [] ↔ ∃ output ∈ outputs, ¬ SaysNothing num str output := by
    constructor
    · intro hne
      obtain ⟨signal, hs⟩ := List.exists_mem_of_ne_nil _ hne
      obtain ⟨output, ho, he⟩ := (mem_parsed_iff hm).mp hs
      refine ⟨output, ho, fun hnothing => ?_⟩
      cases (extractCvSignal_eq_none_iff he).mpr hnothing
    · rintro ⟨output, ho, hsays⟩
      obtain ⟨signal, he⟩ := Search.mapM_returns_iff.mp ⟨signals, hm⟩ output ho
      cases signal with
      | none => exact absurd ((extractCvSignal_eq_none_iff he).mp rfl) hsays
      | some signal => exact List.ne_nil_of_mem ((mem_parsed_iff hm).mpr ⟨output, ho, he⟩)
  rw [← hparsed]
  rcases hcases with ⟨hnil, rfl⟩ | ⟨hne, a, rfl, -⟩
  · simp only [Option.isSome_none, Bool.false_eq_true, false_iff]
    exact fun hne => hne hnil
  · exact ⟨fun _ => hne, fun _ => rfl⟩

/-- A CV has an aggregate when one of its runs succeeded with an output that says
something. -/
theorem isSome_aggregated_iff {runs : List RunPayload} {aggregated : Option (CvAggregate φ)}
    (h : aggregateRuns num str order readObject runs = .ok aggregated) :
    aggregated.isSome ↔ ∃ r ∈ runs, r.status = "Succeeded" ∧
      ∃ output, readOutputArtifact readObject (r.artifacts.getD []) = some output ∧
        ¬ SaysNothing num str output := by
  rw [aggregateRuns_eq] at h
  rw [isSome_aggregateCvScoring_iff h]
  constructor
  · rintro ⟨output, ho, hsays⟩
    obtain ⟨r, hr, hs, hread⟩ := mem_succeededOutputs.mp ho
    exact ⟨r, hr, hs, output, hread, hsays⟩
  · rintro ⟨r, hr, hs, output, hread, hsays⟩
    exact ⟨output, mem_succeededOutputs.mpr ⟨r, hr, hs, hread⟩, hsays⟩

/-- A CV has an error when one of its runs ended in another way and left a message. -/
theorem isSome_error_iff (runs : List RunEntry) :
    (firstError runs).isSome ↔
      ∃ e ∈ runs, e.result.status ≠ "Succeeded" ∧ e.result.errorMessage.getD "" ≠ "" := by
  rw [firstError, List.isSome_findSome?, List.any_eq_true]
  refine exists_congr fun e => and_congr_right fun _ => ?_
  split
  · next hboth =>
    simp only [Bool.and_eq_true, bne_iff_ne, ne_eq] at hboth
    refine ⟨fun _ => hboth, fun _ => ?_⟩
    cases hm : e.result.errorMessage with
    | none =>
      rw [hm] at hboth
      exact absurd rfl hboth.2
    | some message => rfl
  · next hnot =>
    simp only [Bool.and_eq_true, bne_iff_ne, ne_eq] at hnot
    simp only [Option.isSome_none, Bool.false_eq_true, false_iff]
    exact hnot

end ExplainedLemmas

open ExplainedLemmas

/-! ## 2. Blocks -/

section Document
variable {num : Numerics φ} {str : Json φ → String} {order : SetOrder}
  {readObject : String → Option (Fields φ)}

/-- Every block of a document has an aggregate or an error exactly when every
application has a run that is taken notice of. -/
theorem explained_iff {cvs : List CvRef} {runResults : List RunEntry}
    {document : List (CvBlock (Option (CvAggregate φ)))}
    (h : finalizeDocument num str order readObject cvs runResults = .ok document) :
    (∀ block ∈ document, block.aggregated.isSome ∨ block.error.isSome) ↔
      ∀ cv ∈ cvs, ∃ e ∈ runResults, e.applicationId = cv.applicationId ∧
        Accounted num str readObject e.result := by
  have hblock : ∀ block ∈ document, (block.aggregated.isSome ∨ block.error.isSome) ↔
      ∃ e ∈ runResults, e.applicationId = block.applicationId ∧
        Accounted num str readObject e.result := by
    intro block hb
    obtain ⟨hagg, cv, -, happ, hruns, herror⟩ := block_finalizeDocument h hb
    rw [isSome_aggregated_iff hagg, hruns, herror, isSome_error_iff, happ]
    constructor
    · rintro (⟨r, hr, hs, hsays⟩ | ⟨e, he, hs, hmessage⟩)
      · obtain ⟨e, he, rfl⟩ := List.mem_map.mp hr
        obtain ⟨hmem, heq⟩ := GroupSort.mem_groupSorted.mp he
        exact ⟨e, hmem, heq, .inl ⟨hs, hsays⟩⟩
      · obtain ⟨hmem, heq⟩ := GroupSort.mem_groupSorted.mp he
        exact ⟨e, hmem, heq, .inr ⟨hs, hmessage⟩⟩
    · rintro ⟨e, hmem, heq, hacc⟩
      have he : e ∈ GroupSort.groupSorted RunEntry.applicationId RunEntry.runIndex
          cv.applicationId runResults := GroupSort.mem_groupSorted.mpr ⟨hmem, heq⟩
      rcases hacc with ⟨hs, hsays⟩ | ⟨hs, hmessage⟩
      · exact .inl ⟨_, List.mem_map_of_mem he, hs, hsays⟩
      · exact .inr ⟨e, he, hs, hmessage⟩
  rw [forall₂_congr hblock]
  exact forall_blocks_iff h fun applicationId =>
    ∃ e ∈ runResults, e.applicationId = applicationId ∧ Accounted num str readObject e.result

end Document

/-- The batch whose only application succeeded with a score. -/
theorem explained_iff_sample :
    ∃ document, Sample.finalized ["app-2"] = .ok document ∧
      ∀ block ∈ document, block.aggregated.isSome ∨ block.error.isSome := by
  obtain ⟨document, hdocument⟩ : ∃ document, Sample.finalized ["app-2"] = .ok document := ⟨_, rfl⟩
  refine ⟨document, hdocument, (explained_iff hdocument).mpr fun cv hcv => ?_⟩
  have hcv : cv = Sample.cv "app-2" := List.mem_singleton.mp hcv
  rw [hcv]
  refine ⟨_, List.mem_cons_of_mem _ List.mem_cons_self, rfl, .inl ⟨rfl, _, rfl, ?_⟩⟩
  rintro ⟨hscore, -⟩
  cases hscore

/-- A failed run without a message leaves nothing in the block of its application. -/
theorem failed_without_message_unexplained :
    ¬ ∀ (readObject : String → Option (Fields ℚ)) (cvs : List CvRef) (runResults : List RunEntry)
        (document : List (CvBlock (Option (CvAggregate ℚ)))),
        (cvs.map CvRef.applicationId).Nodup →
        (∀ cv ∈ cvs, ∃ e ∈ runResults, e.applicationId = cv.applicationId) →
        finalizeDocument Sample.numerics Sample.str Sample.setOrder readObject cvs runResults =
          .ok document →
        ∀ block ∈ document, block.aggregated.isSome ∨ block.error.isSome := by
  intro h
  have hruns : ∀ cv ∈ [Sample.cv "app-1"], ∃ e ∈ Sample.mixedEntries,
      e.applicationId = cv.applicationId := by
    intro cv hcv
    rw [List.mem_singleton.mp hcv]
    exact ⟨_, List.mem_cons_self, rfl⟩
  have hblock := h Sample.readObject [Sample.cv "app-1"] Sample.mixedEntries _ (by decide) hruns rfl
    _ List.mem_cons_self
  rcases hblock with hagg | herror
  · cases hagg
  · cases herror

end TalentMatch
