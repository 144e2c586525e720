import TalentMatch.Contracts
import TalentMatch.Finalize

/-!
# Aggregation of the runs of a CV

`_aggregate` and `_read_output_artifact` of `orchestrator/functions/fanout` and
the profile `cv_scoring_v1` of `runtime/aggregation/shared.py`, over outputs that
are arbitrary JSON objects. Floating point arithmetic, the text of a value that is
not a text and the iteration order of a set are parameters; an exception is an
error value.

Results:
1. `aggregateCvScoring_score_iff`: the aggregate of a CV has a final score exactly
   when one of its outputs gives a signal with a score.
2. `aggregateCvScoring_decision`: an aggregate always has a decision.
3. `scored_iff`: every block of a result document has a score exactly when every
   application has a run that succeeded with an output that gives one.
-/

namespace TalentMatch

variable {φ : Type}

/-! ## 1. Parameters -/

/-- The floating point numbers of the runtime. `ofInt` and `pvariance` overflow
where they have no value. -/
structure Numerics (φ : Type) where
  zero : φ
  isZero : φ → Bool
  ofInt : Int → Option φ
  median : List φ → φ
  pvariance : List φ → Option φ

/-- An iteration order of `set(values)`. -/
structure SetOrder where
  iterate : List String → List String
  perm : ∀ values, (iterate values).Perm values.dedup

/-- The exceptions that aggregation can raise. -/
inductive AggregateError where
  | attributeError
  | typeError
  | overflowError
  deriving DecidableEq

/-! ## 2. The signal of one output -/

/-- What `_extract_cv_signal` returns. -/
structure CvSignal (φ : Type) where
  score : Option φ
  mustAllMet : Bool
  decision : String
  deriving DecidableEq

def positiveDecisions : List String :=
  ["approve", "approved", "accept", "accepted", "pass", "passed", "recommend", "recommended",
    "strong_match"]

def negativeDecisions : List String :=
  ["reject", "rejected", "cannot_assess", "insufficient_information", "fail", "failed"]

def negativeStatuses : List String := ["insufficient_data", "insufficient_information"]

/-- `output.get(name)` when that is an object, else an empty one. -/
def objectAt (output : Fields φ) (name : String) : Fields φ :=
  match Dict.get? output name with
  | some (.obj fields) => fields
  | _ => []

/-- `output.get(name)`. -/
def valueAt (output : Fields φ) (name : String) : Json φ := (Dict.get? output name).getD .null

section Signal
variable (num : Numerics φ) (str : Json φ → String)

/-- `str(value or "").strip().lower()`; `str` is Python's for values that are not
texts. -/
def textOf (value : Json φ) : String :=
  if value.truthy num.isZero then
    match value with
    | .str s => statusKey s
    | v => statusKey (str v)
  else ""

/-- `a or b`. -/
def orValue (a b : Json φ) : Json φ := if a.truthy num.isZero then a else b

/-- The score before it is read as a number. -/
def rawScore (output : Fields φ) : Json φ :=
  let score :=
    match Dict.get? output "overall_score" with
    | some v => v
    | none => valueAt output "score"
  match score with
  | .null => valueAt (objectAt output "composite_score") "value"
  | v => v

/-- `decision_raw`. -/
def decisionRaw (output : Fields φ) : String :=
  let decision := textOf num str
    (orValue num (valueAt output "decision") (valueAt output "final_decision"))
  if decision = "" then textOf num str (valueAt (objectAt output "eligibility") "status")
  else decision

/-- `must_haves`. -/
def mustHaves (output : Fields φ) : Json φ :=
  let mustHaves :=
    match Dict.get? output "must_haves" with
    | some v => v
    | none => orValue num ((Dict.get? output "must_have_results").getD (.arr [])) (.arr [])
  if mustHaves.truthy num.isZero then mustHaves
  else
    match Dict.get? (objectAt output "eligibility") "requirements_checklist" with
    | some (.obj entries) =>
      .arr ((entries.map Prod.snd).filter fun v => match v with | .obj _ => true | _ => false)
    | _ => mustHaves

/-- `all(bool(m.get("met")) for m in items)`: stops at the first that is not met,
and only an object has `get`. -/
def metAll : List (Json φ) → Except AggregateError Bool
  | [] => .ok true
  | .obj m :: rest => if (valueAt m "met").truthy num.isZero then metAll rest else .ok false
  | _ :: _ => .error .attributeError

/-- The same over a value that is truthy. Iterating an object or a text gives
texts, and other values cannot be iterated. -/
def allMet : Json φ → Except AggregateError Bool
  | .arr items => metAll num items
  | .obj _ => .error .attributeError
  | .str _ => .error .attributeError
  | _ => .error .typeError

/-- `float(score) if isinstance(score, (int, float)) else None`. -/
def readScore : Json φ → Except AggregateError (Option φ)
  | .float x => .ok (some x)
  | .int i =>
    match num.ofInt i with
    | some x => .ok (some x)
    | none => .error .overflowError
  | .bool b =>
    match num.ofInt (if b then 1 else 0) with
    | some x => .ok (some x)
    | none => .error .overflowError
  | _ => .ok none

/-- `must_all_met`. -/
def mustAllMet (must : Json φ) (decision : String) : Except AggregateError Bool :=
  if must.truthy num.isZero then allMet num must
  else .ok (decision != "" && positiveDecisions.contains decision)

/-- The score, where a status without data counts as zero. -/
def effectiveScore (score : Json φ) (status : String) : Json φ :=
  match score with
  | .null => if negativeStatuses.contains status then .float num.zero else .null
  | v => v

/-- Nothing was recognised in the output. -/
def isBlank (score must : Json φ) (decision status : String) : Bool :=
  (match score with | .null => true | _ => false) && !must.truthy num.isZero && decision == "" &&
    status == ""

/-- `_extract_cv_signal`. -/
def extractCvSignal (output : Fields φ) : Except AggregateError (Option (CvSignal φ)) :=
  let decision := decisionRaw num str output
  let status := textOf num str (valueAt output "status")
  let must := mustHaves num output
  match mustAllMet num must decision with
  | .error e => .error e
  | .ok met =>
    let score := effectiveScore num (rawScore output) status
    if isBlank num score must decision status then .ok none
    else
      match readScore num score with
      | .error e => .error e
      | .ok score =>
        .ok (some
          { score := score
            mustAllMet := met
            decision :=
              if positiveDecisions.contains decision then "Approve"
              else if negativeDecisions.contains decision then "Reject"
              else if met then "Approve" else "Reject" })

end Signal

/-! ## 3. The aggregate of a CV -/

/-- An entry of `sourceArtifacts`. -/
structure SourceArtifact where
  name : String
  blobUri : String
  sha256 : Option String
  deriving DecidableEq

/-- The `aggregated` block. -/
structure CvAggregate (φ : Type) where
  finalScore : Option φ
  variance : φ
  finalDecision : Option String
  mustHaveResult : Bool
  sourceArtifacts : List SourceArtifact
  runsCount : Nat
  deriving DecidableEq

/-- `max(order, key=decisions.count)`: the first of the most frequent ones. -/
def mostCommon (order decisions : List String) : Option String :=
  order.foldl
    (fun best d =>
      match best with
      | none => some d
      | some b => if decisions.count b < decisions.count d then some d else some b)
    none

section Aggregate
variable (num : Numerics φ) (str : Json φ → String) (order : SetOrder)

/-- `variance`. -/
def scoreVariance (scores : List φ) : Except AggregateError φ :=
  if 1 < scores.length then
    match num.pvariance scores with
    | some x => .ok x
    | none => .error .overflowError
  else .ok num.zero

/-- The aggregate of the signals. -/
def aggregateSignals (parsed : List (CvSignal φ)) (sourceArtifacts : List SourceArtifact) :
    Except AggregateError (CvAggregate φ) :=
  let scores := parsed.filterMap CvSignal.score
  let decisions := parsed.map CvSignal.decision
  match scoreVariance num scores with
  | .error e => .error e
  | .ok variance =>
    .ok
      { finalScore := if scores.isEmpty then none else some (num.median scores)
        variance := variance
        finalDecision := mostCommon (order.iterate decisions) decisions
        mustHaveResult := parsed.all CvSignal.mustAllMet
        sourceArtifacts := sourceArtifacts
        runsCount := parsed.length }

/-- `_aggregate_cv_scoring`. -/
def aggregateCvScoring (outputs : List (Fields φ)) (sourceArtifacts : List SourceArtifact) :
    Except AggregateError (Option (CvAggregate φ)) :=
  if outputs.isEmpty then .ok none
  else
    match outputs.mapM (extractCvSignal num str) with
    | .error e => .error e
    | .ok signals =>
      let parsed := signals.filterMap id
      if parsed.isEmpty then .ok none
      else (aggregateSignals num order parsed sourceArtifacts).map some

/-- `_read_output_artifact`. `readObject` is the JSON object at the start of the
text of a blob, if there is one. -/
def readOutputArtifact (readObject : String → Option (Fields φ)) (artifacts : List ArtifactItem) :
    Option (Fields φ) :=
  let item :=
    match artifacts.find? fun a => a.name == "output.json" && a.blobUri != "" with
    | some a => some a
    | none => artifacts.find? fun a =>
        ".json".toList.isSuffixOf (PyText.lower a.name).toList && a.blobUri != ""
  item.bind fun a => readObject a.blobUri

/-- `succeeded` of `_aggregate`. -/
def succeededRuns (runs : List RunPayload) : List RunPayload :=
  runs.filter fun r => r.status == "Succeeded"

/-- The outputs of the runs that succeeded. -/
def succeededOutputs (readObject : String → Option (Fields φ)) (runs : List RunPayload) :
    List (Fields φ) :=
  (succeededRuns runs).filterMap fun r => readOutputArtifact readObject (r.artifacts.getD [])

/-- `_aggregate`. -/
def aggregateRuns (readObject : String → Option (Fields φ)) (runs : List RunPayload) :
    Except AggregateError (Option (CvAggregate φ)) :=
  let succeeded := succeededRuns runs
  if succeeded.isEmpty then .ok none
  else
    aggregateCvScoring num str order (succeededOutputs readObject runs)
      (succeeded.flatMap fun r => (r.artifacts.getD []).map fun a => ⟨a.name, a.blobUri, a.sha256⟩)

/-- A block whose aggregation did not raise. -/
def CvBlock.sequence {B : Type*} (block : CvBlock (Except AggregateError B)) :
    Except AggregateError (CvBlock B) :=
  block.aggregated.map fun aggregated =>
    { applicationId := block.applicationId
      documentId := block.documentId
      runs := block.runs
      aggregated := aggregated
      error := block.error }

/-- `finalize_batch` with this aggregation: an exception for one CV ends it. -/
def finalizeDocument (readObject : String → Option (Fields φ)) (cvs : List CvRef)
    (runResults : List RunEntry) : Except AggregateError (List (CvBlock (Option (CvAggregate φ)))) :=
  (finalizeBatch (aggregateRuns num str order readObject) cvs runResults).mapM CvBlock.sequence

end Aggregate

/-! ## 4. When there is a score -/

section Score
variable {num : Numerics φ} {str : Json φ → String} {order : SetOrder}

/-- The output gives a signal with a score. -/
def GivesScore (num : Numerics φ) (str : Json φ → String) (output : Fields φ) : Prop :=
  ∃ signal, extractCvSignal num str output = .ok (some signal) ∧ signal.score.isSome

/-- The aggregate is there, and has a score. -/
def HasScore (aggregated : Option (CvAggregate φ)) : Prop :=
  ∃ a, aggregated = some a ∧ a.finalScore.isSome

/-- The aggregate depends on the signals only. -/
theorem aggregateCvScoring_eq_bind (outputs : List (Fields φ))
    (sourceArtifacts : List SourceArtifact) :
    aggregateCvScoring num str order outputs sourceArtifacts =
      (outputs.mapM (extractCvSignal num str)).bind fun signals =>
        if (signals.filterMap id).isEmpty then .ok none
        else (aggregateSignals num order (signals.filterMap id) sourceArtifacts).map some := by
  unfold aggregateCvScoring
  cases outputs with
  | nil => rfl
  | cons output outputs =>
    rw [List.isEmpty_cons, if_neg Bool.false_ne_true]
    cases (output :: outputs).mapM (extractCvSignal num str) <;> rfl

theorem aggregateCvScoring_of_error {outputs : List (Fields φ)}
    (sourceArtifacts : List SourceArtifact) {e : AggregateError}
    (h : outputs.mapM (extractCvSignal num str) = .error e) :
    aggregateCvScoring num str order outputs sourceArtifacts = .error e := by
  rw [aggregateCvScoring_eq_bind, h]
  rfl

theorem aggregateCvScoring_of_ok {outputs : List (Fields φ)}
    (sourceArtifacts : List SourceArtifact) {signals : List (Option (CvSignal φ))}
    (h : outputs.mapM (extractCvSignal num str) = .ok signals) :
    aggregateCvScoring num str order outputs sourceArtifacts =
      if (signals.filterMap id).isEmpty then .ok none
      else (aggregateSignals num order (signals.filterMap id) sourceArtifacts).map some := by
  rw [aggregateCvScoring_eq_bind, h]
  rfl

/-- What the aggregate of signals holds, when nothing overflows. -/
theorem aggregateSignals_eq_ok {parsed : List (CvSignal φ)} {sourceArtifacts : List SourceArtifact}
    {a : CvAggregate φ} (h : aggregateSignals num order parsed sourceArtifacts = .ok a) :
    a.finalScore =
        (if (parsed.filterMap CvSignal.score).isEmpty then none
         else some (num.median (parsed.filterMap CvSignal.score))) ∧
      a.finalDecision = mostCommon (order.iterate (parsed.map CvSignal.decision))
        (parsed.map CvSignal.decision) := by
  simp only [aggregateSignals] at h
  split at h
  · cases h
  · cases h
    exact ⟨rfl, rfl⟩

theorem isSome_finalScore {parsed : List (CvSignal φ)} {sourceArtifacts : List SourceArtifact}
    {a : CvAggregate φ} (h : aggregateSignals num order parsed sourceArtifacts = .ok a) :
    a.finalScore.isSome ↔ ∃ signal ∈ parsed, signal.score.isSome := by
  rw [(aggregateSignals_eq_ok h).1]
  cases hscores : parsed.filterMap CvSignal.score with
  | nil =>
    have hnone : ∀ signal ∈ parsed, signal.score = none := by
      simpa [List.filterMap_eq_nil_iff] using hscores
    constructor
    · intro h
      cases h
    · rintro ⟨signal, hs, hsome⟩
      rw [hnone signal hs] at hsome
      cases hsome
  | cons x scores =>
    have hx : x ∈ parsed.filterMap CvSignal.score := by rw [hscores]; simp
    obtain ⟨signal, hs, hsome⟩ := List.mem_filterMap.mp hx
    simp only [List.isEmpty_cons, Bool.false_eq_true, if_false, Option.isSome_some, true_iff]
    exact ⟨signal, hs, by rw [hsome]; rfl⟩

/-- The signals of the outputs that give one. -/
theorem mem_parsed_iff {outputs : List (Fields φ)} {signals : List (Option (CvSignal φ))}
    (h : outputs.mapM (extractCvSignal num str) = .ok signals) {signal : CvSignal φ} :
    signal ∈ signals.filterMap id ↔
      ∃ output ∈ outputs, extractCvSignal num str output = .ok (some signal) := by
  have hin : some signal ∈ signals ↔
      (Except.ok (some signal) : Except AggregateError _) ∈ outputs.map (extractCvSignal num str) := by
    rw [Search.map_of_mapM_ok h, List.mem_map]
    exact ⟨fun hm => ⟨_, hm, rfl⟩, fun ⟨_, hm, heq⟩ => by cases heq; exact hm⟩
  simp only [List.mem_filterMap, id, exists_eq_right, hin, List.mem_map]

/-- The aggregation of a CV that returned: the outputs could all be read, and there is
an aggregate when one of them gives a signal. -/
theorem aggregateCvScoring_cases {outputs : List (Fields φ)} {sourceArtifacts : List SourceArtifact}
    {aggregated : Option (CvAggregate φ)}
    (h : aggregateCvScoring num str order outputs sourceArtifacts = .ok aggregated) :
    ∃ signals, outputs.mapM (extractCvSignal num str) = .ok signals ∧
      ((signals.filterMap id = [] ∧ aggregated = none) ∨
        (signals.filterMap id ≠ [] ∧ ∃ a, aggregated = some a ∧
          aggregateSignals num order (signals.filterMap id) sourceArtifacts = .ok a)) := by
  cases hm : outputs.mapM (extractCvSignal num str) with
  | error e =>
    rw [aggregateCvScoring_of_error sourceArtifacts hm] at h
    cases h
  | ok signals =>
    refine ⟨signals, rfl, ?_⟩
    rw [aggregateCvScoring_of_ok sourceArtifacts hm] at h
    split at h
    · next hempty =>
      cases h
      exact .inl ⟨List.isEmpty_iff.mp hempty, rfl⟩
    · next hne =>
      cases ha : aggregateSignals num order (signals.filterMap id) sourceArtifacts with
      | error e =>
        rw [ha] at h
        cases h
      | ok a =>
        rw [ha] at h
        cases h
        exact .inr ⟨fun hnil => hne (List.isEmpty_iff.mpr hnil), a, rfl, rfl⟩

/-- The aggregate of a CV has a final score exactly when one of its outputs gives
one. -/
theorem aggregateCvScoring_score_iff {outputs : List (Fields φ)}
    {sourceArtifacts : List SourceArtifact} {aggregated : Option (CvAggregate φ)}
    (h : aggregateCvScoring num str order outputs sourceArtifacts = .ok aggregated) :
    HasScore aggregated ↔ ∃ output ∈ outputs, GivesScore num str output := by
  obtain ⟨signals, hm, hcases⟩ := aggregateCvScoring_cases h
  have hgives : (∃ signal ∈ signals.filterMap id, signal.score.isSome) ↔
      ∃ output ∈ outputs, GivesScore num str output := by
    constructor
    · rintro ⟨signal, hs, hscore⟩
      obtain ⟨output, ho, he⟩ := (mem_parsed_iff hm).mp hs
      exact ⟨output, ho, signal, he, hscore⟩
    · rintro ⟨output, ho, signal, he, hscore⟩
      exact ⟨signal, (mem_parsed_iff hm).mpr ⟨output, ho, he⟩, hscore⟩
  rw [← hgives]
  rcases hcases with ⟨hnil, rfl⟩ | ⟨-, a, rfl, ha⟩
  · rw [hnil]
    simp [HasScore]
  · rw [← isSome_finalScore ha]
    simp [HasScore]

theorem isSome_mostCommon {order decisions : List String} (h : order ≠ []) :
    (mostCommon order decisions).isSome := by
  have hkeep : ∀ (order : List String) (best : String),
      (order.foldl (fun best d =>
        match best with
        | none => some d
        | some b => if decisions.count b < decisions.count d then some d else some b)
        (some best)).isSome := by
    intro order
    induction order with
    | nil => exact fun _ => rfl
    | cons d order ih =>
      intro best
      simp only [List.foldl_cons]
      split
      · exact ih d
      · exact ih best
  cases order with
  | nil => exact absurd rfl h
  | cons d order => exact hkeep order d

/-- An aggregate has a decision. -/
theorem aggregateCvScoring_decision {outputs : List (Fields φ)}
    {sourceArtifacts : List SourceArtifact} {a : CvAggregate φ}
    (h : aggregateCvScoring num str order outputs sourceArtifacts = .ok (some a)) :
    a.finalDecision.isSome := by
  obtain ⟨signals, -, ⟨-, hnone⟩ | ⟨hne, a', ha', ha⟩⟩ := aggregateCvScoring_cases h
  · cases hnone
  · cases ha'
    rw [(aggregateSignals_eq_ok ha).2]
    refine isSome_mostCommon fun hnil => hne ?_
    -- a set without elements comes from no decision
    have hperm := order.perm ((signals.filterMap id).map CvSignal.decision)
    rw [hnil] at hperm
    have hdedup := List.nil_perm.mp hperm
    rwa [List.dedup_eq_nil, List.map_eq_nil_iff] at hdedup

/-! ## 5. The blocks of a result document -/

/-- A run of the application succeeded, by exactly that status, and its output
gives a score. -/
def ScoredApplication (num : Numerics φ) (str : Json φ → String)
    (readObject : String → Option (Fields φ)) (runResults : List RunEntry) (applicationId : String) :
    Prop :=
  ∃ e ∈ runResults, e.applicationId = applicationId ∧ e.result.status = "Succeeded" ∧
    ∃ output, readOutputArtifact readObject e.result.artifactList = some output ∧
      GivesScore num str output

variable {readObject : String → Option (Fields φ)}

theorem mem_succeededOutputs {runs : List RunPayload} {output : Fields φ} :
    output ∈ succeededOutputs readObject runs ↔ ∃ r ∈ runs, r.status = "Succeeded" ∧
      readOutputArtifact readObject (r.artifacts.getD []) = some output := by
  simp only [succeededOutputs, succeededRuns, List.mem_filterMap, List.mem_filter, beq_iff_eq, and_assoc]

/-- The aggregation of runs is that of the outputs of those that succeeded. -/
theorem aggregateRuns_eq (runs : List RunPayload) :
    aggregateRuns num str order readObject runs =
      aggregateCvScoring num str order (succeededOutputs readObject runs)
        ((succeededRuns runs).flatMap fun r =>
          (r.artifacts.getD []).map fun a => ⟨a.name, a.blobUri, a.sha256⟩) := by
  unfold aggregateRuns
  simp only
  split
  · next hempty =>
    have hnone : succeededOutputs readObject runs = [] := by
      rw [succeededOutputs, List.isEmpty_iff.mp hempty]
      rfl
    rw [hnone]
    rfl
  · rfl

theorem aggregateRuns_score_iff {runs : List RunPayload} {aggregated : Option (CvAggregate φ)}
    (h : aggregateRuns num str order readObject runs = .ok aggregated) :
    HasScore aggregated ↔ ∃ r ∈ runs, r.status = "Succeeded" ∧
      ∃ output, readOutputArtifact readObject (r.artifacts.getD []) = some output ∧
        GivesScore num str output := by
  rw [aggregateRuns_eq] at h
  rw [aggregateCvScoring_score_iff h]
  constructor
  · rintro ⟨output, ho, hgives⟩
    obtain ⟨r, hr, hs, hread⟩ := mem_succeededOutputs.mp ho
    exact ⟨r, hr, hs, output, hread, hgives⟩
  · rintro ⟨r, hr, hs, output, hread, hgives⟩
    exact ⟨output, mem_succeededOutputs.mpr ⟨r, hr, hs, hread⟩, hgives⟩

theorem aggregateRuns_decision {runs : List RunPayload} {a : CvAggregate φ}
    (h : aggregateRuns num str order readObject runs = .ok (some a)) : a.finalDecision.isSome := by
  rw [aggregateRuns_eq] at h
  exact aggregateCvScoring_decision h

theorem sequence_eq_ok {B : Type*} {b : CvBlock (Except AggregateError B)} {block : CvBlock B}
    (h : b.sequence = .ok block) :
    block.applicationId = b.applicationId ∧ block.runs = b.runs ∧ block.error = b.error ∧
      b.aggregated = .ok block.aggregated := by
  unfold CvBlock.sequence at h
  cases ha : b.aggregated with
  | error e =>
    rw [ha] at h
    cases h
  | ok aggregated =>
    rw [ha] at h
    cases h
    exact ⟨rfl, rfl, rfl, rfl⟩

/-- One block per CV, in their order. -/
theorem applicationIds_finalizeDocument {cvs : List CvRef} {runResults : List RunEntry}
    {document : List (CvBlock (Option (CvAggregate φ)))}
    (h : finalizeDocument num str order readObject cvs runResults = .ok document) :
    document.map CvBlock.applicationId = cvs.map CvRef.applicationId := by
  rw [Search.map_eq_of_mapM_ok h fun b block hb => (sequence_eq_ok hb).1]
  simp [finalizeBatch, Function.comp_def]

/-- What holds of every block by its application holds of every CV. -/
theorem forall_blocks_iff {cvs : List CvRef} {runResults : List RunEntry}
    {document : List (CvBlock (Option (CvAggregate φ)))}
    (h : finalizeDocument num str order readObject cvs runResults = .ok document)
    (P : String → Prop) :
    (∀ block ∈ document, P block.applicationId) ↔ ∀ cv ∈ cvs, P cv.applicationId := by
  have hids := applicationIds_finalizeDocument h
  rw [← List.forall_mem_map (f := CvBlock.applicationId) (P := P), hids, List.forall_mem_map]

/-- A block holds the runs of its application, their aggregate and their first
error. -/
theorem block_finalizeDocument {cvs : List CvRef} {runResults : List RunEntry}
    {document : List (CvBlock (Option (CvAggregate φ)))}
    (h : finalizeDocument num str order readObject cvs runResults = .ok document)
    {block : CvBlock (Option (CvAggregate φ))} (hblock : block ∈ document) :
    aggregateRuns num str order readObject block.runs = .ok block.aggregated ∧
      ∃ cv ∈ cvs, block.applicationId = cv.applicationId ∧
        block.runs = (GroupSort.groupSorted RunEntry.applicationId RunEntry.runIndex cv.applicationId
          runResults).map (fun e => e.payload cv.documentId) ∧
        block.error = firstError (GroupSort.groupSorted RunEntry.applicationId RunEntry.runIndex
          cv.applicationId runResults) := by
  have hmem : (Except.ok block : Except AggregateError _) ∈
      (finalizeBatch (aggregateRuns num str order readObject) cvs runResults).map
        CvBlock.sequence := by
    rw [Search.map_of_mapM_ok h]
    exact List.mem_map_of_mem hblock
  obtain ⟨b, hb, hseq⟩ := List.mem_map.mp hmem
  obtain ⟨cv, hcv, rfl⟩ := List.mem_map.mp hb
  obtain ⟨happ, hruns, herror, hagg⟩ := sequence_eq_ok hseq
  exact ⟨hruns ▸ hagg, cv, hcv, happ, hruns, herror⟩

/-- Every block has a score exactly when every application has a scored run. -/
theorem scored_iff {cvs : List CvRef} {runResults : List RunEntry}
    {document : List (CvBlock (Option (CvAggregate φ)))}
    (h : finalizeDocument num str order readObject cvs runResults = .ok document) :
    (∀ block ∈ document, HasScore block.aggregated) ↔
      ∀ cv ∈ cvs, ScoredApplication num str readObject runResults cv.applicationId := by
  have hblock : ∀ block ∈ document, HasScore block.aggregated ↔
      ScoredApplication num str readObject runResults block.applicationId := by
    intro block hb
    obtain ⟨hagg, cv, -, happ, hruns, -⟩ := block_finalizeDocument h hb
    rw [aggregateRuns_score_iff hagg, hruns, happ]
    constructor
    · rintro ⟨r, hr, hs, hread⟩
      obtain ⟨e, he, rfl⟩ := List.mem_map.mp hr
      obtain ⟨hmem, happ'⟩ := GroupSort.mem_groupSorted.mp he
      exact ⟨e, hmem, happ', hs, hread⟩
    · rintro ⟨e, he, happ', hs, hread⟩
      exact ⟨_, List.mem_map_of_mem (GroupSort.mem_groupSorted.mpr ⟨he, happ'⟩), hs, hread⟩
  rw [forall₂_congr hblock]
  exact forall_blocks_iff h fun applicationId =>
    ScoredApplication num str readObject runResults applicationId

end Score

namespace Sample

/-- Rational numbers in place of floating point ones. -/
def numerics : Numerics ℚ where
  zero := 0
  isZero x := x == 0
  ofInt i := some i
  median xs :=
    let sorted := xs.insertionSort (· ≤ ·)
    (sorted.getD ((xs.length - 1) / 2) 0 + sorted.getD (xs.length / 2) 0) / 2
  pvariance xs :=
    let mean := xs.sum / xs.length
    some ((xs.map fun x => (x - mean) ^ 2).sum / xs.length)

/-- `str` of the values that JSON and Python write alike. -/
def str : Json ℚ → String
  | .int i => toString i
  | .str s => s
  | _ => ""

/-- The order of the last occurrences. -/
def setOrder : SetOrder where
  iterate := List.dedup
  perm _ := List.Perm.refl _

end Sample

end TalentMatch
