import TalentMatch.MustHaves
import TalentMatch.Polling

/-!
# Malformed outputs

An output of the engine can hold any JSON value under any key. `_extract_cv_signal`
checks the kind of some of them only, so there are outputs on which it raises. An
exception for one output ends the aggregation of the CV, and with it `finalize_batch`.

Results:
1. `extractCvSignal_returns_iff`: the outputs that can be read.
2. `aggregation_returns_iff`: `_aggregate` returns exactly when every output of a run
   that succeeded can be read and the variance of the scores has a value, and
   `finalize_batch` when that is so for every CV.
3. `malformed_output_raises`: a list of must-haves written as plain texts raises.
-/

namespace TalentMatch

open MustHavesLemmas

variable {φ : Type}

/-! ## 1. Outputs that can be read -/

section Readable
variable (num : Numerics φ) (str : Json φ → String)

/-- An entry that is not an object comes after one that is not met. -/
def EntriesReadable (items : List (Json φ)) : Prop :=
  ∀ before v after, items = before ++ v :: after → (∃ m, v = .obj m) ∨ Unmet num before

/-- Nothing, or a list whose entries can be read. -/
def ListReadable (value : Json φ) : Prop :=
  value.truthy num.isZero = true → ∃ items, value = .arr items ∧ EntriesReadable num items

/-- The must-haves that are read before the checklist. -/
def MustHavesReadable (output : Fields φ) : Prop :=
  match Dict.get? output "must_haves" with
  | some value => ListReadable num value
  | none => ListReadable num (valueAt output "must_have_results")

/-- A number that is not too large for floating point. -/
def ScoreConverts : Json φ → Prop
  | .int i => (num.ofInt i).isSome
  | .bool b => (num.ofInt (if b then 1 else 0)).isSome
  | _ => True

/-- The number that a score is. -/
def scoreOf : Json φ → Option φ
  | .float x => some x
  | .int i => num.ofInt i
  | .bool b => num.ofInt (if b then 1 else 0)
  | _ => none

/-- The score of an output. -/
def outputScore (output : Fields φ) : Option φ :=
  scoreOf num (effectiveScore num (rawScore output) (textOf num str (valueAt output "status")))

/-- The variance of the scores, where there are several, has a value. -/
def VarianceDefined (outputs : List (Fields φ)) : Prop :=
  1 < (outputs.filterMap (outputScore num str)).length →
    (num.pvariance (outputs.filterMap (outputScore num str))).isSome

/-- The outputs of a CV that can be aggregated. -/
def Aggregable (outputs : List (Fields φ)) : Prop :=
  (∀ output ∈ outputs, MustHavesReadable num output ∧ ScoreConverts num (rawScore output)) ∧
    VarianceDefined num str outputs

end Readable

/-- The runs of a CV, as its block lists them. -/
def runsOf (runResults : List RunEntry) (cv : CvRef) : List RunPayload :=
  (GroupSort.groupSorted RunEntry.applicationId RunEntry.runIndex cv.applicationId runResults).map
    fun e => e.payload cv.documentId

namespace MalformedLemmas

variable {num : Numerics φ} {str : Json φ → String}

/-- What follows an object can be read, unless the object ends the reading. -/
theorem entriesReadable_cons (m : Fields φ) (items : List (Json φ)) :
    EntriesReadable num (.obj m :: items) ↔ isMet num m = false ∨ EntriesReadable num items := by
  constructor
  · intro h
    cases hmet : isMet num m with
    | false => exact .inl rfl
    | true =>
      right
      intro before v after heq
      refine (h (.obj m :: before) v after (by rw [heq, List.cons_append])).imp id ?_
      rintro ⟨m', hm', hfalse⟩
      rcases List.mem_cons.mp hm' with hhead | htail
      · cases hhead
        cases hmet.symm.trans hfalse
      · exact ⟨m', htail, hfalse⟩
  · rintro h (_ | ⟨u, before⟩) v after heq
    · cases heq
      exact .inl ⟨m, rfl⟩
    · cases heq
      rcases h with hmet | hitems
      · exact .inr ⟨m, List.mem_cons_self, hmet⟩
      · exact (hitems before v after rfl).imp id fun ⟨m', hm', hfalse⟩ =>
          ⟨m', List.mem_cons_of_mem _ hm', hfalse⟩

theorem metAll_returns_iff (items : List (Json φ)) :
    (∃ met, metAll num items = .ok met) ↔ EntriesReadable num items := by
  induction items with
  | nil =>
    constructor
    · intro _ before v after heq
      cases before <;> cases heq
    · exact fun _ => ⟨true, rfl⟩
  | cons v items ih =>
    cases v with
    | obj m =>
      rw [entriesReadable_cons, metAll, ← isMet]
      cases isMet num m with
      | true => simpa using ih
      | false => simp
    | null | bool | int | float | str | arr =>
      constructor
      · rintro ⟨met, h⟩
        cases h
      · intro h
        rcases h [] _ items rfl with ⟨m, hm⟩ | ⟨m, hm, -⟩
        · cases hm
        · cases hm

/-- A value that counts as the must-haves can be read when it is a list that can. -/
theorem allMet_returns_iff {value : Json φ} (h : value.truthy num.isZero = true) :
    (∃ met, allMet num value = .ok met) ↔ ListReadable num value := by
  cases value with
  | arr items =>
    rw [allMet, metAll_returns_iff]
    constructor
    · exact fun hitems _ => ⟨items, rfl, hitems⟩
    · intro hread
      obtain ⟨items', heq, hitems⟩ := hread h
      cases heq
      exact hitems
  | null | bool | int | float | str | obj =>
    constructor
    · rintro ⟨met, hmet⟩
      cases hmet
    · intro hread
      obtain ⟨items, heq, -⟩ := hread h
      cases heq

theorem mustAllMet_returns_iff (value : Json φ) (decision : String) :
    (∃ met, mustAllMet num value decision = .ok met) ↔ ListReadable num value := by
  unfold mustAllMet
  split
  · next h => exact allMet_returns_iff h
  · next h =>
    constructor
    · exact fun _ htrue => absurd htrue h
    · exact fun _ => ⟨_, rfl⟩

/-- Objects of a checklist can always be read. -/
theorem listReadable_objects (entries : List (Fields φ)) :
    ListReadable num (.arr (entries.map .obj)) := by
  rw [← mustAllMet_returns_iff _ ""]
  unfold mustAllMet
  split
  · exact ⟨_, metAll_objects entries⟩
  · exact ⟨_, rfl⟩

theorem listReadable_of_falsy {value : Json φ} (h : ¬ value.truthy num.isZero = true) :
    ListReadable num value := fun htrue => absurd htrue h

theorem firstMustHaves_readable_iff (output : Fields φ) :
    ListReadable num (firstMustHaves num output) ↔ MustHavesReadable num output := by
  unfold firstMustHaves MustHavesReadable
  cases Dict.get? output "must_haves" with
  | some value => exact Iff.rfl
  | none =>
    simp only [orValue, valueAt]
    cases Dict.get? output "must_have_results" with
    | none => exact ⟨fun _ => listReadable_of_falsy (by simp [Json.truthy]), fun _ => by
        exact listReadable_of_falsy (by simp [Json.truthy])⟩
    | some value =>
      simp only [Option.getD_some]
      split
      · exact Iff.rfl
      · next hfalse =>
        exact ⟨fun _ => listReadable_of_falsy hfalse, fun _ => listReadable_of_falsy (by simp [Json.truthy])⟩

theorem mustHaves_readable_iff (output : Fields φ) :
    ListReadable num (mustHaves num output) ↔ MustHavesReadable num output := by
  rw [← firstMustHaves_readable_iff, mustHaves_eq]
  split
  · exact Iff.rfl
  · next hfalse =>
    have hfirst : ListReadable num (firstMustHaves num output) := listReadable_of_falsy hfalse
    refine ⟨fun _ => hfirst, fun _ => ?_⟩
    unfold checklistOr
    split
    · next fields _ =>
      obtain ⟨entries, he⟩ := exists_objects (fields.map Prod.snd)
      rw [he]
      exact listReadable_objects entries
    · exact hfirst

/-- Reading a score raises exactly when it does not convert. -/
theorem readScore_eq (num : Numerics φ) (value : Json φ) :
    (ScoreConverts num value ∧ readScore num value = .ok (scoreOf num value)) ∨
      (¬ ScoreConverts num value ∧ readScore num value = .error .overflowError) := by
  cases value with
  | int i =>
    simp only [ScoreConverts, readScore, scoreOf]
    cases num.ofInt i with
    | none => exact .inr ⟨by simp, rfl⟩
    | some x => exact .inl ⟨rfl, rfl⟩
  | bool b =>
    simp only [ScoreConverts, readScore, scoreOf]
    cases num.ofInt (if b then 1 else 0) with
    | none => exact .inr ⟨by simp, rfl⟩
    | some x => exact .inl ⟨rfl, rfl⟩
  | null | float | str | arr | obj => exact .inl ⟨trivial, rfl⟩

/-- A score that stands for missing data always converts. -/
theorem scoreConverts_effective_iff (value : Json φ) (status : String) :
    ScoreConverts num (effectiveScore num value status) ↔ ScoreConverts num value := by
  cases value with
  | null =>
    rw [effectiveScore]
    split <;> exact Iff.rfl
  | bool | int | float | str | arr | obj => exact Iff.rfl

theorem scoreConverts_of_isBlank {value must : Json φ} {decision status : String}
    (h : isBlank num value must decision status = true) :
    ScoreConverts num value ∧ scoreOf num value = none := by
  cases value with
  | null => exact ⟨trivial, rfl⟩
  | bool | int | float | str | arr | obj => simp [isBlank] at h

end MalformedLemmas

open MalformedLemmas

/-! ## 2. Aggregation that returns -/

section Returns
variable (num : Numerics φ) (str : Json φ → String) (order : SetOrder)

/-- An output can be read when its must-haves can and its score converts. -/
theorem extractCvSignal_returns_iff (output : Fields φ) :
    (∃ signal, extractCvSignal num str output = .ok signal) ↔
      MustHavesReadable num output ∧ ScoreConverts num (rawScore output) := by
  rw [← mustHaves_readable_iff, ← mustAllMet_returns_iff _ (decisionRaw num str output)]
  rw [← scoreConverts_effective_iff _ (textOf num str (valueAt output "status"))]
  cases hmet : mustAllMet num (mustHaves num output) (decisionRaw num str output) with
  | error e =>
    have hraise : extractCvSignal num str output = .error e := by simp only [extractCvSignal, hmet]
    simp [hraise]
  | ok met =>
    rw [extractCvSignal_of_met hmet]
    split
    · next hblank =>
      exact ⟨fun _ => ⟨⟨met, rfl⟩, (scoreConverts_of_isBlank hblank).1⟩, fun _ => ⟨none, rfl⟩⟩
    · rcases readScore_eq num (effectiveScore num (rawScore output)
          (textOf num str (valueAt output "status"))) with ⟨hconv, hread⟩ | ⟨hconv, hread⟩
      · rw [hread]
        exact ⟨fun _ => ⟨⟨met, rfl⟩, hconv⟩, fun _ => ⟨_, rfl⟩⟩
      · simp [hread, hconv, Except.map]

variable {num str order}

/-- The score of a signal is that of its output. -/
theorem score_of_extract {output : Fields φ} {signal : Option (CvSignal φ)}
    (h : extractCvSignal num str output = .ok signal) :
    signal.bind CvSignal.score = outputScore num str output := by
  have hread := (extractCvSignal_returns_iff num str output).mp ⟨signal, h⟩
  rw [← mustHaves_readable_iff, ← mustAllMet_returns_iff _ (decisionRaw num str output)] at hread
  obtain ⟨⟨met, hmet⟩, hconv⟩ := hread
  rw [extractCvSignal_of_met hmet] at h
  unfold outputScore
  split at h
  · next hblank =>
    cases h
    exact (scoreConverts_of_isBlank hblank).2.symm
  · rw [← scoreConverts_effective_iff _ (textOf num str (valueAt output "status"))] at hconv
    rcases readScore_eq num (effectiveScore num (rawScore output)
        (textOf num str (valueAt output "status"))) with ⟨-, hscore⟩ | ⟨hnot, -⟩
    · rw [hscore] at h
      cases h
      rfl
    · exact absurd hconv hnot

theorem filterMap_eq_of_map_eq {α β γ : Type} {f : α → Option γ} {g : β → Option γ} {l : List α}
    {m : List β} (h : m.map g = l.map f) : m.filterMap g = l.filterMap f := by
  have heq := congrArg (List.filterMap id) h
  rwa [List.filterMap_map, List.filterMap_map] at heq

/-- The scores of the signals are those of the outputs. -/
theorem scores_of_mapM {outputs : List (Fields φ)} {signals : List (Option (CvSignal φ))}
    (h : outputs.mapM (extractCvSignal num str) = .ok signals) :
    (signals.filterMap id).filterMap CvSignal.score = outputs.filterMap (outputScore num str) := by
  rw [List.filterMap_filterMap]
  apply filterMap_eq_of_map_eq
  exact Search.map_eq_of_mapM_ok h fun output signal hs => score_of_extract hs

theorem scoreVariance_returns_iff (scores : List φ) :
    (∃ x, scoreVariance num scores = .ok x) ↔
      (1 < scores.length → (num.pvariance scores).isSome) := by
  unfold scoreVariance
  split
  · next hlen =>
    cases num.pvariance scores with
    | none => simp [hlen]
    | some x => simp
  · next hlen => exact ⟨fun _ h => absurd h hlen, fun _ => ⟨_, rfl⟩⟩

theorem aggregateSignals_returns_iff (order : SetOrder) (parsed : List (CvSignal φ))
    (sourceArtifacts : List SourceArtifact) :
    (∃ a, aggregateSignals num order parsed sourceArtifacts = .ok a) ↔
      ∃ x, scoreVariance num (parsed.filterMap CvSignal.score) = .ok x := by
  simp only [aggregateSignals]
  cases scoreVariance num (parsed.filterMap CvSignal.score) with
  | error e => simp
  | ok x => simp

/-- The aggregation of a CV returns exactly when its outputs can be aggregated. -/
theorem aggregateCvScoring_returns_iff (outputs : List (Fields φ))
    (sourceArtifacts : List SourceArtifact) :
    (∃ a, aggregateCvScoring num str order outputs sourceArtifacts = .ok a) ↔
      Aggregable num str outputs := by
  have hall : (∃ signals, outputs.mapM (extractCvSignal num str) = .ok signals) ↔
      ∀ output ∈ outputs, MustHavesReadable num output ∧ ScoreConverts num (rawScore output) := by
    rw [Search.mapM_returns_iff]
    exact forall₂_congr fun output _ => extractCvSignal_returns_iff num str output
  rw [Aggregable, ← hall]
  cases hm : outputs.mapM (extractCvSignal num str) with
  | error e =>
    simp [aggregateCvScoring_of_error sourceArtifacts hm]
  | ok signals =>
    have hvariance : VarianceDefined num str outputs ↔
        ∃ x, scoreVariance num ((signals.filterMap id).filterMap CvSignal.score) = .ok x := by
      rw [scoreVariance_returns_iff, scores_of_mapM hm]
      exact Iff.rfl
    rw [aggregateCvScoring_of_ok sourceArtifacts hm, hvariance]
    split
    · next hempty =>
      have hnil : signals.filterMap id = [] := List.isEmpty_iff.mp hempty
      rw [hnil]
      exact ⟨fun _ => ⟨⟨signals, rfl⟩, num.zero, rfl⟩, fun _ => ⟨none, rfl⟩⟩
    · rw [← aggregateSignals_returns_iff order _ sourceArtifacts]
      cases aggregateSignals num order (signals.filterMap id) sourceArtifacts with
      | error e => simp [Except.map]
      | ok a => simp [Except.map]

end Returns

/-- `_aggregate` returns exactly when the outputs of the runs that succeeded can be
aggregated, and `finalize_batch` exactly when those of every CV can. -/
theorem aggregation_returns_iff (num : Numerics φ) (str : Json φ → String) (order : SetOrder)
    (readObject : String → Option (Fields φ)) :
    (∀ runs, (∃ a, aggregateRuns num str order readObject runs = .ok a) ↔
        Aggregable num str (succeededOutputs readObject runs)) ∧
      ∀ cvs runResults,
        (∃ document, finalizeDocument num str order readObject cvs runResults = .ok document) ↔
          ∀ cv ∈ cvs, Aggregable num str (succeededOutputs readObject (runsOf runResults cv)) := by
  have hruns : ∀ runs, (∃ a, aggregateRuns num str order readObject runs = .ok a) ↔
      Aggregable num str (succeededOutputs readObject runs) := by
    intro runs
    rw [aggregateRuns_eq]
    exact aggregateCvScoring_returns_iff _ _
  refine ⟨hruns, fun cvs runResults => ?_⟩
  -- a block is there when the aggregation of its CV returned
  have hblock : ∀ block : CvBlock (Except AggregateError (Option (CvAggregate φ))),
      (∃ b, block.sequence = .ok b) ↔ ∃ a, block.aggregated = .ok a := by
    intro block
    unfold CvBlock.sequence
    cases block.aggregated with
    | error e => simp [Except.map]
    | ok a => simp [Except.map]
  rw [finalizeDocument, Search.mapM_returns_iff, finalizeBatch, List.forall_mem_map]
  exact forall₂_congr fun cv _ => (hblock _).trans (hruns _)

namespace Sample

/-- An output that names its must-haves instead of listing them as objects. -/
def namedMustHaves : Fields ℚ :=
  [("overall_score", .int 8), ("must_haves", .arr [.str "Python"])]

end Sample

/-- One output whose must-haves are texts ends the aggregation of its CV and of the
batch. -/
theorem malformed_output_raises :
    (¬ ∀ (readObject : String → Option (Fields ℚ)) (runs : List RunPayload), ∃ a,
        aggregateRuns Sample.numerics Sample.str Sample.setOrder readObject runs = .ok a) ∧
      ¬ ∀ (readObject : String → Option (Fields ℚ)) (cvs : List CvRef) (runResults : List RunEntry),
        ∃ document, finalizeDocument Sample.numerics Sample.str Sample.setOrder readObject cvs
          runResults = .ok document := by
  have hraise : finalizeDocument Sample.numerics Sample.str Sample.setOrder
      (fun _ => some Sample.namedMustHaves) [Sample.cv "app-2"] Sample.mixedEntries =
        .error .attributeError := rfl
  have hraise' : aggregateRuns Sample.numerics Sample.str Sample.setOrder
      (fun _ => some Sample.namedMustHaves) (runsOf Sample.mixedEntries (Sample.cv "app-2")) =
        .error .attributeError := rfl
  constructor
  · intro h
    obtain ⟨a, ha⟩ := h (fun _ => some Sample.namedMustHaves)
      (runsOf Sample.mixedEntries (Sample.cv "app-2"))
    rw [hraise'] at ha
    cases ha
  · intro h
    obtain ⟨document, hd⟩ := h (fun _ => some Sample.namedMustHaves) [Sample.cv "app-2"]
      Sample.mixedEntries
    rw [hraise] at hd
    cases hd

end TalentMatch
