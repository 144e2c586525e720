import TalentMatch.Orchestrator

/-!
# Submitted batches

What `POST /assess/batch` accepts (`BatchSubmitRequest` of `api/models.py`), the
orchestrator input made from it, and the run ids of that batch.

Results:
1. `run_ids_distinct_iff`: the run ids of an accepted request are distinct, and
   with them the entries of `run_index_map`, the event names and the run-index
   blobs, exactly when its application ids are. The request model does not ask
   for that.
-/

namespace TalentMatch

/-! ## 1. Requests -/

/-- The text of a `uuid.UUID`: five groups of lower-case hexadecimal digits. -/
def IsUuidText (text : String) : Prop :=
  text.length = 36 ∧ ∀ i < 36,
    if i ∈ [8, 13, 18, 23] then text.toList[i]? = some '-'
    else text.toList[i]?.any "0123456789abcdef".toList.contains = true

instance (text : String) : Decidable (IsUuidText text) :=
  inferInstanceAs (Decidable (_ ∧ _))

/-- What `CvRef` asks of its fields. The URL syntax of `blobUri` is left to the
library type. -/
structure CvRef.IsValid (cv : CvRef) : Prop where
  applicationId : 1 ≤ cv.applicationId.length ∧ cv.applicationId.length ≤ 64
  documentId : 1 ≤ cv.documentId.length ∧ cv.documentId.length ≤ 64
  fileName : 1 ≤ cv.fileName.length ∧ cv.fileName.length ≤ 500
  mimeType : 1 ≤ cv.mimeType.length ∧ cv.mimeType.length ≤ 100
  sha256 : cv.sha256.length = 64 ∧ cv.sha256.toList.all "0123456789abcdefABCDEF".toList.contains = true

instance (cv : CvRef) : Decidable cv.IsValid :=
  decidable_of_iff
    ((1 ≤ cv.applicationId.length ∧ cv.applicationId.length ≤ 64) ∧
      (1 ≤ cv.documentId.length ∧ cv.documentId.length ≤ 64) ∧
      (1 ≤ cv.fileName.length ∧ cv.fileName.length ≤ 500) ∧
      (1 ≤ cv.mimeType.length ∧ cv.mimeType.length ≤ 100) ∧
      (cv.sha256.length = 64 ∧
        cv.sha256.toList.all "0123456789abcdefABCDEF".toList.contains = true))
    ⟨fun h => ⟨h.1, h.2.1, h.2.2.1, h.2.2.2.1, h.2.2.2.2⟩,
      fun h => ⟨h.applicationId, h.documentId, h.fileName, h.mimeType, h.sha256⟩⟩

/-- `BatchSubmitRequest`: an accepted body, with what the model asks of it. -/
structure BatchSubmitRequest where
  batchId : String
  jobId : String
  promptVersionId : String
  runCount : Nat
  promptText : String
  cvs : List CvRef
  callbackUrl : Option String
  isUuid_batchId : IsUuidText batchId
  length_jobId : 1 ≤ jobId.length ∧ jobId.length ≤ 64
  length_promptVersionId : 1 ≤ promptVersionId.length ∧ promptVersionId.length ≤ 64
  runCount_range : 1 ≤ runCount ∧ runCount ≤ 10
  length_promptText : 1 ≤ promptText.length
  length_cvs : 1 ≤ cvs.length ∧ cvs.length ≤ 100
  isValid_cvs : ∀ cv ∈ cvs, cv.IsValid

/-- The orchestrator input: `model_dump` of the request, with the trace headers
that `http_start` merges into it. -/
def BatchSubmitRequest.payload (request : BatchSubmitRequest) (correlationId traceparent : String) :
    BatchPayload where
  batchId := request.batchId
  jobId := request.jobId
  promptVersionId := request.promptVersionId
  runCount := request.runCount
  promptText := request.promptText
  cvs := request.cvs
  correlationId := correlationId
  traceparent := traceparent
  one_le_runCount := request.runCount_range.1

/-- The text of a UUID has no colon. -/
theorem IsUuidText.colon_not_mem {text : String} (h : IsUuidText text) : ':' ∉ text.toList := by
  intro hm
  obtain ⟨i, hi⟩ := List.mem_iff_getElem?.mp hm
  have hlt : i < 36 := by
    have := (List.getElem?_eq_some_iff.mp hi).1
    rwa [String.length_toList, h.1] at this
  have hchar := h.2 i hlt
  split at hchar
  · rw [hi] at hchar
    cases hchar
  · rw [hi] at hchar
    exact absurd hchar (by decide)

/-! ## 2. The run ids of a request -/

/-- `run-index/{run_id}.json`. -/
def runIndexPath (runId : String) : String := "run-index/" ++ runId ++ ".json"

theorem runIndexPath_injective : Function.Injective runIndexPath := by
  intro r r' h
  have hl := congrArg String.toList h
  exact String.toList_inj.mp (by simpa [runIndexPath] using hl)

/-- The name of the event of a run. -/
def eventName (runId : String) : String := "run-" ++ runId

theorem eventName_injective : Function.Injective eventName := by
  intro r r' h
  have hl := congrArg String.toList h
  exact String.toList_inj.mp (by simpa [eventName] using hl)

section RunIds
variable (uuid5 : String → String) (payload : BatchPayload)

/-- The runs of the batch do not share anything that is named by a run id. A run
is a position in `cvs` and a run index. -/
structure RunIdsDistinct : Prop where
  ids : ∀ (n n' : Nat) (cv cv' : CvRef), payload.cvs[n]? = some cv → payload.cvs[n']? = some cv' →
    ∀ i < payload.runCount, ∀ i' < payload.runCount,
      payload.runId uuid5 cv i = payload.runId uuid5 cv' i' → n = n' ∧ i = i'
  entries : (runIndexMap uuid5 payload).length = payload.cvs.length * payload.runCount
  events : ((eventTasks uuid5 payload).map eventName).Nodup
  blobs : ((payload.mintedIds uuid5).map runIndexPath).Nodup

end RunIds

variable {uuid5 : String → String} {payload : BatchPayload}

/-- Two positions with one application id share the run id of run 0. -/
theorem distinctApplications_of_nodup (h : (payload.mintedIds uuid5).Nodup) :
    payload.DistinctApplications := by
  rw [BatchPayload.mintedIds, BatchPayload.slots, List.map_flatMap, List.nodup_flatMap] at h
  refine List.pairwise_map.mpr (h.2.imp ?_)
  intro cv cv' hdisjoint heq
  have hzero : (cv, 0) ∈ (List.range payload.runCount).map fun i => (cv, i) :=
    List.mem_map.mpr ⟨0, List.mem_range.mpr payload.one_le_runCount, rfl⟩
  have hzero' : (cv', 0) ∈ (List.range payload.runCount).map fun i => (cv', i) :=
    List.mem_map.mpr ⟨0, List.mem_range.mpr payload.one_le_runCount, rfl⟩
  have hid : payload.runId uuid5 cv 0 = payload.runId uuid5 cv' 0 := by
    rw [BatchPayload.runId, BatchPayload.runId, heq]
  exact hdisjoint (List.mem_map.mpr ⟨(cv, 0), hzero, hid⟩)
    (List.mem_map.mpr ⟨(cv', 0), hzero', rfl⟩)

theorem runIdsDistinct_of_distinctApplications (hu : Uuid5Spec uuid5)
    (hd : payload.DistinctApplications) : RunIdsDistinct uuid5 payload where
  ids := by
    intro n n' cv cv' hn hn' i _ i' _ heq
    obtain ⟨rfl, rfl⟩ := BatchPayload.runId_inj hu hd (List.mem_of_getElem? hn)
      (List.mem_of_getElem? hn') heq
    have hlt := (List.getElem?_eq_some_iff.mp hn).1
    exact ⟨(List.getElem?_inj hlt hd.nodup_cvs).mp (hn.trans hn'.symm), rfl⟩
  entries := by
    have hkeys : (Dict.keys (runIndexPairs uuid5 payload)).Nodup := by
      rw [OrchestratorLemmas.keys_runIndexPairs]
      exact BatchPayload.nodup_mintedIds hu hd
    rw [runIndexMap, Dict.ofPairs_of_nodup hkeys, runIndexPairs, List.length_map,
      BatchPayload.length_slots]
  events := (BatchPayload.nodup_mintedIds hu hd).map eventName_injective
  blobs := (BatchPayload.nodup_mintedIds hu hd).map runIndexPath_injective

/-- The runs of an accepted request are kept apart exactly when its application
ids are pairwise distinct. -/
theorem run_ids_distinct_iff (hu : Uuid5Spec uuid5) (request : BatchSubmitRequest)
    (correlationId traceparent : String) :
    RunIdsDistinct uuid5 (request.payload correlationId traceparent) ↔
      (request.cvs.map CvRef.applicationId).Nodup := by
  constructor
  · intro h
    exact distinctApplications_of_nodup (List.Nodup.of_map _ h.events)
  · intro h
    have hd : (request.payload correlationId traceparent).DistinctApplications := h
    exact runIdsDistinct_of_distinctApplications hu hd

namespace Sample

/-- Two documents under one application id. -/
def duplicateRequest : BatchSubmitRequest where
  batchId := batch1
  jobId := "job-1"
  promptVersionId := "prompt-v1"
  runCount := 1
  promptText := "Score this CV."
  cvs := [cv "app-1", { cv "app-1" with documentId := "cv-app-1b" }]
  callbackUrl := none
  isUuid_batchId := by decide
  length_jobId := by decide
  length_promptVersionId := by decide
  runCount_range := by decide
  length_promptText := by decide
  length_cvs := by decide
  isValid_cvs := by decide

end Sample

/-- That request is accepted, and its two runs share one run id: one entry of
`run_index_map`, one event and one blob for two tasks. -/
theorem duplicate_application_shares_run_id :
    Uuid5Spec Sample.uuid5 ∧
      (Sample.duplicateRequest.payload "" "").mintedIds Sample.uuid5 =
        ["c055d77e-9f11-5874-aa97-192185e2def4", "c055d77e-9f11-5874-aa97-192185e2def4"] ∧
      (runIndexMap Sample.uuid5 (Sample.duplicateRequest.payload "" "")).length = 1 ∧
      ¬ RunIdsDistinct Sample.uuid5 (Sample.duplicateRequest.payload "" "") := by
  have hminted : (Sample.duplicateRequest.payload "" "").mintedIds Sample.uuid5 =
      ["c055d77e-9f11-5874-aa97-192185e2def4", "c055d77e-9f11-5874-aa97-192185e2def4"] := by decide
  refine ⟨Sample.uuid5_spec, hminted, by decide, fun h => ?_⟩
  have hevents := List.Nodup.of_map _ h.events
  rw [eventTasks, hminted] at hevents
  simp at hevents

/-- The theorem on that request. -/
theorem run_ids_distinct_iff_sample :
    RunIdsDistinct Sample.uuid5 (Sample.duplicateRequest.payload "" "") ↔
      (Sample.duplicateRequest.cvs.map CvRef.applicationId).Nodup :=
  run_ids_distinct_iff Sample.uuid5_spec Sample.duplicateRequest "" ""

end TalentMatch
