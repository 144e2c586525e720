import TalentMatch.Finalize
import TalentMatch.Submission

/-!
# Dispatch, and what a run id stands for

`dispatch_run` of `orchestrator/functions/fanout/__init__.py`: the input that the
orchestrator builds for it, the run-index blob that it writes and the message
that it sends. A run id stands for the batch, the application, the document and
the run index that it was minted for, its lineage.

Results:
1. `Lineage.unique`: over batches with distinct UUID ids and distinct application
   ids, a run id has one lineage.
2. `filed_render`, `run_of_document`: the entries of the progress document and of
   the result document are filed under the lineage of their run id.
-/

namespace TalentMatch

open Ledger LedgerLemmas OrchestratorLemmas FinalizeLemmas

/-! ## 1. The activity -/

/-- `DispatchRunInput`. -/
structure DispatchRunInput where
  batchId : String
  jobId : String
  runId : String
  applicationId : String
  documentId : String
  fileName : String
  mimeType : String
  blobUri : String
  sha256 : String
  runIndex : Nat
  promptBlobUri : String
  correlationId : String
  traceparent : String
  deriving DecidableEq

/-- The content of `run-index/{run_id}.json`. -/
structure RunIndexEntry where
  batchId : String
  jobId : String
  runId : String
  applicationId : String
  documentId : String
  runIndex : Nat
  dispatchedAt : String
  deriving DecidableEq

/-- `RunMessage`, with the fields of its parameters that dispatch sets, and the
application properties it is sent with. -/
structure RunMessage where
  messageId : String
  runId : String
  engine : String
  cvBlobUris : List String
  promptBlobUri : String
  correlationId : String
  enqueuedAt : String
  applicationProperties : List (String × String)
  deriving DecidableEq

/-- `dispatch_input` of the dispatch loop. -/
def BatchPayload.dispatchInput (uuid5 : String → String) (payload : BatchPayload)
    (promptBlobUri : String) (cv : CvRef) (runIndex : Nat) : DispatchRunInput where
  batchId := payload.batchId
  jobId := payload.jobId
  runId := payload.runId uuid5 cv runIndex
  applicationId := cv.applicationId
  documentId := cv.documentId
  fileName := cv.fileName
  mimeType := cv.mimeType
  blobUri := cv.blobUri
  sha256 := cv.sha256
  runIndex := runIndex
  promptBlobUri := promptBlobUri
  correlationId := payload.correlationId
  traceparent := payload.traceparent

/-- The inputs of the dispatch loop, in its order. -/
def BatchPayload.dispatchInputs (uuid5 : String → String) (payload : BatchPayload)
    (promptBlobUri : String) : List DispatchRunInput :=
  payload.slots.map fun s => payload.dispatchInput uuid5 promptBlobUri s.1 s.2

/-- The run-index blob that `dispatch_run` writes. -/
def DispatchRunInput.indexEntry (inp : DispatchRunInput) (dispatchedAt : String) : RunIndexEntry where
  batchId := inp.batchId
  jobId := inp.jobId
  runId := inp.runId
  applicationId := inp.applicationId
  documentId := inp.documentId
  runIndex := inp.runIndex
  dispatchedAt := dispatchedAt

/-- The message that `dispatch_run` sends. -/
def DispatchRunInput.runMessage (inp : DispatchRunInput) (messageId dispatchedAt : String) :
    RunMessage :=
  let correlationId := orText inp.correlationId inp.batchId
  { messageId := messageId
    runId := inp.runId
    engine := "awreason"
    cvBlobUris := [inp.blobUri]
    promptBlobUri := inp.promptBlobUri
    correlationId := correlationId
    enqueuedAt := dispatchedAt
    applicationProperties :=
      [("correlationId", correlationId), ("runId", inp.runId)] ++
        if inp.traceparent = "" then [] else [("traceparent", inp.traceparent)] }

/-! ## 2. Lineage -/

/-- What a run id was minted for. -/
structure Lineage where
  batchId : String
  applicationId : String
  documentId : String
  runIndex : Nat
  deriving DecidableEq

/-- The lineage that a run-index blob names. -/
def RunIndexEntry.lineage (e : RunIndexEntry) : Lineage :=
  ⟨e.batchId, e.applicationId, e.documentId, e.runIndex⟩

/-- The orchestrator of one of the batches minted the run id for `l`. -/
def MintedFor (uuid5 : String → String) (batches : List BatchPayload) (runId : String)
    (l : Lineage) : Prop :=
  ∃ payload ∈ batches, ∃ cv ∈ payload.cvs, ∃ i < payload.runCount,
    payload.runId uuid5 cv i = runId ∧
      l = ⟨payload.batchId, cv.applicationId, cv.documentId, i⟩

/-- Batches that run at the same time: each is its own instance, and lists an
application once. -/
structure DistinctBatches (batches : List BatchPayload) : Prop where
  batchIds : (batches.map BatchPayload.batchId).Nodup
  applications : ∀ payload ∈ batches, payload.DistinctApplications

/-- The API takes a UUID for a batch id. -/
def UuidBatchIds (batches : List BatchPayload) : Prop :=
  ∀ payload ∈ batches, IsUuidText payload.batchId

instance (batches : List BatchPayload) : Decidable (DistinctBatches batches) :=
  decidable_of_iff ((batches.map BatchPayload.batchId).Nodup ∧
      ∀ payload ∈ batches, payload.DistinctApplications)
    ⟨fun h => ⟨h.1, h.2⟩, fun h => ⟨h.batchIds, h.applications⟩⟩

instance (batches : List BatchPayload) : Decidable (UuidBatchIds batches) :=
  inferInstanceAs (Decidable (∀ payload ∈ batches, IsUuidText payload.batchId))

section Lineage
variable {uuid5 : String → String} {batches : List BatchPayload}

theorem DistinctBatches.ext (hb : DistinctBatches batches) {payload payload' : BatchPayload}
    (h : payload ∈ batches) (h' : payload' ∈ batches) (heq : payload.batchId = payload'.batchId) :
    payload = payload' :=
  List.inj_on_of_nodup_map hb.batchIds h h' heq

/-- A run id has one lineage. -/
theorem Lineage.unique (hu : Uuid5Spec uuid5) (hb : DistinctBatches batches)
    (hid : UuidBatchIds batches) {r : String} {l l' : Lineage}
    (h : MintedFor uuid5 batches r l) (h' : MintedFor uuid5 batches r l') : l = l' := by
  obtain ⟨payload, hp, cv, hcv, i, -, hr, rfl⟩ := h
  obtain ⟨payload', hp', cv', hcv', i', -, hr', rfl⟩ := h'
  have hcolon := (hid payload hp).colon_not_mem
  have hcolon' := (hid payload' hp').colon_not_mem
  obtain ⟨hbatch, happ, rfl⟩ := mintRunId_inj_of_batch hu hcolon hcolon' (hr.trans hr'.symm)
  obtain rfl := hb.ext hp hp' hbatch
  obtain rfl := (hb.applications payload hp).cv_ext hcv hcv' happ
  rfl

/-- The input of an activity is about a run that was minted. -/
theorem mintedFor_of_input {payload : BatchPayload} (hp : payload ∈ batches) {uri : String}
    {inp : DispatchRunInput} (h : inp ∈ payload.dispatchInputs uuid5 uri) (dispatchedAt : String) :
    MintedFor uuid5 batches inp.runId (inp.indexEntry dispatchedAt).lineage := by
  obtain ⟨⟨cv, i⟩, hs, rfl⟩ := List.mem_map.mp h
  obtain ⟨hcv, hi⟩ := BatchPayload.mem_slots.mp hs
  exact ⟨payload, hp, cv, hcv, i, hi, rfl, rfl⟩

/-- A run id is dispatched with one input. -/
theorem dispatchInput_ext (hu : Uuid5Spec uuid5) (hb : DistinctBatches batches)
    (hid : UuidBatchIds batches) {uri : String → String} {payload payload' : BatchPayload}
    (hp : payload ∈ batches) (hp' : payload' ∈ batches) {inp inp' : DispatchRunInput}
    (h : inp ∈ payload.dispatchInputs uuid5 (uri payload.batchId))
    (h' : inp' ∈ payload'.dispatchInputs uuid5 (uri payload'.batchId))
    (heq : inp.runId = inp'.runId) : inp = inp' := by
  have hlineage := Lineage.unique hu hb hid (mintedFor_of_input hp h "")
    (heq ▸ mintedFor_of_input hp' h' "")
  obtain ⟨slot, hslot, rfl⟩ := List.mem_map.mp h
  obtain ⟨slot', hslot', rfl⟩ := List.mem_map.mp h'
  obtain rfl := hb.ext hp hp' (congrArg Lineage.batchId hlineage)
  have hcv : slot.1 = slot'.1 := (hb.applications payload hp).cv_ext
    (BatchPayload.mem_slots.mp hslot).1 (BatchPayload.mem_slots.mp hslot').1
    (congrArg Lineage.applicationId hlineage)
  have hindex : slot.2 = slot'.2 := congrArg Lineage.runIndex hlineage
  rw [hcv, hindex]

/-! ## 3. The documents are filed by lineage -/

/-- Every run entry of a progress document is filed under the lineage of its id. -/
def FiledByLineage (uuid5 : String → String) (batches : List BatchPayload) (progress : Progress) :
    Prop :=
  ∀ application ∈ progress.applications, ∀ run ∈ application.runs,
    MintedFor uuid5 batches run.runId
      ⟨progress.batchId, application.applicationId, application.documentId, run.runIndex⟩

/-- A view of the ledger is filed by lineage. -/
theorem filed_render {payload : BatchPayload} (hp : payload ∈ batches) (L : Ledger) :
    FiledByLineage uuid5 batches (render uuid5 payload L) := by
  intro application happ run hrun
  obtain ⟨cv, hcv, rfl⟩ := List.mem_map.mp happ
  obtain ⟨i, hi, rfl⟩ := mem_renderRuns.mp hrun
  exact ⟨payload, hp, cv, hcv, i, hi, (renderRun_runId L cv i).symm, by
    rw [renderRun_runIndex]
    rfl⟩

/-- An entry of a result document comes from a result that arrived, and is filed
where the run was minted. -/
theorem run_of_document {A : Type*} {aggregate : List RunPayload → A} {payload : BatchPayload}
    (hu : Uuid5Spec uuid5) (hd : payload.DistinctApplications) {arrivals : List Arrival}
    (h : OnePerRun uuid5 payload arrivals) {s : OrchState}
    (hs : s.runResults = arrivals.map Arrival.result) {document : List (CvBlock A)}
    (hdoc : finalDocument aggregate uuid5 payload s = some document) {block : CvBlock A}
    (hblock : block ∈ document) {run : RunPayload} (hrun : run ∈ block.runs) :
    ∃ a ∈ arrivals, ∃ cv ∈ payload.cvs, ∃ i < payload.runCount,
      payload.runId uuid5 cv i = a.runId ∧ block.applicationId = cv.applicationId ∧
      block.documentId = cv.documentId ∧
      run = (⟨a.result, cv.applicationId, i⟩ : RunEntry).payload cv.documentId := by
  rw [finalDocument, finalizeInput_eq hu hd h hs] at hdoc
  cases hdoc
  obtain ⟨cv, hcv, rfl⟩ := List.mem_map.mp hblock
  obtain ⟨e, he, rfl⟩ := List.mem_map.mp hrun
  obtain ⟨hmem, happ⟩ := GroupSort.mem_groupSorted.mp he
  obtain ⟨rr, hrr, rfl⟩ := List.mem_map.mp hmem
  obtain ⟨a, ha, rfl⟩ := List.mem_map.mp hrr
  -- the entry has the application and the index of the run that minted its id
  obtain ⟨cv', hcv', i, hi, hr⟩ := BatchPayload.mem_mintedIds.mp (h.minted a ha)
  have ho : owner uuid5 payload a.runId = some (cv', i) := hr ▸ owner_eq_some hu hd hcv' hi
  have hentry : entryOf uuid5 payload a.result = ⟨a.result, cv'.applicationId, i⟩ := by
    rw [entryOf, ho]
  rw [hentry] at happ
  obtain rfl := hd.cv_ext hcv' hcv happ
  exact ⟨a, ha, cv', hcv, i, hi, hr, rfl, rfl, by rw [hentry]⟩

end Lineage

end TalentMatch
