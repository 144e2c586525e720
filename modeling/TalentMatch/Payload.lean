import TalentMatch.Lib.Text
import TalentMatch.Lib.Dict
import Mathlib.Data.List.Nodup
import Mathlib.Data.List.Range
import Mathlib.Data.List.ProdSigma

/-!
# The data that a batch carries

The orchestrator input (`BatchPayload` of `orchestrator/engine_contracts.py`),
the CV references it lists, the result of one run as `result_intake` hands it to
the orchestrator, and the run ids that tie them together.

Results:
1. `mintRunId_inj`: within one batch the run id determines the application and
   the run index, for arbitrary application ids.
2. `mintRunId_inj_of_batch`: across batches whose ids have no colon it also
   determines the batch.
3. `nodup_mintedIds`: a batch with distinct application ids mints distinct ids.
-/

namespace TalentMatch

/-! ## 1. Payloads -/

/-- An entry of `cvs` in the batch payload (`CvRef` of `api/models.py`). -/
structure CvRef where
  applicationId : String
  documentId : String
  fileName : String
  mimeType : String
  blobUri : String
  sha256 : String
  deriving DecidableEq

/-- `BatchPayload`, with the trace fields that `http_start` merges into it. The
model refuses `runCount < 1`; nothing constrains the application ids. -/
structure BatchPayload where
  batchId : String
  jobId : String
  promptVersionId : String
  runCount : Nat
  promptText : String
  cvs : List CvRef
  correlationId : String
  traceparent : String
  one_le_runCount : 1 ≤ runCount

/-- `ArtifactItem` of `orchestrator/sb_contracts.py`. -/
structure ArtifactItem where
  name : String
  blobUri : String
  mime : Option String
  sizeBytes : Option Int
  sha256 : Option String
  deriving DecidableEq

/-- The payload of the external event `run-{run_id}`. A key that is absent and a
key that is null read the same through `get`, so both are `none`. -/
structure RunResult where
  runId : String
  status : String
  durationMs : Int
  tokensPrompt : Int
  tokensCompletion : Int
  errorMessage : Option String
  correlationId : Option String
  traceparent : Option String
  artifacts : Option (List ArtifactItem)
  deriving DecidableEq

/-- `run_result.get("artifacts") or []`. -/
def RunResult.artifactList (rr : RunResult) : List ArtifactItem := rr.artifacts.getD []

/-! ## 2. Run ids -/

/-- What the platform relies on in `uuid.uuid5` with its fixed namespace: names
are not confused, and the text of a UUID is not empty. -/
structure Uuid5Spec (uuid5 : String → String) : Prop where
  injective : Function.Injective uuid5
  nonempty : ∀ name, uuid5 name ≠ ""

/-- `_mint_run_id`. -/
def mintRunId (uuid5 : String → String) (batchId applicationId : String) (runIndex : Nat) : String :=
  uuid5 (batchId ++ ":" ++ applicationId ++ ":" ++ toString runIndex)

section RunIds
variable {uuid5 : String → String}

theorem mintRunId_ne_empty (hu : Uuid5Spec uuid5) (b a : String) (i : Nat) :
    mintRunId uuid5 b a i ≠ "" :=
  hu.nonempty _

/-- Within one batch a run id determines the application id and the run index:
the index is what follows the last colon of the name. -/
theorem mintRunId_inj (hu : Uuid5Spec uuid5) {b a a' : String} {i i' : Nat}
    (h : mintRunId uuid5 b a i = mintRunId uuid5 b a' i') : a = a' ∧ i = i' :=
  PyText.key_injective_of_prefix (hu.injective h)

/-- Across batches, ids without a colon are also determined: the batch id is what
precedes the first colon of the name. -/
theorem mintRunId_inj_of_batch (hu : Uuid5Spec uuid5) {b b' a a' : String} {i i' : Nat}
    (hb : ':' ∉ b.toList) (hb' : ':' ∉ b'.toList)
    (h : mintRunId uuid5 b a i = mintRunId uuid5 b' a' i') : b = b' ∧ a = a' ∧ i = i' :=
  PyText.key_injective hb hb' (hu.injective h)

end RunIds

namespace BatchPayload

/-- The application ids are pairwise distinct. -/
def DistinctApplications (payload : BatchPayload) : Prop :=
  (payload.cvs.map CvRef.applicationId).Nodup

instance (payload : BatchPayload) : Decidable payload.DistinctApplications :=
  inferInstanceAs (Decidable (List.Nodup _))

/-- The run id of run `runIndex` of the application of `cv`. -/
def runId (payload : BatchPayload) (uuid5 : String → String) (cv : CvRef) (runIndex : Nat) : String :=
  mintRunId uuid5 payload.batchId cv.applicationId runIndex

/-- The pairs the dispatch loop goes through, in its order. -/
def slots (payload : BatchPayload) : List (CvRef × Nat) :=
  payload.cvs.flatMap fun cv => (List.range payload.runCount).map fun runIndex => (cv, runIndex)

/-- The run ids the dispatch loop mints, in its order. -/
def mintedIds (payload : BatchPayload) (uuid5 : String → String) : List String :=
  payload.slots.map fun s => payload.runId uuid5 s.1 s.2

variable {payload : BatchPayload} {uuid5 : String → String}

theorem mem_slots {s : CvRef × Nat} :
    s ∈ payload.slots ↔ s.1 ∈ payload.cvs ∧ s.2 < payload.runCount := by
  obtain ⟨cv, i⟩ := s
  simp only [slots, List.mem_flatMap, List.mem_map, List.mem_range, Prod.mk.injEq]
  constructor
  · rintro ⟨cv', hcv, i', hi, rfl, rfl⟩
    exact ⟨hcv, hi⟩
  · rintro ⟨hcv, hi⟩
    exact ⟨cv, hcv, i, hi, rfl, rfl⟩

theorem length_slots : payload.slots.length = payload.cvs.length * payload.runCount := by
  simp [slots, List.length_flatMap]

theorem mem_mintedIds {r : String} :
    r ∈ payload.mintedIds uuid5 ↔
      ∃ cv ∈ payload.cvs, ∃ i < payload.runCount, payload.runId uuid5 cv i = r := by
  simp only [mintedIds, List.mem_map, mem_slots, Prod.exists]
  constructor
  · rintro ⟨cv, i, ⟨hcv, hi⟩, rfl⟩
    exact ⟨cv, hcv, i, hi, rfl⟩
  · rintro ⟨cv, hcv, i, hi, rfl⟩
    exact ⟨cv, i, ⟨hcv, hi⟩, rfl⟩

theorem runId_mem_mintedIds {cv : CvRef} {i : Nat} (hcv : cv ∈ payload.cvs)
    (hi : i < payload.runCount) : payload.runId uuid5 cv i ∈ payload.mintedIds uuid5 :=
  mem_mintedIds.mpr ⟨cv, hcv, i, hi, rfl⟩

theorem length_mintedIds :
    (payload.mintedIds uuid5).length = payload.cvs.length * payload.runCount := by
  simp [mintedIds, length_slots]

/-- With distinct application ids, a CV is determined by its application id. -/
theorem DistinctApplications.cv_ext (hd : payload.DistinctApplications) {cv cv' : CvRef}
    (h : cv ∈ payload.cvs) (h' : cv' ∈ payload.cvs)
    (heq : cv.applicationId = cv'.applicationId) : cv = cv' :=
  List.inj_on_of_nodup_map hd h h' heq

theorem DistinctApplications.nodup_cvs (hd : payload.DistinctApplications) : payload.cvs.Nodup :=
  List.Nodup.of_map _ hd

theorem nodup_slots (h : payload.cvs.Nodup) : payload.slots.Nodup := by
  refine List.nodup_flatMap.mpr ⟨fun cv _ => ?_, ?_⟩
  · exact (List.nodup_range).map fun i j hij => (Prod.mk.inj hij).2
  · refine h.imp ?_
    intro cv cv' hne s hs hs'
    obtain ⟨_, _, rfl⟩ := List.mem_map.mp hs
    obtain ⟨_, _, he⟩ := List.mem_map.mp hs'
    exact hne (Prod.mk.inj he).1.symm

theorem runId_ne_empty (hu : Uuid5Spec uuid5) (cv : CvRef) (i : Nat) :
    payload.runId uuid5 cv i ≠ "" :=
  mintRunId_ne_empty hu _ _ _

/-- The run id determines the CV and the run index. -/
theorem runId_inj (hu : Uuid5Spec uuid5) (hd : payload.DistinctApplications) {cv cv' : CvRef}
    {i i' : Nat} (hcv : cv ∈ payload.cvs) (hcv' : cv' ∈ payload.cvs)
    (h : payload.runId uuid5 cv i = payload.runId uuid5 cv' i') : cv = cv' ∧ i = i' := by
  obtain ⟨ha, hi⟩ := mintRunId_inj hu h
  exact ⟨hd.cv_ext hcv hcv' ha, hi⟩

/-- A batch with distinct application ids mints distinct run ids. -/
theorem nodup_mintedIds (hu : Uuid5Spec uuid5) (hd : payload.DistinctApplications) :
    (payload.mintedIds uuid5).Nodup := by
  refine (List.nodup_map_iff_inj_on (nodup_slots hd.nodup_cvs)).mpr ?_
  rintro ⟨cv, i⟩ h ⟨cv', i'⟩ h' heq
  obtain ⟨rfl, rfl⟩ := runId_inj hu hd (mem_slots.mp h).1 (mem_slots.mp h').1 heq
  rfl

end BatchPayload

/-! ## 3. Sample batches -/

/-- A function that has the values of a table and marks all other names. -/
def tableUuid5 (table : List (String × String)) (name : String) : String :=
  (Dict.get? table name).getD ("?" ++ name)

theorem tableUuid5_spec {table : List (String × String)} (hn : (table.map Prod.snd).Nodup)
    (hmark : ∀ p ∈ table, p.2.toList.head? ≠ some '?') (hne : ∀ p ∈ table, p.2 ≠ "") :
    Uuid5Spec (tableUuid5 table) where
  injective := by
    intro a b hab
    unfold tableUuid5 at hab
    have hunmarked : ∀ {c v : String}, (c, v) ∈ table → ∀ d, v ≠ "?" ++ d := by
      rintro c v hv d rfl
      exact hmark _ hv (by simp)
    cases ha : Dict.get? table a with
    | none =>
      cases hb : Dict.get? table b with
      | none =>
        rw [ha, hb] at hab
        exact String.append_right_inj "?" |>.mp hab
      | some w =>
        rw [ha, hb] at hab
        exact absurd hab.symm (hunmarked (Dict.mem_of_get? hb) a)
    | some v =>
      cases hb : Dict.get? table b with
      | none =>
        rw [ha, hb] at hab
        exact absurd hab (hunmarked (Dict.mem_of_get? ha) b)
      | some w =>
        rw [ha, hb] at hab
        have hmem := List.inj_on_of_nodup_map hn (Dict.mem_of_get? ha) (Dict.mem_of_get? hb) hab
        exact congrArg Prod.fst hmem
  nonempty := by
    intro name
    unfold tableUuid5
    cases h : Dict.get? table name with
    | none => simp
    | some v => exact hne _ (Dict.mem_of_get? h)

namespace Sample

/-- The ids of two batches. -/
def batch1 : String := "0b5a6b0e-4d0c-4c9e-9a55-0d8f6f3c1e11"
def batch2 : String := "5d1c2f7a-93b4-4e6d-8a21-7c0e9b4f2d33"

/-- The values of `uuid5` in the namespace of run ids for the runs of both
batches. -/
def uuid5 : String → String :=
  tableUuid5
    [("0b5a6b0e-4d0c-4c9e-9a55-0d8f6f3c1e11:app-1:0", "c055d77e-9f11-5874-aa97-192185e2def4"),
     ("0b5a6b0e-4d0c-4c9e-9a55-0d8f6f3c1e11:app-1:1", "1dc9f636-dfec-5a39-b57c-0f932e44553d"),
     ("0b5a6b0e-4d0c-4c9e-9a55-0d8f6f3c1e11:app-2:0", "0c6c49f9-bfe7-5329-ba7e-8e851db2833e"),
     ("0b5a6b0e-4d0c-4c9e-9a55-0d8f6f3c1e11:app-2:1", "9cdfe89d-791a-5f78-99d5-7554098157ca"),
     ("5d1c2f7a-93b4-4e6d-8a21-7c0e9b4f2d33:app-1:0", "a7b86189-c0fd-55ad-af6b-549ccbd5191a"),
     ("5d1c2f7a-93b4-4e6d-8a21-7c0e9b4f2d33:app-1:1", "a9a38fcb-240a-544f-8f65-209d341116f9"),
     ("5d1c2f7a-93b4-4e6d-8a21-7c0e9b4f2d33:app-2:0", "d8de723b-a983-55aa-96d2-0e7990131d5e"),
     ("5d1c2f7a-93b4-4e6d-8a21-7c0e9b4f2d33:app-2:1", "9fbdf606-6bb7-5986-a076-11eb887d520e")]

theorem uuid5_spec : Uuid5Spec uuid5 :=
  tableUuid5_spec (by decide) (by decide) (by decide)

/-- A CV with the given application id. -/
def cv (applicationId : String) : CvRef where
  applicationId := applicationId
  documentId := "cv-" ++ applicationId
  fileName := applicationId ++ ".pdf"
  mimeType := "application/pdf"
  blobUri := "https://awrstore.blob.core.windows.net/raw/" ++ applicationId ++ ".pdf"
  sha256 := "9f86d081884c7d659a2feaa0c55ad015a3bf4f1b2b0b822cd15d6c15b0f00a08"

/-- A batch of the given applications with the given number of runs plus one. -/
def payload (batchId : String) (applicationIds : List String) (extraRuns : Nat) : BatchPayload where
  batchId := batchId
  jobId := "job-1"
  promptVersionId := "prompt-v1"
  runCount := extraRuns + 1
  promptText := "Score this CV."
  cvs := applicationIds.map cv
  correlationId := "corr-1"
  traceparent := ""
  one_le_runCount := Nat.le_add_left 1 extraRuns

/-- A result with the given status. -/
def result (runId status : String) : RunResult where
  runId := runId
  status := status
  durationMs := 1200
  tokensPrompt := 310
  tokensCompletion := 88
  errorMessage := none
  correlationId := none
  traceparent := none
  artifacts := none

end Sample

end TalentMatch
