import TalentMatch.Lib.Text

/-!
# Run and application statuses

The classifications of a status string in `orchestrator/functions/fanout`: the
terminal test, the event type of a finished run and the summary of an
application's runs. All of them compare the status after `_status_key`.
-/

namespace TalentMatch

/-- `_status_key`. -/
def statusKey (value : String) : String := PyText.lower (PyText.strip value)

/-- `_is_terminal_run_status`. -/
def isTerminalRunStatus (status : String) : Bool :=
  ["succeeded", "completed", "failed", "cancelled", "canceled"].contains (statusKey status)

/-- `_terminal_run_event_type`. -/
def terminalRunEventType (status : String) : String :=
  if statusKey status = "failed" then "run.failed"
  else if ["cancelled", "canceled"].contains (statusKey status) then "run.cancelled"
  else "run.completed"

/-- `_summarize_application_status`, over the statuses of the runs. -/
def summarizeApplicationStatus (runStatuses : List String) : String :=
  let statuses := runStatuses.map statusKey
  if statuses.any fun s => ["queued", "dispatched", "running", ""].contains s then
    if statuses.any fun s => s != "queued" then "running" else "queued"
  else if statuses.all fun s => ["succeeded", "completed"].contains s then "completed"
  else if statuses.all fun s => ["failed"].contains s then "failed"
  else if statuses.all fun s => ["cancelled", "canceled"].contains s then "cancelled"
  else "partial"

/-- A status the wire contract documents (`RunResultMessage.status`): 'Succeeded',
'Failed' or 'Partial', in any letter case. -/
def IsWireStatus (status : String) : Prop :=
  PyText.lower status ∈ ["succeeded", "failed", "partial"]

instance (status : String) : Decidable (IsWireStatus status) :=
  inferInstanceAs (Decidable (_ ∈ _))

/-! ## Statuses that the platform itself writes -/

@[simp] theorem statusKey_queued : statusKey "queued" = "queued" := by decide

@[simp] theorem statusKey_dispatched : statusKey "dispatched" = "dispatched" := by decide

@[simp] theorem isTerminalRunStatus_queued : isTerminalRunStatus "queued" = false := by decide

@[simp] theorem isTerminalRunStatus_dispatched : isTerminalRunStatus "dispatched" = false := by
  decide

/-- An application with a dispatched run is running. -/
theorem summarize_of_dispatched {statuses : List String} (h : "dispatched" ∈ statuses) :
    summarizeApplicationStatus statuses = "running" := by
  have hmem : "dispatched" ∈ statuses.map statusKey :=
    List.mem_map.mpr ⟨_, h, statusKey_dispatched⟩
  have hpending : (statuses.map statusKey).any
      (fun s => ["queued", "dispatched", "running", ""].contains s) = true :=
    List.any_eq_true.mpr ⟨_, hmem, by decide⟩
  have hstarted : (statuses.map statusKey).any (fun s => s != "queued") = true :=
    List.any_eq_true.mpr ⟨_, hmem, by decide⟩
  simp only [summarizeApplicationStatus, hpending, hstarted, if_true]

/-- An application none of whose runs was dispatched is queued. -/
theorem summarize_of_queued {statuses : List String} (hne : statuses ≠ [])
    (h : ∀ s ∈ statuses, s = "queued") : summarizeApplicationStatus statuses = "queued" := by
  have hkeys : ∀ s ∈ statuses.map statusKey, s = "queued" := by
    intro s hs
    obtain ⟨t, ht, rfl⟩ := List.mem_map.mp hs
    rw [h t ht, statusKey_queued]
  obtain ⟨s, hs⟩ := List.exists_mem_of_ne_nil (statuses.map statusKey) (by simpa using hne)
  have hpending : (statuses.map statusKey).any
      (fun s => ["queued", "dispatched", "running", ""].contains s) = true :=
    List.any_eq_true.mpr ⟨s, hs, by rw [hkeys s hs]; decide⟩
  have hstarted : (statuses.map statusKey).any (fun s => s != "queued") = false := by
    rw [List.any_eq_false]
    intro s hs
    simp [hkeys s hs]
  simp only [summarizeApplicationStatus, hpending, hstarted, if_true, Bool.false_eq_true, if_false]

/-! ## Wire statuses -/

/-- Stripping a wire status removes nothing: its letters are not white space. -/
theorem IsWireStatus.statusKey_eq {status : String} (h : IsWireStatus status) :
    statusKey status = PyText.lower status := by
  have hwords : ∀ w ∈ ["succeeded", "failed", "partial"],
      w.toList.all (fun c => !PyText.isSpace c) = true := by decide
  have hletters : ∀ c ∈ (PyText.lower status).toList, PyText.isSpace c = false := by
    intro c hc
    exact Bool.not_eq_true' _ |>.mp (List.all_eq_true.mp (hwords _ h) c hc)
  rw [statusKey, PyText.strip_of_lower hletters]

/-- The only wire status that `_is_terminal_run_status` does not recognise is
'Partial'. -/
theorem IsWireStatus.isTerminal_iff {status : String} (h : IsWireStatus status) :
    isTerminalRunStatus status = true ↔ PyText.lower status ≠ "partial" := by
  have hwords : ∀ w ∈ ["succeeded", "failed", "partial"],
      ["succeeded", "completed", "failed", "cancelled", "canceled"].contains w = true ↔
        w ≠ "partial" := by decide
  rw [isTerminalRunStatus, h.statusKey_eq]
  exact hwords _ h

end TalentMatch
