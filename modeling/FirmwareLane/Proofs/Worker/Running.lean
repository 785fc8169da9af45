import FirmwareLane.Worker.Service

/-!
# The course of a run

A run makes a sandbox, restores the snapshot in it and captures that if only changes are wanted; it
carries out its operations and sends back what they left.  Whatever goes wrong before the first
operation is an error without details.  So there are two things that a run can come to: those after
it is begun (`run_of_begun`), and the reason why it is not (`run_of_not_begun`).
-/

set_option autoImplicit false
namespace FirmwareLane
namespace Service

variable {m : Machine} {config : WorkerConfig} {request : Request} {host : Host}

/-! ## Errors without details -/

theorem data_of_parsePayload {α : Type} [Json.Wire α] {e : RemoteError}
    (h : (request.parsePayload : Except RemoteError α) = .error e) : e.data = none := by
  rw [Request.parsePayload] at h
  split at h
  · exact nomatch h
  · cases h
    rfl

theorem data_of_captureSandbox {fs : Files} {root : String} {table : Classification}
    {e : RemoteError} (h : captureSandbox fs root table = .error e) : e.data = none := by
  rw [captureSandbox] at h
  split at h
  · exact nomatch h
  · cases h
    rfl

theorem data_of_baseline {fs : Files} {root : String} {asked : RunRequest} {e : RemoteError}
    (h : baseline fs root asked = .error e) : e.data = none := by
  rw [baseline] at h
  split at h
  · cases hcapture : captureSandbox fs root asked.extensions with
    | ok s => rw [hcapture] at h; exact nomatch h
    | error fault =>
      rw [hcapture] at h
      cases h
      exact data_of_captureSandbox hcapture
  · exact nomatch h

/-! ## Before and after the first operation -/

/-- The course of a run up to its first operation: a sandbox is made at `root`, the snapshot is
restored, which leaves the files `restored`, and those are captured if only changes are wanted. -/
structure Begun (m : Machine) (config : WorkerConfig) (request : Request) (host : Host)
    (payload : RunRequest) (root : String) (restored : Files) (before : Option Snapshot) :
    Prop where
  payload_eq : request.parsePayload = .ok payload
  made : ∃ fs,
    Action.perform (Sandbox.create config.workRoot
      (Sandbox.name request.requestId (m.nanoseconds host.sandboxes) host.sandboxes)) host.files =
        (.ok root, fs) ∧
    Action.perform (Transfer.restore root payload.snapshot) fs = (.ok (), restored)
  baseline_eq : baseline restored root payload = .ok before

/-- The pipeline of a run in a sandbox. -/
def pipelineIn (config : WorkerConfig) (root : String) : Pipeline :=
  ⟨root, config.operationTimeoutSeconds * 1000⟩

/-- A run that is begun carries out its operations, and sends back what came of them. -/
theorem run_of_begun {payload : RunRequest} {root : String} {restored : Files}
    {before : Option Snapshot} (h : Begun m config request host payload root restored before) :
    (run m config request host).1 =
      match (pipelineIn config root).execute m payload.operations restored with
      | (.ok outcome, finished) => .ok (runResponse finished root payload before outcome)
      | (.error crash, _) => .error crash := by
  obtain ⟨fs, hcreate, hrestore⟩ := h.made
  rw [run, h.payload_eq]
  simp only [hcreate, runInside, hrestore, h.baseline_eq, pipelineIn]
  rcases Pipeline.execute m ⟨root, config.operationTimeoutSeconds * 1000⟩ payload.operations
    restored with ⟨_ | outcome, finished⟩ <;> rfl

/-- A run that is not begun says why. -/
theorem run_of_not_begun
    (h : ∀ payload root restored before,
      ¬ Begun m config request host payload root restored before) :
    ∃ e, (run m config request host).1 = .ok (.error e) ∧ e.data = none := by
  rw [run]
  cases hparse : (request.parsePayload : Except RemoteError RunRequest) with
  | error e => exact ⟨e, rfl, data_of_parsePayload hparse⟩
  | ok payload =>
    rcases hcreate : Action.perform (Sandbox.create config.workRoot
      (Sandbox.name request.requestId (m.nanoseconds host.sandboxes) host.sandboxes))
        host.files with ⟨fault | root, fs⟩
    · exact ⟨.sandboxFailed fault.message, by simp only [hcreate], rfl⟩
    rcases hrestore : Action.perform (Transfer.restore root payload.snapshot) fs with
      ⟨fault | done, restored⟩
    · exact ⟨restoreFailed fault, by simp only [hcreate, runInside, hrestore], rfl⟩
    cases hbaseline : baseline restored root payload with
    | error e =>
      exact ⟨e, by simp only [hcreate, runInside, hrestore, hbaseline], data_of_baseline hbaseline⟩
    | ok before =>
      exact absurd ⟨hparse, ⟨fs, hcreate, hrestore⟩, hbaseline⟩ (h payload root restored before)

end Service
end FirmwareLane
