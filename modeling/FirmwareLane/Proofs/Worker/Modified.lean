import FirmwareLane.Proofs.Snapshot.Diff
import FirmwareLane.Proofs.Transfer.Captured
import FirmwareLane.Proofs.Worker.Running

/-!
# The files that come back, and when the outcome is reported

A run captures its sandbox twice, right after the snapshot was restored and when the operations are
over, both times with the table of the request.  When only changes are wanted, what comes back is the
second capture without the entries that the first one has too (`snapshot_of_modified_only`).

The first capture, and not the snapshot of the request, is what changes are measured against: a
restored text has other line ends than the request may have given it, and the table may take for
bytes what came as text, or not know a file at all.  None of this is a change.

The second capture is made whether the operations did well or not, and the response carries it along
with the outcome.  So the outcome is reported exactly if the operations left a directory that can be
captured (`outcome_reported_iff`).  If they did not, the request fails with the fault of the capture,
and nothing is heard of the outcome: not which operation failed, and not what it wrote.
-/

set_option autoImplicit false
namespace FirmwareLane
namespace Service

open Transfer (CapturableAt Captured Found)

/-- The course of a run that asks for `payload`: a sandbox is made at `root`, the snapshot is
restored, which leaves the files `restored`, and the operations, whatever they do, leave the files
`finished` and come to an outcome. -/
structure Ran (m : Machine) (config : WorkerConfig) (request : Request) (host : Host)
    (payload : RunRequest) (root : String) (restored finished : Files)
    (outcome : Pipeline.Outcome) : Prop where
  payload_eq : request.parsePayload = .ok payload
  made : ∃ fs,
    Action.perform (Sandbox.create config.workRoot
      (Sandbox.name request.requestId (m.nanoseconds host.sandboxes) host.sandboxes)) host.files =
        (.ok root, fs) ∧
    Action.perform (Transfer.restore root payload.snapshot) fs = (.ok (), restored)
  executed : Pipeline.execute m ⟨root, config.operationTimeoutSeconds * 1000⟩ payload.operations
    restored = (.ok outcome, finished)

section Run

variable {m : Machine} {config : WorkerConfig} {request : Request} {host : Host}
  {payload : RunRequest} {root : String} {restored finished : Files} {outcome : Pipeline.Outcome}
  {before after : Snapshot}

theorem captureSandbox_of_capture {fs : Files} {table : Classification} {s : Snapshot}
    (h : Transfer.capture fs root table = .ok s) : captureSandbox fs root table = .ok s := by
  rw [captureSandbox, h]

/-- A run whose captures go well sends back what changed between them. -/
theorem Ran.run_eq (h : Ran m config request host payload root restored finished outcome)
    (honly : payload.modifiedOnly = true)
    (hbefore : Transfer.capture restored root payload.extensions = .ok before)
    (hafter : Transfer.capture finished root payload.extensions = .ok after) :
    ∃ host', run m config request host =
      (.ok (.ok ⟨outcome.succeeded, before.modified after, outcome.diagnostics, outcome.reports⟩),
        host') := by
  have hbaseline : baseline restored root payload = .ok (some before) := by
    rw [baseline, if_pos honly, captureSandbox_of_capture hbefore]
    rfl
  have hrun := run_of_begun ⟨h.payload_eq, h.made, hbaseline⟩
  have hexecuted : (pipelineIn config root).execute m payload.operations restored =
      (.ok outcome, finished) := h.executed
  rw [hexecuted] at hrun
  simp only [runResponse, captureSandbox_of_capture hafter] at hrun
  exact ⟨_, Prod.ext hrun rfl⟩

end Run

/-- **What comes back are the files that are new or have other bytes than right after the
restoring**, as they are when the operations are over and in the order of the walk.  Files count as
they are captured: under the path of their entry, and with its bytes, of text those with lines that
end in a line feed.  If no registered file is new or has other bytes, nothing comes back. -/
theorem snapshot_of_modified_only {m : Machine} {config : WorkerConfig} {request : Request}
    {host : Host} {payload : RunRequest} {root : String} {restored finished : Files}
    {outcome : Pipeline.Outcome} {before after : Snapshot}
    (h : Ran m config request host payload root restored finished outcome)
    (honly : payload.modifiedOnly = true)
    (hbefore : Transfer.capture restored root payload.extensions = .ok before)
    (hafter : Transfer.capture finished root payload.extensions = .ok after) :
    ∃ response host' old new,
      run m config request host = (.ok (.ok response), host') ∧
      Captured restored root payload.extensions old before.entries ∧
      Captured finished root payload.extensions new after.entries ∧
      response.snapshot.entries = after.entries.filter (·.IsChangedFrom before.entries) ∧
      ((∀ f ∈ new, ∃ g ∈ old, g.place = f.place ∧ g.bytes = f.bytes) →
        response.snapshot.entries = []) := by
  obtain ⟨host', hrun⟩ := h.run_eq honly hbefore hafter
  obtain ⟨old, hold⟩ := Transfer.captured_of_capture hbefore
  obtain ⟨new, hnew⟩ := Transfer.captured_of_capture hafter
  have hentries := Snapshot.entries_modified before after
  refine ⟨_, host', old, new, hrun, hold, hnew, hentries, ?_⟩
  intro hsame
  rw [hentries, List.filter_eq_nil_iff]
  intro e he hchanged
  obtain ⟨f, hf, hfe⟩ := Transfer.exists_mem_of_forall₂ hnew.entries_eq.flip he
  obtain ⟨g, hg, hplace, hbytes⟩ := hsame f hf
  obtain ⟨d, hd, hgd⟩ := Transfer.exists_mem_of_forall₂ hold.entries_eq hg
  have hencoding : g.encoding = f.encoding := by
    have hgcoding := hold.encoding_eq hg
    rw [hplace, hnew.encoding_eq hf] at hgcoding
    exact (Option.some.inj hgcoding).symm
  obtain rfl := hgd.congr hfe hplace hencoding hbytes
  exact of_decide_eq_true hchanged d hd rfl rfl

/-! ## A run that rewrites a file with other line ends -/

/-- A machine on which a command line writes a file of its name, with two characters at the end of
its line. -/
def scribe : Machine where
  run _ directory _ commandLine fs :=
    (⟨.exited 0, [], [], ⟨0, 0⟩, 0, 0⟩,
      (Action.perform (Files.write (Path.below directory commandLine) [120, 13, 10]) fs).2)
  time _ := ⟨0, 0⟩
  nanoseconds _ := 0

/-- Three files, of which one has no registered extension, and three more that are written. -/
def scribbles : RunRequest where
  extensions := .ofList [("c", .text)]
  snapshot := (Snapshot.ofList
    [⟨"a.c", .text "x\r\n"⟩, ⟨"b.c", .binary [121, 13, 10]⟩, ⟨"c.o", .text "z"⟩]).toOption.getD
      .empty
  operations := [.shell .posix "a.c", .shell .posix "n.c", .shell .posix "n.o"]
  modifiedOnly := true

/-- The configuration of a worker with its sandboxes in a directory where it is. -/
def nearby : WorkerConfig := { WorkerConfig.default with workRoot := "w" }

/-- A host without files. -/
def bare : Host := ⟨⟨.emptyDirectory, []⟩, 0⟩

/-- The files with the restored snapshot. -/
def unscribbled : Files :=
  (Action.perform (Transfer.restore "w/r-0-0" scribbles.snapshot)
    (Action.perform (Sandbox.create "w" "r-0-0") bare.files).2).2

/-- The files after the operations. -/
def scribbled : Files :=
  (Pipeline.execute scribe ⟨"w/r-0-0", 600000⟩ scribbles.operations unscribbled).2

theorem exists_ran_scribbles : ∃ outcome,
    Ran scribe nearby (.make 1 "run" "r" scribbles) bare scribbles "w/r-0-0" unscribbled scribbled
      outcome := by
  have hpayload : ((Request.make 1 "run" "r" scribbles).parsePayload :
      Except RemoteError RunRequest).toOption = some scribbles := by decide +kernel
  have hname : Sandbox.name "r" 0 0 = "r-0-0" := by decide +kernel
  have hmade : (Action.perform (Sandbox.create "w" "r-0-0") bare.files).1 = .ok "w/r-0-0" := by
    decide +kernel
  have hrestored : (Action.perform (Transfer.restore "w/r-0-0" scribbles.snapshot)
      (Action.perform (Sandbox.create "w" "r-0-0") bare.files).2).1 = .ok () := by
    decide +kernel
  have hexecuted : ((Pipeline.execute scribe ⟨"w/r-0-0", 600000⟩ scribbles.operations
      unscribbled).1.map fun _ ↦ ()) = .ok () := by decide +kernel
  obtain ⟨outcome, houtcome, -⟩ := Outcome.map_eq_ok.1 hexecuted
  refine ⟨outcome, ?_, ⟨_, ?_, Prod.ext hrestored rfl⟩, Prod.ext houtcome rfl⟩
  · cases h : ((Request.make 1 "run" "r" scribbles).parsePayload :
        Except RemoteError RunRequest) with
    | error e => rw [h] at hpayload; exact nomatch hpayload
    | ok p => rw [h] at hpayload; exact congrArg _ (Option.some.inj hpayload)
  · exact Prod.ext (hname ▸ hmade) (hname ▸ rfl)

/-- Of the three files that are written, one was there and differs in its line ends only, and one
has no registered extension. -/
theorem snapshot_of_modified_only_of_scribbles :
    ∃ response host', run scribe nearby (.make 1 "run" "r" scribbles) bare =
        (.ok (.ok response), host') ∧
      response.snapshot.entries = [⟨"n.c", .text "x\n"⟩] := by
  have hbefore : (Transfer.capture unscribbled "w/r-0-0" scribbles.extensions).map
      Snapshot.entries = .ok [⟨"a.c", .text "x\n"⟩, ⟨"b.c", .text "y\n"⟩] := by decide +kernel
  have hafter : (Transfer.capture scribbled "w/r-0-0" scribbles.extensions).map
      Snapshot.entries = .ok [⟨"a.c", .text "x\n"⟩, ⟨"b.c", .text "y\n"⟩, ⟨"n.c", .text "x\n"⟩] := by
    decide +kernel
  obtain ⟨outcome, hran⟩ := exists_ran_scribbles
  obtain ⟨before, hold, hbefore⟩ := Outcome.map_eq_ok.1 hbefore
  obtain ⟨after, hnew, hafter⟩ := Outcome.map_eq_ok.1 hafter
  obtain ⟨response, host', _, _, hrun, -, -, hentries, -⟩ :=
    snapshot_of_modified_only hran rfl hold hnew
  refine ⟨response, host', hrun, ?_⟩
  rw [hentries, hbefore, hafter]
  decide

/-! ## When the outcome is reported -/

/-- An answer reports an outcome: whether all went well, what went wrong, and what became of each
operation. -/
def Reports (outcome : Pipeline.Outcome) (answer : Except RemoteError RunResponse) : Prop :=
  ∃ response, answer = .ok response ∧ response.succeeded = outcome.succeeded ∧
    response.diagnostics = outcome.diagnostics ∧ response.reports = outcome.reports

variable {m : Machine} {config : WorkerConfig} {request : Request} {host : Host}
  {payload : RunRequest} {root : String} {restored finished : Files} {before : Option Snapshot}
  {outcome : Pipeline.Outcome}

/-- The response to a run whose sandbox is captured reports the outcome. -/
theorem reports_runResponse {s : Snapshot}
    (h : Transfer.capture finished root payload.extensions = .ok s) :
    Reports outcome (runResponse finished root payload before outcome) := by
  rw [runResponse, captureSandbox_of_capture h]
  exact ⟨_, rfl, rfl, rfl, rfl⟩

/-- Where the sandbox is not captured, the answer is the fault. -/
theorem runResponse_of_fault {fault : Transfer.Fault}
    (h : Transfer.capture finished root payload.extensions = .error fault) :
    runResponse finished root payload before outcome = .error (captureFailed fault) := by
  rw [runResponse, captureSandbox, h]
  rfl

/-- **The outcome of a run is reported exactly if its operations leave a directory that can be
captured.**  Else the answer is an error that says why it cannot. -/
theorem outcome_reported_iff
    (h : Begun m config request host payload root restored before)
    (hexecuted : (pipelineIn config root).execute m payload.operations restored =
      (.ok outcome, finished))
    (hsound : finished.root.Sound) :
    ∃ answer, (run m config request host).1 = .ok answer ∧
      (Reports outcome answer ↔ CapturableAt finished root payload.extensions) ∧
      (¬ CapturableAt finished root payload.extensions →
        ∃ fault, Transfer.capture finished root payload.extensions = .error fault ∧
          answer = .error (captureFailed fault)) := by
  have hrun := run_of_begun h
  rw [hexecuted] at hrun
  refine ⟨_, hrun, ?_⟩
  rw [← Transfer.exists_capture_iff hsound]
  cases hcapture : Transfer.capture finished root payload.extensions with
  | ok s => exact ⟨iff_of_true (reports_runResponse hcapture) ⟨s, rfl⟩, fun hno ↦ absurd ⟨s, rfl⟩ hno⟩
  | error fault =>
    have hanswer : runResponse finished root payload before outcome = .error (captureFailed fault) :=
      runResponse_of_fault hcapture
    refine ⟨iff_of_false ?_ nofun, fun _ ↦ ⟨fault, rfl, hanswer⟩⟩
    rintro ⟨response, hresponse, -⟩
    exact nomatch hanswer.symm.trans hresponse

/-! ## An operation that fails and leaves a text that is none -/

/-- A machine on which a command line writes a file of its name that holds a byte that no text has,
and fails. -/
def spoiler : Machine where
  run _ directory _ commandLine fs :=
    (⟨.exited 7, [], [98, 97, 100], ⟨0, 0⟩, 0, 0⟩,
      (Action.perform (Files.write (Path.below directory commandLine) [255]) fs).2)
  time _ := ⟨0, 0⟩
  nanoseconds _ := 0

/-- A request to spoil a text. -/
def spoiling : RunRequest where
  extensions := .ofList [("txt", .text)]
  snapshot := .empty
  operations := [.shell .posix "a.txt"]
  modifiedOnly := false

/-- The files with the sandbox that is to be spoilt. -/
def unspoilt : Files :=
  (Action.perform (Transfer.restore "w/r-0-0" spoiling.snapshot)
    (Action.perform (Sandbox.create "w" "r-0-0") bare.files).2).2

theorem begun_spoiling :
    Begun spoiler nearby (.make 1 "run" "r" spoiling) bare spoiling "w/r-0-0" unspoilt none := by
  have hpayload : ((Request.make 1 "run" "r" spoiling).parsePayload :
      Except RemoteError RunRequest).toOption = some spoiling := by decide +kernel
  have hname : Sandbox.name "r" 0 0 = "r-0-0" := by decide +kernel
  have hmade : (Action.perform (Sandbox.create "w" "r-0-0") bare.files).1 = .ok "w/r-0-0" := by
    decide +kernel
  have hrestored : (Action.perform (Transfer.restore "w/r-0-0" spoiling.snapshot)
      (Action.perform (Sandbox.create "w" "r-0-0") bare.files).2).1 = .ok () := by decide +kernel
  exact ⟨Outcome.eq_ok_of_toOption hpayload,
    ⟨_, Prod.ext (hname ▸ hmade) (hname ▸ rfl), Prod.ext hrestored rfl⟩, rfl⟩

/-- An operation fails with the status 7 and says why, and all that is answered is that a file is no
text. -/
theorem outcome_reported_iff_of_spoiling :
    ∃ outcome : Pipeline.Outcome,
      ((pipelineIn nearby "w/r-0-0").execute spoiler spoiling.operations unspoilt).1 = .ok outcome ∧
      outcome.diagnostics = some "operation #0 \x60a.txt\x60 exited with status 7\nbad" ∧
      (run spoiler nearby (.make 1 "run" "r" spoiling) bare).1 =
        .ok (.error (.sandboxFailed
          "failed to capture sandbox: text file is not valid UTF-8: a.txt")) := by
  have hdiagnostics :
      ((pipelineIn nearby "w/r-0-0").execute spoiler spoiling.operations unspoilt).1.map
        Pipeline.Outcome.diagnostics =
          .ok (some "operation #0 \x60a.txt\x60 exited with status 7\nbad") := by decide +kernel
  obtain ⟨outcome, houtcome, hdiagnostics⟩ := Outcome.map_eq_ok.1 hdiagnostics
  have hsound : ((pipelineIn nearby "w/r-0-0").execute spoiler spoiling.operations
      unspoilt).2.root.Sound := by decide +kernel
  have hcapture : Transfer.capture ((pipelineIn nearby "w/r-0-0").execute spoiler
      spoiling.operations unspoilt).2 "w/r-0-0" spoiling.extensions =
        .error (.invalidText "a.txt") := by decide +kernel
  obtain ⟨answer, hrun, -, hanswer⟩ :=
    outcome_reported_iff begun_spoiling (Prod.ext houtcome rfl) hsound
  have hno : ¬ CapturableAt ((pipelineIn nearby "w/r-0-0").execute spoiler spoiling.operations
      unspoilt).2 "w/r-0-0" spoiling.extensions := by
    rw [← Transfer.exists_capture_iff hsound, hcapture]
    exact nofun
  obtain ⟨fault, hfault, rfl⟩ := hanswer hno
  obtain rfl := Except.error.inj (hcapture.symm.trans hfault)
  exact ⟨outcome, houtcome, hdiagnostics, hrun⟩

end Service
end FirmwareLane
