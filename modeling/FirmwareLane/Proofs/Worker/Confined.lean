import FirmwareLane.Proofs.Transfer.Seeing
import FirmwareLane.Proofs.Worker.Modified

/-!
# A run sends back the files of its sandbox only

The operations of a run may put links into the sandbox that lead anywhere.  What is sent back is what
a capture sees of the sandbox when they are over, so it is the same whatever stands elsewhere, and
every file that is sent back stands in the sandbox itself (`capture_confined`).
-/

set_option autoImplicit false
namespace FirmwareLane
namespace Service

open Transfer (IsTaken capture)

variable {fs fs' : Files} {root : String} {payload : RunRequest} {before : Option Snapshot}
  {outcome : Pipeline.Outcome} {response : RunResponse}

theorem runResponse_congr (h : fs.seen root = fs'.seen root) :
    runResponse fs root payload before outcome = runResponse fs' root payload before outcome := by
  have hcapture : captureSandbox fs root payload.extensions =
      captureSandbox fs' root payload.extensions := by
    rw [captureSandbox, captureSandbox, Transfer.capture_eq_captureSeen, h,
      ← Transfer.capture_eq_captureSeen]
  rw [runResponse, runResponse, hcapture]

/-- What is sent back was captured, whether all files are wanted or changed ones only. -/
theorem mem_of_mem_returned {after : Snapshot} {e : Entry}
    (h : e ∈ (returned before after).entries) : e ∈ after.entries := by
  cases before with
  | none => exact h
  | some before =>
    rw [returned, Snapshot.entries_modified] at h
    exact (List.mem_filter.1 h).1

theorem isTaken_of_runResponse (hfs : fs.Sound)
    (h : runResponse fs root payload before outcome = .ok response) {e : Entry}
    (he : e ∈ response.snapshot.entries) : IsTaken fs root payload.extensions e := by
  obtain ⟨after, hafter, hresponse⟩ := Outcome.bind_eq_ok.1 h
  obtain rfl := Except.ok.inj hresponse
  rw [captureSandbox] at hafter
  split at hafter
  · next s hcapture =>
    obtain rfl := Except.ok.inj hafter
    exact Transfer.isTaken_of_capture hfs hcapture (mem_of_mem_returned he)
  · cases hafter

/-- A run that is answered was begun, its operations came to an outcome, and the answer tells what
they left. -/
theorem exists_begun_of_run {m : Machine} {config : WorkerConfig} {request : Request}
    {host : Host} (h : (run m config request host).1 = .ok (.ok response)) :
    ∃ payload root restored before outcome finished,
      Begun m config request host payload root restored before ∧
      (pipelineIn config root).execute m payload.operations restored = (.ok outcome, finished) ∧
      runResponse finished root payload before outcome = .ok response := by
  by_cases hbegun : ∃ payload root restored before,
      Begun m config request host payload root restored before
  · obtain ⟨payload, root, restored, before, hbegun⟩ := hbegun
    have hrun := run_of_begun hbegun
    rw [h] at hrun
    rcases hexecute : (pipelineIn config root).execute m payload.operations restored with
      ⟨crash | outcome, finished⟩
    · rw [hexecute] at hrun
      cases hrun
    · rw [hexecute] at hrun
      exact ⟨payload, root, restored, before, outcome, finished, hbegun, hexecute,
        (Except.ok.inj hrun).symm⟩
  · obtain ⟨e, hrun, -⟩ := run_of_not_begun fun payload root restored before hbegun' ↦
      hbegun ⟨payload, root, restored, before, hbegun'⟩
    rw [h] at hrun
    cases hrun

/-- **A capture is confined to its root.**  Where two file systems hold the same tree there, with the
same names, kinds of things, bytes and targets of links, and the owner may read the same files and
directories of it and go through the same directories, a capture gives the same in both, and so does
the answer to a run in a sandbox there.  Every captured file stands in the tree itself, below
directories and no link; its entry has the bytes of that file, and they are what its path leads to.
So do the files that a run sends back in the directory of its sandbox, when the operations are
over. -/
theorem capture_confined (h : fs.seen root = fs'.seen root) :
    (∀ table, capture fs root table = capture fs' root table) ∧
    (∀ payload before outcome, runResponse fs root payload before outcome =
      runResponse fs' root payload before outcome) ∧
    (fs.Sound → ∀ table s, capture fs root table = .ok s →
      ∀ e ∈ s.entries, IsTaken fs root table e) ∧
    ∀ m config request host response,
      (run m config request host).1 = .ok (.ok response) →
      ∃ payload sandbox restored before outcome finished,
        Begun m config request host payload sandbox restored before ∧
        (pipelineIn config sandbox).execute m payload.operations restored =
          (.ok outcome, finished) ∧
        (finished.Sound →
          ∀ e ∈ response.snapshot.entries, IsTaken finished sandbox payload.extensions e) := by
  refine ⟨fun table ↦ ?_, fun _ _ _ ↦ runResponse_congr h,
    fun hfs _ _ hcapture _ he ↦ Transfer.isTaken_of_capture hfs hcapture he,
    fun m config request host response hrun ↦ ?_⟩
  · rw [Transfer.capture_eq_captureSeen, h, ← Transfer.capture_eq_captureSeen]
  · obtain ⟨payload, sandbox, restored, before, outcome, finished, hbegun, hexecute, hresponse⟩ :=
      exists_begun_of_run hrun
    exact ⟨payload, sandbox, restored, before, outcome, finished, hbegun, hexecute,
      fun hsound e he ↦ isTaken_of_runResponse hsound hresponse he⟩

/-! ## Links out of a sandbox -/

/-- A directory with a file, with a link to a file outside and with one to the directory that this
is in. -/
def leaking (secret : Text.Bytes) : Files where
  root := .directory 0o755
    [("in", .directory 0o755
      [("a.c", .file 0o644 [97] 0), ("b.c", .link "../out/s.c"), ("d", .link "../out")]),
     ("out", .directory 0o755 [("s.c", .file 0o644 secret 0)])]
  here := []

/-- A machine on which a command line puts a link into a sandbox. -/
def linker : Machine where
  run _ _ _ commandLine fs :=
    (⟨.exited 0, [], [], ⟨0, 0⟩, 0, 0⟩,
      { fs with root := fs.root.put ["w", "r-0-0", "b.c"] (.link commandLine) })
  time _ := ⟨0, 0⟩
  nanoseconds _ := 0

/-- A file, and a link to one outside. -/
def linking : RunRequest where
  extensions := .ofList [("c", .text)]
  snapshot := (Snapshot.ofList [⟨"a.c", .text "a"⟩]).toOption.getD .empty
  operations := [.shell .posix "../../out/s.c"]
  modifiedOnly := false

/-- The links lead to a file, of which nothing is captured or sent back. -/
theorem capture_confined_of_leaking :
    (leaking [98]).read "in/b.c" = .ok [98] ∧ (leaking [99]).read "in/b.c" = .ok [99] ∧
    capture (leaking [98]) "in" linking.extensions =
      capture (leaking [99]) "in" linking.extensions ∧
    (∃ s, capture (leaking [98]) "in" linking.extensions = .ok s ∧
      s.entries = [⟨"a.c", .text "a"⟩] ∧
      ∀ e ∈ s.entries, IsTaken (leaking [98]) "in" linking.extensions e) ∧
    ∃ response payload sandbox restored before outcome finished,
      (run linker nearby (.make 1 "run" "r" linking) ⟨leaking [98], 0⟩).1 = .ok (.ok response) ∧
      response.snapshot.entries = [⟨"a.c", .text "a"⟩] ∧
      Begun linker nearby (.make 1 "run" "r" linking) ⟨leaking [98], 0⟩ payload sandbox restored
        before ∧
      (pipelineIn nearby sandbox).execute linker payload.operations restored =
        (.ok outcome, finished) := by
  have hsound : (leaking [98]).Sound :=
    Files.sound_of_identities (by decide +kernel) (by decide +kernel) (Option.some_ne_none _)
  have hcapture : (capture (leaking [98]) "in" linking.extensions).map Snapshot.entries =
      .ok [⟨"a.c", .text "a"⟩] := by decide +kernel
  have hrun : (run linker nearby (.make 1 "run" "r" linking) ⟨leaking [98], 0⟩).1.toOption.map
      (fun result ↦ result.toOption.map fun response ↦ response.snapshot.entries) =
        some (some [⟨"a.c", .text "a"⟩]) := by decide +kernel
  have hseen : (leaking [98]).seen "in" = (leaking [99]).seen "in" := rfl
  obtain ⟨hsame, -, htaken, hsent⟩ := capture_confined hseen
  obtain ⟨s, hs, hentries⟩ := Outcome.map_eq_ok.1 hcapture
  obtain ⟨result, hresult, hrun⟩ := Option.map_eq_some_iff.1 hrun
  obtain ⟨response, hresponse, hrun⟩ := Option.map_eq_some_iff.1 hrun
  have hok : (run linker nearby (.make 1 "run" "r" linking) ⟨leaking [98], 0⟩).1 =
      .ok (.ok response) := by
    rw [Outcome.eq_ok_of_toOption hresult, Outcome.eq_ok_of_toOption hresponse]
  obtain ⟨payload, sandbox, restored, before, outcome, finished, hbegun, hexecute, -⟩ :=
    hsent _ _ _ _ _ hok
  exact ⟨by decide, by decide, hsame _, ⟨s, hs, hentries, htaken hsound _ _ hs⟩, response, payload,
    sandbox, restored, before, outcome, finished, hok, hrun, hbegun, hexecute⟩

end Service
end FirmwareLane
