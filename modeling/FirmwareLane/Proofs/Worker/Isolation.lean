import FirmwareLane.Proofs.Worker.Cleanup
import FirmwareLane.Proofs.Worker.Orderly

/-!
# Runs do not depend on each other

However the steps of many runs follow on each other, every run is answered as if it were the only one
(`answered_as_alone`): the answer differs in what clocks say and in the path of the sandbox that errors
name.  For this a work root must hold nothing that is named like a sandbox once it is made; if it
cannot be made, or if a path is too long in one sandbox and not in another, errors may differ.  None of
these conditions can be left out (`not_independent`).
-/

set_option autoImplicit false
namespace FirmwareLane
namespace Service

open Action (perform)

variable {ι : Type} [DecidableEq ι] {m : Machine} {config : WorkerConfig} {request : Request}
  {requests : ι → Request} {i : ι} {initial made : Files}

/-- The answer of a run among others is that of the run alone, but for what clocks say and the paths of
the sandboxes.  If there is no work root, and it cannot be made, neither gets a sandbox. -/
inductive AsAlone (config : WorkerConfig) (initial : Files) (root root' : String) : Answer → Answer → Prop
  | conforms {a a' : Answer} (h : Conforms root root' a a') : AsAlone config initial root root' a a'
  | barred {fault fault' : Files.Fault}
      (h : (perform (Files.createAll config.workRoot) initial).1 = .error fault) :
      AsAlone config initial root root' (.ok (.error (notCreated root fault')))
        (.ok (.error (notCreated root' fault)))

/-- A run that gets no sandbox would get none alone. -/
theorem Denied.exists_asAlone {answer : Answer} {fault : Files.Fault}
    (h : Denied m config request (.answered answer))
    (hcreate : perform (Files.createAll config.workRoot) initial = (.error fault, made)) :
    ∃ number, ∀ alone, AsAlone config initial (sandboxPath m config request number)
      (sandboxPath m config request alone) answer (run m config request ⟨initial, alone⟩).1 := by
  cases h with
  | @refused e hpayload =>
    refine ⟨0, fun alone ↦ .conforms (.inl ?_)⟩
    rw [run_eq, next_asked, hpayload]
    exact .refused e
  | notCreated hpayload number fault' =>
    refine ⟨number, fun alone ↦ ?_⟩
    rw [run_eq, next_asked, hpayload]
    dsimp only
    rw [hcreate]
    exact .barred (congrArg Prod.fst hcreate)

/-- **However the steps of runs follow on each other, each is answered as if it were alone**, whatever
number its sandbox would have then. -/
theorem answered_as_alone {host : Host} (hm : m.IsLocal) (hs : host.files.Sound)
    (hvacant : Sandbox.IsVacant (perform (Files.createAll config.workRoot) host.files).2
      config.workRoot) (schedule : List ι) :
    (Stage.remaining (requests i) .asked ≤ schedule.count i →
      ∃ answer, ((World.start host).after m config requests schedule).stage i = .answered answer) ∧
    ∀ answer, ((World.start host).after m config requests schedule).stage i = .answered answer →
      ∃ number, ∀ alone, AsAlone config host.files (sandboxPath m config (requests i) number)
        (sandboxPath m config (requests i) alone) answer
        (run m config (requests i) ⟨host.files, alone⟩).1 := by
  refine ⟨@World.exists_answered m config ι _ requests (World.start host) i schedule,
    fun answer hanswer ↦ ?_⟩
  have hmakes := Files.makes_createAll host.files config.workRoot
  rcases hcreate : perform (Files.createAll config.workRoot) host.files with ⟨fault | _, made⟩
  · rw [hcreate] at hmakes
    obtain ⟨fault', hagain⟩ := hmakes.again hs.standing nofun
    have hbarred : Barred m config requests host.files made
        ((World.start host).after m config requests schedule) :=
      World.after_induction ⟨.inl rfl, fun _ ↦ .asked⟩
        (fun w i h ↦ h.advance hcreate hagain.perform_eq i) schedule
    have hdenied := hbarred.denied i
    rw [hanswer] at hdenied
    exact hdenied.exists_asAlone hcreate
  · rw [hcreate] at hmakes hvacant
    obtain ⟨W, c, hleading⟩ := Sandbox.exists_leading hs.standing hcreate
    have hground : Ground made config.workRoot W c :=
      ⟨hleading, hmakes.isDirectory hs.standing rfl, (hmakes.furnishes hs.standing).tree hs.tree⟩
    have hnone := hvacant.at?_eq hleading
    obtain ⟨S, horderly⟩ : ∃ S, Orderly m config requests made host.files W S
        ((World.start host).after m config requests schedule) :=
      World.after_induction (P := fun w ↦ ∃ S, Orderly m config requests made host.files W S w)
        ⟨made, .start hground hcreate hnone⟩
        (fun w i ⟨_, h⟩ ↦ h.exists_advance hm hground hnone hcreate i) schedule
    have hplaced := horderly.placed i
    rw [hanswer] at hplaced
    cases hplaced with
    | answered number hconforms => exact ⟨number, fun alone ↦ .conforms (hconforms alone)⟩

/-! ## Two runs on a machine that keeps to its directory -/

theorem isLocal_marker : marker.IsLocal := by
  intro index timeout commandLine fs fs' root root' R R' n n' h h' hn
  have hrun : ∀ {fs root R n}, Secluded fs root R n →
      Leaves fs (marker.run index root timeout commandLine fs).2 R
        (n.put ["mark"] (.file Node.fileMode [33] 0)) := by
    intro fs root R n h
    have hsound := h.based.sound h.sound
    obtain ⟨m, es, rfl⟩ : ∃ m es, n = .directory m es := by
      have hdir := h.based.isDirectory
      cases n with
      | directory m es => exact ⟨m, es, rfl⟩
      | file m b i => exact nomatch hdir
      | link target => exact nomatch hdir
      | device d => exact nomatch hdir
    dsimp only [marker]
    rw [Files.present_eq_ok.2 h.based.find_eq]
    refine h.leaves rfl (hsound.put (by decide) (.file _ _ _)) fun p m' b i hi hfile ↦ ?_
    have hholds : (Node.directory m es).Holds ["mark"] := .entry (p := []) rfl "mark"
    by_cases hp : ["mark"] <+: p
    · -- the file that is new has no identity
      obtain ⟨q, rfl⟩ := hp
      rw [hholds.at?_put_append] at hfile
      cases q with
      | nil => exact absurd (Node.file.inj (Option.some.inj hfile)).2.2.symm hi
      | cons name rest => exact nomatch hfile
    · have hface := Node.faceAt?_eq_file.2 hfile
      rw [hholds.faceAt?_put_outside _ hp] at hface
      exact ⟨p, m', b, Node.faceAt?_eq_file.1 hface⟩
  obtain ⟨f, hf, rfl⟩ := hn
  refine ⟨_, _, ⟨f, hf, ?_⟩, hrun h, hrun h', rfl, rfl, rfl, rfl⟩
  rw [← (h.based.sound h.sound).put_relabel, Node.relabel, hf.zero]

/-- Of two such runs that take turns both are answered, the second one as if it were alone. -/
theorem answered_as_alone_of_marking :
    marker.IsLocal ∧ bare.files.Sound ∧
    Sandbox.IsVacant (perform (Files.createAll nearby.workRoot) bare.files).2 nearby.workRoot ∧
    ∃ answer, ((World.start bare).after marker nearby
        (fun _ : Bool ↦ .make 1 "run" "r" marking) (List.replicate 7 [false, true]).flatten).stage true =
          .answered answer ∧
      ∃ number, ∀ alone, AsAlone nearby bare.files
        (sandboxPath marker nearby (.make 1 "run" "r" marking) number)
        (sandboxPath marker nearby (.make 1 "run" "r" marking) alone) answer
        (run marker nearby (.make 1 "run" "r" marking) ⟨bare.files, alone⟩).1 := by
  have hvacant : Sandbox.IsVacant (perform (Files.createAll nearby.workRoot) bare.files).2
      nearby.workRoot :=
    Sandbox.isVacant_of_visits (by decide +kernel) (by decide +kernel)
  obtain ⟨hanswered, halone⟩ := @answered_as_alone Bool _ marker nearby
    (fun _ ↦ .make 1 "run" "r" marking) true bare isLocal_marker sound_bare hvacant
    (List.replicate 7 [false, true]).flatten
  obtain ⟨answer, hanswer⟩ := hanswered (by decide +kernel)
  exact ⟨isLocal_marker, sound_bare, hvacant, answer, hanswer, halone answer hanswer⟩

/-! ## Where runs do depend on each other -/

/-- However the steps of runs follow on each other, each is answered as if it were alone, if only
directories can be in the way of a sandbox and the work root can be made. -/
def Independent (m : Machine) (config : WorkerConfig) (requests : ι → Request) (host : Host) : Prop :=
  m.IsLocal → host.files.Sound → Sandbox.IsClear host.files config.workRoot →
    ∀ schedule i answer,
      ((World.start host).after m config requests schedule).stage i = .answered answer →
      ∃ number, Resembles (sandboxPath m config (requests i) number)
        (sandboxPath m config (requests i) host.sandboxes) answer (run m config (requests i) host).1

/-! ### What errors say -/

section Errors

variable {path path' : String} {fault fault' : Files.Fault} {e : RemoteError}

/-- The last characters of a message, which tell the number of a fault. -/
def ending (message : String) : List Char := message.toList.reverse.take 3

/-- The first characters of a message, which tell what failed. -/
def opening (message : String) : List Char := message.toList.take 12

theorem three_le_length_message (fault : Files.Fault) : 3 ≤ fault.message.toList.length := by
  unfold Files.Fault.message
  cases hnumber : fault.number? with
  | some n =>
    have hfront : " (os error ".toList.length = 11 := by decide
    rw [String.toList_append, String.toList_append, String.toList_append]
    simp only [List.length_append]
    omega
  | none =>
    cases fault with
    | unnameable => decide
    | notText => decide
    | _ => exact nomatch hnumber

theorem ending_notCreated (path : String) (fault : Files.Fault) :
    ending (notCreated path fault).message = ending fault.message := by
  have hlength : 3 ≤ fault.message.toList.reverse.length :=
    List.length_reverse.symm ▸ three_le_length_message fault
  have hmessage : (notCreated path fault).message.toList =
      ("failed to create sandbox " ++ path ++ ": ").toList ++ fault.message.toList :=
    String.toList_append
  rw [ending, hmessage, List.reverse_append, List.take_append_of_le_length hlength]
  rfl

theorem opening_append {front : String} (hfront : 12 ≤ front.toList.length) (rest : String) :
    opening (front ++ rest) = opening front := by
  rw [opening, String.toList_append, List.take_append_of_le_length hfront]
  rfl

theorem opening_notCreated (path : String) (fault : Files.Fault) :
    opening (notCreated path fault).message = opening "failed to create sandbox " := by
  have hmessage : (notCreated path fault).message =
      "failed to create sandbox " ++ (path ++ ": " ++ fault.message) := by
    rw [← String.append_assoc, ← String.append_assoc]
    rfl
  rw [hmessage]
  exact opening_append (by decide) _

theorem notCreated_ne_restoreFailed (path : String) (fault : Files.Fault) (fault' : Transfer.Fault) :
    notCreated path fault ≠ restoreFailed fault' := by
  intro h
  have hopening : opening (restoreFailed fault').message = opening "failed to create sandbox " := by
    rw [← h, opening_notCreated]
  rw [restoreFailed, RemoteError.sandboxFailed, opening_append (by decide)] at hopening
  exact absurd hopening (by decide)

theorem notCreated_ne_captureFailed (path : String) (fault : Files.Fault) (fault' : Transfer.Fault) :
    notCreated path fault ≠ captureFailed fault' := by
  intro h
  have hopening : opening (captureFailed fault').message = opening "failed to create sandbox " := by
    rw [← h, opening_notCreated]
  rw [captureFailed, RemoteError.sandboxFailed, opening_append (by decide)] at hopening
  exact absurd hopening (by decide)

/-- What resembles the answer that no sandbox was made is such an answer, with the same number. -/
theorem exists_notCreated_of_resembles {root root' : String} {a : Answer}
    (h : Resembles root root' (.ok (.error (notCreated path fault))) a) :
    ∃ path' fault', a = .ok (.error (notCreated path' fault')) ∧
      ending fault'.message = ending fault.message := by
  generalize he : notCreated path fault = e at h
  cases h with
  | refused _ => exact ⟨path, fault, by rw [he], rfl⟩
  | notCreated fault' =>
    refine ⟨root', fault', rfl, ?_⟩
    rw [← ending_notCreated root fault', ← he, ending_notCreated]
  | notRestored _ => exact absurd he (notCreated_ne_restoreFailed _ _ _)
  | notCaptured _ => exact absurd he (notCreated_ne_captureFailed _ _ _)

variable {m : Machine} {config : WorkerConfig} {payload : RunRequest} {root : String} {fs : Files}

theorem captureSandbox_ne (path : String) (fault : Files.Fault) (table : Classification) :
    captureSandbox fs root table ≠ .error (notCreated path fault) := by
  rw [captureSandbox]
  cases Transfer.capture fs root table with
  | ok s => rintro ⟨⟩
  | error fault' => exact fun h ↦ notCreated_ne_captureFailed _ _ _ (Except.error.inj h).symm

/-- Once a sandbox was made nothing says that none was. -/
theorem runInside_ne (path : String) (fault : Files.Fault) :
    (runInside m config payload root fs).1 ≠ .ok (.error (notCreated path fault)) := by
  rw [runInside]
  rcases perform (Transfer.restore root payload.snapshot) fs with ⟨fault' | _, fs₁⟩
  · exact fun h ↦ notCreated_ne_restoreFailed _ _ _ (Except.error.inj (Except.ok.inj h)).symm
  dsimp only
  cases hbaseline : baseline fs₁ root payload with
  | error e =>
    intro h
    obtain rfl := Except.error.inj (Except.ok.inj h)
    rw [baseline] at hbaseline
    split at hbaseline
    · cases hcapture : captureSandbox fs₁ root payload.extensions with
      | ok before =>
        rw [hcapture] at hbaseline
        cases hbaseline
      | error e =>
        rw [hcapture] at hbaseline
        obtain rfl := Except.error.inj hbaseline
        exact captureSandbox_ne path fault _ hcapture
    · cases hbaseline
  | ok before =>
    dsimp only
    rcases Pipeline.execute m ⟨root, config.operationTimeoutSeconds * 1000⟩ payload.operations fs₁
      with ⟨crash | outcome, fs₂⟩
    · rintro ⟨⟩
    · intro h
      have hresponse := Except.ok.inj h
      rw [runResponse] at hresponse
      cases hcapture : captureSandbox fs₂ root payload.extensions with
      | ok after =>
        rw [hcapture] at hresponse
        cases hresponse
      | error e =>
        rw [hcapture] at hresponse
        obtain rfl := Except.error.inj hresponse
        exact captureSandbox_ne path fault _ hcapture

end Errors

/-! ### Two runs that ask for a sandbox -/

/-- What making a sandbox comes to is what the first step of a run comes to. -/
theorem next_asked_of_create {payload : RunRequest} {host : Host}
    (hpayload : request.parsePayload = .ok payload) :
    Stage.next m config request .asked host =
      (match (perform (Sandbox.create config.workRoot (sandboxName m request host.sandboxes))
          host.files).1 with
        | .error fault => .answered (.ok (.error (notCreated fault.path fault.fault)))
        | .ok root => .inside payload root .begun,
      ⟨(perform (Sandbox.create config.workRoot (sandboxName m request host.sandboxes))
          host.files).2, host.sandboxes + 1⟩) := by
  rw [Stage.next, hpayload, sandboxName]
  dsimp only
  rcases perform (Sandbox.create config.workRoot (Sandbox.name request.requestId
    (m.nanoseconds host.sandboxes) host.sandboxes)) host.files with ⟨fault | root, fs⟩ <;> rfl

/-- **If of two runs that ask for a sandbox the second gets none, and not for the same reason as the
first, then it is not answered as if it were alone.** -/
theorem not_independent_of_create {payload : RunRequest} {host : Host}
    (hpayload : request.parsePayload = .ok payload) (hm : m.IsLocal) (hs : host.files.Sound)
    (fault : Sandbox.Fault) (hclear : Sandbox.IsClear host.files config.workRoot)
    (hsecond : (perform (Sandbox.create config.workRoot (sandboxName m request (host.sandboxes + 1)))
      (perform (Sandbox.create config.workRoot (sandboxName m request host.sandboxes))
        host.files).2).1 = .error fault)
    (hfirst : ∀ fault', (perform (Sandbox.create config.workRoot
      (sandboxName m request host.sandboxes)) host.files).1 = .error fault' →
        ending fault'.fault.message ≠ ending fault.fault.message) :
    ¬ Independent m config (fun _ : Bool ↦ request) host := by
  intro h
  have hanswer : ((World.start host).after m config (fun _ : Bool ↦ request) [false, true]).stage true =
      .answered (.ok (.error (notCreated fault.path fault.fault))) := by
    have hother : ((World.start host).advance m config (fun _ : Bool ↦ request) false).stage true =
        .asked := World.stage_advance_of_ne _ nofun
    have hhost : ((World.start host).advance m config (fun _ : Bool ↦ request) false).host =
        (Stage.next m config request .asked host).2 := rfl
    rw [World.after, List.foldl_cons, List.foldl_cons, List.foldl_nil, World.stage_advance_self, hother,
      hhost, next_asked_of_create hpayload, next_asked_of_create hpayload]
    dsimp only
    rw [hsecond]
  obtain ⟨number, hresembles⟩ := h hm hs hclear _ _ _ hanswer
  obtain ⟨path, fault', hrun, hending⟩ := exists_notCreated_of_resembles hresembles
  rw [run_eq, next_asked_of_create hpayload] at hrun
  cases hcreate : (perform (Sandbox.create config.workRoot (sandboxName m request host.sandboxes))
    host.files).1 with
  | error first =>
    rw [hcreate] at hrun
    dsimp only at hrun
    rw [Stage.complete_answered] at hrun
    have heq := Except.error.inj (Except.ok.inj hrun)
    refine hfirst first hcreate ?_
    rw [← hending, ← ending_notCreated first.path, ← ending_notCreated path, heq]
  | ok root =>
    rw [hcreate] at hrun
    dsimp only at hrun
    rw [Stage.complete_inside] at hrun
    exact runInside_ne path fault' hrun

/-! ### A work root with a long path -/

/-- The root of all files, under a path of so many separators. -/
def separators (count : Nat) : String := String.ofList (List.replicate count '/')

section Separators

variable {fs : Files} {count mode : Nat} {es : List (String × Node)} {name : String}

theorem utf8ByteSize_separators (count : Nat) : (separators count).utf8ByteSize = count := by
  induction count with
  | zero => rfl
  | succ count ih =>
    rw [separators, List.replicate_succ, String.ofList_cons, String.utf8ByteSize_append, ← separators,
      ih, Nat.add_comm]
    rfl

theorem names_separators (count : Nat) : Path.names (separators count).toList = [] := by
  rw [separators, String.toList_ofList]
  induction count with
  | zero => rfl
  | succ count ih =>
    rw [List.replicate_succ, ← List.nil_append ('/' :: _), Path.names_append, ih]
    rfl

theorem steps_separators (count : Nat) : Files.steps (separators count) = [] := by
  have hpieces := List.map_eq_nil_iff.1 (names_separators count)
  rw [Files.steps, hpieces, if_neg (fun h ↦ Bool.false_ne_true h.2)]
  rfl

theorem isPath_separators (hcount : 0 < count) (hlong : count ≤ Files.greatestPath) :
    Files.IsPath (separators count) where
  nul := by
    rw [separators, String.toList_ofList]
    exact fun h ↦ absurd (List.eq_of_mem_replicate h) (by decide)
  nonempty h := by
    have hsize := utf8ByteSize_separators count
    rw [h] at hsize
    exact absurd hsize (Nat.ne_of_lt hcount)
  size := (utf8ByteSize_separators count).symm ▸ hlong

theorem ground_separators (hs : fs.root.Sound) (hroot : fs.root = .directory mode es)
    (hhere : fs.here = []) (hcount : 0 < count) (hlong : count ≤ Files.greatestPath) :
    Ground fs (separators count) [] fs.root := by
  have hstanding : fs.IsStanding := by
    rw [Files.IsStanding, hhere]
    exact Option.some_ne_none fs.root
  have hstart : fs.start (separators count) = [] := by
    rw [Files.start, hhere, ite_self]
  have hpath := isPath_separators hcount hlong
  refine ⟨⟨hstanding, hpath.nul, ?_⟩, fun _ ↦ Files.isDirectory_iff.2 ⟨[], mode, es, ?_⟩, hs⟩
  · rw [hstart, names_separators]
    exact .present rfl
  · refine (Files.find_eq_ok hstanding).2 ⟨hpath, ?_⟩
    rw [hstart, steps_separators]
    exact .present (congrArg some hroot)

theorem perform_create_separators (hs : fs.root.Sound) (hroot : fs.root = .directory mode es)
    (hhere : fs.here = []) (hcount : 0 < count) (hlong : count ≤ Files.greatestPath)
    (hname : IsPart name) (hnul : '\x00' ∉ name.toList) :
    perform (Sandbox.create (separators count) name) fs =
      match (if Files.greatestPath < count + name.utf8ByteSize then .error .nameTooLong
        else Sandbox.admits fs.root name : Except Files.Fault Unit) with
      | .ok () => (.ok (Path.below (separators count) name), fs.within [name] Node.emptyDirectory)
      | .error fault => (.error ⟨Path.below (separators count) name, fault⟩, fs) := by
  have hground := ground_separators hs hroot hhere hcount hlong
  have hempty : Path.below (separators count) "" = separators count := by
    have hlast : (separators count).toList.getLast? = some '/' := by
      rw [separators, String.toList_ofList, List.getLast?_replicate, if_neg (Nat.ne_of_gt hcount)]
    rw [Path.below, if_neg (by decide), if_pos (.inl hlast), String.append_empty]
  rw [Sandbox.perform_create, hground.perform_createAll hground.over_self]
  dsimp only
  rw [hground.leading.withDirectory_below hname hnul, Sandbox.utf8ByteSize_below hname, hempty,
    utf8ByteSize_separators]
  by_cases hsize : Files.greatestPath < count + name.utf8ByteSize
  · rw [if_pos hsize, if_pos hsize]
  · rw [if_neg hsize, if_neg hsize]
    cases Sandbox.admits fs.root name <;> rfl

end Separators

/-! ### Workers whose runs depend on each other -/

/-- The settings of a worker with a work root. -/
def rootedAt (workRoot : String) : WorkerConfig := { WorkerConfig.default with workRoot := workRoot }

/-- A host with a file beside the directories. -/
def obstructed : Host :=
  ⟨⟨.directory Node.directoryMode [("file", .file Node.fileMode [] 0)], []⟩, 0⟩

/-- A host whose work root has a file in it that is named like a sandbox. -/
def cluttered : Host :=
  ⟨⟨.directory Node.directoryMode
    [("w", .directory Node.directoryMode [("r-0-1", .file Node.fileMode [] 0)])], []⟩, 0⟩

/-- A host on which there were nine sandboxes already. -/
def aged : Host := ⟨bare.files, 9⟩

theorem exists_payload_of_marking :
    ∃ payload : RunRequest, (Request.make 1 "run" "r" marking).parsePayload = .ok payload := by
  cases h : ((Request.make 1 "run" "r" marking).parsePayload : Except RemoteError RunRequest) with
  | ok payload => exact ⟨payload, rfl⟩
  | error e =>
    have hok : ((Request.make 1 "run" "r" marking).parsePayload : Except RemoteError RunRequest).isOk =
        true := by decide +kernel
    rw [h] at hok
    exact nomatch hok

theorem sandboxName_marking (number : Nat) :
    sandboxName marker (.make 1 "run" "r" marking) number = "r-0-" ++ Text.Numeral.decimal number := by
  have hfront : Sandbox.safeIdentifier "r" ++ "-" ++ Text.Numeral.decimal 0 ++ "-" = "r-0-" := by
    decide
  exact congrArg (· ++ _) hfront

/-- At the second attempt to make the work root the first part of its path is there. -/
theorem not_independent_obstructed :
    ¬ Independent marker (rootedAt "new/../file/x")
      (fun _ : Bool ↦ .make 1 "run" "r" marking) obstructed := by
  obtain ⟨payload, hpayload⟩ := exists_payload_of_marking
  refine not_independent_of_create hpayload isLocal_marker
    (Files.sound_of_identities (by decide +kernel) (by decide +kernel) nofun)
    ⟨"new/../file/x/r-0-1", .notDirectory⟩
    (Sandbox.isClear_of_visits (by decide +kernel) (by decide +kernel)) (by decide +kernel)
    fun fault hfault ↦ ?_
  have hfirst : (perform (Sandbox.create "new/../file/x" "r-0-0") obstructed.files).1 =
      .error ⟨"new/../file/x/r-0-0", .taken⟩ := by decide +kernel
  rw [sandboxName_marking] at hfault
  obtain rfl := Except.error.inj (hfirst.symm.trans hfault)
  decide +kernel

/-- What is no directory can be in the way of a sandbox. -/
theorem not_independent_cluttered :
    ¬ Independent marker nearby (fun _ : Bool ↦ .make 1 "run" "r" marking) cluttered := by
  obtain ⟨payload, hpayload⟩ := exists_payload_of_marking
  refine not_independent_of_create hpayload isLocal_marker
    (Files.sound_of_identities (by decide +kernel) (by decide +kernel) nofun) ⟨"w/r-0-1", .taken⟩
    (Sandbox.isClear_of_visits (by decide +kernel) (by decide +kernel)) (by decide +kernel)
    fun fault hfault ↦ ?_
  have hfirst : (perform (Sandbox.create "w" "r-0-0") cluttered.files).1 = .ok "w/r-0-0" := by
    decide +kernel
  rw [sandboxName_marking] at hfault
  exact nomatch hfirst.symm.trans hfault

/-- Making the work root can make a directory that is named like a sandbox. -/
theorem not_independent_winding :
    ¬ Independent marker (rootedAt "a/r-0-1/../../a")
      (fun _ : Bool ↦ .make 1 "run" "r" marking) bare := by
  obtain ⟨payload, hpayload⟩ := exists_payload_of_marking
  refine not_independent_of_create hpayload isLocal_marker sound_bare
    ⟨"a/r-0-1/../../a/r-0-1", .taken⟩
    (Sandbox.isClear_of_visits (by decide +kernel) (by decide +kernel)) (by decide +kernel)
    fun fault hfault ↦ ?_
  have hfirst : (perform (Sandbox.create "a/r-0-1/../../a" "r-0-0") bare.files).1 =
      .ok "a/r-0-1/../../a/r-0-0" := by decide +kernel
  rw [sandboxName_marking] at hfault
  exact nomatch hfirst.symm.trans hfault

/-- With one more digit in its name the path of a sandbox can be too long. -/
theorem not_independent_aged :
    ¬ Independent marker (rootedAt (separators 4090))
      (fun _ : Bool ↦ .make 1 "run" "r" marking) aged := by
  obtain ⟨payload, hpayload⟩ := exists_payload_of_marking
  have hnine : sandboxName marker (.make 1 "run" "r" marking) aged.sandboxes = "r-0-9" := by
    decide +kernel
  have hten : sandboxName marker (.make 1 "run" "r" marking) (aged.sandboxes + 1) = "r-0-10" := by
    decide +kernel
  have hfirst : perform (Sandbox.create (separators 4090) "r-0-9") aged.files =
      (.ok (Path.below (separators 4090) "r-0-9"),
        aged.files.within ["r-0-9"] Node.emptyDirectory) := by
    rw [@perform_create_separators aged.files 4090 Node.directoryMode [] "r-0-9" (by decide +kernel)
      rfl rfl (by decide) (by decide) (hnine ▸ isPart_sandboxName _ _ _) (by decide +kernel)]
    rfl
  have hsecond : (perform (Sandbox.create (separators 4090) "r-0-10")
      (aged.files.within ["r-0-9"] Node.emptyDirectory)).1 =
        .error ⟨Path.below (separators 4090) "r-0-10", .nameTooLong⟩ := by
    rw [@perform_create_separators (aged.files.within ["r-0-9"] Node.emptyDirectory) 4090
      Node.directoryMode [("r-0-9", Node.emptyDirectory)] "r-0-10" (by decide +kernel) rfl rfl
      (by decide) (by decide) (hten ▸ isPart_sandboxName _ _ _) (by decide +kernel)]
    rfl
  refine not_independent_of_create hpayload isLocal_marker
    (Files.sound_of_identities (by decide +kernel) (by decide +kernel) nofun)
    ⟨Path.below (separators 4090) "r-0-10", .nameTooLong⟩
    (Sandbox.isClear_of_visits (by decide +kernel) (by decide +kernel)) ?_ fun fault hfault ↦ ?_
  · rw [rootedAt, hten, hnine, hfirst]
    exact hsecond
  · rw [rootedAt, hnine, hfirst] at hfault
    exact nomatch hfault

/-- **Runs do depend on each other**: where the work root cannot be made, where what is no directory is
in the way of a sandbox, where making the work root makes a directory that is named like a sandbox, and
where the path of one sandbox is too long and that of another is not. -/
theorem not_independent :
    ¬ Independent marker (rootedAt "new/../file/x")
        (fun _ : Bool ↦ .make 1 "run" "r" marking) obstructed ∧
    ¬ Independent marker nearby (fun _ : Bool ↦ .make 1 "run" "r" marking) cluttered ∧
    ¬ Independent marker (rootedAt "a/r-0-1/../../a")
        (fun _ : Bool ↦ .make 1 "run" "r" marking) bare ∧
    ¬ Independent marker (rootedAt (separators 4090))
        (fun _ : Bool ↦ .make 1 "run" "r" marking) aged :=
  ⟨not_independent_obstructed, not_independent_cluttered, not_independent_winding,
    not_independent_aged⟩

end Service
end FirmwareLane
