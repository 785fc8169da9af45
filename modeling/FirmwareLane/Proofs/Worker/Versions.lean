import FirmwareLane.Proofs.Worker.Lines

/-!
# Which versions are served

Before a request comes to its service, its version is looked at: a probe has the version of probes,
and all else a version that the configuration serves.  `dispatched_iff` says that there is nothing
between the two: either the answer is that of the service, or the request is refused for its version
and nothing else happens at all.

The version of probes is one of those that a configuration may serve.  Where it does, probes are not
the only requests with that version that come to a service, and only there.
-/

set_option autoImplicit false
namespace FirmwareLane
namespace Service

open Text (Bytes)

variable {m : Machine} {config : WorkerConfig} {input : Bytes} {broken : Option String}
  {request : Request} {host : Host}

/-! ## The versions of a service -/

/-- The least and the greatest version with which a service is asked for. -/
def versions (config : WorkerConfig) (op : String) : Int × Int :=
  if op = "probe" then (probeVersion, probeVersion) else (config.protocolMin, config.protocolMax)

/-- The version of a request is one with which its service is asked for. -/
def IsServed (config : WorkerConfig) (request : Request) : Prop :=
  (versions config request.op).1 ≤ request.protocolVersion ∧
    request.protocolVersion ≤ (versions config request.op).2

instance : Decidable (IsServed config request) := inferInstanceAs (Decidable (_ ∧ _))

/-- The error of a request that is refused for its version. -/
def unserved (config : WorkerConfig) (request : Request) : RemoteError :=
  .unsupportedProtocol request.protocolVersion (versions config request.op).1
    (versions config request.op).2

theorem isServed_probe (hop : request.op = "probe") :
    IsServed config request ↔ request.protocolVersion = probeVersion := by
  rw [IsServed, versions, if_pos hop]
  exact ⟨fun h ↦ Int.le_antisymm h.2 h.1, fun h ↦ ⟨Int.le_of_eq h.symm, Int.le_of_eq h⟩⟩

theorem isServed_of_ne_probe (hop : request.op ≠ "probe") :
    IsServed config request ↔
      config.protocolMin ≤ request.protocolVersion ∧
        request.protocolVersion ≤ config.protocolMax := by
  rw [IsServed, versions, if_neg hop]

theorem versionError?_eq :
    versionError? config request =
      if IsServed config request then none else some (unserved config request) := by
  rw [versionError?, unserved]
  by_cases hop : request.op = "probe"
  · rw [if_pos hop, versions, if_pos hop]
    exact if_congr (isServed_probe hop).symm rfl rfl
  · rw [if_neg hop, versions, if_neg hop]
    by_cases hserved : IsServed config request
    · have hrange := (isServed_of_ne_probe hop).1 hserved
      rw [if_pos hserved, if_neg (by omega)]
    · have hrange := mt (isServed_of_ne_probe hop).2 hserved
      rw [if_neg hserved, if_pos (by omega)]

/-! ## What services answer -/

/-- The errors of a run have no details. -/
theorem data_of_run {e : RemoteError} (h : (run m config request host).1 = .ok (.error e)) :
    e.data = none := by
  by_cases hbegun : ∃ payload root restored before,
      Begun m config request host payload root restored before
  · obtain ⟨payload, root, restored, before, hbegun⟩ := hbegun
    rw [run_of_begun hbegun] at h
    rcases hexecuted : (pipelineIn config root).execute m payload.operations restored with
      ⟨crash | outcome, finished⟩
    · rw [hexecuted] at h
      cases h
    · rw [hexecuted] at h
      have hresponse := Except.ok.inj h
      rw [runResponse] at hresponse
      cases hcapture : captureSandbox finished root payload.extensions with
      | ok after =>
        rw [hcapture] at hresponse
        cases hresponse
      | error fault =>
        rw [hcapture] at hresponse
        cases hresponse
        exact data_of_captureSandbox hcapture
  · simp only [not_exists] at hbegun
    obtain ⟨e', hrun, hdata⟩ := run_of_not_begun hbegun
    obtain rfl := Except.error.inj (Except.ok.inj (hrun.symm.trans h))
    exact hdata

theorem asm_ne_unsupportedProtocol (version least greatest : Int) :
    asm request ≠ .error (.unsupportedProtocol version least greatest) := by
  rw [asm]
  intro h
  cases hparse : (request.parsePayload : Except RemoteError AsmRequest) with
  | error e =>
    have hdata := data_of_parsePayload hparse
    rw [hparse] at h
    rw [show e = _ from Except.error.inj h] at hdata
    cases hdata
  | ok source =>
    rw [hparse, show (Except.ok source : Except RemoteError AsmRequest) = pure source from rfl,
      pure_bind] at h
    cases hwords : Assembly.assemble source.source with
    | ok words =>
      rw [hwords] at h
      cases h
    | error failure =>
      rw [hwords] at h
      exact ErrorCode.noConfusion (congrArg RemoteError.code (Except.error.inj h))

/-- No service says that a version is not served. -/
theorem dispatch_ne_unsupportedProtocol (version least greatest : Int) :
    (dispatch m config request host).1 ≠
      .ok (.error (.unsupportedProtocol version least greatest)) := by
  rw [dispatch]
  intro h
  split at h
  · cases h
  split at h
  · change (run m config request host).1.map payload = _ at h
    obtain ⟨result, hrun, hresult⟩ := Outcome.map_eq_ok.1 h
    cases result with
    | ok response => cases hresult
    | error e =>
      have hdata := data_of_run hrun
      rw [show e = _ from Except.error.inj hresult] at hdata
      cases hdata
  split at h
  · have hanswer := Except.ok.inj h
    cases hasm : asm request with
    | ok words =>
      rw [hasm] at hanswer
      cases hanswer
    | error e =>
      rw [hasm] at hanswer
      exact asm_ne_unsupportedProtocol version least greatest
        (hasm.trans (congrArg Except.error (Except.error.inj hanswer)))
  · exact ErrorCode.noConfusion (congrArg RemoteError.code (Except.error.inj (Except.ok.inj h)))

/-! ## The gate -/

/-- A request comes to its service: on every host the answer and all that is done are those of the
service. -/
def Dispatched (m : Machine) (config : WorkerConfig) (input : Bytes) (broken : Option String)
    (request : Request) : Prop :=
  ∀ host, respond m config input broken host =
    ((dispatch m config request host).1.map (responseTo request),
      (dispatch m config request host).2)

/-- A request is refused for its version: whatever the host, it stays as it is. -/
def Refused (m : Machine) (config : WorkerConfig) (input : Bytes) (broken : Option String)
    (request : Request) : Prop :=
  ∀ host, respond m config input broken host =
    (.ok (.failure request.protocolVersion request.requestId (unserved config request)), host)

theorem dispatched_of_isServed (hread : readRequest config input broken = .ok request)
    (hserved : IsServed config request) : Dispatched m config input broken request := by
  intro host
  rw [respond, hread]
  dsimp only
  rw [versionError?_eq, if_pos hserved]

theorem refused_of_not_isServed (hread : readRequest config input broken = .ok request)
    (hserved : ¬ IsServed config request) : Refused m config input broken request := by
  intro host
  rw [respond, hread]
  dsimp only
  rw [versionError?_eq, if_neg hserved]
  rfl

/-- A request that is refused does not come to its service, which would have answered something
else. -/
theorem Refused.not_dispatched (h : Refused m config input broken request) :
    ¬ Dispatched m config input broken request := by
  intro hdispatched
  have hanswer := congrArg Prod.fst
    ((hdispatched ⟨⟨.emptyDirectory, []⟩, 0⟩).symm.trans (h ⟨⟨.emptyDirectory, []⟩, 0⟩))
  dsimp only at hanswer
  cases hresult : (dispatch m config request ⟨⟨.emptyDirectory, []⟩, 0⟩).1 with
  | error crash =>
    rw [hresult] at hanswer
    cases hanswer
  | ok result =>
    rw [hresult] at hanswer
    cases result with
    | ok payload => exact Bool.noConfusion (congrArg Response.ok (Except.ok.inj hanswer))
    | error e =>
      have herror := Option.some.inj (congrArg Response.error (Except.ok.inj hanswer))
      rw [herror] at hresult
      exact dispatch_ne_unsupportedProtocol _ _ _ hresult

/-- **A request comes to its service exactly if it is a probe with the version of probes, or another
request with a version that the configuration serves**; else it is refused and the host stays as it
is.  So a request that is no probe is served with the version of probes exactly if that is between
the least and the greatest version of the configuration. -/
theorem dispatched_iff (hread : readRequest config input broken = .ok request) :
    (Dispatched m config input broken request ↔
      (request.op = "probe" ∧ request.protocolVersion = probeVersion) ∨
      (request.op ≠ "probe" ∧ config.protocolMin ≤ request.protocolVersion ∧
        request.protocolVersion ≤ config.protocolMax)) ∧
    (¬ Dispatched m config input broken request ↔ Refused m config input broken request) ∧
    (request.op ≠ "probe" → request.protocolVersion = probeVersion →
      (Dispatched m config input broken request ↔
        config.protocolMin ≤ probeVersion ∧ probeVersion ≤ config.protocolMax)) := by
  have hserved : Dispatched m config input broken request ↔ IsServed config request :=
    ⟨fun h ↦ by_contra fun hno ↦ (refused_of_not_isServed hread hno).not_dispatched h,
      dispatched_of_isServed hread⟩
  refine ⟨?_, ⟨fun h ↦ refused_of_not_isServed hread fun hyes ↦ h (hserved.2 hyes),
    Refused.not_dispatched⟩, fun hop hversion ↦ ?_⟩
  · rw [hserved]
    by_cases hop : request.op = "probe"
    · rw [isServed_probe hop]
      exact ⟨fun h ↦ .inl ⟨hop, h⟩, fun h ↦ h.elim And.right fun hno ↦ absurd hop hno.1⟩
    · rw [isServed_of_ne_probe hop]
      exact ⟨fun h ↦ .inr ⟨hop, h⟩, fun h ↦ h.elim (fun hyes ↦ absurd hyes.1 hop) And.right⟩
  · rw [hserved, isServed_of_ne_probe hop, hversion]

/-- A configuration that serves the version of probes. -/
def zeroBased : WorkerConfig := { WorkerConfig.default with protocolMin := 0 }

/-- The line of a request to assemble a program, with the version of probes. -/
def nopLine : Bytes :=
  Text.Utf8.bytes
    ("\x7b\"protocol_version\":0,\"op\":\"asm\",\"request_id\":\"t\"," ++
      "\"payload\":\x7b\"source\":\"nop\"\x7d\x7d\n")

/-- A configuration may serve the version of probes, and then a program is assembled with it. -/
theorem dispatched_iff_of_zeroBased :
    WorkerConfig.read "protocol_min = 0" = .ok zeroBased ∧
    (∃ request, readRequest zeroBased nopLine none = .ok request ∧ request.op = "asm" ∧
      request.protocolVersion = probeVersion ∧
      Dispatched prompt zeroBased nopLine none request) ∧
    (respond prompt zeroBased nopLine none fresh).1.toOption.map line =
      some ("\x7b\"protocol_version\":0,\"request_id\":\"t\",\"ok\":true," ++
        "\"payload\":\x7b\"words\":[19]\x7d\x7d\n") := by
  refine ⟨by decide +kernel, ?_, by decide +kernel⟩
  have hfields : (readRequest zeroBased nopLine none).toOption.map
      (fun r ↦ (r.op, r.protocolVersion)) = some ("asm", 0) := by
    decide +kernel
  obtain ⟨request, hread, hfields⟩ := Option.map_eq_some_iff.1 hfields
  replace hread := Outcome.eq_ok_of_toOption hread
  obtain ⟨hop, hversion⟩ := Prod.mk.inj hfields
  have hno : request.op ≠ "probe" := hop ▸ by decide
  obtain ⟨-, -, hzero⟩ := @dispatched_iff prompt zeroBased nopLine none request hread
  exact ⟨request, hread, hop, hversion, (hzero hno hversion).2 (by decide)⟩

end Service
end FirmwareLane
