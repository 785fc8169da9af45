import FirmwareLane.Proofs.Assembly.Layout
import FirmwareLane.Proofs.Message.Kept
import FirmwareLane.Proofs.Text.Blank
import FirmwareLane.Proofs.Worker.Pipeline
import FirmwareLane.Proofs.Worker.Running

/-!
# The services answer

Whatever a request asks for, the service that it names comes to a payload or to an error, and either
can be told from the text of the response.  There is one exception: a run may wait for the output of
a command line until a point in time that the clock cannot tell (`Late`), and then there is no
answer at all.

That a payload can be told from its text depends on the numbers in it.  Those that come from the
configuration and from the machine fit their types (`Fits`), and those that count operations or
lines of the request are no larger than the request is.

`exists_dispatch` and `dispatch_of_late` are the statement about every service.
-/

set_option autoImplicit false
namespace FirmwareLane

/-! ## Numbers that fit their types -/

/-- A configuration whose numbers fit the types of their settings. -/
structure WorkerConfig.Fits (config : WorkerConfig) : Prop where
  protocolMin : Json.IsInt32 config.protocolMin
  protocolMax : Json.IsInt32 config.protocolMax
  maxRequestBytes_lt : config.maxRequestBytes < 2 ^ 64

theorem WorkerConfig.fits_default : default.Fits := by
  refine ⟨?_, ?_, ?_⟩ <;> simp [default, leastVersion, greatestVersion, Json.IsInt32]

/-- What the numbers of a configuration were decoded from. -/
structure WorkerConfig.DecodedFrom (r : Json.Record) (config : WorkerConfig) : Prop where
  protocolMin : r.withDefault "protocol_min" Json.int32 default.protocolMin =
    .value config.protocolMin
  protocolMax : r.withDefault "protocol_max" Json.int32 default.protocolMax =
    .value config.protocolMax
  operationTimeoutSeconds : r.withDefault "operation_timeout_seconds" (Json.naturalOf "u64" 64)
    default.operationTimeoutSeconds = .value config.operationTimeoutSeconds
  maxRequestBytes : r.withDefault "max_request_bytes" (Json.naturalOf "u64" 64)
    default.maxRequestBytes = .value config.maxRequestBytes

theorem WorkerConfig.exists_of_decode {config : WorkerConfig} {origin : Json.Origin}
    {d : Document} (h : Json.Wire.decode origin d = .ok config) :
    ∃ r : Json.Record, r.parts.document = d ∧ DecodedFrom r config := by
  obtain ⟨r, -, hparts, height⟩ := Json.exists_parts_of_record h
  obtain ⟨_, bytes, hseven, hbytes, rfl⟩ := Json.Outcome.seq_eq_value.1 height
  obtain ⟨_, _, hsix, -, rfl⟩ := Json.Outcome.seq_eq_value.1 hseven
  obtain ⟨_, _, hfive, -, rfl⟩ := Json.Outcome.seq_eq_value.1 hsix
  obtain ⟨_, timeout, hfour, htimeout, rfl⟩ := Json.Outcome.seq_eq_value.1 hfive
  obtain ⟨_, _, hthree, -, rfl⟩ := Json.Outcome.seq_eq_value.1 hfour
  obtain ⟨_, _, htwo, -, rfl⟩ := Json.Outcome.seq_eq_value.1 hthree
  obtain ⟨_, greatest, hone, hgreatest, rfl⟩ := Json.Outcome.seq_eq_value.1 htwo
  obtain ⟨least, hleast, rfl⟩ := Json.Outcome.map_eq_value.1 hone
  exact ⟨r, hparts, hleast, hgreatest, htimeout, hbytes⟩

theorem WorkerConfig.fits_of_decode {config : WorkerConfig} {origin : Json.Origin}
    {d : Document} (h : Json.Wire.decode origin d = .ok config) : config.Fits := by
  obtain ⟨r, -, hfrom⟩ := exists_of_decode h
  refine ⟨?_, ?_, ?_⟩
  · rcases Json.eq_or_exists_of_withDefault hfrom.protocolMin with heq | ⟨_, -, hleast⟩
    · exact heq ▸ fits_default.protocolMin
    · exact Json.integerIn_eq_ok hleast
  · rcases Json.eq_or_exists_of_withDefault hfrom.protocolMax with heq | ⟨_, -, hgreatest⟩
    · exact heq ▸ fits_default.protocolMax
    · exact Json.integerIn_eq_ok hgreatest
  · rcases Json.eq_or_exists_of_withDefault hfrom.maxRequestBytes with heq | ⟨_, -, hbytes⟩
    · exact heq ▸ fits_default.maxRequestBytes_lt
    · exact Json.naturalOf_lt hbytes

theorem Configuration.firstFault_eq_ok {α : Type} {a a' : α} {checks : List (Bool × Fault)} :
    firstFault a checks = .ok a' ↔ a = a' ∧ ∀ check ∈ checks, check.1 = false := by
  induction checks with
  | nil => exact ⟨fun h ↦ ⟨Except.ok.inj h, nofun⟩, fun h ↦ congrArg _ h.1⟩
  | cons check rest ih =>
    rw [firstFault, List.forall_mem_cons]
    cases check.1 with
    | true => exact ⟨(nomatch ·), fun h ↦ nomatch h.2.1⟩
    | false => simp [ih]

/-- A configuration that was read is decoded from the table of the document, and nothing is wrong
with it. -/
theorem WorkerConfig.exists_of_read {config : WorkerConfig} {document : String}
    (h : read document = .ok config) :
    ∃ table, Toml.parse? document = some table ∧ Json.Wire.ofSetting table = .ok config ∧
      config.check = .ok config := by
  rw [read, Configuration.read] at h
  split at h
  · exact nomatch h
  · next table htable =>
    split at h
    · exact nomatch h
    · next hdecode =>
      obtain ⟨rfl, -⟩ := Configuration.firstFault_eq_ok.1 h
      exact ⟨table, htable, hdecode, h⟩

/-- **The numbers of a configuration that was read fit their types.** -/
theorem WorkerConfig.fits_of_read {config : WorkerConfig} {document : String}
    (h : read document = .ok config) : config.Fits := by
  obtain ⟨_, -, hdecode, -⟩ := exists_of_read h
  exact fits_of_decode hdecode

/-- A machine whose exit codes and durations fit their types. -/
structure Machine.Fits (m : Machine) : Prop where
  isInt32_of_exited : ∀ index directory timeout commandLine fs code,
    (m.run index directory timeout commandLine fs).1.ending = .exited code → Json.IsInt32 code
  elapsed_lt : ∀ index directory timeout commandLine fs,
    (m.run index directory timeout commandLine fs).1.elapsed < 2 ^ 64

namespace Pipeline

variable {m : Machine} {p : Pipeline} {first : Nat} {operation : Operation}
  {operations : List Operation} {fs : Files} {outcome : Outcome}

theorem fits_reportIn (hm : m.Fits) (hfirst : first < 2 ^ 64) :
    (reportIn m p first operation fs).Fits := by
  cases operation with
  | reset => exact ⟨hfirst, nofun, Nat.two_pow_pos 64⟩
  | shell interpreter commandLine =>
    refine ⟨hfirst, fun code hcode ↦ ?_, hm.elapsed_lt _ _ _ _ _⟩
    refine hm.isInt32_of_exited first p.root p.timeout commandLine fs code ?_
    change exitCode? (m.run first p.root p.timeout commandLine fs).1.ending = some code at hcode
    cases hending : (m.run first p.root p.timeout commandLine fs).1.ending with
    | exited code' =>
      rw [hending] at hcode
      exact congrArg _ (Option.some.inj hcode)
    | _ =>
      rw [hending] at hcode
      exact nomatch hcode

theorem fits_of_mem_skipAll (hlength : first + operations.length ≤ 2 ^ 64) :
    ∀ r ∈ skipAll first operations, r.Fits := by
  induction operations generalizing first with
  | nil => exact fun r hr ↦ absurd hr List.not_mem_nil
  | cons operation rest ih =>
    rw [List.length_cons] at hlength
    rintro r (_ | ⟨_, hr⟩)
    · exact ⟨show first < 2 ^ 64 by omega, nofun, Nat.two_pow_pos 64⟩
    · exact ih (by omega) r hr

/-- **The numbers in the reports of a pipeline fit their types.** -/
theorem fits_of_executeFrom (hm : m.Fits) (hlength : first + operations.length ≤ 2 ^ 64)
    (h : (executeFrom m p first operations fs).1 = .ok outcome) :
    ∀ r ∈ outcome.reports, r.Fits := by
  induction operations generalizing first fs outcome with
  | nil =>
    cases h
    exact fun r hr ↦ absurd hr List.not_mem_nil
  | cons operation rest ih =>
    rw [List.length_cons] at hlength
    have hreport : (reportIn m p first operation fs).Fits := fits_reportIn hm (by omega)
    by_cases htold : Told m p first operation fs
    · simp only [executeFrom, carryOut_of_told htold] at h
      split at h
      · cases hrest : executeFrom m p (first + 1) rest (effect m p first operation fs) with
        | mk result fs' =>
          rw [hrest] at h
          cases result with
          | error crash => cases h
          | ok below =>
            cases h
            rintro r (_ | ⟨_, hr⟩)
            · exact hreport
            · exact ih (by omega) (congrArg Prod.fst hrest) r hr
      · cases h
        rintro r (_ | ⟨_, hr⟩)
        · exact hreport
        · exact fits_of_mem_skipAll (by omega) r hr
    · simp only [executeFrom, carryOut_of_not_told htold] at h
      cases h

end Pipeline

namespace Service

/-! ## Results -/

/-- A result that comes back from the text of its response as it was. -/
def IsReadable : Except RemoteError Json → Prop
  | .ok payload => payload.IsKept (Json.greatestDepth - 1)
  | .error e => e.IsReadable

variable {m : Machine} {config : WorkerConfig} {request : Request} {host : Host}

theorem isReadable_responseTo {result : Except RemoteError Json}
    (hversion : Json.IsInt32 request.protocolVersion) (h : IsReadable result) :
    (responseTo request result).IsReadable := by
  cases result with
  | ok payload => exact .success hversion h
  | error e => exact .failure hversion h

/-! ## Probing and assembling -/

theorem isReadable_offer (h : config.Fits) : IsReadable (payload (.ok (offer config))) :=
  (Json.isKept_sorted_object (ProbeResponse.within_encode h.protocolMin h.protocolMax
    h.maxRequestBytes_lt)).mono (by decide)

theorem isReadable_asm (hsize : request.payload.size ≤ 2 ^ 64) :
    IsReadable (payload (asm request)) := by
  cases hparse : (request.parsePayload : Except RemoteError AsmRequest) with
  | error e =>
    rw [asm, hparse]
    exact RemoteError.isReadable_of_data_eq_none (data_of_parsePayload hparse)
  | ok source =>
    have hlength := Request.length_source hparse
    rw [asm, hparse]
    rw [show (Except.ok source : Except RemoteError AsmRequest) = pure source from rfl, pure_bind]
    cases hassemble : Assembly.assemble source.source with
    | ok words =>
      refine (Json.isKept_sorted_object (AsmResponse.within_encode fun word hword ↦ ?_)).mono
        (by decide)
      obtain ⟨word, -, rfl⟩ := List.mem_map.1 hword
      exact Nat.lt_trans word.isLt (by decide)
    | error failure =>
      have hline := (Assembly.line_of_assemble hassemble).2
      have hlines := Text.length_lines_le source.source.toList
      rw [String.length_toList] at hlines
      exact RemoteError.isReadable_malformedAssembly (by omega) _

/-! ## Running -/

/-- A run that comes to a wait whose end the clock cannot tell. -/
def Late (m : Machine) (config : WorkerConfig) (request : Request) (host : Host) : Prop :=
  ∃ payload root restored before, Begun m config request host payload root restored before ∧
    ¬ (pipelineIn config root).Tellable m 0 payload.operations restored

/-- What a run sends back comes back from its text. -/
theorem isReadable_runResponse {fs : Files} {root : String} {run : RunRequest}
    {before : Option Snapshot} {outcome : Pipeline.Outcome}
    (h : ∀ report ∈ outcome.reports, report.Fits) :
    IsReadable (payload (runResponse fs root run before outcome)) := by
  rw [runResponse]
  cases hcapture : captureSandbox fs root run.extensions with
  | error e => exact RemoteError.isReadable_of_data_eq_none (data_of_captureSandbox hcapture)
  | ok after =>
    exact (Json.isKept_sorted_object (RunResponse.within_encode h)).mono (by decide)

theorem run_of_late (h : Late m config request host) :
    (run m config request host).1 = .error .clockOverflow := by
  obtain ⟨payload, root, restored, before, hbegun, hlate⟩ := h
  have hexecute := Pipeline.executeFrom_of_not_tellable hlate
  rw [run_of_begun hbegun, Pipeline.execute]
  generalize Pipeline.executeFrom m (pipelineIn config root) 0 payload.operations restored = result
    at hexecute ⊢
  obtain ⟨result, finished⟩ := result
  obtain rfl : result = .error .clockOverflow := hexecute
  rfl

/-- A run that is not late sends back what its operations left, or an error without details. -/
theorem run_of_not_late (h : ¬ Late m config request host) :
    (∃ asked root restored before outcome finished,
      Begun m config request host asked root restored before ∧
      (pipelineIn config root).execute m asked.operations restored = (.ok outcome, finished) ∧
      (run m config request host).1 = .ok (runResponse finished root asked before outcome)) ∨
    ∃ e, (run m config request host).1 = .ok (.error e) ∧ e.data = none := by
  by_cases hbegun : ∃ payload root restored before,
      Begun m config request host payload root restored before
  · obtain ⟨asked, root, restored, before, hbegun⟩ := hbegun
    have htellable : (pipelineIn config root).Tellable m 0 asked.operations restored := by
      by_contra hlate
      exact h ⟨asked, root, restored, before, hbegun, hlate⟩
    obtain ⟨_, outcome, finished, hexecute, -⟩ := Pipeline.executeFrom_stopsAt htellable
    refine .inl ⟨asked, root, restored, before, outcome, finished, hbegun, hexecute, ?_⟩
    rw [run_of_begun hbegun, Pipeline.execute, hexecute]
  · simp only [not_exists] at hbegun
    exact .inr (run_of_not_begun hbegun)

theorem exists_run_of_not_late (hm : m.Fits) (hsize : request.payload.size ≤ 2 ^ 64)
    (h : ¬ Late m config request host) :
    ∃ result, (run m config request host).1 = .ok result ∧ IsReadable (payload result) := by
  rcases run_of_not_late h with
    ⟨asked, root, restored, before, outcome, finished, hbegun, hexecute, hrun⟩ | ⟨e, hrun, hdata⟩
  · have hlength := Request.length_operations hbegun.payload_eq
    refine ⟨_, hrun, isReadable_runResponse ?_⟩
    exact Pipeline.fits_of_executeFrom hm (by omega) (congrArg Prod.fst hexecute)
  · exact ⟨.error e, hrun, RemoteError.isReadable_of_data_eq_none hdata⟩

/-! ## The service that a request names -/

/-- **The service that a request names answers**, unless it is a run that the clock cannot tell. -/
theorem exists_dispatch (hconfig : config.Fits) (hm : m.Fits)
    (hsize : request.payload.size ≤ 2 ^ 64)
    (h : request.op = "run" → ¬ Late m config request host) :
    ∃ result, (dispatch m config request host).1 = .ok result ∧ IsReadable result := by
  rw [dispatch]
  split
  · exact ⟨_, rfl, isReadable_offer hconfig⟩
  split
  · next hop =>
    obtain ⟨result, hrun, hreadable⟩ := exists_run_of_not_late hm hsize (h hop)
    exact ⟨payload result, congrArg (Except.map payload) hrun, hreadable⟩
  split
  · exact ⟨_, rfl, isReadable_asm hsize⟩
  · exact ⟨_, rfl, RemoteError.isReadable_unknownOperation _⟩

theorem dispatch_of_late (hop : request.op = "run") (h : Late m config request host) :
    (dispatch m config request host).1 = .error .clockOverflow := by
  rw [dispatch, if_neg (by rw [hop]; decide), if_pos hop]
  exact congrArg (Except.map payload) (run_of_late h)

end Service
end FirmwareLane
