import FirmwareLane.Client.Session
import FirmwareLane.Proofs.Classification
import FirmwareLane.Proofs.Json.Travelling
import FirmwareLane.Proofs.Worker.Lines

/-!
# An exchange with a worker

A client sends the line of a request and reads the line of the response.  The worker reads the very
request from the line, as every value that a request carries comes back from its text
(`holds_send`), and the client reads the very response that the worker made (`receive_line`).  So
what a client makes of an exchange is what it makes of the worker's response.
-/

set_option autoImplicit false
namespace FirmwareLane

open Json (Wire Within)
open Json.Record (placed)
open Json.Outcome (seq)
open Text (Bytes)

/-! ## Requests -/

namespace Request

/-- A request of which all can be told from its text. -/
structure IsReadable (r : Request) : Prop where
  version : Json.IsInt32 r.protocolVersion
  sorted_eq : r.payload.sorted = r.payload
  within : Within (Json.greatestDepth - 1) r.payload

variable {r : Request}

theorem IsReadable.decode_encode (h : r.IsReadable) :
    (Wire.decode .text (.ofJson (Wire.encode r)) : Except Json.Fault Request) = .ok r := by
  obtain ⟨version, op, requestId, payload⟩ := r
  have hversion := h.version.decode_eq .text
  have hpayload := Json.anything_ofJson h.sorted_eq .text
  refine Json.record_object rfl fun described ↦ ?_
  show seq (seq (seq (Json.Outcome.map Request.mk (placed 0 (Json.int32 .text (.integer version))))
    (placed 1 (.ok op))) (placed 2 (.ok requestId)))
    (placed 3 (Json.anything .text (.ofJson payload))) = _
  rw [hversion, hpayload]
  rfl

theorem IsReadable.within_encode (h : r.IsReadable) :
    Within Json.greatestDepth (Wire.encode r) := by
  refine .object fun member hmember ↦ ?_
  rcases hmember with _ | ⟨_, _ | ⟨_, _ | ⟨_, _ | ⟨_, ⟨⟩⟩⟩⟩⟩
  · exact h.version.within
  · exact .text _
  · exact .text _
  · exact h.within

/-- A request with a payload of a type, if the payload is not nested too deep. -/
theorem isReadable_make {α : Type} [Wire α] {version : Int} {op requestId : String} {a : α}
    (hversion : Json.IsInt32 version) (h : Within (Json.greatestDepth - 1) (Wire.encode a)) :
    (make version op requestId a).IsReadable :=
  ⟨hversion, Json.sorted_sorted _, h.sorted⟩

/-- **The payload of a request is read as what it was made of.** -/
theorem parsePayload_make {α : Type} [Wire α] {version : Int} {op requestId : String} {a : α}
    (h : Json.Travels a) : (make version op requestId a).parsePayload = .ok a := by
  rw [parsePayload, make, h.ofJson_eq (Json.sorted_sorted _)]

end Request

/-! ## Payloads of requests -/

theorem RunRequest.within_encode (r : RunRequest) : Within 3 (Wire.encode r) := by
  refine .object fun member hmember ↦ ?_
  rcases hmember with _ | ⟨_, _ | ⟨_, _ | ⟨_, _ | ⟨_, ⟨⟩⟩⟩⟩⟩
  · exact Classification.within_encode _
  · exact Snapshot.within_encode _
  · refine .array fun item hitem ↦ ?_
    obtain ⟨operation, -, rfl⟩ := List.mem_map.1 hitem
    exact Operation.within_encode operation
  · exact .bool _

theorem AsmRequest.within_encode (r : AsmRequest) : Within 1 (Wire.encode r) := by
  refine .object fun member hmember ↦ ?_
  rcases hmember with _ | ⟨_, ⟨⟩⟩
  exact .text _

theorem ProbeRequest.within_encode : Within 1 (Wire.encode ProbeRequest.mk) :=
  .object fun _ hmember ↦ absurd hmember List.not_mem_nil

/-! ## Calls -/

/-- What a client can ask of a worker. -/
inductive Call where
  | run (asked : RunRequest)
  | asm (source : String)
  | probe

namespace Call

/-- The request of a call under an identifier. -/
def request (requestId : String) : Call → Request
  | run asked => .make WorkerConfig.greatestVersion "run" requestId asked
  | asm source => .make WorkerConfig.greatestVersion "asm" requestId (AsmRequest.mk source)
  | probe => .make Service.probeVersion "probe" requestId ProbeRequest.mk

/-- The line that a client sends for a call, from the time in milliseconds and the number of its
earlier requests. -/
def line (milliseconds number : Nat) (c : Call) : Bytes :=
  Transport.send (c.request (Session.requestId milliseconds number))

theorem isReadable_request (requestId : String) (c : Call) : (c.request requestId).IsReadable := by
  cases c with
  | run asked =>
    exact Request.isReadable_make (by simp [WorkerConfig.greatestVersion, Json.IsInt32])
      (asked.within_encode.mono (by decide))
  | asm source =>
    exact Request.isReadable_make (by simp [WorkerConfig.greatestVersion, Json.IsInt32])
      ((AsmRequest.within_encode _).mono (by decide))
  | probe =>
    exact Request.isReadable_make (by simp [Service.probeVersion, Json.IsInt32])
      (ProbeRequest.within_encode.mono (by decide))

theorem requestId_request (requestId : String) (c : Call) :
    (c.request requestId).requestId = requestId := by
  cases c <;> rfl

end Call

/-! ## Lines -/

namespace Transport

variable {config : WorkerConfig} {request : Request} {r : Response}

theorem send_eq (request : Request) :
    send request = Text.Utf8.bytes (Wire.print request) ++ [10] := by
  rw [send, Text.Utf8.bytes, String.toList_append, Text.Utf8.encode, List.flatMap_append]
  rfl

/-- The text of a request begins with a brace. -/
theorem exists_print_eq (request : Request) :
    ∃ rest, (Wire.print request).toList = '\x7b' :: rest := by
  rw [Wire.print, Json.print, String.toList_ofList]
  exact ⟨_, rfl⟩

theorem requestLine_send (h : request.IsReadable) :
    Service.requestLine (send request) = send request := by
  have hnewline := Json.Wire.newline_not_mem_print h.within_encode
  have hfirst : Service.firstLine (Text.Utf8.bytes (Wire.print request) ++ [10]) =
      (Text.Utf8.bytes (Wire.print request) ++ [10], true) :=
    Service.firstLine_append fun hmem ↦ hnewline (Text.Utf8.newline_mem_encode hmem)
  rw [send_eq, Service.requestLine, hfirst]

/-- **A line that is not too long holds the request that it was made of.** -/
theorem holds_send (h : request.IsReadable)
    (hlength : (send request).length ≤ config.maxRequestBytes) :
    Service.Holds config (send request) request where
  length_le := hlength
  not_blank := by
    obtain ⟨rest, hrest⟩ := exists_print_eq request
    rw [send, Text.Utf8.bytes, String.toList_append, hrest]
    rfl
  ofBytes_eq := by
    rw [send, Json.Wire.ofBytes_line h.within_encode, h.decode_encode]

/-- **The response is read from the line that a worker writes.** -/
theorem receive_line (h : Service.IsFramed r) :
    receive (Text.Utf8.bytes (Service.line r)) = .ok r := by
  have hbrace : '\x7b' ∈ (Service.line r).toList := by
    rw [Service.line, Wire.print, Json.print, String.toList_append, String.toList_ofList]
    exact List.mem_append_left _ (List.mem_of_mem_head? rfl)
  have hfilled : (Text.trim (Service.line r).toList).isEmpty = false :=
    List.isEmpty_eq_false_iff.2 (Text.trim_ne_nil hbrace (by decide))
  have hdecoded : Wire.ofText (Service.line r) = .ok r := by
    rw [← Json.Wire.ofBytes_bytes, h.decoded]
  rw [receive, h.one_line]
  simp only [Text.Utf8.string?_bytes, hfilled, Bool.false_eq_true, if_false, decodeLine, hdecoded]
  rfl

end Transport

/-! ## Exchanges -/

section

open Transport (inProcess send)

variable {m : Machine} {config : WorkerConfig} {host : Host} {request : Request}

theorem Service.readRequest_send (hconfig : config.Fits) (h : request.IsReadable)
    (hlength : (send request).length ≤ config.maxRequestBytes) :
    readRequest config (send request) none = .ok request := by
  have hholds := Transport.holds_send h hlength
  have hline := Transport.requestLine_send h
  rcases readRequest_of_short hconfig (by rwa [hline]) with ⟨other, hother, hread⟩ | ⟨hnone, -⟩
  · rw [hline] at hother
    rw [hread, hholds.unique hother]
  · rw [hline] at hnone
    exact absurd hnone hholds.not_holdsNone

/-- A request of a version that is served is answered by the service that it names. -/
theorem Service.respond_send (hconfig : config.Fits) (h : request.IsReadable)
    (hlength : (send request).length ≤ config.maxRequestBytes)
    (hserved : versionError? config request = none) :
    (respond m config (send request) none host).1 =
      (dispatch m config request host).1.map (responseTo request) := by
  rw [respond, readRequest_send hconfig h hlength]
  simp only [hserved]

/-- A request of another version is refused. -/
theorem Service.respond_send_of_versionError? (hconfig : config.Fits) (h : request.IsReadable)
    (hlength : (send request).length ≤ config.maxRequestBytes) {e : RemoteError}
    (hrefused : versionError? config request = some e) :
    (respond m config (send request) none host).1 = .ok (responseTo request (.error e)) := by
  rw [respond, readRequest_send hconfig h hlength]
  simp only [hrefused]

/-- A payload that travels is the answer. -/
theorem Session.answer_payload {β : Type} [Wire β] {b : β} (h : Json.Travels b) :
    answer request (Service.responseTo request (Service.payload (.ok b))) = .ok b := by
  refine (if_neg (not_not_intro rfl)).trans ((if_neg Bool.false_ne_true).trans ?_)
  show (Wire.ofJson (Wire.encode b).sorted).mapError _ = _
  rw [h.ofJson_eq (Json.sorted_sorted _)]
  rfl

/-- An error under the identifier of the request is the fault. -/
theorem Session.answer_failure {β : Type} [Wire β] {version : Int} {e : RemoteError} :
    (answer request (.failure version request.requestId e) : Except ClientFault β) =
      .error (.ofRemote e) :=
  if_neg (not_not_intro rfl)

/-- **What a client makes of an exchange is what it makes of the response of the worker.** -/
theorem Session.call_inProcess {α β : Type} [Wire α] [Wire β] {endpoint op : String}
    {milliseconds : Nat} {version : Int} {payload : α} {s : Session Host} {r : Response}
    (hrequest : Request.make version op (requestId milliseconds s.requests) payload = request)
    (hrespond : (Service.respond m config (send request) none s.state).1 = .ok r)
    (hframed : Service.IsFramed r) :
    (call (β := β) (inProcess endpoint m config) milliseconds op version payload s).1 =
      answer request r := by
  subst hrequest
  cases hresult : Service.respond m config
      (send (.make version op (requestId milliseconds s.requests) payload)) none s.state with
  | mk result host =>
    rw [hresult] at hrespond
    obtain rfl : result = .ok r := hrespond
    simp only [call, inProcess, hresult, Transport.receive_line hframed]

end

end FirmwareLane
