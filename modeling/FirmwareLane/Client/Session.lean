import FirmwareLane.Client.Fault
import FirmwareLane.Worker.Service

/-!
# Sessions with a worker

A client sends a request over a transport and makes of the response an answer or a fault.  Requests
are numbered, and a response counts only if it names its request.

A transport takes a request to a worker and brings back the response, changing some state on the
way.  `Transport.inProcess` is the one to a worker in the same process, by way of the same lines
that would travel over a network.
-/

set_option autoImplicit false
namespace FirmwareLane

open Json (Wire)
open Text (Bytes)

/-- A way to a worker. -/
structure Transport (σ : Type) where
  /-- What the other side is called. -/
  endpoint : String
  exchange : Request → σ → Except TransportFault Response × σ

namespace Transport

/-- The response in a line. -/
def decodeLine (line : String) : Except TransportFault Response :=
  (Wire.ofText line).mapError .undecodable

/-- The response in the bytes that come over a connection until it is closed. -/
def receive (b : Bytes) : Except TransportFault Response :=
  match Text.Utf8.string? (Service.firstLine b).1 with
  | none => .error (.interrupted true Files.Fault.notText.message)
  | some line =>
    if (Text.trim line.toList).isEmpty then
      .error (.senseless "worker closed the connection without a response")
    else decodeLine line

/-- The bytes that a request is sent as. -/
def send (request : Request) : Bytes := Text.Utf8.bytes (Wire.print request ++ "\n")

/-- The way to a worker in the same process. -/
def inProcess (endpoint : String) (m : Machine) (config : WorkerConfig) : Transport Host where
  endpoint
  exchange request host :=
    match Service.respond m config (send request) none host with
    | (.ok response, host) => (receive (Text.Utf8.bytes (Service.line response)), host)
    | (.error _, host) => (receive [], host)

/-- The way to a worker that is never reached. -/
def unreachable {σ : Type} (endpoint reason : String) : Transport σ where
  endpoint
  exchange _ s := (.error (.connectionFailed (endpoint ++ ": " ++ reason)), s)

end Transport

/-- A client with what its transport changes. -/
structure Session (σ : Type) where
  /-- The number of requests so far. -/
  requests : Nat
  state : σ

namespace Session

variable {σ : Type}

/-- The identifier of a request, from the time in milliseconds and its number. -/
def requestId (milliseconds number : Nat) : String :=
  "req-" ++ String.ofList (Text.Numeral.write 16 milliseconds) ++ "-" ++
    String.ofList (Text.Numeral.writePadded 16 8 number)

/-- The answer that a response to a request holds. -/
def answer {α : Type} [Wire α] (request : Request) (response : Response) :
    Except ClientFault α :=
  if response.requestId ≠ request.requestId then
    .error (.protocol ("response for request '" ++ response.requestId ++ "' does not match '" ++
      request.requestId ++ "'"))
  else if !response.ok then
    .error (.ofRemote (response.error.getD (.invalidRequest "error response without details")))
  else
    match response.payload with
    | none => .error (.protocol (request.op ++ " response without payload"))
    | some payload =>
      (Wire.ofJson payload).mapError fun fault ↦
        .protocol ("undecodable " ++ request.op ++ " response: " ++ fault.message)

/-- The fault of a request without a response. -/
def unanswered (endpoint : String) (fault : TransportFault) : ClientFault :=
  if fault.isUnreachable then .unreachable endpoint fault else .protocol fault.message

/-- Sends a request and makes an answer of the response. -/
def call {α β : Type} [Wire α] [Wire β] (t : Transport σ) (milliseconds : Nat) (op : String)
    (version : Int) (payload : α) (s : Session σ) : Except ClientFault β × Session σ :=
  let request := Request.make version op (requestId milliseconds s.requests) payload
  match t.exchange request s.state with
  | (.ok response, state) => (answer request response, ⟨s.requests + 1, state⟩)
  | (.error fault, state) => (.error (unanswered t.endpoint fault), ⟨s.requests + 1, state⟩)

/-- The words of a source text. -/
def asm (t : Transport σ) (milliseconds : Nat) (source : String) (s : Session σ) :
    Except ClientFault (List Nat) × Session σ :=
  let (result, s) :=
    call (β := AsmResponse) t milliseconds "asm" WorkerConfig.greatestVersion
      (AsmRequest.mk source) s
  (result.map AsmResponse.words, s)

/-- What a worker offers. -/
def probe (t : Transport σ) (milliseconds : Nat) (s : Session σ) :
    Except ClientFault ProbeResponse × Session σ :=
  call t milliseconds "probe" Service.probeVersion ProbeRequest.mk s

/-- A response as an answer; one of a pipeline that failed is a fault that carries it. -/
def ifSucceeded (response : RunResponse) : Except ClientFault RunResponse :=
  if response.succeeded then .ok response
  else
    .error (.executionFailed (response.diagnostics.getD "pipeline failed without diagnostics")
      response)

/-- The response to a request to run operations. -/
def run (t : Transport σ) (milliseconds : Nat) (request : RunRequest) (s : Session σ) :
    Except ClientFault RunResponse × Session σ :=
  let (result, s) := call t milliseconds "run" WorkerConfig.greatestVersion request s
  (result.bind ifSucceeded, s)

end Session
end FirmwareLane
