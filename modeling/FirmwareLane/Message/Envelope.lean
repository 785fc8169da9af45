import FirmwareLane.Json.Decoder

/-!
# Requests, responses and errors

Every exchange with a worker is one request and one response, each a single line.  The envelope
names the service and the version of the protocol, and a payload travels in it as any value: what it
means is settled only where it is used.
-/

set_option autoImplicit false
namespace FirmwareLane

open Json (Wire)

/-! ## Errors -/

/-- The kinds of errors that a worker reports. -/
inductive ErrorCode where
  /-- The request is no request, or its payload is not what the service takes. -/
  | invalidRequest
  /-- The version of the protocol is not served. -/
  | unsupportedProtocol
  /-- There is no such service. -/
  | unknownOperation
  /-- The source text was refused. -/
  | malformedAssembly
  /-- A sandbox could not be prepared or read back. -/
  | sandboxFailed
  /-- The request is too long. -/
  | payloadTooLarge
  deriving DecidableEq, Repr

namespace ErrorCode

/-- The codes by name. -/
def names : List (String × ErrorCode) :=
  [("INVALID_REQUEST", .invalidRequest), ("UNSUPPORTED_PROTOCOL", .unsupportedProtocol),
   ("UNKNOWN_OPERATION", .unknownOperation), ("MALFORMED_ASSEMBLY", .malformedAssembly),
   ("SANDBOX_FAILED", .sandboxFailed), ("PAYLOAD_TOO_LARGE", .payloadTooLarge)]

/-- The name of a code. -/
def name : ErrorCode → String
  | invalidRequest => "INVALID_REQUEST"
  | unsupportedProtocol => "UNSUPPORTED_PROTOCOL"
  | unknownOperation => "UNKNOWN_OPERATION"
  | malformedAssembly => "MALFORMED_ASSEMBLY"
  | sandboxFailed => "SANDBOX_FAILED"
  | payloadTooLarge => "PAYLOAD_TOO_LARGE"

instance : Wire ErrorCode where
  encode c := .text c.name
  decode := Json.variant names

end ErrorCode

/-- An error that a worker reports. -/
structure RemoteError where
  code : ErrorCode
  message : String
  /-- Details for a program to read. -/
  data : Option Json
  deriving Repr

namespace RemoteError

instance : Wire RemoteError where
  encode e := Json.present
    [("code", some (Wire.encode e.code)), ("message", some (.text e.message)), ("data", e.data)]
  decode := Json.record "RpcError" ["code", "message", "data"] fun r ↦
    RemoteError.mk <$> r.required "code" Wire.decode <*> r.required "message" Json.string
      <*> r.optional "data" Json.anything

/-- The code and the message. -/
def describe (e : RemoteError) : String := e.code.name ++ ": " ++ e.message

/-- A request or a payload that makes no sense. -/
def invalidRequest (message : String) : RemoteError := ⟨.invalidRequest, message, none⟩

/-- A sandbox that failed. -/
def sandboxFailed (message : String) : RemoteError := ⟨.sandboxFailed, message, none⟩

open Text.Numeral (integer decimal)

/-- A version that is not between the served ones. -/
def unsupportedProtocol (version least greatest : Int) : RemoteError :=
  ⟨.unsupportedProtocol,
   "protocol_version " ++ integer version ++ " is outside supported range [" ++ integer least ++
     ", " ++ integer greatest ++ "]",
   some (.object [("max", .integer greatest), ("min", .integer least),
     ("requested", .integer version)])⟩

/-- A service that there is none of. -/
def unknownOperation (name : String) : RemoteError :=
  ⟨.unknownOperation, "unknown operation: " ++ name, some (.object [("op", .text name)])⟩

/-- A source text that was refused at a line. -/
def malformedAssembly (line : Nat) (message : String) : RemoteError :=
  ⟨.malformedAssembly, "line " ++ decimal line ++ ": " ++ message,
   some (.object [("line", .nat line), ("message", .text message)])⟩

/-- A request of so many bytes where fewer are allowed. -/
def payloadTooLarge (size greatest : Nat) : RemoteError :=
  ⟨.payloadTooLarge, "payload size " ++ decimal size ++ " exceeds maximum " ++ decimal greatest,
   some (.object [("max_bytes", .nat greatest), ("size", .nat size)])⟩

/-- A natural number among the details. -/
def naturalOf? (e : RemoteError) (name : String) : Option Nat := do
  (← (← e.data).member? name).natural?

/-- A text among the details. -/
def textOf? (e : RemoteError) (name : String) : Option String := do
  (← (← e.data).member? name).text?

end RemoteError

/-! ## Requests -/

/-- A request to a worker. -/
structure Request where
  protocolVersion : Int
  /-- The name of the service. -/
  op : String
  /-- Chosen by the caller, and given back with the response. -/
  requestId : String
  payload : Json
  deriving Repr

namespace Request

instance : Wire Request where
  encode r := .object
    [("protocol_version", .integer r.protocolVersion), ("op", .text r.op),
     ("request_id", .text r.requestId), ("payload", r.payload)]
  decode := Json.record "RpcRequest" ["protocol_version", "op", "request_id", "payload"] fun r ↦
    Request.mk <$> r.required "protocol_version" Json.int32 <*> r.required "op" Json.string
      <*> r.required "request_id" Json.string <*> r.required "payload" Json.anything

/-- A request with a payload of a type. -/
def make {α : Type} [Wire α] (version : Int) (op requestId : String) (payload : α) : Request :=
  ⟨version, op, requestId, (Wire.encode payload).sorted⟩

/-- The payload as a value of a type. -/
def parsePayload {α : Type} [Wire α] (r : Request) : Except RemoteError α :=
  match Wire.ofJson r.payload with
  | .ok a => .ok a
  | .error fault => .error (.invalidRequest ("invalid " ++ r.op ++ " payload: " ++ fault.message))

end Request

/-! ## Responses -/

/-- A response of a worker. -/
structure Response where
  protocolVersion : Int
  requestId : String
  ok : Bool
  /-- Given when all went well. -/
  payload : Option Json
  /-- Given when something went wrong. -/
  error : Option RemoteError
  deriving Repr

namespace Response

instance : Wire Response where
  encode r := Json.present
    [("protocol_version", some (.integer r.protocolVersion)),
      ("request_id", some (.text r.requestId)),
     ("ok", some (.bool r.ok)), ("payload", r.payload), ("error", r.error.map Wire.encode)]
  decode := Json.record "RpcResponse" ["protocol_version", "request_id", "ok", "payload", "error"]
    fun r ↦
      Response.mk <$> r.required "protocol_version" Json.int32
        <*> r.required "request_id" Json.string <*> r.required "ok" Json.boolean
        <*> r.optional "payload" Json.anything <*> r.optional "error" Wire.decode

/-- The response to a request that went well. -/
def success (version : Int) (requestId : String) (payload : Json) : Response :=
  ⟨version, requestId, true, some payload, none⟩

/-- The response to a request that went wrong. -/
def failure (version : Int) (requestId : String) (e : RemoteError) : Response :=
  ⟨version, requestId, false, none, some e⟩

/-- What a response brings: the payload as a value of a type, or the error.  A response that has
neither where it should is an error of its own. -/
def result {α : Type} [Wire α] (r : Response) : Except RemoteError α :=
  if !r.ok then
    .error (r.error.getD (.invalidRequest "error response without error details"))
  else
    match r.payload with
    | none => .error (.invalidRequest "success response without payload")
    | some payload =>
      match Wire.ofJson payload with
      | .ok a => .ok a
      | .error fault =>
        .error (.invalidRequest ("undecodable response payload: " ++ fault.message))

end Response
end FirmwareLane
