import FirmwareLane.Proofs.Client.Exchange
import FirmwareLane.Proofs.Message.Travelling

/-!
# Assembling elsewhere

A client that has a source text assembled by a worker gets what it would get by assembling the text
itself: the same words, or the same fault at the same line (`asm_inProcess`).  The source text and
the words travel as payloads that come back as they were, and so does the fault, whose line is no
greater than the number of lines of the text.
-/

set_option autoImplicit false
namespace FirmwareLane

open Json (Wire Within)

namespace Service

theorem dispatch_asm {m : Machine} {config : WorkerConfig} {request : Request} {host : Host}
    (hop : request.op = "asm") :
    dispatch m config request host = (.ok (payload (asm request)), host) := by
  rw [dispatch, if_neg (by rw [hop]; decide), if_neg (by rw [hop]; decide), if_pos hop]

/-- A version between the served ones is no error, unless the request is to probe. -/
theorem versionError?_eq_none {config : WorkerConfig} {request : Request}
    (hop : request.op ≠ "probe") (hleast : config.protocolMin ≤ request.protocolVersion)
    (hgreatest : request.protocolVersion ≤ config.protocolMax) :
    versionError? config request = none := by
  rw [versionError?, if_neg hop]
  exact if_neg (by omega)

/-- The service makes words of a source text that can be assembled. -/
theorem asm_eq_ok {request : Request} {payload : AsmRequest} {words : List Assembly.Word}
    (hparse : request.parsePayload = .ok payload)
    (h : Assembly.assemble payload.source = .ok words) :
    asm request = .ok ⟨words.map BitVec.toNat⟩ := by
  simp only [asm, hparse, bind, Except.bind, h]

/-- The service reports the line and the fault of a source text that cannot. -/
theorem asm_eq_error {request : Request} {payload : AsmRequest} {failure : Assembly.Failure}
    (hparse : request.parsePayload = .ok payload)
    (h : Assembly.assemble payload.source = .error failure) :
    asm request = .error (.malformedAssembly failure.line failure.fault.message) := by
  simp only [asm, hparse, bind, Except.bind, h]

end Service

/-- The line and the message are found among the details of the error. -/
theorem ClientFault.ofRemote_malformedAssembly {line : Nat} (h : line < 2 ^ 64) (message : String) :
    ofRemote (.malformedAssembly line message) = .malformedAssembly line message := by
  have hline : Json.natural? (.nat line) = some line := by
    have hrange : (0 : Int) ≤ line ∧ (line : Int) ≤ Json.greatestInteger := by
      rw [Json.greatestInteger]
      norm_num at h ⊢
      omega
    exact if_pos hrange
  show ClientFault.malformedAssembly ((Json.natural? (.nat line)).getD 0) message = _
  rw [hline]
  rfl

namespace Session

open Transport (inProcess send)

variable {config : WorkerConfig} {m : Machine} {endpoint : String} {milliseconds : Nat}
  {source : String} {s : Session Host}

/-- The request of a client to assemble a source text. -/
def asmRequest (milliseconds : Nat) (source : String) (s : Session Host) : Request :=
  (Call.asm source).request (requestId milliseconds s.requests)

theorem isReadable_asmRequest : (asmRequest milliseconds source s).IsReadable :=
  Call.isReadable_request _ _

/-- The worker has the source text assembled and sends back what comes of it. -/
theorem respond_asmRequest (hconfig : config.Fits)
    (hserved : config.protocolMin ≤ 1 ∧ 1 ≤ config.protocolMax)
    (hlength : (send (asmRequest milliseconds source s)).length ≤ config.maxRequestBytes) :
    (Service.respond m config (send (asmRequest milliseconds source s)) none s.state).1 =
      .ok (Service.responseTo (asmRequest milliseconds source s)
        (Service.payload (Service.asm (asmRequest milliseconds source s)))) := by
  have hversion : Service.versionError? config (asmRequest milliseconds source s) = none :=
    Service.versionError?_eq_none (by decide : "asm" ≠ "probe") hserved.1 hserved.2
  rw [Service.respond_send hconfig isReadable_asmRequest hlength hversion,
    Service.dispatch_asm rfl]
  rfl

/-- The response to that request is read back by the client. -/
theorem isFramed_asmRequest (hconfig : config.Fits)
    (hlength : (send (asmRequest milliseconds source s)).length ≤ config.maxRequestBytes) :
    Service.IsFramed (Service.responseTo (asmRequest milliseconds source s)
      (Service.payload (Service.asm (asmRequest milliseconds source s)))) := by
  have hholds := Transport.holds_send isReadable_asmRequest hlength
  obtain ⟨hversion, hsize⟩ := Request.of_ofBytes hholds.ofBytes_eq
  have hmax := hconfig.maxRequestBytes_lt
  exact Service.isFramed_of_isReadable
    (Service.isReadable_responseTo hversion (Service.isReadable_asm (by omega)))

/-- **A client gets from a worker what it makes of the response to its own request.** -/
theorem asm_inProcess_eq (hconfig : config.Fits)
    (hserved : config.protocolMin ≤ 1 ∧ 1 ≤ config.protocolMax)
    (hlength : (send (asmRequest milliseconds source s)).length ≤ config.maxRequestBytes) :
    (asm (inProcess endpoint m config) milliseconds source s).1 =
      (answer (asmRequest milliseconds source s)
        (Service.responseTo (asmRequest milliseconds source s)
          (Service.payload (Service.asm (asmRequest milliseconds source s))))).map
        AsmResponse.words :=
  congrArg (Except.map AsmResponse.words)
    (call_inProcess rfl (respond_asmRequest hconfig hserved hlength)
      (isFramed_asmRequest hconfig hlength))

/-- A text that can be assembled is assembled to the same words by a worker. -/
theorem asm_of_words (hconfig : config.Fits)
    (hserved : config.protocolMin ≤ 1 ∧ 1 ≤ config.protocolMax)
    (hlength : (send (asmRequest milliseconds source s)).length ≤ config.maxRequestBytes)
    {words : List Assembly.Word} (h : Assembly.assemble source = .ok words) :
    (asm (inProcess endpoint m config) milliseconds source s).1 = .ok (words.map BitVec.toNat) := by
  have hasm : Service.asm (asmRequest milliseconds source s) = .ok ⟨words.map BitVec.toNat⟩ :=
    Service.asm_eq_ok (Request.parsePayload_make (AsmRequest.travels ⟨source⟩)) h
  have htravels : Json.Travels (AsmResponse.mk (words.map BitVec.toNat)) :=
    AsmResponse.travels fun word hword ↦ by
      obtain ⟨word, -, rfl⟩ := List.mem_map.1 hword
      exact word.isLt
  rw [asm_inProcess_eq hconfig hserved hlength, hasm, answer_payload htravels]
  rfl

/-- A text that cannot is refused by a worker for the same reason. -/
theorem asm_of_failure (hconfig : config.Fits)
    (hserved : config.protocolMin ≤ 1 ∧ 1 ≤ config.protocolMax)
    (hlength : (send (asmRequest milliseconds source s)).length ≤ config.maxRequestBytes)
    {failure : Assembly.Failure} (h : Assembly.assemble source = .error failure) :
    (asm (inProcess endpoint m config) milliseconds source s).1 =
      .error (.malformedAssembly failure.line failure.fault.message) := by
  have hparse : (asmRequest milliseconds source s).parsePayload = .ok (AsmRequest.mk source) :=
    Request.parsePayload_make (AsmRequest.travels _)
  have hline : failure.line < 2 ^ 64 := by
    have hholds := Transport.holds_send isReadable_asmRequest hlength
    have hsize := (Request.of_ofBytes hholds.ofBytes_eq).2
    have hmax := hconfig.maxRequestBytes_lt
    have hsource := Request.length_source hparse
    have hlines := Text.length_lines_le source.toList
    have hfailure := (Assembly.line_of_assemble h).2
    rw [String.length_toList] at hlines
    change source.length + 2 ≤ _ at hsource
    omega
  rw [asm_inProcess_eq hconfig hserved hlength, Service.asm_eq_error hparse h]
  have hanswer : (answer (asmRequest milliseconds source s)
      (Service.responseTo (asmRequest milliseconds source s)
        (.error (.malformedAssembly failure.line failure.fault.message))) :
        Except ClientFault AsmResponse) =
      .error (.malformedAssembly failure.line failure.fault.message) :=
    answer_failure.trans (congrArg _ (ClientFault.ofRemote_malformedAssembly hline _))
  exact congrArg (Except.map AsmResponse.words) hanswer

/-- **A client that has a source text assembled by a worker gets what it would get by itself**: the
words of the text, or the line and the message of its first fault. -/
theorem asm_inProcess (hconfig : config.Fits)
    (hserved : config.protocolMin ≤ 1 ∧ 1 ≤ config.protocolMax)
    (hlength : (send (asmRequest milliseconds source s)).length ≤ config.maxRequestBytes) :
    (∀ words, (asm (inProcess endpoint m config) milliseconds source s).1 = .ok words ↔
      ∃ assembled, Assembly.assemble source = .ok assembled ∧
        assembled.map BitVec.toNat = words) ∧
    ∀ line message,
      (asm (inProcess endpoint m config) milliseconds source s).1 =
          .error (.malformedAssembly line message) ↔
        ∃ failure, Assembly.assemble source = .error failure ∧ failure.line = line ∧
          failure.fault.message = message := by
  cases h : Assembly.assemble source with
  | ok assembled =>
    rw [asm_of_words hconfig hserved hlength h]
    refine ⟨fun words ↦ ?_, fun line message ↦ ?_⟩ <;> simp
  | error failure =>
    rw [asm_of_failure hconfig hserved hlength h]
    refine ⟨fun words ↦ ?_, fun line message ↦ ?_⟩ <;> simp

/-- The words of a program, and the fault of one with a character that is escaped on its way. -/
theorem asm_inProcess_of_sources :
    (asm (inProcess "here" Service.prompt .default) 0 "nop" ⟨0, Service.fresh⟩).1 = .ok [0x13] ∧
      (asm (inProcess "here" Service.prompt .default) 0 "nop\n\x01" ⟨7, Service.fresh⟩).1 =
        .error (.malformedAssembly 2 "unknown mnemonic '\x01'") := by
  have hwords : Assembly.assemble "nop" = .ok [0x13] := by decide +kernel
  have hfailure : Assembly.assemble "nop\n\x01" = .error ⟨2, .unknownMnemonic "\x01"⟩ := by
    decide +kernel
  constructor
  · exact ((asm_inProcess WorkerConfig.fits_default (by decide) (by decide +kernel)).1 _).2
      ⟨_, hwords, rfl⟩
  · exact ((asm_inProcess WorkerConfig.fits_default (by decide) (by decide +kernel)).2 _ _).2
      ⟨_, hfailure, rfl, rfl⟩

end Session
end FirmwareLane
