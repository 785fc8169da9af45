import FirmwareLane.Proofs.Client.Exchange

/-!
# Refusals on their way to the caller

When a worker refuses a request, the client is to tell its caller so, with the code and the message
of the worker.  It does for every request whose line the worker could read.  A line that is longer
than allowed is refused before the identifier in it is known, so the response names no request, and
the client takes it for the response to another one (`Call.refusal`).
-/

set_option autoImplicit false
namespace FirmwareLane

open Json (Wire Within)

/-! ## Faults of calls -/

namespace Call

/-- The fault in a result. -/
def faultOf? {α : Type} : Except ClientFault α → Option ClientFault
  | .ok _ => none
  | .error fault => some fault

/-- The fault that a call ends with, if it ends with one. -/
def fault? {σ : Type} (t : Transport σ) (milliseconds : Nat) (s : Session σ) :
    Call → Option ClientFault
  | run asked => faultOf? (Session.run t milliseconds asked s).1
  | asm source => faultOf? (Session.asm t milliseconds source s).1
  | probe => faultOf? (Session.probe t milliseconds s).1

variable {m : Machine} {config : WorkerConfig} {endpoint : String} {milliseconds : Nat}
  {s : Session Host} {r : Response}

/-- A fault that is made of the response, whatever is hoped for, is what a call ends with. -/
theorem fault?_of_answer {fault : ClientFault} (c : Call)
    (hrespond : (Service.respond m config (c.line milliseconds s.requests) none s.state).1 = .ok r)
    (hframed : Service.IsFramed r)
    (hanswer : ∀ (β : Type) [Wire β],
      (Session.answer (c.request (Session.requestId milliseconds s.requests)) r :
        Except ClientFault β) = .error fault) :
    c.fault? (.inProcess endpoint m config) milliseconds s = some fault := by
  cases c with
  | run asked =>
    exact congrArg (fun result ↦ faultOf? (result.bind Session.ifSucceeded))
      ((Session.call_inProcess rfl hrespond hframed).trans (hanswer RunResponse))
  | asm source =>
    exact congrArg (fun result ↦ faultOf? (result.map AsmResponse.words))
      ((Session.call_inProcess rfl hrespond hframed).trans (hanswer AsmResponse))
  | probe =>
    exact congrArg faultOf?
      ((Session.call_inProcess rfl hrespond hframed).trans (hanswer ProbeResponse))

/-! ## What a client makes of a refusal -/

variable {request : Request} {e : RemoteError}

/-- The fault of an error that is not about a source text has its code and its message. -/
theorem ofRemote_eq_rejected (h : e.code ≠ .malformedAssembly) :
    ClientFault.ofRemote e = .rejected e.code e.message := by
  rw [ClientFault.ofRemote]
  split
  · next hcode => exact absurd hcode h
  · rfl

/-- A refusal under the identifier of the request reaches the caller. -/
theorem answer_of_refusal {α : Type} [Wire α] (hid : r.requestId = request.requestId)
    (hok : r.ok = false) (herror : r.error = some e) (hcode : e.code ≠ .malformedAssembly) :
    (Session.answer request r : Except ClientFault α) = .error (.rejected e.code e.message) := by
  rw [Session.answer, if_neg (not_not_intro hid), hok, herror]
  exact congrArg Except.error (ofRemote_eq_rejected hcode)

/-- A refusal under another identifier does not. -/
theorem answer_of_stranger {α : Type} [Wire α] (hid : r.requestId ≠ request.requestId) :
    (Session.answer request r : Except ClientFault α) =
      .error (.protocol ("response for request '" ++ r.requestId ++ "' does not match '" ++
        request.requestId ++ "'")) :=
  if_pos hid

theorem requestId_ne_empty (milliseconds number : Nat) :
    Session.requestId milliseconds number ≠ "" := by
  intro h
  have hlist := congrArg String.toList h
  rw [Session.requestId, String.toList_append, String.toList_append, String.toList_append] at hlist
  exact absurd (congrArg List.head? hlist) (by simp)

/-! ## All calls -/

/-- The worker reads a line that is not too long, and answers under the identifier in it. -/
theorem response_of_short (hconfig : config.Fits) (hm : m.Fits) (c : Call)
    (hlength : (c.line milliseconds s.requests).length ≤ config.maxRequestBytes)
    (hrespond : (Service.respond m config (c.line milliseconds s.requests) none s.state).1 = .ok r) :
    Service.IsFramed r ∧ r.requestId = Session.requestId milliseconds s.requests := by
  have hreadable := isReadable_request (Session.requestId milliseconds s.requests) c
  have hline := Transport.requestLine_send hreadable
  have hholds := Transport.holds_send hreadable hlength
  rw [← hline] at hholds
  have hintime :
      ¬ Service.Overdue m config (Service.requestLine (c.line milliseconds s.requests)) s.state := by
    intro hoverdue
    rw [Service.respond_of_overdue hconfig hoverdue] at hrespond
    cases hrespond
  obtain ⟨other, hother, hanswer⟩ := Service.exists_respond_of_holds hconfig hm hholds
    (Service.readRequest_send hconfig hreadable hlength) hintime
  obtain rfl : other = r := Except.ok.inj (hother.symm.trans hrespond)
  exact ⟨hanswer.toIsFramed, (hanswer.echoes _ hholds).2.trans (requestId_request _ c)⟩

/-- The worker refuses a line that is too long, whatever is in it. -/
theorem respond_of_long (c : Call)
    (hlength : config.maxRequestBytes < (c.line milliseconds s.requests).length)
    (hcounted : config.maxRequestBytes + 1 < 2 ^ 64) :
    (Service.respond m config (c.line milliseconds s.requests) none s.state).1 =
      .ok (.failure Service.probeVersion ""
        (.payloadTooLarge (config.maxRequestBytes + 1) config.maxRequestBytes)) := by
  have hline : Service.requestLine (c.line milliseconds s.requests) =
      c.line milliseconds s.requests :=
    Transport.requestLine_send (isReadable_request _ c)
  rw [Service.respond, Service.readRequest_of_long (by rwa [hline]) hcounted]

/-- **A refusal reaches the caller with its code and its message exactly if the worker could read
the line of the request.**  A line that is too long is refused without an identifier, and what
reaches the caller is a mismatch of identifiers.

The bytes of a line are counted in 64 bits, as in the worker. -/
theorem refusal (endpoint : String) (hconfig : config.Fits) (hm : m.Fits) (c : Call)
    (hcounted :
      config.maxRequestBytes + 1 < 2 ^ 64 ∨ (c.line milliseconds s.requests).length < 2 ^ 64)
    (hrespond : (Service.respond m config (c.line milliseconds s.requests) none s.state).1 = .ok r)
    (hok : r.ok = false) (herror : r.error = some e) (hcode : e.code ≠ .malformedAssembly) :
    ((c.line milliseconds s.requests).length ≤ config.maxRequestBytes →
      ∃ fault, c.fault? (.inProcess endpoint m config) milliseconds s = some fault ∧
        fault = .rejected e.code e.message ∧ fault.exitCode = 30) ∧
    (config.maxRequestBytes < (c.line milliseconds s.requests).length →
      e.code = .payloadTooLarge ∧
      ∃ fault, c.fault? (.inProcess endpoint m config) milliseconds s = some fault ∧
        fault = .protocol ("response for request '' does not match '" ++
          Session.requestId milliseconds s.requests ++ "'") ∧ fault.exitCode = 21) := by
  constructor
  · intro hshort
    obtain ⟨hframed, hid⟩ := response_of_short hconfig hm c hshort hrespond
    have hanswer : ∀ (β : Type) [Wire β], (Session.answer
        (c.request (Session.requestId milliseconds s.requests)) r : Except ClientFault β) =
          .error (.rejected e.code e.message) := fun β _ ↦
      answer_of_refusal (hid.trans (requestId_request _ c).symm) hok herror hcode
    exact ⟨_, fault?_of_answer c hrespond hframed hanswer, rfl, rfl⟩
  · intro hlong
    -- the response names no request, so the client does not look at the error in it
    have hlimit : config.maxRequestBytes + 1 < 2 ^ 64 := by omega
    obtain rfl := Except.ok.inj ((respond_of_long c hlong hlimit).symm.trans hrespond)
    obtain rfl := Option.some.inj herror
    have hframed := Service.isFramed_refusal (RemoteError.isReadable_payloadTooLarge hlimit
      (Nat.lt_of_succ_lt hlimit))
    have hid : "" ≠ (c.request (Session.requestId milliseconds s.requests)).requestId := by
      rw [requestId_request]
      exact (requestId_ne_empty _ _).symm
    have hanswer : ∀ (β : Type) [Wire β], (Session.answer
        (c.request (Session.requestId milliseconds s.requests))
        (.failure Service.probeVersion "" (.payloadTooLarge (config.maxRequestBytes + 1)
          config.maxRequestBytes)) : Except ClientFault β) =
          .error (.protocol ("response for request '' does not match '" ++
            Session.requestId milliseconds s.requests ++ "'")) := by
      intro β _
      have hstranger := answer_of_stranger (α := β) (r := .failure Service.probeVersion ""
        (.payloadTooLarge (config.maxRequestBytes + 1) config.maxRequestBytes)) hid
      rwa [requestId_request] at hstranger
    exact ⟨rfl, _, fault?_of_answer c hrespond hframed hanswer, rfl, rfl⟩

/-- A worker for later versions of the protocol only. -/
def laterOnly : WorkerConfig := { WorkerConfig.default with protocolMin := 2, protocolMax := 3 }

theorem fits_laterOnly : laterOnly.Fits :=
  ⟨by simp [laterOnly, Json.IsInt32], by simp [laterOnly, Json.IsInt32], by decide⟩

/-- A version that is refused, and a line that is too long. -/
theorem refusal_of_version_and_length :
    (∃ fault, fault? (.inProcess "here" Service.prompt laterOnly) 0 ⟨0, Service.fresh⟩
        (.asm "nop") = some fault ∧
      fault = .rejected .unsupportedProtocol
        "protocol_version 1 is outside supported range [2, 3]" ∧ fault.exitCode = 30) ∧
    ∃ fault, fault? (.inProcess "here" Service.prompt (Service.patient 10)) 0 ⟨0, Service.fresh⟩
        .probe = some fault ∧
      fault = .protocol "response for request '' does not match 'req-0-00000000'" ∧
      fault.exitCode = 21 := by
  constructor
  · have hlength : (line 0 0 (.asm "nop")).length ≤ laterOnly.maxRequestBytes := by
      decide +kernel
    have hrefused : Service.versionError? laterOnly (request (Session.requestId 0 0) (.asm "nop")) =
        some (.unsupportedProtocol 1 2 3) := by
      rw [Service.versionError?]
      exact (if_neg (by decide)).trans (if_pos (by decide))
    have hrespond : (Service.respond Service.prompt laterOnly (line 0 0 (.asm "nop")) none
        Service.fresh).1 = .ok (Service.responseTo (request (Session.requestId 0 0) (.asm "nop"))
          (.error (.unsupportedProtocol 1 2 3))) :=
      Service.respond_send_of_versionError? fits_laterOnly (isReadable_request _ (.asm "nop"))
        hlength hrefused
    have hmessage : (RemoteError.unsupportedProtocol 1 2 3).message =
        "protocol_version 1 is outside supported range [2, 3]" := by decide +kernel
    have hrefusal := (refusal (s := ⟨0, Service.fresh⟩) "here" fits_laterOnly Service.fits_prompt
      (.asm "nop") (.inl (by decide)) hrespond rfl rfl (by decide)).1 hlength
    rwa [hmessage] at hrefusal
  · have hlong : (Service.patient 10).maxRequestBytes < (line 0 0 .probe).length := by
      decide +kernel
    have hrespond := respond_of_long (m := Service.prompt) (s := ⟨0, Service.fresh⟩) .probe hlong
      (by decide)
    have hmessage : "response for request '' does not match '" ++ Session.requestId 0 0 ++ "'" =
        "response for request '' does not match 'req-0-00000000'" := by decide +kernel
    have hrefusal := ((refusal "here" (Service.fits_patient (by decide)) Service.fits_prompt .probe
      (.inl (by decide)) hrespond rfl rfl (by decide)).2 hlong).2
    rwa [hmessage] at hrefusal

end Call
end FirmwareLane
