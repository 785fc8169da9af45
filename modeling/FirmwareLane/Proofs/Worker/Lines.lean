import FirmwareLane.Proofs.Worker.Answers

/-!
# One line in, one line out

A worker reads the first line of its input, and nothing behind it matters.  It writes one line, from
which its response can be read back: a response with a payload or with an error, and never with
both.  A line that is too long or holds no request is refused under the version of probes and
without an identifier; every other response goes back under the version and the identifier of its
request.

The one exception is a run that waits for longer than the clock can tell: it leaves no line at all
(`Overdue`).

## What is here

* `fst_firstLine_take` tells what a limited reader sees of the first line.
* `readRequest_of_long` and `readRequest_of_short` are the two sides of the limit.
* `respond_line` is the statement about all configurations and inputs.
-/

set_option autoImplicit false
namespace FirmwareLane

open Json (Wire)
open Text (Bytes)

namespace Service

/-! ## The first line -/

/-- The bytes of the request in an input: those up to and with the first line end. -/
def requestLine (input : Bytes) : Bytes := (firstLine input).1

/-- **A reader that stops after some bytes sees that much of the first line.** -/
theorem fst_firstLine_take (n : Nat) (input : Bytes) :
    (firstLine (input.take n)).1 = (requestLine input).take n := by
  induction input generalizing n with
  | nil => rw [List.take_nil]; exact List.take_nil.symm
  | cons b rest ih =>
    cases n with
    | zero => rfl
    | succ n =>
      rw [requestLine, List.take_succ_cons, firstLine, firstLine]
      split
      · exact congrArg (b :: ·) List.take_nil.symm
      · exact congrArg (b :: ·) (ih n)

theorem requestLine_requestLine (input : Bytes) :
    requestLine (requestLine input) = requestLine input := by
  induction input with
  | nil => rfl
  | cons b rest ih =>
    rw [requestLine, requestLine, firstLine]
    split
    · next hb => rw [hb]; rfl
    · next hb =>
      rw [firstLine, if_neg hb]
      exact congrArg (b :: ·) ih

/-- A text without line ends in it is one line when a line end is put behind it. -/
theorem firstLine_append {line : Bytes} (h : 10 ∉ line) :
    firstLine (line ++ [10]) = (line ++ [10], true) := by
  induction line with
  | nil => rfl
  | cons b rest ih =>
    rw [List.mem_cons, not_or] at h
    rw [List.cons_append, firstLine, if_neg (Ne.symm h.1), ih h.2]

section

variable {config : WorkerConfig} {input : Bytes}

theorem requestBytes_none :
    requestBytes config input none = .ok ((requestLine input).take (readLimit config)) :=
  congrArg _ (fst_firstLine_take _ _)

/-- **Bytes behind the first line do not matter.** -/
theorem respond_requestLine (m : Machine) (config : WorkerConfig) (input : Bytes) (host : Host) :
    respond m config input none host = respond m config (requestLine input) none host := by
  have hread : readRequest config input none = readRequest config (requestLine input) none := by
    rw [readRequest, readRequest, requestBytes_none, requestBytes_none, requestLine_requestLine]
  rw [respond, respond, hread]

/-! ## The limit -/

/-- A line that is longer than allowed is not read to its end, but far enough to tell. -/
theorem readRequest_of_long (hlong : config.maxRequestBytes < (requestLine input).length)
    (hcounted : config.maxRequestBytes + 1 < 2 ^ 64) :
    readRequest config input none =
      .error (.payloadTooLarge (config.maxRequestBytes + 1) config.maxRequestBytes) := by
  have hlimit : readLimit config = config.maxRequestBytes + 1 :=
    Nat.min_eq_left (Nat.le_sub_one_of_lt hcounted)
  have hlength : ((requestLine input).take (readLimit config)).length =
      config.maxRequestBytes + 1 := by
    rw [hlimit, List.length_take]
    omega
  rw [readRequest, requestBytes_none]
  show (if config.maxRequestBytes < ((requestLine input).take (readLimit config)).length then
    _ else _) = _
  rw [hlength, if_pos (Nat.lt_succ_self _)]

/-- The request that a line of allowed length holds. -/
structure Holds (config : WorkerConfig) (line : Bytes) (request : Request) : Prop where
  length_le : line.length ≤ config.maxRequestBytes
  not_blank : line.all isBlankByte = false
  ofBytes_eq : Wire.ofBytes line = .ok request

/-- A line without a request: it is blank, or is no encoded request. -/
def HoldsNone (line : Bytes) : Prop :=
  line.all isBlankByte = true ∨ ∀ request : Request, Wire.ofBytes line ≠ .ok request

theorem Holds.unique {line : Bytes} {request other : Request} (h : Holds config line request)
    (hother : Holds config line other) : request = other :=
  Except.ok.inj (h.ofBytes_eq.symm.trans hother.ofBytes_eq)

theorem Holds.not_holdsNone {line : Bytes} {request : Request} (h : Holds config line request) :
    ¬ HoldsNone line := by
  rintro (hblank | hnone)
  · rw [h.not_blank] at hblank
    exact nomatch hblank
  · exact hnone request h.ofBytes_eq

/-- A line of allowed length holds a request, or is refused. -/
theorem readRequest_of_short (hconfig : config.Fits)
    (hshort : (requestLine input).length ≤ config.maxRequestBytes) :
    (∃ request, Holds config (requestLine input) request ∧
      readRequest config input none = .ok request) ∨
    (HoldsNone (requestLine input) ∧
      ∃ message, readRequest config input none = .error (.invalidRequest message)) := by
  have hmax := hconfig.maxRequestBytes_lt
  have htake : (requestLine input).take (readLimit config) = requestLine input := by
    refine List.take_of_length_le (Nat.le_min.2 ⟨by omega, ?_⟩)
    exact Nat.le_sub_one_of_lt (Nat.lt_of_le_of_lt hshort hmax)
  simp only [readRequest, requestBytes_none, htake, bind, Except.bind,
    if_neg (Nat.not_lt.2 hshort)]
  cases hblank : (requestLine input).all isBlankByte with
  | true => exact .inr ⟨.inl hblank, _, if_pos rfl⟩
  | false =>
    rw [if_neg Bool.false_ne_true]
    cases hrequest : (Wire.ofBytes (requestLine input) : Except Json.Fault Request) with
    | ok request => exact .inl ⟨request, ⟨hshort, hblank, hrequest⟩, rfl⟩
    | error fault =>
      refine .inr ⟨.inr fun request h ↦ ?_, _, rfl⟩
      rw [hrequest] at h
      cases h

end

/-! ## The line of a response -/

/-- A response that refuses a line: it has the version of probes, no identifier, and an error. -/
def IsRefusal (code : ErrorCode) (r : Response) : Prop :=
  ∃ e, r = .failure probeVersion "" e ∧ e.code = code

/-- A response that is written as one line and read back from it, and that brings either a payload
or an error. -/
structure IsFramed (r : Response) : Prop where
  /-- What is written is one line, with its end as the last byte. -/
  one_line : firstLine (Text.Utf8.bytes (Service.line r)) =
    (Text.Utf8.bytes (Service.line r), true)
  newline_not_mem : '\n' ∉ (Wire.print r).toList
  decoded : Wire.ofBytes (Text.Utf8.bytes (Service.line r)) = .ok r
  outcome : (r.ok = true ∧ r.payload.isSome = true ∧ r.error = none) ∨
    (r.ok = false ∧ r.payload = none ∧ r.error.isSome = true)

theorem isFramed_of_isReadable {r : Response} (h : r.IsReadable) : IsFramed r where
  one_line := by
    have hbytes : Text.Utf8.bytes (Service.line r) = Text.Utf8.bytes (Wire.print r) ++ [10] := by
      rw [Service.line, Text.Utf8.bytes, String.toList_append, Text.Utf8.encode,
        List.flatMap_append]
      rfl
    rw [hbytes]
    exact firstLine_append fun hmem ↦ h.newline_not_mem (Text.Utf8.newline_mem_encode hmem)
  newline_not_mem := h.newline_not_mem
  decoded := h.ofBytes_line
  outcome := by
    cases h with
    | success => exact .inl ⟨rfl, rfl, rfl⟩
    | failure => exact .inr ⟨rfl, rfl, rfl⟩

/-- What a worker is to answer to a line. -/
structure IsAnswer (config : WorkerConfig) (line : Bytes) (r : Response) : Prop
    extends IsFramed r where
  too_large : config.maxRequestBytes < line.length → IsRefusal .payloadTooLarge r
  invalid : line.length ≤ config.maxRequestBytes → HoldsNone line → IsRefusal .invalidRequest r
  echoes : ∀ request, Holds config line request →
    r.protocolVersion = request.protocolVersion ∧ r.requestId = request.requestId

theorem isFramed_refusal {e : RemoteError} (h : e.IsReadable) :
    IsFramed (.failure probeVersion "" e) :=
  isFramed_of_isReadable (.failure (by simp [probeVersion, Json.IsInt32]) h)

section

variable {config : WorkerConfig} {line : Bytes}

/-- The answer to a line that is longer than allowed. -/
theorem isAnswer_of_long (hlong : config.maxRequestBytes < line.length)
    (hcounted : config.maxRequestBytes + 1 < 2 ^ 64) :
    IsAnswer config line (.failure probeVersion ""
      (.payloadTooLarge (config.maxRequestBytes + 1) config.maxRequestBytes)) where
  toIsFramed := isFramed_refusal (RemoteError.isReadable_payloadTooLarge hcounted
    (Nat.lt_of_succ_lt hcounted))
  too_large _ := ⟨_, rfl, rfl⟩
  invalid hshort := absurd hlong (Nat.not_lt.2 hshort)
  echoes _ hholds := absurd hlong (Nat.not_lt.2 hholds.length_le)

/-- The answer to a line that holds no request. -/
theorem isAnswer_of_holdsNone (hshort : line.length ≤ config.maxRequestBytes)
    (hnone : HoldsNone line) (message : String) :
    IsAnswer config line (.failure probeVersion "" (.invalidRequest message)) where
  toIsFramed := isFramed_refusal (RemoteError.isReadable_of_data_eq_none rfl)
  too_large hlong := absurd hlong (Nat.not_lt.2 hshort)
  invalid _ _ := ⟨_, rfl, rfl⟩
  echoes _ hholds := absurd hnone hholds.not_holdsNone

/-- The answer to a line that holds a request. -/
theorem isAnswer_responseTo {request : Request} {result : Except RemoteError Json}
    (h : Holds config line request) (hresult : IsReadable result) :
    IsAnswer config line (responseTo request result) where
  toIsFramed := isFramed_of_isReadable
    (isReadable_responseTo (Request.of_ofBytes h.ofBytes_eq).1 hresult)
  too_large hlong := absurd hlong (Nat.not_lt.2 h.length_le)
  invalid _ hnone := absurd hnone h.not_holdsNone
  echoes other hother := by
    obtain rfl := h.unique hother
    cases result <;> exact ⟨rfl, rfl⟩

end

theorem isReadable_versionError? {config : WorkerConfig} {request : Request} {e : RemoteError}
    (hconfig : config.Fits) (hversion : Json.IsInt32 request.protocolVersion)
    (h : versionError? config request = some e) : e.IsReadable := by
  have hprobe : Json.IsInt32 probeVersion := by simp [probeVersion, Json.IsInt32]
  rw [versionError?] at h
  split at h
  · split at h
    · cases h
    · cases h
      exact RemoteError.isReadable_unsupportedProtocol hversion hprobe hprobe
  · split at h
    · cases h
      exact RemoteError.isReadable_unsupportedProtocol hversion hconfig.protocolMin
        hconfig.protocolMax
    · cases h

/-! ## All inputs -/

/-- A line that holds the request for a run that comes to a wait whose end the clock cannot tell. -/
def Overdue (m : Machine) (config : WorkerConfig) (line : Bytes) (host : Host) : Prop :=
  ∃ request, Holds config line request ∧ versionError? config request = none ∧
    request.op = "run" ∧ Late m config request host

section

variable {m : Machine} {config : WorkerConfig} {input : Bytes} {host : Host}

/-- A request that is not overdue is answered. -/
theorem exists_respond_of_holds (hconfig : config.Fits) (hm : m.Fits) {request : Request}
    (hholds : Holds config (requestLine input) request)
    (hread : readRequest config input none = .ok request)
    (hintime : ¬ Overdue m config (requestLine input) host) :
    ∃ r, (respond m config input none host).1 = .ok r ∧
      IsAnswer config (requestLine input) r := by
  obtain ⟨hversion, hsize⟩ := Request.of_ofBytes hholds.ofBytes_eq
  have hlength := hholds.length_le
  have hmax := hconfig.maxRequestBytes_lt
  rw [respond, hread]
  cases hserved : versionError? config request with
  | some e =>
    have hresult : IsReadable (.error e) := isReadable_versionError? hconfig hversion hserved
    exact ⟨_, by simp only [hserved], isAnswer_responseTo hholds hresult⟩
  | none =>
    obtain ⟨result, hdispatch, hreadable⟩ := exists_dispatch hconfig hm
      (show request.payload.size ≤ 2 ^ 64 by omega)
      fun hop hlate ↦ hintime ⟨request, hholds, hserved, hop, hlate⟩
    refine ⟨responseTo request result, ?_, isAnswer_responseTo hholds hreadable⟩
    simp only [hserved]
    exact congrArg (Except.map (responseTo request)) hdispatch

theorem respond_of_overdue (hconfig : config.Fits)
    (h : Overdue m config (requestLine input) host) :
    (respond m config input none host).1 = .error .clockOverflow := by
  obtain ⟨request, hholds, hserved, hop, hlate⟩ := h
  have hread : readRequest config input none = .ok request := by
    rcases readRequest_of_short hconfig hholds.length_le with ⟨other, hother, hread⟩ | ⟨hnone, -⟩
    · rw [hread, hholds.unique hother]
    · exact absurd hnone hholds.not_holdsNone
  rw [respond, hread]
  simp only [hserved]
  exact congrArg (Except.map (responseTo request)) (dispatch_of_late hop hlate)

end

/-- **A worker answers the first line of its input with one line**, whatever the input is, and bytes
behind the first line have no influence.  The one exception is the request for a run that comes to
a wait whose end the clock cannot tell: then there is no answer.

The bytes of a line are counted in 64 bits.  With the greatest limit that there is, a line of more
bytes than that would not be told from its beginning. -/
theorem respond_line {m : Machine} {config : WorkerConfig} (hconfig : config.Fits) (hm : m.Fits)
    (input : Bytes) (host : Host)
    (hcounted : config.maxRequestBytes + 1 < 2 ^ 64 ∨ (requestLine input).length < 2 ^ 64) :
    respond m config input none host = respond m config (requestLine input) none host ∧
    (¬ Overdue m config (requestLine input) host →
      ∃ r, (respond m config input none host).1 = .ok r ∧
        IsAnswer config (requestLine input) r) ∧
    (Overdue m config (requestLine input) host →
      (respond m config input none host).1 = .error .clockOverflow) := by
  refine ⟨respond_requestLine m config input host, fun hintime ↦ ?_, respond_of_overdue hconfig⟩
  rcases Nat.lt_or_ge config.maxRequestBytes (requestLine input).length with hlong | hshort
  · have hlimit : config.maxRequestBytes + 1 < 2 ^ 64 := by omega
    refine ⟨_, ?_, isAnswer_of_long hlong hlimit⟩
    rw [respond, readRequest_of_long hlong hlimit]
  · rcases readRequest_of_short hconfig hshort with
      ⟨request, hholds, hread⟩ | ⟨hnone, message, hread⟩
    · exact exists_respond_of_holds hconfig hm hholds hread hintime
    · refine ⟨_, ?_, isAnswer_of_holdsNone hshort hnone message⟩
      rw [respond, hread]

/-! ## A line at the limit, and a run that is overdue -/

/-- The line of a request to say what the worker offers. -/
def probeLine : Bytes :=
  Text.Utf8.bytes
    "\x7b\"protocol_version\":0,\"op\":\"probe\",\"request_id\":\"p\",\"payload\":\x7b\x7d\x7d\n"

/-- A request to run one command line without any files. -/
def errand : RunRequest := ⟨.ofList [], .empty, [.shell .posix "true"], false⟩

/-- The line of that request. -/
def errandLine : Bytes :=
  Text.Utf8.bytes
    ("\x7b\"protocol_version\":1,\"op\":\"run\",\"request_id\":\"r\",\"payload\":\x7b" ++
      "\"extensions\":[],\"snapshot\":[],\"operations\":[\x7b\"kind\":\"shell_invocation\"," ++
      "\"interpreter\":\"posix\",\"command_line\":\"true\"\x7d]\x7d\x7d\n")

/-- A worker for requests of so many bytes, whose command lines may take as long as can be said. -/
def patient (maxRequestBytes : Nat) : WorkerConfig :=
  { WorkerConfig.default with
    workRoot := "w", operationTimeoutSeconds := 2 ^ 64 - 1, maxRequestBytes }

/-- A machine on which every command line does well at once. -/
def prompt : Machine where
  run _ _ _ _ fs := (⟨.exited 0, [], [], ⟨0, 0⟩, 0, 0⟩, fs)
  time _ := ⟨0, 0⟩
  nanoseconds _ := 0

/-- A host that has seen nothing yet. -/
def fresh : Host := ⟨⟨.emptyDirectory, []⟩, 0⟩

theorem fits_patient {n : Nat} (h : n < 2 ^ 64) : (patient n).Fits :=
  ⟨WorkerConfig.fits_default.protocolMin, WorkerConfig.fits_default.protocolMax, h⟩

theorem fits_prompt : prompt.Fits where
  isInt32_of_exited _ _ _ _ _ _ h := by cases h; simp [Json.IsInt32]
  elapsed_lt _ _ _ _ _ := Nat.two_pow_pos 64

theorem exists_holds_probeLine : ∃ request, Holds (patient 66) probeLine request ∧
    request.op = "probe" ∧ request.protocolVersion = 0 ∧ request.requestId = "p" := by
  have hfields : (Wire.ofBytes probeLine : Except Json.Fault Request).map
      (fun r ↦ (r.op, r.protocolVersion, r.requestId)) = .ok ("probe", 0, "p") := by
    decide +kernel
  obtain ⟨request, hrequest, hfields⟩ := Outcome.map_eq_ok.1 hfields
  simp only [Prod.mk.injEq] at hfields
  exact ⟨request, ⟨by decide +kernel, by decide +kernel, hrequest⟩, hfields⟩

theorem overdue_errandLine : Overdue prompt (patient 1000) errandLine fresh := by
  have hfields : (Wire.ofBytes errandLine : Except Json.Fault Request).map
      (fun r ↦ (r.op, r.protocolVersion, r.requestId,
        (r.parsePayload : Except RemoteError RunRequest).toOption)) =
      .ok ("run", 1, "r", some errand) := by
    decide +kernel
  obtain ⟨request, hrequest, hfields⟩ := Outcome.map_eq_ok.1 hfields
  simp only [Prod.mk.injEq] at hfields
  obtain ⟨hop, hversion, hid, hpayload⟩ := hfields
  refine ⟨request, ⟨by decide +kernel, by decide +kernel, hrequest⟩, ?_, hop, ?_⟩
  · rw [versionError?, hop, hversion]
    decide
  have hmade : (Action.perform (Sandbox.create "w" (Sandbox.name "r" 0 0)) fresh.files).1 =
      .ok "w/r-0-0" := by decide +kernel
  have hrestored : (Action.perform (Transfer.restore "w/r-0-0" errand.snapshot)
      (Action.perform (Sandbox.create "w" (Sandbox.name "r" 0 0)) fresh.files).2).1 = .ok () := by
    decide +kernel
  refine ⟨errand, "w/r-0-0", _, none, ⟨?_, ⟨_, ?_, Prod.ext hrestored rfl⟩, rfl⟩, ?_⟩
  · cases hparse : (request.parsePayload : Except RemoteError RunRequest) with
    | error e => rw [hparse] at hpayload; exact nomatch hpayload
    | ok payload => rw [hparse] at hpayload; exact congrArg _ (Option.some.inj hpayload)
  · rw [hid]
    exact Prod.ext hmade rfl
  · intro htold
    have hwait := htold 0 _ rfl Pipeline.reached_zero .posix "true" rfl rfl
    revert hwait
    show ¬ (0 + max ((2 ^ 64 - 1) * 1000 - 0) 1000) / 1000 < Nat.pow 2 63
    decide

/-- A line as long as allowed is answered, one byte less is too few, and a worker of great patience
leaves a request to run anything at all without an answer. -/
theorem respond_line_of_probe :
    (∃ r, (respond prompt (patient 66) (probeLine ++ errandLine) none fresh).1 = .ok r ∧
      IsAnswer (patient 66) probeLine r ∧ r.protocolVersion = 0 ∧ r.requestId = "p") ∧
    (∃ r, (respond prompt (patient 65) (probeLine ++ errandLine) none fresh).1 = .ok r ∧
      IsRefusal .payloadTooLarge r) ∧
    (respond prompt (patient 1000) (errandLine ++ probeLine) none fresh).1 =
      .error .clockOverflow := by
  have hprobe : requestLine (probeLine ++ errandLine) = probeLine := by decide +kernel
  have herrand : requestLine (errandLine ++ probeLine) = errandLine := by decide +kernel
  refine ⟨?_, ?_, ?_⟩
  · obtain ⟨request, hholds, hop, hversion, hid⟩ := exists_holds_probeLine
    obtain ⟨-, hanswer, -⟩ := respond_line (fits_patient (n := 66) (by decide)) fits_prompt
      (probeLine ++ errandLine) fresh (.inl (by decide))
    rw [hprobe] at hanswer
    obtain ⟨r, hrespond, hanswer⟩ := hanswer fun ⟨other, hother, _, hrun, _⟩ ↦ by
      obtain rfl := hother.unique hholds
      exact absurd (hop.symm.trans hrun) (by decide)
    obtain ⟨hsame, hsameId⟩ := hanswer.echoes request hholds
    exact ⟨r, hrespond, hanswer, hsame.trans hversion, hsameId.trans hid⟩
  · have hlong : (patient 65).maxRequestBytes < probeLine.length := by decide +kernel
    obtain ⟨-, hanswer, -⟩ := respond_line (fits_patient (n := 65) (by decide)) fits_prompt
      (probeLine ++ errandLine) fresh (.inl (by decide))
    rw [hprobe] at hanswer
    obtain ⟨r, hrespond, hanswer⟩ := hanswer fun ⟨_, hother, _⟩ ↦
      Nat.not_le.2 hlong hother.length_le
    exact ⟨r, hrespond, hanswer.too_large hlong⟩
  · obtain ⟨-, -, hcrash⟩ := respond_line (fits_patient (n := 1000) (by decide)) fits_prompt
      (errandLine ++ probeLine) fresh (.inl (by decide))
    exact hcrash (herrand.symm ▸ overdue_errandLine)

end Service
end FirmwareLane
