import FirmwareLane.Message.Payload
import FirmwareLane.Proofs.Json.Decoding
import FirmwareLane.Proofs.Message.Envelope

/-!
# What is sent comes back, and what a request can carry

The payloads and the details of errors that a worker sends are values that come back from their text
as they were, so long as the numbers in them fit their types.  A payload is sorted before it is
sent, and the details of every error are written down in the order of their names.

A request holds no more than the line that it was read from: not in its payload as a whole, and so
neither in the operations of a run nor in the source text of a program.
-/

set_option autoImplicit false
namespace FirmwareLane

open Json (Wire Within)

/-! ## Numbers -/

namespace Json

theorem Within.nat {depth n : Nat} (h : n < 2 ^ 64) : Within depth (.nat n) := by
  refine .integer ?_ ?_
  · rw [leastInteger]
    omega
  · rw [greatestInteger]
    norm_num at h ⊢
    omega

theorem IsKept.mono {depth depth' : Nat} {value : Json} (h : value.IsKept depth)
    (hle : depth ≤ depth') : value.IsKept depth' :=
  ⟨h.sorted_eq, h.ne_null, h.within.mono hle⟩

/-- An object is kept once it is sorted. -/
theorem isKept_sorted_object {depth : Nat} {members : List (String × Json)}
    (h : Within depth (.object members)) : (Json.object members).sorted.IsKept depth where
  sorted_eq := sorted_sorted _
  ne_null := by
    rw [sorted_object]
    exact nofun
  within := h.sorted

theorem Within.sorted_eq {value : Json} (h : Within 0 value) : value.sorted = value := by
  cases h <;> rfl

/-- An object without containers in it is kept if its members are in the order of their names. -/
theorem isKept_object {members : List (String × Json)} (hsorted : Keyed.Sorted members)
    (h : ∀ member ∈ members, Within 0 member.2) : (Json.object members).IsKept 1 where
  sorted_eq := sorted_object_of_sorted hsorted fun member hmember ↦ (h member hmember).sorted_eq
  ne_null := nofun
  within := .object h

end Json

/-! ## Errors -/

namespace RemoteError

/-- An error whose details come back from the text of a response as they were. -/
def IsReadable (e : RemoteError) : Prop :=
  ∀ d, e.data = some d → d.IsKept (Json.greatestDepth - 2)

variable {code : ErrorCode} {message : String}

theorem isReadable_of_data_eq_none {e : RemoteError} (h : e.data = none) : e.IsReadable :=
  fun _ hd ↦ nomatch h.symm.trans hd

/-- Details without containers in them, written down in the order of their names. -/
theorem isReadable_of_members (names : List String) {members : List (String × Json)}
    (hnames : members.map (·.1) = names) (hsorted : names.Pairwise (· < ·))
    (h : ∀ member ∈ members, Within 0 member.2) :
    IsReadable ⟨code, message, some (.object members)⟩ := by
  rintro _ ⟨⟩
  have hmembers : Keyed.Sorted members := List.pairwise_map.1 (hnames ▸ hsorted)
  exact (Json.isKept_object hmembers h).mono (by decide)

theorem isReadable_unsupportedProtocol {version least greatest : Int}
    (hversion : Json.IsInt32 version) (hleast : Json.IsInt32 least)
    (hgreatest : Json.IsInt32 greatest) :
    (unsupportedProtocol version least greatest).IsReadable := by
  refine isReadable_of_members ["max", "min", "requested"] rfl (by decide) fun member hmember ↦ ?_
  rcases hmember with _ | ⟨_, _ | ⟨_, _ | ⟨_, ⟨⟩⟩⟩⟩
  · exact hgreatest.within
  · exact hleast.within
  · exact hversion.within

theorem isReadable_unknownOperation (name : String) : (unknownOperation name).IsReadable := by
  refine isReadable_of_members ["op"] rfl (by decide) fun member hmember ↦ ?_
  rcases hmember with _ | ⟨_, ⟨⟩⟩
  exact .text _

theorem isReadable_malformedAssembly {line : Nat} (h : line < 2 ^ 64) (message : String) :
    (malformedAssembly line message).IsReadable := by
  refine isReadable_of_members ["line", "message"] rfl (by decide) fun member hmember ↦ ?_
  rcases hmember with _ | ⟨_, _ | ⟨_, ⟨⟩⟩⟩
  · exact .nat h
  · exact .text _

theorem isReadable_payloadTooLarge {size greatest : Nat} (hsize : size < 2 ^ 64)
    (hgreatest : greatest < 2 ^ 64) : (payloadTooLarge size greatest).IsReadable := by
  refine isReadable_of_members ["max_bytes", "size"] rfl (by decide) fun member hmember ↦ ?_
  rcases hmember with _ | ⟨_, _ | ⟨_, ⟨⟩⟩⟩
  · exact .nat hgreatest
  · exact .nat hsize

end RemoteError

/-! ## Payloads -/

theorem ProbeResponse.within_encode {r : ProbeResponse} (hmin : Json.IsInt32 r.protocolMin)
    (hmax : Json.IsInt32 r.protocolMax) (hbytes : r.maxRequestBytes < 2 ^ 64) :
    Within 2 (Wire.encode r) := by
  refine .object fun member hmember ↦ ?_
  rcases hmember with _ | ⟨_, _ | ⟨_, _ | ⟨_, _ | ⟨_, _ | ⟨_, _ | ⟨_, ⟨⟩⟩⟩⟩⟩⟩⟩
  · exact hmin.within
  · exact hmax.within
  · exact .text _
  · refine .array fun item hitem ↦ ?_
    obtain ⟨name, -, rfl⟩ := List.mem_map.1 hitem
    exact .text _
  · refine .array fun item hitem ↦ ?_
    obtain ⟨interpreter, -, rfl⟩ := List.mem_map.1 hitem
    exact .text _
  · exact .nat hbytes

theorem AsmResponse.within_encode {r : AsmResponse} (h : ∀ word ∈ r.words, word < 2 ^ 64) :
    Within 2 (Wire.encode r) := by
  refine .object fun member hmember ↦ ?_
  rcases hmember with _ | ⟨_, ⟨⟩⟩
  refine .array fun item hitem ↦ ?_
  obtain ⟨word, hword, rfl⟩ := List.mem_map.1 hitem
  exact .nat (h word hword)

theorem Operation.within_encode (operation : Operation) : Within 1 (Wire.encode operation) := by
  cases operation with
  | shell interpreter commandLine =>
    refine .object fun member hmember ↦ ?_
    rcases hmember with _ | ⟨_, _ | ⟨_, _ | ⟨_, ⟨⟩⟩⟩⟩ <;> exact .text _
  | reset =>
    refine .object fun member hmember ↦ ?_
    rcases hmember with _ | ⟨_, ⟨⟩⟩
    exact .text _

theorem Entry.within_encode (e : Entry) : Within 1 (Wire.encode e) := by
  obtain ⟨path, content⟩ := e
  refine .object fun member hmember ↦ ?_
  rcases hmember with _ | ⟨_, _ | ⟨_, _ | ⟨_, ⟨⟩⟩⟩⟩
  · exact .text _
  · exact .text _
  · cases content <;> exact .text _

theorem Entry.within_array (entries : List Entry) :
    Within 2 (.array (entries.map Wire.encode)) := by
  refine .array fun item hitem ↦ ?_
  obtain ⟨e, -, rfl⟩ := List.mem_map.1 hitem
  exact e.within_encode

theorem Snapshot.within_encode (s : Snapshot) : Within 2 (Wire.encode s) :=
  Entry.within_array s.entries

/-- A report whose numbers fit their types. -/
structure Report.Fits (r : Report) : Prop where
  index_lt : r.index < 2 ^ 64
  isInt32_of_exitCode : ∀ code, r.exitCode = some code → Json.IsInt32 code
  durationMs_lt : r.durationMs < 2 ^ 64

/-- The members that are present are some of those that may be. -/
theorem Json.within_present {depth : Nat} {members : List (String × Option Json)}
    (h : ∀ name value, (name, some value) ∈ members → Within depth value) :
    Within (depth + 1) (Json.present members) := by
  refine .object fun member hmember ↦ ?_
  obtain ⟨⟨name, value⟩, hmem, hvalue⟩ := List.mem_filterMap.1 hmember
  obtain ⟨value, rfl, rfl⟩ := Option.map_eq_some_iff.1 hvalue
  exact h name value hmem

theorem Report.Fits.within_encode {r : Report} (h : r.Fits) : Within 2 (Wire.encode r) := by
  refine Json.within_present fun name value hvalue ↦ ?_
  simp only [List.mem_cons, Prod.mk.injEq, List.not_mem_nil, or_false, Option.some.injEq,
    eq_comm (a := some value), Option.map_eq_some_iff] at hvalue
  rcases hvalue with ⟨-, rfl⟩ | ⟨-, rfl⟩ | ⟨-, rfl⟩ | ⟨-, code, hcode, rfl⟩ | ⟨-, rfl⟩ | ⟨-, rfl⟩ |
    ⟨-, time, -, rfl⟩ | ⟨-, rfl⟩
  · exact .nat h.index_lt
  · exact Operation.within_encode _
  · exact .text _
  · exact (h.isInt32_of_exitCode code hcode).within
  · exact .text _
  · exact .text _
  · exact .text _
  · exact .nat h.durationMs_lt

theorem RunResponse.within_encode {r : RunResponse} (h : ∀ report ∈ r.reports, report.Fits) :
    Within 4 (Wire.encode r) := by
  refine Json.within_present fun name value hvalue ↦ ?_
  simp only [List.mem_cons, Prod.mk.injEq, List.not_mem_nil, or_false, Option.some.injEq,
    eq_comm (a := some value), Option.map_eq_some_iff] at hvalue
  rcases hvalue with ⟨-, rfl⟩ | ⟨-, rfl⟩ | ⟨-, text, -, rfl⟩ | ⟨-, rfl⟩
  · exact .bool _
  · exact (Snapshot.within_encode _).mono (by decide)
  · exact .text _
  · refine .array fun item hitem ↦ ?_
    obtain ⟨report, hreport, rfl⟩ := List.mem_map.1 hitem
    exact (h report hreport).within_encode

/-! ## What a request can carry -/

open Json.Outcome (map_eq_value seq_eq_value)
open Text (Bytes)

/-- **A request has a version of the protocol, and a payload that its line has room for.** -/
theorem Request.of_ofBytes {line : Bytes} {request : Request}
    (h : Wire.ofBytes line = .ok request) :
    Json.IsInt32 request.protocolVersion ∧ request.payload.size ≤ line.length + 1 := by
  obtain ⟨decoded, hdecoded, h⟩ := Outcome.bind_eq_ok.1 h
  obtain rfl : decoded = request := by
    split at h
    · exact nomatch h
    · exact Except.ok.inj h
  obtain ⟨r, -, hparts, hfour⟩ := Json.exists_of_record hdecoded
  obtain ⟨_, payload, hthree, hpayload, rfl⟩ := seq_eq_value.1 hfour
  obtain ⟨_, requestId, htwo, -, rfl⟩ := seq_eq_value.1 hthree
  obtain ⟨_, op, hone, -, rfl⟩ := seq_eq_value.1 htwo
  obtain ⟨version, hversion, rfl⟩ := map_eq_value.1 hone
  obtain ⟨_, hversion, -⟩ := Json.exists_of_required hversion
  obtain ⟨d, hpayload, hd⟩ := Json.exists_of_required hpayload
  refine ⟨Json.integerIn_eq_ok hversion, ?_⟩
  have hvalue := Json.size_of_anything hpayload
  have hread := Json.size_readGlyphs (Text.Utf8.glyphs line)
  have hglyphs := Text.Utf8.length_glyphs_le line
  change r.parts.size < (Json.readGlyphs (Text.Utf8.glyphs line)).1.size at hparts
  show payload.size ≤ line.length + 1
  omega

namespace Request

variable {request : Request}

/-- The payload of a request is decoded from the document of its value. -/
theorem decode_of_parsePayload {α : Type} [Wire α] {a : α} (h : request.parsePayload = .ok a) :
    Wire.decode .value (.ofJson request.payload.sorted) = .ok a := by
  rw [parsePayload] at h
  split at h
  · next hpayload => exact Except.ok.inj h ▸ hpayload
  · exact nomatch h

theorem size_document (request : Request) :
    (Document.ofJson request.payload.sorted).size ≤ request.payload.size :=
  Nat.le_trans (Nat.le_of_eq (Json.size_ofJson _)) (Json.size_sorted _)

/-- **A payload has room for the operations of the run that it asks for.** -/
theorem length_operations {payload : RunRequest} (h : request.parsePayload = .ok payload) :
    payload.operations.length + 2 ≤ request.payload.size := by
  obtain ⟨r, -, hparts, hfour⟩ := Json.exists_of_record (decode_of_parsePayload h)
  obtain ⟨_, modifiedOnly, hthree, -, rfl⟩ := seq_eq_value.1 hfour
  obtain ⟨_, operations, htwo, hoperations, rfl⟩ := seq_eq_value.1 hthree
  obtain ⟨_, snapshot, hone, -, rfl⟩ := seq_eq_value.1 htwo
  obtain ⟨extensions, -, rfl⟩ := map_eq_value.1 hone
  obtain ⟨d, hoperations, hd⟩ := Json.exists_of_required hoperations
  have hlength := Json.length_of_sequence hoperations
  have hdocument := size_document request
  show operations.length + 2 ≤ _
  omega

/-- **A payload has room for the source text that it carries.** -/
theorem length_source {payload : AsmRequest} (h : request.parsePayload = .ok payload) :
    payload.source.length + 2 ≤ request.payload.size := by
  obtain ⟨r, -, hparts, hfields⟩ := Json.exists_of_record (decode_of_parsePayload h)
  obtain ⟨source, hsource, rfl⟩ := map_eq_value.1 hfields
  obtain ⟨d, hsource, hd⟩ := Json.exists_of_required hsource
  have hlength := Json.length_of_string hsource
  have hdocument := size_document request
  show source.length + 2 ≤ _
  omega

end Request
end FirmwareLane
