import FirmwareLane.Message.Envelope
import FirmwareLane.Proofs.Json.Travelling
import Mathlib.Tactic.NormNum

/-!
# A response is read back from its line

A response travels as the text of a value on one line.  What is read from that line is the response,
if all that it carries can be told from what is read: its values have sorted members and no number
that would be taken for another one, and its version fits into the envelope (`IsReadable`).
-/

set_option autoImplicit false
namespace FirmwareLane

open Json (Wire)

namespace Json

/-- A value that comes back from its text as it was: its members are sorted, it is nested at most so
deep, and it is not null, which would be taken for nothing. -/
structure IsKept (depth : Nat) (value : Json) : Prop where
  sorted_eq : value.sorted = value
  ne_null : value ≠ null
  within : Within depth value

theorem anything_ofJson {value : Json} (h : value.sorted = value) (origin : Origin) :
    anything origin (.ofJson value) = .ok value := by
  rw [anything, value?_ofJson, h]

theorem IsKept.decode_eq {value : Json} {depth : Nat} (h : IsKept depth value) (origin : Origin) :
    nullable anything origin (.ofJson value) = .ok (some value) := by
  have hanything := anything_ofJson h.sorted_eq origin
  cases value with
  | null => exact absurd rfl h.ne_null
  | _ => exact congrArg (Except.map some) hanything

/-- The numbers of 32 bits. -/
def IsInt32 (n : Int) : Prop := -(2 ^ 31) ≤ n ∧ n ≤ 2 ^ 31 - 1

theorem IsInt32.decode_eq {n : Int} (h : IsInt32 n) (origin : Origin) :
    int32 origin (.integer n) = .ok n := if_pos h

theorem IsInt32.within {n : Int} (h : IsInt32 n) {depth : Nat} : Within depth (.integer n) := by
  obtain ⟨hleast, hgreatest⟩ := h
  refine .integer ?_ ?_
  · rw [leastInteger]
    norm_num at hleast ⊢
    omega
  · rw [greatestInteger]
    norm_num at hgreatest ⊢
    omega

end Json

open Json.Record (placed)
open Json.Outcome (seq)

/-! ## Errors -/

theorem ErrorCode.decode_name (code : ErrorCode) :
    (Wire.decode .text (.text code.name) : Except Json.Fault ErrorCode) = .ok code := by
  cases code <;> rfl

theorem RemoteError.decode_encode {e : RemoteError} {depth : Nat}
    (h : ∀ d, e.data = some d → d.IsKept depth) :
    (Wire.decode .text (.ofJson (Wire.encode e)) : Except Json.Fault RemoteError) = .ok e := by
  obtain ⟨code, message, data⟩ := e
  have hcode := ErrorCode.decode_name code
  cases data with
  | none =>
    refine Json.record_object rfl fun described ↦ ?_
    show seq (seq (Json.Outcome.map mk (placed 0 (Wire.decode .text (.text code.name))))
      (placed 1 (.ok message))) (.value none) = _
    rw [hcode]
    rfl
  | some d =>
    have hdata := (h d rfl).decode_eq .text
    refine Json.record_object rfl fun described ↦ ?_
    show seq (seq (Json.Outcome.map mk (placed 0 (Wire.decode .text (.text code.name))))
      (placed 1 (.ok message))) (placed 2 (Json.nullable Json.anything .text (.ofJson d))) = _
    rw [hcode, hdata]
    rfl

theorem RemoteError.within_encode {e : RemoteError} {depth : Nat}
    (h : ∀ d, e.data = some d → d.IsKept depth) : Json.Within (depth + 1) (Wire.encode e) := by
  obtain ⟨code, message, data⟩ := e
  refine .object fun member hmember ↦ ?_
  cases data with
  | none =>
    rcases hmember with _ | ⟨_, _ | ⟨_, ⟨⟩⟩⟩
    · exact .text _
    · exact .text _
  | some d =>
    rcases hmember with _ | ⟨_, _ | ⟨_, _ | ⟨_, ⟨⟩⟩⟩⟩
    · exact .text _
    · exact .text _
    · exact (h d rfl).within

/-! ## Responses -/

namespace Response

/-- A response that brings either a payload or an error, of which all can be told from its text. -/
inductive IsReadable : Response → Prop where
  | success {version : Int} {requestId : String} {payload : Json} (hversion : Json.IsInt32 version)
      (hpayload : payload.IsKept (Json.greatestDepth - 1)) :
      IsReadable (.success version requestId payload)
  | failure {version : Int} {requestId : String} {e : RemoteError} (hversion : Json.IsInt32 version)
      (hdata : ∀ d, e.data = some d → d.IsKept (Json.greatestDepth - 2)) :
      IsReadable (.failure version requestId e)

variable {r : Response}

theorem IsReadable.decode_encode (h : r.IsReadable) :
    (Wire.decode .text (.ofJson (Wire.encode r)) : Except Json.Fault Response) = .ok r := by
  cases h with
  | @success version requestId payload hversion hpayload =>
    refine Json.record_object rfl fun described ↦ ?_
    show seq (seq (seq (seq (Json.Outcome.map mk (placed 0 (Json.int32 .text (.integer version))))
      (placed 1 (.ok requestId))) (placed 2 (.ok true)))
      (placed 3 (Json.nullable Json.anything .text (.ofJson payload)))) (.value none) = _
    rw [hversion.decode_eq, hpayload.decode_eq]
    rfl
  | @failure version requestId e hversion hdata =>
    have herror : Json.nullable Wire.decode .text (.ofJson (Wire.encode e)) = .ok (some e) :=
      congrArg (Except.map some) (RemoteError.decode_encode hdata)
    refine Json.record_object rfl fun described ↦ ?_
    show seq (seq (seq (seq (Json.Outcome.map mk (placed 0 (Json.int32 .text (.integer version))))
      (placed 1 (.ok requestId))) (placed 2 (.ok false))) (.value none))
      (placed 3 (Json.nullable Wire.decode .text (.ofJson (Wire.encode e)))) = _
    rw [hversion.decode_eq, herror]
    rfl

theorem IsReadable.within_encode (h : r.IsReadable) :
    Json.Within Json.greatestDepth (Wire.encode r) := by
  cases h with
  | success hversion hpayload =>
    refine .object fun member hmember ↦ ?_
    rcases hmember with _ | ⟨_, _ | ⟨_, _ | ⟨_, _ | ⟨_, ⟨⟩⟩⟩⟩⟩
    · exact hversion.within
    · exact .text _
    · exact .bool _
    · exact hpayload.within
  | failure hversion hdata =>
    refine .object fun member hmember ↦ ?_
    rcases hmember with _ | ⟨_, _ | ⟨_, _ | ⟨_, _ | ⟨_, ⟨⟩⟩⟩⟩⟩
    · exact hversion.within
    · exact .text _
    · exact .bool _
    · exact RemoteError.within_encode hdata

/-- **A readable response is printed on one line.** -/
theorem IsReadable.newline_not_mem (h : r.IsReadable) : '\n' ∉ (Wire.print r).toList :=
  Json.Wire.newline_not_mem_print h.within_encode

/-- **A readable response is read back from the bytes of its line.** -/
theorem IsReadable.ofBytes_line (h : r.IsReadable) :
    (Wire.ofBytes (Text.Utf8.bytes (Wire.print r ++ "\n")) : Except Json.Fault Response) =
      .ok r := by
  rw [Json.Wire.ofBytes_line h.within_encode, h.decode_encode]

end Response
end FirmwareLane
