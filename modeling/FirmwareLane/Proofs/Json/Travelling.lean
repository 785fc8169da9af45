import FirmwareLane.Json.Decoder
import FirmwareLane.Proofs.Json.Reading
import FirmwareLane.Proofs.Json.Sorting
import FirmwareLane.Proofs.Text.Utf8

/-!
# Values that come back from what stands for them

A value of a type is sent as the text of the value that stands for it, or kept in memory as that
value, where members have no order of their own.  If its decoder gives it back in both cases it
travels (`Travels`), and so does a sequence of such values.
-/

set_option autoImplicit false
namespace FirmwareLane
namespace Json

/-- A value of a type that is decoded from what stands for it, in the order in which it is written
and in the order of the names. -/
structure Travels {α : Type} [Wire α] (a : α) : Prop where
  written : Wire.decode .text (.ofJson (Wire.encode a)) = .ok a
  kept : Wire.decode .value (.ofJson (Wire.encode a).sorted) = .ok a

/-- It is decoded from any value that differs from it by the order of members only. -/
theorem Travels.ofJson_eq {α : Type} [Wire α] {a : α} (h : Travels a) {value : Json}
    (hsorted : value.sorted = (Wire.encode a).sorted) : Wire.ofJson value = .ok a := by
  rw [Wire.ofJson, hsorted, h.kept]

/-! ## Texts -/

namespace Wire

variable {α : Type} [Wire α] {a : α}

theorem ofDocument_false (d : Document) : (ofDocument (d, false) : Except Fault α) = decode .text d := by
  rw [ofDocument]
  cases (decode .text d : Except Fault α) <;> rfl

/-- **What is decoded from the text of a value is decoded from the document of it.** -/
theorem ofText_print (h : Within greatestDepth (encode a)) :
    (ofText (print a) : Except Fault α) = decode .text (.ofJson (encode a)) := by
  rw [ofText, print, (readText_print h).1, ofDocument_false]

theorem ofText_line (h : Within greatestDepth (encode a)) :
    (ofText (print a ++ "\n") : Except Fault α) = decode .text (.ofJson (encode a)) := by
  rw [ofText, print, (readText_print h).2, ofDocument_false]

theorem ofBytes_bytes (s : String) : (ofBytes (Text.Utf8.bytes s) : Except Fault α) = ofText s :=
  congrArg (fun glyphs ↦ ofDocument (readGlyphs glyphs)) (Text.Utf8.glyphs_encode s.toList)

theorem ofBytes_line (h : Within greatestDepth (encode a)) :
    (ofBytes (Text.Utf8.bytes (print a ++ "\n")) : Except Fault α) =
      decode .text (.ofJson (encode a)) := by
  rw [ofBytes_bytes, ofText_line h]

theorem newline_not_mem_print (h : Within greatestDepth (encode a)) : '\n' ∉ (print a).toList := by
  rw [print, Json.print, String.toList_ofList]
  exact newline_not_mem_chars h

end Wire

/-! ## Sequences -/

section

variable {α : Type} {decode : Decoder α} {origin : Origin} {encode : α → Json} {values : List α}

theorem items_ofItems (h : ∀ a ∈ values, decode origin (.ofJson (encode a)) = .ok a) :
    items decode origin (Document.ofItems (values.map encode)) = .ok values := by
  induction values with
  | nil => rfl
  | cons a rest ih =>
    rw [List.map_cons, Document.ofItems, items, h a List.mem_cons_self,
      ih fun b hb ↦ h b (List.mem_cons_of_mem _ hb)]
    rfl

/-- **A sequence is decoded if its items are.** -/
theorem sequence_array (h : ∀ a ∈ values, decode origin (.ofJson (encode a)) = .ok a) :
    sequence decode origin (.ofJson (.array (values.map encode))) = .ok values := by
  rw [Document.ofJson, sequence, items_ofItems h]
  rfl

theorem sequence_sorted (h : ∀ a ∈ values, decode origin (.ofJson (encode a).sorted) = .ok a) :
    sequence decode origin (.ofJson (Json.array (values.map encode)).sorted) = .ok values := by
  rw [sorted_array, List.map_map]
  exact sequence_array h

end

/-! ## Fields -/

theorem fieldsOf_eq {α : Type} {r : Record} {decode : Record → Outcome α} {a : α}
    (hstray : r.stray? = none) (hdecode : decode r = .value a) : fieldsOf r decode = .ok a := by
  rw [fieldsOf, hstray, hdecode]
  rfl

/-- A record is decoded if its fields are and no member is stray. -/
theorem record_object {α : Type} {name : String} {fields : List String}
    {decode : Record → Outcome α} {origin : Origin} {members : List (Option String × Document)}
    {a : α} (hstray : Record.strayMember? fields true 0 [] members = none)
    (hdecode : ∀ described, decode ⟨origin, fields, described, .named members true⟩ = .value a) :
    record name fields decode origin (.object members true) = .ok a :=
  fieldsOf_eq hstray (hdecode _)

end Json
end FirmwareLane
