import FirmwareLane.Json.Document
import FirmwareLane.Proofs.Json.Scanning

/-!
# Values with sorted members

The value of a document has its members sorted, whatever order they came in, and sorting again
changes nothing.  So a value with sorted members is the value of its own document.
-/

set_option autoImplicit false
namespace FirmwareLane

namespace Keyed

variable {α : Type} {values : List (String × α)}

theorem mem_of_mem_ofList {entry : String × α} (h : entry ∈ ofList values) : entry ∈ values := by
  have hlookup := (sorted_ofList values).lookup_iff.2 h
  rw [lookup_ofList] at hlookup
  exact List.mem_reverse.1 (mem_of_lookup hlookup)

/-- In a list without equal names, what is found does not depend on the end it is looked up from. -/
theorem lookup_reverse_of_nodup (h : (values.map (·.1)).Nodup) (name : String) :
    values.reverse.lookup name = values.lookup name := by
  refine Option.ext fun value ↦ ?_
  rw [lookup_iff_of_nodup h,
    lookup_iff_of_nodup (by rwa [List.map_reverse, List.nodup_reverse]), List.mem_reverse]

theorem ofList_of_sorted (h : Sorted values) : ofList values = values := by
  refine (sorted_ofList values).ext h fun name ↦ ?_
  rw [lookup_ofList, lookup_reverse_of_nodup h.nodup]

/-- Bringing values into order keeps their names. -/
theorem mem_names_ofList {name : String} :
    name ∈ (ofList values).map (·.1) ↔ name ∈ values.map (·.1) := by
  rw [← isSome_lookup_iff, lookup_ofList, isSome_lookup_iff, List.map_reverse, List.mem_reverse]

end Keyed

namespace Json

theorem sortedItems_eq_map (items : List Json) : sortedItems items = items.map sorted := by
  induction items with
  | nil => rfl
  | cons item rest ih => rw [sortedItems, ih, List.map_cons]

theorem sortedValues_eq_map (members : List (String × Json)) :
    sortedValues members = members.map fun member ↦ (member.1, member.2.sorted) := by
  induction members with
  | nil => rfl
  | cons member rest ih => rw [sortedValues, ih, List.map_cons]

theorem sorted_array (items : List Json) : (array items).sorted = array (items.map sorted) := by
  rw [sorted, sortedItems_eq_map]

theorem sorted_object (members : List (String × Json)) :
    (object members).sorted =
      object (Keyed.ofList (members.map fun member ↦ (member.1, member.2.sorted))) := by
  rw [sorted, sortedValues_eq_map]

mutual

/-- **The value of the document of a value is the value with its members sorted.** -/
theorem value?_ofJson : ∀ value : Json, (Document.ofJson value).value? = some value.sorted
  | .null => rfl
  | .bool _ => rfl
  | .integer _ => rfl
  | .float _ => rfl
  | .text _ => rfl
  | .array items => by rw [Document.ofJson, Document.value?, values?_ofItems items]; rfl
  | .object members => by
    rw [Document.ofJson, Document.value?, memberValues?_ofMembers members]; rfl

theorem values?_ofItems : ∀ items : List Json,
    Document.values? (Document.ofItems items) = some (sortedItems items)
  | [] => rfl
  | item :: rest => by
    rw [Document.ofItems, Document.values?, value?_ofJson item, values?_ofItems rest]; rfl

theorem memberValues?_ofMembers : ∀ members : List (String × Json),
    Document.memberValues? (Document.ofMembers members) = some (sortedValues members)
  | [] => rfl
  | (name, value) :: rest => by
    rw [Document.ofMembers, Document.memberValues?, value?_ofJson value,
      memberValues?_ofMembers rest]
    rfl

end

theorem sorted_object_of_sorted {members : List (String × Json)} (h : Keyed.Sorted members)
    (hvalues : ∀ member ∈ members, member.2.sorted = member.2) :
    (object members).sorted = object members := by
  have hsame : ∀ member ∈ members, (member.1, member.2.sorted) = id member :=
    fun member hmember ↦ Prod.ext rfl (hvalues member hmember)
  rw [sorted_object, List.map_congr_left hsame, List.map_id, Keyed.ofList_of_sorted h]

mutual

/-- **Sorting again changes nothing.** -/
theorem sorted_sorted : ∀ value : Json, value.sorted.sorted = value.sorted
  | .null => rfl
  | .bool _ => rfl
  | .integer _ => rfl
  | .float _ => rfl
  | .text _ => rfl
  | .array items => by
    rw [sorted, sorted, sortedItems_sortedItems items]
  | .object members => by
    rw [sorted]
    exact sorted_object_of_sorted (Keyed.sorted_ofList _) fun member hmember ↦
      sorted_of_mem_sortedValues members (Keyed.mem_of_mem_ofList hmember)

theorem sortedItems_sortedItems : ∀ items : List Json,
    sortedItems (sortedItems items) = sortedItems items
  | [] => rfl
  | item :: rest => by
    rw [sortedItems, sortedItems, sorted_sorted item, sortedItems_sortedItems rest]

theorem sorted_of_mem_sortedValues {member : String × Json} : ∀ members : List (String × Json),
    member ∈ sortedValues members → member.2.sorted = member.2
  | [], h => absurd h List.not_mem_nil
  | (name, value) :: rest, h => by
    rw [sortedValues, List.mem_cons] at h
    rcases h with rfl | h
    · exact sorted_sorted value
    · exact sorted_of_mem_sortedValues rest h

end

/-! ## Sorting keeps values within bounds -/

theorem Within.mono {depth depth' : Nat} {value : Json} (h : Within depth value)
    (hle : depth ≤ depth') : Within depth' value := by
  induction h generalizing depth' with
  | null => exact .null
  | bool b => exact .bool b
  | integer hleast hgreatest => exact .integer hleast hgreatest
  | text s => exact .text s
  | array _ ih =>
    obtain ⟨depth', rfl⟩ := Nat.exists_eq_add_of_lt hle
    exact .array fun item hitem ↦ ih item hitem (by omega)
  | object _ ih =>
    obtain ⟨depth', rfl⟩ := Nat.exists_eq_add_of_lt hle
    exact .object fun member hmember ↦ ih member hmember (by omega)

theorem Within.sorted {depth : Nat} {value : Json} (h : Within depth value) :
    Within depth value.sorted := by
  induction h with
  | null => exact .null
  | bool b => exact .bool b
  | integer hleast hgreatest => exact .integer hleast hgreatest
  | text s => exact .text s
  | array _ ih =>
    rw [sorted_array]
    refine .array fun item hitem ↦ ?_
    obtain ⟨other, hother, rfl⟩ := List.mem_map.1 hitem
    exact ih other hother
  | object _ ih =>
    rw [sorted_object]
    refine .object fun member hmember ↦ ?_
    obtain ⟨other, hother, rfl⟩ := List.mem_map.1 (Keyed.mem_of_mem_ofList hmember)
    exact ih other hother

end Json
end FirmwareLane
