import FirmwareLane.Json.Decoder
import FirmwareLane.Proofs.Json.Sizes
import FirmwareLane.Proofs.Outcome

/-!
# What a decoded record was decoded from

When a record is decoded, each of its fields is, from a part of the document of its own.  So what is
decoded from a field is bounded by the size of the document around it.
-/

set_option autoImplicit false
namespace FirmwareLane
namespace Json

variable {α β : Type}

/-! ## Outcomes of fields -/

namespace Outcome

theorem map_eq_value {f : α → β} {o : Outcome α} {b : β} :
    f <$> o = .value b ↔ ∃ a, o = .value a ∧ f a = b := by
  cases o with
  | value a => exact ⟨fun h ↦ ⟨a, rfl, value.inj h⟩, fun ⟨_, h, hf⟩ ↦ by cases h; exact hf ▸ rfl⟩
  | missing fault => exact ⟨(nomatch ·), fun ⟨_, h, _⟩ ↦ (nomatch h)⟩
  | wrong position fault => exact ⟨(nomatch ·), fun ⟨_, h, _⟩ ↦ (nomatch h)⟩

theorem seq_eq_value {o : Outcome (α → β)} {o' : Outcome α} {b : β} :
    o <*> o' = .value b ↔ ∃ f a, o = .value f ∧ o' = .value a ∧ f a = b := by
  constructor
  · intro h
    change seq o o' = .value b at h
    cases o with
    | value f =>
      obtain ⟨a, ha, hb⟩ := map_eq_value.1 h
      exact ⟨f, a, rfl, ha, hb⟩
    | missing fault => cases o' <;> exact nomatch h
    | wrong position fault =>
      cases o' with
      | wrong position' fault' =>
        simp only [seq] at h
        split at h <;> exact nomatch h
      | _ => exact nomatch h
  · rintro ⟨f, a, rfl, rfl, rfl⟩
    rfl

end Outcome

theorem fieldsOf_eq_ok {r : Record} {decode : Record → Outcome α} {a : α}
    (h : fieldsOf r decode = .ok a) : decode r = .value a := by
  rw [fieldsOf] at h
  cases hstray : r.stray? with
  | none =>
    rw [hstray] at h
    cases hdecode : decode r with
    | value b => rw [hdecode] at h; cases h; rfl
    | missing fault => rw [hdecode] at h; exact nomatch h
    | wrong position fault => rw [hdecode] at h; exact nomatch h
  | some stray =>
    rw [hstray] at h
    cases hdecode : decode r with
    | wrong position fault =>
      rw [hdecode] at h
      simp only [Outcome.besides] at h
      split at h <;> exact nomatch h
    | _ => rw [hdecode] at h; exact nomatch h

/-! ## Parts -/

/-- The document that has the given parts. -/
def Parts.document : Parts → Document
  | .positional items closed => .array items closed
  | .named members closed => .object members closed

/-- The parts, whether they have names or not. -/
def Parts.documents : Parts → List Document
  | .positional items _ => items
  | .named members _ => members.map (·.2)

/-- The sizes of the parts of a record together. -/
def Parts.size : Parts → Nat
  | .positional items _ => Document.sizes items
  | .named members _ => Document.memberSizes members

theorem Parts.size_lt_size_document (p : Parts) : p.size < p.document.size := by
  cases p <;> exact Nat.lt_succ_self _

theorem mistyped_ne_ok {wanted : String} {d : Document} {a : α} : mistyped wanted d ≠ .ok a := by
  rw [mistyped]
  cases found? d <;> exact nofun

/-- A record is decoded from the parts of an array or an object. -/
theorem exists_parts_of_record {name : String} {fields : List String}
    {decode : Record → Outcome α} {origin : Origin} {d : Document} {a : α}
    (h : record name fields decode origin d = .ok a) :
    ∃ r : Record, r.origin = origin ∧ r.parts.document = d ∧ decode r = .value a := by
  cases d with
  | object members closed => exact ⟨_, rfl, rfl, fieldsOf_eq_ok h⟩
  | array items closed => exact ⟨_, rfl, rfl, fieldsOf_eq_ok h⟩
  | deep inner => exact nomatch h
  | _ =>
    unfold record at h
    exact (mistyped_ne_ok h).elim

theorem exists_of_record {name : String} {fields : List String} {decode : Record → Outcome α}
    {origin : Origin} {d : Document} {a : α} (h : record name fields decode origin d = .ok a) :
    ∃ r : Record, r.origin = origin ∧ r.parts.size < d.size ∧ decode r = .value a := by
  obtain ⟨r, horigin, rfl, hdecode⟩ := exists_parts_of_record h
  exact ⟨r, horigin, r.parts.size_lt_size_document, hdecode⟩

/-- Every part is as large as the parts together at most. -/
theorem Parts.size_le_of_mem {p : Parts} {d : Document} (h : d ∈ p.documents) : d.size ≤ p.size := by
  cases p with
  | positional items closed =>
    change d ∈ items at h
    change d.size ≤ Document.sizes items
    induction items with
    | nil => exact absurd h List.not_mem_nil
    | cons item rest ih =>
      rw [Document.sizes]
      rcases List.mem_cons.1 h with rfl | h
      · exact Nat.le_add_right _ _
      · exact Nat.le_trans (ih h) (Nat.le_add_left _ _)
  | named members closed =>
    change d ∈ members.map (·.2) at h
    change d.size ≤ Document.memberSizes members
    induction members with
    | nil => exact absurd h List.not_mem_nil
    | cons member rest ih =>
      rw [Document.memberSizes]
      rcases List.mem_cons.1 h with rfl | h
      · exact Nat.le_add_right _ _
      · exact Nat.le_trans (ih h) (Nat.le_add_left _ _)

theorem mem_of_locate? {name : String} {position i : Nat} {d : Document}
    {members : List (Option String × Document)}
    (h : Record.locate? name position members = some (i, d)) : d ∈ members.map (·.2) := by
  induction members generalizing position with
  | nil => exact nomatch h
  | cons member rest ih =>
    obtain ⟨other, value⟩ := member
    rw [Record.locate?] at h
    split at h
    · cases h
      exact List.mem_cons_self
    · exact List.mem_cons_of_mem _ (ih h)

/-! ## Fields -/

theorem placed_eq_value {position : Nat} {result : Except Fault α} {a : α}
    (h : Record.placed position result = .value a) : result = .ok a := by
  cases result with
  | ok b => cases h; rfl
  | error fault => exact nomatch h

/-- **A field is decoded from one of the parts**, or is what stands for a missing one. -/
theorem exists_of_fieldOr {r : Record} {name : String} {decode : Decoder α}
    {absentNamed absentPositional : Option α} {a : α}
    (h : r.fieldOr name decode absentNamed absentPositional = .value a) :
    (∃ d ∈ r.parts.documents, decode r.origin d = .ok a) ∨
      absentNamed = some a ∨ absentPositional = some a := by
  unfold Record.fieldOr at h
  split at h
  · next members closed hparts =>
    rw [hparts]
    split at h
    · next hlocate => exact .inl ⟨_, mem_of_locate? hlocate, placed_eq_value h⟩
    · split at h
      · cases h
        exact .inr (.inl rfl)
      · exact nomatch h
  · next items closed hparts =>
    rw [hparts]
    split at h
    · next hitem => exact .inl ⟨_, List.mem_of_getElem? hitem, placed_eq_value h⟩
    · split at h
      · split at h
        · cases h
          exact .inr (.inr rfl)
        · exact nomatch h
      · exact nomatch h

/-- A field that must be there is no larger than the parts. -/
theorem exists_of_required {r : Record} {name : String} {decode : Decoder α} {a : α}
    (h : r.required name decode = .value a) :
    ∃ d, decode r.origin d = .ok a ∧ d.size ≤ r.parts.size := by
  obtain ⟨d, hd, hdecode⟩ := (exists_of_fieldOr h).resolve_right (by simp)
  exact ⟨d, hdecode, Parts.size_le_of_mem hd⟩

/-- A field with a default has that value, or is decoded from one of the parts. -/
theorem eq_or_exists_of_withDefault {r : Record} {name : String} {decode : Decoder α}
    {absent a : α} (h : r.withDefault name decode absent = .value a) :
    a = absent ∨ ∃ d ∈ r.parts.documents, decode r.origin d = .ok a := by
  rcases exists_of_fieldOr h with hdecoded | habsent
  · exact .inr hdecoded
  · exact .inl (Option.some.inj (or_self_iff.1 habsent)).symm

/-! ## Values of fields -/

theorem size_of_anything {origin : Origin} {d : Document} {value : Json}
    (h : anything origin d = .ok value) : value.size ≤ d.size := by
  rw [anything] at h
  split at h
  · next hvalue =>
    cases h
    exact size_value? hvalue
  · exact nomatch h

theorem length_of_string {origin : Origin} {d : Document} {s : String}
    (h : string origin d = .ok s) : s.length < d.size := by
  cases d with
  | text s' => cases h; exact Nat.lt_succ_self _
  | _ =>
    unfold string textAs at h
    exact (mistyped_ne_ok h).elim

theorem integerIn_eq_ok {wanted : String} {least greatest n : Int} {origin : Origin} {d : Document}
    (h : integerIn wanted least greatest origin d = .ok n) : least ≤ n ∧ n ≤ greatest := by
  cases d with
  | integer i =>
    rw [integerIn] at h
    split at h
    · next hrange => cases h; exact hrange
    · exact nomatch h
  | _ =>
    unfold integerIn at h
    exact (mistyped_ne_ok h).elim

theorem naturalOf_lt {wanted : String} {bits n : Nat} {origin : Origin} {d : Document}
    (h : naturalOf wanted bits origin d = .ok n) : n < 2 ^ bits := by
  obtain ⟨i, hi, rfl⟩ := FirmwareLane.Outcome.map_eq_ok.1 h
  obtain ⟨hleast, hgreatest⟩ := integerIn_eq_ok hi
  have hlt : i < ((2 ^ bits : Nat) : Int) := Int.lt_of_le_sub_one hgreatest
  exact (Int.toNat_lt hleast).2 hlt

theorem size_pos : ∀ d : Document, 0 < d.size
  | .deep inner => size_pos inner
  | .text _ | .array _ _ | .object _ _ => Nat.succ_pos _
  | .null | .bool _ | .integer _ | .float _ | .hugeNumber | .garbledText | .broken => Nat.one_pos

theorem length_le_sizes (items : List Document) : items.length ≤ Document.sizes items := by
  induction items with
  | nil => exact Nat.le_refl _
  | cons item rest ih =>
    have hpos := size_pos item
    rw [List.length_cons, Document.sizes]
    omega

theorem length_of_items {decode : Decoder α} {origin : Origin} {parts : List Document}
    {values : List α} (h : items decode origin parts = .ok values) :
    values.length = parts.length := by
  induction parts generalizing values with
  | nil => cases h; rfl
  | cons d rest ih =>
    rw [items] at h
    obtain ⟨a, -, h⟩ := FirmwareLane.Outcome.bind_eq_ok.1 h
    obtain ⟨more, hmore, h⟩ := FirmwareLane.Outcome.bind_eq_ok.1 h
    rw [← FirmwareLane.Outcome.pure_eq_ok.1 h, List.length_cons, ih hmore, List.length_cons]

theorem length_of_sequence {decode : Decoder α} {origin : Origin} {d : Document} {values : List α}
    (h : sequence decode origin d = .ok values) : values.length < d.size := by
  cases d with
  | array parts closed =>
    rw [sequence] at h
    obtain ⟨decoded, hitems, h⟩ := FirmwareLane.Outcome.bind_eq_ok.1 h
    have hlength := length_of_items hitems
    have hsizes := length_le_sizes parts
    split at h
    · cases h
      rw [Document.size]
      omega
    · exact nomatch h
  | _ =>
    unfold sequence at h
    exact (mistyped_ne_ok h).elim

end Json
end FirmwareLane
