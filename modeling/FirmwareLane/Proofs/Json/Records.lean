import FirmwareLane.Proofs.Json.Places

/-!
# Records that travel

A record is sent as an object with a member for each of its fields, where a field may be left out.
In the text of the object the members stand as they are written, and in memory in the order of their
names (`Way`).  The decoder of a record looks for each field by its name, so it finds the same in
both: the member of that name, or that there is none.  A record travels if each field comes back from
what is found (`travels_of_present`).

What travels and is not nested too deep comes back from text, from bytes and from memory
(`Travels.comesBack`).
-/

set_option autoImplicit false
namespace FirmwareLane
namespace Json

open Record (locate? strayMember?)

/-! ## The two ways -/

/-- How a value travels: as text, whose members stand as they are written, or in memory, with its
members in the order of their names. -/
inductive Way where
  | text
  | memory

namespace Way

/-- Where a decoder finds a value that came this way. -/
def origin : Way → Origin
  | text => .text
  | memory => .value

/-- The document of a value that came this way. -/
def document : Way → Json → Document
  | text, value => .ofJson value
  | memory, value => .ofJson value.sorted

/-- The members of an object that came this way. -/
def members : Way → List (String × Json) → List (Option String × Document)
  | text, values => Document.ofMembers values
  | memory, values => Document.ofMembers (Keyed.ofList (sortedValues values))

theorem document_object (way : Way) (values : List (String × Json)) :
    way.document (.object values) = .object (way.members values) true := by
  cases way <;> rfl

end Way

variable {α β : Type}

theorem Travels.of_ways [Wire α] {a : α}
    (h : ∀ way : Way, Wire.decode way.origin (way.document (Wire.encode a)) = .ok a) : Travels a :=
  ⟨h .text, h .memory⟩

theorem Travels.decode_eq [Wire α] {a : α} (h : Travels a) (way : Way) :
    Wire.decode way.origin (way.document (Wire.encode a)) = .ok a := by
  cases way with
  | text => exact h.written
  | memory => exact h.kept

/-! ## Members by name -/

theorem map_locate?_ofMembers (name : String) (position : Nat) (values : List (String × Json)) :
    (locate? name position (Document.ofMembers values)).map (·.2) =
      (values.lookup name).map Document.ofJson := by
  induction values generalizing position with
  | nil => rfl
  | cons member rest ih =>
    obtain ⟨key, value⟩ := member
    rw [Document.ofMembers, locate?, Keyed.lookup_cons]
    by_cases h : name = key
    · rw [if_pos h, if_pos (congrArg some h.symm)]
      rfl
    · rw [if_neg h, if_neg fun heq ↦ h (Option.some.inj heq).symm, ih]

theorem strayMember?_ofMembers {fields seen : List String} {values : List (String × Json)}
    (position : Nat) (hknown : ∀ name ∈ values.map (·.1), name ∈ fields)
    (hnodup : (values.map (·.1)).Nodup) (hseen : ∀ name ∈ values.map (·.1), name ∉ seen) :
    strayMember? fields true position seen (Document.ofMembers values) = none := by
  induction values generalizing position seen with
  | nil => rfl
  | cons member rest ih =>
    obtain ⟨key, value⟩ := member
    rw [List.map_cons] at hknown hnodup hseen
    obtain ⟨hfirst, hrest⟩ := List.nodup_cons.1 hnodup
    rw [Document.ofMembers, strayMember?, if_pos (hknown key List.mem_cons_self),
      if_neg (hseen key List.mem_cons_self)]
    refine ih _ (fun name hname ↦ hknown name (List.mem_cons_of_mem _ hname)) hrest
      fun name hname hmem ↦ ?_
    rcases List.mem_cons.1 hmem with rfl | hmem
    · exact hfirst hname
    · exact hseen name (List.mem_cons_of_mem _ hname) hmem

namespace Way

variable {values : List (String × Json)}

/-- **What stands under a name is found under it, whichever way the members came.** -/
theorem map_locate?_members (way : Way) (hnodup : (values.map (·.1)).Nodup) (name : String) :
    (locate? name 0 (way.members values)).map (·.2) = (values.lookup name).map way.document := by
  cases way with
  | text => exact map_locate?_ofMembers name 0 values
  | memory =>
    have hnames : ((sortedValues values).map (·.1)).Nodup := by
      rw [sortedValues_eq_map, List.map_map]
      exact hnodup
    rw [members, map_locate?_ofMembers, Keyed.lookup_ofList,
      Keyed.lookup_reverse_of_nodup hnames, sortedValues_eq_map]
    have hsorted := Keyed.lookup_map sorted name values
    dsimp only at hsorted
    rw [hsorted, Option.map_map]
    rfl

theorem strayMember?_members (way : Way) {fields : List String} (hnodup : (values.map (·.1)).Nodup)
    (hknown : ∀ name ∈ values.map (·.1), name ∈ fields) :
    strayMember? fields true 0 [] (way.members values) = none := by
  cases way with
  | text => exact strayMember?_ofMembers 0 hknown hnodup fun _ _ ↦ List.not_mem_nil
  | memory =>
    refine strayMember?_ofMembers 0 (fun name hname ↦ hknown name ?_) (Keyed.sorted_ofList _).nodup
      fun _ _ ↦ List.not_mem_nil
    rw [Keyed.mem_names_ofList, sortedValues_eq_map, List.map_map] at hname
    exact hname

end Way

/-! ## Members that are left out -/

/-- The members that have a value. -/
def given (members : List (String × Option Json)) : List (String × Json) :=
  members.filterMap fun (name, value) ↦ value.map fun v ↦ (name, v)

variable {members : List (String × Option Json)}

theorem names_given (members : List (String × Option Json)) :
    ((given members).map (·.1)).Sublist (members.map (·.1)) := by
  induction members with
  | nil => exact .slnil
  | cons member rest ih =>
    obtain ⟨name, _ | value⟩ := member
    · exact ih.cons name
    · exact ih.cons_cons name

theorem lookup_given (hnodup : (members.map (·.1)).Nodup) {name : String} {value : Option Json}
    (h : members.lookup name = some value) : (given members).lookup name = value := by
  induction members with
  | nil => cases h
  | cons member rest ih =>
    obtain ⟨key, first⟩ := member
    obtain ⟨hfirst, hrest⟩ := List.nodup_cons.1 hnodup
    rw [Keyed.lookup_cons] at h
    by_cases hname : name = key
    · subst hname
      rw [if_pos rfl] at h
      obtain rfl := Option.some.inj h
      cases first with
      | some v => exact (Keyed.lookup_cons ..).trans (if_pos rfl)
      | none =>
        cases hlookup : (given rest).lookup name with
        | none => exact hlookup
        | some v =>
          have hmem := List.mem_map_of_mem (f := (·.1)) (Keyed.mem_of_lookup hlookup)
          exact absurd ((names_given rest).subset hmem) hfirst
    · rw [if_neg hname] at h
      cases first with
      | none => exact ih hrest h
      | some v => exact (Keyed.lookup_cons ..).trans ((if_neg hname).trans (ih hrest h))

/-! ## Fields -/

theorem Outcome.map_value {f : α → β} {o : Outcome α} {a : α} (h : o = .value a) :
    f <$> o = .value (f a) := by
  rw [h]
  rfl

theorem Outcome.seq_value {o : Outcome (α → β)} {o' : Outcome α} {f : α → β} {a : α}
    (h : o = .value f) (h' : o' = .value a) : o <*> o' = .value (f a) := by
  rw [h, h']
  rfl

/-- The record of some members that came one way. -/
def Way.record (way : Way) (fields : List String) (described : String)
    (members : List (String × Option Json)) : Record :=
  ⟨way.origin, fields, described, .named (way.members (given members)) true⟩

section Fields

variable {way : Way} {fields : List String} {described name : String} {decode : Decoder α} {a : α}

theorem fieldOr_of_given (hnodup : (members.map (·.1)).Nodup) {value : Json}
    (hmember : members.lookup name = some (some value)) (absentNamed absentPositional : Option α)
    (hdecode : decode way.origin (way.document value) = .ok a) :
    (way.record fields described members).fieldOr name decode absentNamed absentPositional =
      .value a := by
  have hlocate := way.map_locate?_members ((names_given members).nodup hnodup) name
  rw [lookup_given hnodup hmember] at hlocate
  obtain ⟨⟨position, d⟩, hlocate, rfl⟩ := Option.map_eq_some_iff.1 hlocate
  simp only [Way.record, Record.fieldOr, hlocate, hdecode, Record.placed]

theorem required_of_given (hnodup : (members.map (·.1)).Nodup) {value : Json}
    (hmember : members.lookup name = some (some value))
    (hdecode : decode way.origin (way.document value) = .ok a) :
    (way.record fields described members).required name decode = .value a :=
  fieldOr_of_given hnodup hmember none none hdecode

theorem withDefault_of_given (hnodup : (members.map (·.1)).Nodup) {value : Json} {absent : α}
    (hmember : members.lookup name = some (some value))
    (hdecode : decode way.origin (way.document value) = .ok a) :
    (way.record fields described members).withDefault name decode absent = .value a :=
  fieldOr_of_given hnodup hmember (some absent) (some absent) hdecode

/-- A field that is left out if it is none comes back if what it may be does. -/
theorem withDefault_of_option (hnodup : (members.map (·.1)).Nodup) {decode : Decoder β}
    {encode : β → Json} {option : Option β}
    (hmember : members.lookup name = some (option.map encode))
    (hnull : ∀ b, way.document (encode b) ≠ .null)
    (hdecode : ∀ b, option = some b → decode way.origin (way.document (encode b)) = .ok b) :
    (way.record fields described members).withDefault name (nullable decode) none =
      .value option := by
  cases option with
  | some b =>
    refine withDefault_of_given hnodup hmember ?_
    have hb := hdecode b rfl
    have hne := hnull b
    revert hb hne
    generalize way.document (encode b) = d
    intro hb hne
    cases d with
    | null => exact absurd rfl hne
    | _ => exact congrArg (Except.map some) hb
  | none =>
    have hlocate := way.map_locate?_members ((names_given members).nodup hnodup) name
    rw [lookup_given hnodup hmember] at hlocate
    simp only [Way.record, Record.withDefault, Record.fieldOr, Option.map_eq_none_iff.1 hlocate]

end Fields

/-- **A record travels if its fields come back from the members that were given.** -/
theorem travels_of_present [Wire α] {a : α} {name : String} {fields : List String}
    {decode : Record → Outcome α} (hdecode : (Wire.decode : Decoder α) = record name fields decode)
    (hencode : Wire.encode a = present members) (hnames : members.map (·.1) = fields)
    (hnodup : fields.Nodup)
    (hfields : ∀ (way : Way) (described : String), (members.map (·.1)).Nodup →
      decode (way.record fields described members) = .value a) : Travels a := by
  subst hnames
  refine .of_ways fun way ↦ ?_
  have hsub := names_given members
  have hobject : way.document (present members) = .object (way.members (given members)) true :=
    way.document_object _
  rw [hdecode, hencode, hobject]
  exact record_object (way.strayMember?_members (hsub.nodup hnodup) fun _ h ↦ hsub.subset h)
    fun described ↦ hfields way described hnodup

/-! ## Sequences -/

/-- A sequence is decoded if its items are, whichever way they came. -/
theorem Way.sequence_array (way : Way) {decode : Decoder α} {encode : α → Json} {values : List α}
    (h : ∀ a ∈ values, decode way.origin (way.document (encode a)) = .ok a) :
    sequence decode way.origin (way.document (.array (values.map encode))) = .ok values := by
  cases way with
  | text => exact Json.sequence_array h
  | memory => exact sequence_sorted h

/-- Values of a type travel together as the items of an array. -/
instance [Wire α] : Wire (List α) where
  encode values := .array (values.map Wire.encode)
  decode := sequence Wire.decode

theorem travels_list [Wire α] {values : List α} (h : ∀ a ∈ values, Travels a) : Travels values :=
  .of_ways fun way ↦ way.sequence_array fun a ha ↦ (h a ha).decode_eq way

theorem within_list [Wire α] {values : List α} {depth : Nat}
    (h : ∀ a ∈ values, Within depth (Wire.encode a)) : Within (depth + 1) (Wire.encode values) := by
  refine .array fun item hitem ↦ ?_
  obtain ⟨a, ha, rfl⟩ := List.mem_map.1 hitem
  exact h a ha

/-! ## Coming back -/

/-- A value comes back as it was: from its text and from the bytes of that, from the value that
stands for it, and from any place of a value in memory that was read from text, whatever else was in
that text. -/
structure ComesBack [Wire α] (a : α) : Prop where
  text : Wire.ofText (Wire.print a) = .ok a
  bytes : Wire.ofBytes (Text.Utf8.bytes (Wire.print a)) = .ok a
  value : Wire.ofJson (Wire.encode a) = .ok a
  place : ∀ (whole part read : Json) (place : List Key), HasIntegers whole →
    whole.at? place = some part → part = Wire.encode a ∨ part = (Wire.encode a).sorted →
      parse? whole.print = some read → ∃ c, read.at? place = some c ∧ Wire.ofJson c = .ok a

/-- **What travels and is not nested too deep comes back.** -/
theorem Travels.comesBack [Wire α] {a : α} (h : Travels a)
    (hwithin : Within greatestDepth (Wire.encode a)) : ComesBack a where
  text := (Wire.ofText_print hwithin).trans h.written
  bytes := (Wire.ofBytes_bytes _).trans ((Wire.ofText_print hwithin).trans h.written)
  value := h.ofJson_eq rfl
  place _ _ _ _ hwhole hpart hstands hread := h.ofJson_at? hwithin hwhole hread hpart hstands

end Json
end FirmwareLane
