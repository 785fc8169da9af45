import FirmwareLane.Proofs.Json.Travelling
import Mathlib.Data.List.Forall2

/-!
# Values at places of other values

A value that stands at a place of another one is found at that place again when the text of the
whole is read, whatever stands around it: floating point numbers, names that come twice, values of
any kind.  The one thing that can keep it from being read is a whole that cannot be read at all, for
a number that is too large or for being nested too deep.

## What is here

* `at?` is the value at a place, told by names and numbers from the outside inwards.
* `exists_at?_of_value?` follows a place through the reading of a whole.  An item is read as the
  item of its number (`forall₂_values?`), and the last member of a name as the last member of that
  name (`forall₂_memberValues?`).
* `ReadsAs.eq_sorted` says what a value without floating point numbers is read as, at a place of
  whatever depth.
* `Travels.ofJson_at?` is the statement about values that stand for something.
-/

set_option autoImplicit false
namespace FirmwareLane

namespace Keyed

variable {α β : Type}

theorem map_find? (name : String) (values : List (String × α)) :
    (values.find? fun m ↦ m.1 == name).map (·.2) = values.lookup name := by
  induction values with
  | nil => rfl
  | cons entry rest ih =>
    obtain ⟨key, value⟩ := entry
    rw [List.find?_cons, lookup_cons, ← ih]
    by_cases h : name = key
    · rw [if_pos h, h, beq_self_eq_true]
      rfl
    · rw [if_neg h, beq_false_of_ne (Ne.symm h)]

/-- What is found in a list has its counterpart in a list that agrees with it name by name. -/
theorem exists_lookup {R : α → β → Prop} {values : List (String × α)} {others : List (String × β)}
    (h : List.Forall₂ (fun a b ↦ a.1 = b.1 ∧ R a.2 b.2) values others) {name : String} {value : α}
    (hvalue : values.lookup name = some value) :
    ∃ other, others.lookup name = some other ∧ R value other := by
  induction h with
  | nil => cases hvalue
  | @cons a b _ _ hab _ ih =>
    obtain ⟨key, first⟩ := a
    obtain ⟨_, other⟩ := b
    obtain ⟨rfl, hfirst⟩ := hab
    rw [lookup_cons] at hvalue ⊢
    split at hvalue
    · cases hvalue
      exact ⟨other, if_pos ‹_›, hfirst⟩
    · rw [if_neg ‹_›]
      exact ih hvalue

end Keyed

namespace Json

/-! ## Places -/

/-- A step into a value. -/
inductive Key where
  /-- To the item of an array, counted from zero. -/
  | item (i : Nat)
  /-- To the last member of a name. -/
  | member (name : String)

/-- What a step leads to. -/
def child? : Key → Json → Option Json
  | .item i, array items => items[i]?
  | .member name, value => value.member? name
  | _, _ => none

/-- The value at a place. -/
def at? : List Key → Json → Option Json
  | [], value => some value
  | key :: rest, value => (value.child? key).bind (at? rest)

theorem member?_object (name : String) (members : List (String × Json)) :
    (object members).member? name = members.reverse.lookup name :=
  Keyed.map_find? name members.reverse

theorem member?_ofList (name : String) (members : List (String × Json)) :
    (object (Keyed.ofList members)).member? name = members.reverse.lookup name := by
  rw [member?_object, Keyed.lookup_reverse_of_nodup (Keyed.sorted_ofList members).nodup,
    Keyed.lookup_ofList]

/-! ## Reading the parts of a value -/

variable {outer : Nat} {read : Json}

/-- What a value with so many containers around it is read as. -/
def ReadsAs (outer : Nat) (value read : Json) : Prop := (value.document outer).value? = some read

theorem value?_of_enclosed {d : Document} (h : (enclosed outer d).value? = some read) :
    d.value? = some read := by
  rw [enclosed] at h
  split at h
  · exact h
  · cases h

theorem forall₂_values? {items reads : List Json}
    (h : Document.values? (itemDocuments outer items) = some reads) :
    List.Forall₂ (ReadsAs outer) items reads := by
  induction items generalizing reads with
  | nil =>
    cases h
    exact .nil
  | cons item rest ih =>
    rw [itemDocuments, Document.values?] at h
    split at h
    · next v vs hv hvs =>
      cases h
      exact .cons hv (ih hvs)
    · cases h

theorem forall₂_memberValues? {members reads : List (String × Json)}
    (h : Document.memberValues? (memberDocuments outer members) = some reads) :
    List.Forall₂ (fun a b ↦ a.1 = b.1 ∧ ReadsAs outer a.2 b.2) members reads := by
  induction members generalizing reads with
  | nil =>
    cases h
    exact .nil
  | cons member rest ih =>
    obtain ⟨name, value⟩ := member
    rw [memberDocuments, Document.memberValues?] at h
    split at h
    · next v vs hv hvs =>
      cases h
      exact .cons ⟨rfl, hv⟩ (ih hvs)
    · cases h

/-- An array is read as the array of what its items are read as. -/
theorem ReadsAs.exists_items {items : List Json} (h : ReadsAs outer (.array items) read) :
    ∃ reads, read = .array reads ∧ List.Forall₂ (ReadsAs (outer + 1)) items reads := by
  have hvalue := value?_of_enclosed h
  rw [Document.value?, Option.map_eq_some_iff] at hvalue
  obtain ⟨reads, hreads, rfl⟩ := hvalue
  exact ⟨reads, rfl, forall₂_values? hreads⟩

/-- An object is read as the object of what its members are read as, in the order of the names. -/
theorem ReadsAs.exists_members {members : List (String × Json)}
    (h : ReadsAs outer (.object members) read) :
    ∃ reads, read = .object (Keyed.ofList reads) ∧
      List.Forall₂ (fun a b ↦ a.1 = b.1 ∧ ReadsAs (outer + 1) a.2 b.2) members reads := by
  have hvalue := value?_of_enclosed h
  rw [Document.value?, Option.map_eq_some_iff] at hvalue
  obtain ⟨reads, hreads, rfl⟩ := hvalue
  exact ⟨reads, rfl, forall₂_memberValues? hreads⟩

/-! ## Reading at places -/

/-- **A step into a value leads to the same part of what the value is read as.** -/
theorem ReadsAs.exists_child? {value child : Json} {key : Key} (h : ReadsAs outer value read)
    (hchild : value.child? key = some child) :
    ∃ c, read.child? key = some c ∧ ReadsAs (outer + 1) child c := by
  cases key with
  | item i =>
    cases value with
    | array items =>
      obtain ⟨reads, rfl, hreads⟩ := h.exists_items
      obtain ⟨hi, rfl⟩ := List.getElem?_eq_some_iff.1 hchild
      have hi' : i < reads.length := hreads.length_eq ▸ hi
      exact ⟨reads[i], List.getElem?_eq_getElem hi', hreads.get hi hi'⟩
    | _ => cases hchild
  | member name =>
    cases value with
    | object members =>
      obtain ⟨reads, rfl, hreads⟩ := h.exists_members
      rw [child?, member?_object] at hchild
      rw [child?, member?_ofList]
      exact Keyed.exists_lookup (List.rel_reverse hreads) hchild
    | _ => cases hchild

/-- **A place in a value leads to the same part of what the value is read as.** -/
theorem ReadsAs.exists_at? {value part : Json} {place : List Key} (h : ReadsAs outer value read)
    (hpart : value.at? place = some part) :
    ∃ c depth, read.at? place = some c ∧ ReadsAs depth part c := by
  -- with every step there is one container more around what is left
  induction place generalizing value read outer with
  | nil =>
    cases hpart
    exact ⟨read, outer, rfl, h⟩
  | cons key rest ih =>
    rw [at?, Option.bind_eq_some_iff] at hpart
    obtain ⟨child, hchild, hrest⟩ := hpart
    obtain ⟨c, hc, hread⟩ := h.exists_child? hchild
    rw [at?, hc]
    exact ih hread hrest

/-! ## Values without floating point numbers -/

theorem eq_map_of_forall₂ {α β : Type} {R : α → β → Prop} {f : α → β} {values : List α}
    {others : List β} (h : List.Forall₂ R values others) (hf : ∀ a ∈ values, ∀ b, R a b → b = f a) :
    others = values.map f := by
  induction h with
  | nil => rfl
  | cons hab _ ih =>
    rw [List.map_cons, hf _ List.mem_cons_self _ hab,
      ih fun a ha ↦ hf a (List.mem_cons_of_mem _ ha)]

/-- A value without floating point numbers is read as itself with its members sorted, if it is read
at all. -/
theorem ReadsAs.eq_sorted {depth : Nat} {value : Json} (h : ReadsAs outer value read)
    (hvalue : Within depth value) : read = value.sorted := by
  induction hvalue generalizing outer read with
  | null => exact (Option.some.inj h).symm
  | bool b => exact (Option.some.inj h).symm
  | integer _ _ => exact (Option.some.inj h).symm
  | text s => exact (Option.some.inj h).symm
  | array _ ih =>
    obtain ⟨reads, rfl, hreads⟩ := h.exists_items
    rw [sorted_array, eq_map_of_forall₂ hreads fun item hitem _ hread ↦ ih item hitem hread]
  | object _ ih =>
    obtain ⟨reads, rfl, hreads⟩ := h.exists_members
    rw [sorted_object]
    refine congrArg (fun m ↦ object (Keyed.ofList m)) (eq_map_of_forall₂ hreads ?_)
    rintro ⟨name, value⟩ hmember ⟨_, other⟩ ⟨rfl, hother⟩
    exact Prod.ext rfl (ih _ hmember hother)

/-! ## Texts -/

theorem parse?_print {value : Json} (h : HasIntegers value) :
    parse? value.print = (value.document 0).value? := by
  rw [parse?, (readText_print_eq h).1]

/-- **The text of a value without floating point numbers that is not nested too deep is read.** -/
theorem parse?_print_of_within {value : Json} (h : Within greatestDepth value) :
    parse? value.print = some value.sorted := by
  rw [parse?, (readText_print h).1]
  exact value?_ofJson value

/-- **What travels is decoded from its place in a value that was read.** -/
theorem Travels.ofJson_at? {α : Type} [Wire α] {a : α} {depth : Nat} {whole part : Json}
    {place : List Key} (ha : Travels a) (hwithin : Within depth (Wire.encode a))
    (hwhole : HasIntegers whole) (hread : parse? whole.print = some read)
    (hpart : whole.at? place = some part)
    (hstands : part = Wire.encode a ∨ part = (Wire.encode a).sorted) :
    ∃ c, read.at? place = some c ∧ Wire.ofJson c = .ok a := by
  rw [parse?_print hwhole] at hread
  obtain ⟨c, inner, hc, hreads⟩ := ReadsAs.exists_at? hread hpart
  have hsorted : c.sorted = (Wire.encode a).sorted := by
    rcases hstands with rfl | rfl
    · rw [hreads.eq_sorted hwithin, sorted_sorted]
    · rw [hreads.eq_sorted hwithin.sorted, sorted_sorted, sorted_sorted]
  exact ⟨c, hc, ha.ofJson_eq hsorted⟩

end Json
end FirmwareLane
