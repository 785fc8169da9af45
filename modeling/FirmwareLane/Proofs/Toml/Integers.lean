import FirmwareLane.Proofs.Json.Decoding
import FirmwareLane.Toml.Table

/-!
# The integers of a document

An integer is read from a document only if it fits in 64 bits with its sign, in whatever base it is
written and wherever it stands.  There is one place where integers are read (`isSigned_integer?`);
the rest is that no value comes out of a document that was not read from it: not where arrays and
tables stand in each other (`isSigned_value?`), and not where headers and dotted names spread a
table over the document (`AllSigned.changeAt`, which is one step on the way to a table).

The main statement is about whole documents (`isSigned_of_parse?`), and `Json.IsSigned.naturalOf_lt`
says what it comes to for a setting that is a natural number of 64 bits: one bit is never used.
-/

set_option autoImplicit false
namespace FirmwareLane

/-- A value whose integers all fit in 64 bits with their signs. -/
inductive Json.IsSigned : Json → Prop where
  | null : IsSigned null
  | bool (b : Bool) : IsSigned (bool b)
  | integer {n : Int} (hleast : -(2 ^ 63) ≤ n) (hgreatest : n < 2 ^ 63) : IsSigned (integer n)
  | float (x : Binary64) : IsSigned (float x)
  | text (s : String) : IsSigned (text s)
  | array {items : List Json} (h : ∀ item ∈ items, IsSigned item) : IsSigned (array items)
  | object {members : List (String × Json)} (h : ∀ member ∈ members, IsSigned member.2) :
      IsSigned (object members)

namespace Json

/-- The parts of a record are the documents of signed values if the record is. -/
theorem IsSigned.exists_of_mem_documents {v : Json} (h : v.IsSigned) {p : Parts}
    (hp : p.document = .ofJson v) {d : Document} (hd : d ∈ p.documents) :
    ∃ w : Json, w.IsSigned ∧ d = .ofJson w := by
  have hitems : ∀ items : List Json, Document.ofItems items = items.map Document.ofJson := by
    intro items
    induction items with
    | nil => rfl
    | cons item rest ih => rw [Document.ofItems, ih, List.map_cons]
  have hmembers : ∀ members : List (String × Json),
      (Document.ofMembers members).map (·.2) = members.map fun m ↦ Document.ofJson m.2 := by
    intro members
    induction members with
    | nil => rfl
    | cons member rest ih => rw [Document.ofMembers, List.map_cons, ih, List.map_cons]
  cases h with
  | array hsigned =>
    cases p with
    | named members closed => exact nomatch hp
    | positional parts closed =>
      cases hp
      rw [Parts.documents, hitems] at hd
      obtain ⟨w, hw, rfl⟩ := List.mem_map.1 hd
      exact ⟨w, hsigned w hw, rfl⟩
  | object hsigned =>
    cases p with
    | positional parts closed => exact nomatch hp
    | named members closed =>
      cases hp
      rw [Parts.documents, hmembers] at hd
      obtain ⟨m, hm, rfl⟩ := List.mem_map.1 hd
      exact ⟨m.2, hsigned m hm, rfl⟩
  | _ => cases p <;> exact nomatch hp

/-- A natural number that comes from a signed value has no sign bit. -/
theorem IsSigned.naturalOf_lt {v : Json} (h : v.IsSigned) {wanted : String} {bits n : Nat}
    {origin : Origin} (hn : naturalOf wanted bits origin (.ofJson v) = .ok n) : n < 2 ^ 63 := by
  obtain ⟨i, hi, rfl⟩ := FirmwareLane.Outcome.map_eq_ok.1 hn
  cases h with
  | integer hleast hgreatest =>
    rw [Document.ofJson, integerIn] at hi
    split at hi
    · cases hi
      omega
    · cases hi
  | _ =>
    unfold Document.ofJson integerIn at hi
    exact (mistyped_ne_ok hi).elim

end Json

namespace Toml

/-- An item that such values stand in. -/
inductive Item.IsSigned : Item → Prop where
  | value {v : Json} (h : v.IsSigned) : IsSigned (value v)
  | table {implicit dotted : Bool} {items : List (String × Item)}
      (h : ∀ member ∈ items, IsSigned member.2) : IsSigned (table implicit dotted items)
  | tables {elements : List (List (String × Item))}
      (h : ∀ items ∈ elements, ∀ member ∈ items, IsSigned member.2) : IsSigned (tables elements)

/-- Items that such values stand in. -/
def AllSigned (items : Items) : Prop := ∀ member ∈ items, member.2.IsSigned

variable {items items' : Items} {name : String} {item : Item} {path : List String}
  {v : Json} {s rest : List Char}

/-! ## Items and tables -/

theorem allSigned_nil : AllSigned [] := nofun

theorem AllSigned.of_lookup (h : AllSigned items) (hlookup : items.lookup name = some item) :
    item.IsSigned :=
  h _ (Keyed.mem_of_lookup hlookup)

theorem AllSigned.setItem (h : AllSigned items) (hitem : item.IsSigned) :
    AllSigned (setItem name item items) := by
  intro member hmember
  rw [Toml.setItem] at hmember
  split at hmember
  · obtain ⟨⟨other, kept⟩, hkept, rfl⟩ := List.mem_map.1 hmember
    dsimp only
    split
    · exact hitem
    · exact h _ hkept
  · rcases List.mem_append.1 hmember with hold | hnew
    · exact h _ hold
    · obtain rfl := List.mem_singleton.1 hnew
      exact hitem

/-- **A change of one table keeps all values signed** if it keeps those of the table. -/
theorem AllSigned.changeAt {dotted isDotted : Bool} {change : Bool → Items → Option Items}
    (hchange : ∀ isDotted items items', AllSigned items → change isDotted items = some items' →
      AllSigned items')
    (h : AllSigned items) (hitems : changeAt dotted change path isDotted items = some items') :
    AllSigned items' := by
  induction path generalizing isDotted items items' with
  | nil => exact hchange isDotted items items' h hitems
  | cons name path ih =>
    rw [Toml.changeAt] at hitems
    split at hitems
    · obtain ⟨t, ht, rfl⟩ := Option.map_eq_some_iff.1 hitems
      exact h.setItem (.table (ih allSigned_nil ht))
    · exact nomatch hitems
    · exact nomatch hitems
    · next last earlier hlookup =>
      obtain ⟨t, ht, rfl⟩ := Option.map_eq_some_iff.1 hitems
      cases h.of_lookup hlookup with
      | tables helements =>
        obtain ⟨hlast, hearlier⟩ := List.forall_mem_cons.1 helements
        exact h.setItem (.tables (List.forall_mem_cons.2 ⟨ih hlast ht, hearlier⟩))
    · next implicit inner hlookup =>
      split at hitems
      · exact nomatch hitems
      · obtain ⟨t, ht, rfl⟩ := Option.map_eq_some_iff.1 hitems
        cases h.of_lookup hlookup with
        | table hinner => exact h.setItem (.table (ih hinner ht))

theorem AllSigned.addValue {isDotted : Bool} (h : AllSigned items) (hitem : item.IsSigned)
    (hitems : addValue path name item isDotted items = some items') : AllSigned items' := by
  refine h.changeAt (fun isDotted items items' hold hnew ↦ ?_) hitems
  split at hnew
  · exact nomatch hnew
  · split at hnew
    · exact nomatch hnew
    · cases hnew
      exact hold.setItem hitem

theorem AllSigned.openTable (h : AllSigned items)
    (hitems : openTable path name items = some items') : AllSigned items' := by
  refine h.changeAt (fun isDotted items items' hold hnew ↦ ?_) hitems
  split at hnew
  · cases hnew
    exact hold.setItem (.table allSigned_nil)
  · next inner hlookup =>
    cases hnew
    cases hold.of_lookup hlookup with
    | table hinner => exact hold.setItem (.table hinner)
  · exact nomatch hnew

theorem AllSigned.openElement (h : AllSigned items)
    (hitems : openElement path name items = some items') : AllSigned items' := by
  refine h.changeAt (fun isDotted items items' hold hnew ↦ ?_) hitems
  split at hnew
  · cases hnew
    exact hold.setItem (.tables (List.forall_mem_singleton.2 allSigned_nil))
  · next elements hlookup =>
    cases hnew
    cases hold.of_lookup hlookup with
    | tables helements =>
      exact hold.setItem (.tables (List.forall_mem_cons.2 ⟨allSigned_nil, helements⟩))
  · exact nomatch hnew

mutual

theorem Item.IsSigned.toJson : ∀ {item : Item}, item.IsSigned → item.toJson.IsSigned
  | .value _, .value h => h
  | .table _ _ items, .table h => .object (isSigned_itemsToJson items h)
  | .tables elements, .tables h =>
    .array fun v hv ↦ isSigned_elementsToJson elements h v (List.mem_reverse.1 hv)

theorem isSigned_itemsToJson : ∀ items : List (String × Item),
    (∀ member ∈ items, member.2.IsSigned) → ∀ member ∈ itemsToJson items, member.2.IsSigned
  | [], _ => nofun
  | (name, item) :: rest, h => by
    obtain ⟨hitem, hrest⟩ := List.forall_mem_cons.1 h
    rw [itemsToJson]
    exact List.forall_mem_cons.2 ⟨hitem.toJson, isSigned_itemsToJson rest hrest⟩

theorem isSigned_elementsToJson : ∀ elements : List (List (String × Item)),
    (∀ items ∈ elements, ∀ member ∈ items, member.2.IsSigned) →
      ∀ v ∈ elementsToJson elements, v.IsSigned
  | [], _ => nofun
  | items :: rest, h => by
    obtain ⟨hitems, hrest⟩ := List.forall_mem_cons.1 h
    rw [elementsToJson]
    exact List.forall_mem_cons.2
      ⟨.object (isSigned_itemsToJson items hitems), isSigned_elementsToJson rest hrest⟩

end

/-! ## Scalars -/

/-- **The one place where an integer is read**: it is in range. -/
theorem isSigned_integer? {n : Int} (h : integer? n = some v) : v.IsSigned := by
  rw [integer?] at h
  split at h
  · next hrange =>
    cases h
    exact .integer hrange.1 hrange.2
  · exact nomatch h

theorem isSigned_float? {negative : Bool} {ds : List Char} {power : Int}
    (h : float? negative ds power = some v) : v.IsSigned := by
  rw [float?] at h
  obtain ⟨n, -, h⟩ := Option.bind_eq_some_iff.1 h
  grind [Json.IsSigned.float]

theorem isSigned_marked? {base : Nat} (h : marked? base s = some (v, rest)) : v.IsSigned := by
  simp only [marked?, Option.bind_eq_bind, Option.bind_eq_some_iff, Option.pure_def,
    Option.some.injEq, Prod.mk.injEq] at h
  obtain ⟨_, -, n, -, w, hw, rfl, -⟩ := h
  exact isSigned_integer? hw

theorem isSigned_decimal? (h : decimal? s = some (v, rest)) : v.IsSigned := by
  unfold decimal? at h
  split at h
  dsimp only at h
  split at h
  · cases h
    exact .float _
  · simp only [Option.bind_eq_bind, Option.bind_eq_some_iff] at h
    obtain ⟨whole, -, fraction, -, exponent, -, h⟩ := h
    split at h
    · simp only [Option.bind_eq_some_iff, Option.pure_def, Option.some.injEq, Prod.mk.injEq] at h
      obtain ⟨n, -, w, hw, rfl, -⟩ := h
      exact isSigned_integer? hw
    · simp only [Option.bind_eq_some_iff, Option.pure_def, Option.some.injEq, Prod.mk.injEq] at h
      obtain ⟨w, hw, rfl, -⟩ := h
      exact isSigned_float? hw

theorem isSigned_number? (h : number? s = some (v, rest)) : v.IsSigned := by
  unfold number? at h
  split at h
  · exact isSigned_marked? h
  · exact isSigned_marked? h
  · exact isSigned_marked? h
  · exact isSigned_decimal? h

theorem isSigned_dateTime? (h : dateTime? s = some (v, rest)) : v.IsSigned := by
  obtain ⟨_, -, heq⟩ := Option.map_eq_some_iff.1 h
  cases heq
  exact .object (List.forall_mem_singleton.2 (.text _))

theorem isSigned_scalar? (h : scalar? s = some (v, rest)) : v.IsSigned := by
  unfold scalar? at h
  split at h
  · exact nomatch h
  · split at h
    · obtain ⟨_, -, heq⟩ := Option.map_eq_some_iff.1 h
      cases heq
      exact .text _
    split at h
    · obtain ⟨_, -, heq⟩ := Option.map_eq_some_iff.1 h
      cases heq
      exact .bool _
    split at h
    · obtain ⟨_, -, heq⟩ := Option.map_eq_some_iff.1 h
      cases heq
      exact .bool _
    split at h
    · exact isSigned_dateTime? h
    · exact isSigned_number? h

/-! ## Values -/

/-- A reader of values reads signed ones. -/
def ReadsSigned (read : List Char → Option (Json × List Char)) : Prop :=
  ∀ s v rest, read s = some (v, rest) → v.IsSigned

section Nested

variable {read : List Char → Option (Json × List Char)} (hread : ReadsSigned read)

include hread

theorem isSigned_arrayItems {fuel : Nat} {vs : List Json}
    (h : arrayItems read fuel s = some (vs, rest)) : ∀ v ∈ vs, v.IsSigned := by
  induction fuel generalizing s vs rest with
  | zero => exact nomatch h
  | succ fuel ih =>
    rw [arrayItems] at h
    split at h
    · cases h
      exact nofun
    · obtain ⟨⟨v, tail⟩, hv, h⟩ := Option.bind_eq_some_iff.1 h
      dsimp only at h
      split at h
      · obtain ⟨⟨more, tail⟩, hmore, heq⟩ := Option.bind_eq_some_iff.1 h
        cases heq
        exact List.forall_mem_cons.2 ⟨hread _ _ _ hv, ih hmore⟩
      · cases h
        exact List.forall_mem_singleton.2 (hread _ _ _ hv)
      · exact nomatch h

theorem AllSigned.inlineMembers {fuel : Nat} (h : AllSigned items)
    (hitems : inlineMembers read fuel items s = some (items', rest)) : AllSigned items' := by
  induction fuel generalizing s items with
  | zero => exact nomatch hitems
  | succ fuel ih =>
    rw [Toml.inlineMembers] at hitems
    simp only [Option.bind_eq_bind, Option.bind_eq_some_iff] at hitems
    obtain ⟨⟨⟨path, name⟩, afterName⟩, -, afterMark, -, ⟨v, afterValue⟩, hv, added, hadded, hrest⟩ :=
      hitems
    have hsigned : AllSigned added := h.addValue (.value (hread _ _ _ hv)) hadded
    split at hrest
    · exact ih hsigned hrest
    · cases hrest
      exact hsigned
    · exact nomatch hrest

end Nested

theorem readsSigned_value? (depth : Nat) : ReadsSigned (value? depth) := by
  induction depth with
  | zero => exact fun _ _ _ ↦ isSigned_scalar?
  | succ depth ih =>
    intro s v rest h
    unfold value? at h
    split at h
    · obtain ⟨⟨vs, tail⟩, hvs, heq⟩ := Option.map_eq_some_iff.1 h
      cases heq
      exact .array (isSigned_arrayItems ih hvs)
    · split at h
      · cases h
        exact .object nofun
      · obtain ⟨⟨items, tail⟩, hitems, heq⟩ := Option.map_eq_some_iff.1 h
        cases heq
        exact (Item.IsSigned.table (allSigned_nil.inlineMembers ih hitems)).toJson
    · exact isSigned_scalar? h

/-! ## Documents -/

theorem AllSigned.lines? {fuel : Nat} (h : AllSigned items)
    (hitems : lines? fuel path items s = some items') : AllSigned items' := by
  induction fuel generalizing path items s with
  | zero => exact nomatch hitems
  | succ fuel ih =>
    rw [Toml.lines?] at hitems
    simp only [Option.bind_eq_bind] at hitems
    split at hitems
    · cases hitems
      exact h
    · simp only [Option.bind_eq_some_iff] at hitems
      obtain ⟨_, -, _, -, _, -, _, -, opened, hopened, hrest⟩ := hitems
      exact ih (h.openElement hopened) hrest
    · simp only [Option.bind_eq_some_iff] at hitems
      obtain ⟨_, -, _, -, _, -, opened, hopened, hrest⟩ := hitems
      exact ih (h.openTable hopened) hrest
    · simp only [Option.bind_eq_some_iff] at hitems
      obtain ⟨_, -, _, -, ⟨v, _⟩, hv, _, -, added, hadded, hrest⟩ := hitems
      have hsigned : v.IsSigned := readsSigned_value? _ _ _ _ hv
      exact ih (h.changeAt (fun _ _ _ hold ↦ hold.addValue (.value hsigned)) hadded) hrest

/-- **Every integer of a document fits in 64 bits with its sign.** -/
theorem isSigned_of_parse? {document : String} (h : parse? document = some v) : v.IsSigned := by
  simp only [parse?, Option.bind_eq_bind, Option.bind_eq_some_iff, Option.pure_def,
    Option.some.injEq] at h
  obtain ⟨items, hitems, rfl⟩ := h
  exact (Item.IsSigned.table (allSigned_nil.lines? hitems)).toJson

end Toml
end FirmwareLane
