import FirmwareLane.Proofs.Json.Tokens

/-!
# Printed text is cut into the tokens that it was printed from

A printed value is scanned token by token, and nothing is lost between them, as every number in it
is followed by a mark or by the end of the text (`scans_chars`).  The value may be nested as deep as
it likes; only integers that are not kept as such are left out.
-/

set_option autoImplicit false
namespace FirmwareLane
namespace Json

/-! ## Values and their tokens -/

/-- A value that is nested at most so deep and whose numbers are integers that are kept as such. -/
inductive Within : Nat → Json → Prop where
  | null {depth : Nat} : Within depth null
  | bool {depth : Nat} (b : Bool) : Within depth (bool b)
  | integer {depth : Nat} {n : Int} (hleast : leastInteger ≤ n) (hgreatest : n ≤ greatestInteger) :
      Within depth (integer n)
  | text {depth : Nat} (s : String) : Within depth (text s)
  | array {depth : Nat} {items : List Json} (h : ∀ item ∈ items, Within depth item) :
      Within (depth + 1) (array items)
  | object {depth : Nat} {members : List (String × Json)}
      (h : ∀ member ∈ members, Within depth member.2) : Within (depth + 1) (object members)

/-- A value whose integers are kept as such, with whatever floating point numbers and however deep
it is nested. -/
inductive HasIntegers : Json → Prop where
  | null : HasIntegers null
  | bool (b : Bool) : HasIntegers (bool b)
  | integer {n : Int} (hleast : leastInteger ≤ n) (hgreatest : n ≤ greatestInteger) :
      HasIntegers (integer n)
  | float (x : Binary64) : HasIntegers (float x)
  | text (s : String) : HasIntegers (text s)
  | array {items : List Json} (h : ∀ item ∈ items, HasIntegers item) : HasIntegers (array items)
  | object {members : List (String × Json)} (h : ∀ member ∈ members, HasIntegers member.2) :
      HasIntegers (object members)

theorem Within.hasIntegers {depth : Nat} {value : Json} (h : Within depth value) :
    HasIntegers value := by
  induction h with
  | null => exact .null
  | bool b => exact .bool b
  | integer hleast hgreatest => exact .integer hleast hgreatest
  | text s => exact .text s
  | array _ ih => exact .array ih
  | object _ ih => exact .object ih

mutual

/-- The tokens of a value. -/
def tokens : Json → List Token
  | null => [.null]
  | bool b => [.bool b]
  | integer n => [.integer n]
  | float x => [.float x]
  | text s => [.text (some s)]
  | array [] => [.openArray, .closeArray]
  | array (item :: rest) => .openArray :: (item.tokens ++ itemsTailTokens rest)
  | object [] => [.openObject, .closeObject]
  | object ((name, value) :: rest) =>
    .openObject :: .text (some name) :: .colon :: (value.tokens ++ membersTailTokens rest)

/-- The tokens of the items after the first one, with the closing bracket. -/
def itemsTailTokens : List Json → List Token
  | [] => [.closeArray]
  | item :: rest => .comma :: (item.tokens ++ itemsTailTokens rest)

/-- The tokens of the members after the first one, with the closing brace. -/
def membersTailTokens : List (String × Json) → List Token
  | [] => [.closeObject]
  | (name, value) :: rest =>
    .comma :: .text (some name) :: .colon :: (value.tokens ++ membersTailTokens rest)

end

namespace Token

/-! ## Scanning -/

theorem isDelimited_itemsTail (items : List Json) (rest : List Char) :
    IsDelimited (itemsTail items ++ rest) := by
  cases items with
  | nil => exact isDelimited_cons (by decide) rest
  | cons item items => exact isDelimited_cons (by decide) _

theorem isDelimited_membersTail (members : List (String × Json)) (rest : List Char) :
    IsDelimited (membersTail members ++ rest) := by
  cases members with
  | nil => exact isDelimited_cons (by decide) rest
  | cons member members => exact isDelimited_cons (by decide) _

theorem scans_mark {c : Char} {t : Token} (hspace : isSpace c = false)
    (h : ∀ rest, next? c rest = some (t, rest)) (rest : List Char) : Scans [c] [t] rest :=
  scans_of_next? hspace (h _)

/-- The items after the first one are scanned if each item is. -/
theorem scans_itemsTail {items : List Json}
    (h : ∀ item ∈ items, ∀ rest, IsDelimited rest →
      Scans item.chars (item.tokens.map reread) rest)
    (rest : List Char) : Scans (itemsTail items) ((itemsTailTokens items).map reread) rest := by
  induction items with
  | nil => exact scans_mark (by decide) (fun _ ↦ rfl) rest
  | cons item items ih =>
    have hitem := h item List.mem_cons_self _ (isDelimited_itemsTail items rest)
    have hitems := ih fun other hother ↦ h other (List.mem_cons_of_mem _ hother)
    have htail := (scans_mark (c := ',') (by decide) (fun _ ↦ rfl) _).append (hitem.append hitems)
    rwa [← List.map_append] at htail

/-- A member is scanned if its value is. -/
theorem scans_member (name : String) {value : Json} {rest : List Char}
    (h : Scans value.chars (value.tokens.map reread) rest) :
    Scans (quoted name ++ ':' :: value.chars)
      (.text (some name) :: .colon :: value.tokens.map reread) rest :=
  (scans_quoted name _).append ((scans_mark (c := ':') (by decide) (fun _ ↦ rfl) _).append h)

theorem scans_membersTail {members : List (String × Json)}
    (h : ∀ member ∈ members, ∀ rest, IsDelimited rest →
      Scans member.2.chars (member.2.tokens.map reread) rest)
    (rest : List Char) : Scans (membersTail members) ((membersTailTokens members).map reread) rest := by
  induction members with
  | nil => exact scans_mark (by decide) (fun _ ↦ rfl) rest
  | cons member members ih =>
    obtain ⟨name, value⟩ := member
    have hvalue := h (name, value) List.mem_cons_self _ (isDelimited_membersTail members rest)
    have hmembers := ih fun other hother ↦ h other (List.mem_cons_of_mem _ hother)
    have htail := (scans_mark (c := ',') (by decide) (fun _ ↦ rfl) _).append
      ((scans_member name hvalue).append hmembers)
    rw [List.append_assoc, List.cons_append] at htail
    rw [membersTailTokens, List.map_cons, List.map_cons, List.map_cons, List.map_append]
    exact htail

/-- **The text of a value is cut into its tokens**, of which those of floating point numbers may be
other ones. -/
theorem scans_chars {value : Json} (h : HasIntegers value) {rest : List Char}
    (hrest : IsDelimited rest) : Scans value.chars (value.tokens.map reread) rest := by
  induction h generalizing rest with
  | null => exact scans_of_next? (by decide) rfl
  | bool b =>
    cases b with
    | true => exact scans_of_next? (by decide) rfl
    | false => exact scans_of_next? (by decide) rfl
  | integer hleast hgreatest => exact scans_integerText hleast hgreatest hrest
  | float x => exact scans_render x hrest
  | text s => exact scans_quoted s rest
  | @array items _ ih =>
    cases items with
    | nil =>
      exact (scans_mark (c := '[') (by decide) (fun _ ↦ rfl) _).append
        (scans_mark (c := ']') (by decide) (fun _ ↦ rfl) rest)
    | cons item items =>
      have hitem := ih item List.mem_cons_self (isDelimited_itemsTail items rest)
      have hitems := scans_itemsTail
        (fun other hother _ ↦ ih other (List.mem_cons_of_mem _ hother)) rest
      have hall := (scans_mark (c := '[') (by decide) (fun _ ↦ rfl) _).append (hitem.append hitems)
      rwa [← List.map_append] at hall
  | @object members _ ih =>
    cases members with
    | nil =>
      exact (scans_mark (c := '\x7b') (by decide) (fun _ ↦ rfl) _).append
        (scans_mark (c := '\x7d') (by decide) (fun _ ↦ rfl) rest)
    | cons member members =>
      obtain ⟨name, value⟩ := member
      have hvalue := ih (name, value) List.mem_cons_self (isDelimited_membersTail members rest)
      have hmembers := scans_membersTail
        (fun other hother _ ↦ ih other (List.mem_cons_of_mem _ hother)) rest
      have hall := (scans_mark (c := '\x7b') (by decide) (fun _ ↦ rfl) _).append
        ((scans_member name hvalue).append hmembers)
      rw [List.append_assoc, List.cons_append] at hall
      rw [tokens, List.map_cons, List.map_cons, List.map_cons, List.map_append]
      exact hall

end Token
end Json
end FirmwareLane
