import FirmwareLane.Json.Document
import FirmwareLane.Json.Fault
import FirmwareLane.Json.Printer
import FirmwareLane.Json.Reader

/-!
# Decoding documents

Decoders for texts, numbers, sequences, records and variants.  A decoder goes through a document
from left to right and reports the first thing that is wrong, be it a value of the wrong type or
the end of the text that makes sense.  The fields of a record may come in any order, or as the items
of a sequence in the order of their declaration; a field that is missing is noticed only when
nothing else is wrong.

The class `Wire` ties the decoder of a type to the value that stands for it.
-/

set_option autoImplicit false
namespace FirmwareLane
namespace Json

/-- Where a document comes from, which decides how some faults are described. -/
inductive Origin where
  /-- Text that is read as it is decoded. -/
  | text
  /-- A value in memory. -/
  | value
  /-- The fields of a tagged variant, which are kept until the tag is known. -/
  | kept
  /-- A value of a configuration, where items behind the last field of a record do not matter. -/
  | setting
  deriving DecidableEq, Repr

/-- A decoder of a type. -/
abbrev Decoder (α : Type) := Origin → Document → Except Fault α

/-! ## Scalars -/

/-- What a document is, if its text is good enough to tell. -/
def found? : Document → Option Found
  | .null => some .null
  | .bool b => some (.bool b)
  | .integer n => some (.integer n)
  | .float x => some (.float x)
  | .text s => some (.text s)
  | .array _ _ => some .sequence
  | .object _ _ => some .map
  | .deep inner => found? inner
  | .hugeNumber => none
  | .garbledText => none
  | .broken => none

/-- The fault of a document that is not of the wanted type. -/
def mistyped {α : Type} (wanted : String) (d : Document) : Except Fault α :=
  match found? d with
  | some found => .error (.invalidType found wanted)
  | none => .error .malformed

/-- Any text, described by the given words where it is missing. -/
def textAs (wanted : String) : Decoder String := fun _ d ↦
  match d with
  | .text s => .ok s
  | d => mistyped wanted d

/-- Any text. -/
def string : Decoder String := textAs "a string"

/-- A truth value. -/
def boolean : Decoder Bool := fun _ d ↦
  match d with
  | .bool b => .ok b
  | d => mistyped "a boolean" d

/-- An integer between two bounds. -/
def integerIn (wanted : String) (least greatest : Int) : Decoder Int := fun _ d ↦
  match d with
  | .integer n => if least ≤ n ∧ n ≤ greatest then .ok n else .error (.outOfRange n wanted)
  | d => mistyped wanted d

/-- A natural number of so many bits. -/
def naturalOf (wanted : String) (bits : Nat) : Decoder Nat := fun origin d ↦
  (integerIn wanted 0 (Nat.pow 2 bits - 1) origin d).map Int.toNat

/-- A signed number of 32 bits. -/
def int32 : Decoder Int := integerIn "i32" (-(Nat.pow 2 31)) (Nat.pow 2 31 - 1)

/-- Any value at all. -/
def anything : Decoder Json := fun _ d ↦
  match d.value? with
  | some v => .ok v
  | none => .error .malformed

/-- A value or null. -/
def nullable {α : Type} (decode : Decoder α) : Decoder (Option α) := fun origin d ↦
  match d with
  | .null => .ok none
  | d => (decode origin d).map some

/-! ## Sequences -/

/-- The items of a sequence, in order. -/
def items {α : Type} (decode : Decoder α) (origin : Origin) : List Document → Except Fault (List α)
  | [] => .ok []
  | d :: rest => do
    let a ← decode origin d
    return a :: (← items decode origin rest)

/-- A sequence of values of one type. -/
def sequence {α : Type} (decode : Decoder α) : Decoder (List α) := fun origin d ↦
  match d with
  | .array parts closed => do
    let values ← items decode origin parts
    if closed then .ok values else .error .malformed
  | d => mistyped "a sequence" d

/-! ## Records -/

/-- The result of decoding some fields of a record. -/
inductive Outcome (α : Type) where
  | value (a : α)
  /-- A field is missing, and the fields that are there are in order. -/
  | missing (fault : Fault)
  /-- A part at this position is wrong. -/
  | wrong (position : Nat) (fault : Fault)
  deriving Repr

namespace Outcome

/-- The outcome for a function of the fields. -/
def map {α β : Type} (f : α → β) : Outcome α → Outcome β
  | value a => value (f a)
  | missing fault => missing fault
  | wrong position fault => wrong position fault

/-- The outcome for two groups of fields.  Of two wrong parts the one in front counts, a wrong part
counts before a missing field, and of two missing fields the one declared first counts. -/
def seq {α β : Type} : Outcome (α → β) → Outcome α → Outcome β
  | value f, o => o.map f
  | missing _, wrong position fault => wrong position fault
  | missing fault, _ => missing fault
  | wrong position fault, wrong position' fault' =>
    if position' < position then wrong position' fault' else wrong position fault
  | wrong position fault, _ => wrong position fault

instance : Applicative Outcome where
  pure := value
  map := map
  seq f x := seq f (x ())

/-- The outcome when a part at a position is wrong besides. -/
def besides {α : Type} : Option (Nat × Fault) → Outcome α → Outcome α
  | none, o => o
  | some (position, fault), wrong position' fault' =>
    if position' < position then wrong position' fault' else wrong position fault
  | some (position, fault), _ => wrong position fault

/-- The result of decoding a whole record. -/
def result {α : Type} : Outcome α → Except Fault α
  | value a => .ok a
  | missing fault => .error fault
  | wrong _ fault => .error fault

end Outcome

/-- The parts of a record: in declared order, or under names in any order. -/
inductive Parts where
  | positional (items : List Document) (closed : Bool)
  | named (members : List (Option String × Document)) (closed : Bool)

/-- A record that is being decoded: its parts, the names of its fields in declared order, and the
words for a sequence of the right length. -/
structure Record where
  origin : Origin
  fields : List String
  described : String
  parts : Parts

namespace Record

/-- The first member of a name, with its position. -/
def locate? (name : String) (position : Nat) :
    List (Option String × Document) → Option (Nat × Document)
  | [] => none
  | (other, d) :: rest =>
    if other = some name then some (position, d) else locate? name (position + 1) rest

/-- A decoded part at a position. -/
def placed {α : Type} (position : Nat) : Except Fault α → Outcome α
  | .ok a => .value a
  | .error fault => .wrong position fault

/-- A field.  The value given for a missing one depends on whether the parts have names. -/
def fieldOr {α : Type} (r : Record) (name : String) (decode : Decoder α)
    (absentNamed absentPositional : Option α) : Outcome α :=
  match r.parts with
  | .named members _ =>
    match locate? name 0 members with
    | some (position, d) => placed position (decode r.origin d)
    | none =>
      match absentNamed with
      | some a => .value a
      | none => .missing (.missingField name)
  | .positional parts closed =>
    match parts[r.fields.idxOf name]? with
    | some d => placed (r.fields.idxOf name) (decode r.origin d)
    | none =>
      if closed then
        match absentPositional with
        | some a => .value a
        | none => .wrong parts.length (.invalidLength parts.length r.described)
      else .wrong parts.length .malformed

/-- A field that must be there. -/
def required {α : Type} (r : Record) (name : String) (decode : Decoder α) : Outcome α :=
  r.fieldOr name decode none none

/-- A field that may be null, or missing where fields have names. -/
def optional {α : Type} (r : Record) (name : String) (decode : Decoder α) : Outcome (Option α) :=
  r.fieldOr name (nullable decode) (some none) none

/-- A field with a value for when it is missing. -/
def withDefault {α : Type} (r : Record) (name : String) (decode : Decoder α) (absent : α) :
    Outcome α :=
  r.fieldOr name decode (some absent) (some absent)

/-- The first member that is wrong whatever its type: a known name that was there before, or text
that cannot be passed over; and the end of a record that is not closed. -/
def strayMember? (fields : List String) (closed : Bool) (position : Nat) (seen : List String) :
    List (Option String × Document) → Option (Nat × Fault)
  | [] => if closed then none else some (position, .malformed)
  | (none, _) :: _ => some (position, .malformed)
  | (some name, d) :: rest =>
    if name ∈ fields then
      if name ∈ seen then some (position, .duplicateField name)
      else strayMember? fields closed (position + 1) (name :: seen) rest
    else if d.isSkippable then strayMember? fields closed (position + 1) seen rest
    else some (position, .malformed)

/-- The fault of items behind the last field. -/
def surplus? (origin : Origin) (length : Nat) (expected : Nat) : Option Fault :=
  match origin with
  | .text => some .malformed
  | .value => some (.invalidLength length "fewer elements in array")
  | .kept =>
    some (.invalidLength length (Text.Numeral.decimal expected ++ " elements in sequence"))
  | .setting => none

/-- What is wrong with the parts beside the fields themselves. -/
def stray? (r : Record) : Option (Nat × Fault) :=
  match r.parts with
  | .named members closed => strayMember? r.fields closed 0 [] members
  | .positional parts closed =>
    if r.fields.length < parts.length then
      (surplus? r.origin parts.length r.fields.length).map fun fault ↦ (r.fields.length, fault)
    else if closed then none
    else some (parts.length, .malformed)

end Record

/-- The words for a number of elements. -/
def elements (n : Nat) : String :=
  if n = 1 then "1 element" else Text.Numeral.decimal n ++ " elements"

/-- The fields of a record, decoded by a function of the whole. -/
def fieldsOf {α : Type} (r : Record) (decode : Record → Outcome α) : Except Fault α :=
  ((decode r).besides r.stray?).result

/-- A record with a name and declared fields. -/
def record {α : Type} (name : String) (fields : List String) (decode : Record → Outcome α) :
    Decoder α := fun origin d ↦
  let described := "struct " ++ name ++ " with " ++ elements fields.length
  match d with
  | .object members closed => fieldsOf ⟨origin, fields, described, .named members closed⟩ decode
  | .array parts closed => fieldsOf ⟨origin, fields, described, .positional parts closed⟩ decode
  | .deep _ => .error .malformed
  | d => mistyped ("struct " ++ name) d

/-! ## Variants -/

/-- The variant of a name. -/
def variantOf {α : Type} (known : List (String × α)) (name : String) : Except Fault α :=
  match known.lookup name with
  | some a => .ok a
  | none => .error (.unknownVariant name (known.map (·.1)))

/-- Null, or what stands for it among kept fields. -/
def unit : Decoder Unit := fun origin d ↦
  match d, origin with
  | .null, _ => .ok ()
  | .object [] true, .kept => .ok ()
  | d, _ => mistyped "unit" d

/-- A variant without fields: its name, or an object that has the name as its only member. -/
def variant {α : Type} (known : List (String × α)) : Decoder α := fun origin d ↦
  match d with
  | .text name => variantOf known name
  | .object members closed =>
    match origin, members with
    | .text, [] => .error .malformed
    | .text, (none, _) :: _ => .error .malformed
    | .text, (some name, d) :: rest => do
      let a ← variantOf known name
      unit origin d
      if rest.isEmpty && closed then .ok a else .error .malformed
    | _, [(some name, d)] => do
      let a ← variantOf known name
      unit origin d
      return a
    | _, _ => .error .notSingle
  | d => if origin = .text then .error .malformed else mistyped "string or map" d

/-- The name in a tag. -/
def tagName (d : Document) : Except Fault String :=
  textAs "variant identifier" .text d

/-! ## Tagged variants -/

/-- A variant whose name is one of its fields: the fields besides it, and their decoder. -/
structure Tagged (α : Type) where
  name : String
  fields : List String
  decode : Record → Outcome α

/-- The variant that a tag names. -/
def Tagged.find {α : Type} (variants : List (Tagged α)) (name : String) :
    Except Fault (Tagged α) :=
  variantOf (variants.map fun v ↦ (v.name, v)) name

/-- What is wrong with the members of an object before its tag decides how to decode them: a tag
that is no known name or comes twice, and members that cannot be read. -/
def tagFault? {α : Type} (tag : String) (variants : List (Tagged α)) (closed seen : Bool) :
    List (Option String × Document) → Option Fault
  | [] => if closed then none else some .malformed
  | (none, _) :: _ => some .malformed
  | (some name, d) :: rest =>
    if name = tag then
      if seen then some (.duplicateField tag)
      else
        match tagName d >>= Tagged.find variants with
        | .error fault => some fault
        | .ok _ => tagFault? tag variants closed true rest
    else if d.value?.isSome then tagFault? tag variants closed seen rest
    else some .malformed

/-- What is wrong with the items of a sequence before its first one decides how to decode them. -/
def itemsFault? (closed : Bool) : List Document → Option Fault
  | [] => if closed then none else some .malformed
  | d :: rest => if d.value?.isSome then itemsFault? closed rest else some .malformed

/-- A value of one of several variants of a type, told by the field with the given name, or by the
first item of a sequence. -/
def tagged {α : Type} (typeName tag : String) (variants : List (Tagged α))
    (describe : Tagged α → String) : Decoder α := fun _ d ↦
  match d with
  | .object members closed =>
    match tagFault? tag variants closed false members with
    | some fault => .error fault
    | none =>
      match Record.locate? tag 0 members with
      | none => .error (.missingField tag)
      | some (_, d) => do
        let v ← Tagged.find variants (← tagName d)
        let others := members.filter fun m ↦ m.1 != some tag
        fieldsOf ⟨.kept, v.fields, describe v, .named others true⟩ v.decode
  | .array [] true => .error (.missingField tag)
  | .array [] false => .error .malformed
  | .array (first :: rest) closed => do
    let v ← Tagged.find variants (← tagName first)
    match itemsFault? closed rest with
    | some fault => .error fault
    | none => fieldsOf ⟨.kept, v.fields, describe v, .positional rest true⟩ v.decode
  | .deep _ => .error .malformed
  | d => mistyped ("internally tagged enum " ++ typeName) d

/-! ## Values and their types -/

/-- A type whose values travel as JSON. -/
class Wire (α : Type) where
  /-- The value that stands for a value of the type. -/
  encode : α → Json
  /-- The value of the type that a document stands for. -/
  decode : Decoder α

namespace Wire

variable {α : Type} [Wire α]

/-- The text of a value of the type. -/
def print (a : α) : String := (encode a).print

/-- A value of the type from what stands for it; members come in the order of their names. -/
def ofJson (v : Json) : Except Fault α := decode .value (Document.ofJson v.sorted)

/-- A value of the type from a value of a configuration. -/
def ofSetting (v : Json) : Except Fault α := decode .setting (Document.ofJson v)

/-- A value of the type from a document and whether more text follows it. -/
def ofDocument : Document × Bool → Except Fault α
  | (d, more) => do
    let a ← decode .text d
    if more then .error .malformed else .ok a

/-- A value of the type from text. -/
def ofText (s : String) : Except Fault α := ofDocument (readText s)

/-- A value of the type from the bytes of a text. -/
def ofBytes (b : Text.Bytes) : Except Fault α := ofDocument (readBytes b)

end Wire

/-- Members, without those that have no value. -/
def present (members : List (String × Option Json)) : Json :=
  .object (members.filterMap fun (name, value) ↦ value.map fun v ↦ (name, v))

end Json
end FirmwareLane
