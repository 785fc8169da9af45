import FirmwareLane.Toml.Scalar

/-!
# Tables of TOML

A document is a table, and its lines say where in it a value stands or which table the lines after
them are about.  A table may be opened once by a header, may be opened implicitly by the header of a
table in it, and may be spread over dotted names; what was made in one of these ways is not added to
in another.

`Toml.parse?` gives the table of a document as an object.
-/

set_option autoImplicit false
namespace FirmwareLane
namespace Toml

/-- What stands under a name of a table. -/
inductive Item where
  | value (v : Json)
  /-- A table: whether only the name of a table in it brought it about, whether that was a dotted
  name, and its items. -/
  | table (implicit dotted : Bool) (items : List (String × Item))
  /-- Tables under one name, the last one first. -/
  | tables (elements : List (List (String × Item)))

/-- The items of a table by name, in the order in which they came. -/
abbrev Items := List (String × Item)

/-- The items with another one under a name. -/
def setItem (name : String) (item : Item) (items : Items) : Items :=
  if items.any (·.1 == name) then
    items.map fun (other, kept) ↦ if other = name then (other, item) else (other, kept)
  else items ++ [(name, item)]

/-- The items after a change of the table that a path of names leads to.  Tables that are not there
are made; the path may be dotted, and then leads only through tables that are implicit.  The change
is told whether the table was made by a dotted name. -/
def changeAt (dotted : Bool) (change : Bool → Items → Option Items) :
    List String → Bool → Items → Option Items
  | [], isDotted, items => change isDotted items
  | name :: path, _, items =>
    match items.lookup name with
    | none =>
      (changeAt dotted change path dotted []).map fun t ↦
        setItem name (.table true dotted t) items
    | some (.value _) => none
    | some (.tables []) => none
    | some (.tables (last :: earlier)) =>
      (changeAt dotted change path false last).map fun t ↦
        setItem name (.tables (t :: earlier)) items
    | some (.table implicit isDotted inner) =>
      if dotted && !implicit then none
      else
        (changeAt dotted change path isDotted inner).map fun t ↦
          setItem name (.table implicit isDotted t) items

/-- A new value under a name of a table that a path of names leads to. -/
def addValue (path : List String) (name : String) (item : Item) (isDotted : Bool) (items : Items) :
    Option Items :=
  changeAt true (fun isDotted items ↦
    if isDotted == path.isEmpty then none
    else if (items.lookup name).isSome then none
    else some (setItem name item items)) path isDotted items

/-- The items after the header of a table. -/
def openTable (path : List String) (name : String) (items : Items) : Option Items :=
  changeAt false (fun _ items ↦
    match items.lookup name with
    | none => some (setItem name (.table false false []) items)
    | some (.table true false inner) => some (setItem name (.table false false inner) items)
    | some _ => none) path false items

/-- The items after the header of one more table under a name. -/
def openElement (path : List String) (name : String) (items : Items) : Option Items :=
  changeAt false (fun _ items ↦
    match items.lookup name with
    | none => some (setItem name (.tables [[]]) items)
    | some (.tables elements) => some (setItem name (.tables ([] :: elements)) items)
    | some _ => none) path false items

mutual

/-- The value of an item. -/
def Item.toJson : Item → Json
  | .value v => v
  | .table _ _ items => .object (itemsToJson items)
  | .tables elements => .array (elementsToJson elements).reverse

/-- The values of items. -/
def itemsToJson : List (String × Item) → List (String × Json)
  | [] => []
  | (name, item) :: rest => (name, item.toJson) :: itemsToJson rest

/-- The values of tables. -/
def elementsToJson : List (List (String × Item)) → List Json
  | [] => []
  | items :: rest => .object (itemsToJson items) :: elementsToJson rest

end

/-! ## Names -/

/-- A name, with or without quotation marks. -/
def name? (s : List Char) : Option (String × List Char) :=
  match s with
  | '"' :: rest => basicText (rest.length + 1) [] rest
  | '\'' :: rest => literalText rest
  | s =>
    let bare := s.takeWhile isBare
    if bare.isEmpty then none else some (String.ofList bare, s.drop bare.length)

/-- Names joined by points, blanks allowed around each; fuel for one step per name. -/
def names? : Nat → List Char → Option (List String × List Char)
  | 0, _ => none
  | fuel + 1, s => do
    let (name, rest) ← name? (skipSpace s)
    match skipSpace rest with
    | '.' :: more => do
      let (names, tail) ← names? fuel more
      return (name :: names, tail)
    | tail => return ([name], tail)

/-- A dotted name: the path to a table, and the last name. -/
def dottedName? (s : List Char) : Option ((List String × String) × List Char) := do
  let (names, rest) ← names? (s.length + 1) s
  let last ← names.getLast?
  if 80 ≤ names.length then none else return ((names.dropLast, last), rest)

/-! ## Values -/

/-- What follows a comment, or the text if it begins with none. -/
def skipComment : List Char → List Char
  | '#' :: rest => rest.dropWhile isPlain
  | s => s

/-- What follows blanks, comments and line ends; fuel for one step per line. -/
def skipLines : Nat → List Char → List Char
  | 0, s => s
  | fuel + 1, s =>
    let rest := skipComment (skipSpace s)
    match newline? rest with
    | some tail => skipLines fuel tail
    | none => rest

/-- What follows blanks, comments and line ends. -/
def skipAll (s : List Char) : List Char := skipLines (s.length + 1) s

/-- The items of an array behind its opening bracket, given how to read one; fuel for one step per
item. -/
def arrayItems (value? : List Char → Option (Json × List Char)) :
    Nat → List Char → Option (List Json × List Char)
  | 0, _ => none
  | fuel + 1, s =>
    match skipAll s with
    | ']' :: rest => some ([], rest)
    | s => do
      let (v, rest) ← value? s
      match skipAll rest with
      | ',' :: more => do
        let (vs, tail) ← arrayItems value? fuel more
        return (v :: vs, tail)
      | ']' :: tail => return ([v], tail)
      | _ => none

/-- The members of a table on one line behind its opening brace, given how to read a value, added to
those already there; fuel for one step per member. -/
def inlineMembers (value? : List Char → Option (Json × List Char)) :
    Nat → Items → List Char → Option (Items × List Char)
  | 0, _, _ => none
  | fuel + 1, items, s => do
    let ((path, name), rest) ← dottedName? s
    let (v, rest) ← value? (skipSpace (← after? '=' rest))
    let items ← addValue path name (.value v) false items
    match skipSpace rest with
    | ',' :: more => inlineMembers value? fuel items more
    | '\x7d' :: tail => return (items, tail)
    | _ => none

/-- A value, with arrays and tables nested as deep as the fuel allows. -/
def value? : Nat → List Char → Option (Json × List Char)
  | 0, s => scalar? s
  | depth + 1, s =>
    match s with
    | '[' :: rest =>
      (arrayItems (value? depth) (rest.length + 1) rest).map fun (vs, tail) ↦ (.array vs, tail)
    | '\x7b' :: rest =>
      match skipSpace rest with
      | '\x7d' :: tail => some (.object [], tail)
      | rest =>
        (inlineMembers (value? depth) (rest.length + 1) [] rest).map fun (items, tail) ↦
          ((Item.table false false items).toJson, tail)
    | s => scalar? s

/-- The number of arrays and tables that may stand in each other. -/
def greatestDepth : Nat := 79

/-! ## Lines -/

/-- What follows the rest of a line that may hold a comment. -/
def lineEnd? (s : List Char) : Option (List Char) :=
  match skipComment (skipSpace s) with
  | [] => some []
  | rest => newline? rest

/-- The items of a document after its lines, with the path of the table that they are about; fuel
for one step per line. -/
def lines? : Nat → List String → Items → List Char → Option Items
  | 0, _, _, _ => none
  | fuel + 1, current, items, s =>
    match skipAll s with
    | [] => some items
    | '[' :: '[' :: rest => do
      let ((path, name), rest) ← dottedName? rest
      let rest ← lineEnd? (← after? ']' (← after? ']' rest))
      lines? fuel (path ++ [name]) (← openElement path name items) rest
    | '[' :: rest => do
      let ((path, name), rest) ← dottedName? rest
      let rest ← lineEnd? (← after? ']' rest)
      lines? fuel (path ++ [name]) (← openTable path name items) rest
    | s => do
      let ((path, name), rest) ← dottedName? s
      let (v, rest) ← value? greatestDepth (skipSpace (← after? '=' rest))
      let rest ← lineEnd? rest
      let items ← changeAt false (addValue path name (.value v)) current false items
      lines? fuel current items rest

/-- The text without the mark of its encoding. -/
def unmarked : List Char → List Char
  | '\uFEFF' :: rest => rest
  | s => s

/-- The table of a document. -/
def parse? (document : String) : Option Json := do
  let s := unmarked document.toList
  let items ← lines? (s.length + 1) [] [] s
  return (Item.table false false items).toJson

end Toml
end FirmwareLane
