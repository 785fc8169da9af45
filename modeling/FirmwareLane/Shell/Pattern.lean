import FirmwareLane.Shell.Text

/-!
# Patterns of a shell

Patterns that names are matched against: a star stands for any text, a question mark for any
character, and brackets for one of several.  A quoted character stands for itself.
-/

set_option autoImplicit false
namespace FirmwareLane
namespace Shell

/-- A text with a mark for every character that is quoted. -/
abbrev Marked := List (Char × Bool)

/-- A text all of whose characters are quoted, or none. -/
def Marked.ofChars (quoted : Bool) (s : Chars) : Marked := s.map fun c ↦ (c, quoted)

/-- The text without its marks. -/
def Marked.chars (s : Marked) : Chars := s.map (·.1)

/-- A set of characters: ranges and named classes, or everything but them. -/
structure CharSet where
  negated : Bool
  ranges : List (Char × Char)
  classes : List String
  deriving Repr, DecidableEq

/-- Whether a named class has a character. -/
def inClass (name : String) (c : Char) : Bool :=
  match name with
  | "alpha" => c.isAlpha
  | "digit" => c.isDigit
  | "alnum" => c.isAlphanum
  | "upper" => c.isUpper
  | "lower" => c.isLower
  | "space" => c = ' ' || (9 ≤ c.toNat && c.toNat ≤ 13)
  | "blank" => c = ' ' || c = '\t'
  | "punct" => 33 ≤ c.toNat && c.toNat ≤ 126 && !c.isAlphanum
  | "print" => 32 ≤ c.toNat && c.toNat ≤ 126
  | "graph" => 33 ≤ c.toNat && c.toNat ≤ 126
  | "cntrl" => c.toNat < 32 || c.toNat == 127
  | "xdigit" => c.isDigit || ('a' ≤ c && c ≤ 'f') || ('A' ≤ c && c ≤ 'F')
  | _ => false

/-- Whether a set has a character. -/
def CharSet.contains (set : CharSet) (c : Char) : Bool :=
  let isMember :=
    (set.ranges.any fun (a, b) ↦ a ≤ c && c ≤ b) || set.classes.any fun n ↦ inClass n c
  set.negated != isMember

/-- The members of a set up to its bracket, behind some members, and the rest; fuel for one step per
member.  A bracket that comes first is a member. -/
def setMembers : Nat → Bool → CharSet → Marked → Option (CharSet × Marked)
  | 0, _, _, _ => none
  | _, _, _, [] => none
  | fuel + 1, first, set, (c, quoted) :: rest =>
    if c = ']' && !quoted && !first then some (set, rest)
    else if c = '[' && !quoted && (rest.head?.map (·.1)) == some ':' then
      let name := (rest.drop 1).takeWhile fun d ↦ d.1 != ':'
      let tail := (rest.drop 1).drop (name.length + 2)
      setMembers fuel false
        { set with classes := set.classes ++ [String.ofList (Marked.chars name)] } tail
    else
      match rest with
      | ('-', false) :: (d, q) :: tail =>
        if d = ']' && !q then
          setMembers fuel false { set with ranges := set.ranges ++ [(c, c)] } rest
        else setMembers fuel false { set with ranges := set.ranges ++ [(c, d)] } tail
      | _ => setMembers fuel false { set with ranges := set.ranges ++ [(c, c)] } rest

/-- The set behind an opening bracket, and the rest, if the bracket is closed. -/
def readSet (s : Marked) : Option (CharSet × Marked) :=
  match s with
  | ('!', false) :: rest => setMembers (rest.length + 1) true ⟨true, [], []⟩ rest
  | ('^', false) :: rest => setMembers (rest.length + 1) true ⟨true, [], []⟩ rest
  | s => setMembers (s.length + 1) true ⟨false, [], []⟩ s

/-- An element of a pattern. -/
inductive Glob where
  | char (c : Char)
  | any
  | star
  | oneOf (set : CharSet)
  deriving Repr

/-- The elements of a pattern; fuel for one step per element. -/
def globOnto : Nat → Marked → List Glob
  | 0, _ => []
  | _, [] => []
  | fuel + 1, (c, quoted) :: rest =>
    if quoted then .char c :: globOnto fuel rest
    else if c = '*' then .star :: globOnto fuel rest
    else if c = '?' then .any :: globOnto fuel rest
    else if c = '[' then
      match readSet rest with
      | some (set, tail) => .oneOf set :: globOnto fuel tail
      | none => .char c :: globOnto fuel rest
    else if c = '\\' then
      match rest with
      | (d, _) :: tail => .char d :: globOnto fuel tail
      | [] => [.char c]
    else .char c :: globOnto fuel rest

/-- The elements of a pattern. -/
def glob (s : Marked) : List Glob := globOnto (s.length + 1) s

/-- Whether a pattern stands for more than one text. -/
def isPattern (s : Marked) : Bool :=
  (glob s).any fun
    | .char _ => false
    | _ => true

/-- Whether a text matches a pattern. -/
def globMatches : List Glob → Chars → Bool
  | [], s => s.isEmpty
  | .char d :: rest, s =>
    match s with
    | c :: tail => c == d && globMatches rest tail
    | [] => false
  | .any :: rest, s =>
    match s with
    | _ :: tail => globMatches rest tail
    | [] => false
  | .oneOf set :: rest, s =>
    match s with
    | c :: tail => set.contains c && globMatches rest tail
    | [] => false
  | .star :: rest, s =>
    rest.isEmpty || (List.range (s.length + 1)).any fun n ↦ globMatches rest (s.drop n)

/-- The text without the shortest or the longest beginning that matches a pattern. -/
def dropStart (longest : Bool) (p : List Glob) (s : Chars) : Chars :=
  let lengths := List.range (s.length + 1)
  let lengths := if longest then lengths.reverse else lengths
  match lengths.find? fun n ↦ globMatches p (s.take n) with
  | some n => s.drop n
  | none => s

/-- The text without the shortest or the longest end that matches a pattern. -/
def dropEnd (longest : Bool) (p : List Glob) (s : Chars) : Chars :=
  let lengths := List.range (s.length + 1)
  let lengths := if longest then lengths.reverse else lengths
  match lengths.find? fun n ↦ globMatches p (s.drop (s.length - n)) with
  | some n => s.take (s.length - n)
  | none => s

end Shell
end FirmwareLane
