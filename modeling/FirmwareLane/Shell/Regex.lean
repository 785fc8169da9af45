import FirmwareLane.Shell.Pattern

/-!
# Regular expressions

The regular expressions of tools that search text, in their basic and in their extended notation.  Of
all matches the first one counts, and of those that begin there the longest.

The ends of the matches that begin at a position are found for all positions of a set at once, so that
repetitions cost no more than the text is long.  What the groups of a match hold is found afterwards,
by trying the longer repetitions first.
-/

set_option autoImplicit false
namespace FirmwareLane
namespace Shell

/-- A position that an expression can ask for. -/
inductive Anchor where
  | start
  | finish
  /-- A position between a character of a word and another one, or one that is not. -/
  | wordEdge
  | noWordEdge
  | wordStart
  | wordEnd
  deriving DecidableEq, Repr

/-- A regular expression. -/
inductive Regex where
  | empty
  | char (c : Char)
  | any
  | oneOf (set : CharSet)
  | anchor (a : Anchor)
  | sequence (a b : Regex)
  | either (a b : Regex)
  /-- From so many to so many repetitions. -/
  | repeated (a : Regex) (least : Nat) (most : Option Nat)
  | group (number : Nat) (a : Regex)
  /-- The text that a group matched. -/
  | same (number : Nat)
  deriving Repr, Inhabited

/-- Why a text is no regular expression. -/
inductive RegexFault where
  | invalid
  | unmatchedBracket
  | unmatchedOpening
  | unmatchedClosing
  | unmatchedBrace
  | badBraces
  | badRepetition
  | trailingBackslash
  | badReference
  | badRange
  | badClass
  | tooBig
  /-- A class without the brackets around it. -/
  | bareClass
  deriving DecidableEq, Repr

/-- The wording of a fault. -/
def RegexFault.message : RegexFault → String
  | .invalid => "Invalid regular expression"
  | .unmatchedBracket => "Unmatched [, [^, [:, [., or [="
  | .unmatchedOpening => "Unmatched ( or \\("
  | .unmatchedClosing => "Unmatched ) or \\)"
  | .unmatchedBrace => "Unmatched \\\x7b"
  | .badBraces => "Invalid content of \\\x7b\\\x7d"
  | .badRepetition => "Invalid preceding regular expression"
  | .trailingBackslash => "Trailing backslash"
  | .badReference => "Invalid back reference"
  | .badRange => "Invalid range end"
  | .badClass => "Invalid character class name"
  | .tooBig => "Regular expression too big"
  | .bareClass => "character class syntax is [[:space:]], not [:space:]"

namespace Regex

/-! ## Reading -/

/-- A notation of expressions. -/
structure Notation where
  /-- Whether the marks of groups, alternatives and repetitions are not escaped. -/
  extended : Bool
  /-- Whether marks that make no sense stand for themselves or are passed over. -/
  lenient : Bool

/-- Whether a special mark stands at the front: a character that is escaped in one notation and not
in the other. -/
def mark? (extended : Bool) (c : Char) (s : Chars) : Option Chars :=
  match s with
  | '\\' :: d :: rest => if !extended && d == c then some rest else none
  | d :: rest => if extended && d == c then some rest else none
  | [] => none

/-- The greatest number of repetitions that can be asked for. -/
def greatestRepetition : Nat := 32767

/-- The bounds of a repetition behind its brace, and what follows them. -/
def bounds (extended : Bool) (s : Chars) :
    Except RegexFault (Nat × Option Nat × Chars) := do
  let first := s.takeWhile Char.isDigit
  let rest := s.drop first.length
  let close (rest : Chars) : Except RegexFault Chars :=
    match mark? extended '\x7d' rest, rest with
    | some tail, _ => .ok tail
    | none, [] => .error .unmatchedBrace
    | none, _ => .error .badBraces
  let (least, most, tail) ← match rest with
    | ',' :: rest => do
      let second := rest.takeWhile Char.isDigit
      let tail ← close (rest.drop second.length)
      pure ((number? first).getD 0, number? second, tail)
    | rest =>
      match number? first with
      | some n => do pure (n, some n, ← close rest)
      | none => throw (if rest.isEmpty then .unmatchedBrace else .badBraces)
  if most.any fun n ↦ n < least then throw .badBraces
  if greatestRepetition < max least (most.getD 0) then throw .tooBig
  return (least, most, tail)

/-- The names of classes of characters. -/
def classNames : List String :=
  ["alnum", "alpha", "blank", "cntrl", "digit", "graph", "lower", "print", "punct", "space",
   "upper", "xdigit"]

/-- The character that a member of a set begins with, and the rest. -/
def member (s : Chars) : Except RegexFault (Char × Chars) :=
  match s with
  | '[' :: '.' :: c :: '.' :: ']' :: rest => .ok (c, rest)
  | '[' :: '=' :: c :: '=' :: ']' :: rest => .ok (c, rest)
  | c :: rest => .ok (c, rest)
  | [] => .error .unmatchedBracket

mutual

/-- The members of a set up to its bracket, behind some members, and the rest; fuel for two steps per
member.  A bracket that comes first is a member. -/
def members : Nat → Bool → CharSet → Chars → Except RegexFault (CharSet × Chars)
  | 0, _, _, _ => .error .unmatchedBracket
  | _, _, _, [] => .error .unmatchedBracket
  | fuel + 1, _, set, '[' :: ':' :: rest =>
    let name := rest.takeWhile (· != ':')
    match rest.drop name.length with
    | ':' :: ']' :: rest =>
      if classNames.contains (String.ofList name) then
        members fuel false { set with classes := set.classes ++ [String.ofList name] } rest
      else .error .badClass
    | _ => .error .unmatchedBracket
  | fuel + 1, first, set, ']' :: rest =>
    if first then memberRange fuel set (']' :: rest) else .ok (set, rest)
  | fuel + 1, _, set, s => memberRange fuel set s

/-- A character or a range of characters, and the members behind it. -/
def memberRange : Nat → CharSet → Chars → Except RegexFault (CharSet × Chars)
  | 0, _, _ => .error .unmatchedBracket
  | fuel + 1, set, s => do
    let (c, rest) ← member s
    let single := members fuel false { set with ranges := set.ranges ++ [(c, c)] } rest
    match rest with
    | '-' :: ']' :: _ => single
    | '-' :: rest =>
      let (d, rest) ← member rest
      let isLonger := match rest with
        | '-' :: e :: _ => e != ']'
        | _ => false
      if d < c || isLonger then throw .badRange
      members fuel false { set with ranges := set.ranges ++ [(c, d)] } rest
    | _ => single

end

/-- The set behind an opening bracket, and the rest. -/
def bracket (s : Chars) : Except RegexFault (CharSet × Chars) :=
  match s with
  | [] => .error .invalid
  | ['^'] => .error .invalid
  | '^' :: rest => members (2 * rest.length + 2) true ⟨true, [], []⟩ rest
  | ':' :: rest =>
    match members (2 * s.length + 2) true ⟨false, [], []⟩ s with
    | .ok (set, tail) =>
      if (rest.take (rest.length - tail.length)).dropLast.getLast? = some ':' && 1 < rest.length
      then .error .bareClass else .ok (set, tail)
    | .error fault => .error fault
  | s => members (2 * s.length + 2) true ⟨false, [], []⟩ s

/-- Whether an expression is a repetition. -/
def isRepeated : Regex → Bool
  | .repeated .. => true
  | _ => false

/-- The expression with the repetitions behind it; fuel for one step per repetition. -/
def repetitions (n : Notation) : Nat → Regex → Chars → Except RegexFault (Regex × Chars)
  | 0, r, s => .ok (r, s)
  | fuel + 1, r, s => do
    if r.isRepeated && !n.extended && !n.lenient &&
        (s.head? == some '*' || (mark? false '\x7b' s).isSome) then
      throw .badRepetition
    match s with
    | '*' :: rest => repetitions n fuel (.repeated r 0 none) rest
    | s =>
      match mark? n.extended '+' s, mark? n.extended '?' s, mark? n.extended '\x7b' s with
      | some rest, _, _ => repetitions n fuel (.repeated r 1 none) rest
      | _, some rest, _ => repetitions n fuel (.repeated r 0 (some 1)) rest
      | _, _, some rest =>
        match bounds n.extended rest with
        | .ok (least, most, rest) => repetitions n fuel (.repeated r least most) rest
        | .error fault =>
          let isText := n.lenient && n.extended &&
            (fault = .unmatchedBrace || (fault = .badBraces && !(rest.head?.any Char.isDigit)))
          if isText then return (r, s) else throw fault
      | none, none, none => return (r, s)

/-- Whether a text begins with the mark of a repetition. -/
def repeats (n : Notation) (s : Chars) : Bool :=
  s.head? == some '*' ||
    (n.extended && (s.head?.any fun c ↦ c = '+' || c = '?' || c = '\x7b'))

/-- An element that is written with a backslash before a character. -/
def escaped (groups : List Nat) (c : Char) : Except RegexFault Regex :=
  let word : CharSet := ⟨false, [('_', '_')], ["alnum"]⟩
  let space : CharSet := ⟨false, [], ["space"]⟩
  if c.isDigit && c != '0' then
    if groups.contains (c.toNat - 48) then .ok (.same (c.toNat - 48)) else .error .badReference
  else
    .ok <| match c with
      | 'w' => .oneOf word
      | 'W' => .oneOf { word with negated := true }
      | 's' => .oneOf space
      | 'S' => .oneOf { space with negated := true }
      | 'b' => .anchor .wordEdge
      | 'B' => .anchor .noWordEdge
      | '<' => .anchor .wordStart
      | '>' => .anchor .wordEnd
      | '\x60' => .anchor .start
      | '\'' => .anchor .finish
      | c => .char c

mutual

/-- Alternatives, the number of groups in and before them, and the rest; `depth` groups are open. -/
def alternatives (n : Notation) (depth : Nat) : Nat → Nat → List Nat → Chars →
    Except RegexFault (Regex × Nat × List Nat × Chars)
  | 0, _, _, _ => .error .tooBig
  | fuel + 1, count, closed, s => do
    let (first, count, closed, rest) ← sequenceOf n depth fuel count closed .empty true s
    match mark? n.extended '|' rest with
    | some rest => do
      let (second, count, closed, rest) ← alternatives n depth fuel count closed rest
      return (.either first second, count, closed, rest)
    | none => return (first, count, closed, rest)

/-- A sequence behind what is read of it. -/
def sequenceOf (n : Notation) (depth : Nat) : Nat → Nat → List Nat → Regex → Bool → Chars →
    Except RegexFault (Regex × Nat × List Nat × Chars)
  | 0, _, _, _, _, _ => .error .tooBig
  | fuel + 1, count, closed, before, atStart, s => do
    let closes := (mark? n.extended ')' s).isSome
    if s.isEmpty || (mark? n.extended '|' s).isSome || (closes && 0 < depth) then
      return (before, count, closed, s)
    else if closes && !(n.extended && n.lenient) then throw .unmatchedClosing
    else if atStart && n.extended && repeats n s then
      let tail := match s with
        | '\x7b' :: rest =>
          match bounds true rest with
          | .ok (_, _, tail) => tail
          | .error _ => rest
        | s => s.drop 1
      if n.lenient then sequenceOf n depth fuel count closed before true tail
      else throw .badRepetition
    else
      let (r, count, closed, rest) ← atom n depth fuel count closed atStart s
      let isAnchor := match r with
        | .anchor .start => true
        | _ => false
      let (r, rest) ← if isAnchor then pure (r, rest)
        else repetitions n (rest.length + 1) r rest
      let atStart := isAnchor && n.extended
      sequenceOf n depth fuel count closed (.sequence before r) atStart rest

/-- One element, the number of groups in and before it, and the rest. -/
def atom (n : Notation) (depth : Nat) : Nat → Nat → List Nat → Bool → Chars →
    Except RegexFault (Regex × Nat × List Nat × Chars)
  | 0, _, _, _, _ => .error .tooBig
  | fuel + 1, count, closed, atStart, s => do
    match mark? n.extended '(' s with
    | some rest => do
      let (r, inner, closed, rest) ← alternatives n (depth + 1) fuel (count + 1) closed rest
      match mark? n.extended ')' rest with
      | some rest => return (.group (count + 1) r, inner, (count + 1) :: closed, rest)
      | none => throw .unmatchedOpening
    | none =>
      match s with
      | [] => return (.empty, count, closed, [])
      | ['\\'] => throw .trailingBackslash
      | '\\' :: c :: rest => do return (← escaped closed c, count, closed, rest)
      | '[' :: rest => do
        let (set, tail) ← bracket rest
        return (.oneOf set, count, closed, tail)
      | c :: rest =>
        let isEnd := rest.isEmpty || (mark? n.extended ')' rest).isSome ||
          (mark? n.extended '|' rest).isSome
        let r : Regex :=
          if c = '.' then .any
          else if c = '^' && (n.extended || atStart) then .anchor .start
          else if c = '$' && (n.extended || isEnd) then .anchor .finish
          else .char c
        return (r, count, closed, rest)

end

/-- The expression that a text stands for. -/
def read (n : Notation) (s : Chars) : Except RegexFault Regex := do
  let (r, _, _, _) ← alternatives n 0 (8 * s.length + 16) 0 [] s
  return r

/-! ## Matching -/

/-- The text that is searched. -/
structure Subject where
  text : Array Char
  /-- Whether case is set aside. -/
  ignoreCase : Bool
  /-- Whether every line of the text has a start and an end. -/
  byLine : Bool

namespace Subject

/-- Whether the character at a position belongs to words. -/
def isWord (x : Subject) (i : Nat) : Bool := (x.text[i]?).any fun c ↦ c.isAlphanum || c = '_'

/-- Whether a position is what an anchor asks for. -/
def holds (x : Subject) (a : Anchor) (i : Nat) : Bool :=
  let before := 0 < i && x.isWord (i - 1)
  let behind := x.isWord i
  match a with
  | .start => i = 0 || (x.byLine && x.text[i - 1]? == some '\n')
  | .finish => i = x.text.size || (x.byLine && x.text[i]? == some '\n')
  | .wordEdge => before != behind
  | .noWordEdge => before == behind
  | .wordStart => !before && behind
  | .wordEnd => before && !behind

/-- Whether the character at a position is one that a test allows, case perhaps set aside. -/
def allows (x : Subject) (test : Char → Bool) (i : Nat) : Bool :=
  (x.text[i]?).any fun c ↦
    test c || (x.ignoreCase && (test c.toLower || test c.toUpper))

end Subject

/-- The test for the one character that an expression matches, if it is such an expression. -/
def test? : Regex → Option (Char → Bool)
  | .char c => some (· == c)
  | .any => some fun _ ↦ true
  | .oneOf set => some set.contains
  | _ => none

/-- The union of two sets of positions in their order. -/
def union : List Nat → List Nat → List Nat
  | [], q => q
  | p, [] => p
  | x :: p, y :: q =>
    if x < y then x :: union p (y :: q)
    else if y < x then y :: union (x :: p) q
    else x :: union p q
termination_by p q => p.length + q.length

/-- The positions of a set that another one does not have, both in their order. -/
def difference : List Nat → List Nat → List Nat
  | [], _ => []
  | p, [] => p
  | x :: p, y :: q =>
    if x < y then x :: difference p (y :: q)
    else if y < x then difference (x :: p) q
    else difference p q
termination_by p q => p.length + q.length

/-- The positions that are reached from a set by any number of steps; fuel for one round of steps per
position. -/
def closure (next : List Nat → List Nat) : Nat → List Nat → List Nat → List Nat
  | 0, found, _ => found
  | fuel + 1, found, frontier =>
    match difference (next frontier) found with
    | [] => found
    | new => closure next fuel (union found new) new

/-- The positions that are reached by so many rounds of steps at most. -/
def upTo (next : List Nat → List Nat) : Nat → List Nat → List Nat → List Nat
  | 0, found, _ => found
  | n + 1, found, frontier =>
    match difference (next frontier) found with
    | [] => found
    | new => upTo next n (union found new) new

/-- All positions that are reached from positions in their order by passing characters that a test
allows, the ones so far in reverse; fuel for one step per position. -/
def run (allows : Nat → Bool) : Nat → List Nat → Option Nat → List Nat → List Nat
  | 0, done, _, _ => done.reverse
  | fuel + 1, done, current, starts =>
    match current, starts with
    | none, [] => done.reverse
    | none, p :: rest => run allows fuel (p :: done) (some p) rest
    | some i, starts =>
      if allows i then
        run allows fuel ((i + 1) :: done) (some (i + 1)) (starts.dropWhile (· ≤ i + 1))
      else run allows fuel done none (starts.dropWhile (· ≤ i))

/-- The ends of the matches that begin at positions of a set.  A group that has to be matched again is
not looked at. -/
def ends (x : Subject) : Regex → List Nat → List Nat
  | .empty, ps => ps
  | .char c, ps => (ps.filter (x.allows (· == c))).map (· + 1)
  | .any, ps => (ps.filter (· < x.text.size)).map (· + 1)
  | .oneOf set, ps => (ps.filter (x.allows set.contains)).map (· + 1)
  | .anchor a, ps => ps.filter (x.holds a)
  | .sequence a b, ps => ends x b (ends x a ps)
  | .either a b, ps => union (ends x a ps) (ends x b ps)
  | .repeated a least most, ps =>
    let start := (List.range least).foldl (fun ps _ ↦ ends x a ps) ps
    match most with
    | some n => upTo (ends x a) (n - least) start start
    | none =>
      match a.test? with
      | some test => run (x.allows test) (2 * x.text.size + 2 + 2 * start.length) [] none start
      | none => closure (ends x a) (x.text.size + 1) start start
  | .group _ a, ps => ends x a ps
  | .same _, ps => ps

/-- Whether an expression asks for the text of a group. -/
def refers : Regex → Bool
  | .same _ => true
  | .sequence a b => a.refers || b.refers
  | .either a b => a.refers || b.refers
  | .repeated a _ _ => a.refers
  | .group _ a => a.refers
  | _ => false

/-- Whether an expression has groups. -/
def hasGroups : Regex → Bool
  | .group _ _ => true
  | .same _ => true
  | .sequence a b => a.hasGroups || b.hasGroups
  | .either a b => a.hasGroups || b.hasGroups
  | .repeated a _ _ => a.hasGroups
  | _ => false

/-- The number of groups of an expression. -/
def groupCount : Regex → Nat
  | .group n a => max n a.groupCount
  | .sequence a b => max a.groupCount b.groupCount
  | .either a b => max a.groupCount b.groupCount
  | .repeated a _ _ => a.groupCount
  | _ => 0

/-- What groups matched, the last match of a group first: their numbers with where they begin and
end. -/
abbrev Groups := List (Nat × Nat × Nat)

/-- Whether the text between two positions stands at another one. -/
def repeatsAt (x : Subject) (first last at_ : Nat) : Bool :=
  (List.range (last - first)).all fun i ↦
    match x.text[first + i]?, x.text[at_ + i]? with
    | some c, some d => c == d || (x.ignoreCase && c.toLower == d.toLower)
    | _, _ => false

/-- What the groups of a match hold that goes on well; fuel bounds how deep the search goes. -/
def walk (x : Subject) : Nat → Regex → Nat → Groups → (Nat → Groups → Option Groups) →
    Option Groups
  | 0, _, _, _, _ => none
  | fuel + 1, r, i, groups, k =>
    match r with
    | .empty => k i groups
    | .char c => if x.allows (· == c) i then k (i + 1) groups else none
    | .any => if i < x.text.size then k (i + 1) groups else none
    | .oneOf set => if x.allows set.contains i then k (i + 1) groups else none
    | .anchor a => if x.holds a i then k i groups else none
    | .sequence a b => walk x fuel a i groups fun j groups ↦ walk x fuel b j groups k
    | .either a b =>
      match walk x fuel a i groups k with
      | some found => some found
      | none => walk x fuel b i groups k
    | .group n a => walk x fuel a i groups fun j groups ↦ k j ((n, i, j) :: groups)
    | .same n =>
      match groups.lookup n with
      | some (first, last) =>
        if repeatsAt x first last i then k (i + (last - first)) groups else none
      | none => none
    | .repeated a least most =>
      if most = some 0 then k i groups
      else
        let more := walk x fuel a i groups fun j groups ↦
          if j = i && least = 0 then none
          else walk x fuel (.repeated a (least - 1) (most.map (· - 1))) j groups k
        if 0 < least then more
        else
          match more with
          | some found => some found
          | none => k i groups

/-- How deep a search for groups goes at most. -/
def walkFuel (x : Subject) : Nat := 20 * x.text.size + 2000

/-- A match: where it begins and ends, and what its groups hold. -/
structure Match where
  first : Nat
  last : Nat
  groups : Groups

/-- What the groups of a match between two positions hold. -/
def groupsOf? (x : Subject) (r : Regex) (first last : Nat) : Option Groups :=
  if r.hasGroups then
    walk x (walkFuel x) r first [] fun j groups ↦ if j = last then some groups else none
  else some []

/-- The longest match at a position. -/
def matchAt? (x : Subject) (r : Regex) (first : Nat) : Option Match :=
  if r.refers then
    (List.range (x.text.size + 1 - first)).reverse.findSome? fun n ↦
      (groupsOf? x r first (first + n)).map (Match.mk first (first + n))
  else
    (ends x r [first]).getLast?.map fun last ↦ ⟨first, last, (groupsOf? x r first last).getD []⟩

/-- The first match from a position on; fuel for one step per position. -/
def searchFrom (x : Subject) (r : Regex) : Nat → Nat → Option Match
  | 0, _ => none
  | fuel + 1, i =>
    match matchAt? x r i with
    | some found => some found
    | none => searchFrom x r fuel (i + 1)

/-- The first match of a text from a position on. -/
def search? (x : Subject) (r : Regex) (first : Nat) : Option Match :=
  searchFrom x r (x.text.size + 1 - first) first

/-- Whether a text has a match. -/
def isIn (ignoreCase : Bool) (r : Regex) (text : Chars) : Bool :=
  (search? ⟨text.toArray, ignoreCase, false⟩ r 0).isSome

/-- The text between two positions. -/
def Subject.slice (x : Subject) (first last : Nat) : Chars := (x.text.extract first last).toList

/-- The text that a group of a match holds; the whole match if the number is zero. -/
def Match.text (x : Subject) (m : Match) (n : Nat) : Chars :=
  if n = 0 then x.slice m.first m.last
  else
    match m.groups.lookup n with
    | some (first, last) => x.slice first last
    | none => []

end Regex
end Shell
end FirmwareLane
