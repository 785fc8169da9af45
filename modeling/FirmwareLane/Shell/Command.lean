import FirmwareLane.Shell.Text

/-!
# Commands of a shell

What a command line says: words with the expansions in them, redirections, and the ways to put
commands together.  An expansion may hold commands again.
-/

set_option autoImplicit false
namespace FirmwareLane
namespace Shell

/-- What an expansion does with the value of a parameter.  A mark tells whether a parameter that is
null counts as unset, or whether the longest text is meant. -/
inductive Operator where
  | value
  | length
  /-- Another text in the place of a parameter that is unset. -/
  | default (null : Bool)
  /-- Another text in the place of a parameter that is set. -/
  | alternative (null : Bool)
  /-- A value for a parameter that is unset. -/
  | assigned (null : Bool)
  /-- A failure if a parameter is unset. -/
  | required (null : Bool)
  | withoutStart (longest : Bool)
  | withoutEnd (longest : Bool)
  /-- Something that is no operator. -/
  | unknown
  deriving DecidableEq, Repr

/-- What a redirection does. -/
inductive RedirectKind where
  | input
  | output
  /-- The output replaces a file even if files are not to be replaced. -/
  | overwrite
  | append
  | readWrite
  /-- The descriptor becomes another name of the one that the word names. -/
  | duplicate
  /-- The lines that follow are the input. -/
  | here
  deriving DecidableEq, Repr

mutual

/-- A part of a word.  A quoted part is neither split nor matched against names of files. -/
inductive Part where
  | literal (quoted : Bool) (text : Chars)
  /-- The value of a parameter, on which an operator with an argument works. -/
  | parameter (quoted : Bool) (name : Chars) (operator : Operator) (argument : List Part)
  /-- The output of a command. -/
  | command (quoted : Bool) (body : Command)
  /-- The value of an expression. -/
  | arithmetic (quoted : Bool) (expression : List Part)

/-- A redirection of a descriptor. -/
inductive Redirect where
  | mk (descriptor : Nat) (kind : RedirectKind) (target : List Part)

/-- A command. -/
inductive Command where
  /-- Assignments, the words of a command and its redirections, written on a line. -/
  | simple (line : Nat) (assignments : List (Chars × List Part)) (words : List (List Part))
      (redirects : List Redirect)
  | redirected (line : Nat) (c : Command) (redirects : List Redirect)
  | pipe (parts : List Command)
  | negated (c : Command)
  | both (a b : Command)
  | either (a b : Command)
  | sequence (a b : Command)
  | background (c : Command)
  | subshell (c : Command)
  | conditional (condition yes no : Command)
  /-- Repeats a command while a condition holds, or until it does. -/
  | loop (until_ : Bool) (condition body : Command)
  /-- Repeats a command for every word, or for every positional parameter. -/
  | forEach (line : Nat) (name : Chars) (words : Option (List (List Part))) (body : Command)
  | select (line : Nat) (word : List Part) (arms : List (List (List Part) × Command))
  /-- Makes a function, written on a line. -/
  | define (line : Nat) (name : Chars) (body : Command)
  /-- Does nothing and succeeds. -/
  | nothing

end

instance : Inhabited Part := ⟨.literal false []⟩

instance : Inhabited Command := ⟨.nothing⟩

/-- A word of a command line. -/
abbrev Word := List Part

/-! ## Names -/

/-- Whether a name may begin with a character. -/
def isNameStart (c : Char) : Bool := c.isAlpha || c = '_'

/-- Whether a name may go on with a character. -/
def isNameChar (c : Char) : Bool := c.isAlphanum || c = '_'

/-- Whether a text is a name. -/
def isName : Chars → Bool
  | [] => false
  | c :: rest => isNameStart c && rest.all isNameChar

/-- The name at the front of a text, which may be empty, and the rest. -/
def takeName (s : Chars) : Chars × Chars :=
  match s with
  | c :: _ => if isNameStart c then (s.takeWhile isNameChar, s.dropWhile isNameChar) else ([], s)
  | [] => ([], [])

/-- The parameters that have a name of one character. -/
def isSpecial (c : Char) : Bool := "@*#?-$!".toList.contains c || c.isDigit

/-- The text of a word in which nothing is expanded, as it is without its quotation marks, and
whether some of it is quoted. -/
def plainText (w : Word) : Chars × Bool :=
  (w.flatMap fun
      | .literal _ text => text
      | _ => [],
    w.any fun
      | .literal quoted _ => quoted
      | _ => false)

/-- The name that a word assigns a value to, and the word for the value, if the word has the form of
an assignment. -/
def assignment? (w : Word) : Option (Chars × Word) :=
  match w with
  | .literal false text :: rest =>
    let (name, tail) := takeName text
    match tail with
    | '=' :: value => if name.isEmpty then none else some (name, .literal false value :: rest)
    | _ => none
  | _ => none

end Shell
end FirmwareLane
