import FirmwareLane.Text.Blank

/-!
# Paths as text

Paths of files below a root, as they are written in a snapshot: names joined by slashes.  A path is
brought into one form (`Path.normalize`), in which either separator is a slash and no part is empty
or stands for its own directory, and is checked to stay below the root (`Path.isContained`).  Where
it is joined to a directory, it is checked once more, by its components (`Path.belowOnly?`).

The main statement is that the form is reached in one step (`normalize_normalize`).
-/

set_option autoImplicit false
namespace FirmwareLane
namespace Path

/-! ## Parts -/

/-- The part that stands for the directory it is in. -/
def here : List Char := ['.']

/-- The part that stands for the directory above. -/
def above : List Char := ['.', '.']

/-- Whether a part goes anywhere. -/
def isProper (part : List Char) : Bool := !part.isEmpty && part != here

/-- The parts of a path that go anywhere. -/
def parts (path : List Char) : List (List Char) :=
  (Text.splitOn '/' path).filter isProper

/-- Parts joined by slashes. -/
def join : List (List Char) → List Char
  | [] => []
  | [part] => part
  | part :: rest => part ++ '/' :: join rest

/-! ## Components -/

/-- What a step along a path is. -/
inductive Component where
  /-- To the top of the tree; only in front. -/
  | root
  /-- To where one is; only in front, it is dropped anywhere else. -/
  | here
  /-- To the directory above. -/
  | above
  /-- To what has a name in the directory. -/
  | name (part : List Char)
  deriving DecidableEq, Repr

/-- Whether a component names something. -/
def Component.isName : Component → Bool
  | .name _ => true
  | _ => false

/-- The component that a part is. -/
def component (part : List Char) : Component := if part = above then .above else .name part

/-- The component in front of the parts of a path, if there is one. -/
def start (path : List Char) : List Component :=
  if path.head? = some '/' then [.root]
  else if (Text.splitOn '/' path).head? = some here then [.here]
  else []

/-- The components of a path. -/
def components (path : List Char) : List Component := start path ++ (parts path).map component

/-! ## The normal form -/

/-- A separator of either kind as a slash. -/
def slashed (c : Char) : Char := if c = '\\' then '/' else c

/-- The normal form of a path. -/
def normalChars (path : List Char) : List Char := join (parts (path.map slashed))

/-- The normal form of a path. -/
@[irreducible]
def normalize (path : String) : String := String.ofList (normalChars path.toList)

/-- Whether a path begins with a letter and a colon. -/
def hasDrive : List Char → Bool
  | c :: ':' :: _ => c.isAlpha
  | _ => false

/-- Whether a path in normal form stays below the root. -/
def containedChars (path : List Char) : Bool :=
  !path.isEmpty && path.head? != some '/' && !hasDrive path &&
    (Text.splitOn '/' path).all (· != above)

/-- Whether a path in normal form stays below the root. -/
@[irreducible]
def isContained (path : String) : Bool := containedChars path.toList

/-! ## Names -/

/-- What follows the last occurrence of a character, or the whole text. -/
def afterLast (mark : Char) (s : List Char) : List Char :=
  (s.reverse.takeWhile (· != mark)).reverse

/-- The name of a file in its directory. -/
def name (path : String) : String := String.ofList (afterLast '/' path.toList)

/-- The part that a path ends in, if the path names something in a directory. -/
def fileName? (path : List Char) : Option (List Char) :=
  (parts path).getLast?.filter (· != above)

/-- The text behind the last point of the name that a path ends in, in lower case; nothing if there
is no point. -/
def fileExtension (path : String) : String :=
  match fileName? path.toList with
  | none => ""
  | some name =>
    if name.contains '.' then String.ofList ((afterLast '.' name).map Char.toLower) else ""

/-- A path below a directory. -/
def below (directory path : String) : String :=
  if path.toList.head? = some '/' then path
  else if directory.toList.getLast? = some '/' ∨ directory.isEmpty then directory ++ path
  else directory ++ "/" ++ path

/-- A path below a directory, if all of its components are names. -/
def belowOnly? (directory path : String) : Option String :=
  if (components path.toList).all Component.isName then some (below directory path) else none

/-- The text without the separators, and the parts that go nowhere, that it ends in; one part at
the front is kept.  Fuel for one step per character. -/
def trimParts : Nat → List Char → List Char
  | 0, reversed => reversed
  | _, [] => []
  | _, [c] => [c]
  | fuel + 1, '/' :: rest => trimParts fuel rest
  | fuel + 1, '.' :: '/' :: rest => trimParts fuel ('/' :: rest)
  | _, reversed => reversed

/-- The directory that a path names something in. -/
def parent? (path : String) : Option String :=
  let trimmed := trimParts path.length path.toList.reverse
  if trimmed.isEmpty ∨ trimmed = ['/'] then none
  else
    let front := trimmed.dropWhile (· != '/')
    some (String.ofList (trimParts path.length front).reverse)

/-! ## The normal form is reached in one step -/

theorem splitOn_of_not_mem {c : Char} {s : List Char} (h : c ∉ s) : Text.splitOn c s = [s] := by
  induction s with
  | nil => rfl
  | cons d rest ih =>
    simp only [List.mem_cons, not_or] at h
    simp [Text.splitOn, Ne.symm h.1, ih h.2]

theorem splitOn_append {c : Char} {s t : List Char} (h : c ∉ s) :
    Text.splitOn c (s ++ c :: t) = s :: Text.splitOn c t := by
  induction s with
  | nil => simp [Text.splitOn]
  | cons d rest ih =>
    simp only [List.mem_cons, not_or] at h
    simp [Text.splitOn, Ne.symm h.1, ih h.2]

/-- Parts without a slash are found again in what they are joined to. -/
theorem splitOn_join {ps : List (List Char)} (h : ∀ p ∈ ps, '/' ∉ p) (hne : ps ≠ []) :
    Text.splitOn '/' (join ps) = ps := by
  induction ps with
  | nil => exact absurd rfl hne
  | cons p rest ih =>
    cases rest with
    | nil => simpa [join] using splitOn_of_not_mem (h p (by simp))
    | cons q more =>
      rw [join, splitOn_append (h p (by simp)), ih (fun r hr ↦ h r (by simp [hr])) (by simp)]
      simp

/-- No piece of a text cut at a character has the character in it. -/
theorem not_mem_of_mem_splitOn {c : Char} {s p : List Char} (h : p ∈ Text.splitOn c s) :
    c ∉ p := by
  induction s generalizing p with
  | nil => simp [Text.splitOn] at h; simp [h]
  | cons d rest ih =>
    simp only [Text.splitOn] at h
    split at h
    · rcases List.mem_cons.1 h with rfl | h
      · simp
      · exact ih h
    · rename_i hd
      split at h
      · rename_i heq
        exact absurd heq (Text.splitOn_ne_nil c rest)
      · rename_i piece more heq
        rcases List.mem_cons.1 h with rfl | h
        · simp only [List.mem_cons, not_or]
          exact ⟨fun h ↦ hd h.symm, ih (heq ▸ List.mem_cons_self)⟩
        · exact ih (heq ▸ List.mem_cons_of_mem _ h)

theorem parts_join {ps : List (List Char)} (h : ∀ p ∈ ps, '/' ∉ p)
    (hp : ∀ p ∈ ps, isProper p = true) : parts (join ps) = ps := by
  cases ps with
  | nil => rfl
  | cons p rest => rw [parts, splitOn_join h (by simp), List.filter_eq_self.2 hp]

theorem slashed_ne (c : Char) : slashed c ≠ '\\' := by
  unfold slashed
  split
  · decide
  · assumption

theorem mem_join {ps : List (List Char)} {c : Char} (h : c ∈ join ps) :
    c = '/' ∨ ∃ p ∈ ps, c ∈ p := by
  induction ps with
  | nil => simp [join] at h
  | cons p rest ih =>
    cases rest with
    | nil => exact .inr ⟨p, by simp, by simpa [join] using h⟩
    | cons q more =>
      simp only [join, List.mem_append, List.mem_cons] at h
      rcases h with h | h | h
      · exact .inr ⟨p, by simp, h⟩
      · exact .inl h
      · rcases ih h with h | ⟨r, hr, hc⟩
        · exact .inl h
        · exact .inr ⟨r, by simp [hr], hc⟩

theorem mem_of_mem_splitOn {c : Char} {s p : List Char} {d : Char} (h : p ∈ Text.splitOn c s)
    (hd : d ∈ p) : d ∈ s := by
  induction s generalizing p with
  | nil => simp [Text.splitOn] at h; simp [h] at hd
  | cons e rest ih =>
    simp only [Text.splitOn] at h
    split at h
    · rcases List.mem_cons.1 h with rfl | h
      · simp at hd
      · exact List.mem_cons_of_mem _ (ih h hd)
    · split at h
      · rename_i heq
        exact absurd heq (Text.splitOn_ne_nil c rest)
      · rename_i piece more heq
        rcases List.mem_cons.1 h with rfl | h
        · rcases List.mem_cons.1 hd with rfl | hd
          · exact List.mem_cons_self
          · exact List.mem_cons_of_mem _ (ih (heq ▸ List.mem_cons_self) hd)
        · exact List.mem_cons_of_mem _ (ih (heq ▸ List.mem_cons_of_mem _ h) hd)

theorem backslash_not_mem_normalChars (path : List Char) : '\\' ∉ normalChars path := by
  intro h
  rcases mem_join h with h | ⟨p, hp, hc⟩
  · exact absurd h (by decide)
  · have := mem_of_mem_splitOn (List.mem_filter.1 hp).1 hc
    obtain ⟨d, -, hd⟩ := List.mem_map.1 this
    exact slashed_ne d hd

theorem map_slashed_of_not_mem {s : List Char} (h : '\\' ∉ s) : s.map slashed = s := by
  refine (List.map_congr_left fun c hc ↦ ?_).trans (List.map_id s)
  have : c ≠ '\\' := fun e ↦ h (e ▸ hc)
  simp [slashed, this]

/-- **The parts of a normal form are the parts it was made of.** -/
theorem parts_normalChars (path : List Char) :
    parts (normalChars path) = parts (path.map slashed) :=
  parts_join (fun _ hp ↦ not_mem_of_mem_splitOn (List.mem_filter.1 hp).1)
    (fun _ hp ↦ (List.mem_filter.1 hp).2)

theorem normalChars_normalChars (path : List Char) :
    normalChars (normalChars path) = normalChars path := by
  conv => lhs; rw [normalChars, map_slashed_of_not_mem (backslash_not_mem_normalChars path),
    parts_normalChars]
  rfl

/-- **The normal form of a normal form is itself.** -/
theorem normalize_normalize (path : String) : normalize (normalize path) = normalize path := by
  simp [normalize, normalChars_normalChars]

end Path
end FirmwareLane
