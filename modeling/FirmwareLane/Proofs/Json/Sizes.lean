import FirmwareLane.Json.Reader
import FirmwareLane.Proofs.Json.Sorting

/-!
# Reading makes nothing larger

The size of a document counts its parts and the characters of its texts.  A text cannot hold more of
them than it has characters itself: a token takes at least as many as it is large (`size_scan`), the
reader puts no more into a document than the tokens bring (`size_build`), and telling the value of a
document or sorting it adds nothing.
-/

set_option autoImplicit false
namespace FirmwareLane

open Text (Glyph)

/-! ## Sizes -/

mutual

/-- The number of parts of a value, and of characters of the texts that are not names. -/
def Json.size : Json → Nat
  | .text s => s.length + 1
  | .array items => Json.sizes items + 1
  | .object members => Json.memberSizes members + 1
  | _ => 1

/-- The sizes of items together. -/
def Json.sizes : List Json → Nat
  | [] => 0
  | item :: rest => item.size + Json.sizes rest

/-- The sizes of members together. -/
def Json.memberSizes : List (String × Json) → Nat
  | [] => 0
  | (_, value) :: rest => value.size + Json.memberSizes rest

end

mutual

/-- The number of parts of a document, and of characters of the texts that are not names. -/
def Document.size : Document → Nat
  | .text s => s.length + 1
  | .array items _ => Document.sizes items + 1
  | .object members _ => Document.memberSizes members + 1
  | .deep inner => inner.size
  | _ => 1

/-- The sizes of items together. -/
def Document.sizes : List Document → Nat
  | [] => 0
  | item :: rest => item.size + Document.sizes rest

/-- The sizes of members together. -/
def Document.memberSizes : List (Option String × Document) → Nat
  | [] => 0
  | (_, value) :: rest => value.size + Document.memberSizes rest

end

namespace Json

/-! ## Tokens -/

namespace Token

/-- The number of characters that a token has at least. -/
def size : Token → Nat
  | .text (some s) => s.length + 1
  | _ => 1

theorem length_digits (s : List Glyph) : (digits s).1.length + (digits s).2.length = s.length := by
  fun_induction digits s with
  | case1 c rest hc ds tail htail ih =>
    rw [htail] at ih
    simp only [List.length_cons] at ih ⊢
    omega
  | case2 c rest hc => simp
  | case3 s h => simp

theorem length_exponent? {s tail : List Glyph} {e : Option (Bool × List Nat)}
    (h : exponent? s = some (e, tail)) : tail.length ≤ s.length := by
  revert h
  -- behind the sign, the digits leave no more than they found
  fun_cases exponent? s <;> intro h <;> grind [length_digits]

theorem size_token (p : NumberParts) : p.token.size = 1 := by
  unfold NumberParts.token
  simp only
  split_ifs <;> first | rfl | (split <;> rfl)

theorem length_number? {negative : Bool} {s tail : List Glyph} {t : Token}
    (h : number? negative s = some (t, tail)) : t.size = 1 ∧ tail.length < s.length := by
  have hdigits := length_digits s
  rw [number?] at h
  generalize digits s = read at h hdigits
  obtain ⟨whole, rest⟩ := read
  simp only at h hdigits
  split at h
  · cases h
  · next hwhole =>
    have hpos : 0 < whole.length := by
      rw [List.length_pos_iff]
      exact fun heq ↦ hwhole (.inl (List.isEmpty_iff.2 heq))
    split at h
    · next rest =>
      have hfraction := length_digits rest
      generalize digits rest = read at h hfraction
      obtain ⟨fraction, more⟩ := read
      simp only at h hfraction
      split at h
      · cases h
      · obtain ⟨⟨e, last⟩, hexponent, heq⟩ := Option.map_eq_some_iff.1 h
        obtain ⟨rfl, rfl⟩ := Prod.mk.inj heq
        have hlast := length_exponent? hexponent
        rw [List.length_cons] at hdigits
        exact ⟨size_token _, show last.length < s.length by omega⟩
    · obtain ⟨⟨e, last⟩, hexponent, heq⟩ := Option.map_eq_some_iff.1 h
      obtain ⟨rfl, rfl⟩ := Prod.mk.inj heq
      have hlast := length_exponent? hexponent
      exact ⟨size_token _, show last.length < s.length by omega⟩

theorem length_hex4? {s rest : List Glyph} {n : Nat} (h : hex4? s = some (n, rest)) :
    s.length = rest.length + 4 := by
  unfold hex4? at h
  split at h
  · split at h
    · cases h; rfl
    · exact nomatch h
  · exact nomatch h

/-- What follows a piece, if it is one. -/
def Piece.rest? : Piece → Option (List Glyph)
  | .glyph _ rest => some rest
  | .finish rest => some rest
  | .fault => none

/-- A piece takes a character at least, and so does the mark at the end. -/
theorem length_piece {s rest : List Glyph} (h : (piece s).rest? = some rest) :
    rest.length < s.length := by
  revert h
  -- an escape of a character beyond the first plane takes four digits twice
  fun_cases piece s <;> intro h <;> cases h <;> grind [length_hex4?]

theorem length_quoted? {fuel : Nat} {done s reversed rest : List Glyph}
    (h : quoted? fuel done s = some (reversed, rest)) :
    reversed.length + rest.length < done.length + s.length := by
  induction fuel generalizing done s with
  | zero => cases h
  | succ fuel ih =>
    rw [quoted?] at h
    cases hpiece : piece s with
    | fault =>
      rw [hpiece] at h
      cases h
    | finish more =>
      have hlength := length_piece (congrArg Piece.rest? hpiece)
      rw [hpiece] at h
      cases h
      omega
    | glyph g more =>
      have hlength := length_piece (congrArg Piece.rest? hpiece)
      rw [hpiece] at h
      have hmore := ih h
      rw [List.length_cons] at hmore
      omega

theorem length_of_mapM_id {gs : List Glyph} {cs : List Char} (h : gs.mapM id = some cs) :
    cs.length = gs.length := by
  induction gs generalizing cs with
  | nil => cases h; rfl
  | cons g gs ih =>
    rw [List.mapM_cons] at h
    obtain ⟨c, -, h⟩ := Option.bind_eq_some_iff.1 h
    obtain ⟨rest, hrest, h⟩ := Option.bind_eq_some_iff.1 h
    cases h
    exact congrArg (· + 1) (ih hrest)

theorem size_ofGlyphs (reversed : List Glyph) : (ofGlyphs reversed).size ≤ reversed.length + 1 := by
  rw [ofGlyphs]
  cases h : reversed.reverse.mapM id with
  | none => exact Nat.le_add_left 1 _
  | some cs =>
    have hlength := length_of_mapM_id h
    rw [List.length_reverse] at hlength
    simp only [Option.map_some, size, String.length_ofList]
    omega

theorem length_dropWord? {word : List Char} {s rest : List Glyph}
    (h : dropWord? word s = some rest) : rest.length ≤ s.length := by
  induction word generalizing s with
  | nil => cases h; exact Nat.le_refl _
  | cons c word ih =>
    cases s with
    | nil => exact nomatch h
    | cons g s =>
      rw [dropWord?] at h
      split at h
      · exact Nat.le_succ_of_le (ih h)
      · exact nomatch h

theorem length_wordToken? {word : String} {t t' : Token} {s rest : List Glyph} (ht : t.size = 1)
    (h : wordToken? word t s = some (t', rest)) : t'.size + rest.length ≤ s.length + 1 := by
  obtain ⟨more, hmore, heq⟩ := Option.map_eq_some_iff.1 h
  obtain ⟨rfl, rfl⟩ := Prod.mk.inj heq
  have := length_dropWord? hmore
  omega

theorem length_mark {t t' : Token} {rest tail : List Glyph} (ht : t.size = 1)
    (h : some (t, rest) = some (t', tail)) : t'.size + tail.length ≤ rest.length + 1 := by
  cases h
  omega

theorem length_text {fuel : Nat} {rest tail : List Glyph} {t : Token}
    (h : ((quoted? fuel [] rest).map fun (reversed, tail) ↦ (ofGlyphs reversed, tail)) =
      some (t, tail)) : t.size + tail.length ≤ rest.length + 1 := by
  obtain ⟨⟨reversed, more⟩, hquoted, heq⟩ := Option.map_eq_some_iff.1 h
  obtain ⟨rfl, rfl⟩ := Prod.mk.inj heq
  have hlength := length_quoted? hquoted
  have hsize := size_ofGlyphs reversed
  simp only [List.length_nil] at hlength ⊢
  omega

/-- **A token takes as many characters as it is large.** -/
theorem length_next? {c : Char} {rest tail : List Glyph} {t : Token}
    (h : next? c rest = some (t, tail)) : t.size + tail.length ≤ rest.length + 1 := by
  revert h
  fun_cases next? c rest
  case case7 | case8 | case9 => exact length_wordToken? rfl
  case case10 => exact length_text
  case case11 =>
    intro h
    obtain ⟨hsize, hlength⟩ := length_number? h
    omega
  case case12 =>
    intro h
    obtain ⟨hsize, hlength⟩ := length_number? h
    rw [List.length_cons] at hlength
    omega
  case case13 => exact (nomatch ·)
  all_goals exact length_mark rfl

/-- The sizes of tokens together. -/
def sizes (ts : List Token) : Nat := (ts.map size).sum

theorem sizes_cons (t : Token) (ts : List Token) : sizes (t :: ts) = t.size + sizes ts := by
  rw [sizes, List.map_cons, List.sum_cons, sizes]

theorem sizes_scanWith (fuel : Nat) (s : List Glyph) : sizes (scanWith fuel s) ≤ s.length + 1 := by
  induction fuel generalizing s with
  | zero => exact Nat.le_add_left 1 _
  | succ fuel ih =>
    cases s with
    | nil => exact Nat.zero_le _
    | cons g rest =>
      cases g with
      | none => exact Nat.le_add_left 1 _
      | some c =>
        rw [scanWith]
        split
        · exact Nat.le_succ_of_le (ih rest)
        · split
          · exact Nat.le_add_left 1 _
          · next t tail heq =>
            have hlength := length_next? heq
            have hsizes := ih tail
            rw [sizes_cons, List.length_cons]
            omega

end Token

/-! ## Documents -/

theorem sizes_eq_sum (items : List Document) :
    Document.sizes items = (items.map Document.size).sum := by
  induction items with
  | nil => rfl
  | cons item items ih => rw [Document.sizes, ih, List.map_cons, List.sum_cons]

theorem memberSizes_eq_sum (members : List (Option String × Document)) :
    Document.memberSizes members = (members.map (·.2.size)).sum := by
  induction members with
  | nil => rfl
  | cons member members ih => rw [Document.memberSizes, ih, List.map_cons, List.sum_cons]

theorem sizes_reverse (items : List Document) :
    Document.sizes items.reverse = Document.sizes items := by
  rw [sizes_eq_sum, sizes_eq_sum, List.map_reverse, List.sum_reverse]

theorem memberSizes_reverse (members : List (Option String × Document)) :
    Document.memberSizes members.reverse = Document.memberSizes members := by
  rw [memberSizes_eq_sum, memberSizes_eq_sum, List.map_reverse, List.sum_reverse]

namespace Open

/-- The size of a container that is still open. -/
def size : Open → Nat
  | .array items => Document.sizes items + 1
  | .object members _ => Document.memberSizes members + 1

theorem size_document (depth : Nat) (closed : Bool) (container : Open) :
    (container.document depth closed).size = container.size := by
  cases container with
  | array items =>
    simp only [document]
    split
    · rw [Document.size, sizes_reverse, size]
    · rw [Document.size, Document.size, sizes_reverse, size]
  | object members name =>
    simp only [document]
    split
    · rw [Document.size, memberSizes_reverse, size]
    · rw [Document.size, Document.size, memberSizes_reverse, size]

theorem size_add (value : Document) (container : Open) :
    (container.add value).size ≤ container.size + value.size := by
  rcases container with items | ⟨members, _ | name⟩
  · simp only [add, size, Document.sizes]
    omega
  · exact Nat.le_add_right _ _
  · simp only [add, size, Document.memberSizes]
    omega

/-- The sizes of the containers that are open. -/
def sizes (stack : List Open) : Nat := (stack.map size).sum

theorem sizes_cons (container : Open) (stack : List Open) :
    sizes (container :: stack) = container.size + sizes stack := by
  rw [sizes, List.map_cons, List.sum_cons, sizes]

/-- Containers that are given up hold what they held, and perhaps a broken value. -/
theorem size_abandon (stack : List Open) (inner : Option Document) :
    (abandon stack inner).size ≤ sizes stack + inner.elim 1 Document.size := by
  induction stack generalizing inner with
  | nil =>
    cases inner with
    | none => exact Nat.le_refl 1
    | some d => exact Nat.le_add_left _ _
  | cons container rest ih =>
    rw [sizes_cons]
    cases inner with
    | some value =>
      have hrest := ih (some ((container.add value).document rest.length false))
      have hadd := size_add value container
      rw [Option.elim_some, size_document] at hrest
      rw [abandon, Option.elim_some]
      omega
    | none =>
      have hrest := fun container : Open ↦ ih (some (container.document rest.length false))
      simp only [Option.elim_some, size_document] at hrest
      rcases container with items | ⟨members, _ | name⟩
      · exact Nat.le_trans (hrest (.array items)) (by rw [Option.elim_none]; omega)
      · exact Nat.le_trans (hrest (.object members none)) (by rw [Option.elim_none]; omega)
      · refine Nat.le_trans (hrest (.object ((name, .broken) :: members) none)) ?_
        simp only [size, Document.memberSizes, Document.size, Option.elim_none]
        omega

end Open

/-- The size of what a step leaves: the open containers, or the document. -/
def Step.size : Step → Nat
  | .more stack _ => Open.sizes stack
  | .complete d => d.size
  | .broken => 0

theorem Step.size_give (value : Document) (stack : List Open) :
    (Step.give value stack).size ≤ Open.sizes stack + value.size := by
  cases stack with
  | nil => exact Nat.le_add_left _ _
  | cons container outer =>
    have hadd := Open.size_add value container
    rw [Step.give, Step.size, Open.sizes_cons, Open.sizes_cons]
    omega

theorem Step.size_close (stack : List Open) : (Step.close stack).size ≤ Open.sizes stack := by
  cases stack with
  | nil => exact Nat.zero_le _
  | cons container outer =>
    have hgive := Step.size_give (container.document outer.length true) outer
    rw [Open.size_document] at hgive
    rw [Step.close, Open.sizes_cons]
    omega

theorem Step.size_beginValue (stack : List Open) (t : Token) :
    (Step.beginValue stack t).size ≤ Open.sizes stack + t.size := by
  fun_cases Step.beginValue stack t
  case case1 | case2 =>
    simp only [Step.size, Open.sizes_cons, Open.size, Document.sizes, Document.memberSizes,
      Token.size]
    omega
  case case10 => exact Nat.zero_le _
  all_goals exact Step.size_give _ stack

theorem Step.size_beginMember (stack : List Open) (t : Token) :
    (Step.beginMember stack t).size ≤ Open.sizes stack := by
  fun_cases Step.beginMember stack t
  · simp only [Step.size, Open.sizes_cons, Open.size, Nat.le_refl]
  · exact Nat.zero_le _

theorem Step.size_separate (stack : List Open) (t : Token) :
    (Step.separate stack t).size ≤ Open.sizes stack := by
  fun_cases Step.separate stack t
  case case1 | case2 => simp only [Step.size, Open.sizes_cons, Open.size, Nat.le_refl]
  case case3 | case4 => exact Step.size_close _
  case case5 => exact Nat.zero_le _

/-- **A token adds no more than its size.** -/
theorem Step.size_of (stack : List Open) (expected : Expected) (t : Token) :
    (Step.of stack expected t).size ≤ Open.sizes stack + t.size := by
  have hvalue := Step.size_beginValue stack t
  have hmember := Step.size_beginMember stack t
  have hclose := Step.size_close stack
  cases expected with
  | value => exact hvalue
  | firstItem =>
    rw [Step.of]
    split <;> omega
  | firstMember =>
    rw [Step.of]
    split <;> omega
  | name => exact Nat.le_trans hmember (Nat.le_add_right _ _)
  | colon =>
    rw [Step.of]
    split
    · exact Nat.le_add_right _ _
    · exact Nat.zero_le _
  | separator => exact Nat.le_trans (Step.size_separate stack t) (Nat.le_add_right _ _)

/-- **A document is no larger than the tokens that it was built from.** -/
theorem size_build (stack : List Open) (expected : Expected) (ts : List Token) :
    (build stack expected ts).1.size ≤ Open.sizes stack + Token.sizes ts + 1 := by
  have habandon := fun stack ↦ Open.size_abandon stack none
  simp only [Option.elim_none] at habandon
  induction ts generalizing stack expected with
  | nil => exact habandon stack
  | cons t rest ih =>
    have hstep := Step.size_of stack expected t
    rw [Token.sizes_cons, build]
    cases hof : Step.of stack expected t with
    | more stack' expected' =>
      rw [hof] at hstep
      have hrest := ih stack' expected'
      simp only [Step.size] at hstep
      simp only
      omega
    | complete d =>
      rw [hof] at hstep
      simp only [Step.size] at hstep
      simp only
      omega
    | broken =>
      have hgiven := habandon stack
      simp only
      omega

/-- **A document is hardly larger than the text that it was read from.** -/
theorem size_readGlyphs (s : List Glyph) : (readGlyphs s).1.size ≤ s.length + 2 := by
  have hbuild := size_build [] .value (Token.scan s)
  have hscan := Token.sizes_scanWith (s.length + 1) s
  rw [readGlyphs]
  simp only [Open.sizes, List.map_nil, List.sum_nil, Token.scan] at hbuild ⊢
  omega

/-! ## Values -/

mutual

theorem size_ofJson : ∀ value : Json, (Document.ofJson value).size = value.size
  | .null => rfl
  | .bool _ => rfl
  | .integer _ => rfl
  | .float _ => rfl
  | .text _ => rfl
  | .array items => by rw [Document.ofJson, Document.size, Json.size, sizes_ofItems items]
  | .object members => by
    rw [Document.ofJson, Document.size, Json.size, memberSizes_ofMembers members]

theorem sizes_ofItems : ∀ items : List Json,
    Document.sizes (Document.ofItems items) = Json.sizes items
  | [] => rfl
  | item :: rest => by
    rw [Document.ofItems, Document.sizes, Json.sizes, size_ofJson item, sizes_ofItems rest]

theorem memberSizes_ofMembers : ∀ members : List (String × Json),
    Document.memberSizes (Document.ofMembers members) = Json.memberSizes members
  | [] => rfl
  | (_, value) :: rest => by
    rw [Document.ofMembers, Document.memberSizes, Json.memberSizes, size_ofJson value,
      memberSizes_ofMembers rest]

end

theorem memberSizes_insert (name : String) (value : Json) (members : List (String × Json)) :
    Json.memberSizes (Keyed.insert name value members) ≤ value.size + Json.memberSizes members := by
  induction members with
  | nil => exact Nat.le_refl _
  | cons member rest ih =>
    obtain ⟨other, kept⟩ := member
    rw [Keyed.insert]
    split
    · exact Nat.le_refl _
    · split
      · simp only [Json.memberSizes]
        omega
      · simp only [Json.memberSizes]
        omega

/-- Bringing members into order drops some at most. -/
theorem memberSizes_ofList (members : List (String × Json)) :
    Json.memberSizes (Keyed.ofList members) ≤ Json.memberSizes members := by
  suffices ∀ sorted : List (String × Json),
      Json.memberSizes (members.foldl (fun sorted (name, value) ↦ Keyed.insert name value sorted)
        sorted) ≤ Json.memberSizes sorted + Json.memberSizes members by
    simpa [Keyed.ofList, Json.memberSizes] using this []
  induction members with
  | nil => exact fun sorted ↦ Nat.le_add_right _ _
  | cons member rest ih =>
    intro sorted
    obtain ⟨name, value⟩ := member
    have hinsert := memberSizes_insert name value sorted
    have hrest := ih (Keyed.insert name value sorted)
    rw [List.foldl_cons]
    refine Nat.le_trans hrest ?_
    rw [Json.memberSizes]
    omega

mutual

theorem size_sorted : ∀ value : Json, value.sorted.size ≤ value.size
  | .null => Nat.le_refl _
  | .bool _ => Nat.le_refl _
  | .integer _ => Nat.le_refl _
  | .float _ => Nat.le_refl _
  | .text _ => Nat.le_refl _
  | .array items => by
    have hitems := sizes_sortedItems items
    rw [Json.sorted, Json.size, Json.size]
    omega
  | .object members => by
    have hlist := memberSizes_ofList (sortedValues members)
    have hvalues := memberSizes_sortedValues members
    rw [Json.sorted, Json.size, Json.size]
    omega

theorem sizes_sortedItems : ∀ items : List Json, Json.sizes (sortedItems items) ≤ Json.sizes items
  | [] => Nat.le_refl _
  | item :: rest => by
    have hitem := size_sorted item
    have hrest := sizes_sortedItems rest
    rw [sortedItems, Json.sizes, Json.sizes]
    omega

theorem memberSizes_sortedValues : ∀ members : List (String × Json),
    Json.memberSizes (sortedValues members) ≤ Json.memberSizes members
  | [] => Nat.le_refl _
  | (_, value) :: rest => by
    have hvalue := size_sorted value
    have hrest := memberSizes_sortedValues rest
    rw [sortedValues, Json.memberSizes, Json.memberSizes]
    omega

end

mutual

/-- **The value of a document is no larger than the document.** -/
theorem size_value? : ∀ {d : Document} {value : Json}, d.value? = some value →
    value.size ≤ d.size
  | .null, _, h => by cases h; exact Nat.le_refl _
  | .bool _, _, h => by cases h; exact Nat.le_refl _
  | .integer _, _, h => by cases h; exact Nat.le_refl _
  | .float _, _, h => by cases h; exact Nat.le_refl _
  | .text _, _, h => by cases h; exact Nat.le_refl _
  | .array items true, _, h => by
    rw [Document.value?] at h
    obtain ⟨values, hvalues, rfl⟩ := Option.map_eq_some_iff.1 h
    exact Nat.succ_le_succ (sizes_values? hvalues)
  | .object members true, _, h => by
    rw [Document.value?] at h
    obtain ⟨values, hvalues, rfl⟩ := Option.map_eq_some_iff.1 h
    exact Nat.succ_le_succ
      (Nat.le_trans (memberSizes_ofList values) (memberSizes_memberValues? hvalues))

theorem sizes_values? : ∀ {items : List Document} {values : List Json},
    Document.values? items = some values → Json.sizes values ≤ Document.sizes items
  | [], _, h => by cases h; exact Nat.le_refl _
  | item :: rest, _, h => by
    rw [Document.values?] at h
    split at h
    · next v vs hv hvs =>
      cases h
      exact Nat.add_le_add (size_value? hv) (sizes_values? hvs)
    · exact nomatch h

theorem memberSizes_memberValues? : ∀ {members : List (Option String × Document)}
    {values : List (String × Json)}, Document.memberValues? members = some values →
      Json.memberSizes values ≤ Document.memberSizes members
  | [], _, h => by cases h; exact Nat.le_refl _
  | (some name, value) :: rest, _, h => by
    rw [Document.memberValues?] at h
    split at h
    · next v vs hv hvs =>
      cases h
      exact Nat.add_le_add (size_value? hv) (memberSizes_memberValues? hvs)
    · exact nomatch h

end

end Json
end FirmwareLane
