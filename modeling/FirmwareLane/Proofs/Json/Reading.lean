import FirmwareLane.Json.Reader
import FirmwareLane.Proofs.Json.Scanning

/-!
# A printed value is read back

The reader builds a document from the tokens of a value as the printer took it apart: a value that
begins where one is expected is given, when it is complete, to the container that is open around it
(`build_tokens`).

## What is here

* `document` is what is built: the value, with a mark on containers that are nested too deep and
  with the floating point numbers that are read for those that were printed.
* `readText_print_eq` says that it is read from the text of the value, `readText_print` that
  without floating point numbers and too deep a nest it stands for the value itself.
* `newline_not_mem_chars`: the text is one line.
-/

set_option autoImplicit false
namespace FirmwareLane
namespace Json

/-! ## Building -/

/-- Where the reader goes on after a token. -/
def proceed : Step → List Token → Document × Bool
  | .more stack expected, rest => build stack expected rest
  | .complete document, rest => (document, !rest.isEmpty)
  | .broken, _ => (.broken, false)

theorem build_cons {stack : List Open} {expected : Expected} {t : Token} {rest : List Token}
    {step : Step} (h : Step.of stack expected t = step) (hstep : step ≠ .broken) :
    build stack expected (t :: rest) = proceed step rest := by
  rw [build, h]
  cases step with
  | more stack expected => rfl
  | complete document => rfl
  | broken => exact absurd rfl hstep

theorem give_ne_broken (d : Document) (stack : List Open) : Step.give d stack ≠ .broken := by
  cases stack <;> exact Step.noConfusion

/-- Where a value may begin: where one is expected, or the first item of an array. -/
def Expected.IsValue : Expected → Prop
  | .value => True
  | .firstItem => True
  | _ => False

theorem of_isValue {stack : List Open} {expected : Expected} {t : Token} (h : expected.IsValue)
    (ht : t ≠ .closeArray) : Step.of stack expected t = Step.beginValue stack t := by
  cases expected with
  | value => rfl
  | firstItem => rw [Step.of, if_neg ht]
  | _ => exact h.elim

/-- A document, marked if there are more containers around it than a reader follows. -/
def enclosed (outer : Nat) (d : Document) : Document :=
  if outer < greatestDepth then d else .deep d

/-- The document that a scalar token is. -/
def scalarDocument : Token → Document
  | .float x => .float x
  | _ => .hugeNumber

mutual

/-- The document that a reader makes of the text of a value with so many containers around it. -/
def document (outer : Nat) : Json → Document
  | .null => .null
  | .bool b => .bool b
  | .integer n => .integer n
  | .float x => scalarDocument (Token.reread (.float x))
  | .text s => .text s
  | .array items => enclosed outer (.array (itemDocuments (outer + 1) items) true)
  | .object members => enclosed outer (.object (memberDocuments (outer + 1) members) true)

/-- The documents of items. -/
def itemDocuments (outer : Nat) : List Json → List Document
  | [] => []
  | item :: rest => item.document outer :: itemDocuments outer rest

/-- The documents of members. -/
def memberDocuments (outer : Nat) : List (String × Json) → List (Option String × Document)
  | [] => []
  | (name, value) :: rest => (some name, value.document outer) :: memberDocuments outer rest

end

section Containers

variable (outer : List Open) (more : List Token)

/-- The reading of the tokens of a value, wherever one may begin. -/
def IsRead (value : Json) : Prop :=
  ∀ (stack : List Open) (expected : Expected) (rest : List Token), expected.IsValue →
    build stack expected (value.tokens.map Token.reread ++ rest) =
      proceed (Step.give (value.document stack.length) stack) rest

theorem build_itemsTailTokens {items : List Json} (h : ∀ item ∈ items, IsRead item)
    (done : List Document) :
    build (.array done :: outer) .separator ((itemsTailTokens items).map Token.reread ++ more) =
      proceed (Step.give (enclosed outer.length
        (.array (done.reverse ++ itemDocuments (outer.length + 1) items) true)) outer) more := by
  induction items generalizing done with
  | nil =>
    have hclose : Step.of (.array done :: outer) .separator .closeArray =
        Step.give (enclosed outer.length (.array done.reverse true)) outer := rfl
    rw [itemDocuments, List.append_nil]
    exact build_cons hclose (give_ne_broken _ _)
  | cons item items ih =>
    have hitem := h item List.mem_cons_self (.array done :: outer) .value
      ((itemsTailTokens items).map Token.reread ++ more) trivial
    have hitems := ih (fun other hother ↦ h other (List.mem_cons_of_mem _ hother))
      (item.document (outer.length + 1) :: done)
    rw [List.reverse_cons, List.append_assoc] at hitems
    calc build (.array done :: outer) .separator
          ((itemsTailTokens (item :: items)).map Token.reread ++ more)
        = build (.array done :: outer) .value (item.tokens.map Token.reread ++
            ((itemsTailTokens items).map Token.reread ++ more)) := by
          rw [← List.append_assoc, ← List.map_append]; rfl
      _ = build (.array (item.document (outer.length + 1) :: done) :: outer) .separator
            ((itemsTailTokens items).map Token.reread ++ more) := hitem
      _ = _ := hitems

theorem build_membersTailTokens {members : List (String × Json)}
    (h : ∀ member ∈ members, IsRead member.2) (done : List (Option String × Document)) :
    build (.object done none :: outer) .separator
        ((membersTailTokens members).map Token.reread ++ more) =
      proceed (Step.give (enclosed outer.length
        (.object (done.reverse ++ memberDocuments (outer.length + 1) members) true)) outer)
        more := by
  induction members generalizing done with
  | nil =>
    have hclose : Step.of (.object done none :: outer) .separator .closeObject =
        Step.give (enclosed outer.length (.object done.reverse true)) outer := rfl
    rw [memberDocuments, List.append_nil]
    exact build_cons hclose (give_ne_broken _ _)
  | cons member members ih =>
    obtain ⟨name, value⟩ := member
    have hvalue := h (name, value) List.mem_cons_self (.object done (some (some name)) :: outer)
      .value ((membersTailTokens members).map Token.reread ++ more) trivial
    have hmembers := ih (fun other hother ↦ h other (List.mem_cons_of_mem _ hother))
      ((some name, value.document (outer.length + 1)) :: done)
    rw [List.reverse_cons, List.append_assoc] at hmembers
    calc build (.object done none :: outer) .separator
          ((membersTailTokens ((name, value) :: members)).map Token.reread ++ more)
        = build (.object done (some (some name)) :: outer) .value
            (value.tokens.map Token.reread ++
              ((membersTailTokens members).map Token.reread ++ more)) := by
          rw [← List.append_assoc, ← List.map_append]; rfl
      _ = build (.object ((some name, value.document (outer.length + 1)) :: done) none :: outer)
            .separator ((membersTailTokens members).map Token.reread ++ more) := hvalue
      _ = _ := hmembers

end Containers

theorem isRead_scalar {value : Json} {t : Token} (htokens : value.tokens.map Token.reread = [t])
    (ht : t ≠ .closeArray)
    (h : ∀ stack, Step.beginValue stack t = Step.give (value.document stack.length) stack) :
    IsRead value := by
  intro stack expected rest hexpected
  rw [htokens]
  exact build_cons ((of_isValue hexpected ht).trans (h stack)) (give_ne_broken _ _)

theorem isRead_float (x : Binary64) : IsRead (.float x) := by
  -- the printed decimal decides what is read, so the number itself is of no use here
  have hdocument : ∀ outer, (Json.float x).document outer =
      scalarDocument (Token.reread (.float x)) := fun _ ↦ rfl
  rcases Token.isFloating_reread x with ht | ⟨y, ht⟩
  · refine isRead_scalar rfl (by rw [ht]; exact Token.noConfusion) fun stack ↦ ?_
    rw [hdocument, ht]
    rfl
  · refine isRead_scalar rfl (by rw [ht]; exact Token.noConfusion) fun stack ↦ ?_
    rw [hdocument, ht]
    rfl

/-- **The tokens of a value are built into its document.** -/
theorem build_tokens {value : Json} (h : HasIntegers value) : IsRead value := by
  induction h with
  | null => exact isRead_scalar rfl Token.noConfusion fun _ ↦ rfl
  | bool b => exact isRead_scalar rfl Token.noConfusion fun _ ↦ rfl
  | integer _ _ => exact isRead_scalar rfl Token.noConfusion fun _ ↦ rfl
  | float x => exact isRead_float x
  | text s => exact isRead_scalar rfl Token.noConfusion fun _ ↦ rfl
  | @array items _ ih =>
    intro stack expected rest hexpected
    have hopen : ∀ more, build stack expected (.openArray :: more) =
        build (.array [] :: stack) .firstItem more :=
      fun more ↦ build_cons (of_isValue hexpected Token.noConfusion) Step.noConfusion
    cases items with
    | nil =>
      have hclose : Step.of (.array [] :: stack) .firstItem .closeArray =
          Step.give (enclosed stack.length (.array [] true)) stack := rfl
      exact (hopen _).trans (build_cons hclose (give_ne_broken _ _))
    | cons item items =>
      have hitem := ih item List.mem_cons_self (.array [] :: stack) .firstItem
        ((itemsTailTokens items).map Token.reread ++ rest) trivial
      have hitems := build_itemsTailTokens stack rest
        (fun other hother ↦ ih other (List.mem_cons_of_mem _ hother))
        [item.document (stack.length + 1)]
      rw [tokens, List.map_cons, List.map_append, List.cons_append]
      refine (hopen _).trans ?_
      rw [List.append_assoc, hitem]
      exact hitems
  | @object members _ ih =>
    intro stack expected rest hexpected
    have hopen : ∀ more, build stack expected (.openObject :: more) =
        build (.object [] none :: stack) .firstMember more :=
      fun more ↦ build_cons (of_isValue hexpected Token.noConfusion) Step.noConfusion
    cases members with
    | nil =>
      have hclose : Step.of (.object [] none :: stack) .firstMember .closeObject =
          Step.give (enclosed stack.length (.object [] true)) stack := rfl
      exact (hopen _).trans (build_cons hclose (give_ne_broken _ _))
    | cons member members =>
      obtain ⟨name, value⟩ := member
      have hvalue := ih (name, value) List.mem_cons_self
        (.object [] (some (some name)) :: stack) .value
        ((membersTailTokens members).map Token.reread ++ rest) trivial
      have hmembers := build_membersTailTokens stack rest
        (fun other hother ↦ ih other (List.mem_cons_of_mem _ hother))
        [(some name, value.document (stack.length + 1))]
      rw [tokens, List.map_cons, List.map_cons, List.map_cons, List.map_append, List.cons_append]
      refine (hopen _).trans ?_
      rw [List.cons_append, List.cons_append, List.append_assoc]
      exact hvalue.trans hmembers

/-- **The text of a value is read as its document**, on a line of its own or not. -/
theorem readText_print_eq {value : Json} (h : HasIntegers value) :
    readText value.print = (value.document 0, false) ∧
      readText (value.print ++ "\n") = (value.document 0, false) := by
  have hbuild : build [] .value (value.tokens.map Token.reread) = (value.document 0, false) := by
    have hread := build_tokens h [] .value [] trivial
    rwa [List.append_nil] at hread
  have hscan := (Token.scans_chars h Token.isDelimited_nil).scan_eq
  have hscanLine :=
    (Token.scans_chars h (Token.isDelimited_cons (c := '\n') (by decide) [])).scan_line_eq
  constructor
  · rw [readText, readGlyphs, print, String.toList_ofList, hscan, hbuild]
  · rw [readText, readGlyphs, print, String.toList_append, String.toList_ofList]
    exact (congrArg (build [] .value) hscanLine).trans hbuild

/-! ## Values without floating point numbers -/

theorem enclosed_of_lt {outer : Nat} (h : outer < greatestDepth) (d : Document) :
    enclosed outer d = d :=
  if_pos h

theorem itemDocuments_eq {outer : Nat} {items : List Json}
    (h : ∀ item ∈ items, item.document outer = .ofJson item) :
    itemDocuments outer items = Document.ofItems items := by
  induction items with
  | nil => rfl
  | cons item rest ih =>
    rw [itemDocuments, Document.ofItems, h item List.mem_cons_self,
      ih fun other hother ↦ h other (List.mem_cons_of_mem _ hother)]

theorem memberDocuments_eq {outer : Nat} {members : List (String × Json)}
    (h : ∀ member ∈ members, member.2.document outer = .ofJson member.2) :
    memberDocuments outer members = Document.ofMembers members := by
  induction members with
  | nil => rfl
  | cons member rest ih =>
    obtain ⟨name, value⟩ := member
    rw [memberDocuments, Document.ofMembers, h (name, value) List.mem_cons_self,
      ih fun other hother ↦ h other (List.mem_cons_of_mem _ hother)]

/-- A value without floating point numbers that is not nested too deep has the document that stands
for it. -/
theorem Within.document_eq {depth outer : Nat} {value : Json} (h : Within depth value)
    (hroom : outer + depth ≤ greatestDepth) : value.document outer = .ofJson value := by
  induction h generalizing outer with
  | null => rfl
  | bool b => rfl
  | integer _ _ => rfl
  | text s => rfl
  | array _ ih =>
    rw [document, enclosed_of_lt (by omega), Document.ofJson,
      itemDocuments_eq fun item hitem ↦ ih item hitem (by omega)]
  | object _ ih =>
    rw [document, enclosed_of_lt (by omega), Document.ofJson,
      memberDocuments_eq fun member hmember ↦ ih member hmember (by omega)]

theorem readText_print {value : Json} (h : Within greatestDepth value) :
    readText value.print = (.ofJson value, false) ∧
      readText (value.print ++ "\n") = (.ofJson value, false) := by
  have hread := readText_print_eq h.hasIntegers
  rwa [h.document_eq (Nat.le_of_eq (Nat.zero_add _))] at hread

/-! ## Printed on one line -/

theorem newline_not_mem_escaped (c : Char) : '\n' ∉ escaped c := by
  by_cases hshort : c.toNat < 0x80
  · have hall : ∀ n < 0x80, '\n' ∉ escaped (Char.ofNat n) := by decide +kernel
    exact Char.ofNat_toNat c ▸ hall c.toNat hshort
  · have hne : ∀ d : Char, d.toNat < 0x80 → c ≠ d := fun d hd heq ↦ hshort (heq ▸ hd)
    have hcontrol : ¬ c.toNat < 0x20 := fun h ↦ hshort (Nat.lt_trans h (by decide))
    rw [escaped, if_neg (hne _ (by decide)), if_neg (hne _ (by decide)), if_neg (hne _ (by decide)),
      if_neg (hne _ (by decide)), if_neg (hne _ (by decide)), if_neg (hne _ (by decide)),
      if_neg (hne _ (by decide)), if_neg hcontrol, List.mem_singleton]
    exact (hne _ (by decide)).symm

theorem newline_not_mem_quoted (s : String) : '\n' ∉ quoted s := by
  intro h
  rw [quoted, List.cons_append, List.mem_cons, List.mem_append, List.mem_flatMap] at h
  rcases h with h | ⟨c, -, hc⟩ | h
  · exact absurd h (by decide)
  · exact newline_not_mem_escaped c hc
  · exact absurd h (by decide)

theorem newline_not_mem_integerText (n : Int) : '\n' ∉ integerText n := by
  have hwrite : '\n' ∉ Text.Numeral.write 10 n.natAbs := by
    rw [Text.Numeral.write_eq_map, List.mem_map]
    rintro ⟨d, hd, heq⟩
    have hall : ∀ d < 10, Text.Numeral.digitChar d ≠ '\n' := by decide
    exact hall d (Text.Numeral.lt_of_mem_decimalDigits hd) heq
  rw [integerText, Text.Numeral.integer]
  split
  · rw [String.toList_ofList, List.mem_cons, not_or]
    exact ⟨by decide, hwrite⟩
  · rwa [Text.Numeral.decimal, String.toList_ofList]

theorem newline_not_mem_itemsTail {items : List Json} (h : ∀ item ∈ items, '\n' ∉ item.chars) :
    '\n' ∉ itemsTail items := by
  induction items with
  | nil => decide
  | cons item items ih =>
    rw [itemsTail, List.mem_cons, List.mem_append, not_or, not_or]
    exact ⟨by decide, h item List.mem_cons_self,
      ih fun other hother ↦ h other (List.mem_cons_of_mem _ hother)⟩

theorem newline_not_mem_member {name : String} {value : Json} (h : '\n' ∉ value.chars)
    {tail : List Char} (htail : '\n' ∉ tail) :
    '\n' ∉ quoted name ++ ':' :: (value.chars ++ tail) := by
  rw [List.mem_append, List.mem_cons, List.mem_append, not_or, not_or, not_or]
  exact ⟨newline_not_mem_quoted name, by decide, h, htail⟩

theorem newline_not_mem_membersTail {members : List (String × Json)}
    (h : ∀ member ∈ members, '\n' ∉ member.2.chars) : '\n' ∉ membersTail members := by
  induction members with
  | nil => decide
  | cons member members ih =>
    rw [membersTail, List.mem_cons, not_or]
    exact ⟨by decide, newline_not_mem_member (h member List.mem_cons_self)
      (ih fun other hother ↦ h other (List.mem_cons_of_mem _ hother))⟩

/-- **The text of a value has no line end.** -/
theorem newline_not_mem_chars {depth : Nat} {value : Json} (h : Within depth value) :
    '\n' ∉ value.chars := by
  induction h with
  | null => decide
  | bool b => cases b <;> decide
  | integer _ _ => exact newline_not_mem_integerText _
  | text s => exact newline_not_mem_quoted s
  | @array depth items _ ih =>
    cases items with
    | nil => decide
    | cons item items =>
      rw [chars, List.mem_cons, List.mem_append, not_or, not_or]
      exact ⟨by decide, ih item List.mem_cons_self,
        newline_not_mem_itemsTail fun other hother ↦ ih other (List.mem_cons_of_mem _ hother)⟩
  | @object depth members _ ih =>
    cases members with
    | nil => decide
    | cons member members =>
      rw [chars, List.mem_cons, not_or]
      exact ⟨by decide, newline_not_mem_member (ih member List.mem_cons_self)
        (newline_not_mem_membersTail fun other hother ↦ ih other (List.mem_cons_of_mem _ hother))⟩

end Json
end FirmwareLane
