import FirmwareLane.Assembly.Program
import FirmwareLane.Proofs.Classification
import FirmwareLane.Proofs.Snapshot.Overlay
import FirmwareLane.Proofs.Snapshot.Travelling

/-!
# Memory images

The words of a memory image are read four bytes at a time, the least significant one first, and
where the last bytes do not fill a word, zeros stand for those that are missing.  So the bytes of the
words are the bytes of the image with up to three zeros behind them, and words that are written down
in the same order of bytes are read back as they were.

## What is here

* `image` is how words are written down.
* `areWordsOf_imageWords` and `imageWords_image` compare the reader with it, in both directions; both
  take four bytes at a time.
* `Entry.IsNamed` says what it means for a file to have a name in whatever directory, and
  `IsFirstNamed` which file of a snapshot an image is read from.
* `words_faithful` is about the words of a file.
-/

set_option autoImplicit false
namespace FirmwareLane

open Text (Bytes)

namespace Snapshot

/-! ## Words and their bytes -/

/-- Words written down one after the other, each with its least significant byte first. -/
def image (words : List Assembly.Word) : Bytes := words.flatMap fun w ↦ littleEndian 4 w.toNat

theorem littleEndian_four (n : Nat) :
    littleEndian 4 n = [UInt8.ofNat n, UInt8.ofNat (n / 256), UInt8.ofNat (n / 65536),
      UInt8.ofNat (n / 16777216)] := by
  rw [littleEndian]
  simp [List.range_succ]

/-- Four bytes are the bytes of their word. -/
theorem littleEndian_word (a b c d : UInt8) :
    littleEndian 4 (a.toNat + 256 * b.toNat + 65536 * c.toNat + 16777216 * d.toNat) =
      [a, b, c, d] := by
  have ha := a.toNat_lt
  have hb := b.toNat_lt
  have hc := c.toNat_lt
  have hd := d.toNat_lt
  simp only [littleEndian_four, List.cons.injEq, ← UInt8.toNat_inj, UInt8.toNat_ofNat', and_true]
  omega

/-- The words are those of bytes: one for every four of them or fewer, and put down again they are
the bytes with at most three zeros behind them. -/
structure AreWordsOf (words : List Nat) (b : Bytes) : Prop where
  length : words.length = (b.length + 3) / 4
  lt : ∀ w ∈ words, w < 2 ^ 32
  bytes : ∃ missing ≤ 3, words.flatMap (littleEndian 4) = b ++ List.replicate missing 0

theorem areWordsOf_nil : AreWordsOf [] [] where
  length := rfl
  lt := nofun
  bytes := ⟨0, Nat.zero_le 3, rfl⟩

theorem word_lt (a b c d : UInt8) :
    a.toNat + 256 * b.toNat + 65536 * c.toNat + 16777216 * d.toNat < 2 ^ 32 := by
  have ha := a.toNat_lt
  have hb := b.toNat_lt
  have hc := c.toNat_lt
  have hd := d.toNat_lt
  omega

/-- Four bytes more are one word more. -/
theorem AreWordsOf.cons {words : List Nat} {rest : Bytes} (h : AreWordsOf words rest)
    (a b c d : UInt8) :
    AreWordsOf ((a.toNat + 256 * b.toNat + 65536 * c.toNat + 16777216 * d.toNat) :: words)
      (a :: b :: c :: d :: rest) where
  length := by
    simp only [List.length_cons, h.length]
    omega
  lt := by
    intro w hw
    rcases List.mem_cons.1 hw with rfl | hw
    · exact word_lt a b c d
    · exact h.lt w hw
  bytes := by
    obtain ⟨missing, hle, hbytes⟩ := h.bytes
    refine ⟨missing, hle, ?_⟩
    rw [List.flatMap_cons, littleEndian_word, hbytes]
    rfl

/-- Fewer bytes are one word, with zeros for those that are missing. -/
theorem areWordsOf_last {rest : Bytes} {a b c d : UInt8} (missing : Nat) (hle : missing ≤ 3)
    (hfilled : [a, b, c, d] = rest ++ List.replicate missing 0) :
    AreWordsOf [a.toNat + 256 * b.toNat + 65536 * c.toNat + 16777216 * d.toNat] rest where
  length := by
    have hlength := congrArg List.length hfilled
    rw [List.length_append, List.length_replicate] at hlength
    simp only [List.length_cons, List.length_nil] at hlength ⊢
    omega
  lt := by
    intro w hw
    rw [List.mem_singleton.1 hw]
    exact word_lt a b c d
  bytes := ⟨missing, hle, by rw [List.flatMap_singleton, littleEndian_word, hfilled]⟩

/-- **The words of an image are those of its bytes.** -/
theorem areWordsOf_imageWords : ∀ b : Bytes, AreWordsOf (imageWords b) b
  | [] => areWordsOf_nil
  | [a] => areWordsOf_last (a := a) (b := 0) (c := 0) (d := 0) 3 (Nat.le_refl 3) rfl
  | [a, b] => areWordsOf_last (a := a) (b := b) (c := 0) (d := 0) 2 (Nat.le_succ 2) rfl
  | [a, b, c] => by
    have hword : imageWords [a, b, c] =
        [a.toNat + 256 * b.toNat + 65536 * c.toNat + 16777216 * (0 : UInt8).toNat] := by
      refine congrArg (fun w ↦ [w]) ?_
      simp only [List.foldr_cons, List.foldr_nil, UInt8.toNat_zero]
      omega
    rw [hword]
    exact areWordsOf_last 1 (by decide) rfl
  | a :: b :: c :: d :: rest => (areWordsOf_imageWords rest).cons a b c d

theorem toNat_word {n : Nat} (h : n < 2 ^ 32) :
    (UInt8.ofNat n).toNat + 256 * (UInt8.ofNat (n / 256)).toNat +
      65536 * (UInt8.ofNat (n / 65536)).toNat + 16777216 * (UInt8.ofNat (n / 16777216)).toNat = n := by
  simp only [UInt8.toNat_ofNat']
  omega

/-- **Words are read back from the image that they were written down to.** -/
theorem imageWords_image (words : List Assembly.Word) :
    imageWords (image words) = words.map BitVec.toNat := by
  induction words with
  | nil => rfl
  | cons w rest ih =>
    rw [image, List.flatMap_cons, littleEndian_four]
    simp only [List.cons_append, List.nil_append, imageWords, List.map_cons, toNat_word w.isLt]
    exact congrArg _ ih

end Snapshot

/-! ## The file that an image is read from -/

namespace Path

/-- What follows the last occurrence of a character is a text without it, with nothing or that
character in front. -/
theorem afterLast_eq_iff {mark : Char} {s behind : List Char} :
    afterLast mark s = behind ↔
      mark ∉ behind ∧ (s = behind ∨ ∃ front, s = front ++ mark :: behind) := by
  have htake : ∀ {t : List Char}, mark ∉ t → ∀ c ∈ t.reverse, (c != mark) = true := by
    intro t ht c hc
    refine bne_iff_ne.2 ?_
    rintro rfl
    exact ht (List.mem_reverse.1 hc)
  constructor
  · rintro rfl
    refine ⟨fun hmem ↦ (Classification.mem_afterLast hmem).1 rfl, ?_⟩
    have hsplit := List.takeWhile_append_dropWhile (p := (· != mark)) (l := s.reverse)
    have hstop := List.head?_dropWhile_not (· != mark) s.reverse
    cases hrest : s.reverse.dropWhile (· != mark) with
    | nil =>
      rw [hrest, List.append_nil] at hsplit
      exact .inl (by rw [afterLast, hsplit, List.reverse_reverse])
    | cons c rest =>
      rw [hrest] at hsplit hstop
      obtain rfl : c = mark := bne_eq_false_iff_eq.1 hstop
      have hs := congrArg List.reverse hsplit
      rw [List.reverse_reverse, List.reverse_append, List.reverse_cons, List.append_assoc] at hs
      exact .inr ⟨rest.reverse, hs.symm⟩
  · rintro ⟨hmark, rfl | ⟨front, rfl⟩⟩
    · rw [afterLast, List.takeWhile_eq_self_iff.2 (htake hmark), List.reverse_reverse]
    · rw [afterLast, List.reverse_append, List.reverse_cons, List.append_assoc,
        List.takeWhile_append_of_pos (htake hmark), List.singleton_append,
        List.takeWhile_cons_of_neg (by simp), List.append_nil, List.reverse_reverse]

end Path

namespace Entry

/-- The file has a name, in whatever directory. -/
def IsNamed (e : Entry) (name : String) : Prop :=
  '/' ∉ name.toList ∧ (e.path = name ∨ ∃ directory, e.path = directory ++ "/" ++ name)

theorem name_eq_iff {e : Entry} {name : String} : e.name = name ↔ e.IsNamed name := by
  have hslash : "/".toList = ['/'] := rfl
  rw [Entry.name, Path.name, ← String.toList_inj, String.toList_ofList, Path.afterLast_eq_iff,
    IsNamed, ← String.toList_inj]
  refine and_congr_right fun _ ↦ or_congr_right ⟨?_, ?_⟩
  · rintro ⟨front, hfront⟩
    refine ⟨String.ofList front, ?_⟩
    rw [← String.toList_inj, hfront, String.toList_append, String.toList_append,
      String.toList_ofList, hslash, List.append_assoc]
    rfl
  · rintro ⟨directory, hdirectory⟩
    refine ⟨directory.toList, ?_⟩
    rw [hdirectory, String.toList_append, String.toList_append, hslash, List.append_assoc]
    rfl

end Entry

namespace Snapshot

variable {s t : Snapshot} {e : Entry} {name : String}

/-- The file is the first one with a name. -/
def IsFirstNamed (s : Snapshot) (name : String) (e : Entry) : Prop :=
  ∃ before after, s.entries = before ++ e :: after ∧ e.IsNamed name ∧
    ∀ other ∈ before, ¬ other.IsNamed name

theorem findByName?_eq_some : s.findByName? name = some e ↔ s.IsFirstNamed name e := by
  simp only [findByName?, List.find?_eq_some_iff_append, beq_iff_eq, Entry.name_eq_iff,
    Bool.not_eq_true', beq_eq_false_iff_ne, ne_eq]
  constructor
  · rintro ⟨hnamed, before, after, hentries, hbefore⟩
    exact ⟨before, after, hentries, hnamed, hbefore⟩
  · rintro ⟨before, after, hentries, hnamed, hbefore⟩
    exact ⟨hnamed, before, after, hentries, hbefore⟩

theorem IsFirstNamed.words?_eq (h : s.IsFirstNamed name e) :
    s.words? name = e.content.binary?.map imageWords := by
  rw [words?, findByName?_eq_some.2 h]
  change (e.content.binary?.bind fun b ↦ some (imageWords b)) = _
  cases e.content.binary? <;> rfl

/-- A file with other content is the first one with a name, if it takes the place of that one. -/
theorem IsFirstNamed.exists_upsert (h : s.IsFirstNamed name e) (content : Content) :
    ∃ t, s.upsert ⟨e.path, content⟩ = .ok (t, some e) ∧ t.IsFirstNamed name ⟨e.path, content⟩ := by
  obtain ⟨before, after, hentries, hnamed, hbefore⟩ := h
  have he : e ∈ s.entries := hentries ▸ List.mem_append_right _ List.mem_cons_self
  obtain ⟨hnormal, hcontained⟩ := s.admitted he
  have hnormalized : (Entry.mk e.path content).normalized = ⟨e.path, content⟩ :=
    congrArg (Entry.mk · content) hnormal
  obtain ⟨t, ht⟩ := Snapshot.exists_upsert (e := ⟨e.path, content⟩)
    (by rw [hnormalized]; exact hcontained) s
  rw [hnormalized, get?_eq_some.2 ⟨he, rfl⟩] at ht
  refine ⟨t, ht, ?_⟩
  have hafter := entries_of_upsert ht
  have hthere : e.path ∈ s.paths := List.mem_map_of_mem he
  rw [hnormalized, if_pos hthere, hentries, List.map_append, List.map_cons, if_pos rfl] at hafter
  refine ⟨_, _, hafter, hnamed, fun other hother ↦ ?_⟩
  obtain ⟨d, hd, rfl⟩ := List.mem_map.1 hother
  have hpath : (if d.path = e.path then Entry.mk e.path content else d).path = d.path := by
    split
    · next heq => exact heq.symm
    · rfl
  rw [Entry.IsNamed, hpath]
  exact hbefore d hd

/-- **Memory images are faithful.**  The words of the first file with a name, if it holds bytes, are
as many as it takes to hold these bytes, and written down with the least significant byte first they
are the bytes with at most three zeros behind them.  Any words of 32 bits that this file holds in that
order are read back as they were.  They can be put into it in the place of what it holds, and so the
words of a program come back, also from a snapshot that has travelled. -/
theorem words_faithful (h : s.IsFirstNamed name e) :
    (∀ b, e.content = .binary b → ∃ words, s.words? name = some words ∧
      words.length = (b.length + 3) / 4 ∧ (∀ w ∈ words, w < 2 ^ 32) ∧
      ∃ missing ≤ 3, words.flatMap (littleEndian 4) = b ++ List.replicate missing 0) ∧
    (∀ words, e.content = .binary (image words) → s.words? name = some (words.map BitVec.toNat)) ∧
    (∀ words, ∃ t, s.upsert ⟨e.path, .binary (image words)⟩ = .ok (t, some e) ∧
      t.IsFirstNamed name ⟨e.path, .binary (image words)⟩ ∧
      t.words? name = some (words.map BitVec.toNat)) ∧
    ∀ source words, Assembly.assemble source = .ok words →
      ∃ t, ∃ back : Snapshot, s.upsert ⟨e.path, .binary (image words)⟩ = .ok (t, some e) ∧
        Json.Wire.ofText (Json.Wire.print t) = .ok back ∧
        back.words? name = some (words.map BitVec.toNat) := by
  have hread : ∀ {t : Snapshot} {d : Entry} {words : List Assembly.Word}, t.IsFirstNamed name d →
      d.content = .binary (image words) → t.words? name = some (words.map BitVec.toNat) := by
    intro t d words hd hcontent
    rw [hd.words?_eq, hcontent, Content.binary?, Option.map_some, imageWords_image]
  have hput : ∀ words : List Assembly.Word,
      ∃ t, s.upsert ⟨e.path, .binary (image words)⟩ = .ok (t, some e) ∧
        t.IsFirstNamed name ⟨e.path, .binary (image words)⟩ ∧
        t.words? name = some (words.map BitVec.toNat) := by
    intro words
    obtain ⟨t, ht, hfirst⟩ := h.exists_upsert (.binary (image words))
    exact ⟨t, ht, hfirst, hread hfirst rfl⟩
  refine ⟨fun b hcontent ↦ ?_, fun words ↦ hread h, hput, fun source words _ ↦ ?_⟩
  · have hwords := areWordsOf_imageWords b
    refine ⟨imageWords b, ?_, hwords.length, hwords.lt, hwords.bytes⟩
    rw [h.words?_eq, hcontent, Content.binary?, Option.map_some]
  · obtain ⟨t, ht, -, hback⟩ := hput words
    refine ⟨t, t, ht, ?_, hback⟩
    rw [Json.Wire.ofText_print (t.within_encode.mono (by decide)), t.travels.written]

/-- Two memory images of one name in different directories, behind a file of another name. -/
def images : List Entry :=
  [⟨"notes.txt", .text "a"⟩, ⟨"build/firmware.bin", .binary [0x93, 0x00, 0xa0, 0x00, 0x13, 0x00]⟩,
    ⟨"old/firmware.bin", .binary [0xff]⟩]

theorem words_faithful_of_images :
    ∃ s : Snapshot, s.entries = images ∧
      s.IsFirstNamed "firmware.bin"
        ⟨"build/firmware.bin", .binary [0x93, 0x00, 0xa0, 0x00, 0x13, 0x00]⟩ ∧
      (∃ words, s.words? "firmware.bin" = some words ∧ words.length = 2 ∧
        ∃ missing ≤ 3, words.flatMap (littleEndian 4) =
          [0x93, 0x00, 0xa0, 0x00, 0x13, 0x00] ++ List.replicate missing 0) ∧
      ∃ t, ∃ back : Snapshot, s.upsert ⟨"build/firmware.bin", .binary (image [0x00001537, 0x00150513])⟩ =
          .ok (t, some ⟨"build/firmware.bin", .binary [0x93, 0x00, 0xa0, 0x00, 0x13, 0x00]⟩) ∧
        Json.Wire.ofText (Json.Wire.print t) = .ok back ∧
        back.words? "firmware.bin" = some [0x00001537, 0x00150513] := by
  have himages : (ofList images).map entries = .ok images := by decide +kernel
  obtain ⟨s, -, hentries⟩ := Outcome.map_eq_ok.1 himages
  have hfirst : s.IsFirstNamed "firmware.bin"
      ⟨"build/firmware.bin", .binary [0x93, 0x00, 0xa0, 0x00, 0x13, 0x00]⟩ := by
    rw [← findByName?_eq_some, findByName?, hentries]
    decide +kernel
  have hassembled : Assembly.assemble "li a0, 4097" = .ok [0x00001537, 0x00150513] := by
    decide +kernel
  obtain ⟨hread, -, -, hprogram⟩ := words_faithful hfirst
  obtain ⟨words, hwords, hlength, -, hbytes⟩ := hread _ rfl
  obtain ⟨t, back, ht, htravelled, hback⟩ := hprogram _ _ hassembled
  exact ⟨s, hentries, hfirst, ⟨words, hwords, hlength, hbytes⟩, t, back, ht, htravelled, hback⟩

end Snapshot
end FirmwareLane
