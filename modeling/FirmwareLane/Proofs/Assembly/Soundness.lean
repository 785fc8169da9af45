import FirmwareLane.Proofs.Assembly.Denotation
import FirmwareLane.Proofs.Assembly.Layout

/-!
# The words of base instructions say what was written

An accepted program has one word for each statement that is a base instruction, and that word, read
by the layouts of the instruction set, is the instruction that was written: under its name, with the
registers that its operands name and with the number that its immediate stands for.  No operand is
cut down to fit, since an operand that would have to be is refused instead.

The statement puts three things together: where the words of a statement stand in the program, what
its operands denote, and how a word is read back.
-/

set_option autoImplicit false
namespace FirmwareLane
namespace Assembly

open Outcome

/-- The instruction set and the assembler have base instructions of the same names. -/
theorem lookup_baseNames_of_mem {name : String} {format : Format} (h : (name, format) ∈ formats) :
    ∃ b, Mnemonic.baseNames.lookup name = some b ∧ b.format = format := by
  have hall : ∀ entry ∈ formats,
      ((Mnemonic.baseNames.lookup entry.1).map Base.format) = some entry.2 := by decide
  exact Option.map_eq_some_iff.1 (hall _ h)

/-- The words of a statement that is a base instruction: a single one. -/
theorem exists_of_wordsOf {layout : Layout} {p : Placed} {chunk : List Word} {b : Base}
    (h : layout.wordsOf p = .ok chunk) (hb : Mnemonic.baseNames.lookup p.statement.name = some b) :
    ∃ i : Instruction, chunk = [i.encode] ∧ i.base = b ∧
      Denotes layout.labels p.address b.format p.statement.operands i.operands := by
  obtain ⟨resolved, hresolved, hchunk⟩ := bind_eq_ok.1 (onLine_eq_ok.1 h)
  rw [Statement.instructions, Mnemonic.ofName?, hb] at hresolved
  obtain ⟨i, hi, hresolved⟩ := bind_eq_ok.1 hresolved
  refine ⟨i, ?_, denotes_of_baseInstruction hi⟩
  rw [← pure_eq_ok.1 hchunk, ← pure_eq_ok.1 hresolved]
  rfl

/-- The word that an accepted program has at the address of one of its statements, where the words
are few enough for an address to reach them all. -/
def IsWordOf (word : Word) (p : Placed) (layout : Layout) (source : String) : Prop :=
  ∃ words, assemble source = .ok words ∧ words.length < 2 ^ 30 ∧
    Layout.ofSource source = .ok layout ∧ p ∈ layout.placed ∧
    words[p.address.toNat / 4]? = some word

/-- **The word of a base instruction is read back as what was written.** -/
theorem Accepted.exists_decode {source : String} {words : List Word} {layout : Layout}
    {pairs : List (Placed × List Word)} (h : Accepted source words layout pairs)
    (hfew : words.length < 2 ^ 30) {p : Placed} (hp : p ∈ layout.placed) {format : Format}
    (hname : (p.statement.name, format) ∈ formats) :
    ∃ word operands, words[p.address.toNat / 4]? = some word ∧
      Word.decode word = some ⟨p.statement.name, operands⟩ ∧
      Denotes layout.labels p.address format p.statement.operands operands := by
  rw [← h.emitted.placed] at hp
  obtain ⟨pair, hpair, rfl⟩ := List.mem_map.1 hp
  obtain ⟨b, hb, rfl⟩ := lookup_baseNames_of_mem hname
  obtain ⟨i, hchunk, rfl, hdenotes⟩ := exists_of_wordsOf (h.emitted.wordsOf pair hpair) hb
  refine ⟨i.encode, i.operands, ?_, ?_, hdenotes⟩
  · obtain ⟨behind, hbehind⟩ := h.prefix_drop hfew hpair
    rw [← Nat.add_zero (_ / 4), ← List.getElem?_drop, ← hbehind, hchunk]
    rfl
  · rw [i.decode_encode, mnemonic?_of_lookup hb]
    rfl

/-- Where a word is read back is what its statement denotes. -/
theorem IsWordOf.decode_eq {word : Word} {p : Placed} {layout : Layout} {source : String}
    (h : IsWordOf word p layout source) {format : Format}
    (hname : (p.statement.name, format) ∈ formats) {operands : Operands}
    (hdenotes : Denotes layout.labels p.address format p.statement.operands operands) :
    Word.decode word = some ⟨p.statement.name, operands⟩ := by
  obtain ⟨words, hwords, hfew, hlayout, hp, hword⟩ := h
  obtain ⟨layout', pairs, h⟩ := exists_accepted hwords
  obtain rfl : layout' = layout := Except.ok.inj (h.ofSource.symm.trans hlayout)
  obtain ⟨word', operands', hword', hdecode, hdenotes'⟩ := h.exists_decode hfew hp hname
  rw [Option.some.inj (hword.symm.trans hword'), hdecode, hdenotes.unique hdenotes']

/-- **The words of base instructions say what was written.**  In an accepted program whose words an
address reaches, the word at the address of a statement with the name of a base instruction is read
back under that name, with the numbers of the registers that its operands name and with the number
that its immediate stands for.  So a word tells the statements apart: two of them, of one program or
of two, that have the same word have the same name and denote the same. -/
theorem base_words_sound :
    (∀ source words, assemble source = .ok words → words.length < 2 ^ 30 →
      ∃ layout, Layout.ofSource source = .ok layout ∧
        layout.placed.map (·.statement) = statementsOf source ∧
        ∀ p ∈ layout.placed, ∀ format, (p.statement.name, format) ∈ formats →
          ∃ word operands, words[p.address.toNat / 4]? = some word ∧
            Word.decode word = some ⟨p.statement.name, operands⟩ ∧
            Denotes layout.labels p.address format p.statement.operands operands) ∧
    ∀ word source layout p format operands source' layout' p' format' operands',
      IsWordOf word p layout source → (p.statement.name, format) ∈ formats →
      Denotes layout.labels p.address format p.statement.operands operands →
      IsWordOf word p' layout' source' → (p'.statement.name, format') ∈ formats →
      Denotes layout'.labels p'.address format' p'.statement.operands operands' →
      p.statement.name = p'.statement.name ∧ operands = operands' := by
  constructor
  · intro source words h hfew
    obtain ⟨layout, pairs, h⟩ := exists_accepted h
    exact ⟨layout, h.ofSource, h.laid.map_statement, fun p hp format hname ↦
      h.exists_decode hfew hp hname⟩
  · intro word source layout p format operands source' layout' p' format' operands' h hname hdenotes
      h' hname' hdenotes'
    have heq := (h.decode_eq hname hdenotes).symm.trans (h'.decode_eq hname' hdenotes')
    exact Decoded.mk.inj (Option.some.inj heq)

/-- Two spellings of one store, each of them the only statement of a program. -/
theorem base_words_sound_of_stores :
    ∃ operands, Word.decode 0xfe112e23 = some ⟨"sw", operands⟩ ∧
      Denotes [] 0 (.store 0b010) ["ra", "-4(sp)"] operands ∧
      Denotes [] 0 (.store 0b010) ["x1", "-0x4(x2)"] operands := by
  have hlayout : Layout.ofSource "sw ra, -4(sp)" =
      .ok ⟨[⟨0, ⟨1, "sw", ["ra", "-4(sp)"]⟩⟩], []⟩ := by decide +kernel
  have hlayout' : Layout.ofSource "sw x1, -0x4(x2)" =
      .ok ⟨[⟨0, ⟨1, "sw", ["x1", "-0x4(x2)"]⟩⟩], []⟩ := by decide +kernel
  have hwords : assemble "sw ra, -4(sp)" = .ok [0xfe112e23] := by decide +kernel
  have hwords' : assemble "sw x1, -0x4(x2)" = .ok [0xfe112e23] := by decide +kernel
  obtain ⟨layout, heq, -, hall⟩ := base_words_sound.1 _ _ hwords (by decide)
  obtain rfl := Except.ok.inj (hlayout.symm.trans heq)
  obtain ⟨word, operands, hword, hdecode, hdenotes⟩ :=
    hall _ List.mem_cons_self (.store 0b010) (by decide)
  obtain rfl : (0xfe112e23 : Word) = word := Option.some.inj hword
  obtain ⟨layout', heq', -, hall'⟩ := base_words_sound.1 _ _ hwords' (by decide)
  obtain rfl := Except.ok.inj (hlayout'.symm.trans heq')
  obtain ⟨word', operands', -, -, hdenotes'⟩ :=
    hall' _ List.mem_cons_self (.store 0b010) (by decide)
  have hsame := base_words_sound.2 0xfe112e23 _ _ _ _ _ _ _ _ _ _
    ⟨_, hwords, by decide, hlayout, List.mem_cons_self, rfl⟩ (by decide) hdenotes
    ⟨_, hwords', by decide, hlayout', List.mem_cons_self, rfl⟩ (by decide) hdenotes'
  exact ⟨operands, hdecode, hdenotes, hsame.2 ▸ hdenotes'⟩

end Assembly
end FirmwareLane
