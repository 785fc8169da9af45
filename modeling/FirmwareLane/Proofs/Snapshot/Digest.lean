import FirmwareLane.Proofs.Text.Utf8
import FirmwareLane.Proofs.Transfer.Recording
import Mathlib.Algebra.GroupWithZero.Nat
import Mathlib.Data.List.Sort

/-!
# What the digest tells apart

The digest is taken of one sequence of bytes: the entries in the order of their paths, each with its
path, the name of its encoding, the number of its bytes and the bytes themselves.  A zero byte ends
the path and another one ends the name of the encoding; the number has a fixed width and says where
the content ends.  So one entry after the other can be read back, as long as the first zero byte of
an entry is the one that ends its path.

Nothing keeps a zero character out of a path, though.  A path may go on behind one with what looks
like the rest of an entry and the start of the next one, and then two snapshots of different files
have the same bytes.

## What is here

* `Entry.record` is what the digest is to tell of an entry, and `record_injective` says that nothing
  else of the entry is left.
* `Entry.IsDelimited` are the entries whose end can be told, and `IsDelimited.append_inj` reads one
  of them back.  Its induction is `map_record_eq_of_flatMap_fingerprint`.
* `sorted_eq_of_mem_iff`: the order of the paths leaves no choice, so that the order of the entries
  does not matter.
* `digest_identifies` puts both directions together, and `digest_identifies_of_nul` has two
  snapshots that are not told apart.
-/

set_option autoImplicit false
namespace FirmwareLane

open Text (Bytes)

/-! ## Bytes that can be read back -/

theorem Text.Utf8.bytes_injective : Function.Injective Text.Utf8.bytes := fun s t h ↦
  Option.some.inj ((string?_bytes s).symm.trans ((congrArg string? h).trans (string?_bytes t)))

/-- A text without a zero character has no zero byte. -/
theorem Text.Utf8.zero_not_mem_bytes {s : String} (h : '\x00' ∉ s.toList) : 0 ∉ bytes s := by
  intro hmem
  obtain ⟨c, hc, hbyte⟩ := List.mem_flatMap.1 hmem
  rcases toNat_of_mem_encodeChar hbyte with hnat | hnat
  · have hzero : c = '\x00' := by
      rw [← Char.ofNat_toNat c, ← hnat]
      rfl
    exact h (hzero ▸ hc)
  · exact absurd hnat (by decide)

/-- What a byte ends that is not in it is told from what stands behind that byte. -/
theorem append_cons_inj {a b s t : Bytes} {mark : UInt8} (ha : mark ∉ a) (hb : mark ∉ b)
    (h : a ++ mark :: s = b ++ mark :: t) : a = b ∧ s = t := by
  have htake : ∀ c r : Bytes, mark ∉ c → (c ++ mark :: r).takeWhile (· != mark) = c := by
    intro c r hc
    have hall : ∀ d ∈ c, (d != mark) = true := fun d hd ↦ bne_iff_ne.2 fun heq ↦ hc (heq ▸ hd)
    rw [List.takeWhile_append_of_pos hall, List.takeWhile_cons_of_neg (by simp), List.append_nil]
  obtain rfl : a = b := (htake a s ha).symm.trans ((congrArg _ h).trans (htake b t hb))
  exact ⟨rfl, (List.cons.inj (List.append_cancel_left h)).2⟩

namespace Snapshot

theorem length_littleEndian (width n : Nat) : (littleEndian width n).length = width := by
  rw [littleEndian, List.length_map, List.length_range]

/-- The bytes of a number say what it is, but for multiples of what so many bytes can count. -/
theorem mod_eq_of_littleEndian {width m n : Nat} (h : littleEndian width m = littleEndian width n) :
    m % 256 ^ width = n % 256 ^ width := by
  induction width with
  | zero => rw [Nat.pow_zero, Nat.mod_one, Nat.mod_one]
  | succ width ih =>
    have hsplit : ∀ k, littleEndian (width + 1) k =
        littleEndian width k ++ [UInt8.ofNat (k / 256 ^ width)] := fun k ↦ by
      rw [littleEndian, List.range_succ, List.map_append, List.map_singleton]
      rfl
    rw [hsplit, hsplit] at h
    obtain ⟨hlow, hhigh⟩ := List.append_inj' h rfl
    have hbyte := congrArg UInt8.toNat (List.singleton_inj.1 hhigh)
    rw [UInt8.toNat_ofNat', UInt8.toNat_ofNat'] at hbyte
    rw [Nat.mod_pow_succ, Nat.mod_pow_succ, ih hlow]
    exact congrArg (n % 256 ^ width + 256 ^ width * ·) hbyte

end Snapshot

/-! ## Entries -/

namespace Entry

/-- What the digest is to tell of an entry: its path, how its content travels, and the bytes. -/
def record (e : Entry) : String × Encoding × Bytes := (e.path, e.encoding, e.bytes)

/-- **An entry is known from its record.** -/
theorem record_injective : Function.Injective record := by
  rintro ⟨path, content⟩ ⟨path', content'⟩ h
  obtain ⟨rfl, h⟩ := Prod.mk.inj h
  obtain ⟨hencoding, hbytes⟩ := Prod.mk.inj h
  cases content with
  | text s =>
    cases content' with
    | text t => rw [Text.Utf8.bytes_injective hbytes]
    | binary b => exact nomatch hencoding
  | binary b =>
    cases content' with
    | text t => exact nomatch hencoding
    | binary b' => exact congrArg (fun b ↦ Entry.mk path (.binary b)) hbytes

/-- It can be told where the path of an entry ends, and where its bytes end. -/
structure IsDelimited (e : Entry) : Prop where
  nul_not_mem : '\x00' ∉ e.path.toList
  length_lt : e.bytes.length < 2 ^ 64

theorem nul_not_mem_name (encoding : Encoding) : '\x00' ∉ encoding.name.toList := by
  cases encoding <;> decide

theorem name_injective : Function.Injective Encoding.name := by
  intro a b h
  cases a <;> cases b <;> simp_all [Encoding.name]

/-- **The entry that comes first is read back.** -/
theorem IsDelimited.append_inj {d e : Entry} (hd : d.IsDelimited) (he : e.IsDelimited) {s t : Bytes}
    (h : Snapshot.fingerprint d ++ s = Snapshot.fingerprint e ++ t) : d.record = e.record ∧ s = t := by
  simp only [Snapshot.fingerprint, List.append_assoc, List.cons_append] at h
  obtain ⟨hpath, h⟩ := append_cons_inj (Text.Utf8.zero_not_mem_bytes hd.nul_not_mem)
    (Text.Utf8.zero_not_mem_bytes he.nul_not_mem) h
  obtain ⟨hname, h⟩ := append_cons_inj (Text.Utf8.zero_not_mem_bytes (nul_not_mem_name _))
    (Text.Utf8.zero_not_mem_bytes (nul_not_mem_name _)) h
  obtain ⟨hcount, h⟩ := List.append_inj h
    ((Snapshot.length_littleEndian 8 _).trans (Snapshot.length_littleEndian 8 _).symm)
  have hlength : d.bytes.length = e.bytes.length := by
    have hmod := Snapshot.mod_eq_of_littleEndian hcount
    have hlt : d.bytes.length < 2 ^ 64 ∧ e.bytes.length < 2 ^ 64 := ⟨hd.length_lt, he.length_lt⟩
    omega
  obtain ⟨hbytes, hrest⟩ := List.append_inj h hlength
  refine ⟨Prod.ext (Text.Utf8.bytes_injective hpath) (Prod.ext ?_ hbytes), hrest⟩
  exact name_injective (Text.Utf8.bytes_injective hname)

theorem fingerprint_ne_nil (e : Entry) : Snapshot.fingerprint e ≠ [] := by
  rw [Snapshot.fingerprint]
  exact List.append_ne_nil_of_right_ne_nil _ (List.cons_ne_nil _ _)

/-- Entries are read back one after the other. -/
theorem map_record_eq_of_flatMap_fingerprint {xs ys : List Entry} (hxs : ∀ e ∈ xs, e.IsDelimited)
    (hys : ∀ e ∈ ys, e.IsDelimited)
    (h : xs.flatMap Snapshot.fingerprint = ys.flatMap Snapshot.fingerprint) :
    xs.map record = ys.map record := by
  induction xs generalizing ys with
  | nil =>
    cases ys with
    | nil => rfl
    | cons e rest =>
      rw [List.flatMap_nil, List.flatMap_cons, eq_comm, List.append_eq_nil_iff] at h
      exact absurd h.1 (fingerprint_ne_nil e)
  | cons d more ih =>
    cases ys with
    | nil =>
      rw [List.flatMap_nil, List.flatMap_cons, List.append_eq_nil_iff] at h
      exact absurd h.1 (fingerprint_ne_nil d)
    | cons e rest =>
      rw [List.flatMap_cons, List.flatMap_cons] at h
      obtain ⟨hrecord, hrest⟩ := (hxs d List.mem_cons_self).append_inj (hys e List.mem_cons_self) h
      rw [List.map_cons, List.map_cons, hrecord, ih (fun e he ↦ hxs e (List.mem_cons_of_mem _ he))
        (fun e he ↦ hys e (List.mem_cons_of_mem _ he)) hrest]

end Entry

namespace Snapshot

/-! ## The order of the paths -/

/-- The path of one entry comes before that of the other. -/
def Before (a b : Entry) : Prop := a.path < b.path

instance : Std.Irrefl Before := ⟨fun a ↦ String.lt_irrefl a.path⟩

instance : Std.Antisymm Before := ⟨fun _ _ h h' ↦ absurd h' (String.lt_asymm h)⟩

/-- The entries in the order of their paths. -/
def sorted (s : Snapshot) : List Entry := s.entries.mergeSort fun a b ↦ decide (a.path ≤ b.path)

theorem mem_sorted {s : Snapshot} {e : Entry} : e ∈ s.sorted ↔ e ∈ s.entries := List.mem_mergeSort

/-- No two paths of a snapshot are the same, so the order of the sorted ones is strict. -/
theorem pairwise_sorted (s : Snapshot) : s.sorted.Pairwise Before := by
  have hle : s.sorted.Pairwise fun a b ↦ decide (a.path ≤ b.path) = true := by
    refine List.pairwise_mergeSort (fun a b c hab hbc ↦ ?_) (fun a b ↦ ?_) s.entries
    · exact decide_eq_true (String.le_trans (of_decide_eq_true hab) (of_decide_eq_true hbc))
    · simpa only [Bool.or_eq_true, decide_eq_true_eq] using String.le_total a.path b.path
  have hne : s.sorted.Pairwise fun a b ↦ a.path ≠ b.path :=
    List.pairwise_map.1 (((List.mergeSort_perm _ _).map Entry.path).nodup_iff.2 s.nodup_paths)
  refine (hle.and hne).imp fun {a b} h ↦ ?_
  exact String.not_le.1 fun hge ↦ h.2 (String.le_antisymm (of_decide_eq_true h.1) hge)

/-- **Snapshots of the same entries have them in the same order of paths.** -/
theorem sorted_eq_of_mem_iff {s t : Snapshot} (h : ∀ e, e ∈ s.entries ↔ e ∈ t.entries) :
    s.sorted = t.sorted :=
  s.pairwise_sorted.eq_of_mem_iff t.pairwise_sorted fun e ↦
    mem_sorted.trans ((h e).trans mem_sorted.symm)

/-! ## Whole snapshots -/

/-- What the digest is to tell of a snapshot. -/
def records (s : Snapshot) : List (String × Encoding × Bytes) := s.entries.map Entry.record

theorem record_mem_records {s : Snapshot} {e : Entry} : e.record ∈ s.records ↔ e ∈ s.entries := by
  rw [records, List.mem_map_of_injective Entry.record_injective]

/-- **The bytes of the digest identify what a snapshot has**: its paths, each with its encoding and
its content.  Snapshots that have the same, in whatever order, have the same bytes and so the same
digest.  Snapshots with the same bytes have the same, if no path of either holds a zero character
and no content is too long to be counted in eight bytes. -/
theorem digest_identifies (s t : Snapshot) :
    ((∀ r, r ∈ s.records ↔ r ∈ t.records) →
      s.canonicalBytes = t.canonicalBytes ∧ s.digest = t.digest) ∧
    ((∀ e ∈ s.entries ++ t.entries, '\x00' ∉ e.path.toList ∧ e.bytes.length < 2 ^ 64) →
      (s.canonicalBytes = t.canonicalBytes ↔ ∀ r, r ∈ s.records ↔ r ∈ t.records)) := by
  have hsame : (∀ r, r ∈ s.records ↔ r ∈ t.records) → s.canonicalBytes = t.canonicalBytes := by
    intro h
    have hsorted := sorted_eq_of_mem_iff fun e ↦
      record_mem_records.symm.trans ((h e.record).trans record_mem_records)
    exact congrArg (List.flatMap fingerprint) hsorted
  refine ⟨fun h ↦ ⟨hsame h, congrArg Sha256.hex (hsame h)⟩, fun hdelimited ↦ ⟨fun h r ↦ ?_, hsame⟩⟩
  have hs : ∀ e ∈ s.sorted, e.IsDelimited := fun e he ↦
    ⟨(hdelimited e (List.mem_append_left _ (mem_sorted.1 he))).1,
      (hdelimited e (List.mem_append_left _ (mem_sorted.1 he))).2⟩
  have ht : ∀ e ∈ t.sorted, e.IsDelimited := fun e he ↦
    ⟨(hdelimited e (List.mem_append_right _ (mem_sorted.1 he))).1,
      (hdelimited e (List.mem_append_right _ (mem_sorted.1 he))).2⟩
  have hrecords : s.sorted.map Entry.record = t.sorted.map Entry.record :=
    Entry.map_record_eq_of_flatMap_fingerprint hs ht h
  have hperm : ∀ u : Snapshot, r ∈ u.records ↔ r ∈ u.sorted.map Entry.record := fun u ↦
    ((List.mergeSort_perm _ _).map Entry.record).mem_iff.symm
  rw [hperm s, hperm t, hrecords]

/-- Two empty files. -/
def pair : List Entry := [⟨"a", .text ""⟩, ⟨"b", .text ""⟩]

/-- One empty file.  Behind the zero character its path goes on as if it were two. -/
def lookalike : List Entry :=
  [⟨"a\x00text\x00\x00\x00\x00\x00\x00\x00\x00\x00b", .text ""⟩]

theorem digest_identifies_of_nul :
    ∃ s t u : Snapshot, s.entries = pair ∧ t.entries = pair.reverse ∧ u.entries = lookalike ∧
      (s.canonicalBytes = t.canonicalBytes ∧ s.digest = t.digest) ∧
      s.canonicalBytes ≠ empty.canonicalBytes ∧
      s.canonicalBytes = u.canonicalBytes ∧ ¬ ∀ r, r ∈ s.records ↔ r ∈ u.records := by
  have hmade : ∀ entries ∈ [pair, pair.reverse, lookalike],
      (ofList entries).map Snapshot.entries = .ok entries := by decide +kernel
  obtain ⟨s, -, hs⟩ := Outcome.map_eq_ok.1 (hmade pair (by decide))
  obtain ⟨t, -, ht⟩ := Outcome.map_eq_ok.1 (hmade pair.reverse (by decide))
  obtain ⟨u, -, hu⟩ := Outcome.map_eq_ok.1 (hmade lookalike (by decide))
  have hbytes : s.canonicalBytes = u.canonicalBytes := by
    rw [canonicalBytes, canonicalBytes, hs, hu, List.mergeSort_of_pairwise (by decide),
      List.mergeSort_of_pairwise (by decide)]
    decide +kernel
  refine ⟨s, t, u, hs, ht, hu, (digest_identifies s t).1 fun r ↦ ?_, fun h ↦ ?_, hbytes, fun h ↦ ?_⟩
  · rw [records, records, hs, ht, List.map_reverse, List.mem_reverse]
  · have hplain : ∀ e ∈ s.entries ++ empty.entries, '\x00' ∉ e.path.toList ∧
        e.bytes.length < 2 ^ 64 := by
      rw [hs]
      decide +kernel
    have hmem : Entry.record ⟨"a", .text ""⟩ ∈ s.records := by
      rw [record_mem_records, hs]
      decide
    exact absurd (((digest_identifies s empty).2 hplain).1 h _ |>.1 hmem) (List.not_mem_nil)
  · have hmem : Entry.record ⟨"a", .text ""⟩ ∈ u.records := by
      rw [← h, record_mem_records, hs]
      decide
    rw [record_mem_records, hu] at hmem
    exact absurd hmem (by decide)

end Snapshot
end FirmwareLane
