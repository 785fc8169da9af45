import FirmwareLane.Proofs.Json.Places
import FirmwareLane.Proofs.Message.Kept
import FirmwareLane.Proofs.Text.Base64
import FirmwareLane.Proofs.Transfer.Recording

/-!
# Snapshots on their way

An entry is sent with its path, the kind of its content, and the content: text as it is, and bytes
as a text of symbols.  Both come back (`Entry.travels`).  A snapshot is sent as the list of its
entries, which are added to an empty one when they arrive.  None of them is refused or changed,
since their paths have normal form, stay below the root and differ from each other
(`ofList_entries`).  So a snapshot comes back as it was, from its text and from any place of a value
that it was sent in (`wire_round_trip`).
-/

set_option autoImplicit false
namespace FirmwareLane

open Json (Wire Within HasIntegers)
open Json.Record (placed)
open Json.Outcome (seq)

/-! ## Entries -/

namespace Entry

theorem symbols_encode (b : Text.Bytes) (origin : Json.Origin) :
    symbols origin (.text (String.ofList (Text.Base64.encode b))) = .ok b := by
  have hbytes : Text.Base64.decode (Text.Utf8.bytes (String.ofList (Text.Base64.encode b))) =
      .ok b := by
    rw [Text.Utf8.bytes, String.toList_ofList, Text.Base64.decode_encode]
  refine Outcome.bind_eq_ok.2 ⟨_, rfl, ?_⟩
  rw [hbytes]

theorem travels (e : Entry) : Json.Travels e where
  written := by
    obtain ⟨path, s | b⟩ := e
    · rfl
    · refine Json.fieldsOf_eq rfl ?_
      show seq (Json.Outcome.map (fun path b ↦ Entry.mk path (.binary b)) (placed 0 (.ok path)))
        (placed 1 (symbols .kept (.text (String.ofList (Text.Base64.encode b))))) = _
      rw [symbols_encode]
      rfl
  kept := by
    -- in the order of the names the content stands in front of the path
    obtain ⟨path, s | b⟩ := e
    · rfl
    · refine Json.fieldsOf_eq rfl ?_
      show seq (Json.Outcome.map (fun path b ↦ Entry.mk path (.binary b)) (placed 1 (.ok path)))
        (placed 0 (symbols .kept (.text (String.ofList (Text.Base64.encode b))))) = _
      rw [symbols_encode]
      rfl

end Entry

/-! ## Snapshots -/

namespace Snapshot

/-- **Entries that follow the rules are added as they are.** -/
theorem Catalogue.exists_insertAll {c : Catalogue} (h : c.Consistent) {entries : List Entry}
    (hadmitted : ∀ e ∈ entries, Path.IsAdmitted e.path)
    (hnodup : ((c.entries ++ entries).map Entry.path).Nodup) :
    ∃ d, (insertAll entries).perform c = (.ok (), d) ∧ d.entries = c.entries ++ entries := by
  induction entries generalizing c with
  | nil => exact ⟨c, rfl, (List.append_nil _).symm⟩
  | cons e rest ih =>
    obtain ⟨hnormal, hcontained⟩ := hadmitted e List.mem_cons_self
    have hsame : e.normalized = e := by rw [Entry.normalized, hnormal]
    -- what is there already has other paths, and so have the entries behind this one
    have hnew : ¬ c.contains e.path = true := by
      rw [h.contains_iff]
      rw [List.map_append, List.nodup_append] at hnodup
      exact fun hmem ↦ hnodup.2.2 _ hmem _ List.mem_cons_self rfl
    have hinsert := perform_insert e c
    rw [hsame, if_pos hcontained, if_neg hnew] at hinsert
    have hconsistent := consistent_insert h e
    rw [hinsert] at hconsistent
    rw [List.append_cons] at hnodup
    obtain ⟨d, hd, hentries⟩ :=
      ih hconsistent (fun other hother ↦ hadmitted other (List.mem_cons_of_mem _ hother)) hnodup
    refine ⟨d, ?_, hentries.trans (List.append_cons _ _ _).symm⟩
    rw [insertAll, Action.perform_bind_ok hinsert, hd]

/-- **The entries of a snapshot make it up again.** -/
theorem ofList_entries (s : Snapshot) : ofList s.entries = .ok s := by
  have hadmitted : ∀ e ∈ s.entries, Path.IsAdmitted e.path := fun e he ↦ s.admitted he
  obtain ⟨d, hd, hentries⟩ :=
    Catalogue.exists_insertAll Catalogue.consistent_empty hadmitted s.nodup_paths
  have hlist : Catalogue.ofList s.entries = .ok d := by rw [Catalogue.ofList, hd]
  rw [ofList]
  split
  · next c hc =>
    cases hc.symm.trans hlist
    exact congrArg _ (ext hentries)
  · next r hr => cases hr.symm.trans hlist

theorem decode_sequence {s : Snapshot} {origin : Json.Origin} {d : Document}
    (h : Json.sequence (Wire.decode (α := Entry)) origin d = .ok s.entries) :
    (Wire.decode origin d : Except Json.Fault Snapshot) = .ok s := by
  refine Outcome.bind_eq_ok.2 ⟨_, h, ?_⟩
  rw [ofList_entries]

theorem travels (s : Snapshot) : Json.Travels s where
  written := decode_sequence (Json.sequence_array fun e _ ↦ e.travels.written)
  kept := decode_sequence (Json.sequence_sorted fun e _ ↦ e.travels.kept)

/-- **A snapshot comes back as it was**: from its text, and from any place of a value in memory that
was read from text, whatever else was in that text.  Such a text is read if it is not nested too
deep, floating point numbers apart. -/
theorem wire_round_trip (s : Snapshot) :
    Wire.ofText (Wire.print s) = .ok s ∧
      Wire.ofBytes (Text.Utf8.bytes (Wire.print s)) = .ok s ∧
      ∀ (whole part : Json) (place : List Json.Key), HasIntegers whole →
        whole.at? place = some part → part = Wire.encode s ∨ part = (Wire.encode s).sorted →
          (∀ read, Json.parse? whole.print = some read →
            ∃ c, read.at? place = some c ∧ Wire.ofJson c = .ok s) ∧
          (Within Json.greatestDepth whole → ∃ read, Json.parse? whole.print = some read) := by
  have htext : Wire.ofText (Wire.print s) = .ok s := by
    rw [Wire.ofText_print (s.within_encode.mono (by decide)), s.travels.written]
  refine ⟨htext, (Wire.ofBytes_bytes _).trans htext, ?_⟩
  intro whole part place hwhole hpart hstands
  constructor
  · intro read hread
    exact s.travels.ofJson_at? s.within_encode hwhole hread hpart hstands
  · exact fun hwithin ↦ ⟨_, Json.parse?_print_of_within hwithin⟩

/-- Files of text and of bytes, with marks in a path and in the text. -/
def carried : List Entry :=
  [⟨"a\x01\n/ü.c", .text "\"\t\\\x7f\r\n"⟩, ⟨"one.bin", .binary [0]⟩, ⟨"two.bin", .binary [0, 255]⟩]

/-- A value around another one, with a floating point number and a member that is lost. -/
def surrounded (part : Json) : Json :=
  .object [("share", .float ⟨false, 4503599627370496, -53⟩), ("files", .null), ("files", part)]

theorem wire_round_trip_surrounded :
    ∃ (s : Snapshot) (read c : Json), s.entries = carried ∧
      Json.parse? (surrounded (Wire.encode s)).print = some read ∧
      read.at? [.member "files"] = some c ∧ Wire.ofJson c = .ok s := by
  have hcarried : (ofList carried).map entries = .ok carried := by decide +kernel
  obtain ⟨s, -, hentries⟩ := Outcome.map_eq_ok.1 hcarried
  have hintegers : HasIntegers (surrounded (Wire.encode s)) := by
    refine .object fun member hmember ↦ ?_
    rcases hmember with _ | ⟨_, _ | ⟨_, _ | ⟨_, ⟨⟩⟩⟩⟩
    · exact .float _
    · exact .null
    · exact s.within_encode.hasIntegers
  have hreadable : (Json.parse? (surrounded (Wire.encode s)).print).isSome = true := by
    rw [show Wire.encode s = .array (s.entries.map Wire.encode) from rfl, hentries]
    decide +kernel
  obtain ⟨read, hread⟩ := Option.isSome_iff_exists.1 hreadable
  obtain ⟨c, hc, hback⟩ :=
    (s.wire_round_trip.2.2 _ _ [.member "files"] hintegers rfl (.inl rfl)).1 read hread
  exact ⟨s, read, c, hentries, hread, hc, hback⟩

end Snapshot
end FirmwareLane
