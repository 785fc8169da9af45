import FirmwareLane.Proofs.Json.Records
import FirmwareLane.Proofs.Snapshot.Travelling

/-!
# Payloads on their way

What a worker is asked for and what it answers come back as they were: operations, the reports on
them, and the response to a run with the files it brings back.  A field that has nothing to say is
left out of a report, and comes back as nothing.

The numbers of a report fit their types (`Report.Fits`), and the time in it is one that is read from
its own notation (`Timestamp.IsReread`).
-/

set_option autoImplicit false
namespace FirmwareLane

open Json (Wire Within Way)
open Json.Outcome (map_value seq_value)

/-! ## Numbers and times -/

theorem Json.naturalOf_nat {n bits : Nat} (h : n < 2 ^ bits) (wanted : String) (origin : Origin) :
    naturalOf wanted bits origin (.ofJson (.nat n)) = .ok n := by
  have hgreatest : (n : Int) ≤ Nat.pow 2 bits - 1 := Int.le_sub_one_of_lt (Int.ofNat_lt.2 h)
  have hread : integerIn wanted 0 (Nat.pow 2 bits - 1) origin (.integer n) = .ok (n : Int) :=
    if_pos ⟨Int.natCast_nonneg n, hgreatest⟩
  exact congrArg (Except.map Int.toNat) hread

theorem Json.Way.naturalOf_nat (way : Way) {n bits : Nat} (h : n < 2 ^ bits) (wanted : String) :
    naturalOf wanted bits way.origin (way.document (.nat n)) = .ok n := by
  cases way <;> exact Json.naturalOf_nat h wanted _

theorem Json.Way.int32_integer (way : Way) {n : Int} (h : IsInt32 n) :
    int32 way.origin (way.document (.integer n)) = .ok n := by
  cases way <;> exact h.decode_eq _

theorem Json.Way.string_text (way : Way) (s : String) :
    string way.origin (way.document (.text s)) = .ok s := by
  cases way <;> rfl

theorem Json.Way.boolean_bool (way : Way) (b : Bool) :
    boolean way.origin (way.document (.bool b)) = .ok b := by
  cases way <;> rfl

theorem Json.Way.integer_ne_null (way : Way) (n : Int) : way.document (.integer n) ≠ .null := by
  cases way <;> exact Document.noConfusion

theorem Json.Way.text_ne_null (way : Way) (s : String) : way.document (.text s) ≠ .null := by
  cases way <;> exact Document.noConfusion

/-- A point in time that is read from its own notation. -/
def Timestamp.IsReread (t : Timestamp) : Prop := read t.render.toList = .ok t

theorem Timestamp.IsReread.travels {t : Timestamp} (h : t.IsReread) : Json.Travels t := by
  refine .of_ways fun way ↦ Outcome.bind_eq_ok.2 ⟨t.render, by cases way <;> rfl, ?_⟩
  rw [show read t.render.toList = .ok t from h]

/-! ## Assembling -/

theorem AsmRequest.travels (r : AsmRequest) : Json.Travels r where
  written := rfl
  kept := rfl

theorem AsmResponse.travels {r : AsmResponse} (h : ∀ word ∈ r.words, word < 2 ^ 32) :
    Json.Travels r := by
  have hencode : Wire.encode r = Json.present [("words", some (.array (r.words.map .nat)))] := rfl
  refine Json.travels_of_present rfl hencode rfl (by decide) fun way described hnodup ↦ ?_
  have hwords : Json.sequence (Json.naturalOf "u32" 32) way.origin
      (way.document (.array (r.words.map Json.nat))) = .ok r.words :=
    way.sequence_array fun word hword ↦ way.naturalOf_nat (h word hword) "u32"
  exact Eq.trans (map_value (Json.required_of_given hnodup rfl hwords)) rfl

/-! ## Running operations -/

theorem Status.travels (s : Status) : Json.Travels s := by
  cases s <;> exact ⟨rfl, rfl⟩

theorem Operation.travels (operation : Operation) : Json.Travels operation := by
  cases operation with
  | shell interpreter commandLine => cases interpreter <;> exact ⟨rfl, rfl⟩
  | reset => exact ⟨rfl, rfl⟩

/-- A report whose parts come back: its numbers fit their types, and the time is reread. -/
structure Report.IsSendable (r : Report) : Prop where
  fits : r.Fits
  reread : ∀ t, r.startedAt = some t → t.IsReread

/-- **A report travels**, whichever of its fields are left out. -/
theorem Report.travels {r : Report} (h : r.IsSendable) : Json.Travels r := by
  refine Json.travels_of_present rfl rfl rfl (by decide) fun way described hnodup ↦ ?_
  have hcode : ∀ code, r.exitCode = some code →
      Json.int32 way.origin (way.document (.integer code)) = .ok code :=
    fun code hcode ↦ way.int32_integer (h.fits.isInt32_of_exitCode code hcode)
  have htime : ∀ t, r.startedAt = some t →
      Wire.decode way.origin (way.document (Wire.encode t)) = .ok t :=
    fun t ht ↦ (h.reread t ht).travels.decode_eq way
  refine Eq.trans (seq_value (seq_value (seq_value (seq_value (seq_value (seq_value (seq_value
    (map_value (Json.required_of_given hnodup rfl (way.naturalOf_nat h.fits.index_lt "usize")))
    (Json.required_of_given hnodup rfl (r.operation.travels.decode_eq way)))
    (Json.required_of_given hnodup rfl (r.status.travels.decode_eq way)))
    (Json.withDefault_of_option hnodup rfl way.integer_ne_null hcode))
    (Json.withDefault_of_given hnodup rfl (way.string_text r.stdout)))
    (Json.withDefault_of_given hnodup rfl (way.string_text r.stderr)))
    (Json.withDefault_of_option hnodup rfl (fun _ ↦ way.text_ne_null _) htime))
    (Json.withDefault_of_given hnodup rfl (way.naturalOf_nat h.fits.durationMs_lt "u64"))) rfl

/-- **A response to a run travels.** -/
theorem RunResponse.travels {r : RunResponse} (h : ∀ report ∈ r.reports, report.IsSendable) :
    Json.Travels r := by
  refine Json.travels_of_present rfl rfl rfl (by decide) fun way described hnodup ↦ ?_
  have hreports : Json.Travels r.reports :=
    Json.travels_list fun report hreport ↦ Report.travels (h report hreport)
  refine Eq.trans (seq_value (seq_value (seq_value
    (map_value (Json.required_of_given hnodup rfl (way.boolean_bool r.succeeded)))
    (Json.required_of_given hnodup rfl (r.snapshot.travels.decode_eq way)))
    (Json.withDefault_of_option hnodup rfl way.text_ne_null fun text _ ↦ way.string_text text))
    (Json.withDefault_of_given hnodup rfl (hreports.decode_eq way))) rfl

/-! ## Coming back -/

/-- **The response to a run comes back as it was, and so does a list of operations**: from text, from
bytes and from memory. -/
theorem response_comes_back :
    (∀ r : RunResponse, (∀ report ∈ r.reports, report.Fits) →
      (∀ report ∈ r.reports, ∀ t, report.startedAt = some t → t.IsReread) → Json.ComesBack r) ∧
    ∀ operations : List Operation, Json.ComesBack operations := by
  constructor
  · intro r hfits hreread
    have htravels : Json.Travels r :=
      RunResponse.travels fun report hreport ↦ ⟨hfits report hreport, hreread report hreport⟩
    exact htravels.comesBack ((RunResponse.within_encode hfits).mono (by decide))
  · intro operations
    have htravels : Json.Travels operations :=
      Json.travels_list fun operation _ ↦ operation.travels
    have hwithin : Within 2 (Wire.encode operations) :=
      Json.within_list fun operation _ ↦ operation.within_encode
    exact htravels.comesBack (hwithin.mono (by decide))

/-- A report with the greatest numbers, with marks in its texts, that began in an inserted second. -/
def crowded : Report where
  index := 2 ^ 64 - 1
  operation := .shell .native "\"\x01\n"
  status := .timedOut
  exitCode := some (-2147483648)
  stdout := "\x00ü"
  stderr := "\r\n"
  startedAt := some ⟨1483228799, 1500000000⟩
  durationMs := 2 ^ 64 - 1

/-- Files, and reports with all fields and with as few as can be, come back. -/
theorem response_comes_back_of_crowded :
    ∃ s : Snapshot, s.entries = Snapshot.carried ∧
      Json.ComesBack (RunResponse.mk false s (some "\\") [crowded, .skipped 0 .reset]) ∧
      Json.ComesBack [Operation.reset, .shell .posix ""] := by
  have hcarried : (Snapshot.ofList Snapshot.carried).map Snapshot.entries =
      .ok Snapshot.carried := by decide +kernel
  obtain ⟨s, -, hentries⟩ := Outcome.map_eq_ok.1 hcarried
  have hcrowded : crowded.Fits :=
    ⟨by decide, (fun code hcode ↦ by cases hcode; simp [Json.IsInt32]), by decide⟩
  have hskipped : (Report.skipped 0 .reset).Fits :=
    ⟨by decide, (fun code hcode ↦ by cases hcode), by decide⟩
  refine ⟨s, hentries, response_comes_back.1 _ (fun report hreport ↦ ?_) fun report hreport t ht ↦ ?_,
    response_comes_back.2 _⟩
  · rcases List.mem_pair.1 hreport with rfl | rfl
    · exact hcrowded
    · exact hskipped
  · rcases List.mem_pair.1 hreport with rfl | rfl
    · cases ht
      show Timestamp.read _ = _
      decide +kernel
    · cases ht

end FirmwareLane
