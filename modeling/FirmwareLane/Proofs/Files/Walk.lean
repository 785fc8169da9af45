import FirmwareLane.Proofs.Files.Sound
import FirmwareLane.Proofs.Outcome

/-!
# Where names lead

A walk along names stops for many reasons, and only some end well.  `Leads` says what those are, one
step at a time, and is the walk itself as far as that succeeds (`walk_eq_ok`), so that a proof about
successful walks goes by the steps that were made and not by the order in which the walk looks for
faults.

From what is known about one walk two others are known: the walk that goes on from its end
(`walk_append`), and the same walk in a tree that has grown (`Leads.of_extends`).
-/

set_option autoImplicit false
namespace FirmwareLane
namespace Files

open Node (Permission)

/-! ## Steps -/

/-- At a place is a directory whose names may be followed. -/
def Searchable (root : Node) (place : Place) : Prop :=
  ∃ m, root.faceAt? place = some (.directory m []) ∧ (Node.directory m []).allows .search = true

theorem allows_directory (p : Permission) (m : Nat) (es : List (String × Node)) :
    (Node.directory m es).allows p = (Node.directory m []).allows p := rfl

theorem searchable_iff {root : Node} {place : Place} :
    Searchable root place ↔ ∃ m es, root.at? place = some (.directory m es) ∧
      (Node.directory m es).allows .search = true := by
  constructor
  · rintro ⟨m, hface, hallows⟩
    obtain ⟨es, hes⟩ := Node.faceAt?_eq_directory.1 hface
    exact ⟨m, es, hes, hallows⟩
  · rintro ⟨m, es, hes, hallows⟩
    exact ⟨m, Node.faceAt?_eq_directory.2 ⟨es, hes⟩, hallows⟩

/-- A step that asks for an entry of a directory. -/
structure IsEntryStep (step : String) : Prop where
  notHere : step ≠ "."
  notAbove : step ≠ ".."
  size : step.utf8ByteSize ≤ greatestName

theorem isEntryStep_of_isName {name : String} (h : IsName name) : IsEntryStep name :=
  ⟨h.notHere, h.notAbove, h.size⟩

variable {root : Node} {follow : Bool} {jump : Place → List String → Except Fault Target}
  {place : Place} {rest : List String}

theorem walkOn_nil (follow : Bool) (jump : Place → List String → Except Fault Target)
    (h : root.at? place ≠ none) :
    ∃ node, root.at? place = some node ∧
      walkOn root follow jump place [] = .ok (.present place node) := by
  obtain ⟨node, hnode⟩ := Option.ne_none_iff_exists'.1 h
  refine ⟨node, hnode, ?_⟩
  rw [walkOn, hnode]

theorem walkOn_here (h : Searchable root place) :
    walkOn root follow jump place ("." :: rest) = walkOn root follow jump place rest := by
  obtain ⟨m, es, hplace, hallows⟩ := searchable_iff.1 h
  rw [walkOn, hplace]
  simp only [hallows, Bool.not_true, Bool.false_eq_true, if_false, if_true]

theorem walkOn_above (h : Searchable root place) :
    walkOn root follow jump place (".." :: rest) = walkOn root follow jump place.dropLast rest := by
  obtain ⟨m, es, hplace, hallows⟩ := searchable_iff.1 h
  rw [walkOn, hplace]
  simp only [hallows, Bool.not_true, Bool.false_eq_true, if_false, if_true,
    show ".." ≠ "." by decide]

/-- What a walk does where it comes to a name in a directory. -/
theorem walkOn_entry (h : Searchable root place) {step : String} (hstep : IsEntryStep step) :
    walkOn root follow jump place (step :: rest) =
      match root.at? (place ++ [step]) with
      | none => if rest.isEmpty then .ok (.vacant (place ++ [step])) else .error .notFound
      | some (.link target) =>
        if rest.isEmpty && !follow then .ok (.present (place ++ [step]) (.link target))
        else if target.isEmpty then .error .notFound
        else jump (if isAbsolute target then [] else place) (steps target ++ rest)
      | some _ => walkOn root follow jump (place ++ [step]) rest := by
  obtain ⟨m, es, hplace, hallows⟩ := searchable_iff.1 h
  have hlookup : root.at? (place ++ [step]) = es.lookup step := by
    rw [Node.at?_concat, hplace]
    rfl
  rw [walkOn, hplace, hlookup]
  exact (if_neg (by simp [hallows])).trans <| (if_neg hstep.notHere).trans <|
    (if_neg hstep.notAbove).trans (if_neg (Nat.not_lt.2 hstep.size))

/-- A walk that goes on makes its step in a directory that may be gone through. -/
theorem step_of_walkOn {step : String} {t : Target}
    (h : walkOn root follow jump place (step :: rest) = .ok t) :
    Searchable root place ∧ (step = "." ∨ step = ".." ∨ IsEntryStep step) := by
  rw [walkOn] at h
  split at h
  · cases h
  · next m es hplace =>
    split at h
    · cases h
    · next hallows =>
      refine ⟨searchable_iff.2 ⟨m, es, hplace, by simpa using hallows⟩, ?_⟩
      by_cases hhere : step = "."
      · exact .inl hhere
      · by_cases habove : step = ".."
        · exact .inr (.inl habove)
        · rw [if_neg hhere, if_neg habove] at h
          split at h
          · cases h
          · next hsize => exact .inr (.inr ⟨hhere, habove, Nat.not_lt.1 hsize⟩)
  · cases h

/-! ## Walks that succeed -/

/-- Where names lead to from a place, through at most so many links: each step of a walk that
succeeds. -/
inductive Leads (root : Node) (follow : Bool) : Nat → Place → List String → Target → Prop
  | present {links : Nat} {place : Place} {node : Node} (h : root.at? place = some node) :
      Leads root follow links place [] (.present place node)
  | here {links : Nat} {place : Place} {rest : List String} {t : Target}
      (h : Searchable root place) (more : Leads root follow links place rest t) :
      Leads root follow links place ("." :: rest) t
  | above {links : Nat} {place : Place} {rest : List String} {t : Target}
      (h : Searchable root place) (more : Leads root follow links place.dropLast rest t) :
      Leads root follow links place (".." :: rest) t
  | vacant {links : Nat} {place : Place} {step : String} (h : Searchable root place)
      (hstep : IsEntryStep step) (hnone : root.at? (place ++ [step]) = none) :
      Leads root follow links place [step] (.vacant (place ++ [step]))
  | into {links : Nat} {place : Place} {step : String} {rest : List String} {t : Target} {c : Node}
      (h : Searchable root place) (hstep : IsEntryStep step)
      (hentry : root.at? (place ++ [step]) = some c) (hlink : c.isLink = false)
      (more : Leads root follow links (place ++ [step]) rest t) :
      Leads root follow links place (step :: rest) t
  | link {links : Nat} {place : Place} {step target : String} (h : Searchable root place)
      (hstep : IsEntryStep step) (hentry : root.at? (place ++ [step]) = some (.link target))
      (hfollow : follow = false) :
      Leads root follow links place [step] (.present (place ++ [step]) (.link target))
  | jump {links : Nat} {place : Place} {step target : String} {rest : List String} {t : Target}
      (h : Searchable root place) (hstep : IsEntryStep step)
      (hentry : root.at? (place ++ [step]) = some (.link target))
      (hfollow : (rest.isEmpty && !follow) = false) (htarget : target.isEmpty = false)
      (more : Leads root follow links (if isAbsolute target then [] else place)
        (steps target ++ rest) t) :
      Leads root follow (links + 1) place (step :: rest) t

/-- What a walk does after one link more. -/
def afterLink (root : Node) (follow : Bool) : Nat → Place → List String → Except Fault Target
  | 0 => fun _ _ ↦ .error .tooManyLinks
  | links + 1 => walk root follow links

theorem walk_eq_walkOn (links : Nat) :
    walk root follow links = walkOn root follow (afterLink root follow links) := by
  cases links <;> rfl

theorem Leads.walk_eq {links : Nat} {names : List String} {t : Target}
    (h : Leads root follow links place names t) : walk root follow links place names = .ok t := by
  induction h with
  | present h => rw [walk_eq_walkOn, walkOn, h]
  | here h more ih => rw [walk_eq_walkOn, walkOn_here h, ← walk_eq_walkOn, ih]
  | above h more ih => rw [walk_eq_walkOn, walkOn_above h, ← walk_eq_walkOn, ih]
  | vacant h hstep hnone =>
    rw [walk_eq_walkOn, walkOn_entry h hstep, hnone]
    rfl
  | @into links place step rest t c h hstep hentry hlink more ih =>
    rw [walk_eq_walkOn, walkOn_entry h hstep, hentry]
    cases c with
    | link target => exact nomatch hlink
    | file m b i => exact walk_eq_walkOn links ▸ ih
    | directory m es => exact walk_eq_walkOn links ▸ ih
    | device d => exact walk_eq_walkOn links ▸ ih
  | link h hstep hentry hfollow =>
    rw [walk_eq_walkOn, walkOn_entry h hstep, hentry, hfollow]
    rfl
  | jump h hstep hentry hfollow htarget more ih =>
    rw [walk_eq_walkOn, walkOn_entry h hstep, hentry]
    simp only [hfollow, htarget, Bool.false_eq_true, if_false]
    exact ih

theorem leads_of_walkOn {links : Nat} {t : Target}
    (hjump : ∀ place names, afterLink root follow links place names = .ok t →
      ∃ fewer, links = fewer + 1 ∧ Leads root follow fewer place names t)
    {names : List String}
    (h : walkOn root follow (afterLink root follow links) place names = .ok t) :
    Leads root follow links place names t := by
  induction names generalizing place with
  | nil =>
    rw [walkOn] at h
    cases hnode : root.at? place with
    | none => rw [hnode] at h; cases h
    | some node =>
      rw [hnode] at h
      exact Except.ok.inj h ▸ .present hnode
  | cons step rest ih =>
    obtain ⟨hsearch, rfl | rfl | hstep⟩ := step_of_walkOn h
    · rw [walkOn_here hsearch] at h
      exact .here hsearch (ih h)
    · rw [walkOn_above hsearch] at h
      exact .above hsearch (ih h)
    rw [walkOn_entry hsearch hstep] at h
    split at h
    · next hnone =>
      split at h
      · next hempty =>
        obtain rfl := List.isEmpty_iff.1 hempty
        exact Except.ok.inj h ▸ .vacant hsearch hstep hnone
      · cases h
    · next target hentry =>
      split at h
      · next hend =>
        obtain ⟨hempty, hfollow⟩ := (Bool.and_eq_true _ _).mp hend
        obtain rfl := List.isEmpty_iff.1 hempty
        exact Except.ok.inj h ▸ .link hsearch hstep hentry (by simpa using hfollow)
      · next hfollow =>
        split at h
        · cases h
        · next htarget =>
          obtain ⟨fewer, rfl, hmore⟩ := hjump _ _ h
          exact .jump hsearch hstep hentry (Bool.eq_false_iff.2 hfollow)
            (Bool.eq_false_iff.2 htarget) hmore
    · next c hlink hentry =>
      refine .into hsearch hstep hentry ?_ (ih h)
      cases c with
      | link target => exact absurd rfl (hlink target)
      | file m b i => rfl
      | directory m es => rfl
      | device d => rfl

/-- **A walk succeeds exactly by the steps of `Leads`.** -/
theorem walk_eq_ok {links : Nat} {names : List String} {t : Target} :
    walk root follow links place names = .ok t ↔ Leads root follow links place names t := by
  refine ⟨fun h ↦ ?_, Leads.walk_eq⟩
  induction links generalizing place names with
  | zero =>
    rw [walk_eq_walkOn] at h
    exact leads_of_walkOn (fun _ _ h ↦ absurd h (by simp [afterLink])) h
  | succ links ih =>
    rw [walk_eq_walkOn] at h
    exact leads_of_walkOn (fun _ _ h ↦ ⟨links, rfl, ih h⟩) h

/-! ## Walks that go on -/

/-- A node that a walk comes to is in the tree. -/
theorem Leads.at? {links : Nat} {names : List String} {t : Target}
    (h : Leads root follow links place names t) {R : Place} {node : Node}
    (ht : t = .present R node) : root.at? R = some node := by
  induction h with
  | present h => cases ht; exact h
  | here _ _ ih => exact ih ht
  | above _ _ ih => exact ih ht
  | vacant _ _ _ => exact nomatch ht
  | into _ _ _ _ _ ih => exact ih ht
  | link _ _ hentry _ => cases ht; exact hentry
  | jump _ _ _ _ _ _ ih => exact ih ht

/-- **A walk goes on from where it came to.** -/
theorem walk_append {links : Nat} {names : List String} {t : Target}
    (h : Leads root true links place names t) {R : Place} {node : Node} (ht : t = .present R node)
    {more : List String} (hmore : more ≠ [] ∨ follow = true) :
    ∃ jump, walk root follow links place (names ++ more) = walkOn root follow jump R more := by
  induction h with
  | @present links place node h =>
    cases ht
    exact ⟨afterLink root follow links, congrFun (congrFun (walk_eq_walkOn links) _) _⟩
  | @here links place rest t h _ ih =>
    obtain ⟨jump, hjump⟩ := ih ht
    refine ⟨jump, ?_⟩
    rw [List.cons_append, walk_eq_walkOn, walkOn_here h, ← walk_eq_walkOn, hjump]
  | @above links place rest t h _ ih =>
    obtain ⟨jump, hjump⟩ := ih ht
    refine ⟨jump, ?_⟩
    rw [List.cons_append, walk_eq_walkOn, walkOn_above h, ← walk_eq_walkOn, hjump]
  | vacant _ _ _ => exact nomatch ht
  | @into links place step rest t c h hstep hentry hlink _ ih =>
    obtain ⟨jump, hjump⟩ := ih ht
    refine ⟨jump, ?_⟩
    rw [List.cons_append, walk_eq_walkOn, walkOn_entry h hstep, hentry, ← hjump, walk_eq_walkOn]
    cases c with
    | link target => exact nomatch hlink
    | file m b i => rfl
    | directory m es => rfl
    | device d => rfl
  | link _ _ _ hfollow => exact nomatch hfollow
  | @jump links place step target rest t h hstep hentry _ htarget _ ih =>
    obtain ⟨jump, hjump⟩ := ih ht
    refine ⟨jump, ?_⟩
    have hgoesOn : ((rest ++ more).isEmpty && !follow) = false := by
      rcases hmore with hne | rfl
      · rw [List.isEmpty_eq_false_iff.2 (List.append_ne_nil_of_right_ne_nil rest hne),
          Bool.false_and]
      · rw [Bool.not_true, Bool.and_false]
    rw [List.cons_append, walk_eq_walkOn, walkOn_entry h hstep, hentry]
    simp only [hgoesOn, htarget, Bool.false_eq_true, if_false, afterLink]
    rw [← List.append_assoc, hjump]

/-- Steps at the end that go nowhere can be left out. -/
theorem Leads.of_append {links : Nat} {l names dots : List String} {t : Target}
    (h : Leads root follow links place l t) {R : Place} {node : Node} (ht : t = .present R node)
    (hl : l = names ++ dots) (hdots : ∀ step ∈ dots, step = ".") (hfollow : follow = true) :
    Leads root follow links place names t := by
  have hdot : ∀ {step : String} {rest dots : List String}, step :: rest = [] ++ dots →
      (∀ step ∈ dots, step = ".") → step = "." := by
    rintro step rest dots heq hdots
    exact hdots step (List.nil_append dots ▸ heq ▸ List.mem_cons_self)
  induction h generalizing names dots with
  | present h =>
    rw [(List.append_eq_nil_iff.1 hl.symm).1]
    exact .present h
  | here h more ih =>
    cases names with
    | nil =>
      have hrest : ∀ step ∈ _, step = "." := fun step hstep ↦
        hdots step (List.nil_append dots ▸ hl ▸ List.mem_cons_of_mem _ hstep)
      exact ih ht (List.nil_append _).symm hrest
    | cons step names =>
      obtain ⟨rfl, hrest⟩ := List.cons.inj hl
      exact .here h (ih ht hrest hdots)
  | above h more ih =>
    cases names with
    | nil => exact absurd (hdot hl hdots) (by decide)
    | cons step names =>
      obtain ⟨rfl, hrest⟩ := List.cons.inj hl
      exact .above h (ih ht hrest hdots)
  | vacant _ _ _ => exact nomatch ht
  | into h hstep hentry hlink more ih =>
    cases names with
    | nil => exact absurd (hdot hl hdots) hstep.notHere
    | cons step names =>
      obtain ⟨rfl, hrest⟩ := List.cons.inj hl
      exact .into h hstep hentry hlink (ih ht hrest hdots)
  | link _ _ _ hno => exact nomatch hno ▸ hfollow
  | jump h hstep hentry hend htarget more ih =>
    cases names with
    | nil => exact absurd (hdot hl hdots) hstep.notHere
    | cons step names =>
      obtain ⟨rfl, hrest⟩ := List.cons.inj hl
      refine .jump h hstep hentry ?_ htarget (ih ht ?_ hdots)
      · rw [hfollow, Bool.not_true, Bool.and_false]
      · rw [hrest, List.append_assoc]
        rfl

/-- Where a walk finds nothing under a name, following a link at the end finds nothing either. -/
theorem Leads.follow_of_vacant {links : Nat} {names : List String} {t : Target}
    (h : Leads root false links place names t) {p : Place} (ht : t = .vacant p) :
    Leads root true links place names t := by
  induction h with
  | present h => exact .present h
  | here h _ ih => exact .here h (ih ht)
  | above h _ ih => exact .above h (ih ht)
  | vacant h hstep hnone => exact .vacant h hstep hnone
  | into h hstep hentry hlink _ ih => exact .into h hstep hentry hlink (ih ht)
  | link _ _ _ _ => exact nomatch ht
  | jump h hstep hentry _ htarget _ ih =>
    exact .jump h hstep hentry (by rw [Bool.not_true, Bool.and_false]) htarget (ih ht)

/-- Where a walk finds nothing, it comes to a directory that has no entry under the name it asks for;
that name is the last one it was given, if a link at the end is not followed. -/
theorem Leads.exists_of_vacant {links : Nat} {names : List String} {t : Target}
    (h : Leads root follow links place names t) {P : Place} (ht : t = .vacant P) :
    ∃ p name, P = p ++ [name] ∧ Searchable root p ∧ IsEntryStep name ∧
      root.at? (p ++ [name]) = none ∧ (follow = false → names.getLast? = some name) := by
  induction h with
  | present _ => exact nomatch ht
  | @here links place rest t _ more ih =>
    obtain ⟨p, name, hP, hp, hname, hnone, hlast⟩ := ih ht
    refine ⟨p, name, hP, hp, hname, hnone, fun hfollow ↦ ?_⟩
    rw [List.getLast?_cons, hlast hfollow, Option.getD_some]
  | @above links place rest t _ more ih =>
    obtain ⟨p, name, hP, hp, hname, hnone, hlast⟩ := ih ht
    refine ⟨p, name, hP, hp, hname, hnone, fun hfollow ↦ ?_⟩
    rw [List.getLast?_cons, hlast hfollow, Option.getD_some]
  | vacant h hstep hnone =>
    cases ht
    exact ⟨_, _, rfl, h, hstep, hnone, fun _ ↦ rfl⟩
  | into _ _ _ _ _ ih =>
    obtain ⟨p, name, hP, hp, hname, hnone, hlast⟩ := ih ht
    refine ⟨p, name, hP, hp, hname, hnone, fun hfollow ↦ ?_⟩
    rw [List.getLast?_cons, hlast hfollow, Option.getD_some]
  | link _ _ _ _ => exact nomatch ht
  | @jump links place step target rest t _ _ _ hend _ _ ih =>
    obtain ⟨p, name, hP, hp, hname, hnone, hlast⟩ := ih ht
    refine ⟨p, name, hP, hp, hname, hnone, fun hfollow ↦ ?_⟩
    -- names are left behind the link, for a link at the end is not followed
    have hrest : rest ≠ [] := by
      rintro rfl
      rw [hfollow] at hend
      exact nomatch hend
    rw [← hlast hfollow, List.getLast?_append, List.getLast?_cons,
      List.getLast?_eq_some_getLast hrest]
    rfl

/-- **A walk along more names goes through a directory at the end of the first ones.** -/
theorem Leads.of_append_ne_nil {links : Nat} {names : List String} {t : Target}
    (h : Leads root follow links place names t) (hfollow : follow = true)
    {front rest : List String} (hnames : names = front ++ rest) (hrest : rest ≠ []) :
    ∃ R m es, Searchable root R ∧
      Leads root follow links place front (.present R (.directory m es)) := by
  have hend : ∀ {links : Nat} {place : Place}, Searchable root place →
      ∃ R m es, Searchable root R ∧
        Leads root follow links place [] (.present R (.directory m es)) := by
    intro links place hsearch
    obtain ⟨m, es, hplace, -⟩ := searchable_iff.1 hsearch
    exact ⟨place, m, es, hsearch, .present hplace⟩
  induction h generalizing front with
  | present _ => exact absurd (List.append_eq_nil_iff.1 hnames.symm).2 hrest
  | here h _ ih =>
    cases front with
    | nil => exact hend h
    | cons step front =>
      obtain ⟨rfl, hmore⟩ := List.cons.inj hnames
      obtain ⟨R, m, es, hR, hleads⟩ := ih hmore
      exact ⟨R, m, es, hR, .here h hleads⟩
  | above h _ ih =>
    cases front with
    | nil => exact hend h
    | cons step front =>
      obtain ⟨rfl, hmore⟩ := List.cons.inj hnames
      obtain ⟨R, m, es, hR, hleads⟩ := ih hmore
      exact ⟨R, m, es, hR, .above h hleads⟩
  | vacant h _ _ =>
    cases front with
    | nil => exact hend h
    | cons step front =>
      exact absurd (List.append_eq_nil_iff.1 (List.cons.inj hnames).2.symm).2 hrest
  | into h hstep hentry hlink _ ih =>
    cases front with
    | nil => exact hend h
    | cons step front =>
      obtain ⟨rfl, hmore⟩ := List.cons.inj hnames
      obtain ⟨R, m, es, hR, hleads⟩ := ih hmore
      exact ⟨R, m, es, hR, .into h hstep hentry hlink hleads⟩
  | link _ _ _ hno => exact nomatch hfollow.symm.trans hno
  | jump h hstep hentry _ htarget _ ih =>
    cases front with
    | nil => exact hend h
    | cons step front =>
      obtain ⟨rfl, rfl⟩ := List.cons.inj hnames
      obtain ⟨R, m, es, hR, hleads⟩ := ih (List.append_assoc ..).symm
      refine ⟨R, m, es, hR, .jump h hstep hentry ?_ htarget hleads⟩
      rw [hfollow, Bool.not_true, Bool.and_false]

/-- Steps that go nowhere lead from a directory that may be gone through to itself. -/
theorem walkOn_dots {R : Place} {node : Node} (h : Searchable root R)
    (hnode : root.at? R = some node) {dots : List String} (hdots : ∀ step ∈ dots, step = ".") :
    walkOn root follow jump R dots = .ok (.present R node) := by
  induction dots with
  | nil => rw [walkOn, hnode]
  | cons step rest ih =>
    obtain rfl := hdots step List.mem_cons_self
    rw [walkOn_here h]
    exact ih fun s hs ↦ hdots s (List.mem_cons_of_mem _ hs)

/-! ## Walks in a tree that has grown -/

theorem Searchable.of_extends {root' : Node} (hext : root.Extends root')
    (h : Searchable root place) : Searchable root' place := by
  obtain ⟨m, hface, hallows⟩ := h
  exact ⟨m, hext.directory hface, hallows⟩

/-- **A walk that comes to something comes there too in a tree that has grown.** -/
theorem Leads.of_extends {root' : Node} (hext : root.Extends root') {links : Nat}
    {names : List String} {t : Target} (h : Leads root follow links place names t) {R : Place}
    {node : Node} (ht : t = .present R node) :
    ∃ node', Leads root' follow links place names (.present R node') := by
  induction h with
  | present h =>
    cases ht
    obtain ⟨c, hc, -⟩ := hext.entry h
    exact ⟨c, .present hc⟩
  | here h _ ih =>
    obtain ⟨node', hnode'⟩ := ih ht
    exact ⟨node', .here (h.of_extends hext) hnode'⟩
  | above h _ ih =>
    obtain ⟨node', hnode'⟩ := ih ht
    exact ⟨node', .above (h.of_extends hext) hnode'⟩
  | vacant _ _ _ => exact nomatch ht
  | into h hstep hentry hlink _ ih =>
    obtain ⟨node', hnode'⟩ := ih ht
    obtain ⟨c', hc', hkind⟩ := hext.entry hentry
    exact ⟨node', .into (h.of_extends hext) hstep hc' (hkind.trans hlink) hnode'⟩
  | link h hstep hentry hfollow =>
    cases ht
    exact ⟨_, .link (h.of_extends hext) hstep (hext.link hentry) hfollow⟩
  | jump h hstep hentry hfollow htarget _ ih =>
    obtain ⟨node', hnode'⟩ := ih ht
    exact ⟨node', .jump (h.of_extends hext) hstep (hext.link hentry) hfollow htarget hnode'⟩

/-- **A walk that finds nothing comes to what is put there**, unless that is a link. -/
theorem Leads.of_vacant {root' : Node} (hext : root.Extends root') {links : Nat}
    {names : List String} {t : Target} (h : Leads root follow links place names t) {P : Place}
    (ht : t = .vacant P) {node : Node} (hP : root'.at? P = some node) (hlink : node.isLink = false) :
    Leads root' follow links place names (.present P node) := by
  induction h with
  | present _ => exact nomatch ht
  | here h _ ih => exact .here (h.of_extends hext) (ih ht)
  | above h _ ih => exact .above (h.of_extends hext) (ih ht)
  | vacant h hstep _ =>
    cases ht
    exact .into (h.of_extends hext) hstep hP hlink (.present hP)
  | into h hstep hentry hno _ ih =>
    obtain ⟨c', hc', hkind⟩ := hext.entry hentry
    exact .into (h.of_extends hext) hstep hc' (hkind.trans hno) (ih ht)
  | link _ _ _ _ => exact nomatch ht
  | jump h hstep hentry hfollow htarget _ ih =>
    exact .jump (h.of_extends hext) hstep (hext.link hentry) hfollow htarget (ih ht)

/-! ## Walks along directories -/

/-- Directories that may be gone through stand all along the names from a place. -/
def Passable (root : Node) (R p : Place) : Prop := ∀ q, q <+: p → Searchable root (R ++ q)

theorem Passable.of_concat {R p : Place} {name : String} (h : Passable root R (p ++ [name])) :
    Passable root R p :=
  fun _ hq ↦ h _ (hq.trans (List.prefix_append ..))

theorem walkOn_along {R p : Place} (hpass : Passable root R p)
    (hnames : ∀ name ∈ p, IsName name) (more : List String) :
    walkOn root follow jump R (p ++ more) = walkOn root follow jump (R ++ p) more := by
  induction p generalizing R with
  | nil => rw [List.append_nil, List.nil_append]
  | cons name rest ih =>
    have hR : Searchable root R := by simpa using hpass [] List.nil_prefix
    have hnext : Searchable root (R ++ [name]) := hpass [name] (by simp)
    obtain ⟨m, es, hentry, -⟩ := searchable_iff.1 hnext
    have hpass' : Passable root (R ++ [name]) rest := by
      intro q hq
      have := hpass (name :: q) (List.cons_prefix_cons.2 ⟨rfl, hq⟩)
      rwa [List.append_assoc]
    rw [List.cons_append,
      walkOn_entry hR (isEntryStep_of_isName (hnames name List.mem_cons_self)), hentry]
    refine (ih hpass' fun n hn ↦ hnames n (List.mem_cons_of_mem _ hn)).trans ?_
    rw [List.append_assoc]
    rfl

end Files
end FirmwareLane
