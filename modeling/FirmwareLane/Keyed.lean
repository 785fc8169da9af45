/-!
# Named values in the order of their names

Lists of named values that are kept in strictly ascending order of the names, so that a name stands
for one value at most and equal contents have one form.
-/

set_option autoImplicit false
namespace FirmwareLane
namespace Keyed

variable {α : Type}

/-- The list with one more value.  A value of that name gives way to it. -/
def insert (name : String) (value : α) : List (String × α) → List (String × α)
  | [] => [(name, value)]
  | (other, kept) :: rest =>
    if name < other then (name, value) :: (other, kept) :: rest
    else if name = other then (name, value) :: rest
    else (other, kept) :: insert name value rest

/-- The list without the value of a name. -/
def erase (name : String) (values : List (String × α)) : List (String × α) :=
  values.filter fun (other, _) ↦ other != name

/-- The list with the value of a name, or its absence, changed. -/
def alter (name : String) (change : Option α → Option α) (values : List (String × α)) :
    List (String × α) :=
  match change (values.lookup name) with
  | some value => insert name value values
  | none => erase name values

/-- The values in the order of their names, with the last of equally named ones. -/
def ofList (values : List (String × α)) : List (String × α) :=
  values.foldl (fun sorted (name, value) ↦ insert name value sorted) []

/-! ## What is found under a name -/

theorem lookup_cons (other name : String) (value : α) (rest : List (String × α)) :
    ((name, value) :: rest).lookup other = if other = name then some value else rest.lookup other := by
  rw [List.lookup_cons]
  by_cases h : other = name
  · simp [h]
  · rw [if_neg h, beq_false_of_ne h]

/-- **An insertion is found under its name, and nothing else changes.** -/
theorem lookup_insert (other name : String) (value : α) (values : List (String × α)) :
    (insert name value values).lookup other =
      if other = name then some value else values.lookup other := by
  induction values with
  | nil => rw [insert, lookup_cons]
  | cons entry rest ih =>
    obtain ⟨key, kept⟩ := entry
    rw [insert]
    split
    · rw [lookup_cons]
    · split
      · next h => subst h; grind [lookup_cons]
      · grind [lookup_cons]

theorem lookup_erase (other name : String) (values : List (String × α)) :
    (erase name values).lookup other = if other = name then none else values.lookup other := by
  induction values with
  | nil => simp [erase]
  | cons entry rest ih =>
    obtain ⟨key, kept⟩ := entry
    rw [erase] at ih ⊢
    by_cases h : key = name
    · subst h
      grind [lookup_cons]
    · grind [lookup_cons]

theorem lookup_alter (other name : String) (change : Option α → Option α)
    (values : List (String × α)) :
    (alter name change values).lookup other =
      if other = name then change (values.lookup name) else values.lookup other := by
  rw [alter]
  split
  · next value h => rw [lookup_insert, h]
  · next h => rw [lookup_erase, h]

theorem lookup_map {β : Type} (f : α → β) (name : String) (values : List (String × α)) :
    (values.map fun (key, value) ↦ (key, f value)).lookup name = (values.lookup name).map f := by
  induction values with
  | nil => rfl
  | cons entry rest ih =>
    obtain ⟨key, value⟩ := entry
    rw [List.map_cons, lookup_cons, lookup_cons, ih]
    split <;> rfl

theorem mem_of_lookup {name : String} {value : α} {values : List (String × α)}
    (h : values.lookup name = some value) : (name, value) ∈ values := by
  induction values with
  | nil => simp at h
  | cons entry rest ih =>
    obtain ⟨key, kept⟩ := entry
    rw [lookup_cons] at h
    split at h
    · next hk => simp_all
    · exact List.mem_cons_of_mem _ (ih h)

theorem isSome_lookup_iff {name : String} {values : List (String × α)} :
    (values.lookup name).isSome = true ↔ name ∈ values.map (·.1) := by
  induction values with
  | nil => simp
  | cons entry rest ih =>
    obtain ⟨key, kept⟩ := entry
    rw [lookup_cons, List.map_cons, List.mem_cons, ← ih]
    split
    · next heq => exact ⟨fun _ ↦ .inl heq, fun _ ↦ rfl⟩
    · next hne => exact ⟨.inr, fun h ↦ h.resolve_left hne⟩

/-! ## Order -/

/-- The names stand in strictly ascending order. -/
def Sorted (values : List (String × α)) : Prop := values.Pairwise fun a b ↦ a.1 < b.1

theorem sorted_nil : Sorted ([] : List (String × α)) := List.Pairwise.nil

theorem mem_insert {entry : String × α} {name : String} {value : α} {values : List (String × α)}
    (h : entry ∈ insert name value values) : entry = (name, value) ∨ entry ∈ values := by
  induction values with
  | nil => exact .inl (by simpa [insert] using h)
  | cons first rest ih =>
    obtain ⟨key, kept⟩ := first
    rw [insert] at h
    split at h
    · simpa using h
    · split at h
      · rcases List.mem_cons.1 h with h | h
        · exact .inl h
        · exact .inr (List.mem_cons_of_mem _ h)
      · rcases List.mem_cons.1 h with h | h
        · exact .inr (h ▸ List.mem_cons_self)
        · exact (ih h).imp_right (List.mem_cons_of_mem _)

theorem Sorted.insert {values : List (String × α)} (h : Sorted values) (name : String) (value : α) :
    Sorted (Keyed.insert name value values) := by
  induction values with
  | nil => exact List.pairwise_singleton ..
  | cons first rest ih =>
    obtain ⟨key, kept⟩ := first
    obtain ⟨hfirst, hrest⟩ := List.pairwise_cons.1 h
    rw [Keyed.insert]
    split
    · next hlt =>
      refine List.pairwise_cons.2 ⟨fun entry he ↦ ?_, h⟩
      rcases List.mem_cons.1 he with rfl | he
      · exact hlt
      · exact String.lt_trans hlt (hfirst entry he)
    · next hlt =>
      split
      · next heq =>
        subst heq
        exact List.pairwise_cons.2 ⟨hfirst, hrest⟩
      · next hne =>
        refine List.pairwise_cons.2 ⟨fun entry he ↦ ?_, ih hrest⟩
        rcases mem_insert he with rfl | he
        · exact Std.lt_of_le_of_ne (String.not_lt.1 hlt) (Ne.symm hne)
        · exact hfirst entry he

theorem Sorted.erase {values : List (String × α)} (h : Sorted values) (name : String) :
    Sorted (Keyed.erase name values) :=
  List.Pairwise.sublist List.filter_sublist h

theorem Sorted.alter {values : List (String × α)} (h : Sorted values) (name : String)
    (change : Option α → Option α) : Sorted (Keyed.alter name change values) := by
  rw [Keyed.alter]
  split
  · exact h.insert _ _
  · exact h.erase _

theorem Sorted.map {β : Type} {values : List (String × α)} (h : Sorted values) (f : α → β) :
    Sorted (values.map fun (key, value) ↦ (key, f value)) :=
  List.pairwise_map.2 h

theorem lookup_eq_none_of_lt {name : String} {values : List (String × α)}
    (h : ∀ entry ∈ values, name < entry.1) : values.lookup name = none := by
  cases hl : values.lookup name with
  | none => rfl
  | some value => exact absurd (h _ (mem_of_lookup hl)) (String.lt_irrefl _)

/-- If every name stands once, what is found under a name is what stands under it. -/
theorem lookup_iff_of_nodup {name : String} {value : α} {values : List (String × α)}
    (h : (values.map (·.1)).Nodup) : values.lookup name = some value ↔ (name, value) ∈ values := by
  refine ⟨mem_of_lookup, fun hm ↦ ?_⟩
  induction values with
  | nil => simp at hm
  | cons first rest ih =>
    obtain ⟨key, kept⟩ := first
    obtain ⟨hfirst, hrest⟩ := List.nodup_cons.1 h
    rw [lookup_cons]
    rcases List.mem_cons.1 hm with heq | hrestm
    · obtain ⟨rfl, rfl⟩ := Prod.mk.inj heq
      rw [if_pos rfl]
    · have hne : name ≠ key := fun e ↦ hfirst (e ▸ List.mem_map.2 ⟨_, hrestm, rfl⟩)
      rw [if_neg hne, ih hrest hrestm]

theorem Sorted.nodup {values : List (String × α)} (h : Sorted values) :
    (values.map (·.1)).Nodup := by
  refine List.pairwise_map.2 (List.Pairwise.imp ?_ h)
  intro a b hlt heq
  exact String.lt_irrefl _ (heq ▸ hlt)

/-- In a sorted list a name stands for one value. -/
theorem Sorted.lookup_iff {values : List (String × α)} (h : Sorted values) {name : String}
    {value : α} : values.lookup name = some value ↔ (name, value) ∈ values :=
  lookup_iff_of_nodup h.nodup

/-- **Sorted lists in which the same is found are equal.** -/
theorem Sorted.ext {values others : List (String × α)} (h : Sorted values) (h' : Sorted others)
    (heq : ∀ name, values.lookup name = others.lookup name) : values = others := by
  induction values generalizing others with
  | nil =>
    cases others with
    | nil => rfl
    | cons entry _ =>
      have := heq entry.1
      rw [lookup_cons, if_pos rfl] at this
      simp at this
  | cons first rest ih =>
    obtain ⟨key, kept⟩ := first
    obtain ⟨hfirst, hrest⟩ := List.pairwise_cons.1 h
    cases others with
    | nil => have := heq key; rw [lookup_cons, if_pos rfl] at this; simp at this
    | cons first' rest' =>
      obtain ⟨key', kept'⟩ := first'
      obtain ⟨hfirst', hrest'⟩ := List.pairwise_cons.1 h'
      -- the least name of each list is found in the other one
      have hmem : (key, kept) ∈ (key', kept') :: rest' :=
        h'.lookup_iff.1 (by rw [← heq, lookup_cons, if_pos rfl])
      have hmem' : (key', kept') ∈ (key, kept) :: rest :=
        h.lookup_iff.1 (by rw [heq, lookup_cons, if_pos rfl])
      have hkey : key = key' ∧ kept = kept' := by
        rcases List.mem_cons.1 hmem with e | hm
        · exact Prod.mk.inj e
        · rcases List.mem_cons.1 hmem' with e | hm'
          · exact (Prod.mk.inj e).imp Eq.symm Eq.symm
          · exact absurd (hfirst _ hm') (String.lt_asymm (hfirst' _ hm))
      obtain ⟨rfl, rfl⟩ := hkey
      congr 1
      refine ih hrest hrest' fun name ↦ ?_
      have := heq name
      rw [lookup_cons, lookup_cons] at this
      split at this
      · next e =>
        subst e
        rw [lookup_eq_none_of_lt hfirst, lookup_eq_none_of_lt hfirst']
      · exact this

/-! ## Lists of named values brought into order -/

theorem sorted_ofList (values : List (String × α)) : Sorted (ofList values) := by
  suffices ∀ sorted : List (String × α), Sorted sorted →
      Sorted (values.foldl (fun sorted (name, value) ↦ insert name value sorted) sorted) from
    this [] sorted_nil
  induction values with
  | nil => exact fun sorted h ↦ h
  | cons entry rest ih => exact fun sorted h ↦ ih _ (h.insert _ _)

theorem lookup_ofList (name : String) (values : List (String × α)) :
    (ofList values).lookup name = values.reverse.lookup name := by
  suffices ∀ sorted : List (String × α),
      (values.foldl (fun sorted (name, value) ↦ insert name value sorted) sorted).lookup name =
        (values.reverse ++ sorted).lookup name by
    simpa [ofList] using this []
  induction values with
  | nil => exact fun _ ↦ rfl
  | cons entry rest ih =>
    intro sorted
    obtain ⟨key, value⟩ := entry
    rw [List.foldl_cons, ih]
    simp [List.lookup_append, lookup_insert, lookup_cons]

end Keyed
end FirmwareLane
