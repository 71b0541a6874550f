/-! Finite maps from names to values, kept in strictly increasing order of the names. The order
is by code point, so two dictionaries with the same look-ups have the same entries. -/

namespace MenuScript

structure Dictionary (α : Type) where
  entries : List (String × α)
  sorted : entries.Pairwise (fun a b => a.1 < b.1)

namespace Dictionary

variable {α : Type}

/-- Replaces the value of `name` in a sorted list, or puts it where it belongs. -/
def insertEntry (name : String) (value : α) : List (String × α) → List (String × α)
  | [] => [(name, value)]
  | entry :: rest =>
    if name < entry.1 then (name, value) :: entry :: rest
    else if entry.1 < name then entry :: insertEntry name value rest
    else (name, value) :: rest

theorem mem_insertEntry {name : String} {value : α} {entries : List (String × α)}
    {e : String × α} (h : e ∈ insertEntry name value entries) :
    e = (name, value) ∨ e ∈ entries := by
  induction entries with
  | nil => simpa [insertEntry] using h
  | cons entry rest ih =>
    simp only [insertEntry] at h
    split at h
    · simpa using h
    · split at h
      · rcases List.mem_cons.mp h with rfl | h
        · simp
        · rcases ih h with h | h <;> simp [h]
      · rcases List.mem_cons.mp h with h | h <;> simp [h]

theorem pairwise_insertEntry (name : String) (value : α) (entries : List (String × α))
    (h : entries.Pairwise (fun a b => a.1 < b.1)) :
    (insertEntry name value entries).Pairwise (fun a b => a.1 < b.1) := by
  induction entries with
  | nil => simp [insertEntry]
  | cons entry rest ih =>
    obtain ⟨hfirst, hrest⟩ := List.pairwise_cons.mp h
    simp only [insertEntry]
    split
    · rename_i hlt
      refine List.pairwise_cons.mpr ⟨?_, h⟩
      intro e he
      rcases List.mem_cons.mp he with rfl | he
      · exact hlt
      · exact String.lt_trans hlt (hfirst e he)
    · split
      · rename_i hlt
        refine List.pairwise_cons.mpr ⟨?_, ih hrest⟩
        intro e he
        rcases mem_insertEntry he with rfl | he
        · exact hlt
        · exact hfirst e he
      · rename_i hnot hnot'
        have same : name = entry.1 := String.le_antisymm
          (String.not_lt.mp hnot') (String.not_lt.mp hnot)
        refine List.pairwise_cons.mpr ⟨?_, hrest⟩
        intro e he
        simpa [same] using hfirst e he

def empty : Dictionary α := ⟨[], List.Pairwise.nil⟩

instance : Inhabited (Dictionary α) := ⟨empty⟩

instance : EmptyCollection (Dictionary α) := ⟨empty⟩

def get? (d : Dictionary α) (name : String) : Option α := d.entries.lookup name

def contains (d : Dictionary α) (name : String) : Bool := (d.get? name).isSome

/-- Gives `name` the value `value`, in place of any earlier one. -/
def insert (d : Dictionary α) (name : String) (value : α) : Dictionary α :=
  ⟨insertEntry name value d.entries, pairwise_insertEntry name value d.entries d.sorted⟩

def erase (d : Dictionary α) (name : String) : Dictionary α :=
  ⟨d.entries.filter (fun e => e.1 != name), d.sorted.filter _⟩

/-- The names in increasing order. -/
def keys (d : Dictionary α) : List String := d.entries.map (·.1)

def size (d : Dictionary α) : Nat := d.entries.length

def isEmpty (d : Dictionary α) : Bool := d.entries.isEmpty

/-- The pairs put in one after another: a later value of a name wins. -/
def ofList (entries : List (String × α)) : Dictionary α :=
  entries.foldl (fun d e => d.insert e.1 e.2) empty

section Lookups

variable (d : Dictionary α) (entries : List (String × α)) (name key : String) (value : α)

theorem lookup_filter_self : (entries.filter fun e => e.1 != name).lookup name = none := by
  rw [List.lookup_eq_none_iff]
  intro e he
  have hne : e.1 ≠ name := by simpa using (List.mem_filter.mp he).2
  simpa using hne.symm

variable {name key} in
theorem lookup_filter_of_ne (h : key ≠ name) :
    (entries.filter fun e => e.1 != name).lookup key = entries.lookup key := by
  induction entries with
  | nil => rfl
  | cons entry rest ih =>
    obtain ⟨other, value⟩ := entry
    by_cases he : other = name
    · have hne : (key == other) = false := by simpa [he] using h
      simpa [List.filter_cons, he, List.lookup_cons, hne, beq_false_of_ne h] using ih
    · simp [he, List.lookup_cons, ih]

theorem get?_erase :
    (d.erase name).get? key = if key = name then none else d.get? key := by
  by_cases h : key = name
  · subst h
    simpa [get?, erase] using lookup_filter_self d.entries key
  · simpa [get?, erase, h] using lookup_filter_of_ne d.entries h

theorem lookup_cons :
    ((name, value) :: entries).lookup key =
      if key = name then some value else entries.lookup key := by
  by_cases h : key = name
  · simp [h]
  · have other : (key == name) = false := by simpa using h
    simp [List.lookup_cons, h, other]

theorem get?_insert :
    (d.insert name value).get? key = if key = name then some value else d.get? key := by
  simp only [get?, insert]
  induction d.entries with
  | nil => exact lookup_cons [] name key value
  | cons entry rest ih =>
    obtain ⟨first, old⟩ := entry
    by_cases below : name < first
    · rw [insertEntry, if_pos below, lookup_cons]
    · by_cases above : first < name
      · rw [insertEntry, if_neg below, if_pos above, lookup_cons, lookup_cons, ih]
        by_cases same : key = name
        · have other : key ≠ first := fun h => String.lt_irrefl name (by rwa [← h, same] at above)
          rw [if_neg other, if_pos same, if_pos same]
        · rw [if_neg same, if_neg same]
      · have same : first = name :=
          String.le_antisymm (String.not_lt.mp below) (String.not_lt.mp above)
        rw [insertEntry, if_neg below, if_neg above, same, lookup_cons, lookup_cons]
        by_cases h : key = name
        · rw [if_pos h, if_pos h]
        · rw [if_neg h, if_neg h, if_neg h]

theorem contains_iff : d.contains name = true ↔ ∃ value, d.get? name = some value := by
  rw [contains, Option.isSome_iff_exists]

theorem mem_keys_iff : name ∈ d.keys ↔ ∃ value, d.get? name = some value := by
  rw [← Option.isSome_iff_exists, get?, List.lookup_isSome_iff, keys, List.mem_map]
  constructor
  · rintro ⟨entry, mem, rfl⟩
    exact ⟨entry, mem, beq_self_eq_true _⟩
  · rintro ⟨entry, mem, same⟩
    exact ⟨entry, mem, (beq_iff_eq.1 same).symm⟩

theorem keys_pairwise : d.keys.Pairwise (· < ·) := by
  rw [keys, List.pairwise_map]
  exact d.sorted

end Lookups

end Dictionary

end MenuScript
