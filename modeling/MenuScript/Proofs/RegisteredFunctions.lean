import MenuScript.Proofs.InterpreterChains
import Mathlib.Data.List.Induction

/-!
# The function table after a history of changes

A host changes its table by giving functions names, by giving the function of one name a further
one, and by removing names. A name that is in use refuses another function, so what a name stands
for is what it was last given with success, until it is removed. Everything that can be seen of a
table follows from this, whatever the history was.
-/

namespace MenuScript

/-- What a host does to a table of functions. -/
inductive TableEdit where
  | register (name : String) (f : Callable)
  /-- Gives the function that `source` has at this moment a further name. -/
  | share (name source : String)
  | unregister (name : String)

/-- The code points of a text, in order. -/
def codePoints (s : String) : List Nat := s.toList.map Char.toNat

namespace TableEdit

/-- The name and the function that an edit wants to enter. A name without a function has nothing to
share. -/
def offer? (t : FunctionTable) : TableEdit → Option (String × Callable)
  | .register name f => some (name, f)
  | .share name source => (t.get? source).map fun f => (name, f)
  | .unregister _ => none

/-- Carries out an edit, and tells whether it was granted. -/
def perform (t : FunctionTable) : TableEdit → Bool × FunctionTable
  | .register name f => t.register name f
  | .share name source =>
    match t.get? source with
    | some f => t.register name f
    | none => (false, t)
  | .unregister name => t.unregister name

/-- Whether the edit gives the name the function, and is not refused. -/
structure Registers (e : TableEdit) (t : FunctionTable) (name : String) (f : Callable) : Prop where
  offers : e.offer? t = some (name, f)
  granted : (e.perform t).1 = true

end TableEdit

namespace FunctionTable

/-- The table after a history. -/
def after (start : FunctionTable) (edits : List TableEdit) : FunctionTable :=
  edits.foldl (fun t e => (e.perform t).2) start

/-- Whether no edit of the history gives the name a function with success. -/
def NeverRegisters (start : FunctionTable) (edits : List TableEdit) (name : String) : Prop :=
  ∀ before e later f, edits = before ++ e :: later → ¬ e.Registers (start.after before) name f

/-- `start.Stands edits name f`: the name has had the function from the start, or by the latest
registration of the name that succeeded, and it has not been removed since. -/
inductive Stands (start : FunctionTable) : List TableEdit → String → Callable → Prop
  | initial {edits : List TableEdit} {name : String} {f : Callable}
      (held : start.get? name = some f) (latest : start.NeverRegisters edits name)
      (kept : .unregister name ∉ edits) : Stands start edits name f
  | registered {before later : List TableEdit} {e : TableEdit} {name : String} {f : Callable}
      (given : e.Registers (start.after before) name f)
      (latest : (start.after (before ++ [e])).NeverRegisters later name)
      (kept : .unregister name ∉ later) : Stands start (before ++ e :: later) name f

/-- What is seen of a table in which exactly the names with `finds name f` stand for a function. -/
structure Shows (t : FunctionTable) (finds : String → Callable → Prop) : Prop where
  lookup : ∀ name f, t.get? name = some f ↔ finds name f
  contains : ∀ name, t.contains name = true ↔ ∃ f, finds name f
  names : ∀ name, name ∈ t.keys ↔ ∃ f, finds name f
  ordered : t.keys.Pairwise fun a b => codePoints a < codePoints b
  size : t.size = t.keys.length
  isEmpty : t.isEmpty = true ↔ t.size = 0
  registers : ∀ name f, (t.register name f).1 = true ↔ ¬ ∃ g, finds name g
  refuses : ∀ name f, (t.register name f).1 = false → (t.register name f).2 = t
  unregisters : ∀ name, (t.unregister name).1 = true ↔ ∃ f, finds name f

end FunctionTable

private theorem codePoints_lt {a b : String} (h : a < b) : codePoints a < codePoints b :=
  List.map_lt (fun _ _ less => less) (String.lt_iff.1 h)

section Steps

variable {t : FunctionTable} {e : TableEdit} {name : String} {f g : Callable}

theorem FunctionTable.register_eq_true_iff :
    (t.register name f).1 = true ↔ ¬ ∃ g, t.get? name = some g := by
  rw [← Dictionary.contains_iff, register]
  split_ifs with taken <;> simp [taken]

theorem FunctionTable.register_of_refused (refused : (t.register name f).1 = false) :
    (t.register name f).2 = t := by
  rw [register] at refused ⊢
  split_ifs at refused ⊢
  rfl

private theorem FunctionTable.get?_register {key : String} :
    (t.register name f).2.get? key = some g ↔
      ((name, f) = (key, g) ∧ (t.register name f).1 = true) ∨ t.get? key = some g := by
  by_cases free : (t.register name f).1 = true
  · have absent : ∀ h, t.get? name ≠ some h := not_exists.1 (register_eq_true_iff.1 free)
    have entered : (t.register name f).2 = t.insert name f := by
      rw [register] at free ⊢
      split_ifs at free ⊢
      rfl
    rw [entered, Dictionary.get?_insert]
    by_cases same : key = name
    · subst same
      simp [absent, free]
    · simp [same, Ne.symm same]
  · rw [register_of_refused (by simpa using free)]
    simp [free]

theorem TableEdit.perform_of_offer (offers : e.offer? t = some (name, f)) :
    e.perform t = t.register name f := by
  cases e with
  | register name' f' =>
    cases offers
    rfl
  | share name' source =>
    obtain ⟨f', found, same⟩ := Option.map_eq_some_iff.1 offers
    cases same
    simp only [perform, found]
  | unregister name' => cases offers

private theorem TableEdit.not_registers_of_held (held : t.get? name = some g) :
    ¬ e.Registers t name f := by
  rintro ⟨offers, granted⟩
  rw [perform_of_offer offers] at granted
  exact FunctionTable.register_eq_true_iff.1 granted ⟨g, held⟩

/-- After an edit a name stands for what the edit gives it, if that is not refused, and for what it
stood for before, unless the edit removes it. -/
theorem TableEdit.get?_perform :
    (e.perform t).2.get? name = some f ↔
      e.Registers t name f ∨ t.get? name = some f ∧ e ≠ .unregister name := by
  cases offers : e.offer? t with
  | some offer =>
    obtain ⟨name', f'⟩ := offer
    have other : e ≠ .unregister name := by
      rintro rfl
      cases offers
    have performed := perform_of_offer offers
    rw [performed, FunctionTable.get?_register]
    constructor
    · rintro (⟨same, granted⟩ | held)
      · exact Or.inl ⟨offers.trans (congrArg some same), performed ▸ granted⟩
      · exact Or.inr ⟨held, other⟩
    · rintro (⟨offers', granted⟩ | ⟨held, -⟩)
      · exact Or.inl ⟨Option.some.inj (offers.symm.trans offers'), performed ▸ granted⟩
      · exact Or.inr held
  | none =>
    have gives : ¬ e.Registers t name f := by
      rintro ⟨offers', -⟩
      rw [offers] at offers'
      cases offers'
    simp only [gives, false_or]
    cases e with
    | register name' f' => cases offers
    | share name' source =>
      have missing : t.get? source = none := Option.map_eq_none_iff.1 offers
      simp [perform, missing]
    | unregister name' =>
      rw [perform, FunctionTable.unregister, Dictionary.get?_erase]
      by_cases same : name = name'
      · simp [same]
      · simp [same, Ne.symm same]

end Steps

section Histories

variable {start : FunctionTable} {edits later : List TableEdit} {e : TableEdit} {name : String}
  {f : Callable}

theorem FunctionTable.after_append (start : FunctionTable) (edits later : List TableEdit) :
    start.after (edits ++ later) = (start.after edits).after later := by
  rw [after, List.foldl_append]
  rfl

theorem FunctionTable.after_concat (start : FunctionTable) (edits : List TableEdit)
    (e : TableEdit) : start.after (edits ++ [e]) = (e.perform (start.after edits)).2 :=
  after_append start edits [e]

/-- A name keeps its function until it is removed. -/
theorem FunctionTable.get?_after_of_kept (held : start.get? name = some f)
    (kept : .unregister name ∉ edits) : (start.after edits).get? name = some f := by
  induction edits generalizing start with
  | nil => exact held
  | cons e edits ih =>
    have other : e ≠ .unregister name := fun same => kept (by simp [same])
    have still : (e.perform start).2.get? name = some f :=
      TableEdit.get?_perform.2 (.inr ⟨held, other⟩)
    exact ih still fun mem => kept (List.mem_cons_of_mem _ mem)

theorem FunctionTable.get?_after_of_registers {before : List TableEdit}
    (given : e.Registers (start.after before) name f) (kept : .unregister name ∉ later) :
    (start.after (before ++ e :: later)).get? name = some f := by
  have held : (start.after (before ++ [e])).get? name = some f := by
    rw [after_concat]
    exact TableEdit.get?_perform.2 (.inl given)
  have whole : before ++ e :: later = before ++ [e] ++ later := by simp
  rw [whole, after_append]
  exact get?_after_of_kept held kept

private theorem FunctionTable.neverRegisters_nil (start : FunctionTable) (name : String) :
    start.NeverRegisters [] name := by
  intro before e later f split
  simp at split

private theorem FunctionTable.NeverRegisters.concat (never : start.NeverRegisters edits name)
    (last : ∀ f, ¬ e.Registers (start.after edits) name f) :
    start.NeverRegisters (edits ++ [e]) name := by
  intro before e' later f split
  rcases List.eq_nil_or_concat later with rfl | ⟨later, e'', rfl⟩
  · obtain ⟨rfl, same⟩ := List.append_inj' split rfl
    cases same
    exact last f
  · have shorter : edits ++ [e] = (before ++ e' :: later) ++ [e''] := by simpa using split
    obtain ⟨rfl, -⟩ := List.append_inj' shorter rfl
    exact never before e' later f rfl

/-- What stands for a function goes on doing so after an edit that does not remove it. -/
theorem FunctionTable.Stands.concat (stands : start.Stands edits name f)
    (held : (start.after edits).get? name = some f) (other : e ≠ .unregister name) :
    start.Stands (edits ++ [e]) name f := by
  have refused : ∀ g, ¬ e.Registers (start.after edits) name g :=
    fun g => TableEdit.not_registers_of_held held
  cases stands with
  | initial first latest kept =>
    exact .initial first (latest.concat refused) (by simp [kept, Ne.symm other])
  | @registered before later e' _ _ given latest kept =>
    rw [List.append_assoc, List.cons_append]
    refine .registered given (latest.concat fun g => ?_) (by simp [kept, Ne.symm other])
    rw [← after_append]
    simpa using refused g

/-- A table is what its history says: a name stands for the function of the latest registration
that succeeded, unless it was removed later. -/
theorem FunctionTable.get?_after_iff :
    (start.after edits).get? name = some f ↔ start.Stands edits name f := by
  constructor
  · intro found
    induction edits using List.reverseRecOn with
    | nil => exact .initial found (start.neverRegisters_nil name) (by simp)
    | append_singleton edits e ih =>
      rw [after_concat] at found
      rcases TableEdit.get?_perform.1 found with given | ⟨held, other⟩
      · exact .registered given (neverRegisters_nil _ name) (by simp)
      · exact (ih held).concat held other
  · intro stands
    cases stands with
    | initial held latest kept => exact get?_after_of_kept held kept
    | registered given latest kept => exact get?_after_of_registers given kept

end Histories

/-- The functions that engines start with are there under their names. -/
theorem FunctionTable.get?_builtins (b : Builtin) :
    FunctionTable.builtins.get? b.name = some (.builtin b) := by
  cases b with
  | present p => cases p <;> rfl
  | _ => rfl

/-- However a table has been edited, from whatever it held at the start, all that is seen of it says
that a name stands for the function of its latest registration that succeeded and has not been
removed since. A name that is free takes over the function of another name, and keeps it whatever
becomes of the other name. -/
theorem function_table_follows_history (start : FunctionTable) (edits : List TableEdit) :
    (start.after edits).Shows (start.Stands edits) ∧
      ∀ name source f later, start.Stands edits source f → (¬ ∃ g, start.Stands edits name g) →
        .unregister name ∉ later →
        (start.after (edits ++ .share name source :: later)).get? name = some f := by
  have lookup : ∀ name f, (start.after edits).get? name = some f ↔ start.Stands edits name f :=
    fun name f => FunctionTable.get?_after_iff
  refine ⟨?_, fun name source f later stands free kept => ?_⟩
  · constructor
    · exact lookup
    · intro name
      simp only [Dictionary.contains_iff, lookup]
    · intro name
      simp only [Dictionary.mem_keys_iff, lookup]
    · exact (start.after edits).keys_pairwise.imp codePoints_lt
    · rw [Dictionary.size, Dictionary.keys, List.length_map]
    · rw [Dictionary.isEmpty, Dictionary.size, List.isEmpty_iff_length_eq_zero]
    · intro name f
      simp only [FunctionTable.register_eq_true_iff, lookup]
    · intro name f
      exact FunctionTable.register_of_refused
    · intro name
      simp only [FunctionTable.unregister, Dictionary.contains_iff, lookup]
  · have found := (lookup source f).2 stands
    have offers : (TableEdit.share name source).offer? (start.after edits) = some (name, f) := by
      rw [TableEdit.offer?, found]
      rfl
    have granted : ((TableEdit.share name source).perform (start.after edits)).1 = true := by
      rw [TableEdit.perform_of_offer offers, FunctionTable.register_eq_true_iff]
      simpa only [lookup] using free
    exact FunctionTable.get?_after_of_registers ⟨offers, granted⟩ kept

/-- A function of a host that yields a number. -/
def yielding (n : Int64) : Callable := .routine fun _ => .done (.ok (.integer n))

theorem function_table_follows_history_shared :
    FunctionTable.builtins.Stands [.register "greet" (yielding 1)] "greet" (yielding 1) ∧
      (FunctionTable.builtins.after [.register "greet" (yielding 1), .share "hello" "greet",
        .unregister "greet", .register "greet" (yielding 2)]).get? "hello" =
          some (yielding 1) := by
  have history := function_table_follows_history FunctionTable.builtins
    [.register "greet" (yielding 1)]
  have stands := (history.1.lookup "greet" (yielding 1)).1 rfl
  have free : ¬ ∃ g, FunctionTable.builtins.Stands [.register "greet" (yielding 1)] "hello" g := by
    rw [← history.1.contains]
    decide
  exact ⟨stands, history.2 "hello" "greet" (yielding 1)
    [.unregister "greet", .register "greet" (yielding 2)] stands free (by simp)⟩

end MenuScript
