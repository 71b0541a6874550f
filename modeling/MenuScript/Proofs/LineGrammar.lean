import MenuScript.Statement.Reader
import Mathlib.Data.List.Induction
import Mathlib.Data.Nat.Digits.Defs

/-!
# The grammar of lines

The shorthands of the script language, one rule for each, told apart by the keyword or mark that a
line starts with. The reader tries its forms in a fixed order and takes longest runs, and still
accepts exactly what the rules allow: no keyword is the start of another, so no two shorthands fit
the same line. A line that is no shorthand is a call if it has a colon, and unknown if it has none.
-/

namespace MenuScript.Statement

/-- One or more characters, all of which satisfy `p`. -/
structure RunOf (p : Char → Bool) (s : List Char) : Prop where
  filled : s ≠ []
  all : ∀ c ∈ s, p c = true

/-- Whether the first character of a text, if there is one, does not satisfy `p`. -/
def StopsAt (p : Char → Bool) (s : List Char) : Prop := ∀ c, s.head? = some c → p c = false

/-- A text that is not empty and does not start with a gap. -/
structure IsRest (s : List Char) : Prop where
  filled : s ≠ []
  start : StopsAt isGap s

/-- A word: one or more characters without a gap among them. -/
abbrev IsWord : List Char → Prop := RunOf (!isGap ·)

/-- The number that decimal digits stand for. -/
def numeral (digits : List Char) : Nat :=
  Nat.ofDigits 10 (digits.reverse.map fun c => c.toNat - '0'.toNat)

/-- The name of a player in a target marker. -/
structure IsTarget (name : List Char) : Prop where
  filled : name ≠ []
  closed : '\x7d' ∉ name

/-- A target marker and what follows it. -/
def marked (name rest : List Char) : List Char := '\x7b' :: (name ++ '\x7d' :: rest)

/-- The shorthands: `Shorthand s statement` says that the line `s` is one for the statement. -/
inductive Shorthand : List Char → Statement → Prop
  | ifHolds {gap text : List Char} (g : RunOf isGap gap) (r : IsRest text) :
      Shorthand ("if".toList ++ (gap ++ text)) (.ifHolds (String.ofList text))
  | otherwise : Shorthand "else".toList .otherwise
  | endIf : Shorthand "endif".toList .endIf
  | loop {gap digits : List Char} (g : RunOf isGap gap) (d : RunOf Char.isDigit digits) :
      Shorthand ("loop".toList ++ (gap ++ digits)) (.loop (min (numeral digits) (2 ^ 64 - 1)))
  | endLoop : Shorthand "endloop".toList .endLoop
  | leaveLoop : Shorthand "break".toList .leaveLoop
  | nextTurn : Shorthand "continue".toList .nextTurn
  | commandFor {gap text name rest : List Char} (g : ∀ c ∈ gap, isGap c = true)
      (t : RunOf isPlain text) (start : StopsAt isGap text) (n : IsTarget name) :
      Shorthand ("cmd:".toList ++ (gap ++ (text ++ marked name rest)))
        (.command ⟨String.ofList (Text.trim text), some (String.ofList (Text.trim name)),
          String.ofList (Text.trim rest)⟩)
  | command {gap text rest : List Char} (g : ∀ c ∈ gap, isGap c = true) (t : RunOf isPlain text)
      (start : StopsAt isGap text) (stop : StopsAt isPlain rest)
      (unmarked : ∀ name after, IsTarget name → rest ≠ marked name after) :
      Shorthand ("cmd:".toList ++ (gap ++ (text ++ rest)))
        (.command ⟨String.ofList (Text.trim text), none, String.ofList (Text.trim rest)⟩)
  | openMenu {gap menu : List Char} (g : ∀ c ∈ gap, isGap c = true) (w : IsWord menu) :
      Shorthand ("open:".toList ++ (gap ++ menu)) (.openMenu (String.ofList menu) none)
  | openMenuFor {gap menu gap' target : List Char} (g : ∀ c ∈ gap, isGap c = true) (w : IsWord menu)
      (g' : RunOf isGap gap') (w' : IsWord target) :
      Shorthand ("open:".toList ++ (gap ++ (menu ++ (gap' ++ target))))
        (.openMenu (String.ofList menu) (some (String.ofList target)))
  | closeMenu : Shorthand "close".toList .closeMenu
  | message {gap text : List Char} (g : ∀ c ∈ gap, isGap c = true) (r : IsRest text) :
      Shorthand ("msg:".toList ++ (gap ++ text)) (.message (String.ofList text))
  | console {gap text : List Char} (g : ∀ c ∈ gap, isGap c = true) (r : IsRest text) :
      Shorthand ("console:".toList ++ (gap ++ text)) (.console (String.ofList text))
  | permission {gap text : List Char} (g : ∀ c ∈ gap, isGap c = true) (r : IsRest text) :
      Shorthand ("perm:".toList ++ (gap ++ text)) (.permission (String.ofList (Text.trim text)))
  | assign {gap name gap' value : List Char} (g : RunOf isGap gap) (n : RunOf isNameChar name)
      (g' : RunOf isGap gap') (r : IsRest value) :
      Shorthand ("set".toList ++ (gap ++ (name ++ (gap' ++ value))))
        (.assign (String.ofList name) (String.ofList value))
  | math {gap name gap' gap'' operand : List Char} (op : MathOp) (g : RunOf isGap gap)
      (n : RunOf isNameChar name) (g' : RunOf isGap gap') (g'' : RunOf isGap gap'')
      (r : IsRest operand) :
      Shorthand ("math".toList ++ (gap ++ (name ++ (gap' ++ op.symbol :: (gap'' ++ operand)))))
        (.math (String.ofList name) op (String.ofList operand))
  | random {gap name gap' least gap'' greatest : List Char} (g : RunOf isGap gap)
      (n : RunOf isNameChar name) (g' : RunOf isGap gap') (w : IsWord least)
      (g'' : RunOf isGap gap'') (w' : IsWord greatest) :
      Shorthand ("random".toList ++ (gap ++ (name ++ (gap' ++ (least ++ (gap'' ++ greatest))))))
        (.random (String.ofList name) (String.ofList least) (String.ofList greatest))
  | delay {gap millis : List Char} (g : RunOf isGap gap) (w : IsWord millis) :
      Shorthand ("delay".toList ++ (gap ++ millis)) (.delay (String.ofList millis))

/-- The lines of the language: shorthands and, of all others, those with a colon. -/
inductive Says : List Char → Statement → Prop
  | shorthand {s : List Char} {statement : Statement} (h : Shorthand s statement) :
      Says s statement
  | call {name rest : List Char} (uncoloned : ':' ∉ name)
      (other : ∀ statement, ¬ Shorthand (name ++ ':' :: rest) statement) :
      Says (name ++ ':' :: rest)
        (.call (String.ofList (Text.trim name)) ((Text.words rest).map String.ofList))

section Pieces

variable {p q : Char → Bool} {s t w : List Char}

theorem stopsAt_nil : StopsAt p [] := by simp [StopsAt]

theorem stopsAt_cons {c : Char} : StopsAt p (c :: s) ↔ p c = false := by simp [StopsAt]

theorem stopsAt_append (stops : StopsAt p s) (filled : s ≠ []) : StopsAt p (s ++ t) := by
  obtain ⟨c, s, rfl⟩ := List.exists_cons_of_ne_nil filled
  exact stopsAt_cons.2 (stopsAt_cons.1 stops)

theorem stopsAt_of_append (stops : StopsAt p (s ++ t)) : StopsAt p s := by
  cases s with
  | nil => exact stopsAt_nil
  | cons c s => exact stopsAt_cons.2 (stopsAt_cons.1 stops)

theorem RunOf.stopsAt_append (h : RunOf p w) (apart : ∀ c, p c = true → q c = false) :
    StopsAt q (w ++ t) := by
  cases w with
  | nil => exact absurd rfl h.filled
  | cons c w =>
    intro d hd
    simp only [List.cons_append, List.head?_cons, Option.some.injEq] at hd
    subst hd
    exact apart c (h.all c (by simp))

theorem RunOf.stopsAt (h : RunOf p w) (apart : ∀ c, p c = true → q c = false) : StopsAt q w := by
  simpa using h.stopsAt_append (t := []) apart

theorem RunOf.ne_nil_append (h : RunOf p w) : w ++ t ≠ [] := by
  intro empty
  exact h.filled (List.append_eq_nil_iff.1 empty).1

/-- A longest run and what follows it are told by where the run stops. -/
theorem span_iff :
    s.takeWhile p = w ∧ s.dropWhile p = t ↔ (∀ c ∈ w, p c = true) ∧ StopsAt p t ∧ s = w ++ t := by
  constructor
  · rintro ⟨rfl, rfl⟩
    refine ⟨List.all_eq_true.1 List.all_takeWhile, fun c hc => ?_, ?_⟩
    · have stops := List.head?_dropWhile_not p s
      simpa [hc] using stops
    · exact (List.takeWhile_append_dropWhile).symm
  · rintro ⟨all, stops, rfl⟩
    rw [List.takeWhile_append_of_pos all, List.dropWhile_append_of_pos all]
    cases t with
    | nil => simp
    | cons c t => simp [stopsAt_cons.1 stops]

theorem dropWhile_eq_iff :
    s.dropWhile p = t ↔ ∃ w, (∀ c ∈ w, p c = true) ∧ StopsAt p t ∧ s = w ++ t := by
  constructor
  · intro h
    exact ⟨_, span_iff.1 ⟨rfl, h⟩⟩
  · rintro ⟨w, h⟩
    exact (span_iff.2 h).2

theorem after?_eq_some_iff {word : List Char} : after? word s = some t ↔ s = word ++ t := by
  induction word generalizing s with
  | nil => simp [after?]
  | cons c word ih =>
    cases s with
    | nil => simp [after?]
    | cons d s =>
      by_cases h : c = d
      · simp [after?, h, ih]
      · simp [after?, h, Ne.symm h]

theorem filled?_eq_some_iff : filled? s = some t ↔ t ≠ [] ∧ s = t := by
  cases s with
  | nil => simp [filled?, eq_comm]
  | cons c s =>
    simp only [filled?, List.isEmpty_cons, Bool.false_eq_true, if_false, Option.some.injEq]
    constructor
    · rintro rfl
      simp
    · exact And.right

theorem run?_eq_some_iff : run? p s = some (w, t) ↔ RunOf p w ∧ StopsAt p t ∧ s = w ++ t := by
  simp only [run?, Option.map_eq_some_iff, filled?_eq_some_iff, Prod.mk.injEq]
  constructor
  · rintro ⟨_, ⟨filled, taken⟩, rfl, dropped⟩
    obtain ⟨all, stops, split⟩ := span_iff.1 ⟨taken, dropped⟩
    exact ⟨⟨filled, all⟩, stops, split⟩
  · rintro ⟨run, stops, split⟩
    obtain ⟨taken, dropped⟩ := span_iff.2 ⟨run.all, stops, split⟩
    exact ⟨w, ⟨run.filled, taken⟩, rfl, dropped⟩

theorem gap?_eq_some_iff :
    gap? s = some t ↔ ∃ gap, RunOf isGap gap ∧ StopsAt isGap t ∧ s = gap ++ t := by
  cases s with
  | nil =>
    simp only [gap?, reduceCtorEq, false_iff]
    rintro ⟨gap, run, -, split⟩
    exact run.ne_nil_append split.symm
  | cons c s =>
    by_cases h : isGap c = true
    · simp only [gap?, h, if_true, Option.some.injEq, dropWhile_eq_iff]
      constructor
      · rintro ⟨w, all, stops, rfl⟩
        exact ⟨c :: w, ⟨by simp, by simpa [h] using all⟩, stops, by simp⟩
      · rintro ⟨gap, run, stops, split⟩
        cases gap with
        | nil => exact absurd rfl run.filled
        | cons d gap =>
          simp only [List.cons_append, List.cons.injEq] at split
          exact ⟨gap, fun e he => run.all e (by simp [he]), stops, split.2⟩
    · simp only [gap?, h, Bool.false_eq_true, if_false, reduceCtorEq, false_iff]
      rintro ⟨gap, run, -, split⟩
      have stops : StopsAt (fun c => !isGap c) (c :: s) := by
        rw [split]
        exact run.stopsAt_append (by simp)
      simp [stopsAt_cons, h] at stops

theorem lastWord?_eq_some_iff : lastWord? s = some w ↔ IsWord w ∧ s = w := by
  rw [lastWord?]
  split_ifs with h
  · simp only [false_iff]
    rintro ⟨word, rfl⟩
    obtain ⟨c, hc, gap⟩ := List.any_eq_true.1 h
    simpa [gap] using word.all c hc
  · rw [filled?_eq_some_iff]
    constructor
    · rintro ⟨filled, rfl⟩
      exact ⟨⟨filled, by simpa using h⟩, rfl⟩
    · rintro ⟨word, rfl⟩
      exact ⟨word.filled, rfl⟩

private theorem digitsValue_eq_numeral (digits : List Char) :
    Number.digitsValue digits = numeral digits := by
  induction digits using List.reverseRecOn with
  | nil => rfl
  | append_singleton digits c ih =>
    rw [Number.digitsValue_append, ih]
    simp [numeral, Number.digitsValue, Nat.ofDigits_cons, Nat.add_comm, Nat.mul_comm]

private theorem readNat?_eq_some_iff {n : Nat} :
    Number.readNat? s = some n ↔ RunOf Char.isDigit s ∧ n = numeral s := by
  have digits : (s.isEmpty || !s.all Char.isDigit) = false ↔ RunOf Char.isDigit s := by
    simp only [Bool.or_eq_false_iff, List.isEmpty_eq_false_iff, Bool.not_eq_false',
      List.all_eq_true]
    exact ⟨fun h => ⟨h.1, h.2⟩, fun h => ⟨h.filled, h.all⟩⟩
  rw [Number.readNat?, ← digits, digitsValue_eq_numeral]
  split_ifs with h
  · simp [h]
  · simp [h, eq_comm]

theorem target?_eq_some_iff :
    target? s = some (w, t) ↔ IsTarget w ∧ s = marked w t := by
  have open_iff : ∀ name : List Char, RunOf (· != '\x7d') name ↔ IsTarget name := by
    intro name
    constructor
    · intro h
      exact ⟨h.filled, fun mem => by simpa using h.all _ mem⟩
    · intro h
      refine ⟨h.filled, fun c hc => ?_⟩
      have other : c ≠ '\x7d' := fun same => h.closed (same ▸ hc)
      simpa using other
  cases s with
  | nil => simp [target?, marked]
  | cons c s =>
    by_cases hc : c = '\x7b'
    · simp only [target?, hc, if_true, marked, List.cons.injEq, true_and]
      constructor
      · intro h
        split at h
        · rename_i name d rest hrun
          cases h
          obtain ⟨run, stops, split⟩ := run?_eq_some_iff.1 hrun
          have closing : d = '\x7d' := by simpa [stopsAt_cons] using stops
          exact ⟨(open_iff w).1 run, by rw [split, closing]⟩
        · cases h
      · rintro ⟨name, rfl⟩
        have run : run? (· != '\x7d') (w ++ '\x7d' :: t) = some (w, '\x7d' :: t) :=
          run?_eq_some_iff.2 ⟨(open_iff w).2 name, by simp [stopsAt_cons], rfl⟩
        simp [run]
    · simp [target?, hc, marked]

private theorem target?_eq_none_iff :
    target? s = none ↔ ∀ name after, IsTarget name → s ≠ marked name after := by
  rw [Option.eq_none_iff_forall_ne_some]
  constructor
  · intro h name after target split
    exact h (name, after) (target?_eq_some_iff.2 ⟨target, split⟩)
  · rintro h ⟨name, after⟩ found
    obtain ⟨target, split⟩ := target?_eq_some_iff.1 found
    exact h name after target split

private theorem ofChar?_eq_some_iff {c : Char} {op : MathOp} :
    MathOp.ofChar? c = some op ↔ c = op.symbol := by
  constructor
  · intro h
    rw [MathOp.ofChar?] at h
    have found := List.find?_some h
    exact (beq_iff_eq.1 found).symm
  · rintro rfl
    cases op <;> decide

end Pieces

section Apart

theorem gap_of_isNameChar (c : Char) (h : isNameChar c = true) : isGap c = false := by
  cases gap : isGap c with
  | false => rfl
  | true =>
    simp only [isGap, Bool.or_eq_true, beq_iff_eq] at gap
    rcases gap with rfl | rfl <;> revert h <;> decide

private theorem name_of_isGap (c : Char) (h : isGap c = true) : isNameChar c = false := by
  cases name : isNameChar c with
  | false => rfl
  | true => rw [gap_of_isNameChar c name] at h; cases h

private theorem gap_of_isDigit (c : Char) (h : c.isDigit = true) : isGap c = false :=
  gap_of_isNameChar c (by simp [isNameChar, Char.isAlphanum, h])

theorem gap_of_word (c : Char) (h : (!isGap c) = true) : isGap c = false := by simpa using h

theorem word_of_isGap (c : Char) (h : isGap c = true) : (!isGap c) = false := by simpa using h

private theorem gap_of_symbol (op : MathOp) : isGap op.symbol = false := by cases op <;> decide

private theorem plain_marked (name rest : List Char) : StopsAt isPlain (marked name rest) :=
  stopsAt_cons.2 (by decide)

end Apart

section Forms

variable {s : List Char} {statement : Statement}

private theorem keyword?_eq_some_iff {word : String} {said : Statement} :
    keyword? word said s = some statement ↔ s = word.toList ∧ statement = said := by
  simp [keyword?, eq_comm]

theorem readIf_eq_some_iff :
    readIf s = some statement ↔ ∃ gap text, RunOf isGap gap ∧ IsRest text ∧
      s = "if".toList ++ (gap ++ text) ∧ statement = .ifHolds (String.ofList text) := by
  simp only [readIf, Option.bind_eq_bind, Option.bind_eq_some_iff, after?_eq_some_iff,
    gap?_eq_some_iff, filled?_eq_some_iff, Option.pure_def, Option.some.injEq]
  constructor
  · rintro ⟨_, rfl, text, ⟨gap, run, stops, rfl⟩, _, ⟨filled, rfl⟩, rfl⟩
    exact ⟨gap, text, run, ⟨filled, stops⟩, rfl, rfl⟩
  · rintro ⟨gap, text, run, rest, rfl, rfl⟩
    exact ⟨_, rfl, text, ⟨gap, run, rest.start, rfl⟩, text, ⟨rest.filled, rfl⟩, rfl⟩

theorem readLoop_eq_some_iff :
    readLoop s = some statement ↔ ∃ gap digits, RunOf isGap gap ∧ RunOf Char.isDigit digits ∧
      s = "loop".toList ++ (gap ++ digits) ∧
      statement = .loop (min (numeral digits) (2 ^ 64 - 1)) := by
  simp only [readLoop, Option.bind_eq_bind, Option.bind_eq_some_iff, after?_eq_some_iff,
    gap?_eq_some_iff, readNat?_eq_some_iff, Option.pure_def, Option.some.injEq]
  constructor
  · rintro ⟨_, rfl, digits, ⟨gap, run, -, rfl⟩, _, ⟨number, rfl⟩, rfl⟩
    exact ⟨gap, digits, run, number, rfl, rfl⟩
  · rintro ⟨gap, digits, run, number, rfl, rfl⟩
    exact ⟨_, rfl, digits, ⟨gap, run, number.stopsAt gap_of_isDigit, rfl⟩, _, ⟨number, rfl⟩, rfl⟩

theorem readCommand_eq_some_iff :
    readCommand s = some statement ↔ ∃ gap text rest, (∀ c ∈ gap, isGap c = true) ∧
      RunOf isPlain text ∧ StopsAt isGap text ∧ StopsAt isPlain rest ∧
      s = "cmd:".toList ++ (gap ++ (text ++ rest)) ∧
      ((∃ name after, IsTarget name ∧ rest = marked name after ∧
          statement = .command ⟨String.ofList (Text.trim text),
            some (String.ofList (Text.trim name)), String.ofList (Text.trim after)⟩) ∨
        (∀ name after, IsTarget name → rest ≠ marked name after) ∧
          statement = .command ⟨String.ofList (Text.trim text), none,
            String.ofList (Text.trim rest)⟩) := by
  simp only [readCommand, Option.bind_eq_bind, Option.bind_eq_some_iff, after?_eq_some_iff,
    Option.pure_def]
  constructor
  · rintro ⟨line, rfl, ⟨text, rest⟩, found, said⟩
    obtain ⟨run, stop, split⟩ := run?_eq_some_iff.1 found
    obtain ⟨gap, all, start, rfl⟩ := dropWhile_eq_iff.1 split
    have begins : StopsAt isGap text := by
      cases text with
      | nil => exact stopsAt_nil
      | cons c text => exact stopsAt_cons.2 (stopsAt_cons.1 start)
    refine ⟨gap, text, rest, all, run, begins, stop, rfl, ?_⟩
    split at said
    · rename_i name after marker
      obtain ⟨target, hrest⟩ := target?_eq_some_iff.1 marker
      exact Or.inl ⟨name, after, target, hrest, (Option.some.inj said).symm⟩
    · rename_i marker
      exact Or.inr ⟨target?_eq_none_iff.1 marker, (Option.some.inj said).symm⟩
  · rintro ⟨gap, text, rest, all, run, begins, stop, rfl, said⟩
    have start : StopsAt isGap (text ++ rest) := by
      cases text with
      | nil => exact absurd rfl run.filled
      | cons c text => exact stopsAt_cons.2 (stopsAt_cons.1 begins)
    have split : (gap ++ (text ++ rest)).dropWhile isGap = text ++ rest :=
      dropWhile_eq_iff.2 ⟨gap, all, start, rfl⟩
    refine ⟨_, rfl, (text, rest), run?_eq_some_iff.2 ⟨run, stop, split⟩, ?_⟩
    obtain ⟨name, after, target, hrest, rfl⟩ | ⟨unmarked, rfl⟩ := said
    · simp [target?_eq_some_iff.2 ⟨target, hrest⟩]
    · simp [target?_eq_none_iff.2 unmarked]

theorem readOpen_eq_some_iff :
    readOpen s = some statement ↔ ∃ gap menu, (∀ c ∈ gap, isGap c = true) ∧ IsWord menu ∧
      ((s = "open:".toList ++ (gap ++ menu) ∧
          statement = .openMenu (String.ofList menu) none) ∨
        ∃ gap' target, RunOf isGap gap' ∧ IsWord target ∧
          s = "open:".toList ++ (gap ++ (menu ++ (gap' ++ target))) ∧
          statement = .openMenu (String.ofList menu) (some (String.ofList target))) := by
  simp only [readOpen, Option.bind_eq_bind, Option.bind_eq_some_iff, after?_eq_some_iff,
    Option.pure_def]
  constructor
  · rintro ⟨line, rfl, ⟨menu, rest⟩, found, said⟩
    obtain ⟨word, -, split⟩ := run?_eq_some_iff.1 found
    obtain ⟨gap, all, -, rfl⟩ := dropWhile_eq_iff.1 split
    refine ⟨gap, menu, all, word, ?_⟩
    split_ifs at said with bare
    · have empty : rest = [] := by simpa using bare
      exact Or.inl ⟨by simp [empty], (Option.some.inj said).symm⟩
    · simp only [Option.bind_eq_some_iff, gap?_eq_some_iff, lastWord?_eq_some_iff] at said
      obtain ⟨_, ⟨gap', run, -, rfl⟩, target, ⟨word', rfl⟩, said⟩ := said
      exact Or.inr ⟨gap', _, run, word', rfl, (Option.some.inj said).symm⟩
  · rintro ⟨gap, menu, all, word, ⟨rfl, rfl⟩ | ⟨gap', target, run, word', rfl, rfl⟩⟩
    · have split : (gap ++ menu).dropWhile isGap = menu ++ [] :=
        dropWhile_eq_iff.2 ⟨gap, all, word.stopsAt_append gap_of_word, by simp⟩
      exact ⟨_, rfl, (menu, []), run?_eq_some_iff.2 ⟨word, stopsAt_nil, split⟩, rfl⟩
    · have split : (gap ++ (menu ++ (gap' ++ target))).dropWhile isGap = menu ++ (gap' ++ target) :=
        dropWhile_eq_iff.2 ⟨gap, all, word.stopsAt_append gap_of_word, rfl⟩
      refine ⟨_, rfl, (menu, gap' ++ target),
        run?_eq_some_iff.2 ⟨word, run.stopsAt_append word_of_isGap, split⟩, ?_⟩
      have more : gap? (gap' ++ target) = some target :=
        gap?_eq_some_iff.2 ⟨gap', run, word'.stopsAt gap_of_word, rfl⟩
      have last : lastWord? target = some target := lastWord?_eq_some_iff.2 ⟨word', rfl⟩
      simp [run.filled, more, last]

theorem readText_eq_some_iff {mark : String} {said : List Char → Statement} :
    readText mark said s = some statement ↔ ∃ gap text, (∀ c ∈ gap, isGap c = true) ∧
      IsRest text ∧ s = mark.toList ++ (gap ++ text) ∧ statement = said text := by
  simp only [readText, Option.bind_eq_bind, Option.bind_eq_some_iff, after?_eq_some_iff,
    filled?_eq_some_iff, dropWhile_eq_iff, Option.pure_def, Option.some.injEq]
  constructor
  · rintro ⟨_, rfl, text, ⟨filled, gap, all, stops, rfl⟩, rfl⟩
    exact ⟨gap, text, all, ⟨filled, stops⟩, rfl, rfl⟩
  · rintro ⟨gap, text, all, rest, rfl, rfl⟩
    exact ⟨_, rfl, text, ⟨rest.filled, gap, all, rest.start, rfl⟩, rfl⟩

theorem variableThen?_eq_some_iff {word name : String} {t : List Char} :
    variableThen? word s = some (name, t) ↔ ∃ gap letters gap', RunOf isGap gap ∧
      RunOf isNameChar letters ∧ RunOf isGap gap' ∧ StopsAt isGap t ∧
      s = word.toList ++ (gap ++ (letters ++ (gap' ++ t))) ∧ name = String.ofList letters := by
  simp only [variableThen?, Option.bind_eq_bind, Option.bind_eq_some_iff, after?_eq_some_iff,
    gap?_eq_some_iff, Option.pure_def, Option.some.injEq, Prod.exists, run?_eq_some_iff,
    Prod.mk.injEq]
  constructor
  · rintro ⟨_, rfl, _, ⟨gap, run, -, rfl⟩, letters, _, ⟨named, -, rfl⟩, _,
      ⟨gap', run', stops, rfl⟩, rfl, rfl⟩
    exact ⟨gap, letters, gap', run, named, run', stops, rfl, rfl⟩
  · rintro ⟨gap, letters, gap', run, named, run', stops, rfl, rfl⟩
    exact ⟨_, rfl, _, ⟨gap, run, named.stopsAt_append gap_of_isNameChar, rfl⟩, letters, _,
      ⟨named, run'.stopsAt_append name_of_isGap, rfl⟩, t, ⟨gap', run', stops, rfl⟩, rfl, rfl⟩

theorem readAssign_eq_some_iff :
    readAssign s = some statement ↔ ∃ gap name gap' value, RunOf isGap gap ∧
      RunOf isNameChar name ∧ RunOf isGap gap' ∧ IsRest value ∧
      s = "set".toList ++ (gap ++ (name ++ (gap' ++ value))) ∧
      statement = .assign (String.ofList name) (String.ofList value) := by
  simp only [readAssign, Option.bind_eq_bind, Option.bind_eq_some_iff, Prod.exists,
    variableThen?_eq_some_iff, filled?_eq_some_iff, Option.pure_def, Option.some.injEq]
  constructor
  · rintro ⟨_, value, ⟨gap, name, gap', run, named, run', stops, rfl, rfl⟩, _, ⟨filled, rfl⟩, rfl⟩
    exact ⟨gap, name, gap', value, run, named, run', ⟨filled, stops⟩, rfl, rfl⟩
  · rintro ⟨gap, name, gap', value, run, named, run', rest, rfl, rfl⟩
    exact ⟨_, value, ⟨gap, name, gap', run, named, run', rest.start, rfl, rfl⟩, value,
      ⟨rest.filled, rfl⟩, rfl⟩

theorem readMath_eq_some_iff :
    readMath s = some statement ↔ ∃ gap name gap' op gap'' operand, RunOf isGap gap ∧
      RunOf isNameChar name ∧ RunOf isGap gap' ∧ RunOf isGap gap'' ∧ IsRest operand ∧
      s = "math".toList ++ (gap ++ (name ++ (gap' ++ MathOp.symbol op :: (gap'' ++ operand)))) ∧
      statement = .math (String.ofList name) op (String.ofList operand) := by
  simp only [readMath, Option.bind_eq_bind, Option.bind_eq_some_iff, Prod.exists,
    variableThen?_eq_some_iff, Option.pure_def]
  constructor
  · rintro ⟨_, t, ⟨gap, name, gap', run, named, run', -, rfl, rfl⟩, said⟩
    cases t with
    | nil => cases said
    | cons c t =>
      simp only [Option.bind_eq_some_iff, ofChar?_eq_some_iff, gap?_eq_some_iff,
        filled?_eq_some_iff, Option.some.injEq] at said
      obtain ⟨op, rfl, operand, ⟨gap'', run'', stops, rfl⟩, _, ⟨filled, rfl⟩, rfl⟩ := said
      exact ⟨gap, name, gap', op, gap'', operand, run, named, run', run'', ⟨filled, stops⟩, rfl,
        rfl⟩
  · rintro ⟨gap, name, gap', op, gap'', operand, run, named, run', run'', rest, rfl, rfl⟩
    refine ⟨_, MathOp.symbol op :: (gap'' ++ operand), ⟨gap, name, gap', run, named, run',
      stopsAt_cons.2 (gap_of_symbol op), rfl, rfl⟩, ?_⟩
    simp only [Option.bind_eq_some_iff, ofChar?_eq_some_iff, gap?_eq_some_iff,
      filled?_eq_some_iff, Option.some.injEq]
    exact ⟨op, rfl, operand, ⟨gap'', run'', rest.start, rfl⟩, operand, ⟨rest.filled, rfl⟩, rfl⟩

theorem readRandom_eq_some_iff :
    readRandom s = some statement ↔ ∃ gap name gap' least gap'' greatest, RunOf isGap gap ∧
      RunOf isNameChar name ∧ RunOf isGap gap' ∧ IsWord least ∧ RunOf isGap gap'' ∧
      IsWord greatest ∧
      s = "random".toList ++ (gap ++ (name ++ (gap' ++ (least ++ (gap'' ++ greatest))))) ∧
      statement =
        .random (String.ofList name) (String.ofList least) (String.ofList greatest) := by
  simp only [readRandom, Option.bind_eq_bind, Option.bind_eq_some_iff, Prod.exists,
    variableThen?_eq_some_iff, run?_eq_some_iff, gap?_eq_some_iff, lastWord?_eq_some_iff,
    Option.pure_def, Option.some.injEq]
  constructor
  · rintro ⟨_, _, ⟨gap, name, gap', run, named, run', -, rfl, rfl⟩, least, _, ⟨word, -, rfl⟩,
      _, ⟨gap'', run'', -, rfl⟩, greatest, ⟨word', rfl⟩, rfl⟩
    exact ⟨gap, name, gap', least, gap'', _, run, named, run', word, run'', word', rfl, rfl⟩
  · rintro ⟨gap, name, gap', least, gap'', greatest, run, named, run', word, run'', word', rfl, rfl⟩
    exact ⟨_, _, ⟨gap, name, gap', run, named, run', word.stopsAt_append gap_of_word, rfl, rfl⟩,
      least, _, ⟨word, run''.stopsAt_append word_of_isGap, rfl⟩, _,
      ⟨gap'', run'', word'.stopsAt gap_of_word, rfl⟩, greatest, ⟨word', rfl⟩, rfl⟩

theorem readDelay_eq_some_iff :
    readDelay s = some statement ↔ ∃ gap millis, RunOf isGap gap ∧ IsWord millis ∧
      s = "delay".toList ++ (gap ++ millis) ∧ statement = .delay (String.ofList millis) := by
  simp only [readDelay, Option.bind_eq_bind, Option.bind_eq_some_iff, after?_eq_some_iff,
    gap?_eq_some_iff, lastWord?_eq_some_iff, Option.pure_def, Option.some.injEq]
  constructor
  · rintro ⟨_, rfl, _, ⟨gap, run, -, rfl⟩, millis, ⟨word, rfl⟩, rfl⟩
    exact ⟨gap, _, run, word, rfl, rfl⟩
  · rintro ⟨gap, millis, run, word, rfl, rfl⟩
    exact ⟨_, rfl, millis, ⟨gap, run, word.stopsAt gap_of_word, rfl⟩, millis, ⟨word, rfl⟩, rfl⟩

theorem readCall_eq_some_iff :
    readCall s = some statement ↔ ∃ name rest, ':' ∉ name ∧ s = name ++ ':' :: rest ∧
      statement =
        .call (String.ofList (Text.trim name)) ((Text.words rest).map String.ofList) := by
  have split : ∀ name rest, ':' ∉ name → (name ++ ':' :: rest).takeWhile (· != ':') = name ∧
      (name ++ ':' :: rest).dropWhile (· != ':') = ':' :: rest := by
    intro name rest uncoloned
    refine span_iff.2 ⟨fun c hc => ?_, by simp [stopsAt_cons], rfl⟩
    have other : c ≠ ':' := fun same => uncoloned (same ▸ hc)
    simpa using other
  constructor
  · intro h
    rw [readCall] at h
    split at h
    · cases h
    · rename_i c rest found
      obtain ⟨all, stops, whole⟩ := span_iff.1 ⟨rfl, found⟩
      have colon : c = ':' := by simpa [stopsAt_cons] using stops
      refine ⟨s.takeWhile (· != ':'), rest, fun mem => ?_, ?_, (Option.some.inj h).symm⟩
      · simpa using all _ mem
      · rwa [colon] at whole
  · rintro ⟨name, rest, uncoloned, rfl, rfl⟩
    obtain ⟨taken, dropped⟩ := split name rest uncoloned
    simp [readCall, taken, dropped]

private theorem readCall_eq_none_iff : readCall s = none ↔ ':' ∉ s := by
  constructor
  · intro h mem
    obtain ⟨name, rest, rfl, uncoloned⟩ := List.eq_append_cons_of_mem mem
    simp [readCall_eq_some_iff.2 ⟨name, rest, uncoloned, rfl, rfl⟩] at h
  · intro h
    rw [Option.eq_none_iff_forall_ne_some]
    intro statement said
    obtain ⟨name, rest, -, rfl, -⟩ := readCall_eq_some_iff.1 said
    simp at h

end Forms

section Choice

/-- The forms of shorthands, in the order in which they are tried, each with the keyword or mark
that its lines start with. -/
def shorthands : List (String × (List Char → Option Statement)) :=
  [("if", readIf),
    ("else", keyword? "else" .otherwise),
    ("endif", keyword? "endif" .endIf),
    ("loop", readLoop),
    ("endloop", keyword? "endloop" .endLoop),
    ("break", keyword? "break" .leaveLoop),
    ("continue", keyword? "continue" .nextTurn),
    ("cmd:", readCommand),
    ("open:", readOpen),
    ("close", keyword? "close" .closeMenu),
    ("msg:", readText "msg:" fun s => .message (String.ofList s)),
    ("console:", readText "console:" fun s => .console (String.ofList s)),
    ("perm:", readText "perm:" fun s => .permission (String.ofList (Text.trim s))),
    ("set", readAssign),
    ("math", readMath),
    ("random", readRandom),
    ("delay", readDelay)]

theorem forms_eq_shorthands : forms = shorthands.map Prod.snd ++ [readCall] := rfl

/-- No keyword or mark is the start of another one. -/
theorem marks_apart : shorthands.Pairwise fun a b =>
    ¬ a.1.toList <+: b.1.toList ∧ ¬ b.1.toList <+: a.1.toList := by
  have marks : (shorthands.map Prod.fst).Pairwise fun a b =>
      ¬ a.toList <+: b.toList ∧ ¬ b.toList <+: a.toList := by decide
  exact List.pairwise_map.1 marks

variable {s : List Char} {statement : Statement} {form : String × (List Char → Option Statement)}

theorem shorthand_of_reads (mem : form ∈ shorthands) (reads : form.2 s = some statement) :
    form.1.toList <+: s ∧ Shorthand s statement := by
  simp only [shorthands, List.mem_cons, List.not_mem_nil, or_false] at mem
  rcases mem with rfl | rfl | rfl | rfl | rfl | rfl | rfl | rfl | rfl | rfl | rfl | rfl | rfl |
    rfl | rfl | rfl | rfl
  · obtain ⟨gap, text, run, rest, rfl, rfl⟩ := readIf_eq_some_iff.1 reads
    exact ⟨List.prefix_append _ _, .ifHolds run rest⟩
  · obtain ⟨rfl, rfl⟩ := keyword?_eq_some_iff.1 reads
    exact ⟨List.prefix_rfl, .otherwise⟩
  · obtain ⟨rfl, rfl⟩ := keyword?_eq_some_iff.1 reads
    exact ⟨List.prefix_rfl, .endIf⟩
  · obtain ⟨gap, digits, run, number, rfl, rfl⟩ := readLoop_eq_some_iff.1 reads
    exact ⟨List.prefix_append _ _, .loop run number⟩
  · obtain ⟨rfl, rfl⟩ := keyword?_eq_some_iff.1 reads
    exact ⟨List.prefix_rfl, .endLoop⟩
  · obtain ⟨rfl, rfl⟩ := keyword?_eq_some_iff.1 reads
    exact ⟨List.prefix_rfl, .leaveLoop⟩
  · obtain ⟨rfl, rfl⟩ := keyword?_eq_some_iff.1 reads
    exact ⟨List.prefix_rfl, .nextTurn⟩
  · obtain ⟨gap, text, rest, all, run, start, stop, rfl, said⟩ := readCommand_eq_some_iff.1 reads
    refine ⟨List.prefix_append _ _, ?_⟩
    rcases said with ⟨name, after, target, rfl, rfl⟩ | ⟨unmarked, rfl⟩
    · exact .commandFor all run start target
    · exact .command all run start stop unmarked
  · obtain ⟨gap, menu, all, word, said⟩ := readOpen_eq_some_iff.1 reads
    rcases said with ⟨rfl, rfl⟩ | ⟨gap', target, run, word', rfl, rfl⟩
    · exact ⟨List.prefix_append _ _, .openMenu all word⟩
    · exact ⟨List.prefix_append _ _, .openMenuFor all word run word'⟩
  · obtain ⟨rfl, rfl⟩ := keyword?_eq_some_iff.1 reads
    exact ⟨List.prefix_rfl, .closeMenu⟩
  · obtain ⟨gap, text, all, rest, rfl, rfl⟩ := readText_eq_some_iff.1 reads
    exact ⟨List.prefix_append _ _, .message all rest⟩
  · obtain ⟨gap, text, all, rest, rfl, rfl⟩ := readText_eq_some_iff.1 reads
    exact ⟨List.prefix_append _ _, .console all rest⟩
  · obtain ⟨gap, text, all, rest, rfl, rfl⟩ := readText_eq_some_iff.1 reads
    exact ⟨List.prefix_append _ _, .permission all rest⟩
  · obtain ⟨gap, name, gap', value, run, named, run', rest, rfl, rfl⟩ :=
      readAssign_eq_some_iff.1 reads
    exact ⟨List.prefix_append _ _, .assign run named run' rest⟩
  · obtain ⟨gap, name, gap', op, gap'', operand, run, named, run', run'', rest, rfl, rfl⟩ :=
      readMath_eq_some_iff.1 reads
    exact ⟨List.prefix_append _ _, .math op run named run' run'' rest⟩
  · obtain ⟨gap, name, gap', least, gap'', greatest, run, named, run', word, run'', word', rfl,
      rfl⟩ := readRandom_eq_some_iff.1 reads
    exact ⟨List.prefix_append _ _, .random run named run' word run'' word'⟩
  · obtain ⟨gap, millis, run, word, rfl, rfl⟩ := readDelay_eq_some_iff.1 reads
    exact ⟨List.prefix_append _ _, .delay run word⟩

theorem reads_of_shorthand (h : Shorthand s statement) :
    ∃ form ∈ shorthands, form.2 s = some statement := by
  cases h with
  | ifHolds g r =>
    exact ⟨("if", readIf), by simp [shorthands], readIf_eq_some_iff.2 ⟨_, _, g, r, rfl, rfl⟩⟩
  | otherwise =>
    exact ⟨("else", keyword? "else" .otherwise), by simp [shorthands], rfl⟩
  | endIf =>
    exact ⟨("endif", keyword? "endif" .endIf), by simp [shorthands], rfl⟩
  | loop g d =>
    exact ⟨("loop", readLoop), by simp [shorthands], readLoop_eq_some_iff.2 ⟨_, _, g, d, rfl, rfl⟩⟩
  | endLoop =>
    exact ⟨("endloop", keyword? "endloop" .endLoop), by simp [shorthands], rfl⟩
  | leaveLoop =>
    exact ⟨("break", keyword? "break" .leaveLoop), by simp [shorthands], rfl⟩
  | nextTurn =>
    exact ⟨("continue", keyword? "continue" .nextTurn), by simp [shorthands], rfl⟩
  | commandFor g t start n =>
    exact ⟨("cmd:", readCommand), by simp [shorthands], readCommand_eq_some_iff.2
      ⟨_, _, _, g, t, start, plain_marked _ _, rfl, Or.inl ⟨_, _, n, rfl, rfl⟩⟩⟩
  | command g t start stop unmarked =>
    exact ⟨("cmd:", readCommand), by simp [shorthands], readCommand_eq_some_iff.2
      ⟨_, _, _, g, t, start, stop, rfl, Or.inr ⟨unmarked, rfl⟩⟩⟩
  | openMenu g w =>
    exact ⟨("open:", readOpen), by simp [shorthands],
      readOpen_eq_some_iff.2 ⟨_, _, g, w, Or.inl ⟨rfl, rfl⟩⟩⟩
  | openMenuFor g w g' w' =>
    exact ⟨("open:", readOpen), by simp [shorthands],
      readOpen_eq_some_iff.2 ⟨_, _, g, w, Or.inr ⟨_, _, g', w', rfl, rfl⟩⟩⟩
  | closeMenu =>
    exact ⟨("close", keyword? "close" .closeMenu), by simp [shorthands], rfl⟩
  | message g r =>
    exact ⟨("msg:", readText "msg:" fun s => .message (String.ofList s)), by simp [shorthands],
      readText_eq_some_iff.2 ⟨_, _, g, r, rfl, rfl⟩⟩
  | console g r =>
    exact ⟨("console:", readText "console:" fun s => .console (String.ofList s)),
      by simp [shorthands], readText_eq_some_iff.2 ⟨_, _, g, r, rfl, rfl⟩⟩
  | permission g r =>
    exact ⟨("perm:", readText "perm:" fun s => .permission (String.ofList (Text.trim s))),
      by simp [shorthands], readText_eq_some_iff.2 ⟨_, _, g, r, rfl, rfl⟩⟩
  | assign g n g' r =>
    exact ⟨("set", readAssign), by simp [shorthands],
      readAssign_eq_some_iff.2 ⟨_, _, _, _, g, n, g', r, rfl, rfl⟩⟩
  | math op g n g' g'' r =>
    exact ⟨("math", readMath), by simp [shorthands],
      readMath_eq_some_iff.2 ⟨_, _, _, op, _, _, g, n, g', g'', r, rfl, rfl⟩⟩
  | random g n g' w g'' w' =>
    exact ⟨("random", readRandom), by simp [shorthands],
      readRandom_eq_some_iff.2 ⟨_, _, _, _, _, _, g, n, g', w, g'', w', rfl, rfl⟩⟩
  | delay g w =>
    exact ⟨("delay", readDelay), by simp [shorthands],
      readDelay_eq_some_iff.2 ⟨_, _, g, w, rfl, rfl⟩⟩

/-- Where the marks of forms are apart, the order in which the forms are tried does not matter. -/
theorem findSome?_of_apart {tried : List (String × (List Char → Option Statement))}
    (opens : ∀ form ∈ tried, ∀ statement, form.2 s = some statement → form.1.toList <+: s)
    (apart : tried.Pairwise fun a b =>
      ¬ a.1.toList <+: b.1.toList ∧ ¬ b.1.toList <+: a.1.toList)
    (mem : form ∈ tried) (reads : form.2 s = some statement) :
    (tried.map Prod.snd).findSome? (fun read => read s) = some statement := by
  induction tried with
  | nil => simp at mem
  | cons first tried ih =>
    obtain ⟨differs, apart⟩ := List.pairwise_cons.1 apart
    rw [List.map_cons, List.findSome?_cons]
    rcases List.mem_cons.1 mem with rfl | mem
    · rw [reads]
    · have misses : first.2 s = none := by
        rw [Option.eq_none_iff_forall_ne_some]
        intro other fits
        -- both marks start the line, so the shorter of them starts the longer
        have mark := opens first (by simp) other fits
        have mark' := opens form (by simp [mem]) statement reads
        rcases List.prefix_or_prefix_of_prefix mark mark' with h | h
        · exact (differs form mem).1 h
        · exact (differs form mem).2 h
      rw [misses]
      exact ih (fun f hf => opens f (by simp [hf])) apart mem

theorem findSome?_shorthands_eq_some_iff :
    (shorthands.map Prod.snd).findSome? (fun read => read s) = some statement ↔
      Shorthand s statement := by
  constructor
  · intro h
    obtain ⟨read, tried, reads⟩ := List.exists_of_findSome?_eq_some h
    obtain ⟨form, mem, rfl⟩ := List.mem_map.1 tried
    exact (shorthand_of_reads mem reads).2
  · intro h
    obtain ⟨form, mem, reads⟩ := reads_of_shorthand h
    exact findSome?_of_apart (fun _ mem _ reads => (shorthand_of_reads mem reads).1) marks_apart mem
      reads

theorem read?_eq_of_no_shorthand {line : String}
    (other : ∀ statement, ¬ Shorthand line.toList statement) :
    read? line = readCall line.toList := by
  have misses : (shorthands.map Prod.snd).findSome? (fun read => read line.toList) = none := by
    rw [Option.eq_none_iff_forall_ne_some]
    intro statement reads
    exact other statement (findSome?_shorthands_eq_some_iff.1 reads)
  rw [read?, forms_eq_shorthands, List.findSome?_append, misses]
  simp

theorem read?_of_shorthand {line : String} (h : Shorthand line.toList statement) :
    read? line = some statement := by
  rw [read?, forms_eq_shorthands, List.findSome?_append, findSome?_shorthands_eq_some_iff.2 h]
  rfl

theorem read?_eq_some_iff {line : String} :
    read? line = some statement ↔ Says line.toList statement := by
  constructor
  · intro h
    by_cases short : ∃ said, Shorthand line.toList said
    · obtain ⟨said, short⟩ := short
      rw [read?_of_shorthand short] at h
      cases h
      exact .shorthand short
    · have other := not_exists.1 short
      rw [read?_eq_of_no_shorthand other, readCall_eq_some_iff] at h
      obtain ⟨name, rest, uncoloned, split, rfl⟩ := h
      rw [split] at other ⊢
      exact .call uncoloned other
  · intro h
    generalize split : line.toList = s at h
    cases h with
    | shorthand short => exact read?_of_shorthand (split ▸ short)
    | call uncoloned other =>
      rw [← split] at other
      rw [read?_eq_of_no_shorthand other, readCall_eq_some_iff]
      exact ⟨_, _, uncoloned, split, rfl⟩

private theorem read?_eq_none_iff {line : String} :
    read? line = none ↔ (∀ statement, ¬ Shorthand line.toList statement) ∧ ':' ∉ line.toList := by
  constructor
  · intro h
    have other : ∀ statement, ¬ Shorthand line.toList statement := by
      intro statement short
      simp [read?_of_shorthand short] at h
    rw [read?_eq_of_no_shorthand other, readCall_eq_none_iff] at h
    exact ⟨other, h⟩
  · rintro ⟨other, uncoloned⟩
    rw [read?_eq_of_no_shorthand other, readCall_eq_none_iff]
    exact uncoloned

end Choice

/-- A line is read as a statement exactly if the grammar says so, and it is an unknown command,
reported with the line itself, exactly if it is no shorthand and has no colon. -/
theorem read_iff_grammar (line : String) :
    (∀ statement, read line = .ok statement ↔ Says line.toList statement) ∧
      ∀ e, read line = .error e ↔
        e = .unknownCommand line ∧ (∀ statement, ¬ Shorthand line.toList statement) ∧
          ':' ∉ line.toList := by
  rw [← read?_eq_none_iff]
  constructor
  · intro statement
    rw [← read?_eq_some_iff, read]
    cases read? line <;> simp
  · intro e
    rw [read]
    cases read? line <;> simp [eq_comm]

end MenuScript.Statement
