import MenuScript.Proofs.LineGrammar
import Mathlib.Data.List.DropRight

/-!
# Trimmed texts, their words and lines

Trimming takes white space from both ends and leaves everything else, the words of the text among
it. White space within a text separates its words, and all that is used of words follows from that.
A text without a line feed is one line.
-/

namespace MenuScript.Text

open Statement (StopsAt RunOf)

section Trimming

variable {s t gap : List Char}

theorem dropWhile_of_stops (stops : StopsAt isSpace s) : s.dropWhile isSpace = s :=
  Statement.dropWhile_eq_iff.2 ⟨[], by simp, stops, rfl⟩

theorem trim_of_start (start : StopsAt isSpace s) :
    trim s = (s.reverse.dropWhile isSpace).reverse := by
  rw [trim, dropWhile_of_stops start, dropEndWhile]

theorem trim_of_stop (stop : StopsAt isSpace s.reverse) : trim s = s.dropWhile isSpace := by
  obtain ⟨before, -, -, split⟩ := Statement.dropWhile_eq_iff.1 (rfl : s.dropWhile isSpace = _)
  have stop' : StopsAt isSpace (s.dropWhile isSpace).reverse := by
    intro c first
    refine stop c ?_
    rw [split, List.reverse_append, List.head?_append, first]
    rfl
  rw [trim, dropEndWhile, dropWhile_of_stops stop', List.reverse_reverse]

theorem trim_of_ends (start : StopsAt isSpace s) (stop : StopsAt isSpace s.reverse) :
    trim s = s := by
  rw [trim_of_start start, dropWhile_of_stops stop, List.reverse_reverse]

theorem trim_append_space {c : Char} (space : isSpace c = true) (s : List Char) :
    trim (s ++ [c]) = trim s := by
  rw [trim, trim, List.dropWhile_append]
  cases kept : s.dropWhile isSpace with
  | nil => simp [space, dropEndWhile]
  | cons d rest =>
    simp only [List.isEmpty_cons, Bool.false_eq_true, if_false]
    exact List.rdropWhile_concat_pos isSpace (d :: rest) c space

theorem trim_append_gap (blank : ∀ c ∈ gap, isSpace c = true) (s : List Char) :
    trim (s ++ gap) = trim s := by
  induction gap using List.reverseRecOn with
  | nil => rw [List.append_nil]
  | append_singleton gap c ih =>
    have last : isSpace c = true := blank c (by simp)
    rw [← List.append_assoc, trim_append_space last, ih fun d mem => blank d (by simp [mem])]

theorem trim_gap_append (blank : ∀ c ∈ gap, isSpace c = true) (s : List Char) :
    trim (gap ++ s) = trim s := by
  rw [trim, trim, List.dropWhile_append_of_pos blank]

/-- What trimming takes away is white space. -/
theorem exists_eq_append_trim (s : List Char) :
    ∃ before after, (∀ c ∈ before, isSpace c = true) ∧ (∀ c ∈ after, isSpace c = true) ∧
      s = before ++ (trim s ++ after) := by
  obtain ⟨before, blank, -, front⟩ := Statement.dropWhile_eq_iff.1 (rfl : s.dropWhile isSpace = _)
  obtain ⟨after, blank', -, back⟩ :=
    Statement.dropWhile_eq_iff.1 (rfl : (s.dropWhile isSpace).reverse.dropWhile isSpace = _)
  refine ⟨before, after.reverse, blank, by simpa using blank', ?_⟩
  have rest : s.dropWhile isSpace = trim s ++ after.reverse := by
    rw [trim, dropEndWhile, ← List.reverse_append, ← back, List.reverse_reverse]
  rw [← rest]
  exact front

theorem stopsAt_trim (s : List Char) : StopsAt isSpace (trim s) := by
  have start : trim s <+: s.dropWhile isSpace := List.rdropWhile_prefix isSpace _
  have stops : StopsAt isSpace (s.dropWhile isSpace) := (Statement.span_iff.1 ⟨rfl, rfl⟩).2.1
  cases trims : trim s with
  | nil => exact Statement.stopsAt_nil
  | cons c rest =>
    rw [trims] at start
    obtain ⟨more, whole⟩ := start
    rw [← whole, List.cons_append, Statement.stopsAt_cons] at stops
    exact Statement.stopsAt_cons.2 stops

theorem stopsAt_reverse_trim (s : List Char) : StopsAt isSpace (trim s).reverse := by
  rw [trim, dropEndWhile, List.reverse_reverse]
  exact (Statement.span_iff.1 ⟨rfl, rfl⟩).2.1

theorem trim_trim (s : List Char) : trim (trim s) = trim s :=
  trim_of_ends (stopsAt_trim s) (stopsAt_reverse_trim s)

theorem trim_subset (s : List Char) : trim s ⊆ s := by
  obtain ⟨before, after, -, -, split⟩ := exists_eq_append_trim s
  intro c mem
  rw [split]
  simp [mem]

theorem mem_trim {c : Char} (mem : c ∈ s) (solid : isSpace c = false) : c ∈ trim s := by
  obtain ⟨before, after, blank, blank', split⟩ := exists_eq_append_trim s
  rw [split, List.mem_append, List.mem_append] at mem
  rcases mem with mem | mem | mem
  · rw [blank c mem] at solid
    cases solid
  · exact mem
  · rw [blank' c mem] at solid
    cases solid

theorem trim_eq_nil_iff : trim s = [] ↔ ∀ c ∈ s, isSpace c = true := by
  constructor
  · intro empty c mem
    by_contra solid
    have kept : c ∈ trim s := mem_trim mem (by simpa using solid)
    rw [empty] at kept
    cases kept
  · intro blank
    have nothing := trim_gap_append blank []
    rw [List.append_nil] at nothing
    exact nothing

end Trimming

section Words

variable {s t gap current : List Char}

theorem wordsFrom_of_solid (solid : ∀ c ∈ s, isSpace c = false) (filled : current ≠ [] ∨ s ≠ []) :
    wordsFrom current s = [current.reverse ++ s] := by
  induction s generalizing current with
  | nil => simp_all [wordsFrom]
  | cons c s ih =>
    simp only [List.mem_cons, forall_eq_or_imp] at solid
    simp only [wordsFrom, solid.1, Bool.false_eq_true, if_false]
    rw [ih solid.2 (by simp)]
    simp

theorem words_of_solid (word : RunOf (!isSpace ·) s) : words s = [s] := by
  rw [words, wordsFrom_of_solid (fun c mem => by simpa using word.all c mem) (Or.inr word.filled)]
  rfl

private theorem wordsFrom_append_space {c : Char} (space : isSpace c = true) (s t : List Char) :
    wordsFrom current (s ++ c :: t) = wordsFrom current s ++ words t := by
  induction s generalizing current with
  | nil =>
    simp only [List.nil_append, wordsFrom, space, if_true]
    split_ifs <;> rfl
  | cons d s ih =>
    rw [List.cons_append, wordsFrom, wordsFrom]
    split_ifs
    · exact ih
    · rw [ih, List.cons_append]
    · exact ih

/-- White space ends a word. -/
theorem words_append_space {c : Char} (space : isSpace c = true) (s t : List Char) :
    words (s ++ c :: t) = words s ++ words t :=
  wordsFrom_append_space space s t

theorem words_gap_append (blank : ∀ c ∈ gap, isSpace c = true) (s : List Char) :
    words (gap ++ s) = words s := by
  induction gap with
  | nil => rfl
  | cons c gap ih =>
    have first : isSpace c = true := blank c (by simp)
    have skipped : words (c :: (gap ++ s)) = words [] ++ words (gap ++ s) :=
      words_append_space first [] _
    rw [List.cons_append, skipped, ih fun d mem => blank d (by simp [mem])]
    rfl

theorem words_append_gap (run : RunOf isSpace gap) (s t : List Char) :
    words (s ++ (gap ++ t)) = words s ++ words t := by
  obtain ⟨c, gap, rfl⟩ := List.exists_cons_of_ne_nil run.filled
  rw [List.cons_append, words_append_space (run.all c (by simp)),
    words_gap_append fun d mem => run.all d (by simp [mem])]

private theorem wordsFrom_eq_nil_iff :
    wordsFrom current s = [] ↔ current = [] ∧ ∀ c ∈ s, isSpace c = true := by
  induction s generalizing current with
  | nil => cases current <;> simp [wordsFrom]
  | cons c s ih =>
    rw [wordsFrom]
    split_ifs with space empty
    · simp [ih, space, List.isEmpty_iff.1 empty]
    · simp [List.isEmpty_iff] at empty
      simp [empty]
    · simp [ih, space]

theorem words_eq_nil_iff : words s = [] ↔ ∀ c ∈ s, isSpace c = true := by
  simp [words, wordsFrom_eq_nil_iff]

theorem trim_eq_nil_iff_words : trim s = [] ↔ words s = [] :=
  trim_eq_nil_iff.trans words_eq_nil_iff.symm

theorem words_append_blank (blank : ∀ c ∈ gap, isSpace c = true) (s : List Char) :
    words (s ++ gap) = words s := by
  cases gap with
  | nil => rw [List.append_nil]
  | cons c gap =>
    have none : words gap = [] := words_eq_nil_iff.2 fun d mem => blank d (by simp [mem])
    rw [words_append_space (blank c (by simp)), none, List.append_nil]

theorem words_trim (s : List Char) : words (trim s) = words s := by
  obtain ⟨before, after, blank, blank', split⟩ := exists_eq_append_trim s
  conv_rhs => rw [split, words_gap_append blank, words_append_blank blank']

end Words

section Lines

variable {s current : List Char}

theorem linesFrom_of_single (single : '\n' ∉ s)
    (filled : current ≠ [] ∨ s ≠ []) : linesFrom current s = [current.reverse ++ s] := by
  induction s generalizing current with
  | nil => simp_all [linesFrom]
  | cons c s ih =>
    simp only [List.mem_cons, not_or] at single
    rw [linesFrom, if_neg (Ne.symm single.1), ih single.2 (by simp)]
    simp

end Lines

end MenuScript.Text
