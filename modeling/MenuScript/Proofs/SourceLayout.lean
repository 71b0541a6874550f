import MenuScript.Proofs.JoinedSources
import Mathlib.Logic.Relation

/-!
# The layout of a source text

A run depends on nothing but what its lines say. So every source text has a plain layout, in which
the lines that say something stand trimmed and one below another, and which is run like the text
itself. The lines of the plain layout are exactly those that it was put together from, because a
trimmed line cannot end in a carriage return. Indentation, white space at the ends of lines, the
form of line ends, blank lines and comments are what can be edited without changing it.
-/

namespace MenuScript

open Statement (StopsAt)

/-- The text with its lines trimmed, and without those that are empty or comments. -/
def plainLayout (source : String) : String := "\n".intercalate (saidIn (linesOf source))

/-- A line that stands in a plain layout as it is. -/
structure IsPlainLine (line : String) : Prop where
  trimmed_eq : trimmed line = line
  said : isIgnorable line = false
  single : '\n' ∉ line.toList

namespace Text

private theorem endedLine_subset (current : List Char) : endedLine current ⊆ current := by
  rw [endedLine.eq_def]
  split <;> simp

private theorem newline_not_mem_linesFrom {current s line : List Char} (single : '\n' ∉ current)
    (mem : line ∈ linesFrom current s) : '\n' ∉ line := by
  induction s generalizing current with
  | nil =>
    rw [linesFrom] at mem
    split_ifs at mem
    · cases mem
    · rw [List.mem_singleton.1 mem, List.mem_reverse]
      exact single
  | cons c s ih =>
    rw [linesFrom] at mem
    split_ifs at mem with ends
    · rcases List.mem_cons.1 mem with rfl | mem
      · exact fun found => single (endedLine_subset current found)
      · exact ih List.not_mem_nil mem
    · refine ih ?_ mem
      simpa using ⟨Ne.symm ends, single⟩

private theorem linesFrom_single_append {current s : List Char} (single : '\n' ∉ s)
    (t : List Char) :
    linesFrom current (s ++ '\n' :: t) = endedLine (s.reverse ++ current) :: lines t := by
  induction s generalizing current with
  | nil => rfl
  | cons c s ih =>
    simp only [List.mem_cons, not_or] at single
    rw [List.cons_append, linesFrom, if_neg (Ne.symm single.1), ih single.2]
    simp

/-- A line that does not end in white space keeps its last character at the line feed. -/
theorem endedLine_of_stop {current : List Char} (stop : StopsAt isSpace current) :
    endedLine current = current.reverse := by
  rw [endedLine.eq_def]
  split
  · exact absurd (Statement.stopsAt_cons.1 stop) (by decide)
  · rfl

end Text

section Plain

variable {line : String} {lines : List String}

private theorem newline_not_mem_of_mem_linesOf {source : String} (mem : line ∈ linesOf source) :
    '\n' ∉ line.toList := by
  obtain ⟨chars, inside, rfl⟩ := List.mem_map.1 mem
  rw [String.toList_ofList]
  exact Text.newline_not_mem_linesFrom List.not_mem_nil inside

theorem isPlainLine_of_mem_saidIn {source : String} (mem : line ∈ saidIn (linesOf source)) :
    IsPlainLine line := by
  simp only [saidIn, List.mem_filter, List.mem_map, Bool.not_eq_true'] at mem
  obtain ⟨⟨raw, inside, rfl⟩, said⟩ := mem
  refine ⟨trimmed_trimmed raw, said, fun found => ?_⟩
  rw [trimmed, String.toList_ofList] at found
  exact newline_not_mem_of_mem_linesOf inside (Text.trim_subset _ found)

private theorem saidIn_of_plain (plain : ∀ line ∈ lines, IsPlainLine line) :
    saidIn lines = lines := by
  induction lines with
  | nil => rfl
  | cons line lines ih =>
    have first : IsPlainLine line := plain line (by simp)
    have said : isIgnorable (trimmed line) = false := by rw [first.trimmed_eq, first.said]
    rw [saidIn_of_said said, first.trimmed_eq, ih fun l mem => plain l (by simp [mem])]

namespace IsPlainLine

private theorem ne_nil (plain : IsPlainLine line) : line.toList ≠ [] := by
  intro empty
  have silent : isIgnorable line = true := by rw [isIgnorable, empty]; rfl
  rw [plain.said] at silent
  cases silent

private theorem endedLine_eq (plain : IsPlainLine line) :
    Text.endedLine line.toList.reverse = line.toList := by
  have trims : Text.trim line.toList = line.toList := by
    have same := congrArg String.toList plain.trimmed_eq
    rwa [trimmed, String.toList_ofList] at same
  have stop := Text.stopsAt_reverse_trim line.toList
  rw [trims] at stop
  rw [Text.endedLine_of_stop stop, List.reverse_reverse]

private theorem linesOf_eq (plain : IsPlainLine line) : linesOf line = [line] := by
  rw [linesOf, Text.lines, Text.linesFrom_of_single plain.single (Or.inr plain.ne_nil)]
  simp

private theorem linesOf_append (plain : IsPlainLine line) (rest : String) :
    linesOf (line ++ "\n" ++ rest) = line :: linesOf rest := by
  have chars : (line ++ "\n" ++ rest).toList = line.toList ++ '\n' :: rest.toList := by
    simp [String.toList_append]
  rw [linesOf, Text.lines, chars, Text.linesFrom_single_append plain.single, List.append_nil,
    plain.endedLine_eq, List.map_cons, String.ofList_toList]
  rfl

end IsPlainLine

private theorem linesOf_intercalate (plain : ∀ line ∈ lines, IsPlainLine line) :
    linesOf ("\n".intercalate lines) = lines := by
  induction lines with
  | nil => rfl
  | cons line lines ih =>
    have first : IsPlainLine line := plain line (by simp)
    by_cases more : lines = []
    · rw [more, String.intercalate_singleton, first.linesOf_eq]
    · rw [String.intercalate_cons_of_ne_nil more, first.linesOf_append,
        ih fun l mem => plain l (by simp [mem])]

/-- The plain layout has as its lines what the lines of the text say. -/
theorem linesOf_plainLayout (source : String) :
    linesOf (plainLayout source) = saidIn (linesOf source) :=
  linesOf_intercalate fun _ => isPlainLine_of_mem_saidIn

private theorem saidIn_plainLayout (source : String) :
    saidIn (linesOf (plainLayout source)) = saidIn (linesOf source) := by
  rw [linesOf_plainLayout, saidIn_of_plain fun _ => isPlainLine_of_mem_saidIn]

end Plain

/-- A place where a line starts: at the start of the text, or behind a line feed. -/
def AtLineStart (before : String) : Prop := before = "" ∨ ∃ s, before = s ++ "\n"

/-- A place where a line ends: at the end of the text, or before a line feed. -/
def AtLineEnd (after : String) : Prop := after = "" ∨ ∃ s, after = "\n" ++ s

/-- `LayoutEdit source source'`: something that has no meaning was added to the source text. -/
inductive LayoutEdit : String → String → Prop
  /-- White space before a line. -/
  | indentation {before gap after : String} (start : AtLineStart before)
      (blank : isBlankText gap = true) : LayoutEdit (before ++ after) (before ++ (gap ++ after))
  /-- White space behind a line. -/
  | trailing {before gap after : String} (stop : AtLineEnd after)
      (blank : isBlankText gap = true) : LayoutEdit (before ++ after) (before ++ gap ++ after)
  /-- A carriage return before a line feed. -/
  | carriageReturn (before after : String) :
      LayoutEdit (before ++ "\n" ++ after) (before ++ "\r\n" ++ after)
  /-- Blank lines and comments. -/
  | silentLines {before block after : String} (start : AtLineStart before)
      (silent : ∀ line ∈ linesOf block, isIgnorable (trimmed line) = true) :
      LayoutEdit (before ++ after) (before ++ (block ++ "\n" ++ after))

section Edits

/-- What the lines of a text say, of which the first has begun with the characters `current`, newest
first. -/
def saidFrom (current s : List Char) : List String :=
  saidIn ((Text.linesFrom current s).map String.ofList)

variable {c : Char} {current gap s : List Char} {source source' : String}

theorem saidIn_of_trim_eq {s t : List Char} (same : Text.trim s = Text.trim t)
    (lines : List String) :
    saidIn (String.ofList s :: lines) = saidIn (String.ofList t :: lines) := by
  simp only [saidIn, List.map_cons, trimmed, String.toList_ofList, same]

theorem saidFrom_nil (current : List Char) :
    saidFrom current [] = saidIn [String.ofList current.reverse] := by
  cases current with
  | nil => rfl
  | cons c current => rfl

theorem saidFrom_newline (current s : List Char) :
    saidFrom current ('\n' :: s) = saidIn [String.ofList current.reverse] ++ saidFrom [] s := by
  rw [saidFrom, Text.linesFrom, if_pos rfl, List.map_cons,
    saidIn_of_trim_eq (Text.trim_endedLine current), ← List.singleton_append, saidIn_append]
  rfl

theorem saidFrom_cons (inside : c ≠ '\n') (current s : List Char) :
    saidFrom current (c :: s) = saidFrom (c :: current) s := by
  rw [saidFrom, Text.linesFrom, if_neg inside]
  rfl

/-- White space at the start of a line makes no difference to what the lines say. -/
theorem saidFrom_indented (space : Text.isSpace c = true) (current s : List Char) :
    saidFrom (current ++ [c]) s = saidFrom current s := by
  have first : ∀ current : List Char, saidIn [String.ofList (current ++ [c]).reverse] =
      saidIn [String.ofList current.reverse] := by
    intro current
    refine saidIn_of_trim_eq ?_ []
    rw [List.reverse_concat, ← List.singleton_append, Text.trim_gap_append (by simpa using space)]
  induction s generalizing current with
  | nil => rw [saidFrom_nil, saidFrom_nil, first]
  | cons d s ih =>
    by_cases ends : d = '\n'
    · rw [ends, saidFrom_newline, saidFrom_newline, first]
    · rw [saidFrom_cons ends, saidFrom_cons ends, ← List.cons_append, ih]

/-- White space at the end of a text makes no difference to what its lines say. -/
theorem saidFrom_append_space (space : Text.isSpace c = true) (current s : List Char) :
    saidFrom current (s ++ [c]) = saidFrom current s := by
  induction s generalizing current with
  | nil =>
    rw [List.nil_append, saidFrom_nil]
    by_cases ends : c = '\n'
    · rw [ends, saidFrom_newline, saidFrom_nil]
      exact List.append_nil _
    · rw [saidFrom_cons ends, saidFrom_nil, List.reverse_cons]
      exact saidIn_of_trim_eq (Text.trim_append_space space _) []
  | cons d s ih =>
    rw [List.cons_append]
    by_cases ends : d = '\n'
    · rw [ends, saidFrom_newline, saidFrom_newline, ih]
    · rw [saidFrom_cons ends, saidFrom_cons ends, ih]

private theorem saidFrom_gap_append (blank : ∀ c ∈ gap, Text.isSpace c = true) (s : List Char) :
    saidFrom [] (gap ++ s) = saidFrom [] s := by
  induction gap with
  | nil => rfl
  | cons c gap ih =>
    have rest := ih fun d mem => blank d (by simp [mem])
    rw [List.cons_append]
    by_cases ends : c = '\n'
    · rw [ends, saidFrom_newline, rest]
      rfl
    · rw [saidFrom_cons ends, ← List.nil_append [c],
        saidFrom_indented (blank c (by simp)), rest]

private theorem saidFrom_append_gap (blank : ∀ c ∈ gap, Text.isSpace c = true) (s : List Char) :
    saidFrom [] (s ++ gap) = saidFrom [] s := by
  induction gap using List.reverseRecOn with
  | nil => rw [List.append_nil]
  | append_singleton gap c ih =>
    rw [← List.append_assoc, saidFrom_append_space (blank c (by simp)),
      ih fun d mem => blank d (by simp [mem])]

theorem saidIn_linesOf (source : String) :
    saidIn (linesOf source) = saidFrom [] source.toList := rfl

private theorem saidIn_gap_append {gap : String} (blank : isBlankText gap = true)
    (source : String) :
    saidIn (linesOf (gap ++ source)) = saidIn (linesOf source) := by
  rw [saidIn_linesOf, String.toList_append, saidFrom_gap_append (List.all_eq_true.1 blank)]
  rfl

private theorem saidIn_append_gap {gap : String} (blank : isBlankText gap = true)
    (source : String) :
    saidIn (linesOf (source ++ gap)) = saidIn (linesOf source) := by
  rw [saidIn_linesOf, String.toList_append, saidFrom_append_gap (List.all_eq_true.1 blank)]
  rfl

/-- What is said from the start of a line on does not depend on the text before it. -/
theorem AtLineStart.saidIn_congr {before after after' : String} (start : AtLineStart before)
    (same : saidIn (linesOf after) = saidIn (linesOf after')) :
    saidIn (linesOf (before ++ after)) = saidIn (linesOf (before ++ after')) := by
  obtain rfl | ⟨s, rfl⟩ := start
  · rwa [String.empty_append, String.empty_append]
  · rw [saidIn_joined, saidIn_joined, same]

private theorem AtLineEnd.saidIn_congr {before before' after : String} (stop : AtLineEnd after)
    (same : saidIn (linesOf before) = saidIn (linesOf before')) :
    saidIn (linesOf (before ++ after)) = saidIn (linesOf (before' ++ after)) := by
  obtain rfl | ⟨s, rfl⟩ := stop
  · rwa [String.append_empty, String.append_empty]
  · rw [← String.append_assoc, ← String.append_assoc, saidIn_joined, saidIn_joined, same]

private theorem LayoutEdit.saidIn_eq (edit : LayoutEdit source source') :
    saidIn (linesOf source) = saidIn (linesOf source') := by
  cases edit with
  | indentation start blank => exact start.saidIn_congr (saidIn_gap_append blank _).symm
  | trailing stop blank => exact stop.saidIn_congr (saidIn_append_gap blank _).symm
  | carriageReturn before after =>
    have ends : before ++ "\r\n" = before ++ "\r" ++ "\n" := by
      rw [String.append_assoc]
      rfl
    rw [ends, saidIn_joined, saidIn_joined, saidIn_append_gap (by decide)]
  | @silentLines before block after start silent =>
    have nothing : saidIn (linesOf block) = [] := by simpa [saidIn] using silent
    refine start.saidIn_congr ?_
    rw [saidIn_joined, nothing, List.nil_append]

private theorem saidIn_of_edits (edits : Relation.EqvGen LayoutEdit source source') :
    saidIn (linesOf source) = saidIn (linesOf source') := by
  induction edits with
  | rel source source' edit => exact edit.saidIn_eq
  | refl source => rfl
  | symm source source' _ ih => exact ih.symm
  | trans first second third _ _ ih ih' => exact ih.trans ih'

private theorem Machine.run_congr_of_said {m : Machine}
    (untimed : m.context.budget.timeLimit = none)
    (same : saidIn (linesOf source) = saidIn (linesOf source')) :
    m.run source = m.run source' := by
  obtain ⟨depth, capacity⟩ := nestingCapacity_eq_succ
  rw [Machine.run_eq_runLines capacity, Machine.run_eq_runLines capacity, Machine.perform,
    Machine.perform, ← runLines_saidIn (run_chain depth) untimed, same,
    runLines_saidIn (run_chain depth) untimed]

end Edits

/-- In a context without a time limit, a source text is run like its plain layout: the outcome and
all that is left behind are the same. The plain layout splits into the lines that it was put
together from and has itself as its plain layout. So whatever is added or removed by edits of the
layout, in any number and at any places, makes no difference to the run. -/
theorem run_plainLayout (m : Machine) (untimed : m.context.budget.timeLimit = none)
    (source : String) :
    m.run (plainLayout source) = m.run source ∧
      linesOf (plainLayout source) =
        ((linesOf source).map trimmed).filter (fun line => !isIgnorable line) ∧
      plainLayout (plainLayout source) = plainLayout source ∧
      ∀ edited, Relation.EqvGen LayoutEdit source edited →
        plainLayout edited = plainLayout source ∧ m.run edited = m.run source := by
  refine ⟨Machine.run_congr_of_said untimed (saidIn_plainLayout source),
    linesOf_plainLayout source, ?_, fun edited edits => ⟨?_, ?_⟩⟩
  · rw [plainLayout, saidIn_plainLayout, plainLayout]
  · rw [plainLayout, plainLayout, saidIn_of_edits edits]
  · exact Machine.run_congr_of_said untimed (saidIn_of_edits edits).symm

/-- A branch that is not taken, with a comment and a blank line inside, and lines ended in both
ways. -/
def raggedText : String :=
  "\tif 1 == 2\r\n  # never\n\n close \r\nelse\n  msg: hi {player}\nendif\n"

def evenText : String := "if 1 == 2\nclose\nelse\nmsg: hi {player}\nendif"

theorem run_plainLayout_ragged :
    joiningMachine.context.budget.timeLimit = none ∧ plainLayout raggedText = evenText ∧
      joiningMachine.run evenText = joiningMachine.run raggedText ∧
      (joiningMachine.run raggedText).2.server.log.messages 0 = ["hi Ann"] ∧
      joiningMachine.run ("# greeting\n" ++ raggedText) = joiningMachine.run raggedText := by
  have plain : plainLayout raggedText = evenText := by decide
  have edit : LayoutEdit ("" ++ raggedText) ("" ++ ("# greeting" ++ "\n" ++ raggedText)) :=
    .silentLines (Or.inl rfl) (by decide)
  obtain ⟨same, -, -, edits⟩ := run_plainLayout joiningMachine rfl raggedText
  refine ⟨rfl, plain, plain ▸ same, by decide +kernel, ?_⟩
  exact (edits _ (.rel _ _ edit)).2

end MenuScript
