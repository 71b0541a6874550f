import MenuScript.Proofs.IncludeInlining
import MenuScript.Proofs.PassedLines
import MenuScript.Proofs.StructuredBlocks

/-!
# Sources that are run one after another

Everything that a script keeps from one line to the next is in its context, so it makes no
difference whether two source texts are run one after another or as one text. Where they meet, a
line may be added or lose a carriage return. Neither matters, because of a line only the trimmed
text counts, and a line that says nothing is passed over.
-/

namespace MenuScript

open Script

namespace Text

theorem trim_endedLine (last : List Char) : trim (endedLine last) = trim last.reverse := by
  rw [endedLine.eq_def]
  split
  · rw [List.reverse_cons, trim_append_space (by decide)]
  · rfl

/-- A line feed between two texts ends the last line of the first, or adds an empty line. -/
theorem linesFrom_append_newline (current s t : List Char) :
    linesFrom current (s ++ '\n' :: t) = linesFrom current s ++ [] :: lines t ∨
      ∃ before last, linesFrom current s = before ++ [last.reverse] ∧
        linesFrom current (s ++ '\n' :: t) = before ++ endedLine last :: lines t := by
  induction s generalizing current with
  | nil =>
    cases current with
    | nil => exact Or.inl rfl
    | cons c current => exact Or.inr ⟨[], c :: current, rfl, rfl⟩
  | cons c s ih =>
    rw [List.cons_append, linesFrom, linesFrom]
    split_ifs with ends
    · obtain extra | ⟨before, last, first, whole⟩ := ih []
      · left
        rw [extra]
        rfl
      · right
        refine ⟨endedLine current :: before, last, ?_, ?_⟩
        · rw [first]
          rfl
        · rw [whole]
          rfl
    · exact ih (c :: current)

end Text

/-- What lines say: their trimmed texts, without those that say nothing. -/
def saidIn (lines : List String) : List String :=
  (lines.map trimmed).filter fun line => !isIgnorable line

section Said

variable {line : String} {lines : List String}

theorem trimmed_trimmed (line : String) : trimmed (trimmed line) = trimmed line := by
  simp only [trimmed, String.toList_ofList, Text.trim_trim]

theorem saidIn_append (lines more : List String) :
    saidIn (lines ++ more) = saidIn lines ++ saidIn more := by
  simp only [saidIn, List.map_append, List.filter_append]

theorem saidIn_of_ignorable (silent : isIgnorable (trimmed line) = true) :
    saidIn (line :: lines) = saidIn lines := by
  simp [saidIn, silent]

theorem saidIn_of_said (said : isIgnorable (trimmed line) = false) :
    saidIn (line :: lines) = trimmed line :: saidIn lines := by
  simp [saidIn, said]

theorem saidIn_joined (a b : String) :
    saidIn (linesOf (a ++ "\n" ++ b)) = saidIn (linesOf a) ++ saidIn (linesOf b) := by
  have chars : (a ++ "\n" ++ b).toList = a.toList ++ '\n' :: b.toList := by
    simp [String.toList_append]
  rw [linesOf, linesOf, linesOf, Text.lines, Text.lines, chars, ← saidIn_append]
  obtain extra | ⟨before, last, first, whole⟩ :=
    Text.linesFrom_append_newline [] a.toList b.toList
  · rw [extra, List.map_append, List.map_cons, saidIn_append, saidIn_append,
      saidIn_of_ignorable (by decide)]
  · -- the two lines differ by a carriage return at most
    have same : trimmed (String.ofList (Text.endedLine last)) =
        trimmed (String.ofList last.reverse) := by
      simp only [trimmed, String.toList_ofList, Text.trim_endedLine]
    rw [whole, first]
    simp [saidIn, same]

variable {nested : String → Script Value} {m : Machine}

private theorem runLine_trimmed (line : String) :
    runLine nested (trimmed line) = runLine nested line := by
  simp only [runLine, trimmed_trimmed]

/-- A run depends on nothing but what its lines say. -/
theorem runLines_saidIn (hn : Obedient (fun _ => True) nested)
    (untimed : m.context.budget.timeLimit = none) (lines : List String) :
    runLines nested (saidIn lines) m = runLines nested lines m := by
  induction lines generalizing m with
  | nil => rfl
  | cons line rest ih =>
    cases going : m.context.cancelled with
    | true => rw [runLines_of_stopped untimed going, runLines_of_stopped untimed going]
    | false =>
      have inTime := checkTime_of_no_limit m untimed
      cases said : isIgnorable (trimmed line) with
      | true =>
        rw [saidIn_of_ignorable said, ih untimed,
          runLines_step untimed going (runLine_of_ignorable nested said)]
      | false =>
        rw [saidIn_of_said said, runLines_cons nested inTime going,
          runLines_cons nested inTime going, runLine_trimmed]
        cases ran : runLine nested line m with
        | error h m' => rfl
        | ok u m' =>
          have kept : m'.context.budget.timeLimit = none := (runLine_timeLimit hn ran).trans untimed
          exact ih kept

end Said

section Joining

variable {nested : String → Script Value} {m : Machine}

/-- Lines are run as their first part and then, unless that fails, as the rest. -/
theorem runLines_append (hn : Obedient (fun _ => True) nested)
    (untimed : m.context.budget.timeLimit = none) (first second : List String) :
    runLines nested (first ++ second) m =
      match runLines nested first m with
      | .ok _ m' => runLines nested second m'
      | .error h m' => .error h m' := by
  have ends := finishes_runLines nested first m
  cases ran : runLines nested first m with
  | ok value m' =>
    rw [ran] at ends
    cases ends with
    | through passed => exact passed.runLines_append second
    | @cancelled before after line m₁ _ split passed inTime stopped =>
      -- the rest of the lines finds the script cancelled too
      have c : Chain (Label.Allowed fun _ => True) m m' :=
        (passed.chain hn m.functions.asksOnly_true).trans ((checkTime_chain m₁).to_ok inTime)
      have kept : m'.context.budget.timeLimit = none := c.sameSettings.timeLimit.trans untimed
      rw [split, List.append_assoc, passed.runLines_append, List.cons_append,
        runLines_of_cancelled nested inTime stopped]
      exact (runLines_of_stopped kept stopped second).symm
  | error h m' =>
    rw [ran] at ends
    cases ends with
    | late split passed late =>
      rw [split, List.append_assoc, passed.runLines_append, List.cons_append,
        runLines_of_late nested late]
    | failed split passed begun fails =>
      rw [split, List.append_assoc, passed.runLines_append, List.cons_append,
        runLines_cons nested begun.inTime begun.going, fails]

private theorem Machine.run_of_silent (untimed : m.context.budget.timeLimit = none)
    {source : String}
    (silent : ∀ line ∈ linesOf source, isIgnorable (trimmed line) = true) :
    m.run source = (.ok m.context.result, m) := by
  obtain ⟨depth, capacity⟩ := nestingCapacity_eq_succ
  have nothing : saidIn (linesOf source) = [] := by simpa [saidIn] using silent
  rw [Machine.run_eq_runLines capacity, Machine.perform,
    ← runLines_saidIn (run_chain depth) untimed, nothing]
  rfl

private theorem Machine.run_of_stopped (untimed : m.context.budget.timeLimit = none)
    (stopped : m.context.cancelled = true) (source : String) :
    m.run source = (.ok m.context.result, m) := by
  obtain ⟨depth, capacity⟩ := nestingCapacity_eq_succ
  rw [Machine.run_eq_runLines capacity, Machine.perform, runLines_of_stopped untimed stopped]

end Joining

/-- Runs a source text and then, unless that fails, another one in the same context. -/
def Machine.runBoth (m : Machine) (first second : String) : Except Halt Value × Machine :=
  match m.run first with
  | (.ok _, m') => m'.run second
  | (.error h, m') => (.error h, m')

/-- In a context without a time limit, two source texts with a line feed between them are run as the
first and then, unless it fails, the second: the outcome and all that is left behind are the same.
If the first has cancelled the script, or the second says nothing, the value is that of the
first. -/
theorem run_joined_eq_runBoth (m : Machine) (first second : String)
    (untimed : m.context.budget.timeLimit = none) :
    m.run (first ++ "\n" ++ second) = m.runBoth first second ∧
      ∀ value m', m.run first = (.ok value, m') →
        (m'.context.cancelled = true ∨
          ∀ line ∈ linesOf second, isIgnorable (trimmed line) = true) →
        m.run (first ++ "\n" ++ second) = (.ok value, m') := by
  obtain ⟨depth, capacity⟩ := nestingCapacity_eq_succ
  have joined : m.run (first ++ "\n" ++ second) = m.runBoth first second := by
    have lines : runLines (run depth) (linesOf (first ++ "\n" ++ second)) m =
        runLines (run depth) (linesOf first ++ linesOf second) m := by
      rw [← runLines_saidIn (run_chain depth) untimed, saidIn_joined, ← saidIn_append,
        runLines_saidIn (run_chain depth) untimed]
    rw [Machine.runBoth, Machine.run_eq_runLines capacity, Machine.run_eq_runLines capacity,
      Machine.perform, Machine.perform, lines, runLines_append (run_chain depth) untimed]
    cases runLines (run depth) (linesOf first) m with
    | error h m' => rfl
    | ok value m' =>
      exact (Machine.run_eq_runLines capacity second m').symm
  refine ⟨joined, fun value m' ran kept => ?_⟩
  have result : m'.context.result = value := by
    have succeeds : (m.run first).1 = .ok value := by rw [ran]
    have last := Machine.run_result succeeds
    rwa [ran] at last
  have later : m'.context.budget.timeLimit = none := by
    have c := run_chain nestingCapacity first m m.functions.asksOnly_true
    have same : (m.run first).2.context.budget.timeLimit = _ := c.sameSettings.timeLimit
    rw [ran] at same
    exact same.trans untimed
  rw [joined, Machine.runBoth, ran, ← result]
  obtain stopped | silent := kept
  · exact Machine.run_of_stopped later stopped second
  · exact Machine.run_of_silent later silent

def joiningMachine : Machine where
  context :=
    { actor := { slot := 0, name := "Ann", uuid := ⟨0⟩ }
      bindings := Dictionary.empty
      budget := { limit := 1, started := 0, timeLimit := none } }

/-- A text that ends inside a branch that is not taken, with a carriage return. -/
def openedText : String := "if 1 == 2\r\nclose\r"

def closingText : String := "else\nmsg: hi {player}\nendif\n"

theorem run_joined_eq_runBoth_midway :
    joiningMachine.context.budget.timeLimit = none ∧
      (joiningMachine.run openedText).2.context.branches.isSkipping = true ∧
      joiningMachine.run (openedText ++ "\n" ++ closingText) =
        joiningMachine.runBoth openedText closingText ∧
      (joiningMachine.runBoth openedText closingText).2.server.log.messages 0 = ["hi Ann"] ∧
      joiningMachine.run (openedText ++ "\n" ++ "\r\n  # end") = joiningMachine.run openedText := by
  have succeeds : (joiningMachine.run openedText).1.isOk = true := by decide +kernel
  have silent : ∀ line ∈ linesOf "\r\n  # end", isIgnorable (trimmed line) = true := by decide
  refine ⟨rfl, by decide +kernel, (run_joined_eq_runBoth joiningMachine _ _ rfl).1,
    by decide +kernel, ?_⟩
  cases ran : joiningMachine.run openedText with
  | mk outcome m' =>
    rw [ran] at succeeds
    cases outcome with
    | error h => cases succeeds
    | ok value =>
      exact (run_joined_eq_runBoth joiningMachine _ _ rfl).2 value m' ran (Or.inr silent)

end MenuScript
