import MenuScript.Proofs.ActionAccounting
import MenuScript.Proofs.ConditionReadings
import MenuScript.Proofs.GenericForms
import MenuScript.Proofs.PlaceholderTokens

/-!
# Commands without a target marker

A command that names no player is run by the acting player. Its text is cut at the first brace all
the same, although no marker stands there, and the two parts are put together with a single space.
So the command is run as it is written exactly if it has no brace, or if a single space stands
before the first one.
-/

namespace MenuScript

open Statement (RunOf StopsAt Says isGap isPlain)

/-- `CutAtBrace written words gap rest`: the text consists of words without braces and the rest,
which starts with the first brace. If there is a rest, white space may stand before it. -/
structure CutAtBrace (written words gap rest : String) : Prop where
  split : written = words ++ gap ++ rest
  plain : ∀ c ∈ words.toList, isPlain c = true
  blank : isBlankText gap = true
  stop : StopsAt isPlain rest.toList
  closed : rest = "" → gap = ""

section Cutting

variable {gap rest : List Char}

private theorem isSpace_of_brace {c : Char} (brace : isPlain c = false) :
    Text.isSpace c = false := by
  simp only [isPlain, Bool.and_eq_false_iff, bne_eq_false_iff_eq] at brace
  rcases brace with rfl | rfl <;> decide

/-- A command without a target is a text without braces, and a rest that starts with one. -/
theorem exists_of_says_unmarked {line : List Char} {command : PlayerCommand}
    (said : Says line (.command command)) (unmarked : command.target = none) :
    ∃ gap text rest, line = "cmd:".toList ++ (gap ++ (text ++ rest)) ∧
      (∀ c ∈ gap, Text.isSpace c = true) ∧ (∀ c ∈ text, isPlain c = true) ∧
      StopsAt isPlain rest ∧ command.command = String.ofList (Text.trim text) ∧
      command.trailing = String.ofList (Text.trim rest) := by
  cases said with
  | shorthand short =>
    cases short with
    | commandFor g t start n => cases unmarked
    | command g t start stop _ =>
      exact ⟨_, _, _, rfl, fun c mem => space_of_isGap c (g c mem), t.all, stop, rfl, rfl⟩

/-- Trimming a text that is cut at its first brace trims the words before it, and no more than
that. -/
theorem trim_cut (text : List Char) (blank : ∀ c ∈ gap, Text.isSpace c = true)
    (start : StopsAt Text.isSpace rest) (stop : StopsAt Text.isSpace rest.reverse) :
    ∃ space, (∀ c ∈ space, Text.isSpace c = true) ∧ (rest = [] → space = []) ∧
      Text.trim (gap ++ (text ++ rest)) = Text.trim text ++ (space ++ rest) := by
  obtain ⟨before, after, blank', blank'', split⟩ := Text.exists_eq_append_trim text
  have front : Text.trim (gap ++ (text ++ rest)) =
      Text.trim (Text.trim text ++ (after ++ rest)) := by
    conv_lhs => rw [split]
    rw [List.append_assoc, List.append_assoc, Text.trim_gap_append blank,
      Text.trim_gap_append blank']
  rw [front]
  by_cases empty : rest = []
  · refine ⟨[], by simp, fun _ => rfl, ?_⟩
    rw [empty, List.append_nil, Text.trim_append_gap blank'', Text.trim_trim]
    simp
  · cases words : Text.trim text with
    | nil =>
      refine ⟨[], by simp, fun _ => rfl, ?_⟩
      rw [List.nil_append, List.nil_append, Text.trim_gap_append blank'',
        Text.trim_of_ends start stop]
      rfl
    | cons c more =>
      have starts : StopsAt Text.isSpace (Text.trim text ++ (after ++ rest)) :=
        Statement.stopsAt_append (Text.stopsAt_trim text) (by simp [words])
      have stops : StopsAt Text.isSpace (Text.trim text ++ (after ++ rest)).reverse := by
        rw [← List.append_assoc, List.reverse_append]
        exact Statement.stopsAt_append stop (by simpa using empty)
      rw [words] at starts stops
      exact ⟨after, blank'', fun none => absurd none empty, Text.trim_of_ends starts stops⟩

/-- The two parts of a command without a target are what stands before and behind the place of its
first brace. -/
theorem exists_cutAtBrace {line written : String} {command : PlayerCommand}
    (reads : Statement.read? (trimmed line) = some (.command command))
    (unmarked : command.target = none) (writes : trimmed line = "cmd:" ++ written) :
    ∃ gap, CutAtBrace (trimmed written) command.command gap command.trailing := by
  obtain ⟨gap, text, rest, whole, blank, plain, brace, first, second⟩ :=
    exists_of_says_unmarked (Statement.read?_eq_some_iff.1 reads) unmarked
  have start : StopsAt Text.isSpace rest := fun c mem => isSpace_of_brace (brace c mem)
  have stop : StopsAt Text.isSpace rest.reverse := by
    -- the rest ends where the line ends, which is trimmed
    have ends := Text.stopsAt_reverse_trim line.toList
    rw [trimmed, String.toList_ofList] at whole
    rw [whole, ← List.append_assoc, ← List.append_assoc, List.reverse_append] at ends
    exact Statement.stopsAt_of_append ends
  have after : written.toList = gap ++ (text ++ rest) := by
    rw [writes, String.toList_append] at whole
    exact List.append_cancel_left whole
  obtain ⟨space, blank', closed, cut⟩ := trim_cut text blank start stop
  have trims : Text.trim rest = rest := Text.trim_of_ends start stop
  rw [first, second, trims]
  refine ⟨String.ofList space, ?_, ?_, ?_, ?_, ?_⟩
  · rw [trimmed, after, cut, ← String.toList_inj]
    simp
  · intro c mem
    rw [String.toList_ofList] at mem
    exact plain c (Text.trim_subset text mem)
  · rw [isBlankText, String.toList_ofList]
    exact List.all_eq_true.2 blank'
  · rwa [String.toList_ofList]
  · intro none
    have empty : rest = [] := by
      have chars := congrArg String.toList none
      rwa [String.toList_ofList] at chars
    rw [closed empty]

end Cutting

section Running

variable {written gap : String} {command : PlayerCommand} (c : Context)

/-- Placeholders can stand in the rest only. -/
theorem CutAtBrace.resolve_eq (cut : CutAtBrace written command.command gap command.trailing) :
    c.resolve written = command.command ++ gap ++ c.resolve command.trailing := by
  have unbraced : '\x7b' ∉ (command.command ++ gap).toList := by
    rw [String.toList_append, List.mem_append]
    rintro (mem | mem)
    · exact absurd (cut.plain _ mem) (by decide)
    · exact absurd (List.all_eq_true.1 cut.blank _ mem) (by decide)
  rw [cut.split, ← String.toList_inj, c.resolve_toList, String.toList_append,
    Placeholder.scan_plain_append unbraced, ← c.resolve_toList, ← String.toList_append]

theorem CutAtBrace.resolved_eq (cut : CutAtBrace written command.command gap command.trailing) :
    command.resolved c =
      if command.trailing = "" then command.command
      else command.command ++ " " ++ c.resolve command.trailing := by
  have unbraced : '\x7b' ∉ command.command.toList :=
    fun mem => absurd (cut.plain _ mem) (by decide)
  rw [PlayerCommand.resolved, c.resolve_of_plain unbraced]
  by_cases none : command.trailing = "" <;> simp [none]

/-- Both texts have the same words and the same rest. -/
theorem CutAtBrace.resolved_eq_iff
    (cut : CutAtBrace written command.command gap command.trailing) :
    command.resolved c = c.resolve written ↔ command.trailing = "" ∨ gap = " " := by
  rw [cut.resolved_eq, cut.resolve_eq]
  by_cases none : command.trailing = ""
  · have empty : c.resolve "" = "" := c.resolve_of_plain (by decide)
    simp [none, cut.closed none, empty]
  · rw [if_neg none, String.append_left_inj, String.append_right_inj, or_iff_right none, eq_comm]

private theorem CutAtBrace.isBlankText_resolved
    (cut : CutAtBrace written command.command gap command.trailing) :
    isBlankText (command.resolved c) = isBlankText (c.resolve written) := by
  by_cases none : command.trailing = ""
  · rw [(cut.resolved_eq_iff c).2 (Or.inl none)]
  · have blank : gap.toList.all Text.isSpace = true := cut.blank
    have space : " ".toList.all Text.isSpace = true := by decide
    rw [cut.resolved_eq, cut.resolve_eq, if_neg none]
    simp only [isBlankText, String.toList_append, List.all_append, blank, space]

end Running

/-- Let a line that is performed be a command without a target, with room for it in the budget and a
text that is not blank once it is resolved. Then the acting player runs one command, which has the
words before the first brace, and behind a single space what starts with that brace. It is the text
as it is written, with its placeholders replaced, exactly if there is no brace or the white space
before the first one is a single space. -/
theorem unmarked_command_run (nested : String → Script Value) (m : Machine)
    (line written : String) (command : PlayerCommand)
    (states : m.statement? line = some (.command command)) (unmarked : command.target = none)
    (writes : trimmed line = "cmd:" ++ written)
    (room : m.context.budget.limit = 0 ∨ m.context.budget.used < m.context.budget.limit)
    (filled : isBlankText (m.context.resolve (trimmed written)) = false) :
    ∃ gap text, CutAtBrace (trimmed written) command.command gap command.trailing ∧
      runLine nested line m =
        .ok () ((m.counted.logged (.command m.context.actor.slot text)).keeping
          (.bool m.context.actor.acceptsCommands)) ∧
      (text = if command.trailing = "" then command.command
        else command.command ++ " " ++ m.context.resolve command.trailing) ∧
      m.context.resolve (trimmed written) =
        command.command ++ gap ++ m.context.resolve command.trailing ∧
      (text = m.context.resolve (trimmed written) ↔ command.trailing = "" ∨ gap = " ") := by
  obtain ⟨gap, cut⟩ := exists_cutAtBrace (Machine.read?_of_statement? states) unmarked writes
  refine ⟨gap, command.resolved m.context, cut, ?_, cut.resolved_eq _, cut.resolve_eq _,
    cut.resolved_eq_iff _⟩
  have attempts : m.attempt? line = some
      ⟨.command m.context.actor.slot (command.resolved m.context),
        .bool m.context.actor.acceptsCommands⟩ := by
    rw [Machine.attempt?, states, Option.bind_some, Statement.attempt?, Action.command?,
      cut.isBlankText_resolved, filled, unmarked]
    rfl
  have paid : m.context.budget.counted.isOverdrawn = false := by
    rcases room with unlimited | room
    · simp [Budget.isOverdrawn, unlimited]
    · exact not_isOverdrawn_of_room rfl room
  rw [runLine_of_attempt? nested attempts, paid]
  rfl

/-- A machine with room for one action. -/
def commandMachine : Machine where
  context :=
    { actor := { slot := 0, name := "Ann", uuid := ⟨0⟩ }
      bindings := Dictionary.empty
      budget := { limit := 1, started := 0, timeLimit := none } }

/-- A brace that is not closed, behind a single space. -/
def unclosedCommand : PlayerCommand := ⟨"say", none, "\x7bplayer"⟩

theorem unmarked_command_run_unclosed :
    commandMachine.statement? "cmd:  say \x7bplayer " = some (.command unclosedCommand) ∧
      commandMachine.context.budget.used < commandMachine.context.budget.limit ∧
      isBlankText (commandMachine.context.resolve (trimmed "  say \x7bplayer")) = false ∧
      ∃ text, runLine (run 0) "cmd:  say \x7bplayer " commandMachine =
          .ok () ((commandMachine.counted.logged (.command 0 text)).keeping (.bool true)) ∧
        text = commandMachine.context.resolve (trimmed "  say \x7bplayer") ∧
        text = "say \x7bplayer" := by
  have states : commandMachine.statement? "cmd:  say \x7bplayer " =
      some (.command unclosedCommand) := by decide +kernel
  have room : commandMachine.context.budget.used < commandMachine.context.budget.limit := by decide
  have filled : isBlankText (commandMachine.context.resolve (trimmed "  say \x7bplayer")) =
      false := by decide +kernel
  have written : commandMachine.context.resolve (trimmed "  say \x7bplayer") =
      "say \x7bplayer" := by decide +kernel
  obtain ⟨gap, text, -, ran, shown, -, -⟩ := unmarked_command_run (run 0) commandMachine
    "cmd:  say \x7bplayer " "  say \x7bplayer" unclosedCommand states rfl (by decide) (Or.inr room)
    filled
  have same : text = "say \x7bplayer" := by
    rw [shown]
    decide +kernel
  exact ⟨states, room, filled, text, ran, same.trans written.symm, same⟩

/-- A brace that stands alone and has no space before it gets one. -/
theorem stray_brace_set_apart :
    commandMachine.statement? "cmd: a\x7db" = some (.command ⟨"a", none, "\x7db"⟩) ∧
      commandMachine.context.budget.used < commandMachine.context.budget.limit ∧
      commandMachine.context.resolve (trimmed " a\x7db") = "a\x7db" ∧
      (commandMachine.run "cmd: a\x7db").1.isOk = true ∧
      (commandMachine.run "cmd: a\x7db").2.server.log.commands 0 = ["a \x7db"] := by
  decide +kernel

end MenuScript
