import MenuScript.Proofs.LooserLimits
import MenuScript.Proofs.PlaceholderTokens
import MenuScript.Proofs.TrimmedTexts

/-!
# Includes as inlining

A line that includes a script does what the script does in the same context, one include deeper. The
depth matters to nothing but the limit on includes, so unless that is reached, the line has the
effect of the script itself, branches that the script opens, turns or closes around it included, and
only the value is its own. A failure passes through all includes around it unchanged.
-/

namespace MenuScript

open Script

/-- A name that can be written after `include:` as it is: not empty, without white space, and with
nothing that could be taken for a placeholder. -/
structure IsScriptName (name : String) : Prop where
  filled : name ≠ ""
  solid : ∀ c ∈ name.toList, Text.isSpace c = false
  plain : '\x7b' ∉ name.toList

namespace IsScriptName

variable {name : String}

private theorem linesOf_include (h : IsScriptName name) :
    linesOf ("include: " ++ name) = ["include: " ++ name] := by
  have single : '\n' ∉ ("include: " ++ name).toList := by
    intro mem
    rw [String.toList_append, List.mem_append] at mem
    rcases mem with mem | mem
    · exact absurd mem (by decide)
    · exact absurd (h.solid _ mem) (by decide)
  rw [linesOf, Text.lines, Text.linesFrom_of_single single (by simp), List.reverse_nil,
    List.nil_append, List.map_singleton, String.ofList_toList]

private theorem trimmed_include (h : IsScriptName name) :
    trimmed ("include: " ++ name) = "include: " ++ name := by
  have stop : Statement.StopsAt Text.isSpace ("include: " ++ name).toList.reverse := by
    have filled : name.toList.reverse ≠ [] := by simpa using h.filled
    obtain ⟨last, rest, backwards⟩ := List.exists_cons_of_ne_nil filled
    have mem : last ∈ name.toList := List.mem_reverse.1 (by simp [backwards])
    rw [String.toList_append, List.reverse_append, backwards, List.cons_append]
    exact Statement.stopsAt_cons.2 (h.solid last mem)
  have start : Statement.StopsAt Text.isSpace ("include: " ++ name).toList := by
    rw [String.toList_append]
    exact Statement.stopsAt_cons.2 (by decide)
  rw [trimmed, Text.trim_of_ends start stop, String.ofList_toList]

/-- No mark of a shorthand begins with `include:` or is the beginning of it. -/
theorem not_shorthand (rest : List Char) (s : Statement) :
    ¬ Statement.Shorthand ("include:".toList ++ rest) s := by
  intro short
  have apart : ∀ mark ∈ Statement.shorthands.map Prod.fst,
      ¬ mark.toList <+: "include:".toList ∧ ¬ "include:".toList <+: mark.toList := by decide
  obtain ⟨form, tried, reads⟩ := Statement.reads_of_shorthand short
  have differs := apart form.1 (List.mem_map_of_mem tried)
  rcases List.prefix_or_prefix_of_prefix (Statement.shorthand_of_reads tried reads).1
    (List.prefix_append _ _) with h | h
  · exact differs.1 h
  · exact differs.2 h

private theorem read?_include (h : IsScriptName name) :
    Statement.read? ("include: " ++ name) = some (.call "include" [name]) := by
  have filled : name.toList ≠ [] := by simpa using h.filled
  have split : ("include: " ++ name).toList = "include".toList ++ ':' :: ' ' :: name.toList := by
    rw [String.toList_append]
    rfl
  have words : Text.words (' ' :: name.toList) = [name.toList] :=
    Text.wordsFrom_of_solid h.solid (Or.inr filled)
  have other : ∀ s, ¬ Statement.Shorthand ("include: " ++ name).toList s := by
    rw [split]
    exact not_shorthand (' ' :: name.toList)
  rw [Statement.read?_eq_of_no_shorthand other, Statement.readCall_eq_some_iff]
  refine ⟨"include".toList, ' ' :: name.toList, by decide, split, ?_⟩
  rw [words, List.map_singleton, String.ofList_toList]
  rfl

private theorem resolve (h : IsScriptName name) (c : Context) : c.resolve name = name :=
  c.resolve_of_plain h.plain

private theorem included? (h : IsScriptName name) {m : Machine}
    (registered : m.functions.get? "include" = some (.builtin .includeScript))
    (reading : m.context.branches.isSkipping = false) :
    m.included? ("include: " ++ name) = some name := by
  have said : isIgnorable ("include: " ++ name) = false := by
    rw [isIgnorable, String.toList_append]
    rfl
  have states : m.statement? ("include: " ++ name) = some (.call "include" [name]) := by
    rw [Machine.statement?, h.trimmed_include, said, reading, h.read?_include]
    rfl
  rw [Machine.included?, Machine.called?, states, Option.bind_some, Statement.called?, registered]
  simp only [Option.map_some, Option.bind_some, List.map_cons, h.resolve]
  rfl

end IsScriptName

section Depths

variable {m : Machine}

private theorem Machine.limits_covers_deeper (m : Machine) : m.limits.Covers m.limits.deeper := by
  constructor
  · by_cases unlimited : m.limits.commands = 0
    · exact Or.inl unlimited
    · exact Or.inr ⟨UInt32.pos_iff_ne_zero.2 unlimited, UInt32.le_refl _⟩
  · by_cases unlimited : m.limits.maxIncludeDepth = 0
    · exact Or.inl unlimited
    · refine Or.inr ⟨UInt32.pos_iff_ne_zero.2 unlimited, ?_⟩
      simp only [Limits.deeper]
      omega

/-- A source text that is run one include deeper does what it does outside, unless there are too
many includes in it. -/
theorem perform_deeper_run (hb : m.functions.OnlyBuiltins) {depth : Nat} {source : String}
    (fits : ∀ limit, (m.perform (deeper (run depth source))).1 ≠
      .error (.failed (.includeTooDeep limit))) :
    m.perform (deeper (run depth source)) = m.perform (run depth source) := by
  obtain ⟨within, alike⟩ := (run_heeds depth source).truncates m.entered m.limits hb
    m.limits_covers_deeper
  rw [Machine.perform_deeper] at fits ⊢
  have back := Machine.left_limits_of_deeper (within.trans Machine.entered_limits)
  rcases alike with same | ⟨e, failed, cut, -⟩
  · have outside : m.perform (run depth source) = ((m.entered.perform (run depth source)).1,
        (m.entered.perform (run depth source)).2.under m.limits) := same
    rw [outside, ← back]
    rfl
  · rcases cut with ⟨-, differ⟩ | rfl
    · exact absurd rfl differ
    · exact absurd failed (fits _)

/-- One more nesting changes nothing for lines that do not run out of it. -/
theorem runLines_succ {depth : Nat} (hb : m.functions.OnlyBuiltins)
    (inner : ∀ source (m' : Machine), m'.functions.OnlyBuiltins →
      (∀ m'', run depth source m' ≠ .error .tooDeep m'') →
      run (depth + 1) source m' = run depth source m') {lines : List String}
    (ends : ∀ m', runLines (run depth) lines m ≠ .error .tooDeep m') :
    runLines (run (depth + 1)) lines m = runLines (run depth) lines m := by
  induction lines generalizing m with
  | nil => rfl
  | cons line rest ih =>
    cases inTime : checkTime m with
    | error e m₁ => rw [runLines_of_late _ inTime, runLines_of_late _ inTime]
    | ok u m₁ =>
      have hb₁ := ((checkTime_chain (p := fun _ => False) m).to_ok inTime).onlyBuiltins hb
      cases going : m₁.context.cancelled with
      | true => rw [runLines_of_cancelled _ inTime going, runLines_of_cancelled _ inTime going]
      | false =>
        rw [runLines_cons _ inTime going] at ends
        have same : runLine (run (depth + 1)) line m₁ = runLine (run depth) line m₁ := by
          refine runLine_congr hb₁ fun name source names loaded room => ?_
          refine inner source m₁.entered hb₁ fun m₂ halted => ?_
          rw [runLine_of_failing_include names loaded room halted] at ends
          exact ends _ rfl
        rw [runLines_cons _ inTime going, runLines_cons _ inTime going, same]
        cases ran : runLine (run depth) line m₁ with
        | error e m₂ => rfl
        | ok v m₂ =>
          rw [ran] at ends
          exact ih (runLine_onlyBuiltins (run_chain depth) ran hb₁) ends

private theorem run_succ {depth : Nat} {source : String} (hb : m.functions.OnlyBuiltins)
    (ends : ∀ m', run depth source m ≠ .error .tooDeep m') :
    run (depth + 1) source m = run depth source m := by
  induction depth generalizing source m with
  | zero => exact absurd rfl (ends m)
  | succ depth ih => exact runLines_succ hb (fun _ _ hb' => ih hb') ends

/-- The value of a run is that of its last line that was run. -/
theorem runLines_result {nested : String → Script Value} {lines : List String} {value : Value}
    {m' : Machine} (ran : runLines nested lines m = .ok value m') : m'.context.result = value := by
  induction lines generalizing m with
  | nil =>
    cases ran
    rfl
  | cons line rest ih =>
    cases inTime : checkTime m with
    | error e m₁ =>
      rw [runLines_of_late nested inTime] at ran
      cases ran
    | ok u m₁ =>
      cases going : m₁.context.cancelled with
      | true =>
        rw [runLines_of_cancelled nested inTime going] at ran
        cases ran
        rfl
      | false =>
        rw [runLines_cons nested inTime going] at ran
        cases step : runLine nested line m₁ with
        | error e m₂ =>
          rw [step] at ran
          cases ran
        | ok v m₂ =>
          rw [step] at ran
          exact ih ran

theorem Machine.run_result {source : String} {value : Value}
    (succeeds : (m.run source).1 = .ok value) : (m.run source).2.context.result = value := by
  obtain ⟨depth, capacity⟩ := nestingCapacity_eq_succ
  rw [Machine.run_eq_runLines capacity, Machine.perform] at succeeds ⊢
  cases ran : runLines (MenuScript.run depth) (linesOf source) m with
  | error e m' =>
    rw [ran] at succeeds
    cases succeeds
  | ok v m' =>
    rw [ran] at succeeds
    cases succeeds
    exact runLines_result ran

end Depths

/-- What the line that includes a script makes of how the script ends. -/
def asInclude : Except Halt Value × Machine → Except Halt Value × Machine
  | (.ok _, m) => (.ok (.bool true), m.keeping (.bool true))
  | (.error e, m) => (.error e, m)

theorem asInclude_eq_error_iff {ran : Except Halt Value × Machine} {e : Halt} :
    (asInclude ran).1 = .error e ↔ ran.1 = .error e := by
  rcases ran with ⟨_ | _, m⟩ <;> simp [asInclude]

section Lines

variable {m : Machine} {line name source : String} (single : linesOf line = [line])
  (going : m.context.cancelled = false) (untimed : m.context.budget.timeLimit = none)

include single going untimed

theorem run_single (depth : Nat) :
    run (depth + 1) line m =
      match runLine (run depth) line m with
      | .ok _ m' => .ok m'.context.result m'
      | .error e m' => .error e m' := by
  rw [run, single, runLines_cons _ (checkTime_of_no_limit m untimed) going]
  cases runLine (run depth) line m <;> rfl

variable (names : m.included? line = some name)
  (loaded : m.server.library.load? name = some source)

include names loaded

private theorem perform_include (room : ¬ m.isFull) (depth : Nat) :
    m.perform (run (depth + 1) line) = asInclude (m.perform (deeper (run depth source))) := by
  simp only [Machine.perform, run_single single going untimed, runLine_of_included? _ names,
    runIncluded_of_room _ loaded room, deeper_apply]
  cases run depth source m.entered <;> rfl

theorem perform_include_of_full (full : m.isFull) (depth : Nat) :
    m.perform (run (depth + 1) line) =
      (.error (.failed (.includeTooDeep m.config.maxIncludeDepth)), m) := by
  simp only [Machine.perform, run_single single going untimed, runLine_of_included? _ names,
    runIncluded_of_full _ loaded full]

private theorem perform_include_eq (hb : m.functions.OnlyBuiltins) {depth : Nat}
    (fits : ∀ limit, (m.perform (run (depth + 1) line)).1 ≠
      .error (.failed (.includeTooDeep limit))) :
    m.perform (run (depth + 1) line) = asInclude (m.perform (run depth source)) := by
  by_cases full : m.isFull
  · rw [perform_include_of_full single going untimed names loaded full] at fits
    exact absurd rfl (fits _)
  · rw [perform_include single going untimed names loaded full] at fits ⊢
    rw [perform_deeper_run hb fun limit failed => fits limit (asInclude_eq_error_iff.2 failed)]

end Lines

section Failures

/-- However deep in includes a line fails, the run ends with it: nothing is done after it. -/
theorem Machine.ComesTo.run_eq {m : Machine} {text : String} {s : LineStart} {e : Halt}
    {m' : Machine} (comes : m.ComesTo text s) (hb : m.functions.OnlyBuiltins)
    (fails : runLine (MenuScript.run s.capacity) s.line s.machine = .error e m') :
    m.run text = (.error e, m'.atDepth m.context.includeDepth) := by
  obtain ⟨depth, capacity, comes⟩ := comes
  obtain ⟨m₀, arrives, begun⟩ := comes.arrives
  exact Machine.ArrivesByIncludes.run_eq ⟨depth, capacity, arrives.includes hb⟩
    (.failed begun fails)

end Failures

/-- In a context that is not skipping, cancelled or timed, including a script of the library by a
name that is not empty and has no white space or braces is running its source there: both fail
alike, or both succeed and leave the same machine, and only the value of the line is its own. This
is so unless the limit on includes is reached or, where there is none, the includes have no end.
A failure, at any depth of includes, is that of the whole run, and nothing is done after it. -/
theorem include_eq_inlining (m : Machine) (name source : String)
    (builtins : m.functions.OnlyBuiltins)
    (registered : m.functions.get? "include" = some (.builtin .includeScript))
    (reading : m.context.branches.isSkipping = false) (going : m.context.cancelled = false)
    (untimed : m.context.budget.timeLimit = none) (named : IsScriptName name)
    (loaded : m.server.library.load? name = some source) :
    ((∀ limit, (m.run ("include: " ++ name)).1 ≠ .error (.failed (.includeTooDeep limit))) →
      (m.run ("include: " ++ name)).1 ≠ .error .tooDeep →
      m.run ("include: " ++ name) = asInclude (m.run source)) ∧
    (0 < m.config.maxIncludeDepth → (m.run ("include: " ++ name)).1 ≠ .error .tooDeep) ∧
    (∀ value, (m.run source).1 = .ok value → (m.run source).2.context.result = value) ∧
    ∀ (outer : Machine) (text : String) (s : LineStart) (e : Halt) (m' : Machine),
      outer.functions.OnlyBuiltins → outer.ComesTo text s →
      runLine (run s.capacity) s.line s.machine = .error e m' →
      outer.run text = (.error e, m'.atDepth outer.context.includeDepth) := by
  obtain ⟨depth, capacity⟩ := nestingCapacity_eq_succ
  have runs : ∀ text, m.run text = m.perform (run (depth + 1) text) := by
    intro text
    rw [Machine.run, capacity]
  have names := named.included? registered reading
  have single := named.linesOf_include
  refine ⟨fun fits ends => ?_, fun positive => ?_, fun value => Machine.run_result,
    fun outer text s e m' hb comes fails => comes.run_eq hb fails⟩
  · rw [runs] at fits ends ⊢
    have inlined := perform_include_eq single going untimed names loaded builtins fits
    rw [inlined] at ends ⊢
    rw [runs, Machine.perform, Machine.perform, run_succ builtins fun m' exhausted => ?_]
    refine ends (asInclude_eq_error_iff.2 ?_)
    rw [Machine.perform, exhausted]
  · by_cases full : m.isFull
    · rw [runs, perform_include_of_full single going untimed names loaded full]
      simp
    · have within : m.context.includeDepth ≤ m.config.maxIncludeDepth.toNat := by
        have room : ¬ m.config.maxIncludeDepth.toNat ≤ m.context.includeDepth :=
          fun reached => full ⟨positive, reached⟩
        omega
      exact Machine.Bounded.run_ne_tooDeep ⟨builtins, rfl, positive, within⟩ _

/-- A machine in a taken branch, whose library has one script. -/
def shelfMachine (name source : String) : Machine where
  server := { library := .shelf (Dictionary.empty.insert name source) }
  context :=
    { actor := { slot := 0, name := "Ann", uuid := ⟨0⟩ }
      bindings := Dictionary.empty
      budget := { limit := 1, started := 0, timeLimit := none }
      branches := [⟨true, false⟩] }

/-- The script turns the branch in which it is included. -/
theorem include_eq_inlining_turning :
    IsScriptName "turn" ∧
      (shelfMachine "turn" "msg: hi\nelse").run ("include: " ++ "turn") =
        asInclude ((shelfMachine "turn" "msg: hi\nelse").run "msg: hi\nelse") ∧
      ((shelfMachine "turn" "msg: hi\nelse").run
        ("include: " ++ "turn")).2.server.log.messages 0 = ["hi"] ∧
      ((shelfMachine "turn" "msg: hi\nelse").run
        ("include: " ++ "turn")).2.context.branches.isSkipping = true := by
  have named : IsScriptName "turn" := ⟨by decide, by simp [Text.isSpace], by decide⟩
  have succeeds : ((shelfMachine "turn" "msg: hi\nelse").run ("include: " ++ "turn")).1.isOk =
      true := by decide +kernel
  obtain ⟨inlines, ends, -, -⟩ := include_eq_inlining (shelfMachine "turn" "msg: hi\nelse") "turn"
    "msg: hi\nelse" FunctionTable.onlyBuiltins_builtins rfl rfl rfl rfl named (by decide)
  refine ⟨named, inlines (fun limit failed => ?_) (ends (by decide)), by decide +kernel,
    by decide +kernel⟩
  rw [failed] at succeeds
  cases succeeds

/-- A script can be kept under the empty name, but the line that should include it does nothing. -/
theorem include_of_empty_name :
    (shelfMachine "" "msg: hi").functions.OnlyBuiltins ∧
      (shelfMachine "" "msg: hi").context.branches.isSkipping = false ∧
      (shelfMachine "" "msg: hi").context.cancelled = false ∧
      (shelfMachine "" "msg: hi").context.budget.timeLimit = none ∧
      (shelfMachine "" "msg: hi").server.library.load? "" = some "msg: hi" ∧
      ((shelfMachine "" "msg: hi").run ("include: " ++ "")).1.isOk = true ∧
      ((shelfMachine "" "msg: hi").run ("include: " ++ "")).2.server.log.messages 0 = [] ∧
      ((shelfMachine "" "msg: hi").run "msg: hi").1.isOk = true ∧
      ((shelfMachine "" "msg: hi").run "msg: hi").2.server.log.messages 0 = ["hi"] :=
  ⟨FunctionTable.onlyBuiltins_builtins, rfl, rfl, rfl, by decide, by decide +kernel,
    by decide +kernel, by decide +kernel, by decide +kernel⟩

end MenuScript
