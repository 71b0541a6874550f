import MenuScript.Proofs.LineGrammar
import MenuScript.Proofs.UnseenRuns

/-!
# Lines that need no function

A shorthand is performed by the interpreter itself, so the table of functions is looked at by calls
only. A run in which no call is performed is therefore the same for every table: it makes no
difference whether a function of the same name as a shorthand is registered, removed or replaced.
Calls among skipped lines do not matter, because they are not performed.
-/

namespace MenuScript

open Script

/-- The machine with another table of functions. -/
def Machine.withFunctions (m : Machine) (table : FunctionTable) : Machine :=
  { m with functions := table }

def Retabled (table : FunctionTable) (m m' : Machine) : Prop := m' = m.withFunctions table

/-- Whether running the source performs no call, at any line that it comes to. -/
def Machine.CallsNothing (m : Machine) (source : String) : Prop :=
  ∀ s, m.ComesTo source s → ∀ function arguments,
    s.machine.statement? s.line ≠ some (.call function arguments)

/-- Whether a physical line says nothing, or says it by a shorthand. -/
def IsShorthandLine (line : String) : Prop :=
  isIgnorable (trimmed line) = true ∨ ∃ s, Statement.Shorthand (trimmed line).toList s

/-- Whether running the source is the same for every table of functions, and does not fail for want
of a function. -/
structure Machine.IgnoresFunctions (m : Machine) (source : String) : Prop where
  same : ∀ table, (m.withFunctions table).run source =
    ((m.run source).1, (m.run source).2.withFunctions table)
  found : ∀ name, (m.run source).1 ≠ .error (.failed (.functionNotFound name))

theorem unseen_retabled (table : FunctionTable) : Unseen (Retabled table) where
  hidden := by
    rintro m _ rfl
    exact ⟨⟨m.server.clock, m.server.log, m.context.budget.timeLimit, table⟩, rfl⟩
  updated := by
    rintro m _ f step rfl
    rfl
  logged := by
    rintro m _ e rfl
    rfl
  drew := by
    rintro m _ chance rfl
    rfl
  passed := by
    rintro m _ nanos rfl
    rfl

section Runs

variable {m m' : Machine} {table : FunctionTable} {depth : Nat} {lines : List String}
  {source line : String}

private theorem runLine_retabled {nested : String → Script Value} (related : Retabled table m m')
    (plain : ∀ function arguments, m.statement? line ≠ some (.call function arguments)) :
    Alike (Retabled table) (runLine nested line m) (runLine nested line m') := by
  refine runLine_alike (unseen_retabled table) related fun s states => ?_
  refine Statement.perform_blind (unseen_retabled table) ?_ m m' related
  rintro function arguments rfl
  exact plain function arguments states

private theorem runLines_retabled (table : FunctionTable)
    (plain : ∀ line m₁, ComesTo depth lines m ⟨depth, line, m₁⟩ → ∀ function arguments,
      m₁.statement? line ≠ some (.call function arguments)) :
    Alike (Retabled table) (runLines (run depth) lines m)
      (runLines (run depth) lines (m.withFunctions table)) := by
  refine runLines_alike (unseen_retabled table) rfl ?_ ?_
  · rintro line m₁ _ - rfl
    exact checkTime_alike rfl rfl rfl
  · intro line m₁ m₁' comes related
    exact runLine_retabled related (plain line m₁ comes)

theorem Machine.statement?_call_of_called? {f : Callable} {args : List Value}
    (called : m.called? line = some (f, args)) :
    ∃ function arguments, m.statement? line = some (.call function arguments) := by
  obtain ⟨s, states, calls⟩ := Machine.statement?_of_called? called
  cases s with
  | call function arguments => exact ⟨function, arguments, states⟩
  | _ => cases calls

theorem Launches.called? {nested : String → Script Value}
    (launched : Launches nested m line source m') :
    ∃ f args, m.called? line = some (f, args) := by
  cases launched with
  | included names loaded room =>
    obtain ⟨value, rest, called, -⟩ := Machine.called?_of_included? names
    exact ⟨_, _, called⟩
  | routine calls more => exact ⟨_, _, calls⟩

/-- A run fails for want of a function at a call only. -/
theorem functionNotFound_of_call {name : String}
    (fails : runLines (run depth) lines m = .error (.failed (.functionNotFound name)) m') :
    ∃ line m₁ function arguments, ComesTo depth lines m ⟨depth, line, m₁⟩ ∧
      m₁.statement? line = some (.call function arguments) := by
  cases runLines_eq_iff_finishes.1 fails with
  | late split passed late =>
    obtain ⟨limit, other⟩ := timedOut_of_checkTime late
    cases other
  | @failed before after line m₁ m₂ m₃ h split passed begun failed =>
    have comes : ComesTo depth lines m ⟨depth, line, m₂⟩ := by
      rw [split]
      exact (passed.arrives .first).comesTo begun
    by_contra! plain
    have uncalled : ∀ f args, m₂.called? line = some (f, args) → ∃ b, f = .builtin b := by
      intro f args called
      obtain ⟨function, arguments, states⟩ := Machine.statement?_call_of_called? called
      exact absurd states (plain line m₂ function arguments comes)
    obtain ⟨e, same, fault⟩ | ⟨script, source, m₄, names, -⟩ := fault_of_runLine uncalled failed
    · cases same
      cases fault with
      | stated states fault =>
        cases fault with
        | unregistered missing => exact plain line m₂ _ _ comes states
    · obtain ⟨value, rest, called, -⟩ := Machine.called?_of_included? names
      obtain ⟨function, arguments, states⟩ := Machine.statement?_call_of_called? called
      exact plain line m₂ function arguments comes states

theorem Statement.Shorthand.ne_call {chars : List Char} {s : Statement}
    (short : Statement.Shorthand chars s) (function : String) (arguments : List String) :
    s ≠ .call function arguments := by
  rintro rfl
  cases short

private theorem IsShorthandLine.statement?_ne_call (short : IsShorthandLine line) (m : Machine)
    (function : String) (arguments : List String) :
    m.statement? line ≠ some (.call function arguments) := by
  intro states
  simp only [Machine.statement?] at states
  split_ifs at states with idle
  rcases short with ignorable | ⟨s, short⟩
  · simp [ignorable] at idle
  · rw [Statement.read?_of_shorthand short] at states
    exact short.ne_call function arguments (Option.some.inj states)

private theorem ComesTo.statement?_ne_call {s : LineStart} (comes : ComesTo depth lines m s)
    (short : ∀ line ∈ lines, IsShorthandLine line) (function : String) (arguments : List String) :
    s.machine.statement? s.line ≠ some (.call function arguments) := by
  induction comes with
  | first inTime going => exact (short _ List.mem_cons_self).statement?_ne_call _ _ _
  | later inTime going ran more ih => exact ih fun l mem => short l (List.mem_cons_of_mem _ mem)
  | inside inTime going launched more ih =>
    -- only a call launches a script
    obtain ⟨f, args, called⟩ := launched.called?
    obtain ⟨function, arguments, states⟩ := Machine.statement?_call_of_called? called
    exact absurd states ((short _ List.mem_cons_self).statement?_ne_call _ _ _)

private theorem Machine.CallsNothing.ignoresFunctions (plain : m.CallsNothing source) :
    m.IgnoresFunctions source := by
  obtain ⟨depth, capacity⟩ := nestingCapacity_eq_succ
  have here : ∀ line m₁, MenuScript.ComesTo depth (linesOf source) m ⟨depth, line, m₁⟩ →
      ∀ function arguments, m₁.statement? line ≠ some (.call function arguments) :=
    fun line m₁ comes => plain ⟨depth, line, m₁⟩ ⟨depth, capacity, comes⟩
  constructor
  · intro table
    obtain ⟨outcome, related⟩ := (runLines_retabled table here).run capacity
    exact Prod.ext outcome related
  · intro name fails
    have ends : m.run source = (.error (.failed (.functionNotFound name)), (m.run source).2) :=
      Prod.ext fails rfl
    rw [Machine.run_eq_runLines capacity, Machine.perform_eq_error_iff] at ends
    obtain ⟨line, m₁, function, arguments, comes, states⟩ := functionNotFound_of_call ends
    exact here line m₁ comes function arguments states

end Runs

/-- Running a source does not depend on the table of functions if no call is performed. In
particular a script of shorthands runs alike whatever functions are registered, those with the names
of shorthands included, and never fails for want of one. -/
theorem shorthands_ignore_functions (m : Machine) (source : String) :
    (m.CallsNothing source → m.IgnoresFunctions source) ∧
      ((∀ line ∈ linesOf source, IsShorthandLine line) →
        m.CallsNothing source ∧ m.IgnoresFunctions source) := by
  refine ⟨Machine.CallsNothing.ignoresFunctions, fun short => ?_⟩
  have plain : m.CallsNothing source := by
    rintro s ⟨depth, -, comes⟩ function arguments
    exact comes.statement?_ne_call short function arguments
  exact ⟨plain, plain.ignoresFunctions⟩

/-- A context in which a condition that does not hold has been opened. -/
def unmetMachine : Machine where
  context :=
    { actor := { slot := 0, name := "Ann", uuid := ⟨0⟩ }
      bindings := Dictionary.empty
      branches := BranchStack.push [] false
      budget := { limit := 3, started := 0, timeLimit := none } }

/-- A table with nothing but a function that has the name of a shorthand and fails. -/
def mutedTable : FunctionTable :=
  Dictionary.empty.insert "msg" (.routine fun _ => .done (.error (.functionFailed "msg" "muted")))

private theorem unmetMachine_callsNothing : unmetMachine.CallsNothing "teleport: home" := by
  have lines : linesOf "teleport: home" = ["teleport: home"] := by decide
  have skipped : unmetMachine.looked.statement? "teleport: home" = none := by decide
  rintro s ⟨depth, -, comes⟩ function arguments
  rw [lines] at comes
  cases comes with
  | first inTime going =>
    obtain ⟨-, rfl⟩ := checkTime_ok_iff.1 inTime
    simp [skipped]
  | later inTime going ran more => cases more
  | inside inTime going launched more =>
    obtain ⟨-, rfl⟩ := checkTime_ok_iff.1 inTime
    obtain ⟨f, args, called⟩ := launched.called?
    simp [Machine.called?, skipped] at called

def turnedText : String := "else\nmsg: hi {player}\nset x 1\nendif"

private theorem isShorthandLine_of_mem_turnedText (line : String)
    (mem : line ∈ linesOf turnedText) :
    IsShorthandLine line := by
  have reads : ∀ line ∈ linesOf turnedText,
      ((Statement.shorthands.map Prod.snd).findSome? fun read =>
        read (trimmed line).toList).isSome = true := by decide
  obtain ⟨s, short⟩ := Option.isSome_iff_exists.1 (reads line mem)
  exact .inr ⟨s, Statement.findSome?_shorthands_eq_some_iff.1 short⟩

theorem shorthands_ignore_functions_muted :
    unmetMachine.CallsNothing "teleport: home" ∧ unmetMachine.IgnoresFunctions "teleport: home" ∧
      (∀ line ∈ linesOf turnedText, IsShorthandLine line) ∧
      (unmetMachine.withFunctions mutedTable).run turnedText =
        ((unmetMachine.run turnedText).1,
          (unmetMachine.run turnedText).2.withFunctions mutedTable) ∧
      ((unmetMachine.withFunctions mutedTable).run turnedText).2.server.log.messages 0 =
        ["hi Ann"] := by
  have skipped := (shorthands_ignore_functions unmetMachine "teleport: home").1
    unmetMachine_callsNothing
  have short := isShorthandLine_of_mem_turnedText
  have same := ((shorthands_ignore_functions unmetMachine turnedText).2 short).2.same mutedTable
  exact ⟨unmetMachine_callsNothing, skipped, short, same, by decide +kernel⟩

end MenuScript
