import MenuScript.Proofs.BranchDepth
import MenuScript.Proofs.HostSessions
import MenuScript.Proofs.RecordedEvents

/-!
# Cancelled scripts

Whether a script has been cancelled is looked at before every line. So once a line has cancelled it,
the run of that line ends with the value of the line, and the runs around it are left one by one,
each at the end of the include line that it is in. No other line is begun, neither in any of these
runs nor in a later one. All of them succeed, provided that no function fails once it has cancelled
the script.
-/

namespace MenuScript

open Script

/-- Whether a function that the host supplies never ends with an error. -/
def Callable.RoutineSucceeds : Callable → Prop
  | .builtin _ => True
  | .routine body => ∀ capacity args m e m',
    (body args).perform (run capacity) m ≠ .ok (.error e) m'

def FunctionTable.RoutinesSucceed (t : FunctionTable) : Prop :=
  ∀ name f, t.get? name = some f → f.RoutineSucceeds

/-- Whether no routine of the table has a script run. -/
abbrev FunctionTable.LaunchesNothing (t : FunctionTable) : Prop :=
  t.AsksOnly fun q => q.launches = false

/-- Whether the line nests no scripts deeper than the interpreter can follow. -/
def LineStart.Fits (s : LineStart) : Prop :=
  ∀ m', runLine (run s.capacity) s.line s.machine ≠ .error .tooDeep m'

/-- A machine without a time limit whose routines succeed. -/
structure Machine.Unhindered (m : Machine) : Prop where
  unlimited : m.context.budget.timeLimit = none
  succeed : m.functions.RoutinesSucceed

/-- The machine once include lines have been ended up to the given depth of includes. -/
def Machine.surfaced (m : Machine) (depth : Nat) : Machine := (m.atDepth depth).keeping (.bool true)

/-- A context in which nothing happens any more: it stays cancelled however it is used, and running
anything in it succeeds with the value that its last line had and changes nothing. -/
structure Machine.IsStill (m : Machine) : Prop where
  cancelled : ∀ uses, (m.afterAll uses).context.cancelled = true
  unchanged : ∀ uses, Use.restartClock ∉ uses → m.afterAll uses = m
  succeeds : ∀ uses u text, Use.source? m.server.library u = some text →
    (m.afterAll uses).use u = (.ok m.context.result, m.afterAll uses)

section Tables

variable {m m' : Machine} {allowed : Label → Prop}

theorem Chain.unhindered (c : Chain allowed m m') (h : m.Unhindered) : m'.Unhindered where
  unlimited := c.sameSettings.timeLimit.trans h.unlimited
  succeed := fun name f found => h.succeed name f (c.get?_functions found)

theorem Machine.Unhindered.entered (h : m.Unhindered) : m.entered.Unhindered :=
  ⟨h.unlimited, h.succeed⟩

end Tables

section Failures

variable {m m' : Machine} {h : Halt} {nested : String → Script Value} {line : String}

/-- The only halt that a request passes on to the routine that asks it. -/
theorem Request.perform_error {r : Request} (fails : r.perform nested m = .error h m') :
    h = .tooDeep ∧ r.launches = true := by
  have passedOn : ∀ {α : Type} {x : Script α}, attempt x m = .error h m' → h = .tooDeep := by
    intro α x fails
    rw [Script.attempt] at fails
    split at fails <;> cases fails
    rfl
  cases launches : r.launches with
  | false => exact absurd fails (Request.perform_harmless launches nested).ne_error
  | true =>
    cases r with
    | runSource source => exact ⟨passedOn fails, rfl⟩
    | runNamed name => exact ⟨passedOn fails, rfl⟩
    | _ => cases launches

private theorem Routine.perform_error {α : Type} {r : Routine α}
    (fails : r.perform nested m = .error h m') :
    h = .tooDeep ∧ ¬ r.AsksOnly fun q => q.launches = false := by
  induction r generalizing m with
  | done a => cases fails
  | ask request next ih =>
    rw [Routine.perform] at fails
    cases asked : request.perform nested m with
    | error h₁ m₁ =>
      rw [bind_of_error m asked] at fails
      cases fails
      obtain ⟨deep, launches⟩ := Request.perform_error asked
      refine ⟨deep, fun plain => ?_⟩
      rw [plain.1] at launches
      cases launches
    | ok answer m₁ =>
      rw [bind_of_ok m asked] at fails
      obtain ⟨deep, launching⟩ := ih answer fails
      exact ⟨deep, fun plain => launching (plain.2 answer)⟩

private theorem Machine.faulted_cancelled (m : Machine) (e : ScriptError) :
    (m.faulted e).context.cancelled = m.context.cancelled := by
  cases e <;> rfl

/-- What is left as a reason to fail, once a line has cancelled the script: a routine has launched
scripts that are nested too deep. -/
theorem runLine_error_cancelled {capacity : Nat} (unhindered : m.Unhindered)
    (going : m.context.cancelled = false)
    (included : ∀ source m₁, run capacity source m.entered = .error h m₁ →
      m₁.context.cancelled = true → h = .tooDeep ∧ ¬ m.entered.functions.LaunchesNothing)
    (fails : runLine (run capacity) line m = .error h m') (stopped : m'.context.cancelled = true) :
    h = .tooDeep ∧ ¬ m.functions.LaunchesNothing := by
  by_cases routine : ∃ body args, m.called? line = some (.routine body, args)
  · obtain ⟨body, args, called⟩ := routine
    obtain ⟨name, found⟩ := Machine.get?_of_called? called
    obtain ⟨s, states, calls⟩ := Machine.statement?_of_called? called
    rw [runLine_of_statement? _ states, Statement.perform_of_called? m _ calls,
      Callable.call] at fails
    cases performed : (body args).perform (run capacity) m with
    | ok outcome m₁ =>
      rw [bind_of_ok m performed] at fails
      cases outcome with
      | ok value => cases fails
      | error e => exact absurd performed (unhindered.succeed name _ found capacity args m e m₁)
    | error h₁ m₁ =>
      rw [bind_of_error m performed] at fails
      cases fails
      obtain ⟨deep, launching⟩ := Routine.perform_error performed
      exact ⟨deep, fun plain => launching (plain name _ found args)⟩
  · have builtin : ∀ f args, m.called? line = some (f, args) → ∃ b, f = .builtin b := by
      intro f args called
      cases f with
      | builtin b => exact ⟨b, rfl⟩
      | routine body => exact absurd ⟨body, args, called⟩ routine
    obtain ⟨e, rfl, fault⟩ | ⟨name, source, m₁, names, inner⟩ := fault_of_runLine builtin fails
    · -- a fault is there before the line has done anything
      rw [fault.runLine_eq (run capacity)] at fails
      cases fails
      rw [Machine.faulted_cancelled, going] at stopped
      cases stopped
    · rw [runLine_of_failing_include names inner.loaded inner.room inner.fails] at fails
      cases fails
      exact included source m₁ inner.fails stopped

private theorem run_error_cancelled {capacity : Nat} {source : String} (unhindered : m.Unhindered)
    (going : m.context.cancelled = false) (fails : run capacity source m = .error h m')
    (stopped : m'.context.cancelled = true) : h = .tooDeep ∧ ¬ m.functions.LaunchesNothing := by
  induction capacity generalizing source m m' with
  | zero =>
    -- the script is not begun
    cases fails
    rw [going] at stopped
    cases stopped
  | succ depth ih =>
    cases runLines_eq_iff_finishes.1 fails with
    | late split passed late =>
      have c := passed.chain (run_chain depth) m.functions.asksOnly_true
      obtain ⟨limit, limited, -⟩ := checkTime_error_iff.1 late
      rw [(Chain.unhindered c unhindered).unlimited] at limited
      cases limited
    | @failed before after line m₁ m₂ m₃ h split passed begun failed =>
      have c := (passed.chain (run_chain depth) m.functions.asksOnly_true).trans begun.chain
      have unhindered₂ : m₂.Unhindered := Chain.unhindered c unhindered
      obtain ⟨deep, launching⟩ := runLine_error_cancelled unhindered₂ begun.going
        (fun source m₄ inner => ih unhindered₂.entered begun.going inner) failed stopped
      exact ⟨deep, fun plain => launching (Chain.asksOnly c plain)⟩

end Failures

section Stopping

variable {m m₁ : Machine} {s : LineStart} {depth : Nat} {lines : List String}

/-- A line that cancels the script fails only if scripts are nested too deep. -/
theorem LineStart.tooDeep_of_cancelled (unhindered : s.machine.Unhindered)
    (going : s.machine.context.cancelled = false) {h : Halt}
    (fails : runLine (run s.capacity) s.line s.machine = .error h m₁)
    (stopped : m₁.context.cancelled = true) :
    h = .tooDeep ∧ ¬ s.machine.functions.LaunchesNothing :=
  runLine_error_cancelled unhindered going
    (fun _ _ inner => run_error_cancelled unhindered.entered going inner) fails stopped

private theorem LineStart.runLine_of_cancelled (unhindered : s.machine.Unhindered)
    (going : s.machine.context.cancelled = false) (stopped : s.after.context.cancelled = true)
    (fits : s.Fits) : runLine (run s.capacity) s.line s.machine = .ok () s.after := by
  cases ran : runLine (run s.capacity) s.line s.machine with
  | ok u m₁ => rw [LineStart.after, Machine.perform_of_ok ran]
  | error h m₁ =>
    rw [LineStart.after, Machine.perform_of_error ran] at stopped
    obtain ⟨rfl, -⟩ := LineStart.tooDeep_of_cancelled unhindered going ran stopped
    exact absurd ran (fits m₁)

/-- A line that cancels the script says something, and its value is kept. -/
theorem statement_of_cancelled {nested : String → Script Value} {line : String}
    (going : m.context.cancelled = false) (ran : runLine nested line m = .ok () m₁)
    (stopped : m₁.context.cancelled = true) :
    ∃ statement value m₀, m.statement? line = some statement ∧
      statement.perform nested m = .ok value m₀ ∧ m₁ = m₀.keeping value := by
  obtain hi | ⟨hi, hs⟩ | ⟨hi, hs, hr⟩ | ⟨statement, states⟩ := runLine_cases m line
  · rw [runLine_of_ignorable _ hi] at ran
    cases ran
    rw [going] at stopped
    cases stopped
  · rw [runLine_of_skipping _ hi hs] at ran
    cases ran
    rw [Machine.branching_cancelled, going] at stopped
    cases stopped
  · rw [runLine_of_unreadable _ hi hs hr] at ran
    cases ran
  · rw [runLine_of_statement? _ states] at ran
    cases performed : statement.perform nested m with
    | ok value m₀ =>
      rw [performed] at ran
      cases ran
      exact ⟨statement, value, m₀, states, performed, rfl⟩
    | error h m₀ =>
      rw [performed] at ran
      cases ran

private theorem runLines_keeping_of_stopped {nested : String → Script Value}
    (unlimited : m.context.budget.timeLimit = none) (stopped : m.context.cancelled = true)
    (value : Value) (lines : List String) :
    runLines nested lines (m.keeping value) = .ok value (m.keeping value) := by
  have unlimited' : (m.keeping value).context.budget.timeLimit = none := unlimited
  exact runLines_of_stopped unlimited' stopped lines

private theorem Machine.keeping_result (m : Machine) : m.keeping m.context.result = m := rfl

private theorem Machine.left_iterate_stopped (k : Nat)
    (unlimited : m.context.budget.timeLimit = none)
    (stopped : m.context.cancelled = true) :
    (Machine.left^[k] m).context.budget.timeLimit = none ∧
      (Machine.left^[k] m).context.cancelled = true := by
  rw [Machine.left_iterate_eq_atDepth]
  exact ⟨unlimited, stopped⟩

/-- A line that cancels the script ends the run that it is in, with its own value, and all the runs
around that one with the value of an include. -/
theorem Arrives.stops (arrives : Arrives Includes depth lines m s) (unhindered : m.Unhindered)
    (going : s.machine.context.cancelled = false)
    (ran : runLine (run s.capacity) s.line s.machine = .ok () m₁)
    (stopped : m₁.context.cancelled = true) :
    (s.machine.context.includeDepth = m.context.includeDepth ∧
        runLines (run depth) lines m = .ok m₁.context.result m₁) ∨
      (m.context.includeDepth < s.machine.context.includeDepth ∧ ∃ k,
        runLines (run depth) lines m =
          .ok (.bool true) ((Machine.left^[k] m₁).keeping (.bool true))) := by
  have unlimited₁ : m₁.context.budget.timeLimit = none := by
    have c := (arrives.mono Includes.launches).chain m.functions.asksOnly_true
    have c' := (runLine_chain (run_chain s.capacity) s.line
      s.machine.functions.asksOnly_true).to_ok ran
    exact (Chain.unhindered c' (Chain.unhindered c unhindered)).unlimited
  induction arrives with
  | first =>
    refine .inl ⟨rfl, ?_⟩
    rw [runLines_step unhindered.unlimited going ran]
    exact runLines_of_stopped unlimited₁ stopped _
  | @later depth line rest m m₂ m₃ s begun before more ih =>
    have c := begun.chain.trans ((runLine_chain (run_chain depth) line
      m₂.functions.asksOnly_true).to_ok before)
    have level : m₃.context.includeDepth = m.context.includeDepth := by
      rw [(runLine_isLevel (run_isLevel depth) line m₂).to_ok before,
        checkTime_context begun.inTime]
    rw [runLines_cons _ begun.inTime begun.going, before, ← level]
    exact ih (Chain.unhindered c unhindered) going ran
  | @inside depth line source rest m m₂ m₃ s begun launched more ih =>
    obtain ⟨⟨name, names, loaded⟩, room, rfl⟩ := launched
    have unhindered₂ : m₂.Unhindered :=
      Chain.unhindered (begun.chain (p := fun _ => True)) unhindered
    have outer : m₂.context = m.context := checkTime_context begun.inTime
    -- however deep the line is, the script that is included here ends with the line's machine
    obtain ⟨value, k, inner, deeper⟩ : ∃ value k, run (depth + 1) source m₂.entered =
        .ok value ((Machine.left^[k] m₁).keeping value) ∧
        m.context.includeDepth < s.machine.context.includeDepth := by
      rw [← outer]
      obtain ⟨level, ends⟩ | ⟨below, k, ends⟩ := ih unhindered₂.entered going ran
      · refine ⟨m₁.context.result, 0, ?_, level ▸ Nat.lt_succ_self _⟩
        rw [Function.iterate_zero_apply, Machine.keeping_result]
        exact ends
      · exact ⟨.bool true, k, ends, (Nat.lt_succ_self _).trans below⟩
    have ended : runLine (run (depth + 1)) line m₂ =
        .ok () ((Machine.left^[k + 1] m₁).keeping (.bool true)) := by
      rw [runLine_of_included? _ names, runIncluded_of_room _ loaded room, inner,
        Function.iterate_succ_apply']
      rfl
    refine .inr ⟨deeper, k + 1, ?_⟩
    obtain ⟨unlimited₂, stopped₂⟩ := Machine.left_iterate_stopped (k + 1) unlimited₁ stopped
    rw [runLines_cons _ begun.inTime begun.going, ended]
    exact runLines_keeping_of_stopped unlimited₂ stopped₂ (.bool true) rest

theorem Machine.use_of_cancelled (unlimited : m.context.budget.timeLimit = none)
    (stopped : m.context.cancelled = true) (u : Use) {text : String}
    (source : u.source? m.server.library = some text) : m.use u = (.ok m.context.result, m) := by
  obtain ⟨depth, capacity⟩ := nestingCapacity_eq_succ
  rw [Machine.use_of_source? source, Machine.run_eq_runLines capacity, Machine.perform_eq_ok_iff]
  exact runLines_of_stopped unlimited stopped (linesOf text)

/-- One use leaves a cancelled context as it is, except that its clock may be restarted. -/
theorem Machine.use_leaves_cancelled (unlimited : m.context.budget.timeLimit = none)
    (stopped : m.context.cancelled = true) (u : Use) :
    (m.use u).2 = m ∨ u = .restartClock ∧ (m.use u).2 = m.restarted := by
  cases source : u.source? m.server.library with
  | some text =>
    rw [Machine.use_of_cancelled unlimited stopped u source]
    exact .inl rfl
  | none =>
    cases u with
    | run text => cases source
    | runNamed name =>
      rw [Machine.use_runNamed_of_missing source]
      exact .inl rfl
    | restartClock => exact .inr ⟨rfl, rfl⟩

private theorem Machine.afterAll_of_cancelled (unlimited : m.context.budget.timeLimit = none)
    (stopped : m.context.cancelled = true) (uses : List Use) :
    (m.afterAll uses).context.budget.timeLimit = none ∧
      (m.afterAll uses).context.cancelled = true ∧
      (m.afterAll uses).context.result = m.context.result ∧
      (m.afterAll uses).server.library = m.server.library ∧
      (Use.restartClock ∉ uses → m.afterAll uses = m) := by
  induction uses generalizing m with
  | nil => exact ⟨unlimited, stopped, rfl, rfl, fun _ => rfl⟩
  | cons u rest ih =>
    have onward : m.afterAll (u :: rest) = (m.use u).2.afterAll rest := rfl
    rw [onward]
    obtain same | ⟨rfl, restarts⟩ := Machine.use_leaves_cancelled unlimited stopped u
    · rw [same]
      obtain ⟨untimed, still, result, library, unchanged⟩ := ih unlimited stopped
      exact ⟨untimed, still, result, library,
        fun unreset => unchanged fun mem => unreset (List.mem_cons_of_mem u mem)⟩
    · rw [restarts]
      obtain ⟨untimed, still, result, library, -⟩ := ih (m := m.restarted) unlimited stopped
      exact ⟨untimed, still, result, library, fun unreset => absurd List.mem_cons_self unreset⟩

private theorem Machine.isStill_of_cancelled (unlimited : m.context.budget.timeLimit = none)
    (stopped : m.context.cancelled = true) : m.IsStill where
  cancelled uses := (afterAll_of_cancelled unlimited stopped uses).2.1
  unchanged uses := (afterAll_of_cancelled unlimited stopped uses).2.2.2.2
  succeeds uses u text source := by
    obtain ⟨untimed, still, result, library, -⟩ := afterAll_of_cancelled unlimited stopped uses
    rw [← library] at source
    rw [Machine.use_of_cancelled untimed still u source, result]

/-- What a whole run comes to if one of its lines cancels the script. -/
theorem Machine.ArrivesByIncludes.run_of_cancelled {source : String}
    (arrives : m.ArrivesByIncludes source s) (unhindered : m.Unhindered)
    (going : s.machine.context.cancelled = false)
    (ran : runLine (MenuScript.run s.capacity) s.line s.machine = .ok () m₁)
    (stopped : m₁.context.cancelled = true) :
    m.run source =
      if s.machine.context.includeDepth = m.context.includeDepth then (.ok m₁.context.result, m₁)
      else (.ok (.bool true), m₁.surfaced m.context.includeDepth) := by
  obtain ⟨depth, capacity, inner⟩ := arrives
  obtain ⟨level, ends⟩ | ⟨below, k, ends⟩ := inner.stops unhindered going ran stopped
  · rw [if_pos level, Machine.run_eq_runLines capacity, Machine.perform_eq_ok_iff]
    exact ends
  · have whole : m.run source = (.ok (.bool true), (Machine.left^[k] m₁).keeping (.bool true)) := by
      rw [Machine.run_eq_runLines capacity, Machine.perform_eq_ok_iff]
      exact ends
    have level : (m.run source).2.context.includeDepth = m.context.includeDepth :=
      run_isLevel nestingCapacity source m
    rw [whole] at level
    have up : (Machine.left^[k] m₁).context.includeDepth = m.context.includeDepth := level
    rw [if_neg (Nat.ne_of_gt below), whole, Machine.left_iterate_eq_atDepth, up, Machine.surfaced]

private theorem Machine.ArrivesByIncludes.cancelled_after {source : String}
    (arrives : m.ArrivesByIncludes source s) (unhindered : m.Unhindered)
    (going : s.machine.context.cancelled = false)
    (ran : runLine (MenuScript.run s.capacity) s.line s.machine = .ok () m₁)
    (stopped : m₁.context.cancelled = true) : (m.run source).2.context.cancelled = true := by
  rw [arrives.run_of_cancelled unhindered going ran stopped]
  split_ifs
  · exact stopped
  · exact stopped

end Stopping

/-- Nothing happens in a context that has been cancelled. In a context without a time limit, and
with routines that do not fail, a line that cancels the script ends the run it is in and all the
runs around it: no other line is begun, and nothing changes but the depth of includes and the value
of the last line. The whole run succeeds, with the value of the line if it is one of the source text
and with the value of an include if it is in an included script. Only a routine that launches
scripts itself may nest them too deep for that. -/
theorem cancellation_ends_run (m : Machine) (unlimited : m.context.budget.timeLimit = none)
    (succeed : m.functions.RoutinesSucceed) :
    (m.context.cancelled = true → m.IsStill) ∧
    ∀ source s, m.ArrivesByIncludes source s → s.machine.context.cancelled = false →
      s.after.context.cancelled = true →
        (m.functions.LaunchesNothing → s.Fits) ∧
        (s.Fits →
          (∃ statement value m₀, s.machine.statement? s.line = some statement ∧
            statement.perform (run s.capacity) s.machine = .ok value m₀ ∧
            s.after = m₀.keeping value ∧
            m.run source =
              if s.machine.context.includeDepth = m.context.includeDepth then (.ok value, s.after)
              else (.ok (.bool true), s.after.surfaced m.context.includeDepth)) ∧
          (m.run source).2.IsStill) := by
  refine ⟨Machine.isStill_of_cancelled unlimited, fun source s arrives going stopped => ?_⟩
  have unhindered : m.Unhindered := ⟨unlimited, succeed⟩
  have c : Chain (Label.Allowed fun _ => True) m s.machine := by
    obtain ⟨depth, -, inner⟩ := arrives.arrives
    exact inner.chain m.functions.asksOnly_true
  have there : s.machine.Unhindered := c.unhindered unhindered
  constructor
  · intro plain m₁ fails
    have left : s.after = m₁ := Machine.perform_of_error fails
    rw [left] at stopped
    exact (LineStart.tooDeep_of_cancelled there going fails stopped).2 (c.asksOnly plain)
  · intro fits
    have ran := LineStart.runLine_of_cancelled there going stopped fits
    have ends := arrives.run_of_cancelled unhindered going ran stopped
    obtain ⟨statement, value, m₀, states, performed, kept⟩ :=
      statement_of_cancelled going ran stopped
    have ended := arrives.cancelled_after unhindered going ran stopped
    have result : s.after.context.result = value := by
      rw [kept]
      rfl
    have whole : Chain (Label.Allowed fun _ => True) m (m.run source).2 :=
      run_chain nestingCapacity source m m.functions.asksOnly_true
    rw [result] at ends
    exact ⟨⟨statement, value, m₀, states, performed, kept, ends⟩,
      Machine.isStill_of_cancelled (whole.unhindered unhindered).unlimited ended⟩

/-- A context in which scripts may be stopped by a function, and a script that does so. -/
def stoppingMachine : Machine where
  functions := (FunctionTable.builtins.register "stop"
    (.routine fun _ => .ask .cancel fun _ => .done (.ok (.string "stopped")))).2
  server := { library := .shelf (Dictionary.empty.insert "halt" "stop:\nmsg: never") }
  context :=
    { actor := { slot := 0, name := "Ann", uuid := ⟨0⟩ }
      bindings := Dictionary.empty
      budget := { limit := 0, started := 0, timeLimit := none } }

/-- The line that stops the script, in the script that is included. -/
def stoppingStart : LineStart := ⟨nestingCapacity - 2, "stop:", stoppingMachine.entered⟩

private theorem stoppingMachine_functions :
    stoppingMachine.functions.RoutinesSucceed ∧ stoppingMachine.functions.LaunchesNothing := by
  constructor
  · refine FunctionTable.forall_register (fun key f found => ?_) "stop" ?_
    · obtain ⟨b, rfl⟩ := FunctionTable.onlyBuiltins_builtins key f found
      trivial
    · intro capacity args m e m' performed
      cases performed
  · refine FunctionTable.forall_register (fun key f found => ?_) "stop" ?_
    · obtain ⟨b, rfl⟩ := FunctionTable.onlyBuiltins_builtins key f found
      trivial
    · exact fun args => ⟨rfl, fun _ => trivial⟩

private theorem stoppingMachine_arrives :
    stoppingMachine.ArrivesByIncludes "include: halt\nmsg: never" stoppingStart := by
  have outer : linesOf "include: halt\nmsg: never" = ["include: halt", "msg: never"] := by decide
  have inner : linesOf "stop:\nmsg: never" = ["stop:", "msg: never"] := by decide
  have begun : stoppingMachine.Begins stoppingMachine :=
    ⟨checkTime_of_no_limit stoppingMachine rfl, rfl⟩
  have states : stoppingMachine.statement? "include: halt" =
      some (.call "include" ["halt"]) := by decide
  have found : stoppingMachine.functions.get? "include" = some (.builtin .includeScript) := rfl
  have names : stoppingMachine.included? "include: halt" = some "halt" := by
    rw [Machine.included?, Machine.called?, states, Option.bind_some, Statement.called?, found]
    rfl
  have loaded : stoppingMachine.server.library.load? "halt" = some "stop:\nmsg: never" := by decide
  refine ⟨nestingCapacity - 2 + 1, by decide, ?_⟩
  rw [outer]
  refine .inside begun ⟨⟨"halt", names, loaded⟩, by decide, rfl⟩ ?_
  rw [inner]
  exact .first

theorem cancellation_ends_run_included :
    stoppingMachine.context.budget.timeLimit = none ∧
      stoppingMachine.functions.RoutinesSucceed ∧
      stoppingMachine.ArrivesByIncludes "include: halt\nmsg: never" stoppingStart ∧
      stoppingStart.after.context.cancelled = true ∧
      stoppingMachine.run "include: halt\nmsg: never" =
        (.ok (.bool true), stoppingStart.after.surfaced 0) ∧
      ((stoppingMachine.run "include: halt\nmsg: never").2.use (.run "msg: never")).1 =
        .ok (.bool true) := by
  obtain ⟨succeed, plain⟩ := stoppingMachine_functions
  have stopped : stoppingStart.after.context.cancelled = true := by decide +kernel
  obtain ⟨fits, ends⟩ := (cancellation_ends_run stoppingMachine rfl succeed).2
    "include: halt\nmsg: never" stoppingStart stoppingMachine_arrives rfl stopped
  obtain ⟨⟨statement, value, m₀, -, -, -, ran⟩, still⟩ := ends (fits plain)
  have below : ¬ stoppingStart.machine.context.includeDepth =
      stoppingMachine.context.includeDepth := by decide
  rw [if_neg below] at ran
  refine ⟨rfl, succeed, stoppingMachine_arrives, stopped, ran, ?_⟩
  have later := still.succeeds [] (.run "msg: never") "msg: never" rfl
  rw [ran] at later ⊢
  exact congrArg Prod.fst later

end MenuScript
