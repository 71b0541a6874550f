import MenuScript.Proofs.Deadlines

/-!
# Executions in separate contexts

What has been recorded is never looked at. So an execution has the same outcome and leaves the same
context whatever the log held before, and adds the same block of events to it. Besides the log, two
executions in contexts of their own share only the clock, and a script without a time limit does not
look at that either: the two can be carried out in either order.
-/

namespace MenuScript

open Script

/-- A script that is to be run in a context of its own, with the chance that it draws from. -/
structure Execution where
  context : Context
  chance : Chance
  source : String

/-- The machine with another log. -/
def Machine.recording (m : Machine) (log : EventLog) : Machine := m.served fun s => { s with log }

@[simp] theorem Machine.recording_context (m : Machine) (log : EventLog) :
    (m.recording log).context = m.context := rfl

@[simp] theorem Machine.recording_log (m : Machine) (log : EventLog) :
    (m.recording log).server.log = log := rfl

@[simp] theorem Machine.recording_recording (m : Machine) (log log' : EventLog) :
    (m.recording log).recording log' = m.recording log' := rfl

namespace Engine

/-- The engine with another log. -/
def recording (e : Engine) (log : EventLog) : Engine := { e with server.log := log }

def start (e : Engine) (x : Execution) : Machine :=
  { e with server.chance := x.chance, context := x.context }

def carryOut (e : Engine) (x : Execution) : Except Halt Value × Machine := (e.start x).run x.source

/-- What an execution comes to: its outcome and its final context. -/
def ending (e : Engine) (x : Execution) : Except Halt Value × Context :=
  ((e.carryOut x).1, (e.carryOut x).2.context)

/-- The engine after an execution. -/
def after (e : Engine) (x : Execution) : Engine := (e.carryOut x).2.toEngine

/-- The events that an execution records, if nothing has been recorded before. -/
def block (e : Engine) (x : Execution) : EventLog := ((e.recording #[]).after x).server.log

end Engine

/-- Whether the log, and every record kept in it, consists of those of the blocks, one after
another. -/
structure EventLog.Consists (log : EventLog) (blocks : List EventLog) : Prop where
  events : log.toList = blocks.flatMap Array.toList
  messages : ∀ slot, log.messages slot = blocks.flatMap (·.messages slot)
  commands : ∀ slot, log.commands slot = blocks.flatMap (·.commands slot)
  effects : ∀ slot, log.effects slot = blocks.flatMap (·.effects slot)
  console : log.console = blocks.flatMap (·.console)
  opened : log.opened = blocks.flatMap (·.opened)
  closed : log.closed = blocks.flatMap (·.closed)
  missed : log.missed = blocks.flatMap (·.missed)

private theorem EventLog.consists_of_toList {log : EventLog} {blocks : List EventLog}
    (joined : log.toList = blocks.flatMap Array.toList) : log.Consists blocks where
  events := joined
  messages slot := by simp only [EventLog.messages, joined, List.filterMap_flatMap]
  commands slot := by simp only [EventLog.commands, joined, List.filterMap_flatMap]
  effects slot := by simp only [EventLog.effects, joined, List.filterMap_flatMap]
  console := by simp only [EventLog.console, joined, List.filterMap_flatMap]
  opened := by simp only [EventLog.opened, joined, List.filterMap_flatMap]
  closed := by simp only [EventLog.closed, joined, List.filterMap_flatMap]
  missed := by simp only [EventLog.missed, joined, List.filterMap_flatMap]

/-- `Shifted before before' m m'`: what has been recorded since the log was `before` in `m` has been
recorded since it was `before'` in `m'`, and the machines are the same otherwise. -/
def Shifted (before before' : EventLog) (m m' : Machine) : Prop :=
  ∃ block, m.server.log = before ++ block ∧ m' = m.recording (before' ++ block)

private theorem unnoticed_shifted (before before' : EventLog) :
    Unnoticed (Shifted before before') where
  hidden := by
    rintro m _ ⟨block, -, rfl⟩
    exact ⟨⟨m.server.clock, before' ++ block, m.context.budget.timeLimit, m.functions⟩, rfl⟩
  updated := by
    rintro m _ f step ⟨block, since, rfl⟩
    exact ⟨block, since, rfl⟩
  logged := by
    rintro m _ e ⟨block, since, rfl⟩
    refine ⟨block.push e, ?_, ?_⟩
    · rw [Array.append_push, ← since]
      rfl
    · rw [Array.append_push]
      rfl
  drew := by
    rintro m _ chance ⟨block, since, rfl⟩
    exact ⟨block, since, rfl⟩
  passed := by
    rintro m _ nanos ⟨block, since, rfl⟩
    exact ⟨block, since, rfl⟩
  functions := by
    rintro m _ ⟨block, -, rfl⟩
    rfl
  unregistered := by
    rintro m _ name ⟨block, since, rfl⟩
    exact ⟨block, since, rfl⟩

section Machines

variable {m m' : Machine}

private theorem Machine.run_shifted {before before' : EventLog}
    (related : Shifted before before' m m')
    (source : String) :
    (m'.run source).1 = (m.run source).1 ∧
      Shifted before before' (m.run source).2 (m'.run source).2 := by
  obtain ⟨depth, capacity⟩ := nestingCapacity_eq_succ
  refine (runLines_unnoticed (unnoticed_shifted before before') related ?_).run capacity
  rintro s _ - ⟨block, since, rfl⟩
  exact checkTime_alike rfl rfl ⟨block, since, rfl⟩

private theorem Machine.untimed_of_no_limit (unlimited : m.context.budget.timeLimit = none) :
    m.untimed = m := by
  rw [Machine.untimed, ← unlimited]
  rfl

/-- Without a time limit it does not matter when a source is run. -/
theorem Machine.run_at (unlimited : m.context.budget.timeLimit = none) (clock : Clock)
    (source : String) :
    ∃ clock', (m.served fun s => { s with clock }).run source =
      ((m.run source).1, (m.run source).2.served fun s => { s with clock := clock' }) := by
  obtain ⟨depth, capacity⟩ := nestingCapacity_eq_succ
  have related : Unhurried m (m.served fun s => { s with clock }) :=
    ⟨clock, by rw [Machine.untimed_of_no_limit unlimited]⟩
  have settled : ∀ m', Chain (Label.Allowed fun _ => True) m m' →
      m'.context.budget.timeLimit = none :=
    fun m' c => c.sameSettings.timeLimit.trans unlimited
  have alike : Alike Unhurried (runLines (MenuScript.run depth) (linesOf source) m)
      (runLines (MenuScript.run depth) (linesOf source) (m.served fun s => { s with clock })) :=
    runLines_unhurried related fun s arrives =>
      Machine.isLate_of_no_limit (settled _ (arrives.chain m.functions.asksOnly_true))
  obtain ⟨outcome, clock', left⟩ := alike.run capacity
  have unlimited' : (m.run source).2.context.budget.timeLimit = none :=
    settled _ (run_chain _ source m m.functions.asksOnly_true)
  rw [Machine.untimed_of_no_limit unlimited'] at left
  exact ⟨clock', Prod.ext outcome left⟩

/-- Functions are removed by requests only. -/
theorem Chain.functions_eq (c : Chain (Label.Allowed fun _ => False) m m') :
    m'.functions = m.functions := by
  refine c.keeps (I := fun m' => m'.functions = m.functions)
    (fun {label _ _} allowed step same => ?_) rfl
  cases step with
  | asked _ r => exact allowed.elim
  | _ => exact same

end Machines

section Executions

variable (e : Engine) (x y : Execution)

theorem Engine.carryOut_recording (log : EventLog) :
    (e.recording log).carryOut x =
      ((e.carryOut x).1, (e.carryOut x).2.recording (log ++ e.block x)) := by
  -- every log is compared with the empty one
  have compared : ∀ log, (e.recording log).carryOut x =
      (((e.recording #[]).carryOut x).1,
        ((e.recording #[]).carryOut x).2.recording (log ++ e.block x)) := by
    intro log
    have related : Shifted #[] log ((e.recording #[]).start x) ((e.recording log).start x) :=
      ⟨#[], rfl, by rw [Array.append_empty]; rfl⟩
    obtain ⟨outcome, block, since, left⟩ := Machine.run_shifted related x.source
    rw [Array.empty_append] at since
    rw [← since] at left
    exact Prod.ext outcome left
  have own : e.carryOut x = _ := compared e.server.log
  rw [compared log, own, Machine.recording_recording]

theorem Engine.after_recording (log : EventLog) :
    ((e.recording log).after x).server.log = log ++ e.block x := by
  rw [Engine.after, Engine.carryOut_recording, Machine.recording_log]

private theorem Engine.ending_recording (log : EventLog) :
    (e.recording log).ending x = e.ending x := by
  rw [Engine.ending, Engine.carryOut_recording, Machine.recording_context, Engine.ending]

private theorem Engine.start_eq {e e' : Engine} (config : e'.config = e.config)
    (functions : e'.functions = e.functions) (library : e'.server.library = e.server.library)
    (online : e'.server.online = e.server.online) (x : Execution) :
    e'.start x =
      ((e.recording e'.server.log).start x).served
        fun s => { s with clock := e'.server.clock } := by
  obtain ⟨config₁, functions₁, server₁⟩ := e
  obtain ⟨config₂, functions₂, server₂⟩ := e'
  obtain ⟨online₁, library₁, clock₁, chance₁, log₁⟩ := server₁
  obtain ⟨online₂, library₂, clock₂, chance₂, log₂⟩ := server₂
  cases config
  cases functions
  cases library
  cases online
  rfl

/-- Without a time limit, an execution goes after another one as it goes alone. -/
theorem Engine.carryOut_after (builtins : e.functions.OnlyBuiltins)
    (unlimited : y.context.budget.timeLimit = none) :
    ∃ clock, (e.after x).carryOut y =
      ((e.carryOut y).1,
        ((e.carryOut y).2.recording (e.server.log ++ e.block x ++ e.block y)).served
          fun s => { s with clock }) := by
  have c : Chain (Label.Allowed fun _ => False) (e.start x) (e.carryOut x).2 :=
    run_chain _ x.source _ (builtins.asksOnly _)
  have settings := c.sameSettings
  have starts : (e.after x).start y = ((e.recording (e.after x).server.log).start y).served
      fun s => { s with clock := (e.after x).server.clock } :=
    Engine.start_eq settings.config c.functions_eq settings.library settings.online y
  have recorded : (e.after x).server.log = e.server.log ++ e.block x :=
    e.after_recording x e.server.log
  have alone : ((e.recording (e.after x).server.log).start y).run y.source =
      ((e.carryOut y).1, (e.carryOut y).2.recording ((e.after x).server.log ++ e.block y)) :=
    e.carryOut_recording y (e.after x).server.log
  obtain ⟨clock, ends⟩ := Machine.run_at (m := (e.recording (e.after x).server.log).start y)
    unlimited (e.after x).server.clock y.source
  refine ⟨clock, ?_⟩
  rw [Engine.carryOut, starts, ends, alone, recorded]

end Executions

/-- Whatever has been recorded before an execution, it has the same outcome, leaves the same context
and records the same events. With the functions that an engine starts with and without time limits,
two executions come to the same in either order, and the records differ only in the order of what
the two have added to them. -/
theorem executions_independent (e : Engine) :
    (∀ x log, (e.recording log).ending x = e.ending x ∧
      ((e.recording log).after x).server.log.Consists [log, e.block x]) ∧
    (e.functions.OnlyBuiltins → ∀ x y : Execution,
      x.context.budget.timeLimit = none → y.context.budget.timeLimit = none →
        (e.after y).ending x = e.ending x ∧ (e.after x).ending y = e.ending y ∧
        ((e.after x).after y).server.log.Consists [e.server.log, e.block x, e.block y] ∧
        ((e.after y).after x).server.log.Consists [e.server.log, e.block y, e.block x]) := by
  constructor
  · intro x log
    refine ⟨e.ending_recording x log, EventLog.consists_of_toList ?_⟩
    rw [Engine.after_recording]
    simp
  · intro builtins x y unlimited unlimited'
    have second : ∀ x y : Execution, y.context.budget.timeLimit = none →
        (e.after x).ending y = e.ending y ∧
        ((e.after x).after y).server.log.Consists [e.server.log, e.block x, e.block y] := by
      intro x y unlimited
      obtain ⟨clock, ends⟩ := e.carryOut_after x y builtins unlimited
      constructor
      · rw [Engine.ending, ends, Machine.served_context, Machine.recording_context, Engine.ending]
      · rw [Engine.after, ends]
        refine EventLog.consists_of_toList ?_
        simp [Machine.served]
    exact ⟨(second y x unlimited).1, (second x y unlimited').1, (second x y unlimited').2,
      (second y x unlimited).2⟩

/-- An engine with something on record already. -/
def sharedEngine : Engine where
  server := { log := #[.console "restart", .message 0 "welcome"], clock := Clock.steady 5 }

/-- An execution of the same player every time, with the given draw. -/
def drawing (raw : Nat) : Execution where
  context :=
    { actor := { slot := 0, name := "Ann", uuid := ⟨0⟩ }
      bindings := Dictionary.empty
      budget := { limit := 0, started := 0, timeLimit := none } }
  chance := ⟨fun _ => raw, 0⟩
  source := "random n 1 6\ndelay 5\nmsg: {player} has {n}\ncmd: bet {n}"

theorem executions_independent_same_player :
    sharedEngine.functions.OnlyBuiltins ∧
      (sharedEngine.after (drawing 4)).ending (drawing 2) =
        sharedEngine.ending (drawing 2) ∧
      (sharedEngine.block (drawing 2)).messages 0 = ["Ann has 3"] ∧
      ((sharedEngine.after (drawing 2)).after (drawing 4)).server.log.messages 0 =
        ["welcome", "Ann has 3", "Ann has 5"] ∧
      ((sharedEngine.after (drawing 4)).after (drawing 2)).server.log.messages 0 =
        ["welcome", "Ann has 5", "Ann has 3"] := by
  have builtins : sharedEngine.functions.OnlyBuiltins := FunctionTable.onlyBuiltins_builtins
  have before : sharedEngine.server.log.messages 0 = ["welcome"] := by decide
  have three : (sharedEngine.block (drawing 2)).messages 0 = ["Ann has 3"] := by
    decide +kernel
  have five : (sharedEngine.block (drawing 4)).messages 0 = ["Ann has 5"] := by
    decide +kernel
  obtain ⟨alone, -, inOrder, reversed⟩ := (executions_independent sharedEngine).2 builtins
    (drawing 2) (drawing 4) rfl rfl
  refine ⟨builtins, alone, three, ?_, ?_⟩
  · simp [inOrder.messages, before, three, five]
  · simp [reversed.messages, before, three, five]

end MenuScript
