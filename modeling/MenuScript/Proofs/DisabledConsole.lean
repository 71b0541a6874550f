import MenuScript.Proofs.HostSessions
import MenuScript.Proofs.RecordedEvents

/-!
# The disabled console

The settings may keep scripts from the console. A console line, by its shorthand or by a call under
any name, then comes to a notice to the acting player and goes on, and no line of any other kind
attempts to reach the console. So nothing is ever added to what the console was given.
-/

namespace MenuScript

open Script

/-- Whether performing the line comes to asking for the console. -/
inductive Machine.AsksConsole (m : Machine) (line : String) : Prop
  | shorthand {text : String} (states : m.statement? line = some (.console text))
  | called {args : List Value} (calls : m.called? line = some (.builtin .console, args))

/-- An engine with built-in functions that keeps its scripts from the console, in a context of the
player in the slot. -/
structure Machine.Muted (slot : Nat) (m : Machine) : Prop where
  builtins : m.functions.OnlyBuiltins
  disabled : m.config.allowConsole = false
  actor : m.context.actor.slot = slot

/-- The machine after a console line that is turned down. -/
def Machine.toldOff (m : Machine) (slot : Nat) : Machine :=
  (m.logged (.message slot Refusal.consoleDisabled.message)).keeping (.bool false)

section Attempts

variable {m : Machine} {a : Attempt}

theorem Action.console?_of_disabled (disabled : m.config.allowConsole = false) (command : String) :
    console? m command = none := by
  simp [console?, disabled]

theorem Action.command?_event_ne_console {target : Option String} {text : String}
    (attempts : command? m target text = some a) (command : String) :
    a.event ≠ .console command := by
  simp only [command?] at attempts
  split_ifs at attempts
  cases attempts
  exact Event.noConfusion

theorem Action.menu?_event_ne_console {menu : String} {target : Option String}
    (attempts : menu? m menu target = some a) (command : String) : a.event ≠ .console command := by
  obtain ⟨actor, -, rfl⟩ := Option.map_eq_some_iff.1 attempts
  exact Event.noConfusion

private theorem Builtin.attempt?_event_ne_console (disabled : m.config.allowConsole = false)
    {b : Builtin}
    {args : List Value} (attempts : b.attempt? m args = some a) (command : String) :
    a.event ≠ .console command := by
  cases b with
  | command => exact Action.command?_event_ne_console attempts command
  | openMenu =>
    cases args with
    | nil => cases attempts
    | cons menu rest => exact Action.menu?_event_ne_console attempts command
  | closeMenu =>
    cases attempts
    exact Event.noConfusion
  | console =>
    rw [Builtin.attempt?, Action.console?_of_disabled disabled] at attempts
    cases attempts
  | _ => simp [Builtin.attempt?] at attempts

/-- No statement of any kind attempts to have the console run a command. -/
theorem Statement.attempt?_event_ne_console (disabled : m.config.allowConsole = false)
    {s : Statement} (attempts : s.attempt? m = some a) (command : String) :
    a.event ≠ .console command := by
  cases s with
  | command line => exact Action.command?_event_ne_console attempts command
  | openMenu menu target => exact Action.menu?_event_ne_console attempts command
  | closeMenu =>
    cases attempts
    exact Event.noConfusion
  | console text =>
    rw [Statement.attempt?, Action.console?_of_disabled disabled] at attempts
    cases attempts
  | call function arguments =>
    simp only [Statement.attempt?] at attempts
    split at attempts
    · exact Builtin.attempt?_event_ne_console disabled attempts command
    · cases attempts
  | _ => cases attempts

private theorem Machine.Records.ne_console {line : String} {e : Event} (records : m.Records line e)
    (disabled : m.config.allowConsole = false) (command : String) : e ≠ .console command := by
  cases records with
  | acted attempts =>
    obtain ⟨s, -, attempts⟩ := Option.bind_eq_some_iff.1 attempts
    exact Statement.attempt?_event_ne_console disabled attempts command
  | told quiet _ =>
    rintro rfl
    cases quiet

end Attempts

section Lines

variable {m : Machine} {line : String} {slot : Nat}

private theorem Action.runConsole_of_disabled (disabled : m.config.allowConsole = false)
    (command : String) :
    runConsole command m = .ok (.bool false)
      (m.logged (.message m.context.actor.slot Refusal.consoleDisabled.message)) := by
  simp only [runConsole, get_bind, disabled, Bool.not_false, if_true]
  rfl

/-- A console line is turned down: it leaves a notice and the value false, and nothing else. -/
theorem Machine.AsksConsole.runLine_eq (asks : m.AsksConsole line) (muted : m.Muted slot)
    (nested : String → Script Value) : runLine nested line m = .ok () (m.toldOff slot) := by
  rw [Machine.toldOff, ← muted.actor]
  cases asks with
  | shorthand states =>
    rw [runLine_of_statement? nested states, Statement.perform_console,
      Action.runConsole_of_disabled muted.disabled]
  | called calls =>
    obtain ⟨s, states, calls⟩ := Machine.statement?_of_called? calls
    rw [runLine_of_statement? nested states, Statement.perform_of_called? m nested calls,
      Callable.call, Builtin.call, Action.runConsole_of_disabled muted.disabled]

end Lines

section Sessions

variable {m m' : Machine} {slot : Nat}

private theorem Grows.console_eq {p : Nat → Event → Prop} (grows : Grows p m m')
    (other : ∀ i e, p i e → ∀ command, e ≠ .console command) :
    m'.server.log.console = m.server.log.console := by
  refine grows.filterMap_eq fun i e added => ?_
  cases e with
  | console command => exact absurd rfl (other i _ added command)
  | _ => rfl

theorem Machine.Muted.of_chain {p : Request → Prop} (muted : m.Muted slot)
    (c : Chain (Label.Allowed p) m m') : m'.Muted slot where
  builtins := c.onlyBuiltins muted.builtins
  disabled := by rw [c.sameSettings.config, muted.disabled]
  actor := by rw [c.sameSettings.actor, muted.actor]

theorem Machine.Muted.afterAll (muted : m.Muted slot) (uses : List Use) :
    (m.afterAll uses).Muted slot :=
  (afterAll_keeps (fun allowed step muted => muted.of_chain (Chain.single step allowed))
    (fun _ muted => ⟨muted.builtins, muted.disabled, muted.actor⟩) uses
    (muted.builtins.asksOnly fun _ => False) muted).2

private theorem Machine.Muted.use_console (muted : m.Muted slot) (u : Use) :
    (m.use u).2.server.log.console = m.server.log.console := by
  cases hsource : u.source? m.server.library with
  | some source =>
    rw [use_of_source? hsource]
    refine (Machine.run_grows muted.builtins source).console_eq ?_
    rintro i e ⟨s, ⟨depth, -, comes⟩, records⟩
    have muted' := muted.of_chain (comes.chain (muted.builtins.asksOnly fun _ => False))
    exact records.way.ne_console muted'.disabled
  | none =>
    obtain ⟨name, refused⟩ | restarts := use_of_no_source hsource
    · rw [refused]
    · rw [restarts]
      rfl

private theorem Machine.Muted.afterAll_console (muted : m.Muted slot) (uses : List Use) :
    (m.afterAll uses).server.log.console = m.server.log.console := by
  induction uses generalizing m with
  | nil => rfl
  | cons u rest ih => exact (ih (muted.afterAll [u])).trans (muted.use_console u)

end Sessions

/-- Where the console is disabled, it is given nothing, however often the context is used. Every
console line that is performed, as a shorthand or by a call of the function under any of its names,
gives the acting player one notice, has the value false, counts nothing against the budget and lets
the script go on. -/
theorem disabled_console_unreached (m : Machine) (uses : List Use)
    (builtins : m.functions.OnlyBuiltins) (disabled : m.config.allowConsole = false) :
    (m.afterAll uses).server.log.console = m.server.log.console ∧
      ∀ u s, (m.afterAll uses).UseComesTo u s → s.machine.AsksConsole s.line →
        runLine (run s.capacity) s.line s.machine =
          .ok () (s.machine.toldOff m.context.actor.slot) := by
  have muted : m.Muted m.context.actor.slot := ⟨builtins, disabled, rfl⟩
  refine ⟨muted.afterAll_console uses, fun u s comes asks => ?_⟩
  have muted' := muted.afterAll uses
  have there := muted'.of_chain (comes.chain (muted'.builtins.asksOnly fun _ => False))
  exact asks.runLine_eq there (run s.capacity)

/-- An engine that keeps its scripts from the console, although they have a second name for it. -/
def mutedMachine : Machine where
  config := { allowConsole := false }
  functions := (FunctionTable.builtins.register "shout" (.builtin .console)).2
  server := { library := .shelf (Dictionary.empty.insert "loud" "console: {player}\nmsg: in") }
  context :=
    { actor := { slot := 0, name := "Ann", uuid := ⟨0⟩ }
      bindings := Dictionary.empty
      budget := { limit := 1, started := 0, timeLimit := none } }

def shoutingText : String := "shout: a {player}\nconsole: b\nconsole:\ninclude: loud\ncmd: out"

theorem disabled_console_unreached_shouting :
    mutedMachine.functions.OnlyBuiltins ∧ mutedMachine.config.allowConsole = false ∧
      (mutedMachine.afterAll [.run shoutingText]).server.log.console = [] ∧
      ((mutedMachine.afterAll [.run shoutingText]).server.log.messages 0 =
          List.replicate 4 Refusal.consoleDisabled.message ++ ["in"] ∧
        (mutedMachine.afterAll [.run shoutingText]).server.log.commands 0 = ["out"]) ∧
      runLine (run (nestingCapacity - 1)) "shout: a {player}" mutedMachine =
        .ok () (mutedMachine.toldOff 0) := by
  have builtins : mutedMachine.functions.OnlyBuiltins :=
    FunctionTable.forall_register FunctionTable.onlyBuiltins_builtins "shout" ⟨.console, rfl⟩
  have states : mutedMachine.statement? "shout: a {player}" =
      some (.call "shout" ["a", "{player}"]) := by decide
  have found : mutedMachine.functions.get? "shout" = some (.builtin .console) := rfl
  have calls : mutedMachine.called? "shout: a {player}" =
      some (.builtin .console, [.string "a", .string "Ann"]) := by
    rw [Machine.called?, states, Option.bind_some, Statement.called?, found]
    rfl
  have comes : (mutedMachine.afterAll []).UseComesTo (.run shoutingText)
      ⟨nestingCapacity - 1, "shout: a {player}", mutedMachine⟩ := by
    have lines : linesOf shoutingText =
      "shout: a {player}" :: ["console: b", "console:", "include: loud", "cmd: out"] := by decide
    refine ⟨shoutingText, rfl, nestingCapacity - 1, by decide, ?_⟩
    rw [lines]
    exact .first (checkTime_of_no_limit mutedMachine rfl) rfl
  have silent := (disabled_console_unreached mutedMachine [.run shoutingText] builtins rfl).1
  have refused :=
    (disabled_console_unreached mutedMachine [] builtins rfl).2 _ _ comes (.called calls)
  exact ⟨builtins, rfl, silent, by decide +kernel, refused⟩

end MenuScript
