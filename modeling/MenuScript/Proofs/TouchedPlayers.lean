import MenuScript.Proofs.LineGrammar
import MenuScript.Proofs.RecordedEvents

/-!
# Whom a run touches

Messages and effects are for the acting player, and so is the closing of a menu. Another player is
reached in two ways only: by a `cmd:` line with a target marker, whose text is the key under which
the player is online, and by a line that opens a menu for a player whose key the resolved target is.
A target that is not online leaves a command to the acting player, and a menu unopened.
-/

namespace MenuScript

open Script

namespace Machine

/-- `m.CommandsFor line key text`: the machine performs the line, which is a `cmd:` line with a
target marker. What stands in the marker, as it is written, is `key` with white space around it at
most. The command comes to `text`. -/
structure CommandsFor (m : Machine) (line key text : String) : Prop where
  written : ∃ gap words name rest, (∀ c ∈ gap, Statement.isGap c = true) ∧
    Statement.RunOf Statement.isPlain words ∧ Statement.IsTarget name ∧
    (trimmed line).toList = "cmd:".toList ++ (gap ++ (words ++ Statement.marked name rest)) ∧
    key = String.ofList (Text.trim name)
  performed : ∃ words trailing, m.statement? line = some (.command ⟨words, some key, trailing⟩) ∧
    text = PlayerCommand.resolved ⟨words, some key, trailing⟩ m.context

/-- `m.OpensFor line menu target`: the machine performs the line, which opens a menu for a player,
as a shorthand or by a call. Both names are resolved. -/
inductive OpensFor (m : Machine) (line : String) : String → String → Prop
  | shorthand {menu target : String}
      (states : m.statement? line = some (.openMenu menu (some target))) :
      OpensFor m line (m.context.resolve menu) (m.context.resolve target)
  | called {menu target : Value} {rest : List Value}
      (calls : m.called? line = some (.builtin .openMenu, menu :: target :: rest)) :
      OpensFor m line menu.text target.text

/-- What becomes of a line that attempts the action. -/
def attempting (m : Machine) (a : Attempt) : EStateM.Result Halt Machine Unit :=
  if m.context.budget.counted.isOverdrawn then
    .error (.failed (.budgetExceeded m.context.budget.limit)) m.counted
  else .ok () ((m.counted.logged a.event).keeping a.value)

/-- What becomes of a line that opens the menu for the player, if there is one. -/
def opening (m : Machine) (menu : String) : Option Actor → EStateM.Result Halt Machine Unit
  | some actor => m.attempting ⟨.opened actor.name menu, .bool true⟩
  | none => .ok () (m.keeping (.bool false))

/-- `Touches p online m line e`: the event, which performing the line in the machine records,
touches nobody but `p` and the player online whom the line names. -/
inductive Touches (p : Actor) (online : Dictionary Actor) (m : Machine) (line : String) :
    Event → Prop
  | message {text : String} : Touches p online m line (.message p.slot text)
  | effect {effect : Effect} : Touches p online m line (.effect p.slot effect)
  | command {text : String} : Touches p online m line (.command p.slot text)
  | commandFor {key text : String} {actor : Actor} (names : m.CommandsFor line key text)
      (found : online.get? key = some actor) : Touches p online m line (.command actor.slot text)
  | opened {menu : String} : Touches p online m line (.opened p.name menu)
  | openedFor {menu target : String} {actor : Actor} (names : m.OpensFor line menu target)
      (found : online.get? target = some actor) : Touches p online m line (.opened actor.name menu)
  | closed : Touches p online m line (.closed p.name)
  | console {command : String} : Touches p online m line (.console command)
  | paused {millis : Nat} : Touches p online m line (.paused millis)
  | missed {script : String} : Touches p online m line (.missed script)

section Lines

variable {m : Machine} {line key text menu target : String} {a : Attempt} {e : Event}

theorem commandsFor_of_statement? {command : PlayerCommand}
    (states : m.statement? line = some (.command command)) (marked : command.target = some key) :
    m.CommandsFor line key (command.resolved m.context) := by
  obtain ⟨words, target, trailing⟩ := command
  obtain rfl : target = some key := marked
  refine ⟨?_, words, trailing, states, rfl⟩
  have said := Statement.read?_eq_some_iff.1 (read?_of_statement? states)
  generalize (trimmed line).toList = s at said
  -- of all the forms of lines, one alone is read as a command with a target
  cases said with
  | shorthand short =>
    cases short with
    | commandFor g t start n => exact ⟨_, _, _, _, g, t, n, rfl, rfl⟩

/-- A command reaches the acting player, or the one online whom the line names. -/
theorem touches_of_command? {aim : Option String} (attempts : Action.command? m aim text = some a)
    (names : ∀ key, aim = some key → m.CommandsFor line key text) :
    Touches m.context.actor m.server.online m line a.event := by
  simp only [Action.command?] at attempts
  split_ifs at attempts
  cases attempts
  cases found : aim.bind m.server.online.get? with
  | none =>
    simp only [Action.recipient, found]
    exact .command
  | some actor =>
    simp only [Action.recipient, found]
    obtain ⟨key, marked, found⟩ := Option.bind_eq_some_iff.1 found
    exact .commandFor (names key marked) found

theorem touches_of_menu? {aim : Option String} (attempts : Action.menu? m menu aim = some a)
    (names : ∀ target, aim = some target → m.OpensFor line menu target) :
    Touches m.context.actor m.server.online m line a.event := by
  obtain ⟨actor, found, rfl⟩ := Option.map_eq_some_iff.1 attempts
  cases aim with
  | none =>
    cases found
    exact .opened
  | some target => exact .openedFor (names target rfl) found

theorem touches_of_console? {command : String} (attempts : Action.console? m command = some a) :
    Touches m.context.actor m.server.online m line a.event := by
  simp only [Action.console?] at attempts
  split_ifs at attempts
  cases attempts
  exact .console

private theorem touches_of_called? {b : Builtin} {args : List Value}
    (calls : m.called? line = some (.builtin b, args)) (attempts : b.attempt? m args = some a) :
    Touches m.context.actor m.server.online m line a.event := by
  cases b with
  | command => exact touches_of_command? attempts fun key none => by cases none
  | openMenu =>
    cases args with
    | nil => cases attempts
    | cons menu rest =>
      refine touches_of_menu? attempts fun target named => ?_
      obtain ⟨value, first, rfl⟩ := Option.map_eq_some_iff.1 named
      obtain ⟨rest, rfl⟩ := List.head?_eq_some_iff.1 first
      exact .called calls
  | closeMenu =>
    cases attempts
    exact .closed
  | console => exact touches_of_console? attempts
  | _ => simp [Builtin.attempt?] at attempts

private theorem touches_of_attempt? (attempts : m.attempt? line = some a) :
    Touches m.context.actor m.server.online m line a.event := by
  obtain ⟨s, states, attempts⟩ := Option.bind_eq_some_iff.1 attempts
  cases s with
  | command command =>
    exact touches_of_command? attempts fun key marked => commandsFor_of_statement? states marked
  | openMenu menu aim =>
    refine touches_of_menu? attempts fun target named => ?_
    obtain ⟨target, rfl, rfl⟩ := Option.map_eq_some_iff.1 named
    exact .shorthand states
  | closeMenu =>
    cases attempts
    exact .closed
  | console text => exact touches_of_console? attempts
  | call function arguments =>
    simp only [Statement.attempt?] at attempts
    split at attempts
    · rename_i b args calls
      refine touches_of_called? ?_ attempts
      rw [Machine.called?, states, Option.bind_some, calls]
    · cases attempts
  | _ => cases attempts

private theorem Records.touches (records : m.Records line e) :
    Touches m.context.actor m.server.online m line e := by
  cases records with
  | acted attempts => exact touches_of_attempt? attempts
  | told quiet own =>
    cases e with
    | message receiver text =>
      cases own
      exact .message
    | effect receiver effect =>
      cases own
      exact .effect
    | paused => exact .paused
    | missed => exact .missed
    | command | console | opened | closed => cases quiet

/-- The player online under the key runs the command, or else the acting player. -/
theorem CommandsFor.runLine_eq (names : m.CommandsFor line key text)
    (nested : String → Script Value) :
    runLine nested line m =
      if isBlankText text then .ok () (m.keeping (.bool false))
      else
        m.attempting ⟨.command ((m.server.online.get? key).getD m.context.actor).slot text,
          .bool ((m.server.online.get? key).getD m.context.actor).acceptsCommands⟩ := by
  obtain ⟨words, trailing, states, rfl⟩ := names.performed
  have recipient : Action.recipient m (some key) =
      (m.server.online.get? key).getD m.context.actor := by
    simp only [Action.recipient, Option.bind_some]
    cases m.server.online.get? key <;> rfl
  split_ifs with blank
  · rw [runLine_of_statement? nested states, Statement.perform_command,
      Action.runCommand_of_none m (by simp [Action.command?, blank])]
  · refine runLine_of_attempt? nested ?_
    rw [Machine.attempt?, states, Option.bind_some, Statement.attempt?, Action.command?,
      if_neg blank, recipient]

private theorem OpensFor.attempt?_eq (names : m.OpensFor line menu target) :
    m.attempt? line = Action.menu? m menu (some target) := by
  cases names with
  | shorthand states =>
    rw [Machine.attempt?, states]
    rfl
  | called calls =>
    obtain ⟨s, states, calls⟩ := statement?_of_called? calls
    rw [Machine.attempt?, states, Option.bind_some]
    cases s with
    | call function arguments =>
      rw [Statement.attempt?, calls]
      rfl
    | _ => cases calls

/-- A menu is opened for the player online of that name, and for nobody if there is none. -/
theorem OpensFor.runLine_eq (names : m.OpensFor line menu target)
    (nested : String → Script Value) :
    runLine nested line m = m.opening menu (m.server.online.get? target) := by
  cases found : m.server.online.get? target with
  | some actor =>
    refine runLine_of_attempt? nested ?_
    rw [names.attempt?_eq, Action.menu?, Action.viewer?, found]
    rfl
  | none =>
    have idle : Action.menu? m menu (some target) = none := by
      rw [Action.menu?, Action.viewer?, found]
      rfl
    cases names with
    | shorthand states =>
      rw [runLine_of_statement? nested states, Statement.perform_openMenu, Option.map_some,
        Action.openMenu_of_none m idle]
      rfl
    | called calls =>
      obtain ⟨s, states, calls⟩ := statement?_of_called? calls
      rw [runLine_of_statement? nested states, Statement.perform_of_called? m nested calls,
        Callable.call, Builtin.call, List.head?_cons, Option.map_some,
        Action.openMenu_of_none m idle]
      rfl

end Lines

end Machine

/-- A run touches the acting player and the players that its lines name, and nobody else. Every
event that it adds to the log is recorded by a line that it comes to, and is for the acting player
or for the player online whom that line names; an action is all that its line records. So the
messages and effects of all others stay as they are. A command whose target is not online is run by
the acting player, and a menu whose target is not online is not opened, which is the value false and
costs nothing. -/
theorem run_touches_player_and_targets (m : Machine) (source : String)
    (builtins : m.functions.OnlyBuiltins) :
    Grows (fun i e => ∃ s, m.ComesTo source s ∧
        Machine.Touches m.context.actor m.server.online s.machine s.line e ∧
        (e.isAction = true →
          i = s.machine.server.log.size ∧ s.after.server.log = s.machine.server.log.push e))
      m (m.run source).2 ∧
    (∀ slot, slot ≠ m.context.actor.slot →
      (m.run source).2.server.log.messages slot = m.server.log.messages slot ∧
        (m.run source).2.server.log.effects slot = m.server.log.effects slot) ∧
    (∀ s key text, m.ComesTo source s → s.machine.CommandsFor s.line key text →
      runLine (run s.capacity) s.line s.machine =
        if isBlankText text then .ok () (s.machine.keeping (.bool false))
        else
          s.machine.attempting
            ⟨.command ((m.server.online.get? key).getD m.context.actor).slot text,
              .bool ((m.server.online.get? key).getD m.context.actor).acceptsCommands⟩) ∧
    ∀ s menu target, m.ComesTo source s → s.machine.OpensFor s.line menu target →
      runLine (run s.capacity) s.line s.machine =
        s.machine.opening menu (m.server.online.get? target) := by
  -- the acting player and the players online are the same at every line
  have settings : ∀ {s}, m.ComesTo source s → m.SameSettings s.machine := by
    rintro s ⟨depth, -, comes⟩
    exact (comes.chain (builtins.asksOnly fun _ => False)).sameSettings
  have touched : Grows (fun i e => ∃ s, m.ComesTo source s ∧
        Machine.Touches m.context.actor m.server.online s.machine s.line e ∧
        (e.isAction = true →
          i = s.machine.server.log.size ∧ s.after.server.log = s.machine.server.log.push e))
      m (m.run source).2 := by
    refine (Machine.run_grows builtins source).mono ?_
    rintro i e ⟨s, comes, records⟩
    have touches := records.way.touches
    rw [(settings comes).actor, (settings comes).online] at touches
    exact ⟨s, comes, touches, records.alone⟩
  refine ⟨touched, fun slot other => ⟨?_, ?_⟩, fun s key text comes names => ?_,
    fun s menu target comes names => ?_⟩
  · refine touched.filterMap_eq ?_
    rintro i e ⟨s, -, touches, -⟩
    cases touches with
    | message => exact if_neg (Ne.symm other)
    | _ => rfl
  · refine touched.filterMap_eq ?_
    rintro i e ⟨s, -, touches, -⟩
    cases touches with
    | effect => exact if_neg (Ne.symm other)
    | _ => rfl
  · rw [names.runLine_eq, (settings comes).online, (settings comes).actor]
  · rw [names.runLine_eq, (settings comes).online]

/-- An engine with one player online, whose name is also the value of a variable. -/
def companyMachine : Machine where
  server := { online := Dictionary.empty.insert "Alex" { slot := 1, name := "Alex", uuid := ⟨1⟩ } }
  context :=
    { actor := { slot := 0, name := "Ann", uuid := ⟨0⟩ }
      bindings := Dictionary.empty.insert "pal" (.string "Alex")
      budget := { limit := 9, started := 0, timeLimit := none } }

def companyText : String :=
  "cmd: warp { Notch } home\ncmd: warp { Alex } spawn\ncmd: warp {pal} out\n" ++
    "open: bank {pal}\nopen: bank Notch\nmsg: hi\nclose"

theorem run_touches_player_and_targets_company :
    companyMachine.functions.OnlyBuiltins ∧
      runLine (run (nestingCapacity - 1)) "cmd: warp { Notch } home" companyMachine =
        companyMachine.attempting ⟨.command 0 "warp home", .bool true⟩ ∧
      (companyMachine.run companyText).2.server.log.messages 1 = [] ∧
      ((companyMachine.run companyText).2.server.log.commands 0 = ["warp home", "warp out"] ∧
        (companyMachine.run companyText).2.server.log.commands 1 = ["warp spawn"] ∧
        (companyMachine.run companyText).2.server.log.opened = [("Alex", "bank")]) ∧
      ∃ s key, companyMachine.ComesTo companyText s ∧
        s.machine.CommandsFor s.line key "warp spawn" ∧
        companyMachine.server.online.get? key ≠ none := by
  have builtins : companyMachine.functions.OnlyBuiltins := FunctionTable.onlyBuiltins_builtins
  have logged : (companyMachine.run companyText).2.server.log.commands 0 =
        ["warp home", "warp out"] ∧
      (companyMachine.run companyText).2.server.log.commands 1 = ["warp spawn"] ∧
      (companyMachine.run companyText).2.server.log.opened = [("Alex", "bank")] := by
    decide +kernel
  have names : companyMachine.CommandsFor "cmd: warp { Notch } home" "Notch" "warp home" := by
    have states : companyMachine.statement? "cmd: warp { Notch } home" =
        some (.command ⟨"warp", some "Notch", "home"⟩) := by decide +kernel
    have resolved : PlayerCommand.resolved ⟨"warp", some "Notch", "home"⟩ companyMachine.context =
        "warp home" := by decide +kernel
    exact resolved ▸ Machine.commandsFor_of_statement? states rfl
  have offline : (companyMachine.server.online.get? "Notch").isNone = true := by decide +kernel
  have comes : companyMachine.ComesTo companyText
      ⟨nestingCapacity - 1, "cmd: warp { Notch } home", companyMachine⟩ := by
    have first : (linesOf companyText).head? = some "cmd: warp { Notch } home" := by decide +kernel
    obtain ⟨rest, lines⟩ := List.head?_eq_some_iff.1 first
    refine ⟨nestingCapacity - 1, by decide, ?_⟩
    rw [lines]
    exact .first (checkTime_of_no_limit companyMachine rfl) rfl
  obtain ⟨grows, apart, commands, -⟩ :=
    run_touches_player_and_targets companyMachine companyText builtins
  refine ⟨builtins, ?_, (apart 1 (by decide)).1, logged, ?_⟩
  · have runs := commands _ _ _ comes names
    rw [Option.isNone_iff_eq_none.1 offline, if_neg (by decide +kernel)] at runs
    exact runs
  · have mem : "warp spawn" ∈ (companyMachine.run companyText).2.server.log.commands 1 := by
      rw [logged.2.1]
      exact List.mem_singleton_self _
    obtain ⟨e, mem, shown⟩ := List.mem_filterMap.1 mem
    obtain ⟨i, found⟩ := List.mem_iff_getElem?.1 mem
    rw [Array.getElem?_toList] at found
    obtain ⟨s, comes, touches, -⟩ := grows.adds i e (Nat.zero_le i) found
    cases touches with
    | commandFor names online =>
      simp only [Option.ite_none_right_eq_some, Option.some.injEq] at shown
      obtain ⟨-, rfl⟩ := shown
      exact ⟨s, _, comes, names, by simp [online]⟩
    | _ => cases shown

end MenuScript
