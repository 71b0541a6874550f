import MenuScript.Proofs.MachineUpdates
import Mathlib.Tactic.SplitIfs

/-!
# What a line comes to in a machine

Whether a line is performed depends on the open branches, which function it calls on the table, and
which action it attempts on the settings, the players online and the resolved text. All of this is
read off the machine before the line is begun. The equations below say that a line which attempts
an action is that action, paid for first.
-/

namespace MenuScript

open Script

/-- Whether the event is one of those that count against the budget. -/
def Event.isAction : Event → Bool
  | .command .. | .console _ | .opened .. | .closed _ => true
  | .message .. | .effect .. | .paused _ | .missed _ => false

/-- An action that is about to be performed, and the value it has if it is. -/
structure Attempt where
  event : Event
  value : Value

namespace Attempt

/-- Counts the action, and performs it if the budget allows. -/
def make (a : Attempt) : Script Value := do
  charge
  record a.event
  return a.value

theorem make_apply (a : Attempt) (m : Machine) :
    a.make m =
      if m.counted.context.budget.isOverdrawn then
        .error (.failed (.budgetExceeded m.context.budget.limit)) m.counted
      else .ok a.value (m.counted.logged a.event) := by
  rw [make, bind_apply, charge_apply]
  split_ifs
  · rfl
  · simp only [record_bind, pure_apply]

end Attempt

namespace Action

/-- The action of having a command run. -/
def command? (m : Machine) (target : Option String) (text : String) : Option Attempt :=
  if isBlankText text then none
  else some ⟨.command (recipient m target).slot text,
    .bool (recipient m target).acceptsCommands⟩

/-- The player that a menu is opened for. -/
def viewer? (m : Machine) : Option String → Option Actor
  | none => some m.context.actor
  | some name => m.server.online.get? name

/-- The action of opening a menu. -/
def menu? (m : Machine) (menu : String) (target : Option String) : Option Attempt :=
  (viewer? m target).map fun actor => ⟨.opened actor.name menu, .bool true⟩

/-- The action of closing the acting player's menu. -/
def closing (m : Machine) : Attempt := ⟨.closed m.context.actor.name, .bool true⟩

/-- The action of having the console run a command. -/
def console? (m : Machine) (command : String) : Option Attempt :=
  if m.config.allowConsole && !isBlankText command then some ⟨.console command, .bool true⟩
  else none

variable (m : Machine)

theorem runCommand_of_some {target : Option String} {text : String} {a : Attempt}
    (h : command? m target text = some a) : runCommand target text m = a.make m := by
  simp only [command?] at h
  split_ifs at h with hb
  cases h
  simp only [runCommand, hb, Bool.false_eq_true, if_false, get_bind, Attempt.make]

theorem runCommand_of_none {target : Option String} {text : String}
    (h : command? m target text = none) : runCommand target text m = .ok (.bool false) m := by
  simp only [command?] at h
  split_ifs at h with hb
  simp [runCommand, hb]

theorem openMenu_of_some {menu : String} {target : Option String} {a : Attempt}
    (h : menu? m menu target = some a) : openMenu menu target m = a.make m := by
  obtain ⟨actor, hactor, rfl⟩ := Option.map_eq_some_iff.mp h
  cases target with
  | none =>
    cases hactor
    rw [openMenu, get_bind, Attempt.make]
  | some name =>
    simp only [viewer?] at hactor
    simp only [openMenu, get_bind, hactor, Attempt.make]

theorem openMenu_of_none {menu : String} {target : Option String}
    (h : menu? m menu target = none) : openMenu menu target m = .ok (.bool false) m := by
  have hactor := Option.map_eq_none_iff.mp h
  cases target with
  | none => cases hactor
  | some name =>
    simp only [viewer?] at hactor
    simp [openMenu, hactor]

theorem closeMenu_apply : closeMenu m = (closing m).make m := by
  rw [closeMenu, bind_apply, charge_apply, Attempt.make_apply]
  split_ifs
  · rfl
  · simp only [context_bind, record_bind, pure_apply, closing, Machine.counted_actor]

theorem runConsole_of_some {command : String} {a : Attempt}
    (h : console? m command = some a) : runConsole command m = a.make m := by
  simp only [console?] at h
  split_ifs at h with hc
  cases h
  simp only [Bool.and_eq_true, Bool.not_eq_true'] at hc
  simp only [runConsole, get_bind, hc.1, hc.2, Bool.not_true, Bool.false_eq_true, if_false,
    Attempt.make]

theorem runConsole_of_none {command : String} (h : console? m command = none) :
    runConsole command m = .ok (.bool false) m ∨
      ∃ text, runConsole command m =
        .ok (.bool false) (m.logged (.message m.context.actor.slot text)) := by
  simp only [console?] at h
  split_ifs at h with hc
  cases ha : m.config.allowConsole with
  | false => exact Or.inr ⟨_, by simp [runConsole, ha]; rfl⟩
  | true =>
    have hb : isBlankText command = true := by simpa [ha] using hc
    exact Or.inl (by simp [runConsole, ha, hb])

end Action

/-- The action that a call of a function attempts. -/
def Builtin.attempt? (m : Machine) : Builtin → List Value → Option Attempt
  | .command, args => Action.command? m none (Value.joined args)
  | .openMenu, menu :: rest => Action.menu? m menu.text (rest.head?.map Value.text)
  | .closeMenu, _ => some (Action.closing m)
  | .console, args => Action.console? m (Value.joined args)
  | _, _ => none

/-- The text that a player command runs in a context. -/
def PlayerCommand.resolved (line : PlayerCommand) (c : Context) : String :=
  if line.trailing.isEmpty then c.resolve line.command
  else c.resolve line.command ++ " " ++ c.resolve line.trailing

namespace Statement

/-- The function that a statement calls, with the values it is given. -/
def called? (m : Machine) : Statement → Option (Callable × List Value)
  | .call function arguments =>
    (m.functions.get? function).map fun f =>
      (f, arguments.map fun a => .string (m.context.resolve a))
  | _ => none

/-- The action that a statement attempts. -/
def attempt? (m : Machine) : Statement → Option Attempt
  | .command line => Action.command? m line.target (line.resolved m.context)
  | .openMenu menu target =>
    Action.menu? m (m.context.resolve menu) (target.map m.context.resolve)
  | .closeMenu => some (Action.closing m)
  | .console text => Action.console? m (m.context.resolve text)
  | .call function arguments =>
    match (Statement.call function arguments).called? m with
    | some (.builtin b, args) => b.attempt? m args
    | _ => none
  | _ => none

variable (m : Machine) (nested : String → Script Value)

theorem perform_command (line : PlayerCommand) :
    (Statement.command line).perform nested m =
      Action.runCommand line.target (line.resolved m.context) m := by
  rw [perform, resolve_bind, PlayerCommand.resolved]
  split_ifs
  · rfl
  · rw [resolve_bind]

theorem perform_openMenu (menu : String) (target : Option String) :
    (Statement.openMenu menu target).perform nested m =
      Action.openMenu (m.context.resolve menu) (target.map m.context.resolve) m := by
  rw [perform, context_bind]

theorem perform_console (text : String) :
    (Statement.console text).perform nested m =
      Action.runConsole (m.context.resolve text) m := by
  rw [perform, resolve_bind]

theorem perform_call_of_none {function : String} {arguments : List String}
    (h : m.functions.get? function = none) :
    (Statement.call function arguments).perform nested m =
      .error (.failed (.functionNotFound function)) m := by
  simp [perform, h]

theorem perform_of_called? {s : Statement} {f : Callable} {args : List Value}
    (h : s.called? m = some (f, args)) : s.perform nested m = f.call nested args m := by
  cases s with
  | call function arguments =>
    obtain ⟨g, hg, heq⟩ := Option.map_eq_some_iff.mp h
    cases heq
    simp only [perform, get_bind, hg]
  | _ => cases h

end Statement

section Includes

variable {m : Machine} (nested : String → Script Value) {name source : String}

theorem runIncluded_of_missing (h : m.server.library.load? name = none) :
    runIncluded nested name m = .ok (.bool false) (m.logged (.missed name)) := by
  simp only [runIncluded, get_bind, h, record_bind, pure_apply]

theorem runIncluded_of_full (h : m.server.library.load? name = some source) (full : m.isFull) :
    runIncluded nested name m =
      .error (.failed (.includeTooDeep m.config.maxIncludeDepth)) m := by
  have hfull : 0 < m.config.maxIncludeDepth ∧
    m.config.maxIncludeDepth.toNat ≤ m.context.includeDepth := full
  simp only [runIncluded, get_bind, h, hfull, and_self, if_true, fail_bind]

theorem runIncluded_of_room (h : m.server.library.load? name = some source) (room : ¬ m.isFull) :
    runIncluded nested name m =
      match nested source m.entered with
      | .ok _ m' => .ok (.bool true) m'.left
      | .error e m' => .error e m'.left := by
  have hroom : ¬ (0 < m.config.maxIncludeDepth ∧
    m.config.maxIncludeDepth.toNat ≤ m.context.includeDepth) := room
  simp only [runIncluded, get_bind, h, hroom, if_false]
  rw [bind_apply, deeper_apply]
  cases nested source m.entered <;> rfl

end Includes

theorem Builtin.call_of_attempt? {m : Machine} {b : Builtin} {args : List Value} {a : Attempt}
    (nested : String → Script Value) (h : b.attempt? m args = some a) :
    b.call nested args m = a.make m := by
  cases b with
  | command => simpa only [Builtin.call] using Action.runCommand_of_some m h
  | openMenu =>
    cases args with
    | nil => cases h
    | cons menu rest => simpa only [Builtin.call] using Action.openMenu_of_some m h
  | closeMenu =>
    cases h
    simpa only [Builtin.call] using Action.closeMenu_apply m
  | console => simpa only [Builtin.call] using Action.runConsole_of_some m h
  | _ => simp [Builtin.attempt?] at h

/-- A statement that attempts an action is that action. -/
theorem Statement.perform_of_attempt? {m : Machine} {s : Statement} {a : Attempt}
    (nested : String → Script Value) (h : s.attempt? m = some a) :
    s.perform nested m = a.make m := by
  cases s with
  | command line =>
    rw [perform_command]
    exact Action.runCommand_of_some m h
  | openMenu menu target =>
    rw [perform_openMenu]
    exact Action.openMenu_of_some m h
  | closeMenu =>
    cases h
    rw [perform]
    exact Action.closeMenu_apply m
  | console text =>
    rw [perform_console]
    exact Action.runConsole_of_some m h
  | call function arguments =>
    simp only [attempt?] at h
    split at h
    · rename_i b args hc
      rw [perform_of_called? m nested hc]
      exact Builtin.call_of_attempt? nested h
    · cases h
  | _ => cases h

theorem Action.isAction_of_command? {m : Machine} {target : Option String} {text : String}
    {a : Attempt} (h : command? m target text = some a) : a.event.isAction = true := by
  simp only [command?] at h
  split_ifs at h
  cases h
  rfl

theorem Action.isAction_of_menu? {m : Machine} {menu : String} {target : Option String}
    {a : Attempt} (h : menu? m menu target = some a) : a.event.isAction = true := by
  obtain ⟨actor, -, rfl⟩ := Option.map_eq_some_iff.mp h
  rfl

theorem Action.isAction_of_console? {m : Machine} {command : String} {a : Attempt}
    (h : console? m command = some a) : a.event.isAction = true := by
  simp only [console?] at h
  split_ifs at h
  cases h
  rfl

theorem Builtin.isAction_of_attempt? {m : Machine} {b : Builtin} {args : List Value} {a : Attempt}
    (h : b.attempt? m args = some a) : a.event.isAction = true := by
  cases b with
  | command => exact Action.isAction_of_command? h
  | openMenu =>
    cases args with
    | nil => cases h
    | cons menu rest => exact Action.isAction_of_menu? h
  | closeMenu =>
    cases h
    rfl
  | console => exact Action.isAction_of_console? h
  | _ => simp [Builtin.attempt?] at h

theorem Statement.isAction_of_attempt? {m : Machine} {s : Statement} {a : Attempt}
    (h : s.attempt? m = some a) : a.event.isAction = true := by
  cases s with
  | command line => exact Action.isAction_of_command? h
  | openMenu menu target => exact Action.isAction_of_menu? h
  | closeMenu =>
    cases h
    rfl
  | console text => exact Action.isAction_of_console? h
  | call function arguments =>
    simp only [attempt?] at h
    split at h
    · exact Builtin.isAction_of_attempt? h
    · cases h
  | _ => cases h

/-- The name of the script that a call includes. -/
def Callable.included? : Callable → List Value → Option String
  | .builtin .includeScript, name :: _ => some name.text
  | _, _ => none

theorem Callable.eq_of_included? {f : Callable} {args : List Value} {name : String}
    (names : f.included? args = some name) :
    ∃ value rest, f = .builtin .includeScript ∧ args = value :: rest ∧ name = value.text := by
  cases f with
  | routine body => cases names
  | builtin b =>
    cases args with
    | nil => cases b <;> cases names
    | cons value rest =>
      cases b with
      | includeScript => exact ⟨value, rest, rfl, rfl, (Option.some.inj names).symm⟩
      | _ => cases names

/-- What a physical line does to the branches if it is skipped. -/
def BranchStack.track (line : String) (branches : BranchStack) : BranchStack :=
  match Statement.read? (trimmed line) with
  | none => branches
  | some s => s.skip branches

namespace Machine

/-- The statement that a physical line has the machine perform. There is none if the line says
nothing, is skipped or cannot be read. -/
def statement? (m : Machine) (line : String) : Option Statement :=
  if isIgnorable (trimmed line) || m.context.branches.isSkipping then none
  else Statement.read? (trimmed line)

/-- The function that a physical line calls, with the values it is given. -/
def called? (m : Machine) (line : String) : Option (Callable × List Value) :=
  (m.statement? line).bind (·.called? m)

/-- The action that a physical line attempts. -/
def attempt? (m : Machine) (line : String) : Option Attempt :=
  (m.statement? line).bind (·.attempt? m)

/-- The name of the script that a physical line includes. -/
def included? (m : Machine) (line : String) : Option String :=
  (m.called? line).bind fun call => call.1.included? call.2

end Machine

section Lines

variable {m : Machine} (nested : String → Script Value) {line : String}

theorem runLine_of_ignorable (h : isIgnorable (trimmed line) = true) :
    runLine nested line m = .ok () m := by
  simp only [runLine, h, if_true, pure_apply]

theorem runLine_of_skipping (said : isIgnorable (trimmed line) = false)
    (skipping : m.context.branches.isSkipping = true) :
    runLine nested line m = .ok () (m.branching (BranchStack.track line)) := by
  simp only [runLine, said, Bool.false_eq_true, if_false, context_bind, skipping, if_true]
  cases hread : Statement.read? (trimmed line) with
  | none =>
    have same : m.branching (BranchStack.track line) = m :=
      Machine.branching_self m (by simp only [BranchStack.track, hread])
    exact congrArg (EStateM.Result.ok ()) same.symm
  | some s =>
    simp only [modifyContext_apply, Machine.branching, BranchStack.track, hread]

theorem runLine_of_unreadable (said : isIgnorable (trimmed line) = false)
    (running : m.context.branches.isSkipping = false)
    (unread : Statement.read? (trimmed line) = none) :
    runLine nested line m = .error (.failed (.unknownCommand (trimmed line))) m := by
  simp only [runLine, said, Bool.false_eq_true, if_false, context_bind, running, runStatement,
    Statement.read, unread, fail_apply]

theorem runLine_of_statement? {s : Statement} (h : m.statement? line = some s) :
    runLine nested line m =
      match s.perform nested m with
      | .ok value m' => .ok () (m'.keeping value)
      | .error e m' => .error e m' := by
  simp only [Machine.statement?] at h
  split_ifs at h with hskip
  simp only [Bool.or_eq_true, not_or, Bool.not_eq_true] at hskip
  simp only [runLine, hskip.1, Bool.false_eq_true, if_false, context_bind, hskip.2, runStatement,
    Statement.read, h]
  rw [bind_apply]
  cases s.perform nested m <;> rfl

theorem Machine.statement?_of_called? {f : Callable} {args : List Value}
    (h : m.called? line = some (f, args)) :
    ∃ s, m.statement? line = some s ∧ s.called? m = some (f, args) :=
  Option.bind_eq_some_iff.mp h

theorem Machine.get?_of_called? {line : String} {f : Callable} {args : List Value}
    (h : m.called? line = some (f, args)) : ∃ name, m.functions.get? name = some f := by
  obtain ⟨s, -, hs⟩ := Machine.statement?_of_called? h
  cases s with
  | call function arguments =>
    obtain ⟨g, hg, heq⟩ := Option.map_eq_some_iff.mp hs
    cases heq
    exact ⟨function, hg⟩
  | _ => cases hs

theorem Machine.called?_of_included? {name : String} (h : m.included? line = some name) :
    ∃ value rest, m.called? line = some (.builtin .includeScript, value :: rest) ∧
      name = value.text := by
  obtain ⟨⟨f, args⟩, hcall, hname⟩ := Option.bind_eq_some_iff.mp h
  obtain ⟨value, rest, rfl, rfl, rfl⟩ := Callable.eq_of_included? hname
  exact ⟨value, rest, hcall, rfl⟩

/-- A line that attempts an action fails if that overdraws the budget, and performs it if not. -/
theorem runLine_of_attempt? {a : Attempt} (h : m.attempt? line = some a) :
    runLine nested line m =
      if m.context.budget.counted.isOverdrawn then
        .error (.failed (.budgetExceeded m.context.budget.limit)) m.counted
      else .ok () ((m.counted.logged a.event).keeping a.value) := by
  obtain ⟨s, hs, ha⟩ := Option.bind_eq_some_iff.mp h
  rw [runLine_of_statement? nested hs, Statement.perform_of_attempt? nested ha, a.make_apply,
    Machine.counted_budget]
  split_ifs <;> rfl

theorem runLine_of_included? {name : String} (h : m.included? line = some name) :
    runLine nested line m =
      match runIncluded nested name m with
      | .ok value m' => .ok () (m'.keeping value)
      | .error e m' => .error e m' := by
  obtain ⟨value, rest, hcall, rfl⟩ := Machine.called?_of_included? h
  obtain ⟨s, hs, hsc⟩ := Machine.statement?_of_called? hcall
  rw [runLine_of_statement? nested hs, Statement.perform_of_called? m nested hsc, Callable.call,
    Builtin.call]

/-- The four things that can become of a line. -/
theorem runLine_cases (m : Machine) (line : String) :
    isIgnorable (trimmed line) = true ∨
      (isIgnorable (trimmed line) = false ∧ m.context.branches.isSkipping = true) ∨
      (isIgnorable (trimmed line) = false ∧ m.context.branches.isSkipping = false ∧
        Statement.read? (trimmed line) = none) ∨
      ∃ s, m.statement? line = some s := by
  cases hi : isIgnorable (trimmed line) with
  | true => exact Or.inl rfl
  | false =>
    cases hs : m.context.branches.isSkipping with
    | true => exact Or.inr (Or.inl ⟨rfl, rfl⟩)
    | false =>
      cases hr : Statement.read? (trimmed line) with
      | none => exact Or.inr (Or.inr (Or.inl ⟨rfl, rfl, rfl⟩))
      | some s => exact Or.inr (Or.inr (Or.inr ⟨s, by simp [Machine.statement?, hi, hs, hr]⟩))

theorem Machine.read?_of_statement? {s : Statement} (h : m.statement? line = some s) :
    Statement.read? (trimmed line) = some s := by
  simp only [Machine.statement?] at h
  split_ifs at h
  exact h

theorem Machine.not_skipping_of_statement? {s : Statement} (h : m.statement? line = some s) :
    m.context.branches.isSkipping = false := by
  simp only [Machine.statement?] at h
  split_ifs at h with hskip
  simp only [Bool.or_eq_true, not_or, Bool.not_eq_true] at hskip
  exact hskip.2

end Lines

end MenuScript
