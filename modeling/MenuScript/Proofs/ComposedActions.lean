import MenuScript.Proofs.ElementaryChanges

/-!
# What actions are composed of

Calls of built-in functions and statements are put together from seven kinds of steps, and each may
take only those of a short list. Between its steps a computation looks at the acting player, the
variables, the branches, the players online and the console setting, and at nothing else. So what
holds of every step, and of every computation that goes on from such a look, holds of all calls and
statements but those that run a script.
-/

namespace MenuScript

open Script

/-- The kinds of steps. -/
inductive Step where
  | fail (e : ScriptError)
  /-- An action is counted, and performed if the budget allows. -/
  | act
  /-- Something is recorded for the acting player. -/
  | tell
  | assign
  | branch
  | draw
  | pause
  deriving DecidableEq

/-- The machine with the parts alone that a computation looks at between its steps. -/
def Machine.seen (m : Machine) : Machine where
  config := { allowConsole := m.config.allowConsole }
  server := { online := m.server.online }
  context :=
    { actor := m.context.actor, bindings := m.context.bindings, branches := m.context.branches,
      budget := ⟨0, 0, 0, none⟩ }

/-- Computations that are composed of the listed steps. -/
inductive Composed (steps : List Step) : {α : Type} → Script α → Prop
  | pure {α : Type} (a : α) : Composed steps (pure a : Script α)
  | fail {α : Type} {e : ScriptError} (h : .fail e ∈ steps) : Composed steps (fail e : Script α)
  | act (a : Attempt) (h : .act ∈ steps) : Composed steps a.make
  | tell (e : Nat → Event) (quiet : ∀ slot, (e slot).isAction = false)
      (own : ∀ slot, (e slot).IsFor slot) (h : .tell ∈ steps) :
      Composed steps (context >>= fun c => record (e c.actor.slot))
  | assign (name : String) (value : Value) (h : .assign ∈ steps) :
      Composed steps (modifyContext (·.set name value))
  | branch (f : BranchStack → BranchStack) (h : .branch ∈ steps) :
      Composed steps (modifyContext fun c => { c with branches := f c.branches })
  | draw (least greatest : Int) (h : .draw ∈ steps) : Composed steps (draw least greatest)
  | pause (millis : Nat) (h : .pause ∈ steps) : Composed steps (modifyServer (·.pause millis))
  | look {α : Type} {x : Script α} (y : Machine → Script α) (comes : ∀ m, x m = y m.seen m)
      (rest : ∀ m, Composed steps (y m)) : Composed steps x
  | bind {α β : Type} {x : Script α} {f : α → Script β} (first : Composed steps x)
      (rest : ∀ a, Composed steps (f a)) : Composed steps (x >>= f)

namespace Composed

variable {α β : Type} {steps : List Step} {x : Script α}

theorem of_seen (comes : ∀ m : Machine, ∃ y, Composed steps y ∧
    ∀ m' : Machine, m'.seen = m.seen → x m' = y m') : Composed steps x :=
  .look (fun m => (comes m).choose) (fun m => (comes m.seen).choose_spec.2 m rfl)
    fun m => (comes m).choose_spec.1

theorem get_bind {g : Machine → Script β} (blind : ∀ m, g m.seen = g m)
    (rest : ∀ m, Composed steps (g m)) : Composed steps (get >>= g) := by
  refine .look g (fun m => ?_) rest
  rw [Script.get_bind, blind]

theorem context_bind {g : Context → Script β}
    (blind : ∀ m : Machine, g m.seen.context = g m.context)
    (rest : ∀ c, Composed steps (g c)) : Composed steps (context >>= g) :=
  get_bind blind fun m => rest m.context

theorem resolve_bind {g : String → Script β} (text : String) (rest : ∀ s, Composed steps (g s)) :
    Composed steps (resolve text >>= g) :=
  context_bind (fun _ => rfl) fun c => rest (c.resolve text)

theorem message (told : .tell ∈ steps) (text : String) : Composed steps (Script.tell text) :=
  .tell (.message · text) (fun _ => rfl) (fun _ => rfl) told

theorem refuse (told : .tell ∈ steps) (r : Refusal) : Composed steps (refuse r) :=
  .bind (message told _) fun _ => .pure _

end Composed

section Actions

variable {steps : List Step}

theorem runCommand_composed (acts : .act ∈ steps) (target : Option String) (text : String) :
    Composed steps (Action.runCommand target text) := by
  rw [Action.runCommand]
  split_ifs
  · exact .pure _
  · exact .get_bind (fun _ => rfl) fun m => .act ⟨_, _⟩ acts

theorem openMenu_composed (acts : .act ∈ steps) (menu : String) (target : Option String) :
    Composed steps (Action.openMenu menu target) := by
  refine .get_bind (fun _ => rfl) fun m => ?_
  dsimp only
  split
  · exact .pure _
  · exact .act ⟨_, _⟩ acts

theorem closeMenu_composed (acts : .act ∈ steps) : Composed steps Action.closeMenu :=
  .look (fun m => (Action.closing m).make) Action.closeMenu_apply fun _ => .act _ acts

theorem runConsole_composed (acts : .act ∈ steps) (told : .tell ∈ steps) (command : String) :
    Composed steps (Action.runConsole command) := by
  refine .get_bind (fun _ => rfl) fun m => ?_
  split_ifs
  · exact .refuse told _
  · exact .pure _
  · exact .act ⟨_, _⟩ acts

theorem sendMessage_composed (told : .tell ∈ steps) (text : String) :
    Composed steps (Action.sendMessage text) :=
  .bind (.message told text) fun _ => .pure _

theorem hasPermission_composed (permission : String) :
    Composed steps (Action.hasPermission permission) :=
  .context_bind (fun _ => rfl) fun _ => .pure _

theorem assign_composed (assigns : .assign ∈ steps) (name : String) (value : Value) :
    Composed steps (Action.assign name value) :=
  .bind (.assign name value assigns) fun _ => .pure _

theorem applyMath_composed (fails : .fail .divisionByZero ∈ steps) (assigns : .assign ∈ steps)
    (name : String) (op : MathOp) (operand : String) :
    Composed steps (Action.applyMath name op operand) := by
  refine .context_bind (fun _ => rfl) fun c => ?_
  split
  · exact .pure _
  · split_ifs
    · exact .bind (.fail fails) fun _ => assign_composed assigns _ _
    · exact assign_composed assigns _ _

theorem storeRandom_composed (draws : .draw ∈ steps) (assigns : .assign ∈ steps)
    (name least greatest : String) : Composed steps (Action.storeRandom name least greatest) := by
  rw [Action.storeRandom]
  split
  · exact .pure _
  · exact .bind (.draw _ _ draws) fun _ => assign_composed assigns _ _

theorem delay_composed (pauses : .pause ∈ steps) (millis : String) :
    Composed steps (Action.delay millis) := by
  rw [Action.delay]
  split
  · exact .pure _
  · split_ifs
    · exact .bind (.pause _ pauses) fun _ => .pure _
    · exact .pure _

theorem colours_composed (draws : .draw ∈ steps) (p : Presentation) (args : List Value) :
    Composed steps (p.colours args) := by
  have colour : Composed steps Presentation.drawColour :=
    .bind (.draw _ _ draws) fun _ => .bind (.draw _ _ draws) fun _ =>
      .bind (.draw _ _ draws) fun _ => .pure _
  rw [Presentation.colours]
  split_ifs
  · exact .bind colour fun _ => .bind colour fun _ => .pure _
  · exact .pure _

theorem presentation_composed (draws : .draw ∈ steps) (told : .tell ∈ steps) (p : Presentation)
    (args : List Value) : Composed steps (p.run args) := by
  refine .bind (colours_composed draws p args) fun colours => ?_
  split
  · exact .refuse told _
  · exact .pure _
  · rename_i e _
    -- the event names the slot of the player whose stage has been looked at
    refine .of_seen fun m => ?_
    have actor : ∀ m' : Machine, m'.seen = m.seen → m'.context.actor = m.context.actor :=
      fun m' seen => congrArg (·.context.actor) seen
    cases received : m.context.actor.stage.receive e with
    | error r =>
      refine ⟨_, .bind (.message told (Presentation.excuse e r)) fun _ => .pure (.bool false), ?_⟩
      intro m' seen
      simp only [context_bind, actor m' seen, received]
    | ok shown =>
      cases shown with
      | none =>
        refine ⟨_, .pure (.bool true), fun m' seen => ?_⟩
        simp only [context_bind, actor m' seen, received]
      | some effect =>
        have recorded := Composed.tell (.effect · effect) (fun _ => rfl) (fun _ => rfl) told
        refine ⟨_, .bind recorded fun _ => .pure (.bool true), fun m' seen => ?_⟩
        simp only [context_bind, actor m' seen, received]
        rw [← actor m' seen]
        rfl

theorem popBranch_composed (fails : .fail (.stackUnderflow .condition) ∈ steps)
    (branches : .branch ∈ steps) : Composed steps popBranch := by
  refine .context_bind (fun _ => rfl) fun c => ?_
  split
  · exact .fail fails
  · exact .bind (.branch (fun _ => _) branches) fun _ => .pure _

theorem flipBranch_composed (branches : .branch ∈ steps) : Composed steps flipBranch :=
  .context_bind (fun _ => rfl) fun _ => .bind (.branch BranchStack.flip branches) fun _ => .pure _

end Actions

namespace Builtin

/-- What a call of `math` is about: a variable, an operation and the text of an operand. -/
def arithmetic? : Builtin → List Value → Option (String × MathOp × String)
  | .math, name :: op :: operand :: _ =>
    (MathOp.ofSymbol? op.text).map fun op => (name.text, op, operand.text)
  | _, _ => none

/-- The steps that a call may take. An include takes those of the script, which are not listed. -/
def steps : Builtin → List Value → List Step
  | .command, _ | .openMenu, _ | .closeMenu, _ => [.act]
  | .console, _ => [.act, .tell]
  | .message, _ => [.tell]
  | .assign, _ :: _ :: _ => [.assign]
  | .math, args => if (arithmetic? .math args).isSome then [.fail .divisionByZero, .assign] else []
  | .random, _ :: _ :: _ :: _ => [.draw, .assign]
  | .delay, _ => [.pause]
  | .present _, _ => [.draw, .tell]
  | _, _ => []

variable {b : Builtin} {args : List Value} {m : Machine} (nested : String → Script Value)

theorem call_of_included? {name : String}
    (names : Callable.included? (.builtin b) args = some name) :
    b.call nested args = runIncluded nested name := by
  obtain ⟨value, rest, same, rfl, rfl⟩ := Callable.eq_of_included? names
  cases same
  rfl

theorem call_of_arithmetic? {name operand : String} {op : MathOp}
    (reckons : b.arithmetic? args = some (name, op, operand)) :
    b.call nested args = Action.applyMath name op operand := by
  simp only [arithmetic?] at reckons
  split at reckons
  · obtain ⟨op', reads, same⟩ := Option.map_eq_some_iff.1 reckons
    cases same
    simp only [Builtin.call, reads]
  · cases reckons

private theorem call_math_of_none (reckons : arithmetic? .math args = none) :
    Builtin.math.call nested args = pure (.bool false) := by
  rcases args with _ | ⟨name, _ | ⟨op, _ | ⟨operand, rest⟩⟩⟩
  · rfl
  · rfl
  · rfl
  · have unread : MathOp.ofSymbol? op.text = none := Option.map_eq_none_iff.1 reckons
    simp only [Builtin.call, unread]

theorem arithmetic?_of_fail_mem {e : ScriptError} (mem : .fail e ∈ b.steps args) :
    (b.arithmetic? args).isSome = true := by
  rw [steps.eq_def] at mem
  split at mem <;> grind

/-- Unless it includes a script, a call is composed of its steps. -/
theorem call_composed (plain : Callable.included? (.builtin b) args = none) :
    Composed (b.steps args) (b.call nested args) := by
  cases b with
  | command => exact runCommand_composed (by simp [steps]) _ _
  | openMenu =>
    cases args with
    | nil => exact .pure _
    | cons menu rest => exact openMenu_composed (by simp [steps]) _ _
  | closeMenu => exact closeMenu_composed (by simp [steps])
  | message =>
    cases args with
    | nil => exact .pure _
    | cons value rest => exact sendMessage_composed (by simp [steps]) _
  | console => exact runConsole_composed (by simp [steps]) (by simp [steps]) _
  | permission =>
    cases args with
    | nil => exact .pure _
    | cons wanted rest => exact hasPermission_composed _
  | assign =>
    rcases args with _ | ⟨name, _ | ⟨value, _ | ⟨more, rest⟩⟩⟩
    · exact .pure _
    · exact .pure _
    · exact assign_composed (by simp [steps]) _ _
    · exact assign_composed (by simp [steps]) _ _
  | math =>
    cases reckons : arithmetic? .math args with
    | none =>
      rw [call_math_of_none nested reckons]
      exact .pure _
    | some reckoning =>
      rw [call_of_arithmetic? nested reckons]
      exact applyMath_composed (by simp [steps, reckons]) (by simp [steps, reckons]) _ _ _
  | random =>
    rcases args with _ | ⟨name, _ | ⟨least, _ | ⟨greatest, rest⟩⟩⟩
    · exact .pure _
    · exact .pure _
    · exact .pure _
    · exact storeRandom_composed (by simp [steps]) (by simp [steps]) name.text least.text
        greatest.text
  | delay =>
    cases args with
    | nil => exact .pure _
    | cons millis rest => exact delay_composed (by simp [steps]) millis.text
  | includeScript =>
    cases args with
    | nil => exact .pure _
    | cons name rest => cases plain
  | present p => exact presentation_composed (by simp [steps]) (by simp [steps]) p args

/-- A call that could act and attempts nothing has the value false, and the player may be told. -/
theorem call_of_unattempted (acts : .act ∈ b.steps args) (idle : b.attempt? m args = none) :
    b.call nested args m = .ok (.bool false) m ∨
      ∃ text, b.call nested args m =
        .ok (.bool false) (m.logged (.message m.context.actor.slot text)) := by
  cases b with
  | command => exact Or.inl (Action.runCommand_of_none m idle)
  | openMenu =>
    cases args with
    | nil => exact Or.inl rfl
    | cons menu rest => exact Or.inl (Action.openMenu_of_none m idle)
  | closeMenu => cases idle
  | console => exact Action.runConsole_of_none m idle
  | assign => rcases args with _ | ⟨name, _ | ⟨value, rest⟩⟩ <;> simp [steps] at acts
  | random =>
    rcases args with _ | ⟨name, _ | ⟨least, _ | ⟨greatest, rest⟩⟩⟩ <;> simp [steps] at acts
  | _ => simp [steps] at acts

end Builtin

namespace Statement

/-- The steps that a statement may take. A call takes those of the function, which are not
listed. -/
def steps : Statement → List Step
  | .ifHolds _ | .otherwise => [.branch]
  | .endIf => [.fail (.stackUnderflow .condition), .branch]
  | .command _ | .openMenu .. | .closeMenu => [.act]
  | .console _ => [.act, .tell]
  | .message _ => [.tell]
  | .assign .. => [.assign]
  | .math .. => [.fail .divisionByZero, .assign]
  | .random .. => [.draw, .assign]
  | .delay _ => [.pause]
  | .loop _ | .endLoop | .leaveLoop | .nextTurn | .permission _ | .call .. => []

variable {s : Statement} {m : Machine} (nested : String → Script Value)

/-- Unless it is a call, a statement is composed of its steps. -/
theorem perform_composed (uncalled : ∀ function arguments, s ≠ .call function arguments) :
    Composed s.steps (s.perform nested) := by
  cases s with
  | ifHolds condition =>
    exact .context_bind (fun _ => rfl) fun c =>
      .bind (.branch (·.push (c.holds condition)) (by simp [steps])) fun _ => .pure _
  | otherwise => exact .bind (flipBranch_composed (by simp [steps])) fun _ => .pure _
  | endIf =>
    exact .bind (popBranch_composed (by simp [steps]) (by simp [steps])) fun _ => .pure _
  | loop | endLoop | leaveLoop | nextTurn => exact .pure _
  | command line =>
    refine .resolve_bind _ fun text => ?_
    split_ifs
    · exact runCommand_composed (by simp [steps]) _ _
    · exact .resolve_bind _ fun _ => runCommand_composed (by simp [steps]) _ _
  | openMenu menu target =>
    exact .context_bind (fun _ => rfl) fun _ => openMenu_composed (by simp [steps]) _ _
  | closeMenu => exact closeMenu_composed (by simp [steps])
  | message text => exact .resolve_bind _ fun _ => sendMessage_composed (by simp [steps]) _
  | console text =>
    exact .resolve_bind _ fun _ => runConsole_composed (by simp [steps]) (by simp [steps]) _
  | permission name => exact .resolve_bind _ fun _ => hasPermission_composed _
  | assign name value => exact .resolve_bind _ fun _ => assign_composed (by simp [steps]) _ _
  | math name op operand =>
    exact .resolve_bind _ fun _ => applyMath_composed (by simp [steps]) (by simp [steps]) _ _ _
  | random name least greatest =>
    exact .context_bind (fun _ => rfl) fun _ =>
      storeRandom_composed (by simp [steps]) (by simp [steps]) _ _ _
  | delay millis => exact .resolve_bind _ fun _ => delay_composed (by simp [steps]) _
  | call function arguments => exact absurd rfl (uncalled function arguments)

/-- A statement that could act and attempts nothing has the value false, and the player may be
told. -/
theorem perform_of_unattempted (acts : .act ∈ s.steps) (idle : s.attempt? m = none) :
    s.perform nested m = .ok (.bool false) m ∨
      ∃ text, s.perform nested m =
        .ok (.bool false) (m.logged (.message m.context.actor.slot text)) := by
  cases s with
  | command line =>
    rw [perform_command]
    exact Or.inl (Action.runCommand_of_none m idle)
  | openMenu menu target =>
    rw [perform_openMenu]
    exact Or.inl (Action.openMenu_of_none m idle)
  | closeMenu => cases idle
  | console text =>
    rw [perform_console]
    exact Action.runConsole_of_none m idle
  | _ => simp [steps] at acts

end Statement

end MenuScript
