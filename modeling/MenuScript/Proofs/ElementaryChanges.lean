import MenuScript.Proofs.AttemptedActions
import Mathlib.Logic.Relation

/-!
# Elementary changes of a machine

A running script changes its machine in a small number of ways, each of which has a label. Every
computation of the interpreter is a chain of such changes, whatever it is halted by. An invariant
of all runs is therefore a property that each elementary change keeps.
-/

namespace MenuScript

open Script

/-- Whether the event, if it is sent or shown to a player, is for the one in the slot. -/
def Event.IsFor (slot : Nat) : Event → Prop
  | .message receiver _ | .command receiver _ | .effect receiver _ => receiver = slot
  | .console _ | .opened .. | .closed _ | .paused _ | .missed _ => True

/-- The kinds of elementary changes. -/
inductive Label where
  /-- Something that is not an action was recorded. -/
  | told (e : Event)
  /-- An action was counted and performed. -/
  | acted (e : Event)
  /-- An action was counted and not performed. -/
  | overdrew
  | readClock
  | paused
  | drew
  | assigned
  | kept
  | opened
  | skipped
  | turned
  | closed
  | entered
  | left
  | asked (r : Request)

/-- What a request makes of the machine, unless it runs a script. -/
def Request.effect : Request → Machine → Machine
  | .tell text, m => m.logged (.message m.context.actor.slot text)
  | .setVariable name value, m => m.updated (·.set name value)
  | .removeVariable name, m => m.updated fun c => { c with bindings := c.bindings.erase name }
  | .pushData value, m => m.updated fun c => { c with data := value :: c.data }
  | .popData, m => m.updated fun c => { c with data := c.data.tail }
  | .charge, m => m.counted
  | .pushBranch taken, m => m.branching (·.push taken)
  | .popBranch, m => m.branching List.tail
  | .flipBranch, m => m.branching BranchStack.flip
  | .cancel, m => m.updated fun c => { c with cancelled := true }
  | .unregister name, m => { m with functions := m.functions.erase name }
  | .getVariable _, m | .peekData, m | .dataSize, m | .commandCount, m | .includeDepth, m
  | .lastResult, m | .branchDepth, m | .runSource _, m | .runNamed _, m => m

/-- The elementary changes. What is recorded and is no action is for the acting player. A branch
whose condition has been evaluated is only opened among lines that are run, and an inert one only
among lines that are skipped. -/
inductive Change : Label → Machine → Machine → Prop
  | told (m : Machine) (e : Event) (quiet : e.isAction = false)
      (own : e.IsFor m.context.actor.slot) : Change (.told e) m (m.logged e)
  | acted (m : Machine) (e : Event) (action : e.isAction = true)
      (paid : m.context.budget.counted.isOverdrawn = false) :
      Change (.acted e) m (m.counted.logged e)
  | overdrew (m : Machine) (unpaid : m.context.budget.counted.isOverdrawn = true) :
      Change .overdrew m m.counted
  | readClock (m : Machine) :
      Change .readClock m (m.served fun s => { s with clock := s.clock.read.2 })
  | paused (m : Machine) (nanos millis : Nat) :
      Change .paused m
        ((m.served fun s => { s with clock := s.clock.advance nanos }).logged (.paused millis))
  | drew (m : Machine) (chance : Chance) :
      Change .drew m (m.served fun s => { s with chance })
  | assigned (m : Machine) (name : String) (value : Value) :
      Change .assigned m (m.updated (·.set name value))
  | kept (m : Machine) (value : Value) : Change .kept m (m.keeping value)
  | opened (m : Machine) (taken : Bool) (running : m.context.branches.isSkipping = false) :
      Change .opened m (m.branching (·.push taken))
  | skipped (m : Machine) (skipping : m.context.branches.isSkipping = true) :
      Change .skipped m (m.branching BranchStack.pushSkipped)
  | turned (m : Machine) : Change .turned m (m.branching BranchStack.flip)
  | closed (m : Machine) : Change .closed m (m.branching List.tail)
  | entered (m : Machine) : Change .entered m m.entered
  | left (m : Machine) : Change .left m m.left
  | asked (m : Machine) (r : Request) : Change (.asked r) m (r.effect m)

/-- Elementary changes of the allowed kinds, one after another. -/
abbrev Chain (allowed : Label → Prop) : Machine → Machine → Prop :=
  Relation.ReflTransGen fun m m' => ∃ label, allowed label ∧ Change label m m'

namespace Chain

variable {allowed : Label → Prop} {m m' : Machine}

theorem single {label : Label} (c : Change label m m') (h : allowed label) : Chain allowed m m' :=
  Relation.ReflTransGen.single ⟨label, h, c⟩

theorem mono {wider : Label → Prop} (h : ∀ label, allowed label → wider label)
    (c : Chain allowed m m') : Chain wider m m' :=
  Relation.ReflTransGen.mono (fun _ _ ⟨label, hl, hc⟩ => ⟨label, h label hl, hc⟩) _ _ c

/-- What every allowed change keeps is kept by a chain of them. -/
theorem keeps {I : Machine → Prop}
    (step : ∀ {label m m'}, allowed label → Change label m m' → I m → I m')
    (c : Chain allowed m m') (h : I m) : I m' := by
  induction c with
  | refl => exact h
  | tail _ last ih =>
    obtain ⟨label, hl, hc⟩ := last
    exact step hl hc ih

end Chain

/-- What no change of any kind touches. -/
structure Machine.SameSettings (m m' : Machine) : Prop where
  config : m'.config = m.config
  library : m'.server.library = m.server.library
  online : m'.server.online = m.server.online
  actor : m'.context.actor = m.context.actor
  limit : m'.context.budget.limit = m.context.budget.limit
  timeLimit : m'.context.budget.timeLimit = m.context.budget.timeLimit

theorem Machine.SameSettings.refl (m : Machine) : m.SameSettings m := ⟨rfl, rfl, rfl, rfl, rfl, rfl⟩

theorem Machine.SameSettings.trans {m m' m'' : Machine} (h : m.SameSettings m')
    (h' : m'.SameSettings m'') : m.SameSettings m'' :=
  ⟨h'.config.trans h.config, h'.library.trans h.library, h'.online.trans h.online,
    h'.actor.trans h.actor, h'.limit.trans h.limit, h'.timeLimit.trans h.timeLimit⟩

theorem Change.sameSettings {label : Label} {m m' : Machine} (c : Change label m m') :
    m.SameSettings m' := by
  cases c with
  | asked m r => cases r <;> exact ⟨rfl, rfl, rfl, rfl, rfl, rfl⟩
  | _ => exact ⟨rfl, rfl, rfl, rfl, rfl, rfl⟩

theorem Chain.sameSettings {allowed : Label → Prop} {m m' : Machine} (c : Chain allowed m m') :
    m.SameSettings m' :=
  c.keeps (fun _ hc h => h.trans hc.sameSettings) (.refl m)

end MenuScript
