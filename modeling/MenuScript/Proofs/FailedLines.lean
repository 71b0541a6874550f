import MenuScript.Proofs.BoundedIncludes
import MenuScript.Proofs.BudgetHistories
import MenuScript.Proofs.LineArrivals
import MenuScript.Proofs.LineFaults

/-!
# Runs that fail

A line finds out whether it fails before it does anything, and so does an include that is refused.
So a run that fails leaves what was there just before the line that failed, in whichever script that
line stands: only the clock may have been read, and an action that was refused has been counted, as
far as counting goes. The lines at which a run fails are exactly those that are late or have one of
the faults.
-/

namespace MenuScript

open Script

/-- Whether the line divides by zero: the number of a variable, or zero if it has none. -/
def Machine.DividesByZero (m : Machine) (line : String) : Prop :=
  ∃ s name op operand, m.statement? line = some s ∧ s.arithmetic? m = some (name, op, operand) ∧
    MenuScript.DividesByZero m.context name op operand

/-- What a line that fails leaves as it was. -/
structure Machine.LeftAlone (m m' : Machine) : Prop where
  bindings : m'.context.bindings = m.context.bindings
  data : m'.context.data = m.context.data
  branches : m'.context.branches = m.context.branches
  result : m'.context.result = m.context.result
  cancelled : m'.context.cancelled = m.context.cancelled
  log : m'.server.log = m.server.log

section Causes

variable {m : Machine} {s : LineStart} {e : ScriptError} {source : String}

private theorem Machine.run_fails_iff (hb : m.functions.OnlyBuiltins) :
    (m.run source).1 = .error (.failed e) ↔ ∃ s, m.ArrivesByIncludes source s ∧ s.Breaks e := by
  constructor
  · intro fails
    obtain ⟨depth, capacity⟩ := nestingCapacity_eq_succ
    have ends : m.run source = (.error (.failed e), (m.run source).2) := Prod.ext fails rfl
    rw [run_eq_runLines capacity, perform_eq_error_iff] at ends
    obtain ⟨s, arrives, breaks⟩ := Arrives.of_failure hb ends
    exact ⟨s, ⟨depth, capacity, arrives⟩, breaks⟩
  · rintro ⟨s, arrives, breaks⟩
    rw [arrives.run_eq breaks.halts]

private theorem Machine.leftAlone_faulted (m : Machine) (e : ScriptError) (depth : Nat) :
    m.LeftAlone ((m.looked.faulted e).atDepth depth) := by
  cases e <;> exact ⟨rfl, rfl, rfl, rfl, rfl, rfl⟩

private theorem LineStart.breaks_divisionByZero_iff :
    s.Breaks .divisionByZero ↔ ∃ m, s.machine.Begins m ∧ m.DividesByZero s.line := by
  constructor
  · intro breaks
    cases breaks with
    | fault begun fault =>
      refine ⟨_, begun, ?_⟩
      cases fault with
      | stated states fault =>
        cases fault with
        | division reckons zero => exact ⟨_, _, _, _, states, reckons, zero⟩
  · rintro ⟨m, begun, statement, name, op, operand, states, reckons, zero⟩
    exact .fault begun (.stated states (.division reckons zero))

end Causes

section Counting

variable {m m' : Machine} {nested : String → Script Value} {line : String} {depth : Nat}

/-- Whether no more actions have been counted than the limit allows. -/
def Machine.IsSolvent (m : Machine) : Prop := m.context.budget.isOverdrawn = false

/-- Whether every source text that is run with success leaves a machine solvent that was so. -/
def KeepsSolvent (nested : String → Script Value) : Prop :=
  ∀ source (m m' : Machine) value, m.functions.OnlyBuiltins →
    nested source m = .ok value m' → m.IsSolvent → m'.IsSolvent

private theorem Change.budget_of_idle {label : Label} (idle : label.IsIdle)
    (c : Change label m m') :
    m'.context.budget = m.context.budget := by
  cases c with
  | told | paused | drew | assigned | kept | opened | skipped | turned | closed => rfl
  | acted | overdrew | readClock | entered | left | asked => exact absurd idle id

private theorem runIncluded_isSolvent (hn : KeepsSolvent nested) (hb : m.functions.OnlyBuiltins)
    {name : String} {value : Value} (ran : runIncluded nested name m = .ok value m')
    (solvent : m.IsSolvent) : m'.IsSolvent := by
  cases loaded : m.server.library.load? name with
  | none =>
    rw [runIncluded_of_missing nested loaded] at ran
    cases ran
    exact solvent
  | some source =>
    by_cases full : m.isFull
    · rw [runIncluded_of_full nested loaded full] at ran
      cases ran
    · rw [runIncluded_of_room nested loaded full] at ran
      cases inner : nested source m.entered with
      | error h m₁ =>
        rw [inner] at ran
        cases ran
      | ok value m₁ =>
        rw [inner] at ran
        cases ran
        exact hn source m.entered m₁ value hb inner solvent

/-- An action is only performed if it has been paid for, so a line that succeeds leaves no debt. -/
theorem runLine_isSolvent (hn : KeepsSolvent nested) (hb : m.functions.OnlyBuiltins)
    (ran : runLine nested line m = .ok () m') (solvent : m.IsSolvent) : m'.IsSolvent := by
  cases attempts : m.attempt? line with
  | some a =>
    rw [runLine_of_attempt? nested attempts] at ran
    split_ifs at ran with unpaid
    cases ran
    exact Bool.eq_false_iff.2 unpaid
  | none =>
    cases names : m.included? line with
    | none =>
      have c := (runLine_idle m nested hb attempts names).chain.to_ok ran
      have same : m'.context.budget = m.context.budget :=
        c.keeps (I := fun m' => m'.context.budget = m.context.budget)
          (fun idle step same => (step.budget_of_idle idle).trans same) rfl
      rw [Machine.IsSolvent, same]
      exact solvent
    | some name =>
      rw [runLine_of_included? nested names] at ran
      cases inner : runIncluded nested name m with
      | error h m₁ =>
        rw [inner] at ran
        cases ran
      | ok value m₁ =>
        have kept := runIncluded_isSolvent hn hb inner solvent
        rw [inner] at ran
        cases ran
        exact kept

theorem Machine.Begins.isSolvent (begun : m.Begins m') (solvent : m.IsSolvent) : m'.IsSolvent := by
  rw [Machine.IsSolvent, checkTime_context begun.inTime]
  exact solvent

private theorem Passes.isSolvent {lines : List String} (hn : KeepsSolvent nested)
    (obeys : Obedient (fun _ => False) nested) (passed : Passes nested lines m m')
    (hb : m.functions.OnlyBuiltins) (solvent : m.IsSolvent) : m'.IsSolvent := by
  induction passed with
  | nil m => exact solvent
  | cons begun ran more ih =>
    have hb₁ := begun.onlyBuiltins hb
    exact ih (runLine_onlyBuiltins obeys ran hb₁)
      (runLine_isSolvent hn hb₁ ran (begun.isSolvent solvent))

private theorem run_isSolvent (depth : Nat) : KeepsSolvent (run depth) := by
  induction depth with
  | zero =>
    intro source m m' value hb ran _
    cases ran
  | succ depth ih =>
    intro source m m' value hb ran solvent
    cases runLines_eq_iff_finishes.1 ran with
    | through passed => exact passed.isSolvent ih (run_chain depth) hb solvent
    | cancelled split passed inTime stopped =>
      rw [Machine.IsSolvent, checkTime_context inTime]
      exact passed.isSolvent ih (run_chain depth) hb solvent

private theorem Arrives.isSolvent {lines : List String} {s : LineStart}
    (arrives : Arrives Includes depth lines m s) (hb : m.functions.OnlyBuiltins)
    (solvent : m.IsSolvent) : s.machine.IsSolvent := by
  induction arrives with
  | first => exact solvent
  | later begun ran more ih =>
    have hb₁ := begun.onlyBuiltins hb
    exact ih (runLine_onlyBuiltins (run_chain _) ran hb₁)
      (runLine_isSolvent (run_isSolvent _) hb₁ ran (begun.isSolvent solvent))
  | inside begun launched more ih =>
    obtain ⟨-, -, rfl⟩ := launched
    have hb₁ := begun.onlyBuiltins hb
    exact ih hb₁ (begun.isSolvent solvent)

private theorem LineStart.Breaks.isOverdrawn {s : LineStart} {limit : UInt32}
    (breaks : s.Breaks (.budgetExceeded limit)) :
    s.machine.context.budget.counted.isOverdrawn = true := by
  cases breaks with
  | fault begun fault =>
    rw [← checkTime_context begun.inTime]
    cases fault with
    | stated states fault =>
      cases fault with
      | overdrawn attempts unpaid => exact unpaid

/-- The action that goes past the limit is counted, unless the count has stopped long ago. -/
theorem Budget.toNat_used_counted_of_overdrawn {b : Budget}
    (overdraws : b.counted.isOverdrawn = true)
    (counting : b.used < Budget.lastCount ∨ b.isOverdrawn = false) :
    b.counted.used.toNat = b.used.toNat + 1 := by
  have count := b.toNat_used_counted
  have exceeds := (Budget.isOverdrawn_iff _).1 overdraws
  rw [Budget.counted_limit] at exceeds
  obtain below | solvent := counting
  · rw [UInt32.lt_iff_toNat_lt] at below
    omega
  · rw [Bool.eq_false_iff, ne_eq, Budget.isOverdrawn_iff] at solvent
    omega

end Counting

/-- With built-in functions, a run fails with an error exactly if it gets to a line, at its own
level or in a script that is included, that is late or has the fault. Whatever the error, the run
leaves the machine that was there before this line: variables, data, branches, result, log and
whether the script is cancelled are the same, and so is the number of actions counted, but that an
action that went past the limit has been counted as one more, up to `Budget.lastCount`. That the
count has come to its end is only seen by a run that was overdrawn when it began. Arithmetic fails
exactly if a line divides, its variable is absent or a number, and its operand reads as zero. -/
theorem failed_run_leaves_line_undone (m : Machine) (source : String)
    (builtins : m.functions.OnlyBuiltins) :
    (∀ e, (m.run source).1 = .error (.failed e) ↔
      ∃ s, m.ArrivesByIncludes source s ∧ s.Breaks e) ∧
    (∀ e s, m.ArrivesByIncludes source s → s.Breaks e →
      m.run source =
        (.error (.failed e), (s.machine.looked.faulted e).atDepth m.context.includeDepth) ∧
      s.machine.LeftAlone (m.run source).2 ∧
      ((∀ limit, e ≠ .budgetExceeded limit) →
        (m.run source).2.context.budget.used = s.machine.context.budget.used) ∧
      ∀ limit, e = .budgetExceeded limit →
        (m.run source).2.context.budget.used.toNat =
          min (s.machine.context.budget.used.toNat + 1) Budget.lastCount.toNat ∧
        (s.machine.context.budget.used < Budget.lastCount ∨
            m.context.budget.isOverdrawn = false →
          (m.run source).2.context.budget.used.toNat =
            s.machine.context.budget.used.toNat + 1)) ∧
    ((m.run source).1 = .error (.failed .divisionByZero) ↔
      ∃ s m₁, m.ArrivesByIncludes source s ∧ s.machine.Begins m₁ ∧ m₁.DividesByZero s.line) := by
  refine ⟨fun e => Machine.run_fails_iff builtins, fun e s arrives breaks => ?_, ?_⟩
  · have ends := arrives.run_eq breaks.halts
    rw [ends]
    refine ⟨rfl, s.machine.leftAlone_faulted e _, fun other => ?_, ?_⟩
    · cases e with
      | budgetExceeded limit => exact absurd rfl (other limit)
      | _ => rfl
    · rintro limit rfl
      refine ⟨Budget.toNat_used_counted _, fun counting => ?_⟩
      refine Budget.toNat_used_counted_of_overdrawn breaks.isOverdrawn ?_
      obtain ⟨depth, -, inner⟩ := arrives
      exact counting.imp_right (inner.isSolvent builtins)
  · rw [Machine.run_fails_iff builtins]
    constructor
    · rintro ⟨s, arrives, breaks⟩
      obtain ⟨m₁, begun, divides⟩ := LineStart.breaks_divisionByZero_iff.1 breaks
      exact ⟨s, m₁, arrives, begun, divides⟩
    · rintro ⟨s, m₁, arrives, begun, divides⟩
      exact ⟨s, arrives, LineStart.breaks_divisionByZero_iff.2 ⟨m₁, begun, divides⟩⟩

/-- A context with a limit of one action, and a script that attempts two. -/
def refusingMachine : Machine where
  server := { library := .shelf (Dictionary.empty.insert "twice" "msg: in\nclose\nclose\nmsg: on") }
  context :=
    { actor := { slot := 0, name := "Ann", uuid := ⟨0⟩ }
      bindings := Dictionary.empty
      budget := { limit := 1, started := 0, timeLimit := none } }

def refusedText : String := "set x 1\ninclude: twice\nmsg: never"

theorem failed_run_leaves_line_undone_refused :
    refusingMachine.functions.OnlyBuiltins ∧
      (refusingMachine.run refusedText).2.server.log.messages 0 = ["in"] ∧
      ∃ s, refusingMachine.ArrivesByIncludes refusedText s ∧ s.Breaks (.budgetExceeded 1) ∧
        s.machine.LeftAlone (refusingMachine.run refusedText).2 ∧
        (refusingMachine.run refusedText).2.context.budget.used.toNat =
          s.machine.context.budget.used.toNat + 1 := by
  have builtins : refusingMachine.functions.OnlyBuiltins := FunctionTable.onlyBuiltins_builtins
  have told : (refusingMachine.run refusedText).2.server.log.messages 0 = ["in"] := by
    decide +kernel
  have halted : Halt.of? (refusingMachine.run refusedText).1 =
      some (.failed (.budgetExceeded 1)) := by decide +kernel
  obtain ⟨m', ran⟩ := Halt.eq_of_of? halted
  have fails : (refusingMachine.run refusedText).1 = .error (.failed (.budgetExceeded 1)) := by
    rw [ran]
  obtain ⟨causes, leaves, -⟩ := failed_run_leaves_line_undone refusingMachine refusedText builtins
  obtain ⟨s, arrives, breaks⟩ := (causes (.budgetExceeded 1)).1 fails
  obtain ⟨-, alone, -, counted⟩ := leaves (.budgetExceeded 1) s arrives breaks
  exact ⟨builtins, told, s, arrives, breaks, alone, (counted 1 rfl).2 (Or.inr rfl)⟩

/-- The same context when as many actions have been attempted in it as can be counted. -/
def exhaustedMachine : Machine :=
  refusingMachine.updated fun c =>
    { c with budget := { used := Budget.lastCount, limit := 1, started := 0, timeLimit := none } }

/-- The start of the only line of a text that attempts one action more. -/
def uncountedClosing : LineStart := ⟨nestingCapacity - 1, "close", exhaustedMachine⟩

private theorem uncountedClosing_breaks : uncountedClosing.Breaks (.budgetExceeded 1) := by
  have begins : exhaustedMachine.Begins exhaustedMachine := ⟨rfl, rfl⟩
  have states : exhaustedMachine.statement? "close" = some .closeMenu := by decide +kernel
  exact .fault begins (.stated states (.overdrawn rfl rfl))

/-- Charges bring a budget with a limit of one action to the last count. An action that is refused
after that is not counted any more. -/
theorem refused_action_uncounted :
    exhaustedMachine.functions.OnlyBuiltins ∧
      exhaustedMachine.context.budget =
        refusingMachine.context.budget.after (List.replicate (UInt32.size - 1) .charge) ∧
      exhaustedMachine.ArrivesByIncludes "close" uncountedClosing ∧
      uncountedClosing.Breaks (.budgetExceeded 1) ∧
      (exhaustedMachine.run "close").1 = .error (.failed (.budgetExceeded 1)) ∧
      (exhaustedMachine.run "close").2.context.budget.used.toNat ≠
        uncountedClosing.machine.context.budget.used.toNat + 1 := by
  have arrives : exhaustedMachine.ArrivesByIncludes "close" uncountedClosing :=
    ⟨nestingCapacity - 1, by decide, .first⟩
  have ends := arrives.run_eq uncountedClosing_breaks.halts
  refine ⟨FunctionTable.onlyBuiltins_builtins, ?_, arrives, uncountedClosing_breaks, ?_, ?_⟩
  · obtain ⟨used, same, count⟩ :=
      refusingMachine.context.budget.after_replicate_charge (UInt32.size - 1)
    have unused : refusingMachine.context.budget.used.toNat = 0 := rfl
    have last : Budget.lastCount.toNat = UInt32.size - 1 := rfl
    rw [unused, last, Nat.zero_add, Nat.min_self, ← last] at count
    rw [same, UInt32.toNat_inj.1 count]
    rfl
  · rw [ends]
  · rw [ends]
    decide

end MenuScript
