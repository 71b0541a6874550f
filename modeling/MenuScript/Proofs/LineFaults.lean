import MenuScript.Proofs.InterpreterChains

/-!
# Why a line fails

Where a line calls no routine and the script that it may include does not fail, there are six
reasons for which it can fail, and each of them is there before the line has done anything. So a
line that fails leaves the machine as it was, except that an action that was refused has been
counted.
-/

namespace MenuScript

open Script

/-- Whether a computation succeeds in every machine. -/
def Harmless {α : Type} (x : Script α) : Prop := ∀ m, ∃ a m', x m = .ok a m'

namespace Harmless

variable {α β : Type} {x : Script α} {m m' : Machine}

theorem ne_error (h : Harmless x) {e : Halt} : x m ≠ .error e m' := by
  intro fails
  obtain ⟨a, m₁, succeeds⟩ := h m
  rw [succeeds] at fails
  cases fails

theorem pure (a : α) : Harmless (pure a : Script α) := fun m => ⟨a, m, rfl⟩

theorem bind {f : α → Script β} (hx : Harmless x) (hf : ∀ a, Harmless (f a)) :
    Harmless (x >>= f) := by
  intro m
  obtain ⟨a, m₁, first⟩ := hx m
  obtain ⟨b, m₂, second⟩ := hf a m₁
  exact ⟨b, m₂, (bind_of_ok m first).trans second⟩

/-- Only actions and failures end a computation. -/
theorem of_composed {steps : List Step} (composed : Composed steps x) (acts : .act ∉ steps)
    (fails : ∀ e, .fail e ∉ steps) : Harmless x := by
  induction composed with
  | pure a => exact .pure a
  | @fail _ e h => exact absurd h (fails e)
  | act a h => exact absurd h acts
  | tell | assign | branch | draw | pause => exact fun m => ⟨_, _, rfl⟩
  | look y comes rest ih =>
    intro m
    obtain ⟨a, m', succeeds⟩ := ih m.seen m
    exact ⟨a, m', (comes m).trans succeeds⟩
  | bind first rest ih ih' => exact .bind ih ih'

end Harmless

section Divisions

/-- Whether a number that is absent or can be read is divided by a zero. -/
structure DividesByZero (c : Context) (name : String) (op : MathOp) (operand : String) : Prop where
  divides : op = .div
  numeric : ∀ value, c.bindings.get? name = some value → value.number?.isSome = true
  zero : ∃ divisor, Number.readFloat? (trimmed operand) = some divisor ∧ (divisor == 0.0) = true

variable {m : Machine} {name operand : String} {op : MathOp}

private theorem Action.mathOperands?_eq_some_iff {c : Context} {y : Float} :
    (∃ x, mathOperands? c name operand = some (x, y)) ↔
      (∀ value, c.bindings.get? name = some value → value.number?.isSome = true) ∧
        Number.readFloat? (trimmed operand) = some y := by
  rw [mathOperands?]
  cases found : c.bindings.get? name with
  | none => cases Number.readFloat? (trimmed operand) <;> simp
  | some value =>
    cases number : value.number? <;> cases Number.readFloat? (trimmed operand) <;> simp [number]

theorem Action.applyMath_error_iff {h : Halt} {m' : Machine} :
    applyMath name op operand m = .error h m' ↔
      h = .failed .divisionByZero ∧ m' = m ∧ DividesByZero m.context name op operand := by
  rw [applyMath, context_bind]
  cases operands : mathOperands? m.context name operand with
  | none =>
    constructor
    · intro fails
      cases fails
    · rintro ⟨-, -, -, numeric, divisor, reads, -⟩
      obtain ⟨x, found⟩ := mathOperands?_eq_some_iff.2 ⟨numeric, reads⟩
      rw [found] at operands
      cases operands
  | some pair =>
    obtain ⟨x, y⟩ := pair
    obtain ⟨numeric, reads⟩ := mathOperands?_eq_some_iff.1 ⟨x, operands⟩
    by_cases divides : op = .div ∧ (y == 0.0) = true
    · simp only [divides, and_self, if_true, fail_bind]
      constructor
      · intro fails
        cases fails
        exact ⟨rfl, rfl, rfl, numeric, y, reads, divides.2⟩
      · rintro ⟨rfl, rfl, -⟩
        rfl
    · simp only [divides, if_false]
      refine ⟨fun fails => (by cases fails), ?_⟩
      rintro ⟨-, -, div, -, divisor, reads', zero⟩
      rw [reads] at reads'
      cases reads'
      exact absurd ⟨div, zero⟩ divides

end Divisions

namespace Statement

/-- What a statement is about that does arithmetic, by a line of its own or by a call. -/
def arithmetic? (m : Machine) : Statement → Option (String × MathOp × String)
  | .math name op operand => some (name, op, m.context.resolve operand)
  | .call function arguments =>
    match (Statement.call function arguments).called? m with
    | some (.builtin b, args) => b.arithmetic? args
    | _ => none
  | _ => none

/-- `s.Fault m e`: performed in `m`, the statement itself fails with `e`. -/
inductive Fault (m : Machine) : Statement → ScriptError → Prop
  | unopened (unopened : m.context.branches = []) : Fault m .endIf (.stackUnderflow .condition)
  | division {s : Statement} {name operand : String} {op : MathOp}
      (reckons : s.arithmetic? m = some (name, op, operand))
      (zero : DividesByZero m.context name op operand) : Fault m s .divisionByZero
  | unregistered {function : String} {arguments : List String}
      (missing : m.functions.get? function = none) :
      Fault m (.call function arguments) (.functionNotFound function)
  | overdrawn {s : Statement} {a : Attempt} (attempts : s.attempt? m = some a)
      (unpaid : m.context.budget.counted.isOverdrawn = true) :
      Fault m s (.budgetExceeded m.context.budget.limit)
  | full {s : Statement} {name : Value} {rest : List Value} {source : String}
      (calls : s.called? m = some (.builtin .includeScript, name :: rest))
      (loaded : m.server.library.load? name.text = some source) (full : m.isFull) :
      Fault m s (.includeTooDeep m.config.maxIncludeDepth)

end Statement

/-- `m.Fault line e`: run in `m`, the line itself fails with `e`. -/
inductive Machine.Fault (m : Machine) (line : String) : ScriptError → Prop
  | unreadable (said : isIgnorable (trimmed line) = false)
      (running : m.context.branches.isSkipping = false)
      (unread : Statement.read? (trimmed line) = none) :
      Fault m line (.unknownCommand (trimmed line))
  | stated {s : Statement} {e : ScriptError} (states : m.statement? line = some s)
      (fault : s.Fault m e) : Fault m line e

/-- What a failure makes of a machine: an action that is refused has been counted. -/
def Machine.faulted (m : Machine) : ScriptError → Machine
  | .budgetExceeded _ => m.counted
  | _ => m

section Faults

variable {m m' : Machine} {nested : String → Script Value} {h : Halt}

theorem Statement.Fault.perform {s : Statement} {e : ScriptError} (fault : s.Fault m e)
    (nested : String → Script Value) : s.perform nested m = .error (.failed e) (m.faulted e) := by
  cases fault with
  | unopened unopened =>
    have fails : popBranch m = .error (.failed (.stackUnderflow .condition)) m := by
      simp only [popBranch, context_bind, unopened, BranchStack.pop?, fail_apply]
    rw [Statement.perform, bind_of_error m fails]
    rfl
  | @division _ name operand op reckons zero =>
    have fails := Action.applyMath_error_iff.2 ⟨rfl, rfl, zero⟩
    cases s with
    | math =>
      cases reckons
      rw [Statement.perform, resolve_bind]
      exact fails
    | call function arguments =>
      simp only [arithmetic?] at reckons
      split at reckons
      · rename_i b args called
        rw [perform_of_called? m nested called, Callable.call, b.call_of_arithmetic? nested reckons]
        exact fails
      · cases reckons
    | _ => cases reckons
  | unregistered missing => exact perform_call_of_none m nested missing
  | overdrawn attempts unpaid =>
    rw [perform_of_attempt? nested attempts, Attempt.make_apply, Machine.counted_budget,
      if_pos unpaid]
    rfl
  | full calls loaded full =>
    rw [perform_of_called? m nested calls]
    exact runIncluded_of_full nested loaded full

/-- A call of a built-in function that attempts no action and includes no script fails only by
arithmetic. -/
theorem Builtin.division_of_call {b : Builtin} {args : List Value}
    (idle : b.attempt? m args = none) (plain : Callable.included? (.builtin b) args = none)
    (fails : b.call nested args m = .error h m') :
    ∃ name op operand, b.arithmetic? args = some (name, op, operand) ∧
      Action.applyMath name op operand m = .error h m' := by
  by_cases acts : .act ∈ b.steps args
  · obtain ran | ⟨text, ran⟩ := b.call_of_unattempted nested acts idle
    · rw [ran] at fails
      cases fails
    · rw [ran] at fails
      cases fails
  · cases reckons : b.arithmetic? args with
    | some reckoning =>
      refine ⟨_, _, _, rfl, ?_⟩
      rwa [b.call_of_arithmetic? nested reckons] at fails
    | none =>
      have sound : ∀ e, .fail e ∉ b.steps args := by
        intro e mem
        have reckoned := arithmetic?_of_fail_mem mem
        rw [reckons] at reckoned
        cases reckoned
      have harmless := Harmless.of_composed (b.call_composed nested plain) acts sound
      exact absurd fails harmless.ne_error

/-- A statement that attempts no action and calls nothing fails only by arithmetic or where there
is no branch to close. -/
theorem Statement.fault_of_uncalled {s : Statement} (idle : s.attempt? m = none)
    (uncalled : ∀ function arguments, s ≠ .call function arguments)
    (fails : s.perform nested m = .error h m') : ∃ e, h = .failed e ∧ s.Fault m e := by
  have never : .act ∉ s.steps → (∀ e, .fail e ∉ s.steps) → ∃ e, h = .failed e ∧ s.Fault m e := by
    intro acts sound
    have harmless := Harmless.of_composed (s.perform_composed nested uncalled) acts sound
    exact absurd fails harmless.ne_error
  by_cases acts : .act ∈ s.steps
  · obtain ran | ⟨text, ran⟩ := s.perform_of_unattempted nested acts idle
    · rw [ran] at fails
      cases fails
    · rw [ran] at fails
      cases fails
  · cases s with
    | endIf =>
      cases branches : m.context.branches with
      | nil =>
        rw [(Fault.unopened branches).perform nested] at fails
        cases fails
        exact ⟨_, rfl, .unopened branches⟩
      | cons top rest =>
        have pops :
            popBranch m = .ok top.taken (m.updated fun c => { c with branches := rest }) := by
          simp only [popBranch, context_bind, branches, BranchStack.pop?, modifyContext_bind,
            pure_apply]
        rw [Statement.perform, bind_of_ok m pops] at fails
        cases fails
    | math name op operand =>
      rw [Statement.perform, resolve_bind] at fails
      obtain ⟨rfl, rfl, zero⟩ := Action.applyMath_error_iff.1 fails
      exact ⟨_, rfl, .division rfl zero⟩
    | _ => exact never acts (by simp [steps])

/-- A script that is included and fails. -/
structure IncludeFails (nested : String → Script Value) (m : Machine) (name : String) (h : Halt)
    (source : String) (m₁ : Machine) : Prop where
  loaded : m.server.library.load? name = some source
  room : ¬ m.isFull
  fails : nested source m.entered = .error h m₁

private theorem Statement.fault_of_call {s : Statement} {b : Builtin} {args : List Value}
    (idle : s.attempt? m = none) (called : s.called? m = some (.builtin b, args))
    (fails : s.perform nested m = .error h m') :
    (∃ e, h = .failed e ∧ s.Fault m e) ∨
      ∃ name rest source m₁, s.called? m = some (.builtin .includeScript, name :: rest) ∧
        IncludeFails nested m name.text h source m₁ := by
  cases s with
  | call function arguments =>
    have quiet : b.attempt? m args = none := by simpa only [attempt?, called] using idle
    rw [perform_of_called? m nested called, Callable.call] at fails
    cases names : Callable.included? (.builtin b) args with
    | none =>
      obtain ⟨name, op, operand, reckons, failed⟩ := Builtin.division_of_call quiet names fails
      obtain ⟨rfl, rfl, zero⟩ := Action.applyMath_error_iff.1 failed
      refine Or.inl ⟨_, rfl, .division ?_ zero⟩
      simp only [arithmetic?, called, reckons]
    | some name =>
      simp only [b.call_of_included? nested names] at fails
      obtain ⟨value, rest, same, rfl, rfl⟩ := Callable.eq_of_included? names
      cases same
      cases loaded : m.server.library.load? value.text with
      | none =>
        rw [runIncluded_of_missing nested loaded] at fails
        cases fails
      | some source =>
        by_cases full : m.isFull
        · rw [runIncluded_of_full nested loaded full] at fails
          cases fails
          exact Or.inl ⟨_, rfl, .full called loaded full⟩
        · rw [runIncluded_of_room nested loaded full] at fails
          cases inner : nested source m.entered with
          | ok value m₁ =>
            rw [inner] at fails
            cases fails
          | error e m₁ =>
            rw [inner] at fails
            cases fails
            exact Or.inr ⟨value, rest, source, m₁, called, loaded, full, inner⟩
  | _ => cases called

/-- A statement that fails, and calls no routine, has one of the faults, or it includes a script
that fails. -/
theorem Statement.fault_of_perform {s : Statement}
    (builtin : ∀ f args, s.called? m = some (f, args) → ∃ b, f = .builtin b)
    (fails : s.perform nested m = .error h m') :
    (∃ e, h = .failed e ∧ s.Fault m e) ∨
      ∃ name rest source m₁, s.called? m = some (.builtin .includeScript, name :: rest) ∧
        IncludeFails nested m name.text h source m₁ := by
  cases attempted : s.attempt? m with
  | some a =>
    have made := perform_of_attempt? nested attempted
    rw [fails, Attempt.make_apply, Machine.counted_budget] at made
    split_ifs at made with unpaid
    cases made
    exact Or.inl ⟨_, rfl, .overdrawn attempted unpaid⟩
  | none =>
    cases called : s.called? m with
    | some call =>
      obtain ⟨f, args⟩ := call
      obtain ⟨b, rfl⟩ := builtin f args called
      rw [← called]
      exact fault_of_call attempted called fails
    | none =>
      by_cases calls : ∃ function arguments, s = .call function arguments
      · obtain ⟨function, arguments, rfl⟩ := calls
        have missing : m.functions.get? function = none := by simpa [called?] using called
        rw [perform_call_of_none m nested missing] at fails
        cases fails
        exact Or.inl ⟨_, rfl, .unregistered missing⟩
      · refine Or.inl (fault_of_uncalled attempted (fun function arguments same => ?_) fails)
        exact calls ⟨function, arguments, same⟩

variable {line : String} {e : ScriptError}

/-- A line that has a fault fails for it, and has done nothing but count an action that is
refused. -/
theorem Machine.Fault.runLine_eq (fault : m.Fault line e) (nested : String → Script Value) :
    runLine nested line m = .error (.failed e) (m.faulted e) := by
  cases fault with
  | unreadable said running unread => exact runLine_of_unreadable nested said running unread
  | stated states fault => rw [runLine_of_statement? nested states, fault.perform nested]

/-- Where a line calls no routine, it fails for a fault of its own or because the script that it
includes fails. -/
theorem fault_of_runLine
    (builtin : ∀ f args, m.called? line = some (f, args) → ∃ b, f = .builtin b)
    (fails : runLine nested line m = .error h m') :
    (∃ e, h = .failed e ∧ m.Fault line e) ∨
      ∃ name source m₁, m.included? line = some name ∧ IncludeFails nested m name h source m₁ := by
  obtain hi | ⟨hi, hs⟩ | ⟨hi, hs, hr⟩ | ⟨s, hs⟩ := runLine_cases m line
  · rw [runLine_of_ignorable nested hi] at fails
    cases fails
  · rw [runLine_of_skipping nested hi hs] at fails
    cases fails
  · rw [runLine_of_unreadable nested hi hs hr] at fails
    cases fails
    exact Or.inl ⟨_, rfl, .unreadable hi hs hr⟩
  · rw [runLine_of_statement? nested hs] at fails
    cases performed : s.perform nested m with
    | ok value m₁ =>
      rw [performed] at fails
      cases fails
    | error h₁ m₁ =>
      rw [performed] at fails
      cases fails
      have calls : ∀ f args, s.called? m = some (f, args) → m.called? line = some (f, args) :=
        fun f args called => by rw [Machine.called?, hs, Option.bind_some, called]
      obtain ⟨e, rfl, fault⟩ | ⟨name, rest, source, m₂, called, inner⟩ :=
        Statement.fault_of_perform (fun f args called => builtin f args (calls f args called))
          performed
      · exact Or.inl ⟨e, rfl, .stated hs fault⟩
      · refine Or.inr ⟨name.text, source, m₂, ?_, inner⟩
        rw [Machine.included?, calls _ _ called]
        rfl

end Faults

end MenuScript
