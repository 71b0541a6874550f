import MenuScript.Proofs.IncludeDepths
import MenuScript.Proofs.LineFaults
import MenuScript.Proofs.PassedLines

/-!
# The lines that a run gets to

Before a line is begun the time is looked at, and so a run gets to a line before it is known whether
the line will be begun. Here are the lines that a run gets to in this sense, at its own level and in
the scripts that are launched within it. If one that is included, directly or not, ends its run,
then it ends all the runs around it in the same way. Where no routines are registered, a run fails
exactly if it gets to a line that is late or has one of the faults.
-/

namespace MenuScript

open Script

/-- A way for a line to have a source text run. -/
abbrev Launching := (String → Script Value) → Machine → String → String → Machine → Prop

/-- `Includes nested m line source m'`: in `m`, the line includes a script with that source, which
is run in `m'`. -/
structure Includes (_nested : String → Script Value) (m : Machine) (line source : String)
    (m' : Machine) : Prop where
  names : ∃ name, m.included? line = some name ∧ m.server.library.load? name = some source
  room : ¬ m.isFull
  enters : m' = m.entered

/-- `Arrives launching depth lines m s`: running the lines from `m` gets to the line start `s`,
whose time is not looked at yet. -/
inductive Arrives (launching : Launching) : Nat → List String → Machine → LineStart → Prop
  | first {depth : Nat} {line : String} {rest : List String} {m : Machine} :
      Arrives launching depth (line :: rest) m ⟨depth, line, m⟩
  | later {depth : Nat} {line : String} {rest : List String} {m m₁ m₂ : Machine} {s : LineStart}
      (begun : m.Begins m₁) (ran : runLine (run depth) line m₁ = .ok () m₂)
      (more : Arrives launching depth rest m₂ s) : Arrives launching depth (line :: rest) m s
  | inside {depth : Nat} {line source : String} {rest : List String} {m m₁ m₂ : Machine}
      {s : LineStart} (begun : m.Begins m₁)
      (launched : launching (run (depth + 1)) m₁ line source m₂)
      (more : Arrives launching depth (linesOf source) m₂ s) :
      Arrives launching (depth + 1) (line :: rest) m s

/-- Running the source in the machine gets to the line start, at its own level or in a script that
is launched in any way. -/
def Machine.Arrives (m : Machine) (source : String) (s : LineStart) : Prop :=
  ∃ depth, nestingCapacity = depth + 1 ∧ MenuScript.Arrives Launches depth (linesOf source) m s

/-- The same, at its own level or in a script that is included. -/
def Machine.ArrivesByIncludes (m : Machine) (source : String) (s : LineStart) : Prop :=
  ∃ depth, nestingCapacity = depth + 1 ∧ MenuScript.Arrives Includes depth (linesOf source) m s

/-- `s.Halts h m'`: at the line start, the script is halted by `h` and leaves `m'`. -/
inductive LineStart.Halts (s : LineStart) (h : Halt) (m' : Machine) : Prop
  | late (late : checkTime s.machine = .error h m')
  | failed {m₁ : Machine} (begun : s.machine.Begins m₁)
      (fails : runLine (run s.capacity) s.line m₁ = .error h m')

/-- `s.Breaks e`: the line start is late, or its line has a fault that shows once it is begun. -/
inductive LineStart.Breaks (s : LineStart) : ScriptError → Prop
  | late {limit : Nat} (limited : s.machine.context.budget.timeLimit = some limit)
      (late : s.machine.isLate = true) : Breaks s (.timedOut limit)
  | fault {m : Machine} {e : ScriptError} (begun : s.machine.Begins m) (fault : m.Fault s.line e) :
      Breaks s e

section Arrivals

variable {m m' : Machine} {depth : Nat} {lines : List String} {source : String} {s : LineStart}
  {h : Halt} {e : ScriptError}

theorem Includes.launches {nested : String → Script Value} {line : String}
    (included : Includes nested m line source m') : Launches nested m line source m' := by
  obtain ⟨⟨name, names, loaded⟩, room, rfl⟩ := included
  exact .included names loaded room

theorem Arrives.mono {narrow wide : Launching}
    (weaker : ∀ {nested m line source m'}, narrow nested m line source m' →
      wide nested m line source m')
    (arrives : Arrives narrow depth lines m s) : Arrives wide depth lines m s := by
  induction arrives with
  | first => exact .first
  | later begun ran more ih => exact .later begun ran ih
  | inside begun launched more ih => exact .inside begun (weaker launched) ih

theorem Machine.ArrivesByIncludes.arrives (arrives : m.ArrivesByIncludes source s) :
    m.Arrives source s := by
  obtain ⟨depth, capacity, inner⟩ := arrives
  exact ⟨depth, capacity, inner.mono Includes.launches⟩

theorem Arrives.chain {p : Request → Prop} (arrives : Arrives Launches depth lines m s)
    (hm : m.functions.AsksOnly p) : Chain (Label.Allowed p) m s.machine := by
  induction arrives with
  | first => exact .refl
  | later begun ran more ih =>
    have time := begun.chain (p := p)
    have step := (runLine_chain (run_chain _) _ (time.asksOnly hm)).to_ok ran
    exact (time.trans step).trans (ih (step.asksOnly (time.asksOnly hm)))
  | inside begun launched more ih =>
    have time := begun.chain (p := p)
    have launch := launched.chain (run_chain _) (time.asksOnly hm)
    exact (time.trans launch).trans (ih (launch.asksOnly (time.asksOnly hm)))

private theorem LineStart.Halts.runLines_eq {line : String} {rest : List String}
    (halts : LineStart.Halts ⟨depth, line, m⟩ h m') :
    runLines (run depth) (line :: rest) m = .error h m' := by
  cases halts with
  | late late => exact runLines_of_late _ late
  | failed begun fails => rw [runLines_cons _ begun.inTime begun.going, fails]

/-- A line that halts its own run halts all the runs around it. -/
theorem Arrives.runLines_eq (arrives : Arrives Includes depth lines m s) (halts : s.Halts h m') :
    ∃ k, runLines (run depth) lines m = .error h (Machine.left^[k] m') := by
  induction arrives with
  | first => exact ⟨0, halts.runLines_eq⟩
  | later begun ran more ih =>
    obtain ⟨k, later⟩ := ih halts
    refine ⟨k, ?_⟩
    rw [runLines_cons _ begun.inTime begun.going, ran]
    exact later
  | @inside depth line source rest m m₁ m₂ s begun launched more ih =>
    obtain ⟨⟨name, names, loaded⟩, room, rfl⟩ := launched
    obtain ⟨k, inner⟩ := ih halts
    have fails : run (depth + 1) source m₁.entered = .error h (Machine.left^[k] m') := inner
    refine ⟨k + 1, ?_⟩
    rw [runLines_cons _ begun.inTime begun.going,
      runLine_of_failing_include names loaded room fails, Function.iterate_succ_apply']

/-- The whole run ends as it does at the line, and only comes back up from the includes. -/
theorem Machine.ArrivesByIncludes.run_eq (arrives : m.ArrivesByIncludes source s)
    (halts : s.Halts h m') : m.run source = (.error h, m'.atDepth m.context.includeDepth) := by
  obtain ⟨depth, capacity, inner⟩ := arrives
  obtain ⟨k, ran⟩ := inner.runLines_eq halts
  have ends : m.run source = (.error h, Machine.left^[k] m') := by
    rw [Machine.run_eq_runLines capacity, Machine.perform_eq_error_iff]
    exact ran
  have level : (m.run source).2.context.includeDepth = m.context.includeDepth :=
    run_isLevel nestingCapacity source m
  rw [ends] at level
  rw [ends, Machine.left_iterate_eq_atDepth, ← level]

theorem LineStart.Breaks.halts (breaks : s.Breaks e) :
    s.Halts (.failed e) (s.machine.looked.faulted e) := by
  cases breaks with
  | late limited late => exact .late (checkTime_error_iff.2 ⟨_, limited, late, rfl, rfl⟩)
  | fault begun fault =>
    obtain ⟨-, -, rfl⟩ := Machine.begins_iff.1 begun
    exact .failed begun (fault.runLine_eq (run s.capacity))

theorem Passes.arrives {launching : Launching} {before rest : List String}
    (passed : Passes (run depth) before m m') (arrives : Arrives launching depth rest m' s) :
    Arrives launching depth (before ++ rest) m s := by
  induction passed with
  | nil m => exact arrives
  | cons begun ran more ih => exact .later begun ran (ih arrives)

/-- A run that fails has got to a line that breaks with the error. -/
theorem Arrives.of_failure (hb : m.functions.OnlyBuiltins)
    (fails : runLines (run depth) lines m = .error (.failed e) m') :
    ∃ s, Arrives Includes depth lines m s ∧ s.Breaks e := by
  induction depth using Nat.strongRecOn generalizing lines m m' with
  | ind depth ih =>
    cases runLines_eq_iff_finishes.1 fails with
    | late split passed late =>
      obtain ⟨limit, limited, isLate, same, -⟩ := checkTime_error_iff.1 late
      cases same
      rw [split]
      exact ⟨_, passed.arrives .first, .late limited isLate⟩
    | @failed before after line m₁ m₂ m₃ h split passed begun failed =>
      have c := (passed.chain (run_chain _) m.functions.asksOnly_true).trans begun.chain
      have hb₂ : m₂.functions.OnlyBuiltins := Chain.onlyBuiltins c hb
      rw [split]
      obtain ⟨_, same, fault⟩ | ⟨name, source, m₄, names, inner⟩ :=
        fault_of_runLine (fun _ _ => Machine.builtin_of_called? hb₂) failed
      · cases same
        exact ⟨_, passed.arrives .first, .fault begun fault⟩
      · -- the script that is included has less nesting left than the one that includes it
        cases depth with
        | zero => cases inner.fails
        | succ d =>
          have hb₃ : m₂.entered.functions.OnlyBuiltins := hb₂
          obtain ⟨s, arrives, breaks⟩ := ih d (Nat.lt_succ_self d) hb₃ inner.fails
          have included : Includes (run (d + 1)) m₂ line source m₂.entered :=
            ⟨⟨name, names, inner.loaded⟩, inner.room, rfl⟩
          exact ⟨s, passed.arrives (.inside begun included arrives), breaks⟩

end Arrivals

/-- `m.Raises line e`: run in `m`, the line itself ends the script with `e`. -/
inductive Machine.Raises (m : Machine) (line : String) : ScriptError → Prop
  | plain {e : ScriptError} (h : (Halt.failed e).isPlain = true) : Raises m line e
  | overdrawn {a : Attempt} (attempts : m.attempt? line = some a)
      (unpaid : m.context.budget.counted.isOverdrawn = true) :
      Raises m line (.budgetExceeded m.context.budget.limit)
  | full {name source : String} (names : m.included? line = some name)
      (loaded : m.server.library.load? name = some source) (full : m.isFull) :
      Raises m line (.includeTooDeep m.config.maxIncludeDepth)

section Comings

variable {m m' : Machine} {depth : Nat} {lines : List String} {s : LineStart}

private theorem Machine.Fault.raises {line : String} {e : ScriptError} (fault : m.Fault line e) :
    m.Raises line e := by
  cases fault with
  | unreadable => exact .plain rfl
  | stated states fault =>
    cases fault with
    | unopened | division | unregistered => exact .plain rfl
    | @overdrawn _ attempt attempts unpaid =>
      have attempted : m.attempt? line = some attempt := by
        rw [Machine.attempt?, states, Option.bind_some, attempts]
      exact .overdrawn attempted unpaid
    | full calls loaded full =>
      refine .full ?_ loaded full
      rw [Machine.included?, Machine.called?, states, Option.bind_some, calls]
      rfl

/-- A run comes to a line that it gets to and that is begun. -/
theorem ComesTo.arrives (comes : ComesTo depth lines m s) :
    ∃ m₀, Arrives Launches depth lines m ⟨s.capacity, s.line, m₀⟩ ∧ m₀.Begins s.machine := by
  induction comes with
  | first inTime going => exact ⟨_, .first, inTime, going⟩
  | later inTime going ran more ih =>
    obtain ⟨m₀, arrives, begun⟩ := ih
    exact ⟨m₀, .later ⟨inTime, going⟩ ran arrives, begun⟩
  | inside inTime going launched more ih =>
    obtain ⟨m₀, arrives, begun⟩ := ih
    exact ⟨m₀, .inside ⟨inTime, going⟩ launched arrives, begun⟩

theorem ComesTo.chain {p : Request → Prop} (comes : ComesTo depth lines m s)
    (hm : m.functions.AsksOnly p) : Chain (Label.Allowed p) m s.machine := by
  obtain ⟨m₀, arrives, begun⟩ := comes.arrives
  exact (arrives.chain hm).trans begun.chain

theorem Arrives.comesTo (arrives : Arrives Launches depth lines m s) {m₁ : Machine}
    (begun : s.machine.Begins m₁) : ComesTo depth lines m ⟨s.capacity, s.line, m₁⟩ := by
  induction arrives with
  | first => exact .first begun.inTime begun.going
  | later before ran more ih => exact .later before.inTime before.going ran (ih begun)
  | inside before launched more ih => exact .inside before.inTime before.going launched (ih begun)

/-- Where no routines are registered, nothing but an include launches a script. -/
theorem Arrives.includes (arrives : Arrives Launches depth lines m s)
    (hb : m.functions.OnlyBuiltins) : Arrives Includes depth lines m s := by
  induction arrives with
  | first => exact .first
  | later begun ran more ih =>
    have hb₁ := begun.onlyBuiltins hb
    exact .later begun ran (ih (runLine_onlyBuiltins (run_chain _) ran hb₁))
  | inside begun launched more ih =>
    have hb₁ := begun.onlyBuiltins hb
    obtain ⟨rfl, room, named⟩ := launched.includes hb₁
    exact .inside begun ⟨named, room, rfl⟩ (ih hb₁)

/-- A run fails as soon as a line that it comes to fails. Only the depth of includes differs
between the two machines, because the run has come back up. -/
theorem ComesTo.fails {e : Halt} (comes : ComesTo depth lines m s) (hb : m.functions.OnlyBuiltins)
    (fails : runLine (run s.capacity) s.line s.machine = .error e m') :
    ∃ k, runLines (run depth) lines m = .error e (Machine.left^[k] m') := by
  obtain ⟨m₀, arrives, begun⟩ := comes.arrives
  exact (arrives.includes hb).runLines_eq (.failed begun fails)

/-- A run that fails has come to a line that raises the error, unless it was out of time. -/
theorem ComesTo.of_failure {e : ScriptError} (hb : m.functions.OnlyBuiltins)
    (fails : runLines (run depth) lines m = .error (.failed e) m') :
    (∃ limit, e = .timedOut limit) ∨
      ∃ s : LineStart, ComesTo depth lines m s ∧ s.machine.Raises s.line e := by
  obtain ⟨s, arrives, breaks⟩ := Arrives.of_failure hb fails
  cases breaks with
  | late limited late => exact Or.inl ⟨_, rfl⟩
  | fault begun fault =>
    exact Or.inr ⟨_, (arrives.mono Includes.launches).comesTo begun, fault.raises⟩

end Comings

end MenuScript
