import MenuScript.Proofs.BoundedIncludes
import MenuScript.Proofs.LineFaults
import MenuScript.Proofs.NestedBranches
import MenuScript.Proofs.PassedLines
import MenuScript.Proofs.SkippedRegions

/-!
# How many branches are open

An `if` line opens a branch and an `endif` line closes one, whether the line is run or skipped. So
the number of open branches is told by the text that has been passed, whatever the conditions were,
as long as no script is included and no function concerns itself with branches.
-/

namespace MenuScript

open Script

/-- `SparesBranches m x`: performed in `m`, the computation leaves as many branches open as there
were, and does not fail for want of one. -/
structure SparesBranches {α : Type} (m : Machine) (x : Script α) : Prop where
  depth : ∀ a m', x m = .ok a m' → m'.context.branches.depth = m.context.branches.depth
  blameless : ∀ m', x m ≠ .error (.failed (.stackUnderflow .condition)) m'

/-- Whether a function has nothing to do with branches. A routine is free to touch them, as long as
none of this shows when it is done. -/
def Callable.SparesBranches : Callable → Prop
  | .builtin b => b ≠ .includeScript
  | .routine body =>
    ∀ capacity args m,
      MenuScript.SparesBranches m ((Callable.routine body).call (run capacity) args)

/-- Whether the functions that the lines call have nothing to do with branches. -/
def FunctionTable.SparesBranches (t : FunctionTable) (lines : List String) : Prop :=
  ∀ line ∈ lines, ∀ function arguments f,
    Statement.read? (trimmed line) = some (.call function arguments) →
      t.get? function = some f → f.SparesBranches

section Routines

variable {m m' : Machine}

private theorem attempt_harmless {α : Type} {x : Script α}
    (plain : ∀ m m', x m ≠ .error .tooDeep m') :
    Harmless (attempt x) := by
  intro m
  rw [attempt]
  cases ran : x m with
  | ok a m' => exact ⟨_, _, rfl⟩
  | error h m' =>
    cases h with
    | failed e => exact ⟨_, _, rfl⟩
    | tooDeep => exact absurd ran (plain m m')

/-- A request that runs no script is always answered. -/
theorem Request.perform_harmless {r : Request} (plain : r.launches = false)
    (nested : String → Script Value) : Harmless (r.perform nested) := by
  cases r with
  | popData =>
    refine attempt_harmless fun m m' halts => ?_
    rw [MenuScript.popData, context_bind] at halts
    cases data : m.context.data with
    | nil =>
      rw [data] at halts
      cases halts
    | cons value rest =>
      rw [data] at halts
      cases halts
  | popBranch =>
    refine attempt_harmless fun m m' halts => ?_
    cases (popBranch_idle m).halts _ _ halts
  | charge =>
    refine attempt_harmless fun m m' halts => ?_
    rw [charge_apply] at halts
    split_ifs at halts
    cases halts
  | peekData =>
    intro m
    rw [perform, context_bind]
    cases m.context.data.head? <;> exact ⟨_, _, rfl⟩
  | runSource source => cases plain
  | runNamed name => cases plain
  | _ => exact fun m => ⟨_, _, rfl⟩

/-- Requests that concern no branch and run no script leave the branches alone. -/
theorem Routine.perform_of_gentle {α : Type} {r : Routine α}
    (gentle : r.AsksOnly fun q => q.turnsBranches = false ∧ q.launches = false)
    (nested : String → Script Value) (m : Machine) :
    ∃ a m', r.perform nested m = .ok a m' ∧ m'.context.branches = m.context.branches := by
  induction r generalizing m with
  | done a => exact ⟨a, m, rfl, rfl⟩
  | ask request next ih =>
    obtain ⟨⟨aside, plain⟩, later⟩ := gentle
    obtain ⟨answer, m₁, asked⟩ := Request.perform_harmless plain nested m
    have effect : (m.perform (request.perform nested)).2 = request.effect m :=
      Request.perform_machine plain
    rw [Machine.perform_of_ok asked] at effect
    obtain ⟨a, m₂, more, same⟩ := ih answer (later answer) m₁
    refine ⟨a, m₂, (bind_of_ok m asked).trans more, ?_⟩
    rw [same, effect, Request.branches_effect aside]

/-- A function spares branches if it asks for nothing that concerns them and never reports that one
is missing. -/
theorem Callable.sparesBranches_of_gentle
    {body : List Value → Routine (Except ScriptError Value)}
    (gentle : ∀ args, (body args).AsksOnly fun q => q.turnsBranches = false ∧ q.launches = false)
    (silent : ∀ nested args m m',
      (body args).perform nested m ≠ .ok (.error (.stackUnderflow .condition)) m') :
    (Callable.routine body).SparesBranches := by
  intro capacity args m
  obtain ⟨outcome, m₁, performed, same⟩ := Routine.perform_of_gentle (gentle args) (run capacity) m
  have called : (Callable.routine body).call (run capacity) args m =
      match outcome with
      | .ok value => .ok value m₁
      | .error e => .error (.failed e) m₁ := by
    rw [Callable.call, bind_of_ok m performed]
    cases outcome <;> rfl
  constructor
  · intro value m' done
    rw [called] at done
    cases outcome with
    | ok value =>
      cases done
      rw [same]
    | error e => cases done
  · intro m' fails
    rw [called] at fails
    cases outcome with
    | ok value => cases fails
    | error e =>
      cases fails
      exact silent _ args m m₁ performed

end Routines

section Lines

variable {m m' : Machine} {capacity : Nat} {line : String}

theorem opensBranch_of_straight {s : Statement} (reads : Statement.read? (trimmed line) = some s)
    (straight : s.isFlow = false) : opensBranch line = false ∧ closesBranch line = false := by
  cases s with
  | ifHolds | otherwise | endIf => cases straight
  | _ => simp [opensBranch, closesBranch, reads]

private theorem opensBranch_of_ignorable (silent : isIgnorable (trimmed line) = true) :
    opensBranch line = false ∧ closesBranch line = false := by
  cases reads : Statement.read? (trimmed line) with
  | none => simp [opensBranch, closesBranch, reads]
  | some s => exact opensBranch_of_straight reads (Statement.isFlow_of_ignorable silent reads)

/-- Among skipped lines there is always a branch to close. -/
theorem BranchStack.depth_track {branches : BranchStack} (skipping : branches.isSkipping = true)
    (line : String) :
    (branches.track line).depth + (if closesBranch line then 1 else 0) =
      branches.depth + if opensBranch line then 1 else 0 := by
  cases branches with
  | nil => cases skipping
  | cons top rest =>
    cases reads : Statement.read? (trimmed line) with
    | none => simp [track, opensBranch, closesBranch, reads]
    | some s =>
      cases s with
      | ifHolds =>
        simp [track, opensBranch, closesBranch, reads, Statement.skip, pushSkipped, depth]
      | otherwise => simp [track, opensBranch, closesBranch, reads, Statement.skip, flip, depth]
      | endIf => simp [track, opensBranch, closesBranch, reads, Statement.skip, depth]
      | _ => simp [track, opensBranch, closesBranch, reads, Statement.skip]

private theorem BranchStack.depth_flip (branches : BranchStack) :
    branches.flip.depth = branches.depth := by
  cases branches <;> rfl

/-- A statement that is no `if`, `else` or `endif` leaves as many branches open as there were. -/
theorem Statement.depth_of_perform {s : Statement} {value : Value} (straight : s.isFlow = false)
    (spared : ∀ f args, s.called? m = some (f, args) → f.SparesBranches)
    (done : s.perform (run capacity) m = .ok value m') :
    m'.context.branches.depth = m.context.branches.depth := by
  by_cases routine : ∃ body args, s.called? m = some (.routine body, args)
  · obtain ⟨body, args, called⟩ := routine
    rw [perform_of_called? m _ called] at done
    exact (spared _ args called capacity args m).depth value m' done
  · have plain : ∀ f args, s.called? m = some (f, args) →
        ∃ b, f = .builtin b ∧ f.included? args = none := by
      intro f args called
      cases f with
      | routine body => exact absurd ⟨body, args, called⟩ routine
      | builtin b =>
        have other : b ≠ .includeScript := spared _ args called
        refine ⟨b, rfl, ?_⟩
        cases b with
        | includeScript => exact absurd rfl other
        | _ => rfl
    rw [branches_of_perform straight plain done]

private theorem Statement.depth_of_flow {s : Statement} {value : Value}
    {nested : String → Script Value}
    (flow : s.isFlow = true) (reads : Statement.read? (trimmed line) = some s)
    (done : s.perform nested m = .ok value m') :
    m'.context.branches.depth + (if closesBranch line then 1 else 0) =
      m.context.branches.depth + if opensBranch line then 1 else 0 := by
  cases s with
  | ifHolds condition =>
    cases done
    simp [opensBranch, closesBranch, reads, BranchStack.push, BranchStack.depth]
  | otherwise =>
    cases done
    simp [opensBranch, closesBranch, reads, BranchStack.depth_flip]
  | endIf =>
    cases branches : m.context.branches with
    | nil =>
      rw [(Statement.Fault.unopened branches).perform nested] at done
      cases done
    | cons top rest =>
      obtain ⟨taken, m₁, popped, ends⟩ := ok_of_bind m done
      have closed := popBranch_machine m
      rw [Machine.perform_of_ok popped] at closed
      cases ends
      simp [closed, Machine.branching, opensBranch, closesBranch, reads, branches,
        BranchStack.depth]
  | _ => cases flow

private theorem runLine_depth
    (spared : ∀ f args, m.called? line = some (f, args) → f.SparesBranches)
    (ran : runLine (run capacity) line m = .ok () m') :
    m'.context.branches.depth + (if closesBranch line then 1 else 0) =
      m.context.branches.depth + if opensBranch line then 1 else 0 := by
  obtain hi | ⟨hi, hs⟩ | ⟨hi, hs, hr⟩ | ⟨s, hs⟩ := runLine_cases m line
  · rw [runLine_of_ignorable _ hi] at ran
    cases ran
    simp [opensBranch_of_ignorable hi]
  · rw [runLine_of_skipping _ hi hs] at ran
    cases ran
    rw [Machine.branching_branches]
    exact BranchStack.depth_track hs line
  · rw [runLine_of_unreadable _ hi hs hr] at ran
    cases ran
  · have reads := Machine.read?_of_statement? hs
    rw [runLine_of_statement? _ hs] at ran
    cases performed : s.perform (run capacity) m with
    | error h m₁ =>
      rw [performed] at ran
      cases ran
    | ok value m₁ =>
      rw [performed] at ran
      cases ran
      have kept : (m₁.keeping value).context.branches = m₁.context.branches := rfl
      rw [kept]
      cases flow : s.isFlow with
      | true => exact Statement.depth_of_flow flow reads performed
      | false =>
        have calls : ∀ f args, s.called? m = some (f, args) → f.SparesBranches := by
          intro f args called
          exact spared f args (by rw [Machine.called?, hs, Option.bind_some, called])
        have same := Statement.depth_of_perform flow calls performed
        simp only [opensBranch_of_straight reads flow, Bool.false_eq_true, if_false, Nat.add_zero]
        exact same

/-- A line fails for want of a branch exactly if it is an `endif` and no branch is open. -/
theorem runLine_underflow_iff
    (spared : ∀ f args, m.called? line = some (f, args) → f.SparesBranches) :
    runLine (run capacity) line m = .error (.failed (.stackUnderflow .condition)) m' ↔
      closesBranch line = true ∧ m.context.branches = [] ∧ m' = m := by
  constructor
  · intro fails
    by_cases routine : ∃ body args, m.called? line = some (.routine body, args)
    · obtain ⟨body, args, called⟩ := routine
      obtain ⟨s, hs, calls⟩ := Machine.statement?_of_called? called
      rw [runLine_of_statement? _ hs, Statement.perform_of_called? m _ calls] at fails
      cases outcome : (Callable.routine body).call (run capacity) args m with
      | ok value m₁ =>
        rw [outcome] at fails
        cases fails
      | error h m₁ =>
        rw [outcome] at fails
        cases fails
        exact absurd outcome ((spared _ args called capacity args m).blameless _)
    · have builtin : ∀ f args, m.called? line = some (f, args) → ∃ b, f = .builtin b := by
        intro f args called
        cases f with
        | routine body => exact absurd ⟨body, args, called⟩ routine
        | builtin b => exact ⟨b, rfl⟩
      obtain ⟨e, same, fault⟩ | ⟨name, source, m₁, names, -⟩ := fault_of_runLine builtin fails
      · cases same
        have left := fault.runLine_eq (run capacity)
        rw [fails] at left
        cases fault with
        | stated states fault =>
          have reads := Machine.read?_of_statement? states
          cases fault with
          | unopened unopened =>
            cases left
            exact ⟨by simp [closesBranch, reads], unopened, rfl⟩
      · obtain ⟨value, rest, called, -⟩ := Machine.called?_of_included? names
        exact absurd rfl (spared _ _ called)
  · rintro ⟨closes, unopened, rfl⟩
    have reads : Statement.read? (trimmed line) = some .endIf := by
      simpa [closesBranch] using closes
    have said : isIgnorable (trimmed line) = false := by
      rw [Bool.eq_false_iff]
      intro silent
      cases Statement.isFlow_of_ignorable silent reads
    have states : m'.statement? line = some .endIf := by
      simp [Machine.statement?, said, unopened, reads, BranchStack.isSkipping, BranchStack.peek?]
    exact (Machine.Fault.stated states (.unopened unopened)).runLine_eq (run capacity)

/-- An `endif` that is skipped finds a branch to close. -/
theorem runLine_skipped_closing (nested : String → Script Value) (closes : closesBranch line = true)
    (skipping : m.context.branches.isSkipping = true) :
    ∃ taken rest, m.context.branches.pop? = some (taken, rest) ∧
      runLine nested line m = .ok () (m.branching fun _ => rest) := by
  have reads : Statement.read? (trimmed line) = some .endIf := by simpa [closesBranch] using closes
  cases branches : m.context.branches with
  | nil =>
    rw [branches] at skipping
    cases skipping
  | cons top rest =>
    refine ⟨top.taken, rest, rfl, ?_⟩
    have tracked : m.branching (BranchStack.track line) = m.branching fun _ => rest :=
      Machine.branching_congr m (by simp [BranchStack.track, reads, Statement.skip, branches])
    rw [runLine_skipped skipping line, tracked]

end Lines

section Runs

variable {m m' : Machine} {depth : Nat} {line : String} {lines before : List String}

theorem FunctionTable.SparesBranches.of_chain {allowed : Label → Prop}
    (spared : m.functions.SparesBranches lines) (c : Chain allowed m m') :
    m'.functions.SparesBranches lines :=
  fun line mem function arguments f reads found =>
    spared line mem function arguments f reads (c.get?_functions found)

theorem FunctionTable.SparesBranches.called (spared : m.functions.SparesBranches lines)
    (mem : line ∈ lines) (f : Callable) (args : List Value)
    (called : m.called? line = some (f, args)) : f.SparesBranches := by
  obtain ⟨s, states, calls⟩ := Machine.statement?_of_called? called
  cases s with
  | call function arguments =>
    obtain ⟨g, found, same⟩ := Option.map_eq_some_iff.1 calls
    cases same
    exact spared line mem function arguments _ (Machine.read?_of_statement? states) found
  | _ => cases calls

/-- The text that has been passed tells how many branches are open. -/
theorem Passes.branch_depth (passed : Passes (run depth) before m m')
    (spared : m.functions.SparesBranches before) :
    m'.context.branches.depth + closings before = m.context.branches.depth + openings before := by
  induction passed with
  | nil m => simp [openings, closings]
  | @cons line rest m m₁ m₂ m₃ begun ran more ih =>
    have time : Chain (Label.Allowed fun _ => True) m m₁ := begun.chain
    have step := (runLine_chain (run_chain _) _ m₁.functions.asksOnly_true).to_ok ran
    have first := runLine_depth ((spared.of_chain time).called List.mem_cons_self) ran
    have later := (spared.of_chain time).of_chain step
    have others := ih fun line mem => later line (List.mem_cons_of_mem _ mem)
    rw [checkTime_context begun.inTime] at first
    rw [openings_cons, closings_cons]
    omega

/-- A run fails for want of a branch exactly if it has passed lines that leave none open and comes
to an `endif`. -/
theorem runLines_underflow_iff (spared : m.functions.SparesBranches lines) :
    Finishes (run depth) lines m (.error (.failed (.stackUnderflow .condition)) m') ↔
      ∃ before line after m₁, lines = before ++ line :: after ∧ Passes (run depth) before m m₁ ∧
        m₁.Begins m' ∧ closesBranch line = true ∧
        m.context.branches.depth + openings before = closings before := by
  have reached : ∀ {before line after m₁ m₂}, lines = before ++ line :: after →
      Passes (run depth) before m m₁ → m₁.Begins m₂ →
      (∀ f args, m₂.called? line = some (f, args) → f.SparesBranches) ∧
        m₂.context.branches.depth + closings before =
          m.context.branches.depth + openings before := by
    intro before line after m₁ m₂ split passed begun
    have c := (passed.chain (run_chain _) m.functions.asksOnly_true).trans begun.chain
    have counted := passed.branch_depth fun l mem => spared l (by simp [split, mem])
    refine ⟨(spared.of_chain c).called (by simp [split]), ?_⟩
    rw [checkTime_context begun.inTime]
    exact counted
  constructor
  · intro ends
    cases ends with
    | late split passed late =>
      obtain ⟨limit, same⟩ := timedOut_of_checkTime late
      cases same
    | failed split passed begun fails =>
      obtain ⟨calls, counted⟩ := reached split passed begun
      obtain ⟨closes, unopened, rfl⟩ := (runLine_underflow_iff calls).1 fails
      refine ⟨_, _, _, _, split, passed, begun, closes, ?_⟩
      rw [← counted, unopened]
      exact Nat.zero_add _
  · rintro ⟨before, line, after, m₁, split, passed, begun, closes, balance⟩
    obtain ⟨calls, counted⟩ := reached split passed begun
    have unopened : m'.context.branches = [] := by
      rw [← List.length_eq_zero_iff]
      have none : m'.context.branches.depth = 0 := by omega
      exact none
    exact .failed split passed begun ((runLine_underflow_iff calls).2 ⟨closes, unopened, rfl⟩)

end Runs

/-- In a source that includes no script, and whose functions spare branches, the number of open
branches after any lines that have been passed is what it was at the start, and one more for every
`if` and one less for every `endif` among them, run or skipped. The run fails for want of a branch
exactly if it comes to an `endif` where this number is zero, and it has not changed anything there.
An `endif` that is skipped always finds a branch to close. If there are as many `if` as `endif`
lines and the run is not stopped early, it leaves as many branches open as there were. -/
theorem branch_depth_depends_on_text (m : Machine) (source : String)
    (spared : m.functions.SparesBranches (linesOf source)) :
    (∀ before after m', linesOf source = before ++ after → m.Passes before m' →
      m'.context.branches.depth + closings before = m.context.branches.depth + openings before) ∧
    (∀ m', m.run source = (.error (.failed (.stackUnderflow .condition)), m') ↔
      ∃ before line after m₁, linesOf source = before ++ line :: after ∧ m.Passes before m₁ ∧
        m₁.Begins m' ∧ closesBranch line = true ∧
        m.context.branches.depth + openings before = closings before) ∧
    (∀ nested line m₁, closesBranch line = true → m₁.context.branches.isSkipping = true →
      ∃ taken rest, m₁.context.branches.pop? = some (taken, rest) ∧
        runLine nested line m₁ = .ok () (m₁.branching fun _ => rest)) ∧
    (openings (linesOf source) = closings (linesOf source) → ∀ value m',
      m.run source = (.ok value, m') → m'.context.cancelled = false →
      m'.context.branches.depth = m.context.branches.depth) := by
  obtain ⟨depth, capacity⟩ := nestingCapacity_eq_succ
  have same : ∀ {other}, nestingCapacity = other + 1 → other = depth := by
    intro other other_capacity
    omega
  have counts : ∀ {before after m'}, linesOf source = before ++ after →
      Passes (run depth) before m m' →
      m'.context.branches.depth + closings before = m.context.branches.depth + openings before := by
    intro before after m' split passed
    exact passed.branch_depth fun line mem => spared line (by simp [split, mem])
  refine ⟨?_, fun m' => ?_, ?_, ?_⟩
  · rintro before after m' split ⟨other, other_capacity, passed⟩
    obtain rfl := same other_capacity
    exact counts split passed
  · rw [Machine.run_eq_error_iff capacity, runLines_underflow_iff spared]
    constructor
    · rintro ⟨before, line, after, m₁, split, passed, rest⟩
      exact ⟨before, line, after, m₁, split, ⟨depth, capacity, passed⟩, rest⟩
    · rintro ⟨before, line, after, m₁, split, ⟨other, other_capacity, passed⟩, rest⟩
      obtain rfl := same other_capacity
      exact ⟨before, line, after, m₁, split, passed, rest⟩
  · intro nested line m₁ closes skipping
    exact runLine_skipped_closing nested closes skipping
  · intro balance value m' ran going
    have ends := (Machine.run_eq_ok_iff capacity).1 ran
    cases ends with
    | through passed =>
      have whole := counts (linesOf source).append_nil.symm passed
      omega
    | cancelled split passed inTime stopped =>
      rw [going] at stopped
      cases stopped

/-- A context inside a branch that is taken, with a function that sends a greeting. -/
def greetingMachine : Machine where
  functions := (FunctionTable.builtins.register "greet"
    (.routine fun _ => .ask (.tell "hello") fun _ => .done (.ok .null))).2
  context :=
    { actor := { slot := 0, name := "Ann", uuid := ⟨0⟩ }
      bindings := Dictionary.empty
      budget := { limit := 1, started := 0, timeLimit := none }
      branches := [⟨true, false⟩] }

/-- Its last line closes a branch that is not there. -/
def overclosedText : String :=
  "greet: \nif 1 == 2\nif {missing} == 1\nendif\nelse\nendif\nendif\nendif"

theorem branch_depth_depends_on_text_overclosed :
    greetingMachine.functions.SparesBranches (linesOf overclosedText) ∧
      ∃ m' before line after m₁,
        greetingMachine.run overclosedText = (.error (.failed (.stackUnderflow .condition)), m') ∧
        linesOf overclosedText = before ++ line :: after ∧ greetingMachine.Passes before m₁ ∧
        1 + openings before = closings before := by
  have spared : greetingMachine.functions.SparesBranches (linesOf overclosedText) := by
    have named : ∀ line ∈ linesOf overclosedText, ∀ function arguments,
        Statement.read? (trimmed line) = some (.call function arguments) → function = "greet" := by
      have readings : (linesOf overclosedText).map (fun line => Statement.read? (trimmed line)) =
          [some (.call "greet" []), some (.ifHolds "1 == 2"),
            some (.ifHolds "\x7bmissing\x7d == 1"), some .endIf, some .otherwise, some .endIf,
            some .endIf, some .endIf] := by decide
      intro line mem function arguments reads
      have one := List.mem_map_of_mem (f := fun line => Statement.read? (trimmed line)) mem
      rw [readings, reads] at one
      have same : function = "greet" ∧ arguments = [] := by simpa using one
      exact same.1
    have free : FunctionTable.builtins.contains "greet" = false := by decide
    intro line mem function arguments f reads found
    obtain rfl := named line mem function arguments reads
    simp only [greetingMachine, FunctionTable.register, free, Bool.false_eq_true, if_false,
      Dictionary.get?_insert, if_true, Option.some.injEq] at found
    subst found
    refine Callable.sparesBranches_of_gentle (fun _ => ⟨⟨rfl, rfl⟩, fun _ => trivial⟩) ?_
    intro nested args m m' done
    cases done
  have halted : Halt.of? (greetingMachine.run overclosedText).1 =
      some (.failed (.stackUnderflow .condition)) := by decide +kernel
  obtain ⟨m', ran⟩ := Halt.eq_of_of? halted
  obtain ⟨before, line, after, m₁, split, passed, -, -, balance⟩ :=
    ((branch_depth_depends_on_text greetingMachine overclosedText spared).2.1 m').1 ran
  exact ⟨spared, m', before, line, after, m₁, ran, split, passed, balance⟩

end MenuScript
