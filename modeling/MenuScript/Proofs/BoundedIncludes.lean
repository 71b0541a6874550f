import MenuScript.Proofs.HostSessions
import MenuScript.Proofs.IncludeDepths

/-!
# Includes under a limit

A library may hold scripts that include themselves or each other, so nothing in the scripts bounds
the nesting of includes; the limit of the engine does. A script is run one include deeper than the
line that includes it, and however it ends, the depth is then what it was before. So a run needs no
more nesting than the limit, at every line the depth is at most the limit, and an include is refused
exactly where the limit is reached.
-/

namespace MenuScript

open Script

/-- An engine with built-in functions and a limit on includes, in a context that keeps to it. -/
structure Machine.Bounded (limit : UInt32) (m : Machine) : Prop where
  builtins : m.functions.OnlyBuiltins
  fixed : m.config.maxIncludeDepth = limit
  positive : 0 < limit
  within : m.context.includeDepth ≤ limit.toNat

namespace Machine.Bounded

variable {limit : UInt32} {m m' : Machine}

theorem isFull_iff (h : m.Bounded limit) : m.isFull ↔ m.context.includeDepth = limit.toNat := by
  have positive := h.positive
  have within := h.within
  rw [isFull, h.fixed]
  constructor
  · intro full
    omega
  · intro full
    exact ⟨positive, Nat.le_of_eq full.symm⟩

theorem of_chain {allowed : Label → Prop} (h : m.Bounded limit) (c : Chain allowed m m')
    (depth : m'.context.includeDepth = m.context.includeDepth) : m'.Bounded limit where
  builtins := c.onlyBuiltins h.builtins
  fixed := c.sameSettings.config ▸ h.fixed
  positive := h.positive
  within := depth ▸ h.within

theorem entered (h : m.Bounded limit) (room : ¬ m.isFull) : m.entered.Bounded limit where
  builtins := h.builtins
  fixed := h.fixed
  positive := h.positive
  within := by
    have within := h.within
    rw [h.isFull_iff] at room
    change m.context.includeDepth + 1 ≤ limit.toNat
    omega

theorem checkTime (h : m.Bounded limit) {u : Unit} (inTime : Script.checkTime m = .ok u m') :
    m'.Bounded limit := by
  have depth := checkTime_includeDepth m
  rw [perform_of_ok inTime] at depth
  exact h.of_chain ((checkTime_chain (p := fun _ => False) m).to_ok inTime) depth

theorem runLine (h : m.Bounded limit) {capacity : Nat} {line : String} {u : Unit}
    (ran : MenuScript.runLine (MenuScript.run capacity) line m = .ok u m') : m'.Bounded limit := by
  have depth := (runLine_isLevel (run_isLevel capacity) line m).to_ok ran
  have c := runLine_chain (run_chain capacity) line (h.builtins.asksOnly fun _ => False)
  exact h.of_chain (c.to_ok ran) depth

end Machine.Bounded

section Nesting

variable {m : Machine} {nested nested' : String → Script Value}

private theorem Builtin.call_congr {b : Builtin} {args : List Value}
    (plain : Callable.included? (.builtin b) args = none) :
    b.call nested args m = b.call nested' args m := by
  cases b with
  | includeScript =>
    cases args with
    | nil => rfl
    | cons name rest => cases plain
  | _ => rcases args with _ | ⟨first, _ | ⟨second, _ | ⟨third, rest⟩⟩⟩ <;> rfl

private theorem Statement.perform_congr {s : Statement}
    (plain : ∀ f args, s.called? m = some (f, args) →
      ∃ b, f = .builtin b ∧ f.included? args = none) :
    s.perform nested m = s.perform nested' m := by
  cases called : s.called? m with
  | some call =>
    obtain ⟨f, args⟩ := call
    obtain ⟨b, rfl, unincluded⟩ := plain f args called
    rw [perform_of_called? m nested called, perform_of_called? m nested' called]
    exact Builtin.call_congr unincluded
  | none =>
    cases s with
    | call function arguments =>
      have missing : m.functions.get? function = none := by simpa [called?] using called
      rw [perform_call_of_none m nested missing, perform_call_of_none m nested' missing]
    | _ => rfl

/-- How nested sources are run matters to a line only if it includes a script. -/
theorem runLine_congr (hb : m.functions.OnlyBuiltins) {line : String}
    (same : ∀ name source, m.included? line = some name →
      m.server.library.load? name = some source → ¬ m.isFull →
      nested source m.entered = nested' source m.entered) :
    runLine nested line m = runLine nested' line m := by
  cases names : m.included? line with
  | some name =>
    rw [runLine_of_included? nested names, runLine_of_included? nested' names]
    cases loaded : m.server.library.load? name with
    | none => rw [runIncluded_of_missing nested loaded, runIncluded_of_missing nested' loaded]
    | some source =>
      by_cases full : m.isFull
      · rw [runIncluded_of_full nested loaded full, runIncluded_of_full nested' loaded full]
      · rw [runIncluded_of_room nested loaded full, runIncluded_of_room nested' loaded full,
          same name source names loaded full]
  | none =>
    obtain hi | ⟨hi, hs⟩ | ⟨hi, hs, hr⟩ | ⟨s, hs⟩ := runLine_cases m line
    · rw [runLine_of_ignorable nested hi, runLine_of_ignorable nested' hi]
    · rw [runLine_of_skipping nested hi hs, runLine_of_skipping nested' hi hs]
    · rw [runLine_of_unreadable nested hi hs hr, runLine_of_unreadable nested' hi hs hr]
    · rw [runLine_of_statement? nested hs, runLine_of_statement? nested' hs,
        Statement.perform_congr fun f args => Machine.calls_builtins hb hs names]

private theorem tooDeep_not_of_checkTime {m₁ : Machine} {e : Halt}
    (late : checkTime m = .error e m₁) :
    e ≠ .tooDeep := by
  obtain ⟨limit, rfl⟩ := timedOut_of_checkTime late
  exact fun h => by cases h

/-- Two capacities give the same run of some lines if they give the same run of every source that
is included one deeper. -/
theorem runLines_congr {limit : UInt32} {more depth : Nat} (h : m.Bounded limit)
    (inner : ∀ source (m' : Machine), m'.Bounded limit →
      m'.context.includeDepth = m.context.includeDepth + 1 →
      run depth source m' = run more source m' ∧
        ∀ m'', run more source m' ≠ .error .tooDeep m'') (lines : List String) :
    runLines (run depth) lines m = runLines (run more) lines m ∧
      ∀ m', runLines (run more) lines m ≠ .error .tooDeep m' := by
  induction lines generalizing m with
  | nil => exact ⟨rfl, fun m' halted => by cases halted⟩
  | cons line rest ih =>
    cases inTime : checkTime m with
    | error e m₁ =>
      rw [runLines_of_late _ inTime, runLines_of_late _ inTime]
      refine ⟨rfl, fun m' halted => ?_⟩
      cases halted
      exact tooDeep_not_of_checkTime inTime rfl
    | ok u m₁ =>
      have h₁ := h.checkTime inTime
      have time := checkTime_includeDepth m
      rw [Machine.perform_of_ok inTime] at time
      cases going : m₁.context.cancelled with
      | true =>
        rw [runLines_of_cancelled _ inTime going, runLines_of_cancelled _ inTime going]
        exact ⟨rfl, fun m' halted => by cases halted⟩
      | false =>
        -- every line of the source is begun at the same depth, so `inner` goes on to apply
        rw [← time] at inner
        have same : runLine (run depth) line m₁ = runLine (run more) line m₁ :=
          runLine_congr h₁.builtins fun name source _ _ room =>
            (inner source m₁.entered (h₁.entered room) rfl).1
        rw [runLines_cons _ inTime going, runLines_cons _ inTime going, same]
        cases ran : runLine (run more) line m₁ with
        | ok v m₂ =>
          have depth₂ := (runLine_isLevel (run_isLevel more) line m₁).to_ok ran
          rw [← depth₂] at inner
          exact ih (h₁.runLine ran) inner
        | error e m₂ =>
          refine ⟨rfl, fun m' halted => ?_⟩
          cases halted
          obtain ⟨_, other, _⟩ | ⟨name, source, m₃, _, failed⟩ :=
            fault_of_runLine (fun _ _ => Machine.builtin_of_called? h₁.builtins) ran
          · cases other
          · exact (inner source m₁.entered (h₁.entered failed.room) rfl).2 m₃ failed.fails

/-- Where no more than `more` includes fit into each other, a run nests sources no deeper, so it
never gets to where sources cannot be nested any more. -/
theorem runLines_enough {limit : UInt32} {more depth : Nat} (enough : more ≤ depth)
    (h : m.Bounded limit) (fits : limit.toNat ≤ m.context.includeDepth + more)
    (lines : List String) :
    runLines (run depth) lines m = runLines (run more) lines m ∧
      ∀ m', runLines (run more) lines m ≠ .error .tooDeep m' := by
  induction more generalizing depth m lines with
  | zero =>
    refine runLines_congr h (fun source m' h' deeper => ?_) lines
    have within := h'.within
    omega
  | succ more ih =>
    obtain ⟨d, rfl⟩ : ∃ d, depth = d + 1 := ⟨depth - 1, by omega⟩
    refine runLines_congr h (fun source m' h' deeper => ?_) lines
    exact ih (by omega) h' (by omega) (linesOf source)

end Nesting

section Runs

variable {limit : UInt32} {m : Machine} {source : String} {s : LineStart}

private theorem ComesTo.bounded {depth : Nat} {lines : List String}
    (comes : ComesTo depth lines m s)
    (h : m.Bounded limit) : s.machine.Bounded limit := by
  induction comes with
  | first inTime going => exact h.checkTime inTime
  | later inTime going ran more ih => exact ih ((h.checkTime inTime).runLine ran)
  | inside inTime going launched more ih =>
    have h₁ := h.checkTime inTime
    obtain ⟨rfl, room, -⟩ := launched.includes h₁.builtins
    exact ih (h₁.entered room)

theorem Machine.ComesTo.bounded (comes : m.ComesTo source s) (h : m.Bounded limit) :
    s.machine.Bounded limit := by
  obtain ⟨depth, -, comes⟩ := comes
  exact MenuScript.ComesTo.bounded comes h

private theorem Machine.ComesTo.includeTooDeep (comes : m.ComesTo source s) (h : m.Bounded limit)
    {name script : String} (names : s.machine.included? s.line = some name)
    (loaded : s.machine.server.library.load? name = some script)
    (reached : s.machine.context.includeDepth = limit.toNat) :
    (m.run source).1 = .error (.failed (.includeTooDeep limit)) := by
  have hs := comes.bounded h
  have full := runIncluded_of_full (MenuScript.run s.capacity) loaded (hs.isFull_iff.2 reached)
  have fails := runLine_of_included? (MenuScript.run s.capacity) names
  rw [full, hs.fixed] at fails
  obtain ⟨depth, capacity, comes⟩ := comes
  obtain ⟨k, hk⟩ := comes.fails h.builtins fails
  rw [Machine.run_eq_runLines capacity, Machine.perform, hk]

private theorem Machine.ComesTo.of_includeTooDeep (h : m.Bounded limit) {refused : UInt32}
    (fails : (m.run source).1 = .error (.failed (.includeTooDeep refused))) :
    refused = limit ∧ ∃ s name script, m.ComesTo source s ∧
      s.machine.included? s.line = some name ∧
      s.machine.server.library.load? name = some script ∧
      s.machine.context.includeDepth = limit.toNat := by
  obtain ⟨name, other⟩ | ⟨time, other⟩ | ⟨s, ⟨text, same, comes⟩, raises⟩ :=
    Machine.UseComesTo.of_failure (u := .run source) h.builtins fails
  · cases other
  · cases other
  · cases same
    have hs := comes.bounded h
    cases raises with
    | plain plain => cases plain
    | full names loaded full =>
      exact ⟨hs.fixed, s, _, _, comes, names, loaded, hs.isFull_iff.1 full⟩

private theorem run_of_enough (h : m.Bounded limit) (outermost : m.context.includeDepth = 0)
    {depth : Nat}
    (enough : limit.toNat < depth) :
    run depth source m = runLines (run limit.toNat) (linesOf source) m := by
  obtain ⟨d, rfl⟩ : ∃ d, depth = d + 1 := ⟨depth - 1, by omega⟩
  exact (runLines_enough (by omega) h (by omega) (linesOf source)).1

theorem toNat_lt_nestingCapacity (limit : UInt32) : limit.toNat < nestingCapacity := by
  have capacity : 2 ^ 32 ≤ nestingCapacity := by decide
  exact Nat.lt_of_lt_of_le limit.toNat_lt capacity

theorem Machine.Bounded.run_ne_tooDeep (h : m.Bounded limit) (source : String) :
    (m.run source).1 ≠ .error .tooDeep := by
  obtain ⟨depth, capacity⟩ := nestingCapacity_eq_succ
  have enough : limit.toNat ≤ depth := by
    have beyond := toNat_lt_nestingCapacity limit
    omega
  obtain ⟨runs, ends⟩ := runLines_enough enough h (by omega) (linesOf source)
  intro exhausted
  rw [Machine.run_eq_runLines capacity, Machine.perform, runs] at exhausted
  cases ran : runLines (MenuScript.run limit.toNat) (linesOf source) m with
  | ok value m' =>
    rw [ran] at exhausted
    cases exhausted
  | error e m' =>
    rw [ran] at exhausted
    cases exhausted
    exact ends m' ran

end Runs

/-- A run of an engine with built-in functions and a limit on includes, from a context that is in no
include, ends: any capacity beyond the limit gives the same run, and it is never exhausted. At every
line the depth is at most the limit; the run fails for its includes exactly if it comes to a line
that includes a script of the library where the limit is reached, while a name that the library does
not have is passed over as false at any depth. However the run ends, it is in no include again. -/
theorem includes_bounded_by_limit (m : Machine) (source : String)
    (builtins : m.functions.OnlyBuiltins) (positive : 0 < m.config.maxIncludeDepth)
    (outermost : m.context.includeDepth = 0) :
    (∀ depth, m.config.maxIncludeDepth.toNat < depth →
      m.perform (run depth source) = m.run source) ∧
    (m.run source).1 ≠ .error .tooDeep ∧
    (∀ s, m.ComesTo source s →
      s.machine.context.includeDepth ≤ m.config.maxIncludeDepth.toNat) ∧
    (∀ limit, (m.run source).1 = .error (.failed (.includeTooDeep limit)) ↔
      limit = m.config.maxIncludeDepth ∧ ∃ s name script, m.ComesTo source s ∧
        s.machine.included? s.line = some name ∧
        s.machine.server.library.load? name = some script ∧
        s.machine.context.includeDepth = m.config.maxIncludeDepth.toNat) ∧
    (∀ s name, m.ComesTo source s → s.machine.included? s.line = some name →
      s.machine.server.library.load? name = none →
      runLine (run s.capacity) s.line s.machine =
        .ok () ((s.machine.logged (.missed name)).keeping (.bool false))) ∧
    (m.run source).2.context.includeDepth = 0 := by
  have h : m.Bounded m.config.maxIncludeDepth :=
    ⟨builtins, rfl, positive, by rw [outermost]; exact Nat.zero_le _⟩
  have runs : run nestingCapacity source m = _ :=
    run_of_enough h outermost (toNat_lt_nestingCapacity _)
  refine ⟨fun depth enough => ?_, h.run_ne_tooDeep source, fun s comes => (comes.bounded h).within,
    fun limit => ?_, fun s name comes names missing => ?_, ?_⟩
  · rw [Machine.run, Machine.perform, Machine.perform, runs, run_of_enough h outermost enough]
  · constructor
    · exact Machine.ComesTo.of_includeTooDeep h
    · rintro ⟨rfl, s, name, script, comes, names, loaded, reached⟩
      exact comes.includeTooDeep h names loaded reached
  · rw [runLine_of_included? _ names, runIncluded_of_missing _ missing]
  · exact (run_isLevel nestingCapacity source m).trans outermost

/-- A context of an engine whose library has one script, which includes itself twice. -/
def cyclicMachine : Machine where
  config := { maxIncludeDepth := 2 }
  functions := (FunctionTable.register Dictionary.empty "include" (.builtin .includeScript)).2
  server := { library := .shelf (Dictionary.empty.insert "again" "include: again\ninclude: again") }
  context :=
    { actor := { slot := 0, name := "Ann", uuid := ⟨0⟩ }
      bindings := Dictionary.empty
      budget := { limit := 0, started := 0, timeLimit := none } }

theorem cyclicMachine_included? : cyclicMachine.included? "include: again" = some "again" := by
  have reads : cyclicMachine.statement? "include: again" = some (.call "include" ["again"]) := by
    decide
  rw [Machine.included?, Machine.called?, reads]
  rfl

theorem cyclicMachine_loads : cyclicMachine.server.library.load? "again" =
    some "include: again\ninclude: again" := by decide

/-- The line that the script begins with, two includes deep. -/
def deepestInclude : LineStart :=
  ⟨nestingCapacity - 3, "include: again", cyclicMachine.entered.entered⟩

private theorem cyclicMachine_comesTo : cyclicMachine.ComesTo "include: again" deepestInclude := by
  have once : linesOf "include: again" = ["include: again"] := by decide
  have twice : linesOf "include: again\ninclude: again" =
      ["include: again", "include: again"] := by decide
  refine ⟨nestingCapacity - 3 + 1 + 1, by decide, ?_⟩
  rw [once]
  refine .inside rfl rfl (.included cyclicMachine_included? cyclicMachine_loads (by decide)) ?_
  rw [twice]
  refine .inside rfl rfl (.included cyclicMachine_included? cyclicMachine_loads (by decide)) ?_
  rw [twice]
  exact .first rfl rfl

theorem includes_bounded_by_limit_cyclic :
    cyclicMachine.functions.OnlyBuiltins ∧ 0 < cyclicMachine.config.maxIncludeDepth ∧
      cyclicMachine.context.includeDepth = 0 ∧
      (cyclicMachine.run "include: again").1 = .error (.failed (.includeTooDeep 2)) ∧
      (cyclicMachine.run "include: again").2.context.includeDepth = 0 := by
  have builtins : cyclicMachine.functions.OnlyBuiltins :=
    FunctionTable.forall_register (fun _ _ h => by cases h) "include" ⟨.includeScript, rfl⟩
  obtain ⟨-, -, -, refused, -, returns⟩ :=
    includes_bounded_by_limit cyclicMachine "include: again" builtins (by decide) rfl
  exact ⟨builtins, by decide, rfl, (refused 2).2 ⟨rfl, deepestInclude, "again", _,
    cyclicMachine_comesTo, cyclicMachine_included?, cyclicMachine_loads, rfl⟩, returns⟩

end MenuScript
