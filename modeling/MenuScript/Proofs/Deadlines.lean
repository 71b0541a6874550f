import MenuScript.Proofs.BoundedIncludes
import MenuScript.Proofs.UnseenRuns

/-!
# Time limits

The time is looked at before every line, at every level of includes. A line that is late is not
begun and ends the run, and since time only moves forward, all later runs in the context are late as
well. As long as nothing is late, the limit makes no difference: nothing that a script can do shows
the clock or the limit to it.
-/

namespace MenuScript

open Script

/-- The machine without a time limit. -/
def Machine.untimed (m : Machine) : Machine := m.updated (·.within none)

/-- `Unhurried m m'`: the machine `m'` is `m` without a time limit, at some other time. -/
def Unhurried (m m' : Machine) : Prop := ∃ clock, m' = m.untimed.served fun s => { s with clock }

/-- The time since the start, as it is read at the line start. -/
def LineStart.elapsed (s : LineStart) : Nat :=
  s.machine.context.budget.elapsed s.machine.server.clock.read.1

private theorem unseen_unhurried : Unseen Unhurried where
  hidden := by
    rintro m _ ⟨clock, rfl⟩
    exact ⟨⟨clock, m.server.log, none, m.functions⟩, rfl⟩
  updated := by
    rintro m _ f step ⟨clock, rfl⟩
    refine ⟨clock, ?_⟩
    exact congrArg (fun c => { m.untimed.served fun s => { s with clock } with context := c })
      (step m.context none)
  logged := by
    rintro m _ e ⟨clock, rfl⟩
    exact ⟨clock, rfl⟩
  drew := by
    rintro m _ chance ⟨clock, rfl⟩
    exact ⟨clock, rfl⟩
  passed := by
    rintro m _ nanos ⟨clock, rfl⟩
    exact ⟨clock.advance nanos, rfl⟩

private theorem unnoticed_unhurried : Unnoticed Unhurried where
  toUnseen := unseen_unhurried
  functions := by
    rintro m _ ⟨clock, rfl⟩
    rfl
  unregistered := by
    rintro m _ name ⟨clock, rfl⟩
    exact ⟨clock, rfl⟩

section Runs

variable {m m' : Machine} {depth : Nat} {lines : List String} {source : String}

private theorem Unhurried.looked (related : Unhurried m m') : Unhurried m.looked m' := by
  obtain ⟨clock, rfl⟩ := related
  exact ⟨clock, rfl⟩

private theorem Unhurried.checkTime (related : Unhurried m m') : checkTime m' = .ok () m' := by
  obtain ⟨clock, rfl⟩ := related
  exact checkTime_of_no_limit _ rfl

/-- Where nothing is late, the time limit makes no difference. -/
theorem runLines_unhurried (related : Unhurried m m')
    (punctual : ∀ s, Arrives Launches depth lines m s → s.machine.isLate = false) :
    Alike Unhurried (runLines (run depth) lines m) (runLines (run depth) lines m') := by
  refine runLines_unnoticed unnoticed_unhurried related fun s m₁ arrives related₁ => ?_
  rw [checkTime_ok_iff.2 ⟨punctual s arrives, rfl⟩, related₁.checkTime]
  exact .ok () related₁.looked

/-- Whether the time limit has passed, as far as the clock has been read. -/
structure Machine.Expired (limit : Nat) (m : Machine) : Prop where
  limited : m.context.budget.timeLimit = some limit
  expired : Clock.millis limit < m.context.budget.elapsed m.server.clock.now

private theorem Change.expired {limit : Nat} {label : Label} (c : Change label m m')
    (h : m.Expired limit) : m'.Expired limit := by
  have started : m'.context.budget.started = m.context.budget.started := by
    cases c with
    | asked _ r => cases r <;> rfl
    | _ => rfl
  have later : m.server.clock.now ≤ m'.server.clock.now := by
    cases c with
    | readClock => exact Nat.le_add_right _ _
    | paused => exact Nat.le_add_right _ _
    | asked _ r => cases r <;> exact Nat.le_refl _
    | _ => exact Nat.le_refl _
  have passed := h.expired
  refine ⟨c.sameSettings.timeLimit.trans h.limited, ?_⟩
  rw [Budget.elapsed] at passed ⊢
  omega

private theorem Machine.Expired.of_chain {limit : Nat} {allowed : Label → Prop}
    (h : m.Expired limit)
    (c : Chain allowed m m') : m'.Expired limit :=
  c.keeps (fun _ step => step.expired) h

theorem Machine.isLate_iff {limit : Nat} (limited : m.context.budget.timeLimit = some limit) :
    m.isLate = true ↔
      Clock.millis limit < m.context.budget.elapsed m.server.clock.read.1 := by
  simp [Machine.isLate, Budget.isLate, limited]

private theorem Machine.Expired.isLate {limit : Nat} (h : m.Expired limit) : m.isLate = true := by
  have passed := h.expired
  have later : m.server.clock.now ≤ m.server.clock.read.1 := Nat.le_add_right _ _
  rw [Machine.isLate_iff h.limited]
  rw [Budget.elapsed] at passed ⊢
  omega

/-- A run that begins after the limit has passed does nothing. -/
theorem Machine.Expired.run_eq {limit : Nat} (h : m.Expired limit) (filled : linesOf source ≠ []) :
    m.run source = (.error (.failed (.timedOut limit)), m.looked) := by
  obtain ⟨depth, capacity⟩ := nestingCapacity_eq_succ
  obtain ⟨line, rest, split⟩ := List.exists_cons_of_ne_nil filled
  have late := checkTime_error_iff.2 ⟨limit, h.limited, h.isLate, rfl, rfl⟩
  rw [Machine.run_eq_runLines capacity, Machine.perform_eq_error_iff, split]
  exact runLines_of_late _ late

/-- The time that was read when a line was late has passed from then on. -/
theorem Machine.expired_looked {limit : Nat} (limited : m.context.budget.timeLimit = some limit)
    (late : m.isLate = true) : m.looked.Expired limit := by
  refine ⟨limited, ?_⟩
  have read : m.looked.server.clock.now = m.server.clock.read.1 := by
    simp [Machine.looked, limited, Clock.read]
  rw [read]
  exact (Machine.isLate_iff limited).1 late

private theorem Machine.use_chain (m : Machine) {u : Use} (unreset : u ≠ .restartClock) :
    Chain (fun _ => True) m (m.use u).2 := by
  cases u with
  | run source =>
    have c := run_chain nestingCapacity source m m.functions.asksOnly_true
    exact c.mono fun _ _ => trivial
  | runNamed name =>
    have c := runNamed_chain (run_chain nestingCapacity) name m.functions.asksOnly_true
    exact c.mono fun _ _ => trivial
  | restartClock => exact absurd rfl unreset

private theorem Machine.afterAll_chain {uses : List Use} (m : Machine)
    (unreset : Use.restartClock ∉ uses) :
    Chain (fun _ => True) m (m.afterAll uses) := by
  induction uses generalizing m with
  | nil => exact .refl
  | cons u rest ih =>
    rw [List.mem_cons, not_or] at unreset
    exact (m.use_chain (Ne.symm unreset.1)).trans (ih (m.use u).2 unreset.2)

private theorem Machine.run_untimed
    (punctual : ∀ s, m.Arrives source s → s.machine.isLate = false) :
    (m.untimed.run source).1 = (m.run source).1 ∧
      ∃ clock, (m.untimed.run source).2 =
        (m.run source).2.untimed.served fun s => { s with clock } := by
  obtain ⟨depth, capacity⟩ := nestingCapacity_eq_succ
  have related : Unhurried m m.untimed := ⟨m.server.clock, rfl⟩
  refine (runLines_unhurried related fun s arrives => ?_).run capacity
  exact punctual s ⟨depth, capacity, arrives⟩

end Runs

/-- Let a context have a time limit. Every line that is begun, be it run, skipped or passed over,
was preceded by a reading of the clock at which the limit had not passed. At a line where it has
passed, at any depth of includes, the whole run fails, whether the script is cancelled or not, and
leaves everything as it was there but for the reading; and from then on, until the clock is
restarted, every run of a text that has a line fails in the same way and leaves everything but the
clock. If the limit has not passed at any line that the run gets to, the run without the limit has
the same outcome and leaves the same machine, but for the limit and the clock. -/
theorem no_line_begins_after_limit (m : Machine) (source : String) (limit : Nat)
    (limited : m.context.budget.timeLimit = some limit) :
    (∀ s m₁, m.Arrives source s → s.machine.Begins m₁ → s.elapsed ≤ Clock.millis limit) ∧
    (∀ s, m.ArrivesByIncludes source s → Clock.millis limit < s.elapsed →
      m.run source =
        (.error (.failed (.timedOut limit)), s.machine.looked.atDepth m.context.includeDepth) ∧
      ∀ uses later, Use.restartClock ∉ uses → linesOf later ≠ [] →
        ((m.run source).2.afterAll uses).run later =
          (.error (.failed (.timedOut limit)), ((m.run source).2.afterAll uses).looked)) ∧
    ((∀ s, m.Arrives source s → s.elapsed ≤ Clock.millis limit) →
      (m.untimed.run source).1 = (m.run source).1 ∧
        ∃ clock, (m.untimed.run source).2 =
          (m.run source).2.untimed.served fun s => { s with clock }) := by
  have fixed : ∀ s, m.Arrives source s → s.machine.context.budget.timeLimit = some limit := by
    rintro s ⟨depth, -, arrives⟩
    have c : Chain (Label.Allowed fun _ => True) m s.machine :=
      arrives.chain m.functions.asksOnly_true
    exact c.sameSettings.timeLimit.trans limited
  have late_iff : ∀ s, m.Arrives source s →
      (s.machine.isLate = true ↔ Clock.millis limit < s.elapsed) :=
    fun s arrives => Machine.isLate_iff (fixed s arrives)
  refine ⟨fun s m₁ arrives begun => ?_, fun s arrives late => ?_, fun punctual => ?_⟩
  · have punctual := (Machine.begins_iff.1 begun).1
    rw [← Nat.not_lt, ← late_iff s arrives, punctual]
    exact Bool.false_ne_true
  · have isLate := (late_iff s arrives.arrives).2 late
    have limited' := fixed s arrives.arrives
    have halts : s.Halts (.failed (.timedOut limit)) s.machine.looked :=
      .late (checkTime_error_iff.2 ⟨limit, limited', isLate, rfl, rfl⟩)
    have ends := arrives.run_eq halts
    refine ⟨ends, fun uses later unreset filled => ?_⟩
    have expired : (m.run source).2.Expired limit := by
      have passed := Machine.expired_looked limited' isLate
      rw [ends]
      exact ⟨passed.limited, passed.expired⟩
    exact (expired.of_chain (Machine.afterAll_chain _ unreset)).run_eq filled
  · refine Machine.run_untimed fun s arrives => ?_
    rw [Bool.eq_false_iff, ne_eq, late_iff s arrives, Nat.not_lt]
    exact punctual s arrives

/-- A context with a limit of one millisecond, on a clock that moves by one before every reading. -/
def hurriedMachine : Machine where
  server :=
    { library := .shelf (Dictionary.empty.insert "slow" "# late\nmsg: never")
      clock := Clock.steady 1000000 }
  context :=
    { actor := { slot := 0, name := "Ann", uuid := ⟨0⟩ }
      bindings := Dictionary.empty
      budget := { limit := 0, started := 0, timeLimit := some 1 } }

def hurriedText : String := "include: slow\nmsg: never"

/-- The first line of the script that is included, which says nothing and is late. -/
def lateStart : LineStart :=
  ⟨nestingCapacity - 2, "# late", hurriedMachine.looked.entered⟩

private theorem hurriedMachine_arrives :
    hurriedMachine.ArrivesByIncludes hurriedText lateStart := by
  have outer : linesOf hurriedText = ["include: slow", "msg: never"] := by decide
  have inner : linesOf "# late\nmsg: never" = ["# late", "msg: never"] := by decide
  have begun : hurriedMachine.Begins hurriedMachine.looked :=
    Machine.begins_iff.2 ⟨by decide, rfl, rfl⟩
  have states : hurriedMachine.looked.statement? "include: slow" =
      some (.call "include" ["slow"]) := by decide
  have names : hurriedMachine.looked.included? "include: slow" = some "slow" := by
    rw [Machine.included?, Machine.called?, states]
    rfl
  have loaded : hurriedMachine.looked.server.library.load? "slow" =
      some "# late\nmsg: never" := by decide
  refine ⟨nestingCapacity - 2 + 1, by decide, ?_⟩
  rw [outer]
  refine .inside begun ⟨⟨"slow", names, loaded⟩, by decide, rfl⟩ ?_
  rw [inner]
  exact .first

theorem no_line_begins_after_limit_included :
    hurriedMachine.context.budget.timeLimit = some 1 ∧
      hurriedMachine.ArrivesByIncludes hurriedText lateStart ∧
      (hurriedMachine.run hurriedText).1 = .error (.failed (.timedOut 1)) ∧
      (((hurriedMachine.run hurriedText).2.afterAll [.runNamed "slow"]).run "msg: again").1 =
        .error (.failed (.timedOut 1)) := by
  have late : Clock.millis 1 < lateStart.elapsed := by decide
  have filled : linesOf "msg: again" ≠ [] := by decide
  have unreset : Use.restartClock ∉ [Use.runNamed "slow"] := by simp
  obtain ⟨ends, after⟩ := (no_line_begins_after_limit hurriedMachine hurriedText 1 rfl).2.1
    lateStart hurriedMachine_arrives late
  refine ⟨rfl, hurriedMachine_arrives, by rw [ends], ?_⟩
  rw [after [.runNamed "slow"] "msg: again" unreset filled]

end MenuScript
