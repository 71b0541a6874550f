import MenuScript.Proofs.InterpreterChains

/-!
# The lines that a run comes to

A run comes to a line at its own level, or inside a script that one of its lines has launched: by
an include, or through a routine that has a source run. The points at which lines are begun are
given by a relation, so that statements about every line of a run can be made. Where no routines
are registered, only includes launch anything.
-/

namespace MenuScript

open Script

/-- A line that is about to be run or skipped, in a machine; `capacity` is how deep sources may
still be nested within it. -/
structure LineStart where
  capacity : Nat
  line : String
  machine : Machine

/-- `r.Launches nested m source m'`: performed in `m`, the routine has `source` run in `m'`. -/
inductive Routine.Launches {α : Type} (nested : String → Script Value) :
    Routine α → Machine → String → Machine → Prop
  | source {m : Machine} (source : String)
      (next : (Request.runSource source).Answer → Routine α) :
      Launches nested (.ask (.runSource source) next) m source m
  | named {m : Machine} {name source : String}
      (next : (Request.runNamed name).Answer → Routine α)
      (loaded : m.server.library.load? name = some source) :
      Launches nested (.ask (.runNamed name) next) m source m
  | later {m m' m'' : Machine} {source : String} {request : Request}
      {next : request.Answer → Routine α} {answer : request.Answer}
      (asked : request.perform nested m = .ok answer m')
      (more : Launches nested (next answer) m' source m'') :
      Launches nested (.ask request next) m source m''

/-- `Launches nested m line source m'`: run in `m`, the line has `source` run in `m'`. -/
inductive Launches (nested : String → Script Value) (m : Machine) (line : String) :
    String → Machine → Prop
  | included {name source : String} (names : m.included? line = some name)
      (loaded : m.server.library.load? name = some source) (room : ¬ m.isFull) :
      Launches nested m line source m.entered
  | routine {body : List Value → Routine (Except ScriptError Value)} {args : List Value}
      {source : String} {m' : Machine} (calls : m.called? line = some (.routine body, args))
      (more : (body args).Launches nested m source m') :
      Launches nested m line source m'

/-- `ComesTo depth lines m s`: running the lines from `m` comes to the line start `s`. Sources
within the lines may be nested less than `depth` deep. -/
inductive ComesTo : Nat → List String → Machine → LineStart → Prop
  | first {depth : Nat} {line : String} {rest : List String} {m m₁ : Machine}
      (inTime : checkTime m = .ok () m₁) (going : m₁.context.cancelled = false) :
      ComesTo depth (line :: rest) m ⟨depth, line, m₁⟩
  | later {depth : Nat} {line : String} {rest : List String} {m m₁ m₂ : Machine} {s : LineStart}
      (inTime : checkTime m = .ok () m₁) (going : m₁.context.cancelled = false)
      (ran : runLine (run depth) line m₁ = .ok () m₂) (more : ComesTo depth rest m₂ s) :
      ComesTo depth (line :: rest) m s
  | inside {depth : Nat} {line source : String} {rest : List String} {m m₁ m₂ : Machine}
      {s : LineStart} (inTime : checkTime m = .ok () m₁) (going : m₁.context.cancelled = false)
      (launched : Launches (run (depth + 1)) m₁ line source m₂)
      (more : ComesTo depth (linesOf source) m₂ s) :
      ComesTo (depth + 1) (line :: rest) m s

/-- Running the source in the machine comes to the line start. -/
def Machine.ComesTo (m : Machine) (source : String) (s : LineStart) : Prop :=
  ∃ depth, nestingCapacity = depth + 1 ∧ MenuScript.ComesTo depth (linesOf source) m s

/-- The machine once the time has been looked at, for which the clock is read if there is a
limit. -/
def Machine.looked (m : Machine) : Machine :=
  m.served fun s =>
    { s with clock := if m.context.budget.timeLimit.isSome then s.clock.read.2 else s.clock }

/-- Whether the time limit has passed if it is looked at now. -/
def Machine.isLate (m : Machine) : Bool := m.context.budget.isLate m.server.clock.read.1

section Looking

variable {m m₁ : Machine}

@[simp] theorem Machine.looked_context (m : Machine) : m.looked.context = m.context := rfl

theorem Machine.looked_of_no_limit (untimed : m.context.budget.timeLimit = none) :
    m.looked = m := by
  simp [looked, Machine.served, untimed]

theorem Machine.isLate_of_no_limit (untimed : m.context.budget.timeLimit = none) :
    m.isLate = false := by
  simp [isLate, Budget.isLate, untimed]

theorem checkTime_of_limit {limit : Nat} (limited : m.context.budget.timeLimit = some limit) :
    checkTime m =
      if m.isLate then .error (.failed (.timedOut limit)) m.looked else .ok () m.looked := by
  have reads : readClock m = .ok m.server.clock.read.1 m.looked := by
    simp only [readClock, get_bind, modifyServer_bind, pure_apply, Machine.looked, limited,
      Option.isSome_some, if_true]
    rfl
  have checks : m.context.budget.checkTime m.server.clock.read.1 =
      if m.isLate then .error (.timedOut limit) else .ok () := by
    rw [Budget.checkTime, limited]
    rfl
  rw [checkTime, context_bind, limited]
  simp only [Option.isSome_some, if_true]
  rw [bind_of_ok m reads, checks]
  split_ifs <;> rfl

theorem checkTime_ok_iff : checkTime m = .ok () m₁ ↔ m.isLate = false ∧ m₁ = m.looked := by
  cases limited : m.context.budget.timeLimit with
  | none =>
    rw [checkTime_of_no_limit m limited, Machine.isLate_of_no_limit limited,
      Machine.looked_of_no_limit limited]
    simp [eq_comm]
  | some limit =>
    rw [checkTime_of_limit limited]
    cases m.isLate <;> simp [eq_comm]

theorem checkTime_error_iff {h : Halt} :
    checkTime m = .error h m₁ ↔ ∃ limit, m.context.budget.timeLimit = some limit ∧
      m.isLate = true ∧ h = .failed (.timedOut limit) ∧ m₁ = m.looked := by
  cases limited : m.context.budget.timeLimit with
  | none =>
    rw [checkTime_of_no_limit m limited]
    simp
  | some limit =>
    rw [checkTime_of_limit limited]
    cases m.isLate <;> simp [eq_comm]

end Looking

section Lines

variable {m m₁ : Machine} (nested : String → Script Value) {line : String} {rest : List String}

theorem runLines_cons (inTime : checkTime m = .ok () m₁) (going : m₁.context.cancelled = false) :
    runLines nested (line :: rest) m =
      match runLine nested line m₁ with
      | .ok _ m₂ => runLines nested rest m₂
      | .error e m₂ => .error e m₂ := by
  rw [runLines, bind_of_ok m inTime, context_bind]
  simp only [going, Bool.false_eq_true, if_false]
  rw [bind_apply]
  cases runLine nested line m₁ <;> rfl

theorem runLines_of_cancelled (inTime : checkTime m = .ok () m₁)
    (stopped : m₁.context.cancelled = true) :
    runLines nested (line :: rest) m = .ok m₁.context.result m₁ := by
  rw [runLines, bind_of_ok m inTime, context_bind]
  simp only [stopped, if_true]
  rfl

theorem runLines_of_late {e : Halt} (late : checkTime m = .error e m₁) :
    runLines nested (line :: rest) m = .error e m₁ := by
  rw [runLines, bind_of_error m late]

theorem timedOut_of_checkTime {e : Halt} (late : checkTime m = .error e m₁) :
    ∃ limit, e = .failed (.timedOut limit) := by
  obtain ⟨limit, -, -, same, -⟩ := checkTime_error_iff.1 late
  exact ⟨limit, same⟩

end Lines

section Chains

variable {p : Request → Prop} {m : Machine}

private theorem Routine.Launches.chain {α : Type} {nested : String → Script Value} {r : Routine α}
    {source : String} {m' : Machine} (h : r.Launches nested m source m') (hn : Obedient p nested)
    (hr : r.AsksOnly p) (hm : m.functions.AsksOnly p) : Chain (Label.Allowed p) m m' := by
  induction h with
  | source source next => exact .refl
  | named next loaded => exact .refl
  | later asked more ih =>
    have first := (Request.perform_chain hn hr.1 hm).to_ok asked
    exact first.trans (ih (hr.2 _) (first.asksOnly hm))

theorem Launches.chain {nested : String → Script Value} {line source : String} {m' : Machine}
    (h : Launches nested m line source m') (hn : Obedient p nested)
    (hm : m.functions.AsksOnly p) : Chain (Label.Allowed p) m m' := by
  cases h with
  | included names loaded room => exact Chain.single (.entered m) trivial
  | routine calls more =>
    obtain ⟨name, hname⟩ := Machine.get?_of_called? calls
    exact more.chain hn (hm name _ hname _) hm

end Chains

section Inclusions

variable {m : Machine} {line source : String}

/-- Where no routines are registered, nothing but an include launches a script. -/
theorem Launches.includes {nested : String → Script Value} {m' : Machine}
    (h : Launches nested m line source m') (hb : m.functions.OnlyBuiltins) :
    m' = m.entered ∧ ¬ m.isFull ∧
      ∃ name, m.included? line = some name ∧ m.server.library.load? name = some source := by
  cases h with
  | included names loaded room => exact ⟨rfl, room, _, names, loaded⟩
  | routine calls more =>
    obtain ⟨b, hfalse⟩ := Machine.builtin_of_called? hb calls
    cases hfalse

theorem runLine_of_failing_include {nested : String → Script Value} {name : String} {e : Halt}
    {m' : Machine} (names : m.included? line = some name)
    (loaded : m.server.library.load? name = some source) (room : ¬ m.isFull)
    (fails : nested source m.entered = .error e m') :
    runLine nested line m = .error e m'.left := by
  rw [runLine_of_included? nested names, runIncluded_of_room nested loaded room, fails]

end Inclusions

end MenuScript
