import MenuScript.Proofs.LineStarts

/-!
# How far a run gets

Lines are run one after another, so a run has passed all of its lines, or it has passed some of
them and ends at the next one: it is late there, the script has been cancelled, or the line fails.
The relation that tells these four ends is exact.
-/

namespace MenuScript

open Script

/-- `m.Begins m₁`: the next line after `m` is begun in `m₁`, because it is in time and the script
has not been cancelled. -/
structure Machine.Begins (m m₁ : Machine) : Prop where
  inTime : checkTime m = .ok () m₁
  going : m₁.context.cancelled = false

/-- `Passes nested lines m m'`: every one of the lines is begun and does not fail, which leads from
`m` to `m'`. -/
inductive Passes (nested : String → Script Value) : List String → Machine → Machine → Prop
  | nil (m : Machine) : Passes nested [] m m
  | cons {line : String} {rest : List String} {m m₁ m₂ m₃ : Machine} (begun : m.Begins m₁)
      (ran : runLine nested line m₁ = .ok () m₂) (more : Passes nested rest m₂ m₃) :
      Passes nested (line :: rest) m m₃

/-- The ends that running lines can come to. -/
inductive Finishes (nested : String → Script Value) (lines : List String) (m : Machine) :
    EStateM.Result Halt Machine Value → Prop
  | through {m' : Machine} (passed : Passes nested lines m m') :
      Finishes nested lines m (.ok m'.context.result m')
  | cancelled {before after : List String} {line : String} {m₁ m₂ : Machine}
      (split : lines = before ++ line :: after) (passed : Passes nested before m m₁)
      (inTime : checkTime m₁ = .ok () m₂) (stopped : m₂.context.cancelled = true) :
      Finishes nested lines m (.ok m₂.context.result m₂)
  | late {before after : List String} {line : String} {m₁ m₂ : Machine} {h : Halt}
      (split : lines = before ++ line :: after) (passed : Passes nested before m m₁)
      (late : checkTime m₁ = .error h m₂) : Finishes nested lines m (.error h m₂)
  | failed {before after : List String} {line : String} {m₁ m₂ m₃ : Machine} {h : Halt}
      (split : lines = before ++ line :: after) (passed : Passes nested before m m₁)
      (begun : m₁.Begins m₂) (fails : runLine nested line m₂ = .error h m₃) :
      Finishes nested lines m (.error h m₃)

/-- `m.Passes lines m'`: the same for the first lines of a source that is run in `m`. -/
def Machine.Passes (m : Machine) (lines : List String) (m' : Machine) : Prop :=
  ∃ depth, nestingCapacity = depth + 1 ∧ MenuScript.Passes (MenuScript.run depth) lines m m'

variable {nested : String → Script Value} {m m₁ m₂ : Machine} {line : String}
  {before rest lines : List String}

theorem Passes.runLines_append (passed : Passes nested before m m₁) (rest : List String) :
    runLines nested (before ++ rest) m = runLines nested rest m₁ := by
  induction passed with
  | nil m => rfl
  | cons begun ran more ih =>
    rw [List.cons_append, runLines_cons nested begun.inTime begun.going, ran]
    exact ih

theorem Machine.begins_iff :
    m.Begins m₁ ↔ m.isLate = false ∧ m.context.cancelled = false ∧ m₁ = m.looked := by
  constructor
  · rintro ⟨inTime, going⟩
    obtain ⟨punctual, rfl⟩ := checkTime_ok_iff.1 inTime
    exact ⟨punctual, going, rfl⟩
  · rintro ⟨punctual, going, rfl⟩
    exact ⟨checkTime_ok_iff.2 ⟨punctual, rfl⟩, going⟩

theorem checkTime_context {u : Unit} (inTime : checkTime m = .ok u m₁) :
    m₁.context = m.context := by
  obtain ⟨-, rfl⟩ := checkTime_ok_iff.1 inTime
  exact m.looked_context

theorem Machine.Begins.chain {p : Request → Prop} (begun : m.Begins m₁) :
    Chain (Label.Allowed p) m m₁ :=
  (checkTime_chain m).to_ok begun.inTime

theorem Machine.Begins.onlyBuiltins (begun : m.Begins m₁) (hb : m.functions.OnlyBuiltins) :
    m₁.functions.OnlyBuiltins :=
  (begun.chain (p := fun _ => False)).onlyBuiltins hb

theorem runLine_onlyBuiltins (obeys : Obedient (fun _ => False) nested) {line : String}
    (ran : runLine nested line m = .ok () m₁) (hb : m.functions.OnlyBuiltins) :
    m₁.functions.OnlyBuiltins :=
  ((runLine_chain obeys line (hb.asksOnly _)).to_ok ran).onlyBuiltins hb

/-- The machine that is left behind has been reached by elementary changes. -/
theorem Passes.chain {p : Request → Prop} (hn : Obedient p nested)
    (passed : Passes nested before m m₁) (hm : m.functions.AsksOnly p) :
    Chain (Label.Allowed p) m m₁ := by
  induction passed with
  | nil m => exact .refl
  | cons begun ran more ih =>
    have time := begun.chain (p := p)
    have step := (runLine_chain hn _ (time.asksOnly hm)).to_ok ran
    exact (time.trans step).trans (ih (step.asksOnly (time.asksOnly hm)))

private theorem Finishes.cons (begun : m.Begins m₁) (ran : runLine nested line m₁ = .ok () m₂)
    {r : EStateM.Result Halt Machine Value} (later : Finishes nested rest m₂ r) :
    Finishes nested (line :: rest) m r := by
  cases later with
  | through passed => exact .through (.cons begun ran passed)
  | cancelled split passed inTime stopped =>
    exact .cancelled (congrArg (line :: ·) split) (.cons begun ran passed) inTime stopped
  | late split passed late => exact .late (congrArg (line :: ·) split) (.cons begun ran passed) late
  | failed split passed begun' fails =>
    exact .failed (congrArg (line :: ·) split) (.cons begun ran passed) begun' fails

theorem finishes_runLines (nested : String → Script Value) (lines : List String) (m : Machine) :
    Finishes nested lines m (runLines nested lines m) := by
  induction lines generalizing m with
  | nil => exact .through (.nil m)
  | cons line rest ih =>
    have split : line :: rest = [] ++ line :: rest := rfl
    cases inTime : checkTime m with
    | error h m₁ =>
      rw [runLines_of_late nested inTime]
      exact .late split (.nil m) inTime
    | ok u m₁ =>
      cases going : m₁.context.cancelled with
      | true =>
        rw [runLines_of_cancelled nested inTime going]
        exact .cancelled split (.nil m) inTime going
      | false =>
        have begun : m.Begins m₁ := ⟨inTime, going⟩
        rw [runLines_cons nested inTime going]
        cases ran : runLine nested line m₁ with
        | error h m₂ => exact .failed split (.nil m) begun ran
        | ok v m₂ => exact (ih m₂).cons begun ran

private theorem Finishes.runLines_eq {r : EStateM.Result Halt Machine Value}
    (ends : Finishes nested lines m r) : runLines nested lines m = r := by
  cases ends with
  | through passed =>
    have whole := passed.runLines_append []
    rw [List.append_nil] at whole
    exact whole
  | cancelled split passed inTime stopped =>
    rw [split, passed.runLines_append, runLines_of_cancelled nested inTime stopped]
  | late split passed late => rw [split, passed.runLines_append, runLines_of_late nested late]
  | failed split passed begun fails =>
    rw [split, passed.runLines_append, runLines_cons nested begun.inTime begun.going, fails]

theorem runLines_eq_iff_finishes {r : EStateM.Result Halt Machine Value} :
    runLines nested lines m = r ↔ Finishes nested lines m r := by
  constructor
  · rintro rfl
    exact finishes_runLines nested lines m
  · exact Finishes.runLines_eq

section Runs

variable {source : String} {depth : Nat}

theorem Machine.perform_eq_ok_iff {α : Type} {x : Script α} {a : α} {m' : Machine} :
    m.perform x = (.ok a, m') ↔ x m = .ok a m' := by
  rw [Machine.perform]
  cases x m <;> simp

theorem Machine.perform_eq_error_iff {α : Type} {x : Script α} {h : Halt} {m' : Machine} :
    m.perform x = (.error h, m') ↔ x m = .error h m' := by
  rw [Machine.perform]
  cases x m <;> simp

theorem nestingCapacity_eq_succ : ∃ depth, nestingCapacity = depth + 1 :=
  ⟨nestingCapacity - 1, by decide⟩

theorem Machine.run_eq_runLines {depth : Nat} (h : nestingCapacity = depth + 1) (source : String)
    (m : Machine) :
    m.run source = m.perform (runLines (MenuScript.run depth) (linesOf source)) := by
  rw [Machine.run, h]
  rfl

/-- What an outcome was halted by. -/
def Halt.of? {α : Type} : Except Halt α → Option Halt
  | .ok _ => none
  | .error h => some h

theorem Halt.eq_of_of? {α : Type} {ended : Except Halt α × Machine} {h : Halt}
    (halted : Halt.of? ended.1 = some h) : ∃ m', ended = (.error h, m') := by
  obtain ⟨outcome, m'⟩ := ended
  cases outcome with
  | ok a => cases halted
  | error e =>
    cases halted
    exact ⟨m', rfl⟩

theorem Machine.run_eq_ok_iff (capacity : nestingCapacity = depth + 1) {value : Value}
    {m' : Machine} :
    m.run source = (.ok value, m') ↔
      Finishes (MenuScript.run depth) (linesOf source) m (.ok value m') := by
  rw [Machine.run_eq_runLines capacity, Machine.perform_eq_ok_iff, runLines_eq_iff_finishes]

theorem Machine.run_eq_error_iff (capacity : nestingCapacity = depth + 1) {h : Halt}
    {m' : Machine} :
    m.run source = (.error h, m') ↔
      Finishes (MenuScript.run depth) (linesOf source) m (.error h m') := by
  rw [Machine.run_eq_runLines capacity, Machine.perform_eq_error_iff, runLines_eq_iff_finishes]

end Runs

end MenuScript
