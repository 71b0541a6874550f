import MenuScript.Proofs.InterpreterChains
import Mathlib.Logic.Function.Iterate

/-!
# Coming back up from includes

A script that is included is run one include deeper, and the depth is put back however it ends. So
every computation of the interpreter ends at the depth at which it was begun, whatever functions are
registered and whatever it is halted by.
-/

namespace MenuScript

open Script

/-- Whether a computation ends at the depth of includes at which it is begun in `m`. -/
def IsLevel {α : Type} (m : Machine) (x : Script α) : Prop :=
  (m.perform x).2.context.includeDepth = m.context.includeDepth

namespace IsLevel

variable {α β : Type} {m m' : Machine} {x : Script α}

theorem of_ok {a : α} (ran : x m = .ok a m')
    (same : m'.context.includeDepth = m.context.includeDepth) : IsLevel m x := by
  rw [IsLevel, Machine.perform_of_ok ran, same]

theorem of_error {h : Halt} (ran : x m = .error h m')
    (same : m'.context.includeDepth = m.context.includeDepth) : IsLevel m x := by
  rw [IsLevel, Machine.perform_of_error ran, same]

theorem to_ok {a : α} (level : IsLevel m x) (ran : x m = .ok a m') :
    m'.context.includeDepth = m.context.includeDepth := by
  rwa [IsLevel, Machine.perform_of_ok ran] at level

theorem to_error {h : Halt} (level : IsLevel m x) (ran : x m = .error h m') :
    m'.context.includeDepth = m.context.includeDepth := by
  rwa [IsLevel, Machine.perform_of_error ran] at level

theorem bind {f : α → Script β} (first : IsLevel m x)
    (rest : ∀ a m', x m = .ok a m' → IsLevel m' (f a)) : IsLevel m (x >>= f) := by
  cases ran : x m with
  | error h m₁ => exact of_error (bind_of_error m ran) (first.to_error ran)
  | ok a m₁ =>
    have later := rest a m₁ ran
    rw [IsLevel, Machine.perform, bind_of_ok m ran]
    exact later.trans (first.to_ok ran)

theorem context_bind {f : Context → Script β} (rest : IsLevel m (f m.context)) :
    IsLevel m (context >>= f) := rest

end IsLevel

private theorem Change.includeDepth_of_idle {label : Label} {m m' : Machine} (idle : label.IsIdle)
    (c : Change label m m') : m'.context.includeDepth = m.context.includeDepth := by
  cases c with
  | told | paused | drew | assigned | kept | opened | skipped | turned | closed => rfl
  | acted | overdrew | readClock | entered | left | asked => exact absurd idle id

theorem Chain.isLevel {α : Type} {m : Machine} {x : Script α}
    (c : Chain Label.IsIdle m (m.perform x).2) : IsLevel m x :=
  c.keeps (I := fun m' => m'.context.includeDepth = m.context.includeDepth)
    (fun idle step same => (step.includeDepth_of_idle idle).trans same) rfl

theorem checkTime_includeDepth (m : Machine) :
    (m.perform checkTime).2.context.includeDepth = m.context.includeDepth := by
  obtain h | h := checkTime_machine m <;> rw [h]
  rfl

/-- The machine at another depth of includes. -/
def Machine.atDepth (m : Machine) (depth : Nat) : Machine :=
  m.updated fun c => { c with includeDepth := depth }

theorem Machine.left_iterate_eq_atDepth (k : Nat) (m : Machine) :
    Machine.left^[k] m = m.atDepth (Machine.left^[k] m).context.includeDepth := by
  induction k with
  | zero => rfl
  | succ k ih =>
    rw [Function.iterate_succ_apply', ih]
    rfl

section Levels

variable {m : Machine} {nested : String → Script Value}

theorem Attempt.make_isLevel (a : Attempt) (m : Machine) : IsLevel m a.make := by
  have made := a.make_apply m
  split_ifs at made
  · exact .of_error made rfl
  · exact .of_ok made rfl

private theorem runIncluded_isLevel (hn : ∀ source m, IsLevel m (nested source)) (name : String)
    (m : Machine) : IsLevel m (runIncluded nested name) := by
  cases loaded : m.server.library.load? name with
  | none => exact .of_ok (runIncluded_of_missing nested loaded) rfl
  | some source =>
    by_cases full : m.isFull
    · exact .of_error (runIncluded_of_full nested loaded full) rfl
    · have ran := runIncluded_of_room nested loaded full
      have inner := hn source m.entered
      cases hin : nested source m.entered with
      | ok value m' =>
        rw [hin] at ran
        exact .of_ok ran (congrArg (· - 1) (inner.to_ok hin))
      | error e m' =>
        rw [hin] at ran
        exact .of_error ran (congrArg (· - 1) (inner.to_error hin))

private theorem Builtin.call_isLevel (hn : ∀ source m, IsLevel m (nested source)) (b : Builtin)
    (args : List Value) (m : Machine) : IsLevel m (b.call nested args) := by
  cases names : Callable.included? (.builtin b) args with
  | some name =>
    rw [b.call_of_included? nested names]
    exact runIncluded_isLevel hn name m
  | none =>
    cases attempts : b.attempt? m args with
    | some a =>
      rw [IsLevel, Machine.perform, Builtin.call_of_attempt? nested attempts]
      exact a.make_isLevel m
    | none =>
      have quiet := Builtin.call_quiet m nested attempts names
      exact (quiet.mono Label.IsQuiet.idle).chain.isLevel

private theorem Request.perform_isLevel (hn : ∀ source m, IsLevel m (nested source)) (r : Request)
    (m : Machine) : IsLevel m (r.perform nested) := by
  cases launches : r.launches with
  | false =>
    rw [IsLevel, Request.perform_machine launches]
    cases r <;> rfl
  | true =>
    cases r with
    | runSource source =>
      rw [IsLevel, perform, attempt_machine]
      exact hn source m
    | runNamed name =>
      rw [IsLevel, perform, attempt_machine, MenuScript.runNamed, Machine.perform, get_bind]
      cases m.server.library.load? name with
      | none => rfl
      | some source => exact hn source m
    | _ => cases launches

private theorem Routine.perform_isLevel {α : Type} (hn : ∀ source m, IsLevel m (nested source))
    (r : Routine α) (m : Machine) : IsLevel m (r.perform nested) := by
  induction r generalizing m with
  | done a => exact .of_ok rfl rfl
  | ask request next ih =>
    exact .bind (Request.perform_isLevel hn request m) fun answer m' _ => ih answer m'

private theorem Callable.call_isLevel (hn : ∀ source m, IsLevel m (nested source)) (f : Callable)
    (args : List Value) (m : Machine) : IsLevel m (f.call nested args) := by
  cases f with
  | builtin b => exact Builtin.call_isLevel hn b args m
  | routine body =>
    rw [Callable.call]
    refine .bind (Routine.perform_isLevel hn (body args) m) fun outcome m' _ => ?_
    cases outcome with
    | ok value => exact .of_ok rfl rfl
    | error e => exact .of_error rfl rfl

private theorem Statement.perform_isLevel (hn : ∀ source m, IsLevel m (nested source))
    (s : Statement)
    (running : m.context.branches.isSkipping = false) : IsLevel m (s.perform nested) := by
  cases called : s.called? m with
  | some call =>
    rw [IsLevel, Machine.perform, perform_of_called? m nested called]
    exact Callable.call_isLevel hn call.1 call.2 m
  | none =>
    cases attempts : s.attempt? m with
    | some a =>
      rw [IsLevel, Machine.perform, perform_of_attempt? nested attempts]
      exact a.make_isLevel m
    | none =>
      refine (s.perform_idle m nested running attempts fun f args calls => ?_).chain.isLevel
      rw [called] at calls
      cases calls

theorem runLine_isLevel (hn : ∀ source m, IsLevel m (nested source)) (line : String)
    (m : Machine) : IsLevel m (runLine nested line) := by
  obtain hi | ⟨hi, hs⟩ | ⟨hi, hs, hr⟩ | ⟨s, hs⟩ := runLine_cases m line
  · exact .of_ok (runLine_of_ignorable nested hi) rfl
  · exact .of_ok (runLine_of_skipping nested hi hs) (Machine.branching_includeDepth m _)
  · exact .of_error (runLine_of_unreadable nested hi hs hr) rfl
  · have ran := runLine_of_statement? nested hs
    have said := s.perform_isLevel hn (Machine.not_skipping_of_statement? hs)
    cases performed : s.perform nested m with
    | ok value m' =>
      have same := said.to_ok performed
      rw [performed] at ran
      exact .of_ok ran same
    | error e m' =>
      rw [performed] at ran
      exact .of_error ran (said.to_error performed)

private theorem runLines_isLevel (hn : ∀ source m, IsLevel m (nested source)) (lines : List String)
    (m : Machine) : IsLevel m (runLines nested lines) := by
  induction lines generalizing m with
  | nil => exact .of_ok rfl rfl
  | cons line rest ih =>
    rw [runLines]
    refine .bind (checkTime_includeDepth m) fun _ m₁ _ => ?_
    refine .context_bind ?_
    split_ifs
    · exact .of_ok rfl rfl
    · exact .bind (runLine_isLevel hn line m₁) fun _ m₂ _ => ih m₂

/-- However a run ends, the depth of includes is what it was before. -/
theorem run_isLevel (depth : Nat) : ∀ source m, IsLevel m (run depth source) := by
  induction depth with
  | zero => exact fun source m => rfl
  | succ depth ih => exact fun source m => runLines_isLevel ih (linesOf source) m

end Levels

end MenuScript
