import MenuScript.Proofs.ComposedActions

/-!
# Every computation of the interpreter is a chain of elementary changes

Statements that attempt no action and launch no script make quiet changes only. What routines may
ask for is a property of the function table, and it stays one while scripts run, because the table
can only lose names.
-/

namespace MenuScript

open Script

/-- Whether every request of the routine satisfies `p`, whatever it has been answered before. -/
def Routine.AsksOnly {α : Type} (p : Request → Prop) : Routine α → Prop
  | .done _ => True
  | .ask request next => p request ∧ ∀ answer, (next answer).AsksOnly p

/-- Whether a function asks for nothing but what satisfies `p`. -/
def Callable.AsksOnly (p : Request → Prop) : Callable → Prop
  | .builtin _ => True
  | .routine body => ∀ args, (body args).AsksOnly p

/-- Whether all functions of the table ask for nothing but what satisfies `p`. -/
def FunctionTable.AsksOnly (t : FunctionTable) (p : Request → Prop) : Prop :=
  ∀ name f, t.get? name = some f → f.AsksOnly p

private theorem Routine.asksOnly_true {α : Type} (r : Routine α) : r.AsksOnly fun _ => True := by
  induction r with
  | done a => trivial
  | ask request next ih => exact ⟨trivial, ih⟩

theorem FunctionTable.asksOnly_true (t : FunctionTable) : t.AsksOnly fun _ => True := by
  intro name f _
  cases f with
  | builtin b => trivial
  | routine body => exact fun args => (body args).asksOnly_true

/-- Whether the table has no functions but those that engines start with, under any names. -/
def FunctionTable.OnlyBuiltins (t : FunctionTable) : Prop :=
  ∀ name f, t.get? name = some f → ∃ b, f = .builtin b

theorem FunctionTable.OnlyBuiltins.asksOnly {t : FunctionTable} (h : t.OnlyBuiltins)
    (p : Request → Prop) : t.AsksOnly p := by
  intro name f hf
  obtain ⟨b, rfl⟩ := h name f hf
  trivial

theorem FunctionTable.forall_register {P : Callable → Prop} {t : FunctionTable}
    (h : ∀ key f, t.get? key = some f → P f) (name : String) {f : Callable} (hf : P f) :
    ∀ key g, (t.register name f).2.get? key = some g → P g := by
  intro key g hg
  rw [FunctionTable.register] at hg
  split_ifs at hg
  · exact h key g hg
  · rw [Dictionary.get?_insert] at hg
    split_ifs at hg
    · cases hg
      exact hf
    · exact h key g hg

theorem FunctionTable.onlyBuiltins_builtins : FunctionTable.builtins.OnlyBuiltins := by
  have empty : FunctionTable.OnlyBuiltins Dictionary.empty := fun name f hf => by cases hf
  exact List.foldlRecOn Builtin.all _ empty fun t h b _ => forall_register h b.name ⟨b, rfl⟩

/-- A table only ever loses names. -/
theorem Change.get?_functions {label : Label} {m m' : Machine} (c : Change label m m')
    {name : String} {f : Callable} (h : m'.functions.get? name = some f) :
    m.functions.get? name = some f := by
  cases c with
  | asked m r =>
    cases r with
    | unregister other =>
      simp only [Request.effect, Dictionary.get?_erase] at h
      split_ifs at h
      exact h
    | _ => exact h
  | _ => exact h

theorem Chain.get?_functions {allowed : Label → Prop} {m m' : Machine} (c : Chain allowed m m')
    {name : String} {f : Callable} (h : m'.functions.get? name = some f) :
    m.functions.get? name = some f := by
  induction c with
  | refl => exact h
  | tail _ last ih =>
    obtain ⟨label, _, hc⟩ := last
    exact ih (hc.get?_functions h)

theorem Chain.asksOnly {allowed : Label → Prop} {m m' : Machine} (c : Chain allowed m m')
    {p : Request → Prop} (h : m.functions.AsksOnly p) : m'.functions.AsksOnly p :=
  fun name f hf => h name f (c.get?_functions hf)

theorem Chain.onlyBuiltins {allowed : Label → Prop} {m m' : Machine} (c : Chain allowed m m')
    (h : m.functions.OnlyBuiltins) : m'.functions.OnlyBuiltins :=
  fun name f hf => h name f (c.get?_functions hf)

namespace Label

/-- The changes of a statement that attempts no action, launches no script and concerns no
branch. -/
def IsQuiet : Label → Prop
  | .told _ | .paused | .drew | .assigned => True
  | _ => False

/-- The changes of a line that attempts no action and launches no script. -/
def IsIdle : Label → Prop
  | .told _ | .paused | .drew | .assigned | .kept | .opened | .skipped | .turned | .closed => True
  | _ => False

/-- The changes of scripts whose functions ask for nothing but what satisfies `p`. -/
def Allowed (p : Request → Prop) : Label → Prop
  | .asked r => p r
  | _ => True

theorem IsIdle.allowed {p : Request → Prop} : ∀ label : Label, label.IsIdle → label.Allowed p
  | .told _, _ | .paused, _ | .drew, _ | .assigned, _ | .kept, _ | .opened, _ | .skipped, _
  | .turned, _ | .closed, _ => trivial

theorem IsQuiet.idle : ∀ label : Label, label.IsQuiet → label.IsIdle
  | .told _, _ | .paused, _ | .drew, _ | .assigned, _ => trivial

end Label

/-- Why a line halts a script that attempts no action and launches no script. -/
def Halt.isPlain : Halt → Bool
  | .failed (.unknownCommand _) | .failed (.stackUnderflow _) | .failed .divisionByZero
  | .failed (.functionNotFound _) => true
  | _ => false

section Combinators

variable {α β : Type} {allowed : Label → Prop} {m : Machine}

theorem Machine.perform_of_ok {x : Script α} {a : α} {m' : Machine} (h : x m = .ok a m') :
    (m.perform x).2 = m' := by
  rw [Machine.perform, h]

theorem Machine.perform_of_error {x : Script α} {e : Halt} {m' : Machine}
    (h : x m = .error e m') : (m.perform x).2 = m' := by
  rw [Machine.perform, h]

theorem Chain.of_ok {x : Script α} {a : α} {m' : Machine} (h : x m = .ok a m')
    (c : Chain allowed m m') : Chain allowed m (m.perform x).2 := by
  rw [Machine.perform_of_ok h]
  exact c

theorem Chain.of_error {x : Script α} {e : Halt} {m' : Machine} (h : x m = .error e m')
    (c : Chain allowed m m') : Chain allowed m (m.perform x).2 := by
  rw [Machine.perform_of_error h]
  exact c

theorem Chain.to_ok {x : Script α} {a : α} {m' : Machine} (c : Chain allowed m (m.perform x).2)
    (h : x m = .ok a m') : Chain allowed m m' := by
  rwa [Machine.perform_of_ok h] at c

theorem Chain.to_error {x : Script α} {e : Halt} {m' : Machine}
    (c : Chain allowed m (m.perform x).2) (h : x m = .error e m') : Chain allowed m m' := by
  rwa [Machine.perform_of_error h] at c

theorem Chain.bind {x : Script α} {f : α → Script β} (first : Chain allowed m (m.perform x).2)
    (second : ∀ a m', x m = .ok a m' → Chain allowed m' (m'.perform (f a)).2) :
    Chain allowed m (m.perform (x >>= f)).2 := by
  cases h : x m with
  | ok a m' =>
    have same : m.perform (x >>= f) = m'.perform (f a) := by
      simp only [Machine.perform, bind_of_ok m h]
    rw [same]
    exact (first.to_ok h).trans (second a m' h)
  | error e m' => exact Chain.of_error (bind_of_error m h) (first.to_error h)

theorem Chain.context_bind {f : Context → Script β}
    (c : Chain allowed m (m.perform (f m.context)).2) :
    Chain allowed m (m.perform (context >>= f)).2 := by
  rw [Machine.perform, Script.context_bind]
  exact c

/-- Whether a computation makes nothing but allowed changes, and halts for no other reasons than
plain ones. -/
structure Plainly (allowed : Label → Prop) (m : Machine) (x : Script α) : Prop where
  chain : Chain allowed m (m.perform x).2
  halts : ∀ e m', x m = .error e m' → e.isPlain = true

namespace Plainly

theorem of_ok {x : Script α} {a : α} {m' : Machine} (h : x m = .ok a m')
    (c : Chain allowed m m') : Plainly allowed m x where
  chain := Chain.of_ok h c
  halts e m₁ fails := by
    rw [h] at fails
    cases fails

theorem of_error {x : Script α} {e : Halt} {m' : Machine} (h : x m = .error e m')
    (plain : e.isPlain = true) (c : Chain allowed m m') : Plainly allowed m x where
  chain := Chain.of_error h c
  halts e' m₁ fails := by
    rw [h] at fails
    cases fails
    exact plain

theorem bind {x : Script α} {f : α → Script β} (first : Plainly allowed m x)
    (second : ∀ a m', x m = .ok a m' → Plainly allowed m' (f a)) :
    Plainly allowed m (x >>= f) where
  chain := Chain.bind first.chain fun a m' h => (second a m' h).chain
  halts e m₁ fails := by
    cases h : x m with
    | ok a m' =>
      rw [bind_of_ok m h] at fails
      exact (second a m' h).halts e m₁ fails
    | error e' m' =>
      rw [bind_of_error m h] at fails
      cases fails
      exact first.halts e m₁ h

theorem mono {wider : Label → Prop} {x : Script α} (h : ∀ label, allowed label → wider label)
    (c : Plainly allowed m x) : Plainly wider m x := ⟨c.chain.mono h, c.halts⟩

theorem of_eq {x y : Script α} (h : x m = y m) (c : Plainly allowed m y) :
    Plainly allowed m x where
  chain := by
    rw [Machine.perform, h]
    exact c.chain
  halts e m' fails := c.halts e m' (h ▸ fails)

end Plainly

end Combinators

section Quiet

/-- Whether a step makes quiet changes, or fails for a plain reason. -/
def Step.isQuiet : Step → Bool
  | .fail e => (Halt.failed e).isPlain
  | .act | .branch => false
  | .tell | .assign | .draw | .pause => true

theorem Plainly.of_composed {α : Type} {steps : List Step} {x : Script α}
    (composed : Composed steps x) (quiet : ∀ s ∈ steps, s.isQuiet = true) (m : Machine) :
    Plainly Label.IsQuiet m x := by
  induction composed generalizing m with
  | pure a => exact .of_ok rfl .refl
  | fail h => exact .of_error rfl (quiet _ h) .refl
  | act a h => cases quiet _ h
  | tell e silent own h =>
    exact .of_ok rfl (Chain.single (.told m _ (silent _) (own _)) trivial)
  | assign name value h =>
    exact .of_ok (modifyContext_apply m _) (Chain.single (.assigned m name value) trivial)
  | branch f h => cases quiet _ h
  | draw least greatest h =>
    exact .of_ok (draw_apply m least greatest) (Chain.single (.drew m _) trivial)
  | pause millis h =>
    refine .of_ok (modifyServer_apply m _) ?_
    rw [Machine.served_pause]
    exact Chain.single (.paused m _ millis) trivial
  | look y comes rest ih => exact .of_eq (comes m) (ih m.seen m)
  | bind first rest ih ih' => exact .bind (ih m) fun a m' _ => ih' a m'

variable (m : Machine)

/-- Steps of a call other than actions are quiet. -/
theorem Builtin.isQuiet_of_mem {b : Builtin} {args : List Value} {step : Step}
    (mem : step ∈ b.steps args) (other : step ≠ .act) : step.isQuiet = true := by
  rw [steps.eq_def] at mem
  split at mem <;> grind [Step.isQuiet, Halt.isPlain]

/-- A call that attempts no action and includes no script makes quiet changes. -/
theorem Builtin.call_quiet (nested : String → Script Value) {b : Builtin} {args : List Value}
    (idle : b.attempt? m args = none) (plain : Callable.included? (.builtin b) args = none) :
    Plainly Label.IsQuiet m (b.call nested args) := by
  by_cases acts : .act ∈ b.steps args
  · obtain ran | ⟨text, ran⟩ := b.call_of_unattempted nested acts idle
    · exact .of_ok ran .refl
    · exact .of_ok ran (Chain.single (.told m _ rfl rfl) trivial)
  · refine .of_composed (b.call_composed nested plain) (fun step mem => ?_) m
    exact isQuiet_of_mem mem fun same => acts (same ▸ mem)

/-- Steps of a statement that concerns no branch are quiet, unless they are actions. -/
theorem Statement.isQuiet_of_mem {s : Statement} {step : Step} (straight : s.isFlow = false)
    (mem : step ∈ s.steps) (other : step ≠ .act) : step.isQuiet = true := by
  rw [steps.eq_def] at mem
  split at mem <;> grind [Step.isQuiet, Halt.isPlain, Statement.isFlow]

/-- A statement that concerns no branch, attempts no action and calls nothing but functions of the
engine other than `include` makes quiet changes. -/
theorem Statement.perform_quiet (nested : String → Script Value) {s : Statement}
    (straight : s.isFlow = false) (idle : s.attempt? m = none)
    (plain : ∀ f args, s.called? m = some (f, args) →
      ∃ b, f = .builtin b ∧ f.included? args = none) :
    Plainly Label.IsQuiet m (s.perform nested) := by
  by_cases calls : ∃ function arguments, s = .call function arguments
  · obtain ⟨function, arguments, rfl⟩ := calls
    cases hf : m.functions.get? function with
    | none => exact .of_error (perform_call_of_none m nested hf) rfl .refl
    | some f =>
      have hcall : (Statement.call function arguments).called? m =
          some (f, arguments.map fun a => .string (m.context.resolve a)) := by
        simp [called?, hf]
      obtain ⟨b, rfl, hb⟩ := plain _ _ hcall
      have hidle : b.attempt? m (arguments.map fun a => .string (m.context.resolve a)) = none := by
        simpa only [attempt?, hcall] using idle
      exact .of_eq (perform_of_called? m nested hcall) (Builtin.call_quiet m nested hidle hb)
  · by_cases acts : .act ∈ s.steps
    · obtain ran | ⟨text, ran⟩ := s.perform_of_unattempted nested acts idle
      · exact .of_ok ran .refl
      · exact .of_ok ran (Chain.single (.told m _ rfl rfl) trivial)
    · have uncalled : ∀ function arguments, s ≠ .call function arguments :=
        fun function arguments same => calls ⟨function, arguments, same⟩
      refine .of_composed (s.perform_composed nested uncalled) (fun step mem => ?_) m
      exact isQuiet_of_mem straight mem fun same => acts (same ▸ mem)

theorem popBranch_machine : (m.perform popBranch).2 = m.branching List.tail := by
  obtain ⟨engine, context⟩ := m
  obtain ⟨actor, bindings, result, cancelled, budget, data, branches, depth⟩ := context
  cases branches <;> rfl

theorem popBranch_idle : Plainly Label.IsIdle m popBranch where
  chain := by
    rw [popBranch_machine]
    exact Chain.single (.closed m) trivial
  halts e m' fails := by
    rw [popBranch, context_bind] at fails
    cases h : m.context.branches.pop? with
    | none =>
      rw [h] at fails
      cases fails
      rfl
    | some top =>
      rw [h] at fails
      cases fails

theorem Statement.perform_idle (nested : String → Script Value) (s : Statement)
    (running : m.context.branches.isSkipping = false) (idle : s.attempt? m = none)
    (plain : ∀ f args, s.called? m = some (f, args) →
      ∃ b, f = .builtin b ∧ f.included? args = none) :
    Plainly Label.IsIdle m (s.perform nested) := by
  cases s with
  | ifHolds condition =>
    exact .of_ok rfl (Chain.single (.opened m (m.context.holds condition) running) trivial)
  | otherwise => exact .of_ok rfl (Chain.single (.turned m) trivial)
  | endIf =>
    rw [perform]
    exact .bind (popBranch_idle m) fun _ _ _ => .of_ok rfl .refl
  | _ => exact (perform_quiet m nested rfl idle plain).mono Label.IsQuiet.idle

theorem track_idle (line : String) (skipping : m.context.branches.isSkipping = true) :
    Chain Label.IsIdle m (m.branching (BranchStack.track line)) := by
  unfold BranchStack.track
  cases Statement.read? (trimmed line) with
  | none =>
    rw [Machine.branching_self m rfl]
  | some s =>
    cases s with
    | ifHolds condition => exact Chain.single (.skipped m skipping) trivial
    | otherwise => exact Chain.single (.turned m) trivial
    | endIf => exact Chain.single (.closed m) trivial
    | _ => rw [Machine.branching_self m rfl]

theorem Machine.builtin_of_called? {m : Machine} {line : String}
    (hb : m.functions.OnlyBuiltins) {f : Callable} {args : List Value}
    (calls : m.called? line = some (f, args)) : ∃ b, f = .builtin b := by
  obtain ⟨name, hname⟩ := Machine.get?_of_called? calls
  exact hb name f hname

theorem Machine.calls_builtins {m : Machine} {line : String} {s : Statement}
    (hb : m.functions.OnlyBuiltins) (hs : m.statement? line = some s)
    (plain : m.included? line = none) {f : Callable} {args : List Value}
    (called : s.called? m = some (f, args)) : ∃ b, f = .builtin b ∧ f.included? args = none := by
  have calls : m.called? line = some (f, args) := by simp [Machine.called?, hs, called]
  obtain ⟨b, rfl⟩ := Machine.builtin_of_called? hb calls
  exact ⟨b, rfl, by simpa [Machine.included?, calls] using plain⟩

/-- Where no routines are registered, a line that attempts no action and includes no script changes
neither the budget nor the depth of includes, and performs no action. -/
theorem runLine_idle (nested : String → Script Value) {line : String}
    (hb : m.functions.OnlyBuiltins) (idle : m.attempt? line = none)
    (plain : m.included? line = none) : Plainly Label.IsIdle m (runLine nested line) := by
  obtain hi | ⟨hi, hs⟩ | ⟨hi, hs, hr⟩ | ⟨s, hs⟩ := runLine_cases m line
  · exact .of_ok (runLine_of_ignorable nested hi) .refl
  · exact .of_ok (runLine_of_skipping nested hi hs) (track_idle m line hs)
  · exact .of_error (runLine_of_unreadable nested hi hs hr) rfl .refl
  · have hrun := runLine_of_statement? nested hs
    have said : Plainly Label.IsIdle m (s.perform nested) := by
      refine s.perform_idle m nested (Machine.not_skipping_of_statement? hs) ?_ ?_
      · simpa [Machine.attempt?, hs] using idle
      · exact fun f args => Machine.calls_builtins hb hs plain
    cases hp : s.perform nested m with
    | ok value m' =>
      rw [hp] at hrun
      exact .of_ok hrun ((said.chain.to_ok hp).trans (Chain.single (.kept m' value) trivial))
    | error e m' =>
      rw [hp] at hrun
      exact .of_error hrun (said.halts e m' hp) (said.chain.to_error hp)

end Quiet

section Allowed

variable {p : Request → Prop} {m : Machine} {nested : String → Script Value}

theorem Attempt.make_chain {allowed : Label → Prop} {a : Attempt}
    (action : a.event.isAction = true) (acted : allowed (.acted a.event))
    (overdrew : allowed .overdrew) : Chain allowed m (m.perform a.make).2 := by
  have hrun := a.make_apply m
  split_ifs at hrun with hpaid
  · exact Chain.of_error hrun (Chain.single (.overdrew m hpaid) overdrew)
  · have paid : m.context.budget.counted.isOverdrawn = false := by simpa using hpaid
    exact Chain.of_ok hrun (Chain.single (.acted m _ action paid) acted)

/-- Whether running any source text is a chain of allowed changes. -/
def Obedient (p : Request → Prop) (nested : String → Script Value) : Prop :=
  ∀ source m, m.functions.AsksOnly p → Chain (Label.Allowed p) m (m.perform (nested source)).2

private theorem runIncluded_chain (hn : Obedient p nested) (name : String)
    (hm : m.functions.AsksOnly p) :
    Chain (Label.Allowed p) m (m.perform (runIncluded nested name)).2 := by
  cases hload : m.server.library.load? name with
  | none =>
    have missed := Change.told m (.missed name) rfl trivial
    exact Chain.of_ok (runIncluded_of_missing nested hload) (Chain.single missed trivial)
  | some source =>
    by_cases full : m.isFull
    · exact Chain.of_error (runIncluded_of_full nested hload full) .refl
    · have hrun := runIncluded_of_room nested hload full
      have inner := hn source m.entered hm
      have down : Chain (Label.Allowed p) m m.entered := Chain.single (.entered m) trivial
      cases hin : nested source m.entered with
      | ok a m' =>
        rw [hin] at hrun
        have up : Chain (Label.Allowed p) m' m'.left := Chain.single (.left m') trivial
        exact Chain.of_ok hrun ((down.trans (inner.to_ok hin)).trans up)
      | error e m' =>
        rw [hin] at hrun
        have up : Chain (Label.Allowed p) m' m'.left := Chain.single (.left m') trivial
        exact Chain.of_error hrun ((down.trans (inner.to_error hin)).trans up)

theorem Builtin.call_chain (hn : Obedient p nested) (b : Builtin) (args : List Value)
    (hm : m.functions.AsksOnly p) :
    Chain (Label.Allowed p) m (m.perform (b.call nested args)).2 := by
  cases names : Callable.included? (.builtin b) args with
  | some name =>
    rw [b.call_of_included? nested names]
    exact runIncluded_chain hn name hm
  | none =>
    cases ha : b.attempt? m args with
    | none =>
      exact ((Builtin.call_quiet m nested ha names).mono Label.IsQuiet.idle).chain.mono
        Label.IsIdle.allowed
    | some a =>
      rw [Machine.perform, Builtin.call_of_attempt? nested ha]
      exact Attempt.make_chain (Builtin.isAction_of_attempt? ha) trivial trivial

/-- Whether the request has a source text run. -/
def Request.launches : Request → Bool
  | .runSource _ | .runNamed _ => true
  | _ => false

private theorem popData_machine : (m.perform popData).2 = Request.effect .popData m := by
  obtain ⟨engine, context⟩ := m
  obtain ⟨actor, bindings, result, cancelled, budget, data, branches, depth⟩ := context
  cases data <;> rfl

/-- A request that runs no script has its effect and no other. -/
theorem Request.perform_machine {r : Request} (h : r.launches = false) :
    (m.perform (r.perform nested)).2 = r.effect m := by
  cases r with
  | popData => exact (attempt_machine m MenuScript.popData).trans popData_machine
  | popBranch => exact (attempt_machine m MenuScript.popBranch).trans (popBranch_machine m)
  | charge =>
    refine (attempt_machine m Script.charge).trans ?_
    have hrun := charge_apply m
    split_ifs at hrun with hpaid
    · exact Machine.perform_of_error hrun
    · exact Machine.perform_of_ok hrun
  | peekData =>
    rw [perform, Machine.perform, context_bind]
    cases m.context.data.head? <;> rfl
  | runSource source => cases h
  | runNamed name => cases h
  | _ => rfl

theorem runNamed_chain (hn : Obedient p nested) (name : String) (hm : m.functions.AsksOnly p) :
    Chain (Label.Allowed p) m (m.perform (runNamed nested name)).2 := by
  rw [runNamed, Machine.perform, get_bind]
  cases m.server.library.load? name with
  | none => exact .refl
  | some source => exact hn source m hm

theorem Request.perform_chain (hn : Obedient p nested) {r : Request} (hr : p r)
    (hm : m.functions.AsksOnly p) :
    Chain (Label.Allowed p) m (m.perform (r.perform nested)).2 := by
  cases hl : r.launches with
  | false =>
    rw [Request.perform_machine hl]
    exact Chain.single (.asked m r) hr
  | true =>
    cases r with
    | runSource source =>
      rw [perform, attempt_machine]
      exact hn source m hm
    | runNamed name =>
      rw [perform, attempt_machine]
      exact runNamed_chain hn name hm
    | _ => cases hl

theorem Routine.perform_chain {α : Type} (hn : Obedient p nested) {r : Routine α}
    (hr : r.AsksOnly p) (hm : m.functions.AsksOnly p) :
    Chain (Label.Allowed p) m (m.perform (r.perform nested)).2 := by
  induction r generalizing m with
  | done a => exact .refl
  | ask request next ih =>
    rw [Routine.perform]
    have first := Request.perform_chain hn hr.1 hm
    refine Chain.bind first fun answer m' hrun => ?_
    exact ih answer (hr.2 answer) ((first.to_ok hrun).asksOnly hm)

theorem Callable.call_chain (hn : Obedient p nested) {f : Callable} (hf : f.AsksOnly p)
    (args : List Value) (hm : m.functions.AsksOnly p) :
    Chain (Label.Allowed p) m (m.perform (f.call nested args)).2 := by
  cases f with
  | builtin b => exact Builtin.call_chain hn b args hm
  | routine body =>
    rw [Callable.call]
    refine Chain.bind (Routine.perform_chain hn (hf args) hm) fun outcome m' _ => ?_
    cases outcome <;> exact .refl

theorem Statement.perform_chain (hn : Obedient p nested) (s : Statement)
    (running : m.context.branches.isSkipping = false) (hm : m.functions.AsksOnly p) :
    Chain (Label.Allowed p) m (m.perform (s.perform nested)).2 := by
  cases hc : s.called? m with
  | some call =>
    obtain ⟨f, args⟩ := call
    rw [Machine.perform, perform_of_called? m nested hc]
    refine Callable.call_chain hn ?_ args hm
    cases s with
    | call function arguments =>
      obtain ⟨g, hg, heq⟩ := Option.map_eq_some_iff.mp hc
      cases heq
      exact hm _ _ hg
    | _ => cases hc
  | none =>
    cases ha : s.attempt? m with
    | some a =>
      rw [Machine.perform, perform_of_attempt? nested ha]
      exact Attempt.make_chain (isAction_of_attempt? ha) trivial trivial
    | none =>
      refine (s.perform_idle m nested running ha fun f args hcall => ?_).chain.mono
        Label.IsIdle.allowed
      rw [hc] at hcall
      cases hcall

theorem runLine_chain (hn : Obedient p nested) (line : String) (hm : m.functions.AsksOnly p) :
    Chain (Label.Allowed p) m (m.perform (runLine nested line)).2 := by
  obtain hi | ⟨hi, hs⟩ | ⟨hi, hs, hr⟩ | ⟨s, hs⟩ := runLine_cases m line
  · exact Chain.of_ok (runLine_of_ignorable nested hi) .refl
  · exact Chain.of_ok (runLine_of_skipping nested hi hs)
      ((track_idle m line hs).mono Label.IsIdle.allowed)
  · exact Chain.of_error (runLine_of_unreadable nested hi hs hr) .refl
  · have hrun := runLine_of_statement? nested hs
    have said := s.perform_chain hn (Machine.not_skipping_of_statement? hs) hm
    cases hp : s.perform nested m with
    | ok value m' =>
      rw [hp] at hrun
      exact Chain.of_ok hrun ((said.to_ok hp).trans (Chain.single (.kept m' value) trivial))
    | error e m' =>
      rw [hp] at hrun
      exact Chain.of_error hrun (said.to_error hp)

theorem checkTime_chain (m : Machine) : Chain (Label.Allowed p) m (m.perform checkTime).2 := by
  obtain h | h := checkTime_machine m <;> rw [h]
  exact Chain.single (.readClock m) trivial

theorem runLines_chain (hn : Obedient p nested) (lines : List String)
    (hm : m.functions.AsksOnly p) :
    Chain (Label.Allowed p) m (m.perform (runLines nested lines)).2 := by
  induction lines generalizing m with
  | nil => exact .refl
  | cons line rest ih =>
    rw [runLines]
    have time := checkTime_chain (p := p) m
    refine Chain.bind time fun _ m₁ htime => ?_
    refine Chain.context_bind ?_
    split_ifs
    · exact .refl
    · have hm₁ := (time.to_ok htime).asksOnly hm
      have step := runLine_chain hn line hm₁
      refine Chain.bind step fun _ m₂ hstep => ?_
      exact ih ((step.to_ok hstep).asksOnly hm₁)

/-- Running a source text is a chain of elementary changes, however deep scripts are nested in it
and whatever it is halted by. -/
theorem run_chain (depth : Nat) : Obedient p (run depth) := by
  induction depth with
  | zero =>
    intro source m _
    exact .refl
  | succ depth ih =>
    intro source m hm
    exact runLines_chain ih (linesOf source) hm

end Allowed

end MenuScript
