import MenuScript.Engine

/-!
# Computations as functions of the machine

The primitive computations of scripts are given here by what they make of a machine. Later modules
run a computation by rewriting with these equations, so they never open the monad again.
-/

namespace MenuScript

namespace Budget

variable (b : Budget)

@[simp] theorem counted_limit : b.counted.limit = b.limit := rfl

end Budget

namespace Machine

/-- The machine with another context. -/
def updated (m : Machine) (f : Context → Context) : Machine := { m with context := f m.context }

/-- The machine with another server. -/
def served (m : Machine) (f : Server → Server) : Machine := { m with server := f m.server }

/-- The machine with one more event in its log. -/
def logged (m : Machine) (e : Event) : Machine := m.served (·.record e)

/-- The machine with one more action counted. -/
def counted (m : Machine) : Machine := m.updated fun c => { c with budget := c.budget.counted }

/-- The machine that has kept the value of a line. -/
def keeping (m : Machine) (value : Value) : Machine := m.updated fun c => { c with result := value }

/-- The machine with other branches open. -/
def branching (m : Machine) (f : BranchStack → BranchStack) : Machine :=
  m.updated fun c => { c with branches := f c.branches }

/-- The machine one include deeper. -/
def entered (m : Machine) : Machine :=
  m.updated fun c => { c with includeDepth := c.includeDepth + 1 }

/-- The machine one include less deep. -/
def left (m : Machine) : Machine :=
  m.updated fun c => { c with includeDepth := c.includeDepth - 1 }

/-- Whether an include is refused for its depth. -/
def isFull (m : Machine) : Prop :=
  0 < m.config.maxIncludeDepth ∧ m.config.maxIncludeDepth.toNat ≤ m.context.includeDepth

instance (m : Machine) : Decidable m.isFull := inferInstanceAs (Decidable (_ ∧ _))

variable (m : Machine)

@[simp] theorem updated_context (f : Context → Context) : (m.updated f).context = f m.context := rfl

@[simp] theorem updated_server (f : Context → Context) : (m.updated f).server = m.server := rfl

@[simp] theorem updated_config (f : Context → Context) : (m.updated f).config = m.config := rfl

@[simp] theorem updated_functions (f : Context → Context) :
    (m.updated f).functions = m.functions := rfl

@[simp] theorem served_context (f : Server → Server) : (m.served f).context = m.context := rfl

@[simp] theorem served_server (f : Server → Server) : (m.served f).server = f m.server := rfl

@[simp] theorem served_config (f : Server → Server) : (m.served f).config = m.config := rfl

@[simp] theorem served_functions (f : Server → Server) :
    (m.served f).functions = m.functions := rfl

@[simp] theorem counted_budget : m.counted.context.budget = m.context.budget.counted := rfl

@[simp] theorem counted_actor : m.counted.context.actor = m.context.actor := rfl

theorem served_pause (millis : Nat) :
    m.served (·.pause millis) =
      (m.served fun s => { s with clock := s.clock.advance (Clock.millis millis) }).logged
        (.paused millis) := rfl

@[simp] theorem branching_branches (f : BranchStack → BranchStack) :
    (m.branching f).context.branches = f m.context.branches := rfl

@[simp] theorem branching_bindings (f : BranchStack → BranchStack) :
    (m.branching f).context.bindings = m.context.bindings := rfl

@[simp] theorem branching_cancelled (f : BranchStack → BranchStack) :
    (m.branching f).context.cancelled = m.context.cancelled := rfl

@[simp] theorem branching_includeDepth (f : BranchStack → BranchStack) :
    (m.branching f).context.includeDepth = m.context.includeDepth := rfl

@[simp] theorem branching_branching (f g : BranchStack → BranchStack) :
    (m.branching f).branching g = m.branching fun s => g (f s) := rfl

@[simp] theorem branching_self {f : BranchStack → BranchStack}
    (h : f m.context.branches = m.context.branches) : m.branching f = m := by
  obtain ⟨engine, context⟩ := m
  simp only [branching, updated] at h ⊢
  rw [h]

theorem branching_congr {f g : BranchStack → BranchStack}
    (h : f m.context.branches = g m.context.branches) : m.branching f = m.branching g := by
  simp only [branching, updated, h]

end Machine

namespace Script

variable {α β : Type} (m : Machine)

@[simp] theorem pure_apply (a : α) : (pure a : Script α) m = .ok a m := rfl

theorem bind_apply (x : Script α) (f : α → Script β) :
    (x >>= f) m =
      match x m with
      | .ok a m' => f a m'
      | .error e m' => .error e m' := by
  change EStateM.bind x f m = _
  rw [EStateM.bind]
  cases x m <;> rfl

theorem bind_of_ok {x : Script α} {f : α → Script β} {a : α} {m' : Machine}
    (h : x m = .ok a m') : (x >>= f) m = f a m' := by
  rw [bind_apply, h]

theorem bind_of_error {x : Script α} {f : α → Script β} {e : Halt} {m' : Machine}
    (h : x m = .error e m') : (x >>= f) m = .error e m' := by
  rw [bind_apply, h]

theorem ok_of_bind {x : Script α} {f : α → Script β} {b : β} {m' : Machine}
    (h : (x >>= f) m = .ok b m') : ∃ a m₁, x m = .ok a m₁ ∧ f a m₁ = .ok b m' := by
  cases hx : x m with
  | ok a m₁ =>
    rw [bind_of_ok m hx] at h
    exact ⟨a, m₁, rfl, h⟩
  | error e m₁ =>
    rw [bind_of_error m hx] at h
    cases h

theorem bind_congr_of_ok {x : Script α} {f g : α → Script β}
    (h : ∀ a m', x m = .ok a m' → f a m' = g a m') : (x >>= f) m = (x >>= g) m := by
  cases hx : x m with
  | ok a m' => rw [bind_of_ok m hx, bind_of_ok m hx, h a m' hx]
  | error e m' => rw [bind_of_error m hx, bind_of_error m hx]

theorem bind_assoc_apply {γ : Type} (x : Script α) (f : α → Script β) (g : β → Script γ) :
    ((x >>= f) >>= g) m = (x >>= fun a => f a >>= g) m := by
  cases hx : x m with
  | ok a m' => rw [bind_of_ok m hx, bind_apply m, bind_of_ok m hx, bind_apply m']
  | error e m' => rw [bind_of_error m hx, bind_of_error m (bind_of_error m hx)]

@[simp] theorem get_bind (f : Machine → Script β) : (get >>= f) m = f m m := rfl

@[simp] theorem context_bind (f : Context → Script β) : (context >>= f) m = f m.context m := rfl

@[simp] theorem fail_apply (e : ScriptError) : (fail e : Script α) m = .error (.failed e) m := rfl

@[simp] theorem fail_bind (e : ScriptError) (f : α → Script β) :
    (fail e >>= f) m = .error (.failed e) m := rfl

@[simp] theorem modifyContext_apply (f : Context → Context) :
    modifyContext f m = .ok () (m.updated f) := rfl

@[simp] theorem modifyContext_bind (f : Context → Context) (g : Unit → Script β) :
    (modifyContext f >>= g) m = g () (m.updated f) := rfl

@[simp] theorem modifyServer_apply (f : Server → Server) :
    modifyServer f m = .ok () (m.served f) := rfl

@[simp] theorem modifyServer_bind (f : Server → Server) (g : Unit → Script β) :
    (modifyServer f >>= g) m = g () (m.served f) := rfl

@[simp] theorem record_bind (e : Event) (g : Unit → Script β) :
    (record e >>= g) m = g () (m.logged e) := rfl

@[simp] theorem tell_apply (text : String) :
    tell text m = .ok () (m.logged (.message m.context.actor.slot text)) := rfl

@[simp] theorem resolve_bind (text : String) (g : String → Script β) :
    (resolve text >>= g) m = g (m.context.resolve text) m := rfl

theorem charge_apply :
    charge m =
      if m.counted.context.budget.isOverdrawn then
        .error (.failed (.budgetExceeded m.context.budget.limit)) m.counted
      else .ok () m.counted := by
  have same : m.counted.context.budget.isOverdrawn = m.context.budget.counted.isOverdrawn := rfl
  rw [same, charge, context_bind]
  cases h : m.context.budget.counted.isOverdrawn with
  | true =>
    simp only [Budget.charge, h, if_true]
    rfl
  | false =>
    simp only [Budget.charge, h, Bool.false_eq_true, if_false]
    rfl

theorem draw_apply (least greatest : Int) :
    draw least greatest m =
      .ok (m.server.chance.draw least greatest).1
        (m.served fun s => { s with chance := (m.server.chance.draw least greatest).2 }) := rfl

theorem checkTime_of_no_limit (h : m.context.budget.timeLimit = none) : checkTime m = .ok () m := by
  simp [checkTime, h]

/-- Looking at the time moves the clock by one reading, or does nothing. -/
theorem checkTime_machine :
    (m.perform checkTime).2 = m ∨
      (m.perform checkTime).2 = m.served fun s => { s with clock := s.clock.read.2 } := by
  cases h : m.context.budget.timeLimit with
  | none => exact Or.inl (by simp [Machine.perform, checkTime_of_no_limit m h])
  | some limit =>
    refine Or.inr ?_
    have reads : readClock m = .ok m.server.clock.read.1
        (m.served fun s => { s with clock := s.clock.read.2 }) := rfl
    simp only [Machine.perform, checkTime, context_bind, h, Option.isSome_some, if_true]
    rw [bind_of_ok m reads]
    cases m.context.budget.checkTime m.server.clock.read.1 <;> rfl

theorem attempt_machine (x : Script α) : (m.perform (attempt x)).2 = (m.perform x).2 := by
  simp only [Machine.perform, attempt]
  cases h : x m with
  | ok a m' => rfl
  | error e m' => cases e <;> rfl

theorem deeper_apply (x : Script α) :
    deeper x m =
      match x m.entered with
      | .ok a m' => .ok a m'.left
      | .error e m' => .error e m'.left := rfl

end Script

end MenuScript
