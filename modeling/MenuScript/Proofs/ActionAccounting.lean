import MenuScript.Proofs.HostSessions

/-!
# The budget over the life of a context

Commands, console commands and the opening and closing of menus count against the budget of a
context, and each is counted before it is performed. With a limit, the actions performed are as many
as were counted, up to the limit; the first one beyond it ends its run, and so does every later
attempt in the same context. All of this is about engines whose functions are the built-in ones.
-/

namespace MenuScript

open Script

/-- Number of actions in a log: commands of any player or the console, menus opened and closed. -/
def EventLog.actionCount (log : EventLog) : Nat := log.toList.countP Event.isAction

/-- Number of actions that have been performed. -/
def Machine.actions (m : Machine) : Nat := m.server.log.actionCount

theorem Machine.actions_logged (m : Machine) (e : Event) :
    (m.logged e).actions = m.actions + if e.isAction then 1 else 0 := by
  simp [Machine.actions, EventLog.actionCount, Machine.logged, Server.record, List.countP_append,
    List.countP_singleton]

namespace Budget

theorem toNat_used_counted (b : Budget) :
    b.counted.used.toNat = min (b.used.toNat + 1) lastCount.toNat := by
  have last : lastCount.toNat = 4294967295 := rfl
  have bound := b.used.toNat_lt
  rw [counted, last]
  by_cases h : b.used = lastCount
  · simp only [h, if_true, last]
    omega
  · have below : b.used.toNat ≠ 4294967295 := fun h' => h (UInt32.toNat_inj.1 (h'.trans last.symm))
    simp only [h, if_false, UInt32.toNat_add, UInt32.toNat_one]
    omega

theorem isOverdrawn_iff (b : Budget) :
    b.isOverdrawn = true ↔ 0 < b.limit.toNat ∧ b.limit.toNat < b.used.toNat := by
  simp [isOverdrawn, UInt32.lt_iff_toNat_lt]

theorem isOverdrawn_counted_of_spent {b : Budget} (positive : 0 < b.limit)
    (small : b.limit < lastCount) (spent : b.limit.toNat ≤ b.used.toNat) :
    b.counted.isOverdrawn = true := by
  have count := b.toNat_used_counted
  rw [UInt32.lt_iff_toNat_lt] at positive small
  have zero : (0 : UInt32).toNat = 0 := rfl
  rw [isOverdrawn_iff, counted_limit]
  omega

theorem isOverdrawn_counted_of_room {b : Budget} (room : b.used < b.limit) :
    b.counted.isOverdrawn = false := by
  have count := b.toNat_used_counted
  rw [UInt32.lt_iff_toNat_lt] at room
  rw [Bool.eq_false_iff, ne_eq, isOverdrawn_iff, counted_limit]
  omega

end Budget

theorem Change.unspent {label : Label} {m m' : Machine} (idle : label.IsIdle)
    (c : Change label m m') :
    m'.context.budget.used = m.context.budget.used ∧ m'.actions = m.actions := by
  cases c with
  | told _ e quiet _ =>
    refine ⟨rfl, ?_⟩
    rw [Machine.actions_logged, quiet]
    rfl
  | paused _ nanos millis =>
    refine ⟨rfl, ?_⟩
    rw [Machine.actions_logged]
    rfl
  | drew | assigned | kept | opened | skipped | turned | closed => exact ⟨rfl, rfl⟩
  | acted | overdrew | readClock | entered | left | asked => exact absurd idle id

/-- A change counts nothing and performs nothing, or counts one action, which is performed unless
the budget is overdrawn. -/
theorem Change.spends {label : Label} {m m' : Machine} (hl : label.Allowed fun _ => False)
    (c : Change label m m') :
    (m'.context.budget.used = m.context.budget.used ∧ m'.actions = m.actions) ∨
      m'.context.budget.used = m.context.budget.counted.used ∧
        (m.context.budget.counted.isOverdrawn = false ∧ m'.actions = m.actions + 1 ∨
          m.context.budget.counted.isOverdrawn = true ∧ m'.actions = m.actions) := by
  by_cases idle : label.IsIdle
  · exact Or.inl (c.unspent idle)
  · cases c with
    | acted _ e action paid =>
      refine Or.inr ⟨rfl, Or.inl ⟨paid, ?_⟩⟩
      rw [Machine.actions_logged, action]
      rfl
    | overdrew _ unpaid => exact Or.inr ⟨rfl, Or.inr ⟨unpaid, rfl⟩⟩
    | readClock | entered | left => exact Or.inl ⟨rfl, rfl⟩
    | asked _ r => exact absurd hl id
    | _ => exact absurd trivial idle

/-- The accounts of a context under a limit, where `start` actions had been performed before it was
made. -/
structure Machine.Accounts (limit : UInt32) (start : Nat) (m : Machine) : Prop where
  fixed : m.context.budget.limit = limit
  limited : 0 < limit → limit < Budget.lastCount →
    m.actions = start + min m.context.budget.used.toNat limit.toNat
  unlimited : limit = 0 → m.context.budget.used < Budget.lastCount →
    m.actions = start + m.context.budget.used.toNat

private theorem Change.accounts {limit : UInt32} {start : Nat} {label : Label} {m m' : Machine}
    (hl : label.Allowed fun _ => False) (c : Change label m m') (h : m.Accounts limit start) :
    m'.Accounts limit start := by
  have same : m'.context.budget.limit = limit := c.sameSettings.limit.trans h.fixed
  have count := m.context.budget.toNat_used_counted
  have overdrawn := m.context.budget.counted.isOverdrawn_iff
  rw [Budget.counted_limit, h.fixed] at overdrawn
  refine ⟨same, fun positive small => ?_, fun zero below => ?_⟩
  · have before := h.limited positive small
    rw [UInt32.lt_iff_toNat_lt] at positive small
    have zero : (0 : UInt32).toNat = 0 := rfl
    obtain ⟨used, actions⟩ | ⟨used, ⟨paid, actions⟩ | ⟨unpaid, actions⟩⟩ := c.spends hl
    · rw [used, actions, before]
    · -- a count that has stopped at its last value is past every limit, so this one has not
      rw [paid] at overdrawn
      simp only [Bool.false_eq_true, false_iff] at overdrawn
      rw [used, actions, before]
      omega
    · rw [used, actions, before]
      have := overdrawn.1 unpaid
      omega
  · subst zero
    obtain ⟨used, actions⟩ | ⟨used, ⟨paid, actions⟩ | ⟨unpaid, actions⟩⟩ := c.spends hl
    · rw [used] at below ⊢
      rw [actions, h.unlimited rfl below]
    · rw [used, UInt32.lt_iff_toNat_lt] at below
      have earlier : m.context.budget.used < Budget.lastCount := by
        rw [UInt32.lt_iff_toNat_lt]
        omega
      rw [used, actions, h.unlimited rfl earlier]
      omega
    · exact absurd (overdrawn.1 unpaid).1 (Nat.lt_irrefl 0)

private theorem Change.used_le {label : Label} {m m' : Machine} (hl : label.Allowed fun _ => False)
    (c : Change label m m') :
    m.context.budget.used.toNat ≤ m'.context.budget.used.toNat := by
  have count := m.context.budget.toNat_used_counted
  have bound := m.context.budget.used.toNat_lt
  have last : Budget.lastCount.toNat = 4294967295 := rfl
  obtain ⟨used, -⟩ | ⟨used, -⟩ := c.spends hl
  · exact Nat.le_of_eq (congrArg UInt32.toNat used).symm
  · rw [used]
    omega

private theorem Machine.left_iterate (k : Nat) (m : Machine) :
    (Machine.left^[k] m).server = m.server ∧
      (Machine.left^[k] m).context.budget = m.context.budget := by
  induction k with
  | zero => exact ⟨rfl, rfl⟩
  | succ k ih =>
    rw [Function.iterate_succ_apply']
    exact ih

/-- Whether the limit of the budget has been used up. -/
structure Machine.IsSpent (limit : UInt32) (m : Machine) : Prop where
  fixed : m.context.budget.limit = limit
  spent : limit.toNat ≤ m.context.budget.used.toNat

theorem Change.isSpent {limit : UInt32} {label : Label} {m m' : Machine}
    (hl : label.Allowed fun _ => False) (c : Change label m m') (h : m.IsSpent limit) :
    m'.IsSpent limit :=
  ⟨c.sameSettings.limit.trans h.fixed, Nat.le_trans h.spent (c.used_le hl)⟩

/-- `m.Refuses u s limit`: the use `u` of `m` ends at the line start `s`, because the budget is
exceeded there, and nothing is done from there on. -/
structure Machine.Refuses (m : Machine) (u : Use) (s : LineStart) (limit : UInt32) : Prop where
  exceeded : (m.use u).1 = .error (.failed (.budgetExceeded limit))
  unperformed : (m.use u).2.server.log = s.machine.server.log

section Attempts

variable {limit : UInt32} {m : Machine} {u : Use} {s : LineStart} {a : Attempt}

private theorem isOverdrawn_of_isSpent (positive : 0 < limit) (small : limit < Budget.lastCount)
    (h : m.IsSpent limit) : m.context.budget.counted.isOverdrawn = true := by
  obtain ⟨rfl, spent⟩ := h
  exact Budget.isOverdrawn_counted_of_spent positive small spent

theorem not_isOverdrawn_of_room (fixed : m.context.budget.limit = limit)
    (room : m.context.budget.used < limit) : m.context.budget.counted.isOverdrawn = false := by
  subst fixed
  exact Budget.isOverdrawn_counted_of_room room

/-- An action that is attempted when the limit has been used up ends the use and is not
performed. -/
theorem Machine.UseComesTo.refuses (comes : m.UseComesTo u s) (hb : m.functions.OnlyBuiltins)
    (attempts : s.machine.attempt? s.line = some a) (positive : 0 < limit)
    (small : limit < Budget.lastCount) (spent : s.machine.IsSpent limit) :
    m.Refuses u s limit ∧ (m.use u).2.IsSpent limit := by
  have fails := runLine_of_attempt? (MenuScript.run s.capacity) attempts
  rw [if_pos (isOverdrawn_of_isSpent positive small spent), spent.fixed] at fails
  obtain ⟨k, hk⟩ := comes.fails hb fails
  obtain ⟨server, budget⟩ := Machine.left_iterate k s.machine.counted
  have counted : s.machine.counted.IsSpent limit :=
    Change.isSpent (by exact trivial)
      (.overdrew s.machine (isOverdrawn_of_isSpent positive small spent)) spent
  refine ⟨⟨?_, ?_⟩, ⟨?_, ?_⟩⟩
  · rw [hk]
  · rw [hk, server]
    rfl
  · rw [hk, budget]
    exact counted.fixed
  · rw [hk, budget]
    exact counted.spent

end Attempts

/-- The statements that name an action and attempt none: a blank command, a menu for a player that
is not online, and a console command that is blank or not allowed. -/
inductive Statement.FallsThrough (m : Machine) : Statement → Prop
  | blankCommand {line : PlayerCommand} (blank : isBlankText (line.resolved m.context) = true) :
      FallsThrough m (.command line)
  | absentViewer {menu target : String}
      (absent : m.server.online.get? (m.context.resolve target) = none) :
      FallsThrough m (.openMenu menu (some target))
  | blankConsole {text : String} (blank : isBlankText (m.context.resolve text) = true) :
      FallsThrough m (.console text)
  | shutConsole {text : String} (shut : m.config.allowConsole = false) :
      FallsThrough m (.console text)

private theorem Statement.FallsThrough.attempt? {m : Machine} {s : Statement}
    (h : s.FallsThrough m) :
    s.attempt? m = none := by
  cases h with
  | blankCommand blank => simp [Statement.attempt?, Action.command?, blank]
  | absentViewer absent => simp [Statement.attempt?, Action.menu?, Action.viewer?, absent]
  | blankConsole blank => simp [Statement.attempt?, Action.console?, blank]
  | shutConsole shut => simp [Statement.attempt?, Action.console?, shut]

private theorem Statement.FallsThrough.called? {m : Machine} {s : Statement}
    (h : s.FallsThrough m) :
    s.called? m = none := by
  cases h <;> rfl

/-- Whether a line attempts no action and includes no script. -/
def Machine.Idles (m : Machine) (line : String) : Prop :=
  (m.attempt? line = none ∧ m.included? line = none) ∨
    ∃ s, m.statement? line = some s ∧ s.FallsThrough m

private theorem Machine.Idles.uncounted {m : Machine} {line : String} (h : m.Idles line)
    (hb : m.functions.OnlyBuiltins) (nested : String → Script Value) :
    (m.perform (runLine nested line)).2.context.budget.used = m.context.budget.used ∧
      (m.perform (runLine nested line)).2.actions = m.actions := by
  have quiet : m.attempt? line = none ∧ m.included? line = none := by
    obtain quiet | ⟨s, hs, falls⟩ := h
    · exact quiet
    · simp [Machine.attempt?, Machine.included?, Machine.called?, hs, falls.attempt?,
        falls.called?]
  refine (runLine_idle m nested hb quiet.1 quiet.2).chain.keeps
    (I := fun m' => m'.context.budget.used = m.context.budget.used ∧ m'.actions = m.actions)
    (fun idle c same => ?_) ⟨rfl, rfl⟩
  obtain ⟨used, actions⟩ := c.unspent idle
  exact ⟨used.trans same.1, actions.trans same.2⟩

section Life

variable {e : Engine} {actor : Actor} {bindings : Dictionary Value}

private theorem Machine.Reaches.accounts (builtins : e.functions.OnlyBuiltins) {m : Machine}
    (reached : (e.machine actor bindings).Reaches m) :
    m.Accounts e.config.maxCommands e.server.log.actionCount := by
  refine reached.keeps (I := Machine.Accounts e.config.maxCommands e.server.log.actionCount)
    Change.accounts (fun _ h => ⟨h.fixed, h.limited, h.unlimited⟩)
    (builtins.asksOnly fun _ => False) ⟨rfl, fun _ _ => ?_, fun _ _ => rfl⟩
  exact (congrArg (e.server.log.actionCount + ·) (Nat.zero_min _)).symm

private theorem Machine.IsSpent.atLine {limit : UInt32} {m : Machine} (spent : m.IsSpent limit)
    (hb : m.functions.OnlyBuiltins) (later : List Use) {u : Use} {s : LineStart}
    (comes : (m.afterAll later).UseComesTo u s) : s.machine.IsSpent limit := by
  have reached : m.Reaches s.machine := .atLine later comes
  exact reached.keeps (I := Machine.IsSpent limit) Change.isSpent (fun _ h => ⟨h.fixed, h.spent⟩)
    (hb.asksOnly fun _ => False) spent

private theorem Machine.use_ne_budgetExceeded {m : Machine} (hb : m.functions.OnlyBuiltins)
    (unlimited : m.context.budget.limit = 0) (u : Use) (limit : UInt32) :
    (m.use u).1 ≠ .error (.failed (.budgetExceeded limit)) := by
  intro exceeded
  obtain ⟨name, other⟩ | ⟨time, other⟩ | ⟨s, comes, raises⟩ := UseComesTo.of_failure hb exceeded
  · cases other
  · cases other
  · have same : s.machine.context.budget.limit = m.context.budget.limit :=
      (comes.chain (hb.asksOnly fun _ => False)).sameSettings.limit
    cases raises with
    | plain plain => cases plain
    | overdrawn attempts unpaid =>
      rw [Budget.isOverdrawn_iff, Budget.counted_limit, same, unlimited] at unpaid
      exact Nat.lt_irrefl 0 unpaid.1

end Life

/-- The machine of a context that an engine has made and that has been used. -/
def Engine.afterUses (e : Engine) (actor : Actor) (bindings : Dictionary Value)
    (uses : List Use) : Machine := (e.machine actor bindings).afterAll uses

/-- Under a limit, the actions that a context has performed are as many as it has counted, up to
the limit. An action that is attempted below the limit is performed; one that is attempted after
that ends its use, is not performed, and so it is with every attempt in a later use. Without a limit
every action counted is performed, and no use exceeds the budget. Lines that attempt no action count
nothing. -/
theorem actions_eq_min_counted_limit (e : Engine) (actor : Actor) (bindings : Dictionary Value)
    (builtins : e.functions.OnlyBuiltins) :
    (0 < e.config.maxCommands → e.config.maxCommands < Budget.lastCount →
      (∀ m, (e.machine actor bindings).Reaches m →
        m.actions = e.server.log.actionCount +
          min m.context.budget.used.toNat e.config.maxCommands.toNat) ∧
      ∀ before u s a, (e.afterUses actor bindings before).UseComesTo u s →
        s.machine.attempt? s.line = some a →
        (s.machine.context.budget.used < e.config.maxCommands →
          runLine (run s.capacity) s.line s.machine =
            .ok () ((s.machine.counted.logged a.event).keeping a.value)) ∧
        (e.config.maxCommands ≤ s.machine.context.budget.used →
          (e.afterUses actor bindings before).Refuses u s e.config.maxCommands ∧
          ∀ later u' s' a',
            (e.afterUses actor bindings (before ++ u :: later)).UseComesTo u' s' →
            s'.machine.attempt? s'.line = some a' →
            (e.afterUses actor bindings (before ++ u :: later)).Refuses u' s'
              e.config.maxCommands)) ∧
    (e.config.maxCommands = 0 →
      (∀ m, (e.machine actor bindings).Reaches m → m.context.budget.used < Budget.lastCount →
        m.actions = e.server.log.actionCount + m.context.budget.used.toNat) ∧
      ∀ before u limit,
        ((e.afterUses actor bindings before).use u).1 ≠ .error (.failed (.budgetExceeded limit))) ∧
    ∀ before u s, (e.afterUses actor bindings before).UseComesTo u s → s.machine.Idles s.line →
      let after := (s.machine.perform (runLine (run s.capacity) s.line)).2
      after.context.budget.used = s.machine.context.budget.used ∧
        after.actions = s.machine.actions := by
  have builtinsAfter := fun before =>
    Machine.onlyBuiltins_afterAll (m := e.machine actor bindings) builtins before
  refine ⟨fun positive small => ⟨fun m reached => ?_, fun before u s a comes attempts => ?_⟩,
    fun zero => ⟨fun m reached => (reached.accounts builtins).unlimited zero, ?_⟩, ?_⟩
  · exact (reached.accounts builtins).limited positive small
  · have fixed := (Machine.Reaches.atLine before comes).accounts builtins |>.fixed
    refine ⟨fun room => ?_, fun full => ?_⟩
    · rw [runLine_of_attempt? _ attempts, not_isOverdrawn_of_room fixed room]
      rfl
    · have spent : s.machine.IsSpent e.config.maxCommands := ⟨fixed, full⟩
      obtain ⟨refuses, spentAfter⟩ :=
        comes.refuses (builtinsAfter before) attempts positive small spent
      refine ⟨refuses, fun later u' s' a' comes' attempts' => ?_⟩
      have builtinsNow := builtinsAfter (before ++ [u])
      rw [Machine.afterAll_append_cons] at builtinsNow
      have spentNow : s'.machine.IsSpent e.config.maxCommands := by
        rw [Engine.afterUses, Machine.afterAll_append_cons] at comes'
        exact spentAfter.atLine builtinsNow later comes'
      exact (comes'.refuses (builtinsAfter _) attempts' positive small spentNow).1
  · intro before u limit
    have reached : (e.machine actor bindings).Reaches (e.afterUses actor bindings before) :=
      .between before
    have fixed := (reached.accounts builtins).fixed
    exact Machine.use_ne_budgetExceeded (builtinsAfter before) (fixed.trans zero) u limit
  · intro before u s comes idles
    have c := comes.chain ((builtinsAfter before).asksOnly fun _ => False)
    exact idles.uncounted (c.onlyBuiltins (builtinsAfter before)) (run s.capacity)

/-- An engine that allows one action in a context. -/
def frugalEngine : Engine where
  config := { maxCommands := 1, timeout := 0 }

def frugalActor : Actor := { slot := 0, name := "Ann", uuid := ⟨0⟩ }

/-- The frugal context after its one action. -/
def frugalMachine : Machine := frugalEngine.afterUses frugalActor Dictionary.empty [.run "close"]

def secondClosing : LineStart := ⟨nestingCapacity - 1, "close", frugalMachine⟩

theorem actions_eq_min_counted_limit_frugal :
    frugalEngine.functions.OnlyBuiltins ∧ frugalMachine.actions = 1 ∧
      frugalMachine.UseComesTo (.run "close") secondClosing ∧
      frugalMachine.attempt? "close" = some ⟨.closed "Ann", .bool true⟩ ∧
      frugalMachine.Refuses (.run "close") secondClosing 1 := by
  have builtins : frugalEngine.functions.OnlyBuiltins := FunctionTable.onlyBuiltins_builtins
  have comes : frugalMachine.UseComesTo (.run "close") secondClosing :=
    ⟨"close", rfl, nestingCapacity - 1, by decide, .first rfl rfl⟩
  have attempts : frugalMachine.attempt? "close" = some ⟨.closed "Ann", .bool true⟩ := rfl
  obtain ⟨counts, refuses⟩ :=
    (actions_eq_min_counted_limit frugalEngine frugalActor Dictionary.empty builtins).1
      (by decide) (by decide)
  exact ⟨builtins, counts frugalMachine (.between _), comes, attempts,
    ((refuses _ _ secondClosing _ comes attempts).2 (by decide)).1⟩

end MenuScript
