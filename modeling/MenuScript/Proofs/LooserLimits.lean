import MenuScript.Proofs.BoundedIncludes

/-!
# Runs under looser limits

A run looks at its limits in two places only: where an action is counted, and where a script is
included. So the run of an engine with built-in functions goes on exactly as under looser limits,
until it is refused an action or an include that the looser limits allow. It then ends there, and
what it has recorded is the beginning of what is recorded under the looser limits.
-/

namespace MenuScript

open Script

/-- The bounds of a run: those of the settings, the limit of actions in its context, and how deep in
includes it is. -/
structure Limits where
  maxCommands : UInt32
  maxIncludeDepth : UInt32
  commands : UInt32
  depth : Nat

namespace Limits

/-- The same bounds, one include deeper. -/
def deeper (l : Limits) : Limits := { l with depth := l.depth + 1 }

/-- Whether `l` allows whatever `k` allows. A limit of zero is none. -/
structure Covers (l k : Limits) : Prop where
  commands : l.commands = 0 ∨ 0 < k.commands ∧ k.commands ≤ l.commands
  includes : l.maxIncludeDepth = 0 ∨ 0 < k.maxIncludeDepth ∧
    k.maxIncludeDepth.toNat + l.depth ≤ l.maxIncludeDepth.toNat + k.depth

theorem Covers.deeper {l k : Limits} (h : l.Covers k) : l.deeper.Covers k.deeper := by
  refine ⟨h.commands, h.includes.imp_right ?_⟩
  rintro ⟨positive, fits⟩
  refine ⟨positive, ?_⟩
  simp only [Limits.deeper]
  omega

/-- The errors by which a run under `k` may end before the same run under `l`. -/
def Cuts (k l : Limits) (e : ScriptError) : Prop :=
  (e = .budgetExceeded k.commands ∧ l.commands ≠ k.commands) ∨ e = .includeTooDeep k.maxIncludeDepth

end Limits

/-- The context under other limits. -/
def Context.under (c : Context) (l : Limits) : Context :=
  { c with budget := { c.budget with limit := l.commands }, includeDepth := l.depth }

namespace Machine

def limits (m : Machine) : Limits :=
  ⟨m.config.maxCommands, m.config.maxIncludeDepth, m.context.budget.limit, m.context.includeDepth⟩

/-- The machine under other limits. -/
def under (m : Machine) (l : Limits) : Machine :=
  { m with
    config := { m.config with maxCommands := l.maxCommands, maxIncludeDepth := l.maxIncludeDepth }
    context := m.context.under l }

variable {m m' m'' : Machine} {l : Limits}

@[simp] theorem under_limits : (m.under l).limits = l := rfl

@[simp] theorem under_self : m.under m.limits = m := rfl

@[simp] theorem under_limit : (m.under l).context.budget.limit = l.commands := rfl

@[simp] theorem entered_limits : m.entered.limits = m.limits.deeper := rfl

private theorem under_entered : (m.under l).entered = m.entered.under l.deeper := rfl

theorem left_limits_of_deeper {k : Limits} (h : m.limits = k.deeper) : m.left.limits = k := by
  obtain ⟨a, b, c, d⟩ := k
  simp only [limits, Limits.deeper, Limits.mk.injEq] at h
  simp only [limits, left, updated, Limits.mk.injEq]
  exact ⟨h.1, h.2.1, h.2.2.1, by omega⟩

/-- `m.Precedes m'`: what `m` has recorded is the beginning of what `m'` has, and both have the same
functions. -/
structure Precedes (m m' : Machine) : Prop where
  log : m.server.log.toList <+: m'.server.log.toList
  functions : m'.functions = m.functions

theorem Precedes.refl (m : Machine) : m.Precedes m := ⟨List.prefix_rfl, rfl⟩

theorem Precedes.trans (h : m.Precedes m') (h' : m'.Precedes m'') : m.Precedes m'' :=
  ⟨h.log.trans h'.log, h'.functions.trans h.functions⟩

theorem precedes_logged (m : Machine) (e : Event) : m.Precedes (m.logged e) :=
  ⟨by simp [logged, Server.record], rfl⟩

private theorem isFull_of_covers (h : l.Covers m.limits) (full : (m.under l).isFull) :
    m.isFull := by
  obtain ⟨positive, reached⟩ : 0 < l.maxIncludeDepth ∧ l.maxIncludeDepth.toNat ≤ l.depth := full
  rcases h.includes with zero | ⟨bounded, fits⟩
  · simp [zero] at positive
  · refine ⟨bounded, ?_⟩
    simp only [limits] at fits
    omega

private theorem isOverdrawn_under : (m.under l).counted.context.budget.isOverdrawn =
    (0 < l.commands && l.commands < m.counted.context.budget.used) := rfl

private theorem isOverdrawn_of_covers (h : l.Covers m.limits)
    (overdrawn : (m.under l).counted.context.budget.isOverdrawn = true) :
    m.counted.context.budget.isOverdrawn = true := by
  simp only [isOverdrawn_under, Bool.and_eq_true, decide_eq_true_eq] at overdrawn
  simp only [Budget.isOverdrawn, Bool.and_eq_true, decide_eq_true_eq]
  rcases h.commands with zero | ⟨bounded, fits⟩
  · simp [zero] at overdrawn
  · exact ⟨bounded, UInt32.lt_of_le_of_lt fits overdrawn.2⟩

theorem perform_bind {α β : Type} (m : Machine) (x : Script α) (f : α → Script β) :
    m.perform (x >>= f) =
      match m.perform x with
      | (.ok a, m') => m'.perform (f a)
      | (.error e, m') => (.error e, m') := by
  simp only [perform, bind_apply]
  cases x m <;> rfl

theorem perform_deeper {α : Type} (m : Machine) (x : Script α) :
    m.perform (deeper x) = ((m.entered.perform x).1, (m.entered.perform x).2.left) := by
  simp only [perform, deeper_apply]
  cases x m.entered <;> rfl

end Machine

/-- `Truncates k l p q`: of two ends of a run, `p` is that under `k` and `q` that under `l`. They
are the same but for the limits, or `p` was cut short. -/
structure Truncates {α : Type} (k l : Limits) (p q : Except Halt α × Machine) : Prop where
  within : p.2.limits = k
  alike : q = (p.1, p.2.under l) ∨
    ∃ e, p.1 = .error (.failed e) ∧ k.Cuts l e ∧ p.2.Precedes q.2

/-- Whether a computation notices limits only by being cut short. -/
structure Heeds {α : Type} (x : Script α) : Prop where
  precedes : ∀ m : Machine, m.functions.OnlyBuiltins → m.Precedes (m.perform x).2
  truncates : ∀ (m : Machine) (l : Limits), m.functions.OnlyBuiltins → l.Covers m.limits →
    Truncates m.limits l (m.perform x) ((m.under l).perform x)

namespace Heeds

variable {α β : Type} {x : Script α} {f : α → Script β}

/-- A computation that neither depends on the limits nor changes them. -/
theorem of_step {a : Machine → α} {g : Machine → Machine}
    (runs : ∀ m, x m = .ok (a m) (g m)) (value : ∀ m l, a (m.under l) = a m)
    (step : ∀ m l, g (m.under l) = (g m).under l) (grows : ∀ m : Machine, m.Precedes (g m)) :
    Heeds x where
  precedes m _ := by
    rw [Machine.perform_of_ok (runs m)]
    exact grows m
  truncates m l _ _ := by
    have kept := congrArg Machine.limits (step m m.limits)
    rw [Machine.under_limits, Machine.under_self] at kept
    refine ⟨?_, Or.inl ?_⟩
    · rw [Machine.perform_of_ok (runs m), kept]
    · simp only [Machine.perform, runs, value, step]

theorem pure (a : α) : Heeds (pure a : Script α) :=
  of_step (fun _ => rfl) (fun _ _ => rfl) (fun _ _ => rfl) Machine.Precedes.refl

theorem modifyContext {g : Context → Context} (step : ∀ c l, g (c.under l) = (g c).under l) :
    Heeds (modifyContext g) :=
  of_step (fun m => modifyContext_apply m g) (fun _ _ => rfl)
    (fun m l => congrArg (fun c => { m.under l with context := c }) (step m.context l))
    fun _ => ⟨List.prefix_rfl, rfl⟩

theorem modifyServer {g : Server → Server} (grows : ∀ s, s.log.toList <+: (g s).log.toList) :
    Heeds (modifyServer g) :=
  of_step (fun m => modifyServer_apply m g) (fun _ _ => rfl) (fun _ _ => rfl)
    fun m => ⟨grows m.server, rfl⟩

theorem record (e : Event) : Heeds (record e) := modifyServer fun s => by simp [Server.record]

theorem fail (e : ScriptError) : Heeds (fail e : Script α) where
  precedes m _ := Machine.Precedes.refl m
  truncates _ _ _ _ := ⟨rfl, Or.inl rfl⟩

/-- What a computation comes to may depend on the machine, but not on its limits. -/
theorem of_local (comes : ∀ m : Machine, m.functions.OnlyBuiltins → ∃ y : Script α, Heeds y ∧
    ∀ l, (m.under l).perform x = (m.under l).perform y) : Heeds x where
  precedes m hb := by
    obtain ⟨y, heeds, same⟩ := comes m hb
    have own : m.perform x = m.perform y := same m.limits
    rw [own]
    exact heeds.precedes m hb
  truncates m l hb hl := by
    obtain ⟨y, heeds, same⟩ := comes m hb
    have own : m.perform x = m.perform y := same m.limits
    rw [own, same l]
    exact heeds.truncates m l hb hl

theorem get_bind {g : Machine → Script β} (blind : ∀ m l, g (m.under l) = g m)
    (rest : ∀ m, Heeds (g m)) : Heeds (get >>= g) := by
  refine of_local fun m _ => ⟨g m, rest m, fun l => ?_⟩
  simp only [Machine.perform, Script.get_bind, blind]

theorem context_bind {g : Context → Script β} (blind : ∀ c l, g (c.under l) = g c)
    (rest : ∀ c, Heeds (g c)) : Heeds (context >>= g) :=
  get_bind (fun m l => blind m.context l) fun m => rest m.context

theorem bind (hx : Heeds x) (hf : ∀ a, Heeds (f a)) : Heeds (x >>= f) where
  precedes m hb := by
    have first := hx.precedes m hb
    rw [Machine.perform_bind]
    split
    · rename_i a m' h
      rw [h] at first
      exact first.trans ((hf a).precedes m' (first.functions ▸ hb))
    · rename_i e m' h
      rwa [h] at first
  truncates m l hb hl := by
    obtain ⟨within, alike⟩ := hx.truncates m l hb hl
    have first := hx.precedes m hb
    have other := hx.precedes (m.under l) hb
    rw [Machine.perform_bind, Machine.perform_bind]
    rcases alike with same | ⟨e, failed, cut, shorter⟩
    · rw [same]
      cases h : m.perform x with
      | mk outcome m' =>
        rw [h] at within first
        cases outcome with
        | ok a =>
          have rest := (hf a).truncates m' l (first.functions ▸ hb) (within ▸ hl)
          rwa [within] at rest
        | error e => exact ⟨within, Or.inl rfl⟩
    · -- however the other run goes on, it has recorded all that this one has
      cases h : m.perform x with
      | mk outcome m' =>
        rw [h] at within failed shorter
        cases failed
        refine ⟨within, Or.inr ⟨e, rfl, cut, shorter.trans ?_⟩⟩
        split
        · rename_i a m'' h'
          rw [h'] at other ⊢
          exact (hf a).precedes m'' (other.functions ▸ hb)
        · rename_i e' m'' h'
          rw [h']
          exact .refl m''

theorem deeper (hx : Heeds x) : Heeds (deeper x) where
  precedes m hb := by
    have inner := hx.precedes m.entered hb
    rw [Machine.perform_deeper]
    exact ⟨inner.log, inner.functions⟩
  truncates m l hb hl := by
    obtain ⟨within, alike⟩ := hx.truncates m.entered l.deeper hb hl.deeper
    rw [Machine.perform_deeper, Machine.perform_deeper, Machine.under_entered]
    refine ⟨Machine.left_limits_of_deeper within, ?_⟩
    rcases alike with same | ⟨e, failed, cut, shorter⟩
    · rw [same]
      exact Or.inl rfl
    · exact Or.inr ⟨e, failed, cut, ⟨shorter.log, shorter.functions⟩⟩

theorem charge : Heeds charge where
  precedes m _ := by
    have runs := charge_apply m
    split_ifs at runs
    · rw [Machine.perform_of_error runs]
      exact ⟨List.prefix_rfl, rfl⟩
    · rw [Machine.perform_of_ok runs]
      exact ⟨List.prefix_rfl, rfl⟩
  truncates m l _ hl := by
    have runs := charge_apply m
    have runs' := charge_apply (m.under l)
    rw [Machine.under_limit] at runs'
    simp only [Machine.perform, runs, runs']
    -- under one and the same limit both are refused or neither is
    by_cases same : l.commands = m.context.budget.limit
    · have agree : (m.under l).counted.context.budget.isOverdrawn =
          m.counted.context.budget.isOverdrawn := by
        rw [Machine.isOverdrawn_under, same]
        rfl
      rw [agree, same]
      split_ifs
      · exact ⟨rfl, Or.inl rfl⟩
      · exact ⟨rfl, Or.inl rfl⟩
    · split_ifs with tight loose loose
      · exact ⟨rfl, Or.inr ⟨_, rfl, Or.inl ⟨rfl, same⟩, ⟨List.prefix_rfl, rfl⟩⟩⟩
      · exact ⟨rfl, Or.inr ⟨_, rfl, Or.inl ⟨rfl, same⟩, ⟨List.prefix_rfl, rfl⟩⟩⟩
      · exact absurd (Machine.isOverdrawn_of_covers hl loose) tight
      · exact ⟨rfl, Or.inl rfl⟩

theorem draw (least greatest : Int) : Heeds (draw least greatest) :=
  of_step (fun m => draw_apply m least greatest) (fun _ _ => rfl) (fun _ _ => rfl)
    fun _ => ⟨List.prefix_rfl, rfl⟩

/-- What a computation looks at between its steps are no limits. -/
theorem of_composed {steps : List Step} (composed : Composed steps x) : Heeds x := by
  induction composed with
  | pure a => exact .pure a
  | fail h => exact .fail _
  | act a h => exact .bind .charge fun _ => .bind (.record _) fun _ => .pure _
  | tell e quiet own h => exact .context_bind (fun _ _ => rfl) fun _ => .record _
  | assign name value h => exact .modifyContext fun _ _ => rfl
  | branch f h => exact .modifyContext fun _ _ => rfl
  | draw least greatest h => exact .draw least greatest
  | pause millis h => exact .modifyServer fun s => by simp [Server.pause, Server.record]
  | look y comes rest ih =>
    refine .of_local fun m _ => ⟨y m.seen, ih m.seen, fun l => ?_⟩
    rw [Machine.perform, comes]
    rfl
  | bind first rest ih ih' => exact .bind ih ih'

theorem checkTime : Heeds checkTime := by
  refine .context_bind (fun _ _ => rfl) fun c => ?_
  dsimp only
  split_ifs
  · have reads : Heeds readClock :=
      .get_bind (fun _ _ => rfl) fun _ => .bind (.modifyServer fun _ => List.prefix_rfl) fun _ =>
        .pure _
    refine .bind reads fun now => ?_
    cases c.budget.checkTime now with
    | ok _ => exact .pure _
    | error e => exact .fail e
  · exact .pure _

end Heeds

section Runs

variable {nested : String → Script Value}

theorem perform_runIncluded_of_room {m : Machine} {name source : String}
    (loaded : m.server.library.load? name = some source) (room : ¬ m.isFull) :
    m.perform (runIncluded nested name) =
      m.perform (deeper (nested source) >>= fun _ => pure (Value.bool true)) := by
  simp only [Machine.perform, runIncluded_of_room nested loaded room, bind_apply, deeper_apply]
  cases nested source m.entered <;> rfl

theorem entering_heeds (hn : ∀ source, Heeds (nested source)) (source : String) :
    Heeds (deeper (nested source) >>= fun _ => pure (Value.bool true)) :=
  .bind (.deeper (hn source)) fun _ => .pure _

private theorem runIncluded_precedes (hn : ∀ source, Heeds (nested source)) {m : Machine}
    (hb : m.functions.OnlyBuiltins) (name : String) :
    m.Precedes (m.perform (runIncluded nested name)).2 := by
  cases loaded : m.server.library.load? name with
  | none =>
    rw [Machine.perform_of_ok (runIncluded_of_missing nested loaded)]
    exact m.precedes_logged _
  | some source =>
    by_cases full : m.isFull
    · rw [Machine.perform_of_error (runIncluded_of_full nested loaded full)]
      exact .refl m
    · rw [perform_runIncluded_of_room loaded full]
      exact (entering_heeds hn source).precedes m hb

/-- An include that is allowed runs the script under both limits, and one that is refused ends the
run. -/
theorem runIncluded_heeds (hn : ∀ source, Heeds (nested source)) (name : String) :
    Heeds (runIncluded nested name) where
  precedes m hb := runIncluded_precedes hn hb name
  truncates m l hb hl := by
    have later := runIncluded_precedes hn (m := m.under l) hb name
    cases loaded : m.server.library.load? name with
    | none =>
      have loaded' : (m.under l).server.library.load? name = none := loaded
      simp only [Machine.perform, runIncluded_of_missing nested loaded,
        runIncluded_of_missing nested loaded']
      exact ⟨rfl, Or.inl rfl⟩
    | some source =>
      have loaded' : (m.under l).server.library.load? name = some source := loaded
      by_cases full : m.isFull
      · have refused : m.perform (runIncluded nested name) =
            (.error (.failed (.includeTooDeep m.config.maxIncludeDepth)), m) := by
          rw [Machine.perform, runIncluded_of_full nested loaded full]
        rw [refused]
        exact ⟨rfl, Or.inr ⟨_, rfl, Or.inr rfl, ⟨later.log, later.functions⟩⟩⟩
      · have room : ¬ (m.under l).isFull := fun h => full (Machine.isFull_of_covers hl h)
        rw [perform_runIncluded_of_room loaded full, perform_runIncluded_of_room loaded' room]
        exact (entering_heeds hn source).truncates m l hb hl

theorem Builtin.call_heeds (hn : ∀ source, Heeds (nested source)) (b : Builtin)
    (args : List Value) : Heeds (b.call nested args) := by
  cases names : Callable.included? (.builtin b) args with
  | none => exact .of_composed (b.call_composed nested names)
  | some name =>
    rw [b.call_of_included? nested names]
    exact runIncluded_heeds hn name

theorem Statement.call_heeds (hn : ∀ source, Heeds (nested source)) (function : String)
    (arguments : List String) : Heeds ((Statement.call function arguments).perform nested) := by
  refine .of_local fun m hb => ?_
  cases found : m.functions.get? function with
  | none =>
    refine ⟨fail (.functionNotFound function), .fail _, fun l => ?_⟩
    have missing : (m.under l).functions.get? function = none := found
    rw [Machine.perform, perform_call_of_none _ nested missing]
    rfl
  | some f =>
    obtain ⟨b, rfl⟩ := hb function f found
    refine ⟨b.call nested (arguments.map fun a => .string (m.context.resolve a)),
      Builtin.call_heeds hn b _, fun l => ?_⟩
    have called : (Statement.call function arguments).called? (m.under l) =
        some (.builtin b, arguments.map fun a => .string (m.context.resolve a)) := by
      have found' : (m.under l).functions.get? function = some (.builtin b) := found
      simp only [called?, found', Option.map_some]
      rfl
    rw [Machine.perform, perform_of_called? _ nested called]
    rfl

theorem Statement.perform_heeds (hn : ∀ source, Heeds (nested source)) (s : Statement) :
    Heeds (s.perform nested) := by
  cases s with
  | call function arguments => exact call_heeds hn function arguments
  | _ => exact .of_composed (perform_composed nested (by simp))

theorem runLine_heeds (hn : ∀ source, Heeds (nested source)) (line : String) :
    Heeds (runLine nested line) := by
  rw [runLine]
  split_ifs
  · exact .pure _
  · refine .context_bind (fun _ _ => rfl) fun c => ?_
    split_ifs
    · split
      · exact .pure _
      · exact .modifyContext fun _ _ => rfl
    · rw [runStatement]
      split
      · exact .fail _
      · exact .bind (Statement.perform_heeds hn _) fun _ => .modifyContext fun _ _ => rfl

theorem runLines_heeds (hn : ∀ source, Heeds (nested source)) (lines : List String) :
    Heeds (runLines nested lines) := by
  induction lines with
  | nil => exact .context_bind (fun _ _ => rfl) fun _ => .pure _
  | cons line rest ih =>
    refine .bind .checkTime fun _ => .context_bind (fun _ _ => rfl) fun c => ?_
    split_ifs
    · exact .context_bind (fun _ _ => rfl) fun _ => .pure _
    · exact .bind (runLine_heeds hn line) fun _ => ih

/-- A run notices its limits only by being cut short, however deep scripts are nested in it. -/
theorem run_heeds (depth : Nat) (source : String) : Heeds (run depth source) := by
  induction depth generalizing source with
  | zero => exact ⟨fun m _ => .refl m, fun _ _ _ _ => ⟨rfl, Or.inl rfl⟩⟩
  | succ depth ih => exact runLines_heeds ih (linesOf source)

end Runs

/-- Whether everything kept in the records of `log` is at the beginning of those of `log'`. -/
structure EventLog.Begins (log log' : EventLog) : Prop where
  messages : ∀ slot, log.messages slot <+: log'.messages slot
  commands : ∀ slot, log.commands slot <+: log'.commands slot
  effects : ∀ slot, log.effects slot <+: log'.effects slot
  console : log.console <+: log'.console
  opened : log.opened <+: log'.opened
  closed : log.closed <+: log'.closed
  missed : log.missed <+: log'.missed

private theorem Machine.Precedes.begins {m m' : Machine} (h : m.Precedes m') :
    m.server.log.Begins m'.server.log where
  messages _ := h.log.filterMap _
  commands _ := h.log.filterMap _
  effects _ := h.log.filterMap _
  console := h.log.filterMap _
  opened := h.log.filterMap _
  closed := h.log.filterMap _
  missed := h.log.filterMap _

/-- The engine with other limits on actions and includes. -/
def Engine.withLimits (e : Engine) (commands includes : UInt32) : Engine :=
  { e with config := { e.config with maxCommands := commands, maxIncludeDepth := includes } }

/-- Runs a source text in a fresh context. -/
def Engine.runFresh (e : Engine) (actor : Actor) (bindings : Dictionary Value) (source : String) :
    Except Halt Value × Machine :=
  (e.machine actor bindings).run source

/-- Whether `second` ends as `first` does, except for the limit of actions in its context. -/
structure EndsAs (commands : UInt32) (first second : Except Halt Value × Machine) : Prop where
  outcome : second.1 = first.1
  context : second.2.context =
    { first.2.context with budget := { first.2.context.budget with limit := commands } }
  server : second.2.server = first.2.server

private theorem Engine.machine_withLimits (e : Engine) (commands includes : UInt32) (actor : Actor)
    (bindings : Dictionary Value) : (e.withLimits commands includes).machine actor bindings =
      (e.machine actor bindings).under ⟨commands, includes, commands, 0⟩ := rfl

private theorem Engine.machine_bounded {e : Engine} (builtins : e.functions.OnlyBuiltins)
    (positive : 0 < e.config.maxIncludeDepth) (actor : Actor) (bindings : Dictionary Value) :
    (e.machine actor bindings).Bounded e.config.maxIncludeDepth :=
  ⟨builtins, rfl, positive, Nat.zero_le _⟩

/-- Two engines have the same built-in functions and differ only in their limits on actions and on
includes, those of the first being tighter; zero is no limit on actions. Run in a fresh context, a
source text ends alike on both, or the first run is refused an action or an include, and then its
records are the beginnings of those of the second. So a run that succeeds is the same under looser
limits. -/
theorem limits_only_truncate (e : Engine) (commands includes : UInt32) (actor : Actor)
    (bindings : Dictionary Value) (source : String) (builtins : e.functions.OnlyBuiltins)
    (fewer : commands = 0 ∨ 0 < e.config.maxCommands ∧ e.config.maxCommands ≤ commands)
    (positive : 0 < e.config.maxIncludeDepth) (shallower : e.config.maxIncludeDepth ≤ includes) :
    ((e.runFresh actor bindings source).1 ≠ .error .tooDeep ∧
      ((e.withLimits commands includes).runFresh actor bindings source).1 ≠ .error .tooDeep) ∧
    (EndsAs commands (e.runFresh actor bindings source)
        ((e.withLimits commands includes).runFresh actor bindings source) ∨
      ((e.runFresh actor bindings source).1 =
          .error (.failed (.budgetExceeded e.config.maxCommands)) ∨
        (e.runFresh actor bindings source).1 =
          .error (.failed (.includeTooDeep e.config.maxIncludeDepth))) ∧
      (e.runFresh actor bindings source).2.server.log.Begins
        ((e.withLimits commands includes).runFresh actor bindings source).2.server.log) ∧
    ∀ value, (e.runFresh actor bindings source).1 = .ok value →
      EndsAs commands (e.runFresh actor bindings source)
        ((e.withLimits commands includes).runFresh actor bindings source) := by
  have looser : Limits.Covers ⟨commands, includes, commands, 0⟩
      (e.machine actor bindings).limits :=
    ⟨fewer, Or.inr ⟨positive, UInt32.le_iff_toNat_le.1 shallower⟩⟩
  obtain ⟨within, alike⟩ := (run_heeds nestingCapacity source).truncates
    (e.machine actor bindings) _ builtins looser
  have depth : (e.runFresh actor bindings source).2.context.includeDepth = 0 :=
    congrArg Limits.depth within
  rw [← Engine.machine_withLimits] at alike
  change ((e.withLimits commands includes).runFresh actor bindings source) = _ ∨ _ at alike
  have ends : (e.withLimits commands includes).runFresh actor bindings source =
      ((e.runFresh actor bindings source).1,
        (e.runFresh actor bindings source).2.under ⟨commands, includes, commands, 0⟩) →
      EndsAs commands (e.runFresh actor bindings source)
        ((e.withLimits commands includes).runFresh actor bindings source) := by
    intro same
    rw [same]
    exact ⟨rfl, by rw [← depth]; rfl, rfl⟩
  refine ⟨⟨?_, ?_⟩, ?_, fun value succeeds => ?_⟩
  · exact (Engine.machine_bounded builtins positive actor bindings).run_ne_tooDeep source
  · have positive' : 0 < (e.withLimits commands includes).config.maxIncludeDepth :=
      UInt32.lt_of_lt_of_le positive shallower
    exact (Engine.machine_bounded (e := e.withLimits commands includes) builtins positive' actor
      bindings).run_ne_tooDeep source
  · rcases alike with same | ⟨failure, fails, cut, shorter⟩
    · exact Or.inl (ends same)
    · refine Or.inr ⟨?_, shorter.begins⟩
      rcases cut with ⟨rfl, -⟩ | rfl
      · exact Or.inl fails
      · exact Or.inr fails
  · rcases alike with same | ⟨failure, fails, -, -⟩
    · exact ends same
    · exact absurd (succeeds.symm.trans fails) (by simp)

/-- An engine whose library has a script with two actions. -/
def thriftyEngine (commands includes : UInt32) : Engine where
  config := { maxCommands := commands, timeout := 0, maxIncludeDepth := includes }
  server := { library := .shelf (Dictionary.empty.insert "twice" "close\nmsg: again\nclose") }

def thriftyActor : Actor := { slot := 0, name := "Ann", uuid := ⟨0⟩ }

def thriftyRun (e : Engine) : Except Halt Value × Machine :=
  e.runFresh thriftyActor Dictionary.empty "include: twice"

theorem limits_only_truncate_thrifty :
    (thriftyEngine 1 1).functions.OnlyBuiltins ∧
      (thriftyRun (thriftyEngine 1 1)).2.server.log.closed = ["Ann"] ∧
      (thriftyRun (thriftyEngine 2 3)).2.server.log.closed = ["Ann", "Ann"] ∧
      (thriftyRun (thriftyEngine 1 1)).2.server.log.Begins
        (thriftyRun (thriftyEngine 2 3)).2.server.log ∧
      EndsAs 0 (thriftyRun (thriftyEngine 2 3)) (thriftyRun (thriftyEngine 0 3)) := by
  have builtins : ∀ commands includes, (thriftyEngine commands includes).functions.OnlyBuiltins :=
    fun _ _ => FunctionTable.onlyBuiltins_builtins
  have loosened : ∀ c d c' d', (thriftyEngine c d).withLimits c' d' = thriftyEngine c' d' :=
    fun _ _ _ _ => rfl
  have named : ∀ e : Engine, e.runFresh thriftyActor Dictionary.empty "include: twice" =
    thriftyRun e := fun _ => rfl
  have once : (thriftyRun (thriftyEngine 1 1)).2.server.log.closed = ["Ann"] := by decide +kernel
  have twice : (thriftyRun (thriftyEngine 2 3)).2.server.log.closed = ["Ann", "Ann"] := by
    decide +kernel
  have succeeds : (thriftyRun (thriftyEngine 2 3)).1.isOk = true := by decide +kernel
  obtain ⟨value, done⟩ : ∃ value, (thriftyRun (thriftyEngine 2 3)).1 = .ok value := by
    cases h : (thriftyRun (thriftyEngine 2 3)).1 with
    | ok value => exact ⟨value, rfl⟩
    | error e =>
      rw [h] at succeeds
      cases succeeds
  have tight := limits_only_truncate (thriftyEngine 1 1) 2 3 thriftyActor Dictionary.empty
    "include: twice" (builtins 1 1) (by decide) (by decide) (by decide)
  have loose := limits_only_truncate (thriftyEngine 2 3) 0 3 thriftyActor Dictionary.empty
    "include: twice" (builtins 2 3) (by decide) (by decide) (by decide)
  rw [loosened] at tight loose
  simp only [named] at tight loose
  refine ⟨builtins 1 1, once, twice, ?_, loose.2.2 value done⟩
  rcases tight.2.1 with ends | ⟨-, begins⟩
  · rw [ends.server, once] at twice
    exact absurd twice (by decide)
  · exact begins

end MenuScript
