import MenuScript.Proofs.ComposedActions

/-!
# What lines cannot see

A line that calls no function by its name looks neither at the clock nor at the log, the time limit
or the table of functions. So two machines that differ in nothing else have it do the same, and they
go on differing in nothing else. How the hidden parts of the two are related is left open here.
-/

namespace MenuScript

open Script

/-- The context under another time limit. -/
def Context.within (c : Context) (timeLimit : Option Nat) : Context :=
  { c with budget := { c.budget with timeLimit } }

/-- The parts of a machine that most lines do not look at. -/
structure Hidden where
  clock : Clock
  log : EventLog
  timeLimit : Option Nat
  functions : FunctionTable

/-- The machine with other hidden parts. -/
def Machine.hiding (m : Machine) (h : Hidden) : Machine where
  config := m.config
  functions := h.functions
  server := { m.server with clock := h.clock, log := h.log }
  context := m.context.within h.timeLimit

/-- A relation between machines that differ in hidden parts only, which is kept if both change in
the same way. -/
structure Unseen (R : Machine → Machine → Prop) : Prop where
  hidden : ∀ {m m'}, R m m' → ∃ h, m' = m.hiding h
  updated : ∀ {m m'} {f : Context → Context}, (∀ c t, f (c.within t) = (f c).within t) →
    R m m' → R (m.updated f) (m'.updated f)
  logged : ∀ {m m'} (e : Event), R m m' → R (m.logged e) (m'.logged e)
  drew : ∀ {m m'} (chance : Chance), R m m' →
    R (m.served fun s => { s with chance }) (m'.served fun s => { s with chance })
  passed : ∀ {m m'} (nanos : Nat), R m m' →
    R (m.served fun s => { s with clock := s.clock.advance nanos })
      (m'.served fun s => { s with clock := s.clock.advance nanos })

theorem Machine.hiding_branches (m : Machine) (h : Hidden) :
    (m.hiding h).context.branches = m.context.branches := rfl

theorem Machine.hiding_statement? (m : Machine) (h : Hidden) (line : String) :
    (m.hiding h).statement? line = m.statement? line := by
  rw [Machine.statement?, Machine.statement?, Machine.hiding_branches]

theorem Unseen.branching {R : Machine → Machine → Prop} (unseen : Unseen R) {m m' : Machine}
    (f : BranchStack → BranchStack) (related : R m m') : R (m.branching f) (m'.branching f) :=
  unseen.updated (fun _ _ => rfl) related

theorem Unseen.keeping {R : Machine → Machine → Prop} (unseen : Unseen R) {m m' : Machine}
    (value : Value) (related : R m m') : R (m.keeping value) (m'.keeping value) :=
  unseen.updated (fun _ _ => rfl) related

/-- Two ends of a computation that are the same, in related machines. -/
inductive Alike {α : Type} (R : Machine → Machine → Prop) :
    EStateM.Result Halt Machine α → EStateM.Result Halt Machine α → Prop
  | ok {m m' : Machine} (a : α) (related : R m m') : Alike R (.ok a m) (.ok a m')
  | error {m m' : Machine} (h : Halt) (related : R m m') : Alike R (.error h m) (.error h m')

/-- Whether a computation has the same end in any two related machines. -/
def Blind {α : Type} (R : Machine → Machine → Prop) (x : Script α) : Prop :=
  ∀ m m', R m m' → Alike R (x m) (x m')

theorem Alike.bind {α β : Type} {R : Machine → Machine → Prop} {x : Script α} {f : α → Script β}
    {m m' : Machine} (first : Alike R (x m) (x m'))
    (rest : ∀ a m₁ m₁', x m = .ok a m₁ → R m₁ m₁' → Alike R (f a m₁) (f a m₁')) :
    Alike R ((x >>= f) m) ((x >>= f) m') := by
  rw [bind_apply m, bind_apply m']
  generalize ran : x m = ended at first ⊢
  generalize x m' = ended' at first ⊢
  cases first with
  | ok a related => exact rest a _ _ ran related
  | error h related => exact .error h related

namespace Blind

variable {α β : Type} {R : Machine → Machine → Prop} {x : Script α}

theorem pure (a : α) : Blind R (pure a : Script α) := fun _ _ related => .ok a related

theorem fail (e : ScriptError) : Blind R (fail e : Script α) :=
  fun _ _ related => .error (.failed e) related

theorem bind {f : α → Script β} (hx : Blind R x) (hf : ∀ a, Blind R (f a)) :
    Blind R (x >>= f) :=
  fun _ _ related => Alike.bind (hx _ _ related) fun a _ _ _ related' => hf a _ _ related'

variable (unseen : Unseen R)
include unseen

theorem get_bind {g : Machine → Script β} (blind : ∀ m h, g (m.hiding h) = g m)
    (rest : ∀ m, Blind R (g m)) : Blind R (get >>= g) := by
  intro m m' related
  obtain ⟨h, rfl⟩ := unseen.hidden related
  rw [Script.get_bind, Script.get_bind, blind]
  exact rest m _ _ related

theorem context_bind {g : Context → Script β} (blind : ∀ c t, g (c.within t) = g c)
    (rest : ∀ c, Blind R (g c)) : Blind R (context >>= g) :=
  get_bind unseen (fun m h => blind m.context h.timeLimit) fun m => rest m.context

theorem modifyContext {f : Context → Context} (step : ∀ c t, f (c.within t) = (f c).within t) :
    Blind R (modifyContext f) :=
  fun _ _ related => .ok () (unseen.updated step related)

theorem record (e : Event) : Blind R (record e) :=
  fun _ _ related => .ok () (unseen.logged e related)

theorem tell (text : String) : Blind R (tell text) :=
  context_bind unseen (fun _ _ => rfl) fun _ => record unseen _

theorem draw (least greatest : Int) : Blind R (draw least greatest) := by
  intro m m' related
  obtain ⟨h, rfl⟩ := unseen.hidden related
  rw [draw_apply, draw_apply]
  exact .ok _ (unseen.drew _ related)

theorem pause (millis : Nat) : Blind R (modifyServer (·.pause millis)) := by
  intro m m' related
  rw [modifyServer_apply, modifyServer_apply, Machine.served_pause, Machine.served_pause]
  exact .ok () (unseen.logged _ (unseen.passed _ related))

theorem charge : Blind R charge := by
  intro m m' related
  have counted : R m.counted m'.counted := unseen.updated (fun _ _ => rfl) related
  obtain ⟨h, rfl⟩ := unseen.hidden related
  have same : (m.hiding h).counted.context.budget.isOverdrawn =
      m.counted.context.budget.isOverdrawn := rfl
  rw [charge_apply, charge_apply, same]
  split_ifs
  · exact .error _ counted
  · exact .ok () counted

/-- What a computation looks at between its steps is not hidden. -/
theorem of_composed {steps : List Step} (composed : Composed steps x) : Blind R x := by
  induction composed with
  | pure a => exact .pure a
  | fail h => exact .fail _
  | act a h => exact .bind (.charge unseen) fun _ => .bind (.record unseen _) fun _ => .pure _
  | tell e quiet own h =>
    exact .context_bind unseen (fun _ _ => rfl) fun _ => .record unseen _
  | assign name value h => exact .modifyContext unseen fun _ _ => rfl
  | branch f h => exact .modifyContext unseen fun _ _ => rfl
  | draw least greatest h => exact .draw unseen least greatest
  | pause millis h => exact .pause unseen millis
  | look y comes rest ih =>
    intro m m' related
    obtain ⟨h, rfl⟩ := unseen.hidden related
    have same : (m.hiding h).seen = m.seen := rfl
    rw [comes m, comes (m.hiding h), same]
    exact ih m.seen m _ related
  | bind first rest ih ih' => exact .bind ih ih'

end Blind

section Lines

variable {R : Machine → Machine → Prop} (unseen : Unseen R) {nested : String → Script Value}
include unseen

theorem Builtin.call_blind {b : Builtin} {args : List Value}
    (plain : Callable.included? (.builtin b) args = none) : Blind R (b.call nested args) :=
  .of_composed unseen (b.call_composed nested plain)

/-- A statement that calls no function by its name looks at nothing hidden. -/
theorem Statement.perform_blind {s : Statement}
    (plain : ∀ function arguments, s ≠ .call function arguments) : Blind R (s.perform nested) :=
  .of_composed unseen (s.perform_composed nested plain)

/-- A line has the same end in related machines if the statement has that it makes them perform. -/
theorem runLine_alike {m m' : Machine} {line : String} (related : R m m')
    (performed : ∀ s, m.statement? line = some s →
      Alike R (s.perform nested m) (s.perform nested m')) :
    Alike R (runLine nested line m) (runLine nested line m') := by
  obtain ⟨h, rfl⟩ := unseen.hidden related
  obtain hi | ⟨hi, hs⟩ | ⟨hi, hs, hr⟩ | ⟨s, hs⟩ := runLine_cases m line
  · rw [runLine_of_ignorable nested hi, runLine_of_ignorable nested hi]
    exact .ok () related
  · have hs' : (m.hiding h).context.branches.isSkipping = true := by
      rw [Machine.hiding_branches, hs]
    rw [runLine_of_skipping nested hi hs, runLine_of_skipping nested hi hs']
    exact .ok () (unseen.branching _ related)
  · have hs' : (m.hiding h).context.branches.isSkipping = false := by
      rw [Machine.hiding_branches, hs]
    rw [runLine_of_unreadable nested hi hs hr, runLine_of_unreadable nested hi hs' hr]
    exact .error _ related
  · have hs' : (m.hiding h).statement? line = some s := by rw [Machine.hiding_statement?, hs]
    have alike := performed s hs
    rw [runLine_of_statement? nested hs, runLine_of_statement? nested hs']
    generalize s.perform nested m = ended at alike ⊢
    generalize s.perform nested (m.hiding h) = ended' at alike ⊢
    cases alike with
    | ok value related' => exact .ok () (unseen.keeping value related')
    | error e related' => exact .error e related'

end Lines

end MenuScript
