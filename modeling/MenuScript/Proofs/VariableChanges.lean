import MenuScript.Proofs.PresentedEffects

/-!
# Variables change where a line names them

Three kinds of lines name a variable, each in a form of its own and as a call: `set`, `math` and
`random`. If such a line has the value true, then the variable it names has a value of the kind it
asks for, and all other variables are as they were. Whatever else a line says, and whenever its
value is not true, no variable changes. Included scripts and functions of a host are not considered.
-/

namespace MenuScript

open Script

/-- What a line asks for that names a variable. -/
inductive Assignment where
  | text (name value : String)
  | number (name : String)
  | between (name least greatest : String)
  deriving DecidableEq, Repr

namespace Assignment

/-- The variable that is named. -/
def name : Assignment → String
  | .text name _ | .number name | .between name .. => name

/-- The values that the variable may be given. -/
def Admits : Assignment → Value → Prop
  | .text _ value, v => v = .string value
  | .number _, v => ∃ x, v = .number x
  | .between _ least greatest, v => ∃ a b n, Number.readInt64? (trimmed least) = some a ∧
      Number.readInt64? (trimmed greatest) = some b ∧ a < b ∧ v = .integer n ∧ a ≤ n ∧ n ≤ b

/-- Whether the variable may be left without a new value. -/
def CanFail : Assignment → Prop
  | .text .. => False
  | .number _ => True
  | .between _ least greatest => ∀ a b, Number.readInt64? (trimmed least) = some a →
      Number.readInt64? (trimmed greatest) = some b → ¬ a < b

end Assignment

/-- What a call with the given texts asks for. -/
def Builtin.assignment? : Builtin → List String → Option Assignment
  | .assign, name :: word :: words => some (.text name (spaced (word :: words)))
  | .math, name :: _ :: _ :: _ => some (.number name)
  | .random, name :: least :: greatest :: _ => some (.between name least greatest)
  | _, _ => none

/-- What a statement asks for. In its own form the name is taken as it stands, and in a call it is
resolved like every other word. -/
def Statement.assignment? (m : Machine) : Statement → Option Assignment
  | .assign name value => some (.text name (m.context.resolve value))
  | .math name .. => some (.number name)
  | .random name least greatest =>
    some (.between name (m.context.resolve least) (m.context.resolve greatest))
  | .call function words =>
    match m.functions.get? function with
    | some (.builtin b) => b.assignment? (words.map m.context.resolve)
    | _ => none
  | _ => none

/-- What a physical line asks for. -/
def Machine.assignment? (m : Machine) (line : String) : Option Assignment :=
  (m.statement? line).bind (·.assignment? m)

/-- Whether a computation leaves the variables as they are, however it ends. -/
def KeepsVariables {α : Type} (x : Script α) : Prop :=
  ∀ m : Machine, (m.perform x).2.context.bindings = m.context.bindings

namespace KeepsVariables

variable {α β : Type} {x : Script α}

theorem pure (a : α) : KeepsVariables (pure a : Script α) := fun _ => rfl

theorem bind {f : α → Script β} (hx : KeepsVariables x) (hf : ∀ a, KeepsVariables (f a)) :
    KeepsVariables (x >>= f) := by
  intro m
  have first := hx m
  cases h : x m with
  | ok a m' =>
    rw [Machine.perform_of_ok h] at first
    rw [Machine.perform, bind_of_ok m h]
    exact (hf a m').trans first
  | error e m' =>
    rw [Machine.perform_of_error h] at first
    rw [Machine.perform, bind_of_error m h]
    exact first

theorem of_eq {m : Machine} {y : Script α} (h : x m = y m) (hy : KeepsVariables y) :
    (m.perform x).2.context.bindings = m.context.bindings := by
  rw [Machine.perform, h]
  exact hy m

theorem charge : KeepsVariables charge := by
  intro m
  rw [Machine.perform, charge_apply]
  split_ifs <;> rfl

/-- Only assignments change variables. -/
theorem of_composed {steps : List Step} (composed : Composed steps x) (idle : .assign ∉ steps) :
    KeepsVariables x := by
  induction composed with
  | act a h => exact .bind .charge fun _ => .bind (fun _ => rfl) fun _ => .pure _
  | assign name value h => exact absurd h idle
  | look y comes rest ih => exact fun m => of_eq (comes m) (ih m.seen)
  | bind first rest ih ih' => exact .bind ih ih'
  | _ => exact fun _ => rfl

end KeepsVariables

section Frames

variable {b : Builtin} {words : List String}

private theorem Builtin.assign_not_mem_steps (idle : b.assignment? words = none) :
    .assign ∉ b.steps (words.map .string) := by
  cases b with
  | assign => rcases words with _ | ⟨name, _ | ⟨word, rest⟩⟩ <;> simp_all [assignment?, steps]
  | math =>
    rcases words with _ | ⟨name, _ | ⟨op, _ | ⟨operand, rest⟩⟩⟩ <;>
      simp_all [assignment?, steps, arithmetic?]
  | random =>
    rcases words with _ | ⟨name, _ | ⟨least, _ | ⟨greatest, rest⟩⟩⟩ <;>
      simp_all [assignment?, steps]
  | _ => simp [steps]

/-- A call that asks for no assignment and includes no script changes no variable. -/
theorem Builtin.call_keepsVariables (nested : String → Script Value)
    (idle : b.assignment? words = none)
    (plain : Callable.included? (.builtin b) (words.map .string) = none) :
    KeepsVariables (b.call nested (words.map .string)) :=
  .of_composed (b.call_composed nested plain) (assign_not_mem_steps idle)

end Frames

section Assignments

variable {m : Machine} {a : Assignment}

/-- The two ways in which a computation can end that asks for an assignment: the variable has been
given an admissible value and nothing else has changed but the numbers left to draw, or the value is
not true and nothing has changed. -/
inductive Machine.Assigns (m : Machine) (a : Assignment) : Except Halt Value × Machine → Prop
  | stored {v : Value} (chance : Chance) (admitted : a.Admits v) :
      Assigns m a (.ok (.bool true), (m.drawn chance).updated (·.set a.name v))
  | refused {r : Except Halt Value} (fails : r ≠ .ok (.bool true)) (canFail : a.CanFail) :
      Assigns m a (r, m)

theorem Machine.Assigns.of_eq {x y : Script Value} (h : x m = y m)
    (assigns : m.Assigns a (m.perform y)) : m.Assigns a (m.perform x) := by
  rw [Machine.perform, h]
  exact assigns

theorem assign_assigns (name text : String) :
    m.Assigns (.text name text) (m.perform (Action.assign name (.string text))) :=
  .stored m.server.chance rfl

theorem applyMath_assigns (name : String) (op : MathOp) (operand : String) :
    m.Assigns (.number name) (m.perform (Action.applyMath name op operand)) := by
  rw [Machine.perform, Action.applyMath, context_bind]
  cases Action.mathOperands? m.context name operand with
  | none => exact .refused (by simp) trivial
  | some pair =>
    obtain ⟨x, y⟩ := pair
    by_cases divides : op = .div ∧ (y == 0.0) = true
    · -- the division is refused before anything is stored
      simp only [divides, and_self, if_true, fail_bind]
      exact .refused (by simp) trivial
    · simp only [divides, if_false]
      exact .stored m.server.chance ⟨_, rfl⟩

theorem Chance.draw_mem (c : Chance) {least greatest : Int} (h : least ≤ greatest) :
    least ≤ (c.draw least greatest).1 ∧ (c.draw least greatest).1 ≤ greatest := by
  have positive : (0 : Int) < (greatest - least).toNat + 1 := by omega
  have above := Int.emod_nonneg (c.raw c.used) (Int.ne_of_gt positive)
  have below := Int.emod_lt_of_pos (c.raw c.used) positive
  rw [Chance.draw]
  omega

/-- Between two bounds of the range of integers every number is in the range. -/
theorem ofInt_between {a b : Int64} {n : Int} (least : a.toInt ≤ n) (greatest : n ≤ b.toInt) :
    a ≤ Int64.ofInt n ∧ Int64.ofInt n ≤ b := by
  have above := a.le_toInt
  have below := b.toInt_lt
  have same : (Int64.ofInt n).toInt = n := Int64.toInt_ofInt_of_le (by omega) (by omega)
  rw [Int64.le_iff_toInt_le, Int64.le_iff_toInt_le, same]
  exact ⟨least, greatest⟩

private theorem Action.bounds?_eq_some_iff {least greatest : String} {a b : Int64} :
    bounds? least greatest = some (a, b) ↔
      Number.readInt64? (trimmed least) = some a ∧
        Number.readInt64? (trimmed greatest) = some b ∧ a < b := by
  rw [bounds?]
  cases Number.readInt64? (trimmed least) <;> cases Number.readInt64? (trimmed greatest) <;> simp
  grind

theorem storeRandom_assigns (name least greatest : String) :
    m.Assigns (.between name least greatest)
      (m.perform (Action.storeRandom name least greatest)) := by
  rw [Machine.perform, Action.storeRandom]
  cases found : Action.bounds? least greatest with
  | none =>
    refine .refused (by simp) fun a b readsLeast readsGreatest less => ?_
    rw [Action.bounds?_eq_some_iff.2 ⟨readsLeast, readsGreatest, less⟩] at found
    cases found
  | some bounds =>
    obtain ⟨a, b⟩ := bounds
    obtain ⟨readsLeast, readsGreatest, less⟩ := Action.bounds?_eq_some_iff.1 found
    -- what is drawn is between two integers, so it is not changed when it is made one
    have drawn := m.server.chance.draw_mem (Int.le_of_lt (Int64.lt_iff_toInt_lt.1 less))
    simp only [bind_of_ok m (draw_apply m _ _)]
    exact .stored _ ⟨a, b, _, readsLeast, readsGreatest, less, rfl, ofInt_between drawn.1 drawn.2⟩

theorem Value.joined_strings (words : List String) :
    Value.joined (words.map .string) = spaced words := by
  rw [Value.joined, List.map_map]
  exact congrArg spaced (List.map_id words)

private theorem Builtin.call_assigns (nested : String → Script Value) {b : Builtin}
    {words : List String}
    (asks : b.assignment? words = some a) :
    m.Assigns a (m.perform (b.call nested (words.map .string))) := by
  cases b with
  | assign =>
    rcases words with _ | ⟨name, _ | ⟨word, _ | ⟨more, rest⟩⟩⟩
    · cases asks
    · cases asks
    · cases asks
      rw [spaced_singleton]
      exact assign_assigns name word
    · cases asks
      rw [← Value.joined_strings]
      exact assign_assigns name _
  | math =>
    rcases words with _ | ⟨name, _ | ⟨op, _ | ⟨operand, rest⟩⟩⟩
    · cases asks
    · cases asks
    · cases asks
    · cases asks
      rw [List.map_cons, List.map_cons, List.map_cons, Builtin.call]
      split
      · exact applyMath_assigns _ _ _
      · exact .refused (by simp) trivial
  | random =>
    rcases words with _ | ⟨name, _ | ⟨least, _ | ⟨greatest, rest⟩⟩⟩
    · cases asks
    · cases asks
    · cases asks
    · cases asks
      exact storeRandom_assigns _ _ _
  | _ => cases asks

end Assignments

section Lines

variable {m : Machine} (nested : String → Script Value) {s : Statement} {line : String}

theorem Statement.called?_of_get? {function : String} {f : Callable} (words : List String)
    (found : m.functions.get? function = some f) :
    (Statement.call function words).called? m =
      some (f, (words.map m.context.resolve).map .string) := by
  simp [called?, found]

private theorem Statement.perform_keepsVariables (idle : s.assignment? m = none)
    (plain : ∀ f args, s.called? m = some (f, args) →
      ∃ b, f = .builtin b ∧ f.included? args = none) :
    (m.perform (s.perform nested)).2.context.bindings = m.context.bindings := by
  cases s with
  | call function words =>
    cases found : m.functions.get? function with
    | none => rw [Machine.perform_of_error (perform_call_of_none m nested found)]
    | some f =>
      have calls := called?_of_get? words found
      obtain ⟨b, rfl, included⟩ := plain _ _ calls
      simp only [assignment?, found] at idle
      exact KeepsVariables.of_eq (perform_of_called? m nested calls)
        (Builtin.call_keepsVariables nested idle included)
  | assign | math | random => cases idle
  | _ => exact KeepsVariables.of_composed (perform_composed nested (by simp)) (by simp [steps]) m

theorem Statement.perform_assigns {a : Assignment} (asks : s.assignment? m = some a) :
    m.Assigns a (m.perform (s.perform nested)) := by
  cases s with
  | assign name value =>
    cases asks
    rw [perform]
    exact .of_eq (resolve_bind m _ _) (assign_assigns name _)
  | math name op operand =>
    cases asks
    rw [perform]
    exact .of_eq (resolve_bind m _ _) (applyMath_assigns name op _)
  | random name least greatest =>
    cases asks
    rw [perform]
    exact .of_eq (context_bind m _) (storeRandom_assigns name _ _)
  | call function words =>
    simp only [assignment?] at asks
    split at asks
    · rename_i b found
      have calls := called?_of_get? words found
      exact .of_eq (perform_of_called? m nested calls) (Builtin.call_assigns nested asks)
    · cases asks
  | _ => cases asks

/-- Whether a physical line is run and has the value true. -/
def Machine.Succeeds (m : Machine) (nested : String → Script Value) (line : String) : Prop :=
  ∃ s m', m.statement? line = some s ∧ s.perform nested m = .ok (.bool true) m'

theorem Machine.succeeds_iff (executed : m.statement? line = some s) :
    m.Succeeds nested line ↔ (m.perform (s.perform nested)).1 = .ok (.bool true) := by
  constructor
  · rintro ⟨s', m', executed', done⟩
    obtain rfl : s' = s := Option.some.inj (executed'.symm.trans executed)
    simp only [Machine.perform, done]
  · intro done
    cases ran : s.perform nested m with
    | ok value m' =>
      simp only [Machine.perform, ran] at done
      cases done
      exact ⟨s, m', executed, ran⟩
    | error e m' =>
      simp only [Machine.perform, ran] at done
      cases done

/-- The value of a line is kept apart from the variables. -/
theorem runLine_bindings (executed : m.statement? line = some s) :
    (m.perform (runLine nested line)).2.context.bindings =
      (m.perform (s.perform nested)).2.context.bindings := by
  have ran := runLine_of_statement? nested executed
  cases performed : s.perform nested m with
  | ok value m' =>
    rw [performed] at ran
    rw [Machine.perform_of_ok ran, Machine.perform_of_ok performed]
    rfl
  | error e m' =>
    rw [performed] at ran
    rw [Machine.perform_of_error ran, Machine.perform_of_error performed]

private theorem runLine_bindings_of_none (idle : m.statement? line = none) :
    (m.perform (runLine nested line)).2.context.bindings = m.context.bindings := by
  obtain ignorable | ⟨said, skipping⟩ | ⟨said, running, unread⟩ | ⟨s, executed⟩ :=
    runLine_cases m line
  · rw [Machine.perform_of_ok (runLine_of_ignorable nested ignorable)]
  · rw [Machine.perform_of_ok (runLine_of_skipping nested said skipping),
      Machine.branching_bindings]
  · rw [Machine.perform_of_error (runLine_of_unreadable nested said running unread)]
  · rw [executed] at idle
    cases idle

end Lines

/-- What the variables are after a line, if they are known before it, together with what the line
asks for and whether it has the value true. -/
structure VariablesFollow (said : Option Assignment) (succeeds : Prop)
    (before after : Dictionary Value) : Prop where
  kept : said = none ∨ ¬ succeeds → after = before
  others : ∀ a, said = some a → ∀ key, key ≠ a.name → after.get? key = before.get? key
  named : ∀ a, said = some a → succeeds → ∃ v, after.get? a.name = some v ∧ a.Admits v
  assigned : ∀ name value, said = some (.text name value) → succeeds
  drawn : ∀ name least greatest, said = some (.between name least greatest) →
    (succeeds ↔ ∃ a b, Number.readInt64? (trimmed least) = some a ∧
      Number.readInt64? (trimmed greatest) = some b ∧ a < b)

namespace VariablesFollow

variable {m m' : Machine} {a : Assignment} {r : Except Halt Value} {succeeds : Prop}

private theorem of_none (bindings : Dictionary Value) :
    VariablesFollow none succeeds bindings bindings where
  kept _ := rfl
  others a said := by cases said
  named a said := by cases said
  assigned name value said := by cases said
  drawn name least greatest said := by cases said

theorem of_assigns (assigns : m.Assigns a (r, m')) :
    VariablesFollow (some a) (r = .ok (.bool true)) m.context.bindings m'.context.bindings := by
  cases assigns with
  | @stored v chance admitted =>
    have bindings : ∀ key, ((m.drawn chance).updated (·.set a.name v)).context.bindings.get? key =
        if key = a.name then some v else m.context.bindings.get? key :=
      fun key => m.context.bindings.get?_insert a.name key v
    refine ⟨?_, ?_, ?_, fun _ _ _ => rfl, ?_⟩
    · rintro (said | fails)
      · cases said
      · exact absurd rfl fails
    · intro _ said key other
      cases said
      rw [bindings, if_neg other]
    · intro _ said _
      cases said
      exact ⟨v, by rw [bindings, if_pos rfl], admitted⟩
    · intro name least greatest said
      cases said
      obtain ⟨a, b, n, readsLeast, readsGreatest, less, -⟩ := admitted
      exact iff_of_true rfl ⟨a, b, readsLeast, readsGreatest, less⟩
  | refused fails canFail =>
    refine ⟨fun _ => rfl, fun _ _ _ _ => rfl, fun _ _ done => absurd done fails, ?_, ?_⟩
    · intro name value said
      cases said
      exact canFail.elim
    · intro name least greatest said
      cases said
      refine iff_of_false fails ?_
      rintro ⟨a, b, readsLeast, readsGreatest, less⟩
      exact canFail a b readsLeast readsGreatest less

end VariablesFollow

/-- A line that includes no script and calls no function of a host changes no variable, unless it is
a `set`, `math` or `random` line that has the value true. Then the variable that it names has the
text, a number, or an integer between the bounds, and all other variables are as they were. A `set`
line that has a value to assign always succeeds, and a `random` line does so exactly if its bounds
can be read and the first is less than the second. -/
theorem variables_change_where_named (m : Machine) (nested : String → Script Value) (line : String)
    (plain : m.included? line = none)
    (own : ∀ body args, m.called? line ≠ some (.routine body, args)) :
    VariablesFollow (m.assignment? line) (m.Succeeds nested line) m.context.bindings
      (m.perform (runLine nested line)).2.context.bindings := by
  cases executed : m.statement? line with
  | none =>
    have idle : m.assignment? line = none := by simp [Machine.assignment?, executed]
    rw [runLine_bindings_of_none nested executed, idle]
    exact .of_none _
  | some s =>
    rw [runLine_bindings nested executed, propext (Machine.succeeds_iff nested executed)]
    have said : m.assignment? line = s.assignment? m := by simp [Machine.assignment?, executed]
    have calls : m.called? line = s.called? m := by simp [Machine.called?, executed]
    rw [said]
    cases asks : s.assignment? m with
    | none =>
      rw [s.perform_keepsVariables nested asks ?_]
      · exact .of_none _
      · intro f args called
        rw [called] at calls
        cases f with
        | routine body => exact absurd calls (own body args)
        | builtin b => exact ⟨b, rfl, by simpa [Machine.included?, calls] using plain⟩
    | some a => exact .of_assigns (s.perform_assigns nested asks)

/-- A call of `random` over the whole range of integers, with a name that is made of parts. -/
def widestDraw : String := "random: roll_{world} -9223372036854775808 9223372036854775807"

theorem variables_change_where_named_widest :
    soloStart.included? widestDraw = none ∧
      (∀ body args, soloStart.called? widestDraw ≠ some (.routine body, args)) ∧
      ∃ n, (soloStart.perform (runLine (run nestingCapacity) widestDraw)).2.context.bindings.get?
        "roll_world" = some (.integer n) := by
  have included : soloStart.included? widestDraw = none := by decide +kernel
  have asks : soloStart.assignment? widestDraw =
      some (.between "roll_world" "-9223372036854775808" "9223372036854775807") := by
    decide +kernel
  have own : ∀ body args, soloStart.called? widestDraw ≠ some (.routine body, args) := by
    intro body args calls
    obtain ⟨b, builtin⟩ := Machine.builtin_of_called? FunctionTable.onlyBuiltins_builtins calls
    cases builtin
  have follow := variables_change_where_named soloStart (run nestingCapacity) widestDraw included
    own
  have done := (follow.drawn _ _ _ asks).2
    ⟨Int64.minValue, Int64.maxValue, by decide +kernel, by decide +kernel, by decide⟩
  obtain ⟨v, stored, -, -, n, -, -, -, rfl, -⟩ := follow.named _ asks done
  exact ⟨included, own, n, stored⟩

end MenuScript
