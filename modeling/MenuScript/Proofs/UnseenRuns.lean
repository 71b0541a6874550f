import MenuScript.Proofs.LineArrivals
import MenuScript.Proofs.UnseenParts

/-!
# Runs that look the same

Two machines whose differences no line can see run the same lines to the same end, and go on
differing in nothing else. Where functions are called, they must be the same in both machines, and
what a routine asks for must not tell the machines apart either. How the clocks of the two answer
when the time is looked at is left to the relation.
-/

namespace MenuScript

open Script

/-- An unseen relation between machines with the same functions, which stays one if both lose the
same name. -/
structure Unnoticed (R : Machine → Machine → Prop) : Prop extends Unseen R where
  functions : ∀ {m m'}, R m m' → m'.functions = m.functions
  unregistered : ∀ {m m'} (name : String), R m m' →
    R { m with functions := m.functions.erase name }
      { m' with functions := m'.functions.erase name }

section Requests

variable {R : Machine → Machine → Prop} {m m' : Machine} {nested : String → Script Value}

theorem Alike.attempt {α : Type} {x : Script α} (alike : Alike R (x m) (x m')) :
    Alike R (attempt x m) (attempt x m') := by
  rw [Script.attempt, Script.attempt]
  generalize x m = ended at alike ⊢
  generalize x m' = ended' at alike ⊢
  cases alike with
  | ok a related => exact .ok _ related
  | error h related =>
    cases h with
    | failed e => exact .ok _ related
    | tooDeep => exact .error _ related

private theorem popData_blind (unseen : Unseen R) : Blind R popData := by
  refine .context_bind unseen (fun _ _ => rfl) fun c => ?_
  split
  · exact .fail _
  · exact .bind (.modifyContext unseen fun _ _ => rfl) fun _ => .pure _

private theorem unregister_blind (unnoticed : Unnoticed R) (name : String) :
    Blind R ((Request.unregister name).perform nested) := by
  intro m m' related
  have found : m'.functions.contains name = m.functions.contains name := by
    rw [unnoticed.functions related]
  have same : (Request.unregister name).perform nested m' =
      .ok (m.functions.contains name) { m' with functions := m'.functions.erase name } := by
    rw [← found]
    rfl
  rw [same]
  exact .ok _ (unnoticed.unregistered name related)

/-- The answer to a request does not tell related machines apart. -/
theorem Request.perform_blind (unnoticed : Unnoticed R) {r : Request} (plain : r.launches = false) :
    Blind R (r.perform nested) := by
  have unseen := unnoticed.toUnseen
  cases r with
  | tell text => exact .tell unseen text
  | getVariable | dataSize | commandCount | includeDepth | lastResult | branchDepth =>
    exact .context_bind unseen (fun _ _ => rfl) fun _ => .pure _
  | setVariable | pushData | pushBranch | cancel =>
    rw [perform]
    exact .modifyContext unseen fun _ _ => rfl
  | removeVariable name =>
    exact .context_bind unseen (fun _ _ => rfl) fun _ =>
      .bind (.modifyContext unseen fun _ _ => rfl) fun _ => .pure _
  | popData => exact fun m m' related => (popData_blind unseen m m' related).attempt
  | peekData =>
    refine .context_bind unseen (fun _ _ => rfl) fun c => ?_
    split <;> exact .pure _
  | charge => exact fun m m' related => (Blind.charge unseen m m' related).attempt
  | popBranch =>
    have composed : Composed Statement.endIf.steps MenuScript.popBranch :=
      popBranch_composed (by simp [Statement.steps]) (by simp [Statement.steps])
    exact fun m m' related => (Blind.of_composed unseen composed m m' related).attempt
  | flipBranch =>
    have composed : Composed [.branch] MenuScript.flipBranch := flipBranch_composed (by simp)
    exact .of_composed unseen composed
  | runSource source => cases plain
  | runNamed name => cases plain
  | unregister name => exact unregister_blind unnoticed name

private theorem runNamed_alike (unseen : Unseen R) {name : String} (related : R m m')
    (launched : ∀ source, m.server.library.load? name = some source →
      Alike R (nested source m) (nested source m')) :
    Alike R (runNamed nested name m) (runNamed nested name m') := by
  have library : m'.server.library = m.server.library := by
    obtain ⟨h, rfl⟩ := unseen.hidden related
    rfl
  rw [runNamed, get_bind, get_bind, library]
  cases loaded : m.server.library.load? name with
  | none => exact .error _ related
  | some source => exact launched source loaded

/-- What a routine does tells related machines apart only through the scripts that it launches. -/
theorem Routine.perform_alike {α : Type} (unnoticed : Unnoticed R) {r : Routine α}
    (related : R m m')
    (launched : ∀ source m₁ m₁', r.Launches nested m source m₁ → R m₁ m₁' →
      Alike R (nested source m₁) (nested source m₁')) :
    Alike R (r.perform nested m) (r.perform nested m') := by
  induction r generalizing m m' with
  | done a => exact .ok a related
  | ask request next ih =>
    have asked : Alike R (request.perform nested m) (request.perform nested m') := by
      cases launches : request.launches with
      | false => exact Request.perform_blind unnoticed launches m m' related
      | true =>
        cases request with
        | runSource source => exact (launched source m m' (.source source next) related).attempt
        | runNamed name =>
          refine Alike.attempt (runNamed_alike unnoticed.toUnseen related fun source loaded => ?_)
          exact launched source m m' (.named next loaded) related
        | _ => cases launches
    refine asked.bind fun answer m₁ m₁' ran related' => ih answer related' ?_
    exact fun source m₂ m₂' more => launched source m₂ m₂' (.later ran more)

end Requests

section Lines

variable {R : Machine → Machine → Prop} {m m' : Machine} {nested : String → Script Value}
  {line : String}

private theorem runIncluded_alike (unseen : Unseen R) {name : String} (related : R m m')
    (launched : ∀ source m₁', m.server.library.load? name = some source → ¬ m.isFull →
      R m.entered m₁' → Alike R (nested source m.entered) (nested source m₁')) :
    Alike R (runIncluded nested name m) (runIncluded nested name m') := by
  have entered : R m.entered m'.entered := unseen.updated (fun _ _ => rfl) related
  obtain ⟨h, rfl⟩ := unseen.hidden related
  cases loaded : m.server.library.load? name with
  | none =>
    have loaded' : (m.hiding h).server.library.load? name = none := loaded
    rw [runIncluded_of_missing nested loaded, runIncluded_of_missing nested loaded']
    exact .ok _ (unseen.logged _ related)
  | some source =>
    have loaded' : (m.hiding h).server.library.load? name = some source := loaded
    by_cases full : m.isFull
    · have full' : (m.hiding h).isFull := full
      rw [runIncluded_of_full nested loaded full, runIncluded_of_full nested loaded' full']
      exact .error _ related
    · have full' : ¬ (m.hiding h).isFull := full
      have alike := launched source _ loaded full entered
      rw [runIncluded_of_room nested loaded full, runIncluded_of_room nested loaded' full']
      generalize nested source m.entered = ended at alike ⊢
      generalize nested source _ = ended' at alike ⊢
      cases alike with
      | ok value related' => exact .ok _ (unseen.updated (fun _ _ => rfl) related')
      | error h related' => exact .error h (unseen.updated (fun _ _ => rfl) related')

private theorem Callable.call_alike (unnoticed : Unnoticed R) {f : Callable} {args : List Value}
    (related : R m m') (called : m.called? line = some (f, args))
    (launched : ∀ source m₁ m₁', Launches nested m line source m₁ → R m₁ m₁' →
      Alike R (nested source m₁) (nested source m₁')) :
    Alike R (f.call nested args m) (f.call nested args m') := by
  cases f with
  | routine body =>
    rw [Callable.call]
    refine Alike.bind (Routine.perform_alike unnoticed related fun source m₁ m₁' more => ?_) ?_
    · exact launched source m₁ m₁' (.routine called more)
    · intro outcome m₁ m₁' _ related'
      cases outcome with
      | ok value => exact .ok value related'
      | error e => exact .error _ related'
  | builtin b =>
    cases names : Callable.included? (.builtin b) args with
    | none => exact Builtin.call_blind unnoticed.toUnseen names m m' related
    | some name =>
      have included : m.included? line = some name := by
        rw [Machine.included?, called, Option.bind_some, names]
      simp only [Callable.call, b.call_of_included? nested names]
      refine runIncluded_alike unnoticed.toUnseen related fun source m₁' loaded room => ?_
      exact launched source m.entered m₁' (.included included loaded room)

/-- What a line does tells related machines apart only through the scripts that it launches. -/
theorem runLine_unnoticed (unnoticed : Unnoticed R) (related : R m m')
    (launched : ∀ source m₁ m₁', Launches nested m line source m₁ → R m₁ m₁' →
      Alike R (nested source m₁) (nested source m₁')) :
    Alike R (runLine nested line m) (runLine nested line m') := by
  have unseen := unnoticed.toUnseen
  refine runLine_alike unseen related fun s states => ?_
  by_cases calls : ∃ function arguments, s = .call function arguments
  · obtain ⟨function, arguments, rfl⟩ := calls
    have functions := unnoticed.functions related
    cases found : m.functions.get? function with
    | none =>
      have found' : m'.functions.get? function = none := by rw [functions, found]
      rw [Statement.perform_call_of_none m nested found,
        Statement.perform_call_of_none m' nested found']
      exact .error _ related
    | some f =>
      have called : (Statement.call function arguments).called? m =
          some (f, arguments.map fun a => .string (m.context.resolve a)) := by
        rw [Statement.called?, found, Option.map_some]
      have called' : (Statement.call function arguments).called? m' =
          some (f, arguments.map fun a => .string (m.context.resolve a)) := by
        rw [Statement.called?, functions, found, Option.map_some]
        obtain ⟨h, rfl⟩ := unseen.hidden related
        rfl
      rw [Statement.perform_of_called? m nested called,
        Statement.perform_of_called? m' nested called']
      refine Callable.call_alike unnoticed related ?_ launched
      rw [Machine.called?, states, Option.bind_some, called]
  · refine Statement.perform_blind unseen (fun function arguments same => ?_) m m' related
    exact calls ⟨function, arguments, same⟩

end Lines

section Runs

variable {R : Machine → Machine → Prop} {m m' : Machine} {depth : Nat} {lines : List String}

/-- A run gets to the lines of a script that is launched by a line which the run comes to. -/
theorem ComesTo.arrives_inside {s t : LineStart} {capacity : Nat} {source : String} {m₁ : Machine}
    (comes : ComesTo depth lines m t) (room : t.capacity = capacity + 1)
    (launched : Launches (run (capacity + 1)) t.machine t.line source m₁)
    (more : Arrives Launches capacity (linesOf source) m₁ s) :
    Arrives Launches depth lines m s := by
  induction comes with
  | first inTime going =>
    cases room
    exact .inside ⟨inTime, going⟩ launched more
  | later inTime going ran _ ih => exact .later ⟨inTime, going⟩ ran (ih room launched)
  | inside inTime going outer _ ih => exact .inside ⟨inTime, going⟩ outer (ih room launched)

theorem checkTime_alike (limit : m'.context.budget.timeLimit = m.context.budget.timeLimit)
    (late : m'.isLate = m.isLate) (related : R m.looked m'.looked) :
    Alike R (checkTime m) (checkTime m') := by
  cases limited : m.context.budget.timeLimit with
  | none =>
    have untimed := limit.trans limited
    rw [Machine.looked_of_no_limit limited, Machine.looked_of_no_limit untimed] at related
    rw [checkTime_of_no_limit m limited, checkTime_of_no_limit m' untimed]
    exact .ok () related
  | some millis =>
    rw [checkTime_of_limit limited, checkTime_of_limit (limit.trans limited), late]
    split_ifs
    · exact .error _ related
    · exact .ok () related

/-- Lines end alike in related machines, if looking at the time does and every line that is begun at
this level. -/
theorem runLines_alike (unseen : Unseen R) (related : R m m')
    (time : ∀ line m₁ m₁', Arrives Launches depth lines m ⟨depth, line, m₁⟩ → R m₁ m₁' →
      Alike R (checkTime m₁) (checkTime m₁'))
    (each : ∀ line m₁ m₁', ComesTo depth lines m ⟨depth, line, m₁⟩ → R m₁ m₁' →
      Alike R (runLine (run depth) line m₁) (runLine (run depth) line m₁')) :
    Alike R (runLines (run depth) lines m) (runLines (run depth) lines m') := by
  induction lines generalizing m m' with
  | nil =>
    have result : m'.context.result = m.context.result := by
      obtain ⟨h, rfl⟩ := unseen.hidden related
      rfl
    rw [runLines, context_bind, context_bind, result]
    exact .ok _ related
  | cons line rest ih =>
    have looked := time line m m' .first related
    cases inTime : checkTime m with
    | error h m₁ =>
      rw [inTime] at looked
      generalize inTime' : checkTime m' = ended at looked
      cases looked with
      | error _ related₁ =>
        rw [runLines_of_late _ inTime, runLines_of_late _ inTime']
        exact .error h related₁
    | ok u m₁ =>
      rw [inTime] at looked
      generalize inTime' : checkTime m' = ended at looked
      cases looked with
      | @ok _ m₁' _ related₁ =>
        have cancelled : m₁'.context.cancelled = m₁.context.cancelled ∧
            m₁'.context.result = m₁.context.result := by
          obtain ⟨h, rfl⟩ := unseen.hidden related₁
          exact ⟨rfl, rfl⟩
        cases going : m₁.context.cancelled with
        | true =>
          have going' := cancelled.1.trans going
          rw [runLines_of_cancelled _ inTime going, runLines_of_cancelled _ inTime' going',
            cancelled.2]
          exact .ok _ related₁
        | false =>
          have going' := cancelled.1.trans going
          have begun : m.Begins m₁ := ⟨inTime, going⟩
          have first := each line m₁ m₁' (.first inTime going) related₁
          rw [runLines_cons _ inTime going, runLines_cons _ inTime' going']
          generalize ran : runLine (run depth) line m₁ = ended at first ⊢
          generalize runLine (run depth) line m₁' = ended' at first ⊢
          cases first with
          | error h related₂ => exact .error h related₂
          | ok _ related₂ =>
            refine ih related₂ (fun l m₃ m₃' arrives => ?_) fun l m₃ m₃' comes => ?_
            · exact time l m₃ m₃' (.later begun ran arrives)
            · exact each l m₃ m₃' (.later inTime going ran comes)

/-- A run ends alike in related machines, if looking at the time does wherever the run gets to. -/
theorem runLines_unnoticed (unnoticed : Unnoticed R) (related : R m m')
    (time : ∀ (s : LineStart) m₁, Arrives Launches depth lines m s → R s.machine m₁ →
      Alike R (checkTime s.machine) (checkTime m₁)) :
    Alike R (runLines (run depth) lines m) (runLines (run depth) lines m') := by
  -- a script that is launched has less nesting left than the line that launches it
  induction depth using Nat.strongRecOn generalizing lines m m' with
  | ind depth ih =>
    refine runLines_alike unnoticed.toUnseen related (fun line m₁ m₁' arrives => ?_) ?_
    · exact time _ m₁' arrives
    · intro line m₁ m₁' comes related₁
      refine runLine_unnoticed unnoticed related₁ fun source m₂ m₂' launched related₂ => ?_
      cases depth with
      | zero => exact .error .tooDeep related₂
      | succ d =>
        refine ih d (Nat.lt_succ_self d) related₂ fun s m₃ arrives => ?_
        exact time s m₃ (comes.arrives_inside rfl launched arrives)

theorem Alike.run {source : String} (capacity : nestingCapacity = depth + 1)
    (alike : Alike R (runLines (MenuScript.run depth) (linesOf source) m)
      (runLines (MenuScript.run depth) (linesOf source) m')) :
    (m'.run source).1 = (m.run source).1 ∧ R (m.run source).2 (m'.run source).2 := by
  rw [Machine.run_eq_runLines capacity, Machine.run_eq_runLines capacity, Machine.perform,
    Machine.perform]
  generalize runLines (MenuScript.run depth) (linesOf source) m = ended at alike ⊢
  generalize runLines (MenuScript.run depth) (linesOf source) m' = ended' at alike ⊢
  cases alike with
  | ok value related => exact ⟨rfl, related⟩
  | error h related => exact ⟨rfl, related⟩

end Runs

end MenuScript
