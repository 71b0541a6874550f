import MenuScript.Proofs.LineArrivals

/-!
# What a run records

Where only built-in functions are registered, a line records the action that it attempts and nothing
else, or events for the acting player that are no actions, unless it launches a script. What a run
records is therefore put together from what the lines record that it comes to, however deep in
includes they are and however the run ends.
-/

namespace MenuScript

open Script

/-- `Grows p m m'`: from `m` to `m'` the log has only been added to, and `p i e` holds of every
event `e` that has been added as number `i` of the log. -/
structure Grows (p : Nat → Event → Prop) (m m' : Machine) : Prop where
  keeps : m.server.log.toList <+: m'.server.log.toList
  adds : ∀ i e, m.server.log.size ≤ i → m'.server.log[i]? = some e → p i e

/-- The ways in which a line may record an event. -/
inductive Machine.Records (m : Machine) (line : String) : Event → Prop
  | acted {a : Attempt} (attempts : m.attempt? line = some a) : Records m line a.event
  | told {e : Event} (quiet : e.isAction = false) (own : e.IsFor m.context.actor.slot) :
      Records m line e

/-- Whether the line launches no script. -/
def LineStart.Stays (s : LineStart) : Prop :=
  ∀ source m', ¬ Launches (run s.capacity) s.machine s.line source m'

/-- The machine that the line leaves. -/
def LineStart.after (s : LineStart) : Machine :=
  (s.machine.perform (runLine (run s.capacity) s.line)).2

/-- `s.Records i e`: the line records the event as number `i` of the log. If that is an action, the
line records nothing else. -/
structure LineStart.Records (s : LineStart) (i : Nat) (e : Event) : Prop where
  way : s.machine.Records s.line e
  alone : e.isAction = true →
    i = s.machine.server.log.size ∧ s.after.server.log = s.machine.server.log.push e

namespace Grows

variable {p q : Nat → Event → Prop} {m m' m'' : Machine}

theorem of_log_eq (same : m'.server.log = m.server.log) : Grows p m m' where
  keeps := same ▸ List.prefix_rfl
  adds i e added found := by
    rw [same, Array.getElem?_eq_none added] at found
    cases found

theorem trans (h : Grows p m m') (h' : Grows p m' m'') : Grows p m m'' where
  keeps := h.keeps.trans h'.keeps
  adds i e added found := by
    by_cases early : i < m'.server.log.size
    · have kept : m'.server.log[i]? = m''.server.log[i]? := by
        obtain ⟨more, whole⟩ := h'.keeps
        rw [← Array.getElem?_toList, ← Array.getElem?_toList, ← whole,
          List.getElem?_append_left (by simpa using early)]
      exact h.adds i e added (kept.trans found)
    · exact h'.adds i e (Nat.le_of_not_lt early) found

theorem mono (h : Grows p m m') (wider : ∀ i e, p i e → q i e) : Grows q m m' :=
  ⟨h.keeps, fun i e added found => wider i e (h.adds i e added found)⟩

theorem of_push {e : Event} (pushed : m'.server.log = m.server.log.push e)
    (holds : p m.server.log.size e) : Grows p m m' where
  keeps := by
    rw [pushed, Array.toList_push]
    exact List.prefix_append _ _
  adds i e' added found := by
    rw [pushed, Array.getElem?_push] at found
    split_ifs at found with last
    · cases found
      rw [last]
      exact holds
    · rw [Array.getElem?_eq_none added] at found
      cases found

/-- A view of the log in which nothing shows of what is added stays as it is. -/
theorem filterMap_eq {β : Type} {view : Event → Option β} (grows : Grows p m m')
    (hidden : ∀ i e, p i e → view e = none) :
    m'.server.log.toList.filterMap view = m.server.log.toList.filterMap view := by
  obtain ⟨added, whole⟩ := grows.keeps
  rw [← whole, List.filterMap_append, List.append_right_eq_self, List.filterMap_eq_nil_iff]
  intro e mem
  obtain ⟨i, found⟩ := List.mem_iff_getElem?.1 mem
  refine hidden (m.server.log.size + i) e (grows.adds _ e (Nat.le_add_right _ _) ?_)
  rw [← Array.getElem?_toList, ← whole, List.getElem?_append_right (by simp)]
  simpa using found

end Grows

section Lines

variable {p : Nat → Event → Prop} {m m' : Machine} {nested : String → Script Value} {line : String}

private theorem Change.grows {label : Label} (c : Change label m m') (idle : label.IsIdle) :
    Grows (fun _ e => e.isAction = false ∧ e.IsFor m.context.actor.slot) m m' := by
  cases c with
  | told _ e quiet own => exact .of_push rfl ⟨quiet, own⟩
  | paused => exact .of_push rfl ⟨rfl, trivial⟩
  | acted | overdrew | readClock | entered | left | asked => exact idle.elim
  | _ => exact .of_log_eq rfl

private theorem Chain.grows (c : Chain Label.IsIdle m m') :
    Grows (fun _ e => e.isAction = false ∧ e.IsFor m.context.actor.slot) m m' := by
  induction c with
  | refl => exact .of_log_eq rfl
  | tail before last ih =>
    obtain ⟨label, idle, step⟩ := last
    have added := step.grows idle
    rw [(Chain.sameSettings before).actor] at added
    exact ih.trans added

/-- What a line that launches no script adds to the log. -/
theorem LineStart.Stays.grows {s : LineStart} (stays : s.Stays)
    (hb : s.machine.functions.OnlyBuiltins) : Grows s.Records s.machine s.after := by
  cases attempts : s.machine.attempt? s.line with
  | some a =>
    have runs := runLine_of_attempt? (run s.capacity) attempts
    split_ifs at runs
    · rw [LineStart.after, Machine.perform_of_error runs]
      exact .of_log_eq rfl
    · have pushed : s.after.server.log = s.machine.server.log.push a.event := by
        rw [LineStart.after, Machine.perform_of_ok runs]
        rfl
      exact .of_push pushed ⟨.acted attempts, fun _ => ⟨rfl, pushed⟩⟩
  | none =>
    have told : ∀ i e, e.isAction = false ∧ e.IsFor s.machine.context.actor.slot →
        s.Records i e := by
      rintro i e ⟨quiet, own⟩
      refine ⟨.told quiet own, fun action => ?_⟩
      rw [quiet] at action
      cases action
    cases names : s.machine.included? s.line with
    | none =>
      have idle := runLine_idle s.machine (run s.capacity) hb attempts names
      exact idle.chain.grows.mono told
    | some name =>
      have runs := runLine_of_included? (run s.capacity) names
      cases loaded : s.machine.server.library.load? name with
      | none =>
        rw [runIncluded_of_missing _ loaded] at runs
        rw [LineStart.after, Machine.perform_of_ok runs]
        exact .of_push rfl (told _ _ ⟨rfl, trivial⟩)
      | some source =>
        by_cases full : s.machine.isFull
        · rw [runIncluded_of_full _ loaded full] at runs
          rw [LineStart.after, Machine.perform_of_error runs]
          exact .of_log_eq rfl
        · exact absurd (.included names loaded full) (stays source s.machine.entered)

private theorem runLine_grows_of_launched {source : String} (hb : m.functions.OnlyBuiltins)
    (launched : Launches nested m line source m')
    (inner : Grows p m' (m'.perform (nested source)).2) :
    Grows p m (m.perform (runLine nested line)).2 := by
  obtain ⟨rfl, room, name, names, loaded⟩ := launched.includes hb
  rw [Machine.perform] at inner ⊢
  rw [runLine_of_included? nested names, runIncluded_of_room nested loaded room]
  cases ended : nested source m.entered with
  | ok value m' =>
    rw [ended] at inner
    exact ⟨inner.keeps, inner.adds⟩
  | error h m' =>
    rw [ended] at inner
    exact ⟨inner.keeps, inner.adds⟩

end Lines

section Runs

variable {p : Nat → Event → Prop} {m : Machine} {depth : Nat} {lines : List String}

/-- What every line that a run comes to adds to the log is what the run adds. -/
theorem runLines_grows (hb : m.functions.OnlyBuiltins)
    (each : ∀ s, ComesTo depth lines m s → s.Stays → Grows p s.machine s.after) :
    Grows p m (m.perform (runLines (run depth) lines)).2 := by
  -- on how deep scripts may be nested, and within one level on the lines
  induction depth using Nat.strongRecOn generalizing lines m with
  | ind depth deeper =>
    induction lines generalizing m with
    | nil => exact .of_log_eq rfl
    | cons line rest ih =>
      cases inTime : checkTime m with
      | error h m₁ =>
        obtain ⟨-, -, -, -, rfl⟩ := checkTime_error_iff.1 inTime
        rw [Machine.perform, runLines_of_late _ inTime]
        exact .of_log_eq rfl
      | ok u m₁ =>
        have looked : Grows p m m₁ := by
          obtain ⟨-, rfl⟩ := checkTime_ok_iff.1 inTime
          exact .of_log_eq rfl
        cases going : m₁.context.cancelled with
        | true =>
          rw [Machine.perform, runLines_of_cancelled _ inTime going]
          exact looked
        | false =>
          have hb₁ : m₁.functions.OnlyBuiltins := Machine.Begins.onlyBuiltins ⟨inTime, going⟩ hb
          have first : Grows p m₁ (LineStart.after ⟨depth, line, m₁⟩) := by
            by_cases stays : LineStart.Stays ⟨depth, line, m₁⟩
            · exact each ⟨depth, line, m₁⟩ (.first inTime going) stays
            · simp only [LineStart.Stays, not_forall, not_not] at stays
              obtain ⟨source, m₂, launched⟩ := stays
              refine runLine_grows_of_launched hb₁ launched ?_
              cases depth with
              | zero => exact .of_log_eq rfl
              | succ d =>
                have c := launched.chain (run_chain _) (hb₁.asksOnly fun _ => False)
                have hb₂ := c.onlyBuiltins hb₁
                refine deeper d (Nat.lt_succ_self d) hb₂ fun s comes => ?_
                exact each s (.inside inTime going launched comes)
          have runs : runLines (run depth) (line :: rest) m = _ := runLines_cons _ inTime going
          cases ran : runLine (run depth) line m₁ with
          | error h m₂ =>
            rw [ran] at runs
            rw [Machine.perform_of_error runs]
            rw [LineStart.after, Machine.perform_of_error ran] at first
            exact looked.trans first
          | ok u m₂ =>
            rw [ran] at runs
            rw [LineStart.after, Machine.perform_of_ok ran] at first
            have hb₂ := runLine_onlyBuiltins (run_chain depth) ran hb₁
            have later := ih hb₂ fun s comes => each s (.later inTime going ran comes)
            rw [Machine.perform] at later ⊢
            rw [runs]
            exact (looked.trans first).trans later

private theorem ComesTo.onlyBuiltins {s : LineStart} (comes : ComesTo depth lines m s)
    (hb : m.functions.OnlyBuiltins) : s.machine.functions.OnlyBuiltins :=
  (comes.chain (hb.asksOnly fun _ => False)).onlyBuiltins hb

/-- Everything that a run records is recorded by a line that it comes to. -/
theorem Machine.run_grows (hb : m.functions.OnlyBuiltins) (source : String) :
    Grows (fun i e => ∃ s, m.ComesTo source s ∧ s.Records i e) m (m.run source).2 := by
  obtain ⟨depth, capacity⟩ := nestingCapacity_eq_succ
  rw [Machine.run_eq_runLines capacity]
  refine runLines_grows hb fun s comes stays => ?_
  refine (stays.grows (comes.onlyBuiltins hb)).mono fun i e records => ?_
  exact ⟨s, ⟨depth, capacity, comes⟩, records⟩

end Runs

end MenuScript
