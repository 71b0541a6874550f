import MenuScript.Proofs.LineArrivals

/-!
# Contexts that are used again and again

A host makes a context once and then uses it any number of times: it runs source texts and library
scripts in it, whatever came of the earlier ones, and may restart its clock in between. What holds
of a fresh context and is kept by every elementary change and by a restart of the clock holds
between any two uses, and at every line within one.
-/

namespace MenuScript

open Script

/-- One use of a context. -/
inductive Use where
  | run (source : String)
  | runNamed (name : String)
  | restartClock

/-- The source text that a use runs. -/
def Use.source? (library : ScriptLibrary) : Use → Option String
  | .run source => some source
  | .runNamed name => library.load? name
  | .restartClock => none

namespace Machine

/-- The machine once the time of its context counts from now on. -/
def restarted (m : Machine) : Machine :=
  let (now, clock) := m.server.clock.read
  (m.served fun s => { s with clock }).updated fun c => { c with budget := c.budget.restarted now }

/-- What comes of one use, and the machine it leaves. -/
def use (m : Machine) : Use → Except Halt Value × Machine
  | .run source => m.run source
  | .runNamed name => m.runNamed name
  | .restartClock => (.ok .null, m.restarted)

/-- The machine after uses one after another, whatever comes of them. -/
def afterAll (m : Machine) (uses : List Use) : Machine := uses.foldl (fun m u => (m.use u).2) m

/-- `m.UseComesTo u s`: in the use `u` of `m`, the line start `s` is come to. -/
def UseComesTo (m : Machine) (u : Use) (s : LineStart) : Prop :=
  ∃ source, u.source? m.server.library = some source ∧ m.ComesTo source s

/-- `m.Reaches m'`: using `m` leads to `m'`, between two uses or at a line within one. -/
inductive Reaches (m : Machine) : Machine → Prop
  | between (uses : List Use) : Reaches m (m.afterAll uses)
  | atLine (uses : List Use) {u : Use} {s : LineStart} (comes : (m.afterAll uses).UseComesTo u s) :
      Reaches m s.machine

theorem use_of_source? {u : Use} {source : String} {m : Machine}
    (h : u.source? m.server.library = some source) : m.use u = m.run source := by
  cases u with
  | run text =>
    cases h
    rfl
  | runNamed name =>
    have loaded : m.server.library.load? name = some source := h
    have runs : MenuScript.runNamed (MenuScript.run nestingCapacity) name m =
        MenuScript.run nestingCapacity source m := by
      rw [MenuScript.runNamed, get_bind, loaded]
    rw [use, runNamed, perform, runs]
    rfl
  | restartClock => cases h

theorem use_runNamed_of_missing {name : String} {m : Machine}
    (missing : m.server.library.load? name = none) :
    m.use (.runNamed name) = (.error (.failed (.scriptNotFound name)), m) := by
  have fails : MenuScript.runNamed (MenuScript.run nestingCapacity) name m =
      .error (.failed (.scriptNotFound name)) m := by
    rw [MenuScript.runNamed, get_bind, missing]
    rfl
  rw [use, runNamed, perform, fails]

theorem use_of_no_source {u : Use} {m : Machine} (h : u.source? m.server.library = none) :
    (∃ name, m.use u = (.error (.failed (.scriptNotFound name)), m)) ∨
      m.use u = (.ok .null, m.restarted) := by
  cases u with
  | run text => cases h
  | runNamed name => exact Or.inl ⟨name, use_runNamed_of_missing h⟩
  | restartClock => exact Or.inr rfl

section Keeping

variable {p : Request → Prop} {I : Machine → Prop} {m : Machine}

theorem afterAll_append_cons (uses later : List Use) (u : Use) :
    m.afterAll (uses ++ u :: later) = ((m.afterAll uses).use u).2.afterAll later := by
  rw [afterAll, List.foldl_append]
  rfl

private theorem use_keeps
    (step : ∀ {label m m'}, Label.Allowed p label → Change label m m' → I m → I m')
    (restart : ∀ m, I m → I m.restarted) (u : Use) (hm : m.functions.AsksOnly p) (h : I m) :
    (m.use u).2.functions.AsksOnly p ∧ I (m.use u).2 := by
  cases source : u.source? m.server.library with
  | some text =>
    have c := run_chain nestingCapacity text m hm
    rw [use_of_source? source]
    exact ⟨c.asksOnly hm, c.keeps step h⟩
  | none =>
    obtain ⟨name, refused⟩ | restarts := use_of_no_source source
    · rw [refused]
      exact ⟨hm, h⟩
    · rw [restarts]
      exact ⟨hm, restart m h⟩

theorem afterAll_keeps
    (step : ∀ {label m m'}, Label.Allowed p label → Change label m m' → I m → I m')
    (restart : ∀ m, I m → I m.restarted) (uses : List Use) (hm : m.functions.AsksOnly p)
    (h : I m) : (m.afterAll uses).functions.AsksOnly p ∧ I (m.afterAll uses) := by
  induction uses generalizing m with
  | nil => exact ⟨hm, h⟩
  | cons u rest ih =>
    obtain ⟨hm', h'⟩ := use_keeps step restart u hm h
    exact ih hm' h'

theorem onlyBuiltins_afterAll (hb : m.functions.OnlyBuiltins) (uses : List Use) :
    (m.afterAll uses).functions.OnlyBuiltins :=
  (afterAll_keeps (p := fun _ => False) (I := fun m => m.functions.OnlyBuiltins)
    (fun hl c h => (Chain.single c hl).onlyBuiltins h) (fun _ h => h) uses (hb.asksOnly _) hb).2

theorem UseComesTo.chain {u : Use} {s : LineStart} (h : m.UseComesTo u s)
    (hm : m.functions.AsksOnly p) : Chain (Label.Allowed p) m s.machine := by
  obtain ⟨source, -, depth, -, comes⟩ := h
  exact comes.chain hm

/-- What elementary changes and restarts keep holds of every machine that is reached. -/
theorem Reaches.keeps {m' : Machine} (reached : m.Reaches m')
    (step : ∀ {label m m'}, Label.Allowed p label → Change label m m' → I m → I m')
    (restart : ∀ m, I m → I m.restarted) (hm : m.functions.AsksOnly p) (h : I m) : I m' := by
  cases reached with
  | between uses => exact (afterAll_keeps step restart uses hm h).2
  | atLine uses comes =>
    obtain ⟨hm', h'⟩ := afterAll_keeps step restart uses hm h
    exact (comes.chain hm').keeps step h'

end Keeping

section Failing

variable {m : Machine} {u : Use} {s : LineStart}

/-- A use fails as soon as a line that it comes to fails. -/
theorem UseComesTo.fails (h : m.UseComesTo u s) (hb : m.functions.OnlyBuiltins) {e : Halt}
    {m' : Machine}
    (fails : runLine (MenuScript.run s.capacity) s.line s.machine = .error e m') :
    ∃ k, m.use u = (.error e, left^[k] m') := by
  obtain ⟨source, hsource, depth, capacity, comes⟩ := h
  obtain ⟨k, hk⟩ := comes.fails hb fails
  refine ⟨k, ?_⟩
  rw [use_of_source? hsource, run_eq_runLines capacity, perform, hk]

/-- A use that fails has come to a line that raises the error, unless its script is missing or it
was out of time. -/
theorem UseComesTo.of_failure (hb : m.functions.OnlyBuiltins) {e : ScriptError}
    (fails : (m.use u).1 = .error (.failed e)) :
    (∃ name, e = .scriptNotFound name) ∨ (∃ limit, e = .timedOut limit) ∨
      ∃ s : LineStart, m.UseComesTo u s ∧ s.machine.Raises s.line e := by
  cases hsource : u.source? m.server.library with
  | none =>
    obtain ⟨name, refused⟩ | restarts := use_of_no_source hsource
    · rw [refused] at fails
      cases fails
      exact Or.inl ⟨name, rfl⟩
    · rw [restarts] at fails
      cases fails
  | some source =>
    obtain ⟨depth, capacity⟩ := nestingCapacity_eq_succ
    rw [use_of_source? hsource, run_eq_runLines capacity, perform] at fails
    cases ran : runLines (MenuScript.run depth) (linesOf source) m with
    | ok value m' =>
      rw [ran] at fails
      cases fails
    | error h m' =>
      rw [ran] at fails
      cases fails
      obtain late | ⟨s, comes, raises⟩ := ComesTo.of_failure hb ran
      · exact Or.inr (Or.inl late)
      · exact Or.inr (Or.inr ⟨s, ⟨source, hsource, _, capacity, comes⟩, raises⟩)

end Failing

end Machine

end MenuScript
