import MenuScript.Proofs.LineStarts

/-!
# Structured branching

A script is a flat list of lines, and which of them are run is read off a stack of branches at
every line. Blocks give the same scripts a structure: a conditional has segments, separated by
`else` lines, and its condition is evaluated once. Running the lines of a block is performing the
block, as far as the machine left behind and whatever halts the run.
-/

namespace MenuScript

open Script

/-- A physical line that is read as a given statement. -/
structure LineSaying (s : Statement) where
  text : String
  reads : Statement.read? (trimmed text) = some s

/-- A physical line that is not read as `if`, `else` or `endif`. -/
structure StraightLine where
  text : String
  straight : (Statement.read? (trimmed text)).all (!·.isFlow) = true

mutual

/-- A list of items, each of them a straight line or a conditional. -/
inductive Block where
  | nil
  | line (line : StraightLine) (rest : Block)
  | conditional (condition : String) (opening : LineSaying (.ifHolds condition))
      (segments : Segments) (rest : Block)

/-- The segments of a conditional with the `else` lines between them, up to its `endif`. -/
inductive Segments where
  | last (body : Block) (closing : LineSaying .endIf)
  | turn (body : Block) (turning : LineSaying .otherwise) (rest : Segments)

end

mutual

/-- The physical lines of a block. -/
def Block.lines : Block → List String
  | .nil => []
  | .line l rest => l.text :: rest.lines
  | .conditional _ opening segments rest => opening.text :: (segments.lines ++ rest.lines)

/-- The physical lines of the segments of a conditional. -/
def Segments.lines : Segments → List String
  | .last body closing => body.lines ++ [closing.text]
  | .turn body turning rest => body.lines ++ turning.text :: rest.lines

end

/-- Does something, unless the script has been asked to stop. -/
def unlessCancelled (x : Script Unit) : Script Unit := do
  if (← context).cancelled then return else x

/-- Keeps the value of a line. -/
def keep (value : Value) : Script Unit := modifyContext fun c => { c with result := value }

/-- Does something inside an open branch. At the end the branch is closed, and the line that ends
it has its value kept; a script that stops before leaves the branch open. -/
def inBranch (x : Script Unit) (value : Value) : Script Unit :=
  unlessCancelled do
    modifyContext fun c => { c with branches := c.branches.push true }
    x
    unlessCancelled do
      modifyContext fun c => { c with branches := c.branches.tail }
      keep value

/-- Does something inside a branch, if the branch is chosen. -/
def inChosen (chosen : Bool) (x : Script Unit) (value : Value) : Script Unit :=
  if chosen then inBranch x value else return

/-- Whether a segment is performed: those of even index are if the condition holds, those of odd
index are if it does not. -/
def isChosen (taken : Bool) (index : Nat) : Bool := (index % 2 == 0) == taken

mutual

/-- What a block means: its items are performed in order. The condition of a conditional is
evaluated once, where the conditional is reached. -/
def Block.perform (nested : String → Script Value) : Block → Script Unit
  | .nil => return
  | .line l rest => do
    unlessCancelled (runLine nested l.text)
    rest.perform nested
  | .conditional condition _ segments rest => do
    unlessCancelled do
      let taken := (← context).holds condition
      keep (.bool taken)
      segments.perform nested taken 0
    rest.perform nested

/-- What the segments from an index on mean: the chosen ones are performed, in order. -/
def Segments.perform (nested : String → Script Value) (taken : Bool) (index : Nat) :
    Segments → Script Unit
  | .last body _ => inChosen (isChosen taken index) (body.perform nested) (.bool true)
  | .turn body _ rest => do
    inChosen (isChosen taken index) (body.perform nested) .null
    rest.perform nested taken (index + 1)

end

/-- What a block means as a script: its value is that of the last line that was run. -/
def Block.meaning (nested : String → Script Value) (b : Block) : Script Value := do
  b.perform nested
  return (← context).result

mutual

/-- Whether every straight line that is performed in a block leaves the branches as they are,
unless it fails or stops the script. -/
def Block.IsSteady (nested : String → Script Value) : Block → Machine → Prop
  | .nil, _ => True
  | .line l rest, m =>
    m.context.cancelled = false → ∀ m', runLine nested l.text m = .ok () m' →
      m'.context.cancelled = false →
        m'.context.branches = m.context.branches ∧ rest.IsSteady nested m'
  | .conditional condition _ segments rest, m =>
    m.context.cancelled = false →
      segments.IsSteady nested (m.context.holds condition) 0
          (m.keeping (.bool (m.context.holds condition))) ∧
        ∀ m', segments.perform nested (m.context.holds condition) 0
          (m.keeping (.bool (m.context.holds condition))) = .ok () m' → rest.IsSteady nested m'

/-- The same for the chosen ones of the segments from an index on. -/
def Segments.IsSteady (nested : String → Script Value) (taken : Bool) (index : Nat) :
    Segments → Machine → Prop
  | .last body _, m =>
    isChosen taken index = true → body.IsSteady nested (m.branching (·.push true))
  | .turn body _ rest, m =>
    (isChosen taken index = true → body.IsSteady nested (m.branching (·.push true))) ∧
      ∀ m', inChosen (isChosen taken index) (body.perform nested) .null m = .ok () m' →
        rest.IsSteady nested taken (index + 1) m'

end

namespace Statement

private theorem read_comment (rest : List Char) :
    forms.findSome? (fun form => form ('#' :: rest)) = readCall ('#' :: rest) := by
  simp [forms, readIf, readLoop, readCommand, readOpen, readText, readAssign, readMath, readRandom,
    readDelay, variableThen?, keyword?, after?]

private theorem isFlow_readCall {text : List Char} {s : Statement} (h : readCall text = some s) :
    s.isFlow = false := by
  rw [readCall] at h
  split at h
  · cases h
  · cases h
    rfl

theorem isFlow_of_ignorable {line : String} {s : Statement} (h : isIgnorable line = true)
    (hs : read? line = some s) : s.isFlow = false := by
  simp only [isIgnorable] at h
  simp only [read?] at hs
  cases hl : line.toList with
  | nil =>
    rw [hl] at hs
    cases hs
  | cons c rest =>
    have hc : c = '#' := by simpa [hl] using h
    rw [hl, hc, read_comment] at hs
    exact isFlow_readCall hs

end Statement

theorem LineSaying.said {s : Statement} (l : LineSaying s) (flow : s.isFlow = true) :
    isIgnorable (trimmed l.text) = false := by
  cases h : isIgnorable (trimmed l.text) with
  | false => rfl
  | true =>
    rw [Statement.isFlow_of_ignorable h l.reads] at flow
    cases flow

section Lines

variable {m : Machine} (nested : String → Script Value)

theorem runLine_skipped_saying {s : Statement} (l : LineSaying s) (flow : s.isFlow = true)
    (skipping : m.context.branches.isSkipping = true) :
    runLine nested l.text m = .ok () (m.branching fun branches => s.skip branches) := by
  rw [runLine_of_skipping nested (l.said flow) skipping]
  have track : BranchStack.track l.text = fun branches => s.skip branches := by
    funext branches
    simp only [BranchStack.track, l.reads]
  rw [track]

theorem runLine_skipped_straight (l : StraightLine)
    (skipping : m.context.branches.isSkipping = true) :
    runLine nested l.text m = .ok () m := by
  cases said : isIgnorable (trimmed l.text) with
  | true => exact runLine_of_ignorable nested said
  | false =>
    rw [runLine_of_skipping nested said skipping]
    have track : BranchStack.track l.text m.context.branches = m.context.branches := by
      have straight := l.straight
      simp only [BranchStack.track]
      cases hr : Statement.read? (trimmed l.text) with
      | none => rfl
      | some s =>
        rw [hr] at straight
        cases s with
        | ifHolds condition => cases straight
        | otherwise => cases straight
        | endIf => cases straight
        | _ => rfl
    rw [Machine.branching_self m track]

theorem statement?_saying {s : Statement} (l : LineSaying s) (flow : s.isFlow = true)
    (running : m.context.branches.isSkipping = false) : m.statement? l.text = some s := by
  simp [Machine.statement?, l.said flow, running, l.reads]

private theorem runLine_opening {condition : String} (l : LineSaying (.ifHolds condition))
    (running : m.context.branches.isSkipping = false) :
    runLine nested l.text m =
      .ok () ((m.keeping (.bool (m.context.holds condition))).branching
        (·.push (m.context.holds condition))) := by
  rw [runLine_of_statement? nested (statement?_saying l rfl running)]
  rfl

private theorem runLine_turning (l : LineSaying .otherwise)
    (running : m.context.branches.isSkipping = false) :
    runLine nested l.text m = .ok () ((m.branching BranchStack.flip).keeping .null) := by
  rw [runLine_of_statement? nested (statement?_saying l rfl running)]
  rfl

private theorem runLine_closing (l : LineSaying .endIf) {branches : BranchStack}
    (opened : m.context.branches = ⟨true, false⟩ :: branches) :
    runLine nested l.text m = .ok () ((m.branching List.tail).keeping (.bool true)) := by
  have running : m.context.branches.isSkipping = false := by rw [opened]; rfl
  have pops : popBranch m = .ok true (m.branching List.tail) := by
    simp only [popBranch, context_bind, opened, BranchStack.pop?, modifyContext_bind, pure_apply,
      Machine.branching, Machine.updated, List.tail_cons]
  have performs : Statement.perform nested .endIf m = .ok (.bool true) (m.branching List.tail) := by
    rw [Statement.perform, bind_of_ok m pops]
    rfl
  rw [runLine_of_statement? nested (statement?_saying l rfl running), performs]

end Lines

section Stopping

variable {m : Machine} {nested : String → Script Value}

theorem unlessCancelled_of_cancelled {x : Script Unit} (stopped : m.context.cancelled = true) :
    unlessCancelled x m = .ok () m := by
  simp only [unlessCancelled, context_bind, stopped, if_true, pure_apply]

theorem unlessCancelled_of_going {x : Script Unit} (going : m.context.cancelled = false) :
    unlessCancelled x m = x m := by
  simp only [unlessCancelled, context_bind, going, Bool.false_eq_true, if_false]

theorem Block.perform_of_cancelled (stopped : m.context.cancelled = true) :
    ∀ b : Block, b.perform nested m = .ok () m
  | .nil => rfl
  | .line l rest => by
    rw [Block.perform, bind_of_ok m (unlessCancelled_of_cancelled stopped)]
    exact rest.perform_of_cancelled stopped
  | .conditional condition opening segments rest => by
    rw [Block.perform, bind_of_ok m (unlessCancelled_of_cancelled stopped)]
    exact rest.perform_of_cancelled stopped

theorem inChosen_of_cancelled (stopped : m.context.cancelled = true) (chosen : Bool)
    (x : Script Unit) (value : Value) : inChosen chosen x value m = .ok () m := by
  cases chosen with
  | true => exact unlessCancelled_of_cancelled stopped
  | false => rfl

theorem Segments.perform_of_cancelled (stopped : m.context.cancelled = true) (taken : Bool) :
    ∀ (segments : Segments) (index : Nat), segments.perform nested taken index m = .ok () m
  | .last body closing, index => inChosen_of_cancelled stopped _ _ _
  | .turn body turning rest, index => by
    rw [Segments.perform, bind_of_ok m (inChosen_of_cancelled stopped _ _ _)]
    exact rest.perform_of_cancelled stopped taken (index + 1)

theorem runLines_of_stopped (noLimit : m.context.budget.timeLimit = none)
    (stopped : m.context.cancelled = true) (lines : List String) :
    runLines nested lines m = .ok m.context.result m := by
  cases lines with
  | nil => rfl
  | cons line rest => exact runLines_of_cancelled nested (checkTime_of_no_limit m noLimit) stopped

theorem runLines_step (noLimit : m.context.budget.timeLimit = none)
    (going : m.context.cancelled = false) {line : String} {rest : List String} {m' : Machine}
    (ran : runLine nested line m = .ok () m') :
    runLines nested (line :: rest) m = runLines nested rest m' := by
  rw [runLines_cons nested (checkTime_of_no_limit m noLimit) going, ran]

end Stopping

section Skipping

variable {nested : String → Script Value}

mutual

/-- Among skipped lines a block changes nothing. -/
theorem Block.runLines_skipped : ∀ (b : Block) {m : Machine} (tail : List String),
    m.context.branches.isSkipping = true → m.context.cancelled = false →
    m.context.budget.timeLimit = none →
    runLines nested (b.lines ++ tail) m = runLines nested tail m
  | .nil, m, tail, _, _, _ => rfl
  | .line l rest, m, tail, skipping, going, noLimit => by
    rw [Block.lines, List.cons_append,
      runLines_step noLimit going (runLine_skipped_straight nested l skipping)]
    exact rest.runLines_skipped tail skipping going noLimit
  | .conditional condition opening segments rest, m, tail, skipping, going, noLimit => by
    rw [Block.lines, List.cons_append, List.append_assoc,
      runLines_step noLimit going (runLine_skipped_saying nested opening rfl skipping)]
    have passed := segments.runLines_skipped (m := m.branching BranchStack.pushSkipped)
      (rest.lines ++ tail) rfl going noLimit
    exact passed.trans (rest.runLines_skipped tail skipping going noLimit)

/-- The segments of a conditional that was opened among skipped lines change nothing, and close
its branch. -/
theorem Segments.runLines_skipped : ∀ (segments : Segments) {m : Machine}
    {branches : BranchStack} (tail : List String),
    m.context.branches = ⟨false, true⟩ :: branches → m.context.cancelled = false →
    m.context.budget.timeLimit = none →
    runLines nested (segments.lines ++ tail) m = runLines nested tail (m.branching List.tail)
  | .last body closing, m, branches, tail, inert, going, noLimit => by
    have skipping : m.context.branches.isSkipping = true := by rw [inert]; rfl
    rw [Segments.lines, List.append_assoc, body.runLines_skipped _ skipping going noLimit,
      List.singleton_append,
      runLines_step noLimit going (runLine_skipped_saying nested closing rfl skipping)]
    rfl
  | .turn body turning rest, m, branches, tail, inert, going, noLimit => by
    have skipping : m.context.branches.isSkipping = true := by rw [inert]; rfl
    have turned : BranchStack.flip m.context.branches = m.context.branches := by rw [inert]; rfl
    rw [Segments.lines, List.append_assoc, body.runLines_skipped _ skipping going noLimit,
      List.cons_append,
      runLines_step noLimit going (runLine_skipped_saying nested turning rfl skipping)]
    have same : (m.branching fun branches => Statement.skip branches .otherwise) = m :=
      Machine.branching_self m turned
    rw [same]
    exact rest.runLines_skipped tail inert going noLimit

end

end Skipping

/-- What performing a block that succeeds does to the machine besides its work: the time limit is
kept, a script that was stopped stays so, and unless it is stopped the branches are back. -/
structure Machine.Returns (m m' : Machine) : Prop where
  timeLimit : m'.context.budget.timeLimit = m.context.budget.timeLimit
  stopped : m.context.cancelled = true → m'.context.cancelled = true
  branches : m'.context.cancelled = false → m'.context.branches = m.context.branches

theorem Machine.Returns.refl (m : Machine) : m.Returns m := ⟨rfl, id, fun _ => rfl⟩

theorem Machine.Returns.trans {m₁ m₂ m₃ : Machine} (h : m₁.Returns m₂) (h' : m₂.Returns m₃) :
    m₁.Returns m₃ where
  timeLimit := h'.timeLimit.trans h.timeLimit
  stopped := h'.stopped ∘ h.stopped
  branches going := by
    have before : m₂.context.cancelled = false := by
      cases hc : m₂.context.cancelled with
      | false => rfl
      | true => exact absurd (h'.stopped hc) (by rw [going]; decide)
    exact (h'.branches going).trans (h.branches before)

section Performing

variable {nested : String → Script Value}

private theorem Block.isSteady_of_cancelled {m : Machine} (stopped : m.context.cancelled = true)
    (b : Block) : b.IsSteady nested m := by
  cases b with
  | nil => trivial
  | line l rest => exact fun going => absurd stopped (by rw [going]; decide)
  | conditional condition opening segments rest =>
    exact fun going => absurd stopped (by rw [going]; decide)

theorem inChosen_of_going {x : Script Unit} {value : Value} {m : Machine}
    (going : m.context.cancelled = false) :
    inChosen true x value m =
      (x >>= fun _ => unlessCancelled do
        modifyContext fun c => { c with branches := c.branches.tail }
        keep value) (m.branching (·.push true)) := by
  rw [inChosen, if_pos rfl, inBranch, unlessCancelled_of_going going, modifyContext_bind]
  rfl

theorem performs_conditional {m : Machine} (going : m.context.cancelled = false)
    (condition : String) (segments : Segments) :
    (unlessCancelled do
      let taken := (← context).holds condition
      keep (.bool taken)
      segments.perform nested taken 0) m =
    segments.perform nested (m.context.holds condition) 0
      (m.keeping (.bool (m.context.holds condition))) := by
  rw [unlessCancelled_of_going going, context_bind]
  rfl

private theorem inChosen_returns {chosen : Bool} {x : Script Unit} {value : Value} {m m' : Machine}
    (inside : chosen = true → ∀ m₁, x (m.branching (·.push true)) = .ok () m₁ →
      (m.branching (·.push true)).Returns m₁)
    (done : inChosen chosen x value m = .ok () m') : m.Returns m' := by
  cases stopped : m.context.cancelled with
  | true =>
    rw [inChosen_of_cancelled stopped] at done
    cases done
    exact .refl m
  | false =>
    cases chosen with
    | false =>
      cases done
      exact .refl m
    | true =>
      rw [inChosen_of_going stopped] at done
      obtain ⟨_, m₁, performed, closed⟩ := ok_of_bind _ done
      have returns := inside rfl m₁ performed
      cases later : m₁.context.cancelled with
      | true =>
        rw [unlessCancelled_of_cancelled later] at closed
        cases closed
        exact ⟨returns.timeLimit, fun _ => later, fun h => absurd later (by rw [h]; decide)⟩
      | false =>
        rw [unlessCancelled_of_going later] at closed
        cases closed
        refine ⟨returns.timeLimit, fun h => absurd h (by rw [stopped]; decide), fun _ => ?_⟩
        exact congrArg List.tail (returns.branches later)

theorem runLine_timeLimit (hn : Obedient (fun _ => True) nested) {line : String} {m m' : Machine}
    (ran : runLine nested line m = .ok () m') :
    m'.context.budget.timeLimit = m.context.budget.timeLimit := by
  have c := runLine_chain hn line m.functions.asksOnly_true
  exact (Chain.to_ok c ran).sameSettings.timeLimit

mutual

theorem Block.perform_returns (hn : Obedient (fun _ => True) nested) :
    ∀ (b : Block) {m m' : Machine}, b.IsSteady nested m →
    b.perform nested m = .ok () m' → m.Returns m'
  | .nil, m, m', _, done => by
    cases done
    exact .refl m
  | .line l rest, m, m', steady, done => by
    cases stopped : m.context.cancelled with
    | true =>
      rw [Block.perform_of_cancelled stopped] at done
      cases done
      exact .refl m
    | false =>
      rw [Block.perform] at done
      obtain ⟨_, m₁, ran, rested⟩ := ok_of_bind _ done
      rw [unlessCancelled_of_going stopped] at ran
      have passed := steady stopped m₁ ran
      have restSteady : rest.IsSteady nested m₁ := by
        cases later : m₁.context.cancelled with
        | true => exact rest.isSteady_of_cancelled later
        | false => exact (passed later).2
      have here : m.Returns m₁ :=
        ⟨runLine_timeLimit hn ran, fun h => absurd h (by rw [stopped]; decide),
          fun later => (passed later).1⟩
      exact here.trans (rest.perform_returns hn restSteady rested)
  | .conditional condition opening segments rest, m, m', steady, done => by
    cases stopped : m.context.cancelled with
    | true =>
      rw [Block.perform_of_cancelled stopped] at done
      cases done
      exact .refl m
    | false =>
      rw [Block.perform] at done
      obtain ⟨_, m₁, ran, rested⟩ := ok_of_bind _ done
      rw [performs_conditional stopped] at ran
      obtain ⟨inside, after⟩ := steady stopped
      have opened : m.Returns (m.keeping (.bool (m.context.holds condition))) :=
        ⟨rfl, id, fun _ => rfl⟩
      have closed := segments.perform_returns hn inside ran
      exact (opened.trans closed).trans (rest.perform_returns hn (after m₁ ran) rested)

theorem Segments.perform_returns (hn : Obedient (fun _ => True) nested) :
    ∀ (segments : Segments) {taken : Bool} {index : Nat} {m m' : Machine},
    segments.IsSteady nested taken index m →
    segments.perform nested taken index m = .ok () m' → m.Returns m'
  | .last body closing, taken, index, m, m', steady, done =>
    inChosen_returns (fun chosen _ => body.perform_returns hn (steady chosen)) done
  | .turn body turning rest, taken, index, m, m', steady, done => by
    obtain ⟨inside, after⟩ := steady
    rw [Segments.perform] at done
    obtain ⟨_, m₁, ran, rested⟩ := ok_of_bind _ done
    have here := inChosen_returns (fun chosen _ => body.perform_returns hn (inside chosen)) ran
    exact here.trans (rest.perform_returns hn (after m₁ ran) rested)

end

@[simp] theorem isChosen_zero (taken : Bool) : isChosen taken 0 = taken := by
  cases taken <;> rfl

private theorem isChosen_succ (taken : Bool) (index : Nat) :
    isChosen taken (index + 1) = !isChosen taken index := by
  rcases Nat.mod_two_eq_zero_or_one index with h | h <;>
    cases taken <;> simp [isChosen, Nat.add_mod, h]

/-- A performed segment is run like its lines if what is left to run after it is, whether the
script is stopped in the segment or gets to the line that ends it. -/
theorem runLines_chosen {x : Script Unit} {after : Script Value} {value : Value} {m : Machine}
    {lines : List String} (noLimit : m.context.budget.timeLimit = none)
    (going : m.context.cancelled = false)
    (inside : ∀ m₁, x (m.branching (·.push true)) = .ok () m₁ →
      (m.branching (·.push true)).Returns m₁)
    (stops : ∀ m₁ : Machine, m₁.context.budget.timeLimit = none → m₁.context.cancelled = true →
      after m₁ = .ok m₁.context.result m₁)
    (ends : ∀ m₁ : Machine, m₁.context.budget.timeLimit = none → m₁.context.cancelled = false →
      m₁.context.branches = ⟨true, false⟩ :: m.context.branches →
      inChosen true x value m = .ok () ((m₁.branching List.tail).keeping value) →
      runLines nested lines m₁ = after ((m₁.branching List.tail).keeping value)) :
    (x >>= fun _ => runLines nested lines) (m.branching (·.push true)) =
      (inChosen true x value >>= fun _ => after) m := by
  -- the segment fails, is stopped, or gets to the line that ends it
  cases performed : x (m.branching (·.push true)) with
  | error e m₁ =>
    have fails : inChosen true x value m = .error e m₁ := by
      rw [inChosen_of_going going, bind_of_error _ performed]
    rw [bind_of_error _ performed, bind_of_error m fails]
  | ok _ m₁ =>
    have returns := inside m₁ performed
    have noLimit₁ : m₁.context.budget.timeLimit = none := returns.timeLimit.trans noLimit
    rw [bind_of_ok _ performed]
    cases later : m₁.context.cancelled with
    | true =>
      have done : inChosen true x value m = .ok () m₁ := by
        rw [inChosen_of_going going, bind_of_ok _ performed, unlessCancelled_of_cancelled later]
      rw [runLines_of_stopped noLimit₁ later, bind_of_ok m done, stops m₁ noLimit₁ later]
    | false =>
      have done : inChosen true x value m = .ok () ((m₁.branching List.tail).keeping value) := by
        rw [inChosen_of_going going, bind_of_ok _ performed, unlessCancelled_of_going later]
        rfl
      rw [bind_of_ok m done, ends m₁ noLimit₁ later (returns.branches later) done]

/-- A segment that is not chosen is passed over, up to the line that ends it. -/
theorem runLines_unchosen {m : Machine} (noLimit : m.context.budget.timeLimit = none)
    (going : m.context.cancelled = false) (body : Block) {s : Statement} (ending : LineSaying s)
    (flow : s.isFlow = true) (lines : List String) :
    runLines nested (body.lines ++ ending.text :: lines) (m.branching (·.push false)) =
      runLines nested lines (m.branching fun branches => s.skip (branches.push false)) := by
  have skipping : (m.branching (·.push false)).context.branches.isSkipping = true := rfl
  have ended := runLine_skipped_saying nested ending flow skipping
  rw [body.runLines_skipped _ skipping going noLimit,
    runLines_step (m := m.branching (·.push false)) noLimit going ended]
  rfl

mutual

/-- Running the lines of a block, with more lines after it, is performing the block and then
running the rest. -/
theorem Block.runLines_lines (hn : Obedient (fun _ => True) nested) :
    ∀ (b : Block) {m : Machine} (tail : List String), b.IsSteady nested m →
    m.context.branches.isSkipping = false → m.context.budget.timeLimit = none →
    runLines nested (b.lines ++ tail) m = (b.perform nested >>= fun _ => runLines nested tail) m
  | .nil, m, tail, _, _, _ => rfl
  | .line l rest, m, tail, steady, running, noLimit => by
    cases stopped : m.context.cancelled with
    | true =>
      rw [runLines_of_stopped noLimit stopped, bind_of_ok m (Block.perform_of_cancelled stopped _),
        runLines_of_stopped noLimit stopped]
    | false =>
      rw [Block.lines, List.cons_append,
        runLines_cons nested (checkTime_of_no_limit m noLimit) stopped, Block.perform,
        bind_assoc_apply, bind_apply m, unlessCancelled_of_going stopped]
      cases ran : runLine nested l.text m with
      | error e m₁ => rfl
      | ok _ m₁ =>
        have noLimit₁ := (runLine_timeLimit hn ran).trans noLimit
        have passed := steady stopped m₁ ran
        cases later : m₁.context.cancelled with
        | true =>
          simp only
          rw [runLines_of_stopped noLimit₁ later, bind_of_ok m₁ (rest.perform_of_cancelled later),
            runLines_of_stopped noLimit₁ later]
        | false =>
          have running₁ : m₁.context.branches.isSkipping = false := by
            rw [(passed later).1, running]
          exact rest.runLines_lines hn tail (passed later).2 running₁ noLimit₁
  | .conditional condition opening segments rest, m, tail, steady, running, noLimit => by
    cases stopped : m.context.cancelled with
    | true =>
      rw [runLines_of_stopped noLimit stopped, bind_of_ok m (Block.perform_of_cancelled stopped _),
        runLines_of_stopped noLimit stopped]
    | false =>
      obtain ⟨inside, after⟩ := steady stopped
      have opened := segments.runLines_lines hn (rest.lines ++ tail) inside stopped noLimit
      rw [isChosen_zero] at opened
      rw [Block.lines, List.cons_append, List.append_assoc,
        runLines_step noLimit stopped (runLine_opening nested opening running), opened,
        Block.perform, bind_assoc_apply, bind_apply m, performs_conditional stopped, ← bind_apply]
      refine bind_congr_of_ok _ fun _ m₁ performed => ?_
      have returns := segments.perform_returns hn inside performed
      have noLimit₁ : m₁.context.budget.timeLimit = none := returns.timeLimit.trans noLimit
      cases later : m₁.context.cancelled with
      | true =>
        rw [runLines_of_stopped noLimit₁ later, bind_of_ok m₁ (rest.perform_of_cancelled later),
          runLines_of_stopped noLimit₁ later]
      | false =>
        have running₁ : m₁.context.branches.isSkipping = false := by
          rw [returns.branches later]
          exact running
        exact rest.runLines_lines hn tail (after m₁ performed) running₁ noLimit₁

theorem Segments.runLines_lines (hn : Obedient (fun _ => True) nested) :
    ∀ (segments : Segments) {taken : Bool} {index : Nat} {m : Machine} (tail : List String),
    segments.IsSteady nested taken index m → m.context.cancelled = false →
    m.context.budget.timeLimit = none →
    runLines nested (segments.lines ++ tail) (m.branching (·.push (isChosen taken index))) =
      (segments.perform nested taken index >>= fun _ => runLines nested tail) m
  | .last body closing, taken, index, m, tail, steady, going, noLimit => by
    rw [Segments.lines, List.append_assoc, List.singleton_append, Segments.perform]
    cases chosen : isChosen taken index with
    | true =>
      rw [body.runLines_lines hn _ (steady chosen) rfl noLimit]
      refine runLines_chosen noLimit going (fun _ => body.perform_returns hn (steady chosen))
        (fun m₁ noLimit₁ later => runLines_of_stopped noLimit₁ later tail)
        fun m₁ noLimit₁ later opened _ => ?_
      exact runLines_step noLimit₁ later (runLine_closing nested closing opened)
    | false =>
      have closed : (m.branching fun branches => Statement.endIf.skip (branches.push false)) = m :=
        Machine.branching_self m rfl
      rw [runLines_unchosen noLimit going body closing rfl tail, closed]
      rfl
  | .turn body turning rest, taken, index, m, tail, steady, going, noLimit => by
    obtain ⟨inside, after⟩ := steady
    have next := isChosen_succ taken index
    rw [Segments.lines, List.append_assoc, List.cons_append, Segments.perform, bind_assoc_apply]
    cases chosen : isChosen taken index with
    | true =>
      rw [chosen] at after next
      rw [body.runLines_lines hn _ (inside chosen) rfl noLimit]
      refine runLines_chosen noLimit going (fun _ => body.perform_returns hn (inside chosen))
        (fun m₁ noLimit₁ later => ?_) fun m₁ noLimit₁ later opened done => ?_
      · rw [bind_of_ok m₁ (rest.perform_of_cancelled later taken (index + 1)),
          runLines_of_stopped noLimit₁ later]
      · have running : m₁.context.branches.isSkipping = false := by rw [opened]; rfl
        rw [runLines_step noLimit₁ later (runLine_turning nested turning running),
          ← rest.runLines_lines hn tail (after _ done) later noLimit₁, next]
        -- the branch that `else` turned is the one that is pushed anew
        have turned : m₁.branching BranchStack.flip =
            m₁.branching fun branches => BranchStack.push branches.tail false :=
          Machine.branching_congr m₁ (by rw [opened]; rfl)
        rw [turned]
        rfl
    | false =>
      rw [chosen] at after next
      have turned :
          (m.branching fun branches => Statement.otherwise.skip (branches.push false)) =
            m.branching (·.push true) := Machine.branching_congr m rfl
      have later := rest.runLines_lines hn tail (after m rfl) going noLimit
      rw [next] at later
      rw [runLines_unchosen noLimit going body turning rfl (rest.lines ++ tail), turned]
      exact later

end

end Performing

section Steadiness

/-- Whether a statement is a call of a function by its name. -/
def Statement.isCall : Statement → Bool
  | .call _ _ => true
  | _ => false

mutual

/-- Whether no straight line of a block calls a function by its name. -/
def Block.callsNothing : Block → Bool
  | .nil => true
  | .line l rest => (Statement.read? (trimmed l.text)).all (!·.isCall) && rest.callsNothing
  | .conditional _ _ segments rest => segments.callsNothing && rest.callsNothing

/-- The same for segments. -/
def Segments.callsNothing : Segments → Bool
  | .last body _ => body.callsNothing
  | .turn body _ rest => body.callsNothing && rest.callsNothing

end

variable {nested : String → Script Value}

private theorem Change.branches_of_quiet {label : Label} {m m' : Machine} (quiet : label.IsQuiet)
    (c : Change label m m') : m'.context.branches = m.context.branches := by
  cases c with
  | told | paused | drew | assigned => rfl
  | _ => exact absurd quiet id

private theorem Statement.called?_of_not_call {s : Statement} (plain : s.isCall = false)
    (m : Machine) :
    s.called? m = none := by
  cases s with
  | call function arguments => cases plain
  | _ => rfl

theorem Statement.branches_of_perform {s : Statement} (straight : s.isFlow = false)
    {m m' : Machine} {value : Value}
    (plain : ∀ f args, s.called? m = some (f, args) →
      ∃ b, f = .builtin b ∧ f.included? args = none)
    (done : s.perform nested m = .ok value m') : m'.context.branches = m.context.branches := by
  cases attempted : s.attempt? m with
  | some a =>
    rw [Statement.perform_of_attempt? nested attempted, a.make_apply] at done
    split_ifs at done
    cases done
    rfl
  | none =>
    have c := Chain.to_ok (Statement.perform_quiet m nested straight attempted plain).chain done
    exact c.keeps (I := fun m' => m'.context.branches = m.context.branches)
      (fun quiet step same => (step.branches_of_quiet quiet).trans same) rfl

private theorem StraightLine.branches_of_runLine (l : StraightLine)
    (plain : (Statement.read? (trimmed l.text)).all (!·.isCall) = true) {m m' : Machine}
    (ran : runLine nested l.text m = .ok () m') : m'.context.branches = m.context.branches := by
  obtain hi | ⟨hi, hs⟩ | ⟨hi, hs, hr⟩ | ⟨s, hs⟩ := runLine_cases m l.text
  · rw [runLine_of_ignorable nested hi] at ran
    cases ran
    rfl
  · rw [runLine_skipped_straight nested l hs] at ran
    cases ran
    rfl
  · rw [runLine_of_unreadable nested hi hs hr] at ran
    cases ran
  · have reads := Machine.read?_of_statement? hs
    have straight : s.isFlow = false := by simpa [reads] using l.straight
    have uncalled : s.isCall = false := by simpa [reads] using plain
    rw [runLine_of_statement? nested hs] at ran
    cases performed : s.perform nested m with
    | error e m₁ =>
      rw [performed] at ran
      cases ran
    | ok value m₁ =>
      have kept : m₁.context.branches = m.context.branches := by
        refine Statement.branches_of_perform straight (fun f args called => ?_) performed
        rw [Statement.called?_of_not_call uncalled] at called
        cases called
      rw [performed] at ran
      cases ran
      exact kept

mutual

/-- A block that calls no function by its name is steady, whatever the machine. -/
theorem Block.isSteady_of_callsNothing : ∀ (b : Block) (m : Machine), b.callsNothing = true →
    b.IsSteady nested m
  | .nil => fun _ _ => trivial
  | .line l rest => by
    intro m plain
    rw [Block.callsNothing] at plain
    obtain ⟨here, later⟩ := Bool.and_eq_true_iff.1 plain
    exact fun _ m' ran _ =>
      ⟨l.branches_of_runLine here ran, rest.isSteady_of_callsNothing m' later⟩
  | .conditional condition opening segments rest => by
    intro m plain
    rw [Block.callsNothing] at plain
    obtain ⟨inside, later⟩ := Bool.and_eq_true_iff.1 plain
    exact fun _ => ⟨segments.isSteady_of_callsNothing _ inside,
      fun m' _ => rest.isSteady_of_callsNothing m' later⟩

theorem Segments.isSteady_of_callsNothing : ∀ (segments : Segments) {taken : Bool} {index : Nat}
    (m : Machine), segments.callsNothing = true → segments.IsSteady nested taken index m
  | .last body closing => fun _ plain _ => body.isSteady_of_callsNothing _ plain
  | .turn body turning rest => by
    intro m plain
    rw [Segments.callsNothing] at plain
    obtain ⟨here, later⟩ := Bool.and_eq_true_iff.1 plain
    exact ⟨fun _ => body.isSteady_of_callsNothing _ here,
      fun m' _ => rest.isSteady_of_callsNothing m' later⟩

end

end Steadiness

/-- Running a source text whose lines are those of a block is performing the block: the outcome and
the machine are the same, whether the script succeeds, fails or stops. If it succeeds and has not
been stopped, the branches are as they were before. -/
theorem run_eq_block_meaning (depth : Nat) (source : String) (b : Block) (m : Machine)
    (flattened : linesOf source = b.lines) (running : m.context.branches.isSkipping = false)
    (noLimit : m.context.budget.timeLimit = none) (steady : b.IsSteady (run depth) m) :
    run (depth + 1) source m = b.meaning (run depth) m ∧
      ∀ value m', run (depth + 1) source m = .ok value m' → m'.context.cancelled = false →
        m'.context.branches = m.context.branches := by
  have same : run (depth + 1) source m = b.meaning (run depth) m := by
    have flat := b.runLines_lines (run_chain depth) [] steady running noLimit
    rw [List.append_nil] at flat
    rw [run, flattened, flat]
    rfl
  refine ⟨same, fun value m' done going => ?_⟩
  rw [same, Block.meaning] at done
  obtain ⟨_, m₁, performed, result⟩ := ok_of_bind m done
  cases result
  exact (b.perform_returns (run_chain depth) steady performed).branches going

/-- Two conditionals, one inside the other. The outer one has three segments, and its condition is
about a variable that the first of them assigns. -/
def greetingBlock : Block :=
  .conditional "{hp} == 0" ⟨"if {hp} == 0", by decide⟩
    (.turn (.line ⟨"set hp 5", by decide⟩ .nil) ⟨"else", by decide⟩
      (.turn
        (.conditional "{hp} > 3" ⟨"  if {hp} > 3", by decide⟩
          (.last (.line ⟨"  msg: strong", by decide⟩ .nil) ⟨"  endif", by decide⟩)
          (.line ⟨"close", by decide⟩ .nil))
        ⟨"else", by decide⟩
        (.last (.line ⟨"msg: healed", by decide⟩ .nil) ⟨"endif", by decide⟩)))
    (.line ⟨"cmd: spawn", by decide⟩ .nil)

def greetingText : String :=
  "if {hp} == 0\nset hp 5\nelse\n  if {hp} > 3\n  msg: strong\n  endif\nclose\nelse\n" ++
    "msg: healed\nendif\ncmd: spawn"

def greetedMachine : Machine where
  context :=
    { actor := { slot := 0, name := "Ann", uuid := ⟨0⟩ }
      bindings := Dictionary.empty.insert "hp" (.string "0")
      budget := { limit := 3, started := 0, timeLimit := none } }

theorem run_greeting_eq_block_meaning :
    linesOf greetingText = greetingBlock.lines ∧
      greetingBlock.IsSteady (run 1) greetedMachine ∧
      run 2 greetingText greetedMachine = greetingBlock.meaning (run 1) greetedMachine ∧
      ∀ value m', run 2 greetingText greetedMachine = .ok value m' →
        m'.context.cancelled = false → m'.context.branches = [] :=
  have flattened : linesOf greetingText = greetingBlock.lines := by decide
  have steady := greetingBlock.isSteady_of_callsNothing greetedMachine (by decide)
  ⟨flattened, steady,
    run_eq_block_meaning 1 greetingText greetingBlock greetedMachine flattened rfl rfl steady⟩

end MenuScript
