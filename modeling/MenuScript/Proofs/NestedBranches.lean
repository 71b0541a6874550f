import MenuScript.Proofs.HostSessions
import Mathlib.Data.List.Chain

/-!
# How open branches are nested

Whether a line is skipped is read off the innermost branch alone. This is right because of how
branches are opened: one is inert exactly if the branch around it is not taken, and an inert branch
is never taken. So lines are skipped exactly if some open branch is not taken, however the `if`,
`else` and `endif` lines of the scripts that were run stand to each other.
-/

namespace MenuScript

open Script

namespace BranchStack

/-- How the open branches of a context stand to each other. -/
structure WellNested (s : BranchStack) : Prop where
  outermost : ∀ b, s.getLast? = some b → b.inert = false
  idle : ∀ b ∈ s, b.inert = true → b.taken = false
  nested : s.IsChain fun upper lower => upper.inert = true ↔ lower.taken = false

theorem isSkipping_cons (b : Branch) (s : BranchStack) :
    isSkipping (b :: s) = !b.taken := by
  cases h : b.taken <;> simp [isSkipping, peek?, h]

theorem wellNested_nil : WellNested [] := ⟨by simp, by simp, .nil⟩

/-- Told from the inside: a branch is inert exactly if it is opened among skipped lines. -/
theorem wellNested_cons {b : Branch} {s : BranchStack} :
    WellNested (b :: s) ↔
      b.inert = isSkipping s ∧ (b.inert = true → b.taken = false) ∧ WellNested s := by
  cases s with
  | nil =>
    constructor
    · intro h
      exact ⟨h.outermost b rfl, h.idle b List.mem_cons_self, wellNested_nil⟩
    · rintro ⟨running, idle, -⟩
      refine ⟨fun c hc => ?_, by simpa using idle, .singleton b⟩
      cases hc
      exact running
  | cons c rest =>
    rw [isSkipping_cons]
    constructor
    · intro h
      obtain ⟨link, inner⟩ := List.isChain_cons_cons.1 h.nested
      refine ⟨?_, h.idle b List.mem_cons_self, fun d hd => h.outermost d ?_,
        fun d hd => h.idle d (List.mem_cons_of_mem b hd), inner⟩
      · cases hb : b.inert <;> cases hc : c.taken <;> simp_all
      · rw [List.getLast?_cons_cons]
        exact hd
    · rintro ⟨link, idle, inner⟩
      refine ⟨fun d hd => inner.outermost d ?_, ?_, .cons_cons ?_ inner.nested⟩
      · rwa [List.getLast?_cons_cons] at hd
      · intro d hd
        rcases List.mem_cons.1 hd with rfl | hd
        · exact idle
        · exact inner.idle d hd
      · rw [link]
        simp

variable {s : BranchStack}

private theorem WellNested.tail (h : WellNested s) : WellNested s.tail := by
  cases s with
  | nil => exact h
  | cons b rest => exact (wellNested_cons.1 h).2.2

private theorem WellNested.push (h : WellNested s) (running : s.isSkipping = false) (taken : Bool) :
    WellNested (s.push taken) :=
  wellNested_cons.2 ⟨running.symm, fun inert => absurd inert Bool.false_ne_true, h⟩

private theorem WellNested.pushSkipped (h : WellNested s) (skipping : s.isSkipping = true) :
    WellNested s.pushSkipped :=
  wellNested_cons.2 ⟨skipping.symm, fun _ => rfl, h⟩

private theorem WellNested.flip (h : WellNested s) : WellNested s.flip := by
  cases s with
  | nil => exact h
  | cons b rest =>
    obtain ⟨link, idle, inner⟩ := wellNested_cons.1 h
    cases hb : b.inert with
    | true =>
      have same : BranchStack.flip (b :: rest) = b :: rest := by simp [BranchStack.flip, hb]
      rw [same]
      exact h
    | false =>
      have turned : BranchStack.flip (b :: rest) = { b with taken := !b.taken } :: rest := by
        simp [BranchStack.flip, hb]
      rw [turned]
      exact wellNested_cons.2 ⟨link, fun inert => absurd inert (by simp [hb]), inner⟩

/-- Lines are skipped exactly if some open branch is not taken. -/
theorem WellNested.isSkipping_iff (h : WellNested s) :
    s.isSkipping = true ↔ ∃ b ∈ s, b.taken = false := by
  induction s with
  | nil => simp [isSkipping, peek?]
  | cons b rest ih =>
    obtain ⟨link, idle, inner⟩ := wellNested_cons.1 h
    rw [isSkipping_cons]
    cases taken : b.taken with
    | false => simp [taken]
    | true =>
      have running : isSkipping rest = false := by
        rw [← link]
        cases hb : b.inert with
        | false => rfl
        | true => rw [idle hb] at taken; cases taken
      have outer := ih inner
      simp only [running, Bool.false_eq_true, false_iff] at outer
      simpa [taken] using outer

private theorem WellNested.flip_of_outer (h : WellNested s) {b : Branch} (outer : b ∈ s.tail)
    (untaken : b.taken = false) : s.flip = s := by
  cases s with
  | nil => rfl
  | cons c rest =>
    obtain ⟨link, -, inner⟩ := wellNested_cons.1 h
    have skipping : isSkipping rest = true := inner.isSkipping_iff.2 ⟨b, outer, untaken⟩
    simp [BranchStack.flip, link, skipping]

end BranchStack

/-- Whether a request is about the branches themselves. -/
def Request.turnsBranches : Request → Bool
  | .pushBranch _ | .popBranch | .flipBranch => true
  | _ => false

theorem Request.branches_effect {r : Request} (h : r.turnsBranches = false) (m : Machine) :
    (r.effect m).context.branches = m.context.branches := by
  cases r with
  | pushBranch | popBranch | flipBranch => cases h
  | _ => rfl

private theorem Change.wellNested {label : Label} {m m' : Machine}
    (hl : Label.Allowed (·.turnsBranches = false) label) (c : Change label m m')
    (h : m.context.branches.WellNested) : m'.context.branches.WellNested := by
  cases c with
  | opened _ taken running => exact h.push running taken
  | skipped _ skipping => exact h.pushSkipped skipping
  | turned => exact h.flip
  | closed => exact h.tail
  | asked _ r =>
    rw [Request.branches_effect hl]
    exact h
  | _ => exact h

/-- Every machine that the use of a fresh context reaches has well-nested branches, if no function
turns branches itself. -/
theorem Machine.Reaches.wellNested {e : Engine} {actor : Actor} {bindings : Dictionary Value}
    {m : Machine} (untouched : e.functions.AsksOnly (·.turnsBranches = false))
    (reached : (e.machine actor bindings).Reaches m) : m.context.branches.WellNested :=
  reached.keeps (I := fun m => m.context.branches.WellNested) Change.wellNested
    (fun _ h => h) untouched BranchStack.wellNested_nil

private theorem runLine_of_wellNested {m : Machine} (h : m.context.branches.WellNested)
    (nested : String → Script Value) {line : String}
    (said : isIgnorable (trimmed line) = false) :
    runLine nested line m =
      if ∀ b ∈ m.context.branches, b.taken = true then runStatement nested (trimmed line) m
      else .ok () (m.branching (BranchStack.track line)) := by
  split_ifs with taken
  · have running : m.context.branches.isSkipping = false := by
      rw [Bool.eq_false_iff, ne_eq, h.isSkipping_iff]
      rintro ⟨b, hb, untaken⟩
      rw [taken b hb] at untaken
      cases untaken
    simp only [runLine, said, Bool.false_eq_true, if_false, context_bind, running]
  · have skipping : m.context.branches.isSkipping = true := by
      rw [h.isSkipping_iff]
      simpa using taken
    exact runLine_of_skipping nested said skipping

/-- A line that neither opens nor closes a branch. -/
def opensAndClosesNothing (line : String) : Prop :=
  ∀ s, Statement.read? (trimmed line) = some s → s = .otherwise ∨ s.isFlow = false

private theorem track_of_outer {s : BranchStack} (h : s.WellNested) {b : Branch}
    (outer : b ∈ s.tail)
    (untaken : b.taken = false) {line : String} (flat : opensAndClosesNothing line) :
    BranchStack.track line s = s := by
  rw [BranchStack.track]
  cases reads : Statement.read? (trimmed line) with
  | none => rfl
  | some statement =>
    obtain rfl | straight := flat statement reads
    · exact h.flip_of_outer outer untaken
    · cases statement with
      | ifHolds | otherwise | endIf => cases straight
      | _ => rfl

private theorem forM_runLine_of_outer {m : Machine} (h : m.context.branches.WellNested)
    {b : Branch} (outer : b ∈ m.context.branches.tail) (untaken : b.taken = false)
    (nested : String → Script Value) {lines : List String}
    (flat : ∀ line ∈ lines, opensAndClosesNothing line) :
    lines.forM (runLine nested) m = .ok () m := by
  have skipping : m.context.branches.isSkipping = true :=
    h.isSkipping_iff.2 ⟨b, List.mem_of_mem_tail outer, untaken⟩
  induction lines with
  | nil => rfl
  | cons line rest ih =>
    have passed : runLine nested line m = .ok () m := by
      cases said : isIgnorable (trimmed line) with
      | true => exact runLine_of_ignorable nested said
      | false =>
        rw [runLine_of_skipping nested said skipping, Machine.branching_self m
          (track_of_outer h outer untaken (flat line List.mem_cons_self))]
    rw [List.forM, bind_of_ok m passed]
    exact ih fun l hl => flat l (List.mem_cons_of_mem line hl)

/-- At every line that the use of a context comes to, and between the uses, the open branches are
well nested. So lines are skipped exactly if some open branch is not taken, a line that says
something is run exactly if all of them are, and within a region that an outer branch skips, lines
among which nothing is opened or closed do nothing, however many of them are `else`. -/
theorem skipping_iff_some_branch_untaken (e : Engine) (actor : Actor)
    (bindings : Dictionary Value) (untouched : e.functions.AsksOnly (·.turnsBranches = false))
    (m : Machine) (reached : (e.machine actor bindings).Reaches m) :
    m.context.branches.WellNested ∧
      (m.context.branches.isSkipping = true ↔ ∃ b ∈ m.context.branches, b.taken = false) ∧
      (∀ nested line, isIgnorable (trimmed line) = false →
        runLine nested line m =
          if ∀ b ∈ m.context.branches, b.taken = true then runStatement nested (trimmed line) m
          else .ok () (m.branching (BranchStack.track line))) ∧
      ∀ nested (lines : List String), (∃ b ∈ m.context.branches.tail, b.taken = false) →
        (∀ line ∈ lines, opensAndClosesNothing line) →
        lines.forM (runLine nested) m = .ok () m := by
  have h := reached.wellNested untouched
  refine ⟨h, h.isSkipping_iff, fun nested line said => runLine_of_wellNested h nested said, ?_⟩
  rintro nested lines ⟨b, outer, untaken⟩ flat
  exact forM_runLine_of_outer h outer untaken nested flat

/-- An engine with a function that has a branch opened by a source text. -/
def peekingEngine : Engine where
  functions := (FunctionTable.builtins.register "peek"
    (.routine fun _ => .ask (.runSource "if 1 == 2") fun _ => .done (.ok .null))).2

def peekingStart : Machine :=
  peekingEngine.machine { slot := 0, name := "Ann", uuid := ⟨0⟩ } Dictionary.empty

def unbalancedUses : List Use :=
  [.run "peek: \nif 1 == 1\nelse", .runNamed "missing", .restartClock, .run "else\nendif"]

theorem skipping_iff_some_branch_untaken_unbalanced :
    peekingEngine.functions.AsksOnly (·.turnsBranches = false) ∧
      (peekingStart.afterAll unbalancedUses).context.branches.WellNested ∧
      ((peekingStart.afterAll unbalancedUses).context.branches.isSkipping = true ↔
        ∃ b ∈ (peekingStart.afterAll unbalancedUses).context.branches, b.taken = false) := by
  have untouched : peekingEngine.functions.AsksOnly (·.turnsBranches = false) :=
    FunctionTable.forall_register (FunctionTable.onlyBuiltins_builtins.asksOnly _) "peek"
      fun _ => ⟨rfl, fun _ => trivial⟩
  have result := skipping_iff_some_branch_untaken peekingEngine _ _ untouched
    (peekingStart.afterAll unbalancedUses) (.between unbalancedUses)
  exact ⟨untouched, result.1, result.2.1⟩

end MenuScript
