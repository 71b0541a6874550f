import MenuScript.Proofs.HostSessions
import MenuScript.Proofs.StructuredBlocks

/-!
# Regions that are skipped

Among skipped lines nothing is resolved, evaluated or performed: a line changes at most the open
branches, and what it makes of them is told by the line and the branches alone. Lines whose `if`
and `endif` lines match each other, with no `else` outside of them, leave everything as it was,
because the branches that they open are inert and stand above the branch that is being skipped.
-/

namespace MenuScript

open Script

/-- Whether a physical line is read as `if`. -/
def opensBranch (line : String) : Bool :=
  match Statement.read? (trimmed line) with
  | some (.ifHolds _) => true
  | _ => false

/-- Whether a physical line is read as `else`. -/
def turnsBranch (line : String) : Bool := Statement.read? (trimmed line) == some .otherwise

/-- Whether a physical line is read as `endif`. -/
def closesBranch (line : String) : Bool := Statement.read? (trimmed line) == some .endIf

def openings (lines : List String) : Nat := lines.countP opensBranch

def closings (lines : List String) : Nat := lines.countP closesBranch

/-- Lines that close `depth` branches besides their own and no others, and turn no branch that is
open around all of these. -/
structure Balanced (depth : Nat) (lines : List String) : Prop where
  closable : ∀ before, before <+: lines → closings before ≤ depth + openings before
  closed : closings lines = depth + openings lines
  unturned : ∀ before line after, lines = before ++ line :: after → turnsBranch line = true →
    closings before < depth + openings before

section Balance

variable {depth : Nat} {line : String} {lines : List String}

theorem openings_cons :
    openings (line :: lines) = openings lines + if opensBranch line then 1 else 0 :=
  List.countP_cons

theorem closings_cons :
    closings (line :: lines) = closings lines + if closesBranch line then 1 else 0 :=
  List.countP_cons

theorem opensBranch_of_closes (h : closesBranch line = true) : opensBranch line = false := by
  have reads : Statement.read? (trimmed line) = some .endIf := by simpa [closesBranch] using h
  simp [opensBranch, reads]

theorem balanced_nil : Balanced depth [] ↔ depth = 0 := by
  constructor
  · intro h
    simpa [closings, openings, eq_comm] using h.closed
  · rintro rfl
    refine ⟨?_, rfl, by simp⟩
    intro before h
    simp [List.prefix_nil.1 h, closings]

/-- How many branches are left to close after a line. -/
def depthAfter (depth : Nat) (line : String) : Nat :=
  (depth + if opensBranch line then 1 else 0) - if closesBranch line then 1 else 0

private theorem depthAfter_add (room : closesBranch line = true → 0 < depth) :
    depthAfter depth line + (if closesBranch line then 1 else 0) =
      depth + if opensBranch line then 1 else 0 := by
  rw [depthAfter]
  split_ifs with opens closes closes
  · simp [opensBranch_of_closes closes] at opens
  · rfl
  · have := room closes
    omega
  · rfl

theorem balanced_cons :
    Balanced depth (line :: lines) ↔
      ((turnsBranch line = true ∨ closesBranch line = true) → 0 < depth) ∧
        Balanced (depthAfter depth line) lines := by
  constructor
  · intro h
    have room : (turnsBranch line = true ∨ closesBranch line = true) → 0 < depth := by
      rintro (turns | closes)
      · exact h.unturned [] line lines rfl turns
      · have first := h.closable [line] (by simp)
        simpa [closings, openings, closes, opensBranch_of_closes closes, Nat.pos_iff_ne_zero,
          Nat.one_le_iff_ne_zero] using first
    have after := depthAfter_add fun closes => room (Or.inr closes)
    refine ⟨room, ⟨?_, ?_, ?_⟩⟩
    · intro before start
      have whole := h.closable (line :: before) ((List.prefix_cons_inj line).2 start)
      rw [closings_cons, openings_cons] at whole
      omega
    · have whole := h.closed
      rw [closings_cons, openings_cons] at whole
      omega
    · intro before other later split turns
      have whole := h.unturned (line :: before) other later (by simp [split]) turns
      rw [closings_cons, openings_cons] at whole
      omega
  · rintro ⟨room, h⟩
    have after := depthAfter_add fun closes => room (Or.inr closes)
    refine ⟨?_, ?_, ?_⟩
    · intro before start
      rcases List.prefix_cons_iff.1 start with rfl | ⟨rest, rfl, start'⟩
      · simp [closings]
      · have inner := h.closable rest start'
        rw [closings_cons, openings_cons]
        omega
    · have inner := h.closed
      rw [closings_cons, openings_cons]
      omega
    · intro before other later split turns
      rcases List.cons_eq_append_iff.1 split with ⟨rfl, same⟩ | ⟨rest, rfl, split'⟩
      · cases same
        exact room (Or.inl turns)
      · have inner := h.unturned rest other later split' turns
        rw [closings_cons, openings_cons]
        omega

instance decidableBalanced : ∀ depth lines, Decidable (Balanced depth lines)
  | _, [] => decidable_of_iff _ balanced_nil.symm
  | depth, line :: lines =>
    have := decidableBalanced (depthAfter depth line) lines
    decidable_of_iff _ balanced_cons.symm

end Balance

section Inert

variable {s : BranchStack} {depth : Nat} {line : String}

/-- Branches with so many inert ones opened on top of them. -/
def BranchStack.deepened (depth : Nat) (s : BranchStack) : BranchStack :=
  List.replicate depth ⟨false, true⟩ ++ s

private theorem BranchStack.isSkipping_deepened (skipping : s.isSkipping = true) :
    (s.deepened depth).isSkipping = true := by
  cases depth with
  | zero => exact skipping
  | succ depth => rfl

/-- The branch that is skipped is not reached by lines that stay inside it. -/
theorem BranchStack.track_deepened
    (room : (turnsBranch line = true ∨ closesBranch line = true) → 0 < depth) :
    (s.deepened depth).track line = s.deepened (depthAfter depth line) := by
  cases reads : Statement.read? (trimmed line) with
  | none => simp [track, depthAfter, opensBranch, closesBranch, reads]
  | some statement =>
    cases statement with
    | ifHolds condition =>
      simp [track, depthAfter, opensBranch, closesBranch, reads, Statement.skip, pushSkipped,
        deepened, List.replicate_succ]
    | otherwise =>
      have positive : 0 < depth := room (Or.inl (by simp [turnsBranch, reads]))
      obtain ⟨below, rfl⟩ := Nat.exists_eq_succ_of_ne_zero (Nat.pos_iff_ne_zero.1 positive)
      simp [track, depthAfter, opensBranch, closesBranch, reads, Statement.skip, flip, deepened,
        List.replicate_succ]
    | endIf =>
      have positive : 0 < depth := room (Or.inr (by simp [closesBranch, reads]))
      obtain ⟨below, rfl⟩ := Nat.exists_eq_succ_of_ne_zero (Nat.pos_iff_ne_zero.1 positive)
      simp [track, depthAfter, opensBranch, closesBranch, reads, Statement.skip, deepened,
        List.replicate_succ]
    | _ => simp [track, depthAfter, opensBranch, closesBranch, reads, Statement.skip]

theorem BranchStack.track_of_straight
    (straight : (Statement.read? (trimmed line)).any Statement.isFlow = false) :
    s.track line = s := by
  rw [track]
  cases reads : Statement.read? (trimmed line) with
  | none => rfl
  | some statement =>
    rw [reads] at straight
    cases statement with
    | ifHolds | otherwise | endIf => cases straight
    | _ => rfl

end Inert

section Machines

variable {m : Machine} {nested : String → Script Value}

/-- A skipped line has its branches tracked, whatever it says. -/
theorem runLine_skipped (skipping : m.context.branches.isSkipping = true) (line : String) :
    runLine nested line m = .ok () (m.branching (BranchStack.track line)) := by
  cases said : isIgnorable (trimmed line) with
  | false => exact runLine_of_skipping nested said skipping
  | true =>
    have straight : (Statement.read? (trimmed line)).any Statement.isFlow = false := by
      cases reads : Statement.read? (trimmed line) with
      | none => rfl
      | some statement => exact Statement.isFlow_of_ignorable said reads
    rw [runLine_of_ignorable nested said, Machine.branching_self]
    exact BranchStack.track_of_straight straight

private theorem runLines_skipped (nested : String → Script Value)
    (going : m.context.cancelled = false)
    (noLimit : m.context.budget.timeLimit = none)
    (skipping : m.context.branches.isSkipping = true) {depth : Nat} {lines : List String}
    (balanced : Balanced depth lines) (tail : List String) :
    runLines nested (lines ++ tail) (m.branching (BranchStack.deepened depth)) =
      runLines nested tail m := by
  induction lines generalizing depth with
  | nil =>
    obtain rfl := balanced_nil.1 balanced
    rw [List.nil_append, Machine.branching_self m rfl]
  | cons line lines ih =>
    obtain ⟨room, rest⟩ := balanced_cons.1 balanced
    have deep : (m.branching (BranchStack.deepened depth)).context.branches.isSkipping = true :=
      BranchStack.isSkipping_deepened skipping
    have tracked : (fun s : BranchStack => BranchStack.track line (s.deepened depth)) =
        BranchStack.deepened (depthAfter depth line) := by
      funext s
      exact BranchStack.track_deepened room
    have step : runLines nested (line :: (lines ++ tail))
        (m.branching (BranchStack.deepened depth)) = _ :=
      runLines_step (m := m.branching (BranchStack.deepened depth)) noLimit going
        (runLine_skipped deep line)
    rw [List.cons_append, step, Machine.branching_branching, tracked]
    exact ih rest

end Machines

/-- A line that is skipped never fails, whatever it says. It changes nothing but the open branches,
in a way that depends on the line and on them alone, and leaves these as well unless it is read as
`if`, `else` or `endif`. Lines among which every `endif` has its `if` and no `else` stands outside
of such a pair leave the whole machine as it is, wherever they stand and as a source of their
own. -/
theorem skipped_lines_are_inert (m : Machine) (skipping : m.context.branches.isSkipping = true)
    (going : m.context.cancelled = false) (noLimit : m.context.budget.timeLimit = none) :
    (∀ nested line,
      runLine nested line m = .ok () (m.branching (BranchStack.track line)) ∧
        (∀ rest, runLines nested (line :: rest) m =
          runLines nested rest (m.branching (BranchStack.track line))) ∧
        ((Statement.read? (trimmed line)).any Statement.isFlow = false →
          m.branching (BranchStack.track line) = m)) ∧
      (∀ nested lines, Balanced 0 lines →
        runLines nested lines m = .ok m.context.result m ∧
          ∀ tail, runLines nested (lines ++ tail) m = runLines nested tail m) ∧
      ∀ source, Balanced 0 (linesOf source) → m.run source = (.ok m.context.result, m) := by
  have inert : ∀ nested lines, Balanced 0 lines →
      ∀ tail, runLines nested (lines ++ tail) m = runLines nested tail m := by
    intro nested lines balanced tail
    have passed := runLines_skipped nested going noLimit skipping balanced tail
    rwa [Machine.branching_self m rfl] at passed
  have alone : ∀ nested lines, Balanced 0 lines →
      runLines nested lines m = .ok m.context.result m := by
    intro nested lines balanced
    have passed := inert nested lines balanced []
    rwa [List.append_nil] at passed
  refine ⟨fun nested line => ⟨runLine_skipped skipping line, ?_, ?_⟩,
    fun nested lines balanced => ⟨alone nested lines balanced, inert nested lines balanced⟩, ?_⟩
  · intro rest
    exact runLines_step noLimit going (runLine_skipped skipping line)
  · intro straight
    exact Machine.branching_self m (BranchStack.track_of_straight straight)
  · intro source balanced
    have capacity : nestingCapacity = nestingCapacity - 1 + 1 := by decide
    rw [Machine.run_eq_runLines capacity, Machine.perform, alone _ _ balanced]

/-- A context whose only branch is not taken. -/
def skippingMachine : Machine where
  context :=
    { actor := { slot := 0, name := "Ann", uuid := ⟨0⟩ }
      bindings := Dictionary.empty
      budget := { limit := 1, started := 0, timeLimit := none }
      branches := [⟨false, false⟩] }

/-- Lines that would fail if they were run; the `if` without a condition opens no branch. -/
def skippedText : String :=
  "jump around\nif {missing} > 3\nnowhere: {missing}\nelse\nclose\nif\nendif\nmath x / 0"

theorem skipped_lines_are_inert_unreadable :
    skippingMachine.context.branches.isSkipping = true ∧ Balanced 0 (linesOf skippedText) ∧
      skippingMachine.run skippedText = (.ok .null, skippingMachine) := by
  have balanced : Balanced 0 (linesOf skippedText) := by decide
  exact ⟨rfl, balanced,
    (skipped_lines_are_inert skippingMachine rfl rfl rfl).2.2 skippedText balanced⟩

end MenuScript
