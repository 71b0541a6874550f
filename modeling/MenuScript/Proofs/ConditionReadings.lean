import MenuScript.Condition
import MenuScript.Proofs.TrimmedTexts
import Mathlib.Data.Nat.Find

/-!
# How conditions are read

A comparison applies to a trimmed text if its sign stands between white space, with an operand on
either side. Of the places where it does, the one with the longest left operand counts, which is the
last one. The first comparison that decides on its operands is the truth of the condition, and a
text that none decides on is a literal. Between operands without signs among their words, the
comparison that is written is the one that counts.
-/

namespace MenuScript

open Statement (StopsAt RunOf)

namespace Comparison

/-- The order that a comparison of numbers stands for. -/
def order? : Comparison → Option (Float → Float → Bool)
  | .equal | .unequal => none
  | .greater => some fun x y => x > y
  | .less => some fun x y => x < y
  | .atLeast => some fun x y => x ≥ y
  | .atMost => some fun x y => x ≤ y

/-- `o.Decides left right b`: on the operands, the comparison comes to `b`. -/
inductive Decides : Comparison → List Char → List Char → Bool → Prop
  | equal {left right : List Char} : Decides .equal left right (decide (left = right))
  | unequal {left right : List Char} : Decides .unequal left right (decide (left ≠ right))
  | ordered {o : Comparison} {order : Float → Float → Bool} {left right : List Char} {x y : Float}
      (orders : o.order? = some order) (first : Number.readFloat? (String.ofList left) = some x)
      (second : Number.readFloat? (String.ofList right) = some y) :
      Decides o left right (order x y)

section Deciding

variable {o : Comparison} {left right : List Char}

theorem decide?_of_order {order : Float → Float → Bool} (orders : o.order? = some order) :
    o.decide? left right =
      (Number.readFloat? (String.ofList left)).bind fun x =>
        (Number.readFloat? (String.ofList right)).bind fun y => some (order x y) := by
  cases o <;> cases orders <;> rfl

theorem decide?_equal : equal.decide? left right = some (decide (left = right)) := by
  rw [decide?, beq_eq_decide]

theorem decide?_unequal : unequal.decide? left right = some (decide (left ≠ right)) := by
  simp [decide?, bne, beq_eq_decide]

theorem decide?_eq_some_iff {b : Bool} :
    o.decide? left right = some b ↔ o.Decides left right b := by
  constructor
  · intro decided
    cases orders : o.order? with
    | none =>
      cases o with
      | equal =>
        rw [decide?_equal] at decided
        cases decided
        exact .equal
      | unequal =>
        rw [decide?_unequal] at decided
        cases decided
        exact .unequal
      | _ => cases orders
    | some order =>
      rw [decide?_of_order orders] at decided
      obtain ⟨x, first, decided⟩ := Option.bind_eq_some_iff.1 decided
      obtain ⟨y, second, decided⟩ := Option.bind_eq_some_iff.1 decided
      cases decided
      exact .ordered orders first second
  · intro decides
    cases decides with
    | equal => exact decide?_equal
    | unequal => exact decide?_unequal
    | ordered orders first second =>
      rw [decide?_of_order orders, first, Option.bind_some, second, Option.bind_some]

theorem decides_equal_iff : equal.Decides left right true ↔ left = right := by
  rw [← decide?_eq_some_iff, decide?_equal, Option.some.injEq, decide_eq_true_iff]

theorem decides_unequal_iff : unequal.Decides left right true ↔ left ≠ right := by
  rw [← decide?_eq_some_iff, decide?_unequal, Option.some.injEq, decide_eq_true_iff]

/-- An order decides between numbers only. -/
theorem Decides.numbers {b : Bool} (decides : o.Decides left right b) (orders : o.order?.isSome) :
    ∃ x y, Number.readFloat? (String.ofList left) = some x ∧
      Number.readFloat? (String.ofList right) = some y := by
  cases decides with
  | equal => cases orders
  | unequal => cases orders
  | ordered _ first second => exact ⟨_, _, first, second⟩

end Deciding

theorem sign_injective {o o' : Comparison} (same : o.sign = o'.sign) : o = o' := by
  cases o <;> cases o' <;> first | rfl | simp [sign] at same

/-- Signs have no white space. -/
theorem sign_solid (o : Comparison) : RunOf (!Text.isSpace ·) o.sign.toList := by
  cases o <;> exact ⟨by decide, List.all_eq_true.1 (by decide)⟩

end Comparison

namespace Condition

/-- What can stand on a side of a comparison. -/
structure IsOperand (s : List Char) : Prop where
  filled : s ≠ []
  single : '\n' ∉ s

/-- `Splits sign s left gap right`: in `s` the sign stands between white space, after `left` and
`gap` and before `right`. -/
inductive Splits (sign : List Char) : List Char → List Char → List Char → List Char → Prop
  | between {left gap gap' right : List Char} (l : IsOperand left) (g : RunOf Text.isSpace gap)
      (g' : RunOf Text.isSpace gap') (r : IsOperand right) :
      Splits sign (left ++ (gap ++ (sign ++ (gap' ++ right)))) left gap right

/-- `Operands sign s x y`: the operands of the sign in `s` are the trimmed parts on both sides of
it, where the left one is the longest. -/
inductive Operands (sign s : List Char) : List Char → List Char → Prop
  | longest {left gap right : List Char} (split : Splits sign s left gap right)
      (longest : ∀ left' gap' right', Splits sign s left' gap' right' →
        left'.length ≤ left.length) : Operands sign s (Text.trim left) (Text.trim right)

/-- `DecidesIn s o b`: in the trimmed text, the comparison applies and comes to `b`. -/
def DecidesIn (s : List Char) (o : Comparison) (b : Bool) : Prop :=
  ∃ left right, Operands o.sign.toList s left right ∧ o.Decides left right b

/-- The literals that are true. -/
def IsTrueLiteral (s : List Char) : Prop :=
  s.map Char.toLower = "true".toList ∨ s.map Char.toLower = "yes".toList ∨ s = "1".toList

instance (s : List Char) : Decidable (IsTrueLiteral s) := inferInstanceAs (Decidable (_ ∨ _ ∨ _))

/-- `Reads s b`: as a condition, the trimmed text comes to `b`. -/
inductive Reads (s : List Char) : Bool → Prop
  | decided {o : Comparison} {earlier later : List Comparison} {b : Bool}
      (order : Comparison.inOrder = earlier ++ o :: later)
      (passed : ∀ o' ∈ earlier, ∀ b', ¬ DecidesIn s o' b') (decides : DecidesIn s o b) : Reads s b
  | literal (passed : ∀ o b, ¬ DecidesIn s o b) : Reads s (decide (IsTrueLiteral s))

/-- The text that compares two others. -/
def compared (o : Comparison) (left right : List Char) : List Char :=
  left ++ ' ' :: (o.sign.toList ++ ' ' :: right)

/-- A text in one line without signs among its words. -/
structure IsUnsigned (s : List Char) : Prop where
  single : '\n' ∉ s
  unsigned : ∀ o : Comparison, o.sign.toList ∉ Text.words s

section Places

variable {sign before s pre post x y : List Char} {operands : List Char × List Char}

theorem operandsHere?_eq_some_iff :
    operandsHere? sign before s = some (x, y) ↔
      ∃ behind, s = sign ++ behind ∧ before.head?.any Text.isSpace = true ∧
        behind.head?.any Text.isSpace = true ∧ x = (before.dropWhile Text.isSpace).reverse ∧
        y = behind.dropWhile Text.isSpace ∧ IsOperand x ∧ IsOperand y := by
  have usable : ∀ x y : List Char,
      (x.isEmpty || y.isEmpty || x.contains '\n' || y.contains '\n') = false ↔
        IsOperand x ∧ IsOperand y := by
    intro x y
    simp only [Bool.or_eq_false_iff, List.isEmpty_eq_false_iff, List.contains_eq_mem,
      decide_eq_false_iff_not]
    constructor
    · rintro ⟨⟨⟨filled, filled'⟩, single⟩, single'⟩
      exact ⟨⟨filled, single⟩, ⟨filled', single'⟩⟩
    · rintro ⟨first, second⟩
      exact ⟨⟨⟨first.filled, second.filled⟩, first.single⟩, second.single⟩
  simp only [operandsHere?, bind, Option.bind_eq_some_iff, Statement.after?_eq_some_iff]
  refine exists_congr fun behind => and_congr_right fun _ => ?_
  split_ifs with spaced unusable
  · simp only [false_iff]
    rintro ⟨-, -, rfl, rfl, operands⟩
    rw [(usable _ _).2 operands] at unusable
    cases unusable
  · rw [Bool.and_eq_true] at spaced
    have operands := (usable _ _).1 (Bool.eq_false_iff.2 unusable)
    constructor
    · intro found
      cases found
      exact ⟨spaced.1, spaced.2, rfl, rfl, operands⟩
    · rintro ⟨-, -, rfl, rfl, -⟩
      rfl
  · simp only [false_iff]
    rintro ⟨first, second, -⟩
    exact spaced (by rw [first, second]; rfl)

private theorem lastOperands?_eq_none
    (nowhere : ∀ pre post, s = pre ++ post →
      operandsHere? sign (pre.reverse ++ before) post = none) :
    lastOperands? sign before s = none := by
  induction s generalizing before with
  | nil => rfl
  | cons c s ih =>
    have later : lastOperands? sign (c :: before) s = none := by
      refine ih fun pre post split => ?_
      simpa using nowhere (c :: pre) post (by rw [split, List.cons_append])
    rw [lastOperands?, later]
    exact nowhere [] (c :: s) rfl

private theorem lastOperands?_of_last (filled : post ≠ [])
    (here : operandsHere? sign (pre.reverse ++ before) post = some operands)
    (last : ∀ mid rest, mid ≠ [] → post = mid ++ rest →
      operandsHere? sign (mid.reverse ++ (pre.reverse ++ before)) rest = none) :
    lastOperands? sign before (pre ++ post) = some operands := by
  induction pre generalizing before with
  | nil =>
    obtain ⟨c, post, rfl⟩ := List.exists_cons_of_ne_nil filled
    have later : lastOperands? sign (c :: before) post = none := by
      refine lastOperands?_eq_none fun mid rest split => ?_
      simpa using last (c :: mid) rest (by simp) (by rw [split, List.cons_append])
    rw [List.nil_append, lastOperands?, later]
    exact here
  | cons c pre ih =>
    have found : lastOperands? sign (c :: before) (pre ++ post) = some operands := by
      refine ih (by simpa using here) fun mid rest filled split => ?_
      simpa using last mid rest filled split
    rw [List.cons_append, lastOperands?, found]

private theorem exists_place_of_lastOperands?
    (found : lastOperands? sign before s = some operands) :
    ∃ pre post, s = pre ++ post ∧
      operandsHere? sign (pre.reverse ++ before) post = some operands := by
  induction s generalizing before with
  | nil => cases found
  | cons c s ih =>
    rw [lastOperands?] at found
    split at found
    · rename_i later
      cases found
      obtain ⟨pre, post, rfl, here⟩ := ih later
      exact ⟨c :: pre, post, rfl, by simpa using here⟩
    · exact ⟨[], c :: s, rfl, found⟩

end Places

section Splitting

variable {sign s left gap right left' gap' right' x y pre post : List Char}

private theorem exists_gap_of_head? {t : List Char} (spaced : t.head?.any Text.isSpace = true) :
    ∃ gap, RunOf Text.isSpace gap ∧ t = gap ++ t.dropWhile Text.isSpace := by
  cases t with
  | nil => cases spaced
  | cons c rest =>
    have space : Text.isSpace c = true := by simpa using spaced
    refine ⟨(c :: rest).takeWhile Text.isSpace, ⟨?_, List.all_eq_true.1 List.all_takeWhile⟩, ?_⟩
    · simp [space]
    · exact List.takeWhile_append_dropWhile.symm

private theorem head?_of_gap {t : List Char} (run : RunOf Text.isSpace gap) :
    (gap ++ t).head?.any Text.isSpace = true := by
  obtain ⟨c, rest, rfl⟩ := List.exists_cons_of_ne_nil run.filled
  simpa using run.all c (by simp)

/-- Where the operands are found, the sign splits the text. -/
theorem splits_of_here (here : operandsHere? sign pre.reverse post = some (x, y)) :
    ∃ gap, pre = x ++ gap ∧ Splits sign (pre ++ post) x gap y := by
  obtain ⟨behind, rfl, space, space', rfl, rfl, left, right⟩ := operandsHere?_eq_some_iff.1 here
  obtain ⟨gap, run, front⟩ := exists_gap_of_head? space
  obtain ⟨gap', run', back⟩ := exists_gap_of_head? space'
  have run'' : RunOf Text.isSpace gap.reverse := ⟨by simpa using run.filled, by simpa using run.all⟩
  have split : pre = (pre.reverse.dropWhile Text.isSpace).reverse ++ gap.reverse := by
    rw [← List.reverse_append, ← front, List.reverse_reverse]
  refine ⟨gap.reverse, split, ?_⟩
  have splits : Splits sign _ _ _ _ := .between left run'' run' right
  rw [← back, ← List.append_assoc, ← split] at splits
  exact splits

theorem Splits.parts (split : Splits sign s left gap right) :
    IsOperand left ∧ RunOf Text.isSpace gap ∧ IsOperand right ∧
      ∃ after, RunOf Text.isSpace after ∧ s = left ++ gap ++ (sign ++ (after ++ right)) := by
  cases split with
  | between l g g' r => exact ⟨l, g, r, _, g', by rw [List.append_assoc]⟩

private theorem Splits.left_solid (split : Splits sign s left gap right)
    (trimmed : Text.trim s = s) :
    ∃ c ∈ left, Text.isSpace c = false := by
  have start : StopsAt Text.isSpace s := trimmed ▸ Text.stopsAt_trim s
  cases split with
  | between l g g' r =>
    obtain ⟨c, rest, rfl⟩ := List.exists_cons_of_ne_nil l.filled
    exact ⟨c, by simp, Statement.stopsAt_cons.1 start⟩

private theorem Splits.right_solid (split : Splits sign s left gap right)
    (trimmed : Text.trim s = s) :
    ∃ c ∈ right, Text.isSpace c = false := by
  have stop : StopsAt Text.isSpace s.reverse := trimmed ▸ Text.stopsAt_reverse_trim s
  cases split with
  | between l g g' r =>
    obtain ⟨c, rest, last⟩ := List.exists_cons_of_ne_nil (List.reverse_ne_nil_iff.2 r.filled)
    simp only [List.reverse_append, last, List.cons_append, Statement.stopsAt_cons] at stop
    exact ⟨c, List.mem_reverse.1 (by simp [last]), stop⟩

theorem Splits.trim_ne_nil (split : Splits sign s left gap right) (trimmed : Text.trim s = s) :
    Text.trim left ≠ [] ∧ Text.trim right ≠ [] := by
  obtain ⟨c, mem, solid⟩ := split.left_solid trimmed
  obtain ⟨d, mem', solid'⟩ := split.right_solid trimmed
  exact ⟨List.ne_nil_of_mem (Text.mem_trim mem solid),
    List.ne_nil_of_mem (Text.mem_trim mem' solid')⟩

theorem isOperand_trim (single : '\n' ∉ s) (filled : Text.trim s ≠ []) :
    IsOperand (Text.trim s) :=
  ⟨filled, fun feed => single (Text.trim_subset s feed)⟩

/-- Where the sign splits a trimmed text, its operands are found. -/
theorem Splits.here (split : Splits sign s left gap right) (trimmed : Text.trim s = s) :
    ∃ behind, s = (left ++ gap) ++ (sign ++ behind) ∧
      operandsHere? sign (left ++ gap).reverse (sign ++ behind) =
        some (Text.trim left, Text.trim right) := by
  have start : StopsAt Text.isSpace s := trimmed ▸ Text.stopsAt_trim s
  have stop : StopsAt Text.isSpace s.reverse := trimmed ▸ Text.stopsAt_reverse_trim s
  obtain ⟨filled, filled'⟩ := split.trim_ne_nil trimmed
  cases split with
  | @between _ _ gap' _ l g g' r =>
    have front : Text.trim left = ((left ++ gap).reverse.dropWhile Text.isSpace).reverse := by
      rw [← List.append_assoc] at start
      rw [← Text.trim_of_start (Statement.stopsAt_of_append start), Text.trim_append_gap g.all]
    have back : Text.trim right = (gap' ++ right).dropWhile Text.isSpace := by
      rw [← List.append_assoc, ← List.append_assoc, List.reverse_append] at stop
      rw [← Text.trim_of_stop (Statement.stopsAt_of_append stop), Text.trim_gap_append g'.all]
    have first := isOperand_trim l.single filled
    have second := isOperand_trim r.single filled'
    have backwards : RunOf Text.isSpace gap.reverse :=
      ⟨by simpa using g.filled, by simpa using g.all⟩
    refine ⟨gap' ++ right, by simp, operandsHere?_eq_some_iff.2 ?_⟩
    refine ⟨gap' ++ right, rfl, ?_, head?_of_gap g', front, back, first, second⟩
    rw [List.reverse_append]
    exact head?_of_gap backwards

/-- What stands before white space reaches past every other character. -/
theorem length_lt_of_gap {c : Char} (blank : ∀ d ∈ gap, Text.isSpace d = true)
    (solid : Text.isSpace c = false) (whole : left ++ gap = pre ++ c :: post) :
    pre.length < left.length := by
  by_contra short
  rcases List.append_eq_append_iff.1 whole with ⟨more, -, inner⟩ | ⟨more, front, inner⟩
  · have mem : c ∈ gap := by simp [inner]
    rw [blank c mem] at solid
    cases solid
  · cases more with
    | nil =>
      rw [List.nil_append] at inner
      have mem : c ∈ gap := by simp [← inner]
      rw [blank c mem] at solid
      cases solid
    | cons d more => simp [front] at short

/-- A sign that stands further behind has a longer operand before it. -/
theorem Splits.length_lt (split : Splits sign s left gap right)
    (split' : Splits sign s left' gap' right') (solid : RunOf (!Text.isSpace ·) sign)
    (further : (left ++ gap).length < (left' ++ gap').length) :
    (left ++ gap).length < left'.length := by
  obtain ⟨-, -, -, after, -, whole⟩ := split.parts
  obtain ⟨-, run, -, after', -, whole'⟩ := split'.parts
  -- the sign begins within the longer text, and it begins with no white space
  obtain ⟨c, rest, rfl⟩ := List.exists_cons_of_ne_nil solid.filled
  have dark : Text.isSpace c = false := by simpa using solid.all c (by simp)
  rcases List.append_eq_append_iff.1 (whole.symm.trans whole') with
    ⟨mid, place, inner⟩ | ⟨mid, place, -⟩
  · cases mid with
    | nil =>
      rw [place, List.append_nil] at further
      exact absurd further (lt_irrefl _)
    | cons d mid =>
      obtain rfl : c = d := (List.cons.inj inner).1
      exact length_lt_of_gap run.all dark place
  · rw [place, List.length_append] at further
    omega

theorem exists_longest (split : Splits sign s left gap right) :
    ∃ left gap right, Splits sign s left gap right ∧
      ∀ left' gap' right', Splits sign s left' gap' right' → left'.length ≤ left.length := by
  classical
  let HasLeft (n : Nat) : Prop := ∃ left gap right, Splits sign s left gap right ∧ left.length = n
  have bound : ∀ {left gap right}, Splits sign s left gap right → left.length ≤ s.length := by
    intro left gap right split
    cases split
    simp
  have greatest : HasLeft (Nat.findGreatest HasLeft s.length) :=
    Nat.findGreatest_spec (bound split) ⟨left, gap, right, split, rfl⟩
  obtain ⟨left, gap, right, split, length⟩ := greatest
  refine ⟨left, gap, right, split, fun left' gap' right' split' => ?_⟩
  rw [length]
  exact Nat.le_findGreatest (bound split') ⟨left', gap', right', split', rfl⟩

private theorem Operands.filled (operands : Operands sign s x y) (trimmed : Text.trim s = s) :
    x ≠ [] ∧ y ≠ [] := by
  cases operands with
  | longest split longest => exact split.trim_ne_nil trimmed

/-- The operands of a sign in a trimmed text are those at its last place. -/
theorem lastOperands?_eq_some_iff (solid : RunOf (!Text.isSpace ·) sign)
    (trimmed : Text.trim s = s) : lastOperands? sign [] s = some (x, y) ↔ Operands sign s x y := by
  have found : ∀ {x y}, Operands sign s x y → lastOperands? sign [] s = some (x, y) := by
    intro x y operands
    cases operands with
    | @longest left gap right split longest =>
      obtain ⟨behind, whole, here⟩ := split.here trimmed
      have filled : sign ++ behind ≠ [] := solid.ne_nil_append
      rw [whole]
      refine lastOperands?_of_last filled (by simpa using here) fun mid rest more cut => ?_
      rw [Option.eq_none_iff_forall_ne_some]
      rintro ⟨x', y'⟩ later
      rw [List.append_nil, ← List.reverse_append] at later
      obtain ⟨gap', place, split'⟩ := splits_of_here later
      have same : left ++ gap ++ mid ++ rest = s := by rw [List.append_assoc, ← cut, ← whole]
      rw [same] at split'
      have further : (left ++ gap).length < (x' ++ gap').length := by
        have added := List.length_pos_iff.2 more
        simp only [← place, List.length_append]
        omega
      have longer := split.length_lt split' solid further
      have shorter := longest _ _ _ split'
      rw [List.length_append] at longer
      omega
  refine ⟨fun last => ?_, found⟩
  obtain ⟨pre, post, rfl, here⟩ := exists_place_of_lastOperands? last
  rw [List.append_nil] at here
  obtain ⟨gap, -, split⟩ := splits_of_here here
  obtain ⟨left, gap', right, split', longest⟩ := exists_longest split
  have operands : Operands sign (pre ++ post) _ _ := .longest split' longest
  have same := (found operands).symm.trans last
  cases same
  exact operands

end Splitting

section Reading

variable {s : List Char} {o : Comparison} {b : Bool}

theorem decide?_eq_some_iff (trimmed : Text.trim s = s) :
    decide? s o = some b ↔ DecidesIn s o b := by
  rw [decide?, Option.bind_eq_bind, Option.bind_eq_some_iff, DecidesIn]
  constructor
  · rintro ⟨⟨left, right⟩, found, decided⟩
    exact ⟨left, right, (lastOperands?_eq_some_iff o.sign_solid trimmed).1 found,
      Comparison.decide?_eq_some_iff.1 decided⟩
  · rintro ⟨left, right, operands, decides⟩
    exact ⟨(left, right), (lastOperands?_eq_some_iff o.sign_solid trimmed).2 operands,
      Comparison.decide?_eq_some_iff.2 decides⟩

private theorem decide?_eq_none_iff (trimmed : Text.trim s = s) :
    decide? s o = none ↔ ∀ b, ¬ DecidesIn s o b := by
  simp only [Option.eq_none_iff_forall_ne_some, ne_eq, decide?_eq_some_iff trimmed]

private theorem isTruthyLiteral_eq (s : List Char) :
    isTruthyLiteral (String.ofList s) = decide (IsTrueLiteral s) := by
  have true : "true".toList.map Char.toLower = "true".toList := by decide
  have yes : "yes".toList.map Char.toLower = "yes".toList := by decide
  have one : String.ofList s = "1" ↔ s = "1".toList := by
    rw [← String.toList_inj, String.toList_ofList]
  rw [Bool.eq_iff_iff, isTruthyLiteral, sameText, sameText, Text.sameLetters, Text.sameLetters,
    true, yes, String.toList_ofList, decide_eq_true_iff, IsTrueLiteral, Bool.or_eq_true,
    Bool.or_eq_true, beq_iff_eq, beq_iff_eq, beq_iff_eq, one, or_assoc]

theorem mem_inOrder (o : Comparison) : o ∈ Comparison.inOrder := by
  cases o <;> decide

/-- Conditions are what they read as. -/
theorem holds_eq_iff (text : String) : holds text = b ↔ Reads (Text.trim text.toList) b := by
  have trimmed := Text.trim_trim text.toList
  constructor
  · rintro rfl
    rw [holds]
    cases found : Comparison.inOrder.findSome? (decide? (Text.trim text.toList)) with
    | some b =>
      obtain ⟨earlier, o, later, order, decided, passed⟩ := List.findSome?_eq_some_iff.1 found
      refine .decided order (fun o' mem => ?_) ((decide?_eq_some_iff trimmed).1 decided)
      exact (decide?_eq_none_iff trimmed).1 (passed o' mem)
    | none =>
      dsimp only
      rw [isTruthyLiteral_eq]
      refine .literal fun o => ?_
      exact (decide?_eq_none_iff trimmed).1 (List.findSome?_eq_none_iff.1 found o (mem_inOrder o))
  · intro reads
    cases reads with
    | @decided o earlier later _ order passed decides =>
      have found : Comparison.inOrder.findSome? (decide? (Text.trim text.toList)) = some b := by
        refine List.findSome?_eq_some_iff.2 ⟨earlier, o, later, order, ?_, fun o' mem => ?_⟩
        · exact (decide?_eq_some_iff trimmed).2 decides
        · exact (decide?_eq_none_iff trimmed).2 (passed o' mem)
      rw [holds, found]
    | literal passed =>
      have found : Comparison.inOrder.findSome? (decide? (Text.trim text.toList)) = none :=
        List.findSome?_eq_none_iff.2 fun o _ => (decide?_eq_none_iff trimmed).2 (passed o)
      rw [holds, found]
      exact isTruthyLiteral_eq _

end Reading

section Comparing

variable {s left gap right left' gap' right' : List Char} {o o' : Comparison}

theorem words_sign_append (o : Comparison) (run : RunOf Text.isSpace gap) (s : List Char) :
    Text.words (o.sign.toList ++ (gap ++ s)) = o.sign.toList :: Text.words s := by
  rw [Text.words_append_gap run, Text.words_of_solid o.sign_solid]
  rfl

private theorem words_compared (o : Comparison) (left right : List Char) :
    Text.words (compared o left right) =
      Text.words left ++ o.sign.toList :: Text.words right := by
  have blank : RunOf Text.isSpace [' '] := ⟨by simp, List.all_eq_true.1 (by decide)⟩
  rw [compared, Text.words_append_space (by decide)]
  exact congrArg _ (words_sign_append o blank right)

private theorem Splits.words_eq (split : Splits o.sign.toList s left gap right) :
    Text.words s = Text.words left ++ o.sign.toList :: Text.words right := by
  obtain ⟨-, run, -, after, run', rfl⟩ := split.parts
  rw [List.append_assoc, Text.words_append_gap run, words_sign_append o run']

/-- Two places of the sign with the same words before them are the same place. -/
theorem Splits.no_further {mid : List Char} (split : Splits o.sign.toList s left gap right)
    (split' : Splits o.sign.toList s left' gap' right') (same : Text.words left = Text.words left')
    (place : left' ++ gap' = left ++ gap ++ mid) : mid = [] := by
  obtain ⟨-, run, -, after, -, whole⟩ := split.parts
  obtain ⟨-, run', -, after', -, whole'⟩ := split'.parts
  have blank : ∀ c ∈ mid, Text.isSpace c = true := by
    have counted := Text.words_append_blank run'.all left'
    rw [place, List.append_assoc, Text.words_append_gap run, same] at counted
    exact Text.words_eq_nil_iff.1 (List.append_right_eq_self.1 counted)
  cases mid with
  | nil => rfl
  | cons c mid =>
    -- the text between the places begins with the sign
    obtain ⟨d, rest, sign⟩ := List.exists_cons_of_ne_nil o.sign_solid.filled
    rw [whole, place, List.append_assoc (left ++ gap), List.append_cancel_left_eq, sign] at whole'
    have solid := o.sign_solid.all d (by simp [sign])
    rw [(List.cons.inj whole').1, blank c (by simp)] at solid
    cases solid

private theorem Splits.trim_eq (split : Splits o.sign.toList s left gap right)
    (split' : Splits o.sign.toList s left' gap' right')
    (same : Text.words left = Text.words left') :
    Text.trim left = Text.trim left' ∧ Text.trim right = Text.trim right' := by
  obtain ⟨-, run, -, after, blank, whole⟩ := split.parts
  obtain ⟨-, run', -, after', blank', whole'⟩ := split'.parts
  have place : left ++ gap = left' ++ gap' := by
    rcases List.append_eq_append_iff.1 (whole.symm.trans whole') with
      ⟨mid, place, -⟩ | ⟨mid, place, -⟩
    · rw [split.no_further split' same place, List.append_nil] at place
      exact place.symm
    · rw [split'.no_further split same.symm place, List.append_nil] at place
      exact place
  rw [whole, place] at whole'
  have behind : after ++ right = after' ++ right' :=
    List.append_cancel_left (List.append_cancel_left whole')
  constructor
  · rw [← Text.trim_append_gap run.all, place, Text.trim_append_gap run'.all]
  · rw [← Text.trim_gap_append blank.all, behind, Text.trim_gap_append blank'.all]

/-- Between texts without signs, no sign but the one that is written applies. -/
theorem Splits.of_compared (l : IsUnsigned left) (r : IsUnsigned right)
    (split : Splits o'.sign.toList (Text.trim (compared o left right)) left' gap' right') :
    o' = o ∧ Text.words left' = Text.words left ∧ Text.words right' = Text.words right := by
  have same := split.words_eq
  rw [Text.words_trim, words_compared] at same
  rcases List.append_eq_append_iff.1 same with ⟨more, front, inner⟩ | ⟨more, front, inner⟩
  · cases more with
    | nil =>
      rw [List.nil_append, List.cons.injEq] at inner
      exact ⟨(Comparison.sign_injective (String.toList_inj.1 inner.1)).symm, by simpa using front,
        inner.2.symm⟩
    | cons w more =>
      rw [List.cons_append, List.cons.injEq] at inner
      exact absurd (by simp [inner.2]) (r.unsigned o')
  · cases more with
    | nil =>
      rw [List.nil_append, List.cons.injEq] at inner
      exact ⟨Comparison.sign_injective (String.toList_inj.1 inner.1), by simpa using front.symm,
        inner.2⟩
    | cons w more =>
      rw [List.cons_append, List.cons.injEq] at inner
      exact absurd (by simp [front, inner.1]) (l.unsigned o')

/-- Between two texts that are not blank, the sign that is written applies. -/
theorem splits_compared (o : Comparison) (first : IsOperand (Text.trim left))
    (second : IsOperand (Text.trim right)) :
    ∃ gap, Splits o.sign.toList (Text.trim (compared o left right)) (Text.trim left) gap
      (Text.trim right) := by
  obtain ⟨ahead, behind, blank, space, front⟩ := Text.exists_eq_append_trim left
  obtain ⟨ahead', behind', space', blank', back⟩ := Text.exists_eq_append_trim right
  have run : RunOf Text.isSpace (behind ++ [' ']) := by
    refine ⟨by simp, fun c mem => ?_⟩
    rcases List.mem_append.1 mem with mem | mem
    · exact space c mem
    · rw [List.mem_singleton.1 mem]
      decide
  have run' : RunOf Text.isSpace (' ' :: ahead') := by
    refine ⟨by simp, fun c mem => ?_⟩
    rcases List.mem_cons.1 mem with rfl | mem
    · decide
    · exact space' c mem
  have splits : Splits o.sign.toList _ _ _ _ := .between first run run' second
  generalize inner : Text.trim left ++ ((behind ++ [' ']) ++
    (o.sign.toList ++ ((' ' :: ahead') ++ Text.trim right))) = t at splits
  have whole : compared o left right = ahead ++ (t ++ behind') := by
    conv_lhs => rw [compared, front, back]
    simp [← inner]
  have start : StopsAt Text.isSpace t := by
    rw [← inner]
    exact Statement.stopsAt_append (Text.stopsAt_trim left) first.filled
  have stop : StopsAt Text.isSpace t.reverse := by
    rw [← inner, ← List.append_assoc, ← List.append_assoc, ← List.append_assoc, List.reverse_append]
    exact Statement.stopsAt_append (Text.stopsAt_reverse_trim right) (by simpa using second.filled)
  rw [whole, Text.trim_gap_append blank, Text.trim_append_gap blank', Text.trim_of_ends start stop]
  exact ⟨_, splits⟩

private theorem not_isTrueLiteral_compared (o : Comparison) (left right : List Char) :
    ¬ IsTrueLiteral (Text.trim (compared o left right)) := by
  obtain ⟨c, mem, solid, noTrue, noYes, noOne⟩ : ∃ c, c ∈ o.sign.toList ∧
      Text.isSpace c = false ∧ c.toLower ∉ "true".toList ∧ c.toLower ∉ "yes".toList ∧
      c ∉ "1".toList := by
    cases o with
    | greater => exact ⟨'>', by decide⟩
    | less => exact ⟨'<', by decide⟩
    | _ => exact ⟨'=', by decide⟩
  have kept : c ∈ Text.trim (compared o left right) :=
    Text.mem_trim (by simp [compared, mem]) solid
  rintro (same | same | same)
  · exact noTrue (same ▸ List.mem_map_of_mem kept)
  · exact noYes (same ▸ List.mem_map_of_mem kept)
  · exact noOne (same ▸ kept)

/-- In a comparison of texts without signs, no sign but the one that is written decides, and it
decides on the two texts, unless one of them is blank. -/
theorem decidesIn_compared_iff {b : Bool} (l : IsUnsigned left) (r : IsUnsigned right) :
    DecidesIn (Text.trim (compared o left right)) o' b ↔
      o' = o ∧ Text.trim left ≠ [] ∧ Text.trim right ≠ [] ∧
        o.Decides (Text.trim left) (Text.trim right) b := by
  have written : Text.trim left ≠ [] → Text.trim right ≠ [] → ∃ gap,
      Splits o.sign.toList (Text.trim (compared o left right)) (Text.trim left) gap
        (Text.trim right) :=
    fun filled filled' =>
      splits_compared o (isOperand_trim l.single filled) (isOperand_trim r.single filled')
  have same : ∀ {left' gap' right'},
      Splits o.sign.toList (Text.trim (compared o left right)) left' gap' right' →
      Text.trim left ≠ [] → Text.trim right ≠ [] →
      Text.trim left' = Text.trim left ∧ Text.trim right' = Text.trim right := by
    intro left' gap' right' split filled filled'
    obtain ⟨gap, split'⟩ := written filled filled'
    have words := (split.of_compared l r).2.1
    rw [← Text.words_trim left] at words
    simpa only [Text.trim_trim] using split.trim_eq split' words
  constructor
  · rintro ⟨x, y, operands, decides⟩
    cases operands with
    | longest split longest =>
      obtain ⟨rfl, words, words'⟩ := split.of_compared l r
      obtain ⟨filled, filled'⟩ := split.trim_ne_nil (Text.trim_trim _)
      rw [ne_eq, Text.trim_eq_nil_iff_words, words, ← Text.trim_eq_nil_iff_words] at filled
      rw [ne_eq, Text.trim_eq_nil_iff_words, words', ← Text.trim_eq_nil_iff_words] at filled'
      obtain ⟨first, second⟩ := same split filled filled'
      rw [first, second] at decides
      exact ⟨rfl, filled, filled', decides⟩
  · rintro ⟨rfl, filled, filled', decides⟩
    obtain ⟨gap, split⟩ := written filled filled'
    obtain ⟨left', gap', right', split', longest⟩ := exists_longest split
    obtain ⟨first, second⟩ := same split' filled filled'
    rw [← first, ← second] at decides
    exact ⟨_, _, .longest split' longest, decides⟩

/-- A comparison of texts without signs is true if neither is blank and the comparison that is
written decides so. -/
theorem holds_compared_iff (o : Comparison) (l : IsUnsigned left) (r : IsUnsigned right) :
    holds (String.ofList (compared o left right)) = true ↔
      Text.trim left ≠ [] ∧ Text.trim right ≠ [] ∧
        o.Decides (Text.trim left) (Text.trim right) true := by
  rw [holds_eq_iff, String.toList_ofList]
  constructor
  · intro reads
    generalize holdsTrue : true = b at reads
    cases reads with
    | decided order passed decides =>
      exact ((decidesIn_compared_iff l r).1 decides).2
    | literal passed =>
      exact absurd (of_decide_eq_true holdsTrue.symm) (not_isTrueLiteral_compared o left right)
  · intro decides
    obtain ⟨earlier, later, order, fresh⟩ := List.eq_append_cons_of_mem (mem_inOrder o)
    refine .decided order (fun o' mem b other => ?_) ((decidesIn_compared_iff l r).2 ⟨rfl, decides⟩)
    exact fresh (((decidesIn_compared_iff l r).1 other).1 ▸ mem)

end Comparing

end Condition

/-- Conditions are decided as they read. The comparisons are tried in their order. One applies to
the trimmed text if its sign splits the text, and its operands are then determined and not empty;
the longest left operand belongs to the last place of the sign. Between operands that are not blank
and have no signs, the comparison that is written decides alone, and an order between operands that
are not both numbers is false. -/
theorem condition_holds_iff_reads (text : String) :
    Comparison.inOrder.map Comparison.sign = ["==", "!=", ">", "<", ">=", "<="] ∧
    (∀ b, Condition.holds text = b ↔ Condition.Reads (Text.trim text.toList) b) ∧
    (∀ (o : Comparison) (left gap right : List Char),
      Condition.Splits o.sign.toList (Text.trim text.toList) left gap right →
      (∃ x y, x ≠ [] ∧ y ≠ [] ∧ ∀ x' y',
        Condition.Operands o.sign.toList (Text.trim text.toList) x' y' ↔ x' = x ∧ y' = y) ∧
      ∀ left' gap' right',
        Condition.Splits o.sign.toList (Text.trim text.toList) left' gap' right' →
        left'.length ≤ left.length → (left' ++ gap').length ≤ (left ++ gap).length) ∧
    ∀ (o : Comparison) (left right : List Char),
      Condition.IsUnsigned left → Condition.IsUnsigned right →
      Text.trim left ≠ [] → Text.trim right ≠ [] →
      (Condition.holds (String.ofList (Condition.compared o left right)) = true ↔
        o.Decides (Text.trim left) (Text.trim right) true) ∧
      (o.order?.isSome →
        Number.readFloat? (String.ofList (Text.trim left)) = none ∨
          Number.readFloat? (String.ofList (Text.trim right)) = none →
        Condition.holds (String.ofList (Condition.compared o left right)) = false) := by
  have trimmed := Text.trim_trim text.toList
  refine ⟨rfl, fun b => Condition.holds_eq_iff text, ?_, ?_⟩
  · intro o left gap right split
    constructor
    · obtain ⟨_, _, _, split', longest⟩ := Condition.exists_longest split
      have operands := Condition.Operands.longest split' longest
      obtain ⟨filled, filled'⟩ := operands.filled trimmed
      refine ⟨_, _, filled, filled', fun x' y' => ?_⟩
      have found := (Condition.lastOperands?_eq_some_iff o.sign_solid trimmed).2 operands
      rw [← Condition.lastOperands?_eq_some_iff o.sign_solid trimmed, found, Option.some.injEq,
        Prod.mk.injEq, eq_comm, @eq_comm _ y']
    · intro left' gap' right' split' shorter
      by_contra further
      have longer := split.length_lt split' o.sign_solid (not_le.1 further)
      rw [List.length_append] at longer
      omega
  · intro o left right l r filled filled'
    have compared := Condition.holds_compared_iff o l r
    rw [and_iff_right filled, and_iff_right filled'] at compared
    refine ⟨compared, fun orders unread => ?_⟩
    rw [← Bool.not_eq_true, compared]
    intro decides
    obtain ⟨x, y, first, second⟩ := decides.numbers orders
    rcases unread with unread | unread
    · cases unread.symm.trans first
    · cases unread.symm.trans second

/-- A text with two places of one sign, and an order of a number and a word. -/
theorem condition_holds_iff_reads_repeated :
    Condition.Reads "a == b == b".toList false ∧
      (∃ x y, x ≠ [] ∧ y ≠ [] ∧ Condition.Operands "==".toList "a == b == b".toList x y) ∧
      Condition.IsUnsigned "7".toList ∧ Condition.IsUnsigned "x 3".toList ∧
      Condition.holds "7 >= x 3" = false := by
  have reads := condition_holds_iff_reads " a == b == b "
  have trimmed : Text.trim " a == b == b ".toList = "a == b == b".toList := by decide +kernel
  have gap : RunOf Text.isSpace " ".toList := ⟨by decide, List.all_eq_true.1 (by decide)⟩
  have left : Condition.IsOperand "a".toList := ⟨by decide, by decide⟩
  have right : Condition.IsOperand "b == b".toList := ⟨by decide, by decide⟩
  have split : Condition.Splits "==".toList "a == b == b".toList _ _ _ :=
    .between left gap gap right
  have seven : Condition.IsUnsigned "7".toList :=
    ⟨by decide, fun o => by cases o <;> decide +kernel⟩
  have word : Condition.IsUnsigned "x 3".toList :=
    ⟨by decide, fun o => by cases o <;> decide +kernel⟩
  rw [trimmed] at reads
  obtain ⟨-, holds, splits, orders⟩ := reads
  refine ⟨(holds false).1 (by decide +kernel), ?_, seven, word, ?_⟩
  · obtain ⟨⟨x, y, filled, filled', operands⟩, -⟩ := splits .equal _ _ _ split
    exact ⟨x, y, filled, filled', (operands x y).2 ⟨rfl, rfl⟩⟩
  · exact (orders .atLeast _ _ seven word (by decide +kernel) (by decide +kernel)).2 rfl
      (.inr (by decide +kernel))

end MenuScript
