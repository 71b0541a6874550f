import MenuScript.Proofs.ConditionReadings
import MenuScript.Proofs.PlaceholderTokens

/-!
# Conditions that compare two variables

In a condition that compares two placeholders, the texts of the variables take the places of the
operands. If their words have no signs, the comparison that is written decides on them, unless one
of them is blank: then nothing is left on its side of the sign, and the condition is false for
either sign. So equality and inequality of two variables are opposites exactly if neither is
blank.
-/

namespace MenuScript

/-- The text of a variable, which is empty if it has no value. -/
def Context.textOf (c : Context) (name : String) : String :=
  match c.bindings.get? name with
  | some value => value.text
  | none => ""

/-- The condition that compares two placeholders. -/
def Comparison.ofNames (o : Comparison) (a b : String) : String :=
  "\x7b" ++ a ++ "\x7d " ++ o.sign ++ " \x7b" ++ b ++ "\x7d"

namespace Context

/-- A variable that can be compared: its name is no name of the player and can be written in braces,
and its text is in one line and has no signs among its words. -/
structure IsComparable (c : Context) (name : String) : Prop where
  named : Placeholder.IsName name.toList
  free : lowerCased name ∉ playerNames
  unsigned : Condition.IsUnsigned (c.textOf name).toList

variable {c : Context} {a b name : String} {o : Comparison}

theorem meaning_eq_textOf (free : lowerCased name ∉ playerNames) :
    c.meaning name = c.textOf name := by
  have means := c.means_meaning name
  generalize c.meaning name = text at means
  cases means with
  | player same => exact absurd (by simp [same, playerNames]) free
  | uuid same => exact absurd (by simp [same, playerNames]) free
  | world same => exact absurd (by simp [same, playerNames]) free
  | held _ bound => rw [textOf, bound]
  | missing _ unbound => rw [textOf, unbound]

/-- What the names mean takes the places of the operands. -/
theorem resolve_ofNames (named : Placeholder.IsName a.toList)
    (named' : Placeholder.IsName b.toList) :
    c.resolve (o.ofNames a b) =
      String.ofList (Condition.compared o (c.meaning a).toList (c.meaning b).toList) := by
  have written : (o.ofNames a b).toList = Placeholder.braced a.toList
      (' ' :: (o.sign.toList ++ [' ']) ++ Placeholder.braced b.toList []) := by
    simp [Comparison.ofNames, Placeholder.braced]
  have plain : '\x7b' ∉ ' ' :: (o.sign.toList ++ [' ']) := by cases o <;> decide
  rw [← String.toList_inj, resolve_toList, written, Placeholder.scan_braced named,
    Placeholder.scan_plain_append plain, Placeholder.scan_braced named']
  simp [Placeholder.scan, Condition.compared]

theorem holds_ofNames_iff (first : c.IsComparable a) (second : c.IsComparable b) :
    c.holds (o.ofNames a b) = true ↔
      Text.trim (c.textOf a).toList ≠ [] ∧ Text.trim (c.textOf b).toList ≠ [] ∧
        o.Decides (Text.trim (c.textOf a).toList) (Text.trim (c.textOf b).toList) true := by
  rw [holds, resolve_ofNames first.named second.named, meaning_eq_textOf first.free,
    meaning_eq_textOf second.free, Condition.holds_compared_iff o first.unsigned second.unsigned]

end Context

/-- Two variables are equal in a condition if neither is blank and the trimmed texts are the same,
and unequal if neither is blank and the trimmed texts differ. So the two conditions are opposites if
neither variable is blank, and both are false otherwise. -/
theorem variables_opposed_iff_filled (c : Context) (a b : String) (first : c.IsComparable a)
    (second : c.IsComparable b) :
    (c.holds (Comparison.equal.ofNames a b) = true ↔
      Text.trim (c.textOf a).toList ≠ [] ∧ Text.trim (c.textOf b).toList ≠ [] ∧
        Text.trim (c.textOf a).toList = Text.trim (c.textOf b).toList) ∧
    (c.holds (Comparison.unequal.ofNames a b) = true ↔
      Text.trim (c.textOf a).toList ≠ [] ∧ Text.trim (c.textOf b).toList ≠ [] ∧
        Text.trim (c.textOf a).toList ≠ Text.trim (c.textOf b).toList) ∧
    (c.holds (Comparison.unequal.ofNames a b) = !c.holds (Comparison.equal.ofNames a b) ↔
      Text.trim (c.textOf a).toList ≠ [] ∧ Text.trim (c.textOf b).toList ≠ []) := by
  have equal : c.holds (Comparison.equal.ofNames a b) = true ↔ _ :=
    Context.holds_ofNames_iff first second
  have unequal : c.holds (Comparison.unequal.ofNames a b) = true ↔ _ :=
    Context.holds_ofNames_iff first second
  rw [Comparison.decides_equal_iff] at equal
  rw [Comparison.decides_unequal_iff] at unequal
  refine ⟨equal, unequal, ?_⟩
  rw [Bool.eq_iff_iff, Bool.not_eq_true', ← Bool.not_eq_true, equal, unequal]
  constructor
  · intro opposed
    by_contra blank
    obtain ⟨filled, filled', -⟩ := opposed.2 fun same => blank ⟨same.1, same.2.1⟩
    exact blank ⟨filled, filled'⟩
  · rintro ⟨filled, filled'⟩
    rw [and_iff_right filled, and_iff_right filled', and_iff_right filled, and_iff_right filled']

/-- A context with the same word in two variables, and none in a third. -/
def wordyContext : Context where
  actor := { slot := 0, name := "Ann", uuid := ⟨0⟩, world := "nether" }
  bindings := Dictionary.ofList
    [("a", .string " red"), ("b", .string "red "), ("blank", .string " ")]
  budget := { limit := 1, started := 0, timeLimit := none }

theorem wordyContext_isComparable : ∀ name ∈ ["a", "b", "blank", "none"],
    wordyContext.IsComparable name := by
  have unsigned : ∀ name ∈ ["a", "b", "blank", "none"], ∀ o ∈ Comparison.inOrder,
      o.sign.toList ∉ Text.words (wordyContext.textOf name).toList := by decide +kernel
  have single : ∀ name ∈ ["a", "b", "blank", "none"],
      '\n' ∉ (wordyContext.textOf name).toList := by decide +kernel
  have named : ∀ name ∈ ["a", "b", "blank", "none"],
      name.toList ≠ [] ∧ '\x7d' ∉ name.toList ∧ lowerCased name ∉ Context.playerNames := by
    decide +kernel
  intro name mem
  obtain ⟨filled, closed, free⟩ := named name mem
  exact ⟨⟨filled, closed⟩, free,
    ⟨single name mem, fun o => unsigned name mem o (Condition.mem_inOrder o)⟩⟩

theorem variables_opposed_iff_filled_wordy :
    wordyContext.IsComparable "a" ∧ wordyContext.IsComparable "b" ∧
      wordyContext.holds "{a} == {b}" = true ∧ wordyContext.holds "{a} != {b}" = false := by
  have first := wordyContext_isComparable "a" (by decide)
  have second := wordyContext_isComparable "b" (by decide)
  obtain ⟨equal, -, opposed⟩ := variables_opposed_iff_filled wordyContext "a" "b" first second
  have holds : wordyContext.holds (Comparison.equal.ofNames "a" "b") = true :=
    equal.2 (by decide +kernel)
  have fails := opposed.2 (by decide +kernel)
  rw [holds] at fails
  exact ⟨first, second, holds, fails⟩

/-- A variable without a value is neither equal nor unequal to one with a word, and it is neither of
these to one that is blank, although their trimmed texts are the same. -/
theorem missing_variable_neither_equal_nor_unequal :
    (wordyContext.IsComparable "none" ∧ wordyContext.IsComparable "a" ∧
      Text.trim (wordyContext.textOf "none").toList ≠ Text.trim (wordyContext.textOf "a").toList ∧
      wordyContext.holds "{none} == {a}" = false ∧ wordyContext.holds "{none} != {a}" = false) ∧
    wordyContext.IsComparable "blank" ∧
      Text.trim (wordyContext.textOf "none").toList =
        Text.trim (wordyContext.textOf "blank").toList ∧
      wordyContext.holds "{none} == {blank}" = false ∧
      wordyContext.holds "{none} != {blank}" = false :=
  ⟨⟨wordyContext_isComparable "none" (by decide), wordyContext_isComparable "a" (by decide),
    by decide +kernel⟩, wordyContext_isComparable "blank" (by decide), by decide +kernel⟩

end MenuScript
