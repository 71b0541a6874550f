import MenuScript.Proofs.ComparedPlaceholders
import MenuScript.Proofs.GenericForms
import MenuScript.Proofs.VariableChanges
import MenuScript.Proofs.WrittenDoubles

/-!
# Numbers that are stored in variables

Lines with `math` and `random` store doubles and integers, and lines that come later see them as
texts. Such a text is a single word that reads back as the number that was stored, so nothing is
lost on the way, whether the variable is an operand of a calculation or of a condition.
-/

namespace MenuScript

open Script
open Statement (RunOf)

/-- Integers and doubles. -/
inductive Value.IsNumeric : Value → Prop
  | integer (n : Int64) : IsNumeric (.integer n)
  | number (x : Float) : IsNumeric (.number x)

section Words

variable {s : List Char} {v w : Value}

private theorem isSpace_of_isDigit {c : Char} (digit : c.isDigit = true) : Text.isSpace c = false :=
  space_of_isNameChar c (by simp [Statement.isNameChar, Char.isAlphanum, digit])

theorem runOf_signed (negative : Bool) (solid : RunOf (!Text.isSpace ·) s) :
    RunOf (!Text.isSpace ·) (Number.signed negative s) := by
  cases negative with
  | false => exact solid
  | true =>
    refine ⟨by simp [Number.signed], fun c mem => ?_⟩
    rcases List.mem_cons.1 mem with rfl | mem
    · rfl
    · exact solid.all c mem

theorem runOf_digits (digits : RunOf Char.isDigit s) : RunOf (!Text.isSpace ·) s :=
  ⟨digits.filled, fun c mem => by simp [isSpace_of_isDigit (digits.all c mem)]⟩

theorem isSolid_toString (z : Int) : IsSolid (toString z) := by
  rw [IsSolid, Number.toList_toString_int]
  exact runOf_signed _ (runOf_digits (Number.runOf_toDigits _))

private theorem Number.Numeral.runOf_written (n : Number.Numeral) :
    RunOf (!Text.isSpace ·) n.written := by
  refine runOf_signed _ ⟨by simp, fun c mem => ?_⟩
  simp only [List.mem_append, List.mem_cons] at mem
  rcases mem with mem | rfl | mem | mem
  · exact (runOf_digits n.wholeDigits).all c mem
  · rfl
  · exact (runOf_digits n.fractionDigits).all c mem
  · cases exponent : n.exponent with
    | none =>
      rw [exponent] at mem
      cases mem
    | some e =>
      rw [exponent] at mem
      rcases List.mem_cons.1 mem with rfl | mem
      · rfl
      · exact (isSolid_toString e).all c mem

private theorem isSolid_number (x : Float) : IsSolid (Number.text x) := by
  by_cases finite : x.isFinite = true
  · obtain ⟨n, written, -⟩ := Number.exists_numeral finite
    rw [IsSolid, written]
    exact n.runOf_written
  · have words : ∀ word ∈ ["NaN", "Infinity", "-Infinity"], IsSolid word := by decide
    exact words _ (Number.text_mem_words (Bool.eq_false_of_not_eq_true finite))

theorem Value.IsNumeric.isSolid (numeric : v.IsNumeric) : IsSolid v.text := by
  cases numeric with
  | integer n => exact isSolid_toString _
  | number x => exact isSolid_number x

theorem Value.IsNumeric.readFloat?_text (numeric : v.IsNumeric) :
    Number.readFloat? v.text = v.number? := by
  cases numeric with
  | integer n => exact Number.readFloat?_toString _
  | number x => exact Number.readFloat?_text x

theorem Value.IsNumeric.exists_number (numeric : v.IsNumeric) : ∃ x, v.number? = some x := by
  cases numeric with
  | integer n => exact ⟨_, rfl⟩
  | number x => exact ⟨x, rfl⟩

theorem trim_of_solid (solid : RunOf (!Text.isSpace ·) s) : Text.trim s = s := by
  have stops : ∀ c ∈ s, Text.isSpace c = false := fun c mem => by simpa using solid.all c mem
  refine Text.trim_of_ends (fun c first => stops c (List.mem_of_mem_head? first)) fun c last => ?_
  exact stops c (List.mem_reverse.1 (List.mem_of_mem_head? last))

theorem trimmed_of_solid {text : String} (solid : IsSolid text) : trimmed text = text := by
  rw [trimmed, trim_of_solid solid, String.ofList_toList]

/-- The word of a number is no sign. -/
theorem isUnsigned_of_reads {text : String} {x : Float} (solid : IsSolid text)
    (reads : Number.readFloat? text = some x) : Condition.IsUnsigned text.toList := by
  refine ⟨fun mem => ?_, fun o mem => ?_⟩
  · have := solid.all _ mem
    simp [Text.isSpace] at this
  · have unread : ∀ o : Comparison, Number.readFloat? o.sign = none := by
      intro o
      cases o <;> decide
    rw [Text.words_of_solid solid, List.mem_singleton, String.toList_inj] at mem
    rw [← mem, unread] at reads
    cases reads

end Words

section SameTexts

variable {v w : Value}

private theorem toString_int_injective {z z' : Int} (same : toString z = toString z') : z = z' := by
  have digits := Number.runOf_toDigits z.natAbs
  have digits' := Number.runOf_toDigits z'.natAbs
  have value := Number.digitsValue_toDigits z.natAbs
  have value' := Number.digitsValue_toDigits z'.natAbs
  have lists := congrArg String.toList same
  rw [Number.toList_toString_int, Number.toList_toString_int, Number.signed, Number.signed] at lists
  split_ifs at lists with sign sign' sign'
  · rw [(List.cons.inj lists).2, value'] at value
    have := of_decide_eq_true sign
    have := of_decide_eq_true sign'
    omega
  · cases digits'.all '-' (lists ▸ List.mem_cons_self)
  · cases digits.all '-' (lists ▸ List.mem_cons_self)
  · rw [lists, value'] at value
    have := of_decide_eq_false (Bool.eq_false_of_not_eq_true sign)
    have := of_decide_eq_false (Bool.eq_false_of_not_eq_true sign')
    omega

/-- A double is not written like an integer: there is a point or a letter in its text. -/
theorem text_ne_toString (x : Float) (z : Int) : Number.text x ≠ toString z := by
  have integral : ∀ c ∈ (toString z).toList, c = '-' ∨ c.isDigit = true := by
    intro c mem
    rw [Number.toList_toString_int, Number.signed] at mem
    have digits := (Number.runOf_toDigits z.natAbs).all
    split_ifs at mem
    · exact (List.mem_cons.1 mem).imp_right (digits c)
    · exact .inr (digits c mem)
  have other : ∃ c ∈ (Number.text x).toList, ¬(c = '-' ∨ c.isDigit = true) := by
    by_cases finite : x.isFinite = true
    · obtain ⟨n, written, -⟩ := Number.exists_numeral finite
      refine ⟨'.', ?_, by decide⟩
      rw [written, Number.Numeral.written, Number.signed]
      split_ifs <;> simp
    · have words : ∀ word ∈ ["NaN", "Infinity", "-Infinity"],
          word.toList.any (fun c => !(c == '-' || c.isDigit)) = true := by decide
      simpa using words _ (Number.text_mem_words (Bool.eq_false_of_not_eq_true finite))
  obtain ⟨c, mem, letter⟩ := other
  intro same
  rw [same] at mem
  exact letter (integral c mem)

/-- Different numbers have different texts. -/
theorem Value.IsNumeric.text_inj (first : v.IsNumeric) (second : w.IsNumeric) :
    v.text = w.text ↔ v = w := by
  refine ⟨fun same => ?_, fun same => by rw [same]⟩
  cases first with
  | integer n =>
    cases second with
    | integer k => rw [Int64.toInt_inj.1 (toString_int_injective same)]
    | number y => exact absurd same.symm (text_ne_toString y n.toInt)
  | number x =>
    cases second with
    | integer k => exact absurd same (text_ne_toString x k.toInt)
    | number y =>
      have reads := Number.readFloat?_text x
      rw [show Number.text x = Number.text y from same, Number.readFloat?_text y] at reads
      rw [Option.some.inj reads]

end SameTexts

namespace Context

/-- The number of a variable, which is zero if it has no value. -/
def numberOf? (c : Context) (name : String) : Option Float :=
  match c.bindings.get? name with
  | none => some 0.0
  | some value => value.number?

/-- `c.Stores name v`: the name can be written in braces and stands for the numeric value. -/
structure Stores (c : Context) (name : String) (v : Value) : Prop where
  named : Placeholder.IsName name.toList
  free : lowerCased name ∉ playerNames
  bound : c.bindings.get? name = some v
  numeric : v.IsNumeric

/-- `c.Shows operand x`: the operand is the number as it stands, or a variable in braces that has
the number. -/
inductive Shows (c : Context) : String → Float → Prop
  | literal {word : String} {x : Float} (plain : '\x7b' ∉ word.toList) (solid : IsSolid word)
      (reads : Number.readFloat? word = some x) : Shows c word x
  | stored {name : String} {v : Value} {x : Float} (stores : c.Stores name v)
      (number : v.number? = some x) : Shows c ("\x7b" ++ name ++ "\x7d") x

variable {c : Context} {a b name operand left right : String} {v w : Value} {x y : Float}

theorem Stores.textOf_eq (stores : c.Stores name v) : c.textOf name = v.text := by
  rw [textOf, stores.bound]

private theorem Stores.isComparable (stores : c.Stores name v) : c.IsComparable name := by
  refine ⟨stores.named, stores.free, ?_⟩
  rw [stores.textOf_eq]
  obtain ⟨x, number⟩ := stores.numeric.exists_number
  exact isUnsigned_of_reads stores.numeric.isSolid (stores.numeric.readFloat?_text.trans number)

private theorem resolve_empty (c : Context) : c.resolve "" = "" := c.resolve_of_plain (by simp)

/-- A word that reads as the number takes the place of the operand, whatever follows it. -/
theorem Shows.exists_word (shows : c.Shows operand x) :
    ∃ word, IsSolid word ∧ Number.readFloat? word = some x ∧ c.resolve operand = word ∧
      ∀ rest, c.resolve (operand ++ rest) = word ++ c.resolve rest := by
  suffices followed : ∃ word, IsSolid word ∧ Number.readFloat? word = some x ∧
      ∀ rest, c.resolve (operand ++ rest) = word ++ c.resolve rest by
    obtain ⟨word, solid, reads, resolves⟩ := followed
    have whole := resolves ""
    rw [String.append_empty, resolve_empty, String.append_empty] at whole
    exact ⟨word, solid, reads, whole, resolves⟩
  cases shows with
  | literal plain solid reads =>
    refine ⟨operand, solid, reads, fun rest => ?_⟩
    rw [← String.toList_inj, String.toList_append, resolve_toList, resolve_toList,
      String.toList_append, Placeholder.scan_plain_append plain]
  | @stored name v _ stores number =>
    refine ⟨v.text, stores.numeric.isSolid, stores.numeric.readFloat?_text.trans number,
      fun rest => ?_⟩
    have written : ("\x7b" ++ name ++ "\x7d" ++ rest).toList =
        Placeholder.braced name.toList rest.toList := by simp [Placeholder.braced]
    rw [← String.toList_inj, String.toList_append, resolve_toList, resolve_toList, written,
      Placeholder.scan_braced stores.named, String.ofList_toList, meaning_eq_textOf stores.free,
      stores.textOf_eq]

/-- As an operand, the number is read. -/
theorem Shows.readFloat?_resolve (shows : c.Shows operand x) :
    Number.readFloat? (trimmed (c.resolve operand)) = some x := by
  obtain ⟨word, solid, reads, whole, -⟩ := shows.exists_word
  rw [whole, trimmed_of_solid solid, reads]

/-- Orders of two operands are decided by their numbers. -/
theorem Shows.holds_eq {o : Comparison} {order : Float → Float → Bool} (first : c.Shows left x)
    (second : c.Shows right y) (orders : o.order? = some order) :
    c.holds (left ++ (" " ++ o.sign ++ " " ++ right)) = order x y := by
  obtain ⟨word, solid, reads, -, resolves⟩ := first.exists_word
  obtain ⟨word', solid', reads', last, -⟩ := second.exists_word
  have plain : '\x7b' ∉ (" " ++ o.sign ++ " ").toList := by cases o <;> decide
  have closed : Placeholder.IsClosed (" " ++ o.sign ++ " ").toList := by cases o <;> decide
  have resolved : c.resolve (left ++ (" " ++ o.sign ++ " " ++ right)) =
      String.ofList (Condition.compared o word.toList word'.toList) := by
    rw [resolves, c.resolve_append closed, c.resolve_of_plain plain, last, ← String.toList_inj]
    simp [Condition.compared]
  have holds := Condition.holds_compared_iff o (isUnsigned_of_reads solid reads)
    (isUnsigned_of_reads solid' reads')
  rw [trim_of_solid solid, trim_of_solid solid', and_iff_right solid.filled,
    and_iff_right solid'.filled, ← Comparison.decide?_eq_some_iff,
    Comparison.decide?_of_order orders, String.ofList_toList, String.ofList_toList, reads, reads',
    Option.bind_some, Option.bind_some, Option.some.injEq] at holds
  rw [Context.holds, resolved, Bool.eq_iff_iff]
  exact holds

/-- Two variables with numbers are equal in a condition if they have the same number. -/
theorem Stores.equal_iff (first : c.Stores a v) (second : c.Stores b w) :
    (c.holds (Comparison.equal.ofNames a b) = true ↔ v = w) ∧
      (c.holds (Comparison.unequal.ofNames a b) = true ↔ v ≠ w) := by
  have solid : RunOf _ v.text.toList := first.numeric.isSolid
  have solid' : RunOf _ w.text.toList := second.numeric.isSolid
  rw [holds_ofNames_iff first.isComparable second.isComparable,
    holds_ofNames_iff first.isComparable second.isComparable, first.textOf_eq, second.textOf_eq,
    trim_of_solid solid, trim_of_solid solid', and_iff_right solid.filled,
    and_iff_right solid'.filled, and_iff_right solid.filled, and_iff_right solid'.filled,
    Comparison.decides_equal_iff, Comparison.decides_unequal_iff, ne_eq, String.toList_inj,
    first.numeric.text_inj second.numeric]
  exact ⟨Iff.rfl, Iff.rfl⟩

end Context

section Lines

variable {m : Machine} {operand : String} {y : Float} (nested : String → Script Value)

private theorem mathOperands?_of_shows (shows : m.context.Shows operand y) {target : String}
    {x : Float}
    (current : m.context.numberOf? target = some x) :
    Action.mathOperands? m.context target (m.context.resolve operand) = some (x, y) := by
  rw [Context.numberOf?] at current
  rw [Action.mathOperands?, shows.readFloat?_resolve]
  cases found : m.context.bindings.get? target with
  | none =>
    rw [found] at current
    cases current
    rfl
  | some value =>
    simp only [found] at current
    simp [current]

/-- A `math` line computes with the number that its operand shows. -/
theorem perform_math_of_shows (shows : m.context.Shows operand y) {target : String} {x : Float}
    (current : m.context.numberOf? target = some x) (op : MathOp) :
    (Statement.math target op operand).perform nested m =
      if op = .div ∧ (y == 0.0) = true then .error (.failed .divisionByZero) m
      else .ok (.bool true) (m.updated (·.set target (.number (op.apply x y)))) := by
  rw [Statement.perform, resolve_bind, Action.applyMath, context_bind,
    mathOperands?_of_shows shows current]
  by_cases divides : op = .div ∧ (y == 0.0) = true
  · simp only [divides, and_self, if_true, fail_bind]
  · simp only [divides, if_false]
    rfl

/-- What a line with `math` or `random` stores is a number. -/
theorem exists_numeric_of_succeeds {line : String} {a : Assignment}
    (asks : m.assignment? line = some a) (numeric : ∀ name text, a ≠ .text name text)
    (done : m.Succeeds nested line) :
    ∃ v, v.IsNumeric ∧
      (m.perform (runLine nested line)).2.context.bindings.get? a.name = some v := by
  obtain ⟨s, executed, said⟩ := Option.bind_eq_some_iff.1 asks
  rw [Machine.succeeds_iff nested executed] at done
  have follow := VariablesFollow.of_assigns (s.perform_assigns nested said)
  obtain ⟨v, bound, admits⟩ := follow.named a rfl done
  refine ⟨v, ?_, by rw [runLine_bindings nested executed]; exact bound⟩
  cases a with
  | text name value => exact absurd rfl (numeric name value)
  | number name =>
    obtain ⟨x, rfl⟩ := admits
    exact .number x
  | between name least greatest =>
    obtain ⟨-, -, n, -, -, -, rfl, -⟩ := admits
    exact .integer n

end Lines

/-- Numbers survive the way through text. Integers and doubles are read from their texts as the
numbers that they are, NaN as NaN. A finite double is written with digits on both sides of a point,
and with an exponent exactly if its magnitude is not zero and not between a thousandth and ten
million. So a variable that a line with `math` or `random` has set stands for the number that was
stored, where its name is in braces: as the operand of a calculation, in an order on either side,
and in an equality with another such variable. -/
theorem stored_numbers_read_back :
    (∀ v : Value, v.IsNumeric → (Value.string v.text).number? = v.number?) ∧
    (∀ x : Float, x.isNaN = true →
      ∃ y, (Value.string (Value.number x).text).number? = some y ∧ y.isNaN = true) ∧
    (∀ x : Float, x.isFinite = true → ∃ n : Number.Numeral,
      (Value.number x).text.toList = n.written ∧
        (n.exponent.isSome = true ↔ Number.magnitudeOf x ≠ 0 ∧
          ¬((10 : ℚ) ^ (-3 : ℤ) ≤ Number.magnitudeOf x ∧
            Number.magnitudeOf x < (10 : ℚ) ^ (7 : ℤ)))) ∧
    (∀ (m : Machine) (nested : String → Script Value) (line : String) (a : Assignment),
      m.assignment? line = some a → (∀ name text, a ≠ .text name text) →
      m.Succeeds nested line → Placeholder.IsName a.name.toList →
      lowerCased a.name ∉ Context.playerNames →
      ∃ v, (m.perform (runLine nested line)).2.context.Stores a.name v) ∧
    ∀ (m : Machine) (name : String) (v : Value), m.context.Stores name v →
      ∃ y, v.number? = some y ∧
        (∀ (nested : String → Script Value) (target : String) (op : MathOp) (x : Float),
          m.context.numberOf? target = some x →
          (Statement.math target op ("\x7b" ++ name ++ "\x7d")).perform nested m =
            if op = .div ∧ (y == 0.0) = true then .error (.failed .divisionByZero) m
            else .ok (.bool true) (m.updated (·.set target (.number (op.apply x y))))) ∧
        (∀ (o : Comparison) (order : Float → Float → Bool) (other : String) (z : Float),
          o.order? = some order → m.context.Shows other z →
          m.context.holds ("\x7b" ++ name ++ "\x7d" ++ (" " ++ o.sign ++ " " ++ other)) =
              order y z ∧
            m.context.holds (other ++ (" " ++ o.sign ++ " " ++ ("\x7b" ++ name ++ "\x7d"))) =
              order z y) ∧
        ∀ (other : String) (w : Value), m.context.Stores other w →
          (m.context.holds (Comparison.equal.ofNames name other) = true ↔ v = w) ∧
            (m.context.holds (Comparison.unequal.ofNames name other) = true ↔ v ≠ w) := by
  have survives : ∀ v : Value, v.IsNumeric → (Value.string v.text).number? = v.number? := by
    intro v numeric
    rw [Value.number?, trimmed_of_solid numeric.isSolid, numeric.readFloat?_text]
  refine ⟨survives, fun x nan => ⟨x, survives _ (.number x), nan⟩, fun x finite => ?_, ?_, ?_⟩
  · obtain ⟨n, written, -, -, -, exponent⟩ := Number.exists_numeral finite
    exact ⟨n, written, exponent⟩
  · intro m nested line a asks numeric done named free
    obtain ⟨v, isNumeric, bound⟩ := exists_numeric_of_succeeds nested asks numeric done
    exact ⟨v, named, free, bound, isNumeric⟩
  · intro m name v stores
    obtain ⟨y, number⟩ := stores.numeric.exists_number
    have shows : m.context.Shows ("\x7b" ++ name ++ "\x7d") y := .stored stores number
    refine ⟨y, number, ?_, ?_, fun other w stores' => stores.equal_iff stores'⟩
    · intro nested target op x current
      exact perform_math_of_shows nested shows current op
    · intro o order other z orders shows'
      exact ⟨shows.holds_eq shows' orders, shows'.holds_eq shows orders⟩

/-- A calculation whose result is written with an exponent. -/
def largeSum : String := "math x + 12345678.5"

/-- The machine that the calculation leaves. -/
def largelySummed : Machine := (soloStart.perform (runLine (run nestingCapacity) largeSum)).2

theorem stored_numbers_read_back_large :
    soloStart.assignment? largeSum = some (.number "x") ∧
      largelySummed.context.Stores "x" (.number 12345678.5) ∧
      (Statement.math "debt" .sub "\x7bx\x7d").perform (run nestingCapacity) largelySummed =
        .ok (.bool true) (largelySummed.updated (·.set "debt" (.number (-12345678.5)))) ∧
      largelySummed.context.holds "\x7bx\x7d > 12345678" = true ∧
      largelySummed.context.holds "12345679 < \x7bx\x7d" = false := by
  have asks : soloStart.assignment? largeSum = some (.number "x") := by decide +kernel
  obtain ⟨-, -, -, stored, reread⟩ := stored_numbers_read_back
  have done : soloStart.Succeeds (run nestingCapacity) largeSum :=
    ⟨.math "x" .add "12345678.5", _, by decide +kernel, rfl⟩
  obtain ⟨v, stores⟩ := stored soloStart (run nestingCapacity) largeSum (.number "x") asks
    (fun _ _ same => by cases same) done ⟨by decide, by decide⟩ (by decide)
  have bound : largelySummed.context.bindings.get? "x" = some (.number 12345678.5) := rfl
  obtain rfl : v = .number 12345678.5 := Option.some.inj (stores.bound.symm.trans bound)
  obtain ⟨y, number, operand, order, -⟩ := reread largelySummed "x" _ stores
  obtain rfl : 12345678.5 = y := Option.some.inj number
  have below : largelySummed.context.Shows "12345678" 12345678 :=
    .literal (by decide) (by decide) (by decide +kernel)
  have above : largelySummed.context.Shows "12345679" 12345679 :=
    .literal (by decide) (by decide) (by decide +kernel)
  refine ⟨asks, stores, ?_, ?_, ?_⟩
  · exact (operand (run nestingCapacity) "debt" .sub 0.0 rfl).trans rfl
  · exact (order .greater _ "12345678" _ rfl below).1
  · exact (order .less _ "12345679" _ rfl above).2

end MenuScript
