import MenuScript.Proofs.ShortestDecimals

/-!
# Numerals

A numeral has digits on both sides of a point, with a sign before them and an exponent behind them
where they are due. It is read as the decimal that its parts make up, whatever they are, as long as
the exponent is below the bound up to which exponents are read. The digits of a number are written
as numerals of the same value in both ways of writing, and a whole number is written by its digits
alone.
-/

namespace MenuScript.Number

open Statement (RunOf StopsAt)

/-- The parts of a written number. -/
structure Numeral where
  negative : Bool
  whole : List Char
  fraction : List Char
  exponent : Option ℤ
  wholeDigits : RunOf Char.isDigit whole
  fractionDigits : RunOf Char.isDigit fraction

namespace Numeral

/-- A mark and an integer behind the digits, if there is an exponent. -/
def exponentPart : Option ℤ → List Char
  | none => []
  | some e => 'E' :: (toString e).toList

/-- The text of a numeral. -/
def written (n : Numeral) : List Char :=
  signed n.negative (n.whole ++ '.' :: (n.fraction ++ exponentPart n.exponent))

/-- The decimal that the parts make up. -/
def decimal (n : Numeral) : Decimal :=
  ⟨digitsValue (n.whole ++ n.fraction), n.exponent.getD 0 - n.fraction.length⟩

end Numeral

section Reading

variable {s whole fraction rest : List Char}

private theorem digitsValue_concat (s : List Char) (c : Char) :
    digitsValue (s ++ [c]) = 10 * digitsValue s + (c.toNat - 48) := by
  simp only [digitsValue, List.foldl_append, List.foldl_cons, List.foldl_nil]

private theorem exponentValue_concat (s : List Char) (c : Char) :
    Decimal.exponentValue (s ++ [c]) =
      if Decimal.exponentValue s < Decimal.exponentBound then
        10 * Decimal.exponentValue s + (c.toNat - 48)
      else Decimal.exponentValue s := by
  rw [Decimal.exponentValue, List.foldl_append]
  rfl

/-- Below the bound all digits of an exponent count. -/
theorem exponentValue_eq (s : List Char) (small : digitsValue s < Decimal.exponentBound) :
    Decimal.exponentValue s = digitsValue s := by
  induction s using List.reverseRecOn with
  | nil => rfl
  | append_singleton s c ih =>
    rw [digitsValue_concat] at small
    have earlier : digitsValue s < Decimal.exponentBound := by omega
    rw [exponentValue_concat, digitsValue_concat, ih earlier, if_pos earlier]

/-- An integer is written by a sign, where one is due, and the digits of its magnitude. -/
theorem toList_toString_int (z : ℤ) :
    (toString z).toList = signed (decide (z < 0)) (Nat.toDigits 10 z.natAbs) := by
  cases z with
  | ofNat n => simp [signed, toString, Int.repr, Nat.repr_eq_ofList_toDigits]
  | negSucc n => simp [signed, toString, Int.repr, Nat.repr_eq_ofList_toDigits, Int.negSucc_lt_zero]

theorem ne_of_isDigit {c d : Char} (digit : c.isDigit = true) (other : d.isDigit = false) :
    c ≠ d := by
  rintro rfl
  rw [digit] at other
  cases other

private theorem readExponent?_signed (negative : Bool) {digits : List Char}
    (run : RunOf Char.isDigit digits) :
    Decimal.readExponent? ('E' :: signed negative digits) =
      some (if negative then -(Decimal.exponentValue digits : ℤ)
        else Decimal.exponentValue digits) := by
  have all : (digits.isEmpty || !digits.all Char.isDigit) = false := by
    simpa [run.filled] using run.all
  cases negative with
  | true => simp [Decimal.readExponent?, signed, all]
  | false =>
    obtain ⟨c, more, rfl⟩ := List.exists_cons_of_ne_nil run.filled
    have digit := run.all c List.mem_cons_self
    have minus : c ≠ '-' := ne_of_isDigit digit (by decide)
    have plus : c ≠ '+' := ne_of_isDigit digit (by decide)
    simp only [Decimal.readExponent?, signed, Bool.false_eq_true, if_false, or_true, if_true]
    split
    · rename_i eq
      exact absurd (List.cons.inj eq).1 minus
    · rename_i eq
      exact absurd (List.cons.inj eq).1 plus
    · simpa using run.all

private theorem readExponent?_exponentPart {exponent : Option ℤ}
    (bounded : ∀ e ∈ exponent, e.natAbs < Decimal.exponentBound) :
    Decimal.readExponent? (Numeral.exponentPart exponent) = some (exponent.getD 0) := by
  cases exponent with
  | none => rfl
  | some e =>
    have value : Decimal.exponentValue (Nat.toDigits 10 e.natAbs) = e.natAbs := by
      rw [exponentValue_eq _ (by rw [digitsValue_toDigits]; exact bounded e rfl),
        digitsValue_toDigits]
    rw [Numeral.exponentPart, toList_toString_int, readExponent?_signed _ (runOf_toDigits _),
      value, Option.getD_some]
    congr 1
    split_ifs with sign
    · have := of_decide_eq_true sign
      omega
    · have := of_decide_eq_false (Bool.eq_false_of_not_eq_true sign)
      omega

private theorem toLower_of_isDigit {c : Char} (digit : c.isDigit = true) : c.toLower = c := by
  have below : c.toNat ≤ 57 := (Char.isDigit_iff_toNat.1 digit).2
  refine dif_neg fun upper => ?_
  have above : 65 ≤ c.toNat := UInt32.le_iff_toNat_le.1 upper.1
  omega

/-- A text that starts with a digit is none of the words for numbers. -/
theorem readUnsigned?_of_digit (negative : Bool) {c : Char} (digit : c.isDigit = true)
    (rest : List Char) :
    Literal.readUnsigned? negative (c :: rest) =
      (Decimal.read? (c :: rest)).map (.decimal negative) := by
  have other : ∀ d t, d.toLower.isDigit = false →
      Text.sameLetters (c :: rest) (d :: t) = false := by
    intro d t letter
    rw [Text.sameLetters, beq_eq_false_iff_ne, List.map_cons, List.map_cons,
      toLower_of_isDigit digit]
    exact fun same => ne_of_isDigit digit letter (List.cons.inj same).1
  have words : ∀ word ∈ ["inf".toList, "infinity".toList, "nan".toList],
      Text.sameLetters (c :: rest) word = false := by
    intro word mem
    simp only [List.mem_cons, List.not_mem_nil, or_false] at mem
    rcases mem with rfl | rfl | rfl <;> exact other _ _ (by decide)
  rw [Literal.readUnsigned?, words _ (by simp), words _ (by simp), words _ (by simp)]
  rfl

theorem literal_read?_signed (negative : Bool) (starts : RunOf Char.isDigit whole)
    (rest : List Char) :
    Literal.read? (signed negative (whole ++ rest)) =
      (Decimal.read? (whole ++ rest)).map (.decimal negative) := by
  obtain ⟨c, more, rfl⟩ := List.exists_cons_of_ne_nil starts.filled
  have digit := starts.all c List.mem_cons_self
  rw [List.cons_append]
  cases negative with
  | true => exact readUnsigned?_of_digit true digit _
  | false =>
    rw [signed, if_neg Bool.false_ne_true, Literal.read?]
    · exact readUnsigned?_of_digit false digit _
    · exact fun _ same => ne_of_isDigit digit (by decide) (List.cons.inj same).1
    · exact fun _ same => ne_of_isDigit digit (by decide) (List.cons.inj same).1

theorem decimal_read?_digits (digits : RunOf Char.isDigit whole) :
    Decimal.read? whole = some ⟨digitsValue whole, 0⟩ := by
  obtain ⟨takes, drops⟩ := Statement.span_iff.2
    ⟨digits.all, Statement.stopsAt_nil, (List.append_nil whole).symm⟩
  rw [Decimal.read?]
  simp [takes, drops, digits.filled, Decimal.readExponent?, longDigitsValue_eq]

private theorem decimal_read?_point (digits : RunOf Char.isDigit whole)
    (digits' : ∀ c ∈ fraction, c.isDigit = true) (stops : StopsAt Char.isDigit rest) :
    Decimal.read? (whole ++ '.' :: (fraction ++ rest)) =
      (Decimal.readExponent? rest).map fun e =>
        ⟨digitsValue (whole ++ fraction), e - fraction.length⟩ := by
  have point : StopsAt Char.isDigit ('.' :: (fraction ++ rest)) := Statement.stopsAt_cons.2 rfl
  obtain ⟨takes, drops⟩ := Statement.span_iff.2 ⟨digits.all, point, rfl⟩
  obtain ⟨takes', drops'⟩ := Statement.span_iff.2 ⟨digits', stops, rfl⟩
  rw [Decimal.read?]
  simp [takes, drops, takes', drops', digits.filled, longDigitsValue_eq]

end Reading

namespace Numeral

private theorem stopsAt_exponentPart (exponent : Option ℤ) :
    StopsAt Char.isDigit (exponentPart exponent) := by
  cases exponent with
  | none => exact Statement.stopsAt_nil
  | some e => exact Statement.stopsAt_cons.2 rfl

/-- A numeral is read as its parts say. -/
theorem read?_written (n : Numeral) (bounded : ∀ e ∈ n.exponent, e.natAbs < Decimal.exponentBound) :
    Literal.read? n.written = some (.decimal n.negative n.decimal) := by
  rw [written, literal_read?_signed _ n.wholeDigits,
    decimal_read?_point n.wholeDigits n.fractionDigits.all (stopsAt_exponentPart _),
    readExponent?_exponentPart bounded]
  rfl

end Numeral

section Layout

variable {s whole fraction : List Char} {d : Digits} {shift : ℤ}

private theorem runOf_append_zeros (digits : RunOf Char.isDigit s) (k : ℕ) :
    RunOf Char.isDigit (s ++ List.replicate k '0') := by
  refine ⟨by simp [digits.filled], fun c mem => ?_⟩
  rcases List.mem_append.1 mem with mem | mem
  · exact digits.all c mem
  · rw [(List.mem_replicate.1 mem).2]
    rfl

private theorem runOf_zeros_append (digits : RunOf Char.isDigit s) (k : ℕ) :
    RunOf Char.isDigit (List.replicate k '0' ++ s) := by
  refine ⟨by simp [digits.filled], fun c mem => ?_⟩
  rcases List.mem_append.1 mem with mem | mem
  · rw [(List.mem_replicate.1 mem).2]
    rfl
  · exact digits.all c mem

namespace Digits

/-- `d.IsLaid shift s`: the text has digits on both sides of a point, and its value has to be moved
by `shift` places to be that of the digits. -/
inductive IsLaid (d : Digits) (shift : ℤ) : List Char → Prop
  | mk {whole fraction : List Char} (wholeDigits : RunOf Char.isDigit whole)
      (fractionDigits : RunOf Char.isDigit fraction)
      (value : (digitsValue (whole ++ fraction) : ℚ) * 10 ^ (shift - fraction.length) = d.value) :
      IsLaid d shift (whole ++ '.' :: fraction)

/-- Where digits follow the point, nothing is added. -/
theorem isLaid_of_point (wholeDigits : RunOf Char.isDigit whole)
    (fractionDigits : RunOf Char.isDigit fraction)
    (digits : digitsValue (whole ++ fraction) = digitsValue d.digits)
    (places : shift - fraction.length = d.point - d.digits.length) :
    d.IsLaid shift (withFraction (whole ++ '.' :: fraction)) := by
  have kept : withFraction (whole ++ '.' :: fraction) = whole ++ '.' :: fraction := by
    simp [withFraction]
  rw [kept]
  exact .mk wholeDigits fractionDigits (by rw [digits, places, value])

/-- A zero is added behind digits without a point. -/
theorem isLaid_of_digits (digits : RunOf Char.isDigit s)
    (same : (digitsValue s : ℚ) * 10 ^ shift = d.value) : d.IsLaid shift (withFraction s) := by
  have plain : '.' ∉ s := fun mem => by cases digits.all _ mem
  have added : withFraction s = s ++ '.' :: ['0'] := by simp [withFraction, plain]
  rw [added]
  refine .mk digits ⟨by simp, by simp⟩ ?_
  have zero : digitsValue (s ++ ['0']) = digitsValue s * 10 ^ 1 := digitsValue_append_zeros s 1
  rw [zero, ← same, List.length_singleton, Nat.cast_mul, Nat.cast_pow, Nat.cast_ofNat, mul_assoc,
    ← zpow_natCast, ← zpow_add₀ (by norm_num), add_sub_cancel]

private theorem isLaid_positional (digits : RunOf Char.isDigit d.digits) :
    d.IsLaid 0 (withFraction d.positional) := by
  rw [positional]
  split_ifs with below whole
  · -- zeros stand between the point and the digits
    have places : 0 - ((List.replicate (-d.point).toNat '0' ++ d.digits).length : ℤ)
        = d.point - d.digits.length := by
      rw [List.length_append, List.length_replicate]
      omega
    have zero : RunOf Char.isDigit ['0'] := ⟨by simp, by simp⟩
    refine isLaid_of_point zero (runOf_zeros_append digits _) ?_ places
    rw [← digitsValue_zeros_append d.digits ((-d.point).toNat + 1), List.replicate_succ]
    rfl
  · -- zeros stand between the digits and the point
    refine isLaid_of_digits (runOf_append_zeros digits _) ?_
    have places : ((d.point.toNat - d.digits.length : ℕ) : ℤ) = d.point - d.digits.length := by
      omega
    rw [digitsValue_append_zeros, value, zpow_zero, mul_one, Nat.cast_mul, Nat.cast_pow,
      Nat.cast_ofNat, ← zpow_natCast, places]
  · -- the point is among the digits
    have split := List.take_append_drop d.point.toNat d.digits
    have places : 0 - ((d.digits.drop d.point.toNat).length : ℤ) = d.point - d.digits.length := by
      rw [List.length_drop]
      omega
    refine isLaid_of_point ⟨?_, fun c mem => digits.all c (List.mem_of_mem_take mem)⟩
      ⟨?_, fun c mem => digits.all c (List.mem_of_mem_drop mem)⟩ (by rw [split]) places
    · simp [digits.filled]
      omega
    · simp
      omega

private theorem isLaid_mantissa (digits : RunOf Char.isDigit d.digits) :
    d.IsLaid (d.point - 1) (withFraction d.mantissa) := by
  rw [mantissa]
  cases written : d.digits with
  | nil => exact absurd written digits.filled
  | cons first rest =>
    rw [written] at digits
    have one : RunOf Char.isDigit [first] :=
      ⟨by simp, by simpa using digits.all first List.mem_cons_self⟩
    cases rest with
    | nil =>
      refine isLaid_of_digits one ?_
      rw [value, written, List.length_singleton, Nat.cast_one]
    | cons second rest =>
      have more : RunOf Char.isDigit (second :: rest) :=
        ⟨by simp, fun c mem => digits.all c (List.mem_cons_of_mem _ mem)⟩
      refine isLaid_of_point one more (by rw [written]; rfl) ?_
      rw [written, List.length_cons, List.length_cons, List.length_cons]
      push_cast
      ring

end Digits

end Layout

/-- The digits of a number are shown as a numeral of the same value, which has an exponent where
they are not ordinary. -/
theorem exists_numeral_of_digits (negative : Bool) (d : Digits)
    (digits : RunOf Char.isDigit d.digits) :
    ∃ n : Numeral, (Shown.digits negative d).ordinary = n.written ∧ n.negative = negative ∧
      n.decimal.value = d.value ∧
      n.exponent = if d.isOrdinary then none else some (d.point - 1) := by
  rw [Shown.ordinary]
  split_ifs with ordinary
  · have laid := Digits.isLaid_positional digits
    generalize withFraction d.positional = s at laid
    obtain ⟨wholeDigits, fractionDigits, value⟩ := laid
    exact ⟨⟨negative, _, _, none, wholeDigits, fractionDigits⟩,
      by simp [Numeral.written, Numeral.exponentPart], rfl, value, rfl⟩
  · have laid := Digits.isLaid_mantissa digits
    generalize withFraction d.mantissa = s at laid
    obtain ⟨wholeDigits, fractionDigits, value⟩ := laid
    exact ⟨⟨negative, _, _, some (d.point - 1), wholeDigits, fractionDigits⟩,
      by simp [Numeral.written, Numeral.exponentPart], rfl, value, rfl⟩

end MenuScript.Number
