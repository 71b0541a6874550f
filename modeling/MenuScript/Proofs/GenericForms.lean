import MenuScript.Proofs.IncludeInlining
import MenuScript.Proofs.PassedLines
import MenuScript.Proofs.RegisteredFunctions
import MenuScript.Proofs.ShorthandLines
import MenuScript.Proofs.StructuredBlocks
import MenuScript.Proofs.VariableChanges

/-!
# Shorthands and the calls they abbreviate

The lines `set`, `math`, `random` and `delay` can be written as calls, with a colon after the
keyword. A call is split into words before anything is resolved, a shorthand resolves all that
follows the name at once, and they are read by different rules. Words without white space keep the
two together, and where a value has several words, braces that are closed within each of them.
-/

namespace MenuScript

open Script
open Statement (RunOf StopsAt IsWord IsRest Shorthand isGap isNameChar)

instance (p : Char → Bool) (s : List Char) : Decidable (RunOf p s) :=
  decidable_of_iff (s ≠ [] ∧ s.all p = true)
    ⟨fun h => ⟨h.1, List.all_eq_true.1 h.2⟩, fun h => ⟨h.filled, List.all_eq_true.2 h.all⟩⟩

/-- Whether a text is one word: not empty, and without white space. -/
def IsSolid (word : String) : Prop := RunOf (!Text.isSpace ·) word.toList

instance (word : String) : Decidable (IsSolid word) := inferInstanceAs (Decidable (RunOf _ _))

/-- `IsPhrase s words`: the text consists of the words, with single spaces between them. -/
inductive IsPhrase : List Char → List String → Prop
  | single {word : String} (solid : IsSolid word) : IsPhrase word.toList [word]
  | cons {word : String} {s : List Char} {words : List String} (solid : IsSolid word)
      (more : IsPhrase s words) : IsPhrase (word.toList ++ ' ' :: s) (word :: words)

section Phrases

variable {s : List Char} {word : String} {words : List String}

theorem spaced_cons (filled : words ≠ []) : spaced (word :: words) = word ++ " " ++ spaced words :=
  String.intercalate_cons_of_ne_nil filled

theorem toList_spaced_cons (filled : words ≠ []) :
    (spaced (word :: words)).toList = word.toList ++ ' ' :: (spaced words).toList := by
  rw [spaced_cons filled, String.toList_append, String.toList_append, List.append_assoc]
  rfl

theorem isPhrase_spaced (filled : words ≠ []) (solid : ∀ word ∈ words, IsSolid word) :
    IsPhrase (spaced words).toList words := by
  induction words with
  | nil => exact absurd rfl filled
  | cons word words ih =>
    have first : IsSolid word := solid word (by simp)
    cases words with
    | nil =>
      rw [spaced_singleton]
      exact .single first
    | cons next words =>
      rw [toList_spaced_cons (by simp)]
      exact .cons first (ih (by simp) fun w mem => solid w (by simp [mem]))

namespace IsPhrase

private theorem words_eq (phrase : IsPhrase s words) : Text.words s = words.map String.toList := by
  induction phrase with
  | single solid => exact Text.words_of_solid solid
  | cons solid more ih =>
    rw [Text.words_append_space (by decide), Text.words_of_solid solid, ih]
    rfl

theorem ne_nil (phrase : IsPhrase s words) : s ≠ [] := by
  cases phrase with
  | single solid => exact solid.filled
  | cons solid more => exact solid.ne_nil_append

theorem start (phrase : IsPhrase s words) : StopsAt Text.isSpace s := by
  cases phrase with
  | single solid => exact solid.stopsAt (by simp)
  | cons solid more => exact solid.stopsAt_append (by simp)

private theorem stop (phrase : IsPhrase s words) : StopsAt Text.isSpace s.reverse := by
  induction phrase with
  | @single word solid =>
    have backwards : RunOf (!Text.isSpace ·) word.toList.reverse :=
      ⟨by simpa using solid.filled, by simpa using solid.all⟩
    exact backwards.stopsAt (by simp)
  | @cons word s words solid more ih =>
    have filled : s.reverse ≠ [] := by simpa using more.ne_nil
    obtain ⟨last, rest, backwards⟩ := List.exists_cons_of_ne_nil filled
    rw [backwards] at ih
    rw [List.reverse_append, List.reverse_cons, backwards, List.append_assoc, List.cons_append]
    exact Statement.stopsAt_cons.2 (Statement.stopsAt_cons.1 ih)

private theorem newline_not_mem (phrase : IsPhrase s words) : '\n' ∉ s := by
  have inside : ∀ {word : String}, IsSolid word → '\n' ∉ word.toList :=
    fun solid mem => absurd (solid.all _ mem) (by decide)
  induction phrase with
  | single solid => exact inside solid
  | cons solid more ih => simp [inside solid, ih]

end IsPhrase

theorem trimmed_spaced (filled : words ≠ []) (solid : ∀ word ∈ words, IsSolid word) :
    trimmed (spaced words) = spaced words := by
  have phrase := isPhrase_spaced filled solid
  rw [trimmed, Text.trim_of_ends phrase.start phrase.stop, String.ofList_toList]

theorem linesOf_spaced (filled : words ≠ []) (solid : ∀ word ∈ words, IsSolid word) :
    linesOf (spaced words) = [spaced words] := by
  have phrase := isPhrase_spaced filled solid
  rw [linesOf, Text.lines, Text.linesFrom_of_single phrase.newline_not_mem (Or.inr phrase.ne_nil),
    List.reverse_nil, List.nil_append, List.map_singleton, String.ofList_toList]

private theorem Context.resolve_spaced (c : Context)
    (closed : ∀ word ∈ words, Placeholder.IsClosed word.toList) :
    c.resolve (spaced words) = spaced (words.map c.resolve) := by
  induction words with
  | nil => exact c.resolve_of_plain (by decide)
  | cons word words ih =>
    cases words with
    | nil => rw [List.map_singleton, spaced_singleton, spaced_singleton]
    | cons next words =>
      have later := ih fun w mem => closed w (by simp [mem])
      have space : c.resolve " " = " " := c.resolve_of_plain (by decide)
      have rest : next :: words ≠ [] := by simp
      have rest' : (next :: words).map c.resolve ≠ [] := by simp
      rw [List.map_cons, spaced_cons rest', spaced_cons rest, String.append_assoc,
        String.append_assoc, c.resolve_append (closed word (by simp)),
        c.resolve_append (by decide), space, later]

end Phrases

section Reading

variable {keyword n : String} {words : List String}

/-- The keywords of the lines that can be written as calls. -/
def keywords : List String := ["set", "math", "random", "delay"]

/-- The forms of all other keywords fail at the keyword. The form of the keyword itself asks for a
gap where the colon is. -/
theorem not_shorthand_of_colon (mem : keyword ∈ keywords) (rest : List Char) (s : Statement) :
    ¬ Shorthand (keyword.toList ++ ':' :: rest) s := by
  have misses : (Statement.shorthands.map Prod.snd).findSome?
      (fun read => read (keyword.toList ++ ':' :: rest)) = none := by
    simp only [keywords, List.mem_cons, List.not_mem_nil, or_false] at mem
    rcases mem with rfl | rfl | rfl | rfl <;> rfl
  rw [← Statement.findSome?_shorthands_eq_some_iff, misses]
  simp

theorem toList_call (filled : words ≠ []) :
    (spaced ((keyword ++ ":") :: words)).toList =
      keyword.toList ++ ':' :: ' ' :: (spaced words).toList := by
  rw [toList_spaced_cons filled, String.toList_append, List.append_assoc]
  rfl

private theorem read?_call (mem : keyword ∈ keywords) (filled : words ≠ [])
    (solid : ∀ word ∈ words, IsSolid word) :
    Statement.read? (spaced ((keyword ++ ":") :: words)) = some (.call keyword words) := by
  have other : ∀ s, ¬ Shorthand (spaced ((keyword ++ ":") :: words)).toList s := by
    rw [toList_call filled]
    exact not_shorthand_of_colon mem _
  have plain : ∀ keyword ∈ keywords, ':' ∉ keyword.toList ∧ trimmed keyword = keyword := by decide
  have split : Text.words (' ' :: (spaced words).toList) = words.map String.toList :=
    (isPhrase_spaced filled solid).words_eq
  rw [Statement.read?_eq_of_no_shorthand other, Statement.readCall_eq_some_iff]
  refine ⟨keyword.toList, ' ' :: (spaced words).toList, (plain keyword mem).1,
    toList_call filled, ?_⟩
  rw [split, List.map_map, ← trimmed, (plain keyword mem).2]
  simp [Function.comp_def]

theorem isGap_single : RunOf isGap [' '] := by decide

theorem space_of_isGap (c : Char) (gap : isGap c = true) : Text.isSpace c = true := by
  simp only [isGap, Bool.or_eq_true, beq_iff_eq] at gap
  rcases gap with rfl | rfl <;> decide

theorem isGap_of_solid (c : Char) (solid : (!Text.isSpace c) = true) : isGap c = false := by
  cases gap : isGap c with
  | false => rfl
  | true =>
    rw [space_of_isGap c gap] at solid
    cases solid

theorem IsSolid.isWord {word : String} (solid : IsSolid word) : IsWord word.toList :=
  ⟨solid.filled, fun c mem => by simp [isGap_of_solid c (solid.all c mem)]⟩

theorem IsPhrase.isRest {s : List Char} (phrase : IsPhrase s words) : IsRest s where
  filled := phrase.ne_nil
  start c first := isGap_of_solid c (by simp [phrase.start c first])

private theorem shorthand_set (named : RunOf isNameChar n.toList) (filled : words ≠ [])
    (solid : ∀ word ∈ words, IsSolid word) :
    Shorthand (spaced ("set" :: n :: words)).toList (.assign n (spaced words)) := by
  have short := Shorthand.assign isGap_single named isGap_single
    (isPhrase_spaced filled solid).isRest
  rw [String.ofList_toList, String.ofList_toList] at short
  rw [toList_spaced_cons (by simp), toList_spaced_cons filled]
  exact short

private theorem shorthand_math (named : RunOf isNameChar n.toList) (op : MathOp) {w : String}
    (solid : IsSolid w) :
    Shorthand (spaced ["math", n, String.singleton op.symbol, w]).toList (.math n op w) := by
  have short := Shorthand.math op isGap_single named isGap_single isGap_single
    (IsPhrase.single solid).isRest
  rw [String.ofList_toList, String.ofList_toList] at short
  rw [toList_spaced_cons (by simp), toList_spaced_cons (by simp), toList_spaced_cons (by simp),
    spaced_singleton, String.toList_singleton]
  exact short

private theorem shorthand_random (named : RunOf isNameChar n.toList) {w w' : String}
    (solid : IsSolid w)
    (solid' : IsSolid w') :
    Shorthand (spaced ["random", n, w, w']).toList (.random n w w') := by
  have short := Shorthand.random isGap_single named isGap_single solid.isWord isGap_single
    solid'.isWord
  rw [String.ofList_toList, String.ofList_toList, String.ofList_toList] at short
  rw [toList_spaced_cons (by simp), toList_spaced_cons (by simp), toList_spaced_cons (by simp),
    spaced_singleton]
  exact short

private theorem shorthand_delay {w : String} (solid : IsSolid w) :
    Shorthand (spaced ["delay", w]).toList (.delay w) := by
  have short := Shorthand.delay isGap_single solid.isWord
  rw [String.ofList_toList] at short
  rw [toList_spaced_cons (by simp), spaced_singleton]
  exact short

end Reading

/-- Whether a line stands alone, without white space around it, and is read as the statement. -/
structure Statement.IsLine (s : Statement) (line : String) : Prop where
  single : linesOf line = [line]
  trimmed : trimmed line = line
  said : isIgnorable line = false
  reads : Statement.read? line = some s

section Lines

variable {keyword line line' : String} {words : List String} {s s' : Statement} {m : Machine}

theorem isSolid_keyword : ∀ keyword ∈ keywords, IsSolid keyword ∧ IsSolid (keyword ++ ":") := by
  decide

theorem isIgnorable_keyword (mem : keyword ∈ keywords) {rest : List Char}
    (split : line.toList = keyword.toList ++ rest) : isIgnorable line = false := by
  rw [isIgnorable, split]
  simp only [keywords, List.mem_cons, List.not_mem_nil, or_false] at mem
  rcases mem with rfl | rfl | rfl | rfl <;> rfl

private theorem isLine_shorthand (mem : keyword ∈ keywords) (filled : words ≠ [])
    (solid : ∀ word ∈ words, IsSolid word)
    (short : Shorthand (spaced (keyword :: words)).toList s) :
    s.IsLine (spaced (keyword :: words)) := by
  have all : ∀ word ∈ keyword :: words, IsSolid word :=
    List.forall_mem_cons.2 ⟨(isSolid_keyword keyword mem).1, solid⟩
  exact ⟨linesOf_spaced (by simp) all, trimmed_spaced (by simp) all,
    isIgnorable_keyword mem (toList_spaced_cons filled), Statement.read?_of_shorthand short⟩

private theorem isLine_call (mem : keyword ∈ keywords) (filled : words ≠ [])
    (solid : ∀ word ∈ words, IsSolid word) :
    (Statement.call keyword words).IsLine (spaced ((keyword ++ ":") :: words)) := by
  have all : ∀ word ∈ (keyword ++ ":") :: words, IsSolid word :=
    List.forall_mem_cons.2 ⟨(isSolid_keyword keyword mem).2, solid⟩
  exact ⟨linesOf_spaced (by simp) all, trimmed_spaced (by simp) all,
    isIgnorable_keyword mem (toList_call filled), read?_call mem filled solid⟩

namespace Statement.IsLine

private theorem runLine_skipped (h : s.IsLine line) (straight : s.isFlow = false)
    (nested : String → Script Value) (skipping : m.context.branches.isSkipping = true) :
    runLine nested line m = .ok () m :=
  runLine_skipped_straight nested ⟨line, by simp [h.trimmed, h.reads, straight]⟩ skipping

private theorem statement? (h : s.IsLine line) (running : m.context.branches.isSkipping = false) :
    m.statement? line = some s := by
  simp [Machine.statement?, h.trimmed, h.said, running, h.reads]

/-- Lines that say the same do the same, whether they are run or skipped. -/
theorem runLine_eq (h : s.IsLine line) (h' : s'.IsLine line') (straight : s.isFlow = false)
    (straight' : s'.isFlow = false) (nested : String → Script Value)
    (same : s.perform nested m = s'.perform nested m) :
    runLine nested line m = runLine nested line' m := by
  cases skipping : m.context.branches.isSkipping with
  | true =>
    rw [h.runLine_skipped straight nested skipping, h'.runLine_skipped straight' nested skipping]
  | false =>
    rw [runLine_of_statement? nested (h.statement? skipping),
      runLine_of_statement? nested (h'.statement? skipping), same]

/-- Scripts of one line are the same if the lines are the same once the time has been looked at. -/
theorem run_eq (h : s.IsLine line) (h' : s'.IsLine line')
    (same : ∀ nested, runLine nested line m.looked = runLine nested line' m.looked) :
    m.run line = m.run line' := by
  obtain ⟨depth, capacity⟩ := nestingCapacity_eq_succ
  rw [Machine.run_eq_runLines capacity, Machine.run_eq_runLines capacity, h.single, h'.single]
  have lines : runLines (run depth) [line] m = runLines (run depth) [line'] m := by
    cases inTime : checkTime m with
    | error e m₁ => rw [runLines_of_late _ inTime, runLines_of_late _ inTime]
    | ok u m₁ =>
      obtain ⟨-, rfl⟩ := checkTime_ok_iff.1 inTime
      cases going : m.looked.context.cancelled with
      | true => rw [runLines_of_cancelled _ inTime going, runLines_of_cancelled _ inTime going]
      | false => rw [runLines_cons _ inTime going, runLines_cons _ inTime going, same]
  rw [Machine.perform, lines, Machine.perform]

end Statement.IsLine

end Lines

/-- Whether all functions that engines start with are registered under their names. -/
def Machine.HasBuiltins (m : Machine) : Prop :=
  ∀ b : Builtin, m.functions.get? b.name = some (.builtin b)

/-- Whether a shorthand and a call are the same to a machine: both lines can be read as they stand,
what they say has the same value or error and leaves the same machine, and so does a script that
consists of the line. -/
structure Machine.SaysAlike (m : Machine) (short call : String) : Prop where
  trimmed : trimmed short = short ∧ trimmed call = call
  means : ∃ s function words, Statement.read short = .ok s ∧ (∀ f args, s ≠ .call f args) ∧
    Statement.read call = .ok (.call function words) ∧
    ∀ nested, s.perform nested m = (Statement.call function words).perform nested m
  runs : m.run short = m.run call

section Agreement

variable {m : Machine} {n w keyword : String} {words : List String} {s : Statement}

theorem Machine.HasBuiltins.perform_call (h : m.HasBuiltins) (b : Builtin) (words : List String)
    (nested : String → Script Value) :
    (Statement.call b.name words).perform nested m =
      b.call nested ((words.map m.context.resolve).map .string) m :=
  Statement.perform_of_called? m nested (Statement.called?_of_get? words (h b))

private theorem Machine.HasBuiltins.saysAlike (h : m.HasBuiltins) (mem : keyword ∈ keywords)
    (filled : words ≠ []) (solid : ∀ word ∈ words, IsSolid word)
    (short : Shorthand (spaced (keyword :: words)).toList s) (straight : s.isFlow = false)
    (agree : ∀ m : Machine, m.HasBuiltins → ∀ nested,
      s.perform nested m = (Statement.call keyword words).perform nested m) :
    m.SaysAlike (spaced (keyword :: words)) (spaced ((keyword ++ ":") :: words)) := by
  have line := isLine_shorthand mem filled solid short
  have line' := isLine_call mem filled solid
  refine ⟨⟨line.trimmed, line'.trimmed⟩, ⟨s, keyword, words, ?_, short.ne_call, ?_, agree m h⟩, ?_⟩
  · rw [Statement.read, line.reads]
  · rw [Statement.read, line'.reads]
  · -- looking at the time leaves the functions as they are
    exact line.run_eq line' fun nested =>
      line.runLine_eq line' straight rfl nested (agree m.looked h nested)

theorem resolve_name (named : RunOf isNameChar n.toList) (c : Context) : c.resolve n = n :=
  c.resolve_of_plain fun mem => absurd (named.all _ mem) (by decide)

theorem space_of_isNameChar (c : Char) (name : isNameChar c = true) : Text.isSpace c = false := by
  have ranges : (((decide (65 ≤ c.val ∧ c.val ≤ 90) ||
      (decide (97 ≤ c.val) && decide (c.val ≤ 122))) ||
      (decide (48 ≤ c.val) && decide (c.val ≤ 57))) || c == '_') = true := name
  have code : c.val.toNat = c.toNat := rfl
  simp only [Bool.or_eq_true, Bool.and_eq_true, decide_eq_true_eq, beq_iff_eq,
    UInt32.le_iff_toNat_le, code, UInt32.reduceToNat] at ranges
  simp only [Text.isSpace, Bool.or_eq_false_iff, Bool.and_eq_false_iff, decide_eq_false_iff_not,
    beq_eq_false_iff_ne]
  rcases ranges with ranges | rfl
  · omega
  · decide

private theorem isSolid_name (named : RunOf isNameChar n.toList) : IsSolid n :=
  ⟨named.filled, fun c mem => by simp [space_of_isNameChar c (named.all c mem)]⟩

private theorem isSolid_symbol (op : MathOp) : IsSolid (String.singleton op.symbol) := by
  cases op <;> decide

private theorem perform_set_eq (h : m.HasBuiltins) (named : RunOf isNameChar n.toList)
    (filled : words ≠ [])
    (parts : m.context.resolve (spaced words) = spaced (words.map m.context.resolve))
    (nested : String → Script Value) :
    (Statement.assign n (spaced words)).perform nested m =
      (Statement.call "set" (n :: words)).perform nested m := by
  refine Eq.trans ?_ (h.perform_call .assign (n :: words) nested).symm
  rw [Statement.perform, resolve_bind, parts, List.map_cons, resolve_name named]
  -- a single word is passed on as it is, and several are joined again
  cases words with
  | nil => exact absurd rfl filled
  | cons w words =>
    cases words with
    | nil =>
      rw [List.map_singleton, spaced_singleton]
      rfl
    | cons w' words =>
      rw [← Value.joined_strings]
      rfl

private theorem perform_math_eq (h : m.HasBuiltins) (named : RunOf isNameChar n.toList)
    (op : MathOp)
    (w : String) (nested : String → Script Value) :
    (Statement.math n op w).perform nested m =
      (Statement.call "math" [n, String.singleton op.symbol, w]).perform nested m := by
  have symbol : m.context.resolve (String.singleton op.symbol) = String.singleton op.symbol :=
    m.context.resolve_of_plain (by cases op <;> decide)
  have reads : MathOp.ofSymbol? (String.singleton op.symbol) = some op := by cases op <;> rfl
  refine Eq.trans ?_ (h.perform_call .math [n, String.singleton op.symbol, w] nested).symm
  rw [Statement.perform, resolve_bind]
  simp only [List.map_cons, resolve_name named, symbol, Builtin.call, Value.text, reads]

private theorem perform_random_eq (h : m.HasBuiltins) (named : RunOf isNameChar n.toList)
    (w w' : String)
    (nested : String → Script Value) :
    (Statement.random n w w').perform nested m =
      (Statement.call "random" [n, w, w']).perform nested m := by
  refine Eq.trans ?_ (h.perform_call .random [n, w, w'] nested).symm
  rw [Statement.perform, context_bind]
  simp only [List.map_cons, resolve_name named, Builtin.call, Value.text]

private theorem perform_delay_eq (h : m.HasBuiltins) (w : String) (nested : String → Script Value) :
    (Statement.delay w).perform nested m = (Statement.call "delay" [w]).perform nested m := by
  refine Eq.trans ?_ (h.perform_call .delay [w] nested).symm
  rw [Statement.perform, resolve_bind]
  simp only [List.map_cons, Builtin.call, Value.text]

end Agreement

/-- Wherever the functions of the engine are registered, a `set`, `math`, `random` or `delay` line
and the call that it abbreviates are the same, if all of its words are without white space. They are
read as different statements, which have the same value or error and leave the same machine; both
draw the same number. The value of a `set` line may have several words if all braces are closed
within their words. -/
theorem shorthands_agree_with_calls (m : Machine) (builtins : m.HasBuiltins) (n : String)
    (named : RunOf isNameChar n.toList) :
    (∀ w, IsSolid w → m.SaysAlike (spaced ["set", n, w]) (spaced ["set:", n, w])) ∧
    (∀ (op : MathOp) w, IsSolid w →
      m.SaysAlike (spaced ["math", n, String.singleton op.symbol, w])
        (spaced ["math:", n, String.singleton op.symbol, w])) ∧
    (∀ w w', IsSolid w → IsSolid w' →
      m.SaysAlike (spaced ["random", n, w, w']) (spaced ["random:", n, w, w'])) ∧
    (∀ w, IsSolid w → m.SaysAlike (spaced ["delay", w]) (spaced ["delay:", w])) ∧
    ∀ words : List String, 2 ≤ words.length →
      (∀ w ∈ words, IsSolid w ∧ Placeholder.IsClosed w.toList) →
      m.SaysAlike (spaced ("set" :: n :: words)) (spaced ("set:" :: n :: words)) := by
  have name := isSolid_name named
  refine ⟨fun w solid => ?_, fun op w solid => ?_, fun w w' solid solid' => ?_,
    fun w solid => ?_, fun words several closed => ?_⟩
  · have words : ∀ word ∈ [w], IsSolid word := by simpa using solid
    refine builtins.saysAlike (by decide) (by simp) (by simpa using ⟨name, solid⟩)
      (shorthand_set named (by simp) words) rfl fun m h => ?_
    refine perform_set_eq h named (by simp) ?_
    rw [List.map_singleton, spaced_singleton, spaced_singleton]
  · exact builtins.saysAlike (by decide) (by simp)
      (by simpa using ⟨name, isSolid_symbol op, solid⟩) (shorthand_math named op solid) rfl
      fun m h => perform_math_eq h named op w
  · exact builtins.saysAlike (by decide) (by simp) (by simpa using ⟨name, solid, solid'⟩)
      (shorthand_random named solid solid') rfl fun m h => perform_random_eq h named w w'
  · exact builtins.saysAlike (by decide) (by simp) (by simpa using solid) (shorthand_delay solid)
      rfl fun m h => perform_delay_eq h w
  · have filled : words ≠ [] := by
      rintro rfl
      simp at several
    have solid : ∀ word ∈ words, IsSolid word := fun word mem => (closed word mem).1
    refine builtins.saysAlike (by decide) (by simp) (List.forall_mem_cons.2 ⟨name, solid⟩)
      (shorthand_set named filled solid) rfl fun m h => ?_
    exact perform_set_eq h named filled
      (m.context.resolve_spaced fun word mem => (closed word mem).2)

theorem shorthands_agree_with_calls_greeting :
    soloStart.HasBuiltins ∧ RunOf isNameChar "greeting".toList ∧
      soloStart.run (spaced ["set", "greeting", "Hi:", "{player}!"]) =
        soloStart.run (spaced ["set:", "greeting", "Hi:", "{player}!"]) ∧
      soloStart.run (spaced ["random", "greeting", "\x7blow", "9"]) =
        soloStart.run (spaced ["random:", "greeting", "\x7blow", "9"]) := by
  have builtins : soloStart.HasBuiltins := FunctionTable.get?_builtins
  have named : RunOf isNameChar "greeting".toList := by decide
  obtain ⟨-, -, random, -, set⟩ := shorthands_agree_with_calls soloStart builtins "greeting" named
  exact ⟨builtins, named, (set ["Hi:", "{player}!"] (by decide) (by decide)).runs,
    (random "\x7blow" "9" (by decide) (by decide)).runs⟩

end MenuScript
