import MenuScript.Context
import Mathlib.Data.List.Infix
import Mathlib.Tactic.SplitIfs

/-!
# The placeholders of a text

A text is cut at its placeholders in one way only: each is found at the first opening brace, after
the one before, that is not closed at once and is closed later, and its name reaches to the next
closing brace. What is inserted for the names stands between the literal pieces as it is. So
resolving never reads its own output, leaves a text without opening braces alone, and can be done
part by part where no placeholder is left open at the joint.
-/

namespace MenuScript

namespace Placeholder

/-- Whether a placeholder starts at the beginning of the text: an opening brace that is not directly
followed by a closing one and has a closing one later. -/
def Starts (s : List Char) : Prop :=
  ∃ c rest, s = '\x7b' :: c :: rest ∧ c ≠ '\x7d' ∧ '\x7d' ∈ rest

/-- A name in braces and what follows it. -/
def braced (name rest : List Char) : List Char := '\x7b' :: (name ++ '\x7d' :: rest)

/-- What can be written between braces. -/
structure IsName (name : List Char) : Prop where
  filled : name ≠ []
  closed : '\x7d' ∉ name

/-- `Cut text tokens tail`: the text consists of the tokens, each a literal piece and the name of
the placeholder behind it, and of the literal piece `tail`. No placeholder starts within a literal
piece. -/
inductive Cut : List Char → List (List Char × List Char) → List Char → Prop
  | tail {literal : List Char} (plain : ∀ s, s <:+ literal → ¬ Starts s) : Cut literal [] literal
  | token {literal name rest tail : List Char} {tokens : List (List Char × List Char)}
      (first : ∀ s, s <:+ literal → s ≠ [] → ¬ Starts (s ++ braced name rest))
      (named : IsName name) (more : Cut rest tokens tail) :
      Cut (literal ++ braced name rest) ((literal, name) :: tokens) tail

/-- The literal pieces with the meanings of the names between them. -/
def filledIn (meaning : List Char → List Char) :
    List (List Char × List Char) → List Char → List Char
  | [], tail => tail
  | (literal, name) :: tokens, tail => literal ++ (meaning name ++ filledIn meaning tokens tail)

/-- Whether every opening brace of the text has a closing one after its next character. -/
def IsClosed (s : List Char) : Prop := ∀ after, '\x7b' :: after <:+ s → '\x7d' ∈ after.tail

instance (s : List Char) : Decidable (IsClosed s) :=
  decidable_of_iff (∀ t ∈ s.tails, t.head? = some '\x7b' → '\x7d' ∈ t.tail.tail) <| by
    constructor
    · intro all after suffix
      exact all _ ((List.mem_tails _ _).2 suffix) rfl
    · intro closed t mem opens
      obtain ⟨after, rfl⟩ := List.head?_eq_some_iff.1 opens
      exact closed after ((List.mem_tails _ _).1 mem)

section Scanning

variable {meaning : List Char → List Char} {s t literal name rest tail : List Char}
  {tokens : List (List Char × List Char)}

private theorem not_starts_nil : ¬ Starts [] := by
  rintro ⟨c, rest, empty, -⟩
  cases empty

theorem starts_braced (named : IsName name) : Starts (braced name rest) := by
  obtain ⟨c, name, rfl⟩ := List.exists_cons_of_ne_nil named.filled
  have other : c ≠ '\x7d' := fun same => named.closed (by simp [same])
  exact ⟨c, name ++ '\x7d' :: rest, rfl, other, by simp⟩

/-- Where a placeholder starts, it has a name. -/
theorem Starts.eq_braced (starts : Starts s) : ∃ name rest, IsName name ∧ s = braced name rest := by
  obtain ⟨c, text, rfl, other, later⟩ := starts
  obtain ⟨name, rest, rfl, closed⟩ := List.eq_append_cons_of_mem later
  exact ⟨c :: name, rest, ⟨by simp, by simp [closed, Ne.symm other]⟩, rfl⟩

theorem scan_some_append (name : List Char) (closed : '\x7d' ∉ name) (read rest : List Char) :
    scan meaning (some read) (name ++ rest) =
      scan meaning (some (name.reverse ++ read)) rest := by
  induction name generalizing read with
  | nil => rfl
  | cons c name ih =>
    simp only [List.mem_cons, not_or] at closed
    rw [List.cons_append, scan, if_neg (Ne.symm closed.1), ih closed.2]
    simp

theorem scan_braced (named : IsName name) :
    scan meaning none (braced name rest) = meaning name ++ scan meaning none rest := by
  rw [braced, scan, if_pos rfl, scan_some_append name named.closed, scan, if_pos rfl]
  simp [named.filled]

theorem scan_some_of_open (read : List Char) (unclosed : '\x7d' ∉ s) :
    scan meaning (some read) s = '\x7b' :: (read.reverse ++ s) := by
  have reads : scan meaning (some read) (s ++ []) = scan meaning (some (s.reverse ++ read)) [] :=
    scan_some_append s unclosed read []
  rw [List.append_nil] at reads
  simp [reads, scan]

private theorem scan_of_open (unclosed : '\x7d' ∉ s) : scan meaning none s = s := by
  induction s with
  | nil => rfl
  | cons c s ih =>
    simp only [List.mem_cons, not_or] at unclosed
    rw [scan]
    split_ifs with opens
    · rw [scan_some_of_open [] unclosed.2, opens]
      rfl
    · rw [ih unclosed.2]

/-- A character at which no placeholder starts is kept. -/
theorem scan_cons_of_not_starts {c : Char} (plain : ¬ Starts (c :: s)) :
    scan meaning none (c :: s) = c :: scan meaning none s := by
  by_cases opens : c = '\x7b'
  · subst opens
    cases s with
    | nil => rfl
    | cons d s =>
      by_cases empty : d = '\x7d'
      · subst empty
        rfl
      · have unclosed : '\x7d' ∉ s := fun later => plain ⟨d, s, rfl, empty, later⟩
        have unclosed' : '\x7d' ∉ d :: s := by simp [Ne.symm empty, unclosed]
        rw [scan, if_pos rfl, scan_some_of_open [] unclosed', scan_of_open unclosed']
        rfl
  · rw [scan, if_neg opens]

theorem scan_literal (plain : ∀ s, s <:+ literal → s ≠ [] → ¬ Starts (s ++ rest)) :
    scan meaning none (literal ++ rest) = literal ++ scan meaning none rest := by
  induction literal with
  | nil => rfl
  | cons c literal ih =>
    have here : ¬ Starts (c :: (literal ++ rest)) := plain _ List.suffix_rfl (by simp)
    rw [List.cons_append, scan_cons_of_not_starts here,
      ih fun s suffix => plain s (suffix.trans (List.suffix_cons c literal)), List.cons_append]

/-- Scanning fills in what the names mean and keeps the rest. -/
theorem Cut.scan_eq (cut : Cut s tokens tail) :
    scan meaning none s = filledIn meaning tokens tail := by
  induction cut with
  | @tail literal plain =>
    have kept : scan meaning none (literal ++ []) = literal ++ scan meaning none [] :=
      scan_literal fun s suffix _ => by simpa using plain s suffix
    simpa [scan, filledIn] using kept
  | token first named more ih => rw [scan_literal first, scan_braced named, ih, filledIn]

theorem scan_plain_append (plain : '\x7b' ∉ literal) :
    scan meaning none (literal ++ rest) = literal ++ scan meaning none rest := by
  refine scan_literal fun s suffix filled starts => ?_
  obtain ⟨c, s, rfl⟩ := List.exists_cons_of_ne_nil filled
  obtain ⟨d, after, opens, -⟩ := starts
  exact plain ((List.cons.inj opens).1 ▸ suffix.subset (by simp))

private theorem scan_of_plain (plain : '\x7b' ∉ s) : scan meaning none s = s := by
  have kept : scan meaning none (s ++ []) = s ++ scan meaning none [] := scan_plain_append plain
  simpa [scan] using kept

end Scanning

section Cutting

variable {s t literal name rest tail tail' : List Char}
  {tokens tokens' : List (List Char × List Char)}

private theorem Cut.cons {c : Char} (plain : ¬ Starts (c :: s)) (cut : Cut s tokens tail) :
    ∃ tokens tail, Cut (c :: s) tokens tail := by
  cases cut with
  | tail rest =>
    refine ⟨_, _, .tail fun t suffix => ?_⟩
    rcases List.suffix_cons_iff.1 suffix with rfl | suffix
    · exact plain
    · exact rest t suffix
  | @token literal name after tail tokens first named more =>
    have first' : ∀ t, t <:+ c :: literal → t ≠ [] → ¬ Starts (t ++ braced name after) := by
      intro t suffix filled
      rcases List.suffix_cons_iff.1 suffix with rfl | suffix
      · exact plain
      · exact first t suffix filled
    exact ⟨_, _, .token first' named more⟩

/-- Every text can be cut at its placeholders. -/
theorem exists_cut (s : List Char) : ∃ tokens tail, Cut s tokens tail := by
  -- on the length: behind a placeholder the text that is left is not the next shorter one
  induction length : s.length using Nat.strongRecOn generalizing s with
  | ind n ih =>
    subst length
    cases s with
    | nil =>
      refine ⟨[], [], .tail fun t suffix => ?_⟩
      rw [List.suffix_nil.1 suffix]
      exact not_starts_nil
    | cons c s =>
      by_cases starts : Starts (c :: s)
      · obtain ⟨name, rest, named, split⟩ := starts.eq_braced
        have shorter : rest.length < (c :: s).length := by
          rw [split, braced]
          simp
          omega
        obtain ⟨tokens, tail, cut⟩ := ih _ shorter rest rfl
        have first : ∀ t, t <:+ [] → t ≠ [] → ¬ Starts (t ++ braced name rest) :=
          fun t suffix filled => absurd (List.suffix_nil.1 suffix) filled
        rw [split]
        exact ⟨_, _, .token first named cut⟩
      · obtain ⟨tokens, tail, cut⟩ := ih _ (by simp) s rfl
        exact cut.cons starts

private theorem braced_inj {name' rest' : List Char} (named : IsName name) (named' : IsName name')
    (same : braced name rest = braced name' rest') : name = name' ∧ rest = rest' := by
  have inner : name ++ '\x7d' :: rest = name' ++ '\x7d' :: rest' := (List.cons.inj same).2
  rcases List.append_eq_append_iff.1 inner with ⟨more, rfl, behind⟩ | ⟨more, rfl, behind⟩
  · cases more with
    | nil => simpa using behind
    | cons d more =>
      rw [List.cons_append, List.cons.injEq] at behind
      exact absurd named'.closed (by simp [← behind.1])
  · cases more with
    | nil => simpa [eq_comm] using behind
    | cons d more =>
      rw [List.cons_append, List.cons.injEq] at behind
      exact absurd named.closed (by simp [← behind.1])

/-- The first placeholder of a text has one place and one name. -/
theorem token_unique {literal' name' rest' : List Char}
    (first : ∀ s, s <:+ literal → s ≠ [] → ¬ Starts (s ++ braced name rest)) (named : IsName name)
    (first' : ∀ s, s <:+ literal' → s ≠ [] → ¬ Starts (s ++ braced name' rest'))
    (named' : IsName name')
    (same : literal ++ braced name rest = literal' ++ braced name' rest') :
    literal = literal' ∧ name = name' ∧ rest = rest' := by
  rcases List.append_eq_append_iff.1 same with ⟨more, longer, inner⟩ | ⟨more, longer, inner⟩
  · have none : more = [] := by
      by_contra filled
      refine first' more (by simp [longer]) filled ?_
      rw [← inner]
      exact starts_braced named
    subst none
    exact ⟨by simpa using longer.symm, braced_inj named named' inner⟩
  · have none : more = [] := by
      by_contra filled
      refine first more (by simp [longer]) filled ?_
      rw [← inner]
      exact starts_braced named'
    subst none
    obtain ⟨sameName, sameRest⟩ := braced_inj named' named inner
    exact ⟨by simpa using longer, sameName.symm, sameRest.symm⟩

/-- A text can be cut in one way only. -/
theorem Cut.unique (cut : Cut s tokens tail) (cut' : Cut s tokens' tail') :
    tokens' = tokens ∧ tail' = tail := by
  induction cut generalizing tokens' tail' with
  | tail plain =>
    cases cut' with
    | tail => exact ⟨rfl, rfl⟩
    | token first named more =>
      exact absurd (starts_braced named) (plain _ (List.suffix_append _ _))
  | @token literal name rest tail tokens first named more ih =>
    generalize whole : literal ++ braced name rest = text at cut'
    cases cut' with
    | tail plain =>
      exact absurd (starts_braced named) (plain _ (whole ▸ List.suffix_append _ _))
    | token first' named' more' =>
      obtain ⟨rfl, rfl, rfl⟩ := token_unique first named first' named' whole
      obtain ⟨rfl, rfl⟩ := ih more'
      exact ⟨rfl, rfl⟩

end Cutting

section Joining

variable {meaning : List Char → List Char} {s t tail : List Char}
  {tokens : List (List Char × List Char)}

private theorem IsClosed.of_suffix (closed : IsClosed s) (suffix : t <:+ s) : IsClosed t :=
  fun after opens => closed after (opens.trans suffix)

/-- Where all braces are closed, no placeholder starts because of what follows. -/
theorem IsClosed.not_starts_append (closed : IsClosed s) (filled : s ≠ []) (plain : ¬ Starts s)
    (t : List Char) : ¬ Starts (s ++ t) := by
  rintro ⟨c, rest, split, other, -⟩
  obtain ⟨first, s, rfl⟩ := List.exists_cons_of_ne_nil filled
  rw [List.cons_append, List.cons.injEq] at split
  obtain ⟨rfl, split⟩ := split
  have later := closed s List.suffix_rfl
  cases s with
  | nil => simp at later
  | cons d s =>
    rw [List.cons_append, List.cons.injEq] at split
    exact plain ⟨d, s, rfl, split.1 ▸ other, later⟩

/-- Where all braces of the first of two texts are closed, they are scanned one by one. -/
theorem IsClosed.scan_append (closed : IsClosed s) (t : List Char) :
    scan meaning none (s ++ t) = scan meaning none s ++ scan meaning none t := by
  obtain ⟨tokens, tail, cut⟩ := exists_cut s
  rw [cut.scan_eq]
  induction cut with
  | tail plain =>
    refine scan_literal fun u suffix filled => ?_
    exact (closed.of_suffix suffix).not_starts_append filled (plain u suffix) t
  | @token literal name rest tail tokens first named more ih =>
    have behind : rest <:+ literal ++ braced name rest :=
      ⟨literal ++ '\x7b' :: (name ++ ['\x7d']), by simp [braced]⟩
    have later := ih (closed.of_suffix behind)
    have kept : scan meaning none (literal ++ braced name (rest ++ t)) =
        literal ++ scan meaning none (braced name (rest ++ t)) := by
      refine scan_literal fun u suffix filled => ?_
      have within : u ++ braced name rest <:+ literal ++ braced name rest := by
        obtain ⟨before, rfl⟩ := suffix
        exact ⟨before, by simp⟩
      have plain := (closed.of_suffix within).not_starts_append (by simp [filled])
        (first u suffix filled) t
      simpa [braced] using plain
    have joined : literal ++ braced name rest ++ t = literal ++ braced name (rest ++ t) := by
      simp [braced]
    rw [joined, kept, scan_braced named, later, filledIn]
    simp

end Joining

end Placeholder

/-- ASCII letters in lower case, everything else as it is. -/
def lowerCased (s : String) : String := String.ofList (s.toList.map Char.toLower)

namespace Context

/-- The names that stand for something of the acting player, in lower case. -/
def playerNames : List String := ["player", "uuid", "world"]

/-- `c.Means name text`: in the context, the name in braces stands for the text. -/
inductive Means (c : Context) (name : String) : String → Prop
  | player (same : lowerCased name = "player") : Means c name c.actor.name
  | uuid (same : lowerCased name = "uuid") : Means c name c.actor.uuid.text
  | world (same : lowerCased name = "world") : Means c name c.actor.world
  | held {value : Value} (free : lowerCased name ∉ playerNames)
      (bound : c.bindings.get? name = some value) : Means c name value.text
  | missing (free : lowerCased name ∉ playerNames) (unbound : c.bindings.get? name = none) :
      Means c name ""

variable {c c' : Context} {name : String}

private theorem sameText_iff {word : String} (mem : word ∈ playerNames) :
    sameText name word = true ↔ lowerCased name = word := by
  have lower : ∀ word ∈ playerNames, word.toList.map Char.toLower = word.toList := by decide
  rw [sameText, Text.sameLetters, lower word mem, beq_iff_eq, lowerCased, ← String.toList_inj,
    String.toList_ofList]

theorem means_meaning (c : Context) (name : String) : c.Means name (c.meaning name) := by
  have player : sameText name "player" = true ↔ _ := sameText_iff (by decide)
  have uuid : sameText name "uuid" = true ↔ _ := sameText_iff (by decide)
  have world : sameText name "world" = true ↔ _ := sameText_iff (by decide)
  simp only [meaning, player, uuid, world]
  split_ifs with player uuid world
  · exact .player player
  · exact .uuid uuid
  · exact .world world
  · have free : lowerCased name ∉ playerNames := by simp [playerNames, player, uuid, world]
    cases bound : c.bindings.get? name with
    | some value => exact .held free bound
    | none => exact .missing free bound

theorem Means.unique {text text' : String} (means : c.Means name text)
    (means' : c.Means name text') : text = text' := by
  cases means <;> cases means' <;> simp_all [playerNames]

/-- Variables with the names that stand for something of the player make no difference. -/
theorem Means.congr {text : String} (means : c.Means name text) (actor : c'.actor = c.actor)
    (bindings : ∀ name, lowerCased name ∉ playerNames →
      c'.bindings.get? name = c.bindings.get? name) : c'.Means name text := by
  cases means with
  | player same => exact actor ▸ .player same
  | uuid same => exact actor ▸ .uuid same
  | world same => exact actor ▸ .world same
  | held free bound => exact .held free ((bindings name free).trans bound)
  | missing free unbound => exact .missing free ((bindings name free).trans unbound)

theorem resolve_toList (c : Context) (text : String) :
    (c.resolve text).toList =
      Placeholder.scan (fun name => (c.meaning (String.ofList name)).toList) none text.toList := by
  rw [resolve, Placeholder.resolve, String.toList_ofList]

theorem resolve_of_plain (c : Context) {text : String} (plain : '\x7b' ∉ text.toList) :
    c.resolve text = text := by
  rw [← String.toList_inj, c.resolve_toList, Placeholder.scan_of_plain plain]

theorem resolve_append (c : Context) {text : String} (closed : Placeholder.IsClosed text.toList)
    (more : String) : c.resolve (text ++ more) = c.resolve text ++ c.resolve more := by
  rw [← String.toList_inj, String.toList_append, c.resolve_toList, c.resolve_toList,
    c.resolve_toList, String.toList_append, closed.scan_append]

end Context

/-- Resolving is substitution in a single pass from the left. The text has one cut at its
placeholders, and the result has the meanings of the names between the literal pieces. A name means
something of the acting player, or else the text of the variable, or nothing; variables that bear a
name of the first kind are never seen. A text without opening braces stays as it is, and a text
whose braces are closed is resolved apart from what follows it. -/
theorem resolve_substitutes_once (c : Context) (text : String) :
    (∃ tokens tail, Placeholder.Cut text.toList tokens tail ∧
      (∀ tokens' tail', Placeholder.Cut text.toList tokens' tail' →
        tokens' = tokens ∧ tail' = tail) ∧
      (c.resolve text).toList =
        Placeholder.filledIn (fun name => (c.meaning (String.ofList name)).toList) tokens tail) ∧
    (∀ name value, c.Means name value ↔ c.meaning name = value) ∧
    (∀ c' : Context, c'.actor = c.actor →
      (∀ name, lowerCased name ∉ Context.playerNames →
        c'.bindings.get? name = c.bindings.get? name) → c'.resolve text = c.resolve text) ∧
    ('\x7b' ∉ text.toList → c.resolve text = text) ∧
    ∀ more : String, Placeholder.IsClosed text.toList →
      c.resolve (text ++ more) = c.resolve text ++ c.resolve more := by
  refine ⟨?_, ?_, ?_, c.resolve_of_plain, fun more closed => c.resolve_append closed more⟩
  · obtain ⟨tokens, tail, cut⟩ := Placeholder.exists_cut text.toList
    refine ⟨tokens, tail, cut, fun _ _ => cut.unique, ?_⟩
    rw [c.resolve_toList, cut.scan_eq]
  · intro name value
    constructor
    · exact fun means => (c.means_meaning name).unique means
    · rintro rfl
      exact c.means_meaning name
  · intro c' actor bindings
    have same : c'.meaning = c.meaning := by
      funext name
      exact (c'.means_meaning name).unique ((c.means_meaning name).congr actor bindings)
    rw [Context.resolve, Context.resolve, same]

/-- A context with braces in a value and in a name, and a variable with the name of the world. -/
def bracedContext : Context where
  actor := { slot := 0, name := "Ann", uuid := ⟨0⟩, world := "nether" }
  bindings := Dictionary.ofList
    [("a", .string "\x7bb\x7d"), ("\x7bb", .string "\x7d"), ("World", .string "fake")]
  budget := { limit := 1, started := 0, timeLimit := none }

/-- A closed text with an empty pair of braces, a value that has braces, and a brace in a name. -/
def bracedText : String := "\x7b\x7d\x7ba\x7d\x7b\x7bb\x7dc\x7d {WORLD}"

theorem resolve_substitutes_once_braced :
    Placeholder.IsClosed bracedText.toList ∧
      bracedContext.resolve (bracedText ++ " \x7b") =
        "\x7b\x7d\x7bb\x7d\x7dc\x7d nether" ++ " \x7b" ∧
      ∃ tokens tail, Placeholder.Cut bracedText.toList tokens tail ∧
        Placeholder.filledIn (fun name => (bracedContext.meaning (String.ofList name)).toList)
          tokens tail = "\x7b\x7d\x7bb\x7d\x7dc\x7d nether".toList := by
  have closed : Placeholder.IsClosed bracedText.toList := by decide
  have first : bracedContext.resolve bracedText = "\x7b\x7d\x7bb\x7d\x7dc\x7d nether" := by
    decide +kernel
  have second : bracedContext.resolve " \x7b" = " \x7b" := by decide +kernel
  obtain ⟨⟨tokens, tail, cut, -, filled⟩, -, -, -, joined⟩ :=
    resolve_substitutes_once bracedContext bracedText
  refine ⟨closed, ?_, tokens, tail, cut, ?_⟩
  · rw [joined " \x7b" closed, first, second]
  · rw [← filled, first]

end MenuScript
