import MenuScript.Proofs.LineFaults

/-!
# Presentations have their effect or none

A presentation reads all of its arguments before anything is shown, and the player's stage accepts
the effect or refuses it as a whole. So a player whose stage is equipped receives one effect and no
message, or no effect and, unless a required argument is missing, one message that says why. The
context of the script is never touched.
-/

namespace MenuScript

open Script

/-- The kinds of numbers among the arguments of presentations. -/
inductive NumberKind where
  | whole
  | single
  | double
  deriving DecidableEq, Repr

namespace NumberKind

/-- Whether a text, without the white space around it, is a number of the kind. -/
def reads (text : String) : NumberKind → Bool
  | .whole => (Number.readInt32? (trimmed text)).isSome
  | .single => (Number.readFloat32? (trimmed text)).isSome
  | .double => (Number.readFloat? (trimmed text)).isSome

/-- Whether an argument that may be missing is a number of the kind if it is there. -/
def accepts (kind : NumberKind) (arg : Option Value) : Bool :=
  arg.all fun value => kind.reads value.text

end NumberKind

namespace Presentation

/-- The positions at which a presentation reads numbers, with their kinds. -/
def numbers : Presentation → List (Nat × NumberKind)
  | .sound => [(1, .single), (2, .single)]
  | .title | .subtitle => [(1, .whole), (2, .whole), (3, .whole)]
  | .particle => [(1, .whole), (2, .double), (3, .double), (4, .double)]
  | .heal => [(0, .double)]
  | .feed => [(0, .whole)]
  | .actionBar | .firework => []

/-- Whether there is nothing to present without an argument. -/
def needsArgument : Presentation → Bool
  | .sound | .title | .subtitle | .actionBar | .particle => true
  | .firework | .heal | .feed => false

/-- Whether every number among the arguments can be read. -/
def readsNumbers (p : Presentation) (args : List Value) : Bool :=
  p.numbers.all fun number => number.2.accepts args[number.1]?

/-- `p.Makes args e`: the effect is one that the presentation has with the arguments. -/
inductive Makes : Presentation → List Value → Effect → Prop
  | sound {id : Value} {rest : List Value} {volume pitch : Float32} :
      Makes .sound (id :: rest) (.sound id.text volume pitch)
  | title {text : Value} {rest : List Value} {timings : TitleTimings} :
      Makes .title (text :: rest) (.title text.text "" timings)
  | subtitle {text : Value} {rest : List Value} {timings : TitleTimings} :
      Makes .subtitle (text :: rest) (.title "" text.text timings)
  | actionBar {first : Value} {rest : List Value} :
      Makes .actionBar (first :: rest) (.actionBar (Value.joined (first :: rest)))
  | particle {id : Value} {rest : List Value} {count : Int32} {spread : Spread} :
      Makes .particle (id :: rest) (.particle id.text count spread)
  | firework {args : List Value} {colours : Burst} : Makes .firework args (.firework colours)
  | heal {args : List Value} {amount : Float} : Makes .heal args (.heal amount)
  | feed {args : List Value} {amount : Int32} : Makes .feed args (.feed amount)

/-- Whether an equipped stage knows what it is to show. -/
def isShowable (sounds particles : Option (List String)) (actionBar : Bool) (args : List Value) :
    Presentation → Bool
  | .sound => args.head?.all fun id => isKnown sounds id.text
  | .particle => args.head?.all fun id => isKnown particles id.text
  | .actionBar => actionBar
  | _ => true

end Presentation

section Arguments

variable {α β : Type} {p : Presentation} {args : List Value} {c : Burst} {e : Effect}

theorem isOk_bind {ε : Type} {x : Except ε α} {f : α → Except ε β} {first rest : Bool}
    (h : x.isOk = first) (h' : ∀ a, (f a).isOk = rest) : (x >>= f).isOk = (first && rest) := by
  cases x with
  | error r =>
    cases h
    rfl
  | ok a =>
    cases h
    exact h' a

theorem Presentation.argument_isOk (kind : NumberKind) (read? : String → Option α)
    (reads : ∀ text, (read? (trimmed text)).isSome = kind.reads text) (default : α)
    (arg : Option Value) : (p.argument read? default arg).isOk = kind.accepts arg := by
  cases arg with
  | none => rfl
  | some value =>
    rw [NumberKind.accepts, Option.all_some, ← reads, argument]
    cases read? (trimmed value.text) <;> rfl

theorem Presentation.wholeArgument_isOk (default : Int32) (arg : Option Value) :
    (p.argument Number.readInt32? default arg).isOk = NumberKind.whole.accepts arg :=
  argument_isOk .whole Number.readInt32? (fun _ => rfl) default arg

private theorem Presentation.singleArgument_isOk (default : Float32) (arg : Option Value) :
    (p.argument Number.readFloat32? default arg).isOk = NumberKind.single.accepts arg :=
  argument_isOk .single Number.readFloat32? (fun _ => rfl) default arg

private theorem Presentation.doubleArgument_isOk (default : Float) (arg : Option Value) :
    (p.argument Number.readFloat? default arg).isOk = NumberKind.double.accepts arg :=
  argument_isOk .double Number.readFloat? (fun _ => rfl) default arg

private theorem Presentation.timings_isOk :
    (p.timings args).isOk = [1, 2, 3].all fun i => NumberKind.whole.accepts args[i]? := by
  change _ = (_ && (_ && (_ && true)))
  exact isOk_bind (wholeArgument_isOk _ _) fun _ => isOk_bind (wholeArgument_isOk _ _) fun _ =>
    isOk_bind (wholeArgument_isOk _ _) fun _ => rfl

/-- The arguments are accepted if all numbers among them can be read. -/
theorem Presentation.effect?_isOk : (p.effect? c args).isOk = p.readsNumbers args := by
  rw [readsNumbers]
  -- the numbers are read one after another, in the order of the table
  cases args with
  | nil => cases p <;> rfl
  | cons first rest =>
    cases p with
    | sound =>
      simp only [effect?, numbers, List.all_cons, List.all_nil]
      exact isOk_bind (singleArgument_isOk _ _) fun _ =>
        isOk_bind (singleArgument_isOk _ _) fun _ => rfl
    | title =>
      simp only [effect?, numbers, List.all_cons, List.all_nil]
      exact (isOk_bind timings_isOk fun _ => rfl : _ = (_ && true)).trans (Bool.and_true _)
    | subtitle =>
      simp only [effect?, numbers, List.all_cons, List.all_nil]
      exact (isOk_bind timings_isOk fun _ => rfl : _ = (_ && true)).trans (Bool.and_true _)
    | actionBar => rfl
    | particle =>
      simp only [effect?, numbers, List.all_cons, List.all_nil]
      exact isOk_bind (wholeArgument_isOk _ _) fun _ =>
        isOk_bind (doubleArgument_isOk _ _) fun _ =>
          isOk_bind (doubleArgument_isOk _ _) fun _ =>
            isOk_bind (doubleArgument_isOk _ _) fun _ => rfl
    | firework => rfl
    | heal =>
      simp only [effect?, numbers, List.all_cons, List.all_nil]
      exact isOk_bind (doubleArgument_isOk _ _) fun _ => rfl
    | feed =>
      simp only [effect?, numbers, List.all_cons, List.all_nil]
      exact isOk_bind (wholeArgument_isOk _ _) fun _ => rfl

private theorem exists_of_bind_eq_ok {ε : Type} {x : Except ε α} {f : α → Except ε β} {b : β}
    (h : (x >>= f) = .ok b) : ∃ a, f a = .ok b := by
  cases x with
  | error r => cases h
  | ok a => exact ⟨a, h⟩

private theorem Presentation.effect?_nil (p : Presentation) (needs : p.needsArgument = true)
    (c : Burst) :
    p.effect? c [] = .ok none := by
  cases p with
  | firework | heal | feed => cases needs
  | _ => rfl

/-- Unless a required argument is missing, arguments that are accepted ask for an effect. -/
theorem Presentation.effect?_makes {made : Option Effect}
    (filled : p.needsArgument = true → args ≠ []) (accepted : p.effect? c args = .ok made) :
    ∃ e, made = some e ∧ p.Makes args e := by
  cases args with
  | nil =>
    cases p with
    | firework | heal | feed =>
      cases accepted
      exact ⟨_, rfl, by constructor⟩
    | _ => exact absurd rfl (filled rfl)
  | cons first rest =>
    cases p with
    | sound =>
      obtain ⟨volume, accepted⟩ := exists_of_bind_eq_ok accepted
      obtain ⟨pitch, accepted⟩ := exists_of_bind_eq_ok accepted
      cases accepted
      exact ⟨_, rfl, .sound⟩
    | title =>
      obtain ⟨timings, accepted⟩ := exists_of_bind_eq_ok accepted
      cases accepted
      exact ⟨_, rfl, .title⟩
    | subtitle =>
      obtain ⟨timings, accepted⟩ := exists_of_bind_eq_ok accepted
      cases accepted
      exact ⟨_, rfl, .subtitle⟩
    | actionBar =>
      cases accepted
      exact ⟨_, rfl, .actionBar⟩
    | particle =>
      obtain ⟨count, accepted⟩ := exists_of_bind_eq_ok accepted
      obtain ⟨x, accepted⟩ := exists_of_bind_eq_ok accepted
      obtain ⟨y, accepted⟩ := exists_of_bind_eq_ok accepted
      obtain ⟨z, accepted⟩ := exists_of_bind_eq_ok accepted
      cases accepted
      exact ⟨_, rfl, .particle⟩
    | firework =>
      cases accepted
      exact ⟨_, rfl, .firework⟩
    | heal =>
      obtain ⟨amount, accepted⟩ := exists_of_bind_eq_ok accepted
      cases accepted
      exact ⟨_, rfl, .heal⟩
    | feed =>
      obtain ⟨amount, accepted⟩ := exists_of_bind_eq_ok accepted
      cases accepted
      exact ⟨_, rfl, .feed⟩

/-- An equipped stage shows what is asked for as it is, or refuses it as a whole. -/
theorem Presentation.receive_equipped (sounds particles : Option (List String)) (actionBar : Bool)
    (makes : p.Makes args e) :
    ∃ r, (Stage.equipped sounds particles actionBar).receive e =
      if p.isShowable sounds particles actionBar args then .ok (some e) else .error r := by
  cases makes with
  | @sound id => exact ⟨.unknownSound id.text, rfl⟩
  | @particle id => exact ⟨.unknownParticle id.text, rfl⟩
  | actionBar => exact ⟨.unsupported .actionBar, rfl⟩
  | _ => exact ⟨.consoleDisabled, rfl⟩

end Arguments

section Colours

variable {α β : Type}

/-- The machine with other numbers left to draw. -/
def Machine.drawn (m : Machine) (chance : Chance) : Machine := m.served fun s => { s with chance }

/-- Whether a computation succeeds in every machine and does nothing but draw. -/
def OnlyDraws (x : Script α) : Prop := ∀ m, ∃ a chance, x m = .ok a (m.drawn chance)

theorem OnlyDraws.pure (a : α) : OnlyDraws (pure a : Script α) := fun m => ⟨a, m.server.chance, rfl⟩

theorem OnlyDraws.bind {x : Script α} {f : α → Script β} (hx : OnlyDraws x)
    (hf : ∀ a, OnlyDraws (f a)) : OnlyDraws (x >>= f) := by
  intro m
  obtain ⟨a, chance, first⟩ := hx m
  obtain ⟨b, chance', second⟩ := hf a (m.drawn chance)
  exact ⟨b, chance', (bind_of_ok m first).trans second⟩

/-- Without any other steps nothing else is done. -/
theorem OnlyDraws.of_composed {x : Script α} (composed : Composed [.draw] x) : OnlyDraws x := by
  induction composed with
  | pure a => exact .pure a
  | draw least greatest h => exact fun m => ⟨_, _, draw_apply m least greatest⟩
  | look y comes rest ih =>
    intro m
    obtain ⟨a, chance, drew⟩ := ih m.seen m
    exact ⟨a, chance, (comes m).trans drew⟩
  | bind first rest ih ih' => exact .bind ih ih'
  | _ => simp_all

private theorem colours_onlyDraws (p : Presentation) (args : List Value) :
    OnlyDraws (p.colours args) :=
  .of_composed (colours_composed (by simp) p args)

end Colours

section Calls

variable (sounds particles : Option (List String)) (actionBar : Bool)

/-- The ways in which a presentation can end for a player with an equipped stage. Once the colours
have been drawn, at most one event is recorded. -/
inductive Presentation.Ends (p : Presentation) (args : List Value) (m : Machine) :
    Bool → Machine → Prop
  | shown {e : Effect} (filled : p.needsArgument = true → args ≠ [])
      (read : p.readsNumbers args = true)
      (known : p.isShowable sounds particles actionBar args = true) (makes : p.Makes args e) :
      Ends p args m true (m.logged (.effect m.context.actor.slot e))
  | idle (needs : p.needsArgument = true) (empty : args = []) : Ends p args m false m
  | unread (text : String) (filled : p.needsArgument = true → args ≠ [])
      (unread : p.readsNumbers args = false) :
      Ends p args m false (m.logged (.message m.context.actor.slot text))
  | unknown (text : String) (filled : p.needsArgument = true → args ≠ [])
      (unknown : p.isShowable sounds particles actionBar args = false)
      (instead : p = .actionBar → text = Value.joined args) :
      Ends p args m false (m.logged (.message m.context.actor.slot text))

variable {sounds particles actionBar} {m : Machine}

private theorem Presentation.run_ends (p : Presentation) (args : List Value)
    (stage : m.context.actor.stage = .equipped sounds particles actionBar) :
    ∃ chance done m', p.run args m = .ok (.bool done) m' ∧
      p.Ends sounds particles actionBar args (m.drawn chance) done m' := by
  obtain ⟨c, chance, drew⟩ := colours_onlyDraws p args m
  refine ⟨chance, ?_⟩
  rw [run, bind_of_ok m drew]
  by_cases idle : p.needsArgument = true ∧ args = []
  · -- nothing is asked for, and nobody is told
    obtain ⟨needs, rfl⟩ := idle
    rw [p.effect?_nil needs c]
    exact ⟨false, _, rfl, .idle needs rfl⟩
  · have filled : p.needsArgument = true → args ≠ [] := fun needs empty => idle ⟨needs, empty⟩
    have reads : (p.effect? c args).isOk = p.readsNumbers args := effect?_isOk
    cases accepted : p.effect? c args with
    | error r =>
      rw [accepted] at reads
      exact ⟨false, _, rfl, .unread r.message filled reads.symm⟩
    | ok made =>
      rw [accepted] at reads
      obtain ⟨e, rfl, makes⟩ := effect?_makes filled accepted
      obtain ⟨r, received⟩ := receive_equipped sounds particles actionBar makes
      have actor : (m.drawn chance).context.actor = m.context.actor := rfl
      cases known : p.isShowable sounds particles actionBar args with
      | true =>
        rw [known, if_pos rfl] at received
        simp only [context_bind, actor, stage, received]
        exact ⟨true, _, rfl, .shown filled reads.symm known makes⟩
      | false =>
        rw [known, if_neg Bool.false_ne_true] at received
        simp only [context_bind, actor, stage, received]
        refine ⟨false, _, rfl, .unknown (excuse e r) filled known ?_⟩
        rintro rfl
        cases makes
        rfl

end Calls

namespace Machine

/-- The effects that the acting player has received. -/
def ownEffects (m : Machine) : List Effect := m.server.log.effects m.context.actor.slot

/-- The messages that the acting player has received. -/
def ownMessages (m : Machine) : List String := m.server.log.messages m.context.actor.slot

variable (m : Machine) (e : Effect) (text : String)

@[simp] theorem ownEffects_logged_effect :
    (m.logged (.effect m.context.actor.slot e)).ownEffects = m.ownEffects ++ [e] := by
  change EventLog.effects (m.server.log.push _) m.context.actor.slot = _
  simp [ownEffects, EventLog.effects]

@[simp] theorem ownMessages_logged_effect :
    (m.logged (.effect m.context.actor.slot e)).ownMessages = m.ownMessages := by
  change EventLog.messages (m.server.log.push _) m.context.actor.slot = _
  simp [ownMessages, EventLog.messages]

@[simp] theorem ownEffects_logged_message :
    (m.logged (.message m.context.actor.slot text)).ownEffects = m.ownEffects := by
  change EventLog.effects (m.server.log.push _) m.context.actor.slot = _
  simp [ownEffects, EventLog.effects]

@[simp] theorem ownMessages_logged_message :
    (m.logged (.message m.context.actor.slot text)).ownMessages = m.ownMessages ++ [text] := by
  change EventLog.messages (m.server.log.push _) m.context.actor.slot = _
  simp [ownMessages, EventLog.messages]

/-- What a call of a presentation comes to, for a player with the stage
`.equipped sounds particles actionBar`. -/
structure Presents (m : Machine) (sounds particles : Option (List String)) (actionBar : Bool)
    (p : Presentation) (args : List Value) (done : Bool) (m' : Machine) : Prop where
  context : m'.context = m.context
  shown : done = true ↔ ∃ e, m'.ownEffects = m.ownEffects ++ [e]
  made : ∀ e, m'.ownEffects = m.ownEffects ++ [e] → p.Makes args e
  silent : done = true → m'.ownMessages = m.ownMessages
  unseen : done = false → m'.ownEffects = m.ownEffects
  idle : done = false → p.needsArgument = true → args = [] → m'.ownMessages = m.ownMessages
  told : done = false → (p.needsArgument = true → args ≠ []) →
    ∃ text, m'.ownMessages = m.ownMessages ++ [text]
  instead : p = .actionBar → actionBar = false → args ≠ [] →
    done = false ∧ m'.ownMessages = m.ownMessages ++ [Value.joined args]
  unread : ∀ i kind value, (i, kind) ∈ p.numbers → args[i]? = some value →
    kind.reads value.text = false → done = false
  granted : done = true ↔ (p.needsArgument = true → args ≠ []) ∧ p.readsNumbers args = true ∧
    p.isShowable sounds particles actionBar args = true
  alone : m'.server.log = m.server.log ∨ ∃ e, m'.server.log = m.server.log.push e

end Machine

namespace Presentation.Ends

variable {sounds particles : Option (List String)} {actionBar done : Bool} {p : Presentation}
  {args : List Value} {m m' : Machine}

private theorem done_iff (ends : p.Ends sounds particles actionBar args m done m') :
    done = true ↔ (p.needsArgument = true → args ≠ []) ∧ p.readsNumbers args = true ∧
      p.isShowable sounds particles actionBar args = true := by
  cases ends with
  | shown filled read known makes => exact iff_of_true rfl ⟨filled, read, known⟩
  | idle needs empty => exact iff_of_false Bool.false_ne_true fun h => h.1 needs empty
  | unread text filled unread => simp [unread]
  | unknown text filled unknown instead => simp [unknown]

private theorem instead (ends : p.Ends sounds particles actionBar args m done m')
    (bar : p = .actionBar)
    (unsupported : actionBar = false) (filled : args ≠ []) :
    done = false ∧ m'.ownMessages = m.ownMessages ++ [Value.joined args] := by
  subst bar unsupported
  cases ends with
  | shown _ _ known _ => cases known
  | idle _ empty => exact absurd empty filled
  | unread text _ unread => cases unread
  | unknown text _ _ instead => exact ⟨rfl, by simp [instead rfl]⟩

private theorem received (ends : p.Ends sounds particles actionBar args m done m') :
    (done = true ∧ m'.ownMessages = m.ownMessages ∧
        ∃ e, p.Makes args e ∧ m'.ownEffects = m.ownEffects ++ [e]) ∨
      (done = false ∧ m'.ownEffects = m.ownEffects) := by
  cases ends with
  | shown filled read known makes =>
    exact Or.inl ⟨rfl, m.ownMessages_logged_effect _, _, makes, m.ownEffects_logged_effect _⟩
  | idle => exact Or.inr ⟨rfl, rfl⟩
  | unread text => exact Or.inr ⟨rfl, m.ownEffects_logged_message text⟩
  | unknown text => exact Or.inr ⟨rfl, m.ownEffects_logged_message text⟩

private theorem messages_of_idle (ends : p.Ends sounds particles actionBar args m done m')
    (needs : p.needsArgument = true) (empty : args = []) : m'.ownMessages = m.ownMessages := by
  cases ends with
  | idle => rfl
  | shown filled | unread _ filled | unknown _ filled => exact absurd empty (filled needs)

private theorem messages_of_failed (ends : p.Ends sounds particles actionBar args m false m')
    (filled : p.needsArgument = true → args ≠ []) :
    ∃ text, m'.ownMessages = m.ownMessages ++ [text] := by
  cases ends with
  | idle needs empty => exact absurd empty (filled needs)
  | unread text | unknown text => exact ⟨text, m.ownMessages_logged_message text⟩

private theorem log_eq (ends : p.Ends sounds particles actionBar args m done m') :
    m'.server.log = m.server.log ∨ ∃ e, m'.server.log = m.server.log.push e := by
  cases ends with
  | idle => exact Or.inl rfl
  | shown | unread | unknown => exact Or.inr ⟨_, rfl⟩

private theorem context_eq (ends : p.Ends sounds particles actionBar args m done m') :
    m'.context = m.context := by
  cases ends <;> rfl

/-- What has been drawn before is no part of what the player receives. -/
theorem presents {chance : Chance}
    (ends : p.Ends sounds particles actionBar args (m.drawn chance) done m') :
    m.Presents sounds particles actionBar p args done m' := by
  have effects : (m.drawn chance).ownEffects = m.ownEffects := rfl
  have messages : (m.drawn chance).ownMessages = m.ownMessages := rfl
  have received := ends.received
  rw [effects, messages] at received
  have granted := ends.done_iff
  refine ⟨ends.context_eq, ?_, ?_, ?_, ?_, fun _ => ends.messages_of_idle, ?_, ends.instead, ?_,
    granted, ends.log_eq⟩
  · rcases received with ⟨rfl, -, e, -, added⟩ | ⟨rfl, same⟩
    · exact iff_of_true rfl ⟨e, added⟩
    · simp [same]
  · intro e added
    rcases received with ⟨-, -, e', makes, added'⟩ | ⟨-, same⟩
    · obtain rfl : e' = e := by simpa [added'] using added
      exact makes
    · simp [same] at added
  · intro shown
    rcases received with ⟨-, same, -⟩ | ⟨rfl, -⟩
    · exact same
    · cases shown
  · intro failed
    rcases received with ⟨rfl, -⟩ | ⟨-, same⟩
    · cases failed
    · exact same
  · rintro rfl filled
    exact ends.messages_of_failed filled
  · intro i kind value mem given unread
    have unread : p.readsNumbers args = false := by
      rw [readsNumbers, List.all_eq_false]
      exact ⟨(i, kind), mem, by simp [NumberKind.accepts, given, unread]⟩
    rw [unread] at granted
    simpa using granted

end Presentation.Ends

/-- A presentation that is called for a player with an equipped stage, with any arguments, never
ends the script and never touches its context. It is true exactly if one effect was added to what
the player has received, and then no message was. If it is false there is no effect, and one message
unless a required argument is missing; a text for an action bar that is not there is that message.
A number that cannot be read makes it false at every position. -/
theorem presentations_all_or_nothing (m : Machine) (sounds particles : Option (List String))
    (actionBar : Bool) (stage : m.context.actor.stage = .equipped sounds particles actionBar)
    (nested : String → Script Value) (p : Presentation) (args : List Value) :
    ∃ done m', (Callable.builtin (.present p)).call nested args m = .ok (.bool done) m' ∧
      m.Presents sounds particles actionBar p args done m' := by
  obtain ⟨chance, done, m', ran, ends⟩ := p.run_ends args stage
  exact ⟨done, m', ran, ends.presents⟩

/-- A player who can hear one sound only. -/
def soloListener : Actor where
  slot := 0
  name := "Ann"
  uuid := ⟨0⟩
  stage := .equipped (some ["LEVEL_UP"]) none false

def soloStart : Machine := ({} : Engine).machine soloListener Dictionary.empty

theorem presentations_all_or_nothing_loud :
    soloStart.context.actor.stage = .equipped (some ["LEVEL_UP"]) none false ∧
      ∃ m', (Callable.builtin (.present .sound)).call (run nestingCapacity)
          [.string "level_up", .string "loud"] soloStart = .ok (.bool false) m' ∧
        m'.ownEffects = soloStart.ownEffects ∧
        ∃ text, m'.ownMessages = soloStart.ownMessages ++ [text] := by
  obtain ⟨done, m', called, presents⟩ := presentations_all_or_nothing soloStart
    (some ["LEVEL_UP"]) none false rfl (run nestingCapacity) .sound
    [.string "level_up", .string "loud"]
  have unread : NumberKind.single.reads "loud" = false := by decide +kernel
  obtain rfl : done = false :=
    presents.unread 1 .single (.string "loud") (List.mem_cons_self ..) rfl unread
  exact ⟨rfl, m', called, presents.unseen rfl, presents.told rfl fun _ => List.cons_ne_nil _ _⟩

end MenuScript
