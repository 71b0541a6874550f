import MenuScript.Proofs.HostSessions

/-!
# The files of a script library

The scripts of a directory are asked for by name, and a name can be any text that a script puts
together. A name that is accepted has no separator, so what is added to the path of the directory is
one further part of it, and that part neither stays nor goes up. Following the path therefore ends
in the directory itself, at an entry of its own for every name, and nothing else is ever read.
-/

namespace MenuScript

namespace FileTree

section Parts

variable {current s t : List Char}

private theorem partsFrom_append_slash (current s t : List Char) :
    partsFrom current (s ++ '/' :: t) = partsFrom current s ++ partsFrom [] t := by
  induction s generalizing current with
  | nil => simp [partsFrom]
  | cons c s ih =>
    rw [List.cons_append, partsFrom, partsFrom]
    split_ifs
    · rw [ih, List.cons_append]
    · exact ih (c :: current)

private theorem partsFrom_of_single (single : '/' ∉ s) :
    partsFrom current s = [String.ofList (current.reverse ++ s)] := by
  induction s generalizing current with
  | nil => simp [partsFrom]
  | cons c s ih =>
    simp only [List.mem_cons, not_or] at single
    rw [partsFrom, if_neg (Ne.symm single.1), ih single.2]
    simp

end Parts

section Following

variable {t : FileTree} {way first : List String} {part : String} {place : Place}

private theorem turn_of_name (named : part ∉ ["", ".", ".."]) : turn way part = way ++ [part] := by
  simp only [List.mem_cons, List.not_mem_nil, or_false, not_or] at named
  rw [turn, if_neg (by simp [named]), if_neg named.2.2]

private theorem at?_of_follow (found : t.follow way first = .ok place) :
    t.at? (first.foldl turn way) = some place := by
  induction first generalizing way with
  | nil =>
    rw [follow] at found
    cases stands : t.at? way with
    | none => simp [stands] at found
    | some p => simpa [stands] using found
  | cons part rest ih =>
    rw [follow] at found
    split at found
    · cases found
    · cases found
    · cases found
    · split_ifs at found
      exact ih found

/-- A path ends at the last part of it exactly if what comes before leads to a directory, in which
the part stands for the place. -/
theorem follow_concat_iff :
    t.follow way (first ++ [part]) = .ok place ↔
      t.follow way first = .ok .directory ∧ part.utf8ByteSize ≤ longestName ∧
        t.at? (turn (first.foldl turn way) part) = some place := by
  induction first generalizing way with
  | nil =>
    rw [List.nil_append, List.foldl_nil, follow, follow]
    cases stands : t.at? way with
    | none => simp
    | some p =>
      cases p with
      | file content => simp
      | locked => simp
      | directory =>
        simp only [true_and]
        split_ifs with long
        · simp [Nat.not_le.2 long]
        · rw [follow]
          cases ends : t.at? (turn way part) <;> simp [Nat.not_lt.1 long]
  | cons next rest ih =>
    rw [List.cons_append, List.foldl_cons, follow, follow]
    cases t.at? way with
    | none => simp
    | some p =>
      cases p with
      | file content => simp
      | locked => simp
      | directory =>
        simp only
        split_ifs
        · simp
        · exact ih

private theorem find_eq_ok_iff {path : String} :
    t.find path = .ok place ↔ '\x00' ∉ path.toList ∧ path.utf8ByteSize < longestPath ∧
      t.follow (t.start path) (parts path) = .ok place := by
  rw [find]
  split_ifs with zero long
  · simp only [List.contains_iff_mem] at zero
    simp [zero]
  · simp [Nat.not_lt.2 long]
  · simp only [List.contains_iff_mem] at zero
    simp [zero, Nat.not_le.1 long]

end Following

end FileTree

private theorem fromUTF8?_eq_some_iff {content : ByteArray} {text : String} :
    String.fromUTF8? content = some text ↔ content = text.toUTF8 := by
  rw [String.fromUTF8?]
  split
  · rw [Option.some.injEq]
    constructor
    · rintro rfl
      rfl
    · rintro rfl
      rfl
  · rename_i invalid
    simp only [false_iff, reduceCtorEq]
    rintro rfl
    exact invalid text.isValidUTF8

namespace ScriptLibrary

/-- A name that is refused: it is empty, or has a separator or two dots in a row. -/
def IsRefused (name : String) : Prop :=
  name = "" ∨ '/' ∈ name.toList ∨ '\\' ∈ name.toList ∨ ['.', '.'] <:+: name.toList

section Names

variable {name other root file : String}

private theorem hasDoubleDot_iff {s : List Char} : hasDoubleDot s = true ↔ ['.', '.'] <:+: s := by
  induction s with
  | nil => simp [hasDoubleDot]
  | cons c s ih =>
    rw [hasDoubleDot, List.infix_cons_iff, ← ih, Bool.or_eq_true]
    refine or_congr_left ?_
    cases s with
    | nil => simp
    | cons d s =>
      simp only [Bool.and_eq_true, beq_iff_eq, List.head?_cons, Option.some.injEq,
        List.cons_prefix_cons, List.nil_prefix, and_true]
      exact and_congr eq_comm eq_comm

theorem isSafeName_eq_false_iff : isSafeName name = false ↔ IsRefused name := by
  have empty : name.toList = [] ↔ name = "" := by simp
  rw [IsRefused, ← hasDoubleDot_iff, ← empty, isSafeName]
  simp only [Bool.and_eq_false_iff, Bool.not_eq_false', List.isEmpty_iff, List.contains_iff_mem,
    or_assoc]

theorem pathFor?_eq_none_iff : pathFor? root name = none ↔ IsRefused name := by
  rw [← isSafeName_eq_false_iff, pathFor?]
  cases isSafeName name <;> simp

theorem pathFor?_of_accepted (accepted : ¬ IsRefused name) :
    pathFor? root name = some (joinPath root (fileName name)) := by
  rw [← isSafeName_eq_false_iff, Bool.not_eq_false] at accepted
  rw [pathFor?, if_pos accepted]

theorem toList_fileName (name : String) :
    (fileName name).toList = name.toList ++ ".script".toList := String.toList_append

theorem fileName_injective : Function.Injective fileName := by
  intro name other same
  exact (String.append_left_inj ".script").1 same

/-- A file name of a script is a name: it does not stay where it is, and it does not go up. -/
theorem fileName_not_step (name : String) : fileName name ∉ ["", ".", ".."] := by
  intro mem
  have short : (fileName name).toList.length ≤ 2 := by
    simp only [List.mem_cons, List.not_mem_nil, or_false] at mem
    rcases mem with same | same | same <;> simp [same]
  rw [toList_fileName, List.length_append] at short
  have long : ".script".toList.length = 7 := by decide
  omega

theorem slash_not_mem_fileName (accepted : ¬ IsRefused name) : '/' ∉ (fileName name).toList := by
  rw [toList_fileName, List.mem_append]
  rintro (mem | mem)
  · exact accepted (Or.inr (Or.inl mem))
  · exact absurd mem (by decide)

/-- A path that a single part is joined to has that part at its end. The path itself may have
ended in an empty one. -/
theorem exists_parts_joinPath (root : String) (single : '/' ∉ file.toList) :
    ∃ front, (FileTree.parts root = front ∨ FileTree.parts root = front ++ [""]) ∧
      FileTree.parts (joinPath root file) = front ++ [file] := by
  have last : FileTree.partsFrom [] file.toList = [file] := by
    rw [FileTree.partsFrom_of_single single]
    simp
  rw [joinPath]
  split_ifs with closed
  · rcases closed with rfl | ends
    · refine ⟨[], Or.inr rfl, ?_⟩
      rw [String.empty_append]
      exact last
    · obtain ⟨front, split⟩ := List.getLast?_eq_some_iff.1 ends
      refine ⟨FileTree.partsFrom [] front, Or.inr ?_, ?_⟩
      · rw [FileTree.parts, split, FileTree.partsFrom_append_slash]
        rfl
      · rw [FileTree.parts, String.toList_append, split, List.append_assoc, List.singleton_append,
          FileTree.partsFrom_append_slash, last]
  · refine ⟨FileTree.parts root, Or.inl rfl, ?_⟩
    have chars : (root ++ "/" ++ file).toList = root.toList ++ '/' :: file.toList := by
      simp [String.toList_append]
    rw [FileTree.parts, chars, FileTree.partsFrom_append_slash, last]
    rfl

theorem start_joinPath (t : FileTree) (single : '/' ∉ file.toList) :
    t.start (joinPath root file) = t.start root := by
  have first : file.toList.head? ≠ some '/' := fun head => single (List.mem_of_head? head)
  by_cases empty : root = ""
  · simp [FileTree.start, joinPath, empty, first]
  · have filled : root.toList ≠ [] := by simpa using empty
    obtain ⟨c, rest, chars⟩ := List.exists_cons_of_ne_nil filled
    simp only [FileTree.start, joinPath, empty, false_or]
    split_ifs <;> simp_all [String.toList_append]

end Names

section Loading

variable {files : FileTree} {name root file text : String} {front : List String}

/-- The way of a joined path goes to the directory and from there to the entry of that name. -/
theorem wayTo_joinPath (files : FileTree) (root : String) (single : '/' ∉ file.toList)
    (named : file ∉ ["", ".", ".."]) :
    files.wayTo (joinPath root file) = files.wayTo root ++ [file] := by
  obtain ⟨front, whole, parts⟩ := exists_parts_joinPath root single
  have same : (FileTree.parts root).foldl FileTree.turn (files.start root) =
      front.foldl FileTree.turn (files.start root) := by
    rcases whole with whole | whole
    · rw [whole]
    · rw [whole, List.foldl_append]
      rfl
  rw [FileTree.wayTo, FileTree.wayTo, parts, start_joinPath files single, List.foldl_append, same]
  exact FileTree.turn_of_name named

private theorem follow_parts_iff
    (whole : FileTree.parts root = front ∨ FileTree.parts root = front ++ [""])
    (way : List String) :
    files.follow way (FileTree.parts root) = .ok .directory ↔
      files.follow way front = .ok .directory := by
  rcases whole with whole | whole
  · rw [whole]
  · rw [whole, FileTree.follow_concat_iff]
    constructor
    · exact And.left
    · intro found
      exact ⟨found, by decide, FileTree.at?_of_follow found⟩

private theorem zero_not_mem_joinPath :
    '\x00' ∉ (joinPath root file).toList ↔ '\x00' ∉ root.toList ∧ '\x00' ∉ file.toList := by
  rw [joinPath]
  split_ifs <;> simp [String.toList_append]

private theorem utf8ByteSize_le_joinPath :
    root.utf8ByteSize ≤ (joinPath root file).utf8ByteSize := by
  rw [joinPath]
  split_ifs <;> simp only [String.utf8ByteSize_append] <;> omega

/-- The directory can be come to, and the name and the whole path are within the bounds that the
system sets. -/
structure Admits (files : FileTree) (root file : String) : Prop where
  directory : files.find root = .ok .directory
  unzeroed : '\x00' ∉ file.toList
  short : file.utf8ByteSize ≤ FileTree.longestName
  near : (joinPath root file).utf8ByteSize < FileTree.longestPath

private theorem find_joinPath_iff (single : '/' ∉ file.toList) (named : file ∉ ["", ".", ".."])
    {place : FileTree.Place} :
    files.find (joinPath root file) = .ok place ↔
      Admits files root file ∧ files.at? (files.wayTo root ++ [file]) = some place := by
  obtain ⟨front, whole, parts⟩ := exists_parts_joinPath root single
  have way : FileTree.turn (front.foldl FileTree.turn (files.start root)) file =
      files.wayTo root ++ [file] := by
    have joined := wayTo_joinPath files root single named
    rwa [FileTree.wayTo, parts, start_joinPath files single, List.foldl_append] at joined
  rw [FileTree.find_eq_ok_iff, parts, start_joinPath files single, FileTree.follow_concat_iff, way,
    zero_not_mem_joinPath]
  constructor
  · rintro ⟨⟨unzeroed, unzeroed'⟩, near, found, short, stands⟩
    refine ⟨⟨FileTree.find_eq_ok_iff.2 ⟨unzeroed, ?_, ?_⟩, unzeroed', short, near⟩, stands⟩
    · exact Nat.lt_of_le_of_lt utf8ByteSize_le_joinPath near
    · exact (follow_parts_iff whole _).2 found
  · rintro ⟨⟨directory, unzeroed', short, near⟩, stands⟩
    obtain ⟨unzeroed, -, found⟩ := FileTree.find_eq_ok_iff.1 directory
    exact ⟨⟨unzeroed, unzeroed'⟩, near, (follow_parts_iff whole _).1 found, short, stands⟩

private theorem readText_toOption_iff {path : String} :
    (files.readText path).toOption = some text ↔
      files.find path = .ok (.file text.toUTF8) := by
  rw [FileTree.readText]
  cases files.find path with
  | error fault => simp [Except.toOption]
  | ok place =>
    cases place with
    | directory => simp [Except.toOption]
    | locked => simp [Except.toOption]
    | file content =>
      simp only [Except.ok.injEq, FileTree.Place.file.injEq, ← fromUTF8?_eq_some_iff]
      cases String.fromUTF8? content <;> simp [Except.toOption]

theorem load?_of_refused (refused : IsRefused name) : (folder files root).load? name = none := by
  rw [load?, pathFor?_eq_none_iff.2 refused]

theorem load?_of_accepted (accepted : ¬ IsRefused name) :
    (folder files root).load? name = (files.readText (joinPath root (fileName name))).toOption := by
  rw [load?, pathFor?_of_accepted accepted]

/-- A script of a directory is the whole text of the file that is found at its path. -/
theorem load?_eq_some_iff (accepted : ¬ IsRefused name) :
    (folder files root).load? name = some text ↔
      files.find (joinPath root (fileName name)) = .ok (.file text.toUTF8) := by
  rw [load?_of_accepted accepted, readText_toOption_iff]

/-- The path of a script is found in the directory, at the entry of that name. -/
theorem find_fileName_iff (accepted : ¬ IsRefused name) {place : FileTree.Place} :
    files.find (joinPath root (fileName name)) = .ok place ↔
      Admits files root (fileName name) ∧
        files.at? (files.wayTo root ++ [fileName name]) = some place :=
  find_joinPath_iff (slash_not_mem_fileName accepted) (fileName_not_step name)

/-- The source is the whole text of a file in the directory `root` that has the name of a script. -/
def Keeps (files : FileTree) (root source : String) : Prop :=
  ∃ name, '/' ∉ (fileName name).toList ∧
    files.at? (files.wayTo root ++ [fileName name]) = some (.file source.toUTF8)

theorem keeps_of_load? (loaded : (folder files root).load? name = some text) :
    Keeps files root text := by
  by_cases refused : IsRefused name
  · rw [load?_of_refused refused] at loaded
    cases loaded
  · have found := (load?_eq_some_iff refused).1 loaded
    exact ⟨name, slash_not_mem_fileName refused, ((find_fileName_iff refused).1 found).2⟩

end Loading

end ScriptLibrary

open ScriptLibrary

section Runs

variable {files : FileTree} {root : String} {m : Machine}

/-- Every line that a run gets to stands in its own source or in a script of the directory. -/
theorem Arrives.line_kept {depth : Nat} {lines : List String} {s : LineStart}
    (arrives : Arrives Includes depth lines m s) (library : m.server.library = .folder files root) :
    s.line ∈ lines ∨ ∃ script, Keeps files root script ∧ s.line ∈ linesOf script := by
  induction arrives with
  | first => exact Or.inl (by simp)
  | @later depth line rest m m₁ m₂ s begun ran more ih =>
    have time := begun.chain (p := fun _ => True)
    have step := (runLine_chain (run_chain depth) _ (m₁.functions.asksOnly_true)).to_ok ran
    have same : m₂.server.library = m.server.library :=
      (time.sameSettings.trans step.sameSettings).library
    rcases ih (same.trans library) with mem | kept
    · exact Or.inl (List.mem_cons_of_mem _ mem)
    · exact Or.inr kept
  | @inside depth line source rest m m₁ m₂ s begun launched more ih =>
    have time := begun.chain (p := fun _ => True)
    have library₁ : m₁.server.library = .folder files root :=
      time.sameSettings.library.trans library
    obtain ⟨⟨name, -, loaded⟩, -, rfl⟩ := launched
    rw [library₁] at loaded
    rcases ih library₁ with mem | kept
    · exact Or.inr ⟨source, keeps_of_load? loaded, mem⟩
    · exact Or.inr kept

private theorem Machine.runNamed_kept (library : m.server.library = .folder files root)
    (name : String) :
    m.runNamed name = (.error (.failed (.scriptNotFound name)), m) ∨
      ∃ script, Keeps files root script ∧ m.runNamed name = m.run script := by
  cases loaded : m.server.library.load? name with
  | none => exact Or.inl (Machine.use_runNamed_of_missing loaded)
  | some script =>
    have runs : m.runNamed name = m.run script :=
      Machine.use_of_source? (u := .runNamed name) loaded
    rw [library] at loaded
    exact Or.inr ⟨script, keeps_of_load? loaded, runs⟩

end Runs

/-- Names of scripts cannot lead out of the directory `root`. A name is refused if and only if it is
empty or has a separator or two dots in a row, and then the files are not looked at. For any other
name one path is read, which leads to the directory and from there to the entry with the name of the
script, and the result is a text exactly if a file with the bytes of that text is found there. The
path is found exactly if the directory can be come to, the path is within the bounds that the system
sets, and the directory has the entry. Different names have different entries. So whatever name a
script puts together, what is included or run by name is the whole text of a script of the
directory. -/
theorem script_names_confined (files : FileTree) (root name : String) :
    (pathFor? root name = none ↔ IsRefused name) ∧
    (IsRefused name → ∀ files : FileTree, (folder files root).load? name = none) ∧
    (¬ IsRefused name →
      pathFor? root name = some (joinPath root (fileName name)) ∧
      (folder files root).load? name =
        (files.readText (joinPath root (fileName name))).toOption ∧
      '/' ∉ (fileName name).toList ∧ fileName name ∉ ["", ".", ".."] ∧
      files.wayTo (joinPath root (fileName name)) = files.wayTo root ++ [fileName name] ∧
      (∀ text, (folder files root).load? name = some text ↔
        files.find (joinPath root (fileName name)) = .ok (.file text.toUTF8)) ∧
      ∀ place, files.find (joinPath root (fileName name)) = .ok place ↔
        Admits files root (fileName name) ∧
          files.at? (files.wayTo root ++ [fileName name]) = some place) ∧
    (∀ other, ¬ IsRefused name → ¬ IsRefused other → name ≠ other →
      files.wayTo (joinPath root (fileName name)) ≠
        files.wayTo (joinPath root (fileName other))) ∧
    ∀ m : Machine, m.server.library = .folder files root →
      (m.runNamed name = (.error (.failed (.scriptNotFound name)), m) ∨
        ∃ script, Keeps files root script ∧ m.runNamed name = m.run script) ∧
      ∀ source s, m.ArrivesByIncludes source s →
        s.line ∈ linesOf source ∨ ∃ script, Keeps files root script ∧ s.line ∈ linesOf script := by
  refine ⟨pathFor?_eq_none_iff, fun refused files => load?_of_refused refused, fun accepted => ?_,
    fun other accepted accepted' differ same => ?_, fun m library => ⟨?_, ?_⟩⟩
  · have single := slash_not_mem_fileName accepted
    have named := fileName_not_step name
    exact ⟨pathFor?_of_accepted accepted, load?_of_accepted accepted, single, named,
      wayTo_joinPath files root single named, fun text => load?_eq_some_iff accepted,
      fun place => find_fileName_iff accepted⟩
  · rw [wayTo_joinPath files root (slash_not_mem_fileName accepted) (fileName_not_step name),
      wayTo_joinPath files root (slash_not_mem_fileName accepted') (fileName_not_step other)]
      at same
    have files := List.append_cancel_left same
    exact differ (fileName_injective (List.singleton_inj.1 files))
  · exact Machine.runNamed_kept library name
  · rintro source s ⟨depth, -, arrives⟩
    exact arrives.line_kept library

/-- A script in a directory, and a file with the name of a script beside the directory. -/
def guardedTree : FileTree where
  files :=
    [(["home", "scripts", "welcome.script"], "msg: hi".toUTF8),
      (["home", "secret.script"], "console: stop".toUTF8)]
  here := ["home"]

theorem script_names_confined_guarded :
    IsRefused "../secret" ∧ ¬ IsRefused "welcome" ∧
      (folder guardedTree "./scripts/").load? "../secret" = none ∧
      (folder guardedTree "./scripts/").load? "welcome" = some "msg: hi" ∧
      guardedTree.wayTo (joinPath "./scripts/" (fileName "welcome")) =
        ["home", "scripts", "welcome.script"] := by
  have refused : IsRefused "../secret" := Or.inr (Or.inl (by decide))
  have accepted : ¬ IsRefused "welcome" := by
    rw [← isSafeName_eq_false_iff]
    decide
  obtain ⟨-, -, reading, -⟩ := script_names_confined guardedTree "./scripts/" "welcome"
  obtain ⟨-, -, -, -, way, loads, finds⟩ := reading accepted
  obtain ⟨-, unread, -⟩ := script_names_confined guardedTree "./scripts/" "../secret"
  have found : guardedTree.find (joinPath "./scripts/" (fileName "welcome")) =
      .ok (.file "msg: hi".toUTF8) :=
    (finds _).2 ⟨⟨rfl, by decide, by decide, by decide⟩, rfl⟩
  refine ⟨refused, accepted, unread refused guardedTree, (loads _).2 found, ?_⟩
  rw [way]
  rfl

end MenuScript
