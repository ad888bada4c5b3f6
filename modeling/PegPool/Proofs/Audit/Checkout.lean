import PegPool.Audit.Command
import PegPool.Proofs.Audit.Occurrences

/-!
# The place of a checkout

A source is left out if its whole path mentions a mark, from the root of the file system on.  As a mark
ends with a name at the latest, this is decided name by name (`isSkipped_iff`): a directory above the
checkout decides for all sources at once, and a name that only ends like a mark counts as the mark.  So
two places give the same verdicts exactly if both or neither have such a directory above them
(`verdict_free_of_place_iff`).
-/

namespace PegPool

namespace Audit

/-! ## Marks and names -/

/-- The sources below a directory of this name are left out. -/
def HidesBelow (name : String) : Prop :=
  ∃ mark ∈ skipMarks, mark.toList <:+: name.toList ++ ['/']

/-- A source of this name is left out. -/
def HidesItself (name : String) : Prop :=
  ∃ mark ∈ skipMarks, mark.toList <:+: name.toList

/-- One of the directories of the path hides what is below it. -/
def Path.Hides (p : Path) : Prop :=
  ∃ name ∈ p, HidesBelow name

theorem text_cons {name : String} {rest : Path} (notNil : rest ≠ []) :
    (Path.text (name :: rest)).toList = name.toList ++ '/' :: (Path.text rest).toList := by
  obtain ⟨next, rest, rfl⟩ := List.exists_cons_of_ne_nil notNil
  simp only [Path.text, String.toList_intercalate, List.map_cons, List.intercalate_cons_cons]
  simp

theorem infix_text_iff {needle : List Char} (atEnd : '/' ∉ needle.dropLast) (directories : Path)
    (name : String) :
    needle <:+: (Path.text (directories ++ [name])).toList ↔
      (∃ d ∈ directories, needle <:+: d.toList ++ ['/']) ∨ needle <:+: name.toList := by
  induction directories with
  | nil => simp [Path.text]
  | cons d directories ih =>
    rw [List.cons_append, text_cons (by simp), infix_append_cons_iff atEnd, ih]
    simp [or_assoc]

/-- Whether a path mentions a mark is decided name by name. -/
theorem mentions_iff (directories : Path) (name : String) :
    (∃ mark ∈ skipMarks, mark.toList <:+: (Path.text (directories ++ [name])).toList) ↔
      directories.Hides ∨ HidesItself name := by
  have atEnd : ∀ mark ∈ skipMarks, '/' ∉ mark.toList.dropLast := by decide
  constructor
  · rintro ⟨mark, isMark, isInfix⟩
    obtain ⟨d, member, isBelow⟩ | isItself := (infix_text_iff (atEnd mark isMark) _ _).mp isInfix
    · exact .inl ⟨d, member, mark, isMark, isBelow⟩
    · exact .inr ⟨mark, isMark, isItself⟩
  · rintro (⟨d, member, mark, isMark, isBelow⟩ | ⟨mark, isMark, isItself⟩)
    · exact ⟨mark, isMark, (infix_text_iff (atEnd mark isMark) _ _).mpr (.inl ⟨d, member, isBelow⟩)⟩
    · exact ⟨mark, isMark, (infix_text_iff (atEnd mark isMark) _ _).mpr (.inr isItself)⟩

theorem hides_append {p q : Path} : Path.Hides (p ++ q) ↔ p.Hides ∨ q.Hides := by
  simp only [Path.Hides, List.mem_append, or_and_right, exists_or]

theorem hidesBelow_iff_of_plain {name : String} (plain : '/' ∉ name.toList) : HidesBelow name ↔
    "__pycache__".toList <:+: name.toList ∨ "api".toList <:+ name.toList ∨
      "models".toList <:+ name.toList := by
  have cache : "__pycache__".toList <:+: name.toList ++ ['/'] ↔ "__pycache__".toList <:+: name.toList :=
    infix_concat_iff_of_not_mem (by decide)
  have api : "api".toList ++ ['/'] <:+: name.toList ++ ['/'] ↔ "api".toList <:+ name.toList :=
    concat_infix_concat_iff plain
  have models : "models".toList ++ ['/'] <:+: name.toList ++ ['/'] ↔ "models".toList <:+ name.toList :=
    concat_infix_concat_iff plain
  rw [← cache, ← api, ← models]
  simp [HidesBelow, skipMarks]

theorem hidesBelow_iff {name : String} :
    HidesBelow name ↔ skipMarks.any (fun mark => occurs mark.toList (name.toList ++ ['/'])) = true := by
  simp only [HidesBelow, List.any_eq_true, occurs_iff]

theorem hidesItself_iff {name : String} :
    HidesItself name ↔ skipMarks.any (fun mark => occurs mark.toList name.toList) = true := by
  simp only [HidesItself, List.any_eq_true, occurs_iff]

/-! ## Sources of the package -/

def File.directories (f : File) : Path :=
  f.path.tail.dropLast

def File.name (f : File) : String :=
  f.path.getLastD ""

theorem path_of_isProgramIn {f : File} {directory : String} (program : f.isProgramIn directory = true) :
    f.path = directory :: (f.directories ++ [f.name]) := by
  obtain ⟨path, text⟩ := f
  cases path with
  | nil => cases program
  | cons top rest =>
    simp only [File.isProgramIn, Bool.and_eq_true, beq_iff_eq, Option.any_eq_true] at program
    obtain ⟨rfl, last, isLast, -⟩ := program
    obtain ⟨init, rfl⟩ := List.getLast?_eq_some_iff.mp isLast
    rw [File.directories, File.name, List.tail_cons, List.dropLast_concat, ← List.cons_append,
      List.getLastD_concat]
    rfl

/-- The root of the file system is a directory without a name. -/
theorem absolute_eq {base : Path} {f : File} (notNil : f.path ≠ []) :
    (f.absolute base).toList = (Path.text ("" :: base ++ f.path)).toList := by
  rw [List.cons_append, text_cons (by simp [notNil]), File.absolute, String.toList_append]
  rfl

/-- A source is left out exactly if a directory above the checkout or inside the package hides it, or its
own name does. -/
theorem isSkipped_iff {base : Path} {f : File} (program : f.isProgramIn sourceDirectory = true) :
    f.isSkipped base = true ↔ base.Hides ∨ f.directories.Hides ∨ HidesItself f.name := by
  have root : ¬ HidesBelow "" := by
    rw [hidesBelow_iff]
    decide
  have package : ¬ HidesBelow sourceDirectory := by
    rw [hidesBelow_iff]
    decide
  have isPath := path_of_isProgramIn program
  have split : "" :: base ++ f.path = ("" :: base ++ sourceDirectory :: f.directories) ++ [f.name] := by
    simp [isPath]
  rw [File.isSkipped, List.any_eq_true, absolute_eq (by simp [isPath]), split]
  simp only [occurs_iff, mentions_iff, hides_append]
  simp [Path.Hides, root, package, or_assoc]

/-! ## Verdicts -/

section Verdicts

variable {base base' : Path} {f : File}

theorem isSkipped_eq (agree : base.Hides ↔ base'.Hides) (program : f.isProgramIn sourceDirectory = true) :
    f.isSkipped base = f.isSkipped base' := by
  rw [Bool.eq_iff_iff, isSkipped_iff program, isSkipped_iff program, agree]

theorem treeFindings_eq (agree : base.Hides ↔ base'.Hides) (includeTests : Bool) (files : List File) :
    treeFindings base includeTests files = treeFindings base' includeTests files := by
  have chosen : ∀ f ∈ inOrder files,
      (f.isProgramIn sourceDirectory && !f.isSkipped base) =
        (f.isProgramIn sourceDirectory && !f.isSkipped base') := by
    intro f _
    cases program : f.isProgramIn sourceDirectory with
    | false => rfl
    | true => rw [isSkipped_eq agree program]
  rw [treeFindings, treeFindings, sourceFindings, sourceFindings, List.filter_congr chosen]

theorem treeFindings_single (program : f.isProgramIn sourceDirectory = true) :
    treeFindings base false [f] = if f.isSkipped base then [] else f.report findings := by
  cases skipped : f.isSkipped base with
  | true => simp [treeFindings, sourceFindings, inOrder, insertFile, program, skipped]
  | false => simp [treeFindings, sourceFindings, inOrder, insertFile, program, skipped]

/-- A source in these directories of the package that holds a double. -/
def doubleIn (directories : Path) : File where
  path := sourceDirectory :: (directories ++ ["pool.py"])
  text := "x = 1.5"

@[simp]
theorem doubleIn_directories (directories : Path) : (doubleIn directories).directories = directories := by
  rw [doubleIn, File.directories, List.tail_cons, List.dropLast_concat]

@[simp]
theorem doubleIn_name (directories : Path) : (doubleIn directories).name = "pool.py" := by
  rw [doubleIn, File.name, ← List.cons_append, List.getLastD_concat]

theorem doubleIn_isProgramIn (directories : Path) :
    (doubleIn directories).isProgramIn sourceDirectory = true := by
  have ends : "pool.py".endsWith ".py" = true := by decide +kernel
  simp [doubleIn, File.isProgramIn, ends]

theorem not_hidesItself_pool : ¬ HidesItself "pool.py" := by
  rw [hidesItself_iff]
  decide

theorem doubleIn_isSkipped_iff {directories : Path} :
    (doubleIn directories).isSkipped base = true ↔ base.Hides ∨ directories.Hides := by
  rw [isSkipped_iff (doubleIn_isProgramIn directories)]
  simp [not_hidesItself_pool]

theorem exitCode_doubleIn_nil :
    exitCode (treeFindings base false [doubleIn []]) = 0 ↔ base.Hides := by
  have hidden : (doubleIn []).isSkipped base = true ↔ base.Hides := by
    rw [doubleIn_isSkipped_iff]
    simp [Path.Hides]
  rw [treeFindings_single (doubleIn_isProgramIn []), ← hidden]
  cases (doubleIn []).isSkipped base with
  | true => simp [exitCode, blocks]
  | false =>
    have found : exitCode ((doubleIn []).report findings) = 1 := by decide
    simp [found]

end Verdicts

/-! ## Sources in their own place -/

def skippedDirectories : List String :=
  ["__pycache__", "api", "models"]

/-- The file lies in one of the directories that are left out. -/
def File.InSkippedDirectory (f : File) : Prop :=
  ∃ name ∈ f.directories, name ∈ skippedDirectories

theorem hidesBelow_of_mem {name : String} (member : name ∈ skippedDirectories) : HidesBelow name := by
  have all : ∀ name ∈ skippedDirectories,
      skipMarks.any (fun mark => occurs mark.toList (name.toList ++ ['/'])) = true := by decide
  exact hidesBelow_iff.mpr (all name member)

theorem File.InSkippedDirectory.hides {f : File} (own : f.InSkippedDirectory) : f.directories.Hides := by
  obtain ⟨name, member, isSkipped⟩ := own
  exact ⟨name, member, hidesBelow_of_mem isSkipped⟩

/-- Of the sources with plain names of their own and directories of a kind, exactly those in a skipped
directory are left out. -/
def SkipsInPlace (base : Path) (ofKind : String → Prop) : Prop :=
  ∀ f : File, f.isProgramIn sourceDirectory = true → (∀ name ∈ f.directories, ofKind name) →
    ¬ HidesItself f.name → (f.isSkipped base = true ↔ f.InSkippedDirectory)

theorem SkipsInPlace.hides_iff {base : Path} {ofKind : String → Prop} (skips : SkipsInPlace base ofKind)
    {directories : Path} (isKind : ∀ name ∈ directories, ofKind name) :
    base.Hides ∨ directories.Hides ↔ ∃ name ∈ directories, name ∈ skippedDirectories := by
  have inPlace := skips (doubleIn directories) (doubleIn_isProgramIn directories)
  rw [doubleIn_directories, doubleIn_name, doubleIn_isSkipped_iff, File.InSkippedDirectory,
    doubleIn_directories] at inPlace
  exact inPlace isKind not_hidesItself_pool

/-- Nothing above the checkout may hide the package, and no name of the kind may only look like that of a
skipped directory. -/
theorem skipsInPlace_iff {base : Path} {ofKind : String → Prop} : SkipsInPlace base ofKind ↔
    ¬ base.Hides ∧ ∀ name, ofKind name → HidesBelow name → name ∈ skippedDirectories := by
  constructor
  · intro skips
    refine ⟨fun hides => ?_, fun name isKind hides => ?_⟩
    · obtain ⟨name, member, -⟩ := (skips.hides_iff (List.forall_mem_nil _)).mp (.inl hides)
      cases member
    · have inPlace := skips.hides_iff (List.forall_mem_singleton.mpr isKind)
      obtain ⟨_, member, isSkipped⟩ := inPlace.mp (.inr ⟨name, List.mem_singleton_self name, hides⟩)
      exact List.mem_singleton.mp member ▸ isSkipped
  · rintro ⟨nothingAbove, onlySkipped⟩ f program isKind plain
    rw [isSkipped_iff program]
    constructor
    · rintro (above | ⟨name, member, hides⟩ | itself)
      · exact absurd above nothingAbove
      · exact ⟨name, member, onlySkipped name (isKind name member) hides⟩
      · exact absurd itself plain
    · exact fun own => .inr (.inl own.hides)

/-- Two places for a checkout give the same findings for all trees exactly if both or neither have a
directory above them that hides what is below it, and so it is with the exit codes.  A source is left out
exactly if such a directory is above the checkout or on its way through the package, or if its own name
mentions a mark; so it is left out for a skipped directory of its own alone exactly if nothing above the
checkout hides it and no name on its way only looks like that of a skipped directory.  The directories that
hide what is below them are those with a mark in their names or at the end of them. -/
theorem verdict_free_of_place_iff (base base' : Path) (ofKind : String → Prop) :
    ((∀ includeTests files,
        treeFindings base includeTests files = treeFindings base' includeTests files) ↔
      (base.Hides ↔ base'.Hides)) ∧
    ((∀ program files arguments,
        (command program base files arguments).code =
          (command program base' files arguments).code) ↔
      (base.Hides ↔ base'.Hides)) ∧
    (∀ f : File, f.isProgramIn sourceDirectory = true →
      (f.isSkipped base = true ↔ base.Hides ∨ f.directories.Hides ∨ HidesItself f.name)) ∧
    (SkipsInPlace base ofKind ↔
      ¬ base.Hides ∧ ∀ name, ofKind name → HidesBelow name → name ∈ skippedDirectories) ∧
    (∀ name : String, '/' ∉ name.toList → (HidesBelow name ↔
      "__pycache__".toList <:+: name.toList ∨ "api".toList <:+ name.toList ∨
        "models".toList <:+ name.toList)) := by
  have agree (codes : exitCode (treeFindings base false [doubleIn []]) =
      exitCode (treeFindings base' false [doubleIn []])) : base.Hides ↔ base'.Hides := by
    rw [← exitCode_doubleIn_nil, ← exitCode_doubleIn_nil, codes]
  refine ⟨⟨fun findings => agree ?_, treeFindings_eq⟩,
    ⟨fun codes => agree (codes "" _ []), fun agree _ _ _ => ?_⟩, fun _ => isSkipped_iff, skipsInPlace_iff,
    fun _ => hidesBelow_iff_of_plain⟩
  · rw [findings]
  · simp only [command, treeFindings_eq agree]

/-- Below a directory of the name of a skipped one an audit lets a double pass that it finds elsewhere,
and a directory whose name only ends like that of a skipped one is left out. -/
theorem place_hides_double :
    exitCode (treeFindings ["srv"] false [doubleIn []]) = 1 ∧
    exitCode (treeFindings ["srv", "api"] false [doubleIn []]) = 0 ∧
    (doubleIn ["papi"]).isSkipped ["srv"] = true ∧ ¬ (doubleIn ["papi"]).InSkippedDirectory := by
  refine ⟨by decide +kernel, by decide +kernel, by decide +kernel, ?_⟩
  rintro ⟨name, member, isSkipped⟩
  rw [doubleIn_directories, List.mem_singleton] at member
  subst member
  revert isSkipped
  decide

end Audit

end PegPool
