import TictactoeBots.Entities.Tables
import TictactoeBots.Lib.Python
import TictactoeBots.Lib.Runs

/-!
The export of the submitted bots to a directory.

The name of a file is the versioned name of its bot with every run of unsafe
characters replaced. A file that is there already is overwritten, so names that
are distinct but alike lose a bot, while the count goes on. A name that the
directory does not take, as one that is too long, ends the export.
-/

namespace TictactoeBots

open Text Python Runs

/-! ### The script -/

/-- `[^A-Za-z0-9_-]`. -/
def isUnsafe (c : CodePoint) : Bool :=
  !((0x41 ≤ c.val && c.val ≤ 0x5a) || (0x61 ≤ c.val && c.val ≤ 0x7a) ||
    (0x30 ≤ c.val && c.val ≤ 0x39) || c.val == 0x5f || c.val == 0x2d)

def underscore : CodePoint := 0x5f

def safeFilename (versionedName : Str) : Str :=
  replaceRuns isUnsafe underscore versionedName ++ str ".py"

example : safeFilename (str "My   Bot!!!") = str "My_Bot_.py" := by decide

/-- The files of a directory, by their names. Capitals make a difference. -/
abbrev Directory := AList fun _ : Str => List UInt8

/-- `write_bytes`, which replaces the file when there is one. `takes` says which
names the directory takes. -/
def writeBytes (takes : Str → Bool) (outDir : Directory) (name : Str) (source : List UInt8) :
    Except PyException Directory :=
  if takes name then .ok (outDir.insert name source)
  else .error ⟨.osError, str "File name too long"⟩

def BotRow.hasSource (bot : BotRow) : Bool := bot.source.any fun source => !source.isEmpty

/-- The loop, with the directory as it leaves it. -/
def exportBots (takes : Str → Bool) :
    List BotRow → Directory → ℕ → Directory × Except PyException ℕ
  | [], outDir, written => (outDir, .ok written)
  | bot :: bots, outDir, written =>
      if bot.hasSource then
        match writeBytes takes outDir (safeFilename bot.versionedName) (bot.source.getD []) with
        | .ok outDir => exportBots takes bots outDir (written + 1)
        | .error exc => (outDir, .error exc)
      else exportBots takes bots outDir written

/-- `bots` is the bot table in the order in which it is read. -/
def exportAll (takes : Str → Bool) (bots : List BotRow) (outDir : Directory) :
    Directory × Except PyException ℕ :=
  exportBots takes bots outDir 0

/-- Every bot that has a source has its file, and the count that is returned is
that of the files. -/
structure LosesNothing (bots : List BotRow) (exported : Directory × Except PyException ℕ) :
    Prop where
  onePerBot : exported.1.keys.length = bots.countP BotRow.hasSource
  contents : ∀ bot ∈ bots, bot.hasSource →
    exported.1.lookup (safeFilename bot.versionedName) = bot.source
  counted : exported.2 = .ok exported.1.keys.length

/-! ### Writing files -/

section WriteAll

variable {files : List (Str × List UInt8)} {outDir : Directory}

def writeAll (files : List (Str × List UInt8)) (outDir : Directory) : Directory :=
  files.foldl (fun dir file => dir.insert file.1 file.2) outDir

theorem mem_writeAll {name : Str} :
    name ∈ writeAll files outDir ↔ name ∈ files.map Prod.fst ∨ name ∈ outDir := by
  induction files generalizing outDir with
  | nil => simp [writeAll]
  | cons file rest ih =>
      rw [writeAll, List.foldl_cons, ← writeAll, ih, AList.mem_insert, List.map_cons,
        List.mem_cons]
      tauto

theorem lookup_writeAll_of_not_mem {name : Str} (h : name ∉ files.map Prod.fst) :
    (writeAll files outDir).lookup name = outDir.lookup name := by
  induction files generalizing outDir with
  | nil => rfl
  | cons file rest ih =>
      rw [List.map_cons, List.mem_cons, not_or] at h
      rw [writeAll, List.foldl_cons, ← writeAll, ih h.2, AList.lookup_insert_ne h.1]

theorem lookup_writeAll (hnames : (files.map Prod.fst).Nodup) {file : Str × List UInt8}
    (hfile : file ∈ files) : (writeAll files outDir).lookup file.1 = some file.2 := by
  induction files generalizing outDir with
  | nil => cases hfile
  | cons first rest ih =>
      rw [List.map_cons, List.nodup_cons] at hnames
      rw [writeAll, List.foldl_cons, ← writeAll]
      rcases List.mem_cons.1 hfile with rfl | hrest
      · rw [lookup_writeAll_of_not_mem hnames.1, AList.lookup_insert]
      · exact ih hnames.2 hrest

/-- There are as many files as were written exactly if their names are distinct. -/
theorem length_writeAll_eq_iff :
    (writeAll files ∅).keys.length = files.length ↔ (files.map Prod.fst).Nodup := by
  have hkeys : (writeAll files ∅).keys.length = (files.map Prod.fst).dedup.length := by
    refine List.Perm.length_eq ((List.perm_ext_iff_of_nodup (AList.keys_nodup _)
      (List.nodup_dedup _)).2 fun name => ?_)
    rw [List.mem_dedup, ← AList.mem_keys, mem_writeAll]
    simp
  rw [hkeys, ← List.length_map (Prod.fst (α := Str) (β := List UInt8)), ← List.dedup_eq_self]
  constructor
  · exact fun hlength => (List.dedup_sublist _).eq_of_length hlength
  · exact fun heq => congrArg List.length heq

end WriteAll

/-! ### What is lost -/

def exportedFiles (bots : List BotRow) : List (Str × List UInt8) :=
  (bots.filter BotRow.hasSource).map fun bot =>
    (safeFilename bot.versionedName, bot.source.getD [])

/-- The directory takes the names of all the files. -/
def TakesAll (takes : Str → Bool) (bots : List BotRow) : Prop :=
  ∀ bot ∈ bots, bot.hasSource → takes (safeFilename bot.versionedName)

theorem takesAll_cons {takes : Str → Bool} {bot : BotRow} {bots : List BotRow} :
    TakesAll takes (bot :: bots) ↔
      (bot.hasSource → takes (safeFilename bot.versionedName)) ∧ TakesAll takes bots :=
  List.forall_mem_cons

theorem exportBots_cases (takes : Str → Bool) (bots : List BotRow) (outDir : Directory)
    (written : ℕ) :
    (TakesAll takes bots ∧ exportBots takes bots outDir written =
      (writeAll (exportedFiles bots) outDir, .ok (written + (exportedFiles bots).length))) ∨
    (¬TakesAll takes bots ∧ ∃ exc, (exportBots takes bots outDir written).2 = .error exc) := by
  induction bots generalizing outDir written with
  | nil => exact .inl ⟨by simp [TakesAll], rfl⟩
  | cons bot bots ih =>
      rw [takesAll_cons, exportBots]
      by_cases hsource : bot.hasSource
      · rw [if_pos hsource, writeBytes]
        by_cases htakes : takes (safeFilename bot.versionedName)
        · have hfiles : exportedFiles (bot :: bots) =
              (safeFilename bot.versionedName, bot.source.getD []) :: exportedFiles bots := by
            simp [exportedFiles, hsource]
          rw [if_pos htakes, hfiles]
          rcases ih (outDir.insert (safeFilename bot.versionedName) (bot.source.getD []))
              (written + 1) with ⟨hall, heq⟩ | ⟨hnot, herror⟩
          · refine .inl ⟨⟨fun _ => htakes, hall⟩, heq.trans ?_⟩
            rw [List.length_cons, Nat.add_assoc, Nat.add_comm 1]
            rfl
          · exact .inr ⟨fun h => hnot h.2, herror⟩
        · rw [if_neg htakes]
          exact .inr ⟨fun h => htakes (h.1 hsource), _, rfl⟩
      · have hfiles : exportedFiles (bot :: bots) = exportedFiles bots := by
          simp [exportedFiles, hsource]
        rw [if_neg hsource, hfiles]
        rcases ih outDir written with ⟨hall, heq⟩ | ⟨hnot, herror⟩
        · exact .inl ⟨⟨fun h => absurd h hsource, hall⟩, heq⟩
        · exact .inr ⟨fun h => hnot h.2, herror⟩

/-- The names of the files are the same exactly if the versioned names are alike:
the same safe characters, with underscores and runs of unsafe characters in the
same places. -/
def SameFile (a b : Str) : Prop := Alike isUnsafe underscore a b

theorem safeFilename_eq_iff {a b : Str} : safeFilename a = safeFilename b ↔ SameFile a b := by
  rw [safeFilename, safeFilename, List.append_cancel_right_eq, replaceRuns_eq_iff (by decide),
    SameFile]

theorem nodup_exportedFiles_iff {bots : List BotRow}
    (hnames : (bots.map BotRow.versionedName).Nodup) :
    ((exportedFiles bots).map Prod.fst).Nodup ↔
      ∀ a ∈ bots, ∀ b ∈ bots, a.hasSource → b.hasSource →
        SameFile a.versionedName b.versionedName → a = b := by
  rw [exportedFiles, List.map_map, List.nodup_map_iff_inj_on (hnames.of_map.filter _)]
  simp only [List.mem_filter, Function.comp_apply, safeFilename_eq_iff]
  constructor
  · intro h a ha b hb hasource hbsource hsame
    exact h a ⟨ha, hasource⟩ b ⟨hb, hbsource⟩ hsame
  · intro h a ha b hb hsame
    exact h a ha.1 b hb.1 ha.2 hb.2 hsame

/-- Exporting bots with distinct names loses nothing exactly if the directory
takes the file names of those that have a source, and no two of them have names
for one file. -/
theorem exportAll_losesNothing_iff (takes : Str → Bool) {bots : List BotRow}
    (hnames : (bots.map BotRow.versionedName).Nodup) :
    LosesNothing bots (exportAll takes bots ∅) ↔
      TakesAll takes bots ∧
      ∀ a ∈ bots, ∀ b ∈ bots, a.hasSource → b.hasSource →
        SameFile a.versionedName b.versionedName → a = b := by
  have hcount : (exportedFiles bots).length = bots.countP BotRow.hasSource := by
    rw [exportedFiles, List.length_map, List.countP_eq_length_filter]
  rw [← nodup_exportedFiles_iff hnames, exportAll]
  rcases exportBots_cases takes bots ∅ 0 with ⟨hall, heq⟩ | ⟨hnot, exc, herror⟩
  · rw [heq, Nat.zero_add]
    constructor
    · intro h
      refine ⟨hall, length_writeAll_eq_iff.1 ?_⟩
      rw [hcount]
      exact h.onePerBot
    · rintro ⟨-, hfiles⟩
      have hlength := length_writeAll_eq_iff.2 hfiles
      refine ⟨hlength.trans hcount, fun bot hbot hsource => ?_, congrArg Except.ok hlength.symm⟩
      have hfile : (safeFilename bot.versionedName, bot.source.getD []) ∈ exportedFiles bots :=
        List.mem_map_of_mem (List.mem_filter.2 ⟨hbot, hsource⟩)
      rw [lookup_writeAll hfiles hfile]
      cases hbotSource : bot.source with
      | none => simp [BotRow.hasSource, hbotSource] at hsource
      | some source => rfl
  · refine iff_of_false (fun h => ?_) fun h => hnot h.1
    have hcounted := h.counted
    rw [herror] at hcounted
    cases hcounted

/-- A directory that takes names of up to 255 bytes. -/
def shortName (name : Str) : Bool := name.length ≤ 255

def submittedBot (id : ℕ) (name : Str) (source : List UInt8) : BotRow where
  id := id
  baseName := name
  versionedName := name
  version := 1
  ownerToken := str "token"
  source := some source
  pythonVersion := str "3.14"
  runtimeKey := str "python-3.14"
  podName := none
  podReady := false
  submittedAt := 0

def distinctBots : List BotRow :=
  [submittedBot 1 (str "Foo") [1], submittedBot 2 (str "FooV2") [2]]

theorem exportAll_losesNothing_iff_distinctBots :
    LosesNothing distinctBots (exportAll shortName distinctBots ∅) := by
  refine (exportAll_losesNothing_iff shortName (by decide)).2 ⟨?_, ?_⟩
  · rw [TakesAll, distinctBots, List.forall_mem_cons, List.forall_mem_singleton]
    exact ⟨fun _ => rfl, fun _ => rfl⟩
  intro a ha b hb _ _ hsame
  rw [← safeFilename_eq_iff] at hsame
  simp only [distinctBots, List.mem_cons, List.not_mem_nil, or_false] at ha hb
  rcases ha with rfl | rfl <;> rcases hb with rfl | rfl
  · rfl
  · exact absurd hsame (by decide)
  · exact absurd hsame (by decide)
  · rfl

/-- `Foo Bar` and `Foo_Bar` are exported to one file, and counted as two. -/
def alikeBots : List BotRow :=
  [submittedBot 1 (str "Foo Bar") [1], submittedBot 2 (str "Foo_Bar") [2]]

theorem exportAll_loses_alikeBots :
    (alikeBots.map BotRow.versionedName).Nodup ∧
      safeFilename (str "Foo Bar") = safeFilename (str "Foo_Bar") ∧
      (exportAll shortName alikeBots ∅).1.keys.length = 1 ∧
      (exportAll shortName alikeBots ∅).2 = .ok 2 ∧
      ¬LosesNothing alikeBots (exportAll shortName alikeBots ∅) := by
  refine ⟨by decide, by decide, rfl, rfl, fun h => ?_⟩
  have hcounted : (2 : ℕ) = 1 := Except.ok.inj h.counted
  omega

end TictactoeBots
