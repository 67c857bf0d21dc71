import TictactoeBots.Lib.Occurrences
import TictactoeBots.Dispatcher.StorableOutcomes
import TictactoeBots.Web.DeclaredRuntime
import TictactoeBots.Web.VersionNames

/-!
The script that fills the bot table from the files under `example_bots`.

Its loop takes version numbers and versioned names as the upload does, but not
the refusal of names that look like a versioned name. Every insert commits on
its own, so one that fails leaves the bots before it behind. The database takes
names of any length, which a unique index of PostgreSQL does not.
-/

namespace TictactoeBots

open Text Python Occurrences

/-! ### The script -/

structure ExampleFile where
  sourceBytes : List UInt8
  drawn : OwnerToken
  now : ℕ

/-- What the loop reads off a file before its first database call. -/
structure ExampleBot extends ExampleFile where
  botName : Str
  runtimeKey : Str

/-- `none` for a file that is skipped. -/
def readExample (py : Interpreter) (file : ExampleFile) :
    Except PyException (Option ExampleBot) := do
  let sourceText := Utf8.decodeReplace file.sourceBytes
  match ← extractBotName py sourceText with
  | none | some [] => return none
  | some botName =>
      match ← extractRuntimeKey py sourceText with
      | none | some [] => return some ⟨file, botName, defaultRuntimeKey⟩
      | some key => return some ⟨file, botName, key⟩

def ExampleBot.new (bot : ExampleBot) (version : ℕ) : NewBot where
  baseName := bot.botName
  versionedName := versionedName bot.botName version
  version := version
  ownerToken := bot.drawn.text
  pythonVersion := pythonVersionFromRuntimeKey bot.runtimeKey
  runtimeKey := bot.runtimeKey
  source := some bot.sourceBytes

/-- `next_version`, whose select takes the name as an argument, then `create`. -/
def addExample (db : Db) (bot : ExampleBot) : Db × Except PyException BotRow :=
  if !storable bot.botName then (db, .error dataError)
  else db.create bot.now (bot.new (nextVersion db.bots bot.botName))

/-- The loop of `_insert_bots` on the files that are left. -/
def insertLoop (py : Interpreter) : List ExampleFile → ℕ → Db → Db × Except PyException ℕ
  | [], inserted, db => (db, .ok inserted)
  | file :: rest, inserted, db =>
      match readExample py file with
      | .error exc => (db, .error exc)
      | .ok none => insertLoop py rest inserted db
      | .ok (some bot) =>
          match addExample db bot with
          | (db, .error exc) => (db, .error exc)
          | (db, .ok _) => insertLoop py rest (inserted + 1) db

def insertBots (py : Interpreter) (files : List ExampleFile) (db : Db) :
    Db × Except PyException ℕ := insertLoop py files 0 db

/-- The rows are deleted, the sequences go on. -/
def clearTables (db : Db) : Db := { db with bots := [], matchRows := [], moveRows := [] }

/-- `allBots` is the bot table in the order in which it is read. -/
def enqueueBuilds (allBots : List BotRow) : List BuildPodMessage :=
  allBots.map fun bot => ⟨bot.id, bot.runtimeKey⟩

/-! ### What it should do -/

def namedExamples (py : Interpreter) (files : List ExampleFile) : List ExampleBot :=
  files.filterMap fun file => (readExample py file).toOption.join

/-- The row of a bot that is the `k`-th of its name. -/
def seededRow (numbered : ExampleBot × ℕ) : Str × ℕ × Str × Option (List UInt8) :=
  (numbered.1.botName, numbered.2, versionedName numbered.1.botName numbered.2,
    some numbered.1.sourceBytes)

/-- Every file with a name has its row, numbered within its name, and the number
of rows is returned. -/
structure SeedsAll (named : List ExampleBot) (run : Db × Except PyException ℕ) : Prop where
  returned : run.2 = .ok named.length
  rows : run.1.bots.map (fun row => (row.baseName, row.version, row.versionedName, row.source)) =
    (numberedBy ExampleBot.botName named).map seededRow

/-- No parse raises, and every name can be stored. -/
structure Acceptable (py : Interpreter) (files : List ExampleFile) : Prop where
  parsed : ∀ file ∈ files, ∃ docstring,
    py.docstring (Utf8.decodeReplace file.sourceBytes) = .ok docstring
  storable : ∀ bot ∈ namedExamples py files, storable bot.botName

/-- No name is a versioned name that the files of another name get to. -/
def NamesApart (bots : List ExampleBot) : Prop :=
  ∀ bot ∈ bots, ∀ other version, 2 ≤ version →
    version ≤ keyCount ExampleBot.botName bots other →
      bot.botName ≠ other ++ str "V" ++ decimal version

structure Seedable (py : Interpreter) (files : List ExampleFile) : Prop
    extends Acceptable py files where
  apart : NamesApart (namedExamples py files)

/-! ### Reading a file -/

theorem findName_ne_nil (lines : List Str) : findName lines ≠ some [] := by
  induction lines with
  | nil => simp [findName]
  | cons line rest ih =>
      unfold findName
      simp only
      split
      · split
        · simp
        · rename_i hname
          simpa using hname
      · exact ih

/-- The key that a seeded bot gets. -/
def seededKey (docstring : Str) : Str :=
  if declaredKey docstring ∈ runtimeKeys then declaredKey docstring else defaultRuntimeKey

theorem seededKey_mem (docstring : Str) : seededKey docstring ∈ runtimeKeys := by
  unfold seededKey
  split
  · assumption
  · exact default_mem_runtimeKeys

theorem readExample_eq (py : Interpreter) (file : ExampleFile) :
    readExample py file = (py.docstring (Utf8.decodeReplace file.sourceBytes)).map fun found =>
      found.bind fun docstring => (findName (splitlines docstring)).map fun botName =>
        ⟨file, botName, seededKey docstring⟩ := by
  unfold readExample extractBotName
  cases hdocstring : py.docstring (Utf8.decodeReplace file.sourceBytes) with
  | error exc => simp [hdocstring, bind, Except.bind, Except.map]
  | ok found =>
      cases found with
      | none => simp [hdocstring, bind, Except.bind, Except.map, pure, Except.pure]
      | some docstring =>
          have hkey := extractRuntimeKey_eq hdocstring
          simp only [hdocstring, hkey, bind, Except.bind, Except.map, pure, Except.pure,
            Option.bind_some]
          cases hname : findName (splitlines docstring) with
          | none => rfl
          | some botName =>
              cases botName with
              | nil => exact absurd hname (findName_ne_nil _)
              | cons c name =>
                  simp only [Option.map_some, seededKey]
                  by_cases hallowed : declaredKey docstring ∈ runtimeKeys
                  · rw [if_pos hallowed, if_pos hallowed]
                    cases hdeclared : declaredKey docstring with
                    | nil =>
                        rw [hdeclared] at hallowed
                        exact absurd hallowed (by decide)
                    | cons d key => rfl
                  · rw [if_neg hallowed, if_neg hallowed]

theorem readExample_eq_some {py : Interpreter} {file : ExampleFile} {bot : ExampleBot}
    (h : readExample py file = .ok (some bot)) :
    ∃ docstring, py.docstring (Utf8.decodeReplace file.sourceBytes) = .ok (some docstring) ∧
      bot.toExampleFile = file ∧ bot.runtimeKey = seededKey docstring := by
  rw [readExample_eq] at h
  cases hdocstring : py.docstring (Utf8.decodeReplace file.sourceBytes) with
  | error exc =>
      rw [hdocstring] at h
      cases h
  | ok found =>
      rw [hdocstring] at h
      obtain ⟨docstring, rfl, hname⟩ := Option.bind_eq_some_iff.1 (Except.ok.inj h)
      obtain ⟨botName, -, rfl⟩ := Option.map_eq_some_iff.1 hname
      exact ⟨docstring, rfl, rfl, rfl⟩

theorem readExample_isOk_iff {py : Interpreter} {file : ExampleFile} :
    (∃ found, readExample py file = .ok found) ↔
      ∃ docstring, py.docstring (Utf8.decodeReplace file.sourceBytes) = .ok docstring := by
  rw [readExample_eq]
  cases py.docstring (Utf8.decodeReplace file.sourceBytes) with
  | error exc => simp [Except.map]
  | ok found => exact iff_of_true ⟨_, rfl⟩ ⟨_, rfl⟩

theorem runtimeKey_mem_of_readExample {py : Interpreter} {file : ExampleFile} {bot : ExampleBot}
    (h : readExample py file = .ok (some bot)) : bot.runtimeKey ∈ runtimeKeys := by
  obtain ⟨docstring, -, -, hkey⟩ := readExample_eq_some h
  rw [hkey]
  exact seededKey_mem docstring

/-! ### One insert -/

theorem storable_ownerToken (token : OwnerToken) : storable token.text := by
  rw [storable_iff]
  intro c hc
  have hhex := token.hex c hc
  by_contra hbad
  have hnone : Utf8.hexValue c = none := by
    unfold Utf8.hexValue
    rw [if_neg (by omega), if_neg (by omega), if_neg (by omega)]
  rw [hnone] at hhex
  cases hhex

theorem storable_versionedName {baseName : Str} (h : storable baseName) (version : ℕ) :
    storable (versionedName baseName version) := by
  unfold versionedName
  split
  · exact h
  · rw [storable_append, storable_append, h, storable_decimal]
    rfl

theorem ExampleBot.new_storable {bot : ExampleBot} (hname : TictactoeBots.storable bot.botName)
    (hkey : bot.runtimeKey ∈ runtimeKeys) (version : ℕ) : (bot.new version).storable := by
  have hkeys : ∀ key ∈ runtimeKeys,
      TictactoeBots.storable key ∧ TictactoeBots.storable (pythonVersionFromRuntimeKey key) := by
    decide
  obtain ⟨hruntime, hpython⟩ := hkeys _ hkey
  simp [NewBot.storable, ExampleBot.new, hname, hruntime, hpython, storable_versionedName,
    storable_ownerToken]

/-- The table after the inserts of `done`. -/
structure Filled (bots : List BotRow) (done : List ExampleBot) : Prop where
  rows : bots.map (fun row => (row.baseName, row.version, row.versionedName, row.source)) =
    (numberedBy ExampleBot.botName done).map seededRow
  numbered : Numbered bots
  counts : ∀ name, (versions bots name).length = keyCount ExampleBot.botName done name
  distinct : (bots.map BotRow.versionedName).Nodup

def versionedNames (bots : List ExampleBot) : List Str :=
  (numberedBy ExampleBot.botName bots).map fun p => versionedName p.1.botName p.2

theorem Filled.nil : Filled [] [] := ⟨rfl, fun _ => rfl, fun _ => rfl, List.nodup_nil⟩

theorem Filled.versionedNames_eq {bots : List BotRow} {done : List ExampleBot}
    (h : Filled bots done) : bots.map BotRow.versionedName = versionedNames done := by
  have hthird := congrArg (List.map fun row : Str × ℕ × Str × Option (List UInt8) => row.2.2.1)
    h.rows
  simpa [seededRow, versionedNames, Function.comp_def] using hthird

theorem Filled.next {bots : List BotRow} {done : List ExampleBot} (h : Filled bots done)
    (name : Str) : nextVersion bots name = keyCount ExampleBot.botName done name + 1 := by
  rw [h.numbered.nextVersion_eq, h.counts]

theorem versionedNames_concat (done : List ExampleBot) (bot : ExampleBot) :
    versionedNames (done ++ [bot]) =
      versionedNames done ++
        [versionedName bot.botName (keyCount ExampleBot.botName done bot.botName + 1)] := by
  simp [versionedNames]

theorem addExample_cases {db : Db} {done : List ExampleBot} {bot : ExampleBot}
    (h : Filled db.bots done) (hkey : bot.runtimeKey ∈ runtimeKeys) :
    (storable bot.botName ∧
      ∃ db' row, addExample db bot = (db', .ok row) ∧ Filled db'.bots (done ++ [bot])) ∨
    (¬(storable bot.botName ∧ (versionedNames (done ++ [bot])).Nodup) ∧
      ∃ db' exc, addExample db bot = (db', .error exc)) := by
  unfold addExample
  cases hname : storable bot.botName with
  | false => exact .inr ⟨by simp, db, dataError, rfl⟩
  | true =>
      simp only [Bool.not_true, Bool.false_eq_true, if_false, h.next]
      rcases db.create_cases bot.now
          (bot.new (keyCount ExampleBot.botName done bot.botName + 1)) with
        ⟨hnot, exc, seq, _, heq⟩ | ⟨hadmits, heq⟩
      · refine .inr ⟨?_, _, exc, heq⟩
        rintro ⟨-, hnodup⟩
        rw [versionedNames_concat, ← h.versionedNames_eq, List.nodup_append] at hnodup
        refine hnot ⟨bot.new_storable hname hkey _, fun row hrow => ?_⟩
        exact hnodup.2.2 _ (List.mem_map_of_mem hrow) _ (List.mem_singleton_self _)
      · refine .inl ⟨trivial, _, _, heq, ?_, ?_, ?_, ?_⟩
        · rw [numberedBy_concat, List.map_append, List.map_append, h.rows]
          rfl
        · apply h.numbered.append
          exact congrArg (· + 1) (h.counts _).symm
        · intro name
          rw [versions_append, List.length_append, h.counts, keyCount_concat]
          by_cases hsame : bot.botName = name <;> simp [NewBot.row, ExampleBot.new, hsame]
        · rw [List.map_append, List.nodup_append]
          refine ⟨h.distinct, List.nodup_singleton _, ?_⟩
          intro name hmem other hother
          obtain ⟨row, hrow, rfl⟩ := List.mem_map.1 hmem
          rw [List.map_singleton, List.mem_singleton] at hother
          rw [hother]
          exact hadmits.2 row hrow

/-! ### The whole loop -/

theorem namedExamples_cons_none {py : Interpreter} {file : ExampleFile} (rest : List ExampleFile)
    (h : readExample py file = .ok none) :
    namedExamples py (file :: rest) = namedExamples py rest := by
  simp [namedExamples, h, Except.toOption]

theorem namedExamples_cons_some {py : Interpreter} {file : ExampleFile} {bot : ExampleBot}
    (rest : List ExampleFile) (h : readExample py file = .ok (some bot)) :
    namedExamples py (file :: rest) = bot :: namedExamples py rest := by
  simp [namedExamples, h, Except.toOption]

theorem acceptable_cons_none {py : Interpreter} {file : ExampleFile} {rest : List ExampleFile}
    (h : readExample py file = .ok none) : Acceptable py (file :: rest) ↔ Acceptable py rest := by
  have hparsed := readExample_isOk_iff.1 ⟨_, h⟩
  constructor
  · rintro ⟨hfiles, hnames⟩
    rw [namedExamples_cons_none rest h] at hnames
    exact ⟨fun other hother => hfiles other (List.mem_cons_of_mem _ hother), hnames⟩
  · rintro ⟨hfiles, hnames⟩
    refine ⟨List.forall_mem_cons.2 ⟨hparsed, hfiles⟩, ?_⟩
    rwa [namedExamples_cons_none rest h]

theorem acceptable_cons_some {py : Interpreter} {file : ExampleFile} {bot : ExampleBot}
    {rest : List ExampleFile} (h : readExample py file = .ok (some bot)) :
    Acceptable py (file :: rest) ↔ storable bot.botName ∧ Acceptable py rest := by
  have hparsed := readExample_isOk_iff.1 ⟨_, h⟩
  constructor
  · rintro ⟨hfiles, hnames⟩
    rw [namedExamples_cons_some rest h, List.forall_mem_cons] at hnames
    exact ⟨hnames.1, fun other hother => hfiles other (List.mem_cons_of_mem _ hother), hnames.2⟩
  · rintro ⟨hname, hfiles, hnames⟩
    refine ⟨List.forall_mem_cons.2 ⟨hparsed, hfiles⟩, ?_⟩
    rw [namedExamples_cons_some rest h]
    exact List.forall_mem_cons.2 ⟨hname, hnames⟩

theorem versionedNames_append_left (done rest : List ExampleBot) :
    versionedNames done <+: versionedNames (done ++ rest) :=
  (numberedBy_prefix_append ExampleBot.botName done rest).map _

theorem insertLoop_cases (py : Interpreter) (files : List ExampleFile) {done : List ExampleBot}
    {db : Db} (h : Filled db.bots done) :
    (Acceptable py files ∧ ∃ db',
      insertLoop py files done.length db = (db', .ok (done ++ namedExamples py files).length) ∧
        Filled db'.bots (done ++ namedExamples py files)) ∨
    (¬(Acceptable py files ∧ (versionedNames (done ++ namedExamples py files)).Nodup) ∧
      ∃ db' exc, insertLoop py files done.length db = (db', .error exc)) := by
  induction files generalizing done db with
  | nil =>
      refine .inl ⟨⟨by simp, by simp [namedExamples]⟩, db, ?_⟩
      simp only [namedExamples, List.filterMap_nil, List.append_nil]
      exact ⟨rfl, h⟩
  | cons file rest ih =>
      unfold insertLoop
      cases hread : readExample py file with
      | error exc =>
          refine .inr ⟨?_, db, exc, rfl⟩
          rintro ⟨hacceptable, -⟩
          obtain ⟨found, hfound⟩ :=
            readExample_isOk_iff.2 (hacceptable.parsed file List.mem_cons_self)
          rw [hread] at hfound
          cases hfound
      | ok found =>
          cases found with
          | none =>
              rw [acceptable_cons_none hread, namedExamples_cons_none rest hread]
              exact ih h
          | some bot =>
              have hkey := runtimeKey_mem_of_readExample hread
              have hsplit : done ++ bot :: namedExamples py rest =
                  (done ++ [bot]) ++ namedExamples py rest := by simp
              rw [acceptable_cons_some hread, namedExamples_cons_some rest hread, hsplit]
              rcases addExample_cases h hkey with
                ⟨hname, db', row, hadd, hfilled⟩ | ⟨hnot, db', exc, hadd⟩
              · have hlength : done.length + 1 = (done ++ [bot]).length := by simp
                simp only [hadd, hname, true_and, hlength]
                exact ih hfilled
              · refine .inr ⟨?_, db', exc, by simp only [hadd]⟩
                rintro ⟨⟨hname, -⟩, hnodup⟩
                exact hnot ⟨hname, hnodup.sublist (versionedNames_append_left _ _).sublist⟩

theorem insertBots_cases (py : Interpreter) (files : List ExampleFile) (db : Db) :
    (Acceptable py files ∧ ∃ db',
      insertBots py files (clearTables db) = (db', .ok (namedExamples py files).length) ∧
        Filled db'.bots (namedExamples py files)) ∨
    (¬(Acceptable py files ∧ (versionedNames (namedExamples py files)).Nodup) ∧
      ∃ db' exc, insertBots py files (clearTables db) = (db', .error exc)) := by
  have hcleared : Filled (clearTables db).bots [] := Filled.nil
  exact insertLoop_cases py files hcleared

/-! ### Names that clash -/

theorem versionedName_one (name : Str) : versionedName name 1 = name := rfl

theorem versionedName_of_two_le (name : Str) {version : ℕ} (h : 2 ≤ version) :
    versionedName name version = name ++ str "V" ++ decimal version := if_neg (by omega)

/-- Two versioned names are the same only if one of them is a bare name. -/
theorem versionedName_eq_cases {b b' : Str} {v v' : ℕ} (hv : 1 ≤ v) (hv' : 1 ≤ v')
    (h : versionedName b v = versionedName b' v') :
    (b = b' ∧ v = v') ∨ (v = 1 ∧ 2 ≤ v' ∧ b = b' ++ str "V" ++ decimal v') ∨
      (v' = 1 ∧ 2 ≤ v ∧ b' = b ++ str "V" ++ decimal v) := by
  obtain rfl | hv := hv.eq_or_lt <;> obtain rfl | hv' := hv'.eq_or_lt
  · exact .inl ⟨h, rfl⟩
  · rw [versionedName_one, versionedName_of_two_le b' hv'] at h
    exact .inr (.inl ⟨rfl, hv', h⟩)
  · rw [versionedName_one, versionedName_of_two_le b hv] at h
    exact .inr (.inr ⟨rfl, hv, h.symm⟩)
  · rw [versionedName_of_two_le b hv, versionedName_of_two_le b' hv'] at h
    exact .inl (suffixed_inj h)

theorem NamesApart.of_concat {done : List ExampleBot} {bot : ExampleBot}
    (h : NamesApart (done ++ [bot])) : NamesApart done := by
  intro a ha other version htwo hle
  apply h a (List.mem_append_left _ ha) other version htwo
  rw [keyCount_concat]
  omega

theorem nodup_of_namesApart {bots : List ExampleBot} (h : NamesApart bots) :
    (versionedNames bots).Nodup := by
  induction bots using List.reverseRecOn with
  | nil => exact List.nodup_nil
  | append_singleton done bot ih =>
      rw [versionedNames_concat, List.nodup_append]
      refine ⟨ih h.of_concat, List.nodup_singleton _, ?_⟩
      intro name hname new hnew heq
      obtain ⟨⟨a, k⟩, hmem, rfl⟩ := List.mem_map.1 hname
      obtain ⟨hone, hle⟩ := (exists_mem_numberedBy_iff ExampleBot.botName).1 ⟨a, rfl, hmem⟩
      have ha : a ∈ done := by
        rw [← map_fst_numberedBy ExampleBot.botName done]
        exact List.mem_map_of_mem hmem
      have hcount := keyCount_concat ExampleBot.botName done bot
      rw [List.mem_singleton.1 hnew] at heq
      rcases versionedName_eq_cases hone (Nat.le_add_left 1 _) heq with
        ⟨hsame, hk⟩ | ⟨-, htwo, hbare⟩ | ⟨-, htwo, hbare⟩
      · rw [hsame] at hle
        omega
      · refine h a (List.mem_append_left _ ha) _ _ htwo ?_ hbare
        rw [hcount, if_pos rfl]
      · refine h bot (by simp) _ _ htwo ?_ hbare
        rw [hcount]
        exact hle.trans (Nat.le_add_right _ _)

theorem namesApart_of_nodup {bots : List ExampleBot} (h : (versionedNames bots).Nodup) :
    NamesApart bots := by
  intro bot hbot other version htwo hle heq
  have hpos : 0 < keyCount ExampleBot.botName bots bot.botName :=
    (keyCount_pos_iff ExampleBot.botName).2 ⟨bot, hbot, rfl⟩
  obtain ⟨a, hname, hfirst⟩ := (exists_mem_numberedBy_iff ExampleBot.botName).2 ⟨le_rfl, hpos⟩
  obtain ⟨c, hother, hlater⟩ :=
    (exists_mem_numberedBy_iff ExampleBot.botName).2 ⟨by omega, hle⟩
  have hclash : versionedName a.botName 1 = versionedName c.botName version := by
    rw [versionedName_one, versionedName_of_two_le _ htwo, hname, hother, heq]
  have hpair := List.inj_on_of_nodup_map h hfirst hlater hclash
  have hversion : 1 = version := congrArg Prod.snd hpair
  omega

/-- From the cleared tables the script inserts every file with a name, the
`k`-th of a name as its version `k`, and returns their number, exactly if the
files are seedable. -/
theorem insertBots_seedsAll_iff (py : Interpreter) (files : List ExampleFile) (db : Db) :
    SeedsAll (namedExamples py files) (insertBots py files (clearTables db)) ↔
      Seedable py files := by
  rcases insertBots_cases py files db with
    ⟨hacceptable, db', hrun, hfilled⟩ | ⟨hnot, db', exc, hrun⟩
  · have hnodup := hfilled.distinct
    rw [hfilled.versionedNames_eq] at hnodup
    refine iff_of_true ?_ ⟨hacceptable, namesApart_of_nodup hnodup⟩
    rw [hrun]
    exact ⟨rfl, hfilled.rows⟩
  · apply iff_of_false
    · rintro ⟨hreturned, -⟩
      rw [hrun] at hreturned
      cases hreturned
    · rintro ⟨hacceptable, hapart⟩
      exact hnot ⟨hacceptable, nodup_of_namesApart hapart⟩

def exampleFile (line : String) : ExampleFile :=
  ⟨asciiBytes ("\"\"\"" ++ line ++ "\"\"\""), plainToken 0x61 hexValue_a, 0⟩

def clashingFiles : List ExampleFile :=
  [exampleFile "name: FooV2", exampleFile "name: Foo", exampleFile "name: Foo"]

/-- The second `Foo` gets the versioned name of `FooV2`: its insert fails, and
the two rows before it stay. -/
theorem seeding_stops_halfway :
    ¬SeedsAll (namedExamples literalModules clashingFiles)
        (insertBots literalModules clashingFiles (clearTables Db.empty)) ∧
      (insertBots literalModules clashingFiles (clearTables Db.empty)).2 =
        .error integrityError ∧
      (insertBots literalModules clashingFiles (clearTables Db.empty)).1.bots.map
        BotRow.versionedName = [str "FooV2", str "Foo"] := by
  have hresult : (insertBots literalModules clashingFiles (clearTables Db.empty)).2 =
      .error integrityError := rfl
  refine ⟨?_, hresult, rfl⟩
  rintro ⟨hreturned, -⟩
  rw [hresult] at hreturned
  cases hreturned

end TictactoeBots
