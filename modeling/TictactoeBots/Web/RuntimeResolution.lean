import TictactoeBots.Dispatcher.PodBuilder
import TictactoeBots.Scripts.SeedExampleBots

/-!
The runtime of a bot from its docstring to its pod.

Uploads and the seed script read the docstring alike, and what they store in the
row is what the build message carries and the `pod_builder` looks up. They part
on a runtime that is not allowed: the upload is rejected, the seeded bot gets
the default.
-/

namespace TictactoeBots

open Text Python

/-- The row and its message agree on a runtime that a pod can be built for. -/
structure Resolved (key : Str) (row : BotRow) (msg : BuildPodMessage) : Prop where
  stored : row.runtimeKey = key
  known : key ∈ runtimeKeys
  pythonVersion : key = str "python-" ++ row.pythonVersion
  botId : msg.botId = row.id
  carried : msg.runtimeKey = key
  imaged : (runtimeImages.lookup msg.runtimeKey).isSome
  fetched : ∀ bots, row.id ∈ bots.map BotRow.id →
    ∃ bot image, fetchBotAndRuntime bots msg = some (bot, image) ∧ bot.id = row.id

theorem resolved_of_mem {key : Str} {row : BotRow} (hkey : key ∈ runtimeKeys)
    (hstored : row.runtimeKey = key)
    (hversion : row.pythonVersion = pythonVersionFromRuntimeKey key) :
    Resolved key row ⟨row.id, row.runtimeKey⟩ := by
  refine ⟨hstored, hkey, ?_, rfl, hstored, ?_, ?_⟩
  · rw [hversion]
    exact pythonVersion_of_mem hkey
  · rw [hstored]
    exact isSome_lookup_runtimeImages hkey
  · intro bots hbot
    rw [hstored]
    exact fetchBotAndRuntime_of_known hbot hkey

/-! ### Uploads -/

section Upload

variable {py : Interpreter} {faults : Faults} {rows : List BotRow} {drawn : OwnerToken} {now : ℕ}
  {upload : Upload} {w : Backend}

theorem declaredKey_of_prepare {valid : Prepared} (h : prepare py upload = .ok (.ok valid)) :
    ∃ docstring, py.docstring (Utf8.decodeReplace upload.sourceBytes) = .ok (some docstring) ∧
      valid.runtimeKey = declaredKey docstring ∧ declaredKey docstring ∈ runtimeKeys := by
  obtain ⟨⟨name, hname, hvalidName⟩, ⟨key, hkey, hvalidKey⟩, -⟩ := prepare_valid h
  obtain ⟨rfl, -⟩ := validateBotName_eq_ok hvalidName
  obtain rfl := validateRuntimeKey_eq_ok hvalidKey
  obtain ⟨docstring, hdocstring⟩ := docstring_of_extractBotName hname
  rw [extractRuntimeKey_eq hdocstring, Except.ok.injEq, Option.ite_none_right_eq_some] at hkey
  exact ⟨docstring, hdocstring, (Option.some.inj hkey.2).symm, hkey.1⟩

theorem handleSubmission_rejects {docstring : Str}
    (hdocstring : py.docstring (Utf8.decodeReplace upload.sourceBytes) = .ok (some docstring))
    (hkey : declaredKey docstring ∉ runtimeKeys) :
    ∃ error, handleSubmission py faults rows drawn now upload w = (w, .ok (.rejected error)) := by
  have hprepare : ∃ error, prepare py upload = .ok (.error error) := by
    unfold prepare extractBotName
    simp only [hdocstring, extractRuntimeKey_eq hdocstring, if_neg hkey, bind, Except.bind, pure,
      Except.pure]
    cases validateBotName py.unicode (findName (splitlines docstring)) with
    | error err => exact ⟨err, rfl⟩
    | ok botName => exact ⟨_, rfl⟩
  obtain ⟨error, hprepare⟩ := hprepare
  refine ⟨error, ?_⟩
  unfold handleSubmission
  rw [hprepare]

end Upload

/-! ### Seeded bots -/

/-- The row and its message are what the seed script makes of one of the files. -/
def FromFiles (py : Interpreter) (files : List ExampleFile) (row : BotRow)
    (msg : BuildPodMessage) : Prop :=
  ∃ file ∈ files, ∃ docstring,
    py.docstring (Utf8.decodeReplace file.sourceBytes) = .ok (some docstring) ∧
      row.source = some file.sourceBytes ∧
        Resolved (seededKey docstring) row msg

theorem fromFiles_of_readExample {py : Interpreter} {files : List ExampleFile}
    {file : ExampleFile} {bot : ExampleBot} (hfile : file ∈ files)
    (h : readExample py file = .ok (some bot)) (version id now : ℕ) :
    FromFiles py files ((bot.new version).row id now) ⟨id, bot.runtimeKey⟩ := by
  obtain ⟨docstring, hdocstring, rfl, hkey⟩ := readExample_eq_some h
  refine ⟨_, hfile, docstring, hdocstring, rfl, ?_⟩
  apply resolved_of_mem (seededKey_mem docstring)
  · exact hkey
  · exact congrArg pythonVersionFromRuntimeKey hkey

theorem FromFiles.cons {py : Interpreter} {files : List ExampleFile} {row : BotRow}
    {msg : BuildPodMessage} (h : FromFiles py files row msg) (file : ExampleFile) :
    FromFiles py (file :: files) row msg := by
  obtain ⟨other, hother, hrow⟩ := h
  exact ⟨other, List.mem_cons_of_mem _ hother, hrow⟩

theorem addExample_bots (db : Db) (bot : ExampleBot) :
    (∃ db' exc, addExample db bot = (db', .error exc) ∧ db'.bots = db.bots) ∨
    ∃ db' version id, addExample db bot = (db', .ok ((bot.new version).row id bot.now)) ∧
      db'.bots = db.bots ++ [(bot.new version).row id bot.now] := by
  unfold addExample
  split
  · exact .inl ⟨db, _, rfl, rfl⟩
  · rcases db.create_cases bot.now (bot.new (nextVersion db.bots bot.botName)) with
      ⟨-, exc, seq, -, heq⟩ | ⟨-, heq⟩
    · exact .inl ⟨_, exc, heq, rfl⟩
    · exact .inr ⟨_, _, _, heq, rfl⟩

theorem insertLoop_rows (py : Interpreter) (files : List ExampleFile) (inserted : ℕ) (db : Db) :
    ∃ seeded, (insertLoop py files inserted db).1.bots = db.bots ++ seeded ∧
      ∀ row ∈ seeded, FromFiles py files row ⟨row.id, row.runtimeKey⟩ := by
  induction files generalizing inserted db with
  | nil => exact ⟨[], (List.append_nil _).symm, by simp⟩
  | cons file rest ih =>
      unfold insertLoop
      cases hread : readExample py file with
      | error exc => exact ⟨[], (List.append_nil _).symm, by simp⟩
      | ok found =>
          cases found with
          | none =>
              obtain ⟨seeded, hbots, hrows⟩ := ih inserted db
              exact ⟨seeded, hbots, fun row hrow => (hrows row hrow).cons file⟩
          | some bot =>
              rcases addExample_bots db bot with
                ⟨db', exc, hadd, hbots⟩ | ⟨db', version, id, hadd, hbots⟩
              · simp only [hadd]
                exact ⟨[], by rw [hbots, List.append_nil], by simp⟩
              · simp only [hadd]
                obtain ⟨seeded, hrest, hrows⟩ := ih (inserted + 1) db'
                refine ⟨(bot.new version).row id bot.now :: seeded, ?_, ?_⟩
                · rw [hrest, hbots, List.append_assoc, List.singleton_append]
                · intro row hrow
                  obtain rfl | hrow := List.mem_cons.1 hrow
                  · exact fromFiles_of_readExample List.mem_cons_self hread _ _ _
                  · exact (hrows row hrow).cons file

/-! ### Both ways -/

/-- The key that a docstring declares, the one in the row, the Python version,
the message and the image all agree, for uploads as for seeded bots. An upload
that declares a runtime that is not allowed is rejected. -/
theorem runtimeResolution_sound (py : Interpreter) :
    (∀ faults rows drawn now upload w w' message ownedBots,
      handleSubmission py faults rows drawn now upload w =
          (w', .ok (.success message ownedBots)) →
        ∃ docstring row msg,
          py.docstring (Utf8.decodeReplace upload.sourceBytes) = .ok (some docstring) ∧
          w'.db.bots = w.db.bots ++ [row] ∧ w'.buildQueue = w.buildQueue ++ [msg] ∧
          row.source = some upload.sourceBytes ∧ Resolved (declaredKey docstring) row msg) ∧
    (∀ faults rows drawn now upload w docstring,
      py.docstring (Utf8.decodeReplace upload.sourceBytes) = .ok (some docstring) →
        declaredKey docstring ∉ runtimeKeys →
          ∃ error, handleSubmission py faults rows drawn now upload w =
            (w, .ok (.rejected error))) ∧
    (∀ files db, ∃ seeded, (insertBots py files db).1.bots = db.bots ++ seeded ∧
      ∀ row ∈ seeded, FromFiles py files row ⟨row.id, row.runtimeKey⟩) ∧
    ∀ files db allBots, allBots.Perm (insertBots py files (clearTables db)).1.bots →
      List.Forall₂ (FromFiles py files) allBots (enqueueBuilds allBots) := by
  refine ⟨?_, ?_, fun files db => insertLoop_rows py files 0 db, ?_⟩
  · intro faults rows drawn now upload w w' message ownedBots h
    obtain ⟨valid, token, hprepare, -, hbots, hqueue⟩ := handleSubmission_success h
    obtain ⟨docstring, hdocstring, hkey, hknown⟩ := declaredKey_of_prepare hprepare
    obtain ⟨-, -, -, hsource⟩ := prepare_valid hprepare
    refine ⟨docstring, _, _, hdocstring, hbots, hqueue, congrArg some hsource, ?_⟩
    exact resolved_of_mem hknown hkey (congrArg pythonVersionFromRuntimeKey hkey)
  · intro faults rows drawn now upload w docstring hdocstring hkey
    exact handleSubmission_rejects hdocstring hkey
  · intro files db allBots hperm
    obtain ⟨seeded, hbots, hrows⟩ := insertLoop_rows py files 0 (clearTables db)
    have hseeded : (insertBots py files (clearTables db)).1.bots = seeded := hbots
    unfold enqueueBuilds
    rw [List.forall₂_map_right_iff, List.forall₂_same]
    intro row hrow
    rw [hperm.mem_iff, hseeded] at hrow
    exact hrows row hrow

def bothFields : Upload :=
  ⟨asciiBytes "\"\"\"Language: python-3.12\nname: Foo\npython: 3.10\"\"\"", none⟩

def oldPython : Upload := ⟨asciiBytes "\"\"\"name: Foo\npython: 2.7\"\"\"", none⟩

def plainSubmission (upload : Upload) : Backend × Except PyException SubmitResponse :=
  handleSubmission literalModules ⟨none, none, none, none, none⟩ [] (plainToken 0x61 hexValue_a) 0
    upload Backend.empty

/-- An upload with both fields, one with a runtime that is not allowed, and the
same two as seeded files. -/
theorem runtimeResolution_sound_bothFields :
    (∃ docstring row msg,
      literalModules.docstring (Utf8.decodeReplace bothFields.sourceBytes) = .ok (some docstring) ∧
      (plainSubmission bothFields).1.db.bots = [row] ∧
      (plainSubmission bothFields).1.buildQueue = [msg] ∧
      row.source = some bothFields.sourceBytes ∧ Resolved (declaredKey docstring) row msg) ∧
    (∃ error, plainSubmission oldPython = (Backend.empty, .ok (.rejected error))) ∧
    ∃ files bots, bots.map BotRow.runtimeKey = [str "python-3.12", str "python-3.14"] ∧
      List.Forall₂ (FromFiles literalModules files) bots (enqueueBuilds bots) := by
  obtain ⟨haccepted, hrejected, -, hseeded⟩ := runtimeResolution_sound literalModules
  refine ⟨?_, ?_, ?_⟩
  · exact haccepted ⟨none, none, none, none, none⟩ [] (plainToken 0x61 hexValue_a) 0 bothFields
      Backend.empty _ _ _ rfl
  · exact hrejected _ _ _ _ oldPython Backend.empty _ rfl (by decide)
  · refine ⟨[bothFields, oldPython].map fun upload =>
      ⟨upload.sourceBytes, plainToken 0x61 hexValue_a, 0⟩, _, ?_,
        hseeded _ Db.empty _ (List.Perm.refl _)⟩
    decide

end TictactoeBots
