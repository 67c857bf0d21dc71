import TictactoeBots.Lib.JsonRoundTrip
import TictactoeBots.Web.ConcurrentSubmit
import TictactoeBots.Web.SubmitFailures

/-!
Version numbers and the names made of them.

`next_version` reads and `create` inserts later, so a version may be stale by
then. What keeps the numbers dense is the unique constraint on the versioned
name: of two inserts of one version only the first gets in. That no two
families share a versioned name is due to the names that are refused.
-/

namespace TictactoeBots

open Text Python StepSystem

variable {py : Interpreter}

/-! ### Versions of a family -/

def versions (rows : List BotRow) (baseName : Str) : List ℕ :=
  (rows.filter fun bot => bot.baseName == baseName).map BotRow.version

/-- Every family has the versions `1..n`, each once. -/
def Numbered (rows : List BotRow) : Prop :=
  ∀ baseName, versions rows baseName = List.range' 1 (versions rows baseName).length

/-- Every row has the name that belongs to its version. -/
def Named (rows : List BotRow) : Prop :=
  ∀ bot ∈ rows, bot.versionedName = versionedName bot.baseName bot.version

theorem mem_versions {rows : List BotRow} {baseName : Str} {version : ℕ} :
    version ∈ versions rows baseName ↔
      ∃ bot ∈ rows, bot.baseName = baseName ∧ bot.version = version := by
  simp [versions, and_assoc]

@[simp] theorem versions_append (rows : List BotRow) (row : BotRow) (baseName : Str) :
    versions (rows ++ [row]) baseName =
      versions rows baseName ++ if row.baseName = baseName then [row.version] else [] := by
  by_cases h : row.baseName = baseName <;> simp [versions, h]

theorem Numbered.mem_iff {rows : List BotRow} (h : Numbered rows) {baseName : Str} {version : ℕ} :
    version ∈ versions rows baseName ↔
      1 ≤ version ∧ version ≤ (versions rows baseName).length := by
  rw [h baseName, List.mem_range'_1, List.length_range']
  omega

theorem Numbered.nextVersion_eq {rows : List BotRow} (h : Numbered rows) (baseName : Str) :
    nextVersion rows baseName = (versions rows baseName).length + 1 := by
  have hmax : (versions rows baseName).max?.getD 0 = (versions rows baseName).length := by
    cases hlast : (versions rows baseName).max? with
    | none =>
        rw [List.max?_eq_none_iff.1 hlast]
        rfl
    | some last =>
        obtain ⟨hmem, hle⟩ := List.max?_eq_some_iff.1 hlast
        obtain ⟨hone, hlast⟩ := h.mem_iff.1 hmem
        have hlength := hle _ (h.mem_iff.2 ⟨hone.trans hlast, le_rfl⟩)
        simp only [Option.getD_some]
        omega
  exact congrArg (· + 1) hmax

theorem Numbered.append {rows : List BotRow} (h : Numbered rows) {row : BotRow}
    (hrow : row.version = (versions rows row.baseName).length + 1) : Numbered (rows ++ [row]) := by
  intro baseName
  rw [versions_append]
  by_cases hname : row.baseName = baseName
  · subst hname
    rw [if_pos rfl, List.length_append, List.length_singleton, List.range'_concat, ← h, hrow]
    simp [Nat.add_comm]
  · rw [if_neg hname, List.append_nil, ← h]

theorem Named.append {rows : List BotRow} (h : Named rows) {row : BotRow}
    (hrow : row.versionedName = versionedName row.baseName row.version) :
    Named (rows ++ [row]) := by
  intro bot hbot
  obtain hbot | hbot := List.mem_append.1 hbot
  · exact h bot hbot
  · obtain rfl := List.mem_singleton.1 hbot
    exact hrow

/-- An insert that the unique constraint lets in cannot repeat a version. -/
theorem Numbered.version_of_admits {db : Db} (h : Numbered db.bots) (hnamed : Named db.bots)
    {valid : Prepared} {token : Str} {version : ℕ}
    (hpos : 1 ≤ version) (hle : version ≤ (versions db.bots valid.botName).length + 1)
    (hadmits : db.Admits (newBot valid token version)) :
    version = (versions db.bots valid.botName).length + 1 := by
  by_contra hne
  have hmem : version ∈ versions db.bots valid.botName := h.mem_iff.2 ⟨hpos, by omega⟩
  obtain ⟨bot, hbot, hname, hversion⟩ := mem_versions.1 hmem
  apply hadmits.2 bot hbot
  rw [hnamed bot hbot, hname, hversion]
  rfl

/-! ### Overlapping submissions -/

/-- Everything in the row comes from the upload of one request. -/
def Insertion.FromUpload (ins : Insertion py) : Prop :=
  let source := Utf8.decodeReplace ins.submission.upload.sourceBytes
  extractBotName py source = .ok (some ins.row.baseName) ∧
    extractRuntimeKey py source = .ok (some ins.row.runtimeKey) ∧
    ins.row.pythonVersion = pythonVersionFromRuntimeKey ins.row.runtimeKey ∧
    ins.row.source = some ins.submission.upload.sourceBytes

structure VersionsKept (s : SubmitSystem py) : Prop where
  rows : s.inserted.map Insertion.row = s.db.bots
  numbered : Numbered s.db.bots
  named : Named s.db.bots
  fromUpload : ∀ ins ∈ s.inserted, ins.FromUpload

/-- The version a request has selected may have been taken since, but it is not
beyond the next one. -/
def RunningSubmission.InRange (bots : List BotRow) (r : RunningSubmission py) : Prop :=
  match r.stage with
  | .started | .resolved _ _ => True
  | .versioned _ _ version =>
      1 ≤ version ∧ version ≤ (versions bots r.submission.valid.botName).length + 1

theorem RunningSubmission.InRange.append {bots : List BotRow} {r : RunningSubmission py}
    (h : r.InRange bots) (row : BotRow) : r.InRange (bots ++ [row]) := by
  obtain ⟨sub, stage⟩ := r
  cases stage with
  | started | resolved _ _ => trivial
  | versioned token isNew version =>
      refine ⟨h.1, h.2.trans ?_⟩
      simp only [versions_append, List.length_append]
      omega

theorem validateBotName_eq_ok {U : UnicodeData} {name : Option Str} {botName : Str}
    (h : validateBotName U name = .ok botName) :
    name = some botName ∧ botName ≠ [] ∧ reservedVersionSuffix U botName = false := by
  unfold validateBotName at h
  split at h
  · cases h
  · cases h
  · rename_i name hne
    split at h
    · cases h
    · rename_i hreserved
      cases h
      exact ⟨rfl, hne, by simpa using hreserved⟩

theorem validateRuntimeKey_eq_ok {key : Option Str} {runtimeKey : Str}
    (h : validateRuntimeKey key = .ok runtimeKey) : key = some runtimeKey := by
  cases key with
  | none => cases h
  | some key =>
      cases h
      rfl

theorem Submission.fromUpload (sub : Submission py) (token : Str) (version id now : ℕ) :
    (⟨(newBot sub.valid token version).row id now, sub⟩ : Insertion py).FromUpload := by
  obtain ⟨⟨name, hname, hvalidName⟩, ⟨key, hkey, hvalidKey⟩, -, hsource⟩ :=
    prepare_valid sub.prepared
  obtain ⟨rfl, -⟩ := validateBotName_eq_ok hvalidName
  obtain rfl := validateRuntimeKey_eq_ok hvalidKey
  exact ⟨hname, hkey, rfl, congrArg some hsource⟩

structure VersionsSound (s : SubmitSystem py) : Prop extends VersionsKept s where
  running : ∀ r ∈ s.running, r.InRange s.db.bots

theorem VersionsSound.move {s : SubmitSystem py} (h : VersionsSound s) {seq : ℕ}
    {running : List (RunningSubmission py)} (hrunning : ∀ r ∈ running, r.InRange s.db.bots) :
    VersionsSound { s with db := { s.db with botSeq := seq }, running := running } :=
  ⟨⟨h.rows, h.numbered, h.named, h.fromUpload⟩, hrunning⟩

theorem versionsSound_step {s s' : SubmitSystem py} {action : SubmitAction}
    (h : VersionsSound s) (hstep : submitStep s action = some s') : VersionsSound s' := by
  cases moves_of_submitStep hstep with
  | arrive sub => exact h.move (List.forall_mem_cons.2 ⟨trivial, h.running⟩)
  | findOwner hperm _ _ | findFree hperm _ _ =>
      have hrange := List.forall_mem_cons.1 fun r hr => h.running r (hperm.mem_iff.2 hr)
      exact h.move (List.forall_mem_cons.2 ⟨trivial, hrange.2⟩)
  | selectVersion _ hperm =>
      have hrange := List.forall_mem_cons.1 fun r hr => h.running r (hperm.mem_iff.2 hr)
      refine h.move (List.forall_mem_cons.2 ⟨?_, hrange.2⟩)
      simp only [RunningSubmission.InRange, h.numbered.nextVersion_eq]
      omega
  | @inserts i now version sub token isNew others hperm hadmits =>
      have hrange := List.forall_mem_cons.1 fun r hr => h.running r (hperm.mem_iff.2 hr)
      obtain ⟨hpos, hle⟩ := hrange.1
      have hversion := h.numbered.version_of_admits h.named hpos hle hadmits
      refine ⟨⟨?_, ?_, ?_, ?_⟩, ?_⟩
      · simp [h.rows]
      · apply h.numbered.append
        exact hversion
      · apply h.named.append
        rfl
      · intro ins hins
        obtain hins | hins := List.mem_append.1 hins
        · exact h.fromUpload ins hins
        · rw [List.mem_singleton.1 hins]
          exact sub.fromUpload token version _ now
      · exact fun r hr => (hrange.2 r hr).append _
  | refused hperm | gone hperm =>
      exact h.move fun r hr => h.running r (hperm.mem_iff.2 (List.mem_cons_of_mem _ hr))

/-- However submissions overlap, every family has the versions `1..n`, each
under its own name and with the source and the runtime of one upload. -/
theorem versions_kept {s : SubmitSystem py}
    (h : Reachable submitStep (SubmitSystem.start py) s) : VersionsKept s := by
  have hstart : VersionsSound (SubmitSystem.start py) := by
    refine ⟨⟨rfl, fun baseName => rfl, ?_, ?_⟩, ?_⟩
    · intro bot hbot
      exact absurd hbot List.not_mem_nil
    · intro ins hins
      exact absurd hins List.not_mem_nil
    · intro r hr
      exact absurd hr List.not_mem_nil
  exact (h.invariant hstart fun s action s' hsound hstep =>
    versionsSound_step hsound hstep).toVersionsKept

/-- Two requests of one owner select the same version; the second insert is
refused, and a later request gets the number. -/
theorem versions_kept_overlap :
    ∃ s, Reachable submitStep (SubmitSystem.start literalModules) s ∧
      versions s.db.bots (str "Foo") = [1, 2] ∧ s.running = [] ∧ VersionsKept s := by
  have hrun : Reachable submitStep (SubmitSystem.start literalModules) _ :=
    reachable_of_exec [.arrive namedUpload, .arrive namedUpload, .arrive namedUpload,
      .selectOwner 2 [] (plainToken 0x61 rfl), .selectOwner 2 [] (plainToken 0x61 rfl),
      .selectOwner 2 [] (plainToken 0x61 rfl),
      .selectVersion 2, .selectVersion 2, .insert 1 0, .insert 0 1,
      .selectVersion 0, .insert 0 2] rfl
  exact ⟨_, hrun, rfl, rfl, versions_kept hrun⟩

/-! ### Names of different families -/

/-- A name that is read off some source and passes the validation. -/
def AcceptedName (py : Interpreter) (baseName : Str) : Prop :=
  ∃ source, extractBotName py source = .ok (some baseName) ∧
    validateBotName py.unicode (some baseName) = .ok baseName

theorem isDecimal_of_mem_decimal (U : UnicodeData) {n : ℕ} {c : CodePoint}
    (h : c ∈ decimal n) : U.isDecimal c = true := by
  have hdigit := Json.isDigit_of_mem_decimal c h
  simp only [Json.isDigit, Bool.and_eq_true, decide_eq_true_eq] at hdigit
  exact (U.isDecimal_ascii c (by omega)).2 hdigit

theorem not_isDecimal_V (U : UnicodeData) : U.isDecimal 0x56 = false := by
  rw [Bool.eq_false_iff]
  intro h
  exact absurd ((U.isDecimal_ascii 0x56 (by decide)).1 h) (by decide)

theorem reverse_suffixed (U : UnicodeData) (baseName : Str) (version : ℕ) :
    (baseName ++ str "V" ++ decimal version).reverse.takeWhile U.isDecimal =
        (decimal version).reverse ∧
      (baseName ++ str "V" ++ decimal version).reverse.dropWhile U.isDecimal =
        0x56 :: baseName.reverse := by
  have hrev : (baseName ++ str "V" ++ decimal version).reverse =
      (decimal version).reverse ++ 0x56 :: baseName.reverse := by
    rw [List.reverse_append, List.reverse_append]
    rfl
  have hdigits : ∀ c ∈ (decimal version).reverse, U.isDecimal c = true := fun c hc =>
    isDecimal_of_mem_decimal U (List.mem_reverse.1 hc)
  rw [hrev, List.takeWhile_append_of_pos hdigits, List.dropWhile_append_of_pos hdigits,
    List.takeWhile_cons_of_neg (by simp [not_isDecimal_V]),
    List.dropWhile_cons_of_neg (by simp [not_isDecimal_V])]
  exact ⟨List.append_nil _, rfl⟩

theorem reservedVersionSuffix_suffixed (U : UnicodeData) (baseName : Str) (version : ℕ) :
    reservedVersionSuffix U (baseName ++ str "V" ++ decimal version) = true := by
  obtain ⟨htake, hdrop⟩ := reverse_suffixed U baseName version
  unfold reservedVersionSuffix
  simp only [htake, hdrop]
  simp [Json.decimal_ne_nil]

/-- The suffix begins at the last `V` that digits follow. -/
theorem suffixed_inj {b b' : Str} {v v' : ℕ}
    (h : b ++ str "V" ++ decimal v = b' ++ str "V" ++ decimal v') : b = b' ∧ v = v' := by
  obtain ⟨htake, hdrop⟩ := reverse_suffixed asciiData b v
  obtain ⟨htake', hdrop'⟩ := reverse_suffixed asciiData b' v'
  rw [h, htake'] at htake
  rw [h, hdrop'] at hdrop
  have hdigits : decimal v' = decimal v := List.reverse_injective htake
  have hname : b' = b := List.reverse_injective (List.cons.inj hdrop).2
  exact ⟨hname.symm, (Json.decimal_injective hdigits).symm⟩

theorem versionedName_inj {U : UnicodeData} {b b' : Str} {v v' : ℕ}
    (hb : reservedVersionSuffix U b = false) (hb' : reservedVersionSuffix U b' = false)
    (h : versionedName b v = versionedName b' v') : b = b' ∧ v = v' := by
  unfold versionedName at h
  split at h <;> split at h
  · rename_i hv hv'
    exact ⟨h, hv.trans hv'.symm⟩
  · rw [h, reservedVersionSuffix_suffixed] at hb
    cases hb
  · rw [← h, reservedVersionSuffix_suffixed] at hb'
    cases hb'
  · exact suffixed_inj h

/-! ### One upload after the other -/

/-- One run of the handler and what it meets: the calls that raise, the rows in
the order of the select, the drawn token and the time. -/
structure UploadRun where
  faults : Faults
  rows : List BotRow
  drawn : OwnerToken
  now : ℕ
  upload : Upload

/-- The handler runs from the upload to the page without another one in
between. -/
def uploadStep (py : Interpreter) (w : Backend) (run : UploadRun) : Option Backend :=
  if run.rows.Perm w.db.bots then
    some (handleSubmission py run.faults run.rows run.drawn run.now run.upload w).1
  else none

def Backend.empty : Backend := ⟨Db.empty, [], []⟩

theorem handleSubmission_bots (faults : Faults) (rows : List BotRow) (drawn : OwnerToken)
    (now : ℕ) (upload : Upload) (w : Backend) :
    (handleSubmission py faults rows drawn now upload w).1.db.bots = w.db.bots ∨
    ∃ valid token, prepare py upload = .ok (.ok valid) ∧
      (handleSubmission py faults rows drawn now upload w).1.db.bots = w.db.bots ++
        [(newBot valid token (nextVersion w.db.bots valid.botName)).row (w.db.botSeq + 1) now] := by
  have hpersist : ∀ valid token,
      (persistAndAnnounce faults now valid token w).1.db.bots = w.db.bots ∨
      (persistAndAnnounce faults now valid token w).1.db.bots = w.db.bots ++
        [(newBot valid token (nextVersion w.db.bots valid.botName)).row (w.db.botSeq + 1) now] := by
    intro valid token
    unfold persistAndAnnounce
    rcases w.db.create_cases now (newBot valid token (nextVersion w.db.bots valid.botName)) with
      ⟨_, exc, seq, _, heq⟩ | ⟨_, heq⟩ <;>
    cases faults.nextVersion <;> cases faults.create <;> cases faults.enqueueBuildPod <;>
      cases faults.publishEvent <;> simp [heq]
  unfold handleSubmission
  split
  · exact .inl rfl
  · exact .inl rfl
  · rename_i valid hprepare
    split
    · exact .inl rfl
    · split
      · exact .inl rfl
      · exact .inl rfl
      · rename_i token _
        exact (hpersist valid token).imp id fun h => ⟨valid, token, hprepare, h⟩
      · rename_i token _
        exact (hpersist valid token).imp id fun h => ⟨valid, token, hprepare, h⟩

/-- What uploads one after the other keep. -/
structure FamiliesApart (py : Interpreter) (bots : List BotRow) : Prop where
  numbered : Numbered bots
  named : Named bots
  accepted : ∀ bot ∈ bots, AcceptedName py bot.baseName

theorem acceptedName_of_prepare {upload : Upload} {valid : Prepared}
    (h : prepare py upload = .ok (.ok valid)) : AcceptedName py valid.botName := by
  obtain ⟨⟨name, hname, hvalid⟩, -⟩ := prepare_valid h
  obtain ⟨rfl, -⟩ := validateBotName_eq_ok hvalid
  exact ⟨_, hname, hvalid⟩

theorem FamiliesApart.append {bots : List BotRow} (h : FamiliesApart py bots) {valid : Prepared}
    (hvalid : AcceptedName py valid.botName) (token : Str) (id now : ℕ) :
    FamiliesApart py
      (bots ++ [(newBot valid token (nextVersion bots valid.botName)).row id now]) := by
  refine ⟨h.numbered.append ?_, h.named.append rfl, ?_⟩
  · exact h.numbered.nextVersion_eq valid.botName
  · intro bot hbot
    obtain hbot | hbot := List.mem_append.1 hbot
    · exact h.accepted bot hbot
    · obtain rfl := List.mem_singleton.1 hbot
      exact hvalid

theorem familiesApart_step {w w' : Backend} {run : UploadRun} (h : FamiliesApart py w.db.bots)
    (hstep : uploadStep py w run = some w') : FamiliesApart py w'.db.bots := by
  simp only [uploadStep, Option.ite_none_right_eq_some, Option.some.injEq] at hstep
  obtain ⟨-, rfl⟩ := hstep
  obtain hsame | ⟨valid, token, hprepare, happend⟩ :=
    @handleSubmission_bots py run.faults run.rows run.drawn run.now run.upload w
  · rw [hsame]
    exact h
  · rw [happend]
    exact h.append (acceptedName_of_prepare hprepare) token _ _

theorem FamiliesApart.next_free {bots : List BotRow} (h : FamiliesApart py bots) {name : Str}
    (hname : AcceptedName py name) :
    ∀ bot ∈ bots, bot.versionedName ≠ versionedName name (nextVersion bots name) := by
  intro bot hbot heq
  obtain ⟨_, -, hvalid⟩ := hname
  obtain ⟨_, -, hvalidBot⟩ := h.accepted bot hbot
  rw [h.named bot hbot] at heq
  obtain ⟨rfl, hversion⟩ := versionedName_inj (validateBotName_eq_ok hvalidBot).2.2
    (validateBotName_eq_ok hvalid).2.2 heq
  have hle := (h.numbered.mem_iff.1 (mem_versions.2 ⟨bot, hbot, rfl, rfl⟩)).2
  rw [hversion, h.numbered.nextVersion_eq] at hle
  omega

theorem create_ne_integrityError {db : Db} {now : ℕ} {new : NewBot}
    (h : ∀ bot ∈ db.bots, bot.versionedName ≠ new.versionedName) :
    (db.create now new).2 ≠ .error integrityError := by
  have hfree : (db.bots.any fun bot => bot.versionedName == new.versionedName) = false := by
    simpa using h
  unfold Db.create
  split
  · simp [dataError, integrityError, str]
  · simp [hfree]

/-- Versioned names of accepted names never collide, so uploads one after the
other never meet the unique constraint. -/
theorem versionedNames_apart (py : Interpreter) :
    (∀ b b' v v', AcceptedName py b → AcceptedName py b' → 1 ≤ v → 1 ≤ v' →
      versionedName b v = versionedName b' v' → b = b' ∧ v = v') ∧
    ∀ w, Reachable (uploadStep py) Backend.empty w →
      ∀ upload valid token now, prepare py upload = .ok (.ok valid) →
        (w.db.create now (newBot valid token (nextVersion w.db.bots valid.botName))).2 ≠
          .error integrityError := by
  constructor
  · rintro b b' v v' ⟨_, -, hb⟩ ⟨_, -, hb'⟩ - - heq
    exact versionedName_inj (validateBotName_eq_ok hb).2.2 (validateBotName_eq_ok hb').2.2 heq
  · intro w hw upload valid token now hprepare
    have hstart : FamiliesApart py Backend.empty.db.bots := by
      refine ⟨fun baseName => rfl, ?_, ?_⟩
      · intro bot hbot
        exact absurd hbot List.not_mem_nil
      · intro bot hbot
        exact absurd hbot List.not_mem_nil
    have hapart : FamiliesApart py w.db.bots :=
      hw.invariant hstart fun w run w' h hstep => familiesApart_step h hstep
    exact create_ne_integrityError (hapart.next_free (acceptedName_of_prepare hprepare))

/-- After an upload of `Foo`, for which everything works, and at its next one. -/
theorem versionedNames_apart_foo :
    (str "Foo" = str "Foo" ∧ 2 = 2) ∧
    ∃ w valid, Reachable (uploadStep literalModules) Backend.empty w ∧ w.db.bots.length = 1 ∧
      prepare literalModules namedUpload = .ok (.ok valid) ∧
      (w.db.create 1 (newBot valid (str "token") (nextVersion w.db.bots valid.botName))).2 ≠
        .error integrityError := by
  have hname : AcceptedName literalModules (str "Foo") :=
    ⟨Utf8.decodeReplace namedUpload.sourceBytes, rfl, rfl⟩
  have hrun : Reachable (uploadStep literalModules) Backend.empty _ :=
    reachable_of_exec
      [⟨⟨none, none, none, none, none⟩, [], plainToken 0x61 rfl, 0, namedUpload⟩] rfl
  refine ⟨(versionedNames_apart literalModules).1 _ _ 2 2 hname hname (by decide) (by decide) rfl,
    _, _, hrun, rfl, rfl, ?_⟩
  exact (versionedNames_apart literalModules).2 _ hrun namedUpload _ _ _ rfl

end TictactoeBots
