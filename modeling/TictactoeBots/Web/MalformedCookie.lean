import TictactoeBots.Web.SubmitFailures

/-!
A cookie that is no JSON object against no cookie at all.

`parse_cookie` drops what fails to decode, but not what decodes to something
else than an object. The decoded value is used twice: to look up the token that
the browser presents, which happens before the insert and only where the name
has an owner, and to add the new token to it, which happens after the row is
committed and the messages are sent. Neither use works on a value without keys.
-/

namespace TictactoeBots

open Text Python

/-! ### Two submissions that differ in their cookie -/

/-- The row was committed and both messages were sent, and still the request
ends in an exception. -/
def RaisesAfterCommit (faults : Faults) (before : Backend)
    (run : Backend × Except PyException SubmitResponse) : Prop :=
  faults.enqueueBuildPod = none ∧ faults.publishEvent = none ∧
    run.1.db.bots ≠ before.db.bots ∧ ∃ exc, run.2 = .error exc

/-- With the cookie `c` the submission does what it does without one: the same
decision, rows, messages and page, and no exception once the row is there. -/
def LikeNoCookie (py : Interpreter) (faults : Faults) (rows : List BotRow) (drawn : OwnerToken)
    (now : ℕ) (sourceBytes : List UInt8) (c : Str) (w : Backend) : Prop :=
  handleSubmission py faults rows drawn now ⟨sourceBytes, some c⟩ w =
      handleSubmission py faults rows drawn now ⟨sourceBytes, none⟩ w ∧
    ¬RaisesAfterCommit faults w
      (handleSubmission py faults rows drawn now ⟨sourceBytes, some c⟩ w)

/-! ### How far a submission without a cookie gets -/

/-- The upload is validated, so that the cookie is parsed. -/
def Validates (py : Interpreter) (sourceBytes : List UInt8) : Prop :=
  ∃ valid, prepare py ⟨sourceBytes, none⟩ = .ok (.ok valid)

/-- The select finds an owner token, which the cookie is compared with. -/
def ComparesToken (py : Interpreter) (faults : Faults) (rows : List BotRow)
    (sourceBytes : List UInt8) : Prop :=
  ∃ valid, prepare py ⟨sourceBytes, none⟩ = .ok (.ok valid) ∧ faults.ownerToken = none ∧
    storable valid.botName ∧ ∃ c rest, ownerToken rows valid.botName = some (c :: rest)

/-- The row is inserted and both messages are sent, so that the page is made. -/
def MakesPage (py : Interpreter) (faults : Faults) (rows : List BotRow) (drawn : OwnerToken)
    (sourceBytes : List UInt8) (w : Backend) : Prop :=
  Inserts py faults rows drawn ⟨sourceBytes, none⟩ w ∧
    faults.enqueueBuildPod = none ∧ faults.publishEvent = none

/-- The first database call that raises, before anything is inserted, raises `exc`. -/
def DatabaseRaises (py : Interpreter) (faults : Faults) (rows : List BotRow)
    (drawn : OwnerToken) (sourceBytes : List UInt8) (exc : PyException) : Prop :=
  ∃ valid, prepare py ⟨sourceBytes, none⟩ = .ok (.ok valid) ∧
    (faults.ownerToken = some exc ∨
      (faults.ownerToken = none ∧
        resolveOwnerToken rows valid drawn = .ok (.fresh drawn.text) ∧
        (faults.nextVersion = some exc ∨
          (faults.nextVersion = none ∧ faults.create = some exc))))

/-- What the cookie is parsed to does no harm: it is a `dict`, or nothing looks
into it; or parsing it raises what the database raises anyway. -/
def CookieHarmless (py : Interpreter) (faults : Faults) (rows : List BotRow) (drawn : OwnerToken)
    (sourceBytes : List UInt8) (c : Str) (w : Backend) : Prop :=
  match parseCookie py (some c) with
  | .ok (.obj _) => True
  | .ok _ => ¬ComparesToken py faults rows sourceBytes ∧
      ¬MakesPage py faults rows drawn sourceBytes w
  | .error exc => Validates py sourceBytes → DatabaseRaises py faults rows drawn sourceBytes exc

/-! ### Where the cookie comes in -/

theorem prepare_cookie (py : Interpreter) (sourceBytes : List UInt8) (c : Option Str) :
    prepare py ⟨sourceBytes, c⟩ =
      match prepare py ⟨sourceBytes, none⟩ with
      | .ok (.ok valid) => (parseCookie py c).map fun owned => .ok { valid with owned := owned }
      | refused => refused := by
  unfold prepare
  dsimp only
  cases extractBotName py (Utf8.decodeReplace sourceBytes) with
  | error exc => rfl
  | ok name =>
      simp only [bind, Except.bind]
      cases validateBotName py.unicode name with
      | error err => rfl
      | ok botName =>
          simp only
          cases extractRuntimeKey py (Utf8.decodeReplace sourceBytes) with
          | error exc => rfl
          | ok key =>
              simp only
              cases validateRuntimeKey key with
              | error err => rfl
              | ok runtimeKey => cases parseCookie py c <;> rfl

theorem owned_of_prepare {py : Interpreter} {sourceBytes : List UInt8} {valid : Prepared}
    (h : prepare py ⟨sourceBytes, none⟩ = .ok (.ok valid)) : valid.owned = .obj [] := by
  have howned := (prepare_valid h).2.2.1
  simpa [parseCookie] using howned.symm

theorem prepare_eq_of_owned {py : Interpreter} {sourceBytes : List UInt8} {c : Option Str}
    (h : ∀ valid, prepare py ⟨sourceBytes, none⟩ = .ok (.ok valid) →
      parseCookie py c = .ok valid.owned) :
    prepare py ⟨sourceBytes, c⟩ = prepare py ⟨sourceBytes, none⟩ := by
  rw [prepare_cookie py sourceBytes c]
  cases hnone : prepare py ⟨sourceBytes, none⟩ with
  | error exc => rfl
  | ok prepared =>
      cases prepared with
      | error err => rfl
      | ok valid =>
          simp only [h valid hnone]
          rfl

theorem parseCookie_cases {py : Interpreter} {c : Str}
    (hmalformed : ∀ fields, py.json.loadsStr (Utf8.unquote c) ≠ .ok (.obj fields)) :
    parseCookie py (some c) = .ok (.obj []) ∨
    (∃ v, parseCookie py (some c) = .ok v ∧ ∀ fields, v ≠ .obj fields) ∨
    (∃ exc, parseCookie py (some c) = .error exc ∧ exc.cls = .recursionError) := by
  cases c with
  | nil => exact .inl rfl
  | cons a rest =>
      unfold parseCookie
      cases hloads : py.json.loadsStr (Utf8.unquote (a :: rest)) with
      | ok v =>
          refine .inr (.inl ⟨v, by simp [hloads], fun fields h => ?_⟩)
          exact hmalformed fields (h ▸ hloads)
      | error exc =>
          have hcls := py.json.loadsStr_error hloads
          simp only [List.mem_cons, List.not_mem_nil, or_false] at hcls
          rcases hcls with hcls | hcls | hcls
          · exact .inl (by simp [hloads, PyException.isA, hcls, ExcClass.mro])
          · exact .inl (by simp [hloads, PyException.isA, hcls, ExcClass.mro])
          · exact .inr (.inr ⟨exc, by simp [hloads, PyException.isA, hcls, ExcClass.mro], hcls⟩)

/-- How the owner is decided on where no cookie is sent, next to what another
value of the cookie makes of it. -/
theorem resolveOwnerToken_owned (rows : List BotRow) {valid : Prepared} (drawn : OwnerToken)
    (hempty : valid.owned = .obj []) :
    (¬storable valid.botName ∧
      ∀ v, resolveOwnerToken rows { valid with owned := v } drawn = .error dataError) ∨
    (storable valid.botName ∧ (∃ c rest, ownerToken rows valid.botName = some (c :: rest)) ∧
      (∃ err, resolveOwnerToken rows valid drawn = .ok (.taken err)) ∧
      ∀ v, (∀ fields, v ≠ .obj fields) →
        resolveOwnerToken rows { valid with owned := v } drawn =
          .error (noAttribute v (str "get"))) ∨
    (storable valid.botName ∧ (¬∃ c rest, ownerToken rows valid.botName = some (c :: rest)) ∧
      ∀ v, resolveOwnerToken rows { valid with owned := v } drawn = .ok (.fresh drawn.text)) := by
  unfold resolveOwnerToken
  by_cases hstorable : storable valid.botName = true
  · simp only [hstorable, Bool.not_true, Bool.false_eq_true, if_false]
    cases htoken : ownerToken rows valid.botName with
    | none => exact .inr (.inr ⟨trivial, by simp, fun v => rfl⟩)
    | some token =>
        cases token with
        | nil => exact .inr (.inr ⟨trivial, by simp, fun v => rfl⟩)
        | cons c rest =>
            refine .inr (.inl ⟨trivial, ⟨c, rest, rfl⟩, ?_, fun v hv => ?_⟩)
            · rw [hempty]
              exact ⟨_, rfl⟩
            · cases v with
              | obj fields => exact absurd rfl (hv fields)
              | _ => rfl
  · refine .inl ⟨hstorable, fun v => ?_⟩
    simp only [Bool.not_eq_true] at hstorable
    simp only [hstorable, Bool.not_false, if_true]
    rfl

theorem persistAndAnnounce_owned_iff (faults : Faults) (now : ℕ) {valid : Prepared}
    (token : Str) (w : Backend) (hempty : valid.owned = .obj []) {v : PyValue}
    (hv : ∀ fields, v ≠ .obj fields) :
    persistAndAnnounce faults now { valid with owned := v } token w =
        persistAndAnnounce faults now valid token w ↔
      ¬(faults.nextVersion = none ∧ faults.create = none ∧
        w.db.Admits (newBot valid token (nextVersion w.db.bots valid.botName)) ∧
        faults.enqueueBuildPod = none ∧ faults.publishEvent = none) := by
  have hnew : ∀ version, newBot { valid with owned := v } token version =
      newBot valid token version := fun _ => rfl
  unfold persistAndAnnounce
  simp only [hnew, hempty]
  cases hversion : faults.nextVersion with
  | some exc => simp
  | none =>
      cases hcreate : faults.create with
      | some exc => simp
      | none =>
          rcases w.db.create_cases now
              (newBot valid token (nextVersion w.db.bots valid.botName)) with
            ⟨hnot, exc, seq, _, heq⟩ | ⟨hadmits, heq⟩
          · simp [heq, hnot]
          · cases henqueue : faults.enqueueBuildPod with
            | some exc => simp [heq]
            | none =>
                cases hpublish : faults.publishEvent with
                | some exc => simp [heq]
                | none =>
                    cases v with
                    | obj fields => exact absurd rfl (hv fields)
                    | _ => simp [heq, hadmits, successResponse]

theorem persistAndAnnounce_not_raisesAfterCommit (faults : Faults) (now : ℕ) {valid : Prepared}
    (token : Str) (w : Backend) {fields : List (Str × PyValue)}
    (howned : valid.owned = .obj fields) :
    ¬RaisesAfterCommit faults w (persistAndAnnounce faults now valid token w) := by
  rintro ⟨henqueue, hpublish, hrows, exc, hexc⟩
  have hall : AllOrNothing w (persistAndAnnounce faults now valid token w) :=
    (persistAndAnnounce_allOrNothing_iff faults now valid token w).2
      fun _ _ _ => ⟨henqueue, hpublish, fields, howned⟩
  rcases hall with ⟨message, ownedBots, hpage⟩ | ⟨hkept, _⟩
  · rw [hexc] at hpage
    cases hpage
  · exact hrows hkept

theorem handleSubmission_not_raisesAfterCommit (py : Interpreter) (faults : Faults)
    (rows : List BotRow) (drawn : OwnerToken) (now : ℕ) (sourceBytes : List UInt8)
    (w : Backend) :
    ¬RaisesAfterCommit faults w
      (handleSubmission py faults rows drawn now ⟨sourceBytes, none⟩ w) := by
  -- a submission that ends before the insert has changed no row
  have hkept : ∀ ending, ¬RaisesAfterCommit faults w (w, ending) := fun ending h => h.2.2.1 rfl
  unfold handleSubmission
  cases hprepare : prepare py ⟨sourceBytes, none⟩ with
  | error exc => exact hkept _
  | ok prepared =>
      cases prepared with
      | error err => exact hkept _
      | ok valid =>
          have howned := owned_of_prepare hprepare
          simp only
          cases faults.ownerToken with
          | some exc => exact hkept _
          | none =>
              simp only
              cases resolveOwnerToken rows valid drawn with
              | error exc => exact hkept _
              | ok decision =>
                  cases decision with
                  | taken err => exact hkept _
                  | existing token | fresh token =>
                      exact persistAndAnnounce_not_raisesAfterCommit faults now token w howned

/-! ### The two kinds of harm -/

theorem handleSubmission_value_iff {py : Interpreter} (faults : Faults) (rows : List BotRow)
    (drawn : OwnerToken) (now : ℕ) (sourceBytes : List UInt8) {c : Str} (w : Backend)
    {v : PyValue} (hparse : parseCookie py (some c) = .ok v) (hv : ∀ fields, v ≠ .obj fields) :
    handleSubmission py faults rows drawn now ⟨sourceBytes, some c⟩ w =
        handleSubmission py faults rows drawn now ⟨sourceBytes, none⟩ w ↔
      ¬ComparesToken py faults rows sourceBytes ∧
        ¬MakesPage py faults rows drawn sourceBytes w := by
  unfold handleSubmission ComparesToken MakesPage Inserts
  rw [prepare_cookie py sourceBytes (some c), hparse]
  cases hprepare : prepare py ⟨sourceBytes, none⟩ with
  | error exc => simp
  | ok prepared =>
      cases prepared with
      | error err => simp
      | ok valid =>
          have hempty := owned_of_prepare hprepare
          simp only [Except.map]
          cases hfault : faults.ownerToken with
          | some exc => simp
          | none =>
              rcases resolveOwnerToken_owned rows drawn hempty with
                ⟨hstorable, hraise⟩ | ⟨hstorable, htoken, ⟨err, htaken⟩, hraise⟩ |
                  ⟨hstorable, hfree, hfresh⟩
              · have hself : resolveOwnerToken rows valid drawn = .error dataError :=
                  hraise valid.owned
                simp [hraise v, hself, hstorable]
              · simp [hraise v hv, htaken, hstorable, htoken]
              · have hself : resolveOwnerToken rows valid drawn = .ok (.fresh drawn.text) :=
                  hfresh valid.owned
                simp only [hfresh v, hself]
                rw [persistAndAnnounce_owned_iff faults now drawn.text w hempty hv]
                have hnone : ∀ c rest, ownerToken rows valid.botName ≠ some (c :: rest) :=
                  fun c rest h => hfree ⟨c, rest, h⟩
                simp [hstorable, hself, hnone]

theorem Db.create_error {db db' : Db} {now : ℕ} {new : NewBot} {exc : PyException}
    (h : db.create now new = (db', .error exc)) : exc = dataError ∨ exc = integrityError := by
  unfold Db.create at h
  split at h
  · cases h
    exact .inl rfl
  · simp only at h
    split at h
    · cases h
      exact .inr rfl
    · cases h

theorem Db.bots_ne_of_create {db db' : Db} {now : ℕ} {new : NewBot} {bot : BotRow}
    (h : db.create now new = (db', .ok bot)) : db'.bots ≠ db.bots := by
  rcases db.create_cases now new with ⟨_, exc, seq, _, heq⟩ | ⟨_, heq⟩
  · rw [h] at heq
    cases congrArg Prod.snd heq
  · rw [h] at heq
    have hdb : db'.bots = db.bots ++ [new.row (db.botSeq + 1) now] :=
      congrArg (fun r => r.1.bots) heq
    rw [hdb]
    simp

/-- From the decision on, the request raises `exc` and leaves everything as it
was exactly when one of the two database calls raises it. -/
theorem persistAndAnnounce_raises_iff (faults : Faults) (now : ℕ) (valid : Prepared)
    (token : Str) (w : Backend) {exc : PyException} (hexc : exc.cls = .recursionError) :
    persistAndAnnounce faults now valid token w = (w, .error exc) ↔
      faults.nextVersion = some exc ∨
        (faults.nextVersion = none ∧ faults.create = some exc) := by
  unfold persistAndAnnounce
  cases hversion : faults.nextVersion with
  | some raised => simp
  | none =>
      cases hcreate : faults.create with
      | some raised => simp
      | none =>
          cases heq : w.db.create now
              (newBot valid token (nextVersion w.db.bots valid.botName)) with
          | mk db outcome =>
              cases outcome with
              | error raised =>
                  have hother : raised ≠ exc := by
                    rintro rfl
                    rcases Db.create_error heq with rfl | rfl <;> cases hexc
                  simp [heq, hother]
              | ok bot =>
                  have hw : ∀ queue events, (⟨db, queue, events⟩ : Backend) ≠ w :=
                    fun _ _ h => Db.bots_ne_of_create heq (congrArg (fun w => w.db.bots) h)
                  cases faults.enqueueBuildPod <;> cases faults.publishEvent <;>
                    simp [heq, hw]

/-- Without a cookie the request raises `exc`, having done nothing, exactly
when a database call before the insert raises it. -/
theorem handleSubmission_raises_iff {py : Interpreter} (faults : Faults) (rows : List BotRow)
    (drawn : OwnerToken) (now : ℕ) (sourceBytes : List UInt8) (w : Backend)
    (hvalid : Validates py sourceBytes) {exc : PyException} (hexc : exc.cls = .recursionError) :
    handleSubmission py faults rows drawn now ⟨sourceBytes, none⟩ w = (w, .error exc) ↔
      DatabaseRaises py faults rows drawn sourceBytes exc := by
  obtain ⟨valid, hprepare⟩ := hvalid
  have hempty := owned_of_prepare hprepare
  have hdata : dataError ≠ exc := fun h => by rw [← h] at hexc; cases hexc
  unfold handleSubmission DatabaseRaises
  simp only [hprepare]
  cases hfault : faults.ownerToken with
  | some raised => simp
  | none =>
      rcases resolveOwnerToken_owned rows drawn hempty with
        ⟨_, hraise⟩ | ⟨_, _, ⟨err, htaken⟩, _⟩ | ⟨_, _, hfresh⟩
      · have hself : resolveOwnerToken rows valid drawn = .error dataError := hraise valid.owned
        simp [hself, hdata]
      · simp [htaken]
      · have hself : resolveOwnerToken rows valid drawn = .ok (.fresh drawn.text) :=
          hfresh valid.owned
        simp [hself, persistAndAnnounce_raises_iff faults now valid drawn.text w hexc]

/-- A cookie that is no JSON object is the same as no cookie exactly when what
it is parsed to does no harm. -/
theorem malformedCookie_harmless_iff (py : Interpreter) (faults : Faults) (rows : List BotRow)
    (drawn : OwnerToken) (now : ℕ) (sourceBytes : List UInt8) (c : Str) (w : Backend)
    (hmalformed : ∀ fields, py.json.loadsStr (Utf8.unquote c) ≠ .ok (.obj fields)) :
    LikeNoCookie py faults rows drawn now sourceBytes c w ↔
      CookieHarmless py faults rows drawn sourceBytes c w := by
  have hsame : LikeNoCookie py faults rows drawn now sourceBytes c w ↔
      handleSubmission py faults rows drawn now ⟨sourceBytes, some c⟩ w =
        handleSubmission py faults rows drawn now ⟨sourceBytes, none⟩ w := by
    refine ⟨fun h => h.1, fun h => ⟨h, ?_⟩⟩
    rw [h]
    exact handleSubmission_not_raisesAfterCommit py faults rows drawn now sourceBytes w
  rw [hsame]
  unfold CookieHarmless
  rcases parseCookie_cases hmalformed with hparse | ⟨v, hparse, hv⟩ | ⟨exc, hparse, hexc⟩
  · -- the cookie is dropped
    have hprepare : prepare py ⟨sourceBytes, some c⟩ = prepare py ⟨sourceBytes, none⟩ :=
      prepare_eq_of_owned fun valid hvalid => by rw [hparse, owned_of_prepare hvalid]
    simp [hparse, handleSubmission, hprepare]
  · rw [handleSubmission_value_iff faults rows drawn now sourceBytes w hparse hv, hparse]
    cases v with
    | obj fields => exact absurd rfl (hv fields)
    | _ => rfl
  · rw [hparse]
    by_cases hvalid : Validates py sourceBytes
    · have hraises := handleSubmission_raises_iff faults rows drawn now sourceBytes w hvalid hexc
      obtain ⟨valid, hprepare⟩ := hvalid
      have hcookie : handleSubmission py faults rows drawn now ⟨sourceBytes, some c⟩ w =
          (w, .error exc) := by
        simp [handleSubmission, prepare_cookie py sourceBytes (some c), hprepare, hparse,
          Except.map]
      rw [hcookie, eq_comm, hraises]
      exact ⟨fun h _ => h, fun h => h ⟨valid, hprepare⟩⟩
    · have hprepare : prepare py ⟨sourceBytes, some c⟩ = prepare py ⟨sourceBytes, none⟩ :=
        prepare_eq_of_owned fun valid hnone => absurd ⟨valid, hnone⟩ hvalid
      simp [handleSubmission, hprepare, hvalid]

theorem malformedCookie_harmless_undecodable :
    LikeNoCookie literalModules ⟨none, none, none, none, none⟩ [] (plainToken 0x61 rfl) 0
      (asciiBytes "\"\"\"name: Foo\"\"\"") (str "not-valid-json%ZZ") ⟨Db.empty, [], []⟩ :=
  (malformedCookie_harmless_iff literalModules ⟨none, none, none, none, none⟩ []
    (plainToken 0x61 rfl) 0 (asciiBytes "\"\"\"name: Foo\"\"\"") (str "not-valid-json%ZZ")
    ⟨Db.empty, [], []⟩ (fun fields h => by cases h)).2 trivial

/-- The decoder at work on an empty JSON array. -/
def emptyListDecodes : JsonLoads where
  loads := nothingDecodes.loads
  loadsStr text := if text = str "[]" then .ok (.arr []) else nothingDecodes.loadsStr text
  loads_error := nothingDecodes.loads_error
  loadsStr_error h := by
    split at h
    · cases h
    · exact nothingDecodes.loadsStr_error h

/-- The cookie `[]` with the first upload of a name: the row is committed, both
messages are sent, and the request ends in a `TypeError`. -/
theorem listCookie_raisesAfterCommit :
    (∀ fields, emptyListDecodes.loadsStr (Utf8.unquote (str "[]")) ≠ .ok (.obj fields)) ∧
    ¬LikeNoCookie { literalModules with json := emptyListDecodes }
      ⟨none, none, none, none, none⟩ [] (plainToken 0x61 rfl) 0
      (asciiBytes "\"\"\"name: Foo\"\"\"") (str "[]") ⟨Db.empty, [], []⟩ := by
  have hlist : emptyListDecodes.loadsStr (Utf8.unquote (str "[]")) = .ok (.arr []) := rfl
  refine ⟨fun fields => by simp [hlist], ?_⟩
  rintro ⟨_, hquiet⟩
  have hrows : (handleSubmission { literalModules with json := emptyListDecodes }
      ⟨none, none, none, none, none⟩ [] (plainToken 0x61 rfl) 0
      ⟨asciiBytes "\"\"\"name: Foo\"\"\"", some (str "[]")⟩ ⟨Db.empty, [], []⟩).1.db.bots.length =
        1 := rfl
  have hpage : (handleSubmission { literalModules with json := emptyListDecodes }
      ⟨none, none, none, none, none⟩ [] (plainToken 0x61 rfl) 0
      ⟨asciiBytes "\"\"\"name: Foo\"\"\"", some (str "[]")⟩ ⟨Db.empty, [], []⟩).2 =
        .error ⟨.typeError, str "list indices must be integers or slices, not str"⟩ := rfl
  refine hquiet ⟨rfl, rfl, fun h => ?_, _, hpage⟩
  rw [h] at hrows
  exact absurd hrows (by decide)

end TictactoeBots
