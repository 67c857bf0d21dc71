import TictactoeBots.Web.Submit

/-!
What a submission leaves behind when it fails.

The row is committed before the build message is sent, the event is published
and the cookie is set, and nothing undoes it. A submission is therefore all or
nothing exactly when, if it inserts its row, nothing fails after that.
-/

namespace TictactoeBots

open Text Python

/-- The submission ends in the page that carries the ownership cookie, or it
has changed neither the bots nor the build queue. -/
def AllOrNothing (before : Backend) (run : Backend × Except PyException SubmitResponse) : Prop :=
  (∃ message ownedBots, run.2 = .ok (.success message ownedBots)) ∨
    (run.1.db.bots = before.db.bots ∧ run.1.buildQueue = before.buildQueue)

/-- The submission gets as far as inserting its row: it is valid, it may use
the name, no call up to the insert raises, and the insert is admitted. -/
def Inserts (py : Interpreter) (faults : Faults) (rows : List BotRow) (drawn : OwnerToken)
    (upload : Upload) (w : Backend) : Prop :=
  ∃ valid token, prepare py upload = .ok (.ok valid) ∧ faults.ownerToken = none ∧
    (resolveOwnerToken rows valid drawn = .ok (.existing token) ∨
      resolveOwnerToken rows valid drawn = .ok (.fresh token)) ∧
    faults.nextVersion = none ∧ faults.create = none ∧
    w.db.Admits (newBot valid token (nextVersion w.db.bots valid.botName))

/-- Nothing fails after the insert: neither broker call raises, and the cookie
is absent, malformed, or holds a JSON object. -/
def Announces (py : Interpreter) (faults : Faults) (upload : Upload) : Prop :=
  faults.enqueueBuildPod = none ∧ faults.publishEvent = none ∧
    ∃ fields, parseCookie py upload.ownedBotsCookie = .ok (.obj fields)

theorem successResponse_isOk_iff {name botName token : Str} {owned : PyValue} :
    (∃ message ownedBots,
      successResponse name botName token owned = .ok (.success message ownedBots)) ↔
        ∃ fields, owned = .obj fields := by
  constructor
  · rintro ⟨message, ownedBots, h⟩
    cases owned with
    | obj fields => exact ⟨fields, rfl⟩
    | _ => simp [successResponse] at h
  · rintro ⟨fields, rfl⟩
    exact ⟨_, _, rfl⟩

/-- From the decision on the owner on, the submission is all or nothing exactly
when nothing fails after an insert. -/
theorem persistAndAnnounce_allOrNothing_iff (faults : Faults) (now : ℕ) (upload : Prepared)
    (token : Str) (w : Backend) :
    AllOrNothing w (persistAndAnnounce faults now upload token w) ↔
      (faults.nextVersion = none → faults.create = none →
        w.db.Admits (newBot upload token (nextVersion w.db.bots upload.botName)) →
          faults.enqueueBuildPod = none ∧ faults.publishEvent = none ∧
            ∃ fields, upload.owned = .obj fields) := by
  -- an insert shows in the table, so from there on only the page will do
  have hgrown : ∀ row : BotRow, w.db.bots ++ [row] ≠ w.db.bots := fun row h => by
    simpa using congrArg List.length h
  unfold persistAndAnnounce
  cases hversion : faults.nextVersion with
  | some exc => simp [AllOrNothing]
  | none =>
      cases hcreate : faults.create with
      | some exc => simp [AllOrNothing]
      | none =>
          rcases w.db.create_cases now
              (newBot upload token (nextVersion w.db.bots upload.botName)) with
            ⟨hnot, exc, seq, _, heq⟩ | ⟨hadmits, heq⟩
          · simp [heq, AllOrNothing, hnot]
          · cases henqueue : faults.enqueueBuildPod with
            | some exc => simp [heq, AllOrNothing, hadmits, hgrown]
            | none =>
                cases hpublish : faults.publishEvent with
                | some exc => simp [heq, AllOrNothing, hadmits, hgrown]
                | none =>
                    simp only [heq, AllOrNothing, hadmits, hgrown, false_and, or_false,
                      successResponse_isOk_iff, true_and, forall_const]

/-- A submission is all or nothing exactly when nothing fails after its insert. -/
theorem submission_allOrNothing_iff (py : Interpreter) (faults : Faults) (rows : List BotRow)
    (drawn : OwnerToken) (now : ℕ) (upload : Upload) (w : Backend) :
    AllOrNothing w (handleSubmission py faults rows drawn now upload w) ↔
      (Inserts py faults rows drawn upload w → Announces py faults upload) := by
  unfold handleSubmission Inserts Announces
  cases hprepare : prepare py upload with
  | error exc => simp [AllOrNothing]
  | ok prepared =>
      cases prepared with
      | error err => simp [AllOrNothing]
      | ok valid =>
          have howned := (prepare_valid hprepare).2.2.1
          cases hfault : faults.ownerToken with
          | some exc => simp [AllOrNothing]
          | none =>
              cases hdecision : resolveOwnerToken rows valid drawn with
              | error exc => simp [AllOrNothing, hdecision]
              | ok decision =>
                  cases decision with
                  | taken err => simp [AllOrNothing, hdecision]
                  | existing token | fresh token =>
                      simp [persistAndAnnounce_allOrNothing_iff, hdecision, howned]

/-! ### What a success leaves behind -/

section Success

variable {py : Interpreter} {faults : Faults} {rows : List BotRow} {drawn : OwnerToken} {now : ℕ}
  {upload : Upload} {w w' : Backend} {message : Str} {ownedBots : List (Str × PyValue)}

def nextRow (w : Backend) (now : ℕ) (valid : Prepared) (token : Str) : BotRow :=
  (newBot valid token (nextVersion w.db.bots valid.botName)).row (w.db.botSeq + 1) now

/-- The row is admitted, inserted, and announced to the `pod_builder`. -/
structure Inserted (w w' : Backend) (now : ℕ) (valid : Prepared) (token : Str) : Prop where
  admitted : w.db.Admits (newBot valid token (nextVersion w.db.bots valid.botName))
  bots : w'.db.bots = w.db.bots ++ [nextRow w now valid token]
  buildQueue : w'.buildQueue =
    w.buildQueue ++ [⟨(nextRow w now valid token).id, valid.runtimeKey⟩]

theorem persistAndAnnounce_success {valid : Prepared} {token : Str}
    (h : persistAndAnnounce faults now valid token w = (w', .ok (.success message ownedBots))) :
    Inserted w w' now valid token := by
  unfold persistAndAnnounce at h
  cases hversion : faults.nextVersion with
  | some exc => simp [hversion] at h
  | none =>
      cases hcreate : faults.create with
      | some exc => simp [hversion, hcreate] at h
      | none =>
          rcases w.db.create_cases now
              (newBot valid token (nextVersion w.db.bots valid.botName)) with
            ⟨-, exc, seq, -, heq⟩ | ⟨hadmits, heq⟩
          · simp [hversion, hcreate, heq] at h
          · cases henqueue : faults.enqueueBuildPod with
            | some exc => simp [hversion, hcreate, heq, henqueue] at h
            | none =>
                cases hpublish : faults.publishEvent with
                | some exc => simp [hversion, hcreate, heq, henqueue, hpublish] at h
                | none =>
                    simp only [hversion, hcreate, heq, henqueue, hpublish, Prod.mk.injEq] at h
                    obtain ⟨rfl, -⟩ := h
                    exact ⟨hadmits, rfl, rfl⟩

theorem handleSubmission_success
    (h : handleSubmission py faults rows drawn now upload w =
      (w', .ok (.success message ownedBots))) :
    ∃ valid token, prepare py upload = .ok (.ok valid) ∧ Inserted w w' now valid token := by
  unfold handleSubmission at h
  split at h
  · cases h
  · cases h
  · rename_i valid hprepare
    split at h
    · cases h
    · split at h
      · cases h
      · cases h
      · exact ⟨valid, _, hprepare, persistAndAnnounce_success h⟩
      · exact ⟨valid, _, hprepare, persistAndAnnounce_success h⟩

end Success

def asciiBytes (s : String) : List UInt8 := (str s).map fun c => UInt8.ofNat c.val

/-- A token of 64 equal digits. -/
def plainToken (digit : CodePoint) (h : (Utf8.hexValue digit).isSome) : OwnerToken where
  text := List.replicate 64 digit
  length_eq := List.length_replicate
  hex c hc := by rwa [List.eq_of_mem_replicate hc]

theorem hexValue_a : (Utf8.hexValue 0x61).isSome := rfl

def namedUpload : Upload := ⟨asciiBytes "\"\"\"name: Foo\"\"\"", none⟩

/-- The broker cannot be reached for the build message. The row stays, and no
page with the cookie is returned. -/
theorem submission_leavesRow :
    ¬AllOrNothing ⟨Db.empty, [], []⟩
      (handleSubmission literalModules
        ⟨none, none, none, some ⟨.connectionRefusedError, str "broker is down"⟩, none⟩ []
        (plainToken 0x61 rfl) 0 namedUpload ⟨Db.empty, [], []⟩) := by
  have hpage : (handleSubmission literalModules
      ⟨none, none, none, some ⟨.connectionRefusedError, str "broker is down"⟩, none⟩ []
      (plainToken 0x61 rfl) 0 namedUpload ⟨Db.empty, [], []⟩).2 =
        .error ⟨.connectionRefusedError, str "broker is down"⟩ := rfl
  have hrows : (handleSubmission literalModules
      ⟨none, none, none, some ⟨.connectionRefusedError, str "broker is down"⟩, none⟩ []
      (plainToken 0x61 rfl) 0 namedUpload ⟨Db.empty, [], []⟩).1.db.bots.length = 1 := rfl
  rintro (⟨message, ownedBots, h⟩ | ⟨h, _⟩)
  · rw [hpage] at h
    exact absurd h (by simp)
  · rw [h] at hrows
    exact absurd hrows (by decide)

end TictactoeBots
