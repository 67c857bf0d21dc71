import TictactoeBots.Lib.StepSystem
import TictactoeBots.Web.Submit

/-!
Submissions that run at the same time.

A step is one database await of one submission. Every query sees all rows that
are committed before it, and nothing locks a name between the three of them.
What a submission does after its insert does not touch the bots.
-/

namespace TictactoeBots

open Text Python StepSystem

variable {py : Interpreter}

/-- A request whose upload has passed validation. -/
structure Submission (py : Interpreter) where
  upload : Upload
  valid : Prepared
  prepared : prepare py upload = .ok (.ok valid)

/-- How far a submission has got. The flag tells whether its token is a new
one, drawn because the select found no owner. -/
inductive SubmissionStage where
  | started
  | resolved (token : Str) (isNew : Bool)
  | versioned (token : Str) (isNew : Bool) (version : ℕ)

structure RunningSubmission (py : Interpreter) where
  submission : Submission py
  stage : SubmissionStage

structure Insertion (py : Interpreter) where
  row : BotRow
  submission : Submission py

structure SubmitSystem (py : Interpreter) where
  db : Db
  running : List (RunningSubmission py)
  /-- Every insert so far, the first one first. -/
  inserted : List (Insertion py)

def SubmitSystem.start (py : Interpreter) : SubmitSystem py := ⟨Db.empty, [], []⟩

inductive SubmitAction where
  | arrive (upload : Upload)
  /-- `owner_token`, on the rows in some order, and a token in case the name is
  free. -/
  | selectOwner (running : ℕ) (rows : List BotRow) (drawn : OwnerToken)
  | selectVersion (running : ℕ)
  | insert (running : ℕ) (now : ℕ)
  | raises (running : ℕ)

def submitStep (s : SubmitSystem py) : SubmitAction → Option (SubmitSystem py)
  | .arrive upload =>
      match h : prepare py upload with
      | .ok (.ok valid) =>
          some { s with running := ⟨⟨upload, valid, h⟩, .started⟩ :: s.running }
      | _ => none
  | .selectOwner i rows drawn =>
      match s.running[i]? with
      | some ⟨sub, .started⟩ =>
          if rows.Perm s.db.bots then
            match resolveOwnerToken rows sub.valid drawn with
            | .ok (.existing token) =>
                some { s with running := ⟨sub, .resolved token false⟩ :: s.running.eraseIdx i }
            | .ok (.fresh token) =>
                some { s with running := ⟨sub, .resolved token true⟩ :: s.running.eraseIdx i }
            -- the page with the complaint, or an exception
            | _ => some { s with running := s.running.eraseIdx i }
          else none
      | _ => none
  | .selectVersion i =>
      match s.running[i]? with
      | some ⟨sub, .resolved token isNew⟩ =>
          let version := nextVersion s.db.bots sub.valid.botName
          some { s with
            running := ⟨sub, .versioned token isNew version⟩ :: s.running.eraseIdx i }
      | _ => none
  | .insert i now =>
      match s.running[i]? with
      | some ⟨sub, .versioned token _ version⟩ =>
          match s.db.create now (newBot sub.valid token version) with
          | (db, .ok bot) =>
              some {
                db := db
                running := s.running.eraseIdx i
                inserted := s.inserted ++ [⟨bot, sub⟩] }
          | (db, .error _) => some { s with db := db, running := s.running.eraseIdx i }
      | _ => none
  | .raises i =>
      match s.running[i]? with
      | some _ => some { s with running := s.running.eraseIdx i }
      | none => none

/-! ### What a step can do

Without the indices: `others` are the submissions that do not move. -/

inductive SubmitMoves (s : SubmitSystem py) : SubmitAction → SubmitSystem py → Prop
  | arrive (sub : Submission py) :
      SubmitMoves s (.arrive sub.upload) { s with running := ⟨sub, .started⟩ :: s.running }
  | findOwner {i : ℕ} {rows : List BotRow} {drawn : OwnerToken} {sub : Submission py}
      {token : Str} {others : List (RunningSubmission py)}
      (hperm : s.running.Perm (⟨sub, .started⟩ :: others)) (hrows : rows.Perm s.db.bots)
      (hdecision : resolveOwnerToken rows sub.valid drawn = .ok (.existing token)) :
      SubmitMoves s (.selectOwner i rows drawn)
        { s with running := ⟨sub, .resolved token false⟩ :: others }
  | findFree {i : ℕ} {rows : List BotRow} {drawn : OwnerToken} {sub : Submission py}
      {token : Str} {others : List (RunningSubmission py)}
      (hperm : s.running.Perm (⟨sub, .started⟩ :: others)) (hrows : rows.Perm s.db.bots)
      (hdecision : resolveOwnerToken rows sub.valid drawn = .ok (.fresh token)) :
      SubmitMoves s (.selectOwner i rows drawn)
        { s with running := ⟨sub, .resolved token true⟩ :: others }
  | selectVersion {i : ℕ} {sub : Submission py} {token : Str} {isNew : Bool}
      {others : List (RunningSubmission py)}
      (hget : s.running[i]? = some ⟨sub, .resolved token isNew⟩)
      (hperm : s.running.Perm (⟨sub, .resolved token isNew⟩ :: others)) :
      SubmitMoves s (.selectVersion i)
        { s with
          running :=
            ⟨sub, .versioned token isNew (nextVersion s.db.bots sub.valid.botName)⟩ :: others }
  | inserts {i now version : ℕ} {sub : Submission py} {token : Str} {isNew : Bool}
      {others : List (RunningSubmission py)}
      (hperm : s.running.Perm (⟨sub, .versioned token isNew version⟩ :: others))
      (hadmits : s.db.Admits (newBot sub.valid token version)) :
      SubmitMoves s (.insert i now)
        { db := { s.db with
            botSeq := s.db.botSeq + 1
            bots := s.db.bots ++ [(newBot sub.valid token version).row (s.db.botSeq + 1) now] }
          running := others
          inserted :=
            s.inserted ++ [⟨(newBot sub.valid token version).row (s.db.botSeq + 1) now, sub⟩] }
  | refused {i now seq : ℕ} {r : RunningSubmission py} {others : List (RunningSubmission py)}
      (hperm : s.running.Perm (r :: others)) :
      SubmitMoves s (.insert i now) { s with db := { s.db with botSeq := seq }, running := others }
  | gone {action : SubmitAction} {r : RunningSubmission py} {others : List (RunningSubmission py)}
      (hperm : s.running.Perm (r :: others)) :
      SubmitMoves s action { s with running := others }

theorem moves_of_submitStep {s s' : SubmitSystem py} {action : SubmitAction}
    (h : submitStep s action = some s') : SubmitMoves s action s' := by
  cases action with
  | arrive upload =>
      simp only [submitStep] at h
      split at h
      · rename_i valid hprepare
        rw [← Option.some.inj h]
        exact .arrive ⟨upload, valid, hprepare⟩
      · exact absurd h (by simp)
  | selectOwner i rows drawn =>
      simp only [submitStep] at h
      split at h
      · rename_i hget
        have hperm := perm_cons_eraseIdx_of_getElem? hget
        simp only [Option.ite_none_right_eq_some] at h
        obtain ⟨hrows, h⟩ := h
        split at h
        · rename_i hdecision
          rw [← Option.some.inj h]
          exact .findOwner hperm hrows hdecision
        · rename_i hdecision
          rw [← Option.some.inj h]
          exact .findFree hperm hrows hdecision
        · rw [← Option.some.inj h]
          exact .gone hperm
      · exact absurd h (by simp)
  | selectVersion i =>
      simp only [submitStep] at h
      split at h
      · rename_i hget
        rw [← Option.some.inj h]
        exact .selectVersion hget (perm_cons_eraseIdx_of_getElem? hget)
      · exact absurd h (by simp)
  | insert i now =>
      simp only [submitStep] at h
      split at h
      · rename_i sub token isNew version hget
        have hperm := perm_cons_eraseIdx_of_getElem? hget
        rcases s.db.create_cases now (newBot sub.valid token version) with
          ⟨_, exc, seq, _, heq⟩ | ⟨hadmits, heq⟩
        · rw [heq] at h
          rw [← Option.some.inj h]
          exact .refused hperm
        · rw [heq] at h
          rw [← Option.some.inj h]
          exact .inserts hperm hadmits
      · exact absurd h (by simp)
  | raises i =>
      simp only [submitStep] at h
      split at h
      · rename_i hget
        rw [← Option.some.inj h]
        exact .gone (perm_cons_eraseIdx_of_getElem? hget)
      · exact absurd h (by simp)

theorem db_of_submitStep {s s' : SubmitSystem py} {action : SubmitAction}
    (h : submitStep s action = some s') :
    s'.db = s.db ∨ ∃ now new, s'.db = (s.db.create now new).1 := by
  cases action with
  | arrive upload =>
      simp only [submitStep] at h
      split at h
      · rw [← Option.some.inj h]
        exact .inl rfl
      · exact absurd h (by simp)
  | selectOwner i rows drawn =>
      simp only [submitStep] at h
      split at h
      · simp only [Option.ite_none_right_eq_some] at h
        obtain ⟨-, h⟩ := h
        split at h <;> rw [← Option.some.inj h] <;> exact .inl rfl
      · exact absurd h (by simp)
  | selectVersion i | raises i =>
      simp only [submitStep] at h
      split at h
      · rw [← Option.some.inj h]
        exact .inl rfl
      · exact absurd h (by simp)
  | insert i now =>
      simp only [submitStep] at h
      split at h
      · rename_i sub token isNew version _
        refine .inr ⟨now, newBot sub.valid token version, ?_⟩
        split at h <;> rename_i heq <;> rw [← Option.some.inj h, heq]
      · exact absurd h (by simp)

/-! ### One submission at a time -/

theorem exec_submission (s : SubmitSystem py) {upload : Upload} {valid : Prepared}
    {rows : List BotRow} {drawn : OwnerToken} {token : Str} (now : ℕ)
    (buildQueue : List BuildPodMessage) (events : List Str)
    (hprepare : prepare py upload = .ok (.ok valid))
    (hrows : rows.Perm s.db.bots)
    (hdecision : resolveOwnerToken rows valid drawn = .ok (.existing token) ∨
      resolveOwnerToken rows valid drawn = .ok (.fresh token)) :
    (exec submitStep s [.arrive upload, .selectOwner 0 rows drawn, .selectVersion 0,
        .insert 0 now]).map SubmitSystem.db =
      some (handleSubmission py ⟨none, none, none, none, none⟩ rows drawn now upload
        ⟨s.db, buildQueue, events⟩).1.db := by
  have harrive : submitStep s (.arrive upload) =
      some { s with running := ⟨⟨upload, valid, hprepare⟩, .started⟩ :: s.running } := by
    simp only [submitStep]
    split
    · rename_i other hother
      obtain rfl : other = valid := by simpa [hprepare] using hother.symm
      rfl
    · rename_i hnone
      exact absurd hprepare (hnone valid)
  rw [exec_cons, harrive, Option.bind_some]
  obtain hdecision | hdecision := hdecision
  all_goals
    rcases s.db.create_cases now (newBot valid token (nextVersion s.db.bots valid.botName)) with
      ⟨_, exc, seq, _, heq⟩ | ⟨_, heq⟩ <;>
    simp [exec_cons, submitStep, hrows, hdecision, heq, handleSubmission, hprepare,
      persistAndAnnounce]

end TictactoeBots
