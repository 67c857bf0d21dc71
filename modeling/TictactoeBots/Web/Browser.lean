import TictactoeBots.Web.NameOwnership
import TictactoeBots.Web.OwnershipCookie

/-!
One browser among the clients of `/submit`.

Its jar holds one ownership cookie. A request carries the cookie that the jar
holds when it is sent, and the page of a success replaces it by the `dict` of
that request with the entry of its own bot set. The requests of other clients
are part of the same server; `senders` says of each running one whose it is.
-/

namespace TictactoeBots

open Text Python StepSystem

variable {py : Interpreter}

/-- Whose a request is. With one of the browser goes a list of the names it had
success pages for when it sent the request. -/
inductive Sender where
  | other
  | browser (known : List Str)

/-- A request of the browser whose row is committed, and whose page has not
arrived. -/
structure Answer (py : Interpreter) where
  row : BotRow
  submission : Submission py
  known : List Str

structure BrowserSystem (py : Interpreter) where
  server : SubmitSystem py
  /-- The senders of the running submissions, in their order. -/
  senders : List Sender
  answers : List (Answer py)
  jar : Option Str
  /-- The base names of the success pages that have arrived. -/
  received : List Str

def BrowserSystem.start (py : Interpreter) : BrowserSystem py :=
  ⟨SubmitSystem.start py, [], [], none, []⟩

inductive BrowserAction where
  | upload (sourceBytes : List UInt8)
  /-- Another client sends a request. -/
  | foreign (upload : Upload)
  | serve (action : SubmitAction)
  | arrive (i : ℕ)
  /-- A call after the insert raises, or the page is lost. -/
  | lose (i : ℕ)

def SubmitAction.running? : SubmitAction → Option ℕ
  | .arrive _ => none
  | .selectOwner i _ _ | .selectVersion i | .insert i _ | .raises i => some i

/-- The senders after a step of the running submission `i`, which is the first
one now or has gone. -/
def follow (before after : SubmitSystem py) (i : ℕ) (senders : List Sender) : List Sender :=
  match senders[i]? with
  | some sender =>
      if after.running.length = before.running.length then sender :: senders.eraseIdx i
      else senders.eraseIdx i
  | none => senders

/-- The answers that the inserts of a step make the browser wait for. -/
def newAnswers (before after : SubmitSystem py) (i : ℕ) (senders : List Sender) :
    List (Answer py) :=
  match senders[i]? with
  | some (.browser known) =>
      (after.inserted.drop before.inserted.length).map fun ins =>
        ⟨ins.row, ins.submission, known⟩
  | _ => []

/-- The page of the answer, as `_success_response` makes it. -/
def Answer.page (a : Answer py) : Except PyException SubmitResponse :=
  successResponse a.row.versionedName a.submission.valid.botName a.row.ownerToken
    a.submission.valid.owned

def browserStep (number : Number → Str) (s : BrowserSystem py) :
    BrowserAction → Option (BrowserSystem py)
  | .upload sourceBytes => do
      let server ← submitStep s.server (.arrive ⟨sourceBytes, s.jar⟩)
      return { s with server := server, senders := .browser s.received :: s.senders }
  | .foreign upload => do
      let server ← submitStep s.server (.arrive upload)
      return { s with server := server, senders := .other :: s.senders }
  | .serve action => do
      let i ← action.running?
      let server ← submitStep s.server action
      return { s with
        server := server
        senders := follow s.server server i s.senders
        answers := s.answers ++ newAnswers s.server server i s.senders }
  | .arrive i => do
      let a ← s.answers[i]?
      let s := { s with answers := s.answers.eraseIdx i }
      match a.page with
      | .ok (.success _ ownedBots) =>
          return { s with
            jar := some (encodeCookie number ownedBots)
            received := s.received ++ [a.submission.valid.botName] }
      | _ => return s
  | .lose i =>
      if i < s.answers.length then some { s with answers := s.answers.eraseIdx i } else none

/-! ### What a step of the server does to the lists -/

/-- What the step of a running submission leaves of it: the same submission
further on, nothing, or its row. -/
inductive Served (s s' : SubmitSystem py) (r : RunningSubmission py)
    (others : List (RunningSubmission py)) : Prop
  | moved (r' : RunningSubmission py) (hrunning : s'.running = r' :: others)
      (hsame : r'.submission = r.submission) (hinserted : s'.inserted = s.inserted)
  | gone (hrunning : s'.running = others) (hinserted : s'.inserted = s.inserted)
  | inserted (row : BotRow) (hrunning : s'.running = others)
      (hinserted : s'.inserted = s.inserted ++ [⟨row, r.submission⟩])
      (hrow : row ∈ s'.db.bots) (hname : row.baseName = r.submission.valid.botName)
      (hstorable : storable row.baseName ∧ storable row.ownerToken)

theorem served_of_submitStep {s s' : SubmitSystem py} {action : SubmitAction} {i : ℕ}
    (hi : action.running? = some i) (h : submitStep s action = some s') :
    ∃ r, s.running[i]? = some r ∧ Served s s' r (s.running.eraseIdx i) := by
  cases action with
  | arrive upload => exact absurd hi (by simp [SubmitAction.running?])
  | selectOwner j rows drawn =>
      obtain rfl := Option.some.inj hi
      simp only [submitStep] at h
      split at h
      · rename_i sub hget
        simp only [Option.ite_none_right_eq_some] at h
        obtain ⟨-, h⟩ := h
        refine ⟨_, hget, ?_⟩
        split at h <;> rw [← Option.some.inj h]
        · exact .moved _ rfl rfl rfl
        · exact .moved _ rfl rfl rfl
        · exact .gone rfl rfl
      · exact absurd h (by simp)
  | selectVersion j =>
      obtain rfl := Option.some.inj hi
      simp only [submitStep] at h
      split at h
      · rename_i hget
        rw [← Option.some.inj h]
        exact ⟨_, hget, .moved _ rfl rfl rfl⟩
      · exact absurd h (by simp)
  | insert j now =>
      obtain rfl := Option.some.inj hi
      simp only [submitStep] at h
      split at h
      · rename_i sub token isNew version hget
        refine ⟨_, hget, ?_⟩
        rcases s.db.create_cases now (newBot sub.valid token version) with
          ⟨_, exc, seq, _, heq⟩ | ⟨hadmits, heq⟩
        · rw [heq] at h
          rw [← Option.some.inj h]
          exact .gone rfl rfl
        · rw [heq] at h
          rw [← Option.some.inj h]
          have hstorable := hadmits.1
          simp only [NewBot.storable, List.all_cons, Bool.and_eq_true] at hstorable
          exact .inserted _ rfl rfl (List.mem_append_right _ (List.mem_singleton_self _)) rfl
            ⟨hstorable.1, hstorable.2.2.1⟩
      · exact absurd h (by simp)
  | raises j =>
      obtain rfl := Option.some.inj hi
      simp only [submitStep] at h
      split at h
      · rename_i hget
        rw [← Option.some.inj h]
        exact ⟨_, hget, .gone rfl rfl⟩
      · exact absurd h (by simp)

theorem bots_subset_of_submitStep {s s' : SubmitSystem py} {action : SubmitAction}
    (h : submitStep s action = some s') : s.db.bots ⊆ s'.db.bots := by
  rcases db_of_submitStep h with heq | ⟨now, new, heq⟩
  · rw [heq]
    exact List.Subset.refl _
  · rw [heq]
    rcases s.db.create_cases now new with ⟨_, exc, seq, _, hcreate⟩ | ⟨_, hcreate⟩
    · rw [hcreate]
      exact List.Subset.refl _
    · rw [hcreate]
      exact List.subset_append_left _ _

/-- A submission of the browser that is running, with the names that were known
when it was sent. -/
def Runs (running : List (RunningSubmission py)) (senders : List Sender)
    (sub : Submission py) (known : List Str) : Prop :=
  ∃ (i : ℕ) (r : RunningSubmission py), running[i]? = some r ∧
    senders[i]? = some (.browser known) ∧ r.submission = sub

theorem runs_cons {r : RunningSubmission py} {running : List (RunningSubmission py)}
    {sender : Sender} {senders : List Sender} {sub : Submission py} {known : List Str}
    (h : Runs (r :: running) (sender :: senders) sub known) :
    (sender = .browser known ∧ r.submission = sub) ∨ Runs running senders sub known := by
  obtain ⟨i, r', hr, hsender, hsub⟩ := h
  cases i with
  | zero =>
      obtain rfl := Option.some.inj hr
      exact .inl ⟨Option.some.inj hsender, hsub⟩
  | succ i => exact .inr ⟨i, r', hr, hsender, hsub⟩

theorem runs_eraseIdx {running : List (RunningSubmission py)} {senders : List Sender} {i : ℕ}
    {sub : Submission py} {known : List Str}
    (h : Runs (running.eraseIdx i) (senders.eraseIdx i) sub known) :
    Runs running senders sub known := by
  obtain ⟨j, r, hr, hsender, hsub⟩ := h
  rw [List.getElem?_eraseIdx] at hr hsender
  split at hr
  · rename_i hlt
    rw [if_pos hlt] at hsender
    exact ⟨j, r, hr, hsender, hsub⟩
  · rename_i hge
    rw [if_neg hge] at hsender
    exact ⟨j + 1, r, hr, hsender, hsub⟩

theorem follow_eq {s s' : SubmitSystem py} {i : ℕ} {r : RunningSubmission py}
    {senders : List Sender} (hlength : senders.length = s.running.length)
    (hr : s.running[i]? = some r) (hserved : Served s s' r (s.running.eraseIdx i)) :
    (∃ r' sender, r'.submission = r.submission ∧ senders[i]? = some sender ∧
      s'.running = r' :: s.running.eraseIdx i ∧
      follow s s' i senders = sender :: senders.eraseIdx i) ∨
    (s'.running = s.running.eraseIdx i ∧ follow s s' i senders = senders.eraseIdx i) := by
  obtain ⟨hi, -⟩ := List.getElem?_eq_some_iff.1 hr
  have hsender : senders[i]? = some senders[i] := List.getElem?_eq_getElem (hlength ▸ hi)
  have hshorter : (s.running.eraseIdx i).length ≠ s.running.length := by
    rw [List.length_eraseIdx_of_lt hi]
    omega
  have hgone : s'.running = s.running.eraseIdx i →
      follow s s' i senders = senders.eraseIdx i := by
    intro hrunning
    simp only [follow, hsender, hrunning]
    exact if_neg hshorter
  cases hserved with
  | moved r' hrunning hsame _ =>
      refine .inl ⟨r', _, hsame, hsender, hrunning, ?_⟩
      simp only [follow, hsender, hrunning]
      apply if_pos
      rw [List.length_cons, List.length_eraseIdx_of_lt hi]
      omega
  | gone hrunning _ => exact .inr ⟨hrunning, hgone hrunning⟩
  | inserted row hrunning _ _ _ _ => exact .inr ⟨hrunning, hgone hrunning⟩

theorem length_follow {s s' : SubmitSystem py} {i : ℕ} {r : RunningSubmission py}
    {senders : List Sender} (hlength : senders.length = s.running.length)
    (hr : s.running[i]? = some r) (hserved : Served s s' r (s.running.eraseIdx i)) :
    (follow s s' i senders).length = s'.running.length := by
  rcases follow_eq hlength hr hserved with ⟨r', sender, _, _, hrunning, hfollow⟩ |
    ⟨hrunning, hfollow⟩
  · rw [hrunning, hfollow]
    simp [List.length_eraseIdx, hlength]
  · rw [hrunning, hfollow]
    simp [List.length_eraseIdx, hlength]

theorem runs_follow {s s' : SubmitSystem py} {i : ℕ} {r : RunningSubmission py}
    {senders : List Sender} {sub : Submission py} {known : List Str}
    (hlength : senders.length = s.running.length) (hr : s.running[i]? = some r)
    (hserved : Served s s' r (s.running.eraseIdx i))
    (h : Runs s'.running (follow s s' i senders) sub known) : Runs s.running senders sub known := by
  rcases follow_eq hlength hr hserved with ⟨r', sender, hsame, hsender, hrunning, hfollow⟩ |
    ⟨hrunning, hfollow⟩
  · rw [hrunning, hfollow] at h
    rcases runs_cons h with ⟨rfl, hsub⟩ | h
    · exact ⟨i, r, hr, hsender, hsame ▸ hsub⟩
    · exact runs_eraseIdx h
  · rw [hrunning, hfollow] at h
    exact runs_eraseIdx h

theorem mem_newAnswers {s s' : SubmitSystem py} {i : ℕ} {r : RunningSubmission py}
    {senders : List Sender} {a : Answer py} (hr : s.running[i]? = some r)
    (hserved : Served s s' r (s.running.eraseIdx i)) (h : a ∈ newAnswers s s' i senders) :
    Runs s.running senders a.submission a.known ∧ a.row ∈ s'.db.bots ∧
      a.row.baseName = a.submission.valid.botName ∧
      storable a.row.baseName ∧ storable a.row.ownerToken := by
  unfold newAnswers at h
  split at h
  · rename_i known hsender
    cases hserved with
    | moved r' _ _ hinserted => simp [hinserted] at h
    | gone _ hinserted => simp [hinserted] at h
    | inserted row _ hinserted hrow hname hstorable =>
        rw [hinserted, List.drop_left, List.map_cons, List.map_nil, List.mem_singleton] at h
        rw [h]
        exact ⟨⟨i, r, hr, hsender, rfl⟩, hrow, hname, hstorable⟩
  · exact absurd h List.not_mem_nil

end TictactoeBots
