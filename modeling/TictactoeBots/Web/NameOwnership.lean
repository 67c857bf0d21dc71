import TictactoeBots.Web.ConcurrentSubmit
import TictactoeBots.Web.SubmitFailures

/-!
Who owns a bot name when submissions run at the same time.

Of a name that is free, two requests can both find no owner, and each draws a
token. If one of them inserts before the other selects its version, the other
inserts the second version under its own token. If both select the first
version, the unique constraint lets only one of them in.
-/

namespace TictactoeBots

open Text Python StepSystem

variable {py : Interpreter}

/-- The cookie of the request holds this token for the name of its bot. -/
def Submission.Presents (sub : Submission py) (token : Str) : Prop :=
  ∃ owned, parseCookie py sub.upload.ownedBotsCookie = .ok owned ∧
    presents owned sub.valid.botName token = .ok true

def SameOwner (bots : List BotRow) : Prop :=
  ∀ bot ∈ bots, ∀ other ∈ bots, bot.baseName = other.baseName → bot.ownerToken = other.ownerToken

/-- Every row but the first of its name was inserted by a request that
presented the token of the row for that name. -/
def LaterPresented (inserted : List (Insertion py)) : Prop :=
  ∀ before ins after, inserted = before ++ ins :: after →
    (∃ first ∈ before, first.row.baseName = ins.row.baseName) →
      ins.submission.valid.botName = ins.row.baseName ∧
        ins.submission.Presents ins.row.ownerToken

structure NamesOwned (s : SubmitSystem py) : Prop where
  rows : s.inserted.map Insertion.row = s.db.bots
  sameOwner : SameOwner s.db.bots
  laterPresented : LaterPresented s.inserted

def SubmissionStage.foundFree : SubmissionStage → Bool
  | .started => false
  | .resolved _ isNew | .versioned _ isNew _ => isNew

/-- A request that found its name free selects the version while the name is
still free. -/
def NameStillFree (s : SubmitSystem py) : SubmitAction → Prop
  | .selectVersion i => ∀ r ∈ s.running[i]?, r.stage.foundFree →
      ∀ bot ∈ s.db.bots, bot.baseName ≠ r.submission.valid.botName
  | _ => True

/-- The same of the requests for some of the names. -/
def NameStillFreeOn (mine : Str → Prop) (s : SubmitSystem py) : SubmitAction → Prop
  | .selectVersion i => ∀ r ∈ s.running[i]?, r.stage.foundFree →
      mine r.submission.valid.botName →
        ∀ bot ∈ s.db.bots, bot.baseName ≠ r.submission.valid.botName
  | _ => True

/-! ### The queries -/

theorem mem_of_ownerToken {rows : List BotRow} {name token : Str}
    (h : ownerToken rows name = some token) :
    ∃ bot ∈ rows, bot.baseName = name ∧ bot.ownerToken = token := by
  obtain ⟨bot, hfind, rfl⟩ := Option.map_eq_some_iff.1 h
  exact ⟨bot, List.mem_of_find?_eq_some hfind, by simpa using List.find?_some hfind, rfl⟩

theorem nextVersion_of_free {rows : List BotRow} {name : Str}
    (h : ∀ bot ∈ rows, bot.baseName ≠ name) : nextVersion rows name = 1 := by
  have hnone : (rows.filter fun bot => bot.baseName == name) = [] :=
    List.filter_eq_nil_iff.2 fun bot hbot => by simpa using h bot hbot
  simp [nextVersion, hnone]

/-! ### The invariant -/

/-- The request presented this token, which is that of a row of its name. -/
def Submission.Entitled (sub : Submission py) (bots : List BotRow) (token : Str) : Prop :=
  sub.Presents token ∧ ∃ bot ∈ bots, bot.baseName = sub.valid.botName ∧ bot.ownerToken = token

/-- What a submission can rely on at each stage. -/
def RunningSubmission.Sound (bots : List BotRow) (r : RunningSubmission py) : Prop :=
  match r.stage with
  | .started | .resolved _ true => True
  | .resolved token false | .versioned token false _ => r.submission.Entitled bots token
  | .versioned _ true version => version = 1

theorem RunningSubmission.Sound.mono {bots bots' : List BotRow} {r : RunningSubmission py}
    (h : r.Sound bots) (hsub : bots ⊆ bots') : r.Sound bots' := by
  obtain ⟨sub, stage⟩ := r
  have hentitled : ∀ token, sub.Entitled bots token → sub.Entitled bots' token :=
    fun token ⟨hpresents, bot, hbot, hfacts⟩ => ⟨hpresents, bot, hsub hbot, hfacts⟩
  cases stage with
  | started => trivial
  | resolved token isNew =>
      cases isNew with
      | true => trivial
      | false => exact hentitled token h
  | versioned token isNew version =>
      cases isNew with
      | true => exact h
      | false => exact hentitled token h

/-- The invariant on some of the names. A name that is in use is itself the
versioned name of a row, so the first version of it cannot be inserted again. -/
structure NamesSoundOn (mine : Str → Prop) (s : SubmitSystem py) : Prop where
  sameOwner : ∀ bot ∈ s.db.bots, ∀ other ∈ s.db.bots, mine bot.baseName →
    bot.baseName = other.baseName → bot.ownerToken = other.ownerToken
  firstVersion : ∀ bot ∈ s.db.bots, mine bot.baseName →
    ∃ first ∈ s.db.bots, first.versionedName = bot.baseName
  running : ∀ r ∈ s.running, mine r.submission.valid.botName → r.Sound s.db.bots

variable {mine : Str → Prop}

theorem namesSoundOn_start : NamesSoundOn mine (SubmitSystem.start py) where
  sameOwner _ hbot := absurd hbot List.not_mem_nil
  firstVersion _ hbot := absurd hbot List.not_mem_nil
  running _ hr := absurd hr List.not_mem_nil

theorem NamesSoundOn.insert_cases {s : SubmitSystem py} (h : NamesSoundOn mine s)
    {sub : Submission py} {token : Str} {isNew : Bool} {version : ℕ}
    (hmine : mine sub.valid.botName)
    (hsound : (⟨sub, .versioned token isNew version⟩ : RunningSubmission py).Sound s.db.bots)
    (hadmits : s.db.Admits (newBot sub.valid token version)) :
    sub.Entitled s.db.bots token ∨
      (version = 1 ∧ ∀ bot ∈ s.db.bots, bot.baseName ≠ sub.valid.botName) := by
  cases isNew with
  | false => exact .inl hsound
  | true =>
      have hversion : version = 1 := hsound
      refine .inr ⟨hversion, fun bot hbot hname => ?_⟩
      -- the unique constraint keeps the first version of a name from being inserted twice
      obtain ⟨first, hfirst, hversioned⟩ := h.firstVersion bot hbot (hname ▸ hmine)
      apply hadmits.2 first hfirst
      simp [newBot, versionedName, hversion, hversioned, hname]

theorem NamesSoundOn.insert {s : SubmitSystem py} (h : NamesSoundOn mine s)
    {sub : Submission py} {token : Str} {version id now : ℕ} {inserted : List (Insertion py)}
    (hinsert : mine sub.valid.botName → sub.Entitled s.db.bots token ∨
      (version = 1 ∧ ∀ bot ∈ s.db.bots, bot.baseName ≠ sub.valid.botName))
    {others : List (RunningSubmission py)} (hothers : others ⊆ s.running) :
    NamesSoundOn mine {
      db := { s.db with
        botSeq := id
        bots := s.db.bots ++ [(newBot sub.valid token version).row id now] }
      running := others
      inserted := inserted } := by
  have hrow : ∀ bot ∈ s.db.bots, mine sub.valid.botName → bot.baseName = sub.valid.botName →
      bot.ownerToken = token := by
    intro bot hbot hmine hname
    obtain ⟨-, owner, howner, hownerName, rfl⟩ | ⟨-, hfree⟩ := hinsert hmine
    · exact h.sameOwner bot hbot owner howner (hname ▸ hmine) (hname.trans hownerName.symm)
    · exact absurd hname (hfree bot hbot)
  refine ⟨?_, ?_, ?_⟩
  · intro bot hbot other hother hmine hname
    rw [List.mem_append, List.mem_singleton] at hbot hother
    rcases hbot with hbot | rfl <;> rcases hother with hother | rfl
    · exact h.sameOwner bot hbot other hother hmine hname
    · have hnew : bot.baseName = sub.valid.botName := hname
      exact hrow bot hbot (hnew ▸ hmine) hnew
    · exact (hrow other hother hmine hname.symm).symm
    · rfl
  · intro bot hbot hmine
    obtain hbot | hbot := List.mem_append.1 hbot
    · obtain ⟨first, hfirst, hversioned⟩ := h.firstVersion bot hbot hmine
      exact ⟨first, List.mem_append_left _ hfirst, hversioned⟩
    · obtain rfl := List.mem_singleton.1 hbot
      obtain ⟨-, owner, howner, hownerName, -⟩ | ⟨rfl, -⟩ := hinsert hmine
      · obtain ⟨first, hfirst, hversioned⟩ := h.firstVersion owner howner (hownerName ▸ hmine)
        exact ⟨first, List.mem_append_left _ hfirst, hversioned.trans hownerName⟩
      · exact ⟨_, List.mem_append_right _ hbot, by simp [NewBot.row, newBot, versionedName]⟩
  · exact fun r hr hmine => (h.running r (hothers hr) hmine).mono (List.subset_append_left _ _)

theorem NamesSoundOn.move {s : SubmitSystem py} (h : NamesSoundOn mine s) {seq : ℕ}
    {running : List (RunningSubmission py)}
    (hrunning : ∀ r ∈ running, mine r.submission.valid.botName → r.Sound s.db.bots) :
    NamesSoundOn mine { s with db := { s.db with botSeq := seq }, running := running } :=
  ⟨h.sameOwner, h.firstVersion, hrunning⟩

theorem namesSoundOn_step {s s' : SubmitSystem py} {action : SubmitAction}
    (h : NamesSoundOn mine s) (hfree : NameStillFreeOn mine s action)
    (hstep : submitStep s action = some s') : NamesSoundOn mine s' := by
  cases moves_of_submitStep hstep with
  | arrive sub => exact h.move (List.forall_mem_cons.2 ⟨fun _ => trivial, h.running⟩)
  | @findOwner i rows drawn sub token others hperm hrows hdecision =>
      have hsound := List.forall_mem_cons.1 fun r hr => h.running r (hperm.mem_iff.2 hr)
      refine h.move (List.forall_mem_cons.2 ⟨fun _ => ?_, hsound.2⟩)
      rcases resolveOwnerToken_cases hdecision with ⟨error, heq⟩ | ⟨token, heq, howner, hpresents⟩ |
        ⟨heq, -⟩
      · cases heq
      · cases heq
        obtain ⟨bot, hbot, hfacts⟩ := mem_of_ownerToken howner
        have hcookie := (prepare_valid sub.prepared).2.2.1
        exact ⟨⟨_, hcookie, hpresents⟩, bot, hrows.mem_iff.1 hbot, hfacts⟩
      · cases heq
  | findFree hperm _ _ =>
      have hsound := List.forall_mem_cons.1 fun r hr => h.running r (hperm.mem_iff.2 hr)
      exact h.move (List.forall_mem_cons.2 ⟨fun _ => trivial, hsound.2⟩)
  | @selectVersion i sub token isNew others hget hperm =>
      have hsound := List.forall_mem_cons.1 fun r hr => h.running r (hperm.mem_iff.2 hr)
      refine h.move (List.forall_mem_cons.2 ⟨fun hmine => ?_, hsound.2⟩)
      cases isNew with
      | false => exact hsound.1 hmine
      -- with a row of that name there, the version would be one of somebody else's bot
      | true => exact nextVersion_of_free (hfree _ hget rfl hmine)
  | @inserts i now version sub token isNew others hperm hadmits =>
      have hsound := List.forall_mem_cons.1 fun r hr => h.running r (hperm.mem_iff.2 hr)
      exact h.insert (fun hmine => h.insert_cases hmine (hsound.1 hmine) hadmits)
        fun r hr => hperm.mem_iff.2 (List.mem_cons_of_mem _ hr)
  | refused hperm | gone hperm =>
      exact h.move fun r hr => h.running r (hperm.mem_iff.2 (List.mem_cons_of_mem _ hr))

/-! ### Who presented what -/

/-- The invariant. -/
structure NamesSound (s : SubmitSystem py) : Prop extends NamesOwned s where
  firstVersion : ∀ bot ∈ s.db.bots, ∃ first ∈ s.db.bots, first.versionedName = bot.baseName
  running : ∀ r ∈ s.running, r.Sound s.db.bots

theorem NamesSound.on {s : SubmitSystem py} (h : NamesSound s) :
    NamesSoundOn (fun _ => True) s where
  sameOwner bot hbot other hother _ := h.sameOwner bot hbot other hother
  firstVersion bot hbot _ := h.firstVersion bot hbot
  running r hr _ := h.running r hr

theorem LaterPresented.append {inserted : List (Insertion py)} {ins : Insertion py}
    (h : LaterPresented inserted)
    (hins : (∃ first ∈ inserted, first.row.baseName = ins.row.baseName) →
      ins.submission.valid.botName = ins.row.baseName ∧
        ins.submission.Presents ins.row.ownerToken) :
    LaterPresented (inserted ++ [ins]) := by
  intro before other after hsplit hfirst
  -- the insert at the cut is the new one, or it is cut off from the old ones
  obtain rfl | ⟨after, last, rfl⟩ := List.eq_nil_or_concat after
  · obtain ⟨rfl, heq⟩ := List.append_inj' hsplit rfl
    obtain rfl := List.singleton_inj.1 heq
    exact hins hfirst
  · rw [List.concat_eq_append, ← List.cons_append, ← List.append_assoc] at hsplit
    exact h before other after (List.append_inj' hsplit rfl).1 hfirst

theorem NamesSound.log_step {s s' : SubmitSystem py} {action : SubmitAction} (h : NamesSound s)
    (hstep : submitStep s action = some s') :
    s'.inserted.map Insertion.row = s'.db.bots ∧ LaterPresented s'.inserted := by
  have hmem : ∀ ins ∈ s.inserted, ins.row ∈ s.db.bots := fun ins hins =>
    h.rows ▸ List.mem_map_of_mem hins
  cases moves_of_submitStep hstep with
  | @inserts i now version sub token isNew others hperm hadmits =>
      have hsound := h.running _ (hperm.mem_iff.2 List.mem_cons_self)
      refine ⟨by simp [h.rows], h.laterPresented.append ?_⟩
      rintro ⟨first, hfirst, hname⟩
      obtain ⟨hpresents, -⟩ | ⟨-, hfree⟩ := h.on.insert_cases trivial hsound hadmits
      · exact ⟨rfl, hpresents⟩
      · exact absurd hname (hfree first.row (hmem first hfirst))
  | _ => exact ⟨h.rows, h.laterPresented⟩

theorem namesSound_step {s s' : SubmitSystem py} {action : SubmitAction} (h : NamesSound s)
    (hfree : NameStillFree s action) (hstep : submitStep s action = some s') :
    NamesSound s' := by
  have hfreeOn : NameStillFreeOn (fun _ => True) s action := by
    cases action with
    | selectVersion i => exact fun r hr hfound _ => hfree r hr hfound
    | _ => trivial
  have hon := namesSoundOn_step h.on hfreeOn hstep
  have hlog := h.log_step hstep
  exact ⟨⟨hlog.1, fun bot hbot other hother => hon.sameOwner bot hbot other hother trivial,
    hlog.2⟩, fun bot hbot => hon.firstVersion bot hbot trivial,
    fun r hr => hon.running r hr trivial⟩

/-- As long as no request selects a version of a name that it found free and
that is not free any more, every name keeps its owner. -/
theorem names_owned {s : SubmitSystem py}
    (h : Via submitStep NameStillFree (SubmitSystem.start py) s) : NamesOwned s := by
  have hstart : NamesSound (SubmitSystem.start py) := by
    refine ⟨⟨rfl, ?_, ?_⟩, ?_, ?_⟩
    · intro bot hbot
      exact absurd hbot List.not_mem_nil
    · intro before ins after hsplit
      exact absurd hsplit (by simp [SubmitSystem.start])
    · intro bot hbot
      exact absurd hbot List.not_mem_nil
    · intro r hr
      exact absurd hr List.not_mem_nil
  exact (h.invariant hstart fun s action s' hsound hfree hstep =>
    namesSound_step hsound hfree hstep).toNamesOwned

instance (s : SubmitSystem py) : ∀ action, Decidable (NameStillFree s action)
  | .selectVersion i =>
      inferInstanceAs (Decidable (∀ r ∈ s.running[i]?, r.stage.foundFree →
        ∀ bot ∈ s.db.bots, bot.baseName ≠ r.submission.valid.botName))
  | .arrive _ | .selectOwner _ _ _ | .insert _ _ | .raises _ => .isTrue trivial

/-- Two requests find the name free and select the first version of it; one of
the inserts is refused. -/
theorem names_owned_refused :
    ∃ s, Via submitStep NameStillFree (SubmitSystem.start literalModules) s ∧
      s.db.bots.length = 1 ∧ s.running = [] ∧ NamesOwned s := by
  have hrun : Via submitStep NameStillFree (SubmitSystem.start literalModules) _ :=
    via_of_execVia [.arrive namedUpload, .arrive namedUpload,
      .selectOwner 1 [] (plainToken 0x61 rfl), .selectOwner 1 [] (plainToken 0x62 rfl),
      .selectVersion 1, .selectVersion 1, .insert 1 0, .insert 0 1] rfl
  exact ⟨_, hrun, rfl, rfl, names_owned hrun⟩

/-- Two requests find the name free, and one of them selects its version after
the insert of the other: the name gets a second version by another owner. -/
theorem names_shared :
    ∃ s, Reachable submitStep (SubmitSystem.start literalModules) s ∧ ¬NamesOwned s := by
  have hrun : Reachable submitStep (SubmitSystem.start literalModules) _ :=
    reachable_of_exec [.arrive namedUpload, .arrive namedUpload,
      .selectOwner 1 [] (plainToken 0x61 rfl), .selectOwner 1 [] (plainToken 0x62 rfl),
      .selectVersion 1, .insert 0 0, .selectVersion 0, .insert 0 1] rfl
  refine ⟨_, hrun, fun h => ?_⟩
  have hsame := h.sameOwner _ List.mem_cons_self _ (List.mem_cons_of_mem _ List.mem_cons_self) rfl
  exact absurd hsame (by decide)

end TictactoeBots
