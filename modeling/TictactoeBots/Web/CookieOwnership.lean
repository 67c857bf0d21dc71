import TictactoeBots.Web.Browser

/-!
Whether a browser keeps the names it has success pages for.

The page of a success sets the cookie to the `dict` that its request carried
with one entry added. What the jar has gained while the request was under way
is lost with it, so a page keeps the other names exactly if it brings them
along: none of them may have come in between.
-/

namespace TictactoeBots

open Text Python StepSystem

variable {py : Interpreter}

/-- The cookie in the jar holds, for every name with a success page, the token
of the rows of that name. -/
def KeepsOwnership (s : BrowserSystem py) : Prop :=
  ∃ owned, parseCookie py s.jar = .ok owned ∧ ∀ name ∈ s.received,
    (∃ bot ∈ s.server.db.bots, bot.baseName = name) ∧
    ∀ bot ∈ s.server.db.bots, bot.baseName = name → presents owned name bot.ownerToken = .ok true

/-- `mine` are the names that the browser uploads. No request for one of them
selects its version when the name, found free, is not free any more; and no
success page arrives after that of another name for which there was none when
the request was sent. -/
def NothingBetween (mine : Str → Prop) (s : BrowserSystem py) : BrowserAction → Prop
  | .upload sourceBytes => ∀ valid,
      prepare py ⟨sourceBytes, s.jar⟩ = .ok (.ok valid) → mine valid.botName
  | .serve action => NameStillFreeOn mine s.server action
  | .arrive i => ∀ a ∈ s.answers[i]?, ∀ name ∈ s.received,
      name ∈ a.known ∨ name = a.submission.valid.botName
  | _ => True

/-! ### The invariant -/

/-- The dictionary has an entry for each of the names, with the token of a row. -/
def Covers (d : StringDict) (names : List Str) (bots : List BotRow) : Prop :=
  ∀ name ∈ names, ∃ bot ∈ bots, bot.baseName = name ∧ d.Maps name bot.ownerToken

/-- What the cookie of a request of the browser held when it was sent. -/
def Submission.Carries (sub : Submission py) (known : List Str) (bots : List BotRow) : Prop :=
  ∃ d : StringDict, sub.valid.owned = .obj d.fields ∧ Covers d known bots

structure CookieSound (mine : Str → Prop) (s : BrowserSystem py) : Prop where
  names : NamesSoundOn mine s.server
  senders : s.senders.length = s.server.running.length
  jar : ∃ d : StringDict, parseCookie py s.jar = .ok (.obj d.fields) ∧
    Covers d s.received s.server.db.bots
  received : ∀ name ∈ s.received, mine name
  running : ∀ sub known, Runs s.server.running s.senders sub known →
    mine sub.valid.botName ∧ sub.Carries known s.server.db.bots
  answers : ∀ a ∈ s.answers, mine a.submission.valid.botName ∧
    a.submission.Carries a.known s.server.db.bots ∧ a.row ∈ s.server.db.bots ∧
    a.row.baseName = a.submission.valid.botName ∧
    storable a.row.baseName ∧ storable a.row.ownerToken

variable {mine : Str → Prop}

theorem Covers.mono {d : StringDict} {names : List Str} {bots bots' : List BotRow}
    (h : Covers d names bots) (hsub : bots ⊆ bots') : Covers d names bots' := by
  intro name hname
  obtain ⟨bot, hbot, hfacts⟩ := h name hname
  exact ⟨bot, hsub hbot, hfacts⟩

theorem Submission.Carries.mono {sub : Submission py} {known : List Str} {bots bots' : List BotRow}
    (h : sub.Carries known bots) (hsub : bots ⊆ bots') : sub.Carries known bots' := by
  obtain ⟨d, howned, hcovers⟩ := h
  exact ⟨d, howned, hcovers.mono hsub⟩

theorem scalar_of_storable {s : Str} (h : storable s) : Scalar s :=
  fun c hc => (storable_iff.1 h c hc).2

/-- Setting the entry of the bot of an answer, with nothing received in between
that the request did not know. -/
theorem Covers.set {d : StringDict} {received known : List Str} {bots : List BotRow} {row : BotRow}
    (h : Covers d known bots) (hrow : row ∈ bots) (hname : Scalar row.baseName)
    (htoken : Scalar row.ownerToken)
    (hbetween : ∀ name ∈ received, name ∈ known ∨ name = row.baseName) :
    Covers (d.set row.baseName row.ownerToken hname htoken) (received ++ [row.baseName]) bots := by
  intro name hmem
  by_cases heq : name = row.baseName
  · exact ⟨row, hrow, heq.symm, heq ▸ StringDict.mem_setEntry_self _ _ _⟩
  · have hknown : name ∈ known := by
      rcases List.mem_append.1 hmem with hmem | hmem
      · exact (hbetween name hmem).resolve_right heq
      · exact absurd (List.mem_singleton.1 hmem) heq
    obtain ⟨bot, hbot, hbotName, hmaps⟩ := h name hknown
    exact ⟨bot, hbot, hbotName, StringDict.mem_setEntry_of_ne heq hmaps⟩

theorem cookieSound_start : CookieSound mine (BrowserSystem.start py) where
  names := namesSoundOn_start
  senders := rfl
  jar := ⟨StringDict.empty, rfl, by simp [Covers, BrowserSystem.start]⟩
  received := by simp [BrowserSystem.start]
  running := by
    rintro sub known ⟨i, r, hr, -⟩
    simp [BrowserSystem.start, SubmitSystem.start] at hr
  answers := by simp [BrowserSystem.start]

/-! ### Its steps -/

theorem arrive_of_submitStep {s s' : SubmitSystem py} {upload : Upload}
    (h : submitStep s (.arrive upload) = some s') :
    ∃ sub : Submission py, sub.upload = upload ∧
      s' = { s with running := ⟨sub, .started⟩ :: s.running } := by
  simp only [submitStep] at h
  split at h
  · rename_i valid hprepare
    exact ⟨⟨upload, valid, hprepare⟩, rfl, (Option.some.inj h).symm⟩
  · exact absurd h (by simp)

theorem CookieSound.send {s : BrowserSystem py} (h : CookieSound mine s) {sub : Submission py}
    {sender : Sender} (hsender : ∀ known, sender = .browser known →
      mine sub.valid.botName ∧ sub.Carries known s.server.db.bots) :
    CookieSound mine { s with
      server := { s.server with running := ⟨sub, .started⟩ :: s.server.running }
      senders := sender :: s.senders } where
  names := @NamesSoundOn.move _ _ _ h.names s.server.db.botSeq _
    (List.forall_mem_cons.2 ⟨fun _ => trivial, h.names.running⟩)
  senders := by simp [h.senders]
  jar := h.jar
  received := h.received
  running := by
    intro other known hruns
    rcases runs_cons hruns with ⟨hknown, rfl⟩ | hruns
    · exact hsender known hknown
    · exact h.running other known hruns
  answers := h.answers

theorem CookieSound.upload {s : BrowserSystem py} (h : CookieSound mine s) {sub : Submission py}
    (hcookie : sub.upload.ownedBotsCookie = s.jar) : sub.Carries s.received s.server.db.bots := by
  obtain ⟨d, hjar, hcovers⟩ := h.jar
  have howned := (prepare_valid sub.prepared).2.2.1
  rw [hcookie, hjar, Except.ok.injEq] at howned
  exact ⟨d, howned.symm, hcovers⟩

theorem CookieSound.serve {s : BrowserSystem py} (h : CookieSound mine s) {action : SubmitAction}
    {i : ℕ} {server : SubmitSystem py} (hi : action.running? = some i)
    (hfree : NameStillFreeOn mine s.server action)
    (hstep : submitStep s.server action = some server) :
    CookieSound mine { s with
      server := server
      senders := follow s.server server i s.senders
      answers := s.answers ++ newAnswers s.server server i s.senders } := by
  obtain ⟨r, hr, hserved⟩ := served_of_submitStep hi hstep
  have hbots := bots_subset_of_submitStep hstep
  obtain ⟨d, hjar, hcovers⟩ := h.jar
  refine ⟨namesSoundOn_step h.names hfree hstep, length_follow h.senders hr hserved,
    ⟨d, hjar, hcovers.mono hbots⟩, h.received, ?_, ?_⟩
  · intro sub known hruns
    obtain ⟨hmine, hcarries⟩ := h.running sub known (runs_follow h.senders hr hserved hruns)
    exact ⟨hmine, hcarries.mono hbots⟩
  · intro a ha
    rcases List.mem_append.1 ha with ha | ha
    · obtain ⟨hmine, hcarries, hrow, hfacts⟩ := h.answers a ha
      exact ⟨hmine, hcarries.mono hbots, hbots hrow, hfacts⟩
    · obtain ⟨hruns, hrow, hfacts⟩ := mem_newAnswers hr hserved ha
      obtain ⟨hmine, hcarries⟩ := h.running _ _ hruns
      exact ⟨hmine, hcarries.mono hbots, hrow, hfacts⟩

theorem CookieSound.drop {s : BrowserSystem py} (h : CookieSound mine s) (i : ℕ) :
    CookieSound mine { s with answers := s.answers.eraseIdx i } where
  names := h.names
  senders := h.senders
  jar := h.jar
  received := h.received
  running := h.running
  answers a ha := h.answers a (List.mem_of_mem_eraseIdx ha)

theorem CookieSound.arrive {s : BrowserSystem py} (h : CookieSound mine s)
    (hjson : LoadsBack py.json) (number : Number → Str) {a : Answer py} (ha : a ∈ s.answers)
    {message : Str} {ownedBots : List (Str × PyValue)}
    (hpage : a.page = .ok (.success message ownedBots))
    (hbetween : ∀ name ∈ s.received, name ∈ a.known ∨ name = a.submission.valid.botName) :
    CookieSound mine { s with
      jar := some (encodeCookie number ownedBots)
      received := s.received ++ [a.submission.valid.botName] } := by
  obtain ⟨hmine, ⟨d, howned, hcovers⟩, hrow, hname, hstorableName, hstorableToken⟩ := h.answers a ha
  have hscalarName := scalar_of_storable hstorableName
  have hscalarToken := scalar_of_storable hstorableToken
  have hset : ownedBots =
      (d.set a.row.baseName a.row.ownerToken hscalarName hscalarToken).fields := by
    rw [Answer.page, howned, successResponse, ← hname, StringDict.setItem_fields,
      Except.ok.injEq, SubmitResponse.success.injEq] at hpage
    exact hpage.2.symm
  rw [hset, ← hname]
  refine ⟨h.names, h.senders, ⟨_, parseCookie_encodeCookie hjson number _, ?_⟩, ?_, h.running,
    h.answers⟩
  · exact hcovers.set hrow hscalarName hscalarToken (hname ▸ hbetween)
  · intro name hmem
    rcases List.mem_append.1 hmem with hmem | hmem
    · exact h.received name hmem
    · rw [List.mem_singleton.1 hmem, hname]
      exact hmine

theorem cookieSound_step {number : Number → Str} {s s' : BrowserSystem py}
    {action : BrowserAction} (hjson : LoadsBack py.json) (h : CookieSound mine s)
    (hbetween : NothingBetween mine s action) (hstep : browserStep number s action = some s') :
    CookieSound mine s' := by
  cases action with
  | upload sourceBytes =>
      obtain ⟨server, harrive, hstep⟩ := Option.bind_eq_some_iff.1 hstep
      obtain ⟨sub, hupload, rfl⟩ := arrive_of_submitStep harrive
      rw [← Option.some.inj hstep]
      apply h.send
      intro known hknown
      obtain rfl := Sender.browser.inj hknown
      exact ⟨hbetween sub.valid (hupload ▸ sub.prepared), h.upload (by rw [hupload])⟩
  | foreign upload =>
      obtain ⟨server, harrive, hstep⟩ := Option.bind_eq_some_iff.1 hstep
      obtain ⟨sub, -, rfl⟩ := arrive_of_submitStep harrive
      rw [← Option.some.inj hstep]
      exact h.send fun known hknown => absurd hknown (by simp)
  | serve action =>
      obtain ⟨i, hi, hstep⟩ := Option.bind_eq_some_iff.1 hstep
      obtain ⟨server, hserver, hstep⟩ := Option.bind_eq_some_iff.1 hstep
      rw [← Option.some.inj hstep]
      exact h.serve hi hbetween hserver
  | arrive i =>
      obtain ⟨a, ha, hstep⟩ := Option.bind_eq_some_iff.1 hstep
      simp only at hstep
      split at hstep
      · rename_i message ownedBots hpage
        rw [← Option.some.inj hstep]
        exact (h.arrive hjson number (List.mem_of_getElem? ha) hpage (hbetween a ha)).drop i
      · rw [← Option.some.inj hstep]
        exact h.drop i
  | lose i =>
      simp only [browserStep, Option.ite_none_right_eq_some] at hstep
      rw [← Option.some.inj hstep.2]
      exact h.drop i

theorem CookieSound.keeps {s : BrowserSystem py} (h : CookieSound mine s) : KeepsOwnership s := by
  obtain ⟨d, hjar, hcovers⟩ := h.jar
  refine ⟨_, hjar, fun name hname => ?_⟩
  obtain ⟨bot, hbot, hbotName, hmaps⟩ := hcovers name hname
  refine ⟨⟨bot, hbot, hbotName⟩, fun other hother hotherName => ?_⟩
  have hsame : bot.ownerToken = other.ownerToken :=
    h.names.sameOwner bot hbot other hother (hbotName ▸ h.received name hname)
      (hbotName.trans hotherName.symm)
  exact presents_of_maps (hsame ▸ hmaps)

/-- A browser keeps the names it has success pages for as long as nothing comes
between the requests for its names and their pages. -/
theorem ownership_kept (number : Number → Str) (mine : Str → Prop) (hjson : LoadsBack py.json)
    {s : BrowserSystem py}
    (h : Via (browserStep number) (NothingBetween mine) (BrowserSystem.start py) s) :
    KeepsOwnership s :=
  (h.invariant cookieSound_start fun _ _ _ hsound hbetween hstep =>
    cookieSound_step hjson hsound hbetween hstep).keeps

/-- `literalModules` with a decoder for its cookies. -/
def cookieModules : Interpreter := { literalModules with json := plainLoads }

/-- The text of no number, since there are none in the cookies. -/
def noNumbers : Number → Str := fun _ => []

def fooSource : List UInt8 := asciiBytes "\"\"\"name: Foo\"\"\""

def barSource : List UInt8 := asciiBytes "\"\"\"name: Bar\"\"\""

def fooRow : BotRow :=
  NewBot.row ⟨str "Foo", str "Foo", 1, List.replicate 64 0x61, str "3.14", str "python-3.14",
    some fooSource⟩ 1 0

/-- What the cookie holds after the second upload alone. -/
def barDict : StringDict :=
  StringDict.empty.set (str "Bar") (List.replicate 64 0x62) (scalar_of_storable rfl)
    (scalar_of_storable rfl)

/-- Two uploads overlap: both requests are sent before a page arrives, so the
cookie of the second page does not have the name of the first. -/
theorem ownership_lost :
    ∃ s, Reachable (browserStep noNumbers) (BrowserSystem.start cookieModules) s ∧
      s.server.running = [] ∧ s.answers = [] ∧ s.received = [str "Foo", str "Bar"] ∧
      ¬KeepsOwnership s := by
  have hrun : Reachable (browserStep noNumbers) (BrowserSystem.start cookieModules) _ :=
    reachable_of_exec [.upload fooSource, .upload barSource,
      .serve (.selectOwner 1 [] (plainToken 0x61 rfl)), .serve (.selectVersion 0),
      .serve (.insert 0 0), .serve (.selectOwner 0 [fooRow] (plainToken 0x62 rfl)),
      .serve (.selectVersion 0), .serve (.insert 0 0), .arrive 0, .arrive 0] rfl
  refine ⟨_, hrun, rfl, rfl, rfl, ?_⟩
  rintro ⟨owned, hjar, hnames⟩
  have hparsed : parseCookie cookieModules (some (encodeCookie noNumbers barDict.fields)) =
      .ok (.obj barDict.fields) :=
    parseCookie_encodeCookie loadsBack_plainLoads noNumbers barDict
  obtain rfl : .obj barDict.fields = owned := Except.ok.inj (hparsed.symm.trans hjar)
  have hfoo := (hnames (str "Foo") List.mem_cons_self).2 fooRow List.mem_cons_self rfl
  have hnone : presents (.obj barDict.fields) (str "Foo") fooRow.ownerToken = .ok false := rfl
  rw [hnone] at hfoo
  exact absurd hfoo (by simp)

instance (s : SubmitSystem py) : ∀ action, Decidable (NameStillFreeOn (fun _ => True) s action)
  | .selectVersion i =>
      inferInstanceAs (Decidable (∀ r ∈ s.running[i]?, r.stage.foundFree → True →
        ∀ bot ∈ s.db.bots, bot.baseName ≠ r.submission.valid.botName))
  | .arrive _ | .selectOwner _ _ _ | .insert _ _ | .raises _ => .isTrue trivial

instance (s : BrowserSystem py) : ∀ action, Decidable (NothingBetween (fun _ => True) s action)
  | .serve action => inferInstanceAs (Decidable (NameStillFreeOn (fun _ => True) s.server action))
  | .arrive i =>
      inferInstanceAs (Decidable (∀ a ∈ s.answers[i]?, ∀ name ∈ s.received,
        name ∈ a.known ∨ name = a.submission.valid.botName))
  | .upload _ => .isTrue fun _ _ => trivial
  | .foreign _ | .lose _ => .isTrue trivial

/-- Two uploads, the second one sent when the page of the first has arrived. -/
theorem ownership_kept_inSequence :
    ∃ s, Via (browserStep noNumbers) (NothingBetween fun _ => True)
        (BrowserSystem.start cookieModules) s ∧
      s.received = [str "Foo", str "Bar"] ∧ KeepsOwnership s := by
  have hexec : (execVia (browserStep noNumbers) (NothingBetween fun _ => True)
      (BrowserSystem.start cookieModules)
      [.upload fooSource, .serve (.selectOwner 0 [] (plainToken 0x61 rfl)),
        .serve (.selectVersion 0), .serve (.insert 0 0), .arrive 0,
        .upload barSource, .serve (.selectOwner 0 [fooRow] (plainToken 0x62 rfl)),
        .serve (.selectVersion 0), .serve (.insert 0 0), .arrive 0]).map
      BrowserSystem.received = some [str "Foo", str "Bar"] := by
    decide +kernel
  obtain ⟨s, hrun, hreceived⟩ := Option.map_eq_some_iff.1 hexec
  exact ⟨s, via_of_execVia _ hrun, hreceived,
    ownership_kept noNumbers (fun _ => True) loadsBack_plainLoads (via_of_execVia _ hrun)⟩

end TictactoeBots
