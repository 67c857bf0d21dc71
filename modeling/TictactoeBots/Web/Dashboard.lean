import TictactoeBots.Lib.JsonText
import TictactoeBots.Lib.JsonRoundTrip
import TictactoeBots.Lib.StepSystem
import TictactoeBots.Lib.Utf8Encode
import TictactoeBots.Runner.Engine

/-!
The sounds of the dashboard: from the events exchange to an open tab.

The exchange is a fanout, so an event is copied to the queue of every websocket
that is bound to it at that moment. A tab whose websocket has closed connects
again, to a new queue. The published events and the fields of `Feed` that count
or collect are the history of the run, nothing reads them. The robust connection
to the broker is taken to stay up.
-/

namespace TictactoeBots.Dashboard

open Text StepSystem

/-! ### Events -/

/-- What the web service and the dispatcher publish. -/
inductive Event where
  | botUploaded (versionedName : Str)
  | matchFinished (result : MatchOutcome)

def Event.eventType : Event → Str
  | .botUploaded _ => str "bot.uploaded"
  | .matchFinished _ => str "match.finished"

def Event.details : Event → List (Str × Json.Value ℤ)
  | .botUploaded versionedName => [(str "versioned_name", .str versionedName)]
  | .matchFinished result => [(str "result", .str result.value)]

def Event.text (event : Event) : Str :=
  Json.dumps (.obj [(str "type", .str event.eventType), (str "details", .obj event.details)])

/-- The body of `publish_event` and `_publish_match_finished`. -/
def Event.body (event : Event) : List UInt8 := Utf8.encode event.text

inductive Sound where
  | airhorn
  | battleEndDing
  deriving DecidableEq, Repr

/-- `SOUND_FOR[type]`, for a `type` that objects do not have by themselves. -/
def soundFor (type : Str) : Option Sound :=
  if type = str "bot.uploaded" then some .airhorn
  else if type = str "match.finished" then some .battleEndDing
  else none

/-- What `handleEvent` wants to play. A text that is not JSON is ignored. -/
def handleEvent (raw : Str) : Option Sound :=
  match Json.parse id raw with
  | some (.obj fields) =>
      match Json.lookup (str "type") fields with
      | some (.str type) => soundFor type
      | _ => none
  | _ => none

def Event.sound : Event → Sound
  | .botUploaded _ => .airhorn
  | .matchFinished _ => .battleEndDing

/-! ### Tabs -/

/-- A websocket whose server side has bound its queue. -/
structure Feed where
  /-- How many events had been published before. -/
  since : ℕ
  queue : List (List UInt8)
  /-- Sent and not received yet. -/
  wire : List Str
  /-- How many messages have made no sound. -/
  silent : ℕ
  sounds : List Sound

inductive Socket where
  /-- `dashboard_ws` has not bound its queue yet. -/
  | opening
  | bound (feed : Feed)

structure Tab where
  /-- `none` between `close` and the next `connect`. -/
  socket : Option Socket
  audio : Bool

structure Dash where
  published : List Event
  tabs : List Tab

def Dash.fresh : Dash := ⟨[], []⟩

def Tab.enqueue (body : List UInt8) (tab : Tab) : Tab :=
  match tab.socket with
  | some (.bound feed) =>
      { tab with socket := some (.bound { feed with queue := feed.queue ++ [body] }) }
  | _ => tab

/-- `handleEvent`, whose sounds need an `audioCtx`. -/
def Feed.hear (audio : Bool) (raw : Str) (feed : Feed) : Feed :=
  match handleEvent raw, audio with
  | some sound, true => { feed with sounds := feed.sounds ++ [sound] }
  | _, _ => { feed with silent := feed.silent + 1 }

inductive DashAction where
  | publish (event : Event)
  | load
  /-- `dashboard_ws` binds the queue of tab `i`. -/
  | bind (i : ℕ)
  /-- `dashboard_ws` sends the next message of tab `i`. -/
  | forward (i : ℕ)
  | receive (i : ℕ)
  /-- The websocket of tab `i` closes, and its queue is deleted. -/
  | close (i : ℕ)
  | reconnect (i : ℕ)
  /-- A click on the overlay or on a demo button. -/
  | unlock (i : ℕ)

/-- What happens to one tab, where `published` events have been published. -/
def tabStep (published : ℕ) (tab : Tab) : DashAction → Option Tab
  | .bind _ =>
      match tab.socket with
      | some .opening => some { tab with socket := some (.bound ⟨published, [], [], 0, []⟩) }
      | _ => none
  | .forward _ =>
      match tab.socket with
      | some (.bound feed) =>
          match feed.queue with
          | body :: queue =>
              match Utf8.decodeStrict body with
              | some text =>
                  some { tab with socket := some (.bound
                    { feed with queue := queue, wire := feed.wire ++ [Json.utf16 text] }) }
              -- the exception ends the handler
              | none => some { tab with socket := none }
          | [] => none
      | _ => none
  | .receive _ =>
      match tab.socket with
      | some (.bound feed) =>
          match feed.wire with
          | raw :: wire =>
              let feed := { feed with wire := wire }
              some { tab with socket := some (.bound (feed.hear tab.audio raw)) }
          | [] => none
      | _ => none
  | .close _ => tab.socket.map fun _ => { tab with socket := none }
  | .reconnect _ => if tab.socket.isNone then some { tab with socket := some .opening } else none
  | .unlock _ => some { tab with audio := true }
  | _ => none

def DashAction.tab : DashAction → Option ℕ
  | .publish _ | .load => none
  | .bind i | .forward i | .receive i | .close i | .reconnect i | .unlock i => some i

def dashStep (s : Dash) (action : DashAction) : Option Dash :=
  match action with
  | .publish event =>
      some ⟨s.published ++ [event], s.tabs.map (Tab.enqueue event.body)⟩
  | .load => some { s with tabs := s.tabs ++ [⟨some .opening, false⟩] }
  | _ => do
      let i ← action.tab
      let tab ← s.tabs[i]?
      let tab' ← tabStep s.published.length tab action
      return { s with tabs := s.tabs.set i tab' }

/-! ### One message -/

theorem decodeStrict_body (event : Event) : Utf8.decodeStrict event.body = some event.text := by
  refine Utf8.decodeStrict_encode fun c hc => ?_
  have hrange := Json.printable_dumps _ c hc
  omega

theorem utf16_text (event : Event) : Json.utf16 event.text = event.text :=
  Json.utf16_of_printable (Json.printable_dumps _)

theorem handleEvent_text (event : Event) : handleEvent event.text = some event.sound := by
  rw [handleEvent, Event.text, Json.parse_dumps]
  cases event <;> rfl

/-! ### One tab -/

/-- The events since the queue was bound have been heard, or are on their way in
the order in which they were published. -/
structure Hears (published : List Event) (audio : Bool) (feed : Feed)
    (heard onWire waiting : List Event) : Prop where
  events : published.drop feed.since = heard ++ onWire ++ waiting
  since : feed.since ≤ published.length
  wire : feed.wire = onWire.map Event.text
  queue : feed.queue = waiting.map Event.body
  silent : feed.silent ≤ heard.length
  locked : audio = false → feed.silent = heard.length
  sounds : feed.sounds = (heard.drop feed.silent).map Event.sound

def TabSound (published : List Event) (tab : Tab) : Prop :=
  ∀ feed, tab.socket = some (.bound feed) →
    ∃ heard onWire waiting, Hears published tab.audio feed heard onWire waiting

section Tab

variable {published heard onWire waiting : List Event} {event : Event} {audio : Bool} {feed : Feed}
  {tab tab' : Tab} {action : DashAction}

theorem Hears.enqueue (h : Hears published audio feed heard onWire waiting) (event : Event) :
    Hears (published ++ [event]) audio { feed with queue := feed.queue ++ [event.body] } heard
      onWire (waiting ++ [event]) where
  events := by
    rw [List.drop_append_of_le_length h.since, h.events, List.append_assoc _ waiting]
  since := by
    rw [List.length_append]
    exact h.since.trans (Nat.le_add_right _ _)
  wire := h.wire
  queue := by
    rw [List.map_append, ← h.queue]
    rfl
  silent := h.silent
  locked := h.locked
  sounds := h.sounds

theorem TabSound.enqueue (h : TabSound published tab) (event : Event) :
    TabSound (published ++ [event]) (tab.enqueue event.body) := by
  intro feed hfeed
  unfold Tab.enqueue at hfeed ⊢
  split at hfeed
  · rename_i old hold
    obtain ⟨heard, onWire, waiting, hhears⟩ := h old hold
    simp only [Option.some.injEq, Socket.bound.injEq] at hfeed
    subst hfeed
    exact ⟨heard, onWire, waiting ++ [event], hhears.enqueue event⟩
  · rename_i hclosed
    exact absurd hfeed (hclosed feed)

theorem Hears.forward (h : Hears published audio feed heard onWire (event :: waiting)) :
    Hears published audio
      { feed with queue := waiting.map Event.body, wire := feed.wire ++ [event.text] } heard
      (onWire ++ [event]) waiting where
  events := by rw [h.events, List.append_assoc, List.append_assoc, List.append_assoc]; rfl
  since := h.since
  wire := by
    rw [List.map_append, ← h.wire]
    rfl
  queue := rfl
  silent := h.silent
  locked := h.locked
  sounds := h.sounds

theorem Hears.receive (h : Hears published audio feed heard (event :: onWire) waiting) :
    Hears published audio (Feed.hear audio event.text { feed with wire := onWire.map Event.text })
      (heard ++ [event]) onWire waiting := by
  have hevents : published.drop feed.since = heard ++ [event] ++ onWire ++ waiting := by
    rw [h.events, List.append_assoc heard [event] onWire]
    rfl
  unfold Feed.hear
  rw [handleEvent_text]
  cases audio with
  | true =>
      refine ⟨hevents, h.since, rfl, h.queue, ?_, by simp, ?_⟩
      · rw [List.length_append]
        exact h.silent.trans (Nat.le_add_right _ _)
      · rw [List.drop_append_of_le_length h.silent, List.map_append, ← h.sounds]
        rfl
  | false =>
      have hsilent := h.locked rfl
      have hsounds := h.sounds
      rw [hsilent, List.drop_length] at hsounds
      refine ⟨hevents, h.since, rfl, h.queue, ?_, fun _ => ?_, ?_⟩
      · simp [hsilent]
      · simp [hsilent]
      · simp [hsilent, hsounds]

theorem Hears.bind (published : List Event) (audio : Bool) :
    Hears published audio ⟨published.length, [], [], 0, []⟩ [] [] [] :=
  ⟨List.drop_length, le_rfl, rfl, rfl, le_rfl, fun _ => rfl, rfl⟩

theorem Hears.unlock (h : Hears published audio feed heard onWire waiting) :
    Hears published true feed heard onWire waiting :=
  ⟨h.events, h.since, h.wire, h.queue, h.silent, fun hlocked => absurd hlocked (by simp), h.sounds⟩

theorem tabSound_of_not_bound (h : ∀ feed, tab.socket ≠ some (.bound feed)) :
    TabSound published tab := fun feed hfeed => absurd hfeed (h feed)

theorem tabSound_of_hears (h : Hears published audio feed heard onWire waiting) :
    TabSound published ⟨some (.bound feed), audio⟩ := by
  intro other hother
  simp only [Option.some.injEq, Socket.bound.injEq] at hother
  exact hother ▸ ⟨heard, onWire, waiting, h⟩

theorem TabSound.step (h : TabSound published tab)
    (hstep : tabStep published.length tab action = some tab') : TabSound published tab' := by
  obtain ⟨socket, audio⟩ := tab
  cases action with
  | publish event => cases hstep
  | load => cases hstep
  | bind i =>
      rcases socket with _ | _ | feed
      · cases hstep
      · obtain rfl := Option.some.inj hstep
        exact tabSound_of_hears (.bind published audio)
      · cases hstep
  | forward i =>
      rcases socket with _ | _ | feed
      · cases hstep
      · cases hstep
      · obtain ⟨heard, onWire, waiting, hhears⟩ := h feed rfl
        obtain ⟨since, queue, wire, silent, sounds⟩ := feed
        obtain rfl := hhears.queue
        cases waiting with
        | nil => cases hstep
        | cons event waiting =>
            simp only [tabStep, List.map_cons, decodeStrict_body, utf16_text] at hstep
            obtain rfl := Option.some.inj hstep
            exact tabSound_of_hears hhears.forward
  | receive i =>
      rcases socket with _ | _ | feed
      · cases hstep
      · cases hstep
      · obtain ⟨heard, onWire, waiting, hhears⟩ := h feed rfl
        obtain ⟨since, queue, wire, silent, sounds⟩ := feed
        obtain rfl := hhears.wire
        cases onWire with
        | nil => cases hstep
        | cons event onWire =>
            obtain rfl := Option.some.inj hstep
            exact tabSound_of_hears hhears.receive
  | close i =>
      obtain ⟨_, -, rfl⟩ := Option.map_eq_some_iff.1 hstep
      exact tabSound_of_not_bound fun _ => by simp
  | reconnect i =>
      simp only [tabStep] at hstep
      split at hstep
      · obtain rfl := Option.some.inj hstep
        exact tabSound_of_not_bound fun _ => by simp
      · cases hstep
  | unlock i =>
      obtain rfl := Option.some.inj hstep
      intro feed hfeed
      obtain ⟨heard, onWire, waiting, hhears⟩ := h feed hfeed
      exact ⟨heard, onWire, waiting, hhears.unlock⟩

end Tab

/-! ### All tabs -/

/-- Everything a step can do. -/
theorem dashStep_cases {s s' : Dash} {action : DashAction} (h : dashStep s action = some s') :
    (∃ event, s' = ⟨s.published ++ [event], s.tabs.map (Tab.enqueue event.body)⟩) ∨
    s' = { s with tabs := s.tabs ++ [⟨some .opening, false⟩] } ∨
    ∃ i tab tab', s.tabs[i]? = some tab ∧ tabStep s.published.length tab action = some tab' ∧
      s' = { s with tabs := s.tabs.set i tab' } := by
  cases action with
  | publish event => exact .inl ⟨event, (Option.some.inj h).symm⟩
  | load => exact .inr (.inl (Option.some.inj h).symm)
  | bind i | forward i | receive i | close i | reconnect i | unlock i =>
      obtain ⟨tab, htab, h⟩ := Option.bind_eq_some_iff.1 h
      obtain ⟨tab', htab', h⟩ := Option.bind_eq_some_iff.1 h
      exact .inr (.inr ⟨i, tab, tab', htab, htab', (Option.some.inj h).symm⟩)

theorem tabSound_of_reachable {s : Dash} (h : Reachable dashStep .fresh s) :
    ∀ tab ∈ s.tabs, TabSound s.published tab := by
  apply h.invariant
  · simp [Dash.fresh]
  · intro s action s' hsound hstep
    obtain ⟨event, rfl⟩ | rfl | ⟨i, tab, tab', htab, htab', rfl⟩ := dashStep_cases hstep
    · intro tab htab
      obtain ⟨old, hold, rfl⟩ := List.mem_map.1 htab
      exact (hsound old hold).enqueue event
    · intro tab htab
      rcases List.mem_append.1 htab with hold | hnew
      · exact hsound tab hold
      · obtain rfl := List.mem_singleton.1 hnew
        exact tabSound_of_not_bound fun _ => by simp
    · intro other hother
      rcases List.mem_or_eq_of_mem_set hother with hold | rfl
      · exact hsound other hold
      · exact (hsound tab (List.mem_of_getElem? htab)).step htab'

/-- On every websocket of a dashboard, whatever is going on in the others, the
events published since its queue was bound are heard once each and in their
order, those before the first click in silence and the others with the sound of
their type. -/
theorem dashboard_hears_events {s : Dash} (h : Reachable dashStep .fresh s) {tab : Tab}
    (htab : tab ∈ s.tabs) {feed : Feed} (hfeed : tab.socket = some (.bound feed)) :
    (∃ heard onWire waiting, Hears s.published tab.audio feed heard onWire waiting) ∧
      (feed.queue = [] → feed.wire = [] →
        feed.sounds = (s.published.drop (feed.since + feed.silent)).map Event.sound) := by
  obtain ⟨heard, onWire, waiting, hhears⟩ := tabSound_of_reachable h tab htab feed hfeed
  refine ⟨⟨heard, onWire, waiting, hhears⟩, fun hqueue hwire => ?_⟩
  obtain rfl := List.map_eq_nil_iff.1 (hhears.queue.symm.trans hqueue)
  obtain rfl := List.map_eq_nil_iff.1 (hhears.wire.symm.trans hwire)
  have hevents := hhears.events
  rw [List.append_nil, List.append_nil] at hevents
  rw [hhears.sounds, ← hevents, List.drop_drop]

def hornTab : Tab := ⟨some (.bound ⟨0, [], [], 0, [.airhorn]⟩), true⟩

theorem exec_horn (versionedName : Str) :
    exec dashStep .fresh [.load, .bind 0, .unlock 0, .publish (.botUploaded versionedName),
      .forward 0, .receive 0] = some ⟨[.botUploaded versionedName], [hornTab]⟩ := by
  simp [exec, dashStep, tabStep, DashAction.tab, Dash.fresh, Tab.enqueue, Feed.hear,
    decodeStrict_body, utf16_text, handleEvent_text, hornTab, Event.sound]

theorem dashboard_hears_events_horn :
    [Sound.airhorn] = ([Event.botUploaded (str "Foo v1")].drop (0 + 0)).map Event.sound :=
  (dashboard_hears_events (reachable_of_exec _ (exec_horn (str "Foo v1")))
    (List.mem_cons_self (a := hornTab)) rfl).2 rfl rfl

end TictactoeBots.Dashboard
