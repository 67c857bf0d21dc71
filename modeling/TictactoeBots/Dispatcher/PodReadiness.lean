import TictactoeBots.Lib.Polling
import TictactoeBots.Dispatcher.PodBuilder

/-!
Waiting for a new pod.

`_build_and_wait` polls the cluster until the pod runs and its container is
ready, asks for its address and polls its health check, both loops with the same
timeout. The cluster and the network answer differently at different times, and
an exception that the wait raises rejects the message: the bot stays as it was,
and its pod stays behind. Neither request has a timeout of its own, so that the
wait ends is subject to every request ending, `Cluster.Paced`.
-/

namespace TictactoeBots

open Text Python Polling

/-! ### The loops -/

def pollInterval : ℚ := 1 / 2

def terminalPodPhases : List Str := [str "Failed", str "Unknown"]

/-- What `wait_for_pod_ready` and `get_pod_ip` read of a pod. -/
structure WatchedPod where
  phase : Str
  /-- The flags `ready` of its containers, empty for `None`. -/
  containerStatuses : List Bool
  status : PodStatus

/-- The cluster and its network, at every time. -/
structure Cluster where
  readNamespacedPod : ℚ → Str → Except PyException WatchedPod
  urlopen : ℚ → Str → Except PyException Unit
  podClock : Clock
  httpClock : Clock

/-- What the wait needs to know of Python. -/
structure WaitPython where
  unicode : UnicodeData
  formatFloat : ℚ → Str

def checkPodPhase (U : UnicodeData) (pod : WatchedPod) (podName : Str) : Except PyException Bool :=
  if pod.phase ∈ terminalPodPhases then
    .error ⟨.runtimeError, str "pod " ++ podName ++ str " entered phase " ++ repr U pod.phase⟩
  else .ok (pod.phase = str "Running" ∧ pod.containerStatuses.head? = some true)

def podAttempt (U : UnicodeData) (cluster : Cluster) (podName : Str) (now : ℚ) :
    Except PyException (Option Unit) := do
  let pod ← cluster.readNamespacedPod now podName
  if ← checkPodPhase U pod podName then return some () else return none

def healthUrl (podIp : Str) : Str :=
  str "http://" ++ podIp ++ str ":" ++ decimal turnPort ++ str "/health"

/-- One round of `wait_for_http_ready`, whatever is raised. -/
def httpAttempt (cluster : Cluster) (podIp : Str) (now : ℚ) : Except PyException (Option Unit) :=
  match cluster.urlopen now (healthUrl podIp) with
  | .ok () => .ok (some ())
  | .error _ => .ok none

/-- Rounds that are enough for a timeout. -/
def waitFuel (timeout : ℚ) : ℕ := ⌈timeout / pollInterval⌉₊ + 1

def waitLoop (attempt : ℚ → Except PyException (Option Unit)) (clock : Clock) (timeout : ℚ)
    (message : Str) (now : ℚ) : Option (Except PyException Unit × ℚ) :=
  (poll attempt clock (now + timeout) (waitFuel timeout) now).map fun
    | (.error exc, finish) => (.error exc, finish)
    | (.ok (some ()), finish) => (.ok (), finish)
    | (.ok none, finish) => (.error ⟨.timeoutError, message⟩, finish)

def waitForPodReady (py : WaitPython) (cluster : Cluster) (podName : Str) (timeout now : ℚ) :
    Option (Except PyException Unit × ℚ) :=
  waitLoop (podAttempt py.unicode cluster podName) cluster.podClock timeout
    (str "pod " ++ podName ++ str " not ready after " ++ py.formatFloat timeout ++ str "s") now

def waitForHttpReady (py : WaitPython) (cluster : Cluster) (podIp : Str) (timeout now : ℚ) :
    Option (Except PyException Unit × ℚ) :=
  waitLoop (httpAttempt cluster podIp) cluster.httpClock timeout
    (str "pod at " ++ podIp ++ str " not ready after " ++ py.formatFloat timeout ++ str "s") now

/-- The client as it answers at `now`. -/
def Cluster.coreV1 (cluster : Cluster) (now : ℚ) : CoreV1 :=
  ⟨fun podName _ => (cluster.readNamespacedPod now podName).map fun pod => ⟨pod.status⟩⟩

/-- `_build_and_wait` from the creation of the pod on, with the time when it
ends. -/
def buildAndWait (py : WaitPython) (cluster : Cluster) (podName : Str) (timeout now : ℚ) :
    Option (Except PyException Unit × ℚ) := do
  let (ready, t) ← waitForPodReady py cluster podName timeout now
  match ready with
  | .error exc => return (.error exc, t)
  | .ok () =>
      let t' := t + cluster.podClock.takes t
      match getPodIp (cluster.coreV1 t) podName with
      | .error exc => return (.error exc, t')
      | .ok podIp => waitForHttpReady py cluster podIp timeout t'

/-- `handle_build_pod_message` with the time that it spends waiting. -/
def handleBuildWaiting (py : WaitPython) (cluster : Cluster) (timeout : ℚ) (w : BuildWorld)
    (msg : BuildPodMessage) (now : ℚ) : Option (BuildWorld × BuildStatus × ℚ) :=
  match buildSteps msg 2 (w, .running .received) with
  | (w', .running (.created bot)) => do
      let (ready, finish) ← buildAndWait py cluster (podName bot.id) timeout now
      match ready with
      | .error _ => return (w', .rejected, finish)
      | .ok () =>
          let (w'', status) := buildSteps msg 3 (w', .running (.waited bot))
          return (w'', status, finish)
  -- the runtime or the bot is unknown, or the pod exists
  | (w', status) => return (w', status, now)

/-! ### One loop -/

section Loop

variable {attempt : ℚ → Except PyException (Option Unit)} {clock : Clock} {timeout now finish : ℚ}
  {message : Str} {result : Except PyException Unit}

theorem waitLoop_isSome (hclock : clock.Regular pollInterval) :
    ∃ result finish, waitLoop attempt clock timeout message now = some (result, finish) := by
  have hceil : timeout / pollInterval ≤ ⌈timeout / pollInterval⌉₊ := Nat.le_ceil _
  rw [div_le_iff₀ hclock.interval_pos] at hceil
  have hpoll : (poll attempt clock (now + timeout) (waitFuel timeout) now).isSome :=
    poll_isSome hclock (by linarith)
  obtain ⟨⟨ended, finish⟩, hended⟩ := Option.isSome_iff_exists.1 hpoll
  rw [waitLoop, hended]
  exact ⟨_, _, rfl⟩

theorem waitLoop_eq_ok_iff (hclock : clock.Regular pollInterval) :
    waitLoop attempt clock timeout message now = some (.ok (), finish) ↔
      ∃ t, Looks attempt clock (now + timeout) now t ∧ t < now + timeout ∧
        attempt t = .ok (some ()) ∧ finish = t + clock.takes t := by
  constructor
  · intro h
    obtain ⟨⟨ended, finish'⟩, hpoll, heq⟩ := Option.map_eq_some_iff.1 h
    obtain ⟨t, hlooks, ⟨hlt, hattempt, -, rfl⟩ | ⟨-, rfl, -⟩⟩ := looks_of_poll hpoll .start
    · rcases ended with exc | _ | ⟨⟩
      · cases heq
      · cases heq
      · obtain ⟨-, rfl⟩ := Prod.mk.inj heq
        exact ⟨t, hlooks, hlt, hattempt, rfl⟩
    · cases heq
  · rintro ⟨t, hlooks, hlt, hattempt, rfl⟩
    obtain ⟨result, finish, h⟩ := @waitLoop_isSome attempt clock timeout now message hclock
    obtain ⟨ended, hpoll, heq⟩ := Option.map_eq_some_iff.1 h
    obtain rfl := poll_of_looks hlooks hlt hattempt hpoll
    rw [h, ← heq]

/-- It ends soon after the deadline, whatever its result is. -/
theorem finish_of_waitLoop {gap : ℚ} (hclock : clock.Regular pollInterval)
    (hgap : ∀ t, clock.gap t ≤ gap) (htimeout : 0 ≤ timeout)
    (h : waitLoop attempt clock timeout message now = some (result, finish)) :
    now ≤ finish ∧ finish ≤ now + timeout + gap := by
  obtain ⟨⟨ended, finish'⟩, hpoll, heq⟩ := Option.map_eq_some_iff.1 h
  have hfinish : finish' = finish := by
    rcases ended with exc | _ | ⟨⟩ <;> exact (Prod.mk.inj heq).2
  subst hfinish
  obtain ⟨t, hlooks, hend⟩ := looks_of_poll hpoll .start
  have hstart := hlooks.start_le hclock
  rcases hend with ⟨hlt, -, -, rfl⟩ | ⟨-, -, rfl⟩
  · have htakes := hclock.takes t
    have hsleeps := hclock.sleeps (t + clock.takes t)
    have hpos := hclock.interval_pos
    have htry : clock.takes t + clock.sleeps (t + clock.takes t) ≤ gap := hgap t
    exact ⟨by linarith, by linarith⟩
  · have hpos : 0 < gap :=
      hclock.interval_pos.trans_le ((hclock.interval_le_gap now).trans (hgap now))
    exact ⟨hstart, (hlooks.lt_of_gap hgap hpos (by linarith)).le⟩

theorem waitLoop_of_first (htimeout : 0 < timeout) (h : attempt now = .ok (some ())) :
    waitLoop attempt clock timeout message now = some (.ok (), now + clock.takes now) := by
  have hlt : now < now + timeout := by linarith
  rw [waitLoop, waitFuel, poll, if_pos hlt, h]
  rfl

theorem waitLoop_of_there {gap s : ℚ} (hclock : clock.Regular pollInterval)
    (hgap : ∀ t, clock.gap t ≤ gap) (hs : s + gap ≤ now + timeout) (hnow : now < s + gap)
    (hbefore : ∀ t, now ≤ t → t < s → attempt t = .ok none)
    (hthere : ∀ t, s ≤ t → attempt t = .ok (some ()))
    (h : waitLoop attempt clock timeout message now = some (result, finish)) : result = .ok () := by
  obtain ⟨⟨ended, finish'⟩, hpoll, heq⟩ := Option.map_eq_some_iff.1 h
  obtain ⟨⟨⟩, rfl⟩ := exists_of_poll hclock hgap hs hnow
    (fun t ht hts e he => by cases (hbefore t ht hts).symm.trans he)
    (fun t ht _ => ⟨(), hthere t ht⟩) hpoll
  exact (Prod.mk.inj heq).1.symm

end Loop

/-! ### The whole wait -/

section Wait

variable {py : WaitPython} {cluster : Cluster} {name podIp : Str} {timeout now finish t : ℚ}
  {result : Except PyException Unit}

def WatchedPod.Ready (pod : WatchedPod) : Prop :=
  pod.phase = str "Running" ∧ pod.containerStatuses.head? = some true

theorem checkPodPhase_eq_true_iff {U : UnicodeData} {pod : WatchedPod} :
    checkPodPhase U pod name = .ok true ↔ pod.Ready := by
  have hrunning : str "Running" ∉ terminalPodPhases := by decide
  unfold checkPodPhase
  split
  · rename_i hterminal
    exact iff_of_false (by simp) fun hready => hrunning (hready.1 ▸ hterminal)
  · rw [Except.ok.injEq, decide_eq_true_iff]
    rfl

theorem podAttempt_eq_some_iff {U : UnicodeData} :
    podAttempt U cluster name t = .ok (some ()) ↔
      ∃ pod, cluster.readNamespacedPod t name = .ok pod ∧ pod.Ready := by
  unfold podAttempt
  cases hread : cluster.readNamespacedPod t name with
  | error exc => simp [bind, Except.bind]
  | ok pod =>
      simp only [Except.ok.injEq, exists_eq_left', ← @checkPodPhase_eq_true_iff name U]
      simp only [bind, Except.bind]
      rcases checkPodPhase U pod name with exc | _ | _ <;> simp [pure, Except.pure]

theorem httpAttempt_eq_some_iff :
    httpAttempt cluster podIp t = .ok (some ()) ↔ cluster.urlopen t (healthUrl podIp) = .ok () := by
  unfold httpAttempt
  rcases cluster.urlopen t (healthUrl podIp) with exc | ⟨⟨⟩⟩ <;> simp

/-- A look of the first loop before its deadline finds the pod ready, no earlier
one having raised; the pod then has an address; and there a look of the second
loop before its deadline is answered. -/
def Answered (U : UnicodeData) (cluster : Cluster) (name : Str) (timeout now finish : ℚ) : Prop :=
  ∃ t₁ podIp t₃,
    let t₂ := t₁ + cluster.podClock.takes t₁
    let start := t₂ + cluster.podClock.takes t₂
    (Looks (podAttempt U cluster name) cluster.podClock (now + timeout) now t₁ ∧
      t₁ < now + timeout ∧ ∃ pod, cluster.readNamespacedPod t₁ name = .ok pod ∧ pod.Ready) ∧
    getPodIp (cluster.coreV1 t₂) name = .ok podIp ∧
    (Looks (httpAttempt cluster podIp) cluster.httpClock (start + timeout) start t₃ ∧
      t₃ < start + timeout ∧ cluster.urlopen t₃ (healthUrl podIp) = .ok ()) ∧
    finish = t₃ + cluster.httpClock.takes t₃

/-- From `s` on the pod runs and answers at `podIp`, and before that it is on
its way. -/
structure HealthyFrom (U : UnicodeData) (cluster : Cluster) (name podIp : Str) (now s : ℚ) :
    Prop where
  before : ∀ t, now ≤ t → t < s → podAttempt U cluster name t = .ok none
  pod : ∀ t, s ≤ t → ∃ pod, cluster.readNamespacedPod t name = .ok pod ∧ pod.Ready ∧
    pod.status.podIp = some podIp
  podIp_ne_nil : podIp ≠ []
  health : ∀ t, s ≤ t → cluster.urlopen t (healthUrl podIp) = .ok ()

/-- The clocks of both loops are regular, and no round takes longer than `gap`. -/
structure Cluster.Paced (cluster : Cluster) (gap : ℚ) : Prop where
  pod : cluster.podClock.Regular pollInterval
  http : cluster.httpClock.Regular pollInterval
  podGap : ∀ t, cluster.podClock.gap t ≤ gap
  httpGap : ∀ t, cluster.httpClock.gap t ≤ gap

theorem buildAndWait_isSome {gap : ℚ} (hpaced : cluster.Paced gap) :
    ∃ result finish, buildAndWait py cluster name timeout now = some (result, finish) := by
  obtain ⟨ready, t, hready⟩ := @waitLoop_isSome _ _ timeout now _ hpaced.pod
  rw [buildAndWait, waitForPodReady, hready]
  rcases ready with exc | ⟨⟨⟩⟩
  · exact ⟨_, _, rfl⟩
  · simp only [Option.bind_eq_bind, Option.bind_some]
    cases getPodIp (cluster.coreV1 t) name with
    | error exc => exact ⟨_, _, rfl⟩
    | ok podIp => exact waitLoop_isSome hpaced.http

theorem buildAndWait_cases
    (h : buildAndWait py cluster name timeout now = some (result, finish)) :
    ∃ ready t, waitForPodReady py cluster name timeout now = some (ready, t) ∧
      ((∃ exc, ready = .error exc ∧ result = .error exc ∧ finish = t) ∨
        ready = .ok () ∧
          ((∃ exc, getPodIp (cluster.coreV1 t) name = .error exc ∧ result = .error exc ∧
              finish = t + cluster.podClock.takes t) ∨
            ∃ podIp, getPodIp (cluster.coreV1 t) name = .ok podIp ∧
              waitForHttpReady py cluster podIp timeout (t + cluster.podClock.takes t) =
                some (result, finish))) := by
  obtain ⟨⟨ready, t⟩, hready, h⟩ := Option.bind_eq_some_iff.1 h
  refine ⟨ready, t, hready, ?_⟩
  rcases ready with exc | ⟨⟨⟩⟩
  · obtain ⟨rfl, rfl⟩ := Prod.mk.inj (Option.some.inj h)
    exact .inl ⟨exc, rfl, rfl, rfl⟩
  · simp only at h
    refine .inr ⟨rfl, ?_⟩
    split at h
    · rename_i exc hip
      obtain ⟨rfl, rfl⟩ := Prod.mk.inj (Option.some.inj h)
      exact .inl ⟨exc, hip, rfl, rfl⟩
    · rename_i podIp hip
      exact .inr ⟨podIp, hip, h⟩

theorem Cluster.Paced.takes_le {gap : ℚ} (h : cluster.Paced gap) (t : ℚ) :
    0 ≤ cluster.podClock.takes t ∧ cluster.podClock.takes t ≤ gap := by
  have hsleeps := h.pod.sleeps (t + cluster.podClock.takes t)
  have hpos := h.pod.interval_pos
  have hgap : cluster.podClock.takes t + cluster.podClock.sleeps _ ≤ gap := h.podGap t
  exact ⟨h.pod.takes t, by linarith⟩

theorem finish_of_buildAndWait {gap : ℚ} (hpaced : cluster.Paced gap) (htimeout : 0 ≤ timeout)
    (h : buildAndWait py cluster name timeout now = some (result, finish)) :
    finish ≤ now + 2 * timeout + 3 * gap := by
  obtain ⟨ready, t, hready, hcases⟩ := buildAndWait_cases h
  obtain ⟨-, ht⟩ := finish_of_waitLoop hpaced.pod hpaced.podGap htimeout hready
  obtain ⟨htakes, htry⟩ := hpaced.takes_le t
  rcases hcases with ⟨_, -, -, rfl⟩ | ⟨-, ⟨_, -, -, rfl⟩ | ⟨_, -, hhttp⟩⟩
  · linarith
  · linarith
  · obtain ⟨-, hfinish⟩ := finish_of_waitLoop hpaced.http hpaced.httpGap htimeout hhttp
    linarith

theorem buildAndWait_eq_ok_iff {gap : ℚ} (hpaced : cluster.Paced gap) :
    buildAndWait py cluster name timeout now = some (.ok (), finish) ↔
      Answered py.unicode cluster name timeout now finish := by
  constructor
  · intro h
    obtain ⟨ready, t, hready, ⟨_, -, herror, -⟩ | ⟨rfl, ⟨_, -, herror, -⟩ |
      ⟨podIp, hip, hhttp⟩⟩⟩ := buildAndWait_cases h
    · cases herror
    · cases herror
    · obtain ⟨t₁, hlooks, hlt, hpod, rfl⟩ := (waitLoop_eq_ok_iff hpaced.pod).1 hready
      obtain ⟨t₃, hlooks', hlt', hhealth, rfl⟩ := (waitLoop_eq_ok_iff hpaced.http).1 hhttp
      exact ⟨t₁, podIp, t₃, ⟨hlooks, hlt, podAttempt_eq_some_iff.1 hpod⟩, hip,
        ⟨hlooks', hlt', httpAttempt_eq_some_iff.1 hhealth⟩, rfl⟩
  · rintro ⟨t₁, podIp, t₃, ⟨hlooks, hlt, hpod⟩, hip, ⟨hlooks', hlt', hhealth⟩, rfl⟩
    have hready : waitForPodReady py cluster name timeout now =
        some (.ok (), t₁ + cluster.podClock.takes t₁) :=
      (waitLoop_eq_ok_iff hpaced.pod).2 ⟨t₁, hlooks, hlt, podAttempt_eq_some_iff.2 hpod, rfl⟩
    rw [buildAndWait, hready]
    simp only [Option.bind_eq_bind, Option.bind_some, hip]
    exact (waitLoop_eq_ok_iff hpaced.http).2
      ⟨t₃, hlooks', hlt', httpAttempt_eq_some_iff.2 hhealth, rfl⟩

theorem HealthyFrom.getPodIp_eq {U : UnicodeData} {s : ℚ}
    (h : HealthyFrom U cluster name podIp now s) (ht : s ≤ t) :
    getPodIp (cluster.coreV1 t) name = .ok podIp := by
  obtain ⟨pod, hread, -, hip⟩ := h.pod t ht
  have hne : podIp.isEmpty = false := List.isEmpty_eq_false_iff.2 h.podIp_ne_nil
  unfold getPodIp Cluster.coreV1
  simp only [hread, Except.map, bind, Except.bind, hip, Option.getD_some, hne, Bool.false_eq_true,
    if_false]
  rfl

theorem ok_of_healthy {gap s : ℚ} (hpaced : cluster.Paced gap) (htimeout : 0 < timeout)
    (hnow : now ≤ s) (hs : s + gap ≤ now + timeout)
    (hhealthy : HealthyFrom py.unicode cluster name podIp now s)
    (h : buildAndWait py cluster name timeout now = some (result, finish)) : result = .ok () := by
  have hpos : 0 < gap := by
    have hleast := hpaced.pod.interval_le_gap now
    linarith [hpaced.pod.interval_pos, hpaced.podGap now]
  obtain ⟨ready, t, hready, hcases⟩ := buildAndWait_cases h
  have hfound : ready = .ok () := by
    refine waitLoop_of_there hpaced.pod hpaced.podGap hs (by linarith) hhealthy.before
      (fun t ht => podAttempt_eq_some_iff.2 ?_) hready
    obtain ⟨pod, hread, hpodReady, -⟩ := hhealthy.pod t ht
    exact ⟨pod, hread, hpodReady⟩
  subst hfound
  obtain ⟨t₁, hlooks, -, hseen, rfl⟩ := (waitLoop_eq_ok_iff hpaced.pod).1 hready
  have hstart := hlooks.start_le hpaced.pod
  have hlate : s ≤ t₁ := by
    by_contra hearly
    cases (hhealthy.before t₁ hstart (not_le.1 hearly)).symm.trans hseen
  have htakes := (hpaced.takes_le t₁).1
  have htakes' := (hpaced.takes_le (t₁ + cluster.podClock.takes t₁)).1
  have hip := hhealthy.getPodIp_eq (t := t₁ + cluster.podClock.takes t₁) (by linarith)
  obtain ⟨_, herror, -⟩ | ⟨-, ⟨_, herror, -⟩ | ⟨podIp', hip', hhttp⟩⟩ := hcases
  · cases herror
  · cases hip.symm.trans herror
  · obtain rfl := Except.ok.inj (hip.symm.trans hip')
    have hhealth := httpAttempt_eq_some_iff.2
      (hhealthy.health (t₁ + cluster.podClock.takes t₁ +
        cluster.podClock.takes (t₁ + cluster.podClock.takes t₁)) (by linarith))
    rw [waitForHttpReady, waitLoop_of_first htimeout hhealth] at hhttp
    exact (Prod.mk.inj (Option.some.inj hhttp)).1.symm

end Wait

/-! ### The handler -/

theorem handleBuildWaiting_of_new {py : WaitPython} {cluster : Cluster} {timeout now : ℚ}
    {w : BuildWorld} {msg : BuildPodMessage} {bot : BotRow} {image : Str}
    (hfetch : fetchBotAndRuntime w.bots msg = some (bot, image))
    (hpod : podExists w.pods (podName bot.id) = false) :
    handleBuildWaiting py cluster timeout w msg now =
      (buildAndWait py cluster (podName bot.id) timeout now).map fun
        | (.error _, finish) =>
            ({ w with pods := ⟨podName bot.id, image, bot.source.getD [], bot.id⟩ :: w.pods },
              .rejected, finish)
        | (.ok (), finish) =>
            ((handleBuildPodMessage w msg).1, .acked, finish) := by
  have hsteps : buildSteps msg 2 (w, .running .received) =
      ({ w with pods := ⟨podName bot.id, image, bot.source.getD [], bot.id⟩ :: w.pods },
        .running (.created bot)) := by
    simp [buildSteps, buildNext, hfetch, hpod]
  rw [handleBuildWaiting, hsteps]
  simp only
  rcases buildAndWait py cluster (podName bot.id) timeout now with _ | ⟨exc | ⟨⟨⟩⟩, finish⟩
  · rfl
  · rfl
  · simp [handleBuildPodMessage, buildSteps, buildNext, hfetch, hpod]

def steadyCluster : Cluster where
  readNamespacedPod now _ :=
    .ok ⟨if now < 1 then str "Pending" else str "Running", [true], ⟨some (str "10.0.0.1")⟩⟩
  urlopen _ _ := .ok ()
  podClock := ⟨fun _ => 1 / 100, fun _ => 1 / 2⟩
  httpClock := ⟨fun _ => 1 / 100, fun _ => 1 / 2⟩

theorem paced_steadyCluster : steadyCluster.Paced 1 where
  pod := ⟨by norm_num [pollInterval], fun _ => by norm_num [steadyCluster],
    fun _ => by norm_num [steadyCluster, pollInterval]⟩
  http := ⟨by norm_num [pollInterval], fun _ => by norm_num [steadyCluster],
    fun _ => by norm_num [steadyCluster, pollInterval]⟩
  podGap _ := by norm_num [steadyCluster, Clock.gap]
  httpGap _ := by norm_num [steadyCluster, Clock.gap]

theorem healthyFrom_steadyCluster :
    HealthyFrom asciiData steadyCluster (podName 1) (str "10.0.0.1") 0 1 where
  before t _ ht := by
    rw [podAttempt]
    simp only [steadyCluster, if_pos ht]
    rfl
  pod t ht := ⟨⟨str "Running", [true], ⟨some (str "10.0.0.1")⟩⟩,
    by simp only [steadyCluster, if_neg (not_lt.2 ht)], ⟨rfl, rfl⟩, rfl⟩
  podIp_ne_nil := by decide
  health _ _ := rfl

end TictactoeBots
