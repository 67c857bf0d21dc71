import TictactoeBots.MatchScheduler.Scheduling

/-!
How often a pairing is scheduled.

A handler schedules its bot against every bot it finds ready in the database.
Of two ready bots, the one whose handler reads later finds the other, so no
pairing is lost. When both have been committed before either handler reads,
both handlers find both bots, and the pairing is published twice. It stays
unique in the runs in which a handler never finds another bot whose own message
is still to be acted on.
-/

namespace TictactoeBots

open Text StepSystem

/-- The scheduler takes a message only when it is done with the one before. -/
def Sequential (s : Pipeline) : PipelineAction → Prop
  | .deliver => s.handlers.isEmpty
  | _ => True

/-- When a handler reads the ready bots, the message of none of the others is
still to be acted on. -/
def NothingAhead (s : Pipeline) : PipelineAction → Prop
  | .readReady i _ => ∀ handler ∈ s.handlers[i]?, ∀ botId ∈ readyIds s.bots,
      botId = handler.botId ∨ botId ∉ s.unread
  | _ => True

/-! ### Facts about single steps -/

variable {s s' : Pipeline} {action : PipelineAction}

theorem unread_le_of_moves (h : PipelineMoves s action s') (b : ℕ) :
    s'.unread.count b ≤ s.unread.count b := by
  cases h with
  | @commitReady botId hbuild =>
      have hpos := List.count_pos_iff.2 hbuild
      by_cases hb : botId = b
      · subst hb
        simp only [Pipeline.unread, List.count_append, List.count_erase_self,
          List.count_cons_self]
        omega
      · simp [Pipeline.unread, List.count_erase_of_ne (Ne.symm hb), hb]
  | @publishReady botId hnotify =>
      have hpos := List.count_pos_iff.2 hnotify
      by_cases hb : botId = b
      · subst hb
        simp only [Pipeline.unread, List.count_append, List.count_erase_self,
          List.count_singleton_self]
        omega
      · simp [Pipeline.unread, List.count_erase_of_ne (Ne.symm hb), hb]
  | @buildFails botId _ =>
      have hle := (List.erase_sublist (a := botId) (l := s.builds)).count_le b
      simp only [Pipeline.unread, List.count_append]
      omega
  | @notifyFails botId _ =>
      have hle := (List.erase_sublist (a := botId) (l := s.notifying)).count_le b
      simp only [Pipeline.unread, List.count_append]
      omega
  | deliver hqueue =>
      simp only [Pipeline.unread, hqueue, List.flatMap_cons, Handler.unread, List.count_append,
        List.count_cons, List.count_nil]
      omega
  | readReady _ hperm _ | publishNext hperm | finish hperm | raises hperm =>
      have hcount := (hperm.flatMap_right Handler.unread).count_eq b
      simp only [Pipeline.unread, List.flatMap_cons, Handler.unread, List.count_append,
        List.count_nil] at hcount ⊢
      omega

theorem unread_of_readReady {botId : ℕ} {others : List Handler} (pending : List (ℕ × ℕ))
    (hone : s.unread.count botId ≤ 1) (hperm : s.handlers.Perm (⟨botId, .received⟩ :: others)) :
    botId ∈ s.unread ∧ botId ∉ Pipeline.unread
      { s with handlers := ⟨botId, .publishing pending⟩ :: others } := by
  have hcount := (hperm.flatMap_right Handler.unread).count_eq botId
  rw [← List.count_pos_iff, ← List.count_eq_zero]
  simp only [Pipeline.unread, List.flatMap_cons, Handler.unread, List.count_append,
    List.count_singleton_self, List.count_nil] at hone hcount ⊢
  omega

theorem count_pairs_of_moves (h : PipelineMoves s action s') (pair : ℕ × ℕ) :
    s'.pairs.count pair ≤ s.pairs.count pair ∨
      ∃ i ready botId others, action = .readReady i ready ∧
        s.handlers[i]? = some ⟨botId, .received⟩ ∧
        s.handlers.Perm (⟨botId, .received⟩ :: others) ∧ ready.Perm (readyBots s.bots) ∧
        s' = { s with handlers := ⟨botId, .publishing (pairings botId ready)⟩ :: others } ∧
        s'.pairs.count pair = s.pairs.count pair + (pairings botId ready).count pair := by
  cases h with
  | commitReady _ | publishReady _ | buildFails _ | notifyFails _ => exact .inl le_rfl
  | deliver _ => exact .inl (by simp [Pipeline.pairs, Handler.pending])
  | @readReady i botId ready others hget hperm hready =>
      refine .inr ⟨i, ready, botId, others, rfl, hget, hperm, hready, rfl, ?_⟩
      have hcount := (hperm.flatMap_right Handler.pending).count_eq pair
      simp only [Pipeline.pairs, List.flatMap_cons, Handler.pending, List.nil_append,
        List.count_append] at hcount ⊢
      omega
  | publishNext hperm =>
      have hcount := (hperm.flatMap_right Handler.pending).count_eq pair
      simp only [Pipeline.pairs, List.flatMap_cons, Handler.pending, List.map_append,
        List.map_cons, List.map_nil, MatchOndeck.pairing, List.count_append, List.count_cons,
        List.count_nil] at hcount ⊢
      exact .inl (by omega)
  | finish hperm =>
      have hcount := (hperm.flatMap_right Handler.pending).count_eq pair
      simp only [Pipeline.pairs, List.flatMap_cons, Handler.pending, List.nil_append,
        List.count_append] at hcount ⊢
      exact .inl (by omega)
  | raises hperm =>
      have hcount := (hperm.flatMap_right Handler.pending).count_eq pair
      simp only [Pipeline.pairs, List.flatMap_cons, List.count_append] at hcount ⊢
      exact .inl (by omega)

theorem bot_ids_of_moves (h : PipelineMoves s action s') :
    s'.bots.map BotRow.id = s.bots.map BotRow.id := by
  cases h <;> simp

/-! ### The messages of one handler -/

theorem mem_pairings {botId x o : ℕ} {ready : List BotRow} :
    (x, o) ∈ pairings botId ready ↔
      (x = botId ∧ o ∈ ready.map BotRow.id) ∨ (o = botId ∧ x ∈ ready.map BotRow.id) := by
  simp only [pairings, List.mem_flatMap, List.mem_cons, Prod.mk.injEq, List.mem_map]
  constructor
  · rintro ⟨other, hother, ⟨rfl, rfl⟩ | hmem⟩
    · exact .inl ⟨rfl, other, hother, rfl⟩
    · by_cases hne : other.id = botId <;> simp [hne] at hmem
      exact .inr ⟨hmem.2, other, hother, hmem.1.symm⟩
  · rintro (⟨rfl, other, hother, rfl⟩ | ⟨rfl, other, hother, rfl⟩)
    · exact ⟨other, hother, .inl ⟨rfl, rfl⟩⟩
    · refine ⟨other, hother, ?_⟩
      by_cases hne : other.id = o <;> simp [hne]

theorem pairings_nodup {botId : ℕ} {ready : List BotRow} (h : (ready.map BotRow.id).Nodup) :
    (pairings botId ready).Nodup := by
  induction ready with
  | nil => exact List.nodup_nil
  | cons other rest ih =>
      rw [List.map_cons, List.nodup_cons] at h
      have hsplit : pairings botId (other :: rest) =
          ((botId, other.id) :: if other.id ≠ botId then [(other.id, botId)] else []) ++
            pairings botId rest := rfl
      rw [hsplit, List.nodup_append]
      refine ⟨by by_cases hne : other.id = botId <;> simp [hne, Ne.symm], ih h.2, ?_⟩
      -- both messages about `other` name it, and no message about the rest does
      rintro ⟨x, o⟩ hfirst _ hrest rfl
      have hother : x = botId ∧ o = other.id ∨ x = other.id ∧ o = botId ∧ other.id ≠ botId := by
        by_cases hne : other.id = botId <;> simpa [hne] using hfirst
      obtain ⟨rfl, ho⟩ | ⟨rfl, hx⟩ := mem_pairings.1 hrest
      · obtain ⟨-, rfl⟩ | ⟨hx, -, hne⟩ := hother
        · exact h.1 ho
        · exact hne hx.symm
      · obtain ⟨rfl, ho⟩ | ⟨rfl, -, -⟩ := hother
        · exact h.1 (ho ▸ hx)
        · exact h.1 hx

/-! ### At most once -/

/-- There is at most one message for each bot, and pairings are of bots whose
messages have been acted on. -/
structure ScheduledOnce (s : Pipeline) : Prop where
  ids_nodup : (s.bots.map BotRow.id).Nodup
  one_message : ∀ botId, s.unread.count botId ≤ 1
  once : ∀ pair, s.pairs.count pair ≤ 1
  read : ∀ pair ∈ s.pairs, pair.1 ∉ s.unread ∧ pair.2 ∉ s.unread

theorem ScheduledOnce.step (hs : ScheduledOnce s) (hahead : NothingAhead s action)
    (h : PipelineMoves s action s') : ScheduledOnce s' := by
  have hmono : ∀ b, b ∉ s.unread → b ∉ s'.unread := fun b hb hmem =>
    hb (List.count_pos_iff.1 ((List.count_pos_iff.2 hmem).trans_le (unread_le_of_moves h b)))
  refine ⟨?_, fun b => (unread_le_of_moves h b).trans (hs.one_message b), ?_, ?_⟩
  · rw [bot_ids_of_moves h]
    exact hs.ids_nodup
  · rintro ⟨x, o⟩
    rcases count_pairs_of_moves h (x, o) with
      hle | ⟨i, ready, botId, others, rfl, hget, hperm, hready, rfl, hcount⟩
    · exact hle.trans (hs.once _)
    · rw [hcount]
      have hnodup : (pairings botId ready).Nodup := by
        refine pairings_nodup ((hready.map BotRow.id).nodup_iff.2 ?_)
        exact (readyIds_sublist s.bots).nodup hs.ids_nodup
      have hnew := List.nodup_iff_count_le_one.1 hnodup (x, o)
      by_cases hmem : (x, o) ∈ pairings botId ready
      · -- a pairing with the bot of this handler would be there only after its read
        have hunread := (unread_of_readReady [] (hs.one_message botId) hperm).1
        have hold : s.pairs.count (x, o) = 0 := by
          apply List.count_eq_zero.2
          intro hpair
          obtain ⟨hx, ho⟩ := hs.read _ hpair
          obtain ⟨rfl, _⟩ | ⟨rfl, _⟩ := mem_pairings.1 hmem
          · exact hx hunread
          · exact ho hunread
        omega
      · rw [List.count_eq_zero.2 hmem]
        exact hs.once _
  · rintro ⟨x, o⟩ hpair
    have hpos := List.count_pos_iff.2 hpair
    rcases count_pairs_of_moves h (x, o) with
      hle | ⟨i, ready, botId, others, rfl, hget, hperm, hready, rfl, hcount⟩
    · exact (hs.read _ (List.count_pos_iff.1 (hpos.trans_le hle))).imp (hmono _) (hmono _)
    · by_cases hold : (x, o) ∈ s.pairs
      · exact (hs.read _ hold).imp (hmono _) (hmono _)
      · rw [hcount, List.count_eq_zero.2 hold, Nat.zero_add] at hpos
        have hself := (unread_of_readReady (pairings botId ready) (hs.one_message botId) hperm).2
        have hother : ∀ id ∈ ready.map BotRow.id, id ∉ Pipeline.unread { s with
            handlers := ⟨botId, .publishing (pairings botId ready)⟩ :: others } := by
          intro id hid
          obtain rfl | hread := hahead _ hget id ((hready.map BotRow.id).mem_iff.1 hid)
          · exact hself
          · exact hmono id hread
        obtain ⟨rfl, ho⟩ | ⟨rfl, hx⟩ := mem_pairings.1 (List.count_pos_iff.1 hpos)
        · exact ⟨hself, hother o ho⟩
        · exact ⟨hother x hx, hself⟩

theorem ScheduledOnce.start {bots : List BotRow} {builds : List ℕ}
    (hbots : (bots.map BotRow.id).Nodup) (hbuilds : builds.Nodup) :
    ScheduledOnce (Pipeline.start bots builds) where
  ids_nodup := by
    simp only [Pipeline.start, List.map_map]
    exact hbots
  one_message botId := by
    simpa [Pipeline.unread, Pipeline.start] using List.nodup_iff_count_le_one.1 hbuilds botId
  once pair := by simp [Pipeline.pairs, Pipeline.start]
  read pair hpair := by simp [Pipeline.pairs, Pipeline.start] at hpair

/-- With one build for each bot, no pairing is published twice in a run in
which no handler, when it reads the ready bots, finds another bot whose message
is still to be acted on. -/
theorem pairing_scheduled_once {bots : List BotRow} {builds : List ℕ} {s : Pipeline}
    (hbots : (bots.map BotRow.id).Nodup) (hbuilds : builds.Nodup)
    (h : Via pipelineStep NothingAhead (Pipeline.start bots builds) s) :
    (s.ondeck.map MatchOndeck.pairing).Nodup := by
  have hinv : ScheduledOnce s := h.invariant (.start hbots hbuilds)
    fun _ _ _ hs hahead hstep => hs.step hahead (moves_of_step hstep)
  refine List.nodup_iff_count_le_one.2 fun pair => le_trans ?_ (hinv.once pair)
  exact (List.sublist_append_left _ _).count_le pair

instance (s : Pipeline) : ∀ action, Decidable (Sequential s action)
  | .deliver => inferInstanceAs (Decidable (s.handlers.isEmpty = true))
  | .commitReady _ | .publishReady _ | .builderFails _ | .readReady _ _ | .publishNext _ _
  | .finish _ | .raises _ => .isTrue trivial

instance (s : Pipeline) : ∀ action, Decidable (NothingAhead s action)
  | .readReady i _ => inferInstanceAs (Decidable (∀ handler ∈ s.handlers[i]?,
      ∀ botId ∈ readyIds s.bots, botId = handler.botId ∨ botId ∉ s.unread))
  | .commitReady _ | .publishReady _ | .builderFails _ | .deliver | .publishNext _ _
  | .finish _ | .raises _ => .isTrue trivial

/-- Two bots get ready one after the other. -/
theorem pairing_scheduled_once_twoBots :
    ∃ s, Via pipelineStep NothingAhead (Pipeline.start [plainBot 1, plainBot 2] [1, 2]) s ∧
      s.ondeck.length = 4 ∧ (s.ondeck.map MatchOndeck.pairing).Nodup := by
  have hrun : Via pipelineStep NothingAhead (Pipeline.start [plainBot 1, plainBot 2] [1, 2]) _ :=
    via_of_execVia [.commitReady 1, .publishReady 1, .deliver, .readReady 0 [plainBotReady 1],
      .publishNext 0 (str "c1"), .finish 0,
      .commitReady 2, .publishReady 2, .deliver,
      .readReady 0 [plainBotReady 1, plainBotReady 2], .publishNext 0 (str "c2"),
      .publishNext 0 (str "c3"), .publishNext 0 (str "c4"), .finish 0] rfl
  exact ⟨_, hrun, rfl, pairing_scheduled_once (by decide) (by decide) hrun⟩

/-- Two bots are committed as ready before the first of their messages is
handled. The handlers run one after the other, and both schedule both of the
pairings between the two bots. -/
theorem pairing_scheduled_twice :
    ∃ s, Via pipelineStep Sequential (Pipeline.start [plainBot 1, plainBot 2] [1, 2]) s ∧
      ¬(s.ondeck.map MatchOndeck.pairing).Nodup := by
  have hrun : Via pipelineStep Sequential (Pipeline.start [plainBot 1, plainBot 2] [1, 2]) _ :=
    via_of_execVia [.commitReady 1, .publishReady 1, .commitReady 2, .publishReady 2,
      .deliver, .readReady 0 [plainBotReady 1, plainBotReady 2], .publishNext 0 (str "c1"),
      .publishNext 0 (str "c2"), .publishNext 0 (str "c3"), .finish 0,
      .deliver, .readReady 0 [plainBotReady 1, plainBotReady 2], .publishNext 0 (str "c4")] rfl
  exact ⟨_, hrun, by decide⟩

/-! ### At least once -/

/-- Announced bots are ready, and as long as no handler has raised, any two
bots whose handlers have read are paired both ways. -/
structure Covered (s : Pipeline) : Prop where
  ready : ∀ botId, botId ∈ s.notifying ∨ botId ∈ s.announced →
    botId ∈ s.bots.map BotRow.id → botId ∈ readyIds s.bots
  paired : s.failed = [] → ∀ x o, s.Opened x → s.Opened o →
    x ∈ readyIds s.bots → o ∈ readyIds s.bots → (x, o) ∈ s.pairs

theorem Pipeline.Opened.announced {botId : ℕ} (h : s.Opened botId) : botId ∈ s.announced := by
  simp only [Pipeline.announced, List.mem_append]
  obtain hmem | hmem | ⟨handler, hmem, rfl, _⟩ := h
  · exact .inl (.inr hmem)
  · exact .inr hmem
  · exact .inl (.inl (.inr (List.mem_map_of_mem hmem)))

theorem failed_nil_of_moves (h : PipelineMoves s action s') (hfailed : s'.failed = []) :
    s.failed = [] := by
  cases h <;> first | exact hfailed | exact absurd hfailed (by simp)

theorem announced_of_moves (h : PipelineMoves s action s') {botId : ℕ}
    (hmem : botId ∈ s'.notifying ∨ botId ∈ s'.announced) :
    (botId ∈ s.notifying ∨ botId ∈ s.announced) ∨ action = .commitReady botId := by
  cases h with
  | commitReady _ =>
      obtain hmem | hmem := hmem
      · obtain rfl | hmem := List.mem_cons.1 hmem
        · exact .inr rfl
        · exact .inl (.inl hmem)
      · exact .inl (.inr hmem)
  | @publishReady id hnotify =>
      left
      obtain hmem | hmem := hmem
      · exact .inl (List.mem_of_mem_erase hmem)
      · simp only [Pipeline.announced, List.mem_append, List.mem_singleton] at hmem ⊢
        obtain (((hmem | rfl) | hmem) | hmem) | hmem := hmem
        · exact .inr (.inl (.inl (.inl hmem)))
        · exact .inl hnotify
        · exact .inr (.inl (.inl (.inr hmem)))
        · exact .inr (.inl (.inr hmem))
        · exact .inr (.inr hmem)
  | buildFails _ => exact .inl hmem
  | notifyFails _ => exact .inl (hmem.imp_left List.mem_of_mem_erase)
  | deliver hqueue =>
      refine .inl (hmem.imp_right fun hmem => ?_)
      simp only [Pipeline.announced, hqueue, List.map_cons, List.mem_append, List.mem_cons]
        at hmem ⊢
      grind
  | readReady _ hperm _ | publishNext hperm | finish hperm | raises hperm =>
      refine .inl (hmem.imp_right fun hmem => ?_)
      have hbots := (hperm.map Handler.botId).mem_iff (a := botId)
      simp only [Pipeline.announced, List.map_cons, List.mem_append, List.mem_cons] at hmem hbots ⊢
      grind

theorem readyIds_of_moves (h : PipelineMoves s action s') {id : ℕ} :
    id ∈ readyIds s'.bots ↔
      id ∈ readyIds s.bots ∨ (action = .commitReady id ∧ id ∈ s.bots.map BotRow.id) := by
  cases h with
  | commitReady _ =>
      simp only [mem_readyIds_setPodReady, PipelineAction.commitReady.injEq, eq_comm (a := id)]
  | _ => simp

theorem mem_pairs_of_moves (h : PipelineMoves s action s') (hfailed : s'.failed = [])
    {pair : ℕ × ℕ} (hpair : pair ∈ s.pairs) : pair ∈ s'.pairs := by
  cases h with
  | commitReady _ | publishReady _ | buildFails _ | notifyFails _ => exact hpair
  | deliver _ => simpa [Pipeline.pairs, Handler.pending] using hpair
  | readReady _ hperm _ | publishNext hperm | finish hperm =>
      have hpending := (hperm.flatMap_right Handler.pending).mem_iff (a := pair)
      simp only [Pipeline.pairs, List.flatMap_cons, Handler.pending, List.map_append,
        List.map_cons, List.map_nil, MatchOndeck.pairing, List.mem_append, List.mem_cons,
        List.not_mem_nil, or_false, false_or] at hpair hpending ⊢
      grind
  | raises _ => exact absurd hfailed (by simp)

theorem opened_cases_of_moves (h : PipelineMoves s action s') (hfailed : s'.failed = [])
    {b : ℕ} (hb : s'.Opened b) :
    s.Opened b ∨ ∃ ready others, ready.Perm (readyBots s.bots) ∧
      s' = { s with handlers := ⟨b, .publishing (pairings b ready)⟩ :: others } := by
  cases h with
  | commitReady _ | publishReady _ | buildFails _ | notifyFails _ => exact .inl hb
  | deliver _ =>
      refine .inl (hb.imp_right fun hb => hb.imp_right fun ⟨handler, hmem, hbot, hread⟩ => ?_)
      obtain rfl | hmem := List.mem_cons.1 hmem
      · exact absurd rfl hread
      · exact ⟨handler, hmem, hbot, hread⟩
  | readReady _ hperm hready =>
      obtain hb | hb | ⟨handler, hmem, hbot, hread⟩ := hb
      · exact .inl (.inl hb)
      · exact .inl (.inr (.inl hb))
      · obtain rfl | hmem := List.mem_cons.1 hmem
        · obtain rfl : _ = b := hbot
          exact .inr ⟨_, _, hready, rfl⟩
        · exact .inl (.inr (.inr ⟨handler, hperm.mem_iff.2 (List.mem_cons_of_mem _ hmem),
            hbot, hread⟩))
  | publishNext hperm =>
      refine .inl (hb.imp_right fun hb => hb.imp_right fun ⟨handler, hmem, hbot, hread⟩ => ?_)
      obtain rfl | hmem := List.mem_cons.1 hmem
      · exact ⟨_, hperm.mem_iff.2 List.mem_cons_self, hbot, by simp [Handler.HasRead]⟩
      · exact ⟨handler, hperm.mem_iff.2 (List.mem_cons_of_mem _ hmem), hbot, hread⟩
  | finish hperm =>
      left
      obtain hb | hb | ⟨handler, hmem, hbot, hread⟩ := hb
      · obtain rfl | hb := List.mem_cons.1 hb
        · exact .inr (.inr ⟨_, hperm.mem_iff.2 List.mem_cons_self, rfl, by simp [Handler.HasRead]⟩)
        · exact .inl hb
      · exact .inr (.inl hb)
      · exact .inr (.inr ⟨handler, hperm.mem_iff.2 (List.mem_cons_of_mem _ hmem), hbot, hread⟩)
  | raises _ => exact absurd hfailed (by simp)

theorem Covered.step (hs : Covered s) (h : PipelineMoves s action s') : Covered s' := by
  have hready : ∀ id, s.Opened id → id ∈ readyIds s'.bots → id ∈ readyIds s.bots := by
    intro id hopened hid
    obtain hid | ⟨_, htable⟩ := (readyIds_of_moves h).1 hid
    · exact hid
    · exact hs.ready id (.inr hopened.announced) htable
  refine ⟨fun botId hmem htable => ?_, fun hfailed x o hx ho hxready hoready => ?_⟩
  · rw [bot_ids_of_moves h] at htable
    obtain hmem | haction := announced_of_moves h hmem
    · exact (readyIds_of_moves h).2 (.inl (hs.ready botId hmem htable))
    · exact (readyIds_of_moves h).2 (.inr ⟨haction, htable⟩)
  · obtain hxold | ⟨ready, others, hperm, rfl⟩ := opened_cases_of_moves h hfailed hx
    · obtain hoold | ⟨ready, others, hperm, rfl⟩ := opened_cases_of_moves h hfailed ho
      · exact mem_pairs_of_moves h hfailed (hs.paired (failed_nil_of_moves h hfailed) x o hxold
          hoold (hready x hxold hxready) (hready o hoold hoready))
      · have hmem : (x, o) ∈ pairings o ready :=
          mem_pairings.2 (.inr ⟨rfl, (hperm.map BotRow.id).mem_iff.2 hxready⟩)
        exact List.mem_append_right _ (List.mem_append_left _ hmem)
    · have hmem : (x, o) ∈ pairings x ready :=
        mem_pairings.2 (.inl ⟨rfl, (hperm.map BotRow.id).mem_iff.2 hoready⟩)
      exact List.mem_append_right _ (List.mem_append_left _ hmem)

theorem Covered.start (bots : List BotRow) (builds : List ℕ) :
    Covered (Pipeline.start bots builds) where
  ready botId hmem := by simp [Pipeline.start, Pipeline.announced] at hmem
  paired _ x o hx := by simp [Pipeline.Opened, Pipeline.start] at hx

/-- Once no handler has raised, every ready bot has been announced, and all
announcements have been handled, every ordered pair of ready bots has been
published, whatever overlapped on the way. -/
theorem every_pairing_scheduled {bots : List BotRow} {builds : List ℕ} {s : Pipeline}
    (h : Reachable pipelineStep (Pipeline.start bots builds) s) (hraised : s.failed = [])
    (hannounced : ∀ botId ∈ readyIds s.bots, botId ∈ s.announced)
    (hqueue : s.schedule = []) (hhandlers : s.handlers = []) :
    ∀ x ∈ readyIds s.bots, ∀ o ∈ readyIds s.bots, (x, o) ∈ s.ondeck.map MatchOndeck.pairing := by
  have hinv : Covered s := h.invariant (.start bots builds)
    fun _ _ _ hs hstep => hs.step (moves_of_step hstep)
  have hopened : ∀ botId ∈ readyIds s.bots, s.Opened botId := by
    intro botId hready
    have hmem := hannounced botId hready
    simp only [Pipeline.announced, hqueue, hhandlers, hraised, List.map_nil, List.nil_append,
      List.append_nil] at hmem
    exact .inl hmem
  intro x hx o ho
  have hpair := hinv.paired hraised x o (hopened x hx) (hopened o ho) hx ho
  simpa only [Pipeline.pairs, hhandlers, List.flatMap_nil, List.append_nil] using hpair

/-- Two handlers overlap. The first reads before the second bot is ready. -/
theorem every_pairing_scheduled_twoBots :
    ∃ s, Reachable pipelineStep (Pipeline.start [plainBot 1, plainBot 2] [1, 2]) s ∧
      readyIds s.bots = [1, 2] ∧ ∀ x ∈ readyIds s.bots, ∀ o ∈ readyIds s.bots,
        (x, o) ∈ s.ondeck.map MatchOndeck.pairing := by
  have hrun : Reachable pipelineStep (Pipeline.start [plainBot 1, plainBot 2] [1, 2]) _ :=
    reachable_of_exec [.commitReady 1, .publishReady 1, .deliver, .readReady 0 [plainBotReady 1],
      .commitReady 2, .publishReady 2, .deliver,
      .readReady 0 [plainBotReady 2, plainBotReady 1], .publishNext 1 (str "c1"),
      .publishNext 1 (str "c2"), .publishNext 0 (str "c3"), .publishNext 0 (str "c4"),
      .finish 0, .finish 0] rfl
  exact ⟨_, hrun, rfl, every_pairing_scheduled hrun rfl (by decide) rfl rfl⟩

end TictactoeBots
