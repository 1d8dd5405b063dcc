import CardImport.Proofs.Rehearsal.Waiting
import CardImport.Proofs.Session.Outcomes
import CardImport.Proofs.Session.PollEnd
import CardImport.Proofs.Session.States

/-!
# How a poll retries

A poll waits and looks in turn. Its stage and all that it did at its own pace are told by the
outcomes of its looks, whatever else happens in the session (`Stands`): after outcomes that let it
go on it waits as long as they say and looks again, and after any others it has ended. One step
keeps this, be it a turn of the poll, an answer to it or something else, and so does a run. When the
poll gives up, the session is left idle, and the items are as the last status left them.
-/

namespace CardImport

open Outcome (GoesOn streak pause goesOn_concat)

/-- A session whose polls tolerate so many failures in a row. The interval and the cap of their
delays are so many units. -/
structure Session.Retries (s : Session) (retries : ℕ) (interval cap : ℤ) : Prop where
  maxRetries : s.maxRetries = .whole retries
  few : retries ≤ 20
  pollInterval : s.pollInterval.Measures interval
  maxBackoff : s.maxBackoff.Measures cap

theorem Session.Retries.of_frame {s s' : Session} {retries : ℕ} {interval cap : ℤ}
    (h : s.Retries retries interval cap) (hs : s'.frame = s.frame) :
    s'.Retries retries interval cap := by
  have hretries := congrArg Session.maxRetries hs
  have hinterval := congrArg Session.pollInterval hs
  have hbackoff := congrArg Session.maxBackoff hs
  exact ⟨hretries.trans h.maxRetries, h.few, hinterval ▸ h.pollInterval, hbackoff ▸ h.maxBackoff⟩

namespace Control

variable {c c' : Control} {id : TaskId} {i : Input} {actions : List Action} {retries : ℕ}
  {interval cap : ℤ} {outcomes : List Outcome} {delays : List Number}

/-! ## One wait -/

theorem checkDelay_of_standsFor {delay : Number} {u : ℤ} (h : delay.StandsFor u) :
    checkDelay delay = .ok () := by
  unfold checkDelay
  split
  · rfl
  · rename_i hnot
    rcases h with h | ⟨rfl, -⟩
    · have hpos : 0 < u := not_le.mp fun hle =>
        hnot ((Number.le_iff_of_units h.units Number.units?_zero).mpr hle)
      obtain ⟨x, hx⟩ := h.binary hpos
      rw [hx]
      rfl
    · rfl

theorem wait_of_streak {s : Session} (h : s.Retries retries interval cap)
    (hstreak : streak outcomes ≤ retries) (id : TaskId) :
    waitStage s (streak outcomes) = .waiting (streak outcomes) ∧
      ∃ delay, waitActions s id (streak outcomes) = [.wait id delay] ∧
        delay.StandsFor (pause interval cap outcomes) := by
  have hdelay : ∃ delay, pollDelay s (streak outcomes) = .ok delay ∧
      delay.StandsFor (pause interval cap outcomes) := by
    unfold pollDelay pause
    have hfew := h.few
    cases hk : streak outcomes with
    | zero => exact ⟨_, rfl, Or.inl h.pollInterval⟩
    | succ k => exact Retry.exists_delay_eq h.pollInterval h.maxBackoff (by omega)
  obtain ⟨delay, hd, hstands⟩ := hdelay
  refine ⟨?_, delay, ?_, hstands⟩
  · simp only [waitStage, hd, checkDelay_of_standsFor hstands]
  · simp only [waitActions, hd]

theorem isLastFailure_iff {s : Session} (h : s.Retries retries interval cap) (failures : ℕ)
    (f : Failure) :
    isLastFailure s failures f = true ↔ ¬ f.IsTransient ∨ retries < failures := by
  rw [isLastFailure, Bool.or_eq_true, Bool.not_eq_true', Bool.eq_false_iff, ne_eq,
    Retry.isRetryable_iff, h.maxRetries, Number.lt_whole, Nat.cast_lt]

/-- A failure is the last if the poll does not go on with it. -/
theorem isLastFailure_iff_not_goesOn {s : Session} (h : s.Retries retries interval cap)
    (hgoes : GoesOn retries outcomes) {o : Outcome} {f : Failure}
    (ho : o = .transient ∧ f.IsTransient ∨ o = .permanent ∧ ¬ f.IsTransient) :
    isLastFailure s (streak outcomes + 1) f = true ↔ ¬ GoesOn retries (outcomes ++ [o]) := by
  rw [isLastFailure_iff h, goesOn_concat]
  rcases ho with ⟨rfl, hf⟩ | ⟨rfl, hf⟩
  · rw [Outcome.streak_concat_transient]
    simp [hf, hgoes]
  · simp [hf]

/-! ## The stages of a poll -/

/-- The delays are those that the outcomes ask for. -/
def Paced (interval cap : ℤ) (delays : List Number) (outcomes : List Outcome) : Prop :=
  ∀ (n : ℕ) (delay : Number), delays[n]? = some delay →
    delay.StandsFor (pause interval cap (outcomes.take n))

/-- How a poll stands that did these actions at its own pace, after looks with these outcomes. -/
inductive Stands (retries : ℕ) (interval cap : ℤ) (id : TaskId) :
    PollStage → List Action → List Outcome → Prop
  | created : Stands retries interval cap id .created [] []
  | waiting {delays : List Number} {delay : Number} {outcomes : List Outcome}
      (hgoes : GoesOn retries outcomes)
      (hlength : delays.length = outcomes.length)
      (hpaced : Paced interval cap (delays ++ [delay]) outcomes) :
      Stands retries interval cap id (.waiting (streak outcomes))
        (rounds id delays ++ [.wait id delay]) outcomes
  | asking {delays : List Number} {outcomes : List Outcome} (hgoes : GoesOn retries outcomes)
      (hlength : delays.length = outcomes.length + 1)
      (hpaced : Paced interval cap delays outcomes) :
      Stands retries interval cap id (.asking (streak outcomes)) (rounds id delays) outcomes
  | done {delays : List Number} {outcomes : List Outcome} {result : Except Failure Unit}
      (hends : ¬ GoesOn retries outcomes)
      (hgoes : ∀ n < outcomes.length, GoesOn retries (outcomes.take n))
      (hlength : delays.length = outcomes.length) (hpaced : Paced interval cap delays outcomes) :
      Stands retries interval cap id (.done result) (rounds id delays) outcomes

theorem paced_nil (interval cap : ℤ) (outcomes : List Outcome) :
    Paced interval cap [] outcomes := by
  intro n delay h
  cases h

/-- An outcome says nothing of the delays before it. -/
theorem Paced.outcome (h : Paced interval cap delays outcomes)
    (hlength : delays.length ≤ outcomes.length + 1) (o : Outcome) :
    Paced interval cap delays (outcomes ++ [o]) := by
  intro n delay hn
  have hlt := (List.getElem?_eq_some_iff.mp hn).1
  rw [List.take_append_of_le_length (by omega)]
  exact h n delay hn

theorem Paced.delay (h : Paced interval cap delays outcomes)
    (hlength : delays.length = outcomes.length) {delay : Number}
    (hdelay : delay.StandsFor (pause interval cap outcomes)) :
    Paced interval cap (delays ++ [delay]) outcomes := by
  intro n d hn
  rcases Nat.lt_or_ge n delays.length with hlt | hge
  · rw [List.getElem?_append_left hlt] at hn
    exact h n d hn
  · rw [List.getElem?_append_right hge, List.getElem?_singleton] at hn
    split at hn
    · cases hn
      rwa [List.take_of_length_le (by omega)]
    · cases hn

theorem rounds_concat (id : TaskId) (delays : List Number) (delay : Number) :
    rounds id (delays ++ [delay]) =
      rounds id delays ++ [.wait id delay] ++ [.ask (.task id) .status] := by
  simp [rounds]

/-! ## What a poll does at its own pace -/

/-- Only a poll waits, and it waits for itself. -/
theorem Turn.waits {t t' : Task} {s : Session} (h : Turn c id i t s t' actions) {poll : TaskId}
    {delay : Number} (ha : .wait poll delay ∈ actions) : poll = id := by
  cases h.does _ ha
  rfl

theorem filter_eq_nil_of_turn {t t' : Task} {s : Session} {turner : TaskId}
    (h : Turn c turner i t s t' actions) (hne : turner ≠ id) :
    actions.filter (Action.isPaceOf id) = [] := by
  rw [List.filter_eq_nil_iff]
  intro a ha hpace
  cases a with
  | wait poll delay =>
      obtain rfl : poll = id := beq_iff_eq.mp hpace
      exact hne (h.waits ha).symm
  | ask sender q =>
      cases sender with
      | task poll =>
          obtain rfl : poll = id := beq_iff_eq.mp hpace
          exact hne (h.asks ha).taskId.symm
      | leg j leg => cases hpace
  | _ => cases hpace

/-- Unless the session is closed, a poll takes its turn or nothing happens to it. -/
theorem Move.pace (h : Move c i c' actions) {n : Nat} {stopped : Bool} {stage : PollStage}
    (ht : c.task? id = some (.poll n stopped stage)) (hi : ¬ i.Closes) :
    (c'.task? id = c.task? id ∧ actions.filter (Action.isPaceOf id) = []) ∨
      ∃ t', c'.task? id = some t' ∧ Turn c id i (.poll n stopped stage) c'.session t' actions := by
  have hstart : c.startPolling.2.2.filter (Action.isPaceOf id) = [] := by
    rw [List.filter_eq_nil_iff]
    intro a ha hpace
    cases begin_of_mem_startPolling ha
    cases hpace
  cases h with
  | opened | closed => exact absurd trivial hi
  | edited e => exact Or.inl ⟨rfl, rfl⟩
  | started hfresh => exact Or.inl ⟨(task?_spawn_of_some ht _).trans ht.symm, rfl⟩
  | polled => exact Or.inl ⟨(task?_startPolling_of_some ht).trans ht.symm, hstart⟩
  -- Only its own turn changes the poll; the turn of another task asks for nothing in its name.
  | @turned i j u s u' actions hu hturn =>
      by_cases hj : j = id
      · subst hj
        obtain rfl : u = .poll n stopped stage := Option.some.inj (hu.symm.trans ht)
        exact Or.inr ⟨u', task?_setTask_self (c := c.setSession s) hu u', hturn⟩
      · exact Or.inl ⟨task?_setTask_of_ne _ hj u', filter_eq_nil_of_turn hturn hj⟩
  | @accepted j r entries hu hr =>
      have hj : j ≠ id := by
        rintro rfl
        cases hu.symm.trans ht
      refine Or.inl ⟨?_, ?_⟩
      · exact ((task?_setTask_of_ne _ hj _).trans (task?_startPolling_of_some ht)).trans ht.symm
      · rw [List.filter_append, hstart, List.append_nil, List.filter_eq_nil_iff]
        intro a ha hpace
        obtain ⟨e, rfl⟩ := exists_note_of_mem ha
        cases hpace
  | dropped => exact Or.inl ⟨rfl, rfl⟩

/-! ## One step -/

variable {stage : PollStage} {paces : List Action} {t' : Task} {s : Session}

@[simp] theorem filter_lookActions (c : Control) (n : Nat) (r : Except Failure Response)
    (id : TaskId) : (c.lookActions n r).filter (Action.isPaceOf id) = [] := by
  rw [List.filter_eq_nil_iff]
  intro a ha hpace
  rcases mem_lookActions ha with ⟨e, rfl⟩ | ⟨status, rfl⟩ <;> cases hpace

theorem filter_wait (id : TaskId) (delay : Number) :
    [Action.wait id delay].filter (Action.isPaceOf id) = [.wait id delay] := by
  simp [Action.isPaceOf]

theorem filter_ask (id : TaskId) :
    [Action.ask (.task id) .status].filter (Action.isPaceOf id) = [.ask (.task id) .status] := by
  simp [Action.isPaceOf, Action.asks]

theorem stands_waiting (id : TaskId) (hset : s.Retries retries interval cap)
    (hgoes : GoesOn retries outcomes) (hlength : delays.length = outcomes.length)
    (hpaced : Paced interval cap delays outcomes) :
    Stands retries interval cap id (waitStage s (streak outcomes))
      (rounds id delays ++ (waitActions s id (streak outcomes)).filter (Action.isPaceOf id))
      outcomes := by
  obtain ⟨hstage, delay, hwait, hstands⟩ := wait_of_streak hset hgoes.streak_le id
  rw [hstage, hwait, filter_wait]
  exact .waiting hgoes hlength (hpaced.delay hlength hstands)

theorem stands_next (id : TaskId) (hset : s.Retries retries interval cap) {o : Outcome}
    (hgoes : GoesOn retries (outcomes ++ [o])) (hlength : delays.length = outcomes.length + 1)
    (hpaced : Paced interval cap delays outcomes) :
    Stands retries interval cap id (waitStage s (streak (outcomes ++ [o])))
      (rounds id delays ++
        (waitActions s id (streak (outcomes ++ [o]))).filter (Action.isPaceOf id))
      (outcomes ++ [o]) := by
  have hlength' : delays.length = (outcomes ++ [o]).length := by
    rw [hlength, List.length_append, List.length_singleton]
  exact stands_waiting id hset hgoes hlength' (hpaced.outcome hlength.le o)

/-- Without an answer a poll only waits for its next look, or takes it. -/
theorem Stands.turn (h : Stands retries interval cap id stage paces outcomes)
    (hturn : Turn c id i (.poll c.session.number false stage) s t' actions)
    (ht : c.task? id = some (.poll c.session.number false stage))
    (hset : c.session.Retries retries interval cap) (hlook : ¬ c.AnswersLook id i) :
    ∃ stage', t' = .poll c.session.number false stage' ∧
      Stands retries interval cap id stage' (paces ++ actions.filter (Action.isPaceOf id))
        outcomes := by
  cases hturn with
  | pollWaits =>
      cases h with
      | created =>
          exact ⟨_, rfl, stands_waiting id hset (Outcome.goesOn_nil _) rfl (paced_nil _ _ _)⟩
  | pollAsks hn =>
      cases h with
      | waiting hgoes hlength hpaced =>
          refine ⟨_, rfl, ?_⟩
          rw [filter_ask, ← rounds_concat]
          exact .asking hgoes (by rw [List.length_append, hlength]; rfl) hpaced
  | pollLeaves hleaves => simp at hleaves
  | _ => exact absurd ⟨_, _, _, _, ht, rfl⟩ hlook

/-- The outcomes of a poll whose last look ended it. -/
theorem stands_done (hgoes : GoesOn retries outcomes) {o : Outcome}
    (hends : ¬ GoesOn retries (outcomes ++ [o])) (hlength : delays.length = outcomes.length + 1)
    (hpaced : Paced interval cap delays outcomes) (result : Except Failure Unit) :
    Stands retries interval cap id (.done result) (rounds id delays) (outcomes ++ [o]) := by
  refine .done hends (fun n hn => ?_) ?_ (hpaced.outcome (Nat.le_of_eq hlength) o)
  · rw [List.length_append] at hn
    rw [List.take_append_of_le_length (Nat.le_of_lt_succ hn)]
    exact hgoes.of_prefix (List.take_prefix n outcomes)
  · rw [List.length_append]
    exact hlength

/-- After an answer a poll goes on, or ends, as its outcomes say. -/
theorem Stands.answer {failures : Nat} {r : Except Failure Response} {o : Outcome}
    (h : Stands retries interval cap id (.asking failures) paces outcomes)
    (hturn : Turn c id (.response (.task id) r) (.poll c.session.number false (.asking failures))
      s t' actions)
    (hset : c.session.Retries retries interval cap) (ho : c.Yields c.session.number r o) :
    ∃ stage', t' = .poll c.session.number false stage' ∧
      Stands retries interval cap id stage' (paces ++ actions.filter (Action.isPaceOf id))
        (outcomes ++ [o]) := by
  have hlook : (c.lookSession c.session.number r).Retries retries interval cap :=
    hset.of_frame (lookSession_frame c _ r)
  cases h with
  | asking hgoes hlength hpaced =>
  cases hturn with
  | pollIdle hr hidle =>
      have hp := hidle.resolve_left fun hn => hn rfl
      obtain rfl : o = .idle := (ho.of_ok hr).trans (if_pos hp)
      refine ⟨_, rfl, ?_⟩
      rw [filter_lookActions, List.append_nil]
      exact stands_done hgoes (fun hgoes' => (goesOn_concat.mp hgoes').2.1.1 rfl) hlength hpaced _
  | pollGoesOn hr hn hp =>
      obtain rfl : o = .active :=
        (ho.of_ok hr).trans (if_neg (by rw [hp]; exact Bool.false_ne_true))
      have hstreak : streak (outcomes ++ [.active]) = 0 := Outcome.streak_concat_of_ne (by decide)
      have hgoes' : GoesOn retries (outcomes ++ [.active]) :=
        goesOn_concat.mpr ⟨hgoes, by decide, by omega⟩
      have hnext := stands_next id hlook hgoes' hlength hpaced
      rw [hstreak] at hnext
      refine ⟨_, rfl, ?_⟩
      rw [List.filter_append, filter_lookActions, List.nil_append]
      exact hnext
  -- A look with an outcome can only fail as requests do.
  | pollBroken hr hf =>
      rw [(ho.of_error hr).1] at hf
      cases hf
  | pollGivesUp hr hf hlast =>
      have hends := (isLastFailure_iff_not_goesOn hlook hgoes (ho.of_error hr).2).mp hlast
      refine ⟨_, rfl, ?_⟩
      rw [List.filter_append, filter_lookActions]
      show Stands _ _ _ _ _ (_ ++ []) _
      rw [List.append_nil]
      exact stands_done hgoes hends hlength hpaced _
  | pollRetries hr hf hlast =>
      have hgoes' : GoesOn retries (outcomes ++ [o]) := by
        rw [Bool.eq_false_iff, ne_eq,
          isLastFailure_iff_not_goesOn hlook hgoes (ho.of_error hr).2, not_not] at hlast
        exact hlast
      -- A permanent failure would have ended the poll.
      obtain rfl : o = .transient := by
        rcases (ho.of_error hr).2 with ⟨rfl, -⟩ | ⟨rfl, -⟩
        · rfl
        · exact absurd rfl (goesOn_concat.mp hgoes').2.1.2
      have hnext := stands_next id hlook hgoes' hlength hpaced
      rw [Outcome.streak_concat_transient] at hnext
      refine ⟨_, rfl, ?_⟩
      rw [List.filter_append, filter_lookActions, List.nil_append]
      exact hnext

/-! ## A run -/

theorem Move.session_retries (h : Move c i c' actions)
    (hset : c.session.Retries retries interval cap) : c'.session.Retries retries interval cap := by
  have hsettings := h.settings
  simp only [Control.settings, Prod.mk.injEq] at hsettings
  obtain ⟨-, hinterval, hretries, hbackoff⟩ := hsettings
  exact ⟨hretries.trans hset.maxRetries, hset.few, hinterval ▸ hset.pollInterval,
    hbackoff ▸ hset.maxBackoff⟩

/-- How the poll of the session stands. -/
def PollStands (c : Control) (retries : ℕ) (interval cap : ℤ) (id : TaskId) (paces : List Action)
    (outcomes : List Outcome) : Prop :=
  ∃ stage, c.task? id = some (.poll c.session.number false stage) ∧
    Stands retries interval cap id stage paces outcomes

theorem PollStands.step (h : c.PollStands retries interval cap id paces outcomes)
    (hset : c.session.Retries retries interval cap) (hi : ¬ i.Closes)
    (hlook : ¬ c.AnswersLook id i) :
    (c.step i).1.PollStands retries interval cap id
      (paces ++ (c.step i).2.filter (Action.isPaceOf id)) outcomes := by
  obtain ⟨stage, ht, hstands⟩ := h
  have hnumber := (move_step c i).number_of_not_closes hi
  rcases (move_step c i).pace ht hi with ⟨hsame, hnone⟩ | ⟨t', ht', hturn⟩
  · refine ⟨stage, ?_, ?_⟩
    · rw [hsame, hnumber, ht]
    · rw [hnone, List.append_nil]
      exact hstands
  · obtain ⟨stage', rfl, hstands'⟩ := hstands.turn hturn ht hset hlook
    exact ⟨stage', hnumber ▸ ht', hstands'⟩

/-- A poll that waits for an answer takes its turn with it. -/
theorem step_answer {n : Nat} {stopped : Bool} {failures : Nat}
    (ht : c.task? id = some (.poll n stopped (.asking failures))) (r : Except Failure Response) :
    ∃ s t' actions, Turn c id (.response (.task id) r) (.poll n stopped (.asking failures)) s t'
        actions ∧
      c.step (.response (.task id) r) = ((c.setSession s).setTask id t', actions) := by
  obtain ⟨s, t', actions, hturn, hstep⟩ := turn_stepPoll c id n stopped failures r
  refine ⟨s, t', actions, hturn, ?_⟩
  rw [← hstep]
  simp only [step, receive, ht]

theorem PollStands.answer {n failures : Nat} {stopped : Bool} {r : Except Failure Response}
    {o : Outcome} (h : c.PollStands retries interval cap id paces outcomes)
    (hset : c.session.Retries retries interval cap)
    (ht : c.task? id = some (.poll n stopped (.asking failures))) (ho : c.Yields n r o) :
    (c.step (.response (.task id) r)).1.PollStands retries interval cap id
      (paces ++ (c.step (.response (.task id) r)).2.filter (Action.isPaceOf id))
      (outcomes ++ [o]) := by
  obtain ⟨stage, hpoll, hstands⟩ := h
  cases ht.symm.trans hpoll
  obtain ⟨s, t', actions, hturn, hstep⟩ := step_answer ht r
  obtain ⟨stage', rfl, hstands'⟩ := hstands.answer hturn hset ho
  rw [hstep]
  refine ⟨stage', ?_, hstands'⟩
  rw [session_setTask, session_setSession, hturn.number]
  exact task?_setTask_self (c := c.setSession s) ht _

theorem pollStands_run (hcreated : c.task? id = some (.poll c.session.number false .created))
    (hset : c.session.Retries retries interval cap) {inputs : List Input}
    (hopen : ∀ i ∈ inputs, ¬ i.Closes) (h : c.Looked id inputs outcomes) :
    (c.run inputs).1.PollStands retries interval cap id
        ((c.run inputs).2.filter (Action.isPaceOf id)) outcomes ∧
      (c.run inputs).1.session.Retries retries interval cap := by
  induction h with
  | nil => exact ⟨⟨.created, hcreated, .created⟩, hset⟩
  | @other inputs outcomes i h hi ih =>
      obtain ⟨hstands, hset'⟩ := ih fun j hj => hopen j (List.mem_append_left _ hj)
      have hcloses := hopen i (List.mem_append_right _ (List.mem_singleton.mpr rfl))
      rw [run_append, run_singleton, List.filter_append]
      exact ⟨hstands.step hset' hcloses hi, (move_step _ i).session_retries hset'⟩
  | @look inputs outcomes n stopped failures r o h ht ho ih =>
      obtain ⟨hstands, hset'⟩ := ih fun j hj => hopen j (List.mem_append_left _ hj)
      rw [run_append, run_singleton, List.filter_append]
      exact ⟨hstands.answer hset' ht ho, (move_step _ _).session_retries hset'⟩

/-- A poll that gives up leaves the session idle and as it is otherwise. -/
theorem PollStands.session_of_failure {n failures : Nat} {stopped : Bool}
    {r : Except Failure Response} {o : Outcome}
    (h : c.PollStands retries interval cap id paces outcomes)
    (hset : c.session.Retries retries interval cap)
    (ht : c.task? id = some (.poll n stopped (.asking failures))) (ho : c.Yields n r o)
    (hfailed : o = .permanent ∨ o = .transient) (hends : ¬ GoesOn retries (outcomes ++ [o])) :
    (c.step (.response (.task id) r)).1.session = c.session.giveUp := by
  obtain ⟨stage, hpoll, hstands⟩ := h
  cases ht.symm.trans hpoll
  obtain ⟨s, t', actions, hturn, hstep⟩ := step_answer ht r
  rw [hstep]
  show s = c.session.giveUp
  -- The outcome is a failure, so no status was merged.
  have hok : ∀ {status}, c.lookStatus c.session.number r ≠ .ok status := by
    intro status hr
    have heq := ho.of_ok hr
    rcases hfailed with rfl | rfl <;> split at heq <;> cases heq
  cases hturn with
  | pollIdle hr | pollGoesOn hr => exact absurd hr hok
  | pollBroken hr hf =>
      rw [(ho.of_error hr).1] at hf
      cases hf
  | pollGivesUp hr hf hlast => rw [if_pos rfl, (look_of_untold (told_of_remote hr hf)).1]
  | pollRetries hr hf hlast =>
      cases hstands with
      | asking hgoes =>
          rw [(look_of_untold (told_of_remote hr hf)).1,
            (isLastFailure_iff_not_goesOn hset hgoes (ho.of_error hr).2).mpr hends] at hlast
          cases hlast

/-! ## Every request that is due -/

/-- A run in which a poll begins and, if it waits in the end, waits no longer. -/
def pollRun (id : TaskId) (inputs : List Input) : List Input :=
  .begin id :: inputs ++ [.elapsed id]

/-- The first wait is for the interval. -/
theorem exists_delay_of_begin (hcreated : c.task? id = some (.poll c.session.number false .created))
    (hset : c.session.Retries retries interval cap) :
    ∃ delay, (c.step (.begin id)).2 = [.wait id delay] := by
  have hstreak : streak [] ≤ retries := Nat.zero_le retries
  obtain ⟨-, delay, hwait, -⟩ := wait_of_streak hset hstreak id
  refine ⟨delay, ?_⟩
  simp only [step, beginTask, hcreated, waitPoll_eq]
  exact hwait

theorem requests_of_stands (h : Stands retries interval cap id stage paces outcomes)
    (hcreated : paces ≠ []) (hwaiting : ∀ failures, stage ≠ .waiting failures) :
    ∃ delays, paces = rounds id delays ∧ Paced interval cap delays outcomes ∧
      ∀ n, n < delays.length ↔ n ≤ outcomes.length ∧ GoesOn retries (outcomes.take n) := by
  cases h with
  | created => exact absurd rfl hcreated
  | waiting => exact absurd rfl (hwaiting _)
  | asking hgoes hlength hpaced =>
      refine ⟨_, rfl, hpaced, fun n => ?_⟩
      rw [hlength, Nat.lt_succ_iff]
      exact ⟨fun hn => ⟨hn, hgoes.of_prefix (List.take_prefix n _)⟩, And.left⟩
  | done hends hgoes hlength hpaced =>
      refine ⟨_, rfl, hpaced, fun n => ?_⟩
      rw [hlength]
      refine ⟨fun hn => ⟨hn.le, hgoes n hn⟩, fun ⟨hn, hgoesOn⟩ => lt_of_le_of_ne hn ?_⟩
      rintro rfl
      exact hends (by rwa [List.take_length] at hgoesOn)

/-- In a run a poll gives up with an answer: the request failed for good, or once too often. -/
inductive GivesUp (c : Control) (id : TaskId) (retries : ℕ) (before : List Input)
    (r : Except Failure Response) : Prop
  | mk {n failures : Nat} {stopped : Bool} {earlier : List Outcome} {o : Outcome}
      (ht : (c.run before).1.task? id = some (.poll n stopped (.asking failures)))
      (hearlier : c.Looked id before earlier) (ho : (c.run before).1.Yields n r o)
      (hends : o = .permanent ∨ o = .transient ∧ ¬ GoesOn retries (earlier ++ [o]))

theorem not_closes_pollRun (id : TaskId) {inputs : List Input} (hopen : ∀ i ∈ inputs, ¬ i.Closes) :
    ∀ i ∈ pollRun id inputs, ¬ i.Closes := by
  intro i hi
  rcases List.mem_append.mp hi with hi | hi
  · rcases List.mem_cons.mp hi with rfl | hi
    · exact not_false
    · exact hopen i hi
  · rw [List.mem_singleton.mp hi]
    exact not_false

/-- In a session that is not closed, a poll sends its next request exactly if the outcomes so far
let it go on, and before each request it waits as they say. If it gives up, the session holds no job
for running, and the states of the items are those of any earlier moment after which no status came
and no list was shown. -/
theorem poll_follows_outcomes
    (hcreated : c.task? id = some (.poll c.session.number false .created))
    (hset : c.session.Retries retries interval cap) {inputs : List Input}
    (hopen : ∀ i ∈ inputs, ¬ i.Closes) (hlooked : c.Looked id (pollRun id inputs) outcomes) :
    (∃ delays, (c.run (pollRun id inputs)).2.filter (Action.isPaceOf id) = rounds id delays ∧
      Paced interval cap delays outcomes ∧
      ∀ n, n < delays.length ↔ n ≤ outcomes.length ∧ GoesOn retries (outcomes.take n)) ∧
    ∀ before r after, pollRun id inputs = before ++ .response (.task id) r :: after →
      c.GivesUp id retries before r →
      let s := (c.run before).1.session
      let s' := ((c.run before).1.step (.response (.task id) r)).1.session
      s' = { s with progress := Progress.inactive, eta := none } ∧
        ∀ first rest, before = first ++ rest → (c.run first).1.Unstated rest →
          s'.states = (c.run first).1.session.states := by
  have hopen' := not_closes_pollRun id hopen
  constructor
  · obtain ⟨⟨stage, ht, hstands⟩, -⟩ := pollStands_run hcreated hset hopen' hlooked
    obtain ⟨delay, hbegin⟩ := exists_delay_of_begin hcreated hset
    refine requests_of_stands hstands ?_ fun failures hwaiting => ?_
    · have hrun : (c.run (pollRun id inputs)).2 =
          [.wait id delay] ++ ((c.step (.begin id)).1.run (inputs ++ [.elapsed id])).2 := by
        rw [← hbegin]
        rfl
      rw [hrun, List.filter_append, filter_wait]
      exact List.cons_ne_nil _ _
    · rw [hwaiting, pollRun, run_concat_fst] at ht
      exact Input.EndsWait.not_waiting (Or.inr rfl) nofun _ _ _ ht
  · rintro before r after hrun ⟨ht, hearlier, ho, hends⟩ s s'
    have hbefore : ∀ i ∈ before, ¬ i.Closes := fun i hi =>
      hopen' i (hrun ▸ List.mem_append_left _ hi)
    obtain ⟨hstands, hset'⟩ := pollStands_run hcreated hset hbefore hearlier
    -- What came before the last answer let the poll go on, so only that answer can end it.
    have hgiveUp : s' = s.giveUp := by
      rcases hends with rfl | ⟨rfl, hends⟩
      · exact hstands.session_of_failure hset' ht ho (Or.inl rfl)
          fun hgoes => (goesOn_concat.mp hgoes).2.1.2 rfl
      · exact hstands.session_of_failure hset' ht ho (Or.inr rfl) hends
    refine ⟨hgiveUp, ?_⟩
    rintro first rest rfl hrest
    calc s'.states = s.states := by rw [hgiveUp]; rfl
      _ = ((c.run first).1.run rest).1.session.states := by
          show (c.run (first ++ rest)).1.session.states = _
          rw [run_append]
      _ = (c.run first).1.session.states := states_run hrest

def noServer : Except Failure Response := .error (.transport "no server" 0)

/-- A job that runs, and then a server that is gone. -/
def lostServer : List Input :=
  [.elapsed 0, .response (.task 0) halfway, .elapsed 0, .response (.task 0) noServer, .elapsed 0,
    .response (.task 0) noServer]

theorem not_answersLook_elapsed (c : Control) (id poll : TaskId) :
    ¬ c.AnswersLook id (.elapsed poll) := by
  rintro ⟨n, stopped, failures, r, -, h⟩
  cases h

theorem yields_noServer {c : Control} {n : Nat} : c.Yields n noServer .transient :=
  .transient rfl ⟨rfl, by decide, 0, rfl, Or.inl rfl⟩

/-- A poll that waits for an answer after a run. -/
theorem exists_asking {c : Control} {id : TaskId} {n : Nat} {stopped : Bool} {stage : PollStage}
    (ht : c.task? id = some (.poll n stopped stage)) (inputs : List Input)
    (hasks : (c.run inputs).1.awaited id = 1) :
    ∃ stopped failures, (c.run inputs).1.task? id = some (.poll n stopped (.asking failures)) := by
  obtain ⟨stopped', stage', ht'⟩ := poll_run ht inputs
  rw [awaited_of_task? ht'] at hasks
  cases stage' with
  | asking failures => exact ⟨stopped', failures, ht'⟩
  | _ => cases hasks

/-- A poll that tolerates one failure in a row looks three times and takes the job for idle. -/
theorem poll_follows_outcomes_lost_server :
    let o : SessionOptions :=
      { pollInterval := .whole 1, maxRetries := .whole 1, maxBackoff := .whole 8 }
    let c := (o.begin.step .startPolling).1
    let outcomes : List Outcome := [.active, .transient, .transient]
    c.task? 0 = some (.poll c.session.number false .created) ∧
      c.session.Retries 1 (1 * Binary64.unit) (8 * Binary64.unit) ∧
      (∀ i ∈ lostServer, ¬ i.Closes) ∧ c.Looked 0 (pollRun 0 lostServer) outcomes ∧
      (∃ delays, delays.length = 3 ∧
        (c.run (pollRun 0 lostServer)).2.filter (Action.isPaceOf 0) = rounds 0 delays) ∧
      (c.run (.begin 0 :: lostServer)).1.session.Idle := by
  intro o c outcomes
  have hset : c.session.Retries 1 (1 * Binary64.unit) (8 * Binary64.unit) := by
    have hlarge : twoTo 4 < twoTo 1023 := twoTo_lt_twoTo (by decide)
    have hone : (1 : ℤ).natAbs < twoTo 4 := by decide
    have height : (8 : ℤ).natAbs < twoTo 4 := by decide
    exact ⟨rfl, by decide, Number.measures_whole (hone.trans hlarge),
      Number.measures_whole (height.trans hlarge)⟩
  have hopen : ∀ i ∈ lostServer, ¬ i.Closes := by simp [lostServer, Input.Closes]
  have hactive : Progress.isActive
      ((c.run [.begin 0, .elapsed 0]).1.lookSession 0 halfway).progress = true := by
    decide +kernel
  have hcreated : c.task? 0 = some (.poll 0 false .created) := rfl
  have hstatus : ∃ status, (c.run [.begin 0, .elapsed 0]).1.lookStatus 0 halfway = .ok status := by
    have hok : ((c.run [.begin 0, .elapsed 0]).1.lookStatus 0 halfway).isOk = true := by
      decide +kernel
    generalize (c.run [.begin 0, .elapsed 0]).1.lookStatus 0 halfway = result at hok
    cases result with
    | ok status => exact ⟨status, rfl⟩
    | error f => cases hok
  obtain ⟨status, hstatus⟩ := hstatus
  obtain ⟨_, _, hfirst⟩ := exists_asking hcreated [.begin 0, .elapsed 0] (by decide +kernel)
  obtain ⟨_, _, hsecond⟩ :=
    exists_asking hcreated (.begin 0 :: lostServer.take 3) (by decide +kernel)
  obtain ⟨_, _, hthird⟩ :=
    exists_asking hcreated (.begin 0 :: lostServer.take 5) (by decide +kernel)
  have hearlier : c.Looked 0 (.begin 0 :: lostServer.take 5) [.active, .transient] := by
    refine @Looked.other c 0 (.begin 0 :: lostServer.take 4) _ _ ?_ (not_answersLook_elapsed _ _ _)
    refine @Looked.look c 0 (.begin 0 :: lostServer.take 3) [.active] _ _ _ _ _ ?_ hsecond
      yields_noServer
    refine @Looked.other c 0 (.begin 0 :: lostServer.take 2) _ _ ?_ (not_answersLook_elapsed _ _ _)
    refine @Looked.look c 0 [.begin 0, .elapsed 0] [] _ _ _ _ _ ?_ hfirst (.active hstatus hactive)
    refine @Looked.other c 0 [.begin 0] _ _ ?_ (not_answersLook_elapsed _ _ _)
    refine @Looked.other c 0 [] _ _ .nil ?_
    rintro ⟨n, stopped, failures, r, -, h⟩
    cases h
  have hlooked : c.Looked 0 (pollRun 0 lostServer) outcomes := by
    refine @Looked.other c 0 (.begin 0 :: lostServer) _ _ ?_ (not_answersLook_elapsed _ _ _)
    exact @Looked.look c 0 (.begin 0 :: lostServer.take 5) _ _ _ _ _ _ hearlier hthird
      yields_noServer
  obtain ⟨⟨delays, hrounds, -, hrequests⟩, hgivesUp⟩ :=
    poll_follows_outcomes rfl hset hopen hlooked
  have hlength : delays.length = 3 := by
    have hatLeast := (hrequests 2).mpr (by decide)
    have hatMost := mt (hrequests 3).mp (by decide)
    omega
  have hlast : c.GivesUp 0 1 (.begin 0 :: lostServer.take 5) noServer :=
    .mk hthird hearlier yields_noServer (Or.inr ⟨rfl, by decide⟩)
  obtain ⟨hsession, -⟩ := hgivesUp (.begin 0 :: lostServer.take 5) noServer [.elapsed 0] rfl hlast
  have hidle : (c.run (.begin 0 :: lostServer)).1.session.Idle := by
    have hrun : .begin 0 :: lostServer =
        .begin 0 :: lostServer.take 5 ++ [.response (.task 0) noServer] := rfl
    rw [hrun, run_concat_fst, hsession]
    exact ⟨rfl, rfl⟩
  exact ⟨rfl, hset, hopen, hlooked, ⟨delays, hlength, hrounds⟩, hidle⟩

end Control

end CardImport
