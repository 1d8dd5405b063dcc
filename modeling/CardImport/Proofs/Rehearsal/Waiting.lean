import CardImport.Proofs.Session.Polling
import CardImport.Proofs.Rehearsal.Actions

/-!
# What wakes a waiting poll

`Reached` is every rehearsal that a session comes to when its operator calls, replies are let
through and time passes, in any order. In each of them a poll that waits will be woken: the end of
its wait is due, or a timer runs for it and it was not told to stop. The invariant behind this is
`Armed`. It also speaks of the actions of a step that are still to be done, since a poll waits
before its timer is started, and is stopped before it is told.
-/

namespace CardImport

namespace Control

/-! ## Waits and halts -/

theorem waitActions_of_waiting {s : Session} {failures failures' : Nat}
    (h : waitStage s failures = .waiting failures') (id : TaskId) :
    ∃ delay, waitActions s id failures = [.wait id delay] ∧ checkDelay delay = .ok () := by
  unfold waitStage at h
  unfold waitActions
  cases hd : pollDelay s failures with
  | error e =>
      rw [hd] at h
      cases h
  | ok delay =>
      rw [hd] at h
      refine ⟨delay, rfl, ?_⟩
      cases hc : checkDelay delay with
      | error e =>
          simp only [hc] at h
          cases h
      | ok _ => rfl

/-- A turn after which a poll waits asks for the wait. -/
theorem Turn.wait_of_waiting {c : Control} {id : TaskId} {i : Input} {t : Task} {s : Session}
    {n failures : Nat} {stopped : Bool} {actions : List Action}
    (h : Turn c id i t s (.poll n stopped (.waiting failures)) actions) :
    ∃ delay, .wait id delay ∈ actions ∧ checkDelay delay = .ok () := by
  generalize ht' : Task.poll n stopped (.waiting failures) = t' at h
  cases h with
  | pollWaits | pollGoesOn | pollRetries =>
      simp only [Task.poll.injEq] at ht'
      obtain ⟨delay, hactions, hdelay⟩ := waitActions_of_waiting ht'.2.2.symm id
      refine ⟨delay, ?_, hdelay⟩
      rw [hactions]
      simp
  | _ => cases ht'

theorem Turn.not_halts {c : Control} {id : TaskId} {i : Input} {t t' : Task} {s : Session}
    {actions : List Action} (h : Turn c id i t s t' actions) (j : TaskId) :
    .halt j ∉ actions := by
  intro ha
  cases h.does _ ha

theorem halt_mem_close {c : Control} {id : TaskId} :
    .halt id ∈ c.close.2 ↔ c.poller = some id := by
  unfold close
  cases c.poller <;> simp [eq_comm]

def Stopped (c : Control) (id : TaskId) : Prop := ∃ n stage, c.task? id = some (.poll n true stage)

theorem Stopped.step {c : Control} {id : TaskId} (h : c.Stopped id) (i : Input) :
    (c.step i).1.Stopped id := by
  obtain ⟨n, stage, ht⟩ := h
  exact ⟨n, (move_step c i).stopped ht⟩

theorem stopped_close {c : Control} (hc : c.PollerCurrent) {id : TaskId}
    (hp : c.poller = some id) : c.close.1.Stopped id := by
  obtain ⟨stage, ht⟩ := hc hp
  refine ⟨c.session.number, stage, ?_⟩
  rw [task?_close, if_pos hp, ht]
  rfl

theorem Move.stopped_of_halts {c c' : Control} {i : Input} {actions : List Action}
    (h : Move c i c' actions) (hc : c.PollerCurrent) {id : TaskId} (ha : .halt id ∈ actions) :
    c'.Stopped id := by
  cases h with
  | opened path =>
      rcases List.mem_append.mp ha with ha | ha
      · obtain ⟨n, stage, ht⟩ := stopped_close hc (halt_mem_close.mp ha)
        exact ⟨n, stage, task?_openPath_of_some ht⟩
      · simp at ha
  | closed => exact stopped_close hc (halt_mem_close.mp ha)
  | edited e => cases ha
  | started hfresh => simp [start] at ha
  | polled => cases begin_of_mem_startPolling ha
  | turned ht hturn => exact absurd ha (hturn.not_halts id)
  | accepted ht hr =>
      rcases List.mem_append.mp ha with ha | ha
      · obtain ⟨e, he⟩ := exists_note_of_mem ha
        cases he
      · cases begin_of_mem_startPolling ha
  | dropped => cases ha

theorem halt_of_closes {c : Control} {id : TaskId} (hp : c.poller = some id) {i : Input}
    (hi : i.Closes) : .halt id ∈ (c.step i).2 := by
  cases i with
  | openPath path => exact List.mem_append_left _ (halt_mem_close.mpr hp)
  | close => exact halt_mem_close.mpr hp
  | _ => exact hi.elim

theorem stopTask_eq_poll {t : Task} {n : Nat} {stopped : Bool} {stage : PollStage}
    (h : stopTask t = .poll n stopped stage) : ∃ stopped₀, t = .poll n stopped₀ stage := by
  cases t with
  | poll m stopped₀ stage₀ =>
      cases h
      exact ⟨stopped₀, rfl⟩
  | _ => cases h

end Control

/-- Whether an action lets a poll wait or wakes it. -/
def Action.isOfWait : Action → Bool
  | .wait _ _ | .halt _ => true
  | _ => false

theorem Input.EndsWait.not_waiting {c : Control} {id : TaskId} {i : Input} (hi : i.EndsWait id)
    (hstopped : i = .halted id → c.Stopped id) (n : Nat) (stopped : Bool) (failures : Nat) :
    (c.step i).1.task? id ≠ some (.poll n stopped (.waiting failures)) := by
  intro ht
  rcases hi with rfl | rfl
  · obtain ⟨m, stage, hold⟩ := hstopped rfl
    simp only [Control.step, Control.haltPoll] at ht
    split at ht
    · rename_i hw
      cases (Control.task?_setTask_self hw _).symm.trans ht
    · rename_i hne
      cases hold.symm.trans ht
      exact hne _ _ hold
  · simp only [Control.step, Control.wake] at ht
    split at ht
    · rename_i hw
      unfold Control.wakePoll at ht
      split at ht <;> cases (Control.task?_setTask_self hw _).symm.trans ht
    · rename_i hne
      exact hne _ _ _ ht

namespace Rehearsal

/-! ## Reached rehearsals -/

def pop (r : Rehearsal) (d : Due) (rest : List Due) : Rehearsal :=
  ({ r with ready := rest } : Rehearsal).dropHalted d.input

@[simp] theorem pop_control (r : Rehearsal) (d : Due) (rest : List Due) :
    (r.pop d rest).control = r.control := by
  unfold pop dropHalted
  split <;> rfl

@[simp] theorem pop_clock (r : Rehearsal) (d : Due) (rest : List Due) :
    (r.pop d rest).clock = r.clock := by
  unfold pop dropHalted
  split <;> rfl

@[simp] theorem pop_ready (r : Rehearsal) (d : Due) (rest : List Due) :
    (r.pop d rest).ready = rest := by
  unfold pop dropHalted
  split <;> rfl

/-- The rehearsals that a session comes to. The operator calls at any time between two inputs, and
any timer may end before what is due. -/
inductive Reached (o : SessionOptions) : Rehearsal → Prop
  | begins (r : Rehearsal) :
      Reached o { r with control := o.begin, held := [], ready := [], timers := [] }
  | called {r r' : Rehearsal} {i : Input} (h : Reached o r) (hi : i.IsCall)
      (htakes : r.Takes i r') : Reached o r'
  | taken {r r' : Rehearsal} {d : Due} {rest : List Due} (h : Reached o r)
      (hready : r.ready = d :: rest) (hd : d.hops = 0)
      (htakes : (r.pop d rest).Takes d.input r') : Reached o r'
  | hopped {r : Rehearsal} {d : Due} {rest : List Due} (h : Reached o r)
      (hready : r.ready = d :: rest) (hd : d.hops ≠ 0) :
      Reached o (({ r with ready := rest } : Rehearsal).push (d.hops - 1) d.input)
  | fired {r : Rehearsal} (h : Reached o r) : Reached o r.fire
  | released {r : Rehearsal} (h : Reached o r) (gate : String) : Reached o (r.release gate)
  | moved {r : Rehearsal} (h : Reached o r) (time : Binary64) : Reached o { r with clock := time }

/-! ## The invariant -/

/-- A timer runs for a poll. -/
def Timed (r : Rehearsal) (id : TaskId) : Prop := ∃ time, (time, id) ∈ r.timers

theorem any_timers_iff {r : Rehearsal} {id : TaskId} :
    r.timers.any (·.2 == id) = true ↔ r.Timed id := by
  simp [Timed]

/-- What wakes a poll that waits, if some actions are still to be done. -/
inductive Wakes (r : Rehearsal) (actions : List Action) (id : TaskId) (stopped : Bool) : Prop
  | due {d : Due} (hd : d ∈ r.ready) (hend : d.input.EndsWait id)
  | timed (htimer : r.Timed id) (hhalt : stopped = true → .halt id ∈ actions)
  | begins {delay : Number} (ha : .wait id delay ∈ actions)
      (hdelay : Control.checkDelay delay = .ok ())

/-- Every poll that waits is woken, and only polls that were stopped are halted. -/
structure Armed (r : Rehearsal) (actions : List Action) : Prop where
  current : r.control.PollerCurrent
  halts : ∀ {id}, .halt id ∈ actions → r.control.Stopped id
  halted : ∀ {d id}, d ∈ r.ready → d.input = .halted id → r.control.Stopped id
  wakes : ∀ {id n stopped failures},
    r.control.task? id = some (.poll n stopped (.waiting failures)) → r.Wakes actions id stopped

variable {r r' : Rehearsal} {actions : List Action}

/-! ### One step -/

/-- A poll that still waits after a step is woken by what woke it before: the input of the step was
not the end of its wait, and only that input and the timer of the poll that it halts are gone. -/
theorem Wakes.mono {more : List Action} {id : TaskId} {stopped : Bool} {i : Input}
    (h : r.Wakes actions id stopped) (hi : ¬ i.EndsWait id)
    (hready : ∀ {d}, d ∈ r.ready → d.input = i ∨ d ∈ r'.ready)
    (htimers : r.Timed id → i = .halted id ∨ r'.Timed id) :
    r'.Wakes (more ++ actions) id stopped := by
  cases h with
  | due hd hend =>
      rcases hready hd with rfl | hd'
      · exact absurd hend hi
      · exact .due hd' hend
  | timed htimer hhalt =>
      rcases htimers htimer with rfl | htimer'
      · exact absurd (Or.inl rfl) hi
      · exact .timed htimer' fun hs => List.mem_append_right _ (hhalt hs)
  | begins ha hdelay => exact .begins (List.mem_append_right _ ha) hdelay

/-- A step arms the polls that it lets wait, and halts those that it stops. -/
theorem Armed.step (h : r.Armed actions) (i : Input) (hcontrol : r'.control = (r.control.step i).1)
    (hstopped : ∀ {id}, i = .halted id → r.control.Stopped id)
    (hdue : ∀ {d}, d ∈ r'.ready → d ∈ r.ready)
    (hready : ∀ {d}, d ∈ r.ready → d.input = i ∨ d ∈ r'.ready)
    (htimers : ∀ {id}, r.Timed id → i = .halted id ∨ r'.Timed id) :
    r'.Armed ((r.control.step i).2 ++ actions) := by
  have hmove := Control.move_step r.control i
  constructor
  · rw [hcontrol]
    exact hmove.pollerCurrent h.current
  · intro id ha
    rw [hcontrol]
    rcases List.mem_append.mp ha with ha | ha
    · exact hmove.stopped_of_halts h.current ha
    · exact (h.halts ha).step i
  · intro d id hd hhalted
    rw [hcontrol]
    exact (h.halted (hdue hd) hhalted).step i
  · intro id n stopped failures ht
    rw [hcontrol] at ht
    have hi : ¬ i.EndsWait id := fun hi => hi.not_waiting hstopped _ _ _ ht
    cases hold : r.control.task? id with
    | none => cases hmove.new hold ht
    | some t =>
        obtain ⟨t', ht', hb⟩ := hmove.became hold
        obtain rfl : t' = .poll n stopped (.waiting failures) := Option.some.inj (ht'.symm.trans ht)
        -- The poll waits after the step; what became of its task says what will wake it.
        generalize htask : Task.poll n stopped (.waiting failures) = t' at hb
        cases hb with
        | same =>
            subst htask
            exact (h.wakes hold).mono hi hready htimers
        | turned hturn =>
            subst htask
            obtain ⟨delay, ha, hdelay⟩ := hturn.wait_of_waiting
            exact .begins (List.mem_append_left _ ha) hdelay
        | stopped _ hp hcloses =>
            -- A poll that is stopped while it waits on a timer is halted by the same step.
            obtain ⟨stopped₀, rfl⟩ := Control.stopTask_eq_poll htask.symm
            have hwakes : r'.Wakes ((r.control.step i).2 ++ actions) id stopped₀ :=
              (h.wakes hold).mono hi hready htimers
            cases hwakes with
            | due hd hend => exact .due hd hend
            | timed htimer =>
                exact .timed htimer fun _ =>
                  List.mem_append_left _ (Control.halt_of_closes hp hcloses)
            | begins ha hdelay => exact .begins ha hdelay
        | accepted => cases htask

/-! ### Between steps -/

theorem Wakes.grows {id : TaskId} {stopped : Bool} (h : r.Wakes actions id stopped)
    (hready : r.ready ⊆ r'.ready) (htimers : r.Timed id → r'.Timed id) :
    r'.Wakes actions id stopped := by
  cases h with
  | due hd hend => exact .due (hready hd) hend
  | timed htimer hhalt => exact .timed (htimers htimer) hhalt
  | begins ha hdelay => exact .begins ha hdelay

/-- A poll needs an action only to be halted or to begin its wait. -/
theorem Wakes.of_cons {a : Action} {id : TaskId} {stopped : Bool}
    (h : r.Wakes (a :: actions) id stopped) :
    r.Wakes actions id stopped ∨ (a = .halt id ∧ r.Timed id) ∨
      ∃ delay, a = .wait id delay ∧ Control.checkDelay delay = .ok () := by
  cases h with
  | due hd hend => exact Or.inl (.due hd hend)
  | timed htimer hhalt =>
      by_cases ha : a = .halt id
      · exact Or.inr (Or.inl ⟨ha, htimer⟩)
      · exact Or.inl (.timed htimer fun hs => List.mem_of_ne_of_mem (Ne.symm ha) (hhalt hs))
  | begins ha hdelay =>
      rcases List.mem_cons.mp ha with rfl | ha
      · exact Or.inr (Or.inr ⟨_, rfl, hdelay⟩)
      · exact Or.inl (.begins ha hdelay)

/-- Between steps the session stays as it is. -/
theorem Armed.mono {fewer : List Action} (h : r.Armed actions) (hcontrol : r'.control = r.control)
    (hactions : fewer ⊆ actions)
    (hhalted : ∀ {d id}, d ∈ r'.ready → d.input = .halted id → r.control.Stopped id)
    (hwakes : ∀ {id n stopped failures},
      r.control.task? id = some (.poll n stopped (.waiting failures)) →
        r.Wakes actions id stopped → r'.Wakes fewer id stopped) : r'.Armed fewer := by
  constructor
  · rw [hcontrol]
    exact h.current
  · intro id ha
    rw [hcontrol]
    exact h.halts (hactions ha)
  · rwa [hcontrol]
  · intro id n stopped failures ht
    rw [hcontrol] at ht
    exact hwakes ht (h.wakes ht)

/-- An input becomes due; only a stopped poll is halted by it. -/
theorem Armed.push (h : r.Armed actions) (hops : Nat) {i : Input}
    (hi : ∀ {id}, i = .halted id → r.control.Stopped id) : (r.push hops i).Armed actions := by
  refine h.mono rfl (List.Subset.refl _) (fun {d id} hd hhalted => ?_) fun _ hw => ?_
  · rcases List.mem_append.mp hd with hd | hd
    · exact h.halted hd hhalted
    · cases List.mem_singleton.mp hd
      exact hi hhalted
  · exact hw.grows (List.subset_append_left _ _) id

/-- An action is done when the polls that needed it are woken. -/
theorem Armed.drop {a : Action} (h : r.Armed (a :: actions))
    (hwoken : ∀ {id n stopped failures},
      r.control.task? id = some (.poll n stopped (.waiting failures)) →
        (a = .halt id ∧ r.Timed id ∨
          ∃ delay, a = .wait id delay ∧ Control.checkDelay delay = .ok ()) →
        r.Wakes actions id stopped) : r.Armed actions := by
  refine h.mono rfl (List.subset_cons_self a actions) h.halted fun ht hw => ?_
  rcases hw.of_cons with hw | hneeds
  · exact hw
  · exact hwoken ht hneeds

/-- An action that halts no poll and lets none wait. -/
theorem Armed.tail {a : Action} (h : r.Armed (a :: actions)) (ha : a.isOfWait = false) :
    r.Armed actions := by
  refine h.drop ?_
  rintro id n stopped failures - (⟨rfl, -⟩ | ⟨delay, rfl, -⟩)
  · cases ha
  · cases ha

theorem Armed.rests (h : r.Armed actions) (hr : r.Rests r') : r'.Armed actions := by
  refine h.mono hr.control (List.Subset.refl _) ?_ fun _ hw => hw.grows ?_ ?_
  · rw [hr.ready]
    exact h.halted
  · rw [hr.ready]
    exact List.Subset.refl _
  · rw [Timed, Timed, hr.timers]
    exact id

/-! ### Timers -/

theorem mem_insertTimer {time : Binary64} {id : TaskId} {t : Binary64 × TaskId}
    {timers : List (Binary64 × TaskId)} :
    t ∈ insertTimer time id timers ↔ t = (time, id) ∨ t ∈ timers := by
  induction timers with
  | nil => simp [insertTimer]
  | cons u rest ih =>
      unfold insertTimer
      split
      · simp
      · simp only [List.mem_cons, ih]
        exact or_left_comm

theorem Armed.timer (h : r.Armed actions) (time : Binary64) (id : TaskId) :
    Armed { r with timers := insertTimer time id r.timers } actions := by
  refine h.mono rfl (List.Subset.refl _) h.halted fun _ hw => ?_
  refine hw.grows (List.Subset.refl _) ?_
  rintro ⟨t, ht⟩
  exact ⟨t, mem_insertTimer.mpr (Or.inr ht)⟩

theorem stopped_of_isStopped {id : TaskId} (h : r.isStopped id = true) : r.control.Stopped id := by
  unfold isStopped at h
  split at h
  · rename_i n stopped stage ht
    exact ⟨n, stage, h ▸ ht⟩
  · cases h

theorem isStopped_of_task? {id : TaskId} {n : Nat} {stopped : Bool} {stage : PollStage}
    (ht : r.control.task? id = some (.poll n stopped stage)) : r.isStopped id = stopped := by
  rw [isStopped, ht]

/-- A wait that begins is over soon, or has a timer. -/
theorem Armed.startWait {id : TaskId} {delay : Number} (h : r.Armed (.wait id delay :: actions)) :
    (r.startWait id delay).Armed actions := by
  have hrecord := h.rests (rests_record r (.wait delay))
  rcases startWait_cases r id delay with ⟨i, hi, heq⟩ | ⟨hlive, time, heq⟩ | ⟨hnever, heq⟩ <;>
    rw [heq]
  -- A short wait, or that of a stopped poll, ends by an input that is due.
  · have hpush : ((r.record (.wait delay)).push shortWaitHops i).Armed
        (.wait id delay :: actions) := by
      refine hrecord.push shortWaitHops fun hhalted => ?_
      rcases hi with rfl | ⟨rfl, hstopped⟩
      · cases hhalted
      · cases hhalted
        exact stopped_of_isStopped hstopped
    refine hpush.drop ?_
    rintro j n stopped failures - (⟨ha, -⟩ | ⟨d, ha, -⟩)
    · cases ha
    · cases ha
      exact .due (List.mem_append_right _ List.mem_cons_self) (hi.symm.imp_left And.left)
  -- Otherwise a timer runs, and it belongs to a poll that nobody stopped.
  · refine (hrecord.timer time id).drop ?_
    rintro j n stopped failures ht (⟨ha, -⟩ | ⟨d, ha, -⟩)
    · cases ha
    · cases ha
      refine .timed ⟨time, mem_insertTimer.mpr (Or.inl rfl)⟩ fun hstopped => ?_
      have hflag : r.isStopped id = stopped := isStopped_of_task? ht
      rw [hlive, hstopped] at hflag
      cases hflag
  -- A delay that no clock can hold starts nothing, and no poll waits on it.
  · refine hrecord.drop ?_
    rintro j n stopped failures - (⟨ha, -⟩ | ⟨d, ha, hdelay⟩)
    · cases ha
    · cases ha
      exact absurd hdelay hnever

/-- A poll that is told to stop wakes, if it has a timer. -/
theorem Armed.haltWait {id : TaskId} (h : r.Armed (.halt id :: actions)) :
    (r.haltWait id).Armed actions := by
  unfold Rehearsal.haltWait
  split
  · have hpush : (r.push shortWaitHops (.halted id)).Armed (.halt id :: actions) := by
      refine h.push shortWaitHops fun hhalted => ?_
      cases hhalted
      exact h.halts List.mem_cons_self
    refine hpush.drop ?_
    rintro j n stopped failures - (⟨ha, -⟩ | ⟨d, ha, -⟩)
    · cases ha
      exact .due (List.mem_append_right _ List.mem_cons_self) (Or.inl rfl)
    · cases ha
  · rename_i hnone
    refine h.drop ?_
    rintro j n stopped failures - (⟨ha, htimed⟩ | ⟨d, ha, -⟩)
    · cases ha
      exact absurd (any_timers_iff.mpr htimed) hnone
    · cases ha

/-! ### Actions -/

theorem Armed.act {a : Action} (h : r.Armed (a :: actions)) :
    (r.act a).1.Armed ((r.act a).2 ++ actions) := by
  cases a with
  | wait id delay => exact h.startWait
  | halt id => exact h.haltWait
  | note e => exact (h.tail rfl).rests (rests_record r _)
  | begin id => exact (h.tail rfl).push 0 (by simp)
  | beginLeg id leg => exact (h.tail rfl).push 0 (by simp)
  | join id => exact (h.tail rfl).push joinHops (by simp)
  | remember path => exact (h.tail rfl).rests ⟨rfl, rfl, rfl, rfl⟩
  | merged status => exact (h.tail rfl).rests (rests_record r _)
  | ask sender q =>
      have hsent := (h.tail rfl).rests (rests_send r sender q)
      simp only [Rehearsal.act]
      rcases hq : r.send sender q with ⟨r', _ | result⟩ <;> rw [hq] at hsent
      · exact hsent
      · exact hsent.step (.response sender result) rfl (by simp) id Or.inr Or.inr

theorem Performs.armed (h : Performs r actions r') (harmed : r.Armed actions) : r'.Armed [] := by
  induction h with
  | nil r => exact harmed
  | cons h ih => exact ih harmed.act

/-- A rehearsal is armed again when an input was taken that is no longer due. -/
theorem Takes.armed {before : Rehearsal} {i : Input} (h : r.Takes i r')
    (hbefore : before.Armed []) (hcontrol : r.control = before.control)
    (hstopped : ∀ {id}, i = .halted id → before.control.Stopped id)
    (hdue : ∀ {d}, d ∈ r.ready → d ∈ before.ready)
    (hready : ∀ {d}, d ∈ before.ready → d.input = i ∨ d ∈ r.ready)
    (htimers : ∀ {id}, before.Timed id → i = .halted id ∨ r.Timed id) : r'.Armed [] := by
  have hstep : Armed { r with control := (r.control.step i).1 }
      ((before.control.step i).2 ++ []) :=
    hbefore.step i (by rw [hcontrol]) hstopped hdue hready htimers
  rw [List.append_nil, ← hcontrol] at hstep
  exact Performs.armed h hstep

/-! ### Every rehearsal -/

theorem timed_pop {d : Due} {rest : List Due} {id : TaskId} (h : r.Timed id) :
    d.input = .halted id ∨ (r.pop d rest).Timed id := by
  obtain ⟨time, ht⟩ := h
  unfold pop dropHalted
  split
  · rename_i j hj
    by_cases hid : j = id
    · exact Or.inl (hid ▸ hj)
    · refine Or.inr ⟨time, List.mem_filter.mpr ⟨ht, ?_⟩⟩
      simpa using Ne.symm hid
  · exact Or.inr ⟨time, ht⟩

theorem Armed.hop {d : Due} {rest : List Due} (h : r.Armed actions) (hready : r.ready = d :: rest)
    (hops : Nat) : (({ r with ready := rest } : Rehearsal).push hops d.input).Armed actions := by
  refine h.mono rfl (List.Subset.refl _) (fun {e id} he hhalted => ?_) fun _ hw => ?_
  · rcases List.mem_append.mp he with he | he
    · exact h.halted (hready ▸ List.mem_cons_of_mem _ he) hhalted
    · cases List.mem_singleton.mp he
      exact h.halted (d := d) (hready ▸ List.mem_cons_self) hhalted
  · cases hw with
    | due he hend =>
        rw [hready] at he
        rcases List.mem_cons.mp he with rfl | he
        · exact .due (List.mem_append_right _ (List.mem_singleton.mpr rfl)) hend
        · exact .due (List.mem_append_left _ he) hend
    | timed htimer hhalt => exact .timed htimer hhalt
    | begins ha hdelay => exact .begins ha hdelay

theorem Armed.fire (h : r.Armed actions) : r.fire.Armed actions := by
  unfold Rehearsal.fire
  cases htimers : r.timers with
  | nil => exact h
  | cons t rest =>
      obtain ⟨time, id⟩ := t
      refine h.mono rfl (List.Subset.refl _) (fun {d j} hd hhalted => ?_) fun _ hw => ?_
      · rcases List.mem_append.mp hd with hd | hd
        · exact h.halted hd hhalted
        · cases List.mem_singleton.mp hd
          cases hhalted
      · cases hw with
        | due hd hend => exact .due (List.mem_append_left _ hd) hend
        | timed htimer hhalt =>
            obtain ⟨t, ht⟩ := htimer
            rw [htimers] at ht
            rcases List.mem_cons.mp ht with ht | ht
            · cases ht
              exact .due (List.mem_append_right _ List.mem_cons_self) (Or.inr rfl)
            · exact .timed ⟨t, ht⟩ hhalt
        | begins ha hdelay => exact .begins ha hdelay

theorem Armed.release (h : r.Armed actions) (gate : String) : (r.release gate).Armed actions := by
  unfold Rehearsal.release
  generalize r.held.filter (·.1 == gate) = freed
  have hopen : r.Rests
      { r with openGates := gate :: r.openGates, held := r.held.filter (·.1 != gate) } :=
    ⟨rfl, rfl, rfl, rfl⟩
  generalize ({ r with openGates := gate :: r.openGates, held := r.held.filter (·.1 != gate) } :
    Rehearsal) = opened at hopen
  have harmed := h.rests hopen
  clear hopen
  -- The replies become due one after the other; none of them is the end of a wait.
  induction freed generalizing opened with
  | nil => exact harmed
  | cons reply rest ih => exact ih _ (harmed.push 0 (by simp))

theorem Reached.armed {o : SessionOptions} (h : r.Reached o) : r.Armed [] := by
  induction h with
  | begins r =>
      constructor
      · intro id hid
        cases hid
      · intro id ha
        cases ha
      · intro d id hd
        cases hd
      · intro id n stopped failures ht
        cases ht
  | called h hi htakes ih =>
      refine htakes.armed ih rfl (fun hhalted => ?_) id Or.inr Or.inr
      subst hhalted
      exact hi.elim
  -- What is taken was due, so what it halts was stopped, and nothing else that was due is lost.
  | @taken r r' d rest h hready hd htakes ih =>
      refine htakes.armed ih (pop_control r d rest) ?_ ?_ ?_ timed_pop
      · intro id hhalted
        exact ih.halted (hready ▸ List.mem_cons_self) hhalted
      · intro e he
        rw [pop_ready] at he
        exact hready ▸ List.mem_cons_of_mem _ he
      · intro e he
        rw [hready] at he
        rw [pop_ready]
        exact (List.mem_cons.mp he).imp_left (congrArg Due.input)
  | hopped h hready hd ih => exact ih.hop hready _
  | fired h ih => exact ih.fire
  | released h gate ih => exact ih.release gate
  | moved h time ih =>
      refine ih.mono rfl (List.Subset.refl _) ih.halted fun _ hw => ?_
      exact hw.grows (List.Subset.refl _) id

end Rehearsal

end CardImport
