import CardImport.Proofs.Rehearsal.Waiting

/-!
# One poll at a time

When a session is closed, its poll ends while the clock stands still: the wait is ended by the step
that closes the session, and the loop takes the end of a wait with all that is due. Together with
what holds of polls in any order of inputs, this is what a session promises about its poll.
-/

namespace CardImport

namespace Rehearsal

/-! ## The clock stands still -/

theorem take_clock (fuel : Nat) (r : Rehearsal) (i : Input) : (r.take fuel i).clock = r.clock := by
  refine perform_keeps (P := fun r' => r'.clock = r.clock) ?_ id fuel ?_ _
  · intro r₁ r₂ hg hclock
    exact hg.clock.trans hclock
  · rfl

theorem settle_clock (fuel : Nat) (r : Rehearsal) : (settle fuel r).clock = r.clock := by
  induction fuel generalizing r with
  | zero => rfl
  | succ fuel ih =>
      unfold settle
      cases hready : r.ready with
      | nil => rfl
      | cons d rest =>
          simp only
          split
          · rw [ih, take_clock]
            exact pop_clock r d rest
          · exact ih _

/-! ## What is due is taken -/

/-- What neither due inputs nor steps undo holds after an input was taken. -/
theorem Takes.keeps {P : Rehearsal → Prop} (hgrows : ∀ {r r'}, r.Grows r' → P r → P r')
    (hstep : ∀ {r : Rehearsal} {i}, P r → P { r with control := (r.control.step i).1 })
    {r r' : Rehearsal} {i : Input} (h : r.Takes i r')
    (hP : P { r with control := (r.control.step i).1 }) : P r' := by
  obtain ⟨n, hn⟩ := h.take_eq
  rw [← hn n (Nat.le_refl n)]
  exact perform_keeps hgrows hstep n hP _

theorem isDone_take (fuel : Nat) {r : Rehearsal} {id : TaskId} {i : Input}
    (h : (r.control.step i).1.isDone id = true) : (r.take fuel i).control.isDone id = true := by
  refine perform_keeps (P := fun r' => r'.control.isDone id = true) ?_ ?_ fuel h _
  · intro r₁ r₂ hg hdone
    rwa [hg.control]
  · intro r₁ i hdone
    exact Control.isDone_run hdone [i]

theorem isDone_settle (fuel : Nat) {r : Rehearsal} {id : TaskId}
    (h : r.control.isDone id = true) : (settle fuel r).control.isDone id = true := by
  induction fuel generalizing r with
  | zero => exact h
  | succ fuel ih =>
      unfold settle
      cases hready : r.ready with
      | nil => exact h
      | cons d rest =>
          simp only
          split
          · have hpop : (r.pop d rest).control.isDone id = true := by rwa [pop_control]
            exact ih (isDone_take fuel (Control.isDone_run hpop [d.input]))
          · exact ih h

/-- The loop takes the first input that is due, or lets it hop. -/
theorem settle_step {r : Rehearsal} {d : Due} {rest : List Due} (hready : r.ready = d :: rest) :
    ∃ r' n, (∀ fuel, n ≤ fuel → settle (fuel + 1) r = settle fuel r') ∧
      (d.hops = 0 ∧ (r.pop d rest).Takes d.input r' ∨
        d.hops ≠ 0 ∧
          r' = ({ r with ready := rest } : Rehearsal).push (d.hops - 1) d.input) := by
  by_cases hd : d.hops = 0
  · obtain ⟨r', htakes⟩ := takes_total (r.pop d rest) d.input
    obtain ⟨n, hn⟩ := htakes.take_eq
    refine ⟨r', n, fun fuel hfuel => ?_, Or.inl ⟨hd, htakes⟩⟩
    rw [← hn fuel hfuel]
    simp only [settle, hready, if_pos hd]
    rfl
  · refine ⟨_, 0, fun fuel _ => ?_, Or.inr ⟨hd, rfl⟩⟩
    simp only [settle, hready, if_neg hd]

/-- The end of the wait of a poll is due in a place of the queue, after so many hops. -/
def EndDue (r : Rehearsal) (id : TaskId) (hops place : Nat) : Prop :=
  ∃ d, r.ready[place]? = some d ∧ d.hops = hops ∧ d.input.EndsWait id

theorem endDue_of_kept {r : Rehearsal} {id : TaskId} {d : Due} {rest : List Due} {place : Nat}
    (hrest : rest <+: r.ready) (hd : rest[place]? = some d) (hend : d.input.EndsWait id) :
    r.EndDue id d.hops place := by
  refine ⟨d, ?_, rfl, hend⟩
  obtain ⟨later, hlater⟩ := hrest
  rw [← hlater, List.getElem?_append_left (List.getElem?_eq_some_iff.mp hd).1, hd]

/-- What is in front of the end of the wait is taken or goes behind it. -/
theorem done_of_later {r : Rehearsal} {id : TaskId} {hops place : Nat}
    (h : r.control.Halting id) (hdue : r.EndDue id hops (place + 1))
    (hlater : ∀ {r' : Rehearsal}, r'.control.Halting id → r'.EndDue id hops place →
      ∃ n, ∀ fuel, n ≤ fuel → (settle fuel r').control.isDone id = true) :
    ∃ n, ∀ fuel, n ≤ fuel → (settle fuel r).control.isDone id = true := by
  obtain ⟨d, hd, rfl, hend⟩ := hdue
  cases hready : r.ready with
  | nil => simp [hready] at hd
  | cons e rest =>
      rw [hready, List.getElem?_cons_succ] at hd
      obtain ⟨r', n, hsettle, hstep⟩ := settle_step hready
      have hkept : r'.control.Halting id ∧ rest <+: r'.ready := by
        rcases hstep with ⟨-, htakes⟩ | ⟨-, rfl⟩
        · refine htakes.keeps (P := fun r => r.control.Halting id ∧ rest <+: r.ready) ?_ ?_ ?_
          · rintro r₁ r₂ hg ⟨hh, hrest⟩
            rw [hg.control]
            exact ⟨hh, List.IsPrefix.trans hrest hg.ready⟩
          · rintro r₁ i ⟨hh, hrest⟩
            exact ⟨(hh.step i).1, hrest⟩
          · refine ⟨(Control.Halting.step (by simpa using h) e.input).1, ?_⟩
            simp
        · exact ⟨h, List.prefix_append rest _⟩
      obtain ⟨m, hm⟩ := hlater hkept.1 (endDue_of_kept hkept.2 hd hend)
      refine ⟨max n m + 1, fun fuel hfuel => ?_⟩
      obtain ⟨more, rfl⟩ : ∃ more, fuel = more + 1 := ⟨fuel - 1, by omega⟩
      rw [hsettle more (by omega)]
      exact hm more (by omega)

theorem done_of_front {r : Rehearsal} {id : TaskId} (h : r.control.Halting id)
    (hdue : r.EndDue id 0 0) :
    ∃ n, ∀ fuel, n ≤ fuel → (settle fuel r).control.isDone id = true := by
  obtain ⟨d, hd, hhops, hend⟩ := hdue
  cases hready : r.ready with
  | nil => simp [hready] at hd
  | cons e rest =>
      rw [hready] at hd
      obtain rfl : e = d := Option.some.inj hd
      refine ⟨1, fun fuel hfuel => ?_⟩
      obtain ⟨more, rfl⟩ : ∃ more, fuel = more + 1 := ⟨fuel - 1, by omega⟩
      have hpop : (r.pop e rest).control.Halting id := by rwa [pop_control]
      simp only [settle, hready, if_pos hhops]
      exact isDone_settle more (isDone_take more ((hpop.step e.input).2 hend))

/-- The loop comes to the end of the wait: by induction on how often it still hops, and for each of
that on its place in the queue. -/
theorem done_of_endDue {r : Rehearsal} {id : TaskId} {hops place : Nat}
    (h : r.control.Halting id) (hdue : r.EndDue id hops place) :
    ∃ n, ∀ fuel, n ≤ fuel → (settle fuel r).control.isDone id = true := by
  induction hops generalizing r place with
  | zero =>
      induction place generalizing r with
      | zero => exact done_of_front h hdue
      | succ place ih => exact done_of_later h hdue fun h' hdue' => ih h' hdue'
  | succ hops ihops =>
      induction place generalizing r with
      | zero =>
          obtain ⟨d, hd, hhops, hend⟩ := hdue
          cases hready : r.ready with
          | nil => simp [hready] at hd
          | cons e rest =>
              rw [hready] at hd
              obtain rfl : e = d := Option.some.inj hd
              have hhop : (({ r with ready := rest } : Rehearsal).push hops e.input).EndDue id
                  hops rest.length := ⟨⟨hops, e.input⟩, by simp [push], rfl, hend⟩
              obtain ⟨n, hn⟩ := ihops (r := ({ r with ready := rest } : Rehearsal).push hops e.input)
                h hhop
              refine ⟨n + 1, fun fuel hfuel => ?_⟩
              obtain ⟨more, rfl⟩ : ∃ more, fuel = more + 1 := ⟨fuel - 1, by omega⟩
              simp only [settle, hready, hhops, Nat.succ_ne_zero, if_false, Nat.add_sub_cancel]
              exact hn more (by omega)
      | succ place ih => exact done_of_later h hdue fun h' hdue' => ih h' hdue'

/-- Once all that is due was taken, a poll that was stopped while it waited is done. -/
theorem Reached.done_of_halting {o : SessionOptions} {r : Rehearsal} (h : r.Reached o)
    {id : TaskId} (hhalting : r.control.Halting id) :
    ∃ n, ∀ fuel, n ≤ fuel → (settle fuel r).control.isDone id = true := by
  have hcases := hhalting
  rcases hcases with hdone | ⟨n, failures, ht⟩
  · exact ⟨0, fun fuel _ => isDone_settle fuel hdone⟩
  · cases h.armed.wakes ht with
    | due hd hend =>
        obtain ⟨place, hplace⟩ := List.getElem?_of_mem hd
        exact done_of_endDue hhalting ⟨_, hplace, rfl, hend⟩
    | timed _ hhalt => cases hhalt rfl
    | begins ha _ => cases ha

/-- Closing the session ends a waiting poll while the clock stands still: once all that is due was
taken, the poll is done. -/
theorem Reached.done_of_closes {o : SessionOptions} {r : Rehearsal} (h : r.Reached o) {i : Input}
    (hi : i.Closes) {id : TaskId} (hhalting : (r.control.step i).1.Halting id) :
    ∃ n, ∀ fuel steps, n ≤ fuel → n ≤ steps →
      (settle steps (r.take fuel i)).control.isDone id = true ∧
        (settle steps (r.take fuel i)).clock = r.clock := by
  obtain ⟨r', htakes⟩ := takes_total r i
  obtain ⟨n, hn⟩ := htakes.take_eq
  have hhalting' : r'.control.Halting id := by
    refine htakes.keeps (P := fun r => r.control.Halting id) ?_ ?_ hhalting
    · intro r₁ r₂ hg hh
      rwa [hg.control]
    · intro r₁ i hh
      exact (hh.step i).1
  obtain ⟨m, hm⟩ := (h.called hi.isCall htakes).done_of_halting hhalting'
  refine ⟨max n m, fun fuel steps hfuel hsteps => ⟨?_, ?_⟩⟩
  · rw [hn fuel (by omega)]
    exact hm steps (by omega)
  · rw [settle_clock, take_clock]

end Rehearsal

namespace Control

/-! ## The poll of a session -/

/-- In a run a poll was created under the number that the session still has, and it has not
ended. -/
def LivePoll (c : Control) (inputs : List Input) (id : TaskId) : Prop :=
  c.PollCreated inputs id (c.run inputs).1.session.number ∧ (c.run inputs).1.isDone id = false

/-- What closing a session of these options with an input makes of a poll that waits: it asks for
nothing any more, it is told unless it was before, the end of its wait ends it, and in every
rehearsal this is due before the clock moves. -/
structure EndedBy (o : SessionOptions) (c : Control) (i : Input) (id : TaskId) (stopped : Bool) :
    Prop where
  silent : ∀ after q, .ask (.task id) q ∉ ((c.step i).1.run after).2
  told : stopped = false → .halt id ∈ (c.step i).2
  ends : ∀ after, (∃ j ∈ after, j.EndsWait id) → ((c.step i).1.run after).1.isDone id = true
  prompt : ∀ r : Rehearsal, r.Reached o → r.control = c →
    ∃ n, ∀ fuel steps, n ≤ fuel → n ≤ steps →
      (Rehearsal.settle steps (r.take fuel i)).control.isDone id = true ∧
        (Rehearsal.settle steps (r.take fuel i)).clock = r.clock

theorem LivePoll.poller {o : SessionOptions} {inputs : List Input} {id : TaskId}
    (h : o.begin.LivePoll inputs id) : (o.begin.run inputs).1.poller = some id := by
  obtain ⟨hcreated, hlive⟩ := h
  obtain ⟨stopped, stage, ht⟩ := hcreated.task?
  exact (retiring_run o inputs).poller_of_current ht hlive

theorem endedBy_of_closes {o : SessionOptions} {c : Control} (hr : c.Retiring) {id : TaskId}
    {n failures : Nat} {stopped : Bool} (ht : c.task? id = some (.poll n stopped (.waiting failures)))
    {i : Input} (hi : i.Closes) : EndedBy o c i id stopped := by
  have hp : stopped = false → c.poller = some id := by
    rintro rfl
    rcases hr.live ht (by rw [isDone_of_task? ht]; rfl) with hp | hstopped
    · exact hp
    · cases hstopped
  have hstopped : (c.step i).1.task? id = some (.poll n true (.waiting failures)) := by
    cases stopped with
    | false => exact stopped_of_closes ht (hp rfl) hi
    | true =>
        obtain ⟨t', ht', hb⟩ := (move_step c i).became ht
        cases hb with
        | same => exact ht'
        | stopped => exact ht'
        | turned hturn => exact absurd hi hturn.not_closes
  have hhalting : (c.step i).1.Halting id := Or.inr ⟨n, failures, hstopped⟩
  refine ⟨fun after q => not_ask_of_stopped hstopped after q,
    fun hlive => halt_of_closes (hp hlive) hi, fun after hends => hhalting.isDone_run hends, ?_⟩
  rintro r hreached rfl
  exact hreached.done_of_closes hi hhalting

/-- At any time a session has at most one live poll, which `startPolling` hands on. A poll asks only
under the number that it was created with, has one request on its way at most, and ends at once when
the session is closed while it waits. -/
theorem one_live_poll (o : SessionOptions) (inputs : List Input) :
    let c := (o.begin.run inputs).1
    (∀ id, o.begin.LivePoll inputs id → c.startPolling = (c, id, [])) ∧
    (∀ id id', o.begin.LivePoll inputs id → o.begin.LivePoll inputs id' → id = id') ∧
    (∀ id n, o.begin.PollCreated inputs id n →
      (∀ i q, .ask (.task id) q ∈ (c.step i).2 → n = c.session.number) ∧
      o.begin.inFlight id 0 inputs ≤ 1 ∧
      ∀ stopped failures, c.task? id = some (.poll n stopped (.waiting failures)) →
        ∀ i : Input, i.Closes → EndedBy o c i id stopped) := by
  intro c
  refine ⟨fun id h => startPolling_of_live h.poller h.2, fun id id' h h' => ?_,
    fun id n h => ⟨fun i q ha => ?_, inFlight_le_one o inputs id, ?_⟩⟩
  · exact Option.some.inj (h.poller.symm.trans h'.poller)
  · obtain ⟨stopped, stage, ht⟩ := h.task?
    exact ((move_step c i).poll_of_asks ht ha).1
  · intro stopped failures ht i hi
    exact endedBy_of_closes (retiring_run o inputs) ht hi

/-- A rehearsal in which the first poll of a session begins and waits. -/
theorem reached_first_wait (o : SessionOptions) (endpoint : Endpoint) :
    ∃ r : Rehearsal, r.Reached o ∧ r.control = (o.begin.run [.startPolling, .begin 0]).1 := by
  have hstarted : Rehearsal.Takes { endpoint, control := o.begin } .startPolling
      { endpoint, control := o.begin.startPolling.1, ready := [⟨0, .begin 0⟩] } := .cons (.nil _)
  have hfirst : Rehearsal.Reached o
      { endpoint, control := o.begin.startPolling.1, ready := [⟨0, .begin 0⟩] } :=
    .called (i := .startPolling) (.begins { endpoint }) trivial hstarted
  have hactions : (o.begin.startPolling.1.step (.begin 0)).2 = [.wait 0 o.pollInterval] := by
    show (waitPoll o.begin.startPolling.1 0 0 false 0).2 = _
    rw [waitPoll_eq]
    rfl
  have hbegun : Rehearsal.Takes { endpoint, control := o.begin.startPolling.1 } (.begin 0)
      (Rehearsal.startWait
        { endpoint, control := (o.begin.startPolling.1.step (.begin 0)).1 } 0 o.pollInterval) := by
    unfold Rehearsal.Takes
    rw [hactions]
    exact .cons (.nil _)
  refine ⟨_, .taken hfirst rfl rfl hbegun, ?_⟩
  exact (Rehearsal.grows_startWait _ _ _).control

/-- A poll that waits for its first look is the one of its session, and ends when it is closed. -/
theorem one_live_poll_waiting :
    let inputs : List Input := [.startPolling, .begin 0]
    let c := (({} : SessionOptions).begin.run inputs).1
    ({} : SessionOptions).begin.LivePoll inputs 0 ∧ c.startPolling = (c, 0, []) ∧
      c.task? 0 = some (.poll 0 false (.waiting 0)) ∧ EndedBy {} c .close 0 false ∧
      ∃ r : Rehearsal, r.Reached {} ∧ r.control = c := by
  intro inputs c
  have hcreated : ({} : SessionOptions).begin.PollCreated inputs 0 0 :=
    ⟨[], .startPolling, [.begin 0], rfl, rfl, ⟨_, _, _, rfl⟩, rfl⟩
  have hwaiting : c.task? 0 = some (.poll 0 false (.waiting 0)) := by
    have hnew : ({} : SessionOptions).begin.startPolling.1.task? 0 =
        some (.poll 0 false .created) := rfl
    simp only [c, inputs, run, step, beginTask, hnew, waitPoll_eq]
    rw [task?_setTask_self hnew, waitStage_zero]
    exact checkDelay_real _
  have hlive : ({} : SessionOptions).begin.LivePoll inputs 0 := by
    have hnumber : (({} : SessionOptions).begin.run inputs).1.session.number = 0 := by
      decide +kernel
    unfold LivePoll
    rw [hnumber]
    exact ⟨hcreated, isDone_of_task? hwaiting⟩
  obtain ⟨hstart, -, hpoll⟩ := one_live_poll {} inputs
  exact ⟨hlive, hstart 0 hlive, hwaiting, (hpoll 0 0 hcreated).2.2 false 0 hwaiting .close trivial,
    reached_first_wait {} ⟨[], .whole 5⟩⟩

end Control

end CardImport
