import CardImport.Proofs.Session.Run
import CardImport.Rehearsal.Schedule

/-!
# The actions of a step

A rehearsal does the actions of a step one after the other. An answer that comes at once adds the
actions of the step that takes it; that step sends no request, so the actions come to an end, and
with enough fuel it does not matter how much there is.
-/

namespace CardImport

namespace Control

/-- Who takes an answer asks for nothing in the same step. -/
theorem not_ask_of_response (c : Control) (asker : Sender) (r : Except Failure Response)
    (sender : Sender) (q : Query) : .ask sender q ∉ (c.step (.response asker r)).2 := by
  have hmove := move_step c (.response asker r)
  generalize hi : Input.response asker r = i at hmove ⊢
  generalize (c.step i).1 = c', (c.step i).2 = actions at hmove ⊢
  cases hmove with
  | turned ht hturn =>
      cases hturn with
      | clipsListed | takesListed | loadEnds | submitRefused | refreshEnds | pollIdle | pollGoesOn
      | pollBroken | pollGivesUp | pollRetries => simp
      | _ => cases hi
  | accepted =>
      intro ha
      rcases List.mem_append.mp ha with hnote | hpoll
      · exact not_ask_notes _ sender q hnote
      · exact not_ask_startPolling c sender q hpoll
  | dropped => exact List.not_mem_nil
  | started hfresh => cases hfresh <;> cases hi
  | _ => cases hi

end Control

namespace Rehearsal

/-! ## One action -/

def act (r : Rehearsal) : Action → Rehearsal × List Action
  | .note e => (r.record (.note e), [])
  | .begin id => (r.push 0 (.begin id), [])
  | .beginLeg id leg => (r.push 0 (.beginLeg id leg), [])
  | .join id => (r.push joinHops (.joined id), [])
  | .wait id delay => (r.startWait id delay, [])
  | .halt id => (r.haltWait id, [])
  | .remember path => ({ r with memory := r.memory.map (·.setLastPath path) }, [])
  | .merged _ => (r.record r.merged, [])
  | .ask sender q =>
    match r.send sender q with
    | (r, none) => (r, [])
    | (r, some result) =>
      ({ r with control := (r.control.step (.response sender result)).1 },
        (r.control.step (.response sender result)).2)

/-- All actions are done one after the other. -/
theorem perform_cons (fuel : Nat) (r : Rehearsal) (a : Action) (rest : List Action) :
    perform (fuel + 1) r (a :: rest) = perform fuel (r.act a).1 ((r.act a).2 ++ rest) := by
  cases a with
  | ask sender q =>
      simp only [perform, act]
      rcases r.send sender q with ⟨r', _ | result⟩ <;> rfl
  | _ => rfl

theorem perform_nil (fuel : Nat) (r : Rehearsal) : perform fuel r [] = r := by
  cases fuel <;> rfl

/-! ## What an action keeps -/

/-- Nothing that the loop looks at is different: records, the server and the memory are. -/
structure Rests (r r' : Rehearsal) : Prop where
  control : r'.control = r.control
  clock : r'.clock = r.clock
  ready : r'.ready = r.ready
  timers : r'.timers = r.timers

theorem Rests.refl (r : Rehearsal) : r.Rests r := ⟨rfl, rfl, rfl, rfl⟩

theorem Rests.trans {r r' r'' : Rehearsal} (h : r.Rests r') (h' : r'.Rests r'') : r.Rests r'' :=
  ⟨h'.control.trans h.control, h'.clock.trans h.clock, h'.ready.trans h.ready,
    h'.timers.trans h.timers⟩

theorem rests_record (r : Rehearsal) (e : Event) : r.Rests (r.record e) := ⟨rfl, rfl, rfl, rfl⟩

theorem rests_recordNotes (r : Rehearsal) (entries : List Entry) :
    r.Rests (r.recordNotes entries) := by
  induction entries generalizing r with
  | nil => exact .refl r
  | cons e rest ih => exact (rests_record r _).trans (ih _)

theorem rests_send (r : Rehearsal) (sender : Sender) (q : Query) :
    r.Rests (r.send sender q).1 := by
  unfold send
  simp only
  have hsent : ∀ script entries, r.Rests
      ({ r.record (.request (q.request r.endpoint)) with script }.recordNotes entries) := by
    intro script entries
    have hscript : r.Rests { r.record (.request (q.request r.endpoint)) with script } :=
      ⟨rfl, rfl, rfl, rfl⟩
    exact hscript.trans (rests_recordNotes _ entries)
  split
  · exact hsent _ _
  · split
    · exact hsent _ _
    · exact (hsent _ _).trans ⟨rfl, rfl, rfl, rfl⟩

/-- Inputs became due and timers were started; what was due before still is, in its order. -/
structure Grows (r r' : Rehearsal) : Prop where
  control : r'.control = r.control
  clock : r'.clock = r.clock
  ready : r.ready <+: r'.ready

theorem Rests.grows {r r' : Rehearsal} (h : r.Rests r') : r.Grows r' :=
  ⟨h.control, h.clock, h.ready ▸ List.prefix_refl _⟩

theorem Grows.trans {r r' r'' : Rehearsal} (h : r.Grows r') (h' : r'.Grows r'') : r.Grows r'' :=
  ⟨h'.control.trans h.control, h'.clock.trans h.clock, List.IsPrefix.trans h.ready h'.ready⟩

theorem grows_push (r : Rehearsal) (hops : Nat) (i : Input) : r.Grows (r.push hops i) :=
  ⟨rfl, rfl, List.prefix_append _ _⟩

/-- A wait is over soon, or has a timer, unless there is no time to wait for. -/
theorem startWait_cases (r : Rehearsal) (id : TaskId) (delay : Number) :
    (∃ i, (i = .elapsed id ∨ i = .halted id ∧ r.isStopped id = true) ∧
      r.startWait id delay = (r.record (.wait delay)).push shortWaitHops i) ∨
    (r.isStopped id = false ∧ ∃ time, r.startWait id delay =
      { r.record (.wait delay) with timers := insertTimer time id r.timers }) ∨
    Control.checkDelay delay ≠ .ok () ∧ r.startWait id delay = r.record (.wait delay) := by
  unfold startWait Control.checkDelay
  simp only
  split
  · exact Or.inl ⟨_, Or.inl rfl, rfl⟩
  · split
    · rename_i hstopped
      exact Or.inl ⟨_, Or.inr ⟨rfl, hstopped⟩, rfl⟩
    · rename_i hlive
      cases delay.toBinary with
      | ok x => exact Or.inr (Or.inl ⟨Bool.eq_false_iff.mpr hlive, _, rfl⟩)
      | error e =>
          refine Or.inr (Or.inr ⟨?_, rfl⟩)
          intro h
          cases h

theorem grows_startWait (r : Rehearsal) (id : TaskId) (delay : Number) :
    r.Grows (r.startWait id delay) := by
  have hrecord := (rests_record r (.wait delay)).grows
  rcases startWait_cases r id delay with ⟨i, -, h⟩ | ⟨-, time, h⟩ | ⟨-, h⟩ <;> rw [h]
  · exact hrecord.trans (grows_push _ _ _)
  · exact hrecord.trans ⟨rfl, rfl, List.prefix_refl _⟩
  · exact hrecord

theorem grows_haltWait (r : Rehearsal) (id : TaskId) : r.Grows (r.haltWait id) := by
  unfold haltWait
  split
  · exact grows_push _ _ _
  · exact (Rests.refl r).grows

section Keeps

variable {P : Rehearsal → Prop} (hgrows : ∀ {r r'}, r.Grows r' → P r → P r')
  (hstep : ∀ {r : Rehearsal} {i}, P r → P { r with control := (r.control.step i).1 })
include hgrows hstep

theorem act_keeps {r : Rehearsal} (h : P r) (a : Action) : P (r.act a).1 := by
  cases a with
  | note e => exact hgrows (rests_record r _).grows h
  | begin id => exact hgrows (grows_push r _ _) h
  | beginLeg id leg => exact hgrows (grows_push r _ _) h
  | join id => exact hgrows (grows_push r _ _) h
  | wait id delay => exact hgrows (grows_startWait r id delay) h
  | halt id => exact hgrows (grows_haltWait r id) h
  | remember path => exact hgrows (r := r) ⟨rfl, rfl, List.prefix_refl _⟩ h
  | merged status => exact hgrows (rests_record r _).grows h
  | ask sender q =>
      have hsent := hgrows (rests_send r sender q).grows h
      simp only [act]
      rcases hq : r.send sender q with ⟨r', _ | result⟩ <;> rw [hq] at hsent
      · exact hsent
      · exact hstep hsent

/-- What neither records nor due inputs nor steps undo holds after the actions of a step. -/
theorem perform_keeps (fuel : Nat) {r : Rehearsal} (h : P r) (actions : List Action) :
    P (perform fuel r actions) := by
  induction fuel generalizing r actions with
  | zero => exact h
  | succ fuel ih =>
      cases actions with
      | nil => exact h
      | cons a rest =>
          rw [perform_cons]
          exact ih (act_keeps hgrows hstep h a) _

end Keeps

/-! ## All actions of a step -/

/-- `Performs r actions r'`: all actions are done, with those that they ask for, and leave `r'`. -/
inductive Performs : Rehearsal → List Action → Rehearsal → Prop
  | nil (r : Rehearsal) : Performs r [] r
  | cons {r r' : Rehearsal} {a : Action} {rest : List Action}
      (h : Performs (r.act a).1 ((r.act a).2 ++ rest) r') : Performs r (a :: rest) r'

/-- `Takes r i r'`: the input is taken, and all actions of the step are done. -/
def Takes (r : Rehearsal) (i : Input) (r' : Rehearsal) : Prop :=
  Performs { r with control := (r.control.step i).1 } (r.control.step i).2 r'

/-- With enough fuel all actions are done, and more makes no difference. -/
theorem Performs.perform_eq {r r' : Rehearsal} {actions : List Action}
    (h : Performs r actions r') : ∃ n, ∀ fuel, n ≤ fuel → perform fuel r actions = r' := by
  induction h with
  | nil r => exact ⟨0, fun fuel _ => perform_nil fuel r⟩
  | cons h ih =>
      obtain ⟨n, hn⟩ := ih
      refine ⟨n + 1, fun fuel hfuel => ?_⟩
      obtain ⟨more, rfl⟩ : ∃ more, fuel = more + 1 := ⟨fuel - 1, by omega⟩
      rw [perform_cons]
      exact hn more (by omega)

theorem Takes.take_eq {r r' : Rehearsal} {i : Input} (h : r.Takes i r') :
    ∃ n, ∀ fuel, n ≤ fuel → r.take fuel i = r' :=
  Performs.perform_eq h

/-- Actions without a request among them. -/
def Silent (actions : List Action) : Prop := ∀ sender q, .ask sender q ∉ actions

theorem act_of_silent {a : Action} (h : Silent [a]) (r : Rehearsal) : (r.act a).2 = [] := by
  cases a with
  | ask sender q => exact absurd List.mem_cons_self (h sender q)
  | _ => rfl

theorem silent_act (r : Rehearsal) (a : Action) : Silent (r.act a).2 := by
  intro asker q'
  cases a with
  | ask sender q =>
      simp only [act]
      rcases r.send sender q with ⟨r', _ | result⟩
      · exact List.not_mem_nil
      · exact r'.control.not_ask_of_response sender result asker q'
  | _ => exact List.not_mem_nil

/-- Actions without a request ask for no others. -/
theorem performs_silent {first : List Action} (h : Silent first) (r : Rehearsal) :
    ∃ r₁, ∀ {rest r'}, Performs r₁ rest r' → Performs r (first ++ rest) r' := by
  induction first generalizing r with
  | nil => exact ⟨r, id⟩
  | cons a later ih =>
      have hlater : Silent later := fun sender q ha => h sender q (List.mem_cons_of_mem _ ha)
      have ha : (r.act a).2 = [] := by
        refine act_of_silent (fun sender q hq => h sender q ?_) r
        rw [List.mem_singleton.mp hq]
        exact List.mem_cons_self
      obtain ⟨r₁, hr₁⟩ := ih hlater (r.act a).1
      refine ⟨r₁, fun hrest => .cons ?_⟩
      rw [ha]
      exact hr₁ hrest

/-- The actions of a step come to an end. -/
theorem performs_total (r : Rehearsal) (actions : List Action) : ∃ r', Performs r actions r' := by
  induction actions generalizing r with
  | nil => exact ⟨r, .nil r⟩
  | cons a rest ih =>
      obtain ⟨r₁, hr₁⟩ := performs_silent (silent_act r a) (r.act a).1
      obtain ⟨r', hr'⟩ := ih r₁
      exact ⟨r', .cons (hr₁ hr')⟩

theorem takes_total (r : Rehearsal) (i : Input) : ∃ r', r.Takes i r' := performs_total _ _

end Rehearsal

end CardImport
