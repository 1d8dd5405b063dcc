import CardImport.Proofs.Session.Edit
import CardImport.Proofs.Session.Look
import CardImport.Proofs.Session.Run

/-!
# The states of the items

What the states of the items come from: a status that was merged, or a list that was shown. All else
leaves them alone, the operator's edits and failed requests among it.
-/

namespace CardImport

namespace Session

def states (s : Session) : List ItemState := s.items.map Item.state

theorem states_edit (s : Session) (e : Edit) : (s.edit e).1.states = s.states :=
  Items.map_state_edit s.items e

end Session

namespace Control

variable {c : Control} {i : Input}

/-- Whether an input may change the states of items: a status comes, or a list is shown. -/
inductive Restates (c : Control) : Input → Prop
  | told {id : TaskId} {r : Except Failure Response} {status : JobStatus}
      (hr : Job.told r = .ok status) : Restates c (.response (.task id) r)
  | listed {id : TaskId} : Restates c (.joined id)
  | emptied {id : TaskId} (ht : c.task? id = some (.load .created)) (hpath : c.session.path = "") :
      Restates c (.begin id)

/-- No input of a run changes the states of items. -/
def Unstated (c : Control) : List Input → Prop
  | [] => True
  | i :: rest => ¬ c.Restates i ∧ (c.step i).1.Unstated rest

theorem Turn.states {id : TaskId} {t t' : Task} {s : Session} {actions : List Action}
    (h : Turn c id i t s t' actions) (ht : c.task? id = some t) (hi : ¬ c.Restates i) :
    s.states = c.session.states := by
  have hlook : ∀ {n r}, i = .response (.task id) r → c.lookSession n r = c.session := by
    rintro n r rfl
    cases hr : Job.told r with
    | error f => exact (look_of_untold hr).1
    | ok status => exact absurd (.told hr) hi
  cases h with
  | loadEmpty hpath => exact absurd (.emptied ht hpath) hi
  | listShown | listFailed => exact absurd .listed hi
  | loadEnds | refreshEnds | pollIdle | pollGoesOn | pollBroken | pollRetries => rw [hlook rfl]
  | pollGivesUp =>
      split
      · rw [hlook rfl]
        rfl
      · rw [hlook rfl]
  | _ => rfl

theorem states_step (hi : ¬ c.Restates i) : (c.step i).1.session.states = c.session.states := by
  have hmove := move_step c i
  generalize (c.step i).1 = c', (c.step i).2 = actions at hmove ⊢
  cases hmove with
  | edited e => exact Session.states_edit c.session e
  | polled => rw [session_startPolling]
  | turned ht hturn => exact hturn.states ht hi
  | accepted ht hr => rw [session_setTask, session_startPolling]
  | _ => rfl

/-- The states of the items stay as long as no status comes and no list is shown. -/
theorem states_run {inputs : List Input} (h : c.Unstated inputs) :
    (c.run inputs).1.session.states = c.session.states := by
  induction inputs generalizing c with
  | nil => rfl
  | cons i rest ih => exact (ih h.2).trans (states_step h.1)

end Control

end CardImport
