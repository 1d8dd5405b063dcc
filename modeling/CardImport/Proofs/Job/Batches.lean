import CardImport.Job.Client
import CardImport.Proofs.Exchange
import CardImport.Proofs.Json.Nesting

/-!
# Answers to a batch

A batch is accepted by an answer with a status of success whose body is an object with the accepting
code. Any other answer, and none, is a failure that tells what came back, with one exception: a body
that is nested too deep is not put down to the server.
-/

namespace CardImport

/-- Whether a reply can be read: it is an answer with a body that is not nested too deep, or the
request could not be sent or the server not be reached. -/
def Reply.IsReadable : Reply → Prop
  | .answer _ body => ∃ data, body.data = .ok data
  | .unreachable _ | .unsent _ => True
  | .broken _ => False

namespace Job

/-- Whether a reply accepts a batch: a status of success, and an object with the accepting code. -/
def Accepts : Reply → Prop
  | .answer status body => Retry.isSuccess status = true ∧
      ∃ (fields : Fields) (code : Json), body.data = .ok (.obj fields) ∧
        fields.get? "code" = some code ∧ code.equals (.int accepted) = true
  | _ => False

/-- The code of a rejection: zero if the body is no object or has no code. -/
def codeOf (data : Json) : Json := Fields.getD (data.fields?.getD []) "code" (.int 0)

/-- Which failure tells what came back for a batch that was not accepted. -/
inductive Rejects : Reply → Failure → Prop
  /-- No answer came: the status is 0. -/
  | unreachable (message text : String) : Rejects (.unreachable message) (.transport text 0)
  | unsent (message text : String) : Rejects (.unsent message) (.transport text 0)
  | status {status : Int} (body : Body) (text : String)
      (hstatus : Retry.isSuccess status = false) :
      Rejects (.answer status body) (.transport text status)
  | code {status : Int} {body : Body} {data : Json} (message : Json)
      (hstatus : Retry.isSuccess status = true) (hbody : body.data = .ok data) :
      Rejects (.answer status body) (.application (codeOf data) message status)

theorem not_rejects_tooDeep (reply : Reply) (innermost : Container) :
    ¬ Rejects reply (.tooDeep innermost) := nofun

theorem codeOf_obj (fields : Fields) :
    codeOf (.obj fields) = (fields.get? "code").getD (.int 0) := rfl

theorem accepts_answer_iff {status : Int} {body : Body} {data : Json}
    (hbody : body.data = .ok data) : Accepts (.answer status body) ↔
      Retry.isSuccess status = true ∧ (codeOf data).equals (.int accepted) = true := by
  constructor
  · rintro ⟨hs, fields, code, hfields, hget, hequal⟩
    cases hbody.symm.trans hfields
    rw [codeOf_obj, hget]
    exact ⟨hs, hequal⟩
  · rintro ⟨hs, hequal⟩
    have hzero : ¬ (Json.int 0).equals (.int accepted) = true := by decide
    cases data with
    | obj fields =>
        rw [codeOf_obj] at hequal
        cases hget : Fields.get? fields "code" with
        | none =>
            rw [hget] at hequal
            exact absurd hequal hzero
        | some code =>
            rw [hget] at hequal
            exact ⟨hs, fields, code, hbody, hget, hequal⟩
    | _ => exact absurd hequal hzero

theorem outcome_acceptBatch (status : Int) (data : Json) :
    (acceptBatch ⟨status, data⟩).outcome.1 =
      if Retry.isSuccess status then
        if (codeOf data).equals (.int accepted) then .ok ()
        else .error (.application (codeOf data)
          (Fields.getD (data.fields?.getD []) "errorMessage" (.str "")) status)
      else .error (badStatus status) := by
  unfold acceptBatch codeOf Response.isSuccess
  by_cases hs : Retry.isSuccess status = true
  · rw [if_pos hs]
    simp only [hs]
    by_cases hcode : (Fields.getD (data.fields?.getD []) "code" (.int 0)).equals
        (.int accepted) = true
    · rw [if_pos hcode]
      simp only [hcode]
      rfl
    · rw [if_neg hcode]
      rw [Bool.not_eq_true] at hcode
      simp only [hcode]
      rfl
  · rw [if_neg hs]
    rw [Bool.not_eq_true] at hs
    simp only [hs]
    rfl

/-- A batch is accepted exactly if the reply does so. Any other end of it tells what came back,
exactly if the reply can be read. -/
theorem outcome_acceptance (request : Request) (reply : Reply) :
    (Accepts reply ∧
      (acceptance (Exchange.receive request reply).outcome.1).outcome.1 = .ok ()) ∨
    ¬ Accepts reply ∧ ∃ f,
      (acceptance (Exchange.receive request reply).outcome.1).outcome.1 = .error f ∧
        (Rejects reply f ↔ reply.IsReadable) := by
  cases reply with
  | unreachable message =>
      exact Or.inr ⟨id, _, rfl, iff_of_true (.unreachable message _) trivial⟩
  | unsent message => exact Or.inr ⟨id, _, rfl, iff_of_true (.unsent message _) trivial⟩
  | broken f => exact Or.inr ⟨id, f, rfl, iff_of_false nofun id⟩
  | answer status body =>
      rw [Exchange.outcome_receive_answer]
      cases hbody : body.data with
      | error f =>
          obtain ⟨innermost, rfl⟩ := Body.eq_tooDeep_of_data hbody
          have hunread : ¬ (Reply.answer status body).IsReadable := by
            rintro ⟨data, hdata⟩
            cases hbody.symm.trans hdata
          have hnot : ¬ Accepts (.answer status body) := by
            rintro ⟨-, fields, code, hfields, -⟩
            exact hunread ⟨_, hfields⟩
          exact Or.inr ⟨hnot, _, rfl, iff_of_false (not_rejects_tooDeep _ innermost) hunread⟩
      | ok data =>
          have hread : (Reply.answer status body).IsReadable := ⟨data, hbody⟩
          show Accepts _ ∧ (acceptBatch ⟨status, data⟩).outcome.1 = _ ∨
            ¬ Accepts _ ∧ ∃ f, (acceptBatch ⟨status, data⟩).outcome.1 = _ ∧ _
          rw [outcome_acceptBatch, accepts_answer_iff hbody]
          -- A success needs the code of an accepted batch as well; any other answer rejects it.
          by_cases hs : Retry.isSuccess status = true
          · rw [if_pos hs]
            by_cases hcode : (codeOf data).equals (.int accepted) = true
            · rw [if_pos hcode]
              exact Or.inl ⟨⟨hs, hcode⟩, rfl⟩
            · rw [if_neg hcode]
              exact Or.inr ⟨fun h => hcode h.2, _, rfl, iff_of_true (.code _ hs hbody) hread⟩
          · rw [if_neg hs]
            have hrejects : Rejects (.answer status body) (badStatus status) :=
              .status body _ (Bool.eq_false_iff.mpr hs)
            exact Or.inr ⟨fun h => hs h.1, _, rfl, iff_of_true hrejects hread⟩

end Job

end CardImport
