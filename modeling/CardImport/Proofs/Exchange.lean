import CardImport.Http.Body

/-!
# Requests that are sent, and what is received

A request that the HTTP library refuses is not sent, and nothing comes back for it but that refusal.
Of an answer everything is received, unless its body cannot be read.
-/

namespace CardImport

namespace Libraries

theorem carry_of_sends {l : Libraries} {request : Request}
    (h : l.sends request = true) (answer : Reply) : l.carry request answer = answer := by
  rw [carry, Option.isNone_iff_eq_none.mp h]

/-- A request is sent, and with finite numbers only, or it is not and nothing else comes back. -/
theorem sent_or_unsent {l : Libraries} (h : l.SendsFinite) (request : Request) (answer : Reply) :
    [request].filter l.sends = [request] ∧ request.body.isFinite = true ∨
      [request].filter l.sends = [] ∧ ∃ message, l.carry request answer = .unsent message := by
  cases hrefused : l.refusal? request with
  | none =>
      have hsends : l.sends request = true := by rw [sends, hrefused]; rfl
      exact Or.inl ⟨List.filter_cons_of_pos hsends, h request hsends⟩
  | some message =>
      have hsends : ¬ l.sends request = true := by rw [sends, hrefused]; exact Bool.false_ne_true
      refine Or.inr ⟨List.filter_cons_of_neg hsends, message, ?_⟩
      rw [carry, hrefused]

end Libraries

namespace Http

/-- The libraries of this program: requests are sent if their numbers are finite. -/
def ownLibraries : Libraries := { refusal? := refusal? }

theorem sendsFinite_ownLibraries : ownLibraries.SendsFinite := by
  intro r hsends
  change (refusal? r).isNone = true at hsends
  cases hfinite : r.body.isFinite with
  | true => rfl
  | false =>
      rw [refusal?, hfinite] at hsends
      cases hsends

end Http

namespace Exchange

theorem outcome_receive_answer (request : Request) (status : Int) (body : Body) :
    (receive request (.answer status body)).outcome.1 =
      (body.data).map (Response.mk status) := by
  cases hbody : body.data with
  | error f =>
      simp only [receive, hbody]
      rfl
  | ok data =>
      simp only [receive, hbody]
      rfl

end Exchange

end CardImport
