import CardImport.Proofs.Command.Harmless
import CardImport.Proofs.Command.Loading
import CardImport.Proofs.Command.Orders
import CardImport.Proofs.Json.Readable
import CardImport.Proofs.Size

/-!
# Answers that commands can deal with

An answer suits a request if its body can be read and, where its status is one of success, if the
data is what the decoder of that request takes and what the command can show. A server that cannot
be reached suits every request, and so does any answer with another status; and so does a request
that is not sent.
-/

namespace CardImport

/-- Whether a value can stand in a cell of a table. -/
inductive Json.IsCell : Json → Prop
  | str (s : String) : IsCell (.str s)
  | null : IsCell .null

namespace Command

/-- Whether a reply suits a request that takes data with `P`. -/
def Suits (P : Json → Prop) : Reply → Prop
  | .answer status body =>
    ∃ data, body.data = .ok data ∧ (Retry.isSuccess status = true → P data)
  | .unreachable _ | .unsent _ => True
  | .broken _ => False

theorem Suits.mono {P Q : Json → Prop} {answer : Reply} (h : Suits P answer)
    (hPQ : ∀ data, P data → Q data) : Suits Q answer := by
  cases answer with
  | answer status body =>
      obtain ⟨data, hdata, hP⟩ := h
      exact ⟨data, hdata, fun hs => hPQ data (hP hs)⟩
  | unreachable message | unsent message => exact h
  | broken f => exact h

theorem received_of_suits {P : Json → Prop} {answer : Reply} (h : Suits P answer) (q : Request) :
    (∃ text, received q answer = .error (.transport text 0)) ∨
      ∃ r, received q answer = .ok r ∧ (r.isSuccess = true → P r.data) := by
  cases answer with
  | answer status body =>
      obtain ⟨data, hdata, hP⟩ := h
      refine Or.inr ⟨⟨status, data⟩, ?_, hP⟩
      rw [received_answer, hdata]
      rfl
  | unreachable message | unsent message => exact Or.inl ⟨_, rfl⟩
  | broken f => exact h.elim

/-- A call whose reply suits its request fails in these ways only, if it does so for a response
with data that it takes. -/
theorem failsAs_finish {α : Type} {P : Json → Prop} {Q : Failure → Prop} {c : Call α}
    {answer : Reply} (h : Suits P answer) (q : Request)
    (hunreachable : ∀ text, Q (.transport text 0))
    (haccept : ∀ r : Response, (r.isSuccess = true → P r.data) → (c.accept r).FailsAs Q) :
    FailsAs Q (c.finish (received q answer)).outcome.1 := by
  rcases received_of_suits h q with ⟨text, hr⟩ | ⟨r, hr, hP⟩
  · rw [hr]
    exact FailsAs.error (hunreachable text)
  · rw [hr]
    exact (haccept r hP).outcome

/-! ## What the requests of an import take -/

/-- Clips that an import with these options can number and show. -/
structure Manageable (o : ImportOptions) (clips : List Clip) : Prop where
  numbers : ∀ n, o.startNum = some n → ∀ p : Nat, p < clips.length → Number.Short (n + p)
  names : o.json = false → ∀ c ∈ clips, c.name.IsCell
  sizes : o.json = false → (clips.map fun c => c.totalSize.natAbs).sum < twoTo 1023

/-- A status whose progress can be shown, and whose clips can be found in the list. -/
structure Plain (status : JobStatus) : Prop where
  copied : status.bytesCopied.natAbs < twoTo 1000
  results : ∀ r ∈ status.results, r.clip.name.isKey = true
  pending : ∀ c ∈ status.pending, c.name.isKey = true

/-- The data of an answer to a batch: its code can be looked up, unless a message makes that
needless. -/
def AnswersBatch (data : Json) : Prop :=
  (Fields.getD (data.fields?.getD []) "code" (.int 0)).isKey = true ∨
    (Fields.getD (data.fields?.getD []) "errorMessage" (.str "")).truthy = true

def Fits (e : Endpoint) (o : ImportOptions) : Query → Reply → Prop
  | .clips path, answer =>
    Suits Json.Bounded answer ∧ ∀ clips, clipsIn e path answer = .ok clips → Manageable o clips
  | .takes, answer => Suits (fun _ => True) answer
  | .status, answer =>
    Suits Json.Bounded answer ∧ ∀ status, Job.told (lookIn e answer) = .ok status → Plain status
  | .submit .., answer => Suits AnswersBatch answer

open Control

theorem ofListing_of_badData {f : Failure} (h : BadData f) : OfListing f := by
  rw [OfListing, isListingFailure, show f.kind.isBadData = true from h, Bool.or_true]

variable {e : Endpoint} {answer : Reply}

/-- A listing fails as its entries are decoded, or as a request fails. -/
theorem failsAs_clipsIn (h : Suits Json.Bounded answer) (path : String) :
    FailsAs OfListing (clipsIn e path answer) := by
  refine failsAs_finish h _ (fun _ => rfl) fun r hr => ?_
  cases hs : r.isSuccess with
  | false =>
      simp only [listClips, hs]
      exact Noted.FailsAs.throw rfl
  | true =>
      simp only [listClips, hs]
      have hyields : Json.Yields OfListing Json.Bounded :=
        Json.Bounded.yields fun _ => ofListing_of_badData
      refine Noted.FailsAs.bind_lift
        ((Json.failsAs_elementsOrNone _).mono hyields.badData) fun entries hentries => ?_
      refine Noted.FailsAs.mapM fun entry hentry => ?_
      have hbounded := hyields.elements (hr hs) hentries entry hentry
      exact Noted.FailsAs.lift (hyields.failsAs_clip hbounded)

theorem failsAs_takesIn (h : Suits (fun _ => True) answer) :
    FailsAs OfListing (takesIn e answer) := by
  refine failsAs_finish h _ (fun _ => rfl) fun r hr => ?_
  simp only [Registry.list, Registry.checked]
  cases hs : r.isSuccess with
  | false => exact Noted.FailsAs.throw rfl
  | true =>
      refine Noted.FailsAs.bind (Noted.failsAs_pure r) fun r => ?_
      refine Noted.FailsAs.bind_lift
        ((Json.failsAs_elementsOrNone _).mono fun _ => ofListing_of_badData) fun entries _ => ?_
      refine Noted.FailsAs.mapM fun entry _ => ?_
      exact Noted.FailsAs.lift ((failsAs_take entry).mono fun _ => ofListing_of_badData)

theorem failsAs_told (h : Suits Json.Bounded answer) :
    FailsAs (fun f => f.isRemote = true) (Job.told (lookIn e answer)) := by
  refine failsAs_finish h _ (fun _ => rfl) fun r hr => ?_
  simp only [Job.status]
  cases hs : r.isSuccess with
  | false => exact Noted.FailsAs.throw rfl
  | true => exact failsAs_decodeStatus (hr hs)

theorem Plain.mergeable {status : JobStatus} (h : Plain status) : status.Mergeable where
  progress := Progress.exists_percentage h.copied
  results := h.results
  pending := h.pending

/-- A rejection can be told if its code can be looked up, or has a message. -/
theorem isReported_of_answers {code message : Json}
    (h : code.isKey = true ∨ message.truthy = true) (status : Int) :
    (rejected (.application code message status)).kind.isReported = true := by
  cases hmessage : message.truthy with
  | true =>
      simp only [rejected, hmessage]
      rfl
  | false =>
      have hkey := h.resolve_right (Bool.eq_false_iff.mp hmessage)
      simp only [rejected, hmessage, hkey]
      cases Job.rejection? code <;> rfl

theorem isReported_rejected (h : Suits AnswersBatch answer) (q : Request) {f : Failure}
    (hf : (Job.acceptance (received q answer)).outcome.1 = .error f) :
    (rejected f).kind.isReported = true := by
  have hfinish : Job.acceptance (received q answer) =
      (Job.start .null .null []).finish (received q answer) := by
    cases received q answer <;> rfl
  rw [hfinish] at hf
  refine failsAs_finish (Q := fun f => (rejected f).kind.isReported = true) h q (fun _ => rfl)
    (fun r hr => ?_) f hf
  simp only [Job.start, Job.acceptBatch]
  cases hs : r.isSuccess with
  | false => exact Noted.FailsAs.throw rfl
  | true =>
      have hanswers := hr hs
      simp only [AnswersBatch] at hanswers
      generalize Fields.getD (r.data.fields?.getD []) "code" (.int 0) = code at hanswers ⊢
      generalize Fields.getD (r.data.fields?.getD []) "errorMessage" (.str "") = message
        at hanswers ⊢
      cases code.equals (.int Job.accepted) with
      | true => exact Noted.failsAs_pure ()
      | false =>
          refine (Noted.failsAs_write _ _ _).bind fun _ => Noted.FailsAs.throw ?_
          exact isReported_of_answers hanswers r.status

end Command

end CardImport
