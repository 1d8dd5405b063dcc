import CardImport.Proofs.Failing
import CardImport.Proofs.Job.Batches

/-!
# Answers to a status request

A status is told by an answer with a status of success whose body is an object that can be decoded;
any other answer should be a failure that carries its status. This is so except for three kinds of
bodies: one that is nested too deep, one that counts as no without being an object, which passes for
an empty object, and one that asks a whole number of an infinite one.
-/

namespace CardImport

namespace Job

/-- What the client makes of an answer to a status request. -/
def answered (request : Request) (status : Int) (body : Body) : Except Failure JobStatus :=
  (Job.status.finish (Exchange.receive request (.answer status body)).outcome.1).outcome.1

/-- Whether an outcome tells of an answer what it should: a status only if the answer is an object
with a status of success, and decodes to it, and otherwise a failure that carries the status of the
answer. -/
def TellsOf (status : Int) (body : Body) : Except Failure JobStatus → Prop
  | .ok s => Retry.isSuccess status = true ∧ ∃ fields, body.data = .ok (.obj fields) ∧
      (JobStatus.decode (.obj fields)).outcome.1 = .ok s
  | .error f => ∃ text, f = .transport text status

/-- Whether data is an object or counts as yes. -/
def IsGiven (data : Json) : Prop := data.truthy = true ∨ ∃ fields, data = .obj fields

/-- Whether an answer has none of the bodies that the client does not reckon with. -/
def IsTellable (status : Int) (body : Body) : Prop :=
  ∃ data, body.data = .ok data ∧ (Retry.isSuccess status = true →
    IsGiven data ∧ ∀ f, (JobStatus.decode data).outcome.1 = .error f → ¬ Json.AsksInfinity f)

/-! ## Decoding -/

/-- Decoding fails as it does for bad data, or since a whole number is asked of an infinite one. -/
theorem malformed_or_asksInfinity {data : Json} {f : Failure}
    (h : (JobStatus.decode data).outcome.1 = .error f) :
    isMalformed f = true ∨ Json.AsksInfinity f := by
  have hyields : Json.Yields (fun f => isMalformed f = true ∨ Json.AsksInfinity f) fun _ => True :=
    Json.yields_any (fun f hf => Or.inl (isMalformed_of_badData hf)) fun f => Or.inr
  have hfails : Noted.FailsAs _ (JobStatus.decode data) :=
    hyields.failsAs_status (fun f => Or.inl) trivial
  exact hfails.outcome f h

theorem not_malformed_of_asksInfinity {f : Failure} (h : Json.AsksInfinity f) :
    isMalformed f = false := by
  cases h
  rfl

/-- The data that is decoded: an empty object in the place of data that counts as no. -/
def statusData (data : Json) : Json := if data.truthy then data else .obj []

theorem statusData_of_isGiven {data : Json} (h : IsGiven data) : statusData data = data := by
  unfold statusData
  by_cases ht : data.truthy = true
  · rw [if_pos ht]
  · rw [if_neg ht]
    rcases h with hyes | ⟨fields, rfl⟩
    · exact absurd hyes ht
    · cases fields with
      | nil => rfl
      | cons f rest => exact absurd rfl ht

/-- A failure of decoding that is put down to the server carries the status of the answer. -/
theorem outcome_decodeStatus (r : Response) : (decodeStatus r).outcome.1 =
    match (JobStatus.decode (statusData r.data)).outcome.1 with
    | .ok s => .ok s
    | .error f =>
      if isMalformed f then .error (.transport ("malformed import status: " ++ f.shown) r.status)
      else .error f := by
  unfold decodeStatus statusData Noted.outcome
  rw [Noted.run_tryCatch]
  rcases (JobStatus.decode (if r.data.truthy then r.data else .obj [])).run.run [] with
    ⟨f | s, after⟩
  · by_cases hf : isMalformed f = true
    · simp only [hf]
      rfl
    · rw [Bool.not_eq_true] at hf
      simp only [hf]
      rfl
  · rfl

/-! ## Answers -/

theorem answered_of_tooDeep (request : Request) (status : Int) {body : Body} {f : Failure}
    (hbody : body.data = .error f) : answered request status body = .error f := by
  rw [answered, Exchange.outcome_receive_answer, hbody]
  rfl

theorem answered_of_not_isSuccess (request : Request) {status : Int} {body : Body}
    {data : Json} (hbody : body.data = .ok data) (hs : Retry.isSuccess status = false) :
    answered request status body = .error (badStatus status) := by
  rw [answered, Exchange.outcome_receive_answer, hbody]
  show ((if Retry.isSuccess status = true then decodeStatus ⟨status, data⟩
    else throw (badStatus status) : Noted JobStatus).outcome).1 = _
  rw [hs]
  rfl

theorem answered_of_isSuccess (request : Request) {status : Int} {body : Body} {data : Json}
    (hbody : body.data = .ok data) (hs : Retry.isSuccess status = true) :
    answered request status body =
      match (JobStatus.decode (statusData data)).outcome.1 with
      | .ok s => .ok s
      | .error f =>
        if isMalformed f then .error (.transport ("malformed import status: " ++ f.shown) status)
        else .error f := by
  rw [answered, Exchange.outcome_receive_answer, hbody]
  show ((if Retry.isSuccess status = true then decodeStatus ⟨status, data⟩
    else throw (badStatus status) : Noted JobStatus).outcome).1 = _
  rw [if_pos hs, outcome_decodeStatus]

/-- A status is told only by data that can be decoded, which is an object. -/
theorem exists_fields_of_decode {data : Json} {s : JobStatus}
    (h : (JobStatus.decode data).outcome.1 = .ok s) : ∃ fields, data = .obj fields := by
  cases data with
  | obj fields => exact ⟨fields, rfl⟩
  | _ => cases h

theorem tellsOf_of_isTellable {request : Request} {status : Int} {body : Body}
    (h : IsTellable status body) : TellsOf status body (answered request status body) := by
  obtain ⟨data, hbody, htold⟩ := h
  by_cases hs : Retry.isSuccess status = true
  · obtain ⟨hgiven, hfinite⟩ := htold hs
    rw [answered_of_isSuccess request hbody hs, statusData_of_isGiven hgiven]
    cases hdecode : (JobStatus.decode data).outcome.1 with
    | ok s =>
        obtain ⟨fields, rfl⟩ := exists_fields_of_decode hdecode
        exact ⟨hs, fields, hbody, hdecode⟩
    | error f =>
        have hmalformed : isMalformed f = true :=
          (malformed_or_asksInfinity hdecode).resolve_right (hfinite f hdecode)
        show TellsOf status body (if isMalformed f then _ else _)
        rw [if_pos hmalformed]
        exact ⟨_, rfl⟩
  · rw [answered_of_not_isSuccess request hbody (Bool.eq_false_iff.mpr hs)]
    exact ⟨_, rfl⟩

theorem isTellable_of_tellsOf {request : Request} {status : Int} {body : Body}
    (h : TellsOf status body (answered request status body)) : IsTellable status body := by
  cases hbody : body.data with
  | error f =>
      obtain ⟨innermost, rfl⟩ := Body.eq_tooDeep_of_data hbody
      rw [answered_of_tooDeep request status hbody] at h
      obtain ⟨text, htext⟩ := h
      cases htext
  | ok data =>
      refine ⟨data, hbody, fun hs => ?_⟩
      rw [answered_of_isSuccess request hbody hs] at h
      by_cases hgiven : IsGiven data
      · refine ⟨hgiven, fun f hf hinfinite => ?_⟩
        rw [statusData_of_isGiven hgiven, hf] at h
        have hnot : ¬ isMalformed f = true := by
          rw [not_malformed_of_asksInfinity hinfinite]
          exact Bool.false_ne_true
        simp only [if_neg hnot] at h
        obtain ⟨text, rfl⟩ := h
        cases hinfinite
      · -- What counts as no and is no object passes for an empty object, which is a status.
        have hempty : statusData data = .obj [] := if_neg fun ht => hgiven (Or.inl ht)
        rw [hempty] at h
        obtain ⟨-, fields, hfields, -⟩ := h
        cases hbody.symm.trans hfields
        exact absurd (Or.inr ⟨fields, rfl⟩) hgiven

/-- The client tells of an answer what it should, exactly if the body is not nested too deep and,
with a status of success, is no value that counts as no without being an object and asks no whole
number of an infinite one. An object without infinite numbers is always such a body. -/
theorem tellsOf_iff (request : Request) (status : Int) (body : Body) :
    (TellsOf status body (answered request status body) ↔ IsTellable status body) ∧
      ∀ fields, body.data = .ok (.obj fields) → Json.Bounded (.obj fields) →
        TellsOf status body (answered request status body) := by
  refine ⟨⟨isTellable_of_tellsOf, tellsOf_of_isTellable⟩, fun fields hbody hbounded => ?_⟩
  refine tellsOf_of_isTellable ⟨_, hbody, fun _ => ⟨Or.inr ⟨fields, rfl⟩, ?_⟩⟩
  intro f hf hinfinite
  have hmalformed := (failsAs_status hbounded).outcome f hf
  rw [not_malformed_of_asksInfinity hinfinite] at hmalformed
  cases hmalformed

def brokenCount : Fields := [("active", .bool true), ("bytesCopied", .str "many")]

/-- A count that is no number is put down to the server, with the status of the answer. -/
theorem tellsOf_brokenCount :
    let request := Job.status.request (.ofUrl "http://h" (.whole 1))
    let body : Body := .ofBytes ((Json.obj brokenCount).write .line).toUTF8
    body.data = .ok (.obj brokenCount) ∧ Json.Bounded (.obj brokenCount) ∧
      TellsOf 200 body (answered request 200 body) ∧
      (JobStatus.decode (.obj brokenCount)).outcome.1.toOption = none := by
  intro request body
  have hreadable : (Json.obj brokenCount).Readable Json.Nesting.limit := by
    apply Json.Readable.obj
    · decide
    rw [brokenCount, List.forall_mem_cons, List.forall_mem_singleton]
    exact ⟨.bool _, .str _⟩
  have hbody : body.data = .ok (.obj brokenCount) :=
    Body.data_ofBytes (by decide +kernel) (Json.ofBytes_write hreadable (by decide +kernel))
  have hbounded : Json.Bounded (.obj brokenCount) := by
    apply Json.Bounded.obj
    rw [brokenCount, List.forall_mem_cons, List.forall_mem_singleton]
    exact ⟨.bool _, .str _⟩
  exact ⟨hbody, hbounded, (tellsOf_iff request 200 body).2 _ hbody hbounded, by decide +kernel⟩

/-! ## Bodies that the client does not reckon with -/

def infiniteSize : Json := .obj [("bytesTotal", .float (.infinite false))]

def infiniteBody : Body := .ofBytes (infiniteSize.write .line).toUTF8

theorem data_infiniteBody : infiniteBody.data = .ok infiniteSize := by
  have hreadable : infiniteSize.Readable Json.Nesting.limit := by
    apply Json.Readable.obj
    · decide
    rw [List.forall_mem_singleton]
    exact .float _
  exact Body.data_ofBytes (by decide +kernel) (Json.ofBytes_write hreadable (by decide +kernel))

/-- An infinite size is not put down to the server, and an answer without a body passes for a
status. -/
theorem not_tellsOf_infiniteSize :
    let request := Job.status.request (.ofUrl "http://h" (.whole 1))
    ¬ TellsOf 200 infiniteBody (answered request 200 infiniteBody) ∧
      ¬ TellsOf 200 .empty (answered request 200 .empty) := by
  intro request
  constructor
  · rw [answered_of_isSuccess request data_infiniteBody rfl]
    rintro ⟨text, htext⟩
    cases htext
  · have hempty : Body.empty.data = .ok .null := rfl
    rw [answered_of_isSuccess request hempty rfl]
    rintro ⟨-, fields, hfields, -⟩
    cases hempty.symm.trans hfields

end Job

end CardImport
