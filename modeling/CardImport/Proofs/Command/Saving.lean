import CardImport.Proofs.Command.JobAndTakes
import CardImport.Proofs.Json.Nesting

/-!
# Changing a take

A change fetches the take and stores it under its old id, with the fields that were given in the
place of the old ones. What does not come to a take is not stored. So it is whatever the server
answers, except that a body that is nested too deep hides the status of its answer, and that a take
with a number that JSON has no text for is never sent.
-/

namespace CardImport

/-! ## Changed fields -/

/-- Whether a field is the one that was given, or the old one if none was. -/
def Replaced {α : Type} (given : Option α) (old new : α) : Prop :=
  (∀ x, given = some x → new = x) ∧ (given = none → new = old)

/-- Whether a take is another one with changed fields, and with all others as they were. -/
structure TakeChanges.Turns (changes : TakeChanges) (old new : Take) : Prop where
  scene : Replaced changes.scene old.id.scene new.id.scene
  num : Replaced changes.num old.id.num new.id.num
  clipName : Replaced changes.clipName old.clipName new.clipName
  select : Replaced changes.select old.select new.select

theorem replaced_iff {α : Type} {given : Option α} {old new : α} :
    Replaced given old new ↔ new = given.getD old := by
  cases given with
  | none => simp [Replaced]
  | some x => simp [Replaced]

theorem TakeChanges.turns_iff (changes : TakeChanges) (old new : Take) :
    changes.Turns old new ↔ new = changes.apply old := by
  constructor
  · rintro ⟨hscene, hnum, hclip, hselect⟩
    rw [replaced_iff] at hscene hnum hclip hselect
    rcases new with ⟨⟨scene, num⟩, clipName, select⟩
    dsimp only at hscene hnum hclip hselect
    rw [hscene, hnum, hclip, hselect]
    rfl
  · rintro rfl
    exact ⟨replaced_iff.mpr rfl, replaced_iff.mpr rfl, replaced_iff.mpr rfl, replaced_iff.mpr rfl⟩

theorem Take.ofJson_toJson (t : Take) : Take.ofJson t.toJson = .ok t := rfl

namespace Command

open Network

variable {σ : Type}

/-! ## Replies to the two requests -/

/-- Whether a reply is for a request that was sent. -/
def WasSent : Reply → Prop
  | .unsent _ => False
  | _ => True

def TooDeep : Reply → Prop
  | .answer _ body => ∃ innermost, body.data = .error (.tooDeep innermost)
  | _ => False

/-- Whether a reply is an answer of success with the entry of a take. -/
def HoldsTake (answer : Reply) (t : Take) : Prop :=
  ∃ status body data, answer = .answer status body ∧ Retry.isSuccess status = true ∧
    body.data = .ok data ∧ Take.ofJson data = .ok t

/-- How a change ends if the reply to its first request, which was sent, holds no take. -/
def RefusedAs (result : Except Failure Take) : Reply → Prop
  | .answer status _ => ∃ f, result = .error f ∧ ((∃ text, f = .notFound text) ↔ status = 404)
  | .unreachable _ => ∃ text, result = .error (.transport text 0)
  | .unsent _ => False
  | .broken f => result = .error f

/-- How a change ends after the reply to its second request, which was sent and stores the take. -/
def StoredAs (t : Take) (result : Except Failure Take) : Reply → Prop
  | .answer status _ => (result = .ok t ↔ Retry.isSuccess status = true) ∧
      (Retry.isSuccess status = false → ∃ text, result = .error (.transport text status))
  | .unreachable _ => ∃ text, result = .error (.transport text 0)
  | .unsent _ => False
  | .broken f => result = .error f

def fetching (e : Endpoint) (path : String) : Request where
  method := "GET"
  url := e.url path
  timeout := e.timeout

def storing (e : Endpoint) (path : String) (t : Take) : Request where
  method := "PUT"
  url := e.url path
  body := t.toJson
  timeout := e.timeout

/-- How the take at a path is to be changed: it is asked for, and if it comes it is stored at the
same path with the changed fields, and returned exactly if it was stored. -/
inductive SavesAsAsked (e : Endpoint) (path : String) (changes : TakeChanges) (w : World σ)
    (ran : Except Failure Take × World σ) : Prop
  | refused (answer : Reply) (untaken : ∀ t, ¬ HoldsTake answer t)
      (sent : ran.2.replies = (fetching e path, answer) :: w.replies)
      (ended : RefusedAs ran.1 answer)
  | stored (answer answer' : Reply) (t t' : Take) (taken : HoldsTake answer t)
      (changed : changes.Turns t t')
      (sent : ran.2.replies =
        (storing e path t', answer') :: (fetching e path, answer) :: w.replies)
      (ended : StoredAs t' ran.1 answer')

/-! ## The outcomes of the two calls -/

section

variable {e : Endpoint} {id : TakeId} {path : String} {t : Take} {q : Request}

theorem request_of_get {c : Call Take} (hpath : id.path = .ok path)
    (hc : Registry.get id = .ok c) : c.request e = fetching e path := by
  rw [Registry.get, hpath] at hc
  cases hc
  rfl

theorem request_of_update {c : Call Unit} (hpath : id.path = .ok path)
    (hc : Registry.update id t = .ok c) : c.request e = storing e path t := by
  rw [Registry.update, hpath] at hc
  cases hc
  rfl

theorem accept_of_get {c : Call Take} (hpath : id.path = .ok path) (hc : Registry.get id = .ok c)
    (status : Int) (data : Json) : (c.accept ⟨status, data⟩).outcome.1 =
      if status = 404 then .error (.notFound ("take not found: " ++ id.text))
      else if Retry.isSuccess status then Take.ofJson data
      else .error (.transport ("takes HTTP status " ++ toString status ++
        " (" ++ ("get " ++ id.text) ++ ")") status) := by
  rw [Registry.get, hpath] at hc
  cases hc
  by_cases hmissing : status = 404
  · simp only [hmissing]
    rfl
  · simp only [hmissing, if_false, Registry.checked, Response.isSuccess]
    by_cases hsuccess : Retry.isSuccess status = true
    · simp only [hsuccess, if_true, pure_bind]
      cases hread : Take.ofJson data <;> rfl
    · simp only [hsuccess]
      rfl

theorem accept_of_update {c : Call Unit} (hpath : id.path = .ok path)
    (hc : Registry.update id t = .ok c) (status : Int) (data : Json) :
    (c.accept ⟨status, data⟩).outcome.1 =
      if Retry.isSuccess status then .ok ()
      else .error (.transport ("takes HTTP status " ++ toString status ++
        " (" ++ ("update " ++ id.text) ++ ")") status) := by
  rw [Registry.update, hpath] at hc
  cases hc
  simp only [Registry.checked, Response.isSuccess]
  by_cases hsuccess : Retry.isSuccess status = true
  · simp only [hsuccess]
    rfl
  · simp only [hsuccess]
    rfl

theorem finish_answer {α : Type} (c : Call α) (q : Request) (status : Int) (body : Body) :
    (c.finish (received q (.answer status body))).outcome.1 =
      body.data.bind fun data => (c.accept ⟨status, data⟩).outcome.1 := by
  rw [received_answer]
  cases body.data <;> rfl

theorem not_tooDeep_of_data {status : Int} {body : Body} {data : Json}
    (h : body.data = .ok data) : ¬ TooDeep (.answer status body) := by
  rintro ⟨innermost, hdeep⟩
  cases h.symm.trans hdeep

theorem finish_get_ok_iff {c : Call Take} (hpath : id.path = .ok path)
    (hc : Registry.get id = .ok c) (q : Request) (answer : Reply) (t : Take) :
    (c.finish (received q answer)).outcome.1 = .ok t ↔ HoldsTake answer t := by
  cases answer with
  | unreachable message | unsent message =>
      constructor
      · intro h
        cases h
      · rintro ⟨_, _, _, h, -⟩
        cases h
  | broken f =>
      constructor
      · intro h
        cases h
      · rintro ⟨_, _, _, h, -⟩
        cases h
  | answer status body =>
      rw [finish_answer]
      constructor
      · intro h
        obtain ⟨data, hdata, haccept⟩ := exists_of_bind_eq_ok h
        rw [accept_of_get hpath hc] at haccept
        split at haccept
        · cases haccept
        · split at haccept
          · rename_i hsuccess
            exact ⟨status, body, data, rfl, hsuccess, hdata, haccept⟩
          · cases haccept
      · rintro ⟨status', body', data, heq, hsuccess, hdata, hread⟩
        cases heq
        -- The status of a missing take is no success.
        have hfound : status ≠ 404 := by
          rintro rfl
          cases hsuccess
        rw [hdata]
        show (c.accept ⟨status, data⟩).outcome.1 = _
        rw [accept_of_get hpath hc, if_neg hfound, if_pos hsuccess, hread]

/-- Only the status 404 is told as a missing take; data that is no take fails in another way. -/
theorem notFound_iff_of_get {c : Call Take} (hpath : id.path = .ok path)
    (hc : Registry.get id = .ok c) {status : Int} {data : Json} {f : Failure}
    (hf : (c.accept ⟨status, data⟩).outcome.1 = .error f) :
    (∃ text, f = .notFound text) ↔ status = 404 := by
  rw [accept_of_get hpath hc] at hf
  split at hf
  · rename_i hmissing
    cases hf
    simp [hmissing]
  · rename_i hmissing
    refine iff_of_false ?_ hmissing
    rintro ⟨text, rfl⟩
    split at hf
    · have hbad := failsAs_take data _ hf
      cases hbad
    · cases hf

/-- A first call that fails is refused, unless its body hides that the take is missing. -/
theorem refusedAs_iff {c : Call Take} (hpath : id.path = .ok path) (hc : Registry.get id = .ok c)
    (q : Request) {answer : Reply} {f : Failure}
    (hf : (c.finish (received q answer)).outcome.1 = .error f) :
    RefusedAs (.error f) answer ↔
      WasSent answer ∧ ∀ body, answer = .answer 404 body → ¬ TooDeep answer := by
  cases answer with
  | unreachable message =>
      cases hf
      simp [RefusedAs, WasSent]
  | unsent message => simp [RefusedAs, WasSent]
  | broken f' =>
      cases hf
      simp [RefusedAs, WasSent]
  | answer status body =>
      rw [finish_answer] at hf
      cases hbody : body.data with
      | error f' =>
          obtain ⟨innermost, rfl⟩ := Body.eq_tooDeep_of_data hbody
          rw [hbody] at hf
          cases hf
          have hdeep : TooDeep (.answer status body) := ⟨innermost, hbody⟩
          simp [RefusedAs, WasSent, hdeep]
      | ok data =>
          have hread : ¬ TooDeep (.answer status body) := not_tooDeep_of_data hbody
          rw [hbody] at hf
          simp only [RefusedAs, WasSent, hread, not_false_eq_true, implies_true, and_self, iff_true]
          exact ⟨f, rfl, notFound_iff_of_get hpath hc hf⟩

/-- A second call ends as the status of its answer says, unless its body hides it. -/
theorem storedAs_iff {c : Call Unit} (hpath : id.path = .ok path)
    (hc : Registry.update id t = .ok c) (q : Request) (answer : Reply) :
    StoredAs t ((c.finish (received q answer)).outcome.1.map fun _ => t) answer ↔
      WasSent answer ∧ ¬ TooDeep answer := by
  cases answer with
  | unreachable message => exact iff_of_true ⟨_, rfl⟩ ⟨trivial, not_false⟩
  | unsent message => exact iff_of_false not_false And.left
  | broken f => exact iff_of_true rfl ⟨trivial, not_false⟩
  | answer status body =>
      rw [finish_answer]
      cases hbody : body.data with
      | error f =>
          obtain ⟨innermost, rfl⟩ := Body.eq_tooDeep_of_data hbody
          -- An answer that is too deep fails whatever its status, so it says nothing of the take.
          refine iff_of_false ?_ fun hread => hread.2 ⟨innermost, hbody⟩
          rintro ⟨hstored, hfailed⟩
          cases hsuccess : Retry.isSuccess status with
          | true => cases hstored.mpr hsuccess
          | false =>
              obtain ⟨text, htext⟩ := hfailed hsuccess
              cases htext
      | ok data =>
          refine iff_of_true ?_ ⟨trivial, not_tooDeep_of_data hbody⟩
          show StoredAs t ((c.accept ⟨status, data⟩).outcome.1.map fun _ => t) _
          rw [accept_of_update hpath hc]
          cases hsuccess : Retry.isSuccess status with
          | true => exact ⟨iff_of_true rfl hsuccess, fun h => by cases hsuccess.symm.trans h⟩
          | false =>
              refine ⟨iff_of_false ?_ (by simp [hsuccess]), fun _ => ⟨_, rfl⟩⟩
              rintro ⟨⟩

end

/-! ## The whole change -/

section

variable {e : Endpoint} {path : String} {changes : TakeChanges} {w : World σ}
  {ran : Except Failure Take × World σ} {answer answer' : Reply} {t : Take}

theorem HoldsTake.wasSent (h : HoldsTake answer t) : WasSent answer := by
  obtain ⟨status, body, data, rfl, -⟩ := h
  trivial

/-- An answer that the take is missing is no success, and holds none. -/
theorem HoldsTake.ne_missing (h : HoldsTake answer t) (body : Body) :
    answer ≠ .answer 404 body := by
  obtain ⟨status, body', data, rfl, hsuccess, -⟩ := h
  rintro ⟨⟩
  cases hsuccess

theorem HoldsTake.eq {t' : Take} (h : HoldsTake answer t) (h' : HoldsTake answer t') : t' = t := by
  obtain ⟨status, body, data, rfl, -, hdata, hread⟩ := h
  obtain ⟨_, _, _, heq, -, hdata', hread'⟩ := h'
  cases heq
  cases hdata.symm.trans hdata'
  exact Except.ok.inj (hread'.symm.trans hread)

theorem cons_ne_cons_cons {α : Type} (a b c : α) (l : List α) : a :: l ≠ b :: c :: l := by
  intro h
  have hlength := congrArg List.length h
  simp at hlength

theorem savesAsAsked_iff_refused (huntaken : ∀ t, ¬ HoldsTake answer t)
    (hsent : ran.2.replies = (fetching e path, answer) :: w.replies) :
    SavesAsAsked e path changes w ran ↔ RefusedAs ran.1 answer := by
  constructor
  · rintro (⟨answer₀, -, hsent₀, hended⟩ | ⟨answer₀, _, _, _, htaken, -, hsent₀, -⟩)
    · rw [hsent] at hsent₀
      cases hsent₀
      exact hended
    · exact absurd (hsent.symm.trans hsent₀) (cons_ne_cons_cons _ _ _ _)
  · exact .refused answer huntaken hsent

theorem savesAsAsked_iff_stored (htaken : HoldsTake answer t) (hsent : ran.2.replies =
      (storing e path (changes.apply t), answer') :: (fetching e path, answer) :: w.replies) :
    SavesAsAsked e path changes w ran ↔ StoredAs (changes.apply t) ran.1 answer' := by
  constructor
  · rintro (⟨answer₀, -, hsent₀, -⟩ | ⟨answer₀, _, t₀, t₀', htaken₀, hchanged, hsent₀, hended⟩)
    · exact absurd (hsent₀.symm.trans hsent) (cons_ne_cons_cons _ _ _ _)
    · rw [hsent] at hsent₀
      injection hsent₀ with hstored hfetched
      injection hfetched with hfetched
      cases congrArg Prod.snd hfetched
      cases congrArg Prod.snd hstored
      rw [TakeChanges.turns_iff, htaken.eq htaken₀] at hchanged
      rwa [hchanged] at hended
  · intro hended
    exact .stored answer answer' t _ htaken ((changes.turns_iff t _).mpr rfl) hsent hended

/-- If no take comes, the change is refused, unless the request for it was not sent or the body
hides that the take is missing. -/
theorem savesAsAsked_iff_of_untaken {id : TakeId} (hpath : id.path = .ok path)
    (changes : TakeChanges) (huntaken : ∀ t, ¬ HoldsTake (reply w (fetching e path)) t) :
    let ran := runIn (TakeEditor.save e id changes : Step (StateM (World σ)) Take) w
    let answer := reply w (fetching e path)
    ran.2.replies = (fetching e path, answer) :: w.replies ∧
      (SavesAsAsked e path changes w ran ↔
        WasSent answer ∧ ∀ body, answer = .answer 404 body → ¬ TooDeep answer) := by
  intro ran answer
  obtain ⟨c, hget, -⟩ := of_get hpath
  have hfetched := (perform_run e c w).1
  have hreplies := replies_perform e c w
  rw [request_of_get hpath hget] at hfetched hreplies
  rcases save_cases hpath hget changes w with ⟨f, hf, hsave⟩ | ⟨t, _, ht, -⟩
  · have hsent : ran.2.replies = (fetching e path, answer) :: w.replies := by
      rw [← hreplies]
      exact congrArg (fun ran => ran.2.replies) hsave
    have hresult : ran.1 = .error f := congrArg Prod.fst hsave
    rw [savesAsAsked_iff_refused huntaken hsent, hresult]
    exact ⟨hsent, refusedAs_iff hpath hget _ (hfetched.symm.trans hf)⟩
  · have htaken := (finish_get_ok_iff hpath hget _ _ _).mp (hfetched.symm.trans ht)
    exact absurd htaken (huntaken t)

/-- If a take comes, its change is stored, unless the second request was not sent or the body of its
answer hides the status. -/
theorem savesAsAsked_iff_of_taken {id : TakeId} (hpath : id.path = .ok path)
    (changes : TakeChanges) (htaken : HoldsTake (reply w (fetching e path)) t) :
    let ran := runIn (TakeEditor.save e id changes : Step (StateM (World σ)) Take) w
    let answer' := reply (World.exchange (fetching e path) w).2
      (storing e path (changes.apply t))
    ran.2.replies = (storing e path (changes.apply t), answer') ::
        (fetching e path, reply w (fetching e path)) :: w.replies ∧
      (SavesAsAsked e path changes w ran ↔ WasSent answer' ∧ ¬ TooDeep answer') := by
  intro ran answer'
  obtain ⟨c, hget, -⟩ := of_get hpath
  obtain ⟨hfetched, hkept⟩ := perform_run e c w
  have hreplies := replies_perform e c w
  rw [request_of_get hpath hget] at hfetched hkept hreplies
  rcases save_cases hpath hget changes w with
    ⟨f, hf, -⟩ | ⟨t', put, ht, hput, hresult, hsent⟩
  -- The first answer holds the take, so the first request cannot have failed.
  · have ht := (finish_get_ok_iff hpath hget (fetching e path) _ _).mpr htaken
    cases (hfetched.symm.trans hf).symm.trans ht
  · have htaken' := (finish_get_ok_iff hpath hget _ _ _).mp (hfetched.symm.trans ht)
    obtain rfl := htaken.eq htaken'
    have hstored := (perform_run e put (runIn (perform e c) w).2).1
    have hstores := replies_perform e put (runIn (perform e c) w).2
    rw [request_of_update hpath hput, reply_of_unseen hkept] at hstored hstores
    have hall : ran.2.replies = (storing e path (changes.apply t'), answer') ::
        (fetching e path, reply w (fetching e path)) :: w.replies := by
      rw [← hreplies, ← hstores]
      exact hsent
    rw [savesAsAsked_iff_stored htaken hall, hresult, hstored]
    exact ⟨hall, storedAs_iff hpath hput _ _⟩

/-- What was sent has finite numbers only, if the HTTP library sends nothing else. -/
theorem finite_of_wasSent {q : Request} (h : w.libraries.SendsFinite)
    (hsent : WasSent (reply w q)) : q.body.isFinite = true := by
  apply h
  unfold reply World.exchange at hsent
  unfold Libraries.sends
  cases hrefused : w.libraries.refusal? q with
  | none => rfl
  | some message =>
      rw [hrefused] at hsent
      exact hsent.elim

end

/-- A change of a take is carried out as asked, whatever the server answers, exactly if the requests
are sent and no body that is nested too deep stands in an answer that the take is missing, or in the
answer to the second request. With an HTTP library that sends finite numbers only, a change to a
take with another number is never carried out. -/
theorem saves_as_asked_iff (e : Endpoint) (scene num : String) (changes : TakeChanges)
    (w : World σ) : ∃ path, (TakeId.ofText scene num).path = .ok path ∧
      let ran := runIn (TakeEditor.save e (TakeId.ofText scene num) changes :
        Step (StateM (World σ)) Take) w
      let answer := reply w (fetching e path)
      (SavesAsAsked e path changes w ran ↔
        WasSent answer ∧ (∀ body, answer = .answer 404 body → ¬ TooDeep answer) ∧
        ∀ q answer', ran.2.replies = (q, answer') :: (fetching e path, answer) :: w.replies →
          WasSent answer' ∧ ¬ TooDeep answer') ∧
      (w.libraries.SendsFinite → SavesAsAsked e path changes w ran →
        ∀ t, HoldsTake answer t → (changes.apply t).toJson.isFinite = true) := by
  obtain ⟨path, hpath⟩ := exists_path scene num
  refine ⟨path, hpath, ?_⟩
  intro ran answer
  by_cases htaken : ∃ t, HoldsTake answer t
  · obtain ⟨t, htaken⟩ := htaken
    obtain ⟨hall, hsaves⟩ := savesAsAsked_iff_of_taken hpath changes htaken
    rw [hsaves]
    refine ⟨⟨fun hread => ⟨htaken.wasSent, ?_, ?_⟩, fun ⟨_, _, hread⟩ => hread _ _ hall⟩, ?_⟩
    · exact fun body hmissing => absurd hmissing (htaken.ne_missing body)
    · intro q answer' hsent
      rw [hall] at hsent
      cases congrArg Prod.snd (List.cons.inj hsent).1
      exact hread
    · rintro hfinite ⟨hsent, -⟩ t' htaken'
      obtain rfl := htaken.eq htaken'
      have hkept : (World.exchange (fetching e path) w).2.libraries = w.libraries := by
        unfold World.exchange
        cases w.libraries.refusal? (fetching e path) <;> rfl
      rw [← hkept] at hfinite
      exact finite_of_wasSent hfinite hsent
  · obtain ⟨hsent, hsaves⟩ := savesAsAsked_iff_of_untaken hpath changes (not_exists.mp htaken)
    rw [hsaves]
    refine ⟨⟨fun ⟨hasked, hread⟩ => ⟨hasked, hread, ?_⟩, fun ⟨hasked, hread, _⟩ =>
      ⟨hasked, hread⟩⟩, fun _ _ t ht => absurd ⟨t, ht⟩ htaken⟩
    intro q answer' hmore
    exact absurd (hsent.symm.trans hmore) (cons_ne_cons_cons _ _ _ _)

/-! ## A take that is stored -/

def storedTake : Take where
  id := .ofText "1" "2"
  clipName := .str "A001"

/-- A world whose server has a take, and answers to everything but the request for it with this
body. -/
def answeringWith (body : Body) : World Unit where
  serve _ q :=
    (.answer 200 (if q.method = "GET" then .ofBytes (storedTake.toJson.write .line).toUTF8
      else body), ())
  server := ()
  libraries := Http.ownLibraries
  home := "/h"

def nesting : World Unit :=
  answeringWith (.ofBytes (String.ofList (Json.bracketed 2000 [])).toUTF8)

theorem holdsTake_storedTake :
    HoldsTake (.answer 200 (.ofBytes (storedTake.toJson.write .line).toUTF8)) storedTake := by
  have hreadable : storedTake.toJson.Readable Json.Nesting.limit := by
    apply Json.Readable.obj
    · decide
    rw [List.forall_mem_cons, List.forall_mem_cons, List.forall_mem_singleton]
    refine ⟨?_, .str _, .bool _⟩
    apply Json.Readable.obj
    · decide
    rw [List.forall_mem_cons, List.forall_mem_singleton]
    exact ⟨.str _, .str _⟩
  have hbody : (Body.ofBytes (storedTake.toJson.write .line).toUTF8).data = .ok storedTake.toJson :=
    Body.data_ofBytes (by decide +kernel) (Json.ofBytes_write hreadable (by decide +kernel))
  exact ⟨200, _, _, rfl, rfl, hbody, Take.ofJson_toJson storedTake⟩

/-- The take is marked as a select and stored, by an answer without a body. -/
theorem saves_as_asked_select : ∃ path, (TakeId.ofText "1" "2").path = .ok path ∧
    let e := Endpoint.ofUrl "http://h" (.whole 1)
    let changes : TakeChanges := { select := some true }
    let w := answeringWith .empty
    SavesAsAsked e path changes w
        (runIn (TakeEditor.save e (.ofText "1" "2") changes : Step (StateM (World Unit)) Take) w) ∧
      w.libraries.SendsFinite ∧
      ∀ t, HoldsTake (reply w (fetching e path)) t → (changes.apply t).toJson.isFinite = true := by
  let e := Endpoint.ofUrl "http://h" (.whole 1)
  let changes : TakeChanges := { select := some true }
  let w := answeringWith .empty
  let ran := runIn (TakeEditor.save e (.ofText "1" "2") changes :
    Step (StateM (World Unit)) Take) w
  obtain ⟨path, hpath, hsaves, hfinite⟩ := saves_as_asked_iff e "1" "2" changes w
  have htaken : HoldsTake (reply w (fetching e path)) storedTake := holdsTake_storedTake
  obtain ⟨hall, -⟩ := savesAsAsked_iff_of_taken hpath changes htaken
  have hasked : SavesAsAsked e path changes w ran := by
    refine hsaves.mpr ⟨htaken.wasSent, ?_, fun q answer' hsent => ?_⟩
    · exact fun body hmissing => absurd hmissing (htaken.ne_missing body)
    · rw [hall] at hsent
      cases congrArg Prod.snd (List.cons.inj hsent).1
      have hempty : Body.empty.data = .ok .null := rfl
      exact ⟨trivial, not_tooDeep_of_data hempty⟩
  exact ⟨path, hpath, hasked, Http.sendsFinite_ownLibraries,
    hfinite Http.sendsFinite_ownLibraries hasked⟩

/-- A take that was stored is not returned if the answer to the second request is nested too
deep. -/
theorem not_saves_as_asked_nested : ∃ path, (TakeId.ofText "1" "2").path = .ok path ∧
    let e := Endpoint.ofUrl "http://h" (.whole 1)
    let changes : TakeChanges := { select := some true }
    ¬ SavesAsAsked e path changes nesting
      (runIn (TakeEditor.save e (.ofText "1" "2") changes : Step (StateM (World Unit)) Take)
        nesting) := by
  obtain ⟨path, hpath⟩ := exists_path "1" "2"
  refine ⟨path, hpath, ?_⟩
  intro e changes
  have htaken : HoldsTake (reply nesting (fetching e path)) storedTake := holdsTake_storedTake
  obtain ⟨-, hsaves⟩ := savesAsAsked_iff_of_taken hpath changes htaken
  rw [hsaves]
  exact fun hread => hread.2 ⟨_, Body.data_ofBytes_bracketed (by decide) []⟩

end Command

end CardImport
