import CardImport.Proofs.Session.Run

/-!
# Sessions do not mix

A request that was sent in one session has no effect in another: its answer changes what is shown
only while the session number is still the one it was sent under. The invariant is that a task
never captures a number above the current one; a task that has begun never captures another.
-/

namespace CardImport

/-- What a session shows of its list and of the job. -/
def Session.shown (s : Session) :
    List Item × NameIndex × Bool × Number × Option Timestamp × Bool × Option JobStatus :=
  (s.items, s.index, s.loading, s.progress, s.eta, s.enabled, s.lastStatus)

/-- The session number that a task has captured. -/
def Task.captured? : Task → Option Nat
  | .load (.listing n _ _ _) => some n
  | .load (.asking n) => some n
  | .poll n _ _ => some n
  | .refresh (.asking n) => some n
  | _ => none

/-- Whether a task has taken its first step. A poll is given its session when it is created. -/
def Task.HasBegun : Task → Prop
  | .load .created => False
  | .submit .created => False
  | .refresh .created => False
  | _ => True

def Sender.taskId : Sender → TaskId
  | .task id => id
  | .leg id _ => id

/-- Whether a task goes on with the answer to a sender's request by this input. A load goes on
when both its listings are answered. -/
def Input.Brings : Input → Sender → Prop
  | .response asker _, sender => asker = sender
  | .joined id, sender => ∃ leg, sender = .leg id leg
  | _, _ => False

namespace Control

/-! ## Captured numbers -/

theorem Turn.captured {c : Control} {id : TaskId} {i : Input} {t t' : Task} {s : Session}
    {actions : List Action} (h : Turn c id i t s t' actions) {n : Nat}
    (hn : t'.captured? = some n) :
    t.captured? = some n ∨ ¬ t.HasBegun ∧ n = c.session.number := by
  cases h with
  | loadEmpty | loadBegins | refreshAsks =>
      cases hn
      exact Or.inr ⟨fun h => h, rfl⟩
  | listShown hcurrent | listFailed hcurrent =>
      rw [← hn, hcurrent]
      exact Or.inl rfl
  | listDropped | listBroken | loadEnds | submitSends | submitRefused | refreshEnds => cases hn
  | _ => exact Or.inl hn

theorem Turn.hasBegun {c : Control} {id : TaskId} {i : Input} {t t' : Task} {s : Session}
    {actions : List Action} (h : Turn c id i t s t' actions) : t'.HasBegun := by
  cases h <;> trivial

theorem captured_stopTask (t : Task) : (stopTask t).captured? = t.captured? := by
  cases t <;> rfl

theorem Became.captured {c c' : Control} {i : Input} {actions : List Action} {j : TaskId}
    {t t' : Task} (h : Became c i c' actions j t t') {n : Nat} (hn : t'.captured? = some n) :
    t.captured? = some n ∨ ¬ t.HasBegun ∧ n = c.session.number := by
  cases h with
  | same => exact Or.inl hn
  | turned hturn => exact hturn.captured hn
  | stopped =>
      rw [captured_stopTask] at hn
      exact Or.inl hn
  | accepted => cases hn

theorem Became.hasBegun {c c' : Control} {i : Input} {actions : List Action} {j : TaskId}
    {t t' : Task} (h : Became c i c' actions j t t') (ht : t.HasBegun) : t'.HasBegun := by
  cases h with
  | same => exact ht
  | turned hturn => exact hturn.hasBegun
  | stopped =>
      cases t with
      | poll => trivial
      | _ => exact ht
  | accepted => trivial

/-- No task has captured a number above the current one. -/
def CapturesBounded (c : Control) : Prop :=
  ∀ {j t}, c.task? j = some t → ∀ {n}, t.captured? = some n → n ≤ c.session.number

theorem Move.capturesBounded {c c' : Control} {i : Input} {actions : List Action}
    (h : Move c i c' actions) (hc : c.CapturesBounded) : c'.CapturesBounded := by
  intro j t ht n hn
  -- The number only grows, so a bound from before the move is enough.
  refine Nat.le_trans ?_ h.number_le
  refine h.all_tasks (P := fun _ t => ∀ n, t.captured? = some n → n ≤ c.session.number)
    (Q := fun _ t => ∀ n, t.captured? = some n → n ≤ c.session.number)
    ?_ ?_ (fun ht _ hn => hc ht hn) ht n hn
  · intro _ _ hnew m hm
    cases hnew <;> cases hm
    exact Nat.le_refl _
  · intro _ _ _ hb hbound m hm
    rcases hb.captured hm with hm | ⟨-, rfl⟩
    · exact hbound m hm
    · exact Nat.le_refl _

theorem captured_of_run {c : Control} {j : TaskId} {t : Task} (ht : c.task? j = some t)
    (hbegun : t.HasBegun) (inputs : List Input) :
    ∃ t', (c.run inputs).1.task? j = some t' ∧
      ∀ n, t'.captured? = some n → t.captured? = some n := by
  obtain ⟨t', ht', -, hcaptured⟩ := run_keeps
    (P := fun c' => ∃ t', c'.task? j = some t' ∧ t'.HasBegun ∧
      ∀ n, t'.captured? = some n → t.captured? = some n)
    (by
      rintro c i c' actions h ⟨u, hu, hbegun, hcaptured⟩
      obtain ⟨u', hu', hb⟩ := h.became hu
      refine ⟨u', hu', hb.hasBegun hbegun, fun n hn => hcaptured n ?_⟩
      rcases hb.captured hn with hn | ⟨hnot, -⟩
      · exact hn
      · exact absurd hbegun hnot)
    ⟨t, ht, hbegun, fun _ => id⟩ inputs
  exact ⟨t', ht', hcaptured⟩

/-! ## Requests and their answers -/

theorem Asks.hasBegun {c : Control} {id : TaskId} {sender : Sender} {q : Query} {t : Task}
    (h : Asks c id sender q t) : t.HasBegun := by
  cases h <;> trivial

theorem Asks.taskId {c : Control} {id : TaskId} {sender : Sender} {q : Query} {t : Task}
    (h : Asks c id sender q t) : sender.taskId = id := by
  cases h <;> rfl

theorem shown_lookSession_of_ne {c : Control} {n : Nat} {r : Except Failure Response}
    (h : (c.lookSession n r).shown ≠ c.session.shown) : n = c.session.number := by
  by_cases hn : n = c.session.number
  · exact hn
  · rw [lookSession_of_ne hn] at h
    exact absurd rfl h

/-- An answer shows only if the task that goes on with it has captured the current number. -/
theorem Turn.captured_of_shown_ne {c : Control} {id : TaskId} {i : Input} {t t' : Task}
    {s : Session} {actions : List Action} (h : Turn c id i t s t' actions) {sender : Sender}
    (hi : i.Brings sender) (hs : s.shown ≠ c.session.shown) :
    sender.taskId = id ∧ t.captured? = some c.session.number := by
  cases h with
  | listShown hn | listFailed hn =>
      obtain ⟨leg, rfl⟩ := hi
      exact ⟨rfl, congrArg some hn⟩
  | loadEnds | refreshEnds | pollIdle | pollGoesOn | pollBroken | pollRetries =>
      cases hi
      exact ⟨rfl, congrArg some (shown_lookSession_of_ne hs)⟩
  | @pollGivesUp n =>
      cases hi
      refine ⟨rfl, congrArg some ?_⟩
      by_cases hn : n = c.session.number
      · exact hn
      · rw [if_neg hn] at hs
        exact shown_lookSession_of_ne hs
  | clipsListed | takesListed | listDropped | listBroken | submitRefused => exact absurd rfl hs
  | _ => cases hi

theorem Move.captured_of_shown_ne {c c' : Control} {i : Input} {actions : List Action}
    (h : Move c i c' actions) {sender : Sender} (hi : i.Brings sender)
    (hs : c'.session.shown ≠ c.session.shown) :
    ∃ t, c.task? sender.taskId = some t ∧ t.captured? = some c.session.number := by
  cases h with
  | @turned i id t s t' actions ht hturn =>
      obtain ⟨rfl, hcaptured⟩ := hturn.captured_of_shown_ne hi hs
      exact ⟨t, ht, hcaptured⟩
  | accepted ht hr =>
      rw [session_setTask, session_startPolling] at hs
      exact absurd rfl hs
  | dropped => exact absurd rfl hs
  | started hfresh => cases hfresh <;> cases hi
  | _ => cases hi

theorem capturesBounded_begin (o : SessionOptions) : o.begin.CapturesBounded := by
  intro j t ht
  cases ht

/-- The answer to a request shows only while the session that sent it is current: `cause` sends a
request, and `arrival` brings its answer after any other inputs. -/
theorem same_number_of_shown_ne (o : SessionOptions) (before between : List Input)
    (cause arrival : Input) {sender : Sender} {q : Query}
    (hsent : .ask sender q ∈ ((o.begin.run before).1.step cause).2)
    (harrival : arrival.Brings sender)
    (hshown : ((o.begin.run (before ++ cause :: between)).1.step arrival).1.session.shown ≠
      (o.begin.run (before ++ cause :: between)).1.session.shown) :
    (o.begin.run (before ++ cause :: between)).1.session.number =
      (o.begin.run before).1.session.number := by
  have hrun : (o.begin.run (before ++ cause :: between)).1 =
      (((o.begin.run before).1.step cause).1.run between).1 := by
    rw [run_append]
    rfl
  rw [hrun] at hshown ⊢
  -- The sender has begun, so what it has captured is at most the number at which it sent.
  obtain ⟨id, t, hasks, ht, hnumber⟩ := (move_step _ cause).asks hsent
  have hbounded : ((o.begin.run before).1.step cause).1.CapturesBounded :=
    (move_step _ cause).capturesBounded
      (run_keeps Move.capturesBounded (capturesBounded_begin o) before)
  -- It goes on with the answer only under the number that it has captured.
  obtain ⟨t₂, ht₂, hcaptured⟩ := (move_step _ arrival).captured_of_shown_ne harrival hshown
  obtain ⟨t₁, ht₁, hkept⟩ := captured_of_run ht hasks.hasBegun between
  rw [hasks.taskId, ht₁] at ht₂
  obtain rfl : t₁ = t₂ := Option.some.inj ht₂
  have hle := hbounded ht (hkept _ hcaptured)
  rw [hnumber] at hle
  exact Nat.le_antisymm hle (Nat.le_trans (move_step _ cause).number_le (run_number_le _ between))

/-- The first list of a card is shown in the session that asked for it. -/
theorem same_number_of_first_list :
    let before : List Input := [.openPath "/a", .begin 0]
    let between : List Input :=
      [.beginLeg 0 .takes, .response (.leg 0 .takes) noTakes, .response (.leg 0 .clips) oneClip]
    let asked := (({} : SessionOptions).begin.run before).1
    let joined := (({} : SessionOptions).begin.run (before ++ .beginLeg 0 .clips :: between)).1
    .ask (.leg 0 .clips) (.clips "/a") ∈ (asked.step (.beginLeg 0 .clips)).2 ∧
      (Input.joined 0).Brings (.leg 0 .clips) ∧
      (joined.step (.joined 0)).1.session.shown ≠ joined.session.shown ∧
      joined.session.number = asked.session.number := by
  intro before between asked joined
  have hsent : .ask (.leg 0 .clips) (.clips "/a") ∈ (asked.step (.beginLeg 0 .clips)).2 :=
    List.mem_singleton.mpr rfl
  have hshown : (joined.step (.joined 0)).1.session.shown ≠ joined.session.shown := by
    intro h
    have hloading : (joined.step (.joined 0)).1.session.loading = joined.session.loading :=
      congrArg (fun shown => shown.2.2.1) h
    exact absurd hloading (by decide)
  exact ⟨hsent, ⟨.clips, rfl⟩, hshown, same_number_of_shown_ne {} before between
    (.beginLeg 0 .clips) (.joined 0) hsent ⟨.clips, rfl⟩ hshown⟩

end Control

end CardImport
