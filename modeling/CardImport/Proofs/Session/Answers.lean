import CardImport.Proofs.Session.Isolation
import CardImport.Proofs.Session.Look
import CardImport.Proofs.Session.Polling
import Mathlib.Data.List.Induction

/-!
# What a load makes of its answers

While nothing else is begun, a load alone changes the session: all other tasks belong to other
sessions, and what they are answered shows in none. What the session holds then depends on the
answers to the load, and on what was known of the job before if they tell nothing of it.
-/

namespace CardImport

/-! ## Answers -/

/-- Whether a load waits for the answer to one of its listings. -/
def Task.awaitsLeg : Leg → Task → Bool
  | .clips, .load (.listing _ _ .asked _) => true
  | .takes, .load (.listing _ _ _ .asked) => true
  | _, _ => false

/-- The result of a listing that is done. -/
def LegStage.result? {α : Type} : LegStage α → Option (Except Failure α)
  | .done result => some result
  | _ => none

/-- The answers to the requests of a load. -/
structure Answers where
  clips : Option (Except Failure Response) := none
  takes : Option (Except Failure Response) := none
  status : Option (Except Failure Response) := none

namespace Answers

/-- The first answer to a request counts. -/
def or (a b : Answers) : Answers where
  clips := a.clips.or b.clips
  takes := a.takes.or b.takes
  status := a.status.or b.status

@[simp] theorem or_empty (a : Answers) : a.or {} = a := by simp [or]

@[simp] theorem empty_or (a : Answers) : or {} a = a := by simp [or]

theorem or_assoc (a b c : Answers) : (a.or b).or c = a.or (b.or c) := by
  simp [or, Option.or_assoc]

def clipsOf (path : String) (r : Except Failure Response) : Except Failure (List Clip) :=
  ((listClips path).finish r).outcome.1

def takesOf (r : Except Failure Response) : Except Failure (List Take) :=
  (Registry.list.finish r).outcome.1

/-- The list that two listings come to; it is empty if one of them failed. -/
def listed (scene : Json) (path : String) (clips takes : Except Failure Response) : List Item :=
  match (Reconcile.combine scene path (clipsOf path clips) (takesOf takes)).outcome.1 with
  | .ok items => items
  | .error _ => []

/-- The list that a load puts in place. Without a path nothing is listed. -/
def items? (a : Answers) (scene : Json) (path : String) : Option (List Item) :=
  if path = "" then some []
  else match a.clips, a.takes with
    | some clips, some takes => some (listed scene path clips takes)
    | _, _ => none

end Answers

namespace Control

def awaits (c : Control) : Sender → Bool
  | .task id => (c.task? id).any Task.isAsking
  | .leg id leg => (c.task? id).any (Task.awaitsLeg leg)

/-- The answer that an input brings to a sender who waits for one. -/
def answer? (c : Control) (sender : Sender) : Input → Option (Except Failure Response)
  | .response asker r => if asker = sender ∧ c.awaits sender = true then some r else none
  | _ => none

/-- The answers that an input brings to a load. -/
def answersNow (c : Control) (load : TaskId) (i : Input) : Answers where
  clips := c.answer? (.leg load .clips) i
  takes := c.answer? (.leg load .takes) i
  status := c.answer? (.task load) i

/-- The answers to a load in a run. -/
def answers (c : Control) (load : TaskId) : List Input → Answers
  | [] => {}
  | i :: rest => (c.answersNow load i).or ((c.step i).1.answers load rest)

theorem answers_append (c : Control) (load : TaskId) (first second : List Input) :
    c.answers load (first ++ second) =
      (c.answers load first).or ((c.run first).1.answers load second) := by
  induction first generalizing c with
  | nil => simp [answers, run]
  | cons i rest ih => simp [answers, run, ih, Answers.or_assoc]

theorem answers_concat (c : Control) (load : TaskId) (before : List Input) (i : Input) :
    c.answers load (before ++ [i]) =
      (c.answers load before).or ((c.run before).1.answersNow load i) := by
  simp [answers_append, answers]

theorem eq_response_of_answer {c : Control} {sender : Sender} {i : Input}
    {r : Except Failure Response} (h : c.answer? sender i = some r) : i = .response sender r := by
  unfold answer? at h
  split at h
  · simp only [Option.ite_none_right_eq_some, Option.some.injEq] at h
    obtain ⟨⟨rfl, -⟩, rfl⟩ := h
    rfl
  · cases h

theorem mem_of_answers (c : Control) (load : TaskId) (inputs : List Input) :
    (∀ r, (c.answers load inputs).clips = some r → .response (.leg load .clips) r ∈ inputs) ∧
    (∀ r, (c.answers load inputs).takes = some r → .response (.leg load .takes) r ∈ inputs) ∧
    ∀ r, (c.answers load inputs).status = some r → .response (.task load) r ∈ inputs := by
  induction inputs generalizing c with
  | nil => simp [answers]
  | cons i rest ih =>
      obtain ⟨hclips, htakes, hstatus⟩ := ih (c.step i).1
      have hmem : ∀ {sender r} {later : Option (Except Failure Response)},
          (later = some r → .response sender r ∈ rest) →
            (c.answer? sender i).or later = some r → .response sender r ∈ i :: rest := by
        intro sender r later hlater h
        rcases Option.or_eq_some_iff.mp h with hnow | ⟨-, hthen⟩
        · rw [eq_response_of_answer hnow]
          exact List.mem_cons_self
        · exact List.mem_cons_of_mem _ (hlater hthen)
      exact ⟨fun r => hmem (hclips r), fun r => hmem (htakes r), fun r => hmem (hstatus r)⟩

theorem asking_of_isAsking {stage : LoadStage} (h : (Task.load stage).isAsking = true) :
    ∃ n, stage = .asking n := by
  cases stage with
  | asking n => exact ⟨n, rfl⟩
  | _ => cases h

theorem asked_of_awaitsClips {stage : LoadStage}
    (h : Task.awaitsLeg .clips (.load stage) = true) :
    ∃ n path takes, stage = .listing n path .asked takes := by
  cases stage with
  | listing n path clips takes =>
      cases clips with
      | asked => exact ⟨n, path, takes, rfl⟩
      | _ => cases h
  | _ => cases h

theorem asked_of_awaitsTakes {stage : LoadStage}
    (h : Task.awaitsLeg .takes (.load stage) = true) :
    ∃ n path clips, stage = .listing n path clips .asked := by
  cases stage with
  | listing n path clips takes =>
      cases takes with
      | asked => exact ⟨n, path, clips, rfl⟩
      | _ => cases h
  | _ => cases h

/-- An answer that a load waits for makes it go on. -/
theorem task?_of_answer {c : Control} {sender : Sender} {stage : LoadStage}
    (ht : c.task? sender.taskId = some (.load stage)) {i : Input} {r : Except Failure Response}
    (hi : c.answer? sender i = some r) :
    (c.step i).1.task? sender.taskId ≠ c.task? sender.taskId := by
  cases i with
  | response asker r' =>
      simp only [answer?, Option.ite_none_right_eq_some] at hi
      obtain ⟨⟨rfl, hawaits⟩, -⟩ := hi
      -- Only the task that waits for an answer takes it, and then it waits for it no more.
      cases asker with
      | task id =>
          simp only [Sender.taskId] at ht ⊢
          simp only [awaits, ht, Option.any_some] at hawaits
          obtain ⟨n, rfl⟩ := asking_of_isAsking hawaits
          simp only [step, receive, ht, endLoad_eq]
          rw [task?_setTask_self (c := c.setSession (c.lookSession n r')) ht]
          intro h
          cases h
      | leg id leg =>
          simp only [Sender.taskId] at ht ⊢
          simp only [awaits, ht, Option.any_some] at hawaits
          cases leg with
          | clips =>
              obtain ⟨n, path, takes, rfl⟩ := asked_of_awaitsClips hawaits
              simp only [step, receiveLeg, ht]
              rw [task?_setTask_self ht]
              intro h
              cases h
          | takes =>
              obtain ⟨n, path, clips, rfl⟩ := asked_of_awaitsTakes hawaits
              simp only [step, receiveLeg, ht]
              rw [task?_setTask_self ht]
              intro h
              cases h
  | _ => cases hi

theorem answersNow_clips {c : Control} {load : TaskId} {n : Nat} {path : String}
    {takes : LegStage (List Take)}
    (ht : c.task? load = some (.load (.listing n path .asked takes)))
    (r : Except Failure Response) :
    c.answersNow load (.response (.leg load .clips) r) = { clips := some r } := by
  simp [answersNow, answer?, awaits, ht, Task.awaitsLeg]

theorem answersNow_takes {c : Control} {load : TaskId} {n : Nat} {path : String}
    {clips : LegStage (List Clip)}
    (ht : c.task? load = some (.load (.listing n path clips .asked)))
    (r : Except Failure Response) :
    c.answersNow load (.response (.leg load .takes) r) = { takes := some r } := by
  simp [answersNow, answer?, awaits, ht, Task.awaitsLeg]

theorem answersNow_status {c : Control} {load : TaskId} {n : Nat}
    (ht : c.task? load = some (.load (.asking n))) (r : Except Failure Response) :
    c.answersNow load (.response (.task load) r) = { status := some r } := by
  simp [answersNow, answer?, awaits, ht, Task.isAsking]

/-- An input that leaves a load as it is brings no answer to it. -/
theorem answersNow_of_same {c : Control} {load : TaskId} {stage : LoadStage}
    (ht : c.task? load = some (.load stage)) {i : Input}
    (hsame : (c.step i).1.task? load = c.task? load) : c.answersNow load i = {} := by
  have hnone : ∀ sender : Sender, sender.taskId = load → c.answer? sender i = none := by
    rintro sender rfl
    cases hi : c.answer? sender i with
    | none => rfl
    | some r => exact absurd hsame (task?_of_answer ht hi)
  simp only [answersNow, hnone _ (show Sender.taskId (.leg load _) = load from rfl),
    hnone (.task load) rfl]

/-! ## The other tasks -/

/-- An input that leaves a load to itself: it is no call, and no task takes its first step with it
but the load and those of other sessions. -/
def LeavesAlone (c : Control) (load : TaskId) (i : Input) : Prop :=
  ¬ i.IsCall ∧ ∀ id t, i = .begin id → id ≠ load → c.task? id = some t →
    ∃ n, t.captured? = some n ∧ n ≠ c.session.number

/-- In a run a load is left to itself. -/
def Alone (c : Control) (load : TaskId) : List Input → Prop
  | [] => True
  | i :: rest => c.LeavesAlone load i ∧ (c.step i).1.Alone load rest

theorem alone_append {c : Control} {load : TaskId} {first second : List Input} :
    c.Alone load (first ++ second) ↔
      c.Alone load first ∧ (c.run first).1.Alone load second := by
  induction first generalizing c with
  | nil => simp [Alone, run]
  | cons i rest ih => simp [Alone, run, ih, and_assoc]

/-- Without calls and first steps of other tasks a load is left to itself. -/
theorem alone_of_forall {c : Control} {load : TaskId} {inputs : List Input}
    (h : ∀ i ∈ inputs, ¬ i.IsCall ∧ ∀ id, i = .begin id → id = load) : c.Alone load inputs := by
  induction inputs generalizing c with
  | nil => trivial
  | cons i rest ih =>
      obtain ⟨hcall, hbegin⟩ := h i List.mem_cons_self
      refine ⟨⟨hcall, fun id t hi hne => ?_⟩, ih fun j hj => h j (List.mem_cons_of_mem _ hj)⟩
      exact absurd (hbegin id hi) hne

/-- The tasks besides a load belong to other sessions, or are polls that have not begun. -/
def Apart (c : Control) (load : TaskId) : Prop :=
  ∀ {id t}, id ≠ load → c.task? id = some t →
    t.captured? ≠ some c.session.number ∨ t = .poll c.session.number false .created

theorem Turn.hasBegun_or {c : Control} {id : TaskId} {i : Input} {t t' : Task} {s : Session}
    {actions : List Action} (h : Turn c id i t s t' actions) :
    t.HasBegun ∨ i = .begin id ∧ t.captured? = none := by
  cases h with
  | loadEmpty | loadBegins | submitSends | refreshAsks => exact Or.inr ⟨rfl, rfl⟩
  | _ => exact Or.inl trivial

/-- A task that belongs to another session leaves this one as it is. -/
theorem Turn.session_of_captured_ne {c : Control} {id : TaskId} {i : Input} {t t' : Task}
    {s : Session} {actions : List Action} (h : Turn c id i t s t' actions) (hbegun : t.HasBegun)
    (hn : t.captured? ≠ some c.session.number) : s = c.session := by
  have hne : ∀ {n}, some n ≠ some c.session.number → n ≠ c.session.number :=
    fun h heq => h (congrArg some heq)
  cases h with
  | loadEmpty | loadBegins => exact hbegun.elim
  | listShown hcurrent | listFailed hcurrent => exact absurd hcurrent (hne hn)
  | loadEnds | refreshEnds | pollIdle | pollGoesOn | pollBroken | pollRetries =>
      exact lookSession_of_ne (hne hn) _
  | pollGivesUp =>
      rw [if_neg (hne hn)]
      exact lookSession_of_ne (hne hn) _
  | _ => rfl

/-- When a load is left to itself, the turn of another task leaves the session as it is, and the task
belongs to another session after it. -/
theorem Turn.session_of_apart {c : Control} {id load : TaskId} {i : Input} {t t' : Task}
    {s : Session} {actions : List Action} (h : Turn c id i t s t' actions)
    (ht : c.task? id = some t) (hid : id ≠ load) (hapart : c.Apart load)
    (hi : c.LeavesAlone load i) : s = c.session ∧ t'.captured? ≠ some c.session.number := by
  have hbegun : t.HasBegun := by
    rcases h.hasBegun_or with hbegun | ⟨rfl, hnone⟩
    · exact hbegun
    · obtain ⟨n, hn, -⟩ := hi.2 id t rfl hid ht
      cases hnone.symm.trans hn
  have hpast : t.captured? ≠ some c.session.number := by
    rcases hapart hid ht with hpast | rfl
    · exact hpast
    · -- A poll of this session is not to begin.
      cases h with
      | pollWaits =>
          obtain ⟨n, hn, hne⟩ := hi.2 id _ rfl hid ht
          exact absurd (Option.some.inj hn).symm hne
  refine ⟨h.session_of_captured_ne hbegun hpast, fun hn => ?_⟩
  rcases h.captured hn with hn | ⟨hnot, -⟩
  · exact hpast hn
  · exact hnot hbegun

/-- The other tasks stay apart when the load takes its turn, or one that belongs to another session
after it. -/
theorem Apart.setTask {c : Control} {load id : TaskId} {t t' : Task} {s : Session}
    (h : c.Apart load) (hs : s.number = c.session.number) (ht : c.task? id = some t)
    (ht' : id ≠ load → t'.captured? ≠ some c.session.number) :
    ((c.setSession s).setTask id t').Apart load := by
  intro j u hj hu
  show u.captured? ≠ some s.number ∨ u = .poll s.number false .created
  rw [hs]
  by_cases hij : id = j
  · subst hij
    cases (task?_setTask_self (c := c.setSession s) ht t').symm.trans hu
    exact Or.inl (ht' hj)
  · exact h hj ((task?_setTask_of_ne (c.setSession s) hij t').symm.trans hu)

/-- A poll that is created has not begun. -/
theorem Apart.startPolling {c : Control} {load : TaskId} (h : c.Apart load) :
    c.startPolling.1.Apart load := by
  intro j u hj hu
  rw [session_startPolling]
  cases hold : c.task? j with
  | none => exact Or.inr (task?_startPolling_of_none hold hu)
  | some v =>
      cases (task?_startPolling_of_some hold).symm.trans hu
      exact h hj hold

/-- When a load is left to itself, it takes its turn, or session and load stay as they are; the
other tasks stay apart. -/
theorem Move.apart {c c' : Control} {i : Input} {actions : List Action} (h : Move c i c' actions)
    {load : TaskId} {stage : LoadStage} (hload : c.task? load = some (.load stage))
    (hapart : c.Apart load) (hi : c.LeavesAlone load i) :
    c'.Apart load ∧ ((∃ t', c'.task? load = some t' ∧
        Turn c load i (.load stage) c'.session t' actions) ∨
      c'.session = c.session ∧ c'.task? load = c.task? load) := by
  cases h with
  | opened | closed | edited | polled => exact absurd trivial hi.1
  | started hfresh => cases hfresh <;> exact absurd trivial hi.1
  | @turned i id t s t' actions ht hturn =>
      by_cases hid : id = load
      · subst hid
        cases ht.symm.trans hload
        have hself := task?_setTask_self (c := c.setSession s) ht t'
        exact ⟨hapart.setTask hturn.number ht fun hne => absurd rfl hne, Or.inl ⟨t', hself, hturn⟩⟩
      · obtain ⟨rfl, hpast⟩ := hturn.session_of_apart ht hid hapart hi
        exact ⟨hapart.setTask rfl ht fun _ => hpast, Or.inr ⟨rfl, task?_setTask_of_ne _ hid t'⟩⟩
  | @accepted id r entries ht hr =>
      have hid : id ≠ load := by
        rintro rfl
        cases ht.symm.trans hload
      refine ⟨?_, Or.inr ⟨?_, ?_⟩⟩
      · refine Apart.setTask (Apart.startPolling hapart) rfl (task?_startPolling_of_some ht) ?_
        rintro - ⟨⟩
      · rw [session_setTask, session_startPolling]
      · rw [task?_setTask_of_ne _ hid, task?_startPolling_of_some hload, hload]
  | dropped => exact ⟨hapart, Or.inr ⟨rfl, rfl⟩⟩

end Control

/-! ## The load -/

def Session.loaded (s : Session) (items : List Item) : Session :=
  { s.install items with loading := false }

/-- `LoadPhase s₀ a stage s`: a load that was left to itself from a session `s₀` on, and was given
the answers `a`, is at `stage`, and the session is `s`. -/
inductive LoadPhase (s₀ : Session) (a : Answers) : LoadStage → Session → Prop
  | created (ha : a = {}) : LoadPhase s₀ a .created s₀
  | listing {clips takes} (hpath : s₀.path ≠ "")
      (hclips : clips.result? = a.clips.map (Answers.clipsOf s₀.path))
      (htakes : takes.result? = a.takes.map Answers.takesOf) (hstatus : a.status = none) :
      LoadPhase s₀ a (.listing s₀.number s₀.path clips takes) s₀
  | asking {items} (hitems : a.items? s₀.scene s₀.path = some items) (hstatus : a.status = none) :
      LoadPhase s₀ a (.asking s₀.number) (s₀.loaded items)
  | ended {items r result} (hitems : a.items? s₀.scene s₀.path = some items)
      (hstatus : a.status = some r)
      (hmerged : result = .ok () → ∀ status, Job.told r = .ok status →
        ∃ progress, Progress.ofStatus status = .ok progress) :
      LoadPhase s₀ a (.done result) ((s₀.loaded items).look r)
  | broken {f} : LoadPhase s₀ a (.done (.error f)) s₀

/-- The list of a load is that of its answers. -/
theorem Answers.items?_of_listed {a : Answers} (scene : Json) {path : String} (hpath : path ≠ "")
    {clips : Except Failure (List Clip)} {takes : Except Failure (List Take)}
    (hclips : some clips = a.clips.map (Answers.clipsOf path))
    (htakes : some takes = a.takes.map Answers.takesOf) :
    a.items? scene path = some (match (Reconcile.combine scene path clips takes).outcome.1 with
      | .ok items => items
      | .error _ => []) := by
  obtain ⟨rc, hrc, rfl⟩ := Option.map_eq_some_iff.mp hclips.symm
  obtain ⟨rt, hrt, rfl⟩ := Option.map_eq_some_iff.mp htakes.symm
  simp only [Answers.items?, if_neg hpath, hrc, hrt, Answers.listed]

namespace LoadPhase

variable {s₀ s : Session} {a : Answers} {n : Nat} {path : String}

theorem of_created (h : LoadPhase s₀ a .created s) : a = {} ∧ s = s₀ := by
  cases h with
  | created ha => exact ⟨ha, rfl⟩

theorem of_listing {clips : LegStage (List Clip)} {takes : LegStage (List Take)}
    (h : LoadPhase s₀ a (.listing n path clips takes) s) : n = s.number := by
  cases h with
  | listing => rfl

theorem of_asking (h : LoadPhase s₀ a (.asking n) s) : n = s.number := by
  cases h with
  | asking => rfl

theorem clips {takes : LegStage (List Take)} (h : LoadPhase s₀ a (.listing n path .asked takes) s)
    (r : Except Failure Response) :
    LoadPhase s₀ (a.or { clips := some r })
      (.listing n path (.done (Answers.clipsOf path r)) takes) s := by
  cases h with
  | listing hpath hclips htakes hstatus =>
      have hnone : a.clips = none := Option.map_eq_none_iff.mp hclips.symm
      refine .listing hpath ?_ ?_ ?_
      · simp [Answers.or, hnone, LegStage.result?]
      · simpa [Answers.or] using htakes
      · simpa [Answers.or] using hstatus

theorem takes {clips : LegStage (List Clip)} (h : LoadPhase s₀ a (.listing n path clips .asked) s)
    (r : Except Failure Response) :
    LoadPhase s₀ (a.or { takes := some r })
      (.listing n path clips (.done (Answers.takesOf r))) s := by
  cases h with
  | listing hpath hclips htakes hstatus =>
      have hnone : a.takes = none := Option.map_eq_none_iff.mp htakes.symm
      refine .listing hpath ?_ ?_ ?_
      · simpa [Answers.or] using hclips
      · simp [Answers.or, hnone, LegStage.result?]
      · simpa [Answers.or] using hstatus

/-- With both listings the list of the answers is put in place. -/
theorem joined {clips : Except Failure (List Clip)} {takes : Except Failure (List Take)}
    (h : LoadPhase s₀ a (.listing n path (.done clips) (.done takes)) s) :
    LoadPhase s₀ a (.asking s.number) (s.loaded
      (match (Reconcile.combine s.scene path clips takes).outcome.1 with
      | .ok items => items
      | .error _ => [])) := by
  cases h with
  | listing hpath hclips htakes hstatus =>
      exact .asking (Answers.items?_of_listed s₀.scene hpath hclips htakes) hstatus

/-- With the answer to its look the load is over. -/
theorem told {r : Except Failure Response} {result : Except Failure Unit}
    (h : LoadPhase s₀ a (.asking n) s)
    (hmerged : result = .ok () → ∀ status, Job.told r = .ok status →
      ∃ progress, Progress.ofStatus status = .ok progress) :
    LoadPhase s₀ (a.or { status := some r }) (.done result) (s.look r) := by
  cases h with
  | asking hitems hstatus =>
      refine .ended ?_ ?_ hmerged
      · simpa [Answers.or, Answers.items?] using hitems
      · simp [Answers.or, hstatus]

end LoadPhase

namespace Control

/-- A load that ends without a failure has taken over all of the status that it was told. -/
theorem progress_of_loadEnd {c : Control} {n : Nat} {r : Except Failure Response}
    (hn : n = c.session.number) (h : (loadEnd (c.lookStatus n r)).1 = .ok ()) {status : JobStatus}
    (hr : Job.told r = .ok status) : ∃ progress, Progress.ofStatus status = .ok progress := by
  rcases (look_of_told hr hn).2 with ⟨f, hf, hlook⟩ | ⟨hmerged, -⟩
  · rw [hlook, loadEnd, hf] at h
    cases h
  · exact Session.progress_of_merged hmerged

/-- A turn of the load takes it on with the answer that the input brings. -/
theorem Turn.loadPhase {c : Control} {load : TaskId} {i : Input} {stage : LoadStage} {t' : Task}
    {s s₀ : Session} {a : Answers} {actions : List Action}
    (h : Turn c load i (.load stage) s t' actions) (ht : c.task? load = some (.load stage))
    (hloading : s₀.loading = true) (hphase : LoadPhase s₀ a stage c.session) :
    ∃ stage', t' = .load stage' ∧ LoadPhase s₀ (a.or (c.answersNow load i)) stage' s := by
  cases h with
  | loadEmpty hpath =>
      obtain ⟨rfl, rfl⟩ := hphase.of_created
      have hitems : Answers.items? {} c.session.scene c.session.path = some [] := if_pos hpath
      exact ⟨_, rfl, .asking hitems rfl⟩
  | loadBegins hpath =>
      obtain ⟨rfl, rfl⟩ := hphase.of_created
      have hsame : { c.session with loading := true } = c.session := by
        rw [← hloading]
      rw [hsame]
      exact ⟨_, rfl, .listing hpath rfl rfl rfl⟩
  | clipsAsked | takesAsked =>
      rw [show c.answersNow load _ = {} from rfl, Answers.or_empty]
      cases hphase with
      | listing hpath hclips htakes hstatus =>
          exact ⟨_, rfl, .listing hpath hclips htakes hstatus⟩
  | @clipsListed n path takes r clips entries hlisted =>
      rw [answersNow_clips ht]
      have hnext := hphase.clips r
      rw [Answers.clipsOf, hlisted] at hnext
      exact ⟨_, rfl, hnext⟩
  | @takesListed n path clips r takes entries hlisted =>
      rw [answersNow_takes ht]
      have hnext := hphase.takes r
      rw [Answers.takesOf, hlisted] at hnext
      exact ⟨_, rfl, hnext⟩
  | listShown hn hlist | listFailed hn hlist =>
      rw [show c.answersNow load _ = {} from rfl, Answers.or_empty]
      have hnext := hphase.joined
      rw [hlist] at hnext
      exact ⟨_, rfl, hnext⟩
  -- A load is dropped only after another was opened, and none was.
  | listDropped hn => exact absurd hphase.of_listing hn
  | listBroken =>
      cases hphase with
      | listing => exact ⟨_, rfl, .broken⟩
  | @loadEnds n r =>
      obtain rfl := hphase.of_asking
      rw [answersNow_status ht, lookSession_eq rfl]
      exact ⟨_, rfl, hphase.told fun hok status => progress_of_loadEnd rfl hok⟩

/-- A load that is left to itself goes through its phases. -/
theorem loadPhase_run {c : Control} {load : TaskId} (hload : c.task? load = some (.load .created))
    (hapart : c.Apart load) (hloading : c.session.loading = true) {inputs : List Input}
    (halone : c.Alone load inputs) :
    (c.run inputs).1.Apart load ∧ ∃ stage, (c.run inputs).1.task? load = some (.load stage) ∧
      LoadPhase c.session (c.answers load inputs) stage (c.run inputs).1.session := by
  induction inputs using List.reverseRecOn with
  | nil => exact ⟨hapart, _, hload, .created rfl⟩
  | append_singleton before i ih =>
      obtain ⟨hbefore, hi, -⟩ := alone_append.mp halone
      obtain ⟨hapart', stage, ht, hphase⟩ := ih hbefore
      rw [run_concat_fst, answers_concat]
      obtain ⟨hnext, ⟨t', ht', hturn⟩ | ⟨hsession, hsame⟩⟩ :=
        (move_step (c.run before).1 i).apart ht hapart' hi
      · obtain ⟨stage', rfl, hphase'⟩ := hturn.loadPhase ht hloading hphase
        exact ⟨hnext, stage', ht', hphase'⟩
      · refine ⟨hnext, stage, hsame.trans ht, ?_⟩
        rw [answersNow_of_same ht hsame, Answers.or_empty, hsession]
        exact hphase

end Control

end CardImport
