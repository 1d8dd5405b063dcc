import CardImport.Proofs.Command.Follow
import Mathlib.Algebra.GroupWithZero.Nat

/-!
# Steps enough

What a command does is bounded by a limit of steps, and a run that reaches it is not finished.
Between two requests there are only so many steps, since each leaves less to do. So with a limit
that is large enough a run is the same as with every larger one, unless it sends more and more
requests: the poll of a job that never ends is all that goes on for ever.
-/

namespace CardImport.Command

open Control

variable {σ α β : Type}

/-! ## Runs without a limit -/

/-- Whether a run sends more and more requests, the more steps it may take. -/
def AsksOn (x : Nat → Step (StateM (World σ)) α) (w : World σ) : Prop :=
  ∀ n, ∃ enough, ∀ limit, enough ≤ limit → n ≤ (runIn (x limit) w).2.replies.length

/-- Whether a run comes to this with every limit that is large enough. -/
def ComesTo (x : Nat → Step (StateM (World σ)) α) (w : World σ)
    (ran : Except Failure α × World σ) : Prop :=
  ∃ enough, ∀ limit, enough ≤ limit → runIn (x limit) w = ran

/-- Whether a run comes to something with `P`, unless it sends more and more requests. -/
def Finishes (P : Except Failure α × World σ → Prop) (x : Nat → Step (StateM (World σ)) α)
    (w : World σ) : Prop :=
  (∃ ran, ComesTo x w ran ∧ P ran) ∨ AsksOn x w

/-- Whether a run that does not stop at its limit is the same with every larger one. -/
def Stable (x : Nat → Step (StateM (World σ)) α) : Prop :=
  ∀ n k w, n ≤ k → (runIn (x n) w).1 ≠ .error .unfinished → runIn (x k) w = runIn (x n) w

/-- Whether a step never forgets a request. -/
def Grows (x : Step (StateM (World σ)) α) : Prop :=
  ∀ w, ∃ new, (runIn x w).2.replies = new ++ w.replies

theorem Quiet.grows {x : Step (StateM (World σ)) α} (hx : Quiet x) : Grows x :=
  fun w => ⟨[], replies_of_held (hx w)⟩

theorem Grows.bind {x : Step (StateM (World σ)) α} {f : α → Step (StateM (World σ)) β}
    (hx : Grows x) (hf : ∀ a, Grows (f a)) : Grows (x >>= f) := by
  intro w
  obtain ⟨new, hnew⟩ := hx w
  rw [runIn_bind]
  rcases hrun : runIn x w with ⟨e | a, w₁⟩ <;> rw [hrun] at hnew
  · exact ⟨new, hnew⟩
  · obtain ⟨more, hmore⟩ := hf a w₁
    refine ⟨more ++ new, ?_⟩
    rw [List.append_assoc, ← hnew]
    exact hmore

section

variable {x : Nat → Step (StateM (World σ)) α} {f : Nat → α → Step (StateM (World σ)) β}
  {w w' : World σ} {P : Except Failure α × World σ → Prop} {Q : Except Failure β × World σ → Prop}

theorem comesTo_const (x : Step (StateM (World σ)) α) (w : World σ) :
    ComesTo (fun _ => x) w (runIn x w) := ⟨0, fun _ _ => rfl⟩

theorem ComesTo.unique {ran ran' : Except Failure α × World σ} (h : ComesTo x w ran)
    (h' : ComesTo x w ran') : ran = ran' := by
  obtain ⟨n, hn⟩ := h
  obtain ⟨k, hk⟩ := h'
  exact (hn _ (Nat.le_max_left n k)).symm.trans (hk _ (Nat.le_max_right n k))

theorem ComesTo.congr {y : Nat → Step (StateM (World σ)) α} {ran : Except Failure α × World σ}
    (h : ComesTo x w ran) (hxy : ∀ limit, runIn (x limit) w = runIn (y limit) w') :
    ComesTo y w' ran := h.imp fun _ hn limit hlimit => (hxy limit).symm.trans (hn limit hlimit)

theorem ComesTo.exists_run {ran : Except Failure α × World σ} (h : ComesTo x w ran) :
    ∃ limit, runIn (x limit) w = ran := h.imp fun n hn => hn n (Nat.le_refl n)

/-- A run that comes to something sends only so many requests. -/
theorem ComesTo.not_asksOn {ran : Except Failure α × World σ} (h : ComesTo x w ran) :
    ¬AsksOn x w := by
  intro hasks
  obtain ⟨n, hn⟩ := h
  obtain ⟨enough, hmore⟩ := hasks (ran.2.replies.length + 1)
  have hlong := hmore _ (Nat.le_max_right n enough)
  rw [hn _ (Nat.le_max_left n enough)] at hlong
  exact Nat.not_succ_le_self _ hlong

theorem ComesTo.bind {a : α} {ran : Except Failure β × World σ} (hx : ComesTo x w (.ok a, w'))
    (hf : ComesTo (fun limit => f limit a) w' ran) :
    ComesTo (fun limit => x limit >>= f limit) w ran := by
  obtain ⟨n, hx⟩ := hx
  obtain ⟨k, hf⟩ := hf
  refine ⟨max n k, fun limit hlimit => ?_⟩
  show runIn (x limit >>= f limit) w = ran
  rw [runIn_bind_of_ok (hx limit (Nat.le_trans (Nat.le_max_left n k) hlimit))]
  exact hf limit (Nat.le_trans (Nat.le_max_right n k) hlimit)

theorem ComesTo.bind_error {e : Failure} (hx : ComesTo x w (.error e, w')) :
    ComesTo (fun limit => x limit >>= f limit) w (.error e, w') := by
  obtain ⟨n, hx⟩ := hx
  refine ⟨n, fun limit hlimit => ?_⟩
  rw [runIn_bind, hx limit hlimit]

theorem AsksOn.bind (hx : AsksOn x w) (hf : ∀ limit a, Grows (f limit a)) :
    AsksOn (fun limit => x limit >>= f limit) w := by
  intro n
  obtain ⟨enough, hx⟩ := hx n
  refine ⟨enough, fun limit hlimit => Nat.le_trans (hx limit hlimit) ?_⟩
  show _ ≤ (runIn (x limit >>= f limit) w).2.replies.length
  rw [runIn_bind]
  rcases runIn (x limit) w with ⟨e | a, w₁⟩
  · exact Nat.le_refl _
  · obtain ⟨more, hmore⟩ := hf limit a w₁
    show _ ≤ (runIn (f limit a) w₁).2.replies.length
    rw [hmore, List.length_append]
    exact Nat.le_add_left _ _

theorem AsksOn.after {a : α} (hx : ComesTo x w (.ok a, w'))
    (hf : AsksOn (fun limit => f limit a) w') :
    AsksOn (fun limit => x limit >>= f limit) w := by
  obtain ⟨k, hx⟩ := hx
  intro n
  obtain ⟨enough, hf⟩ := hf n
  refine ⟨max k enough, fun limit hlimit => ?_⟩
  show n ≤ (runIn (x limit >>= f limit) w).2.replies.length
  rw [runIn_bind_of_ok (hx limit (Nat.le_trans (Nat.le_max_left k enough) hlimit))]
  exact hf limit (Nat.le_trans (Nat.le_max_right k enough) hlimit)

/-- A run finishes if its first part does, and what comes after that. -/
theorem Finishes.bind (hx : Finishes P x w) (hgrows : ∀ limit a, Grows (f limit a))
    (herror : ∀ e w', P (.error e, w') → Q (.error e, w'))
    (hok : ∀ a w', P (.ok a, w') → Finishes Q (fun limit => f limit a) w') :
    Finishes Q (fun limit => x limit >>= f limit) w := by
  rcases hx with ⟨⟨e | a, w'⟩, hcomes, hP⟩ | hasks
  · exact Or.inl ⟨_, hcomes.bind_error, herror e w' hP⟩
  · rcases hok a w' hP with ⟨ran, hafter, hQ⟩ | hafter
    · exact Or.inl ⟨ran, hcomes.bind hafter, hQ⟩
    · exact Or.inr (.after hcomes hafter)
  · exact Or.inr (hasks.bind hgrows)

/-- What a run with two parts comes to is what its first part fails with, or what comes after it. -/
theorem ComesTo.of_bind {ran : Except Failure β × World σ}
    (h : ComesTo (fun limit => x limit >>= f limit) w ran) (hx : Finishes P x w)
    (hgrows : ∀ limit a, Grows (f limit a)) :
    (∃ e w', ComesTo x w (.error e, w') ∧ P (.error e, w') ∧ ran = (.error e, w')) ∨
      ∃ a w', ComesTo x w (.ok a, w') ∧ P (.ok a, w') ∧
        ComesTo (fun limit => f limit a) w' ran := by
  rcases hx with ⟨⟨e | a, w'⟩, hcomes, hP⟩ | hasks
  · exact Or.inl ⟨e, w', hcomes, hP, h.unique hcomes.bind_error⟩
  · refine Or.inr ⟨a, w', hcomes, hP, ?_⟩
    obtain ⟨n, hn⟩ := h
    obtain ⟨k, hk⟩ := hcomes
    refine ⟨max n k, fun limit hlimit => ?_⟩
    rw [← hn limit (Nat.le_trans (Nat.le_max_left n k) hlimit),
      runIn_bind_of_ok (hk limit (Nat.le_trans (Nat.le_max_right n k) hlimit))]
  · exact absurd (hasks.bind hgrows) h.not_asksOn

theorem finishes_const {x : Step (StateM (World σ)) α} (h : P (runIn x w)) :
    Finishes P (fun _ => x) w :=
  Or.inl ⟨_, comesTo_const x w, h⟩

/-- What no limit bounds is done first, and then the rest finishes or does not. -/
theorem Finishes.after {x : Step (StateM (World σ)) α}
    (herror : ∀ e w', runIn x w = (.error e, w') → Q (.error e, w'))
    (hok : ∀ a w', runIn x w = (.ok a, w') → Finishes Q (fun limit => f limit a) w') :
    Finishes Q (fun limit => x >>= f limit) w := by
  rcases hrun : runIn x w with ⟨e | a, w'⟩
  · refine Or.inl ⟨_, ⟨0, fun limit _ => ?_⟩, herror e w' hrun⟩
    rw [runIn_bind, hrun]
  · have hrest : ∀ limit, runIn (x >>= f limit) w = runIn (f limit a) w' :=
      fun limit => runIn_bind_of_ok hrun
    unfold Finishes ComesTo AsksOn
    simp only [hrest]
    exact hok a w' hrun

theorem Finishes.mono {Q : Except Failure α × World σ → Prop} (hx : Finishes P x w)
    (h : ∀ ran, ComesTo x w ran → P ran → Q ran) : Finishes Q x w :=
  hx.imp_left fun ⟨ran, hcomes, hP⟩ => ⟨ran, hcomes, h ran hcomes hP⟩

/-- Whatever a part comes to is handed on. -/
theorem Finishes.attempt (hx : Finishes P x w) :
    Finishes (fun ran => ∃ result, ran.1 = .ok result ∧ P (result, ran.2))
      (fun limit => Network.attempt (x limit)) w := by
  refine hx.imp (fun ⟨ran, ⟨enough, hran⟩, hP⟩ => ?_) fun hasks => hasks
  refine ⟨(.ok ran.1, ran.2), ⟨enough, fun limit hlimit => ?_⟩, ran.1, rfl, hP⟩
  rw [← hran limit hlimit]
  rfl

end

/-! ### Runs that are not stopped -/

section

variable {x : Nat → Step (StateM (World σ)) α} {f : Nat → α → Step (StateM (World σ)) β}

theorem Stable.comesTo (hx : Stable x) {n : Nat} {w : World σ}
    (h : (runIn (x n) w).1 ≠ .error .unfinished) : ComesTo x w (runIn (x n) w) :=
  ⟨n, fun k hlimit => hx n k w hlimit h⟩

theorem stable_const (x : Step (StateM (World σ)) α) : Stable fun _ => x :=
  fun _ _ _ _ _ => rfl

theorem Stable.bind (hx : Stable x) (hf : ∀ a, Stable fun limit => f limit a) :
    Stable fun limit => x limit >>= f limit := by
  intro n k w hle h
  dsimp only at h ⊢
  have hfirst : (runIn (x n) w).1 ≠ .error .unfinished := by
    intro hstopped
    refine h ?_
    rw [runIn_bind]
    rcases hrun : runIn (x n) w with ⟨e | a, w'⟩ <;> rw [hrun] at hstopped <;> cases hstopped
    rfl
  rw [runIn_bind, runIn_bind, hx n k w hle hfirst]
  rw [runIn_bind] at h
  rcases hrun : runIn (x n) w with ⟨e | a, w'⟩
  · rfl
  · rw [hrun] at h
    exact hf a n k w' hle h

end

/-! ## Less and less to do -/

/-- How many steps may come of an action before a request is sent. -/
def effort : Action → Nat
  | .note _ | .merged _ | .remember _ | .ask .. => 0
  | .beginLeg .. | .join _ | .wait .. | .halt _ => 1
  | .begin _ => 3

def efforts (actions : List Action) : Nat := (actions.map effort).sum

theorem efforts_append (first second : List Action) :
    efforts (first ++ second) = efforts first + efforts second := by
  unfold efforts
  rw [List.map_append, List.sum_append]

theorem efforts_notes (entries : List Entry) : efforts (notes entries) = 0 := by
  induction entries with
  | nil => rfl
  | cons entry rest ih => exact (Nat.zero_add _).trans ih

theorem efforts_waitActions_le (s : Session) (id : TaskId) (failures : Nat) :
    efforts (waitActions s id failures) ≤ 1 := by
  unfold waitActions
  cases pollDelay s failures with
  | error f => exact Nat.zero_le 1
  | ok delay => exact Nat.le_refl 1

/-- A turn that is no answer leaves less to do than its action. -/
theorem efforts_turn_lt {a : Action} {c : Control} {id : TaskId} {i : Input} {t t' : Task}
    {s : Session} {new : List Action} (hi : input? a = some i) (h : Turn c id i t s t' new) :
    efforts new < effort a := by
  cases a with
  | begin id =>
      cases hi
      cases h with
      | loadEmpty | loadBegins | refreshAsks => simp [efforts, effort]
      | submitSends =>
          rw [efforts_append, efforts_notes]
          exact (by decide : 0 < 3)
      | pollWaits =>
          exact Nat.lt_of_le_of_lt (efforts_waitActions_le c.session id 0) (by simp [effort])
  | beginLeg id leg =>
      cases hi
      cases h <;> exact Nat.zero_lt_one
  | join id =>
      cases hi
      cases h with
      | listShown | listFailed =>
          rw [efforts_append, efforts_notes]
          exact Nat.zero_lt_one
      | listDropped | listBroken =>
          rw [efforts_notes]
          exact Nat.zero_lt_one
  | wait id delay =>
      cases hi
      cases h <;> exact Nat.zero_lt_one
  | halt id =>
      cases hi
      cases h
      exact Nat.zero_lt_one
  | _ => cases hi

theorem effort_pos {a : Action} {i : Input} (hi : input? a = some i) : 0 < effort a := by
  cases a <;> first | exact Nat.zero_lt_succ _ | cases hi

theorem efforts_step_lt {a : Action} {i : Input} (hi : input? a = some i) (c : Control) :
    efforts (c.step i).2 < effort a := by
  rcases (move_step c i).of_not_call (not_isCall_of_input? hi) with
    ⟨id, t, s, t', -, hturn, -⟩ | ⟨id, r, hresponse, -⟩ | ⟨-, hnone⟩
  · exact efforts_turn_lt hi hturn
  · exact absurd hresponse (not_response_of_input? hi _ _)
  · rw [hnone]
    exact effort_pos hi

/-- What an action leads to is less than there was, unless a request was sent. -/
theorem Acts.less {e : Endpoint} {r r' : Running} {a : Action} {rest actions : List Action}
    {w w' : World σ} (h : Acts e r rest w a r' actions w') :
    w.replies.length < w'.replies.length ∨ efforts actions < efforts (a :: rest) ∨
      efforts actions = efforts (a :: rest) ∧ actions.length < (a :: rest).length := by
  have hskip : ∀ {a : Action}, effort a = 0 → efforts rest = efforts (a :: rest) := by
    intro a ha
    rw [efforts, efforts, List.map_cons, List.sum_cons, ha, Nat.zero_add]
  cases h with
  | note entry => exact Or.inr (Or.inr ⟨hskip rfl, Nat.lt_succ_self _⟩)
  | merged status => exact Or.inr (Or.inr ⟨hskip rfl, Nat.lt_succ_self _⟩)
  | remember path => exact Or.inr (Or.inr ⟨hskip rfl, Nat.lt_succ_self _⟩)
  | ask sender q =>
      rw [replies_askServer]
      exact Or.inl (Nat.lt_succ_self _)
  | input hi =>
      refine Or.inr (Or.inl ?_)
      rw [efforts_append]
      exact Nat.add_lt_add_right (efforts_step_lt hi r.control) _

/-! ## Following to the end -/

section

variable {e : Endpoint}

/-- How a session that was followed to the end is left: with a session, or at a label that could not
be read. -/
def Over (ran : Except Failure Running × World σ) : Prop :=
  (∃ r, ran.1 = .ok r) ∨ Stops ran

theorem stable_follow (r : Running) (actions : List Action) :
    Stable (fun fuel => follow e fuel r actions : Nat → Step (StateM (World σ)) Running) := by
  intro n k w hle h
  induction n generalizing k r actions w with
  | zero =>
      cases actions with
      | nil => exact (follow_nil e k r w).trans (follow_nil e 0 r w).symm
      | cons a rest => exact absurd (congrArg Prod.fst (follow_zero e r rest w a)) h
  | succ n ih =>
      obtain ⟨k, rfl⟩ : ∃ j, k = j + 1 := ⟨k - 1, (Nat.sub_add_cancel (Nat.one_le_of_lt hle)).symm⟩
      cases actions with
      | nil => exact (follow_nil e _ r w).trans (follow_nil e _ r w).symm
      | cons a rest =>
          rcases follow_acts e r rest w a with ⟨f, -, hfollow⟩ | ⟨r', actions', w', -, hfollow⟩
          · exact (hfollow k).trans (hfollow n).symm
          · dsimp only at h ⊢
            rw [hfollow] at h
            rw [hfollow, hfollow]
            exact ih r' actions' k w' (Nat.le_of_succ_le_succ hle) h

theorem stable_feed (r : Running) (i : Input) :
    Stable (fun limit => feed e limit r i : Nat → Step (StateM (World σ)) Running) :=
  stable_follow { r with control := (r.control.step i).1 } (r.control.step i).2

/-- Following a session comes to an end, or to a request. -/
theorem follow_until (r : Running) (actions : List Action) (w : World σ) :
    ∃ n, (∃ ran, Over ran ∧ ∀ fuel, runIn (follow e (fuel + n) r actions) w = ran) ∨
      ∃ r' actions' w', w.replies.length < w'.replies.length ∧
        ∀ fuel, runIn (follow e (fuel + n) r actions) w = runIn (follow e fuel r' actions') w' := by
  match actions with
  | [] => exact ⟨0, Or.inl ⟨_, Or.inl ⟨r, rfl⟩, fun fuel => follow_nil e fuel r w⟩⟩
  | a :: rest =>
      rcases follow_acts e r rest w a with
        ⟨f, hbreaks, hfollow⟩ | ⟨r', actions', w', hacts, hfollow⟩
      · exact ⟨1, Or.inl ⟨_, Or.inr hbreaks.stops, hfollow⟩⟩
      rcases hacts.less with hasked | hless
      · exact ⟨1, Or.inr ⟨r', actions', w', hasked, hfollow⟩⟩
      · obtain ⟨more, hmore⟩ := hacts.replies
        have hkept : w.replies.length ≤ w'.replies.length := by
          rw [hmore, List.length_append]
          exact Nat.le_add_left _ _
        obtain ⟨n, hrest⟩ := follow_until r' actions' w'
        refine ⟨n + 1, hrest.imp ?_ ?_⟩
        · rintro ⟨ran, hover, hran⟩
          exact ⟨ran, hover, fun fuel => (hfollow _).trans (hran fuel)⟩
        · rintro ⟨r'', actions'', w'', hasked, hran⟩
          exact ⟨r'', actions'', w'', Nat.lt_of_le_of_lt hkept hasked,
            fun fuel => (hfollow _).trans (hran fuel)⟩
termination_by (efforts actions, actions.length)
decreasing_by
  rcases hless with hless | ⟨hsame, hshorter⟩
  · exact Prod.Lex.left _ _ hless
  · rw [hsame]
    exact Prod.Lex.right _ hshorter

theorem grows_follow (fuel : Nat) (r : Running) (actions : List Action) :
    Grows (follow e fuel r actions : Step (StateM (World σ)) Running) := fun w => by
  obtain ⟨_, _, hnew, -⟩ := follow_preserves (e := e)
    (P := fun _ _ w' => ∃ new, w'.replies = new ++ w.replies)
    (fun hacts ⟨new, hnew⟩ => by
      obtain ⟨more, hmore⟩ := hacts.replies
      exact ⟨more ++ new, by rw [hmore, hnew, List.append_assoc]⟩)
    (fun _ h => h) fuel actions (r := r) ⟨[], rfl⟩
  exact hnew

theorem finishes_follow (r : Running) (actions : List Action) (w : World σ) :
    Finishes Over (fun fuel => follow e fuel r actions) w := by
  by_cases hcomes : ∃ ran, ComesTo (fun fuel => follow e fuel r actions) w ran ∧ Over ran
  · exact Or.inl hcomes
  refine Or.inr fun n => ?_
  -- Up to the next request there are only so many steps; what comes after it does not end either.
  have hmore : ∃ enough, ∀ fuel, enough ≤ fuel →
      n + w.replies.length ≤ (runIn (follow e fuel r actions) w).2.replies.length := by
    induction n generalizing r actions w with
    | zero =>
        refine ⟨0, fun fuel _ => ?_⟩
        obtain ⟨new, hnew⟩ := grows_follow (e := e) fuel r actions w
        rw [hnew, List.length_append, Nat.zero_add]
        exact Nat.le_add_left _ _
    | succ n ih =>
        obtain ⟨k, ⟨ran, hover, hran⟩ | ⟨r', actions', w', hasked, hran⟩⟩ :=
          follow_until (e := e) r actions w
        · refine absurd ⟨ran, ⟨k, fun fuel hfuel => ?_⟩, hover⟩ hcomes
          rw [← Nat.sub_add_cancel hfuel]
          exact hran _
        · have hlater : ¬ ∃ ran, ComesTo (fun fuel => follow e fuel r' actions') w' ran ∧
              Over ran := by
            rintro ⟨ran, ⟨enough, hend⟩, hover⟩
            refine hcomes ⟨ran, ⟨enough + k, fun fuel hfuel => ?_⟩, hover⟩
            rw [← Nat.sub_add_cancel (Nat.le_of_add_left_le hfuel)]
            exact (hran _).trans (hend _ (Nat.le_sub_of_add_le hfuel))
          obtain ⟨enough, hend⟩ := ih r' actions' w' hlater
          refine ⟨enough + k, fun fuel hfuel => ?_⟩
          have hlong := hend _ (Nat.le_sub_of_add_le hfuel)
          rw [← hran, Nat.sub_add_cancel (Nat.le_of_add_left_le hfuel)] at hlong
          omega
  obtain ⟨enough, henough⟩ := hmore
  exact ⟨enough, fun fuel hfuel => Nat.le_trans (Nat.le_add_right _ _) (henough fuel hfuel)⟩

theorem grows_feed (limit : Nat) (r : Running) (i : Input) :
    Grows (feed e limit r i : Step (StateM (World σ)) Running) := grows_follow limit _ _

theorem finishes_feed (r : Running) (i : Input) (w : World σ) :
    Finishes Over (fun limit => feed e limit r i) w :=
  finishes_follow { r with control := (r.control.step i).1 } (r.control.step i).2 w

end

end CardImport.Command
