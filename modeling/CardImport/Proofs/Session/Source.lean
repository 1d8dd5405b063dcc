import CardImport.Proofs.Listing
import CardImport.Proofs.Session.Edit
import CardImport.Proofs.Session.Run
import Mathlib.Data.List.Induction

/-!
# Where a submitted clip comes from

A batch goes out under the path of the session, and the clips in it are those of the list in place.
The two can differ: a path is opened at once, but the old list stays until the new one arrives. A
ghost beside the run remembers which load put the list in place and under which path. A batch holds
clips of its own path exactly if that is still the path of the session, or the batch is empty.
-/

namespace CardImport

/-- Whether a load has gone on to the status; it asks for no listing any more. -/
def Task.HasListed : Task → Prop
  | .load (.asking _) => True
  | .load (.done _) => True
  | _ => False

def Task.isLoad : Task → Bool
  | .load _ => true
  | _ => false

/-- A session number is past, or belongs to this path. -/
def Session.Covers (s : Session) (n : Nat) (path : String) : Prop :=
  n < s.number ∨ n = s.number ∧ path = s.path

namespace Control

/-! ## The list in place -/

/-- The load that puts its list in place with an input, and the path at that time: it was listing
before the input and asks for the status after it. -/
def shown? (c c' : Control) : Input → Option (TaskId × String)
  | .joined id =>
    match c.task? id, c'.task? id with
    | some (.load (.listing ..)), some (.load (.asking _)) => some (id, c.session.path)
    | _, _ => none
  | _ => none

/-- The load whose list is in place after a run, and the path of the session when it arrived. -/
def lister? (c : Control) (last : Option (TaskId × String)) :
    List Input → Option (TaskId × String)
  | [] => last
  | i :: rest => lister? (c.step i).1 ((c.shown? (c.step i).1 i).or last) rest

theorem lister?_concat (c : Control) (last : Option (TaskId × String)) (inputs : List Input)
    (i : Input) : c.lister? last (inputs ++ [i]) =
      ((c.run inputs).1.shown? ((c.run inputs).1.step i).1 i).or (c.lister? last inputs) := by
  induction inputs generalizing c last with
  | nil => rfl
  | cons j rest ih => exact ih _ _

/-- In a run a load has asked for the clips under a path. -/
def AskedClips (c : Control) (inputs : List Input) (id : TaskId) (path : String) : Prop :=
  .ask (.leg id .clips) (.clips path) ∈ (c.run inputs).2

/-- In a run a load has asked for the clips under a path and got these. -/
def Listed (c : Control) (inputs : List Input) (id : TaskId) (path : String)
    (clips : List Clip) : Prop :=
  ∃ before r after, inputs = before ++ .response (.leg id .clips) r :: after ∧
    c.AskedClips before id path ∧ ((listClips path).finish r).outcome.1 = .ok clips

/-- An item of a batch comes from the listing of a path: the list in place was put there by a load
that got the clip of the item under that path. -/
def ComesFrom (o : SessionOptions) (inputs : List Input) (path : String) (sent : Json) : Prop :=
  ∃ id q clips, o.begin.lister? none inputs = some (id, q) ∧
    o.begin.Listed inputs id path clips ∧ ∃ i : Item, i.clip ∈ clips ∧ sent = i.submission

theorem AskedClips.append {c : Control} {inputs : List Input} {id : TaskId} {path : String}
    (h : c.AskedClips inputs id path) (later : List Input) :
    c.AskedClips (inputs ++ later) id path := by
  unfold AskedClips at h ⊢
  rw [run_append]
  exact List.mem_append_left _ h

theorem askedClips_concat {c : Control} {inputs : List Input} {i : Input} {id : TaskId}
    {path : String} : c.AskedClips (inputs ++ [i]) id path ↔
      c.AskedClips inputs id path ∨
        .ask (.leg id .clips) (.clips path) ∈ ((c.run inputs).1.step i).2 := by
  unfold AskedClips
  rw [run_append, run_singleton]
  exact List.mem_append

theorem Listed.append {c : Control} {inputs : List Input} {id : TaskId} {path : String}
    {clips : List Clip} (h : c.Listed inputs id path clips) (later : List Input) :
    c.Listed (inputs ++ later) id path clips := by
  obtain ⟨before, r, after, rfl, hasked, hclips⟩ := h
  exact ⟨before, r, after ++ later, by simp, hasked, hclips⟩

theorem Listed.asked {c : Control} {inputs : List Input} {id : TaskId} {path : String}
    {clips : List Clip} (h : c.Listed inputs id path clips) : c.AskedClips inputs id path := by
  obtain ⟨before, r, after, rfl, hasked, -⟩ := h
  exact hasked.append _

/-! ## What a move does to the list -/

/-- `Relist c c' shown`: on the way from `c` to `c'` a list arrives, the list is emptied, or it
keeps its clips. -/
inductive Relist (c c' : Control) : Option (TaskId × String) → Prop
  | arrived {id path takes m} (ht : c.task? id = some (.load (.listing c.session.number path
        (.done (.ok (c'.session.items.map Item.clip))) takes)))
      (ht' : c'.task? id = some (.load (.asking m))) (hpath : c'.session.path = c.session.path) :
      Relist c c' (some (id, c.session.path))
  | emptied {shown} (hitems : c'.session.items = []) : Relist c c' shown
  | kept (hclips : c'.session.items.map Item.clip = c.session.items.map Item.clip)
      (hsettled : c'.session.loading = false →
        c.session.loading = false ∧ c'.session.path = c.session.path) : Relist c c' none

theorem clips_edit (s : Session) (e : Edit) :
    (s.edit e).1.items.map Item.clip = s.items.map Item.clip := by
  have h := congrArg (List.map Prod.fst) (Items.map_given_edit s.items e)
  simpa [Item.given, Function.comp_def, Session.edit_fst] using h

theorem Relist.of_session_eq {c c' : Control} (h : c'.session = c.session) :
    Relist c c' none := by
  refine .kept ?_ ?_
  · rw [h]
  · intro hl
    rw [h] at hl ⊢
    exact ⟨hl, rfl⟩

theorem Turn.relist {c : Control} {id : TaskId} {i : Input} {t t' : Task} {s : Session}
    {actions : List Action} (ht : c.task? id = some t) (h : Turn c id i t s t' actions) :
    Relist c ((c.setSession s).setTask id t')
      (c.shown? ((c.setSession s).setTask id t') i) := by
  have hself : ((c.setSession s).setTask id t').task? id = some t' :=
    task?_setTask_self (c := c.setSession s) ht t'
  -- A look changes states and progress, but no clip.
  have hlook : ∀ {s' u n r}, s'.items = (c.lookSession n r).items →
      s'.loading = (c.lookSession n r).loading → s'.path = (c.lookSession n r).path →
      Relist c ((c.setSession s').setTask id u) none := by
    intro s' u n r hitems hloading hpath
    have hclips : s'.items.map Item.clip = c.session.items.map Item.clip := by
      rw [hitems]
      exact lookSession_clips c n r
    refine .kept hclips fun hl => ⟨?_, ?_⟩
    · exact (lookSession_loading c n r).symm.trans (hloading.symm.trans hl)
    · exact hpath.trans (lookSession_path c n r)
  cases h with
  | loadEmpty => exact .emptied rfl
  | loadBegins => exact .kept rfl fun hl => Bool.noConfusion hl
  | @listShown n path clips takes items entries hn hlist =>
      have hclips := Reconcile.clips_of_combine hlist
      subst hclips hn
      have hshown : c.shown? ((c.setSession
          { c.session.install items with loading := false }).setTask id
            (.load (.asking c.session.number))) (.joined id) = some (id, c.session.path) := by
        simp only [shown?, ht, hself]
      rw [hshown]
      exact .arrived ht hself rfl
  | listFailed => exact .emptied rfl
  | listDropped | listBroken =>
      simp only [shown?, ht, hself]
      exact .of_session_eq rfl
  | loadEnds | refreshEnds | pollIdle | pollGoesOn | pollBroken | pollRetries =>
      exact hlook rfl rfl rfl
  | pollGivesUp =>
      split
      · exact hlook rfl rfl rfl
      · exact hlook rfl rfl rfl
  | _ => exact .of_session_eq rfl

theorem Move.relist {c c' : Control} {i : Input} {actions : List Action}
    (h : Move c i c' actions) : Relist c c' (c.shown? c' i) := by
  cases h with
  | opened path => exact .kept rfl fun hl => Bool.noConfusion hl
  | closed => exact .kept rfl fun hl => ⟨hl, rfl⟩
  | edited e => exact .kept (clips_edit c.session e) fun hl => ⟨hl, rfl⟩
  | started hfresh => cases hfresh <;> exact .of_session_eq rfl
  | polled => exact .of_session_eq (session_startPolling c)
  | turned ht hturn => exact hturn.relist ht
  | accepted ht hr => exact .of_session_eq (session_startPolling c)
  | dropped =>
      have hnone : c.shown? c i = none := by
        cases i with
        | joined id =>
            simp only [shown?]
            split
            · rename_i hlisting hasking
              rw [hlisting] at hasking
              cases hasking
            · rfl
        | _ => rfl
      rw [hnone]
      exact .of_session_eq rfl

/-- The path changes only with the session number. -/
theorem Move.current {c c' : Control} {i : Input} {actions : List Action}
    (h : Move c i c' actions) : c.session.number < c'.session.number ∨
      c'.session.number = c.session.number ∧ c'.session.path = c.session.path := by
  cases h with
  | opened path => exact Or.inl (Nat.lt_succ_self _)
  | closed => exact Or.inl (Nat.lt_succ_self _)
  | edited e => exact Or.inr ⟨rfl, rfl⟩
  | started hfresh => exact Or.inr ⟨rfl, rfl⟩
  | polled =>
      rw [session_startPolling]
      exact Or.inr ⟨rfl, rfl⟩
  | turned ht hturn => exact Or.inr ⟨hturn.number, hturn.path⟩
  | accepted ht hr =>
      rw [session_setTask, session_startPolling]
      exact Or.inr ⟨rfl, rfl⟩
  | dropped => exact Or.inr ⟨rfl, rfl⟩

theorem Move.asks_clips {c c' : Control} {i : Input} {actions : List Action}
    (h : Move c i c' actions) {id : TaskId} {path : String}
    (ha : .ask (.leg id .clips) (.clips path) ∈ actions) :
    ∃ n takes, c'.task? id = some (.load (.listing n path .asked takes)) := by
  obtain ⟨id', t', hasks, ht', -⟩ := h.asks ha
  cases hasks with
  | clips => exact ⟨_, _, ht'⟩

/-! ## The invariant -/

/-- What the stage of a load says about its listing of clips: it belongs to the path of the session
as long as the load is current, and what the server was asked and answered is known. -/
inductive Knows (c₀ : Control) (inputs : List Input) (s : Session) (id : TaskId) : Task → Prop
  | created (hasked : ∀ p, ¬ c₀.AskedClips inputs id p) : Knows c₀ inputs s id (.load .created)
  | listing {n path clips takes} (hcovers : s.Covers n path)
      (hasked : ∀ p, c₀.AskedClips inputs id p → p = path)
      (hwaits : clips = .asked → c₀.AskedClips inputs id path)
      (hlisted : ∀ cs, clips = .done (.ok cs) → c₀.Listed inputs id path cs) :
      Knows c₀ inputs s id (.load (.listing n path clips takes))
  | listed {t} (ht : t.HasListed) : Knows c₀ inputs s id t
  | other {t} (ht : t.isLoad = false) : Knows c₀ inputs s id t

/-- The clip of an item in place was listed by the load that the ghost names. -/
def Placed (c₀ : Control) (inputs : List Input) (clip : Clip) : Prop :=
  ∃ id q clips t, c₀.lister? none inputs = some (id, q) ∧ c₀.Listed inputs id q clips ∧
    clip ∈ clips ∧ (∀ p, c₀.AskedClips inputs id p → p = q) ∧
    (c₀.run inputs).1.task? id = some t ∧ t.HasListed

/-- What holds after every run from a session without tasks and items. -/
structure Sourced (c₀ : Control) (inputs : List Input) : Prop where
  known : ∀ {id t}, (c₀.run inputs).1.task? id = some t →
    Knows c₀ inputs (c₀.run inputs).1.session id t
  unasked : ∀ {id}, (c₀.run inputs).1.task? id = none → ∀ p, ¬ c₀.AskedClips inputs id p
  placed : ∀ clip ∈ (c₀.run inputs).1.session.items.map Item.clip, Placed c₀ inputs clip
  /-- Between two listings the list in place is that of the path. -/
  settled : (c₀.run inputs).1.session.loading = false →
    (c₀.run inputs).1.session.items = [] ∨
      ∃ id, c₀.lister? none inputs = some (id, (c₀.run inputs).1.session.path)

theorem Turn.hasListed {c : Control} {id : TaskId} {i : Input} {t t' : Task} {s : Session}
    {actions : List Action} (h : Turn c id i t s t' actions) (ht : t.HasListed) :
    t'.HasListed := by
  cases h <;> first | exact ht.elim | trivial

theorem Turn.isLoad {c : Control} {id : TaskId} {i : Input} {t t' : Task} {s : Session}
    {actions : List Action} (h : Turn c id i t s t' actions) : t'.isLoad = t.isLoad := by
  cases h <;> rfl

theorem Became.hasListed {c c' : Control} {i : Input} {actions : List Action} {id : TaskId}
    {t t' : Task} (h : Became c i c' actions id t t') (ht : t.HasListed) : t'.HasListed := by
  cases h with
  | same => exact ht
  | turned hturn => exact hturn.hasListed ht
  | stopped =>
      cases t with
      | load stage => exact ht
      | _ => exact ht.elim
  | accepted => exact ht.elim

/-! ## One more input -/

section

variable {c₀ : Control} {inputs : List Input} {i : Input}

/-- A request for clips that is new leaves its load waiting. -/
theorem askedClips_step {id : TaskId} {t : Task}
    (ht : ((c₀.run inputs).1.step i).1.task? id = some t) {p : String}
    (hasked : c₀.AskedClips (inputs ++ [i]) id p) :
    c₀.AskedClips inputs id p ∨ ∃ n takes, t = .load (.listing n p .asked takes) := by
  rcases askedClips_concat.mp hasked with hold | hnew
  · exact Or.inl hold
  · obtain ⟨n, takes, ht'⟩ := (move_step _ i).asks_clips hnew
    exact Or.inr ⟨n, takes, Option.some.inj (ht.symm.trans ht')⟩

theorem covers_step {n : Nat} {path : String}
    (h : (c₀.run inputs).1.session.Covers n path) :
    ((c₀.run inputs).1.step i).1.session.Covers n path := by
  have hmove := move_step (c₀.run inputs).1 i
  rcases h with hlt | ⟨rfl, rfl⟩
  · exact Or.inl (Nat.lt_of_lt_of_le hlt hmove.number_le)
  · rcases hmove.current with hlt | ⟨hnumber, hpath⟩
    · exact Or.inl hlt
    · exact Or.inr ⟨hnumber.symm, hpath.symm⟩

theorem Knows.same {id : TaskId} {t : Task}
    (ht : ((c₀.run inputs).1.step i).1.task? id = some t)
    (h : Knows c₀ inputs (c₀.run inputs).1.session id t) :
    Knows c₀ (inputs ++ [i]) ((c₀.run inputs).1.step i).1.session id t := by
  cases h with
  | created hasked =>
      refine .created fun p hp => ?_
      rcases askedClips_step ht hp with hold | ⟨n, takes, hnew⟩
      · exact hasked p hold
      · cases hnew
  | listing hcovers hasked hwaits hlisted =>
      refine .listing (covers_step hcovers) (fun p hp => ?_) (fun hc => (hwaits hc).append _)
        (fun cs hc => (hlisted cs hc).append _)
      rcases askedClips_step ht hp with hold | ⟨n, takes, hnew⟩
      · exact hasked p hold
      · cases hnew
        rfl
  | listed hlisted => exact .listed hlisted
  | other hother => exact .other hother

theorem Knows.turned {id : TaskId} {t t' : Task} {s : Session} {actions : List Action}
    (h : Knows c₀ inputs (c₀.run inputs).1.session id t)
    (hturn : Turn (c₀.run inputs).1 id i t s t' actions)
    (hcovers' : ∀ {n path}, (c₀.run inputs).1.session.Covers n path → s.Covers n path)
    (hasks : ∀ p, c₀.AskedClips (inputs ++ [i]) id p → c₀.AskedClips inputs id p ∨
      ∃ n takes, t' = .load (.listing n p .asked takes))
    (hsent : ∀ p, .ask (.leg id .clips) (.clips p) ∈ actions →
      c₀.AskedClips (inputs ++ [i]) id p) :
    Knows c₀ (inputs ++ [i]) s id t' := by
  cases h with
  | created hasked =>
      cases hturn with
      | loadEmpty => exact .listed trivial
      | loadBegins =>
          refine .listing (hcovers' (Or.inr ⟨rfl, rfl⟩)) (fun p hp => ?_) nofun nofun
          rcases hasks p hp with hold | ⟨n, takes, hnew⟩
          · exact absurd hold (hasked p)
          · cases hnew
  -- Only the request for the clips and its answer change what the load knows of them.
  | listing hcovers hasked hwaits hlisted =>
      cases hturn with
      | clipsAsked =>
          refine .listing (hcovers' hcovers) (fun p hp => ?_)
            (fun _ => hsent _ (List.mem_singleton.mpr rfl)) nofun
          rcases hasks p hp with hold | ⟨n, takes, hnew⟩
          · exact hasked p hold
          · cases hnew
            rfl
      | @clipsListed n path takes r clips entries hclips =>
          refine .listing (hcovers' hcovers) (fun p hp => ?_) nofun (fun cs hc => ?_)
          · rcases hasks p hp with hold | ⟨n, takes, hnew⟩
            · exact hasked p hold
            · cases hnew
          · cases hc
            exact ⟨inputs, r, [], rfl, hwaits rfl, congrArg Prod.fst hclips⟩
      | takesAsked | takesListed =>
          refine .listing (hcovers' hcovers) (fun p hp => ?_) (fun hc => (hwaits hc).append _)
            (fun cs hc => (hlisted cs hc).append _)
          rcases hasks p hp with hold | ⟨n, takes, hnew⟩
          · exact hasked p hold
          · cases hnew
            rfl
      | _ => exact .listed trivial
  | listed hlisted => exact .listed (hturn.hasListed hlisted)
  | other hother => exact .other (hturn.isLoad.trans hother)

theorem Knows.concat {id : TaskId} {t t' : Task}
    (ht' : ((c₀.run inputs).1.step i).1.task? id = some t')
    (hb : Became (c₀.run inputs).1 i ((c₀.run inputs).1.step i).1 ((c₀.run inputs).1.step i).2
      id t t') (h : Knows c₀ inputs (c₀.run inputs).1.session id t) :
    Knows c₀ (inputs ++ [i]) ((c₀.run inputs).1.step i).1.session id t' := by
  cases hb with
  | same => exact h.same ht'
  | turned hturn =>
      exact h.turned hturn covers_step (fun p => askedClips_step ht')
        fun p hp => askedClips_concat.mpr (Or.inr hp)
  | stopped =>
      cases t with
      | poll => exact .other rfl
      | _ => exact h.same ht'
  | accepted => exact .other rfl

theorem Placed.concat {clip : Clip} (h : Placed c₀ inputs clip)
    (hshown : (c₀.run inputs).1.shown? ((c₀.run inputs).1.step i).1 i = none) :
    Placed c₀ (inputs ++ [i]) clip := by
  obtain ⟨id, q, clips, t, hlister, hlisted, hclip, hasked, ht, hdone⟩ := h
  obtain ⟨t', ht', hb⟩ := (move_step (c₀.run inputs).1 i).became ht
  -- The load is past its listing, so it asks for no other path.
  have hdone' := hb.hasListed hdone
  refine ⟨id, q, clips, t', ?_, hlisted.append _, hclip, fun p hp => ?_, ?_, hdone'⟩
  · rw [lister?_concat, hshown]
    exact hlister
  · rcases askedClips_step ht' hp with hold | ⟨n, takes, hnew⟩
    · exact hasked p hold
    · rw [hnew] at hdone'
      exact hdone'.elim
  · rw [run_concat_fst]
    exact ht'

theorem Sourced.known_concat (h : Sourced c₀ inputs) {id : TaskId} {t' : Task}
    (ht' : ((c₀.run inputs).1.step i).1.task? id = some t') :
    Knows c₀ (inputs ++ [i]) ((c₀.run inputs).1.step i).1.session id t' := by
  have hmove := move_step (c₀.run inputs).1 i
  cases hold : (c₀.run inputs).1.task? id with
  | none =>
      -- A task that is new has not asked for anything.
      have hasked : ∀ p, ¬ c₀.AskedClips (inputs ++ [i]) id p := by
        intro p hp
        rcases askedClips_step ht' hp with hasked | ⟨n, takes, rfl⟩
        · exact h.unasked hold p hasked
        · cases hmove.new hold ht'
      cases hmove.new hold ht' with
      | load => exact .created hasked
      | _ => exact .other rfl
  | some t =>
      obtain ⟨u, hu, hb⟩ := hmove.became hold
      obtain rfl : u = t' := Option.some.inj (hu.symm.trans ht')
      exact (h.known hold).concat ht' hb

theorem Sourced.unasked_concat (h : Sourced c₀ inputs) {id : TaskId}
    (hnone : ((c₀.run inputs).1.step i).1.task? id = none) (p : String) :
    ¬ c₀.AskedClips (inputs ++ [i]) id p := by
  intro hp
  have hmove := move_step (c₀.run inputs).1 i
  have hold : (c₀.run inputs).1.task? id = none := by
    cases hold : (c₀.run inputs).1.task? id with
    | none => rfl
    | some t =>
        obtain ⟨u, hu, -⟩ := hmove.became hold
        cases hnone.symm.trans hu
  rcases askedClips_concat.mp hp with hasked | hnew
  · exact h.unasked hold p hasked
  · obtain ⟨n, takes, ht⟩ := hmove.asks_clips hnew
    cases hnone.symm.trans ht

theorem Sourced.placed_concat (h : Sourced c₀ inputs) {clip : Clip}
    (hclip : clip ∈ ((c₀.run inputs).1.step i).1.session.items.map Item.clip) :
    Placed c₀ (inputs ++ [i]) clip := by
  have hrelist := (move_step (c₀.run inputs).1 i).relist
  generalize hshown : (c₀.run inputs).1.shown? ((c₀.run inputs).1.step i).1 i = shown at hrelist
  cases hrelist with
  | @arrived id path takes m ht ht' hpath =>
      -- The load that shows its list is current, so it listed under the path of the session.
      cases h.known ht with
      | listing hcovers hasked hwaits hlisted =>
          obtain ⟨-, rfl⟩ : _ ∧ path = (c₀.run inputs).1.session.path :=
            hcovers.resolve_left (Nat.lt_irrefl _)
          refine ⟨id, (c₀.run inputs).1.session.path, _, .load (.asking m), ?_,
            (hlisted _ rfl).append _, hclip, fun p hp => ?_, ?_, trivial⟩
          · rw [lister?_concat, hshown]
            rfl
          · rcases askedClips_step ht' hp with hold | ⟨n, takes, hnew⟩
            · exact hasked p hold
            · cases hnew
          · rw [run_concat_fst]
            exact ht'
      | listed hlisted => exact hlisted.elim
      | other hother => cases hother
  | emptied hitems =>
      rw [hitems] at hclip
      cases hclip
  | kept hclips hsettled =>
      rw [hclips] at hclip
      exact (h.placed clip hclip).concat hshown

theorem Sourced.settled_concat (h : Sourced c₀ inputs)
    (hloading : ((c₀.run inputs).1.step i).1.session.loading = false) :
    ((c₀.run inputs).1.step i).1.session.items = [] ∨
      ∃ id, c₀.lister? none (inputs ++ [i]) =
        some (id, ((c₀.run inputs).1.step i).1.session.path) := by
  have hrelist := (move_step (c₀.run inputs).1 i).relist
  generalize hshown : (c₀.run inputs).1.shown? ((c₀.run inputs).1.step i).1 i = shown at hrelist
  rw [lister?_concat, hshown]
  cases hrelist with
  | arrived ht ht' hpath =>
      rw [hpath]
      exact Or.inr ⟨_, rfl⟩
  | emptied hitems => exact Or.inl hitems
  | kept hclips hsettled =>
      obtain ⟨hold, hpath⟩ := hsettled hloading
      rcases h.settled hold with hitems | ⟨id, hlister⟩
      · rw [hitems] at hclips
        exact Or.inl (List.map_eq_nil_iff.mp hclips)
      · rw [hpath]
        exact Or.inr ⟨id, hlister⟩

theorem Sourced.concat (h : Sourced c₀ inputs) (i : Input) : Sourced c₀ (inputs ++ [i]) := by
  have hrun := run_concat_fst c₀ inputs i
  refine ⟨?_, ?_, ?_, ?_⟩
  · intro id t' ht'
    rw [hrun] at ht' ⊢
    exact h.known_concat ht'
  · intro id hnone
    rw [hrun] at hnone
    exact h.unasked_concat hnone
  · intro clip hclip
    rw [hrun] at hclip
    exact h.placed_concat hclip
  · intro hloading
    rw [hrun] at hloading ⊢
    exact h.settled_concat hloading

end

theorem sourced_run (o : SessionOptions) (inputs : List Input) : Sourced o.begin inputs := by
  induction inputs using List.reverseRecOn with
  | nil =>
      refine ⟨fun ht => ?_, fun _ p hp => ?_, fun clip hclip => ?_, fun _ => Or.inl rfl⟩
      · cases ht
      · cases hp
      · cases hclip
  | append_singleton inputs i ih => exact ih.concat i

/-! ## Batches -/

/-- A batch is fixed and sent in one step. -/
theorem Move.asks_submit {c c' : Control} {i : Input} {actions : List Action}
    (h : Move c i c' actions) {sender : Sender} {path : String} {subdirectory : Json}
    {batch : List Json} (ha : .ask sender (.submit path subdirectory batch) ∈ actions) :
    path = c.session.path ∧ subdirectory = c.session.subdirectory ∧
      batch = Items.batch c.session.items := by
  obtain ⟨id, t', hasks, -, -⟩ := h.asks ha
  cases hasks with
  | submit => exact ⟨rfl, rfl, rfl⟩

theorem mem_batch {items : List Item} {sent : Json} (h : sent ∈ Items.batch items) :
    ∃ i ∈ items, sent = i.submission := by
  obtain ⟨i, hi, rfl⟩ := List.mem_map.mp h
  exact ⟨i, Items.mem_of_mem_submitted hi, rfl⟩

/-- What a batch holds comes from the listing of its path, exactly if it is empty or the list in
place arrived under that path; between two listings it always does. -/
theorem submitted_comesFrom_iff (o : SessionOptions) (inputs : List Input) (i : Input)
    {sender : Sender} {path : String} {subdirectory : Json} {batch : List Json}
    (hsent : .ask sender (.submit path subdirectory batch) ∈
      ((o.begin.run inputs).1.step i).2) :
    ((∀ sent ∈ batch, ComesFrom o inputs path sent) ↔
      batch = [] ∨ ∃ id, o.begin.lister? none inputs = some (id, path)) ∧
    ((o.begin.run inputs).1.session.loading = false →
      ∀ sent ∈ batch, ComesFrom o inputs path sent) := by
  obtain ⟨rfl, -, rfl⟩ := (move_step _ i).asks_submit hsent
  have hsourced := sourced_run o inputs
  have hplaced : ∀ sent ∈ Items.batch (o.begin.run inputs).1.session.items,
      ∃ i : Item, Placed o.begin inputs i.clip ∧ sent = i.submission := by
    intro sent hmem
    obtain ⟨item, hitem, rfl⟩ := mem_batch hmem
    exact ⟨item, hsourced.placed item.clip (List.mem_map_of_mem hitem), rfl⟩
  -- A list that arrived under the path of the session was listed under it.
  have hcomes : ∀ {id}, o.begin.lister? none inputs =
      some (id, (o.begin.run inputs).1.session.path) →
      ∀ sent ∈ Items.batch (o.begin.run inputs).1.session.items,
        ComesFrom o inputs (o.begin.run inputs).1.session.path sent := by
    intro id hlister sent hmem
    obtain ⟨item, ⟨id', q, clips, t, hlister', hlisted, hclip, -⟩, rfl⟩ := hplaced sent hmem
    cases hlister.symm.trans hlister'
    exact ⟨id, _, clips, hlister, hlisted, item, hclip, rfl⟩
  refine ⟨⟨fun hall => ?_, ?_⟩, fun hloading => ?_⟩
  · rcases hbatch : Items.batch (o.begin.run inputs).1.session.items with _ | ⟨sent, rest⟩
    · exact Or.inl rfl
    · have hmem : sent ∈ Items.batch (o.begin.run inputs).1.session.items := by
        rw [hbatch]
        exact List.mem_cons_self
      obtain ⟨item, ⟨id, q, clips, t, hlister, -, -, hasked, -⟩, rfl⟩ := hplaced sent hmem
      obtain ⟨id', q', clips', hlister', hlisted, -⟩ := hall _ hmem
      cases hlister.symm.trans hlister'
      rw [hasked _ hlisted.asked]
      exact Or.inr ⟨id, hlister⟩
  · rintro (hempty | ⟨id, hlister⟩)
    · rw [hempty]
      intro sent hmem
      cases hmem
    · exact hcomes hlister
  · rcases hsourced.settled hloading with hitems | ⟨id, hlister⟩
    · rw [hitems]
      intro sent hmem
      cases hmem
    · exact hcomes hlister

/-- A batch sent after the first load holds clips of its path. -/
theorem submitted_comesFrom_first_load :
    let inputs := firstLoad "/a" ++ [.submit]
    ∃ subdirectory batch, batch ≠ [] ∧
      .ask (.task 1) (.submit "/a" subdirectory batch) ∈
        (((({} : SessionOptions).begin.run inputs).1).step (.begin 1)).2 ∧
      ∀ sent ∈ batch, ComesFrom {} inputs "/a" sent := by
  intro inputs
  let s := (({} : SessionOptions).begin.run inputs).1.session
  have hsent : .ask (.task 1) (.submit "/a" s.subdirectory (Items.batch s.items)) ∈
      (((({} : SessionOptions).begin.run inputs).1).step (.begin 1)).2 :=
    List.mem_append_right _ (List.mem_singleton.mpr rfl)
  refine ⟨s.subdirectory, Items.batch s.items, nofun, hsent, ?_⟩
  exact (submitted_comesFrom_iff {} inputs (.begin 1) hsent).2 rfl

/-- A batch sent before the list of a new path has arrived holds the clips of the old one. -/
theorem not_comesFrom_before_list :
    let inputs := firstLoad "/a" ++ [.openPath "/b", .submit]
    ∃ subdirectory, ∃ item : Item,
      .ask (.task 2) (.submit "/b" subdirectory [item.submission]) ∈
        (((({} : SessionOptions).begin.run inputs).1).step (.begin 2)).2 ∧
      ¬ ComesFrom {} inputs "/b" item.submission := by
  intro inputs
  let s := (({} : SessionOptions).begin.run inputs).1.session
  have hsent : .ask (.task 2) (.submit "/b" s.subdirectory (Items.batch s.items)) ∈
      (((({} : SessionOptions).begin.run inputs).1).step (.begin 2)).2 :=
    List.mem_append_right _ (List.mem_singleton.mpr rfl)
  have hactions : ∃ entry, (({} : SessionOptions).begin.run inputs).2 =
      [.remember "/a", .begin 0, .beginLeg 0 .clips, .beginLeg 0 .takes,
        .ask (.leg 0 .clips) (.clips "/a"), .ask (.leg 0 .takes) .takes, .join 0, .note entry,
        .ask (.task 0) .status, .remember "/b", .begin 1, .begin 2] := ⟨_, rfl⟩
  refine ⟨s.subdirectory, s.items.get ⟨0, by decide⟩, hsent, ?_⟩
  rintro ⟨id, q, clips, -, hlisted, -⟩
  -- Nothing was asked under the new path so far.
  have hasked := hlisted.asked
  obtain ⟨entry, hactions⟩ := hactions
  rw [AskedClips, hactions] at hasked
  simp at hasked

end Control

end CardImport
