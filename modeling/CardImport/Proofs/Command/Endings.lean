import CardImport.Command.Run
import CardImport.Proofs.Command.DryRun
import CardImport.Proofs.Command.Showing

/-!
# How commands end

A command ends well if it comes to the exit code of success, or to that of failure after it told what
failed. It does if its calls fail in no other ways than those that are reported, and if all that it
shows can be shown; only the styles in a text that it shows can still stop it.
-/

namespace CardImport.Command

open Network

variable {σ α β : Type}

/-! ## Ending well -/

/-- Whether a failure was told in a world: in a report, or in red. -/
def Told (w : World σ) : Prop :=
  w.output ≠ "" ∨ ∃ text, .print ("[red]" ++ text ++ "[/red]") ∈ w.happened

/-- Whether a run of a command succeeds, or fails and tells so. -/
def EndsWell (ran : Except Failure Exit × World σ) : Prop :=
  ran.1 = .ok success ∨ ran.1 = .ok failed ∧ Told ran.2

/-- Whether a run of a command ends well, or stops at a text whose styles cannot be read. -/
def Closes (ran : Except Failure Exit × World σ) : Prop := EndsWell ran ∨ Stops ran

theorem Closes.stops {f : Failure} {w : World σ}
    (h : Closes ((.error f, w) : Except Failure Exit × World σ)) :
    Stops ((.error f, w) : Except Failure Exit × World σ) := by
  rcases h with (hcode | ⟨hcode, -⟩) | hstops
  · cases hcode
  · cases hcode
  · exact hstops

/-- An event is shown after its texts were read, or one of them cannot be read. -/
theorem emit_cases (event : Event) (w : World σ) :
    Stops (runIn (emit event) w) ∨
      runIn (emit event) w = (.ok (), (reading event.markup.reverse w).record event) := by
  unfold emit
  rcases readMarkup_cases event.markup w with ⟨text, message, read, hfault, hread⟩ | hread
  · refine Or.inl (.bind ?_)
    rw [hread]
    exact stops_of_fault hfault
  · refine Or.inr ?_
    rw [runIn_bind_of_ok hread]
    rfl

theorem told_of_output {w : World σ} {before text : String} (h : w.output = before ++ text)
    (htext : text ≠ "") : Told w := by
  refine Or.inl fun hempty => ?_
  rw [h] at hempty
  exact htext (String.append_eq_empty_iff.mp hempty).2

theorem told_of_echo {text : String} {w : World σ} {before : String}
    (h : w.output = before ++ (text ++ "\n")) : Told w := by
  refine told_of_output h fun hempty => ?_
  exact absurd (String.append_eq_empty_iff.mp hempty).2 (by decide)

theorem closes_fail (json : Bool) (message : String) (w : World σ) :
    Closes (runIn (fail json message) w) := by
  unfold fail
  cases json with
  | true => exact Or.inl (Or.inr ⟨rfl, told_of_echo rfl⟩)
  | false =>
      have htext : "[red]" ++ ("Error: " ++ message) ++ "[/red]" =
          "[red]Error: " ++ message ++ "[/red]" := by
        rw [← String.append_assoc]
        rfl
      rcases emit_cases (.print ("[red]Error: " ++ message ++ "[/red]")) w with hstops | hshown
      · exact Or.inr (.bind hstops)
      · show Closes (runIn (emit _ >>= fun _ => pure failed) w)
        rw [runIn_bind_of_ok hshown]
        refine Or.inl (Or.inr ⟨rfl, Or.inr ⟨"Error: " ++ message, ?_⟩⟩)
        rw [htext]
        exact List.mem_cons_self

theorem closes_refuse {f : Failure} (hf : f.kind.isReported = true) (json : Bool)
    (w : World σ) : Closes (runIn (refuse json f) w) := by
  rw [refuse, if_pos hf]
  exact closes_fail json f.message w

theorem runIn_attempt (x : Step (StateM (World σ)) α)
    (f : Except Failure α → Step (StateM (World σ)) β) (w : World σ) :
    runIn (attempt x >>= f) w = runIn (f (runIn x w).1) (runIn x w).2 := rfl

/-- A step that fails in no other way than those that are reported closes if what comes after it
does. -/
theorem closes_reported {x : Step (StateM (World σ)) α} {json : Bool}
    {next : α → Step (StateM (World σ)) Exit} {w : World σ} (hx : Excused (runIn x w).1)
    (hnext : ∀ a, (runIn x w).1 = .ok a → Closes (runIn (next a) (runIn x w).2)) :
    Closes (runIn (reported json x next) w) := by
  rw [reported, runIn_attempt]
  cases hresult : (runIn x w).1 with
  | ok a => exact hnext a hresult
  | error f => exact closes_refuse (hx f hresult) json _

theorem isReported_of_endsWell_refuse {f : Failure} {json : Bool} {w : World σ}
    (h : EndsWell (runIn (refuse json f) w)) : f.kind.isReported = true := by
  by_contra hf
  rw [refuse, if_neg hf] at h
  rcases h with hcode | ⟨hcode, -⟩
  · cases hcode
  · cases hcode

/-- A step that may fail ends well only if its failure is one that is reported, and only if what
comes after it does. -/
theorem of_endsWell_reported {x : Step (StateM (World σ)) α} {json : Bool}
    {next : α → Step (StateM (World σ)) Exit} {w : World σ}
    (h : EndsWell (runIn (reported json x next) w)) :
    Excused (runIn x w).1 ∧
      ∀ a, (runIn x w).1 = .ok a → EndsWell (runIn (next a) (runIn x w).2) := by
  rw [reported, runIn_attempt] at h
  cases hresult : (runIn x w).1 with
  | ok a =>
      rw [hresult] at h
      refine ⟨failsAs_ok a, fun b hb => ?_⟩
      cases hb
      exact h
  | error f =>
      rw [hresult] at h
      refine ⟨FailsAs.error (isReported_of_endsWell_refuse h), fun b hb => ?_⟩
      cases hb

/-! ## Parts of a command -/

/-- Whether a run of a part of a command comes to a value with `Q` or fails in a way that is
reported, unless it stops at a text whose styles cannot be read. -/
def Fares (Q : α → World σ → Prop) (ran : Except Failure α × World σ) : Prop :=
  Stops ran ∨ Excused ran.1 ∧ ∀ a, ran.1 = .ok a → Q a ran.2

section

variable {Q : α → World σ → Prop} {w : World σ}

theorem fares_ok {a : α} (h : Q a w) : Fares Q (.ok a, w) := by
  refine Or.inr ⟨failsAs_ok a, fun b hb => ?_⟩
  cases hb
  exact h

theorem fares_error {f : Failure} (hf : f.kind.isReported = true) : Fares Q (.error f, w) := by
  refine Or.inr ⟨FailsAs.error hf, fun a ha => ?_⟩
  cases ha

theorem Fares.of_ok {a : α} (h : Fares Q (.ok a, w)) : Q a w := by
  rcases h with ⟨⟨message, hmessage⟩, -⟩ | ⟨-, hQ⟩
  · cases hmessage
  · exact hQ a rfl

theorem Fares.of_error {f : Failure} {Q' : β → World σ → Prop}
    (h : Fares Q (.error f, w)) : Fares Q' (.error f, w) := by
  rcases h with ⟨⟨message, hmessage⟩, hfaulty⟩ | ⟨hexcused, -⟩
  · exact Or.inl ⟨⟨message, congrArg Except.error (Except.error.inj hmessage)⟩, hfaulty⟩
  · exact fares_error (hexcused f rfl)

theorem Fares.bind {x : Step (StateM (World σ)) α} {f : α → Step (StateM (World σ)) β}
    {Q' : β → World σ → Prop} (hx : Fares Q (runIn x w))
    (hf : ∀ a w', Q a w' → Fares Q' (runIn (f a) w')) : Fares Q' (runIn (x >>= f) w) := by
  rcases hx with hstops | ⟨hexcused, hQ⟩
  · exact Or.inl hstops.bind
  · rw [runIn_bind]
    rcases hrun : runIn x w with ⟨e | a, w'⟩ <;> rw [hrun] at hexcused hQ
    · exact fares_error (hexcused e rfl)
    · exact hf a w' (hQ a rfl)

theorem fares_except {x : Except Failure α} (hx : Excused x) (w : World σ) :
    Fares (fun a w' => x = .ok a ∧ w' = w)
      (runIn (liftM x : Step (StateM (World σ)) α) w) := by
  rw [runIn_except]
  cases x with
  | error e => exact fares_error (hx e rfl)
  | ok a => exact fares_ok ⟨rfl, rfl⟩

theorem fares_emit (event : Event) (w : World σ) :
    Fares (fun _ w' => w' = (reading event.markup.reverse w).record event)
      (runIn (emit event) w) := by
  rcases emit_cases event w with hstops | hshown
  · exact Or.inl hstops
  · rw [hshown]
    exact fares_ok rfl

end

/-! ## Calls -/

theorem runIn_settle (x : Noted α) (w : World σ) :
    (runIn (settle x) w).1 = x.outcome.1 ∧ unseen (runIn (settle x) w).2 = unseen w := by
  rw [runIn, settle_run]
  exact ⟨rfl, unseen_noteAll _ _⟩

/-- A call decodes the reply to its request, and changes nothing else but what happened. -/
theorem perform_run (e : Endpoint) (c : Call α) (w : World σ) :
    (runIn (perform e c) w).1 =
        (c.finish (received (c.request e) (reply w (c.request e)))).outcome.1 ∧
      unseen (runIn (perform e c) w).2 = unseen (World.exchange (c.request e) w).2 := by
  let q := c.request e
  let noted := ((noteAll c.before : StateM (World σ) Unit).run w).2
  have hnoted : unseen noted = unseen w := unseen_noteAll _ _
  have hsent : runIn (perform e c) w =
      runIn (attempt (settle (Exchange.receive q (reply noted q))) >>= fun response =>
        settle (c.finish response)) (World.exchange q noted).2 := rfl
  obtain ⟨hreceived, hkept⟩ :=
    runIn_settle (Exchange.receive q (reply noted q)) (World.exchange q noted).2
  rw [hsent, runIn_attempt, hreceived, reply_of_unseen hnoted]
  rw [reply_of_unseen hnoted] at hkept
  obtain ⟨hfinished, hend⟩ := runIn_settle (c.finish (received q (reply w q)))
    (runIn (settle (Exchange.receive q (reply w q))) (World.exchange q noted).2).2
  exact ⟨hfinished, hend.trans (hkept.trans (exchange_of_unseen hnoted q).2)⟩

theorem replies_perform (e : Endpoint) (c : Call α) (w : World σ) :
    (runIn (perform e c) w).2.replies =
      (c.request e, reply w (c.request e)) :: w.replies :=
  (replies_of_unseen (perform_run e c w).2).trans (replies_exchange _ w)

/-- A call whose reply suits its request is excused, if it is for a response with data that it
takes. -/
theorem excused_perform {e : Endpoint} {c : Call α} {w : World σ} {P : Json → Prop}
    (h : Suits P (reply w (c.request e)))
    (haccept : ∀ r : Response, (r.isSuccess = true → P r.data) →
      (c.accept r).FailsAs fun f => f.kind.isReported = true) :
    Excused (runIn (perform e c) w).1 := by
  rw [(perform_run e c w).1]
  exact failsAs_finish h _ (fun _ => rfl) haccept

/-- A command asks for nothing after its first step, if what comes after that is quiet. -/
theorem replies_of_reported (json : Bool) {x : Step (StateM (World σ)) α}
    {next : α → Step (StateM (World σ)) Exit} (hnext : ∀ a, Quiet (next a)) (w : World σ) :
    (runIn (reported json x next) w).2.replies = (runIn x w).2.replies := by
  rw [reported, runIn_attempt]
  cases (runIn x w).1 with
  | ok a => exact replies_of_held (hnext a _)
  | error f => exact replies_of_held (quiet_refuse json f _)

/-! ## Steps that show something -/

/-- Whether a step asks the server nothing, and if `p` holds comes to a value with `Q`, unless it
stops at a text that cannot be read. -/
structure Shows (p : Prop) (Q : α → Prop) (x : Step (StateM (World σ)) α) : Prop where
  quiet : Quiet x
  value : p → ∀ w, Stops (runIn x w) ∨ ∃ a w', runIn x w = (.ok a, w') ∧ Q a

variable {p : Prop} {Q : α → Prop} {x : Step (StateM (World σ)) α}

theorem shows_pure {a : α} (h : Q a) : Shows p Q (pure a : Step (StateM (World σ)) α) :=
  ⟨quiet_pure a, fun _ _ => Or.inr ⟨a, _, rfl, h⟩⟩

theorem Shows.bind {Q : β → Prop} {f : α → Step (StateM (World σ)) β}
    (hx : Shows p (fun _ => True) x) (hf : ∀ a, Shows p Q (f a)) : Shows p Q (x >>= f) := by
  refine ⟨hx.quiet.bind fun a => (hf a).quiet, fun hp w => ?_⟩
  rcases hx.value hp w with hstops | ⟨a, w', hrun, -⟩
  · exact Or.inl hstops.bind
  · rw [runIn_bind_of_ok hrun]
    exact (hf a).value hp w'

theorem shows_emit (event : Event) :
    Shows p (fun _ => True) (emit event : Step (StateM (World σ)) Unit) :=
  ⟨quiet_emit event, fun _ w => (emit_cases event w).imp_right fun h => ⟨(), _, h, trivial⟩⟩

theorem shows_echo (text : String) :
    Shows p (fun _ => True) (echo text : Step (StateM (World σ)) Unit) :=
  ⟨quiet_echo text, fun _ _ => Or.inr ⟨(), _, rfl, trivial⟩⟩

theorem shows_except {y : Except Failure α} (h : p → ∃ a, y = .ok a) :
    Shows p (fun _ => True) (liftM y : Step (StateM (World σ)) α) := by
  refine ⟨quiet_except y, fun hp w => ?_⟩
  obtain ⟨a, rfl⟩ := h hp
  exact Or.inr ⟨a, w, rfl, trivial⟩

theorem shows_ite {c : Prop} [Decidable c] {y : Step (StateM (World σ)) α}
    (hx : c → Shows p Q x) (hy : ¬ c → Shows p Q y) : Shows p Q (if c then x else y) := by
  by_cases hc : c
  · rw [if_pos hc]
    exact hx hc
  · rw [if_neg hc]
    exact hy hc

theorem Shows.closes {x : Step (StateM (World σ)) Exit} (h : Shows p (· = success) x) (hp : p)
    (w : World σ) : Closes (runIn x w) := by
  rcases h.value hp w with hstops | ⟨a, w', hrun, rfl⟩
  · exact Or.inr hstops
  · rw [hrun]
    exact Or.inl (Or.inl rfl)

end CardImport.Command
