import PulsarConnection.Steps
import PulsarConnection.Transitions
import PulsarConnection.Resolution

/-!
# What the logs of a connection record

The logs of the connection system tie its parties together, in every reachable
state.  The Receiver's tables, and everything it did, are what
`Receiver::new` makes of the items it handled.  The registrations it handled
and those still queued are, in order, among the registrations callers posted
successfully; the frames it handled and the items still queued are, in order,
among the items the broker sent.  Whatever a resolver holds was put there by
the Receiver, or it was dropped when the Receiver exited; and a call that
returned a server error or an unexpected reply returned what `extract_message`
made of the frame handed to its own resolver.

These carry the laws of `PulsarConnection.Resolution` over to the whole
connection.
-/

namespace PulsarConnection

/-- The registration an item carries. -/
def Event.registration? : Event → Option Register
  | .registration r => some r
  | .frame _ => none

/-- The frame an item carries. -/
def Event.frame? : Event → Option Message
  | .registration _ => none
  | .frame msg => some msg

/-- The key of a `Register::Request`. -/
def Register.key? : Register → Option RequestKey
  | .request key _ => some key
  | _ => none

/-- The resolver of a `Register::Request`. -/
def Register.resolver? : Register → Option Nat
  | .request _ resolver => some resolver
  | _ => none

namespace System

variable {s s' : System}

/-- The registrations posted successfully, in order. -/
def postedRegistrations (s : System) : List Register :=
  (s.posts.filter (·.2)).map (·.1)

/-- The request keys of every post, successful or not, in order. -/
def postedKeys (s : System) : List RequestKey :=
  s.posts.filterMap (·.1.key?)

theorem postedRegistrations_of_posts {rs : List Register} {b : Bool}
    (h : s'.posts = s.posts ++ rs.map (·, b)) :
    s'.postedRegistrations = s.postedRegistrations ++ if b then rs else [] := by
  cases b <;> simp [postedRegistrations, h, List.filter_map, Function.comp_def]

/-! ## The Receiver replays its items -/

/-- The Receiver's tables, and what it has done, are what `Receiver::new` makes
of the items it handled. -/
def ReceiverRun (s : System) : Prop :=
  Receiver.new.run s.processed = (s.receiver, s.effects)

theorem dispatch_receiverRun (h : s.ReceiverRun) (e : Event) : (s.dispatch e).ReceiverRun := by
  unfold ReceiverRun at h ⊢
  rw [dispatch_processed, Receiver.run_snoc, h]
  simp [Receiver.process]

theorem poll_receiverRun (h : s.poll = some s') (hRun : s.ReceiverRun) : s'.ReceiverRun := by
  cases polls_of_poll h with
  | drain | read =>
      refine dispatch_receiverRun ?_ _
      exact hRun
  | _ => exact hRun

theorem step_receiverRun {a : Action} (h : s.step a = some s') (hRun : s.ReceiverRun) :
    s'.ReceiverRun := by
  cases hOther : a.reachesReceiver
  · obtain ⟨-, hReceiver, hProcessed, hEffects, -⟩ := step_posts h hOther
    rw [ReceiverRun, hReceiver, hProcessed, hEffects]
    exact hRun
  · cases a <;> simp only [Action.reachesReceiver, reduceCtorEq] at hOther
    · exact poll_receiverRun h hRun
    · simp only [step] at h
      split at h <;> cases h
      exact hRun
    · cases h
      exact hRun

/-! ## Registrations and inbound items are handled in order -/

/-- The registrations handled, then those still queued, are in order among
those posted successfully. -/
def RegistrationsQueued (s : System) : Prop :=
  List.Sublist (s.processed.filterMap Event.registration? ++ s.registrations) s.postedRegistrations

/-- The frames handled, then the items still queued, are in order among the
items the broker sent. -/
def InboundQueued (s : System) : Prop :=
  List.Sublist ((s.processed.filterMap Event.frame?).map .frame ++ s.inbound) (s.broker.map (·.2))

theorem poll_registrationsQueued (h : s.poll = some s') (hQueued : s.RegistrationsQueued) :
    s'.RegistrationsQueued := by
  unfold RegistrationsQueued postedRegistrations at *
  cases polls_of_poll h with
  | drain _ hRegs => simpa [Event.registration?, hRegs] using hQueued
  | read => simpa [Event.registration?] using hQueued
  | shutdown | senderGone | fail | close =>
      simp only [exit, setError, List.append_nil]
      exact (List.sublist_append_left _ _).trans hQueued
  | _ => exact hQueued

theorem step_registrationsQueued {a : Action} (h : s.step a = some s')
    (hQueued : s.RegistrationsQueued) : s'.RegistrationsQueued := by
  cases hOther : a.reachesReceiver
  · obtain ⟨-, -, hProcessed, -, -, -, -, rs, hPosts, hRegs⟩ := step_posts h hOther
    rw [RegistrationsQueued, hProcessed, hRegs, postedRegistrations_of_posts hPosts,
      ← List.append_assoc]
    exact hQueued.append (List.Sublist.refl _)
  · cases a <;> simp only [Action.reachesReceiver, reduceCtorEq] at hOther
    · exact poll_registrationsQueued h hQueued
    · simp only [step] at h
      split at h <;> cases h
      exact hQueued
    · cases h
      exact hQueued

/-- What the handled registrations select is, in order, among what the posts
select. -/
theorem RegistrationsQueued.sublist_posts {α : Type} (h : s.RegistrationsQueued)
    (f : Register → Option α) :
    List.Sublist ((s.processed.filterMap Event.registration?).filterMap f)
      (s.posts.filterMap (f ·.1)) := by
  have hPosted : List.Sublist (s.postedRegistrations.filterMap f) (s.posts.filterMap (f ·.1)) := by
    simpa [postedRegistrations, List.filterMap_map, Function.comp_def] using
      (List.filter_sublist s.posts).filterMap (f ·.1)
  exact ((List.sublist_append_left _ _).filterMap _).trans ((h.filterMap _).trans hPosted)

theorem poll_inboundQueued (h : s.poll = some s') (hQueued : s.InboundQueued) :
    s'.InboundQueued := by
  unfold InboundQueued at *
  cases polls_of_poll h with
  | drain => simpa [Event.frame?] using hQueued
  | read _ hInbound => simpa [Event.frame?, hInbound] using hQueued
  | fail _ hInbound | close _ hInbound =>
      rw [hInbound] at hQueued
      simpa [exit, setError] using (List.sublist_cons_self _ _).append_left _ |>.trans hQueued
  | _ => exact hQueued

theorem step_inboundQueued {a : Action} (h : s.step a = some s') (hQueued : s.InboundQueued) :
    s'.InboundQueued := by
  cases hOther : a.reachesReceiver
  · obtain ⟨-, -, hProcessed, -, hInbound, hBroker, -⟩ := step_posts h hOther
    rwa [InboundQueued, hProcessed, hInbound, hBroker]
  · cases a <;> simp only [Action.reachesReceiver, reduceCtorEq] at hOther
    · exact poll_inboundQueued h hQueued
    · simp only [step] at h
      split at h <;> cases h
      simpa [InboundQueued] using hQueued.append (List.Sublist.refl [Inbound.frame _])
    · cases h
      simpa [InboundQueued] using hQueued.append (List.Sublist.refl [_])

/-! ## What resolvers hold -/

theorem foldl_apply_responses (effects : List Effect) (t : System) (r : Nat) :
    (effects.foldl apply t).responses r = t.responses r ∨
    (∃ msg, .respond r msg ∈ effects ∧ (effects.foldl apply t).responses r = .sent msg) ∨
    (.cancel r ∈ effects ∧ (effects.foldl apply t).responses r = .canceled) := by
  induction effects generalizing t with
  | nil => exact .inl rfl
  | cons effect effects ih =>
      rcases ih (t.apply effect) with hSame | ⟨msg, hMem, hSent⟩ | ⟨hMem, hCanceled⟩
      · rw [List.foldl_cons, hSame]
        cases effect with
        | respond r' msg =>
            by_cases hr : r = r'
            · subst hr
              exact .inr (.inl ⟨msg, List.mem_cons_self _ _, by simp [apply]⟩)
            · exact .inl (by simp [apply, hr])
        | cancel r' =>
            by_cases hr : r = r'
            · subst hr
              exact .inr (.inr ⟨List.mem_cons_self _ _, by simp [apply]⟩)
            · exact .inl (by simp [apply, hr])
        | sendPong => exact .inl (by simp [apply, enqueue]; split <;> rfl)
        | _ => exact .inl rfl
      · exact .inr (.inl ⟨msg, List.mem_cons_of_mem _ hMem, hSent⟩)
      · exact .inr (.inr ⟨List.mem_cons_of_mem _ hMem, hCanceled⟩)

/-- A resolver holds a reply only if the Receiver handed it that reply, and it
has been dropped only by the Receiver or because the Receiver exited. -/
def ResponsesLogged (s : System) : Prop :=
  ∀ r, (∀ msg, s.responses r = .sent msg → .respond r msg ∈ s.effects) ∧
    (s.responses r = .canceled → .cancel r ∈ s.effects ∨ s.phase = .exited)

theorem dispatch_responses (s : System) (e : Event) (r : Nat) :
    (s.dispatch e).responses r = s.responses r ∨
    (∃ msg, .respond r msg ∈ (s.receiver.handle e).2 ∧ (s.dispatch e).responses r = .sent msg) ∨
    (.cancel r ∈ (s.receiver.handle e).2 ∧ (s.dispatch e).responses r = .canceled) :=
  foldl_apply_responses _ _ r

theorem dispatch_responsesLogged (h : s.ResponsesLogged) (e : Event) :
    (s.dispatch e).ResponsesLogged := by
  intro r
  rw [dispatch_effects, dispatch_phase]
  rcases dispatch_responses s e r with hSame | ⟨msg, hMem, hSent⟩ | ⟨hMem, hCanceled⟩
  · rw [hSame]
    exact ⟨fun msg hSent => List.mem_append_left _ ((h r).1 msg hSent),
      fun hCanceled => ((h r).2 hCanceled).imp_left (List.mem_append_left _)⟩
  · rw [hSent]
    exact ⟨fun msg' hSent' => by cases hSent'; exact List.mem_append_right _ hMem, nofun⟩
  · rw [hCanceled]
    exact ⟨(fun _ hSent => nomatch hSent), fun _ => .inl (List.mem_append_right _ hMem)⟩

theorem exit_responsesLogged (h : s.ResponsesLogged) : s.exit.ResponsesLogged := by
  intro r
  simp only [exit]
  split
  · exact ⟨(fun _ hSent => nomatch hSent), fun _ => .inr trivial⟩
  · exact ⟨(h r).1, fun _ => .inr trivial⟩

theorem step_responsesLogged {a : Action} (h : s.step a = some s') (hLogged : s.ResponsesLogged) :
    s'.ResponsesLogged := by
  cases hOther : a.reachesReceiver
  · obtain ⟨hPhase, -, -, hEffects, -, -, hResponses, -⟩ := step_posts h hOther
    intro r
    rw [hEffects, hPhase]
    rcases hResponses r with hSame | ⟨hDropped, hClosed⟩
    · rw [hSame]
      exact hLogged r
    · rw [hDropped]
      exact ⟨(fun _ hSent => nomatch hSent), fun _ => .inr (by simpa [registrationsOpen] using hClosed)⟩
  · cases a <;> simp only [Action.reachesReceiver, reduceCtorEq] at hOther
    · cases polls_of_poll h with
      | drain | read =>
          refine dispatch_responsesLogged ?_ _
          exact hLogged
      | shutdown | senderGone | fail | close => exact exit_responsesLogged hLogged
      | wake hPhase | drained hPhase | readAll hPhase =>
          refine fun r => ⟨(hLogged r).1, fun hCanceled => ?_⟩
          simpa [hPhase] using (hLogged r).2 hCanceled
    · simp only [step] at h
      split at h <;> cases h
      exact hLogged
    · cases h
      exact hLogged

/-! ## Logs only grow -/

theorem step_extends_posts {a : Action} (h : s.step a = some s') : s.posts <+: s'.posts := by
  cases hOther : a.reachesReceiver
  · obtain ⟨-, -, -, -, -, -, -, rs, hPosts, -⟩ := step_posts h hOther
    exact ⟨_, hPosts.symm⟩
  · cases a <;> simp only [Action.reachesReceiver, reduceCtorEq] at hOther
    · cases polls_of_poll h <;> simp [exit, setError]
    · simp only [step] at h
      split at h <;> cases h
      exact List.prefix_refl _
    · cases h
      exact List.prefix_refl _

theorem step_extends_effects {a : Action} (h : s.step a = some s') : s.effects <+: s'.effects := by
  cases hOther : a.reachesReceiver
  · obtain ⟨-, -, -, hEffects, -⟩ := step_posts h hOther
    exact hEffects ▸ List.prefix_refl _
  · cases a <;> simp only [Action.reachesReceiver, reduceCtorEq] at hOther
    · cases polls_of_poll h <;> simp [exit, setError]
    · simp only [step] at h
      split at h <;> cases h
      exact List.prefix_refl _
    · cases h
      exact List.prefix_refl _

/-- A call seen after a step other than its own is as it was, or was just invoked. -/
theorem step_call_cases {a : Action} {j : Nat} {call : Call} (h : s.step a = some s')
    (hOther : a ≠ .advance j) (hCall : s'.calls[j]? = some call) :
    s.calls[j]? = some call ∨ call.stage = .invoked := by
  cases hOld : s.calls[j]? with
  | some old =>
      rw [step_call_of_ne h hOther hOld] at hCall
      exact .inl hCall
  | none =>
      cases a with
      | invoke =>
          simp only [step] at h
          split at h <;> cases h
          rw [List.getElem?_append_right (List.getElem?_eq_none_iff.1 hOld)] at hCall
          cases hj : j - s.calls.length with
          | zero =>
              simp only [hj, List.getElem?_cons_zero, Option.some.injEq] at hCall
              exact .inr (hCall ▸ rfl)
          | succ n => simp [hj] at hCall
      | advance i => rw [advance_call_of_ne h fun hEq => hOther (hEq ▸ rfl), hOld] at hCall; cases hCall
      | poll => rw [poll_calls h, hOld] at hCall; cases hCall
      | write o =>
          have hCalls : s'.calls = s.calls := by
            rcases write_cases h with ⟨-, -, -, -, -, rfl⟩ | ⟨-, -, -, -, -, -, rfl⟩ |
              ⟨-, -, -, -, rfl⟩ <;> rfl
          rw [hCalls, hOld] at hCall
          cases hCall
      | answer | dropConnection =>
          simp only [step] at h
          split at h <;> cases h
          rw [hOld] at hCall
          cases hCall
      | push | takeError =>
          cases h
          rw [hOld] at hCall
          cases hCall

/-! ## What calls return -/

/-- A call that returned an error other than `Disconnected` returned what
`extract_message` made of the reply handed to its own resolver. -/
def ResultsLogged (s : System) : Prop :=
  ∀ i call e, s.calls[i]? = some call → call.stage = .returned (.error e) → e ≠ .disconnected →
    ∃ msg, .respond i msg ∈ s.effects ∧ extractMessage msg call.operation.extract = .error e

theorem advance_resultsLogged {i : Nat} (h : s.advance i = some s') (hLogged : s.ResponsesLogged)
    {call : Call} {e : ConnectionError} (hCall : s'.calls[i]? = some call)
    (hStage : call.stage = .returned (.error e)) (hNe : e ≠ .disconnected) :
    ∃ msg, .respond i msg ∈ s.effects ∧ extractMessage msg call.operation.extract = .error e := by
  cases advances_of_advance h with
  | reply hOld hSent =>
      simp [setStage, hOld] at hCall
      subst hCall
      exact ⟨_, (hLogged i).1 _ hSent, Stage.returned.inj hStage⟩
  | notify hOld =>
      simp [setStage, hOld] at hCall
      subst hCall
      split at hStage <;> simp_all [disconnected]
  | _ hOld =>
      simp [setStage, setError, hOld] at hCall
      subst hCall
      first
        | (cases hStage <;> exact absurd rfl hNe)
        | (split at hStage <;> (cases hStage <;> exact absurd rfl hNe))

theorem step_resultsLogged {a : Action} (h : s.step a = some s') (hLogged : s.ResponsesLogged)
    (hResults : s.ResultsLogged) : s'.ResultsLogged := by
  intro j call e hCall hStage hNe
  by_cases hOwn : a = .advance j
  · subst hOwn
    rw [(advance_posts h).2.2.2.1]
    exact advance_resultsLogged h hLogged hCall hStage hNe
  · rcases step_call_cases h hOwn hCall with hOld | hInvoked
    · obtain ⟨msg, hMem, hExtract⟩ := hResults j call e hOld hStage hNe
      exact ⟨msg, (step_extends_effects h).subset hMem, hExtract⟩
    · rw [hStage] at hInvoked
      cases hInvoked

end System

/-! ## Every reachable state -/

namespace Reachable

variable {s : System}

theorem receiverRun (h : Reachable s) : s.ReceiverRun := by
  induction h with
  | init => rfl
  | step a _ hStep ih => exact System.step_receiverRun hStep ih

theorem registrationsQueued (h : Reachable s) : s.RegistrationsQueued := by
  induction h with
  | init => exact List.Sublist.slnil
  | step a _ hStep ih => exact System.step_registrationsQueued hStep ih

theorem inboundQueued (h : Reachable s) : s.InboundQueued := by
  induction h with
  | init => exact List.Sublist.slnil
  | step a _ hStep ih => exact System.step_inboundQueued hStep ih

theorem responsesLogged (h : Reachable s) : s.ResponsesLogged := by
  induction h with
  | init => exact fun _ => ⟨(fun _ hSent => nomatch hSent), fun hCanceled => nomatch hCanceled⟩
  | step a _ hStep ih => exact System.step_responsesLogged hStep ih

theorem resultsLogged (h : Reachable s) : s.ResultsLogged := by
  induction h with
  | init => intro i call e hCall; simp [System.init] at hCall
  | step a hReach hStep ih => exact System.step_resultsLogged hStep hReach.responsesLogged ih

end Reachable

end PulsarConnection
