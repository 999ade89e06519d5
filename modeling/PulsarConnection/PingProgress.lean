import PulsarConnection.Progress
import PulsarConnection.Pings
import PulsarConnection.Pongs

/-!
# A `send_ping` call can always return

`send_ping` keeps its resolver in the Receiver's one ping slot, not at a key,
so the argument for request calls is carried over with the slot in place of
the key.  Every ping resolver posted successfully is settled, or the running
Receiver holds it, queued with its `Register::Ping` or in the ping slot; an
item that touches the slot settles the resolver there; and a `send_ping` that
awaits its resolver has enqueued a `Ping` frame.  So while the Writer runs,
the call's own steps, the Writer's sends, the Receiver's polls and one `Pong`
from the broker, answering a `Ping` frame of the sink, bring the call to
return: with `Ok(())`, or with `Err(Disconnected)` if a later `send_ping` took
the slot first or the Receiver ended.

In the other direction, a `Ping` from the broker is answered on the wire: the
Receiver's polls read up to it and queue a `Pong`, and the Writer's sends put
that `Pong` on the sink behind the frames queued before it.
-/

namespace PulsarConnection

namespace System

variable {s s' : System}

/-! ## A settled ping resolver stays settled -/

theorem apply_pong_settled {t : System} {r : Nat} {effect : Effect}
    (h : t.pongs r ≠ .waiting ∨ effect.pingOutcome?.map Prod.fst = some r) :
    (t.apply effect).pongs r ≠ .waiting := by
  have hUpdate : ∀ r' (v : Oneshot Unit), v ≠ .waiting →
      effect.pingOutcome?.map Prod.fst = some r' → Function.update t.pongs r' v r ≠ .waiting := by
    intro r' v hv hr
    rw [Function.update_apply]
    split_ifs with hEq
    · exact hv
    · exact h.resolve_right fun hr' => hEq (Option.some.inj (hr'.symm.trans hr))
  cases effect with
  | pong r' => exact hUpdate r' (.sent ()) nofun rfl
  | cancelPing r' => exact hUpdate r' .canceled nofun rfl
  | sendPong =>
      show (t.enqueue Messages.pong).pongs r ≠ .waiting
      unfold enqueue
      split <;> exact h.resolve_right nofun
  | respond | cancel | deliver | release => exact h.resolve_right nofun

theorem foldl_apply_pong_settled {r : Nat} (effects : List Effect) {t : System}
    (h : t.pongs r ≠ .waiting ∨ ∃ b, (r, b) ∈ effects.filterMap Effect.pingOutcome?) :
    (effects.foldl apply t).pongs r ≠ .waiting := by
  induction effects generalizing t with
  | nil => simpa using h
  | cons effect effects ih =>
      refine ih ?_
      rcases h with hSettled | ⟨b, hMem⟩
      · exact .inl (apply_pong_settled (.inl hSettled))
      · obtain ⟨e, he, hr⟩ := List.mem_filterMap.1 hMem
        rcases List.mem_cons.1 he with rfl | he
        · exact .inl (apply_pong_settled (.inr (by simp [hr])))
        · exact .inr ⟨b, List.mem_filterMap.2 ⟨e, he, hr⟩⟩

theorem dispatch_pong_settled {r : Nat} {e : Event}
    (h : s.pongs r ≠ .waiting ∨ ∃ b, (r, b) ∈ (s.receiver.handle e).2.filterMap Effect.pingOutcome?) :
    (s.dispatch e).pongs r ≠ .waiting :=
  foldl_apply_pong_settled _ h

/-- A ping resolver the Receiver holds, queued with its registration or in the
ping slot, is among those its exit drops. -/
theorem mem_heldPings {r : Nat} (h : .ping r ∈ s.registrations ∨ s.receiver.ping = some r) :
    r ∈ s.heldPings := by
  rcases h with hQueued | hSlot
  · exact List.mem_append_left _ (List.mem_filterMap.2 ⟨_, hQueued, rfl⟩)
  · exact List.mem_append_right _ (by simp [hSlot])

theorem exit_pong_settled {r : Nat} (h : s.pongs r ≠ .waiting ∨ r ∈ s.heldPings) :
    s.exit.pongs r ≠ .waiting := by
  simp only [exit]
  split
  · exact nofun
  · exact h.resolve_right ‹_›

/-! ## The Receiver loses no ping resolver -/

/-- Every ping resolver posted successfully has been completed or dropped, or
the running Receiver holds it: queued with its registration, or in the ping
slot. -/
def PingsHeld (s : System) : Prop :=
  ∀ r, (.ping r, true) ∈ s.posts → s.pongs r ≠ .waiting ∨
    (s.phase ≠ .exited ∧ (.ping r ∈ s.registrations ∨ s.receiver.ping = some r))

theorem exit_pingsHeld (h : s.PingsHeld) : s.exit.PingsHeld := fun r hPosted =>
  .inl (exit_pong_settled ((h r hPosted).imp_right fun hHeld => mem_heldPings hHeld.2))

/-- The Receiver handles `e`, having taken it from its queue or its inbound
stream: a ping resolver held before is held after, or settled by `e`. -/
theorem dispatch_pingsHeld (s : System) (e : Event)
    (hHeld : ∀ r, (.ping r, true) ∈ s.posts → s.pongs r ≠ .waiting ∨
      (s.phase ≠ .exited ∧ (.ping r ∈ s.registrations ∨ s.receiver.ping = some r ∨
        e = .registration (.ping r)))) :
    (s.dispatch e).PingsHeld := by
  intro r hPosted
  rw [dispatch_posts] at hPosted
  rcases hHeld r hPosted with hSettled | ⟨hRunning, hQueued | hSlot | rfl⟩
  · exact .inl (dispatch_pong_settled (.inl hSettled))
  · exact .inr ⟨by rwa [dispatch_phase], .inl (by rwa [dispatch_registrations])⟩
  · by_cases hTouch : e.touchesPing
    · exact .inl (dispatch_pong_settled
        (.inr ⟨e.isPong, by simp [Receiver.handle_pingOutcomes, hTouch, hSlot]⟩))
    · exact .inr ⟨by rwa [dispatch_phase],
        .inr (by rw [dispatch_receiver, Receiver.handle_ping, if_neg hTouch, hSlot])⟩
  · exact .inr ⟨by rwa [dispatch_phase], .inr (by simp [Receiver.handle_ping,
      Event.touchesPing, Event.pingResolver?])⟩

theorem poll_pingsHeld (h : s.poll = some s') (hHeld : s.PingsHeld) : s'.PingsHeld := by
  cases polls_of_poll h with
  | wake | drained | readAll =>
      exact fun r hPosted => (hHeld r hPosted).imp_right fun hHeld => ⟨nofun, hHeld.2⟩
  | @drain reg rest _ hRegs =>
      refine dispatch_pingsHeld { s with registrations := rest } _ fun r hPosted => ?_
      refine (hHeld r hPosted).imp_right fun ⟨hRunning, hQueued⟩ => ⟨hRunning, ?_⟩
      rw [hRegs, List.mem_cons] at hQueued
      rcases hQueued with (rfl | hRest) | hSlot
      · exact .inr (.inr rfl)
      · exact .inl hRest
      · exact .inr (.inl hSlot)
  | @read msg rest =>
      exact dispatch_pingsHeld { s with inbound := rest } _ fun r hPosted =>
        (hHeld r hPosted).imp_right (And.imp_right (Or.imp_right .inl))
  | shutdown | senderGone | fail | close => exact exit_pingsHeld hHeld

theorem step_pingsHeld {a : Action} (h : s.step a = some s') (hHeld : s.PingsHeld) :
    s'.PingsHeld := by
  cases hOther : a.reachesReceiver
  · obtain ⟨hPhase, hReceiver, -, -, -, -, -, rs, hPosts, hRegs⟩ := step_posts h hOther
    obtain ⟨-, -, hPongs⟩ := step_keepsPongs h hOther
    intro r hPosted
    rw [hPosts, List.mem_append] at hPosted
    rcases hPosted with hOld | hNew
    · rcases hHeld r hOld with hSettled | ⟨hRunning, hQueued⟩
      · refine .inl ?_
        rcases hPongs r with hSame | ⟨hDropped, -⟩
        · rwa [hSame]
        · rw [hDropped]
          exact nofun
      · refine .inr ⟨hPhase ▸ hRunning, ?_⟩
        rw [hRegs, hReceiver]
        exact hQueued.imp_left (List.mem_append_left _)
    · obtain ⟨reg, hReg, hEq⟩ := List.mem_map.1 hNew
      simp only [Prod.mk.injEq] at hEq
      obtain ⟨rfl, hOpen⟩ := hEq
      refine .inr ⟨hPhase ▸ by simpa [registrationsOpen] using hOpen, .inl ?_⟩
      rw [hRegs, if_pos hOpen]
      exact List.mem_append_right _ hReg
  · cases a <;> simp only [Action.reachesReceiver, reduceCtorEq] at hOther
    · exact poll_pingsHeld h hHeld
    · simp only [step] at h
      split at h <;> cases h
      exact hHeld
    · cases h
      exact hHeld

end System

/-! ## What an awaiting `send_ping` has done -/

/-- What the stage of call `i`, a `send_ping`, says about its two sends: a
call about to enqueue after a successful post has logged the post, and an
awaiting call has also enqueued a `Ping` frame. -/
def Stage.PingPosted (s : System) (i : Nat) : Stage → Prop
  | .pingEnqueuing true => (.ping i, true) ∈ s.posts
  | .pingAwaiting => (.ping i, true) ∈ s.posts ∧ Messages.ping ∈ s.enqueued
  | _ => True

theorem Stage.PingPosted.mono {stage : Stage} {s s' : System} {i : Nat}
    (h : stage.PingPosted s i) (hPosts : s.posts <+: s'.posts)
    (hEnqueued : s.enqueued <+: s'.enqueued) : stage.PingPosted s' i := by
  cases stage with
  | pingEnqueuing posted =>
      cases posted
      · trivial
      · exact hPosts.subset h
  | pingAwaiting => exact ⟨hPosts.subset h.1, hEnqueued.subset h.2⟩
  | _ => trivial

namespace System

variable {s s' : System}

/-- Every `send_ping` call's stage says what `Stage.PingPosted` says. -/
def PingsPosted (s : System) : Prop :=
  ∀ (i : Nat) (stage : Stage), s.calls[i]? = some ⟨.sendPing, stage⟩ → stage.PingPosted s i

theorem advance_pingsPosted {i : Nat} (h : s.advance i = some s') (hPosted : s.PingsPosted)
    {stage : Stage} (hCall : s'.calls[i]? = some ⟨.sendPing, stage⟩) : stage.PingPosted s' i := by
  cases advances_of_advance h with
  | ping hOld =>
      obtain ⟨-, rfl⟩ := Call.mk.inj (setStage_call_eq (post_calls _ _) hOld hCall)
      cases hOpen : s.registrationsOpen
      · trivial
      · show (_, true) ∈ (s.post _).posts
        simp [post_posts_eq, hOpen]
  | enqueuePing hOld =>
      obtain ⟨rfl, rfl⟩ := Call.mk.inj (setStage_call_eq (enqueue_calls _ _) hOld hCall)
      split
      · rename_i hFits
        obtain ⟨rfl, hOut⟩ := Bool.and_eq_true_iff.1 hFits
        exact ⟨by simpa [setStage, enqueue, hOut] using hPosted i _ hOld,
          by simp [setStage, enqueue, hOut]⟩
      · trivial
  | notify hOld _ | enqueue hOld =>
      obtain ⟨-, rfl⟩ := Call.mk.inj (setStage_call_eq (enqueue_calls _ _) hOld hCall)
      split <;> trivial
  | postConsumer hOld _ | postRequest hOld =>
      obtain ⟨-, rfl⟩ := Call.mk.inj (setStage_call_eq (post_calls _ _) hOld hCall)
      trivial
  | consumerRefused hOld _ | dropped hOld _ =>
      obtain ⟨-, rfl⟩ := Call.mk.inj (setStage_call_eq (by simp) hOld hCall)
      trivial
  | send hOld | subscribe hOld | request hOld _ | reply hOld _ | pong hOld _ | pingDropped hOld _ =>
      obtain ⟨-, rfl⟩ := Call.mk.inj (setStage_call_eq rfl hOld hCall)
      trivial

theorem step_pingsPosted {a : Action} (h : s.step a = some s') (hPosted : s.PingsPosted) :
    s'.PingsPosted := by
  intro j stage hCall
  by_cases hOwn : a = .advance j
  · subst hOwn
    exact advance_pingsPosted h hPosted hCall
  · rcases step_call_cases h hOwn hCall with hOld | hInvoked
    · exact (hPosted j stage hOld).mono (step_extends_posts h) (step_extends_enqueued h)
    · cases hInvoked
      trivial

end System

namespace Reachable

variable {s : System}

theorem pingsHeld (h : Reachable s) : s.PingsHeld := by
  induction h with
  | init => intro r hPosted; simp [System.init] at hPosted
  | step a _ hStep ih => exact System.step_pingsHeld hStep ih

theorem pingsPosted (h : Reachable s) : s.PingsPosted := by
  induction h with
  | init => intro i stage hCall; simp [System.init] at hCall
  | step a _ hStep ih => exact System.step_pingsPosted hStep ih

end Reachable

namespace System

variable {s s' : System}

/-! ## The call's own steps -/

/-- A `send_ping` that has not yet enqueued its frame takes at most two steps of
its own to await its resolver or return. -/
theorem ping_advances {i : Nat} {stage : Stage} (h : Reachable s)
    (hCall : s.calls[i]? = some ⟨.sendPing, stage⟩) :
    ∃ k ≤ 2, ∃ s' stage', s.exec (List.replicate k (.advance i)) = some s' ∧
      s'.calls[i]? = some ⟨.sendPing, stage'⟩ ∧
      (stage' = .pingAwaiting ∨ ∃ result, stage' = .returned result) := by
  have hEnqueue : ∀ {t : System} {posted : Bool},
      t.calls[i]? = some ⟨.sendPing, .pingEnqueuing posted⟩ → ∃ t', t.advance i = some t' ∧
        ∃ stage', t'.calls[i]? = some ⟨.sendPing, stage'⟩ ∧
          (stage' = .pingAwaiting ∨ ∃ result, stage' = .returned result) := by
    intro t posted hEnqueuing
    refine ⟨(t.enqueue Messages.ping).setStage i
      (if posted && t.outboundOpen then .pingAwaiting else .returned disconnected),
      by simp only [advance, hEnqueuing], _, setStage_call (by simpa using hEnqueuing) _, ?_⟩
    split
    · exact .inl rfl
    · exact .inr ⟨_, rfl⟩
  cases stage with
  | invoked =>
      have hPost : s.advance i =
          some ((s.post (.ping i)).setStage i (.pingEnqueuing s.registrationsOpen)) := by
        simp [advance, hCall, start]
      have hPosted : ((s.post (.ping i)).setStage i (.pingEnqueuing s.registrationsOpen)).calls[i]? =
          some ⟨.sendPing, .pingEnqueuing s.registrationsOpen⟩ :=
        setStage_call (by simpa using hCall) _
      obtain ⟨t', hEnqueued, stage', hCall', hDone⟩ := hEnqueue hPosted
      exact ⟨2, le_rfl, t', stage', (exec_replicate_succ (.advance i) 1 hPost).trans
        ((exec_replicate_succ (.advance i) 0 hEnqueued).trans rfl), hCall', hDone⟩
  | pingEnqueuing =>
      obtain ⟨t', hEnqueued, stage', hCall', hDone⟩ := hEnqueue hCall
      exact ⟨1, by omega, t', stage', (exec_replicate_succ (.advance i) 0 hEnqueued).trans rfl, hCall',
        hDone⟩
  | pingAwaiting => exact ⟨0, by omega, s, _, rfl, hCall, .inl rfl⟩
  | returned result => exact ⟨0, by omega, s, _, rfl, hCall, .inr ⟨result, rfl⟩⟩
  | _ => exact (h.pingsLogged i _ hCall).elim

/-- An awaiting `send_ping` whose resolver was completed or dropped returns at
its next step. -/
theorem advance_ping_returns {i : Nat} (hCall : s.calls[i]? = some ⟨.sendPing, .pingAwaiting⟩)
    (hSettled : s.pongs i ≠ .waiting) :
    ∃ s', s.advance i = some s' ∧ ∃ result, s'.calls[i]? = some ⟨.sendPing, .returned result⟩ := by
  cases hPong : s.pongs i with
  | waiting => exact absurd hPong hSettled
  | sent u =>
      exact ⟨s.setStage i (.returned (.ok .unit)), by simp [advance, hCall, hPong], _,
        setStage_call hCall _⟩
  | canceled =>
      exact ⟨s.setStage i (.returned disconnected), by simp [advance, hCall, hPong], _,
        setStage_call hCall _⟩

/-! ## The Receiver's polls up to a `Pong` -/

/-- While the Receiver reads its inbound stream, the ping slot holds `i` and a
`Pong` is queued, each poll brings the `Pong` closer or settles the resolver. -/
theorem poll_toward_pong {i : Nat} {pong : Message} (hPong : pong.isPong)
    (hPhase : s.phase = .reading) (hSlot : s.receiver.ping = some i)
    (hQueued : .frame pong ∈ s.inbound) :
    ∃ s', s.poll = some s' ∧ (s'.pongs i ≠ .waiting ∨
      ((s'.phase = .reading ∧ s'.receiver.ping = some i ∧ .frame pong ∈ s'.inbound) ∧
        s'.inbound.length < s.inbound.length)) := by
  obtain ⟨item, rest, hInbound⟩ := List.exists_cons_of_ne_nil (List.ne_nil_of_mem hQueued)
  rw [hInbound] at hQueued
  have hHeld : i ∈ s.heldPings := mem_heldPings (.inr hSlot)
  cases item with
  | frame m =>
      refine ⟨{ s with inbound := rest }.dispatch (.frame m), by simp [poll, hPhase, hInbound], ?_⟩
      by_cases hTouch : (Event.frame m).touchesPing
      · exact .inl (dispatch_pong_settled
          (.inr ⟨(Event.frame m).isPong, by simp [Receiver.handle_pingOutcomes, hTouch, hSlot]⟩))
      · refine .inr ⟨⟨by simpa using hPhase, ?_, ?_⟩, by simp [hInbound]⟩
        · rw [dispatch_receiver, Receiver.handle_ping, if_neg hTouch]
          exact hSlot
        · rcases List.mem_cons.1 hQueued with hEq | hRest
          · cases hEq
            exact absurd (by simp [Event.touchesPing, Event.isPong, hPong]) hTouch
          · simpa using hRest
  | failure e =>
      exact ⟨({ s with inbound := rest }.setError e).exit, by simp [poll, hPhase, hInbound],
        .inl (exit_pong_settled (.inr hHeld))⟩
  | closed =>
      exact ⟨({ s with inbound := rest }.setError .disconnected).exit,
        by simp [poll, hPhase, hInbound], .inl (exit_pong_settled (.inr hHeld))⟩

/-! ## A `send_ping` returns -/

/-- Once call `i` has posted its `Register::Ping`, the Receiver's polls and the
broker's `Pong` answering a frame of the sink settle the call's resolver. -/
theorem receiver_pongs {i idx : Nat} (h : Reachable s) (hPosted : (.ping i, true) ∈ s.posts)
    (hIdx : idx < s.sink.length) :
    ∃ k₁ k₂ s', s.exec (List.replicate k₁ .poll ++ .answer idx Messages.pong ::
      List.replicate k₂ .poll) = some s' ∧ s'.pongs i ≠ .waiting := by
  obtain ⟨k₁, s₁, hDrain, hDrained⟩ := polls_drain s.drainLeft (le_refl s.drainLeft)
  have h₁ : Reachable s₁ := h.exec hDrain
  have hPending : s₁.pongs i ≠ .waiting ∨ (s₁.phase = .reading ∧ s₁.receiver.ping = some i) := by
    rcases h₁.pingsHeld i ((exec_extends_posts hDrain).subset hPosted) with
      hSettled | ⟨hRunning, hHeld⟩
    · exact .inl hSettled
    · rcases drainLeft_eq_zero.1 hDrained with hExited | ⟨hReading, hEmpty⟩
      · exact absurd hExited hRunning
      · rw [hEmpty] at hHeld
        exact .inr ⟨hReading, hHeld.resolve_left (List.not_mem_nil _)⟩
  have hSink : s₁.sink = s.sink := (exec_enqueues (by simp [List.mem_replicate]) hDrain).2.1
  let answered : System := { s₁ with
    inbound := s₁.inbound ++ [.frame Messages.pong]
    broker := s₁.broker ++ [(some idx, .frame Messages.pong)] }
  have hAnswer : s₁.step (.answer idx Messages.pong) = some answered := by
    simp [answered, step, hSink, hIdx]
  obtain ⟨k₂, s₂, hRead, hSettled⟩ := @polls_until (·.pongs i ≠ .waiting)
    (fun t => t.phase = .reading ∧ t.receiver.ping = some i ∧ .frame Messages.pong ∈ t.inbound)
    (·.inbound.length) (fun ⟨hPhase, hSlot, hQueued⟩ =>
      poll_toward_pong (show Messages.pong.isPong from rfl) hPhase hSlot hQueued) _ answered
    (Nat.lt_succ_self _)
    (hPending.imp_right fun ⟨hReading, hSlot⟩ => ⟨hReading, hSlot, by simp [answered]⟩)
  refine ⟨k₁, k₂, s₂, ?_, hSettled⟩
  rw [exec_append, hDrain, Option.some_bind, exec, hAnswer, Option.some_bind, hRead]

/-- An awaiting `send_ping` returns after the Writer's sends of every queued
frame, the Receiver's polls around the broker's `Pong` answering a `Ping` frame,
and its own last step. -/
theorem awaiting_ping_returns {i : Nat} (h : Reachable s) (hWriter : s.writer = .running)
    (hCall : s.calls[i]? = some ⟨.sendPing, .pingAwaiting⟩) :
    ∃ k₁ k₂ idx s', s.exec (serveSchedule s.outbound.length k₁ k₂ idx Messages.pong i) = some s' ∧
      (∃ result, s'.calls[i]? = some ⟨.sendPing, .returned result⟩) ∧
      s'.sink[idx]? = some Messages.ping := by
  obtain ⟨hPosted, hEnqueued⟩ := h.pingsPosted i _ hCall
  rw [← h.writerFifo.1 hWriter] at hEnqueued
  obtain ⟨idx, hIdx, hFrame⟩ := List.getElem_of_mem hEnqueued
  obtain ⟨k₁, k₂, s₂, hServe, hSettled⟩ :=
    receiver_pongs (h.exec (writes_drain s.outbound rfl hWriter)) hPosted hIdx
  obtain ⟨s₃, hAdvance, result, hReturned⟩ :=
    advance_ping_returns (serve_call hServe hCall) hSettled
  obtain ⟨hExec, hSink⟩ := exec_serve hWriter hServe hAdvance
  exact ⟨k₁, k₂, idx, s₃, hExec, ⟨result, hReturned⟩,
    by rw [hSink, List.getElem?_eq_getElem hIdx, hFrame]⟩

end System

/-- Whatever the connection did before, while the Writer runs a `send_ping`
call can always be brought to return by a schedule of one shape: at most two
steps of its own; then, unless it has returned already, the Writer's successful
sends of every queued frame, the Receiver's polls around one `Pong` from the
broker answering a `Ping` frame of the sink, and the call's last step.  This
rests on the Receiver losing no ping resolver it was handed. -/
theorem ping_call_returns {s : System} (h : Reachable s) (hWriter : s.writer = .running)
    {i : Nat} {stage : Stage} (hCall : s.calls[i]? = some ⟨.sendPing, stage⟩) :
    s.PingsHeld ∧ ∃ k ≤ 2, ∃ s₁, s.exec (List.replicate k (.advance i)) = some s₁ ∧
      ((∃ result, s₁.calls[i]? = some ⟨.sendPing, .returned result⟩) ∨
        ∃ k₁ k₂ idx s',
          s₁.exec (System.serveSchedule s₁.outbound.length k₁ k₂ idx Messages.pong i) = some s' ∧
          (∃ result, s'.calls[i]? = some ⟨.sendPing, .returned result⟩) ∧
          s'.sink[idx]? = some Messages.ping) := by
  obtain ⟨k, hk, s₁, stage₁, hOwn, hCall₁, hDone⟩ := System.ping_advances h hCall
  refine ⟨h.pingsHeld, k, hk, s₁, hOwn, ?_⟩
  rcases hDone with rfl | ⟨result, rfl⟩
  · have hWriter₁ : s₁.writer = .running :=
      (System.exec_enqueues (by simp [List.mem_replicate]) hOwn).1.trans hWriter
    exact .inr (System.awaiting_ping_returns (h.exec hOwn) hWriter₁ hCall₁)
  · exact .inl ⟨result, hCall₁⟩

/-- A `send_ping` invoked while the Receiver reads its inbound stream. -/
def pingWhileReading : System :=
  ((System.init 64).exec [.poll, .poll, .invoke .sendPing]).getD (System.init 64)

/-- The call returns once the broker answers its `Ping` with a `Pong`. -/
theorem ping_returns_on_pong :
    pingWhileReading.writer = .running ∧
      ∃ actions s', pingWhileReading.exec actions = some s' ∧
        ∃ result, s'.calls[0]? = some ⟨.sendPing, .returned result⟩ := by
  obtain ⟨-, k, -, s₁, hOwn, hReturned | ⟨k₁, k₂, idx, s', hServe, hReturned, -⟩⟩ :=
    ping_call_returns
      ((Reachable.init 64).exec (show (System.init 64).exec [.poll, .poll, .invoke .sendPing] =
        some pingWhileReading from rfl))
      rfl (show pingWhileReading.calls[0]? = some ⟨.sendPing, .invoked⟩ from rfl)
  · exact ⟨rfl, _, s₁, hOwn, hReturned⟩
  · exact ⟨rfl, _, s', by rw [System.exec_append, hOwn, Option.some_bind, hServe], hReturned⟩

/-! ## The broker's pings are answered -/

namespace System

/-- Handling an item keeps a running Writer and the sink, and only adds to the
outbound channel. -/
theorem dispatch_extends_outbound {t base : System} (e : Event)
    (h : t.writer = .running ∧ t.sink = base.sink ∧ base.outbound <+: t.outbound) :
    (t.dispatch e).writer = .running ∧ (t.dispatch e).sink = base.sink ∧
      base.outbound <+: (t.dispatch e).outbound :=
  ⟨(dispatch_enqueues t e).1.trans h.1, (dispatch_enqueues t e).2.1.trans h.2.1,
    h.2.2.trans ⟨_, (dispatch_outbound t e).symm⟩⟩

/-- On the way to a ping frame, the polls keep the Writer running and the sink
as it was, and only add to the outbound channel; reading the ping frame puts a
`Pong` on it. -/
theorem pongPath {base : System} {msg : Message} (hPing : msg.command.ping.isSome) :
    ReadPath msg (fun t => t.writer = .running ∧ t.sink = base.sink ∧ base.outbound <+: t.outbound)
      (fun t => t.writer = .running ∧ t.sink = base.sink ∧
        ∃ queued, t.outbound = base.outbound ++ queued ∧ Messages.pong ∈ queued) where
  phase _ hKeep := hKeep
  register hKeep _ := dispatch_extends_outbound _ hKeep
  frame hKeep _ := dispatch_extends_outbound _ hKeep
  read := by
    rintro t rest hKeep -
    obtain ⟨hWriter, hSink, -⟩ :=
      dispatch_extends_outbound (t := { t with inbound := rest }) (.frame msg) hKeep
    obtain ⟨queued, hOutbound⟩ := hKeep.2.2
    refine ⟨hWriter, hSink, queued ++ [Messages.pong], ?_, by simp⟩
    rw [dispatch_outbound, ← hOutbound]
    simp [outboundOpen, hKeep.1, Event.pongOwed, hPing]

end System

/-- The broker's pings are answered on the wire.  Say the connection is alive,
the Writer runs, and ahead of a frame carrying `ping` in the inbound stream
there are only frames.  Then the Receiver's polls and the Writer's successful
sends alone, with no caller and no broker step, put on the sink every frame
already queued on the outbound channel and then the frames the polls queued,
a `Pong` among them. -/
theorem broker_ping_answered {s : System} (hAlive : s.connectionAlive)
    (hRunning : s.phase ≠ .exited) (hWriter : s.writer = .running)
    {pre : List Message} {post : List Inbound} {msg : Message}
    (hInbound : s.inbound = pre.map Inbound.frame ++ .frame msg :: post)
    (hPing : msg.command.ping.isSome) :
    ∃ actions s' queued, s.exec actions = some s' ∧ (∀ a ∈ actions, a = .poll ∨ a = .write none) ∧
      s'.sink = s.sink ++ s.outbound ++ queued ∧ Messages.pong ∈ queued := by
  obtain ⟨k, s₁, hPolls, hWriter₁, hSink₁, queued, hOutbound₁, hPong⟩ :=
    System.polls_read_toward (System.pongPath hPing) ⟨hAlive, hRunning, pre, post, hInbound⟩
      ⟨hWriter, rfl, List.prefix_refl _⟩
  refine ⟨List.replicate k .poll ++ List.replicate s₁.outbound.length (.write none),
    { s₁ with outbound := [], sink := s₁.sink ++ s₁.outbound }, queued, ?_, ?_, ?_, hPong⟩
  · rw [System.exec_append, hPolls, Option.some_bind, System.writes_drain _ rfl hWriter₁]
  · intro a ha
    rcases List.mem_append.1 ha with ha | ha
    · exact .inl (List.mem_replicate.1 ha).2
    · exact .inr (List.mem_replicate.1 ha).2
  · simp [hSink₁, hOutbound₁]

/-- The broker pings a fresh connection. -/
def brokerPinged : System :=
  ((System.init 64).exec [.push (.frame Messages.ping)]).getD (System.init 64)

/-- The `Pong` reaches the sink. -/
theorem broker_ping_reaches_sink :
    ∃ actions s' queued, brokerPinged.exec actions = some s' ∧
      (∀ a ∈ actions, a = .poll ∨ a = .write none) ∧
      s'.sink = brokerPinged.sink ++ brokerPinged.outbound ++ queued ∧ Messages.pong ∈ queued :=
  broker_ping_answered rfl (by decide) rfl
    (show brokerPinged.inbound = [].map Inbound.frame ++ [.frame Messages.ping] from rfl) rfl

end PulsarConnection
