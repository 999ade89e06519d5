import PulsarConnection.Rendezvous
import PulsarConnection.Accounting
import PulsarConnection.CallerErrors
import PulsarConnection.Teardown

/-!
# A request call can always return

`send_message` posts a `Register::Request`, enqueues its frame and awaits the
oneshot it registered; it returns once the Receiver completes or drops that
resolver.  Nothing that happened before can strand it while the Writer runs:
whatever the other calls, the Receiver and the broker did, the call's own
steps, the Writer's sends, the Receiver's polls and one answer of the broker
to the call's frame bring it to return.  And when no key is posted twice, an
answer that has already reached the connection is never lost: the Receiver's
polls alone bring the call to return.

Three facts carry this.  The Receiver never loses a resolver: each one posted
is completed, dropped, or held by the running Receiver, queued with its
registration or waiting at its key (`RequestsHeld`).  A reply routed under a
key where a resolver waits completes it.  And at a key's rendezvous with a
single registration, a resolver is left waiting only if no reply came, before
or after its registration (`Slot.run_waiting_no_reply`).  A stopped Writer may
have lost the frame, and then nothing answers it.
-/

namespace PulsarConnection

/-- The request resolver an effect completes or drops. -/
def Effect.requestResolver? : Effect → Option Nat
  | .respond r _ | .cancel r => some r
  | _ => none

/-- Whether an item at a key's rendezvous is a registration. -/
def KeyItem.isRegister : KeyItem → Bool
  | .register _ => true
  | .reply _ => false

namespace Slot

/-- A resolver waiting at a rendezvous, or registered there by the item, is
still waiting after the item or is settled by it. -/
theorem step_keeps_waiting {sl : Slot} {item : KeyItem} {r : Nat}
    (h : sl = .waiting r ∨ item = .register r) :
    (sl.step item).1 = .waiting r ∨ r ∈ (sl.step item).2.filterMap Effect.requestResolver? := by
  rcases h with rfl | rfl
  · cases item <;> simp [step, Effect.requestResolver?]
  · cases sl <;> simp [step, Effect.requestResolver?]

/-- A reply at a rendezvous where a resolver waits completes it. -/
theorem step_reply_settles (r : Nat) (msg : Message) :
    r ∈ ((Slot.waiting r).step (.reply msg)).2.filterMap Effect.requestResolver? := by
  simp [step, Effect.requestResolver?]

/-- Whether a resolver waits at the rendezvous. -/
def isWaiting : Slot → Bool
  | .waiting _ => true
  | _ => false

/-- Replies alone never leave a resolver waiting where none waited. -/
theorem run_replies_not_waiting {sl : Slot} (hSl : sl.isWaiting = false) {items : List KeyItem}
    (hReplies : items.countP KeyItem.isRegister = 0) : (sl.run items).1.isWaiting = false := by
  induction items generalizing sl with
  | nil => exact hSl
  | cons item items ih =>
      rw [List.countP_cons] at hReplies
      cases item with
      | register => simp [KeyItem.isRegister] at hReplies
      | reply msg =>
          cases sl <;> exact ih rfl (by simpa [KeyItem.isRegister] using hReplies)

/-- A stashed reply is taken by the first registration, so with at most one
registration no resolver is left waiting. -/
theorem run_stashed_not_waiting {items : List KeyItem}
    (hOnce : items.countP KeyItem.isRegister ≤ 1) (msg : Message) :
    ((Slot.stashed msg).run items).1.isWaiting = false := by
  induction items generalizing msg with
  | nil => rfl
  | cons item items ih =>
      rw [List.countP_cons] at hOnce
      cases item with
      | register =>
          exact @run_replies_not_waiting .empty rfl items (by simpa [KeyItem.isRegister] using hOnce)
      | reply msg' => exact ih (by simpa [KeyItem.isRegister] using hOnce) msg'

/-- From an empty rendezvous with at most one registration, a resolver is left
waiting only if no reply came, before or after its registration. -/
theorem run_waiting_no_reply {items : List KeyItem}
    (hOnce : items.countP KeyItem.isRegister ≤ 1)
    (hWaiting : (Slot.empty.run items).1.isWaiting = true) (msg : Message) :
    KeyItem.reply msg ∉ items := by
  match items, hOnce, hWaiting with
  | [], _, _ => exact List.not_mem_nil _
  | .reply m :: items, hOnce, hWaiting =>
      rw [List.countP_cons] at hOnce
      have := @run_stashed_not_waiting items (by simpa [KeyItem.isRegister] using hOnce) m
      simp [run, step, this] at hWaiting
  | [.register r], _, _ => simp
  | .register r :: .reply m :: items, hOnce, hWaiting =>
      simp only [List.countP_cons, KeyItem.isRegister] at hOnce
      have := @run_replies_not_waiting .empty rfl items (by simpa using hOnce)
      simp [run, step, this] at hWaiting
  | .register r :: .register r' :: items, hOnce, _ =>
      simp [List.countP_cons, KeyItem.isRegister] at hOnce

end Slot

namespace Receiver

theorem slot_eq_waiting {rx : Receiver} {key : RequestKey} {r : Nat} :
    rx.slot key = .waiting r ↔ rx.pendingRequests.lookup key = some r := by
  unfold slot
  split <;> simp_all

theorem mem_requestResolvers_of_filter {effects : List Effect} {r : Nat}
    (h : r ∈ (effects.filter Effect.settlesRequest).filterMap Effect.requestResolver?) :
    r ∈ effects.filterMap Effect.requestResolver? :=
  ((List.filter_sublist _).filterMap _).subset h

/-- An item leaves a resolver that waits at `key`, or that the item registers
there, waiting at `key`, or settles it. -/
theorem handle_keeps_waiting {rx : Receiver} (h : rx.Disjoint) {e : Event} {key : RequestKey}
    {r : Nat} (hHeld : rx.slot key = .waiting r ∨ e = .registration (.request key r)) :
    (rx.handle e).1.slot key = .waiting r ∨
      r ∈ (rx.handle e).2.filterMap Effect.requestResolver? := by
  have hRefines := handle_refines h e
  cases hItem : e.keyItem? with
  | none =>
      rw [hItem] at hRefines
      have hWaiting : rx.slot key = .waiting r :=
        hHeld.resolve_right (by rintro rfl; simp [Event.keyItem?] at hItem)
      exact .inl ((congrFun (Prod.ext_iff.1 hRefines).1 key).trans hWaiting)
  | some p =>
      obtain ⟨k, item⟩ := p
      rw [hItem] at hRefines
      obtain ⟨hSlot, hEffects⟩ := Prod.ext_iff.1 hRefines
      simp only [Option.map_some', Option.getD_some, Table.step] at hSlot hEffects
      by_cases hk : k = key
      · subst hk
        have hCases : rx.slot k = .waiting r ∨ item = .register r := by
          rcases hHeld with hWaiting | rfl
          · exact .inl hWaiting
          · simp only [Event.keyItem?, Option.some.injEq, Prod.mk.injEq] at hItem
            exact .inr hItem.2.symm
        rw [hSlot, Function.update_same]
        exact (Slot.step_keeps_waiting hCases).imp_right fun hMem =>
          mem_requestResolvers_of_filter (hEffects ▸ hMem)
      · have hWaiting : rx.slot key = .waiting r := hHeld.resolve_right fun hEq => by
          simp only [hEq, Event.keyItem?, Option.some.injEq, Prod.mk.injEq] at hItem
          exact hk hItem.1.symm
        exact .inl (by rw [hSlot, Function.update_noteq (Ne.symm hk)]; exact hWaiting)

/-- The registrations at a key's rendezvous are the `Register::Request`s for
the key. -/
theorem countP_register_itemsAt (events : List Event) (key : RequestKey) :
    (Table.itemsAt key (events.filterMap Event.keyItem?)).countP KeyItem.isRegister =
      (events.filterMap Event.requestKey).count key := by
  rw [Table.itemsAt, List.filterMap_filterMap, List.countP_filterMap, List.count_eq_countP,
    List.countP_filterMap]
  congr 1
  funext e
  rcases e with ((⟨k, r⟩ | _ | _) | msg)
  · by_cases hk : k = key <;> simp [Event.keyItem?, Event.requestKey, hk, KeyItem.isRegister]
  · rfl
  · rfl
  · cases hKey : msg.resolverKey <;> simp [Event.keyItem?, Event.requestKey, KeyItem.isRegister, hKey]
    split <;> rfl

/-- A frame handled and routed under `key` is a reply at the key's rendezvous. -/
theorem reply_mem_itemsAt {events : List Event} {msg : Message} {key : RequestKey}
    (hMem : .frame msg ∈ events) (hKey : msg.resolverKey = some key) :
    KeyItem.reply msg ∈ Table.itemsAt key (events.filterMap Event.keyItem?) :=
  List.mem_filterMap.2 ⟨(key, .reply msg), List.mem_filterMap.2 ⟨_, hMem, by simp [Event.keyItem?, hKey]⟩,
    by simp⟩

/-- A frame routed under a key where a resolver waits completes it. -/
theorem handle_reply_settles {rx : Receiver} (h : rx.Disjoint) {key : RequestKey} {r : Nat}
    (hWaiting : rx.slot key = .waiting r) {msg : Message} (hKey : msg.resolverKey = some key) :
    r ∈ (rx.handle (.frame msg)).2.filterMap Effect.requestResolver? := by
  have hRefines := handle_refines h (.frame msg)
  simp only [Event.keyItem?, hKey, Option.map_some', Option.getD_some, Table.step,
    hWaiting] at hRefines
  obtain ⟨-, hEffects⟩ := Prod.ext_iff.1 hRefines
  simp only at hEffects
  exact mem_requestResolvers_of_filter (hEffects ▸ Slot.step_reply_settles r msg)

end Receiver

namespace System

variable {s s' : System}

/-! ## A settled resolver stays settled -/

theorem apply_settled {t : System} {r : Nat} {effect : Effect}
    (h : t.responses r ≠ .waiting ∨ effect.requestResolver? = some r) :
    (t.apply effect).responses r ≠ .waiting := by
  have hUpdate : ∀ r' (v : Oneshot Message), v ≠ .waiting → effect.requestResolver? = some r' →
      Function.update t.responses r' v r ≠ .waiting := by
    intro r' v hv hr
    rw [Function.update_apply]
    split_ifs with hEq
    · exact hv
    · exact h.resolve_right fun hr' => hEq (Option.some.inj (hr'.symm.trans hr))
  cases effect with
  | respond r' msg => exact hUpdate r' (.sent msg) nofun rfl
  | cancel r' => exact hUpdate r' .canceled nofun rfl
  | sendPong =>
      show (t.enqueue Messages.pong).responses r ≠ .waiting
      unfold enqueue
      split <;> exact h.resolve_right nofun
  | deliver | release | pong | cancelPing => exact h.resolve_right nofun

theorem foldl_apply_settled {r : Nat} (effects : List Effect) {t : System}
    (h : t.responses r ≠ .waiting ∨ r ∈ effects.filterMap Effect.requestResolver?) :
    (effects.foldl apply t).responses r ≠ .waiting := by
  induction effects generalizing t with
  | nil => simpa using h
  | cons effect effects ih =>
      refine ih ?_
      rcases h with hSettled | hMem
      · exact .inl (apply_settled (.inl hSettled))
      · obtain ⟨e, he, hr⟩ := List.mem_filterMap.1 hMem
        rcases List.mem_cons.1 he with rfl | he
        · exact .inl (apply_settled (.inr hr))
        · exact .inr (List.mem_filterMap.2 ⟨e, he, hr⟩)

theorem dispatch_settled {r : Nat} {e : Event}
    (h : s.responses r ≠ .waiting ∨ r ∈ (s.receiver.handle e).2.filterMap Effect.requestResolver?) :
    (s.dispatch e).responses r ≠ .waiting :=
  foldl_apply_settled _ h

/-- A resolver the Receiver holds, queued with its registration or waiting at
its key, is among those its exit drops. -/
theorem mem_heldResolvers {key : RequestKey} {r : Nat}
    (h : .request key r ∈ s.registrations ∨ s.receiver.slot key = .waiting r) :
    r ∈ s.heldResolvers := by
  rcases h with hQueued | hWaiting
  · exact List.mem_append_left _ (List.mem_filterMap.2 ⟨_, hQueued, rfl⟩)
  · exact List.mem_append_right _ (List.mem_map.2
      ⟨⟨key, r⟩, AList.mem_lookup_iff.1 (Receiver.slot_eq_waiting.1 hWaiting), rfl⟩)

theorem exit_settled {r : Nat} (h : s.responses r ≠ .waiting ∨ r ∈ s.heldResolvers) :
    s.exit.responses r ≠ .waiting := by
  simp only [exit]
  split
  · exact nofun
  · exact h.resolve_right ‹_›

/-! ## The Receiver loses no resolver -/

/-- Every request resolver posted successfully has been completed or dropped,
or the running Receiver holds it: queued with its registration, or waiting at
its key. -/
def RequestsHeld (s : System) : Prop :=
  ∀ key r, (.request key r, true) ∈ s.posts → s.responses r ≠ .waiting ∨
    (s.phase ≠ .exited ∧ (.request key r ∈ s.registrations ∨ s.receiver.slot key = .waiting r))

theorem exit_requestsHeld (h : s.RequestsHeld) : s.exit.RequestsHeld := fun key r hPosted =>
  .inl (exit_settled ((h key r hPosted).imp_right fun hHeld => mem_heldResolvers hHeld.2))

/-- The Receiver handles `e`, having taken it from its queue or its inbound
stream: a resolver held before is held after, or settled by `e`. -/
theorem dispatch_requestsHeld (s : System) (hDisjoint : s.receiver.Disjoint) (e : Event)
    (hHeld : ∀ key r, (.request key r, true) ∈ s.posts → s.responses r ≠ .waiting ∨
      (s.phase ≠ .exited ∧ (.request key r ∈ s.registrations ∨
        s.receiver.slot key = .waiting r ∨ e = .registration (.request key r)))) :
    (s.dispatch e).RequestsHeld := by
  intro key r hPosted
  rw [dispatch_posts] at hPosted
  rcases hHeld key r hPosted with hSettled | ⟨hRunning, hQueued | hHandled⟩
  · exact .inl (dispatch_settled (.inl hSettled))
  · exact .inr ⟨by rwa [dispatch_phase], .inl (by rwa [dispatch_registrations])⟩
  · rcases Receiver.handle_keeps_waiting hDisjoint hHandled with hWaiting | hMem
    · exact .inr ⟨by rwa [dispatch_phase], .inr (by rwa [dispatch_receiver])⟩
    · exact .inl (dispatch_settled (.inr hMem))

theorem poll_requestsHeld (h : s.poll = some s') (hDisjoint : s.receiver.Disjoint)
    (hHeld : s.RequestsHeld) : s'.RequestsHeld := by
  cases polls_of_poll h with
  | wake | drained | readAll =>
      exact fun key r hPosted => (hHeld key r hPosted).imp_right fun hHeld => ⟨nofun, hHeld.2⟩
  | @drain reg rest _ hRegs =>
      refine dispatch_requestsHeld { s with registrations := rest } hDisjoint _ fun key r hPosted => ?_
      refine (hHeld key r hPosted).imp_right fun ⟨hRunning, hQueued⟩ => ⟨hRunning, ?_⟩
      rw [hRegs, List.mem_cons] at hQueued
      rcases hQueued with (rfl | hRest) | hWaiting
      · exact .inr (.inr rfl)
      · exact .inl hRest
      · exact .inr (.inl hWaiting)
  | @read msg rest =>
      exact dispatch_requestsHeld { s with inbound := rest } hDisjoint _ fun key r hPosted =>
        (hHeld key r hPosted).imp_right (And.imp_right (Or.imp_right .inl))
  | shutdown | senderGone | fail | close => exact exit_requestsHeld hHeld

theorem step_requestsHeld {a : Action} (h : s.step a = some s') (hDisjoint : s.receiver.Disjoint)
    (hHeld : s.RequestsHeld) : s'.RequestsHeld := by
  cases hOther : a.reachesReceiver
  · obtain ⟨hPhase, hReceiver, -, -, -, -, hResponses, rs, hPosts, hRegs⟩ := step_posts h hOther
    intro key r hPosted
    rw [hPosts, List.mem_append] at hPosted
    rcases hPosted with hOld | hNew
    · rcases hHeld key r hOld with hSettled | ⟨hRunning, hQueued⟩
      · refine .inl ?_
        rcases hResponses r with hSame | ⟨hDropped, -⟩
        · rwa [hSame]
        · rw [hDropped]
          exact nofun
      · refine .inr ⟨hPhase ▸ hRunning, ?_⟩
        rw [hRegs, hReceiver]
        exact hQueued.imp_left (List.mem_append_left _)
    · obtain ⟨reg, hReg, hEq⟩ := List.mem_map.1 hNew
      simp only [Prod.mk.injEq] at hEq
      obtain ⟨rfl, hOpen⟩ := hEq
      refine .inr ⟨hPhase ▸ by simpa [registrationsOpen] using hOpen, .inl ?_⟩
      rw [hRegs, if_pos hOpen]
      exact List.mem_append_right _ hReg
  · cases a <;> simp only [Action.reachesReceiver, reduceCtorEq] at hOther
    · exact poll_requestsHeld h hDisjoint hHeld
    · simp only [step] at h
      split at h <;> cases h
      exact hHeld
    · cases h
      exact hHeld

end System

/-! ## Where a call's request stands -/

/-- What the stage of call `i` says about the request it posts: after a
successful post of its `Register::Request` the post is logged, and an awaiting
call has also enqueued a frame carrying the request's key; only a `send_ping`
is at a ping stage. -/
def Call.Posted (s : System) (i : Nat) : Call → Prop
  | ⟨op, .pingEnqueuing _⟩ | ⟨op, .pingAwaiting⟩ => op = .sendPing
  | ⟨_, .enqueuing key _ true⟩ => (.request key i, true) ∈ s.posts
  | ⟨_, .awaiting⟩ => ∃ key, (.request key i, true) ∈ s.posts ∧ key ∈ s.enqueuedKeys
  | _ => True

theorem Call.Posted.mono {call : Call} {s s' : System} {i : Nat} (h : call.Posted s i)
    (hPosts : s.posts <+: s'.posts) (hEnqueued : s.enqueued <+: s'.enqueued) : call.Posted s' i := by
  obtain ⟨op, stage⟩ := call
  cases stage with
  | enqueuing key frame posted =>
      cases posted
      · trivial
      · exact hPosts.subset h
  | awaiting =>
      obtain ⟨key, hPost, hKey⟩ := h
      exact ⟨key, hPosts.subset hPost, (hEnqueued.sublist.filterMap _).subset hKey⟩
  | _ => exact h

namespace System

variable {s s' : System}

theorem step_extends_enqueued {a : Action} (h : s.step a = some s') : s.enqueued <+: s'.enqueued := by
  by_cases hWrite : ∃ o, a = .write o
  · obtain ⟨o, rfl⟩ := hWrite
    rcases write_cases h with ⟨-, -, -, -, -, rfl⟩ | ⟨-, -, -, -, -, -, rfl⟩ | ⟨-, -, -, -, rfl⟩ <;>
      exact List.prefix_refl _
  · obtain ⟨-, -, frames, -, hEnqueued, -⟩ := step_enqueues h fun o hEq => hWrite ⟨o, hEq⟩
    exact ⟨frames, hEnqueued.symm⟩

/-- Every call's stage says what `Call.Posted` says. -/
def CallsPosted (s : System) : Prop :=
  ∀ (i : Nat) (call : Call), s.calls[i]? = some call → call.Posted s i

/-- A call moved to `next` keeps its operation. -/
theorem setStage_call_eq {t : System} {i : Nat} {op : Operation} {stage next : Stage}
    {call : Call} (hCalls : t.calls = s.calls) (hOld : s.calls[i]? = some ⟨op, stage⟩)
    (hCall : (t.setStage i next).calls[i]? = some call) : call = ⟨op, next⟩ := by
  rw [setStage_call (hCalls ▸ hOld)] at hCall
  exact (Option.some.inj hCall).symm

theorem advance_posted {i : Nat} (h : s.advance i = some s') (hKeyed : s.FramesKeyed)
    (hPosted : s.CallsPosted) {call : Call} (hCall : s'.calls[i]? = some call) :
    call.Posted s' i := by
  cases advances_of_advance h with
  | ping hOld => rw [setStage_call_eq (post_calls _ _) hOld hCall]; rfl
  | send hOld | subscribe hOld | request hOld _ => rw [setStage_call_eq rfl hOld hCall]; trivial
  | notify hOld _ => rw [setStage_call_eq (enqueue_calls _ _) hOld hCall]; trivial
  | @enqueue _ key frame posted hOld =>
      rw [setStage_call_eq (enqueue_calls _ _) hOld hCall]
      split
      · rename_i hFits
        obtain ⟨rfl, hOut⟩ := Bool.and_eq_true_iff.1 hFits
        have hKey : frame.writtenKey = some key := hKeyed i _ hOld
        have hPost : (Register.request key i, true) ∈ s.posts := hPosted i _ hOld
        exact ⟨key, by simpa [setStage, enqueue, hOut] using hPost,
          by simp [enqueuedKeys_enqueue, hOut, hKey]⟩
      · trivial
  | postConsumer hOld _ | postRequest hOld =>
      rw [setStage_call_eq (post_calls _ _) hOld hCall]
      cases hOpen : s.registrationsOpen
      · trivial
      · simp [Call.Posted, setStage, post_posts_eq, hOpen]
  | consumerRefused hOld _ => rw [setStage_call_eq (by simp) hOld hCall]; trivial
  | reply hOld _ | dropped hOld _ | pong hOld _ | pingDropped hOld _ =>
      rw [setStage_call_eq (by simp) hOld hCall]; trivial
  | enqueuePing hOld =>
      rw [setStage_call_eq (enqueue_calls _ _) hOld hCall]
      split
      · exact hPosted i _ hOld
      · trivial

theorem step_callsPosted {a : Action} (h : s.step a = some s') (hKeyed : s.FramesKeyed)
    (hPosted : s.CallsPosted) : s'.CallsPosted := by
  intro j call hCall
  by_cases hOwn : a = .advance j
  · subst hOwn
    exact advance_posted h hKeyed hPosted hCall
  · rcases step_call_cases h hOwn hCall with hOld | hInvoked
    · exact (hPosted j call hOld).mono (step_extends_posts h) (step_extends_enqueued h)
    · obtain ⟨op, stage⟩ := call
      cases show stage = .invoked from hInvoked
      trivial

end System

namespace Reachable

variable {s : System}

theorem receiver_disjoint (h : Reachable s) : s.receiver.Disjoint := by
  have hRun : Receiver.new.run s.processed = (s.receiver, s.effects) := h.receiverRun
  rw [show s.receiver = (Receiver.new.run s.processed).1 by rw [hRun]]
  exact Receiver.run_disjoint Receiver.new_disjoint _

theorem requestsHeld (h : Reachable s) : s.RequestsHeld := by
  induction h with
  | init => intro key r hPosted; simp [System.init] at hPosted
  | step a hReach hStep ih => exact System.step_requestsHeld hStep hReach.receiver_disjoint ih

theorem callsPosted (h : Reachable s) : s.CallsPosted := by
  induction h with
  | init => intro i call hCall; simp [System.init] at hCall
  | step a hReach hStep ih => exact System.step_callsPosted hStep hReach.framesKeyed ih

end Reachable

namespace System

variable {s s' : System}

/-! ## Schedules -/

/-- A relation that every step of some kind establishes, and that composes,
holds across every schedule of such steps. -/
theorem exec_rel (R : System → System → Prop) (P : Action → Prop) (hRefl : ∀ t, R t t)
    (hTrans : ∀ {t t' t''}, R t t' → R t' t'' → R t t'')
    (hStep : ∀ {t t' a}, P a → t.step a = some t' → R t t') :
    ∀ {actions : List Action} {s s' : System}, (∀ a ∈ actions, P a) → s.exec actions = some s' →
      R s s'
  | [], s, s', _, hExec => by cases hExec; exact hRefl s
  | a :: rest, s, s', hP, hExec => by
      simp only [exec, Option.bind_eq_some] at hExec
      obtain ⟨s₁, hStep₁, hRest⟩ := hExec
      exact hTrans (hStep (hP a (List.mem_cons_self _ _)) hStep₁)
        (exec_rel R P hRefl hTrans hStep (fun b hb => hP b (List.mem_cons_of_mem _ hb)) hRest)

theorem exec_extends_posts {actions : List Action} (hExec : s.exec actions = some s') :
    s.posts <+: s'.posts :=
  exec_rel (fun t t' => t.posts <+: t'.posts) (fun _ => True) (fun t => List.prefix_refl t.posts)
    (fun first second => first.trans second) (fun _ hStep => step_extends_posts hStep) (fun _ _ => trivial) hExec

theorem exec_call_of_ne {i : Nat} {actions : List Action} (hOther : ∀ a ∈ actions, a ≠ .advance i)
    (hExec : s.exec actions = some s') {call : Call} (hCall : s.calls[i]? = some call) :
    s'.calls[i]? = some call :=
  exec_rel (fun t t' => ∀ call, t.calls[i]? = some call → t'.calls[i]? = some call)
    (· ≠ .advance i) (fun _ _ => id) (fun first second call hCall => second call (first call hCall))
    (fun hOther hStep _ hCall => step_call_of_ne hStep hOther hCall) hOther hExec call hCall

theorem exec_enqueues {actions : List Action} (hOther : ∀ a ∈ actions, ∀ o, a ≠ .write o)
    (hExec : s.exec actions = some s') : Enqueues s s' :=
  exec_rel Enqueues (fun a => ∀ o, a ≠ .write o) Enqueues.refl Enqueues.trans
    (fun hOther hStep => step_enqueues hStep hOther) hOther hExec

end System

/-! ## The call's own steps -/

/-- How many more steps of its own a call takes, at most, before it awaits its
reply or returns. -/
def Stage.stepsToAwait : Stage → Nat
  | .invoked => 4
  | .subscribing .. => 3
  | .posting .. => 2
  | .enqueuing .. => 1
  | _ => 0

theorem Stage.stepsToAwait_le (stage : Stage) : stage.stepsToAwait ≤ 4 := by
  cases stage <;> simp [Stage.stepsToAwait]

namespace System

variable {s s' : System}

/-- A call other than a `send_ping` that neither awaits its reply nor has
returned can always take its next step, which brings it closer to either. -/
theorem advance_toward_await {i : Nat} {op : Operation} {stage : Stage}
    (hCall : s.calls[i]? = some ⟨op, stage⟩) (hPing : op ≠ .sendPing)
    (hLeft : 0 < stage.stepsToAwait) :
    ∃ s' stage', s.advance i = some s' ∧ s'.calls[i]? = some ⟨op, stage'⟩ ∧
      stage'.stepsToAwait < stage.stepsToAwait := by
  obtain ⟨s', hAdvance⟩ : ∃ s', s.advance i = some s' := by
    cases stage <;> simp only [Stage.stepsToAwait, Nat.lt_irrefl] at hLeft <;>
      simp only [advance, hCall] <;> (try split) <;> exact ⟨_, rfl⟩
  have hSet : ∀ {t : System} {next : Stage}, t.calls = s.calls →
      next.stepsToAwait < stage.stepsToAwait →
      ∃ stage', (t.setStage i next).calls[i]? = some ⟨op, stage'⟩ ∧
        stage'.stepsToAwait < stage.stepsToAwait :=
    fun hCalls hLess => ⟨_, setStage_call (hCalls ▸ hCall) _, hLess⟩
  refine ⟨s', ?_⟩
  simp only [hAdvance, true_and]
  cases advances_of_advance hAdvance with
  | ping hOld => rw [hCall] at hOld; cases hOld; exact absurd rfl hPing
  | send hOld | subscribe hOld | request hOld _ =>
      rw [hCall] at hOld; cases hOld; exact hSet rfl (by simp [Stage.stepsToAwait])
  | notify hOld _ =>
      rw [hCall] at hOld; cases hOld; exact hSet (enqueue_calls _ _) (by simp [Stage.stepsToAwait])
  | postConsumer hOld _ | postRequest hOld =>
      rw [hCall] at hOld; cases hOld; exact hSet (post_calls _ _) (by simp [Stage.stepsToAwait])
  | consumerRefused hOld _ =>
      rw [hCall] at hOld; cases hOld; exact hSet (by simp) (by simp [Stage.stepsToAwait])
  | enqueue hOld =>
      rw [hCall] at hOld; cases hOld
      exact hSet (enqueue_calls _ _) (by split <;> simp [Stage.stepsToAwait])
  | reply hOld _ | dropped hOld _ | enqueuePing hOld | pong hOld _ | pingDropped hOld _ =>
      rw [hCall] at hOld; cases hOld; simp [Stage.stepsToAwait] at hLeft

theorem advances_to_await {i : Nat} {op : Operation} (hPing : op ≠ .sendPing) (n : Nat) :
    ∀ {s : System} {stage : Stage}, s.calls[i]? = some ⟨op, stage⟩ → stage.stepsToAwait ≤ n →
      ∃ k ≤ n, ∃ s' stage', s.exec (List.replicate k (.advance i)) = some s' ∧
        s'.calls[i]? = some ⟨op, stage'⟩ ∧ stage'.stepsToAwait = 0 := by
  induction n with
  | zero => exact fun hCall hLeft => ⟨0, le_rfl, _, _, rfl, hCall, by omega⟩
  | succ n ih =>
      intro s stage hCall hLeft
      by_cases hZero : stage.stepsToAwait = 0
      · exact ⟨0, Nat.zero_le _, s, stage, rfl, hCall, hZero⟩
      · obtain ⟨s', stage', hAdvance, hCall', hLess⟩ := advance_toward_await hCall hPing (by omega)
        obtain ⟨k, hk, s'', stage'', hExec, hCall'', hDone⟩ := ih hCall' (by omega)
        exact ⟨k + 1, by omega, s'', stage'', (exec_replicate_succ (.advance i) k hAdvance).trans hExec,
          hCall'', hDone⟩

/-- An awaiting call whose resolver was completed or dropped returns at its
next step. -/
theorem advance_returns {i : Nat} {op : Operation} (hCall : s.calls[i]? = some ⟨op, .awaiting⟩)
    (hSettled : s.responses i ≠ .waiting) :
    ∃ s', s.advance i = some s' ∧ ∃ result, s'.calls[i]? = some ⟨op, .returned result⟩ := by
  cases hResponse : s.responses i with
  | waiting => exact absurd hResponse hSettled
  | sent msg =>
      exact ⟨s.setStage i (.returned (extractMessage msg op.extract)),
        by simp [advance, hCall, hResponse], _, setStage_call hCall _⟩
  | canceled =>
      exact ⟨(s.setError .disconnected).setStage i (.returned disconnected),
        by simp [advance, hCall, hResponse], _, setStage_call (by simpa using hCall) _⟩

/-! ## The Receiver's polls -/

/-- How many more polls the Receiver takes before it has drained its queue of
registrations and reads its inbound stream, or has exited. -/
def drainLeft (s : System) : Nat :=
  match s.phase with
  | .idle => s.registrations.length + 2
  | .draining => s.registrations.length + 1
  | .reading => if s.registrations = [] then 0 else s.inbound.length + s.registrations.length + 3
  | .exited => 0

theorem drainLeft_eq_zero :
    s.drainLeft = 0 ↔ s.phase = .exited ∨ (s.phase = .reading ∧ s.registrations = []) := by
  unfold drainLeft
  split <;> simp_all

@[simp]
theorem drainLeft_exit (s : System) : s.exit.drainLeft = 0 :=
  rfl

theorem poll_drainLeft (h : s.poll = some s') (hLeft : 0 < s.drainLeft) :
    s'.drainLeft < s.drainLeft := by
  cases polls_of_poll h with
  | wake hPhase _ | drain hPhase _ | drained hPhase _ _ =>
      simp_all [drainLeft]
  | read hPhase hInbound | readAll hPhase hInbound =>
      by_cases hEmpty : s.registrations = []
      · simp [drainLeft, hPhase, hEmpty] at hLeft
      · simp [drainLeft, hPhase, hInbound, hEmpty]
  | shutdown | senderGone | fail | close => simpa using hLeft

/-- The Receiver's polls alone bring it to read its inbound stream with its
queue of registrations drained, or to its exit. -/
theorem polls_drain (n : Nat) : ∀ {s : System}, s.drainLeft ≤ n →
    ∃ k s', s.exec (List.replicate k .poll) = some s' ∧ s'.drainLeft = 0 := by
  induction n with
  | zero => exact fun hLeft => ⟨0, _, rfl, by omega⟩
  | succ n ih =>
      intro s hLeft
      by_cases hZero : s.drainLeft = 0
      · exact ⟨0, s, rfl, hZero⟩
      · have hRunning : s.phase ≠ .exited := fun hExited => hZero (drainLeft_eq_zero.2 (.inl hExited))
        obtain ⟨s', hPoll⟩ := Option.isSome_iff_exists.1 (poll_isSome hRunning)
        have hLess := poll_drainLeft hPoll (Nat.pos_of_ne_zero hZero)
        obtain ⟨k, s'', hExec, hDone⟩ := ih (show s'.drainLeft ≤ n by omega)
        exact ⟨k + 1, s'', (exec_replicate_succ .poll k hPoll).trans hExec, hDone⟩

/-- While the Receiver reads its inbound stream, a resolver waits at `key` and
a frame routed under `key` is queued, each poll brings the frame closer or
settles the resolver. -/
theorem poll_toward_settled {i : Nat} {key : RequestKey} {msg : Message}
    (hDisjoint : s.receiver.Disjoint) (hKey : msg.resolverKey = some key)
    (hPhase : s.phase = .reading) (hWaiting : s.receiver.slot key = .waiting i)
    (hQueued : .frame msg ∈ s.inbound) :
    ∃ s', s.poll = some s' ∧ (s'.responses i ≠ .waiting ∨
      (s'.phase = .reading ∧ s'.receiver.slot key = .waiting i ∧ .frame msg ∈ s'.inbound ∧
        s'.inbound.length < s.inbound.length)) := by
  obtain ⟨item, rest, hInbound⟩ := List.exists_cons_of_ne_nil (List.ne_nil_of_mem hQueued)
  rw [hInbound] at hQueued
  have hHeld : i ∈ s.heldResolvers := mem_heldResolvers (.inr hWaiting)
  cases item with
  | frame m =>
      refine ⟨{ s with inbound := rest }.dispatch (.frame m), by simp [poll, hPhase, hInbound], ?_⟩
      by_cases hm : m.resolverKey = some key
      · exact .inl (dispatch_settled (.inr (Receiver.handle_reply_settles hDisjoint hWaiting hm)))
      · rcases @Receiver.handle_keeps_waiting s.receiver hDisjoint (.frame m) key i (.inl hWaiting)
          with hWaiting' | hMem
        · refine .inr ⟨by simpa using hPhase, by simpa using hWaiting', ?_, by simp [hInbound]⟩
          rcases List.mem_cons.1 hQueued with hEq | hRest
          · cases hEq
            exact absurd hKey hm
          · simpa using hRest
        · exact .inl (dispatch_settled (.inr hMem))
  | failure e =>
      exact ⟨({ s with inbound := rest }.setError e).exit, by simp [poll, hPhase, hInbound],
        .inl (exit_settled (.inr hHeld))⟩
  | closed =>
      exact ⟨({ s with inbound := rest }.setError .disconnected).exit,
        by simp [poll, hPhase, hInbound], .inl (exit_settled (.inr hHeld))⟩

/-- Polls that each either bring about what is awaited or keep it pending
with `size` smaller bring it about. -/
theorem polls_until {Done Pending : System → Prop} (size : System → Nat)
    (hStep : ∀ {t : System}, Pending t → ∃ t', t.poll = some t' ∧
      (Done t' ∨ (Pending t' ∧ size t' < size t))) (n : Nat) :
    ∀ {s : System}, size s < n → Done s ∨ Pending s →
      ∃ k s', s.exec (List.replicate k .poll) = some s' ∧ Done s' := by
  induction n with
  | zero => intro s hSize; omega
  | succ n ih =>
      rintro s hSize (hDone | hPending)
      · exact ⟨0, s, rfl, hDone⟩
      · obtain ⟨t', hPoll, hNext⟩ := hStep hPending
        obtain ⟨k, s', hExec, hDone⟩ : ∃ k s', t'.exec (List.replicate k .poll) = some s' ∧ Done s' := by
          rcases hNext with hDone | ⟨hPending', hSmaller⟩
          · exact ⟨0, t', rfl, hDone⟩
          · exact ih (by omega) (.inr hPending')
        exact ⟨k + 1, s', (exec_replicate_succ .poll k hPoll).trans hExec, hDone⟩

/-- The Receiver's polls read up to a frame routed under the key where a
resolver waits, and so settle it. -/
theorem polls_settle {i : Nat} {key : RequestKey} {msg : Message}
    (hKey : msg.resolverKey = some key) (n : Nat) :
    ∀ {s : System}, Reachable s → s.inbound.length ≤ n →
      (s.responses i ≠ .waiting ∨
        (s.phase = .reading ∧ s.receiver.slot key = .waiting i ∧ .frame msg ∈ s.inbound)) →
      ∃ k s', s.exec (List.replicate k .poll) = some s' ∧ s'.responses i ≠ .waiting := by
  intro s h hLength hPending
  refine @polls_until (·.responses i ≠ .waiting) (fun t => Reachable t ∧ t.phase = .reading ∧
      t.receiver.slot key = .waiting i ∧ .frame msg ∈ t.inbound) (·.inbound.length)
    (fun ⟨hReach, hPhase, hWaiting, hQueued⟩ => ?_) (n + 1) s (Nat.lt_succ_of_le hLength)
    (hPending.imp_right (⟨h, ·⟩))
  obtain ⟨t', hPoll, hNext⟩ := poll_toward_settled hReach.receiver_disjoint hKey hPhase hWaiting hQueued
  exact ⟨t', hPoll, hNext.imp_right fun ⟨hPhase', hWaiting', hQueued', hShorter⟩ =>
    ⟨⟨hReach.step .poll hPoll, hPhase', hWaiting', hQueued'⟩, hShorter⟩⟩

/-! ## Reading up to a frame -/

/-- How many polls the Receiver takes before it next reads its inbound stream. -/
def pollsBeforeReading (s : System) : Nat :=
  match s.phase with
  | .idle => s.registrations.length + 2
  | .draining => s.registrations.length + 1
  | .reading | .exited => 0

/-- The Receiver is on its way to read the frame `msg`: the connection is
alive, and only frames are ahead of `msg` in the inbound stream. -/
structure ReadsToward (msg : Message) (s : System) : Prop where
  alive : s.connectionAlive
  running : s.phase ≠ .exited
  ahead : ∃ (pre : List Message) (post : List Inbound),
    s.inbound = pre.map Inbound.frame ++ .frame msg :: post

/-- What a property `Keep` of the state needs for the polls toward the frame
`msg` to keep it, one arm of the poll at a time, and for reading `msg` to bring
about `Done`. -/
structure ReadPath (msg : Message) (Keep Done : System → Prop) : Prop where
  phase : ∀ {t : System} (phase : ReceiverPhase), Keep t → Keep { t with phase }
  register : ∀ {t : System} {reg : Register} {rest : List Register}, Keep t →
    t.registrations = reg :: rest → Keep ({ t with registrations := rest }.dispatch (.registration reg))
  frame : ∀ {t : System} {m : Message} {rest : List Inbound}, Keep t → t.inbound = .frame m :: rest →
    Keep ({ t with inbound := rest }.dispatch (.frame m))
  read : ∀ {t : System} {rest : List Inbound}, Keep t → t.inbound = .frame msg :: rest →
    Done ({ t with inbound := rest }.dispatch (.frame msg))

/-- Each poll on the way to `msg` reads it, or keeps what the path keeps and
gets closer. -/
theorem poll_toward_frame {msg : Message} {Keep Done : System → Prop}
    (hPath : ReadPath msg Keep Done) (hToward : ReadsToward msg s) (hKeep : Keep s) :
    ∃ s', s.poll = some s' ∧ (Done s' ∨ ((ReadsToward msg s' ∧ Keep s') ∧
      s'.pollsBeforeReading + s'.inbound.length < s.pollsBeforeReading + s.inbound.length)) := by
  obtain ⟨alive, running, pre, post, hInbound⟩ := hToward
  obtain ⟨s', hPoll⟩ := Option.isSome_iff_exists.1 (poll_isSome running)
  refine ⟨s', hPoll, ?_⟩
  cases polls_of_poll hPoll with
  | wake hPhase =>
      exact .inr ⟨⟨⟨alive, nofun, pre, post, hInbound⟩, hPath.phase _ hKeep⟩,
        by simp [pollsBeforeReading, hPhase]⟩
  | shutdown _ hGone | senderGone _ _ hGone => simp [hGone] at alive
  | drain hPhase hRegs =>
      exact .inr ⟨⟨⟨by simpa using alive, by simp [hPhase], pre, post, by simpa using hInbound⟩,
        hPath.register hKeep hRegs⟩, by simp [pollsBeforeReading, hPhase, hRegs]⟩
  | drained hPhase hRegs =>
      exact .inr ⟨⟨⟨alive, nofun, pre, post, hInbound⟩, hPath.phase _ hKeep⟩,
        by simp [pollsBeforeReading, hPhase, hRegs]⟩
  | @read m rest hPhase hHead =>
      rcases pre with _ | ⟨m', pre⟩
      · obtain ⟨rfl, rfl⟩ : msg = m ∧ post = rest := by simpa [hHead] using hInbound.symm
        exact .inl (hPath.read hKeep hHead)
      · obtain ⟨rfl, rfl⟩ : m' = m ∧ pre.map Inbound.frame ++ .frame msg :: post = rest := by
          simpa [hHead] using hInbound.symm
        exact .inr ⟨⟨⟨by simpa using alive, by simp [hPhase], pre, post, by simp⟩,
          hPath.frame hKeep hHead⟩, by simp [pollsBeforeReading, hPhase, hHead]⟩
  | fail _ hHead | close _ hHead => rcases pre with _ | ⟨m', pre⟩ <;> simp [hHead] at hInbound
  | readAll _ hEmpty => simp [hEmpty] at hInbound

/-- The Receiver's polls alone read up to the frame `msg`, keeping along the
way what the path keeps. -/
theorem polls_read_toward {msg : Message} {Keep Done : System → Prop}
    (hPath : ReadPath msg Keep Done) (hToward : ReadsToward msg s) (hKeep : Keep s) :
    ∃ k s', s.exec (List.replicate k .poll) = some s' ∧ Done s' :=
  @polls_until Done (fun t => ReadsToward msg t ∧ Keep t)
    (fun t => t.pollsBeforeReading + t.inbound.length)
    (fun ⟨hToward', hKeep'⟩ => poll_toward_frame hPath hToward' hKeep') _ s (Nat.lt_succ_self _)
    (.inr ⟨hToward, hKeep⟩)

end System

/-- A request frame carries a request id or a producer's send key, never a
consumer id. -/
theorem Message.writtenKey_ne_consumer (frame : Message) (consumerId : UInt64) :
    frame.writtenKey ≠ some (.consumer consumerId) := by
  simp [Message.writtenKey, Option.orElse_eq_some, Option.map_eq_some']

theorem exists_getElem?_bind_of_mem_filterMap {α β : Type} {f : α → Option β} {l : List α} {b : β}
    (h : b ∈ l.filterMap f) : ∃ idx, idx < l.length ∧ l[idx]?.bind f = some b := by
  obtain ⟨a, ha, hf⟩ := List.mem_filterMap.1 h
  obtain ⟨idx, hIdx, rfl⟩ := List.getElem_of_mem ha
  exact ⟨idx, hIdx, by rw [List.getElem?_eq_getElem hIdx, Option.some_bind, hf]⟩

namespace System

variable {s s' : System}

/-! ## A request call returns -/

/-- Once the frame of a request of call `i` is in the sink, the Receiver's polls
and the broker's answer to that frame, with a frame routed under the request's
key, settle the call's resolver. -/
theorem receiver_settles {i : Nat} {key : RequestKey} {idx : Nat} {reply : Message}
    (h : Reachable s) (hPosted : (.request key i, true) ∈ s.posts) (hIdx : idx < s.sink.length)
    (hRouted : reply.resolverKey = some key) :
    ∃ k₁ k₂ s', s.exec (List.replicate k₁ .poll ++ .answer idx reply :: List.replicate k₂ .poll) =
      some s' ∧ s'.responses i ≠ .waiting := by
  obtain ⟨k₁, s₁, hDrain, hDrained⟩ := polls_drain s.drainLeft (le_refl s.drainLeft)
  have h₁ : Reachable s₁ := h.exec hDrain
  have hPending : s₁.responses i ≠ .waiting ∨
      (s₁.phase = .reading ∧ s₁.receiver.slot key = .waiting i) := by
    rcases h₁.requestsHeld key i ((exec_extends_posts hDrain).subset hPosted) with
      hSettled | ⟨hRunning, hHeld⟩
    · exact .inl hSettled
    · rcases drainLeft_eq_zero.1 hDrained with hExited | ⟨hReading, hEmpty⟩
      · exact absurd hExited hRunning
      · rw [hEmpty] at hHeld
        exact .inr ⟨hReading, hHeld.resolve_left (List.not_mem_nil _)⟩
  have hSink : s₁.sink = s.sink := (exec_enqueues (by simp [List.mem_replicate]) hDrain).2.1
  have hAnswer : s₁.step (.answer idx reply) = some { s₁ with
      inbound := s₁.inbound ++ [.frame reply], broker := s₁.broker ++ [(some idx, .frame reply)] } := by
    simp [step, hSink, hIdx]
  obtain ⟨k₂, s₂, hRead, hSettled⟩ := polls_settle hRouted _ (h₁.step _ hAnswer) le_rfl
    (hPending.imp_right fun ⟨hReading, hWaiting⟩ => ⟨hReading, hWaiting, by simp⟩)
  refine ⟨k₁, k₂, s₂, ?_, hSettled⟩
  rw [exec_append, hDrain, Option.some_bind, exec, hAnswer, Option.some_bind, hRead]

/-- The Receiver's polls around one answer of the broker leave every call as
it was. -/
theorem serve_call {i idx k₁ k₂ : Nat} {answer : Message} {s₂ : System}
    (hServe : s.exec (List.replicate k₁ .poll ++ .answer idx answer :: List.replicate k₂ .poll) =
      some s₂) {call : Call} (hCall : s.calls[i]? = some call) : s₂.calls[i]? = some call := by
  refine exec_call_of_ne (fun a ha => ?_) hServe hCall
  simp only [List.mem_append, List.mem_replicate, List.mem_cons] at ha
  rcases ha with ⟨-, rfl⟩ | rfl | ⟨-, rfl⟩ <;> exact nofun

/-- The Writer's sends of `n` frames, then the Receiver's polls around one
answer of the broker, then a step of call `i`. -/
def serveSchedule (n k₁ k₂ idx : Nat) (answer : Message) (i : Nat) : List Action :=
  List.replicate n (.write none) ++
    (List.replicate k₁ .poll ++ .answer idx answer :: List.replicate k₂ .poll) ++ [.advance i]

/-- A running Writer's sends of every queued frame, then the Receiver's polls
around one answer of the broker, then a step of call `i`: the sink ends with
the frames that were queued. -/
theorem exec_serve {i idx k₁ k₂ : Nat} {answer : Message} {s₂ s₃ : System}
    (hWriter : s.writer = .running)
    (hServe : ({ s with outbound := [], sink := s.sink ++ s.outbound } : System).exec
      (List.replicate k₁ .poll ++ .answer idx answer :: List.replicate k₂ .poll) = some s₂)
    (hAdvance : s₂.advance i = some s₃) :
    s.exec (serveSchedule s.outbound.length k₁ k₂ idx answer i) = some s₃ ∧
      s₃.sink = s.sink ++ s.outbound := by
  have hAfter : ({ s with outbound := [], sink := s.sink ++ s.outbound } : System).exec
      ((List.replicate k₁ .poll ++ .answer idx answer :: List.replicate k₂ .poll) ++
        [.advance i]) = some s₃ := by
    rw [exec_append, hServe, Option.some_bind]
    simp [exec, step, hAdvance]
  refine ⟨by rw [serveSchedule, List.append_assoc, exec_append, writes_drain s.outbound rfl hWriter,
    Option.some_bind, hAfter], (exec_enqueues (fun a ha o => ?_) hAfter).2.1⟩
  simp only [List.mem_append, List.mem_replicate, List.mem_cons, List.mem_singleton,
    List.not_mem_nil, or_false] at ha
  rcases ha with (⟨-, rfl⟩ | rfl | ⟨-, rfl⟩) | rfl <;> exact nofun

/-- An awaiting request call returns after the Writer's sends of every queued
frame, the Receiver's polls around the broker's answer to its frame, and its own
last step. -/
theorem awaiting_call_returns {i : Nat} {op : Operation} (h : Reachable s)
    (hWriter : s.writer = .running) (hCall : s.calls[i]? = some ⟨op, .awaiting⟩)
    (reply : RequestKey → Message)
    (hRouted : ∀ key, (∀ consumerId, key ≠ .consumer consumerId) → (reply key).resolverKey = some key) :
    ∃ k₁ k₂ key idx s', s.exec (serveSchedule s.outbound.length k₁ k₂ idx (reply key) i) = some s' ∧
      (∃ result, s'.calls[i]? = some ⟨op, .returned result⟩) ∧
      (.request key i, true) ∈ s'.posts ∧ s'.sink[idx]?.bind Message.writtenKey = some key := by
  obtain ⟨key, hPosted, hEnqueued⟩ := h.callsPosted i _ hCall
  rw [enqueuedKeys, ← h.writerFifo.1 hWriter] at hEnqueued
  obtain ⟨idx, hIdx, hFrame⟩ := exists_getElem?_bind_of_mem_filterMap hEnqueued
  have hRequestKey : ∀ consumerId, key ≠ .consumer consumerId := by
    obtain ⟨frame, -, hKey⟩ := List.mem_filterMap.1 hEnqueued
    exact fun consumerId hEq => frame.writtenKey_ne_consumer consumerId (hEq ▸ hKey)
  obtain ⟨k₁, k₂, s₂, hServe, hSettled⟩ := receiver_settles
    (h.exec (writes_drain s.outbound rfl hWriter)) hPosted hIdx (hRouted key hRequestKey)
  obtain ⟨s₃, hAdvance, result, hReturned⟩ := advance_returns (serve_call hServe hCall) hSettled
  obtain ⟨hExec, hSink⟩ := exec_serve hWriter hServe hAdvance
  exact ⟨k₁, k₂, key, idx, s₃, hExec, ⟨result, hReturned⟩,
    (exec_extends_posts hExec).subset hPosted, hSink ▸ hFrame⟩

end System

/-- Whatever the connection did before, while the Writer runs a call of any
operation but `send_ping` can be brought to return by a schedule of one shape:
at most four steps of its own; then, unless it has returned already, the
Writer's successful sends of every queued frame, the Receiver's polls around
one answer of the broker to the frame in the sink that carries the key the call
registered, with any frame routed under that key, and the call's last step.
Neither the other calls, nor replies and registrations under the same key, nor
items queued ahead of the answer, nor an exit of the Receiver can strand it:
the Receiver loses no request resolver it was handed. -/
theorem request_call_returns {s : System} (h : Reachable s) (hWriter : s.writer = .running)
    {i : Nat} {op : Operation} {stage : Stage} (hCall : s.calls[i]? = some ⟨op, stage⟩)
    (hPing : op ≠ .sendPing) (reply : RequestKey → Message)
    (hRouted : ∀ key, (∀ consumerId, key ≠ .consumer consumerId) → (reply key).resolverKey = some key) :
    s.RequestsHeld ∧ ∃ k ≤ 4, ∃ s₁, s.exec (List.replicate k (.advance i)) = some s₁ ∧
      ((∃ result, s₁.calls[i]? = some ⟨op, .returned result⟩) ∨
        ∃ k₁ k₂ key idx s',
          s₁.exec (System.serveSchedule s₁.outbound.length k₁ k₂ idx (reply key) i) = some s' ∧
          (∃ result, s'.calls[i]? = some ⟨op, .returned result⟩) ∧
          (.request key i, true) ∈ s'.posts ∧ s'.sink[idx]?.bind Message.writtenKey = some key) := by
  obtain ⟨k, hk, s₁, stage₁, hOwn, hCall₁, hDone⟩ :=
    System.advances_to_await hPing 4 hCall stage.stepsToAwait_le
  have h₁ : Reachable s₁ := h.exec hOwn
  refine ⟨h.requestsHeld, k, hk, s₁, hOwn, ?_⟩
  cases stage₁ with
  | returned result => exact .inl ⟨result, hCall₁⟩
  | awaiting =>
      have hWriter₁ : s₁.writer = .running :=
        (System.exec_enqueues (by simp [List.mem_replicate]) hOwn).1.trans hWriter
      exact .inr (System.awaiting_call_returns h₁ hWriter₁ hCall₁ reply hRouted)
  | pingEnqueuing | pingAwaiting => exact absurd (h₁.callsPosted i _ hCall₁) hPing
  | _ => simp [Stage.stepsToAwait] at hDone

/-- A broker that answers every request with a `Success` carrying its request
id, and every send with its receipt. -/
def successReply : RequestKey → Message
  | .requestId id => ⟨{ success := some ⟨id⟩ }⟩
  | .producerSend producerId sequenceId => ⟨{ sendReceipt := some ⟨producerId, sequenceId⟩ }⟩
  | .consumer _ => ⟨{}⟩

theorem successReply_routed (key : RequestKey) (hKey : ∀ consumerId, key ≠ .consumer consumerId) :
    (successReply key).resolverKey = some key := by
  cases key with
  | requestId => rfl
  | producerSend => rfl
  | consumer consumerId => exact absurd rfl (hKey consumerId)

/-- A `lookup_topic` invoked while the Receiver reads its inbound stream. -/
def lookupWhileReading : System :=
  ((System.init 64).exec [.poll, .poll, .invoke (.lookupTopic "t" false)]).getD (System.init 64)

/-- The call returns once the broker answers its frame with `Success`. -/
theorem lookup_returns_on_success :
    lookupWhileReading.writer = .running ∧
      ∃ actions s', lookupWhileReading.exec actions = some s' ∧
        ∃ result, s'.calls[0]? = some ⟨.lookupTopic "t" false, .returned result⟩ := by
  have hReach : Reachable lookupWhileReading := (Reachable.init 64).exec
    (show (System.init 64).exec [.poll, .poll, .invoke (.lookupTopic "t" false)] =
      some lookupWhileReading from rfl)
  obtain ⟨-, k, -, s₁, hOwn, hReturned | ⟨k₁, k₂, key, idx, s', hServe, hReturned, -⟩⟩ :=
    request_call_returns hReach rfl (show lookupWhileReading.calls[0]? = some ⟨_, .invoked⟩ from rfl)
      nofun successReply successReply_routed
  · exact ⟨rfl, _, s₁, hOwn, hReturned⟩
  · exact ⟨rfl, _, s', by rw [System.exec_append, hOwn, Option.some_bind, hServe], hReturned⟩

namespace System

variable {s s' : System}

/-! ## A reply that has arrived is never lost -/

theorem poll_posts (h : s.poll = some s') : s'.posts = s.posts := by
  cases polls_of_poll h <;> simp [exit, setError]

/-- A frame the broker sent stays queued on the inbound stream until the
Receiver handles it. -/
theorem poll_keeps_frame {msg : Message} (h : s.poll = some s')
    (hArrived : .frame msg ∈ s.inbound ∨ .frame msg ∈ s.processed) :
    .frame msg ∈ s'.inbound ∨ .frame msg ∈ s'.processed := by
  cases polls_of_poll h with
  | drain =>
      simp only [dispatch_inbound, dispatch_processed, List.mem_append]
      exact hArrived.imp_right .inl
  | read _ hInbound =>
      rw [hInbound, List.mem_cons] at hArrived
      simp only [dispatch_inbound, dispatch_processed, List.mem_append, List.mem_singleton]
      rcases hArrived with (hEq | hRest) | hDone
      · injection hEq with hEq
        exact .inr (.inr (hEq ▸ rfl))
      · exact .inl hRest
      · exact .inr (.inl hDone)
  | fail _ hInbound | close _ hInbound =>
      rw [hInbound, List.mem_cons] at hArrived
      simpa [exit, setError] using hArrived
  | _ => simpa [exit, setError] using hArrived

/-- The Receiver's polls post nothing and lose no frame the broker sent. -/
theorem polls_keep {msg : Message} {k : Nat} (hExec : s.exec (List.replicate k .poll) = some s') :
    s'.posts = s.posts ∧ (.frame msg ∈ s.inbound ∨ .frame msg ∈ s.processed →
      .frame msg ∈ s'.inbound ∨ .frame msg ∈ s'.processed) :=
  exec_rel (fun t t' => t'.posts = t.posts ∧ (.frame msg ∈ t.inbound ∨ .frame msg ∈ t.processed →
      .frame msg ∈ t'.inbound ∨ .frame msg ∈ t'.processed)) (· = .poll) (fun _ => ⟨rfl, id⟩)
    (fun first second => ⟨second.1.trans first.1, second.2 ∘ first.2⟩)
    (fun hPoll hStep => by subst hPoll; exact ⟨poll_posts hStep, poll_keeps_frame hStep⟩)
    (fun _ ha => (List.mem_replicate.1 ha).2) hExec

/-- When no key is posted twice, a resolver waiting at a key has seen no frame
routed under the key handled, before or after its registration. -/
theorem waiting_no_reply (h : Reachable s) (hKeys : s.postedKeys.Nodup) {key : RequestKey}
    {r : Nat} (hWaiting : s.receiver.slot key = .waiting r) {msg : Message}
    (hKey : msg.resolverKey = some key) : .frame msg ∉ s.processed := by
  intro hMem
  have hRun : Receiver.new.run s.processed = (s.receiver, s.effects) := h.receiverRun
  have hSlot := Receiver.run_slot s.processed key
  simp only [hRun] at hSlot
  have hOnce : (Table.itemsAt key (s.processed.filterMap Event.keyItem?)).countP
      KeyItem.isRegister ≤ 1 := by
    rw [Receiver.countP_register_itemsAt]
    exact List.nodup_iff_count_le_one.1 ((processedKeys_sublist h.registrationsQueued).nodup hKeys) key
  exact Slot.run_waiting_no_reply hOnce (by rw [← hSlot, hWaiting]; rfl) msg
    (Receiver.reply_mem_itemsAt hMem hKey)

end System

/-- When no key is posted twice, once a frame routed under the key of an
awaiting request call has reached the connection, queued on the inbound stream
or already handled, the Receiver's polls alone bring the call to return,
whichever of the reply and the call's registration the Receiver handles first,
and whether or not the Writer still runs: the broker never has to answer twice. -/
theorem replied_call_returns {s : System} (h : Reachable s) (hKeys : s.postedKeys.Nodup)
    {i : Nat} {op : Operation} (hCall : s.calls[i]? = some ⟨op, .awaiting⟩) {key : RequestKey}
    (hPosted : (.request key i, true) ∈ s.posts) {msg : Message}
    (hRouted : msg.resolverKey = some key)
    (hArrived : .frame msg ∈ s.inbound ∨ .frame msg ∈ s.processed) :
    ∃ k s', s.exec (List.replicate k .poll ++ [.advance i]) = some s' ∧
      ∃ result, s'.calls[i]? = some ⟨op, .returned result⟩ := by
  obtain ⟨k₁, s₁, hDrain, hDrained⟩ := System.polls_drain s.drainLeft (le_refl s.drainLeft)
  have h₁ : Reachable s₁ := h.exec hDrain
  obtain ⟨hPosts₁, hKeep⟩ := System.polls_keep hDrain
  obtain ⟨k₂, s₂, hRead, hSettled⟩ : ∃ k s₂, s₁.exec (List.replicate k .poll) = some s₂ ∧
      s₂.responses i ≠ .waiting := by
    rcases h₁.requestsHeld key i (hPosts₁ ▸ hPosted) with hSettled | ⟨hRunning, hHeld⟩
    · exact ⟨0, s₁, rfl, hSettled⟩
    · obtain ⟨hReading, hEmpty⟩ := (System.drainLeft_eq_zero.1 hDrained).resolve_left hRunning
      rw [hEmpty] at hHeld
      have hWaiting := hHeld.resolve_left (List.not_mem_nil _)
      have hKeys₁ : s₁.postedKeys.Nodup := by rw [System.postedKeys, hPosts₁]; exact hKeys
      have hQueued := (hKeep hArrived).resolve_right (System.waiting_no_reply h₁ hKeys₁ hWaiting hRouted)
      exact System.polls_settle hRouted _ h₁ le_rfl (.inr ⟨hReading, hWaiting, hQueued⟩)
  have hPolls : s.exec (List.replicate (k₁ + k₂) .poll) = some s₂ := by
    rw [List.replicate_add, System.exec_append, hDrain, Option.some_bind, hRead]
  have hCall₂ : s₂.calls[i]? = some ⟨op, .awaiting⟩ :=
    System.exec_call_of_ne (fun _ ha => by rw [(List.mem_replicate.1 ha).2]; exact nofun) hPolls hCall
  obtain ⟨s₃, hAdvance, result, hReturned⟩ := System.advance_returns hCall₂ hSettled
  refine ⟨k₁ + k₂, s₃, ?_, result, hReturned⟩
  rw [System.exec_append, hPolls, Option.some_bind]
  simp [System.exec, System.step, hAdvance]

/-- A `lookup_topic` whose `Success` the broker sent while the Receiver was
still reading, before it drained the call's registration. -/
def lookupAnswered : System :=
  ((System.init 64).exec [.poll, .poll, .invoke (.lookupTopic "t" false), .advance 0, .advance 0,
    .advance 0, .write none, .answer 0 (successReply (.requestId 0))]).getD (System.init 64)

/-- The Receiver's polls alone bring the call to return. -/
theorem lookup_answered_returns :
    ∃ k s', lookupAnswered.exec (List.replicate k .poll ++ [.advance 0]) = some s' ∧
      ∃ result, s'.calls[0]? = some ⟨.lookupTopic "t" false, .returned result⟩ :=
  replied_call_returns
    ((Reachable.init 64).exec (show (System.init 64).exec [.poll, .poll,
      .invoke (.lookupTopic "t" false), .advance 0, .advance 0, .advance 0, .write none,
      .answer 0 (successReply (.requestId 0))] = some lookupAnswered from rfl))
    (by decide) (show lookupAnswered.calls[0]? = some ⟨_, .awaiting⟩ by decide)
    (show (Register.request (.requestId 0) 0, true) ∈ lookupAnswered.posts by decide)
    (successReply_routed (.requestId 0) nofun)
    (.inl (show Inbound.frame (successReply (.requestId 0)) ∈ lookupAnswered.inbound by decide))

end PulsarConnection
