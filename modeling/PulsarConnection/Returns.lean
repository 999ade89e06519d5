import PulsarConnection.Progress

/-!
# What a call returns

Whatever the interleaving, every `ConnectionSender` operation returns one of
three things: `Err(Disconnected)`; the `Ok(())` of `send_ping` or of a
fire-and-forget operation; or what `extract_message` made of the reply the
Receiver handed to the call's own resolver.  That reply is a frame the
Receiver handled, routed under the key the call registered, so a call returns
the answer to another call's request only if both registered one key.

`subscribe` posts its `Register::Consumer` before the `Register::Request` of
its `send_message`, on the one registrations channel, which the Receiver
drains in order.  So a `subscribe` that returns anything but `Disconnected`
had its consumer installed before its reply was handed over, and the frames
of its consumer are routed to its delivery sender until another
`Register::Consumer` for the same id is handled.
-/

namespace PulsarConnection

namespace Receiver

/-- A reply handed to a resolver is a frame the Receiver handled. -/
theorem handle_respond_frame {events : List Event} {rx : Receiver} (h : Traced events rx)
    {e : Event} {r : Nat} {msg : Message} (hr : .respond r msg ∈ (rx.handle e).2) :
    .frame msg ∈ events ++ [e] := by
  rcases e with (⟨key, resolver⟩ | _ | _) | m
  · cases hStash : rx.receivedMessages.lookup key with
    | some stashed =>
        simp only [handle, register, hStash, List.mem_singleton, Effect.respond.injEq] at hr
        rw [hr.2]
        exact List.mem_append_left _ (h.2 key _ hStash).2
    | none => simp [handle, register, hStash] at hr
  · simp [handle, register] at hr
  · simp [handle, register] at hr
  · suffices msg = m by simp [this]
    rcases receive_cases rx m with
      ⟨-, hr'⟩ | ⟨-, -, hr'⟩ | ⟨key, -, hr'⟩ | ⟨_, -, hr'⟩ | ⟨-, -, -, hr'⟩ <;>
      simp only [handle, hr'] at hr
    · simp at hr
    · simp at hr
    · unfold route at hr
      split at hr <;> simp at hr
      exact hr.2
    · simp at hr
    · simp at hr

theorem run_respond_frame {events : List Event} {r : Nat} {msg : Message}
    (hr : .respond r msg ∈ (new.run events).2) : .frame msg ∈ events := by
  induction events using List.reverseRecOn with
  | nil => simp at hr
  | append_singleton events e ih =>
      rw [run_snoc] at hr
      rcases List.mem_append.1 hr with hr | hr
      · exact List.mem_append_left _ (ih hr)
      · exact handle_respond_frame (run_traced events) hr

end Receiver

/-! ## What a call returns -/

/-- What the stage of call `i` says about what it returned: `Disconnected`; the
`()` of `send_ping` or of a fire-and-forget operation; or what
`extract_message` made of a reply handed to the call's own resolver. -/
def Call.Answered (s : System) (i : Nat) : Call → Prop
  | ⟨op, .returned result⟩ =>
      result = System.disconnected ∨
        result = .ok .unit ∧ (op = .sendPing ∨ op.notification.isSome) ∨
        ∃ msg, .respond i msg ∈ s.effects ∧ extractMessage msg op.extract = result
  | _ => True

theorem Call.Answered.mono {call : Call} {s s' : System} {i : Nat} (h : call.Answered s i)
    (hEffects : s.effects <+: s'.effects) : call.Answered s' i := by
  obtain ⟨op, stage⟩ := call
  cases stage with
  | returned result =>
      exact h.imp_right (Or.imp_right fun ⟨msg, hMem, hExtract⟩ =>
        ⟨msg, hEffects.subset hMem, hExtract⟩)
  | _ => trivial

namespace System

variable {s s' : System}

/-- Every call's stage says what `Call.Answered` says. -/
def CallsAnswered (s : System) : Prop :=
  ∀ (i : Nat) (call : Call), s.calls[i]? = some call → call.Answered s i

theorem advance_answered {i : Nat} (h : s.advance i = some s') (hLogged : s.ResponsesLogged)
    (hPosted : s.CallsPosted) {call : Call} (hCall : s'.calls[i]? = some call) :
    call.Answered s' i := by
  cases advances_of_advance h with
  | notify hOld hNotify =>
      rw [setStage_call_eq (enqueue_calls _ _) hOld hCall]
      split
      · exact .inr (.inl ⟨rfl, .inr (by simp [hNotify])⟩)
      · exact .inl rfl
  | enqueue hOld | enqueuePing hOld =>
      rw [setStage_call_eq (enqueue_calls _ _) hOld hCall]
      split
      · trivial
      · exact .inl rfl
  | consumerRefused hOld _ | dropped hOld _ =>
      rw [setStage_call_eq (by simp) hOld hCall]
      exact .inl rfl
  | pingDropped hOld _ =>
      rw [setStage_call_eq rfl hOld hCall]
      exact .inl rfl
  | reply hOld hSent =>
      rw [setStage_call_eq rfl hOld hCall]
      exact .inr (.inr ⟨_, (hLogged i).1 _ hSent, rfl⟩)
  | pong hOld _ =>
      rw [setStage_call_eq rfl hOld hCall]
      exact .inr (.inl ⟨rfl, .inl (hPosted i _ hOld)⟩)
  | ping hOld | postConsumer hOld _ | postRequest hOld =>
      rw [setStage_call_eq (post_calls _ _) hOld hCall]
      trivial
  | send hOld | subscribe hOld | request hOld _ =>
      rw [setStage_call_eq rfl hOld hCall]
      trivial

theorem step_callsAnswered {a : Action} (h : s.step a = some s') (hLogged : s.ResponsesLogged)
    (hPosted : s.CallsPosted) (hAnswered : s.CallsAnswered) : s'.CallsAnswered := by
  intro j call hCall
  by_cases hOwn : a = .advance j
  · subst hOwn
    exact advance_answered h hLogged hPosted hCall
  · rcases step_call_cases h hOwn hCall with hOld | hInvoked
    · exact (hAnswered j call hOld).mono (step_extends_effects h)
    · obtain ⟨op, stage⟩ := call
      cases hInvoked
      trivial

end System

theorem Reachable.callsAnswered {s : System} (h : Reachable s) : s.CallsAnswered := by
  induction h with
  | init => intro i call hCall; simp [System.init] at hCall
  | step a hReach hStep ih =>
      exact System.step_callsAnswered hStep hReach.responsesLogged hReach.callsPosted ih

/-- A registration the Receiver handled was posted successfully. -/
theorem Reachable.posted_of_processed {s : System} (h : Reachable s) {r : Register}
    (hr : .registration r ∈ s.processed) : (r, true) ∈ s.posts := by
  have hMem : r ∈ s.postedRegistrations :=
    h.registrationsQueued.subset (List.mem_append_left _ (List.mem_filterMap.2 ⟨_, hr, rfl⟩))
  obtain ⟨⟨r', b⟩, hp, rfl⟩ := List.mem_map.1 hMem
  obtain ⟨hp, hb⟩ := List.mem_filter.1 hp
  simp only at hb
  exact hb ▸ hp

/-- Whatever the interleaving of calls, Receiver, Writer and broker, a call
that has returned returned `Err(Disconnected)`, or the `Ok(())` of `send_ping`
or of a fire-and-forget operation, or what `extract_message` made of a frame
the Receiver handled that is routed under a key the call itself registered
with a successful `Register::Request`. -/
theorem call_returns_own_reply {s : System} (h : Reachable s) {i : Nat} {op : Operation}
    {result : Except ConnectionError Response}
    (hCall : s.calls[i]? = some ⟨op, .returned result⟩) :
    result = System.disconnected ∨
      result = .ok .unit ∧ (op = .sendPing ∨ op.notification.isSome) ∨
      ∃ key msg, (.request key i, true) ∈ s.posts ∧ .frame msg ∈ s.processed ∧
        msg.resolverKey = some key ∧ extractMessage msg op.extract = result := by
  refine (h.callsAnswered i _ hCall).imp_right (Or.imp_right fun ⟨msg, hMem, hExtract⟩ => ?_)
  have hRun : (Receiver.new.run s.processed).2 = s.effects := congrArg Prod.snd h.receiverRun
  rw [← hRun] at hMem
  obtain ⟨key, hKey, hRegistered⟩ := Receiver.run_respond_mem hMem
  exact ⟨key, msg, h.posted_of_processed hRegistered, Receiver.run_respond_frame hMem, hKey,
    hExtract⟩

/-! ## Registrations are handled in the order they were posted -/

namespace System

variable {s s' : System}

/-- The registrations the Receiver handled, then those still queued, are a
prefix of the registrations posted successfully, and all of them while the
Receiver is there: the channel is drained in order, and only the Receiver's
exit drops what is queued. -/
def RegistrationsFifo (s : System) : Prop :=
  s.processed.filterMap Event.registration? ++ s.registrations <+: s.postedRegistrations ∧
    (s.registrationsOpen →
      s.processed.filterMap Event.registration? ++ s.registrations = s.postedRegistrations)

theorem exit_registrationsFifo (h : s.RegistrationsFifo) : s.exit.RegistrationsFifo :=
  ⟨(List.prefix_append _ _).trans (by simpa [exit, postedRegistrations] using h.1), nofun⟩

theorem poll_registrationsFifo (h : s.poll = some s') (hFifo : s.RegistrationsFifo) :
    s'.RegistrationsFifo := by
  have hOpen : ∀ {t : System}, t.phase ≠ .exited → t.registrationsOpen := by
    simp [registrationsOpen]
  cases polls_of_poll h with
  | wake hPhase _ | drained hPhase _ _ =>
      have hAll := hFifo.2 (hOpen (by simp [hPhase]))
      exact ⟨hAll ▸ List.prefix_refl _, fun _ => hAll⟩
  | readAll hPhase _ =>
      have hAll := hFifo.2 (hOpen (by simp [hPhase]))
      exact ⟨hAll ▸ List.prefix_refl _, fun _ => hAll⟩
  | drain _ hRegs | read _ hRegs =>
      simpa [RegistrationsFifo, registrationsOpen, postedRegistrations, Event.registration?, hRegs]
        using hFifo
  | shutdown | senderGone | fail | close =>
      exact exit_registrationsFifo hFifo

theorem step_registrationsFifo {a : Action} (h : s.step a = some s')
    (hFifo : s.RegistrationsFifo) : s'.RegistrationsFifo := by
  cases hOther : a.reachesReceiver
  · obtain ⟨hPhase, -, hProcessed, -, -, -, -, rs, hPosts, hRegs⟩ := step_posts h hOther
    have hSame : s'.registrationsOpen = s.registrationsOpen := by simp [registrationsOpen, hPhase]
    rw [RegistrationsFifo, hSame, hProcessed, hRegs, postedRegistrations_of_posts hPosts]
    cases hOpen : s.registrationsOpen
    · simpa [hOpen] using hFifo.1
    · rw [if_pos rfl, ← List.append_assoc, hFifo.2 hOpen]
      exact ⟨List.prefix_refl _, fun _ => rfl⟩
  · cases a <;> simp only [Action.reachesReceiver, reduceCtorEq] at hOther
    · exact poll_registrationsFifo h hFifo
    · simp only [step] at h
      split at h <;> cases h
      exact hFifo
    · cases h
      exact hFifo

/-- Call `i`'s `Register::Consumer` for `consumerId` and `resolver` was posted
successfully, and after it its `Register::Request` under `key`. -/
def ConsumerBefore (s : System) (consumerId : UInt64) (resolver : Nat) (key : RequestKey)
    (i : Nat) : Prop :=
  ∃ pre post, s.posts = pre ++ (.consumer consumerId resolver, true) :: post ∧
    (.request key i, true) ∈ post

theorem ConsumerBefore.mono {consumerId : UInt64} {resolver : Nat} {key : RequestKey} {i : Nat}
    (h : s.ConsumerBefore consumerId resolver key i) (hPosts : s.posts <+: s'.posts) :
    s'.ConsumerBefore consumerId resolver key i := by
  obtain ⟨pre, post, hEq, hMem⟩ := h
  obtain ⟨more, hMore⟩ := hPosts
  exact ⟨pre, post ++ more, by rw [← hMore, hEq]; simp, List.mem_append_left _ hMem⟩

end System

/-- What the stage of call `i`, a `subscribe` for `consumerId` with delivery
sender `resolver`, says about its two registrations: the `Register::Consumer`
it is about to post carries its own consumer, that post succeeded before the
call posts its `Register::Request`, and a call that posted the request, or
returned anything but `Disconnected`, posted it after the consumer. -/
def Stage.ConsumerFirst (s : System) (i : Nat) (consumerId : UInt64) (resolver : Nat) :
    Stage → Prop
  | .subscribing consumerId' resolver' _ _ => consumerId' = consumerId ∧ resolver' = resolver
  | .posting _ _ => (.consumer consumerId resolver, true) ∈ s.posts
  | .enqueuing key _ true => s.ConsumerBefore consumerId resolver key i
  | .awaiting => ∃ key, s.ConsumerBefore consumerId resolver key i
  | .returned result =>
      result ≠ System.disconnected → ∃ key, s.ConsumerBefore consumerId resolver key i
  | _ => True

theorem Stage.ConsumerFirst.mono {stage : Stage} {s s' : System} {i : Nat} {consumerId : UInt64}
    {resolver : Nat} (h : stage.ConsumerFirst s i consumerId resolver)
    (hPosts : s.posts <+: s'.posts) : stage.ConsumerFirst s' i consumerId resolver := by
  cases stage with
  | subscribing => exact h
  | posting => exact hPosts.subset h
  | enqueuing key frame posted =>
      cases posted
      · trivial
      · exact System.ConsumerBefore.mono h hPosts
  | awaiting =>
      obtain ⟨key, hKey⟩ := h
      exact ⟨key, hKey.mono hPosts⟩
  | returned result => exact fun hNe => (h hNe).imp fun _ hKey => hKey.mono hPosts
  | _ => trivial

namespace System

variable {s s' : System}

/-- Every `subscribe` call's stage says what `Stage.ConsumerFirst` says. -/
def SubscribesOrdered (s : System) : Prop :=
  ∀ (i resolver : Nat) (topic subscription : String) (subType : Int) (consumerId : UInt64)
    (consumerName : Option String) (stage : Stage),
    s.calls[i]? = some ⟨.subscribe resolver topic subscription subType consumerId consumerName,
      stage⟩ → stage.ConsumerFirst s i consumerId resolver

/-- The first step of `subscribe` takes its request id and moves to posting
its consumer. -/
theorem advance_subscribe_invoked {i resolver : Nat} {topic subscription : String}
    {subType : Int} {consumerId : UInt64} {consumerName : Option String}
    (h : s.advance i = some s')
    (hOld : s.calls[i]? = some
      ⟨.subscribe resolver topic subscription subType consumerId consumerName, .invoked⟩) :
    ∃ key frame, s'.calls[i]? = some ⟨.subscribe resolver topic subscription subType consumerId
      consumerName, .subscribing consumerId resolver key frame⟩ := by
  simp only [advance, hOld, start, Option.some.injEq] at h
  subst h
  exact ⟨_, _, setStage_call hOld _⟩

theorem advance_subscribesOrdered {i resolver : Nat} {topic subscription : String}
    {subType : Int} {consumerId : UInt64} {consumerName : Option String} {stage : Stage}
    (h : s.advance i = some s') (hPosted : s.CallsPosted) (hOrdered : s.SubscribesOrdered)
    (hCall : s'.calls[i]? = some
      ⟨.subscribe resolver topic subscription subType consumerId consumerName, stage⟩) :
    stage.ConsumerFirst s' i consumerId resolver := by
  cases advances_of_advance h with
  | ping hOld => exact absurd (Call.mk.inj (setStage_call_eq (post_calls _ _) hOld hCall)).1 nofun
  | send hOld => exact absurd (Call.mk.inj (setStage_call_eq rfl hOld hCall)).1 nofun
  | subscribe hOld =>
      obtain ⟨hOp, rfl⟩ := Call.mk.inj (setStage_call_eq rfl hOld hCall)
      cases hOp
      exact ⟨rfl, rfl⟩
  | notify hOld hNotify =>
      obtain ⟨rfl, -⟩ := Call.mk.inj (setStage_call_eq (enqueue_calls _ _) hOld hCall)
      simp [Operation.notification] at hNotify
  | request hOld _ =>
      obtain ⟨rfl, -⟩ := Call.mk.inj (setStage_call_eq rfl hOld hCall)
      obtain ⟨_, _, hSubscribing⟩ := advance_subscribe_invoked h hOld
      exact absurd (Call.mk.inj (setStage_call_eq rfl hOld hSubscribing)).2 nofun
  | postConsumer hOld hOpen =>
      obtain ⟨rfl, rfl⟩ := Call.mk.inj (setStage_call_eq (post_calls _ _) hOld hCall)
      obtain ⟨rfl, rfl⟩ := hOrdered i _ _ _ _ _ _ _ hOld
      show (_, true) ∈ (s.post _).posts
      simp [post_posts_eq, hOpen]
  | consumerRefused hOld _ =>
      obtain ⟨rfl, rfl⟩ := Call.mk.inj (setStage_call_eq (by simp) hOld hCall)
      exact fun hNe => absurd rfl hNe
  | @postRequest _ key frame hOld =>
      obtain ⟨rfl, rfl⟩ := Call.mk.inj (setStage_call_eq (post_calls _ _) hOld hCall)
      cases hOpen : s.registrationsOpen
      · trivial
      · obtain ⟨pre, post, hEq⟩ := List.append_of_mem (hOrdered i _ _ _ _ _ _ _ hOld)
        exact ⟨pre, post ++ [(.request key i, true)],
          by simp [setStage, post_posts_eq, hOpen, hEq], by simp⟩
  | enqueue hOld =>
      obtain ⟨rfl, rfl⟩ := Call.mk.inj (setStage_call_eq (enqueue_calls _ _) hOld hCall)
      have hFirst := hOrdered i _ _ _ _ _ _ _ hOld
      split
      · rename_i hFits
        obtain ⟨rfl, -⟩ := Bool.and_eq_true_iff.1 hFits
        exact ⟨_, hFirst.mono (by simp [setStage, enqueue]; split <;> simp)⟩
      · exact fun hNe => absurd rfl hNe
  | reply hOld _ =>
      obtain ⟨rfl, rfl⟩ := Call.mk.inj (setStage_call_eq rfl hOld hCall)
      exact fun _ => hOrdered i _ _ _ _ _ _ _ hOld
  | dropped hOld _ =>
      obtain ⟨rfl, rfl⟩ := Call.mk.inj (setStage_call_eq (by simp) hOld hCall)
      exact fun hNe => absurd rfl hNe
  | enqueuePing hOld =>
      obtain ⟨rfl, -⟩ := Call.mk.inj (setStage_call_eq (enqueue_calls _ _) hOld hCall)
      exact absurd (hPosted i _ hOld) nofun
  | pong hOld _ | pingDropped hOld _ =>
      obtain ⟨rfl, -⟩ := Call.mk.inj (setStage_call_eq rfl hOld hCall)
      exact absurd (hPosted i _ hOld) nofun

theorem step_subscribesOrdered {a : Action} (h : s.step a = some s') (hPosted : s.CallsPosted)
    (hOrdered : s.SubscribesOrdered) : s'.SubscribesOrdered := by
  intro j resolver topic subscription subType consumerId consumerName stage hCall
  by_cases hOwn : a = .advance j
  · subst hOwn
    exact advance_subscribesOrdered h hPosted hOrdered hCall
  · rcases step_call_cases h hOwn hCall with hOld | hInvoked
    · exact (hOrdered j _ _ _ _ _ _ _ hOld).mono (step_extends_posts h)
    · cases hInvoked
      trivial

end System

namespace Reachable

variable {s : System}

theorem registrationsFifo (h : Reachable s) : s.RegistrationsFifo := by
  induction h with
  | init => exact ⟨List.prefix_refl _, fun _ => rfl⟩
  | step a _ hStep ih => exact System.step_registrationsFifo hStep ih

theorem subscribesOrdered (h : Reachable s) : s.SubscribesOrdered := by
  induction h with
  | init => intro i _ _ _ _ _ _ _ hCall; simp [System.init] at hCall
  | step a hReach hStep ih => exact System.step_subscribesOrdered hStep hReach.callsPosted ih

end Reachable

/-! ## A successful `subscribe` finds its consumer installed -/

theorem Event.registration?_eq_some {e : Event} {r : Register} :
    e.registration? = some r ↔ e = .registration r := by
  cases e <;> simp [Event.registration?]

/-- Two posts of `Register::Request`, successful or not, carry different
resolvers. -/
theorem System.ResolversFresh.request_once {s : System} (h : s.ResolversFresh)
    {pre post : List (Register × Bool)} (hEq : s.posts = pre ++ post) {key key' : RequestKey}
    {i : Nat} {b b' : Bool} (hPre : (.request key i, b) ∈ pre)
    (hPost : (.request key' i, b') ∈ post) : False := by
  have hNodup := h.1
  rw [System.postedResolvers, hEq, List.filterMap_append] at hNodup
  exact List.disjoint_of_nodup_append hNodup (List.mem_filterMap.2 ⟨_, hPre, rfl⟩)
    (List.mem_filterMap.2 ⟨_, hPost, rfl⟩)

/-- When call `i` posted its `Register::Consumer` before a request, and the
Receiver handled a request of the call, it handled the consumer before it. -/
theorem Reachable.consumer_handled_first {s : System} (h : Reachable s) {consumerId : UInt64}
    {resolver i : Nat} {key key' : RequestKey}
    (hBefore : s.ConsumerBefore consumerId resolver key' i)
    (hHandled : .registration (.request key i) ∈ s.processed) :
    ∃ before after,
      s.processed = before ++ .registration (.consumer consumerId resolver) :: after ∧
        .registration (.request key i) ∈ after := by
  obtain ⟨pre, post, hEq, hPost⟩ := hBefore
  have hNotPre : Register.request key i ∉ (pre.filter (·.2)).map (·.1) := fun hMem => by
    obtain ⟨⟨r, b⟩, hr, rfl⟩ := List.mem_map.1 hMem
    exact h.resolversFresh.request_once hEq (List.mem_filter.1 hr).1 (List.mem_cons_of_mem _ hPost)
  have hPosted : s.postedRegistrations =
      ((pre.filter (·.2)).map (·.1) ++ [.consumer consumerId resolver]) ++
        (post.filter (·.2)).map (·.1) := by
    simp [System.postedRegistrations, hEq]
  have hReq : Register.request key i ∈ s.processed.filterMap Event.registration? :=
    List.mem_filterMap.2 ⟨_, hHandled, rfl⟩
  rcases List.prefix_or_prefix_of_prefix ((List.prefix_append _ _).trans h.registrationsFifo.1)
      (hPosted ▸ List.prefix_append _ _) with hShort | ⟨rest, hRest⟩
  · rcases List.mem_append.1 (hShort.subset hReq) with hPre | hConsumer
    · exact absurd hPre hNotPre
    · cases List.mem_singleton.1 hConsumer
  · have hHandledRegs : s.processed.filterMap Event.registration? =
        (pre.filter (·.2)).map (·.1) ++ .consumer consumerId resolver :: rest := by
      rw [← hRest, List.append_assoc, List.singleton_append]
    have hReqRest : Register.request key i ∈ rest := by
      simpa [hHandledRegs, hNotPre] using hReq
    obtain ⟨l₁, l₂, hSplit, -, hTail⟩ := List.filterMap_eq_append_iff.1 hHandledRegs
    obtain ⟨m₁, e, m₂, rfl, -, he, rfl⟩ := List.filterMap_eq_cons_iff.1 hTail
    obtain ⟨e', he', hReg⟩ := List.mem_filterMap.1 hReqRest
    rw [Event.registration?_eq_some] at he hReg
    subst he hReg
    exact ⟨l₁ ++ m₁, m₂, by simp [hSplit], he'⟩

/-- Whatever the interleaving, a `subscribe` that returned anything but
`Disconnected` had its `Register::Consumer` handled by the Receiver before a
`Register::Request` of the call.  From then on the Receiver routes the
frames of its consumer to the call's delivery sender, unless another
`Register::Consumer` for the same consumer id has been handled since. -/
theorem subscribe_installs_consumer_first {s : System} (h : Reachable s) {i resolver : Nat}
    {topic subscription : String} {subType : Int} {consumerId : UInt64}
    {consumerName : Option String} {result : Except ConnectionError Response}
    (hCall : s.calls[i]? = some ⟨.subscribe resolver topic subscription subType consumerId
      consumerName, .returned result⟩)
    (hAnswered : result ≠ System.disconnected) :
    ∃ before after key,
      s.processed = before ++ .registration (.consumer consumerId resolver) :: after ∧
        .registration (.request key i) ∈ after ∧
        ((∀ other, .registration (.consumer consumerId other) ∉ after) →
          s.receiver.consumers.lookup consumerId = some resolver) := by
  have hRx : s.receiver = (Receiver.new.run s.processed).1 := by rw [h.receiverRun]
  have hEffects : s.effects = (Receiver.new.run s.processed).2 := by rw [h.receiverRun]
  obtain ⟨msg, hMem⟩ : ∃ msg, Effect.respond i msg ∈ s.effects := by
    rcases h.callsAnswered i _ hCall with hDisc | ⟨-, hOp | hNotify⟩ | hReply
    · exact absurd hDisc hAnswered
    · cases hOp
    · simp [Operation.notification] at hNotify
    · exact hReply.imp fun _ hReply => hReply.1
  obtain ⟨key, -, hRegistered⟩ := Receiver.run_respond_mem (hEffects ▸ hMem)
  obtain ⟨key', hBefore⟩ := h.subscribesOrdered i _ _ _ _ _ _ _ hCall hAnswered
  obtain ⟨before, after, hSplit, hRequest⟩ := h.consumer_handled_first hBefore hRegistered
  refine ⟨before, after, key, hSplit, hRequest, fun hOther => ?_⟩
  rw [hRx, Receiver.run_consumers_lookup]
  refine ⟨before, after, hSplit, fun e he => ?_⟩
  rcases e with (_ | ⟨c, r⟩ | _) | _ <;>
    simp only [Event.registersConsumer, decide_eq_false_iff_not]
  rintro rfl
  exact hOther r he

/-- A `subscribe` whose request the broker answered with `Success`, after the
Receiver handled both its registrations and the reply, and the call took its
reply. -/
def subscribeAnswered : System :=
  ((System.init 64).exec [.invoke (.subscribe 7 "t" "s" 0 1 none), .advance 0, .advance 0,
    .advance 0, .advance 0, .write none, .answer 0 (successReply (.requestId 0)), .poll, .poll,
    .poll, .poll, .poll, .advance 0]).getD (System.init 64)

theorem subscribeAnswered_reachable : Reachable subscribeAnswered :=
  (Reachable.init 64).exec (show (System.init 64).exec [.invoke (.subscribe 7 "t" "s" 0 1 none),
    .advance 0, .advance 0, .advance 0, .advance 0, .write none,
    .answer 0 (successReply (.requestId 0)), .poll, .poll, .poll, .poll, .poll, .advance 0] =
      some subscribeAnswered from rfl)

/-- The `Success` the call returned is its own reply. -/
theorem subscribe_success_own_reply :
    ∃ key msg, (.request key 0, true) ∈ subscribeAnswered.posts ∧
      .frame msg ∈ subscribeAnswered.processed ∧ msg.resolverKey = some key ∧
      extractMessage msg (Operation.subscribe 7 "t" "s" 0 1 none).extract = .ok (.success ⟨0⟩) := by
  rcases call_returns_own_reply subscribeAnswered_reachable
      (show subscribeAnswered.calls[0]? =
        some ⟨.subscribe 7 "t" "s" 0 1 none, .returned (.ok (.success ⟨0⟩))⟩ by decide) with
    hDisc | ⟨hUnit, -⟩ | hReply
  · cases hDisc
  · cases hUnit
  · exact hReply

/-- The call's consumer was installed before its request was handled. -/
theorem subscribe_success_consumer_first :
    ∃ before after key,
      subscribeAnswered.processed = before ++ .registration (.consumer 1 7) :: after ∧
        .registration (.request key 0) ∈ after ∧
        ((∀ other, .registration (.consumer 1 other) ∉ after) →
          subscribeAnswered.receiver.consumers.lookup 1 = some 7) :=
  subscribe_installs_consumer_first subscribeAnswered_reachable
    (show subscribeAnswered.calls[0]? =
      some ⟨.subscribe 7 "t" "s" 0 1 none, .returned (.ok (.success ⟨0⟩))⟩ by decide)
    (by decide)

end PulsarConnection
