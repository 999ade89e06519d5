import PulsarConnection.Progress

/-!
# What a subscription's channel holds

`subscribe` hands the Receiver, in its `Register::Consumer`, the sending half
of the channel its consumer reads; the inbound loop pushes every frame keyed
`Consumer { consumer_id }` through the entry of that consumer.  A delivery
channel of the connection state is the sequence of frames sent into it (the
consumer that reads them lies outside `connection.rs`).  Nothing but the
Receiver fills one, so each holds exactly the pushes the Receiver logged into
it.  With the routing law of the Receiver this says what a subscription sees
in any run of the whole connection: the frames addressed to its consumer that
the Receiver read after installing its sender, each once and in order, and
nothing else.  And the Receiver's polls alone bring every such frame queued on
the inbound stream into the channel, unless an error or the end of the stream
comes before it.
-/

namespace PulsarConnection

/-- A push into the delivery sender `r`: the frame pushed. -/
def Effect.pushedInto (r : Nat) : Effect → Option Message
  | .deliver _ resolver msg => if resolver = r then some msg else none
  | _ => none

namespace Receiver

/-- An entry of the consumers table after a run from `Receiver::new` was
installed by a registration of the run. -/
theorem run_consumers_lookup_mem {events : List Event} {consumerId : UInt64} {r : Nat}
    (h : (new.run events).1.consumers.lookup consumerId = some r) :
    Event.registration (.consumer consumerId r) ∈ events := by
  obtain ⟨pre, post, rfl, -⟩ := run_consumers_lookup.1 h
  exact List.mem_append_right pre (List.mem_cons_self _ _)

/-- A registration pushes nothing into any delivery sender. -/
theorem register_pushes_nothing (rx : Receiver) (reg : Register) (r : Nat) :
    (rx.handle (.registration reg)).2.filterMap (Effect.pushedInto r) = [] := by
  rcases reg with ⟨key, resolver⟩ | ⟨consumerId, resolver⟩ | resolver
  · simp only [handle, register]
    split <;> cases rx.pendingRequests.lookup key <;> simp [Effect.pushedInto]
  · cases rx.consumers.lookup consumerId <;> simp [handle, register, Effect.pushedInto]
  · cases rx.ping <;> simp [handle, register, Effect.pushedInto]

/-- A frame for a consumer whose entry holds `r` is pushed into `r`, and
nothing else is. -/
theorem handle_frame_pushedInto {rx : Receiver} {msg : Message} {consumerId : UInt64} {r : Nat}
    (hFor : msg.consumerKey = some consumerId) (hInstalled : rx.consumers.lookup consumerId = some r) :
    (rx.handle (.frame msg)).2.filterMap (Effect.pushedInto r) = [msg] := by
  obtain ⟨hPing, hPong, hRequest⟩ := Message.consumerKey_eq_some.1 hFor
  simp [handle, receive, hPing, hPong, hRequest, hInstalled, Effect.pushedInto]

/-- Where the pushes through the entry of `consumerId` are exactly the pushes
into `r`, the frames pushed into `r` are those pushed through that entry. -/
theorem pushedInto_eq_deliveryTo {effects : List Effect} {consumerId : UInt64} {r : Nat}
    (hSame : ∀ c r' msg, Effect.deliver c r' msg ∈ effects → (c = consumerId ↔ r' = r)) :
    effects.filterMap (Effect.pushedInto r) =
      (effects.filterMap (Effect.deliveryTo consumerId)).map Prod.snd := by
  induction effects with
  | nil => rfl
  | cons effect effects ih =>
      rw [List.filterMap_cons, List.filterMap_cons,
        ih fun c r' msg h => hSame c r' msg (List.mem_cons_of_mem _ h)]
      cases effect with
      | deliver c r' msg =>
          have hIff := hSame c r' msg (List.mem_cons_self _ _)
          by_cases hc : c = consumerId <;> simp_all [Effect.pushedInto, Effect.deliveryTo]
      | _ => rfl

/-- A sender that no registration of a run from `Receiver::new` installs
receives nothing. -/
theorem run_pushedInto_unregistered {events : List Event} {r : Nat}
    (hFresh : ∀ c, Event.registration (.consumer c r) ∉ events) :
    (new.run events).2.filterMap (Effect.pushedInto r) = [] := by
  refine List.filterMap_eq_nil_iff.2 fun effect hMem => ?_
  cases effect with
  | deliver c r' msg =>
      by_cases hr : r' = r
      · subst hr
        exact absurd ((run_deliver_mem hMem).2.resolve_left (by simp [new, AList.lookup_empty]))
          (hFresh c)
      · simp [Effect.pushedInto, hr]
  | _ => rfl

/-- While the entry of `consumerId` holds `r` and no other entry does, `r`
receives exactly the frames addressed to `consumerId`, as long as that consumer
is not registered again and no registration installs `r` for another. -/
theorem run_pushedInto_of_owner {rx : Receiver} {events : List Event} {consumerId : UInt64}
    {r : Nat} (hInstalled : rx.consumers.lookup consumerId = some r)
    (hOwner : ∀ c, rx.consumers.lookup c = some r → c = consumerId)
    (hKept : ∀ e ∈ events, e.registersConsumer consumerId = false)
    (hFresh : ∀ c, Event.registration (.consumer c r) ∉ events) :
    (rx.run events).2.filterMap (Effect.pushedInto r) =
      events.filterMap (Event.deliveryFor consumerId) := by
  have hThrough := run_deliveryTo_of_installed hInstalled events hKept
  have hSame : ∀ c r' msg, Effect.deliver c r' msg ∈ (rx.run events).2 →
      (c = consumerId ↔ r' = r) := by
    refine fun c r' msg hMem => ⟨?_, ?_⟩
    · rintro rfl
      have hPushed : (r', msg) ∈ (rx.run events).2.filterMap (Effect.deliveryTo c) :=
        List.mem_filterMap.2 ⟨_, hMem, by simp [Effect.deliveryTo]⟩
      rw [hThrough] at hPushed
      obtain ⟨_, -, hEq⟩ := List.mem_map.1 hPushed
      exact (Prod.mk.inj hEq).1.symm
    · rintro rfl
      exact hOwner c ((run_deliver_mem hMem).2.resolve_right (hFresh c))
  rw [pushedInto_eq_deliveryTo hSame, hThrough]
  simp [Function.comp_def]

/-- The sender `r`, installed for `consumerId` by a registration that no other
registration of `r` comes before or after, receives, over the items handled
after it, exactly the frames addressed to `consumerId`, as long as that
consumer is not registered again. -/
theorem run_pushedInto_window {before after : List Event} {consumerId : UInt64} {r : Nat}
    (hFresh : ∀ c, Event.registration (.consumer c r) ∉ before ++ after)
    (hKept : ∀ e ∈ after, e.registersConsumer consumerId = false) :
    (new.run (before ++ .registration (.consumer consumerId r) :: after)).2.filterMap
        (Effect.pushedInto r) =
      after.filterMap (Event.deliveryFor consumerId) := by
  have hBefore : ∀ c, Event.registration (.consumer c r) ∉ before :=
    fun c hMem => hFresh c (List.mem_append_left _ hMem)
  have hInstalled : (new.run (before ++ [.registration (.consumer consumerId r)])).1.consumers.lookup
      consumerId = some r := by
    simp only [run_snoc, process, handle_consumers, AList.lookup_insert]
  have hOwner : ∀ c, (new.run (before ++ [.registration (.consumer consumerId r)])).1.consumers.lookup
      c = some r → c = consumerId := fun c hLookup =>
    (List.mem_append.1 (run_consumers_lookup_mem hLookup)).elim (absurd · (hBefore c))
      fun hLast => by simpa using hLast
  rw [← List.singleton_append, ← List.append_assoc, run_append, List.filterMap_append,
    run_pushedInto_of_owner hInstalled hOwner hKept
      fun c hMem => hFresh c (List.mem_append_right _ hMem), run_snoc, process, List.filterMap_append, run_pushedInto_unregistered hBefore,
    register_pushes_nothing]
  rfl

end Receiver

namespace System

variable {s s' : System}

/-- Every delivery channel holds exactly the frames the Receiver pushed into it,
in the order it pushed them. -/
def DeliveriesLogged (s : System) : Prop :=
  ∀ r, s.deliveries r = s.effects.filterMap (Effect.pushedInto r)

theorem apply_deliveries (s : System) (effect : Effect) (r : Nat) :
    (s.apply effect).deliveries r = s.deliveries r ++ (effect.pushedInto r).toList := by
  cases effect with
  | deliver c r' msg =>
      by_cases hr : r = r'
      · subst hr
        simp [apply, Effect.pushedInto]
      · simp [apply, Effect.pushedInto, Function.update_noteq hr, Ne.symm hr]
  | sendPong =>
      simp only [apply, enqueue]
      split <;> simp [Effect.pushedInto]
  | _ => simp [apply, Effect.pushedInto]

theorem foldl_apply_deliveries (effects : List Effect) (s : System) (r : Nat) :
    (effects.foldl apply s).deliveries r =
      s.deliveries r ++ effects.filterMap (Effect.pushedInto r) := by
  induction effects generalizing s with
  | nil => simp
  | cons effect effects ih =>
      rw [List.foldl_cons, ih, apply_deliveries, List.filterMap_cons]
      cases effect.pushedInto r <;> simp

theorem dispatch_deliveries (s : System) (e : Event) (r : Nat) :
    (s.dispatch e).deliveries r =
      s.deliveries r ++ (s.receiver.handle e).2.filterMap (Effect.pushedInto r) :=
  foldl_apply_deliveries _ _ r

theorem dispatch_deliveriesLogged (h : s.DeliveriesLogged) (e : Event) :
    (s.dispatch e).DeliveriesLogged := by
  intro r
  rw [dispatch_effects, List.filterMap_append, ← h r]
  exact dispatch_deliveries s e r

/-- A caller's step fills no delivery channel. -/
theorem advance_deliveries {i : Nat} (h : s.advance i = some s') : s'.deliveries = s.deliveries :=
  (advances_of_advance h).of_helpers (R := fun t t' => t'.deliveries = t.deliveries)
    (fun first second => second.trans first)
    (fun t r => by unfold post; split <;> [rfl; cases r <;> rfl])
    (fun t msg => by unfold enqueue; split <;> rfl) (fun _ _ => rfl) (fun _ => rfl) (fun _ _ => rfl)

theorem step_deliveriesLogged {a : Action} (h : s.step a = some s') (hLogged : s.DeliveriesLogged) :
    s'.DeliveriesLogged := by
  cases a with
  | poll =>
      cases polls_of_poll h with
      | drain | read =>
          refine dispatch_deliveriesLogged ?_ _
          exact hLogged
      | _ => exact hLogged
  | advance i =>
      intro r
      rw [advance_deliveries h, (advance_posts h).2.2.2.1]
      exact hLogged r
  | write o =>
      rcases write_cases h with ⟨-, -, -, -, -, rfl⟩ | ⟨-, -, -, -, -, -, rfl⟩ | ⟨-, -, -, -, rfl⟩ <;>
        exact hLogged
  | push | takeError => cases h; exact hLogged
  | invoke | answer | dropConnection =>
      simp only [step] at h
      split at h <;> cases h
      exact hLogged

/-! ## A frame for an installed consumer reaches its channel -/

/-- On the way to a frame for `consumerId`, whose entry holds `r`, the polls
keep that entry while no queued registration moves it and only add to the
channel of `r`; reading the frame pushes it into `r`. -/
theorem deliveryPath {base : List Message} {consumerId : UInt64} {r : Nat} {msg : Message}
    (hFor : msg.consumerKey = some consumerId) :
    ReadPath msg
      (fun t => t.receiver.consumers.lookup consumerId = some r ∧
        (∀ reg ∈ t.registrations, (Event.registration reg).registersConsumer consumerId = false) ∧
        ∃ earlier, t.deliveries r = base ++ earlier)
      (fun t => ∃ earlier, t.deliveries r = base ++ earlier ++ [msg]) where
  phase _ hKeep := hKeep
  register := by
    rintro t reg rest ⟨hInstalled, hQueued, earlier, hGrown⟩ hRegs
    refine ⟨?_, fun reg' hReg' => hQueued reg' (by simp_all), earlier, ?_⟩
    · rw [dispatch_receiver,
        Receiver.handle_consumers_of_not_registers (hQueued reg (by simp [hRegs]))]
      exact hInstalled
    · rw [dispatch_deliveries, Receiver.register_pushes_nothing, List.append_nil]
      exact hGrown
  frame := by
    rintro t m rest ⟨hInstalled, hQueued, earlier, hGrown⟩ -
    refine ⟨?_, by simpa using hQueued,
      earlier ++ (t.receiver.handle (.frame m)).2.filterMap (Effect.pushedInto r), ?_⟩
    · rw [dispatch_receiver, Receiver.handle_consumers_of_not_registers
        (show (Event.frame m).registersConsumer consumerId = false from rfl)]
      exact hInstalled
    · rw [dispatch_deliveries, hGrown, List.append_assoc]
  read := by
    rintro t rest ⟨hInstalled, -, earlier, hGrown⟩ -
    exact ⟨earlier, by
      rw [dispatch_deliveries, Receiver.handle_frame_pushedInto hFor hInstalled, hGrown]⟩

end System

theorem Reachable.deliveriesLogged {s : System} (h : Reachable s) : s.DeliveriesLogged := by
  induction h with
  | init => intro r; rfl
  | step a _ hStep ih => exact System.step_deliveriesLogged hStep ih

/-- A subscription's channel receives exactly its consumer's frames.  Say the
Receiver has handled the `Register::Consumer { consumer_id, resolver }` that
installed the sender `resolver` of a channel, no other registration it handled
names that sender, and it has handled no later registration for
`consumer_id`.  Then, in every reachable state of the connection, the channel
holds exactly the frames keyed `Consumer { consumer_id }` and carrying neither
ping nor pong that the Receiver read after that registration: none is lost or
duplicated, they come in the order read, and no frame for another consumer, no
reply, no ping and no pong is in it. -/
theorem subscription_channel_exact {s : System} (h : Reachable s) {consumerId : UInt64} {r : Nat}
    {before after : List Event}
    (hProcessed : s.processed = before ++ .registration (.consumer consumerId r) :: after)
    (hFresh : ∀ c, .registration (.consumer c r) ∉ before ++ after)
    (hKept : ∀ e ∈ after, e.registersConsumer consumerId = false) :
    s.deliveries r = after.filterMap (Event.deliveryFor consumerId) := by
  rw [h.deliveriesLogged r, show s.effects = (Receiver.new.run s.processed).2 by rw [h.receiverRun],
    hProcessed]
  exact Receiver.run_pushedInto_window hFresh hKept

/-- A `Message` delivery for consumer 1. -/
def subscribedDelivery : Message :=
  { command := { message := some ⟨1, ⟨0, 0⟩⟩ } }

/-- A subscription of sender 7 to consumer 1 whose `Register::Consumer` the
Receiver has handled, with a delivery for that consumer queued behind it. -/
def subscriptionQueued : System :=
  ((System.init 64).exec [.invoke (.subscribe 7 "t" "s" 0 1 none), .advance 0, .advance 0, .poll,
    .poll, .push (.frame subscribedDelivery)]).getD (System.init 64)

/-- The same, once the Receiver has read the delivery. -/
def subscriptionFed : System :=
  (subscriptionQueued.exec [.poll, .poll]).getD subscriptionQueued

theorem subscriptionFed_reachable : Reachable subscriptionFed :=
  ((Reachable.init 64).exec (show (System.init 64).exec [.invoke (.subscribe 7 "t" "s" 0 1 none),
    .advance 0, .advance 0, .poll, .poll, .push (.frame subscribedDelivery)] =
      some subscriptionQueued from rfl)).exec
    (show subscriptionQueued.exec [.poll, .poll] = some subscriptionFed from rfl)

/-- The delivery is in the subscription's channel. -/
theorem subscription_receives_delivery :
    subscriptionFed.deliveries 7 = [subscribedDelivery] :=
  (subscription_channel_exact subscriptionFed_reachable
    (show subscriptionFed.processed = [] ++ .registration (.consumer 1 7) ::
      [.frame subscribedDelivery] by decide)
    (by simp) (by decide)).trans rfl

/-- A frame for a subscribed consumer reaches its channel.  Say the entry of
`consumer_id` holds the sender `r`, no registration queued for the Receiver
moves it, the connection is alive, and ahead of a frame keyed
`Consumer { consumer_id }` in the inbound stream there are only frames.  Then
the Receiver's polls alone, with no other party taking a step, push that frame
into `r`, behind what the channel already held and whatever else the polls
pushed into it. -/
theorem consumer_frame_delivered {s : System} (hAlive : s.connectionAlive)
    (hRunning : s.phase ≠ .exited) {consumerId : UInt64} {r : Nat}
    (hInstalled : s.receiver.consumers.lookup consumerId = some r)
    (hQueued : ∀ reg ∈ s.registrations, (Event.registration reg).registersConsumer consumerId = false)
    {pre : List Message} {post : List Inbound} {msg : Message}
    (hInbound : s.inbound = pre.map Inbound.frame ++ .frame msg :: post)
    (hFor : msg.consumerKey = some consumerId) :
    ∃ k s' earlier, s.exec (List.replicate k .poll) = some s' ∧
      s'.deliveries r = s.deliveries r ++ earlier ++ [msg] := by
  obtain ⟨k, s', hExec, earlier, hDelivered⟩ := System.polls_read_toward (System.deliveryPath hFor)
    ⟨hAlive, hRunning, pre, post, hInbound⟩ ⟨hInstalled, hQueued, [], (List.append_nil _).symm⟩
  exact ⟨k, s', earlier, hExec, hDelivered⟩

/-- The queued delivery reaches sender 7 by polls alone. -/
theorem queued_delivery_arrives :
    ∃ k s' earlier, subscriptionQueued.exec (List.replicate k .poll) = some s' ∧
      s'.deliveries 7 = subscriptionQueued.deliveries 7 ++ earlier ++ [subscribedDelivery] :=
  consumer_frame_delivered (by decide) (by decide) (by decide) (by decide)
    (show subscriptionQueued.inbound = [].map Inbound.frame ++ [.frame subscribedDelivery] by decide)
    rfl

end PulsarConnection
