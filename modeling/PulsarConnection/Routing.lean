import PulsarConnection.Receiver

/-!
# Routing laws of the Receiver

Laws about every sequence of items the Receiver handles, whatever the order of
registrations and frames: a key never has both a waiting resolver and a
stashed reply, and a consumer's delivery channel receives exactly the frames
addressed to that consumer while its registration is installed.  The
consumers table is written only by `Register::Consumer`: each consumer id is
routed to the sender of its last registration, and a sender is dropped only
when a newer registration replaces it.
-/

namespace PulsarConnection

namespace Receiver

/-! ## Waiting resolvers and stashed replies are disjoint -/

/-- No key has both a waiting resolver and a stashed reply. -/
def Disjoint (rx : Receiver) : Prop :=
  ∀ key, key ∈ rx.pendingRequests → key ∉ rx.receivedMessages

theorem new_disjoint : new.Disjoint :=
  fun key _ => AList.not_mem_empty key

theorem register_disjoint {rx : Receiver} (h : rx.Disjoint) (r : Register) :
    (rx.register r).1.Disjoint := by
  cases r with
  | request key resolver =>
      intro k hk
      cases hStash : rx.receivedMessages.lookup key with
      | some msg =>
          simp only [register, hStash, AList.mem_erase, not_and] at hk ⊢
          exact fun _ => h k hk
      | none =>
          simp only [register, hStash, AList.mem_insert] at hk ⊢
          rcases hk with rfl | hk
          · exact AList.lookup_eq_none.mp hStash
          · exact h k hk
  | consumer => exact h
  | ping => exact h

theorem route_disjoint {rx : Receiver} (h : rx.Disjoint) (key : RequestKey) (msg : Message) :
    (rx.route key msg).1.Disjoint := by
  intro k hk
  cases hWaiting : rx.pendingRequests.lookup key with
  | some resolver =>
      simp only [route, hWaiting, AList.mem_erase] at hk ⊢
      exact h k hk.2
  | none =>
      simp only [route, hWaiting, AList.mem_insert, not_or] at hk ⊢
      exact ⟨fun hEq => AList.lookup_eq_none.mp hWaiting (hEq ▸ hk), h k hk⟩

theorem receive_disjoint {rx : Receiver} (h : rx.Disjoint) (msg : Message) :
    (rx.receive msg).1.Disjoint := by
  rcases receive_cases rx msg with
    ⟨-, hr⟩ | ⟨-, -, hr⟩ | ⟨key, -, hr⟩ | ⟨_, -, hr⟩ | ⟨-, -, -, hr⟩ <;> rw [hr]
  · exact h
  · exact h
  · exact route_disjoint h key msg
  · exact h
  · exact h

theorem handle_disjoint {rx : Receiver} (h : rx.Disjoint) : ∀ e, (rx.handle e).1.Disjoint
  | .registration r => register_disjoint h r
  | .frame msg => receive_disjoint h msg

theorem run_disjoint {rx : Receiver} (h : rx.Disjoint) (events : List Event) :
    (rx.run events).1.Disjoint := by
  induction events generalizing rx with
  | nil => exact h
  | cons e events ih =>
      rw [run_cons]
      exact ih (handle_disjoint h e)

/-- In every state the Receiver reaches from `Receiver::new`, whatever
registrations and frames it has handled, no key is both waiting and stashed. -/
theorem pending_received_disjoint (events : List Event) (key : RequestKey) :
    ¬(key ∈ (new.run events).1.pendingRequests ∧ key ∈ (new.run events).1.receivedMessages) :=
  fun ⟨waiting, stashed⟩ => run_disjoint new_disjoint events key waiting stashed

end Receiver

/-! ## Consumer deliveries -/

/-- A push made through the routing entry of `consumerId`, with the sender it
went into. -/
def Effect.deliveryTo (consumerId : UInt64) : Effect → Option (Nat × Message)
  | .deliver c resolver msg => if c = consumerId then some (resolver, msg) else none
  | _ => none

/-- A frame addressed to `consumerId`: it carries neither ping nor pong and its
request key is `Consumer{consumer_id}`. -/
def Event.deliveryFor (consumerId : UInt64) : Event → Option Message
  | .frame msg => if msg.consumerKey = some consumerId then some msg else none
  | .registration _ => none

/-- Whether the item is a `Register::Consumer` for `consumerId`. -/
def Event.registersConsumer (consumerId : UInt64) : Event → Bool
  | .registration (.consumer c _) => c = consumerId
  | _ => false

namespace Receiver

/-- Only a `Register::Consumer` changes the consumers table. -/
theorem handle_consumers (rx : Receiver) (e : Event) :
    (rx.handle e).1.consumers =
      match e with
      | .registration (.consumer c r) => rx.consumers.insert c r
      | _ => rx.consumers := by
  rcases e with (⟨key, resolver⟩ | ⟨c, resolver⟩ | resolver) | msg
  · simp only [handle, register]
    split <;> rfl
  · rfl
  · rfl
  · rcases receive_cases rx msg with
      ⟨-, hr⟩ | ⟨-, -, hr⟩ | ⟨key, -, hr⟩ | ⟨_, -, hr⟩ | ⟨-, -, -, hr⟩ <;>
      simp only [handle, hr]
    unfold route
    split <;> rfl

theorem handle_consumers_of_not_registers {rx : Receiver} {e : Event} {consumerId : UInt64}
    (h : e.registersConsumer consumerId = false) :
    (rx.handle e).1.consumers.lookup consumerId = rx.consumers.lookup consumerId := by
  rw [handle_consumers]
  rcases e with (_ | ⟨c, r⟩ | _) | _
  · rfl
  · exact AList.lookup_insert_ne (by simpa [Event.registersConsumer, eq_comm] using h)
  · rfl
  · rfl

/-- The pushes one item makes through the entry of `consumerId`: the item
itself, if it is a frame addressed to that consumer, into the sender installed
for it, if there is one. -/
theorem handle_deliveryTo (rx : Receiver) (e : Event) (consumerId : UInt64) :
    (rx.handle e).2.filterMap (Effect.deliveryTo consumerId) =
      ((rx.consumers.lookup consumerId).bind fun s =>
        (e.deliveryFor consumerId).map (s, ·)).toList := by
  rcases e with (⟨key, resolver⟩ | ⟨c, resolver⟩ | resolver) | msg
  · simp only [handle, register]
    split <;> cases rx.pendingRequests.lookup key <;> simp [Effect.deliveryTo, Event.deliveryFor]
  · cases rx.consumers.lookup c <;> simp [handle, register, Effect.deliveryTo, Event.deliveryFor]
  · cases rx.ping <;> simp [handle, register, Effect.deliveryTo, Event.deliveryFor]
  · rcases receive_cases rx msg with
      ⟨hPing, hr⟩ | ⟨-, hPong, hr⟩ | ⟨key, hKey, hr⟩ | ⟨c, hKey, hr⟩ | ⟨-, -, hNone, hr⟩ <;>
      simp only [handle, hr, Event.deliveryFor, Message.consumerKey_eq_some]
    · simp [Option.isSome_iff_ne_none.mp hPing, Effect.deliveryTo]
    · cases rx.ping <;> simp [Option.isSome_iff_ne_none.mp hPong, Effect.deliveryTo]
    · obtain ⟨-, -, hRequest, hNotConsumer⟩ := Message.resolverKey_eq_some.mp hKey
      unfold route
      split <;> simp [hRequest, hNotConsumer, Effect.deliveryTo]
    · obtain ⟨hPing, hPong, hRequest⟩ := Message.consumerKey_eq_some.mp hKey
      by_cases hc : c = consumerId
      · subst hc
        cases rx.consumers.lookup c <;> simp [hPing, hPong, hRequest, Effect.deliveryTo]
      · cases rx.consumers.lookup c <;> simp [hRequest, hc, Effect.deliveryTo]
    · simp [hNone]

/-- While the entry of `consumerId` holds `s`, every frame addressed to that
consumer is pushed into `s`, once and in order, and nothing else is pushed
through the entry. -/
theorem run_deliveryTo_of_installed {rx : Receiver} {consumerId : UInt64} {s : Nat}
    (hInstalled : rx.consumers.lookup consumerId = some s) (events : List Event)
    (hKept : ∀ e ∈ events, e.registersConsumer consumerId = false) :
    (rx.run events).2.filterMap (Effect.deliveryTo consumerId) =
      (events.filterMap (Event.deliveryFor consumerId)).map (s, ·) := by
  induction events generalizing rx with
  | nil => rfl
  | cons e events ih =>
      have hStill : (rx.handle e).1.consumers.lookup consumerId = some s := by
        rw [handle_consumers_of_not_registers (hKept e (List.mem_cons_self e events))]
        exact hInstalled
      rw [run_cons, List.filterMap_append, handle_deliveryTo, hInstalled,
        ih hStill (fun e' he' => hKept e' (List.mem_cons_of_mem e he'))]
      cases hFor : e.deliveryFor consumerId <;> simp [List.filterMap_cons, hFor]

theorem handle_deliver_mem {rx : Receiver} {e : Event} {consumerId : UInt64} {r : Nat}
    {msg : Message} (h : Effect.deliver consumerId r msg ∈ (rx.handle e).2) :
    e.deliveryFor consumerId = some msg ∧ rx.consumers.lookup consumerId = some r := by
  have hPushed : (r, msg) ∈ (rx.handle e).2.filterMap (Effect.deliveryTo consumerId) :=
    List.mem_filterMap.mpr ⟨_, h, by simp [Effect.deliveryTo]⟩
  rw [handle_deliveryTo] at hPushed
  cases hLookup : rx.consumers.lookup consumerId <;>
    cases hFor : e.deliveryFor consumerId <;> simp_all

theorem handle_consumers_lookup {rx : Receiver} {e : Event} {consumerId : UInt64} {r : Nat}
    (h : (rx.handle e).1.consumers.lookup consumerId = some r) :
    rx.consumers.lookup consumerId = some r ∨ e = .registration (.consumer consumerId r) := by
  rw [handle_consumers] at h
  rcases e with (_ | ⟨c, r'⟩ | _) | _
  · exact .inl h
  · by_cases hc : consumerId = c
    · subst hc
      rw [AList.lookup_insert] at h
      cases h
      exact .inr rfl
    · exact .inl (by rwa [AList.lookup_insert_ne hc] at h)
  · exact .inl h
  · exact .inl h

/-- Every push of a run goes through the entry of the consumer its frame is
addressed to, into a sender that a registration of the run installed there. -/
theorem run_deliver_mem {rx : Receiver} {events : List Event} {consumerId : UInt64} {r : Nat}
    {msg : Message} (h : Effect.deliver consumerId r msg ∈ (rx.run events).2) :
    msg.consumerKey = some consumerId ∧
      (rx.consumers.lookup consumerId = some r ∨
        Event.registration (.consumer consumerId r) ∈ events) := by
  induction events generalizing rx with
  | nil => simp at h
  | cons e events ih =>
      rw [run_cons, List.mem_append] at h
      rcases h with hHead | hRest
      · obtain ⟨hFor, hLookup⟩ := handle_deliver_mem hHead
        rcases e with _ | msg'
        · simp [Event.deliveryFor] at hFor
        · simp only [Event.deliveryFor, Option.ite_none_right_eq_some, Option.some.injEq] at hFor
          obtain ⟨hKey, rfl⟩ := hFor
          exact ⟨hKey, .inl hLookup⟩
      · obtain ⟨hKey, hFrom⟩ := ih hRest
        refine ⟨hKey, ?_⟩
        rcases hFrom with hLookup | hMem
        · rcases handle_consumers_lookup hLookup with hOld | rfl
          · exact .inl hOld
          · exact .inr (List.mem_cons_self _ _)
        · exact .inr (List.mem_cons_of_mem e hMem)

/-- Consumer delivery is exact.  After a `Register::Consumer{consumer_id, s}`,
and until the next registration for that consumer, the frames pushed through
its entry are exactly the processed frames that carry neither ping nor pong
and are keyed `Consumer{consumer_id}`, each once, in order, all into `s`.  And
in any run, a frame is only ever pushed into a sender registered for the
consumer it is keyed to, and never when it carries ping or pong. -/
theorem consumer_deliveries_exact (pre window : List Event) (consumerId : UInt64) (s : Nat)
    (hWindow : ∀ e ∈ window, e.registersConsumer consumerId = false) :
    ((new.run (pre ++ [.registration (.consumer consumerId s)])).1.run window).2.filterMap
        (Effect.deliveryTo consumerId) =
      (window.filterMap (Event.deliveryFor consumerId)).map (s, ·) ∧
    ∀ (events : List Event) c r msg, Effect.deliver c r msg ∈ (new.run events).2 →
      msg.command.ping = none ∧ msg.command.pong = none ∧
        msg.requestKey = some (.consumer c) ∧ Event.registration (.consumer c r) ∈ events := by
  refine ⟨run_deliveryTo_of_installed ?_ window hWindow, fun events c r msg h => ?_⟩
  · rw [run_snoc]
    exact AList.lookup_insert _
  · obtain ⟨hKey, hFrom⟩ := run_deliver_mem h
    obtain ⟨hPing, hPong, hRequest⟩ := Message.consumerKey_eq_some.mp hKey
    exact ⟨hPing, hPong, hRequest, hFrom.resolve_left (by simp [new, AList.lookup_empty])⟩

/-- A `Message` delivery for consumer 3, handled after a registration of
sender 7 for that consumer, is pushed into sender 7. -/
theorem consumer_deliveries_exact_one :
    (∀ e ∈ [Event.frame ⟨{ message := some ⟨3, ⟨0, 0⟩⟩ }⟩], e.registersConsumer 3 = false) ∧
    ((new.run ([] ++ [.registration (.consumer 3 7)])).1.run
        [Event.frame ⟨{ message := some ⟨3, ⟨0, 0⟩⟩ }⟩]).2.filterMap (Effect.deliveryTo 3) =
      ([Event.frame ⟨{ message := some ⟨3, ⟨0, 0⟩⟩ }⟩].filterMap (Event.deliveryFor 3)).map
        (7, ·) :=
  ⟨by decide, (consumer_deliveries_exact [] _ 3 7 (by decide)).1⟩

end Receiver

/-! ## The last registration wins -/

theorem concat_eq_concat {α : Type} {l l' : List α} {a a' : α} :
    l ++ [a] = l' ++ [a'] ↔ l = l' ∧ a = a' :=
  ⟨fun h => (List.append_inj' h rfl).imp_right List.singleton_inj.1, fun ⟨hl, ha⟩ => hl ▸ ha ▸ rfl⟩

/-- Where a list that ends in `a` splits around an element `x`: at its end, or
before it. -/
theorem append_cons_eq_concat {α : Type} {pre post l : List α} {x a : α} :
    pre ++ x :: post = l ++ [a] ↔
      (post = [] ∧ pre = l ∧ x = a) ∨ ∃ post', post = post' ++ [a] ∧ l = pre ++ x :: post' := by
  rcases List.eq_nil_or_concat post with rfl | ⟨post', b, rfl⟩
  · simp [concat_eq_concat]
  · rw [List.concat_eq_append, ← List.cons_append, ← List.append_assoc, concat_eq_concat]
    constructor
    · rintro ⟨rfl, rfl⟩
      exact .inr ⟨post', rfl, rfl⟩
    · rintro (⟨hNil, -⟩ | ⟨post'', hPost, rfl⟩)
      · simp at hNil
      · obtain ⟨rfl, rfl⟩ := concat_eq_concat.1 hPost
        exact ⟨rfl, rfl⟩

namespace Receiver

/-- Among `events`, the last item that `touches` holds for is `target`. -/
def LastTouch (touches : Event → Bool) (target : Event) (events : List Event) : Prop :=
  ∃ pre post, events = pre ++ target :: post ∧ ∀ e ∈ post, touches e = false

theorem LastTouch.not_nil {touches : Event → Bool} {target : Event} :
    ¬LastTouch touches target [] := by
  rintro ⟨pre, post, hEq, -⟩
  simp at hEq

/-- One more item is the last to touch, if it touches; otherwise the last one
to touch stays what it was. -/
theorem lastTouch_concat {touches : Event → Bool} {target : Event} (hTarget : touches target)
    {events : List Event} {e : Event} :
    LastTouch touches target (events ++ [e]) ↔
      if touches e then e = target else LastTouch touches target events := by
  constructor
  · rintro ⟨pre, post, hEq, hPost⟩
    rcases append_cons_eq_concat.1 hEq.symm with ⟨rfl, rfl, rfl⟩ | ⟨post', rfl, rfl⟩
    · simp [hTarget]
    · have hTouch := hPost e (by simp)
      simp only [hTouch]
      exact ⟨pre, post', rfl, fun x hx => hPost x (by simp [hx])⟩
  · split
    · rintro rfl
      exact ⟨events, [], rfl, by simp⟩
    · rintro ⟨pre, post, rfl, hPost⟩
      refine ⟨pre, post ++ [e], by simp, fun x hx => ?_⟩
      rcases List.mem_append.1 hx with hx | hx
      · exact hPost x hx
      · rw [List.mem_singleton.1 hx]
        exact Bool.eq_false_iff.2 ‹_›

theorem Event.registersConsumer_iff {e : Event} {consumerId : UInt64} :
    e.registersConsumer consumerId ↔ ∃ r, e = .registration (.consumer consumerId r) := by
  rcases e with (_ | ⟨c, r⟩ | _) | _ <;> simp [Event.registersConsumer, eq_comm]

/-- After a run from `Receiver::new`, the entry of `consumerId` holds `r`
exactly when the last `Register::Consumer` handled for that consumer installed
`r`. -/
theorem run_consumers_lookup {events : List Event} {consumerId : UInt64} {r : Nat} :
    (new.run events).1.consumers.lookup consumerId = some r ↔
      LastTouch (Event.registersConsumer consumerId) (.registration (.consumer consumerId r))
        events := by
  induction events using List.reverseRecOn with
  | nil => simp [new, AList.lookup_empty, LastTouch.not_nil]
  | append_singleton events e ih =>
      rw [run_snoc, lastTouch_concat (by simp [Event.registersConsumer]), process]
      split
      · obtain ⟨r', rfl⟩ := Event.registersConsumer_iff.1 ‹_›
        simp [handle_consumers, AList.lookup_insert]
      · rw [handle_consumers_of_not_registers (Bool.eq_false_iff.2 ‹_›)]
        exact ih

/-- An item drops a delivery sender only when it registers a new one for the
consumer whose entry held it. -/
theorem release_mem_handle {rx : Receiver} {e : Event} {r : Nat} :
    .release r ∈ (rx.handle e).2 ↔
      ∃ consumerId, e.registersConsumer consumerId ∧ rx.consumers.lookup consumerId = some r := by
  rcases e with (⟨key, resolver⟩ | ⟨c, resolver⟩ | resolver) | msg
  · simp only [handle, register]
    split <;> cases rx.pendingRequests.lookup key <;> simp [Event.registersConsumer]
  · cases h : rx.consumers.lookup c <;> simp [handle, register, Event.registersConsumer, h, eq_comm]
  · cases rx.ping <;> simp [handle, register, Event.registersConsumer]
  · simp only [handle, Event.registersConsumer, Bool.false_eq_true, false_and, exists_false,
      iff_false]
    rcases receive_cases rx msg with
      ⟨-, hr⟩ | ⟨-, -, hr⟩ | ⟨key, -, hr⟩ | ⟨c, -, hr⟩ | ⟨-, -, -, hr⟩ <;> rw [hr]
    · simp
    · cases rx.ping <;> simp
    · unfold route
      split <;> simp
    · cases rx.consumers.lookup c <;> simp
    · simp

/-- Over a run from `Receiver::new`, a delivery sender is dropped exactly at a
`Register::Consumer` for a consumer whose last registration before it had
installed that sender. -/
theorem release_mem_run {events : List Event} {r : Nat} :
    .release r ∈ (new.run events).2 ↔
      ∃ consumerId pre e post, events = pre ++ e :: post ∧ e.registersConsumer consumerId ∧
        LastTouch (Event.registersConsumer consumerId) (.registration (.consumer consumerId r)) pre := by
  induction events using List.reverseRecOn with
  | nil => simp
  | append_singleton events e ih =>
      rw [run_snoc, process, List.mem_append, ih, release_mem_handle]
      constructor
      · rintro (⟨c, pre, e', post, rfl, hReg, hLast⟩ | ⟨c, hReg, hLookup⟩)
        · exact ⟨c, pre, e', post ++ [e], by simp, hReg, hLast⟩
        · exact ⟨c, events, e, [], rfl, hReg, run_consumers_lookup.1 hLookup⟩
      · rintro ⟨c, pre, e', post, hEq, hReg, hLast⟩
        rcases append_cons_eq_concat.1 hEq.symm with ⟨rfl, rfl, rfl⟩ | ⟨post', rfl, rfl⟩
        · exact .inr ⟨c, hReg, run_consumers_lookup.2 hLast⟩
        · exact .inl ⟨c, pre, e', post', rfl, hReg, hLast⟩

end Receiver

/-- Whatever items the Receiver handles from `Receiver::new`, the consumers
table routes each consumer id to the sender installed by the last
`Register::Consumer` handled for it, and nothing else changes or removes an
entry: a `CloseConsumer` exchange leaves it in place.  A delivery sender is
dropped, ending its consumer's stream, exactly when a later `Register::Consumer`
for the same consumer id is handled. -/
theorem consumer_entry_last_registration (events : List Event) :
    (∀ consumerId r, (Receiver.new.run events).1.consumers.lookup consumerId = some r ↔
      Receiver.LastTouch (Event.registersConsumer consumerId)
        (.registration (.consumer consumerId r)) events) ∧
    ∀ r, .release r ∈ (Receiver.new.run events).2 ↔
      ∃ consumerId pre e post, events = pre ++ e :: post ∧ e.registersConsumer consumerId ∧
        Receiver.LastTouch (Event.registersConsumer consumerId)
          (.registration (.consumer consumerId r)) pre :=
  ⟨fun _ _ => Receiver.run_consumers_lookup, fun _ => Receiver.release_mem_run⟩

end PulsarConnection
