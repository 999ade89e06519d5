import PulsarConnection.Receiver

/-!
# Correlation of replies with resolvers

The Receiver completes a request's resolver once it has handled both the
`Register::Request` for the request's key and a frame routed under that key, in
either order: a reply that comes first waits in `received_messages`.  This
module states what the Receiver does with request keys over any sequence of
items it handles.

Every entry of the two request tables comes from an item handled, so a resolver
is only ever completed with a frame routed under the key it was registered
with, and a waiting resolver is dropped only when its key is registered again.
When no key and no resolver is registered twice and a registered key has at
most one reply, each resolver receives exactly the reply for its key, once,
as soon as both its registration and that reply have been handled.
-/

namespace PulsarConnection

/-! ## Selecting items and effects -/

namespace Event

/-- The key of a `Register::Request`. -/
def requestKey : Event → Option RequestKey
  | .registration (.request key _) => some key
  | _ => none

/-- The resolver of a `Register::Request`. -/
def requestResolver : Event → Option Nat
  | .registration (.request _ resolver) => some resolver
  | _ => none

/-- The resolver of a `Register::Request` for `key`. -/
def requestFor (key : RequestKey) : Event → Option Nat
  | .registration (.request k resolver) => if k = key then some resolver else none
  | _ => none

/-- The key of a `Register::Request` carrying `resolver`. -/
def keyOf (resolver : Nat) : Event → Option RequestKey
  | .registration (.request key r) => if r = resolver then some key else none
  | _ => none

/-- A frame the inbound loop routes under `key`. -/
def replyFor (key : RequestKey) : Event → Option Message
  | .frame msg => if msg.resolverKey = some key then some msg else none
  | _ => none

end Event

/-- A reply handed to `resolver`. -/
def Effect.respondTo (resolver : Nat) : Effect → Option Message
  | .respond r msg => if r = resolver then some msg else none
  | _ => none

namespace Receiver

/-! ## Every table entry comes from an item handled -/

/-- A waiting resolver comes from its `Register::Request`, and a stashed reply
is a frame handled and routed under its key. -/
def Traced (events : List Event) (rx : Receiver) : Prop :=
  (∀ key r, rx.pendingRequests.lookup key = some r → .registration (.request key r) ∈ events) ∧
  ∀ key msg, rx.receivedMessages.lookup key = some msg →
    msg.resolverKey = some key ∧ .frame msg ∈ events

theorem Traced.mono {events events' : List Event} {rx : Receiver} (h : Traced events rx)
    (hSub : events ⊆ events') : Traced events' rx :=
  ⟨fun key r hr => hSub (h.1 key r hr), fun key msg hm => (h.2 key msg hm).imp_right (@hSub _)⟩

theorem new_traced : Traced [] new :=
  ⟨fun _ _ h => by simp [new] at h, fun _ _ h => by simp [new] at h⟩

theorem register_traced {events : List Event} {rx : Receiver} (h : Traced events rx)
    (r : Register) : Traced (events ++ [.registration r]) (rx.register r).1 := by
  have h' := h.mono (List.subset_append_left events [.registration r])
  cases r with
  | request key resolver =>
      cases hStash : rx.receivedMessages.lookup key with
      | some msg =>
          simp only [register, hStash]
          refine ⟨h'.1, fun k m hk => h'.2 k m ?_⟩
          by_cases hEq : k = key
          · subst hEq
            rw [AList.lookup_erase] at hk
            cases hk
          · rwa [AList.lookup_erase_ne hEq] at hk
      | none =>
          simp only [register, hStash]
          refine ⟨fun k r hk => ?_, h'.2⟩
          by_cases hEq : k = key
          · subst hEq
            rw [AList.lookup_insert, Option.some.inj hk] at *
            simp
          · rw [AList.lookup_insert_ne hEq] at hk
            exact h'.1 k r hk
  | consumer | ping => exact h'

theorem route_traced {events : List Event} {rx : Receiver} (h : Traced events rx)
    {key : RequestKey} {msg : Message} (hKey : msg.resolverKey = some key) :
    Traced (events ++ [.frame msg]) (rx.route key msg).1 := by
  have h' := h.mono (List.subset_append_left events [.frame msg])
  unfold route
  split
  · refine ⟨fun k r hk => h'.1 k r ?_, h'.2⟩
    by_cases hEq : k = key
    · subst hEq
      rw [AList.lookup_erase] at hk
      cases hk
    · rwa [AList.lookup_erase_ne hEq] at hk
  · refine ⟨h'.1, fun k m hk => ?_⟩
    by_cases hEq : k = key
    · subst hEq
      simp only [AList.lookup_insert, Option.some.injEq] at hk
      subst hk
      simp [hKey]
    · rw [AList.lookup_insert_ne hEq] at hk
      exact h'.2 k m hk

theorem handle_traced {events : List Event} {rx : Receiver} (h : Traced events rx) :
    ∀ e, Traced (events ++ [e]) (rx.handle e).1
  | .registration r => register_traced h r
  | .frame msg => by
      have h' := h.mono (List.subset_append_left events [.frame msg])
      rcases receive_cases rx msg with
        ⟨-, hr⟩ | ⟨-, -, hr⟩ | ⟨key, hKey, hr⟩ | ⟨_, -, hr⟩ | ⟨-, -, -, hr⟩ <;>
        simp only [handle, hr]
      · exact h'
      · exact h'
      · exact route_traced h hKey
      · exact h'
      · exact h'

/-- A reply is handed to a resolver only if that resolver was registered under
the key the reply is routed by. -/
theorem handle_respond {events : List Event} {rx : Receiver} (h : Traced events rx)
    {e : Event} {r : Nat} {msg : Message} (hr : .respond r msg ∈ (rx.handle e).2) :
    ∃ key, msg.resolverKey = some key ∧ .registration (.request key r) ∈ events ++ [e] := by
  rcases e with (⟨key, resolver⟩ | ⟨c, resolver⟩ | resolver) | m
  · cases hStash : rx.receivedMessages.lookup key with
    | some stashed =>
        simp only [handle, register, hStash, List.mem_singleton, Effect.respond.injEq] at hr
        obtain ⟨rfl, rfl⟩ := hr
        exact ⟨key, (h.2 key _ hStash).1, by simp⟩
    | none => simp [handle, register, hStash] at hr
  · simp [handle, register] at hr
  · simp [handle, register] at hr
  · rcases receive_cases rx m with
      ⟨-, hr'⟩ | ⟨-, -, hr'⟩ | ⟨key, hKey, hr'⟩ | ⟨_, -, hr'⟩ | ⟨-, -, -, hr'⟩ <;>
      simp only [handle, hr'] at hr
    · simp at hr
    · simp at hr
    · unfold route at hr
      split at hr
      · rename_i resolver hWaiting
        simp only [List.mem_singleton, Effect.respond.injEq] at hr
        obtain ⟨rfl, rfl⟩ := hr
        exact ⟨key, hKey, List.mem_append_left _ (h.1 key r hWaiting)⟩
      · simp at hr
    · simp at hr
    · simp at hr

/-- A waiting resolver is dropped only by a `Register::Request` for its own key. -/
theorem handle_cancel {events : List Event} {rx : Receiver} (h : Traced events rx)
    {e : Event} {r : Nat} (hr : .cancel r ∈ (rx.handle e).2) :
    ∃ key resolver, e = .registration (.request key resolver) ∧
      .registration (.request key r) ∈ events := by
  rcases e with (⟨key, resolver⟩ | ⟨c, resolver⟩ | resolver) | m
  · cases hStash : rx.receivedMessages.lookup key with
    | some stashed => simp [handle, register, hStash] at hr
    | none =>
        simp only [handle, register, hStash, List.mem_map, Option.mem_toList,
          Effect.cancel.injEq] at hr
        obtain ⟨waiting, hWaiting, rfl⟩ := hr
        exact ⟨key, resolver, rfl, h.1 key waiting hWaiting⟩
  · simp [handle, register] at hr
  · simp [handle, register] at hr
  · rcases receive_cases rx m with
      ⟨-, hr'⟩ | ⟨-, -, hr'⟩ | ⟨key, -, hr'⟩ | ⟨_, -, hr'⟩ | ⟨-, -, -, hr'⟩ <;>
      simp only [handle, hr'] at hr
    · simp at hr
    · simp at hr
    · unfold route at hr
      split at hr <;> simp at hr
    · simp at hr
    · simp at hr

theorem run_traced (events : List Event) : Traced events (new.run events).1 := by
  induction events using List.reverseRecOn with
  | nil => exact new_traced
  | append_singleton events e ih =>
      rw [run_snoc]
      exact handle_traced ih e

/-- Over any run, a resolver is completed only with a frame routed under the
key it was registered with. -/
theorem run_respond_mem {events : List Event} {r : Nat} {msg : Message}
    (hr : .respond r msg ∈ (new.run events).2) :
    ∃ key, msg.resolverKey = some key ∧ .registration (.request key r) ∈ events := by
  induction events using List.reverseRecOn with
  | nil => simp at hr
  | append_singleton events e ih =>
      rw [run_snoc] at hr
      rcases List.mem_append.1 hr with hr | hr
      · obtain ⟨key, hKey, hMem⟩ := ih hr
        exact ⟨key, hKey, List.mem_append_left _ hMem⟩
      · exact handle_respond (run_traced events) hr

/-- When no key is registered twice, the Receiver never drops a waiting
resolver. -/
theorem run_no_cancel {events : List Event} (hKeys : (events.filterMap Event.requestKey).Nodup)
    (r : Nat) : .cancel r ∉ (new.run events).2 := by
  induction events using List.reverseRecOn with
  | nil => simp
  | append_singleton events e ih =>
      rw [List.filterMap_append] at hKeys
      rw [run_snoc]
      intro hr
      rcases List.mem_append.1 hr with hr | hr
      · exact ih (List.Nodup.of_append_left hKeys) hr
      · obtain ⟨key, resolver, rfl, hMem⟩ := handle_cancel (run_traced events) hr
        have hOld : key ∈ events.filterMap Event.requestKey :=
          List.mem_filterMap.2 ⟨_, hMem, rfl⟩
        simp only [Event.requestKey, List.filterMap_cons, List.filterMap_nil] at hKeys
        exact List.disjoint_of_nodup_append hKeys hOld (List.mem_singleton_self key)

/-! ## Exact correlation -/

/-- The resolvers registered for `key`, in the order handled. -/
def registeredFor (events : List Event) (key : RequestKey) : List Nat :=
  events.filterMap (Event.requestFor key)

/-- The frames routed under `key`, in the order handled. -/
def repliesFor (events : List Event) (key : RequestKey) : List Message :=
  events.filterMap (Event.replyFor key)

/-- The keys `resolver` was registered under. -/
def keysOf (events : List Event) (resolver : Nat) : List RequestKey :=
  events.filterMap (Event.keyOf resolver)

theorem mem_registeredFor {events : List Event} {key : RequestKey} {r : Nat} :
    r ∈ registeredFor events key ↔ .registration (.request key r) ∈ events := by
  simp only [registeredFor, List.mem_filterMap]
  constructor
  · rintro ⟨(⟨k, resolver⟩ | _ | _) | _, hMem, hFor⟩ <;> simp only [Event.requestFor] at hFor
    · split at hFor <;> simp_all
    all_goals cases hFor
  · exact fun hMem => ⟨_, hMem, by simp [Event.requestFor]⟩

theorem mem_keysOf {events : List Event} {key : RequestKey} {r : Nat} :
    key ∈ keysOf events r ↔ .registration (.request key r) ∈ events := by
  simp only [keysOf, List.mem_filterMap]
  constructor
  · rintro ⟨(⟨k, resolver⟩ | _ | _) | _, hMem, hOf⟩ <;> simp only [Event.keyOf] at hOf
    · split at hOf <;> simp_all
    all_goals cases hOf
  · exact fun hMem => ⟨_, hMem, by simp [Event.keyOf]⟩

theorem length_registeredFor (events : List Event) (key : RequestKey) :
    (registeredFor events key).length = (events.filterMap Event.requestKey).count key := by
  induction events with
  | nil => rfl
  | cons e events ih =>
      rcases e with (⟨k, r⟩ | _ | _) | _ <;>
        simp only [registeredFor, Event.requestFor, Event.requestKey, List.filterMap_cons] at ih ⊢
      · by_cases hEq : k = key
        · simp [hEq, ih]
        · simp [hEq, ih, List.count_cons, Ne.symm hEq]
      all_goals exact ih

theorem length_keysOf (events : List Event) (r : Nat) :
    (keysOf events r).length = (events.filterMap Event.requestResolver).count r := by
  induction events with
  | nil => rfl
  | cons e events ih =>
      rcases e with (⟨k, resolver⟩ | _ | _) | _ <;>
        simp only [keysOf, Event.keyOf, Event.requestResolver, List.filterMap_cons] at ih ⊢
      · by_cases hEq : resolver = r
        · simp [hEq, ih]
        · simp [hEq, ih, List.count_cons, Ne.symm hEq]
      all_goals exact ih

/-- What exact correlation needs of the items handled: no key and no resolver
is registered twice, and a registered key has at most one reply. -/
structure Correlated (events : List Event) : Prop where
  keys : (events.filterMap Event.requestKey).Nodup
  resolvers : (events.filterMap Event.requestResolver).Nodup
  replies : ∀ key, registeredFor events key ≠ [] → (repliesFor events key).length ≤ 1

theorem Correlated.of_append {events more : List Event} (h : Correlated (events ++ more)) :
    Correlated events where
  keys := by
    have := h.keys
    rw [List.filterMap_append] at this
    exact this.of_append_left
  resolvers := by
    have := h.resolvers
    rw [List.filterMap_append] at this
    exact this.of_append_left
  replies key hKey := by
    have hLe := h.replies key fun hNil => hKey (by
      simp only [registeredFor, List.filterMap_append, List.append_eq_nil] at hNil
      exact hNil.1)
    simp only [repliesFor, List.filterMap_append, List.length_append] at hLe
    exact Nat.le_of_add_right_le hLe

theorem Correlated.registeredFor_le {events : List Event} (h : Correlated events)
    (key : RequestKey) : (registeredFor events key).length ≤ 1 := by
  rw [length_registeredFor]
  exact List.nodup_iff_count_le_one.1 h.keys key

theorem Correlated.keysOf_le {events : List Event} (h : Correlated events) (r : Nat) :
    (keysOf events r).length ≤ 1 := by
  rw [length_keysOf]
  exact List.nodup_iff_count_le_one.1 h.resolvers r

/-- The request tables and the replies handed out after handling `events`: a
resolver waits while its key has no reply, a reply waits while its key is not
registered, and each resolver has received the replies routed under its key. -/
def Resolves (events : List Event) (rx : Receiver) (effects : List Effect) : Prop :=
  (∀ key, rx.pendingRequests.lookup key =
    if repliesFor events key = [] then (registeredFor events key).head? else none) ∧
  (∀ key, rx.receivedMessages.lookup key =
    if registeredFor events key = [] then (repliesFor events key).getLast? else none) ∧
  ∀ r, effects.filterMap (Effect.respondTo r) = (keysOf events r).flatMap (repliesFor events)

@[simp]
theorem registeredFor_snoc (events : List Event) (e : Event) (key : RequestKey) :
    registeredFor (events ++ [e]) key = registeredFor events key ++ (e.requestFor key).toList := by
  simp only [registeredFor, List.filterMap_append, List.filterMap_cons, List.filterMap_nil]
  cases e.requestFor key <;> rfl

@[simp]
theorem repliesFor_snoc (events : List Event) (e : Event) (key : RequestKey) :
    repliesFor (events ++ [e]) key = repliesFor events key ++ (e.replyFor key).toList := by
  simp only [repliesFor, List.filterMap_append, List.filterMap_cons, List.filterMap_nil]
  cases e.replyFor key <;> rfl

@[simp]
theorem keysOf_snoc (events : List Event) (e : Event) (r : Nat) :
    keysOf (events ++ [e]) r = keysOf events r ++ (e.keyOf r).toList := by
  simp only [keysOf, List.filterMap_append, List.filterMap_cons, List.filterMap_nil]
  cases e.keyOf r <;> rfl

/-- A frame with a routing key goes through `route`; any other frame leaves the
request tables alone and completes no resolver. -/
theorem receive_resolverKey (rx : Receiver) (msg : Message) :
    (∃ key, msg.resolverKey = some key ∧ rx.receive msg = rx.route key msg) ∨
    (msg.resolverKey = none ∧ (rx.receive msg).1.pendingRequests = rx.pendingRequests ∧
      (rx.receive msg).1.receivedMessages = rx.receivedMessages ∧
      ∀ r, (rx.receive msg).2.filterMap (Effect.respondTo r) = []) := by
  unfold receive
  rcases hPing : msg.command.ping with _ | ⟨⟩
  · rcases hPong : msg.command.pong with _ | ⟨⟩
    · rcases hKey : msg.requestKey with _ | ⟨id⟩ | ⟨producerId, sequenceId⟩ | ⟨consumerId⟩
      · exact .inr (by simp [Message.resolverKey, hPing, hPong, hKey])
      · exact .inl ⟨_, by simp [Message.resolverKey, hPing, hPong, hKey], rfl⟩
      · exact .inl ⟨_, by simp [Message.resolverKey, hPing, hPong, hKey], rfl⟩
      · exact .inr ⟨by simp [Message.resolverKey, hPing, hPong, hKey], rfl, rfl,
          fun r => by simp [Effect.respondTo]⟩
    · exact .inr ⟨by simp [Message.resolverKey, hPing, hPong], rfl, rfl,
        fun r => by simp [Effect.respondTo]⟩
  · exact .inr ⟨by simp [Message.resolverKey, hPing], rfl, rfl, fun r => rfl⟩

/-- An item that registers no request and is routed under no key leaves the
correlation as it was. -/
theorem Resolves.quiet {events : List Event} {rx rx' : Receiver} {effects more : List Effect}
    {e : Event} (h : Resolves events rx effects) (hRequest : e.requestKey = none)
    (hReply : ∀ key, e.replyFor key = none) (hPending : rx'.pendingRequests = rx.pendingRequests)
    (hReceived : rx'.receivedMessages = rx.receivedMessages)
    (hMore : ∀ r, more.filterMap (Effect.respondTo r) = []) :
    Resolves (events ++ [e]) rx' (effects ++ more) := by
  have hFor : ∀ key, e.requestFor key = none := fun key => by
    rcases e with (_ | _ | _) | _ <;> simp_all [Event.requestFor, Event.requestKey]
  have hOf : ∀ r, e.keyOf r = none := fun r => by
    rcases e with (_ | _ | _) | _ <;> simp_all [Event.keyOf, Event.requestKey]
  obtain ⟨hPend, hRecv, hResp⟩ := h
  refine ⟨fun key => ?_, fun key => ?_, fun r => ?_⟩
  · simp [hPending, hPend, hFor, hReply]
  · simp [hReceived, hRecv, hFor, hReply]
  · have hReplies : repliesFor (events ++ [e]) = repliesFor events :=
      funext fun key => by simp [hReply]
    simp [hResp, hMore, hOf, hReplies]

theorem eq_singleton_of_getLast? {α : Type} {l : List α} {a : α} (hLength : l.length ≤ 1)
    (hLast : l.getLast? = some a) : l = [a] := by
  rcases l with _ | ⟨b, _ | ⟨c, l⟩⟩ <;> simp_all

theorem eq_singleton_of_head? {α : Type} {l : List α} {a : α} (hLength : l.length ≤ 1)
    (hHead : l.head? = some a) : l = [a] := by
  rcases l with _ | ⟨b, _ | ⟨c, l⟩⟩ <;> simp_all

/-- On a list of at most one key, collecting one more reply for `key` adds it
exactly when `key` is in the list. -/
theorem flatMap_add_reply {keys : List RequestKey} (hLength : keys.length ≤ 1)
    (replies : RequestKey → List Message) (key : RequestKey) (msg : Message) :
    (keys.flatMap fun k => replies k ++ if key = k then [msg] else []) =
      keys.flatMap replies ++ if key ∈ keys then [msg] else [] := by
  rcases keys with _ | ⟨k, _ | ⟨k', keys⟩⟩ <;> simp_all [eq_comm]

theorem mem_keysOf_of_registeredFor {events : List Event} {key : RequestKey} {r r' : Nat}
    (hReg : registeredFor events key = [r]) :
    key ∈ keysOf events r' ↔ r = r' := by
  rw [mem_keysOf, ← mem_registeredFor, hReg, List.mem_singleton, eq_comm]

theorem Resolves.register_request {events : List Event} {rx : Receiver} {effects : List Effect}
    {key : RequestKey} {r : Nat} (h : Resolves events rx effects)
    (hCorr : Correlated (events ++ [.registration (.request key r)])) :
    Resolves (events ++ [.registration (.request key r)]) (rx.register (.request key r)).1
      (effects ++ (rx.register (.request key r)).2) := by
  obtain ⟨hPend, hRecv, hResp⟩ := h
  have hKeys := hCorr.keys
  have hResolvers := hCorr.resolvers
  simp only [List.filterMap_append, Event.requestKey, Event.requestResolver, List.filterMap_cons,
    List.filterMap_nil] at hKeys hResolvers
  have hFresh : registeredFor events key = [] := by
    rw [← List.length_eq_zero, length_registeredFor, List.count_eq_zero]
    exact fun hMem => List.disjoint_of_nodup_append hKeys hMem (List.mem_singleton_self _)
  have hFreshResolver : keysOf events r = [] := by
    rw [← List.length_eq_zero, length_keysOf, List.count_eq_zero]
    exact fun hMem => List.disjoint_of_nodup_append hResolvers hMem (List.mem_singleton_self _)
  have hOne : (repliesFor events key).length ≤ 1 := by
    simpa [Event.replyFor] using hCorr.replies key (by simp [Event.requestFor])
  have hReplies : repliesFor (events ++ [.registration (.request key r)]) = repliesFor events :=
    funext fun k => by simp [Event.replyFor]
  have hStash : rx.receivedMessages.lookup key = (repliesFor events key).getLast? := by
    rw [hRecv key, if_pos hFresh]
  cases hLast : (repliesFor events key).getLast? with
  | some msg =>
      have hOnly : repliesFor events key = [msg] := eq_singleton_of_getLast? hOne hLast
      simp only [register, hStash, hLast]
      refine ⟨fun k => ?_, fun k => ?_, fun r' => ?_⟩
      · by_cases hk : key = k
        · subst hk
          simp [hPend, hOnly]
        · simp [hPend, hk, Event.requestFor, Event.replyFor]
      · by_cases hk : key = k
        · subst hk
          simp [AList.lookup_erase, Event.requestFor]
        · simp [AList.lookup_erase_ne (Ne.symm hk), hRecv, hk, Event.requestFor, Event.replyFor]
      · by_cases hr : r = r'
        · subst hr
          simp [hResp, hFreshResolver, hOnly, hReplies, Effect.respondTo, Event.keyOf]
        · simp [hResp, hReplies, hr, Effect.respondTo, Event.keyOf]
  | none =>
      have hNone : repliesFor events key = [] := List.getLast?_eq_none_iff.1 hLast
      have hWaiting : rx.pendingRequests.lookup key = none := by simp [hPend, hNone, hFresh]
      simp only [register, hStash, hLast, hWaiting, Option.toList_none, List.map_nil]
      refine ⟨fun k => ?_, fun k => ?_, fun r' => ?_⟩
      · by_cases hk : key = k
        · subst hk
          simp [hNone, hFresh, Event.requestFor, Event.replyFor]
        · simp [AList.lookup_insert_ne (Ne.symm hk), hPend, hk, Event.requestFor, Event.replyFor]
      · by_cases hk : key = k
        · subst hk
          simp [hStash, hLast, Event.requestFor]
        · simp [hRecv, hk, Event.requestFor, Event.replyFor]
      · by_cases hr : r = r'
        · subst hr
          simp [hResp, hFreshResolver, hNone, hReplies, Event.keyOf]
        · simp [hResp, hReplies, hr, Event.keyOf]

theorem Resolves.route_reply {events : List Event} {rx : Receiver} {effects : List Effect}
    {key : RequestKey} {msg : Message} (h : Resolves events rx effects)
    (hKey : msg.resolverKey = some key) (hCorr : Correlated (events ++ [.frame msg])) :
    Resolves (events ++ [.frame msg]) (rx.route key msg).1 (effects ++ (rx.route key msg).2) := by
  obtain ⟨hPend, hRecv, hResp⟩ := h
  have hReply : ∀ k, Event.replyFor k (.frame msg) = if key = k then some msg else none := by
    intro k
    by_cases hk : key = k <;> simp [Event.replyFor, hKey, hk]
  have hReplies : repliesFor (events ++ [.frame msg]) =
      fun k => repliesFor events k ++ if key = k then [msg] else [] :=
    funext fun k => by by_cases hk : key = k <;> simp [hReply, hk]
  have hCorr' := hCorr.of_append
  unfold Receiver.route
  cases hWaiting : rx.pendingRequests.lookup key with
  | some r =>
      have hWait := hPend key
      rw [hWaiting] at hWait
      split_ifs at hWait with hNoReply
      have hReg : registeredFor events key = [r] :=
        eq_singleton_of_head? (hCorr'.registeredFor_le key) hWait.symm
      simp only
      refine ⟨fun k => ?_, fun k => ?_, fun r' => ?_⟩
      · by_cases hk : key = k
        · subst hk
          simp [AList.lookup_erase, hReply]
        · simp [AList.lookup_erase_ne (Ne.symm hk), hPend, hReply, hk, Event.requestFor]
      · by_cases hk : key = k
        · subst hk
          simp [hRecv, hReg, Event.requestFor]
        · simp [hRecv, hReply, hk, Event.requestFor]
      · simp only [List.filterMap_append, hResp, keysOf_snoc, Event.keyOf, Option.toList_none,
          List.append_nil, hReplies, flatMap_add_reply (hCorr'.keysOf_le r'),
          mem_keysOf_of_registeredFor hReg]
        by_cases hr : r = r' <;> simp [hr, Effect.respondTo]
  | none =>
      have hFresh : registeredFor events key = [] := by
        by_contra hRegistered'
        have hOne := hCorr.replies key (by simpa [Event.requestFor] using hRegistered')
        have hNoReply : repliesFor events key = [] := by simpa [hReply] using hOne
        have hWait := hPend key
        rw [hWaiting, if_pos hNoReply, eq_comm, List.head?_eq_none_iff] at hWait
        exact hRegistered' hWait
      simp only [List.append_nil]
      refine ⟨fun k => ?_, fun k => ?_, fun r' => ?_⟩
      · by_cases hk : key = k
        · subst hk
          simp [hWaiting, hReply]
        · simp [hPend, hReply, hk, Event.requestFor]
      · by_cases hk : key = k
        · subst hk
          simp [hFresh, hReply, Event.requestFor]
        · simp [AList.lookup_insert_ne (Ne.symm hk), hRecv, hReply, hk, Event.requestFor]
      · have hNotMem : key ∉ keysOf events r' := by
          rw [mem_keysOf, ← mem_registeredFor, hFresh]
          exact List.not_mem_nil r'
        simp only [hResp, keysOf_snoc, Event.keyOf, Option.toList_none, List.append_nil, hReplies,
          flatMap_add_reply (hCorr'.keysOf_le r'), hNotMem, if_false]

theorem Resolves.snoc {events : List Event} {rx : Receiver} {effects : List Effect}
    (h : Resolves events rx effects) (e : Event) (hCorr : Correlated (events ++ [e])) :
    Resolves (events ++ [e]) (rx.handle e).1 (effects ++ (rx.handle e).2) := by
  rcases e with (⟨key, r⟩ | ⟨c, r⟩ | r) | msg
  · exact h.register_request hCorr
  · exact h.quiet rfl (fun _ => rfl) rfl rfl fun _ => by simp [handle, register, Effect.respondTo]
  · exact h.quiet rfl (fun _ => rfl) rfl rfl fun _ => by simp [handle, register, Effect.respondTo]
  · rcases receive_resolverKey rx msg with ⟨key, hKey, hr⟩ | ⟨hNone, hPending, hReceived, hMore⟩
    · simp only [handle, hr]
      exact h.route_reply hKey hCorr
    · exact h.quiet rfl (fun key => by simp [Event.replyFor, hNone]) hPending hReceived hMore

theorem run_resolves {events : List Event} (h : Correlated events) :
    Resolves events (new.run events).1 (new.run events).2 := by
  induction events using List.reverseRecOn with
  | nil => exact ⟨fun _ => rfl, fun _ => rfl, fun _ => rfl⟩
  | append_singleton events e ih =>
      rw [run_snoc]
      exact (ih h.of_append).snoc e h

/-- Under correlation, a resolver registered under `key` is handed exactly the
replies routed under `key`, of which there is at most one, so it is completed
at most once, only with a frame routed under its own key, and exactly when both
its registration and that frame have been handled; a resolver that was never
registered is handed nothing. -/
theorem run_respondTo {events : List Event} (h : Correlated events) (r : Nat) :
    (∀ key, .registration (.request key r) ∈ events →
      (new.run events).2.filterMap (Effect.respondTo r) = repliesFor events key ∧
      (repliesFor events key).length ≤ 1) ∧
    ((∀ key, .registration (.request key r) ∉ events) →
      (new.run events).2.filterMap (Effect.respondTo r) = []) := by
  have hRun := (run_resolves h).2.2 r
  refine ⟨fun key hReg => ?_, fun hNone => ?_⟩
  · have hKeys : keysOf events r = [key] := by
      have hMem : key ∈ keysOf events r := mem_keysOf.2 hReg
      rcases hOf : keysOf events r with _ | ⟨k, _ | ⟨k', keys⟩⟩
      · simp [hOf] at hMem
      · simp_all
      · simpa [hOf] using h.keysOf_le r
    refine ⟨by simp [hRun, hKeys], h.replies key fun hNil => ?_⟩
    rw [← List.length_eq_zero, length_registeredFor, List.count_eq_zero] at hNil
    exact hNil (List.mem_filterMap.2 ⟨_, hReg, rfl⟩)
  · have hKeys : keysOf events r = [] :=
      List.eq_nil_iff_forall_not_mem.2 fun key hMem => hNone key (mem_keysOf.1 hMem)
    simp [hRun, hKeys]

end Receiver

end PulsarConnection
