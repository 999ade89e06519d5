import PulsarConnection.Routing

/-!
# The request tables as one rendezvous per key

`pending_requests` and `received_messages` hold, between them, at most one
thing per key: a resolver waiting for its reply, or a reply waiting for its
resolver.  This module states what the two tables are for, as a one-place
rendezvous per key (`Slot.step`), and shows that the Receiver's handling of
registrations and frames refines it for any traffic: duplicate
registrations, duplicate replies and replies that arrive before their
registration included.  The keys do not interfere: each key's tables depend
on that key's items alone.
-/

namespace PulsarConnection

/-- What the request tables hold for one key: nothing, a resolver waiting for
its reply, or a reply waiting for its resolver. -/
inductive Slot
  | empty
  | waiting (resolver : Nat)
  | stashed (msg : Message)
  deriving DecidableEq, Repr

/-- An item for one key: a `Register::Request` with its resolver, or a reply
routed under the key. -/
inductive KeyItem
  | register (resolver : Nat)
  | reply (msg : Message)
  deriving DecidableEq, Repr

namespace Slot

/-- One item at a key's rendezvous, with the resolvers it settles: a resolver
and a reply that meet complete the call at once; otherwise the newer one
waits, and a newer resolver drops the older one, a newer reply replaces the
older one. -/
def step : Slot → KeyItem → Slot × List Effect
  | .empty, .register r => (.waiting r, [])
  | .waiting r', .register r => (.waiting r, [.cancel r'])
  | .stashed msg, .register r => (.empty, [.respond r msg])
  | .empty, .reply msg => (.stashed msg, [])
  | .waiting r, .reply msg => (.empty, [.respond r msg])
  | .stashed _, .reply msg => (.stashed msg, [])

/-- Items at one key's rendezvous, in order. -/
def run (sl : Slot) : List KeyItem → Slot × List Effect
  | [] => (sl, [])
  | item :: items => (((sl.step item).1.run items).1, (sl.step item).2 ++ ((sl.step item).1.run items).2)

end Slot

/-- The rendezvous of every key. -/
abbrev Table := RequestKey → Slot

namespace Table

/-- One item at the rendezvous of its key; the others stay as they are. -/
def step (t : Table) (key : RequestKey) (item : KeyItem) : Table × List Effect :=
  (Function.update t key ((t key).step item).1, ((t key).step item).2)

/-- Keyed items, in order. -/
def run (t : Table) : List (RequestKey × KeyItem) → Table × List Effect
  | [] => (t, [])
  | (key, item) :: items =>
      (((t.step key item).1.run items).1, (t.step key item).2 ++ ((t.step key item).1.run items).2)

/-- The items of `items` at `key`. -/
def itemsAt (key : RequestKey) (items : List (RequestKey × KeyItem)) : List KeyItem :=
  items.filterMap fun p => if p.1 = key then some p.2 else none

/-- Each key's rendezvous sees only its own items. -/
theorem run_apply (t : Table) (items : List (RequestKey × KeyItem)) (key : RequestKey) :
    (t.run items).1 key = ((t key).run (itemsAt key items)).1 := by
  induction items generalizing t with
  | nil => rfl
  | cons p items ih =>
      obtain ⟨k, item⟩ := p
      rw [run, ih]
      by_cases hk : k = key
      · subst hk
        simp [itemsAt, step, Slot.run]
      · simp [itemsAt, step, hk, Function.update_noteq (Ne.symm hk)]

end Table

/-- The key and item of a `Register::Request`, or of a frame the inbound loop
routes under a key. -/
def Event.keyItem? : Event → Option (RequestKey × KeyItem)
  | .registration (.request key r) => some (key, .register r)
  | .registration _ => none
  | .frame msg => msg.resolverKey.map fun key => (key, .reply msg)

/-- Whether an effect completes or drops a request resolver. -/
def Effect.settlesRequest : Effect → Bool
  | .respond .. | .cancel _ => true
  | _ => false

namespace Receiver

/-- What the request tables hold for `key`. -/
def slot (rx : Receiver) (key : RequestKey) : Slot :=
  match rx.pendingRequests.lookup key, rx.receivedMessages.lookup key with
  | some r, _ => .waiting r
  | none, some msg => .stashed msg
  | none, none => .empty

theorem slot_of_lookup {rx : Receiver} {key : RequestKey}
    (hPending : rx.pendingRequests.lookup key = none) :
    rx.slot key = ((rx.receivedMessages.lookup key).map .stashed).getD .empty := by
  unfold slot
  rw [hPending]
  cases rx.receivedMessages.lookup key <;> rfl

/-- A `Register::Request` is one item at its key's rendezvous. -/
theorem register_request_refines {rx : Receiver} (h : rx.Disjoint) (key : RequestKey) (r : Nat) :
    ((rx.register (.request key r)).1.slot, (rx.register (.request key r)).2) =
      Table.step rx.slot key (.register r) := by
  cases hStash : rx.receivedMessages.lookup key with
  | some msg =>
      have hPending : rx.pendingRequests.lookup key = none :=
        AList.lookup_eq_none.2 fun hMem => h key hMem (AList.lookup_isSome.1 (by simp [hStash]))
      have hSlot : rx.slot key = .stashed msg := by simp [slot, hPending, hStash]
      simp only [register, hStash, Table.step, hSlot, Slot.step]
      refine Prod.ext (funext fun k => ?_) rfl
      by_cases hk : k = key
      · subst hk
        simp [slot, hPending]
      · simp [slot, Function.update_noteq hk, AList.lookup_erase_ne hk]
  | none =>
      simp only [register, hStash, Table.step]
      refine Prod.ext (funext fun k => ?_) ?_
      · by_cases hk : k = key
        · subst hk
          cases hWait : rx.pendingRequests.lookup k <;> simp [slot, hWait, hStash, Slot.step]
        · simp [slot, Function.update_noteq hk, AList.lookup_insert_ne hk]
      · cases hWait : rx.pendingRequests.lookup key <;> simp [slot, hWait, hStash, Slot.step]

/-- A reply routed under `key` is one item at the key's rendezvous. -/
theorem route_refines {rx : Receiver} (h : rx.Disjoint) (key : RequestKey) (msg : Message) :
    ((rx.route key msg).1.slot, (rx.route key msg).2) = Table.step rx.slot key (.reply msg) := by
  cases hWait : rx.pendingRequests.lookup key with
  | some r =>
      have hStash : rx.receivedMessages.lookup key = none :=
        AList.lookup_eq_none.2 (h key (AList.lookup_isSome.1 (by simp [hWait])))
      have hSlot : rx.slot key = .waiting r := by simp [slot, hWait]
      simp only [route, hWait, Table.step, hSlot, Slot.step]
      refine Prod.ext (funext fun k => ?_) rfl
      by_cases hk : k = key
      · subst hk
        simp [slot, hStash]
      · simp [slot, Function.update_noteq hk, AList.lookup_erase_ne hk]
  | none =>
      simp only [route, hWait, Table.step]
      refine Prod.ext (funext fun k => ?_) ?_
      · by_cases hk : k = key
        · subst hk
          cases hStash : rx.receivedMessages.lookup k <;> simp [slot, hWait, hStash, Slot.step]
        · simp [slot, Function.update_noteq hk, AList.lookup_insert_ne hk]
      · cases hStash : rx.receivedMessages.lookup key <;> simp [slot, hWait, hStash, Slot.step]

end Receiver

theorem Slot.filter_step (sl : Slot) (item : KeyItem) :
    (sl.step item).2.filter Effect.settlesRequest = (sl.step item).2 := by
  cases sl <;> cases item <;> rfl

namespace Receiver

/-- Each item the Receiver handles is one item at the rendezvous of its key, or
none: the request tables move as the rendezvous does, and the resolvers the
item completes or drops are those the rendezvous settles. -/
theorem handle_refines {rx : Receiver} (h : rx.Disjoint) (e : Event) :
    ((rx.handle e).1.slot, (rx.handle e).2.filter Effect.settlesRequest) =
      (e.keyItem?.map fun p => Table.step rx.slot p.1 p.2).getD (rx.slot, []) := by
  have hStep : ∀ {next : Receiver} {effects : List Effect} {key item},
      (next.slot, effects) = Table.step rx.slot key item →
        (next.slot, effects.filter Effect.settlesRequest) = Table.step rx.slot key item := by
    intro next effects key item hEq
    obtain ⟨hSlot, hEffects⟩ := Prod.ext_iff.1 hEq
    exact Prod.ext hSlot (by simp only at hEffects ⊢; rw [hEffects]; exact Slot.filter_step _ _)
  cases e with
  | registration r =>
      cases r with
      | request key r => exact hStep (register_request_refines h key r)
      | consumer | ping =>
          simp [handle, register, Event.keyItem?, Effect.settlesRequest, List.filter_map,
            Function.comp_def]
          rfl
  | frame msg =>
      simp only [handle, Event.keyItem?]
      rcases receive_cases rx msg with ⟨hPing, hEq⟩ | ⟨hPing, hPong, hEq⟩ | ⟨key, hKey, hEq⟩ |
          ⟨consumerId, hConsumer, hEq⟩ | ⟨hPing, hPong, hNone, hEq⟩
      · obtain ⟨_, hSome⟩ := Option.isSome_iff_exists.1 hPing
        simp [hEq, Message.resolverKey, hSome, Effect.settlesRequest]
      · obtain ⟨_, hSome⟩ := Option.isSome_iff_exists.1 hPong
        simp [hEq, Message.resolverKey, hPing, hSome, Effect.settlesRequest]
        rfl
      · rw [hKey, hEq]
        exact hStep (route_refines h key msg)
      · obtain ⟨hPing, hPong, hKey⟩ := Message.consumerKey_eq_some.1 hConsumer
        simp [hEq, Message.resolverKey, hPing, hPong, hKey, Effect.settlesRequest, List.filter_map,
          Function.comp_def]
      · simp [hEq, Message.resolverKey, hPing, hPong, hNone]

/-- Over any run from tables where no key is both waiting and stashed, the
Receiver's request tables and the resolvers it settles are those of the
rendezvous of every key, run on the keyed items. -/
theorem run_refines {rx : Receiver} (h : rx.Disjoint) (events : List Event) :
    ((rx.run events).1.slot, (rx.run events).2.filter Effect.settlesRequest) =
      Table.run rx.slot (events.filterMap Event.keyItem?) := by
  induction events generalizing rx with
  | nil => rfl
  | cons e events ih =>
      have hHandle := handle_refines h e
      have hRest := ih (handle_disjoint h e)
      rw [run_cons, List.filter_append]
      cases hItem : e.keyItem? with
      | none =>
          rw [hItem] at hHandle
          obtain ⟨hSlot, hEffects⟩ := Prod.ext_iff.1 hHandle
          simp only [Option.map_none', Option.getD_none] at hSlot hEffects
          rw [List.filterMap_cons_none hItem, hEffects, List.nil_append, ← hSlot]
          exact hRest
      | some p =>
          rw [hItem] at hHandle
          simp only [Option.map_some', Option.getD_some] at hHandle
          rw [List.filterMap_cons_some hItem, Table.run, ← hHandle, ← hRest]

/-- From `Receiver::new`, every key's rendezvous starts empty. -/
theorem new_run_refines (events : List Event) :
    ((new.run events).1.slot, (new.run events).2.filter Effect.settlesRequest) =
      Table.run (fun _ => .empty) (events.filterMap Event.keyItem?) :=
  run_refines new_disjoint events

/-- The request tables after a run from `Receiver::new` hold at each key what
the key's rendezvous holds after that key's items. -/
theorem run_slot (events : List Event) (key : RequestKey) :
    (new.run events).1.slot key =
      (Slot.empty.run (Table.itemsAt key (events.filterMap Event.keyItem?))).1 :=
  (congrFun (Prod.ext_iff.1 (new_run_refines events)).1 key).trans (Table.run_apply _ _ key)

end Receiver

/-- Whatever items the Receiver handles from `Receiver::new`, replies before
their registrations and two registrations or two replies for one key
included, its request tables hold at every key what a one-place rendezvous
run on that key's items alone holds, and the request resolvers it completes
or drops are those the rendezvous of each item's key settles, in order: a
resolver and a reply that meet complete the call; otherwise the newer one
waits, a newer resolver dropping the older one and a newer reply replacing
the older one. -/
theorem request_tables_rendezvous (events : List Event) :
    (∀ key, (Receiver.new.run events).1.slot key =
      (Slot.empty.run (Table.itemsAt key (events.filterMap Event.keyItem?))).1) ∧
    (Receiver.new.run events).2.filter Effect.settlesRequest =
      (Table.run (fun _ => .empty) (events.filterMap Event.keyItem?)).2 :=
  ⟨Receiver.run_slot events, (Prod.ext_iff.1 (Receiver.new_run_refines events)).2⟩

end PulsarConnection
