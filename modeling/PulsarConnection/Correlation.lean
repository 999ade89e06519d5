import PulsarConnection.CallerErrors
import PulsarConnection.Accounting

/-!
# Every reply reaches the call that asked for it

Callers' request/response calls, the Receiver's handling of registrations and
frames, and the broker's answers interleave arbitrarily; a reply may even be
handled before the registration of its key.  The broker is taken to answer as
a peer of the protocol does: a frame it sends that carries a posted key answers
a frame of the sink in which that key is written, and it answers each request
frame at most once.  If moreover no key is posted twice, each resolver is
completed at most once, only with a frame routed under the key its call
registered, and with that frame once both the registration and the frame have
been handled.

The proof carries `Receiver.run_respondTo` over to the connection.  The
handled registrations are among the posted ones, so their keys and resolvers
are distinct.  The handled frames are among the broker's, of which at most one
carries a given posted key, since at most one frame of the sink has that key
written in it.
-/

namespace PulsarConnection

/-- If `f` selects no value twice from a list, two positions where it selects
the same value are one. -/
theorem index_eq_of_nodup_filterMap {α β : Type} {f : α → Option β} {k : β} :
    ∀ {l : List α} {j j' : Nat} {x x' : α}, (l.filterMap f).Nodup → l[j]? = some x →
      l[j']? = some x' → f x = some k → f x' = some k → j = j'
  | _ :: _, 0, 0, _, _, _, _, _, _, _ => rfl
  | a :: l, 0, j' + 1, _, x', hNodup, hx, hx', hk, hk' => by
      obtain rfl : a = _ := by simpa using hx
      have hTail : l[j']? = some x' := by simpa using hx'
      rw [List.filterMap_cons_some hk] at hNodup
      exact absurd (List.mem_filterMap.2 ⟨x', List.getElem?_mem hTail, hk'⟩)
        (List.nodup_cons.1 hNodup).1
  | a :: l, j + 1, 0, x, _, hNodup, hx, hx', hk, hk' => by
      obtain rfl : a = _ := by simpa using hx'
      have hTail : l[j]? = some x := by simpa using hx
      rw [List.filterMap_cons_some hk'] at hNodup
      exact absurd (List.mem_filterMap.2 ⟨x, List.getElem?_mem hTail, hk⟩)
        (List.nodup_cons.1 hNodup).1
  | a :: l, j + 1, j' + 1, x, x', hNodup, hx, hx', hk, hk' => by
      have hTail : (l.filterMap f).Nodup := hNodup.sublist ((List.sublist_cons_self a l).filterMap f)
      have hx₁ : l[j]? = some x := by simpa using hx
      have hx₁' : l[j']? = some x' := by simpa using hx'
      rw [index_eq_of_nodup_filterMap hTail hx₁ hx₁' hk hk']

/-- The frame an inbound item carries. -/
def Inbound.frame? : Inbound → Option Message
  | .frame msg => some msg
  | _ => none

/-- Whether an inbound item is a frame that the inbound loop routes under `key`. -/
def Inbound.carries (key : RequestKey) (item : Inbound) : Bool :=
  item.frame?.bind Message.resolverKey == some key

/-- The frames routed under `key`, counted among the frames handled. -/
theorem length_repliesFor (events : List Event) (key : RequestKey) :
    (Receiver.repliesFor events key).length =
      ((events.filterMap Event.frame?).map Inbound.frame).countP (Inbound.carries key) := by
  induction events with
  | nil => rfl
  | cons e events ih =>
      cases e with
      | registration r => simpa [Receiver.repliesFor, Event.replyFor, Event.frame?] using ih
      | frame msg =>
          by_cases hKey : msg.resolverKey = some key <;>
            simp_all [Receiver.repliesFor, Event.replyFor, Event.frame?, Inbound.carries,
              Inbound.frame?, List.countP_cons]

namespace System

variable {s : System}

/-- The broker answers as a peer of the protocol does: a frame it sends that
carries a posted key answers a frame of the sink in which that key is written,
and it answers each frame with a key written in it at most once. -/
def BrokerCorrelates (s : System) : Prop :=
  (∀ x ∈ s.broker, ∀ key ∈ s.postedKeys, x.2.carries key →
    (x.1.bind fun j => s.sink[j]?).bind Message.writtenKey = some key) ∧
  ∀ j < s.sink.length, (s.sink[j]?.bind Message.writtenKey).isSome →
    s.broker.countP (·.1 == some j) ≤ 1

/-- The resolvers of the registrations the Receiver handled are, in order,
among the resolvers posted. -/
theorem processedResolvers_sublist (h : s.RegistrationsQueued) :
    List.Sublist (s.processed.filterMap Event.requestResolver) s.postedResolvers := by
  have hResolvers : (s.processed.filterMap Event.registration?).filterMap Register.resolver? =
      s.processed.filterMap Event.requestResolver := by
    rw [List.filterMap_filterMap]
    congr 1
    funext e
    rcases e with (_ | _ | _) | _ <;> rfl
  rw [← hResolvers]
  exact h.sublist_posts _

theorem WriterFifo.enqueued_extends_sink (h : s.WriterFifo) : s.sink <+: s.enqueued := by
  obtain ⟨hRunning, hFailed, hFinished⟩ := h
  cases hWriter : s.writer
  · exact ⟨_, hRunning hWriter⟩
  · exact (hFailed hWriter).1
  · exact (hFinished hWriter).1 ▸ List.prefix_refl _

end System

namespace Reachable

variable {s : System}

/-- With no key posted twice, no key is written in two frames of the sink. -/
theorem sinkKeys_nodup (h : Reachable s) (hKeys : s.postedKeys.Nodup) :
    (s.sink.filterMap Message.writtenKey).Nodup := by
  have hEnqueued : s.enqueuedKeys.Nodup := List.nodup_iff_count_le_one.2 fun key =>
    calc s.enqueuedKeys.count key ≤ s.postedKeys.count key := by
          have := h.keysAccounted key
          omega
      _ ≤ 1 := List.nodup_iff_count_le_one.1 hKeys key
  exact hEnqueued.sublist (h.writerFifo.enqueued_extends_sink.sublist.filterMap _)

/-- Of the frames handled, at most one carries a given posted key. -/
theorem repliesFor_length_le (h : Reachable s) (hKeys : s.postedKeys.Nodup)
    (hBroker : s.BrokerCorrelates) {key : RequestKey} (hPosted : key ∈ s.postedKeys) :
    (Receiver.repliesFor s.processed key).length ≤ 1 := by
  obtain ⟨hAnswers, hOnce⟩ := hBroker
  have hAnswered : ∀ x ∈ s.broker, x.2.carries key →
      ∃ j frame, x.1 = some j ∧ s.sink[j]? = some frame ∧ frame.writtenKey = some key :=
    fun x hx hCarries => by
      obtain ⟨frame, hBind, hWritten⟩ := Option.bind_eq_some.1 (hAnswers x hx key hPosted hCarries)
      obtain ⟨j, hj, hFrame⟩ := Option.bind_eq_some.1 hBind
      exact ⟨j, frame, hj, hFrame, hWritten⟩
  have hHandled := ((List.sublist_append_left _ s.inbound).trans h.inboundQueued).countP_le
    (Inbound.carries key)
  simp only [List.countP_map] at hHandled
  rw [length_repliesFor, List.countP_map]
  refine hHandled.trans ?_
  by_cases hAny : ∃ x ∈ s.broker, x.2.carries key
  · obtain ⟨x₀, hx₀, hCarries₀⟩ := hAny
    obtain ⟨j, frame, -, hFrame, hWritten⟩ := hAnswered x₀ hx₀ hCarries₀
    calc s.broker.countP (Inbound.carries key ∘ (·.2))
        ≤ s.broker.countP (·.1 == some j) := List.countP_mono_left fun x hx hCarries => by
          obtain ⟨j', frame', hj', hFrame', hWritten'⟩ := hAnswered x hx hCarries
          have hSame := index_eq_of_nodup_filterMap (h.sinkKeys_nodup hKeys) hFrame' hFrame
            hWritten' hWritten
          simp [hj', hSame]
      _ ≤ 1 := hOnce j (List.getElem?_eq_some_iff.1 hFrame).1 (by simp [hFrame, hWritten])
  · push_neg at hAny
    rw [List.countP_eq_zero.2 fun x hx => by simpa using hAny x hx]
    exact Nat.zero_le 1

/-- The items the Receiver handled meet what `Receiver.run_respondTo` asks. -/
theorem correlated (h : Reachable s) (hKeys : s.postedKeys.Nodup) (hBroker : s.BrokerCorrelates) :
    Receiver.Correlated s.processed where
  keys := (System.processedKeys_sublist h.registrationsQueued).nodup hKeys
  resolvers := (System.processedResolvers_sublist h.registrationsQueued).nodup h.resolversFresh.1
  replies key hRegistered := by
    obtain ⟨r, hr⟩ := List.exists_mem_of_ne_nil _ hRegistered
    refine h.repliesFor_length_le hKeys hBroker
      ((System.processedKeys_sublist h.registrationsQueued).subset ?_)
    exact List.mem_filterMap.2 ⟨_, Receiver.mem_registeredFor.1 hr, rfl⟩

end Reachable

/-- Whatever the interleaving of calls, Receiver and broker, when no key is
posted twice and the broker answers as a peer of the protocol: a resolver
registered under `key` is handed exactly the frames handled that are routed
under `key`, of which there is at most one, so it is completed at most once,
only with a frame routed under its own key, and with that frame once both
have been handled, in either order; a resolver never registered is handed
nothing; and a resolver that holds a reply holds that one frame. -/
theorem resolvers_complete_with_own_replies {s : System} (h : Reachable s)
    (hKeys : s.postedKeys.Nodup) (hBroker : s.BrokerCorrelates) (r : Nat) :
    (∀ key, .registration (.request key r) ∈ s.processed →
      s.effects.filterMap (Effect.respondTo r) = Receiver.repliesFor s.processed key ∧
      (Receiver.repliesFor s.processed key).length ≤ 1) ∧
    ((∀ key, .registration (.request key r) ∉ s.processed) →
      s.effects.filterMap (Effect.respondTo r) = []) ∧
    ∀ msg, s.responses r = .sent msg →
      ∃ key, .registration (.request key r) ∈ s.processed ∧
        Receiver.repliesFor s.processed key = [msg] := by
  have hRun : Receiver.new.run s.processed = (s.receiver, s.effects) := h.receiverRun
  obtain ⟨hRegistered, hUnregistered⟩ := Receiver.run_respondTo (h.correlated hKeys hBroker) r
  rw [hRun] at hRegistered hUnregistered
  refine ⟨hRegistered, hUnregistered, fun msg hSent => ?_⟩
  have hMem := h.responsesLogged r |>.1 msg hSent
  obtain ⟨key, -, hReg⟩ := Receiver.run_respond_mem (by rw [hRun]; exact hMem)
  obtain ⟨hReplies, hLength⟩ := hRegistered key hReg
  have hIn : msg ∈ Receiver.repliesFor s.processed key :=
    hReplies ▸ List.mem_filterMap.2 ⟨_, hMem, by simp [Effect.respondTo]⟩
  refine ⟨key, hReg, ?_⟩
  match hList : Receiver.repliesFor s.processed key, hIn, hLength with
  | [m], hIn, _ => rw [List.mem_singleton.1 hIn]
  | _ :: _ :: _, _, hLength => simp at hLength

/-- A `lookup_topic` whose reply the Receiver reads before it drains the
registration: the Receiver was already in its inbound loop when the call
posted. -/
def lookupReplyFirst : System :=
  ((System.init 64).exec [.poll, .poll, .invoke (.lookupTopic "t" false), .advance 0, .advance 0,
    .advance 0, .write none, .answer 0 ⟨{ lookupTopicResponse := some ⟨0⟩ }⟩, .poll, .poll, .poll,
    .poll]).getD (System.init 64)

/-- The reply is handled first and stashed, and the registration then hands it
to the call's resolver. -/
theorem lookup_reply_first_resolves :
    lookupReplyFirst.processed = [.frame ⟨{ lookupTopicResponse := some ⟨0⟩ }⟩,
        .registration (.request (.requestId 0) 0)] ∧
      lookupReplyFirst.effects.filterMap (Effect.respondTo 0) =
        Receiver.repliesFor lookupReplyFirst.processed (.requestId 0) ∧
      (Receiver.repliesFor lookupReplyFirst.processed (.requestId 0)).length ≤ 1 := by
  have hReach : Reachable lookupReplyFirst := (Reachable.init 64).exec
    (show (System.init 64).exec [.poll, .poll, .invoke (.lookupTopic "t" false), .advance 0,
      .advance 0, .advance 0, .write none, .answer 0 ⟨{ lookupTopicResponse := some ⟨0⟩ }⟩, .poll,
      .poll, .poll, .poll] = some lookupReplyFirst from rfl)
  obtain ⟨hRegistered, -, -⟩ :=
    resolvers_complete_with_own_replies hReach (by decide) ⟨by decide, by decide⟩ 0
  exact ⟨by decide, hRegistered _ (by decide)⟩

end PulsarConnection
