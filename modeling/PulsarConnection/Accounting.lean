import PulsarConnection.Invariants

/-!
# Which frames carry a registered key

A request/response call posts its `Register::Request` before it enqueues its
frame, and the frame carries the ids of the key it registered.  So every keyed
frame on the outbound channel, and every keyed frame a call is about to
enqueue, is matched by an earlier post of its key.  A request resolver is
posted at most once, by the call it belongs to.  When no key is posted twice,
no two frames handed to the sink carry the same key.
-/

namespace PulsarConnection

section Counting

variable {α β : Type} [DecidableEq β] (g : α → Option β) (b : β)

/-- What `g` selects from a list is what it selects from its head, then from
its tail. -/
theorem count_filterMap_cons (a : α) (l : List α) :
    ((a :: l).filterMap g).count b = (g a).toList.count b + (l.filterMap g).count b := by
  cases hA : g a <;> simp [List.filterMap_cons, hA, List.count_cons, Nat.add_comm]

/-- What `g` selects at one position is among what it selects from the list. -/
theorem count_bind_getElem?_le (l : List α) (i : Nat) :
    (l[i]?.bind g).toList.count b ≤ (l.filterMap g).count b := by
  induction l generalizing i with
  | nil => simp
  | cons a l ih =>
      rw [count_filterMap_cons]
      cases i with
      | zero => simp
      | succ i =>
          rw [List.getElem?_cons_succ]
          exact (ih i).trans (Nat.le_add_left _ _)

/-- Changing one position of a list changes what `g` selects from it by what
`g` selected there before and selects there after. -/
theorem count_filterMap_modify (f : α → α) (l : List α) (i : Nat) :
    ((l.modify f i).filterMap g).count b =
      (l.filterMap g).count b - (l[i]?.bind g).toList.count b +
        ((l[i]?.map f).bind g).toList.count b := by
  induction l generalizing i with
  | nil => simp
  | cons a l ih =>
      cases i with
      | zero =>
          rw [List.modify_zero_cons, count_filterMap_cons, count_filterMap_cons]
          simp [Nat.add_comm]
      | succ i =>
          have hLe := count_bind_getElem?_le g b l i
          rw [List.modify_succ_cons, count_filterMap_cons, count_filterMap_cons,
            List.getElem?_cons_succ, ih i]
          omega

end Counting

namespace Stage

/-- The key of a request whose registration the call has posted and whose
frame it has yet to enqueue. -/
def pendingKey : Stage → Option RequestKey
  | .enqueuing key _ _ => some key
  | _ => none

/-- A stage that holds a request frame holds one carrying the request's key. -/
def Keyed : Stage → Prop
  | .subscribing _ _ key frame | .posting key frame | .enqueuing key frame _ =>
      frame.writtenKey = some key
  | _ => True

/-- Whether the call has yet to post its `Register::Request`. -/
def beforeRequest : Stage → Bool
  | .invoked | .subscribing .. | .posting .. => true
  | _ => false

end Stage

/-- A `Ping` frame carries no key. -/
theorem Messages.ping_writtenKey : Messages.ping.writtenKey = none :=
  rfl

namespace System

variable {s s' : System}

/-- The keys written in the frames enqueued, in order. -/
def enqueuedKeys (s : System) : List RequestKey :=
  s.enqueued.filterMap Message.writtenKey

/-- The keys posted by calls that have yet to enqueue their frame. -/
def pendingKeys (s : System) : List RequestKey :=
  s.calls.filterMap (·.stage.pendingKey)

/-- The resolvers of every `Register::Request` posted, in order. -/
def postedResolvers (s : System) : List Nat :=
  s.posts.filterMap (·.1.resolver?)

/-! ## How the helpers of a step change the logs -/

theorem post_posts_eq (s : System) (r : Register) :
    (s.post r).posts = s.posts ++ [(r, s.registrationsOpen)] := by
  unfold post
  split <;> rename_i hOpen
  · simp [hOpen]
  · cases r <;> simp [hOpen]

@[simp]
theorem postedKeys_post (s : System) (r : Register) :
    (s.post r).postedKeys = s.postedKeys ++ r.key?.toList := by
  simp only [postedKeys, post_posts_eq, List.filterMap_append, List.filterMap_cons,
    List.filterMap_nil]
  cases r.key? <;> rfl

@[simp]
theorem postedResolvers_post (s : System) (r : Register) :
    (s.post r).postedResolvers = s.postedResolvers ++ r.resolver?.toList := by
  simp only [postedResolvers, post_posts_eq, List.filterMap_append, List.filterMap_cons,
    List.filterMap_nil]
  cases r.resolver? <;> rfl

@[simp]
theorem enqueuedKeys_post (s : System) (r : Register) :
    (s.post r).enqueuedKeys = s.enqueuedKeys := by
  unfold post
  split
  · rfl
  · cases r <;> rfl

@[simp]
theorem pendingKeys_post (s : System) (r : Register) : (s.post r).pendingKeys = s.pendingKeys := by
  simp [pendingKeys]

@[simp]
theorem postedKeys_enqueue (s : System) (msg : Message) :
    (s.enqueue msg).postedKeys = s.postedKeys := by
  unfold enqueue
  split <;> rfl

@[simp]
theorem postedResolvers_enqueue (s : System) (msg : Message) :
    (s.enqueue msg).postedResolvers = s.postedResolvers := by
  unfold enqueue
  split <;> rfl

@[simp]
theorem enqueuedKeys_enqueue (s : System) (msg : Message) :
    (s.enqueue msg).enqueuedKeys =
      s.enqueuedKeys ++ if s.outboundOpen then msg.writtenKey.toList else [] := by
  unfold enqueue enqueuedKeys
  split <;> rename_i hOpen <;> cases hKey : msg.writtenKey <;> simp [hOpen, hKey]

@[simp]
theorem pendingKeys_enqueue (s : System) (msg : Message) :
    (s.enqueue msg).pendingKeys = s.pendingKeys := by
  simp [pendingKeys]

/-- Moving call `i` to `stage` changes the keys about to be enqueued by the
call's key before and after. -/
@[simp]
theorem count_pendingKeys_setStage (s : System) (i : Nat) (stage : Stage) (key : RequestKey) :
    (s.setStage i stage).pendingKeys.count key =
      s.pendingKeys.count key - (s.calls[i]?.bind (·.stage.pendingKey)).toList.count key +
        ((s.calls[i]?.map fun call => { call with stage }).bind (·.stage.pendingKey)).toList.count
          key :=
  count_filterMap_modify _ _ _ _ _

theorem count_pendingKey_le (s : System) (i : Nat) (key : RequestKey) :
    (s.calls[i]?.bind (·.stage.pendingKey)).toList.count key ≤ s.pendingKeys.count key :=
  count_bind_getElem?_le _ _ _ _

@[simp]
theorem postedKeys_setStage (s : System) (i : Nat) (stage : Stage) :
    (s.setStage i stage).postedKeys = s.postedKeys :=
  rfl

@[simp]
theorem postedResolvers_setStage (s : System) (i : Nat) (stage : Stage) :
    (s.setStage i stage).postedResolvers = s.postedResolvers :=
  rfl

@[simp]
theorem enqueuedKeys_setStage (s : System) (i : Nat) (stage : Stage) :
    (s.setStage i stage).enqueuedKeys = s.enqueuedKeys :=
  rfl

@[simp]
theorem setError_calls (s : System) (e : ConnectionError) : (s.setError e).calls = s.calls :=
  rfl

@[simp]
theorem logs_setError (s : System) (e : ConnectionError) :
    (s.setError e).postedKeys = s.postedKeys ∧ (s.setError e).postedResolvers = s.postedResolvers ∧
      (s.setError e).enqueuedKeys = s.enqueuedKeys ∧ (s.setError e).pendingKeys = s.pendingKeys :=
  ⟨rfl, rfl, rfl, rfl⟩

/-- Taking a request id changes none of the logs. -/
@[simp]
theorem logs_takeRequestId (s : System) (requestId : SerialId) :
    ({ s with requestId } : System).postedKeys = s.postedKeys ∧
      ({ s with requestId } : System).postedResolvers = s.postedResolvers ∧
      ({ s with requestId } : System).enqueuedKeys = s.enqueuedKeys ∧
      ({ s with requestId } : System).pendingKeys = s.pendingKeys :=
  ⟨rfl, rfl, rfl, rfl⟩

theorem foldl_apply_enqueuedKeys (effects : List Effect) (t : System) :
    (effects.foldl apply t).enqueuedKeys = t.enqueuedKeys := by
  induction effects generalizing t with
  | nil => rfl
  | cons effect effects ih =>
      rw [List.foldl_cons, ih]
      cases effect <;> first | rfl | simp [apply, Messages.pong, Message.writtenKey]

/-- The Receiver enqueues only `Pong` frames, which carry no key. -/
@[simp]
theorem dispatch_enqueuedKeys (t : System) (e : Event) :
    (t.dispatch e).enqueuedKeys = t.enqueuedKeys :=
  foldl_apply_enqueuedKeys _ _

/-- A step other than a call's own leaves the posts, the keyed frames enqueued
and the keys about to be enqueued as they were. -/
theorem step_logs_of_ne_advance {a : Action} (h : s.step a = some s')
    (hOther : ∀ i, a ≠ .advance i) :
    s'.posts = s.posts ∧ s'.enqueuedKeys = s.enqueuedKeys ∧ s'.pendingKeys = s.pendingKeys := by
  cases a with
  | advance i => exact absurd rfl (hOther i)
  | poll =>
      cases polls_of_poll h with
      | drain | read => exact ⟨by simp, dispatch_enqueuedKeys _ _, by simp [pendingKeys]⟩
      | _ => exact ⟨rfl, rfl, rfl⟩
  | write o =>
      rcases write_cases h with ⟨_, _, -, -, -, rfl⟩ | ⟨_, _, _, -, -, -, rfl⟩ | ⟨-, -, -, -, rfl⟩ <;>
        exact ⟨rfl, rfl, rfl⟩
  | invoke =>
      simp only [step] at h
      split at h <;> cases h
      exact ⟨rfl, rfl, by simp [pendingKeys, Stage.pendingKey]⟩
  | answer | dropConnection =>
      simp only [step] at h
      split at h <;> cases h
      exact ⟨rfl, rfl, rfl⟩
  | push | takeError => cases h; exact ⟨rfl, rfl, rfl⟩

/-! ## Request frames carry their keys -/

/-- Every frame a call holds for a request carries the request's key. -/
def FramesKeyed (s : System) : Prop :=
  ∀ (i : Nat) (call : Call), s.calls[i]? = some call → call.stage.Keyed

/-- A property of stages that a just invoked call has, and that the steps of
each call keep, holds of every call after every step. -/
theorem step_stages {P : Stage → Prop} {a : Action} (h : s.step a = some s')
    (hInvoked : P .invoked)
    (hOwn : ∀ i, a = .advance i → ∀ call : Call, s'.calls[i]? = some call → P call.stage)
    (hAll : ∀ (j : Nat) (call : Call), s.calls[j]? = some call → P call.stage) :
    ∀ (j : Nat) (call : Call), s'.calls[j]? = some call → P call.stage := by
  intro j call hCall
  by_cases hAdvance : a = .advance j
  · exact hOwn j hAdvance call hCall
  · rcases step_call_cases h hAdvance hCall with hOld | hInvokedNow
    · exact hAll j call hOld
    · exact hInvokedNow ▸ hInvoked

theorem advance_keyed {i : Nat} (h : s.advance i = some s') (hKeyed : s.FramesKeyed)
    {call : Call} (hCall : s'.calls[i]? = some call) : call.stage.Keyed := by
  cases advances_of_advance h with
  | request hOld hRequest =>
      simp [setStage, hOld] at hCall
      subst hCall
      exact Operation.request_writtenKey hRequest
  | postConsumer hOld | postRequest hOld =>
      simp [setStage, hOld] at hCall
      subst hCall
      have hFrame := hKeyed i _ hOld
      exact hFrame
  | enqueue hOld | enqueuePing hOld =>
      simp [setStage, hOld] at hCall
      subst hCall
      split <;> trivial
  | _ hOld =>
      simp [setStage, setError, hOld] at hCall
      subst hCall
      trivial

theorem step_framesKeyed {a : Action} (h : s.step a = some s') (hKeyed : s.FramesKeyed) :
    s'.FramesKeyed :=
  step_stages h trivial (fun _ hAdvance _ hCall => by subst hAdvance; exact advance_keyed h hKeyed hCall)
    hKeyed

/-! ## Every keyed frame is matched by a post of its key -/

/-- Every keyed frame enqueued, and every keyed frame a call is about to
enqueue, is matched by a post of its key. -/
def KeysAccounted (s : System) : Prop :=
  ∀ key, s.enqueuedKeys.count key + s.pendingKeys.count key ≤ s.postedKeys.count key

theorem advance_keysAccounted {i : Nat} (h : s.advance i = some s') (hKeyed : s.FramesKeyed)
    (hAccounted : s.KeysAccounted) : s'.KeysAccounted := by
  intro key
  have hBefore := hAccounted key
  have hLe := count_pendingKey_le s i key
  cases advances_of_advance h with
  | enqueue hOld =>
      have hFrame : _ = some _ := hKeyed i _ hOld
      simp only [hOld, Option.some_bind, Stage.pendingKey, Option.toList_some] at hLe
      split <;> cases hOpen : s.outboundOpen <;>
        simp only [enqueuedKeys_setStage, enqueuedKeys_enqueue, postedKeys_setStage,
          postedKeys_enqueue, count_pendingKeys_setStage, pendingKeys_enqueue, enqueue_calls, hOld,
          hFrame, hOpen, Stage.pendingKey, Option.some_bind, Option.map_some', Option.toList_some,
          Option.toList_none, List.count_append, List.count_nil, ite_true, ite_false,
          Bool.false_eq_true, List.append_nil] <;>
        omega
  | notify hOld hNotify =>
      have hNone := Operation.notification_writtenKey hNotify
      simp only [enqueuedKeys_setStage, enqueuedKeys_enqueue, postedKeys_setStage,
        postedKeys_enqueue, count_pendingKeys_setStage, pendingKeys_enqueue, enqueue_calls, hOld,
        hNone, Stage.pendingKey, Option.some_bind, Option.map_some', Option.toList_none,
        List.count_nil, ite_self, List.append_nil] at hLe ⊢
      omega
  | _ hOld =>
      try split
      all_goals
        simp only [enqueuedKeys_setStage, postedKeys_setStage, count_pendingKeys_setStage,
          enqueuedKeys_post, postedKeys_post, pendingKeys_post, post_calls, enqueuedKeys_enqueue,
          postedKeys_enqueue, pendingKeys_enqueue, enqueue_calls, logs_setError, setError_calls,
          logs_takeRequestId, hOld, Stage.pendingKey, Register.key?, Messages.ping_writtenKey,
          Option.some_bind, Option.map_some', Option.toList_some, Option.toList_none,
          List.count_append, List.count_nil, List.append_nil, ite_self] at hLe ⊢
        omega

theorem step_keysAccounted {a : Action} (h : s.step a = some s') (hKeyed : s.FramesKeyed)
    (hAccounted : s.KeysAccounted) : s'.KeysAccounted := by
  by_cases hAdvance : ∃ i, a = .advance i
  · obtain ⟨i, rfl⟩ := hAdvance
    exact advance_keysAccounted h hKeyed hAccounted
  · obtain ⟨hPosts, hEnqueued, hPending⟩ :=
      step_logs_of_ne_advance h fun i hEq => hAdvance ⟨i, hEq⟩
    intro key
    rw [hEnqueued, hPending, postedKeys, hPosts]
    exact hAccounted key

/-! ## A request resolver is posted once -/

/-- A request resolver is posted at most once, and only by its own call, which
is past its post from then on. -/
def ResolversFresh (s : System) : Prop :=
  s.postedResolvers.Nodup ∧
    ∀ r ∈ s.postedResolvers, ∃ call, s.calls[r]? = some call ∧ call.stage.beforeRequest = false

/-- A call past its post stays past it. -/
theorem advance_past_request {i : Nat} (h : s.advance i = some s') {call : Call}
    (hCall : s.calls[i]? = some call) (hPast : call.stage.beforeRequest = false) :
    ∃ call', s'.calls[i]? = some call' ∧ call'.stage.beforeRequest = false := by
  cases advances_of_advance h with
  | enqueue hOld | enqueuePing hOld =>
      refine ⟨_, setStage_call (by simpa using hOld) _, ?_⟩
      split <;> rfl
  | reply hOld | dropped hOld | pong hOld | pingDropped hOld =>
      exact ⟨_, setStage_call (by simpa [setError] using hOld) _, rfl⟩
  | _ hOld =>
      rw [hOld] at hCall
      cases hCall
      cases hPast

/-- The only step that posts a request resolver is a call's post of its own. -/
theorem step_postedResolvers {a : Action} (h : s.step a = some s') :
    s'.postedResolvers = s.postedResolvers ∨
      ∃ i op key frame, a = .advance i ∧ s.calls[i]? = some ⟨op, .posting key frame⟩ ∧
        s'.postedResolvers = s.postedResolvers ++ [i] ∧
        s'.calls[i]? = some ⟨op, .enqueuing key frame s.registrationsOpen⟩ := by
  by_cases hAdvance : ∃ i, a = .advance i
  · obtain ⟨i, rfl⟩ := hAdvance
    cases advances_of_advance h with
    | postRequest hOld =>
        exact .inr ⟨i, _, _, _, rfl, hOld, by simp [Register.resolver?],
          setStage_call (by simpa using hOld) _⟩
    | _ => exact .inl (by simp [Register.resolver?])
  · left
    rw [postedResolvers, (step_logs_of_ne_advance h fun i hEq => hAdvance ⟨i, hEq⟩).1]
    rfl

theorem step_resolversFresh {a : Action} (h : s.step a = some s') (hFresh : s.ResolversFresh) :
    s'.ResolversFresh := by
  obtain ⟨hNodup, hPast⟩ := hFresh
  have hKeep : ∀ r ∈ s.postedResolvers,
      ∃ call, s'.calls[r]? = some call ∧ call.stage.beforeRequest = false := by
    intro r hr
    obtain ⟨call, hCall, hBefore⟩ := hPast r hr
    by_cases hOwn : a = .advance r
    · subst hOwn
      exact advance_past_request h hCall hBefore
    · exact ⟨call, step_call_of_ne h hOwn hCall, hBefore⟩
  rcases step_postedResolvers h with hSame | ⟨i, op, key, frame, rfl, hOld, hPosted, hNew⟩
  · rw [ResolversFresh, hSame]
    exact ⟨hNodup, hKeep⟩
  · have hFresh : i ∉ s.postedResolvers := fun hi => by
      obtain ⟨call, hCall, hBefore⟩ := hPast i hi
      rw [hOld] at hCall
      cases hCall
      cases hBefore
    rw [ResolversFresh, hPosted]
    refine ⟨hNodup.append (List.nodup_singleton i) (List.disjoint_singleton.2 hFresh), ?_⟩
    intro r hr
    rcases List.mem_append.1 hr with hr | hr
    · exact hKeep r hr
    · obtain rfl := List.mem_singleton.1 hr
      exact ⟨_, hNew, rfl⟩

end System

/-! ## Every reachable state -/

namespace Reachable

variable {s : System}

theorem framesKeyed (h : Reachable s) : s.FramesKeyed := by
  induction h with
  | init => intro i call hCall; simp [System.init] at hCall
  | step a _ hStep ih => exact System.step_framesKeyed hStep ih

theorem keysAccounted (h : Reachable s) : s.KeysAccounted := by
  induction h with
  | init => intro key; simp [System.enqueuedKeys, System.pendingKeys, System.postedKeys, System.init]
  | step a hReach hStep ih => exact System.step_keysAccounted hStep hReach.framesKeyed ih

theorem resolversFresh (h : Reachable s) : s.ResolversFresh := by
  induction h with
  | init => exact ⟨List.nodup_nil, fun r hr => by simp [System.postedResolvers, System.init] at hr⟩
  | step a _ hStep ih => exact System.step_resolversFresh hStep ih

end Reachable

end PulsarConnection
