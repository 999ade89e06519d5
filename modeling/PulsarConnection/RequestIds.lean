import PulsarConnection.Accounting

/-!
# Request ids are not reused before the counter wraps

A call of every request/response operation other than `send_message` takes one
id from the connection's one `SerialId` in its first step, and carries it in
its key until it posts its `Register::Request`; from then on the key is in the
log of posts.  So the request ids the calls hold or have posted are, counted
with their repetitions, among the values the counter's gets returned, and
there have been no more gets than calls that left `invoked`.  Those values are
distinct until the counter wraps, and then so are the request ids of the
connection.
-/

namespace PulsarConnection

/-- The request id of a `RequestId` key. -/
def RequestKey.serial? : RequestKey → Option UInt64
  | .requestId id => some id
  | _ => none

@[simp]
theorem RequestKey.serial_producerSend (producerId sequenceId : UInt64) :
    (RequestKey.producerSend producerId sequenceId).serial? = none :=
  rfl

/-- The request id a call has taken and has yet to post in its key. -/
def Stage.heldId : Stage → Option UInt64
  | .subscribing _ _ key _ | .posting key _ => key.serial?
  | _ => none

/-- The key of a request is built on the request id the call took, or is a
`ProducerSend` key, which carries none. -/
theorem Operation.request_serial {op : Operation} {id : UInt64} {key : RequestKey}
    {frame : Message} (h : op.request id = some (key, frame)) :
    key.serial? = none ∨ key.serial? = some id := by
  cases op <;> simp only [Operation.request, Option.some.injEq, Prod.mk.injEq, reduceCtorEq] at h <;>
    obtain ⟨rfl, rfl⟩ := h <;> simp [RequestKey.serial?]

/-- Changing one position of a list changes how many of its elements satisfy
`p` by whether the element there satisfied it before and satisfies it after. -/
theorem countP_modify {α : Type} (p : α → Bool) (f : α → α) (l : List α) (i : Nat) :
    (l.modify f i).countP p + l[i]?.toList.countP p = l.countP p + (l[i]?.map f).toList.countP p := by
  induction l generalizing i with
  | nil => simp
  | cons a l ih =>
      cases i with
      | zero =>
          simp only [List.modify_zero_cons, List.countP_cons, List.getElem?_cons_zero,
            Option.toList_some, Option.map_some', List.countP_nil]
          omega
      | succ i =>
          have hRest := ih i
          simp only [List.modify_succ_cons, List.countP_cons, List.getElem?_cons_succ] at hRest ⊢
          omega

/-- Whether a call has taken its first step, in which an operation takes its
request id. -/
def Stage.started : Stage → Bool
  | .invoked => false
  | _ => true

namespace System

variable {s s' : System}

/-- The number of calls that have taken their first step. -/
def startedCalls (s : System) : Nat :=
  s.calls.countP (·.stage.started)

/-- The request ids held by calls that have yet to post them. -/
def heldIds (s : System) : List UInt64 :=
  s.calls.filterMap (·.stage.heldId)

/-- The request ids taken: those posted in a `Register::Request`, then those
held by calls that have yet to post them. -/
def takenIds (s : System) : List UInt64 :=
  s.postedKeys.filterMap RequestKey.serial? ++ s.heldIds

@[simp]
theorem post_requestId (s : System) (r : Register) : (s.post r).requestId = s.requestId := by
  unfold post
  split
  · rfl
  · cases r <;> rfl

@[simp]
theorem enqueue_requestId (s : System) (msg : Message) :
    (s.enqueue msg).requestId = s.requestId := by
  unfold enqueue
  split <;> rfl

@[simp]
theorem setError_requestId (s : System) (e : ConnectionError) :
    (s.setError e).requestId = s.requestId :=
  rfl

@[simp]
theorem dispatch_requestId (s : System) (e : Event) : (s.dispatch e).requestId = s.requestId := by
  obtain ⟨_, _, _, _, _, hEq⟩ := dispatch_eq s e
  rw [hEq]

@[simp]
theorem heldIds_post (s : System) (r : Register) : (s.post r).heldIds = s.heldIds := by
  simp [heldIds]

@[simp]
theorem heldIds_enqueue (s : System) (msg : Message) : (s.enqueue msg).heldIds = s.heldIds := by
  simp [heldIds]

@[simp]
theorem heldIds_setError (s : System) (e : ConnectionError) :
    (s.setError e).heldIds = s.heldIds :=
  rfl

@[simp]
theorem heldIds_takeRequestId (s : System) (requestId : SerialId) :
    ({ s with requestId } : System).heldIds = s.heldIds :=
  rfl

/-- Moving call `i` to `stage` changes the ids held by the id the call held
before and holds after. -/
@[simp]
theorem count_heldIds_setStage (s : System) (i : Nat) (stage : Stage) (id : UInt64) :
    (s.setStage i stage).heldIds.count id =
      s.heldIds.count id - (s.calls[i]?.bind (·.stage.heldId)).toList.count id +
        ((s.calls[i]?.map fun call => { call with stage }).bind (·.stage.heldId)).toList.count id :=
  count_filterMap_modify _ _ _ _ _

theorem count_heldId_le (s : System) (i : Nat) (id : UInt64) :
    (s.calls[i]?.bind (·.stage.heldId)).toList.count id ≤ s.heldIds.count id :=
  count_bind_getElem?_le _ _ _ _

theorem count_takenIds (s : System) (id : UInt64) :
    s.takenIds.count id =
      (s.postedKeys.filterMap RequestKey.serial?).count id + s.heldIds.count id :=
  List.count_append _ _ _

@[simp]
theorem startedCalls_post (s : System) (r : Register) :
    (s.post r).startedCalls = s.startedCalls := by
  simp [startedCalls]

@[simp]
theorem startedCalls_enqueue (s : System) (msg : Message) :
    (s.enqueue msg).startedCalls = s.startedCalls := by
  simp [startedCalls]

@[simp]
theorem startedCalls_setError (s : System) (e : ConnectionError) :
    (s.setError e).startedCalls = s.startedCalls :=
  rfl

@[simp]
theorem startedCalls_takeRequestId (s : System) (requestId : SerialId) :
    ({ s with requestId } : System).startedCalls = s.startedCalls :=
  rfl

/-- Moving call `i` to a stage other than `invoked` raises the number of
started calls by one when the call had not started. -/
@[simp]
theorem startedCalls_setStage (s : System) (i : Nat) {stage : Stage} (hStage : stage ≠ .invoked) :
    (s.setStage i stage).startedCalls =
      s.startedCalls + (s.calls[i]?.map fun call => if call.stage.started then 0 else 1).getD 0 := by
  have hStarted : stage.started := by cases stage <;> simp_all [Stage.started]
  have hCount := countP_modify (·.stage.started) (fun call : Call => { call with stage }) s.calls i
  unfold startedCalls setStage
  cases hCall : s.calls[i]? with
  | none => simp_all
  | some call =>
      simp only [hCall, Option.toList_some, Option.map_some', Option.getD_some, List.countP_cons,
        List.countP_nil, hStarted] at hCount ⊢
      split <;> simp_all

/-- A call's step moves it to a started stage: it keeps the number of started
calls, and raises it by one when it is the call's first step. -/
theorem advance_startedCalls {i : Nat} (h : s.advance i = some s') :
    s'.startedCalls =
      s.startedCalls + (s.calls[i]?.map fun call => if call.stage.started then 0 else 1).getD 0 := by
  cases advances_of_advance h <;> (try split) <;>
    simp only [startedCalls_setStage, startedCalls_post, startedCalls_enqueue,
      startedCalls_setError, startedCalls_takeRequestId, post_calls, enqueue_calls, setError_calls,
      ne_eq, reduceCtorEq, not_false_eq_true]

/-- A step other than a call's own leaves the counter as it is, and leaves the
calls as they are or appends a just invoked one. -/
theorem step_calls_of_ne_advance {a : Action} (h : s.step a = some s')
    (hOther : ∀ i, a ≠ .advance i) :
    s'.requestId = s.requestId ∧
      (s'.calls = s.calls ∨ ∃ op, s'.calls = s.calls ++ [⟨op, .invoked⟩]) := by
  cases a with
  | advance i => exact absurd rfl (hOther i)
  | invoke op =>
      simp only [step] at h
      split at h <;> cases h
      exact ⟨rfl, .inr ⟨op, rfl⟩⟩
  | poll =>
      refine ⟨?_, .inl (poll_calls h)⟩
      cases polls_of_poll h with
      | drain | read => exact dispatch_requestId _ _
      | _ => rfl
  | write o =>
      rcases write_cases h with ⟨_, _, -, -, -, rfl⟩ | ⟨_, _, _, -, -, -, rfl⟩ | ⟨-, -, -, -, rfl⟩ <;>
        exact ⟨rfl, .inl rfl⟩
  | answer | dropConnection =>
      simp only [step] at h
      split at h <;> cases h
      exact ⟨rfl, .inl rfl⟩
  | push | takeError => cases h; exact ⟨rfl, .inl rfl⟩

/-! ## Every id taken was issued by the counter -/

/-- `n` gets have been made on the connection's counter, no more than calls
have started, and every request id taken is one they returned, no more often
than they returned it. -/
def IdsIssued (s : System) : Prop :=
  ∃ n ≤ s.startedCalls, s.requestId = ((SerialId.new s.requestId.bits).getMany n).2 ∧
    ∀ id, s.takenIds.count id ≤ ((SerialId.new s.requestId.bits).getMany n).1.count id

/-- A step that leaves the counter, stops no call and takes no new id keeps the
ids issued. -/
theorem IdsIssued.of_count (h : s.IdsIssued) (hStarted : s.startedCalls ≤ s'.startedCalls)
    (hCounter : s'.requestId = s.requestId)
    (hCount : ∀ id, s'.takenIds.count id ≤ s.takenIds.count id) : s'.IdsIssued := by
  obtain ⟨n, hn, hEq, hLe⟩ := h
  exact ⟨n, hn.trans hStarted, hCounter ▸ hEq, fun id => hCounter ▸ (hCount id).trans (hLe id)⟩

/-- A step that starts a call, makes one get and takes at most the id it
returned keeps the ids issued. -/
theorem IdsIssued.of_get (h : s.IdsIssued) (hStarted : s.startedCalls < s'.startedCalls)
    (hCounter : s'.requestId = s.requestId.get.2)
    (hCount : ∀ id, s'.takenIds.count id ≤ s.takenIds.count id + [s.requestId.get.1].count id) :
    s'.IdsIssued := by
  obtain ⟨n, hn, hEq, hLe⟩ := h
  have hBits : s'.requestId.bits = s.requestId.bits := by rw [hCounter, SerialId.get_bits]
  refine ⟨n + 1, Nat.succ_le_of_lt (hn.trans_lt hStarted), ?_, fun id => ?_⟩
  · rw [hBits, SerialId.getMany_succ, ← hEq, hCounter]
  · rw [hBits, SerialId.getMany_succ, ← hEq, List.count_append]
    exact (hCount id).trans (Nat.add_le_add_right (hLe id) _)

theorem advance_idsIssued {i : Nat} (h : s.advance i = some s') (hIssued : s.IdsIssued) :
    s'.IdsIssued := by
  have hLe := count_heldId_le s i
  have hStarted := advance_startedCalls h
  cases advances_of_advance h with
  | subscribe hOld =>
      refine hIssued.of_get (by simp [hStarted, hOld, Stage.started]) rfl fun id => ?_
      simp only [count_takenIds, count_heldIds_setStage, postedKeys_setStage, logs_takeRequestId,
        heldIds_takeRequestId, hOld, Option.some_bind, Option.map_some', Stage.heldId,
        RequestKey.serial?, Option.toList_none, Option.toList_some, List.count_nil]
      omega
  | request hOld hRequest =>
      refine hIssued.of_get (by simp [hStarted, hOld, Stage.started]) rfl fun id => ?_
      rcases Operation.request_serial hRequest with hKey | hKey <;>
        simp only [count_takenIds, count_heldIds_setStage, postedKeys_setStage, logs_takeRequestId,
          heldIds_takeRequestId, hOld, Option.some_bind, Option.map_some', Stage.heldId, hKey,
          Option.toList_none, Option.toList_some, List.count_nil] <;>
        omega
  | @postRequest _ key _ hOld =>
      refine hIssued.of_count (hStarted ▸ Nat.le_add_right _ _) (by simp [setStage]) fun id => ?_
      have hLe := hLe id
      cases hKey : key.serial? <;>
        simp only [count_takenIds, count_heldIds_setStage, postedKeys_setStage, postedKeys_post,
          heldIds_post, post_calls, hOld, Option.some_bind, Option.map_some', Stage.heldId,
          Register.key?, hKey, Option.toList_none, Option.toList_some, List.filterMap_append,
          List.filterMap_cons, List.filterMap_nil, List.count_append, List.count_nil] at hLe ⊢ <;>
        omega
  | _ hOld =>
      refine hIssued.of_count (hStarted ▸ Nat.le_add_right _ _) (by simp [setStage]) fun id => ?_
      have hLe := hLe id
      try split
      all_goals
        simp only [count_takenIds, count_heldIds_setStage, postedKeys_setStage, postedKeys_post,
          postedKeys_enqueue, logs_setError, heldIds_post, heldIds_enqueue, heldIds_setError,
          post_calls, enqueue_calls, setError_calls, hOld, Option.some_bind, Option.map_some',
          Stage.heldId, Register.key?, RequestKey.serial_producerSend, Option.toList_none,
          Option.toList_some, List.filterMap_append, List.filterMap_nil, List.count_append,
          List.count_nil, List.append_nil] at hLe ⊢
        try split
        all_goals omega

theorem step_idsIssued {a : Action} (h : s.step a = some s') (hIssued : s.IdsIssued) :
    s'.IdsIssued := by
  by_cases hAdvance : ∃ i, a = .advance i
  · obtain ⟨i, rfl⟩ := hAdvance
    exact advance_idsIssued h hIssued
  · have hOther : ∀ i, a ≠ .advance i := fun i hEq => hAdvance ⟨i, hEq⟩
    obtain ⟨hCounter, hCalls⟩ := step_calls_of_ne_advance h hOther
    have hPosted : s'.postedKeys = s.postedKeys :=
      congrArg (List.filterMap _) (step_logs_of_ne_advance h hOther).1
    rcases hCalls with hCalls | ⟨op, hCalls⟩ <;>
      refine hIssued.of_count (by simp [startedCalls, hCalls, Stage.started]) hCounter fun id => ?_ <;>
      simp [count_takenIds, hPosted, heldIds, hCalls, Stage.heldId]

end System

theorem Reachable.idsIssued {s : System} (h : Reachable s) : s.IdsIssued := by
  induction h with
  | init => exact ⟨0, Nat.zero_le _, rfl, fun id => by
      simp [System.takenIds, System.heldIds, System.postedKeys, System.init]⟩
  | step a _ hStep ih => exact System.step_idsIssued hStep ih

theorem RequestKey.serial?_eq_some {key : RequestKey} {id : UInt64} :
    key.serial? = some id ↔ key = .requestId id := by
  cases key <;> simp [RequestKey.serial?]

/-- A list of keys has no repetition exactly when its request ids have none and
its other keys have none. -/
theorem RequestKey.nodup_iff_serials {keys : List RequestKey} :
    keys.Nodup ↔ (keys.filterMap RequestKey.serial?).Nodup ∧
      (keys.filter fun key => key.serial?.isNone).Nodup := by
  induction keys with
  | nil => simp
  | cons key keys ih =>
      rw [List.nodup_cons, ih]
      cases hKey : key.serial? with
      | none =>
          simp only [List.filterMap_cons_none hKey, List.filter_cons, hKey, Option.isNone_none,
            ite_true, List.nodup_cons, List.mem_filter, and_true]
          exact and_left_comm
      | some id =>
          have hMem : key ∈ keys ↔ id ∈ keys.filterMap RequestKey.serial? := by
            rw [List.mem_filterMap]
            refine ⟨fun hIn => ⟨key, hIn, hKey⟩, fun ⟨key', hIn, hKey'⟩ => ?_⟩
            rwa [RequestKey.serial?_eq_some.1 hKey, ← RequestKey.serial?_eq_some.1 hKey']
          simp only [List.filterMap_cons_some hKey, List.filter_cons, hKey, Option.isNone_some,
            Bool.false_eq_true, ite_false, List.nodup_cons, hMem]
          exact and_assoc.symm

/-- Every request id a connection's calls hold or have posted was returned by
one of the gets on its one counter, no more often than it was returned, and
each get was made by a call's first step.  So as long as at most `2 ^ w` calls
have started (`w` the width of `usize`, capped at the 64 bits of `u64`), no two
calls hold or have posted the same request id, and a key is posted twice only
if two keys of `send_message` calls, which carry the caller's producer and
sequence ids, coincide. -/
theorem request_ids_from_counter {s : System} (h : Reachable s) :
    ∃ n ≤ s.startedCalls, s.requestId = ((SerialId.new s.requestId.bits).getMany n).2 ∧
      s.takenIds.Subperm ((SerialId.new s.requestId.bits).getMany n).1 ∧
      (s.startedCalls ≤ 2 ^ min s.requestId.bits 64 → s.takenIds.Nodup ∧
        (s.postedKeys.Nodup ↔ (s.postedKeys.filter fun key => key.serial?.isNone).Nodup)) := by
  obtain ⟨n, hn, hCounter, hCount⟩ := h.idsIssued
  refine ⟨n, hn, hCounter, List.subperm_ext_iff.2 fun id _ => hCount id, fun hBound => ?_⟩
  have hValues := List.nodup_iff_count_le_one.1
    ((SerialId.getMany_new_nodup_iff _ _).2 (hn.trans hBound))
  have hTaken : s.takenIds.Nodup :=
    List.nodup_iff_count_le_one.2 fun id => (hCount id).trans (hValues id)
  have hPosted : (s.postedKeys.filterMap RequestKey.serial?).Nodup :=
    hTaken.sublist (List.sublist_append_left _ _)
  exact ⟨hTaken, RequestKey.nodup_iff_serials.trans (and_iff_right hPosted)⟩

/-- Two lookups; the second takes its request id first, then the first takes
its id and posts its registration. -/
def lookupsInterleaved : System :=
  ((System.init 64).exec [.invoke (.lookupTopic "a" false), .invoke (.lookupTopic "b" false),
    .advance 1, .advance 0, .advance 0]).getD (System.init 64)

/-- Two calls have started, well within the counter's width, so the ids they
took, the counter's first two values, differ. -/
theorem lookups_interleaved_ids_fresh :
    lookupsInterleaved.takenIds = [1, 0] ∧ lookupsInterleaved.takenIds.Nodup := by
  have hReach : Reachable lookupsInterleaved := (Reachable.init 64).exec
    (show (System.init 64).exec [.invoke (.lookupTopic "a" false),
      .invoke (.lookupTopic "b" false), .advance 1, .advance 0, .advance 0] =
        some lookupsInterleaved from rfl)
  obtain ⟨_, -, -, -, hFresh⟩ := request_ids_from_counter hReach
  exact ⟨by decide, (hFresh (by decide)).1⟩

end PulsarConnection
