import PulsarConnection.Invariants
import PulsarConnection.Shutdown

/-!
# Errors a live connection hands to its callers

While the Receiver and the Writer both run, the only code that records an
error in the shared cell is `send_message` finding its resolver cancelled.  The
Receiver drops a waiting resolver only where `pending_requests.insert` replaces
it, that is when a second `Register::Request` with the same key arrives.  Two
calls that use one key, such as two sends with the same producer and sequence
ids, therefore make a connection invalid while both of its tasks still run.

When no request key is posted twice, the cell stays empty while both tasks
run, no request resolver is dropped, and a server error or an unexpected reply
is returned only by the call whose resolver the Receiver handed that reply,
under a key the call registered.
-/

namespace PulsarConnection

namespace System

variable {s s' : System}

/-- The keys of the registrations the Receiver handled are, in order, among
the keys posted. -/
theorem processedKeys_sublist (h : s.RegistrationsQueued) :
    List.Sublist (s.processed.filterMap Event.requestKey) s.postedKeys := by
  have hKeys : (s.processed.filterMap Event.registration?).filterMap Register.key? =
      s.processed.filterMap Event.requestKey := by
    rw [List.filterMap_filterMap]
    congr 1
    funext e
    rcases e with (_ | _ | _) | _ <;> rfl
  rw [← hKeys]
  exact h.sublist_posts _

/-- With no key posted twice, a Receiver that has not exited has dropped no
request resolver. -/
theorem responses_ne_canceled (hRun : s.ReceiverRun) (hLogged : s.ResponsesLogged)
    (hQueued : s.RegistrationsQueued) (hPhase : s.phase ≠ .exited) (hKeys : s.postedKeys.Nodup)
    (r : Nat) : s.responses r ≠ .canceled := by
  intro hCanceled
  rcases (hLogged r).2 hCanceled with hCancel | hExited
  · have hNone := Receiver.run_no_cancel ((processedKeys_sublist hQueued).nodup hKeys) r
    rw [hRun] at hNone
    exact hNone hCancel
  · exact hPhase hExited

/-- A step after which both tasks still run, taken while no request resolver
is dropped, leaves an empty cell empty. -/
theorem step_error_none {a : Action} (h : s.step a = some s') (hError : s.error.error = none)
    (hPhase : s'.phase ≠ .exited) (hWriter : s'.writer = .running)
    (hLive : ∀ r, s.responses r ≠ .canceled) : s'.error.error = none := by
  cases a with
  | advance i =>
      cases advances_of_advance h with
      | consumerRefused _ hClosed =>
          refine absurd ((advance_posts h).1.trans ?_) hPhase
          simpa [registrationsOpen] using hClosed
      | dropped _ hCanceled => exact absurd hCanceled (hLive i)
      | _ => simpa [setStage] using hError
  | poll =>
      cases polls_of_poll h with
      | shutdown | senderGone | fail | close => exact absurd rfl hPhase
      | drain | read => simpa using hError
      | _ => exact hError
  | write o =>
      rcases write_cases h with ⟨_, _, -, -, -, rfl⟩ | ⟨_, _, _, -, -, -, rfl⟩ | ⟨-, -, -, -, rfl⟩
      · exact hError
      · cases hWriter
      · cases hWriter
  | takeError => cases h; rfl
  | invoke | answer | dropConnection =>
      simp only [step] at h
      split at h <;> cases h
      exact hError
  | push => cases h; exact hError

/-- While both tasks run and no request key has been posted twice, the cell
is empty. -/
def CellEmptyWhileLive (s : System) : Prop :=
  s.phase ≠ .exited → s.writer = .running → s.postedKeys.Nodup → s.error.error = none

end System

theorem Reachable.cellEmptyWhileLive {s : System} (h : Reachable s) : s.CellEmptyWhileLive := by
  induction h with
  | init => intro _ _ _; rfl
  | @step s s' a hReach hStep ih =>
      intro hPhase hWriter hKeys
      have hPhase₀ : s.phase ≠ .exited := fun hExited => hPhase (System.step_exited hStep hExited).1
      have hWriter₀ : s.writer = .running := by
        by_contra hStopped
        exact hStopped ((System.step_stopped hStep hStopped).1.symm.trans hWriter)
      have hKeys₀ : s.postedKeys.Nodup :=
        ((System.step_extends_posts hStep).sublist.filterMap _).nodup hKeys
      exact System.step_error_none hStep (ih hPhase₀ hWriter₀ hKeys₀) hPhase hWriter
        (System.responses_ne_canceled hReach.receiverRun hReach.responsesLogged
          hReach.registrationsQueued hPhase₀ hKeys₀)

open System in
/-- While neither transport task has ended and no request key has been posted
twice, the cell is empty, no request resolver has been dropped, and a call
that returned a server error or an unexpected reply returned what
`extract_message` made of a reply handed to its own resolver, routed under a
key that call registered. -/
theorem unique_keys_keep_cell_empty {s : System} (h : Reachable s) (hReceiver : s.phase ≠ .exited)
    (hWriter : s.writer = .running) (hKeys : s.postedKeys.Nodup) :
    s.error.error = none ∧ (∀ r, s.responses r ≠ .canceled) ∧
    ∀ i call e, s.calls[i]? = some call → call.stage = .returned (.error e) → e ≠ .disconnected →
      ∃ msg key, .respond i msg ∈ s.effects ∧ msg.resolverKey = some key ∧
        .registration (.request key i) ∈ s.processed ∧
        extractMessage msg call.operation.extract = .error e := by
  refine ⟨h.cellEmptyWhileLive hReceiver hWriter hKeys,
    responses_ne_canceled h.receiverRun h.responsesLogged h.registrationsQueued hReceiver hKeys,
    fun i call e hCall hStage hNe => ?_⟩
  obtain ⟨msg, hMem, hExtract⟩ := h.resultsLogged i call e hCall hStage hNe
  have hRun : Receiver.new.run s.processed = (s.receiver, s.effects) := h.receiverRun
  obtain ⟨key, hKey, hRegistered⟩ := Receiver.run_respond_mem (by rw [hRun]; exact hMem)
  exact ⟨msg, key, hMem, hKey, hRegistered, hExtract⟩

/-- A `lookup_topic` that the broker rejects with a server error. -/
def lookupRejected : System :=
  ((System.init 64).exec [.invoke (.lookupTopic "t" false), .advance 0, .advance 0, .advance 0,
    .write none, .answer 0 ⟨{ error := some ⟨0, 3, "topic not found"⟩ }⟩, .poll, .poll, .poll,
    .poll, .advance 0]).getD (System.init 64)

/-- The rejection reaches the caller and leaves the connection valid. -/
theorem lookup_rejection_keeps_cell_empty :
    lookupRejected.error.error = none ∧
      ∃ msg key, .respond 0 msg ∈ lookupRejected.effects ∧ msg.resolverKey = some key ∧
        .registration (.request key 0) ∈ lookupRejected.processed ∧
        extractMessage msg (Operation.lookupTopic "t" false).extract =
          .error (.pulsarError 3 (some "topic not found")) := by
  have hReach : Reachable lookupRejected := (Reachable.init 64).exec
    (show (System.init 64).exec [.invoke (.lookupTopic "t" false), .advance 0, .advance 0,
      .advance 0, .write none, .answer 0 ⟨{ error := some ⟨0, 3, "topic not found"⟩ }⟩, .poll,
      .poll, .poll, .poll, .advance 0] = some lookupRejected from rfl)
  obtain ⟨hEmpty, -, hResults⟩ := unique_keys_keep_cell_empty hReach (by decide) rfl (by decide)
  exact ⟨hEmpty, hResults 0 ⟨.lookupTopic "t" false,
    .returned (.error (.pulsarError 3 (some "topic not found")))⟩ _ (by decide) rfl (by decide)⟩

/-- Two `send` calls with the same producer and sequence ids, each through both
of its sends, and the Receiver draining the two registrations. -/
def reusedKey : System :=
  ((System.init 64).exec [.invoke (.send 7 "p" 0 ⟨none⟩), .invoke (.send 7 "p" 0 ⟨none⟩),
    .advance 0, .advance 0, .advance 0, .advance 1, .advance 1, .advance 1, .poll, .poll, .poll,
    .advance 0]).getD (System.init 64)

/-- The second registration replaces the first resolver, and the first caller,
finding it cancelled, sets the cell: the connection is invalid although the
Receiver is still draining, the Writer runs, and the broker has sent nothing. -/
theorem reused_key_sets_error :
    reusedKey.phase = .draining ∧ reusedKey.writer = .running ∧ reusedKey.connectionAlive ∧
      reusedKey.broker = [] ∧ reusedKey.responses 0 = .canceled ∧
      reusedKey.calls.map (·.stage) = [.returned System.disconnected, .awaiting] ∧
      reusedKey.error.error = some .disconnected := by
  decide

end PulsarConnection
