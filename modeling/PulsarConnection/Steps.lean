import PulsarConnection.Transitions

/-!
# What a step can do

Each step of the connection changes a few parts of the state in a few ways.
This module says so once per part, as relations between the state before and
after that every helper of `System.step` satisfies and that compose: on the
outbound side a step other than the Writer's only enqueues frames, and a step
only ever sets the error cell, except `Connection::error`.  Invariants are then
proved from these relations instead of from the definitions.
-/

namespace PulsarConnection

namespace System

variable {s s' s'' : System}

/-! ## The outbound side -/

/-- `s'` extends `s` on the outbound side by the frames `frames`, which are
enqueued only while the Writer runs, and the Writer's own side is untouched. -/
def Enqueues (s s' : System) : Prop :=
  s'.writer = s.writer ∧ s'.sink = s.sink ∧
    ∃ frames, s'.outbound = s.outbound ++ frames ∧ s'.enqueued = s.enqueued ++ frames ∧
      (frames = [] ∨ s.writer = .running)

theorem enqueues_of_eq (hWriter : s'.writer = s.writer) (hSink : s'.sink = s.sink)
    (hOutbound : s'.outbound = s.outbound) (hEnqueued : s'.enqueued = s.enqueued) :
    Enqueues s s' :=
  ⟨hWriter, hSink, [], by simp [hOutbound], by simp [hEnqueued], .inl rfl⟩

theorem Enqueues.refl (s : System) : Enqueues s s :=
  enqueues_of_eq rfl rfl rfl rfl

theorem Enqueues.trans (first : Enqueues s s') (second : Enqueues s' s'') : Enqueues s s'' := by
  obtain ⟨hWriter, hSink, frames, hOutbound, hEnqueued, hRunning⟩ := first
  obtain ⟨hWriter', hSink', frames', hOutbound', hEnqueued', hRunning'⟩ := second
  refine ⟨hWriter'.trans hWriter, hSink'.trans hSink, frames ++ frames', by simp [hOutbound',
    hOutbound], by simp [hEnqueued', hEnqueued], ?_⟩
  rcases hRunning with rfl | hRunning
  · rcases hRunning' with rfl | hRunning'
    · exact .inl rfl
    · exact .inr (hWriter ▸ hRunning')
  · exact .inr hRunning

theorem enqueue_enqueues (s : System) (msg : Message) : Enqueues s (s.enqueue msg) := by
  unfold enqueue
  split
  · rename_i hOpen
    exact ⟨rfl, rfl, [msg], rfl, rfl, .inr (by simpa [outboundOpen] using hOpen)⟩
  · exact Enqueues.refl s

theorem post_enqueues (s : System) (r : Register) : Enqueues s (s.post r) := by
  unfold post
  split
  · exact enqueues_of_eq rfl rfl rfl rfl
  · cases r <;> exact enqueues_of_eq rfl rfl rfl rfl

theorem setStage_enqueues (s : System) (i : Nat) (stage : Stage) :
    Enqueues s (s.setStage i stage) :=
  enqueues_of_eq rfl rfl rfl rfl

theorem setError_enqueues (s : System) (e : ConnectionError) : Enqueues s (s.setError e) :=
  enqueues_of_eq rfl rfl rfl rfl

theorem apply_enqueues (s : System) : ∀ effect, Enqueues s (s.apply effect)
  | .respond .. | .cancel .. | .deliver .. | .release .. | .pong .. | .cancelPing .. =>
      enqueues_of_eq rfl rfl rfl rfl
  | .sendPong => enqueue_enqueues s Messages.pong

theorem foldl_apply_enqueues (effects : List Effect) (s : System) :
    Enqueues s (effects.foldl apply s) := by
  induction effects generalizing s with
  | nil => exact Enqueues.refl s
  | cons effect effects ih => exact (apply_enqueues s effect).trans (ih _)

theorem dispatch_enqueues (s : System) (e : Event) : Enqueues s (s.dispatch e) :=
  (enqueues_of_eq rfl rfl rfl rfl).trans (foldl_apply_enqueues _ _)

theorem exit_enqueues (s : System) : Enqueues s s.exit :=
  enqueues_of_eq rfl rfl rfl rfl

theorem advance_enqueues {i : Nat} (h : s.advance i = some s') : Enqueues s s' :=
  (advances_of_advance h).of_helpers Enqueues.trans post_enqueues enqueue_enqueues
    setError_enqueues (fun _ => enqueues_of_eq rfl rfl rfl rfl) (setStage_enqueues · i)

theorem poll_enqueues (h : s.poll = some s') : Enqueues s s' := by
  cases polls_of_poll h with
  | drain | read => exact (enqueues_of_eq rfl rfl rfl rfl).trans (dispatch_enqueues _ _)
  | shutdown => exact exit_enqueues s
  | senderGone => exact (setError_enqueues _ _).trans (exit_enqueues _)
  | fail | close =>
      refine Enqueues.trans ?_ (exit_enqueues _)
      exact (enqueues_of_eq rfl rfl rfl rfl).trans (setError_enqueues _ _)
  | wake | drained | readAll => exact enqueues_of_eq rfl rfl rfl rfl

/-- Every step other than the Writer's only enqueues frames. -/
theorem step_enqueues {a : Action} (h : s.step a = some s') (hWriter : ∀ o, a ≠ .write o) :
    Enqueues s s' := by
  cases a with
  | invoke op =>
      simp only [step] at h
      split at h <;> cases h
      exact enqueues_of_eq rfl rfl rfl rfl
  | advance i => exact advance_enqueues h
  | poll => exact poll_enqueues h
  | write o => exact absurd rfl (hWriter o)
  | answer i reply =>
      simp only [step] at h
      split at h <;> cases h
      exact enqueues_of_eq rfl rfl rfl rfl
  | push item =>
      cases h
      exact enqueues_of_eq rfl rfl rfl rfl
  | takeError =>
      cases h
      exact enqueues_of_eq rfl rfl rfl rfl
  | dropConnection =>
      simp only [step] at h
      split at h <;> cases h
      exact enqueues_of_eq rfl rfl rfl rfl

/-- Everything a Writer step can do. -/
theorem write_cases {o : Option ConnectionError} (h : s.write o = some s') :
    (∃ msg rest, s.writer = .running ∧ s.outbound = msg :: rest ∧ o = none ∧
      s' = { s with outbound := rest, sink := s.sink ++ [msg] }) ∨
    (∃ msg rest e, s.writer = .running ∧ s.outbound = msg :: rest ∧ o = some e ∧
      s' = { s with outbound := [], sink := s.sink ++ [msg], writer := .failed,
                    error := s.error.set e }) ∨
    (s.writer = .running ∧ s.outbound = [] ∧ s.connectionAlive = false ∧ s.phase = .exited ∧
      s' = { s with writer := .finished }) := by
  unfold write at h
  split at h
  · rename_i msg rest hWriter hOutbound
    cases o with
    | none => exact .inl ⟨msg, rest, hWriter, hOutbound, rfl, (Option.some.inj h).symm⟩
    | some e => exact .inr (.inl ⟨msg, rest, e, hWriter, hOutbound, rfl, (Option.some.inj h).symm⟩)
  · rename_i hWriter hOutbound
    split at h
    · rename_i hClosed
      simp only [Bool.and_eq_true, Bool.not_eq_true', decide_eq_true_eq] at hClosed
      exact .inr (.inr ⟨hWriter, hOutbound, hClosed.1, hClosed.2, (Option.some.inj h).symm⟩)
    · cases h
  · cases h

/-! ## The error cell -/

/-- `s'` has the cell of `s`, or that cell after one more `set`. -/
def SetsError (s s' : System) : Prop :=
  s'.error = s.error ∨ ∃ e, s'.error = s.error.set e

theorem SetsError.trans (first : SetsError s s') (second : SetsError s' s'') : SetsError s s'' := by
  rcases first with hSame | ⟨e, hSet⟩ <;> rcases second with hSame' | ⟨e', hSet'⟩
  · exact .inl (hSame'.trans hSame)
  · exact .inr ⟨e', by rw [hSet', hSame]⟩
  · exact .inr ⟨e, by rw [hSame', hSet]⟩
  · exact .inr ⟨e, by rw [hSet', hSet, SharedError.set_set]⟩

/-- A set cell is left as it is. -/
theorem SetsError.eq_of_isSet (h : SetsError s s') (hSet : s.error.isSet) : s'.error = s.error := by
  rcases h with h | ⟨e, h⟩
  · exact h
  · rw [h, SharedError.set_of_isSet hSet]

@[simp]
theorem post_error (s : System) (r : Register) : (s.post r).error = s.error := by
  unfold post
  split
  · rfl
  · cases r <;> rfl

@[simp]
theorem enqueue_error (s : System) (msg : Message) : (s.enqueue msg).error = s.error := by
  unfold enqueue
  split <;> rfl

@[simp]
theorem apply_error (s : System) (effect : Effect) : (s.apply effect).error = s.error := by
  cases effect <;> simp [apply]

@[simp]
theorem foldl_apply_error (effects : List Effect) (s : System) :
    (effects.foldl apply s).error = s.error := by
  induction effects generalizing s with
  | nil => rfl
  | cons effect effects ih => simp [ih]

@[simp]
theorem dispatch_error (s : System) (e : Event) : (s.dispatch e).error = s.error := by
  simp [dispatch]

theorem advance_setsError {i : Nat} (h : s.advance i = some s') : SetsError s s' :=
  (advances_of_advance h).of_helpers SetsError.trans (fun t r => .inl (post_error t r))
    (fun t msg => .inl (enqueue_error t msg)) (fun _ e => .inr ⟨e, rfl⟩) (fun _ => .inl rfl)
    (fun _ _ => .inl rfl)

theorem poll_setsError (h : s.poll = some s') : SetsError s s' := by
  cases polls_of_poll h with
  | drain | read => exact .inl (dispatch_error _ _)
  | senderGone | fail | close => exact .inr ⟨_, rfl⟩
  | _ => exact .inl rfl

theorem write_setsError {o : Option ConnectionError} (h : s.write o = some s') : SetsError s s' := by
  rcases write_cases h with ⟨-, -, -, -, -, rfl⟩ | ⟨-, -, e, -, -, -, rfl⟩ | ⟨-, -, -, -, rfl⟩
  · exact .inl rfl
  · exact .inr ⟨e, rfl⟩
  · exact .inl rfl

/-- Every step other than `Connection::error` only ever sets the cell. -/
theorem step_setsError {a : Action} (h : s.step a = some s') (hTake : a ≠ .takeError) :
    SetsError s s' := by
  cases a with
  | advance i => exact advance_setsError h
  | poll => exact poll_setsError h
  | write o => exact write_setsError h
  | takeError => exact absurd rfl hTake
  | invoke | answer | dropConnection =>
      simp only [step] at h
      split at h <;> cases h
      exact .inl rfl
  | push => cases h; exact .inl rfl

/-! ## The registration side -/

/-- `s'` extends `s` on the registration side by posting `rs`, each of which
succeeds exactly when the Receiver is there, and a failed post drops the
resolver it carried; the Receiver's own side and the inbound stream are
untouched. -/
def Posts (s s' : System) : Prop :=
  s'.phase = s.phase ∧ s'.receiver = s.receiver ∧ s'.processed = s.processed ∧
    s'.effects = s.effects ∧ s'.inbound = s.inbound ∧ s'.broker = s.broker ∧
    (∀ r, s'.responses r = s.responses r ∨
      (s'.responses r = .canceled ∧ s.registrationsOpen = false)) ∧
    ∃ rs : List Register, s'.posts = s.posts ++ rs.map (·, s.registrationsOpen) ∧
      s'.registrations = s.registrations ++ if s.registrationsOpen then rs else []

theorem posts_of_eq (hPhase : s'.phase = s.phase) (hReceiver : s'.receiver = s.receiver)
    (hProcessed : s'.processed = s.processed) (hEffects : s'.effects = s.effects)
    (hInbound : s'.inbound = s.inbound) (hBroker : s'.broker = s.broker)
    (hResponses : s'.responses = s.responses) (hPosts : s'.posts = s.posts)
    (hRegistrations : s'.registrations = s.registrations) : Posts s s' :=
  ⟨hPhase, hReceiver, hProcessed, hEffects, hInbound, hBroker, fun _ => .inl (by rw [hResponses]),
    [], by simp [hPosts], by simp [hRegistrations]⟩

theorem Posts.refl (s : System) : Posts s s :=
  posts_of_eq rfl rfl rfl rfl rfl rfl rfl rfl rfl

theorem Posts.trans (first : Posts s s') (second : Posts s' s'') : Posts s s'' := by
  obtain ⟨hPhase, hReceiver, hProcessed, hEffects, hInbound, hBroker, hResponses, rs, hPosts,
    hRegs⟩ := first
  obtain ⟨hPhase', hReceiver', hProcessed', hEffects', hInbound', hBroker', hResponses', rs',
    hPosts', hRegs'⟩ := second
  have hOpen : s'.registrationsOpen = s.registrationsOpen := by simp [registrationsOpen, hPhase]
  refine ⟨hPhase'.trans hPhase, hReceiver'.trans hReceiver, hProcessed'.trans hProcessed,
    hEffects'.trans hEffects, hInbound'.trans hInbound, hBroker'.trans hBroker, fun r => ?_,
    rs ++ rs', ?_, ?_⟩
  · rcases hResponses' r with hSame' | ⟨hDropped', hClosed'⟩
    · rw [hSame']
      exact hResponses r
    · exact .inr ⟨hDropped', hOpen ▸ hClosed'⟩
  · simp [hPosts', hPosts, hOpen]
  · rw [hRegs', hRegs, hOpen]
    split <;> simp

theorem post_posts (s : System) (r : Register) : Posts s (s.post r) := by
  unfold post
  split
  · rename_i hOpen
    exact ⟨rfl, rfl, rfl, rfl, rfl, rfl, fun _ => .inl rfl, [r], by simp [hOpen], by simp [hOpen]⟩
  · rename_i hClosed
    refine ⟨?_, ?_, ?_, ?_, ?_, ?_, fun r' => ?_, [r], ?_, ?_⟩ <;> cases r <;> simp [hClosed]
    rename_i resolver
    by_cases hr : r' = resolver <;> simp [Function.update, hr]

theorem setStage_posts (s : System) (i : Nat) (stage : Stage) : Posts s (s.setStage i stage) :=
  Posts.refl s

theorem setError_posts (s : System) (e : ConnectionError) : Posts s (s.setError e) :=
  Posts.refl s

theorem enqueue_posts (s : System) (msg : Message) : Posts s (s.enqueue msg) := by
  unfold enqueue
  split
  · exact posts_of_eq rfl rfl rfl rfl rfl rfl rfl rfl rfl
  · exact Posts.refl s

theorem advance_posts {i : Nat} (h : s.advance i = some s') : Posts s s' :=
  (advances_of_advance h).of_helpers Posts.trans post_posts enqueue_posts setError_posts
    (fun _ => posts_of_eq rfl rfl rfl rfl rfl rfl rfl rfl rfl) (setStage_posts · i)

/-- Whether a step is the Receiver's own or hands it an inbound item. -/
def Action.reachesReceiver : Action → Bool
  | .poll | .answer .. | .push .. => true
  | _ => false

/-- Every step that neither is the Receiver's nor feeds its inbound stream only
posts registrations. -/
theorem step_posts {a : Action} (h : s.step a = some s') (hOther : a.reachesReceiver = false) :
    Posts s s' := by
  cases a with
  | advance i => exact advance_posts h
  | poll | answer | push => cases hOther
  | write o =>
      rcases write_cases h with ⟨-, -, -, -, -, rfl⟩ | ⟨-, -, -, -, -, -, rfl⟩ | ⟨-, -, -, -, rfl⟩ <;>
        exact posts_of_eq rfl rfl rfl rfl rfl rfl rfl rfl rfl
  | takeError => cases h; exact Posts.refl s
  | invoke | dropConnection =>
      simp only [step] at h
      split at h <;> cases h
      exact posts_of_eq rfl rfl rfl rfl rfl rfl rfl rfl rfl

/-! ## Handling one item -/

/-- Carrying out effects changes only the resolvers, the ping slots, the
delivery channels and the outbound channel. -/
theorem foldl_apply_eq (effects : List Effect) (s : System) :
    ∃ responses pongs deliveries outbound enqueued,
      effects.foldl apply s = { s with responses, pongs, deliveries, outbound, enqueued } := by
  induction effects generalizing s with
  | nil => exact ⟨_, _, _, _, _, rfl⟩
  | cons effect effects ih =>
      obtain ⟨responses, pongs, deliveries, outbound, enqueued, hEq⟩ := ih (s.apply effect)
      refine ⟨responses, pongs, deliveries, outbound, enqueued, ?_⟩
      rw [List.foldl_cons, hEq]
      cases effect <;> simp only [apply, enqueue]
      split <;> rfl

/-- The Receiver handles one item: its tables and logs move on, and the rest of
the state changes only through what handling the item did. -/
theorem dispatch_eq (s : System) (e : Event) :
    ∃ responses pongs deliveries outbound enqueued,
      s.dispatch e =
        { s with
          receiver := (s.receiver.handle e).1, processed := s.processed ++ [e],
          effects := s.effects ++ (s.receiver.handle e).2, responses, pongs, deliveries, outbound,
          enqueued } :=
  foldl_apply_eq _ _

@[simp]
theorem dispatch_phase (s : System) (e : Event) : (s.dispatch e).phase = s.phase := by
  obtain ⟨_, _, _, _, _, hEq⟩ := dispatch_eq s e
  rw [hEq]

@[simp]
theorem dispatch_registrations (s : System) (e : Event) :
    (s.dispatch e).registrations = s.registrations := by
  obtain ⟨_, _, _, _, _, hEq⟩ := dispatch_eq s e
  rw [hEq]

@[simp]
theorem dispatch_posts (s : System) (e : Event) : (s.dispatch e).posts = s.posts := by
  obtain ⟨_, _, _, _, _, hEq⟩ := dispatch_eq s e
  rw [hEq]

@[simp]
theorem dispatch_inbound (s : System) (e : Event) : (s.dispatch e).inbound = s.inbound := by
  obtain ⟨_, _, _, _, _, hEq⟩ := dispatch_eq s e
  rw [hEq]

@[simp]
theorem dispatch_broker (s : System) (e : Event) : (s.dispatch e).broker = s.broker := by
  obtain ⟨_, _, _, _, _, hEq⟩ := dispatch_eq s e
  rw [hEq]

@[simp]
theorem dispatch_receiver (s : System) (e : Event) :
    (s.dispatch e).receiver = (s.receiver.handle e).1 := by
  obtain ⟨_, _, _, _, _, hEq⟩ := dispatch_eq s e
  rw [hEq]

@[simp]
theorem dispatch_processed (s : System) (e : Event) :
    (s.dispatch e).processed = s.processed ++ [e] := by
  obtain ⟨_, _, _, _, _, hEq⟩ := dispatch_eq s e
  rw [hEq]

@[simp]
theorem dispatch_effects (s : System) (e : Event) :
    (s.dispatch e).effects = s.effects ++ (s.receiver.handle e).2 := by
  obtain ⟨_, _, _, _, _, hEq⟩ := dispatch_eq s e
  rw [hEq]

/-! ## The calls -/

@[simp]
theorem post_calls (s : System) (r : Register) : (s.post r).calls = s.calls := by
  unfold post
  split
  · rfl
  · cases r <;> rfl

@[simp]
theorem enqueue_calls (s : System) (msg : Message) : (s.enqueue msg).calls = s.calls := by
  unfold enqueue
  split <;> rfl

@[simp]
theorem foldl_apply_calls (effects : List Effect) (s : System) :
    (effects.foldl apply s).calls = s.calls := by
  induction effects generalizing s with
  | nil => rfl
  | cons effect effects ih => cases effect <;> simp [ih, apply]

@[simp]
theorem dispatch_calls (s : System) (e : Event) : (s.dispatch e).calls = s.calls := by
  simp [dispatch]

theorem setStage_call_of_ne (s : System) {i j : Nat} (stage : Stage) (hOther : i ≠ j) :
    (s.setStage i stage).calls[j]? = s.calls[j]? :=
  List.getElem?_modify_ne _ _ hOther

theorem setStage_call {i : Nat} {op : Operation} {stage : Stage}
    (hCall : s.calls[i]? = some ⟨op, stage⟩) (stage' : Stage) :
    (s.setStage i stage').calls[i]? = some ⟨op, stage'⟩ := by
  simp [setStage, hCall]

theorem advance_call_of_ne {i j : Nat} (h : s.advance i = some s') (hOther : i ≠ j) :
    s'.calls[j]? = s.calls[j]? :=
  (advances_of_advance h).of_helpers (R := fun t t' => t'.calls[j]? = t.calls[j]?)
    (fun first second => second.trans first) (fun t r => congrArg (·[j]?) (post_calls t r))
    (fun t msg => congrArg (·[j]?) (enqueue_calls t msg)) (fun _ _ => rfl) (fun _ => rfl)
    (fun t stage => setStage_call_of_ne t stage hOther)

theorem poll_calls (h : s.poll = some s') : s'.calls = s.calls := by
  cases polls_of_poll h with
  | drain | read => exact dispatch_calls _ _
  | _ => rfl

/-- A step other than call `j`'s own leaves call `j` as it is. -/
theorem step_call_of_ne {a : Action} {j : Nat} {call : Call} (h : s.step a = some s')
    (hOther : a ≠ .advance j) (hCall : s.calls[j]? = some call) : s'.calls[j]? = some call := by
  cases a with
  | advance i => rw [advance_call_of_ne h fun hEq => hOther (hEq ▸ rfl), hCall]
  | poll => rw [poll_calls h, hCall]
  | write o =>
      rcases write_cases h with ⟨-, -, -, -, -, rfl⟩ | ⟨-, -, -, -, -, -, rfl⟩ | ⟨-, -, -, -, rfl⟩ <;>
        exact hCall
  | invoke =>
      simp only [step] at h
      split at h <;> cases h
      rw [List.getElem?_append_left (List.getElem?_eq_some_iff.1 hCall).1, hCall]
  | answer | dropConnection =>
      simp only [step] at h
      split at h <;> cases h
      exact hCall
  | push | takeError => cases h; exact hCall

end System

/-- Every state a schedule leads to from a reachable state is reachable. -/
theorem Reachable.exec {s s' : System} (h : Reachable s) :
    ∀ {actions : List System.Action}, s.exec actions = some s' → Reachable s'
  | [], hExec => by cases hExec; exact h
  | a :: rest, hExec => by
      simp only [System.exec, Option.bind_eq_some] at hExec
      obtain ⟨s₁, hStep, hRest⟩ := hExec
      exact (h.step a hStep).exec hRest

end PulsarConnection
