import PulsarConnection.Shutdown
import PulsarConnection.Invariants
import PulsarConnection.Routing

/-!
# The ping slot

`send_ping` posts `Register::Ping` with a fresh oneshot resolver, enqueues a
ping frame and awaits the resolver.  The Receiver keeps one ping slot: a
`Register::Ping` puts its resolver there and drops the one it replaces, and a
`Pong` frame completes the resolver there, if any, and empties the slot.  So
the first item after a `Register::Ping` that touches the slot settles its
resolver: a `Pong` completes it, another `Register::Ping` drops it.

Over a connection, a `send_ping` call therefore returns `Ok(())` only after a
`Pong` handled while its resolver held the slot, and while both tasks run it
fails only when a later `send_ping` replaced it there: the dropped oneshot
reads as `Canceled`, which `send_ping` reports as `Disconnected`.
-/

namespace PulsarConnection

/-- Whether the inbound loop takes a frame as a `Pong`: it carries `pong` and
not `ping`. -/
def Message.isPong (msg : Message) : Bool :=
  msg.command.ping.isNone && msg.command.pong.isSome

namespace Event

/-- The resolver a `Register::Ping` puts in the ping slot. -/
def pingResolver? : Event → Option Nat
  | .registration (.ping r) => some r
  | _ => none

/-- Whether the item is a frame the inbound loop takes as a `Pong`. -/
def isPong : Event → Bool
  | .frame msg => msg.isPong
  | .registration _ => false

/-- Whether handling the item touches the ping slot: a `Register::Ping` or a
`Pong`. -/
def touchesPing (e : Event) : Bool :=
  e.pingResolver?.isSome || e.isPong

theorem pingResolver?_eq_some {e : Event} {r : Nat} :
    e.pingResolver? = some r ↔ e = .registration (.ping r) := by
  rcases e with (_ | _ | _) | _ <;> simp [pingResolver?]

/-- An item that touches the ping slot is a `Register::Ping` or a `Pong`. -/
theorem touchesPing_cases {e : Event} (h : e.touchesPing) :
    (e.isPong = false ∧ ∃ j, e = .registration (.ping j)) ∨
      (e.isPong = true ∧ ∃ msg, e = .frame msg ∧ msg.isPong) := by
  rcases e with (_ | _ | j) | msg
  · cases h
  · cases h
  · exact .inl ⟨rfl, j, rfl⟩
  · exact .inr ⟨by simpa [touchesPing, pingResolver?] using h, msg, rfl,
      by simpa [touchesPing, pingResolver?, isPong] using h⟩

end Event

/-- What handling an item did to a ping resolver: completed it with `()`
(`true`), or dropped it (`false`). -/
def Effect.pingOutcome? : Effect → Option (Nat × Bool)
  | .pong r => some (r, true)
  | .cancelPing r => some (r, false)
  | _ => none

namespace Receiver

/-- An item that touches the ping slot leaves there the resolver it registers,
if any; any other item leaves the slot alone. -/
theorem handle_ping (rx : Receiver) (e : Event) :
    (rx.handle e).1.ping = if e.touchesPing then e.pingResolver? else rx.ping := by
  cases e with
  | registration r =>
      cases r with
      | request key resolver =>
          simp only [handle, register]
          split <;> rfl
      | consumer | ping => rfl
  | frame msg =>
      simp only [handle, Event.touchesPing, Event.pingResolver?, Event.isPong, Message.isPong]
      rcases receive_cases rx msg with ⟨hPing, hEq⟩ | ⟨hPing, hPong, hEq⟩ | ⟨key, hKey, hEq⟩ |
          ⟨consumerId, hConsumer, hEq⟩ | ⟨hPing, hPong, -, hEq⟩
      · simp [hEq, Option.isSome_iff_ne_none.1 hPing]
      · simp [hEq, hPing, hPong]
      · obtain ⟨-, hPong, -⟩ := Message.resolverKey_eq_some.1 hKey
        rw [hEq, hPong]
        unfold route
        split <;> simp
      · simp [hEq, (Message.consumerKey_eq_some.1 hConsumer).2.1]
      · simp [hEq, hPing, hPong]

/-- What an item does to ping resolvers: one that touches the ping slot settles
the resolver there, completing it if the item is a `Pong` and dropping it if it
is a `Register::Ping`. -/
theorem handle_pingOutcomes (rx : Receiver) (e : Event) :
    (rx.handle e).2.filterMap Effect.pingOutcome? =
      if e.touchesPing then rx.ping.toList.map (·, e.isPong) else [] := by
  cases e with
  | registration r =>
      cases r with
      | request key resolver =>
          simp only [handle, register]
          split <;> simp [Event.touchesPing, Event.pingResolver?, Event.isPong, Effect.pingOutcome?,
            List.filterMap_map, Function.comp_def]
      | consumer consumerId resolver =>
          simp [handle, register, Event.touchesPing, Event.pingResolver?, Event.isPong,
            Effect.pingOutcome?, List.filterMap_map, Function.comp_def]
      | ping resolver =>
          simp only [handle, register]
          cases rx.ping <;> rfl
  | frame msg =>
      simp only [handle, Event.touchesPing, Event.pingResolver?, Event.isPong, Message.isPong]
      rcases receive_cases rx msg with ⟨hPing, hEq⟩ | ⟨hPing, hPong, hEq⟩ | ⟨key, hKey, hEq⟩ |
          ⟨consumerId, hConsumer, hEq⟩ | ⟨hPing, hPong, -, hEq⟩
      · simp [hEq, Option.isSome_iff_ne_none.1 hPing, Effect.pingOutcome?]
      · rw [hEq]
        simp only [hPing, hPong]
        cases rx.ping <;> rfl
      · obtain ⟨-, hPong, -⟩ := Message.resolverKey_eq_some.1 hKey
        rw [hEq, hPong]
        unfold route
        split <;> simp [Effect.pingOutcome?]
      · simp [hEq, (Message.consumerKey_eq_some.1 hConsumer).2.1, Effect.pingOutcome?,
          List.filterMap_map, Function.comp_def]
      · simp [hEq, hPing, hPong]

/-- After a run from `Receiver::new`, the ping slot holds `r` exactly when the
last item that touched it was a `Register::Ping` with resolver `r`. -/
theorem run_ping_eq_some {events : List Event} {r : Nat} :
    (new.run events).1.ping = some r ↔
      LastTouch Event.touchesPing (.registration (.ping r)) events := by
  induction events using List.reverseRecOn with
  | nil => simp [new, LastTouch.not_nil]
  | append_singleton events e ih =>
      rw [run_snoc, lastTouch_concat rfl, process, handle_ping]
      split
      · exact Event.pingResolver?_eq_some
      · exact ih

theorem run_pingOutcomes_concat (rx : Receiver) (events : List Event) (e : Event) :
    (rx.run (events ++ [e])).2.filterMap Effect.pingOutcome? =
      (rx.run events).2.filterMap Effect.pingOutcome? ++
        if e.touchesPing then (rx.run events).1.ping.toList.map (·, e.isPong) else [] := by
  rw [run_snoc, process, List.filterMap_append, handle_pingOutcomes]

/-- Over a run from `Receiver::new`, the ping resolver `r` is settled, completed
if `completed` and dropped otherwise, exactly at an item that touches the ping
slot when the last item to touch it before was the `Register::Ping` of `r`: a
`Pong` completes it, another `Register::Ping` drops it. -/
theorem mem_run_pingOutcomes {events : List Event} {r : Nat} {completed : Bool} :
    (r, completed) ∈ (new.run events).2.filterMap Effect.pingOutcome? ↔
      ∃ pre e post, events = pre ++ e :: post ∧
        LastTouch Event.touchesPing (.registration (.ping r)) pre ∧ e.touchesPing ∧
        completed = e.isPong := by
  induction events using List.reverseRecOn with
  | nil => simp
  | append_singleton events e ih =>
      rw [run_pingOutcomes_concat, List.mem_append, ih]
      constructor
      · rintro (⟨pre, e', post, rfl, hLast, hTouch, hCompleted⟩ | hNew)
        · exact ⟨pre, e', post ++ [e], by simp, hLast, hTouch, hCompleted⟩
        · split at hNew
          · simp only [List.mem_map, Option.mem_toList, Prod.mk.injEq] at hNew
            obtain ⟨_, hSlot, rfl, rfl⟩ := hNew
            exact ⟨events, e, [], rfl, run_ping_eq_some.1 hSlot, ‹_›, rfl⟩
          · cases hNew
      · rintro ⟨pre, e', post, hEq, hLast, hTouch, rfl⟩
        rcases append_cons_eq_concat.1 hEq.symm with ⟨rfl, rfl, rfl⟩ | ⟨post', rfl, rfl⟩
        · exact .inr (by simp [hTouch, run_ping_eq_some.2 hLast])
        · exact .inl ⟨pre, e', post', rfl, hLast, hTouch, rfl⟩

end Receiver

namespace System

variable {s s' : System}

/-- Carrying out effects leaves a ping resolver as it was, or settles it as the
effects say. -/
theorem foldl_apply_pongs (effects : List Effect) (t : System) (r : Nat) :
    (effects.foldl apply t).pongs r = t.pongs r ∨
      ∃ completed, (r, completed) ∈ effects.filterMap Effect.pingOutcome? ∧
        (effects.foldl apply t).pongs r = if completed then .sent () else .canceled := by
  induction effects generalizing t with
  | nil => exact .inl rfl
  | cons effect effects ih =>
      rcases ih (t.apply effect) with hSame | ⟨completed, hMem, hPongs⟩
      · rw [List.foldl_cons, hSame]
        cases effect with
        | pong r' =>
            by_cases hr : r = r'
            · subst hr
              exact .inr ⟨true, by simp [Effect.pingOutcome?], by simp [apply]⟩
            · exact .inl (by simp [apply, hr])
        | cancelPing r' =>
            by_cases hr : r = r'
            · subst hr
              exact .inr ⟨false, by simp [Effect.pingOutcome?], by simp [apply]⟩
            · exact .inl (by simp [apply, hr])
        | sendPong => exact .inl (by simp [apply, enqueue]; split <;> rfl)
        | _ => exact .inl rfl
      · exact .inr ⟨completed, ((List.sublist_cons_self _ _).filterMap _).subset hMem, hPongs⟩

/-- A ping resolver holds `()` only if the Receiver completed it, and it was
dropped only by the Receiver or because the Receiver is gone. -/
def PongsLogged (s : System) : Prop :=
  ∀ r, (s.pongs r = .sent () → (r, true) ∈ s.effects.filterMap Effect.pingOutcome?) ∧
    (s.pongs r = .canceled →
      (r, false) ∈ s.effects.filterMap Effect.pingOutcome? ∨ s.phase = .exited)

theorem dispatch_pongsLogged (h : s.PongsLogged) (e : Event) : (s.dispatch e).PongsLogged := by
  intro r
  have hLog : ∀ b, (r, b) ∈ s.effects.filterMap Effect.pingOutcome? →
      (r, b) ∈ (s.dispatch e).effects.filterMap Effect.pingOutcome? := fun b hMem => by
    rw [dispatch_effects, List.filterMap_append]
    exact List.mem_append_left _ hMem
  rw [dispatch_phase]
  rcases foldl_apply_pongs (s.receiver.handle e).2
      { s with receiver := (s.receiver.handle e).1, processed := s.processed ++ [e],
               effects := s.effects ++ (s.receiver.handle e).2 } r with hSame | ⟨b, hMem, hPongs⟩
  · change (s.dispatch e).pongs r = s.pongs r at hSame
    rw [hSame]
    exact ⟨fun hSent => hLog _ ((h r).1 hSent), fun hCanceled => ((h r).2 hCanceled).imp_left (hLog _)⟩
  · change (s.dispatch e).pongs r = _ at hPongs
    have hNew : (r, b) ∈ (s.dispatch e).effects.filterMap Effect.pingOutcome? := by
      rw [dispatch_effects, List.filterMap_append]
      exact List.mem_append_right _ hMem
    rw [hPongs]
    cases b
    · exact ⟨nofun, fun _ => .inl hNew⟩
    · exact ⟨fun _ => hNew, nofun⟩

theorem exit_pongsLogged (h : s.PongsLogged) : s.exit.PongsLogged := by
  intro r
  simp only [exit]
  split
  · exact ⟨nofun, fun _ => .inr trivial⟩
  · exact ⟨(h r).1, fun _ => .inr trivial⟩

/-- `s'` keeps the Receiver's phase and log of `s`, and every ping resolver of
`s`, except one dropped by a post that failed because the Receiver is gone. -/
def KeepsPongs (s s' : System) : Prop :=
  s'.phase = s.phase ∧ s'.effects = s.effects ∧
    ∀ r, s'.pongs r = s.pongs r ∨ (s'.pongs r = .canceled ∧ s.phase = .exited)

theorem keepsPongs_of_eq (hPhase : s'.phase = s.phase) (hEffects : s'.effects = s.effects)
    (hPongs : s'.pongs = s.pongs) : KeepsPongs s s' :=
  ⟨hPhase, hEffects, fun _ => .inl (by rw [hPongs])⟩

theorem KeepsPongs.trans {s'' : System} (first : KeepsPongs s s') (second : KeepsPongs s' s'') :
    KeepsPongs s s'' := by
  obtain ⟨hPhase, hEffects, hPongs⟩ := first
  obtain ⟨hPhase', hEffects', hPongs'⟩ := second
  refine ⟨hPhase'.trans hPhase, hEffects'.trans hEffects, fun r => ?_⟩
  rcases hPongs' r with hSame | ⟨hDropped, hExited⟩
  · exact hSame ▸ hPongs r
  · exact .inr ⟨hDropped, hPhase ▸ hExited⟩

theorem post_keepsPongs (s : System) (r : Register) : KeepsPongs s (s.post r) := by
  unfold post
  split
  · exact keepsPongs_of_eq rfl rfl rfl
  · rename_i hClosed
    have hExited : s.phase = .exited := by simpa [registrationsOpen] using hClosed
    cases r with
    | ping resolver =>
        refine ⟨rfl, rfl, fun r => ?_⟩
        by_cases hr : r = resolver
        · exact .inr ⟨by simp [hr, Function.update], hExited⟩
        · exact .inl (by simp [hr])
    | _ => exact keepsPongs_of_eq rfl rfl rfl

theorem enqueue_keepsPongs (s : System) (msg : Message) : KeepsPongs s (s.enqueue msg) := by
  unfold enqueue
  split <;> exact keepsPongs_of_eq rfl rfl rfl

/-- Every step that neither is the Receiver's nor feeds its inbound stream
keeps the ping resolvers, but for one dropped in a failed post. -/
theorem step_keepsPongs {a : Action} (h : s.step a = some s') (hOther : a.reachesReceiver = false) :
    KeepsPongs s s' := by
  cases a with
  | advance i =>
      exact (advances_of_advance h).of_helpers KeepsPongs.trans post_keepsPongs enqueue_keepsPongs
        (fun _ _ => keepsPongs_of_eq rfl rfl rfl) (fun _ => keepsPongs_of_eq rfl rfl rfl)
        (fun _ _ => keepsPongs_of_eq rfl rfl rfl)
  | poll | answer | push => cases hOther
  | write o =>
      rcases write_cases h with ⟨-, -, -, -, -, rfl⟩ | ⟨-, -, -, -, -, -, rfl⟩ | ⟨-, -, -, -, rfl⟩ <;>
        exact keepsPongs_of_eq rfl rfl rfl
  | takeError => cases h; exact keepsPongs_of_eq rfl rfl rfl
  | invoke | dropConnection =>
      simp only [step] at h
      split at h <;> cases h
      exact keepsPongs_of_eq rfl rfl rfl

theorem step_pongsLogged {a : Action} (h : s.step a = some s') (hLogged : s.PongsLogged) :
    s'.PongsLogged := by
  cases hOther : a.reachesReceiver
  · obtain ⟨hPhase, hEffects, hPongs⟩ := step_keepsPongs h hOther
    intro r
    rw [hEffects, hPhase]
    rcases hPongs r with hSame | ⟨hDropped, hExited⟩
    · rw [hSame]
      exact hLogged r
    · rw [hDropped]
      exact ⟨nofun, fun _ => .inr hExited⟩
  · cases a <;> simp only [Action.reachesReceiver, reduceCtorEq] at hOther
    · cases polls_of_poll h with
      | drain | read =>
          refine dispatch_pongsLogged ?_ _
          exact hLogged
      | shutdown | senderGone | fail | close => exact exit_pongsLogged hLogged
      | wake hPhase | drained hPhase | readAll hPhase =>
          refine fun r => ⟨(hLogged r).1, fun hCanceled => ?_⟩
          simpa [hPhase] using (hLogged r).2 hCanceled
    · simp only [step] at h
      split at h <;> cases h
      exact hLogged
    · cases h
      exact hLogged

end System

/-- What the stage of call `i`, a `send_ping`, says about its resolver: a call
that posted nothing knows the Receiver is gone, and a call that returned
returned `Ok(())` after the Receiver completed its resolver, or
`Err(Disconnected)` after the Receiver dropped it or a task ended. -/
def Stage.PingLogged (s : System) (i : Nat) : Stage → Prop
  | .invoked | .pingAwaiting => True
  | .pingEnqueuing posted => posted = false → s.phase = .exited
  | .returned result =>
      (result = .ok .unit ∧ (i, true) ∈ s.effects.filterMap Effect.pingOutcome?) ∨
        (result = System.disconnected ∧ ((i, false) ∈ s.effects.filterMap Effect.pingOutcome? ∨
          s.phase = .exited ∨ s.writer ≠ .running))
  | _ => False

theorem Stage.PingLogged.mono {stage : Stage} {s s' : System} {i : Nat} (h : stage.PingLogged s i)
    (hEffects : s.effects <+: s'.effects) (hExited : s.phase = .exited → s'.phase = .exited)
    (hStopped : s.writer ≠ .running → s'.writer ≠ .running) : stage.PingLogged s' i := by
  have hLog : ∀ {b}, (i, b) ∈ s.effects.filterMap Effect.pingOutcome? →
      (i, b) ∈ s'.effects.filterMap Effect.pingOutcome? :=
    fun hMem => (hEffects.sublist.filterMap _).subset hMem
  cases stage with
  | pingEnqueuing => exact fun hPosted => hExited (h hPosted)
  | returned =>
      exact h.imp (And.imp_right hLog) (And.imp_right (Or.imp hLog (Or.imp hExited hStopped)))
  | _ => exact h

namespace System

variable {s s' : System}

/-- Every `send_ping` call's stage is logged as `Stage.PingLogged` says. -/
def PingsLogged (s : System) : Prop :=
  ∀ (i : Nat) (stage : Stage), s.calls[i]? = some ⟨.sendPing, stage⟩ → stage.PingLogged s i

theorem advance_pingsLogged {i : Nat} (h : s.advance i = some s') (hPongs : s.PongsLogged)
    (hLogged : s.PingsLogged) {stage : Stage} (hCall : s'.calls[i]? = some ⟨.sendPing, stage⟩) :
    stage.PingLogged s' i := by
  obtain ⟨hPhase, -, -, hEffects, -⟩ := advance_posts h
  have hWriter : s'.writer = s.writer := (advance_enqueues h).1
  have hOld : ∀ {op stage'}, s.calls[i]? = some ⟨op, stage'⟩ → ∀ {t : System} {next : Stage},
      s' = t.setStage i next → t.calls = s.calls → op = .sendPing ∧ next = stage ∧
        stage'.PingLogged s i := by
    intro op stage' hOld t next hEq hCalls
    rw [hEq, setStage_call (hCalls ▸ hOld)] at hCall
    cases hCall
    exact ⟨rfl, rfl, hLogged i _ hOld⟩
  cases advances_of_advance h with
  | ping hCall0 =>
      obtain ⟨-, rfl, -⟩ := hOld hCall0 rfl (post_calls _ _)
      intro hClosed
      rw [hPhase]
      simpa [registrationsOpen] using hClosed
  | enqueuePing hCall0 =>
      obtain ⟨-, rfl, hPosted⟩ := hOld hCall0 rfl (enqueue_calls _ _)
      split
      · trivial
      · rename_i hFails
        rw [if_neg hFails] at hPhase hWriter
        refine .inr ⟨rfl, .inr ?_⟩
        rw [hPhase, hWriter]
        rcases Bool.and_eq_false_iff.1 (Bool.eq_false_iff.2 hFails) with hPost | hOut
        · exact .inl (hPosted hPost)
        · exact .inr (by simpa [outboundOpen] using hOut)
  | pong hCall0 hSent =>
      obtain ⟨-, rfl, -⟩ := hOld hCall0 rfl rfl
      exact .inl ⟨rfl, hEffects ▸ (hPongs i).1 hSent⟩
  | pingDropped hCall0 hCanceled =>
      obtain ⟨-, rfl, -⟩ := hOld hCall0 rfl rfl
      exact .inr ⟨rfl, hEffects ▸ hPhase ▸ ((hPongs i).2 hCanceled).imp_right .inl⟩
  | send hCall0 | subscribe hCall0 => exact nomatch (hOld hCall0 rfl rfl).1
  | notify hCall0 hNotify =>
      obtain ⟨rfl, -⟩ := hOld hCall0 rfl (enqueue_calls _ _)
      cases hNotify
  | request hCall0 hRequest =>
      obtain ⟨rfl, -⟩ := hOld hCall0 rfl rfl
      cases hRequest
  | postConsumer hCall0 | consumerRefused hCall0 | postRequest hCall0 =>
      exact (hOld hCall0 rfl (post_calls _ _)).2.2.elim
  | enqueue hCall0 => exact (hOld hCall0 rfl (enqueue_calls _ _)).2.2.elim
  | reply hCall0 | dropped hCall0 => exact (hOld hCall0 rfl rfl).2.2.elim

theorem step_pingsLogged {a : Action} (h : s.step a = some s') (hPongs : s.PongsLogged)
    (hLogged : s.PingsLogged) : s'.PingsLogged := by
  intro j stage hCall
  by_cases hOwn : a = .advance j
  · subst hOwn
    exact advance_pingsLogged h hPongs hLogged hCall
  · rcases step_call_cases h hOwn hCall with hOld | hInvoked
    · exact (hLogged j stage hOld).mono (step_extends_effects h)
        (fun hExited => (step_exited h hExited).1) (fun hStopped => (step_stopped h hStopped).1 ▸ hStopped)
    · rw [show stage = .invoked from hInvoked]
      trivial

end System

namespace Reachable

variable {s : System}

theorem pongsLogged (h : Reachable s) : s.PongsLogged := by
  induction h with
  | init => exact fun _ => ⟨nofun, nofun⟩
  | step a _ hStep ih => exact System.step_pongsLogged hStep ih

theorem pingsLogged (h : Reachable s) : s.PingsLogged := by
  induction h with
  | init => intro i stage hCall; simp [System.init] at hCall
  | step a hReach hStep ih => exact System.step_pingsLogged hStep hReach.pongsLogged ih

end Reachable

/-- Over every run of a connection, a `send_ping` call returns `Ok(())` or
`Err(Disconnected)`.  It returns `Ok(())` only if the Receiver handled a `Pong`
frame when the last item to touch the ping slot before it was the call's own
`Register::Ping`.  It returns `Err(Disconnected)` only if the Receiver handled
another `Register::Ping` at such a point, dropping the call's resolver, or a
transport task has ended: while both tasks run, a `send_ping` fails only
because a later one replaced it in the slot. -/
theorem ping_settled_by_next_touch {s : System} (h : Reachable s) {i : Nat}
    {result : Except ConnectionError Response}
    (hCall : s.calls[i]? = some ⟨.sendPing, .returned result⟩) :
    (result = .ok .unit ∧ ∃ pre msg post, s.processed = pre ++ .frame msg :: post ∧
        Receiver.LastTouch Event.touchesPing (.registration (.ping i)) pre ∧ msg.isPong) ∨
      (result = System.disconnected ∧
        ((∃ pre j post, s.processed = pre ++ .registration (.ping j) :: post ∧
            Receiver.LastTouch Event.touchesPing (.registration (.ping i)) pre) ∨
          s.phase = .exited ∨ s.writer ≠ .running)) := by
  have hRun : Receiver.new.run s.processed = (s.receiver, s.effects) := h.receiverRun
  have hOutcome : ∀ {b}, (i, b) ∈ s.effects.filterMap Effect.pingOutcome? →
      ∃ pre e post, s.processed = pre ++ e :: post ∧
        Receiver.LastTouch Event.touchesPing (.registration (.ping i)) pre ∧ e.touchesPing ∧
        b = e.isPong := fun hMem => Receiver.mem_run_pingOutcomes.1 (by rw [hRun]; exact hMem)
  rcases h.pingsLogged i _ hCall with ⟨rfl, hMem⟩ | ⟨rfl, hMem | hEnded⟩
  · obtain ⟨pre, e, post, hEq, hLast, hTouch, hPong⟩ := hOutcome hMem
    rcases Event.touchesPing_cases hTouch with ⟨hNot, -⟩ | ⟨-, msg, rfl, hIsPong⟩
    · exact absurd (hPong.trans hNot) nofun
    · exact .inl ⟨rfl, pre, msg, post, hEq, hLast, hIsPong⟩
  · obtain ⟨pre, e, post, hEq, hLast, hTouch, hPong⟩ := hOutcome hMem
    rcases Event.touchesPing_cases hTouch with ⟨-, j, rfl⟩ | ⟨hIs, -⟩
    · exact .inr ⟨rfl, .inl ⟨pre, j, post, hEq, hLast⟩⟩
    · exact absurd (hPong.trans hIs) nofun
  · exact .inr ⟨rfl, .inr hEnded⟩

/-- Two `send_ping` calls; the Receiver handles both registrations before the
broker's `Pong` for the second call's ping comes in. -/
def pingsRaced : System :=
  ((System.init 64).exec [.invoke .sendPing, .invoke .sendPing, .advance 0, .advance 1, .poll,
    .poll, .poll, .poll, .advance 0, .advance 0, .advance 1, .write none, .write none,
    .answer 1 Messages.pong, .poll, .advance 1]).getD (System.init 64)

/-- The first call returns `Err(Disconnected)` while the connection is valid
and both tasks run: the second call's registration replaced its resolver. -/
theorem concurrent_ping_superseded :
    pingsRaced.calls =
        [⟨.sendPing, .returned System.disconnected⟩, ⟨.sendPing, .returned (.ok .unit)⟩] ∧
      pingsRaced.isValid ∧ pingsRaced.phase ≠ .exited ∧ pingsRaced.writer = .running ∧
      ∃ pre j post, pingsRaced.processed = pre ++ .registration (.ping j) :: post ∧
        Receiver.LastTouch Event.touchesPing (.registration (.ping 0)) pre := by
  have hReach : Reachable pingsRaced := (Reachable.init 64).exec
    (show (System.init 64).exec [.invoke .sendPing, .invoke .sendPing, .advance 0, .advance 1,
      .poll, .poll, .poll, .poll, .advance 0, .advance 0, .advance 1, .write none, .write none,
      .answer 1 Messages.pong, .poll, .advance 1] = some pingsRaced from rfl)
  have hCalls : pingsRaced.calls =
      [⟨.sendPing, .returned System.disconnected⟩, ⟨.sendPing, .returned (.ok .unit)⟩] := by
    decide
  have hRunning : pingsRaced.phase ≠ .exited ∧ pingsRaced.writer = .running := by decide
  refine ⟨hCalls, by decide, hRunning.1, hRunning.2, ?_⟩
  rcases ping_settled_by_next_touch hReach
      (show pingsRaced.calls[0]? = some ⟨.sendPing, .returned System.disconnected⟩ by
        rw [hCalls]; rfl) with ⟨hOk, -⟩ | ⟨-, hReplaced | hExited | hStopped⟩
  · cases hOk
  · exact hReplaced
  · exact absurd hExited hRunning.1
  · exact absurd hRunning.2 hStopped

end PulsarConnection
