import PulsarConnection.Message

/-!
# Resolving the broker's address

`Connection::new` rejects a URL whose scheme is neither `pulsar` nor
`pulsar+ssl`, then runs a closure on a blocking thread of the executor: the
closure asks the URL for its socket addresses and picks one of them with
`rng.gen_range(0, v.len())` and `v.get(index)`.  The two-bound
`Rng::gen_range` of `rand` panics when its lower bound is not below its upper
bound, so an empty address list panics the closure before `get` is reached.
What `Connection::new` makes of the panic is up to the executor's
`JoinHandle`: Tokio reports it as an error, which `JoinHandle::poll` turns
into `None`, so the call still returns `NotFound`; async-std has no value for
the task, and the panic reaches the caller.

The model stops where `Connection::new` would open a socket: `prepare_stream`
and its TCP and TLS setup are left out; the `CONNECT` handshake that follows
them is `PulsarConnection.connect`.
-/

namespace PulsarConnection

/-- The panic of the thread that runs the resolution closure: `rand`'s uniform
sampler asserting that its lower bound is below its upper bound. -/
inductive Panic
  | lowNotBelowHigh
  deriving DecidableEq, Repr

/-- `rng.gen_range(low, high)` of `rand` (not under src/): a value of
`[low, high)` when that range is not empty, and a panic otherwise.  `draw`
stands for the generator's output, which the sampler maps into the range. -/
def genRange (low high draw : Nat) : Except Panic Nat :=
  if low < high then .ok (low + draw % (high - low)) else .error .lowNotBelowHigh

/-- The closure `Connection::new` runs through `spawn_blocking`, given what
`socket_addrs` returned: its error is logged and dropped by `.ok()`; of the
addresses found, the one at a random index is returned by `v.get(index)`. -/
def resolveAddress {ε α : Type} (found : Except ε (List α)) (draw : Nat) :
    Except Panic (Option α) :=
  match found.toOption with
  | none => .ok none
  | some v => (genRange 0 v.length draw).map fun index => v[index]?

/-- The executors of `executor.rs`. -/
inductive ExecutorKind
  | tokio
  | asyncStd
  deriving DecidableEq, Repr

/-- Awaiting the `JoinHandle` of `Executor::spawn_blocking` for a closure that
ended with `outcome`.  Tokio's handle yields `Err(JoinError)` for a closure
that panicked, which `JoinHandle::poll` turns into `None` with `v.ok()`.  The
async-std arm wraps the closure's value in `Some`; async-std's own handle has
no value for a closure that panicked, and awaiting it panics in turn. -/
def awaitBlocking {β : Type} : ExecutorKind → Except Panic β → Except Panic (Option β)
  | .tokio, outcome => .ok outcome.toOption
  | .asyncStd, outcome => outcome.map some

/-- The TLS flag `Connection::new` reads off the URL's scheme; `none` where it
returns `NotFound`. -/
def tlsOf : String → Option Bool
  | "pulsar" => some false
  | "pulsar+ssl" => some true
  | _ => none

/-- The `match` of `Connection::new` on the awaited closure: an address found
goes on with the TLS flag, anything else returns `NotFound`. -/
def chooseAddress {α : Type} (tls : Bool) : Option (Option α) → Except ConnectionError (α × Bool)
  | some (some address) => .ok (address, tls)
  | _ => .error .notFound

/-- `Connection::new` up to the point where it opens a socket, for a URL with
scheme `scheme`, on the executor `executor`, when `socket_addrs` returns
`found` and the generator draws `draw`: the error it returns, or the address
and the TLS flag it hands to `prepare_stream`.  A panic that reaches the caller
is the outer error. -/
def newAddress {ε α : Type} (executor : ExecutorKind) (scheme : String)
    (found : Except ε (List α)) (draw : Nat) : Except Panic (Except ConnectionError (α × Bool)) :=
  if scheme != "pulsar" && scheme != "pulsar+ssl" then .ok (.error .notFound)
  else
    match tlsOf scheme with
    | none => .ok (.error .notFound)
    | some tls => (awaitBlocking executor (resolveAddress found draw)).map (chooseAddress tls)

/-! ## The random index -/

theorem genRange_eq_ok {low high draw index : Nat} (h : genRange low high draw = .ok index) :
    low ≤ index ∧ index < high := by
  unfold genRange at h
  split at h
  · cases h
    have := Nat.mod_lt draw (Nat.sub_pos_of_lt ‹low < high›)
    omega
  · cases h

theorem genRange_panics_iff {low high draw : Nat} :
    genRange low high draw = .error .lowNotBelowHigh ↔ high ≤ low := by
  unfold genRange
  split <;> simp <;> omega

/-- Every index of a non-empty range is drawn for some output of the
generator. -/
theorem genRange_drawn {low high index : Nat} (hLow : low ≤ index) (hHigh : index < high) :
    genRange low high (index - low) = .ok index := by
  rw [genRange, if_pos (hLow.trans_lt hHigh), Nat.mod_eq_of_lt (by omega)]
  congr 1
  omega

/-! ## The resolution closure -/

section Resolution

variable {ε α : Type}

@[simp]
theorem resolveAddress_error (e : ε) (draw : Nat) :
    resolveAddress (.error e : Except ε (List α)) draw = .ok none :=
  rfl

@[simp]
theorem resolveAddress_nil (draw : Nat) :
    resolveAddress (.ok [] : Except ε (List α)) draw = .error .lowNotBelowHigh :=
  rfl

/-- On a non-empty list the closure returns one of its addresses. -/
theorem resolveAddress_cons (a : α) (v : List α) (draw : Nat) :
    ∃ address ∈ a :: v,
      resolveAddress (.ok (a :: v) : Except ε (List α)) draw = .ok (some address) := by
  have hIndex : draw % (v.length + 1) < (a :: v).length := Nat.mod_lt _ (Nat.succ_pos _)
  refine ⟨(a :: v)[draw % (v.length + 1)], List.getElem_mem hIndex, ?_⟩
  simp [resolveAddress, Except.toOption, genRange, Except.map]

/-- Every address of a non-empty list is returned for some output of the
generator. -/
theorem resolveAddress_drawn {v : List α} {address : α} (h : address ∈ v) :
    ∃ draw, resolveAddress (.ok v : Except ε (List α)) draw = .ok (some address) := by
  obtain ⟨index, hIndex, rfl⟩ := List.getElem_of_mem h
  refine ⟨index, ?_⟩
  have hDrawn := genRange_drawn (Nat.zero_le index) hIndex
  simp only [Nat.sub_zero] at hDrawn
  simp [resolveAddress, Except.toOption, hDrawn, Except.map]

/-- What the closure returns, by what `socket_addrs` returned. -/
theorem resolveAddress_cases (found : Except ε (List α)) (draw : Nat) :
    (∃ e, found = .error e ∧ resolveAddress found draw = .ok none) ∨
      (found = .ok [] ∧ resolveAddress found draw = .error .lowNotBelowHigh) ∨
      ∃ v address, found = .ok v ∧ address ∈ v ∧ resolveAddress found draw = .ok (some address) := by
  rcases found with e | _ | ⟨a, v⟩
  · exact .inl ⟨e, rfl, rfl⟩
  · exact .inr (.inl ⟨rfl, rfl⟩)
  · obtain ⟨address, hMem, hResolve⟩ := resolveAddress_cons a v draw
    exact .inr (.inr ⟨_, address, rfl, hMem, hResolve⟩)

/-- The closure panics exactly on an empty list, returns `None` exactly when
the lookup failed, and otherwise returns an address of the list. -/
theorem resolveAddress_spec (found : Except ε (List α)) (draw : Nat) :
    (resolveAddress found draw = .error .lowNotBelowHigh ↔ found = .ok []) ∧
      (resolveAddress found draw = .ok none ↔ ∃ e, found = .error e) ∧
      ∀ address, resolveAddress found draw = .ok (some address) →
        ∃ v, found = .ok v ∧ address ∈ v := by
  rcases resolveAddress_cases found draw with
    ⟨e, rfl, hResolve⟩ | ⟨rfl, hResolve⟩ | ⟨v, address, rfl, hMem, hResolve⟩
  · simp [hResolve]
  · simp [hResolve]
  · refine ⟨by simp [hResolve, List.ne_nil_of_mem hMem], by simp [hResolve], fun _ h => ?_⟩
    rw [hResolve] at h
    cases h
    exact ⟨v, rfl, hMem⟩

end Resolution

/-! ## `Connection::new` -/

section New

variable {ε α : Type} {executor : ExecutorKind} {scheme : String} {found : Except ε (List α)}
  {draw : Nat}

/-- The scheme check and the `tls` match of `Connection::new` reject the same
schemes. -/
theorem tlsOf_eq_none : tlsOf scheme = none ↔ scheme ≠ "pulsar" ∧ scheme ≠ "pulsar+ssl" := by
  unfold tlsOf
  split <;> simp_all

theorem newAddress_of_tlsOf_none (h : tlsOf scheme = none) :
    newAddress executor scheme found draw = .ok (.error .notFound) := by
  unfold newAddress
  split
  · rfl
  · rw [h]

theorem newAddress_of_tlsOf_some {tls : Bool} (h : tlsOf scheme = some tls) :
    newAddress executor scheme found draw =
      (awaitBlocking executor (resolveAddress found draw)).map (chooseAddress tls) := by
  have hScheme : ¬(scheme ≠ "pulsar" ∧ scheme ≠ "pulsar+ssl") := by
    rw [← tlsOf_eq_none, h]
    exact Option.some_ne_none tls
  unfold newAddress
  rw [if_neg (by simpa using hScheme), h]

/-- On Tokio, `Connection::new` never panics: it returns `NotFound` exactly
when the scheme is rejected or the lookup failed or found no address, and
otherwise goes on with an address of the list and the scheme's TLS flag. -/
theorem newAddress_tokio (scheme : String) (found : Except ε (List α)) (draw : Nat) :
    ∃ result, newAddress .tokio scheme found draw = .ok result ∧
      (result = .error .notFound ↔ tlsOf scheme = none ∨ ∀ v, found = .ok v → v = []) ∧
      ∀ address tls, result = .ok (address, tls) →
        tlsOf scheme = some tls ∧ ∃ v, found = .ok v ∧ address ∈ v := by
  cases hTls : tlsOf scheme with
  | none => exact ⟨_, newAddress_of_tlsOf_none hTls, by simp, by simp⟩
  | some tls =>
      rw [newAddress_of_tlsOf_some hTls]
      rcases resolveAddress_cases found draw with
        ⟨e, rfl, hResolve⟩ | ⟨rfl, hResolve⟩ | ⟨v, address, rfl, hMem, hResolve⟩
      · exact ⟨.error .notFound, by rw [hResolve]; rfl, by simp, by simp⟩
      · exact ⟨.error .notFound, by rw [hResolve]; rfl, by simp, by simp⟩
      · refine ⟨.ok (address, tls), by rw [hResolve]; rfl, ?_, ?_⟩
        · simp [List.ne_nil_of_mem hMem]
        · rintro _ _ ⟨⟩
          exact ⟨rfl, v, rfl, hMem⟩

/-- On async-std, `Connection::new` panics exactly when the scheme is accepted
and the lookup found no address. -/
theorem newAddress_asyncStd_panics_iff (scheme : String) (found : Except ε (List α)) (draw : Nat) :
    newAddress .asyncStd scheme found draw = .error .lowNotBelowHigh ↔
      tlsOf scheme ≠ none ∧ found = .ok [] := by
  cases hTls : tlsOf scheme with
  | none => simp [newAddress_of_tlsOf_none hTls]
  | some tls =>
      rw [newAddress_of_tlsOf_some hTls]
      rcases resolveAddress_cases found draw with
        ⟨e, rfl, hResolve⟩ | ⟨rfl, hResolve⟩ | ⟨v, address, rfl, hMem, hResolve⟩
      · simp [hResolve, awaitBlocking, Except.map]
      · simp [hResolve, awaitBlocking, Except.map]
      · simp [hResolve, awaitBlocking, Except.map, List.ne_nil_of_mem hMem]

end New

/-- Whatever `socket_addrs` returns and whatever the generator draws, the
resolution closure panics exactly when the address list is empty, returns
`None` exactly when the lookup failed, and otherwise returns an address of the
list.  On Tokio, where the panic becomes `None`, `Connection::new` returns
`NotFound` without opening a socket exactly when the scheme is rejected or the
lookup failed or found no address, and otherwise goes on with an address of
the list; on async-std it panics exactly when a `pulsar` or `pulsar+ssl`
lookup found no address. -/
theorem empty_address_list_panics {ε α : Type} (scheme : String) (found : Except ε (List α))
    (draw : Nat) :
    (resolveAddress found draw = .error .lowNotBelowHigh ↔ found = .ok []) ∧
      (resolveAddress found draw = .ok none ↔ ∃ e, found = .error e) ∧
      (∀ address, resolveAddress found draw = .ok (some address) →
        ∃ v, found = .ok v ∧ address ∈ v) ∧
      (∃ result, newAddress .tokio scheme found draw = .ok result ∧
        (result = .error .notFound ↔ tlsOf scheme = none ∨ ∀ v, found = .ok v → v = []) ∧
        ∀ address tls, result = .ok (address, tls) →
          tlsOf scheme = some tls ∧ ∃ v, found = .ok v ∧ address ∈ v) ∧
      (newAddress .asyncStd scheme found draw = .error .lowNotBelowHigh ↔
        tlsOf scheme ≠ none ∧ found = .ok []) :=
  ⟨(resolveAddress_spec found draw).1, (resolveAddress_spec found draw).2.1,
    (resolveAddress_spec found draw).2.2, newAddress_tokio scheme found draw,
    newAddress_asyncStd_panics_iff scheme found draw⟩

/-- A `pulsar://` URL whose host resolves to no address: the closure panics;
on Tokio `Connection::new` returns `NotFound`, on async-std it panics. -/
theorem unresolvable_host_panics :
    resolveAddress (.ok [] : Except Unit (List Nat)) 0 = .error .lowNotBelowHigh ∧
      newAddress .tokio "pulsar" (.ok [] : Except Unit (List Nat)) 0 = .ok (.error .notFound) ∧
      newAddress .asyncStd "pulsar" (.ok [] : Except Unit (List Nat)) 0 =
        .error .lowNotBelowHigh := by
  obtain ⟨hPanic, -, -, ⟨result, hTokio, hNotFound, -⟩, hAsyncStd⟩ :=
    empty_address_list_panics "pulsar" (.ok [] : Except Unit (List Nat)) 0
  refine ⟨hPanic.2 rfl, ?_, hAsyncStd.2 ⟨by decide, rfl⟩⟩
  rw [hTokio, hNotFound.2 (.inr fun _ h => by cases h; rfl)]

end PulsarConnection
