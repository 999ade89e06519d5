import PulsarConnection.Steps

/-!
# Validity of a connection

`Connection::is_valid` reads whether the shared error cell is set, and
`Connection::error` takes the error out of it.  Every other operation of the
connection only ever sets the cell, and a set cell keeps the first error; so
validity, once lost, is lost until the next `Connection::error`, which empties
the cell and makes the connection valid again.
-/

namespace PulsarConnection

namespace System

/-- A schedule that does not call `Connection::error` leaves a set cell as it
is. -/
theorem exec_error_of_isSet {s s' : System} :
    ∀ {actions : List Action}, s.exec actions = some s' → Action.takeError ∉ actions →
      s.error.isSet → s'.error = s.error
  | [], hExec, _, _ => by cases hExec; rfl
  | a :: rest, hExec, hTake, hSet => by
      simp only [exec, Option.bind_eq_some] at hExec
      obtain ⟨s₁, hStep, hRest⟩ := hExec
      have hKept : s₁.error = s.error :=
        (step_setsError hStep fun h => hTake (h ▸ List.mem_cons_self _ _)).eq_of_isSet hSet
      rw [exec_error_of_isSet hRest (fun h => hTake (List.mem_cons_of_mem a h))
        (hKept ▸ hSet), hKept]

end System

open System in
/-- Once `is_valid()` has returned false it returns false, with the same error
in the cell, after any schedule that does not call `Connection::error()`; and
`Connection::error()` always empties the cell, so the connection is valid right
after it. -/
theorem invalid_until_error_taken {s s' : System} {actions : List Action}
    (hExec : s.exec actions = some s') (hTake : Action.takeError ∉ actions)
    (hInvalid : s.isValid = false) :
    (s'.isValid = false ∧ s'.error = s.error) ∧
    ∀ s'', s'.step .takeError = some s'' → s''.isValid = true := by
  have hSet : s.error.isSet := by simpa [isValid] using hInvalid
  have hKept := exec_error_of_isSet hExec hTake hSet
  refine ⟨⟨by simpa [isValid, hKept] using hInvalid, hKept⟩, fun s'' hStep => ?_⟩
  cases hStep
  rfl

/-- A connection on a 64-bit target whose inbound stream has ended: the
Receiver has recorded `Disconnected` and exited. -/
def inboundClosed : System :=
  ((System.init 64).exec [.push .closed, .poll, .poll, .poll]).getD (System.init 64)

/-- Then a `send_flow` is enqueued and its sink send fails. -/
def writerFailedAfterClose : System :=
  (inboundClosed.exec [.invoke (.sendFlow 1 10), .advance 0, .write (some (.io "reset"))]).getD
    inboundClosed

/-- The Writer's later failure does not replace the Receiver's error. -/
theorem invalid_until_error_taken_reset :
    inboundClosed.exec [.invoke (.sendFlow 1 10), .advance 0, .write (some (.io "reset"))] =
        some writerFailedAfterClose ∧
      System.Action.takeError ∉
        [.invoke (.sendFlow 1 10), .advance 0, .write (some (.io "reset"))] ∧
      inboundClosed.isValid = false ∧
      (writerFailedAfterClose.isValid = false ∧
        writerFailedAfterClose.error = inboundClosed.error) := by
  have hExec : inboundClosed.exec
      [.invoke (.sendFlow 1 10), .advance 0, .write (some (.io "reset"))] =
        some writerFailedAfterClose := rfl
  exact ⟨hExec, by decide, by decide, (invalid_until_error_taken hExec (by decide) (by decide)).1⟩

/-- `Connection::error()` makes an invalid connection valid again: the cell
does not stay set once it has been set. -/
theorem error_revalidates_connection :
    inboundClosed.isValid = false ∧
      (inboundClosed.exec [.takeError]).map System.isValid = some true := by
  decide

end PulsarConnection
