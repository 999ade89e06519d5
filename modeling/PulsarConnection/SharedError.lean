import PulsarConnection.Message

/-!
# The shared error cell

Every task of a connection holds the same cell.  A transport task that ends,
and a caller that sees its resolver cancelled, record an error in it; the first
error recorded wins.  `Connection::is_valid` reads whether the cell is set and
`Connection::error` takes its content out.
-/

namespace PulsarConnection

/-- Modelled from the spec: `SharedError` of `error.rs` (not under src/), a
cell holding the first fatal error of the connection, if any. -/
structure SharedError where
  error : Option ConnectionError
  deriving DecidableEq, Repr

namespace SharedError

/-- Modelled from the spec: a fresh cell is empty. -/
def new : SharedError :=
  ⟨none⟩

/-- Modelled from the spec: `set` stores `e` in an empty cell and leaves a set
cell unchanged. -/
def set (cell : SharedError) (e : ConnectionError) : SharedError :=
  match cell.error with
  | none => ⟨some e⟩
  | some _ => cell

/-- Modelled from the spec: whether an error has been recorded. -/
def isSet (cell : SharedError) : Bool :=
  cell.error.isSome

/-- Modelled from the spec: `remove` takes the stored error out, leaving the
cell empty. -/
def remove (cell : SharedError) : Option ConnectionError × SharedError :=
  (cell.error, new)

@[simp]
theorem new_error : new.error = none :=
  rfl

@[simp]
theorem isSet_set (cell : SharedError) (e : ConnectionError) : (cell.set e).isSet := by
  cases h : cell.error <;> simp [set, isSet, h]

/-- First error wins: a set cell keeps its content. -/
theorem set_of_isSet {cell : SharedError} (h : cell.isSet) (e : ConnectionError) :
    cell.set e = cell := by
  cases hError : cell.error with
  | none => simp [isSet, hError] at h
  | some _ => simp [set, hError]

@[simp]
theorem set_set (cell : SharedError) (e e' : ConnectionError) : (cell.set e).set e' = cell.set e :=
  set_of_isSet (isSet_set cell e) e'

@[simp]
theorem isSet_remove (cell : SharedError) : (cell.remove).2.isSet = false :=
  rfl

end SharedError

end PulsarConnection
