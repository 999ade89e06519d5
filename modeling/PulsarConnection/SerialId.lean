import Mathlib.Algebra.Group.Nat.Basic
import PulsarConnection.Message

/-!
# Request ids

`SerialId` is an `AtomicUsize` shared by the clones of one handle.  `get` is a
`fetch_add(1)`, which wraps at the width of `usize`, and its result is widened
with `as u64`.  The width of `usize` is that of the target, so it is kept as
data of the counter.
-/

namespace PulsarConnection

/-- `SerialId`: the counter of an `AtomicUsize` with `bits` bits. -/
structure SerialId where
  bits : Nat
  counter : Nat
  deriving DecidableEq, Repr

namespace SerialId

/-- `SerialId::new`: a counter starting at zero. -/
def new (bits : Nat) : SerialId :=
  ⟨bits, 0⟩

/-- `SerialId::get`: the value before the wrapping increment, as a `u64`. -/
def get (serial : SerialId) : UInt64 × SerialId :=
  (UInt64.ofNat serial.counter, { serial with counter := (serial.counter + 1) % 2 ^ serial.bits })

@[simp]
theorem get_bits (serial : SerialId) : (serial.get).2.bits = serial.bits :=
  rfl

/-- `n` calls of `get` on clones of one handle, which share the counter, in
the order their `fetch_add`s take effect: the values returned, and the counter
after. -/
def getMany (serial : SerialId) : Nat → List UInt64 × SerialId
  | 0 => ([], serial)
  | n + 1 => (serial.get.1 :: (serial.get.2.getMany n).1, (serial.get.2.getMany n).2)

@[simp]
theorem getMany_bits (serial : SerialId) (n : Nat) : (serial.getMany n).2.bits = serial.bits := by
  induction n generalizing serial with
  | zero => rfl
  | succ n ih => exact ih _

/-- One more get appends its value to those of the gets before it. -/
theorem getMany_succ (serial : SerialId) (n : Nat) :
    serial.getMany (n + 1) =
      ((serial.getMany n).1 ++ [(serial.getMany n).2.get.1], (serial.getMany n).2.get.2) := by
  induction n generalizing serial with
  | zero => rfl
  | succ n ih =>
      rw [getMany, ih]
      rfl

/-! ## The values of a run of gets -/

/-- From a counter inside the width of `usize`, the `k`-th of `n` gets
returns the counter plus `k`, wrapped at that width and widened to `u64`. -/
theorem getMany_values (serial : SerialId) (h : serial.counter < 2 ^ serial.bits) (n : Nat) :
    (serial.getMany n).1 =
      (List.range n).map fun k => UInt64.ofNat ((serial.counter + k) % 2 ^ serial.bits) := by
  induction n generalizing serial with
  | zero => rfl
  | succ n ih =>
      have hNext : serial.get.2.counter < 2 ^ serial.get.2.bits := Nat.mod_lt _ (Nat.two_pow_pos _)
      rw [getMany, ih _ hNext, List.range_succ_eq_map]
      simp [get, Nat.mod_eq_of_lt h, Nat.mod_add_mod, Nat.add_assoc, Nat.add_comm 1]

/-- Wrapping at `2 ^ bits` and then at the 64 bits of `u64` wraps at the
narrower of the two. -/
theorem mod_two_pow_mod_two_pow (k bits : Nat) : k % 2 ^ bits % 2 ^ 64 = k % 2 ^ min bits 64 := by
  rcases le_total bits 64 with hLe | hLe
  · rw [min_eq_left hLe, Nat.mod_eq_of_lt]
    exact (Nat.mod_lt _ (Nat.two_pow_pos _)).trans_le (Nat.pow_le_pow_right Nat.two_pos hLe)
  · rw [min_eq_right hLe, Nat.mod_mod_of_dvd _ (Nat.pow_dvd_pow 2 hLe)]

/-- The values of `n` gets on a fresh counter, as numbers. -/
theorem getMany_new_toNat (bits n : Nat) :
    ((new bits).getMany n).1.map UInt64.toNat = (List.range n).map (· % 2 ^ min bits 64) := by
  rw [getMany_values _ (Nat.two_pow_pos _), List.map_map]
  refine List.map_congr_left fun k _ => ?_
  simp only [Function.comp, new, Nat.zero_add]
  exact mod_two_pow_mod_two_pow k bits

end SerialId

/-- Reducing `0, 1, …, n - 1` modulo `m` leaves them as they are exactly when
`n ≤ m`. -/
theorem range_map_mod_eq_iff {n m : Nat} (hm : 0 < m) :
    (List.range n).map (· % m) = List.range n ↔ n ≤ m := by
  constructor
  · intro h
    by_contra hLt
    have hAt := congrArg (·[m]?) h
    simp [List.getElem?_range (not_le.1 hLt)] at hAt
    omega
  · intro hLe
    conv_rhs => rw [← List.map_id (List.range n)]
    exact List.map_congr_left fun k hk => Nat.mod_eq_of_lt ((List.mem_range.1 hk).trans_le hLe)

/-- `0, 1, …, n - 1` stay distinct modulo `m` exactly when `n ≤ m`. -/
theorem range_map_mod_nodup_iff {n m : Nat} (hm : 0 < m) :
    ((List.range n).map (· % m)).Nodup ↔ n ≤ m := by
  constructor
  · intro h
    by_contra hLt
    have hSame := List.inj_on_of_nodup_map h (List.mem_range.2 (hm.trans (not_le.1 hLt)))
      (List.mem_range.2 (not_le.1 hLt)) (by simp)
    omega
  · intro hLe
    rw [(range_map_mod_eq_iff hm).2 hLe]
    exact List.nodup_range n

namespace SerialId

/-- The values of `n` gets on a fresh counter are distinct exactly when the
counter has not wrapped, at the width of `usize` or at that of `u64`. -/
theorem getMany_new_nodup_iff (bits n : Nat) :
    ((new bits).getMany n).1.Nodup ↔ n ≤ 2 ^ min bits 64 := by
  rw [← range_map_mod_nodup_iff (Nat.two_pow_pos _), ← getMany_new_toNat]
  exact ⟨fun h => h.map_on fun _ _ _ _ => UInt64.toNat.inj, List.Nodup.of_map _⟩

/-- The `k`-th of `n` gets on a fresh counter returns `k` modulo `2 ^ w`, where
`w` is the width of `usize` or the 64 bits of `u64`, whichever is narrower: the
values are `0, 1, …, n - 1`, and pairwise distinct, exactly when `n ≤ 2 ^ w`. -/
theorem ids_distinct_iff_within_width (bits n : Nat) :
    ((new bits).getMany n).1.map UInt64.toNat = (List.range n).map (· % 2 ^ min bits 64) ∧
      (((new bits).getMany n).1.map UInt64.toNat = List.range n ↔ n ≤ 2 ^ min bits 64) ∧
      (((new bits).getMany n).1.Nodup ↔ n ≤ 2 ^ min bits 64) := by
  have hValues := getMany_new_toNat bits n
  exact ⟨hValues, hValues ▸ range_map_mod_eq_iff (Nat.two_pow_pos _), getMany_new_nodup_iff bits n⟩

/-- On a 32-bit target, the get after the first `2 ^ 32` returns the first id,
`0`, again. -/
theorem id_repeats_on_32_bit :
    2 ^ 32 + 1 ≤ 2 ^ 64 ∧ ((new 32).getMany (2 ^ 32 + 1)).1[0]? = some 0 ∧
      ((new 32).getMany (2 ^ 32 + 1)).1[2 ^ 32]? = some 0 := by
  rw [getMany_values _ (Nat.two_pow_pos _)]
  refine ⟨(by decide), ?_, ?_⟩ <;> simp [new]

end SerialId

end PulsarConnection
