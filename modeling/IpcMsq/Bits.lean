import Mathlib.Tactic.Common

/-!
One-bit fields of a 32-bit register. An assignment to a field reads as the value in
its bit and leaves every other bit.
-/
namespace IpcMsq.Bits

/-- Bit `i` of a register. -/
def bit (reg : UInt32) (i : Nat) : Bool := reg.toBitVec.getLsbD i

/-- An assignment to the field at bit `i`. -/
def setBit (reg : UInt32) (i : Nat) (v : Bool) : UInt32 :=
  (reg &&& ~~~ (1 <<< UInt32.ofNat i)) ||| (if v then 1 <<< UInt32.ofNat i else 0)

theorem one_shiftLeft {n : UInt32} (small : n.toNat < 32) : (1 <<< n : UInt32).toBitVec = BitVec.twoPow 32 n.toNat := by
  have count : n.toBitVec % 32#32 = n.toBitVec := by
    apply BitVec.eq_of_toNat_eq
    simp
    omega
  rw [UInt32.toBitVec_shiftLeft,BitVec.twoPow_eq]
  simp [count]

section
variable {reg reg' : UInt32} {i k : Nat} {v : Bool}

theorem bit_or : bit (reg ||| reg') k = (bit reg k || bit reg' k) := by
  rw [bit,UInt32.toBitVec_or,BitVec.getLsbD_or]
  rfl

/-- Beyond the register there is no bit to be cleared. -/
theorem bit_and_not : bit (reg &&& ~~~ reg') k = (bit reg k && !bit reg' k) := by
  rw [bit,UInt32.toBitVec_and,UInt32.toBitVec_not,BitVec.getLsbD_and,BitVec.getLsbD_not]
  by_cases inside : k < 32
  · simp [bit,inside]
  · simp [bit,BitVec.getLsbD_of_ge reg.toBitVec k (by omega)]

theorem bit_shiftLeft (inside : i < 32) : bit (1 <<< UInt32.ofNat i) k = decide (i = k) := by
  have number : (UInt32.ofNat i).toNat = i := by
    rw [UInt32.toNat_ofNat']
    omega
  rw [bit,one_shiftLeft (by omega),number,BitVec.getLsbD_twoPow]
  simp [inside]

theorem bit_setBit (inside : i < 32) : bit (setBit reg i v) k = if k = i then v else bit reg k := by
  rw [setBit,bit_or,bit_and_not,bit_shiftLeft inside]
  by_cases own : k = i
  · cases v with
    | false => simp [own,bit]
    | true => simp [own,bit_shiftLeft inside]
  · cases v with
    | false => simp [own,Ne.symm own,bit]
    | true => simp [own,Ne.symm own,bit_shiftLeft inside]

end

end IpcMsq.Bits
