import IpcMsq.Tokens

/-!
The hash that makes a key of a name. A turn of its loop rotates the 16 bits and adds
a character, and loses nothing of either: names that differ in one character have
different keys, and prefixes with different hashes keep them different whatever is
appended.
-/
namespace IpcMsq.Hash
open IpcMsq.Memory IpcMsq.Common IpcMsq.Table IpcMsq.Tokens

/-! ### One turn -/

/-- The hash rotated right by one bit. -/
def rotated (hash : UINT16) : UINT16 := (if hash &&& 1 ≠ 0 then (0x8000 : UINT16) else 0) + (hash >>> 1)

theorem hashStep_eq (sign : CharSign) (hash : UINT16) (c : UInt8) : hashStep sign hash c = rotated hash + promote sign c := rfl

/-- The lowest bit becomes the highest, and the sum of the two parts does not overflow. -/
theorem rotated_toNat (hash : UINT16) : (rotated hash).toNat = 32768 * (hash.toNat % 2) + hash.toNat / 2 := by
  have bound := hash.toNat_lt
  have low : (hash &&& 1).toNat = hash.toNat % 2 := Nat.and_one_is_mod _
  have half : (hash >>> 1).toNat = hash.toNat / 2 := by
    rw [UInt16.toNat_shiftRight]
    exact Nat.shiftRight_eq_div_pow _ 1
  by_cases odd : hash &&& 1 = 0
  · have even : hash.toNat % 2 = 0 := by rw [← low,odd]; rfl
    simp only [rotated,odd,ne_eq,not_true_eq_false,if_false,UInt16.zero_add,half,even]
    omega
  · have one : hash.toNat % 2 = 1 := by
      have some : (hash &&& 1).toNat ≠ 0 := fun none => odd (UInt16.toNat_inj.mp none)
      omega
    have top : (0x8000 : UINT16).toNat = 32768 := rfl
    simp only [rotated,odd,ne_eq,not_false_eq_true,if_true,UInt16.toNat_add,half,one,top]
    omega

theorem rotated_injective : Function.Injective rotated := by
  intro hash hash' same
  have bits := congrArg UInt16.toNat same
  have bound := hash.toNat_lt
  have bound' := hash'.toNat_lt
  rw [rotated_toNat,rotated_toNat] at bits
  apply UInt16.toNat_inj.mp
  omega

/-- Sign extension keeps characters apart, and so does zero extension. -/
theorem promote_injective (sign : CharSign) : Function.Injective (promote sign) := by
  intro c d same
  cases sign with
  | signed =>
    have back (c : UInt8) : (promote .signed c).toInt16.toInt8.toUInt8 = c := by simp [promote]
    rw [← back c,same,back]
  | unsigned =>
    have back (c : UInt8) : (promote .unsigned c).toUInt8 = c := by simp [promote]
    rw [← back c,same,back]

section
variable (sign : CharSign)

/-- A turn forgets nothing of the hash before it. -/
theorem hashStep_injective (c : UInt8) : Function.Injective fun hash => hashStep sign hash c := by
  intro hash hash' same
  exact rotated_injective ((UInt16.add_left_inj _).mp same)

/-- Nor of the character. -/
theorem hashStep_char_injective (hash : UINT16) : Function.Injective (hashStep sign hash) := by
  intro c d same
  exact promote_injective sign ((UInt16.add_right_inj _).mp same)

/-! ### The loop -/

theorem namehashFrom_append {before : List UInt8} (nonzero : ∀ c ∈ before, c ≠ 0) (behind : List UInt8) (hash : UINT16) :
    namehashFrom sign (before ++ behind) hash = namehashFrom sign behind (namehashFrom sign before hash) := by
  induction before generalizing hash with
  | nil => rfl
  | cons c rest ih =>
    have char : c ≠ 0 := nonzero c List.mem_cons_self
    simp only [List.cons_append,namehashFrom,char,if_false]
    exact ih (fun d later => nonzero d (List.mem_cons_of_mem c later)) _

/-- The loop over any memory keeps different hashes different. -/
theorem namehashFrom_injective (s : List UInt8) : Function.Injective (namehashFrom sign s) := by
  induction s with
  | nil => exact fun hash hash' same => same
  | cons c rest ih =>
    intro hash hash' same
    by_cases stop : c = 0
    · simpa [namehashFrom,stop] using same
    · simp only [namehashFrom,stop,if_false] at same
      exact hashStep_injective sign c (ih same)

end

/-! ### Names -/

/-- Two names of one length that differ in exactly one position. -/
def DifferOnce (name name' : List UInt8) : Prop :=
  name.length = name'.length ∧ ∃ i < name.length, name[i]? ≠ name'[i]? ∧ ∀ j, j ≠ i → name[j]? = name'[j]?

/-- Such names agree before the position and behind it. -/
theorem differOnce_split {name name' : List UInt8} (differ : DifferOnce name name') :
    ∃ before c d behind, c ≠ d ∧ name = before ++ c :: behind ∧ name' = before ++ d :: behind := by
  obtain ⟨same,i,inside,apart,agree⟩ := differ
  have inside' : i < name'.length := by omega
  refine ⟨name.take i,name[i],name'[i],name.drop (i + 1),?_,?_,?_⟩
  · rintro equal
    simp [inside,inside',equal] at apart
  · simp
  · have before : name.take i = name'.take i := by
      apply List.ext_getElem?
      intro j
      simp only [List.getElem?_take]
      split
      · exact agree j (by omega)
      · rfl
    have behind : name.drop (i + 1) = name'.drop (i + 1) := by
      apply List.ext_getElem?
      intro j
      simp only [List.getElem?_drop]
      exact agree _ (by omega)
    rw [before,behind]
    simp

/-- For both signs of `char`: two names of any length that differ in exactly one
    position have different keys; and two prefixes with different hashes have
    different hashes behind every common suffix. -/
theorem one_change_changes_key (sign : CharSign) :
    (∀ path path' : List UInt8, DifferOnce (cstr path) (cstr path') →
      ipc_msgque_namehash sign path ≠ ipc_msgque_namehash sign path') ∧
    ∀ before before' suffix : List UInt8, (∀ c ∈ before, c ≠ 0) → (∀ c ∈ before', c ≠ 0) →
      ipc_msgque_namehash sign before ≠ ipc_msgque_namehash sign before' →
      ipc_msgque_namehash sign (before ++ suffix) ≠ ipc_msgque_namehash sign (before' ++ suffix) := by
  constructor
  · intro path path' differ same
    obtain ⟨before,c,d,behind,apart,name,name'⟩ := differOnce_split differ
    have char {x : UInt8} (listed : x ∈ cstr path) : x ≠ 0 := cstr_nonzero listed
    have char' {x : UInt8} (listed : x ∈ cstr path') : x ≠ 0 := cstr_nonzero listed
    rw [name] at char
    rw [name'] at char'
    have nonzero : ∀ x ∈ before, x ≠ 0 := fun x listed => char (by simp [listed])
    have first : c ≠ 0 := char (by simp)
    have first' : d ≠ 0 := char' (by simp)
    rw [← namehash_cstr,← namehash_cstr sign path',name,name'] at same
    simp only [ipc_msgque_namehash,namehashFrom_append sign nonzero,namehashFrom,first,first',if_false] at same
    exact apart (hashStep_char_injective sign _ (namehashFrom_injective sign behind same))
  · intro before before' suffix nonzero nonzero' apart same
    simp only [ipc_msgque_namehash,namehashFrom_append sign nonzero,namehashFrom_append sign nonzero'] at same
    exact apart (namehashFrom_injective sign suffix same)

/-- The names `q1` and `q2`, and the same with a common ending. -/
theorem one_change_changes_key_q1_q2 :
    ipc_msgque_namehash .signed [113,49,0] ≠ ipc_msgque_namehash .signed [113,50,0] ∧
      ipc_msgque_namehash .signed [113,49,105,112,99,0] ≠ ipc_msgque_namehash .signed [113,50,105,112,99,0] := by
  have differ : DifferOnce (cstr [113,49,0]) (cstr [113,50,0]) := by
    refine ⟨rfl,1,by decide,by decide,fun j other => ?_⟩
    match j with
    | 0 => rfl
    | j + 2 => rfl
  have apart := (one_change_changes_key .signed).1 [113,49,0] [113,50,0] differ
  have hashes : ipc_msgque_namehash .signed [113,49] ≠ ipc_msgque_namehash .signed [113,50] := by decide
  exact ⟨apart,(one_change_changes_key .signed).2 [113,49] [113,50] [105,112,99,0] (by simp) (by simp) hashes⟩

end IpcMsq.Hash
