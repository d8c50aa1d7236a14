import IpcMsq.Hash
import IpcMsq.Process

/-!
The result of the library's `ipc_ftok`: one `INT16` that is the key of the name or an
error code. The key may be any 16-bit number, and a name whose hash is one of the
three codes looks like a failure; given the characters before it, the last one
decides about that. Names of up to nine 7-bit characters are safe.
-/
namespace IpcMsq.KeyErrors
open IpcMsq.Memory IpcMsq.Common IpcMsq.Table IpcMsq.Tokens IpcMsq.Device IpcMsq.Process IpcMsq.Hash

/-- What `ipc_ftok` returns where it fails. -/
def IsError (ret : INT16) : Prop := ret = -1 ∨ ret = -2 ∨ ret = -3

/-- The keys that are read as these. -/
def errorKeys : List UINT16 := [0xFFFF,0xFFFE,0xFFFD]

/-- The driver's side of a call: its state, and what becomes of the ioctl. -/
structure FtokEnv where
  sign : CharSign
  g : Option IPC_MSQINFO
  copy_from_user : Bool
  copy_to_user : Bool
  noReturn : INT32

def FtokEnv.ioctl (e : FtokEnv) (msg : IPC_IOC_MSGQUE_FTOK) : INT32 × IPC_IOC_MSGQUE_FTOK :=
  let (ret,_,msg) := ioctl_MSGQUE_FTOK e.sign e.g msg e.copy_from_user e.copy_to_user e.noReturn
  (ret,msg)

/-- The device is open and the ioctl reports success. -/
def Succeeds (e : FtokEnv) (path : Option (List UInt8)) (opened : INT32) (msg : IPC_IOC_MSGQUE_FTOK) (s : Statics) : Prop :=
  ∃ p, path = some p ∧ 0 ≤ (ipc_open opened s).ret ∧ 0 ≤ (e.ioctl { msg with path := userPath p msg.path }).1

/-- The last character does not add up to one of the codes with the rotated hash of
    the characters before it. -/
def LastApart (sign : CharSign) (name : List UInt8) : Prop :=
  ∀ before c, name = before ++ [c] → ∀ code ∈ errorKeys,
    promote sign c ≠ code - rotated (ipc_msgque_namehash sign before)

section
variable {e : FtokEnv} {path : Option (List UInt8)} {opened : INT32} {msg : IPC_IOC_MSGQUE_FTOK} {s : Statics}

/-- A call that does not succeed returns an error. -/
theorem failure_isError (fails : ¬ Succeeds e path opened msg s) : IsError (ipc_ftok path opened e.ioctl msg s).ret := by
  cases path with
  | none => exact .inl rfl
  | some p =>
    simp only [ipc_ftok]
    by_cases closed : (ipc_open opened s).ret < 0
    · rw [if_pos closed]
      exact .inr (.inl rfl)
    · by_cases refused : (e.ioctl { msg with path := userPath p msg.path }).1 < 0
      · rw [if_neg closed,if_pos refused]
        exact .inr (.inr rfl)
      · exact absurd ⟨p,rfl,Int32.not_lt.mp closed,Int32.not_lt.mp refused⟩ fails

/-- The string in the struct is the path, cut after 32 characters. -/
theorem cstr_userPath (p old : List UInt8) : cstr (userPath p old) = (cstr p).take 32 := by
  have copied : (List.range 32).map (fun k => (cstr p).getD k 0) =
      (cstr p).take 32 ++ List.replicate (32 - (cstr p).length) 0 := by
    apply List.ext_getElem
    · simp
      omega
    · intro k left right
      have inside : k < 32 := by simpa using left
      by_cases char : k < (cstr p).length
      · simp [inside,char]
      · simp [List.getElem_append,inside,char]
  have nonzero : ∀ c ∈ (cstr p).take 32, c ≠ 0 := fun c listed => cstr_nonzero (List.mem_of_mem_take listed)
  simp only [userPath,IPC_MSG_QUEUE_TOKEN_STR_MAXLEN,copied]
  cases 32 - (cstr p).length with
  | zero => simpa using cstr_of_nonzero nonzero _
  | succ n =>
    rw [List.replicate_succ,List.append_assoc,List.cons_append]
    exact cstr_of_nonzero nonzero _

/-- An ioctl that reports success hands out what the driver's call returned. -/
theorem ioctl_key (answered : 0 ≤ (e.ioctl msg).1) : (e.ioctl msg).2.rtn_key = (ipc_msgque_ftok e.sign e.g msg.path).1 := by
  have fault : ¬ (0 : INT32) ≤ -EFAULT := by decide
  simp only [FtokEnv.ioctl,ioctl_MSGQUE_FTOK] at answered ⊢
  by_cases unread : e.copy_from_user = false
  · rw [if_pos unread] at answered
    exact absurd answered fault
  · rw [if_neg unread] at answered ⊢
    by_cases unwritten : e.copy_to_user = false
    · rw [if_pos unwritten] at answered
      exact absurd answered fault
    · rw [if_neg unwritten]

/-- What a call that succeeds returns. -/
theorem success_ret {p : List UInt8} (succeeds : Succeeds e (some p) opened msg s) : (ipc_ftok (some p) opened e.ioctl msg s).ret =
    match e.g with
    | none => -1
    | some _ => (ipc_msgque_namehash e.sign ((cstr p).take 32)).toInt16 := by
  obtain ⟨_,⟨⟩,opens,answered⟩ := succeeds
  simp only [ipc_ftok,if_neg (Int32.not_lt.mpr opens),if_neg (Int32.not_lt.mpr answered),ioctl_key answered]
  cases e.g with
  | none => rfl
  | some info =>
    have key : (ipc_msgque_ftok e.sign (some info) (userPath p msg.path)).1 =
        ipc_msgque_namehash e.sign (userPath p msg.path) := rfl
    rw [key,← namehash_cstr,cstr_userPath]

end

theorem isError_key (hash : UINT16) : IsError hash.toInt16 ↔ hash ∈ errorKeys := by
  have code (v : UINT16) : hash.toInt16 = v.toInt16 ↔ hash = v := by
    constructor
    · intro same
      rw [← UInt16.toUInt16_toInt16 hash,same,UInt16.toUInt16_toInt16]
    · rintro rfl
      rfl
  have one : hash.toInt16 = -1 ↔ hash = 0xFFFF := code 0xFFFF
  have two : hash.toInt16 = -2 ↔ hash = 0xFFFE := code 0xFFFE
  have three : hash.toInt16 = -3 ↔ hash = 0xFFFD := code 0xFFFD
  simp only [IsError,errorKeys,one,two,three,List.mem_cons,List.not_mem_nil,or_false]

section
variable {sign : CharSign} {name : List UInt8}

/-- The last turn of the loop decides whether the hash is a code. -/
theorem lastApart_iff (nonzero : ∀ c ∈ name, c ≠ 0) : LastApart sign name ↔ ipc_msgque_namehash sign name ∉ errorKeys := by
  rcases List.eq_nil_or_concat name with rfl | ⟨before,c,rfl⟩
  · rw [namehash_nil]
    refine iff_of_true (fun before c same => ?_) (by decide)
    simp at same
  · rw [List.concat_eq_append] at nonzero ⊢
    have last : c ≠ 0 := nonzero c (by simp)
    have turn : ipc_msgque_namehash sign (before ++ [c]) = rotated (ipc_msgque_namehash sign before) + promote sign c := by
      rw [ipc_msgque_namehash,namehashFrom_append sign fun d listed => nonzero d (by simp [listed])]
      simp only [namehashFrom,last,if_false]
      rfl
    rw [turn]
    constructor
    · intro apart listed
      refine apart before c rfl _ listed ?_
      rw [UInt16.add_comm,UInt16.add_sub_cancel]
    · rintro outside before' c' same code listed equal
      obtain ⟨rfl,rfl⟩ : before = before' ∧ c = c' := by simpa using same
      rw [equal,UInt16.add_comm,UInt16.sub_add_cancel] at outside
      exact outside listed

/-- A character below 128 counts the same for both signs. -/
theorem promote_low {c : UInt8} (low : c.toNat < 128) : (promote sign c).toNat = c.toNat := by
  have all : ∀ n < 128, (promote .signed (UInt8.ofNat n)).toNat = n := by decide
  cases sign with
  | signed => simpa using all c.toNat low
  | unsigned => exact UInt8.toNat_toUInt16 c

/-- Each turn with such a character at most halves the distance to 65789. -/
theorem hashStep_low {hash : UINT16} {c : UInt8} (low : c.toNat < 128) :
    65789 - hash.toNat ≤ 2 * (65789 - (hashStep sign hash c).toNat) := by
  have bound := hash.toNat_lt
  rw [hashStep_eq,UInt16.toNat_add,rotated_toNat,promote_low low]
  rcases Nat.mod_two_eq_zero_or_one hash.toNat with even | odd
  · rw [even]
    omega
  · rw [odd]
    omega

theorem namehashFrom_low {hash : UINT16} (low : ∀ c ∈ name, c.toNat < 128) :
    65789 - hash.toNat ≤ 2 ^ name.length * (65789 - (namehashFrom sign name hash).toNat) := by
  induction name generalizing hash with
  | nil => simp [namehashFrom]
  | cons c rest ih =>
    have step : 65789 - hash.toNat ≤ 2 * (65789 - (hashStep sign hash c).toNat) := hashStep_low (low c List.mem_cons_self)
    have later : 65789 - (hashStep sign hash c).toNat ≤
        2 ^ rest.length * (65789 - (namehashFrom sign rest (hashStep sign hash c)).toNat) :=
      ih fun d listed => low d (List.mem_cons_of_mem c listed)
    by_cases stop : c = 0
    · simp only [namehashFrom,stop,if_true]
      exact Nat.le_mul_of_pos_left _ (Nat.two_pow_pos _)
    · simp only [namehashFrom,stop,if_false,List.length_cons,Nat.pow_succ']
      calc 65789 - hash.toNat ≤ 2 * (65789 - (hashStep sign hash c).toNat) := step
        _ ≤ 2 * (2 ^ rest.length * (65789 - (namehashFrom sign rest (hashStep sign hash c)).toNat)) :=
          Nat.mul_le_mul_left 2 later
        _ = 2 * 2 ^ rest.length * (65789 - (namehashFrom sign rest (hashStep sign hash c)).toNat) :=
          (Nat.mul_assoc 2 _ _).symm

/-- The hash of up to nine characters below 128 is no code: the first leaves it at
    127 at most, and the others do not bring it to 65533. -/
theorem lastApart_short (nonzero : ∀ c ∈ name, c ≠ 0) (low : ∀ c ∈ name, c.toNat < 128) (short : name.length ≤ 9) :
    LastApart sign name := by
  refine (lastApart_iff nonzero).mpr ?_
  cases name with
  | nil => rw [namehash_nil]; decide
  | cons c rest =>
    have first : (hashStep sign 0 c).toNat = c.toNat := by
      rw [hashStep_eq,UInt16.toNat_add,rotated_toNat,promote_low (low c List.mem_cons_self)]
      have bound := c.toNat_lt
      simp only [UInt16.toNat_zero]
      omega
    have small := low c List.mem_cons_self
    have far : 65789 - (hashStep sign 0 c).toNat ≤
        2 ^ rest.length * (65789 - (namehashFrom sign rest (hashStep sign 0 c)).toNat) :=
      namehashFrom_low fun d listed => low d (List.mem_cons_of_mem c listed)
    have few : 2 ^ rest.length ≤ 2 ^ 8 := by
      rw [List.length_cons] at short
      exact Nat.pow_le_pow_right (by omega) (by omega)
    have below : (ipc_msgque_namehash sign (c :: rest)).toNat < 65533 := by
      have char : c ≠ 0 := nonzero c List.mem_cons_self
      simp only [ipc_msgque_namehash,namehashFrom,char,if_false]
      have most := far.trans (Nat.mul_le_mul_right _ few)
      omega
    intro listed
    simp only [errorKeys,List.mem_cons,List.not_mem_nil,or_false] at listed
    rcases listed with code | code | code <;> rw [code] at below <;> exact absurd below (by decide)

end

/-- For every state of the driver and every path: where the ioctl succeeds, the result
    is none of the error codes exactly if there is a queue table and the last of the
    first 32 characters does not complete the hash to a code; where it does not, the
    result is a code. -/
theorem keys_apart_iff (e : FtokEnv) :
    (∀ p opened msg s, Succeeds e (some p) opened msg s →
      (¬ IsError (ipc_ftok (some p) opened e.ioctl msg s).ret ↔ e.g ≠ none ∧ LastApart e.sign ((cstr p).take 32))) ∧
    ∀ path opened msg s, ¬ Succeeds e path opened msg s → IsError (ipc_ftok path opened e.ioctl msg s).ret := by
  refine ⟨fun p opened msg s succeeds => ?_,fun path opened msg s => failure_isError⟩
  rw [success_ret succeeds]
  cases e.g with
  | none => exact iff_of_false (fun apart => apart (.inl rfl)) fun meets => meets.1 rfl
  | some info =>
    have nonzero : ∀ c ∈ (cstr p).take 32, c ≠ 0 := fun c listed => cstr_nonzero (List.mem_of_mem_take listed)
    rw [lastApart_iff nonzero]
    simp only [isError_key,ne_eq,reduceCtorEq,not_false_eq_true,true_and]

/-- The driver with one queue; `copied` tells whether the ioctl can read the path. -/
def served (sign : CharSign) (copied : Bool) : FtokEnv := ⟨sign,some firstQueue,copied,true,0⟩

/-- A call as the first of its process, the device being opened as descriptor 3. -/
def firstCall (e : FtokEnv) (path : List UInt8) : INT16 := (ipc_ftok (some path) 3 e.ioctl ⟨[],0⟩ ⟨-1,0⟩).ret

theorem served_succeeds (sign : CharSign) (path : List UInt8) : Succeeds (served sign true) (some path) 3 ⟨[],0⟩ ⟨-1,0⟩ := by
  refine ⟨path,rfl,by decide,?_⟩
  exact show (0 : INT32) ≤ 0 by decide

/-- The name `demoipc` is told from an error. -/
theorem keys_apart_iff_demoipc : Succeeds (served .signed true) (some [100,101,109,111,105,112,99,0]) 3 ⟨[],0⟩ ⟨-1,0⟩ ∧
    ¬ IsError (firstCall (served .signed true) [100,101,109,111,105,112,99,0]) := by
  have succeeds := served_succeeds .signed [100,101,109,111,105,112,99,0]
  have name : (cstr [100,101,109,111,105,112,99,0]).take 32 = [100,101,109,111,105,112,99] := by decide
  refine ⟨succeeds,((keys_apart_iff (served .signed true)).1 _ 3 _ _ succeeds).mpr ⟨by simp [served],?_⟩⟩
  rw [name]
  exact lastApart_short (by simp) (by simp) (by simp)

/-- The name `ababbabaaagz` succeeds with the result of a failed ioctl, whatever the
    sign of `char`; with a signed one, three names of one character succeed with the
    three codes. -/
theorem key_is_error :
    (∀ sign, Succeeds (served sign true) (some [97,98,97,98,98,97,98,97,97,97,103,122,0]) 3 ⟨[],0⟩ ⟨-1,0⟩ ∧
      ¬ Succeeds (served sign false) (some [97,98,97,98,98,97,98,97,97,97,103,122,0]) 3 ⟨[],0⟩ ⟨-1,0⟩ ∧
      firstCall (served sign true) [97,98,97,98,98,97,98,97,97,97,103,122,0] = -3 ∧
      firstCall (served sign false) [97,98,97,98,98,97,98,97,97,97,103,122,0] = -3) ∧
    [[255,0],[254,0],[253,0]].map (firstCall (served .signed true)) = [-1,-2,-3] := by
  refine ⟨fun sign => ⟨served_succeeds sign _,?_,?_,rfl⟩,by decide +kernel⟩
  · rintro ⟨_,_,_,answered⟩
    exact absurd answered (show ¬ (0 : INT32) ≤ -EFAULT by decide)
  · cases sign <;> decide +kernel

end IpcMsq.KeyErrors
