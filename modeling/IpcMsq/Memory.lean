import Mathlib.Tactic.Common
import Mathlib.Algebra.Group.Nat.Defs
import Mathlib.Data.List.TakeWhile

/-!
Byte-addressed memory with little-endian 32-bit words, block copies and C
strings. Copies carry their length at run time and write wherever it reaches,
so a copy longer than its destination shows in the bytes behind it; every
reading lemma asks only that the ranges are apart.
-/
namespace IpcMsq.Memory

/-- The byte at each address. -/
abbrev Mem := Nat → UInt8

/-- `memcpy(dst, src, n)`: the bytes from `dst` on become `src 0 .. src (n-1)`. -/
def copy (m : Mem) (dst : Nat) (src : Nat → UInt8) (n : Nat) : Mem :=
  fun a => if dst ≤ a ∧ a < dst + n then src (a - dst) else m a

/-- A one-byte store. -/
def store8 (m : Mem) (a : Nat) (b : UInt8) : Mem := copy m a (fun _ => b) 1

/-- The `k`-th byte of a word, the lowest first. -/
def byteOf (v : UInt32) (k : Nat) : UInt8 := UInt8.ofNat (v.toNat / 256 ^ k)

def store32 (m : Mem) (a : Nat) (v : UInt32) : Mem := copy m a (byteOf v) 4

def load32 (m : Mem) (a : Nat) : UInt32 :=
  UInt32.ofNat ((m a).toNat + 256 * (m (a+1)).toNat + 65536 * (m (a+2)).toNat + 16777216 * (m (a+3)).toNat)

/-- The `n` bytes from an address on. -/
def bytes (m : Mem) (a n : Nat) : List UInt8 := (List.range n).map fun k => m (a + k)

/-- The characters of a C string: what precedes the first NUL. -/
def cstr (s : List UInt8) : List UInt8 := s.takeWhile (· ≠ 0)

/-- `strncpy(dst, src, n)`: the characters of `src`, cut at `n` and padded with NUL up to `n`. -/
def strncpy (m : Mem) (dst : Nat) (src : List UInt8) (n : Nat) : Mem :=
  copy m dst (fun k => (cstr src).getD k 0) n

section
variable {m m' : Mem} {a b dst n : Nat} {src : Nat → UInt8} {v : UInt32}

theorem copy_inside (low : dst ≤ a) (high : a < dst + n) : copy m dst src n a = src (a - dst) := by
  simp [copy,low,high]

theorem copy_at {k : Nat} (inside : k < n) : copy m dst src n (dst + k) = src k := by
  rw [copy_inside (by omega) (by omega)]
  congr 1
  omega

theorem copy_outside (apart : a < dst ∨ dst + n ≤ a) : copy m dst src n a = m a := by
  have outside : ¬ (dst ≤ a ∧ a < dst + n) := by omega
  simp only [copy,outside,if_false]

/-- A copy depends on the bytes it copies only. -/
theorem copy_congr {src' : Nat → UInt8} (same : ∀ k < n, src k = src' k) : copy m dst src n = copy m dst src' n := by
  funext a
  by_cases inside : dst ≤ a ∧ a < dst + n
  · simp only [copy,inside,and_self,if_true]
    exact same _ (by omega)
  · simp only [copy,inside,if_false]

/-- Copies to ranges that are apart commute. -/
theorem copy_comm {dst' n' : Nat} {src' : Nat → UInt8} (apart : dst + n ≤ dst' ∨ dst' + n' ≤ dst) :
    copy (copy m dst src n) dst' src' n' = copy (copy m dst' src' n') dst src n := by
  funext a
  by_cases first : dst ≤ a ∧ a < dst + n
  · rw [copy_outside (by omega),copy_inside first.1 first.2,copy_inside first.1 first.2]
  · have outside : a < dst ∨ dst + n ≤ a := by omega
    rw [copy_outside outside]
    simp only [copy,first,if_false]

/-- A second copy to the same range hides the first. -/
theorem copy_copy (src' : Nat → UInt8) : copy (copy m dst src n) dst src' n = copy m dst src' n := by
  funext a
  by_cases inside : dst ≤ a ∧ a < dst + n
  · rw [copy_inside inside.1 inside.2,copy_inside inside.1 inside.2]
  · simp only [copy,inside,if_false]

theorem store8_same (x : UInt8) : store8 m a x a = x := copy_inside (by omega) (by omega)

theorem store8_outside (x : UInt8) (apart : a ≠ b) : store8 m b x a = m a := copy_outside (by omega)

theorem store32_outside (apart : a < b ∨ b + 4 ≤ a) : store32 m b v a = m a := copy_outside apart

/-- A word depends on its four bytes only. -/
theorem load32_congr (same : ∀ k < 4, m (a + k) = m' (b + k)) : load32 m a = load32 m' b := by
  have zero := same 0 (by omega)
  have one := same 1 (by omega)
  have two := same 2 (by omega)
  have three := same 3 (by omega)
  simp only [Nat.add_zero] at zero
  simp only [load32,zero,one,two,three]

theorem load32_copy_apart (apart : a + 4 ≤ dst ∨ dst + n ≤ a) : load32 (copy m dst src n) a = load32 m a :=
  load32_congr fun k inside => copy_outside (by omega)

theorem load32_store32_apart (apart : a + 4 ≤ b ∨ b + 4 ≤ a) : load32 (store32 m b v) a = load32 m a :=
  load32_copy_apart apart

theorem load32_store8_apart (x : UInt8) (apart : a + 4 ≤ b ∨ b + 1 ≤ a) : load32 (store8 m b x) a = load32 m a :=
  load32_copy_apart apart

/-- The four bytes of a word make the word. -/
theorem load32_store32 : load32 (store32 m a v) a = v := by
  have byte (k : Nat) (inside : k < 4) : store32 m a v (a + k) = byteOf v k := copy_at inside
  have zero := byte 0 (by omega)
  simp only [Nat.add_zero] at zero
  rw [load32,zero,byte 1 (by omega),byte 2 (by omega),byte 3 (by omega)]
  apply UInt32.toNat_inj.mp
  have bound := v.toNat_lt
  simp only [byteOf,UInt32.toNat_ofNat',UInt8.toNat_ofNat']
  omega

theorem bytes_length : (bytes m a n).length = n := by simp [bytes]

theorem bytes_getD {k : Nat} (inside : k < n) (d : UInt8) : (bytes m a n).getD k d = m (a + k) := by
  simp [bytes,inside]

theorem bytes_congr (same : ∀ k < n, m (a + k) = m' (b + k)) : bytes m a n = bytes m' b n :=
  List.map_congr_left fun k inside => same k (List.mem_range.mp inside)

theorem bytes_append (m : Mem) (a n k : Nat) : bytes m a (n + k) = bytes m a n ++ bytes m (a + n) k := by
  simp [bytes,List.range_add,Nat.add_assoc]

theorem bytes_copy_apart {k : Nat} (apart : a + k ≤ dst ∨ dst + n ≤ a) :
    bytes (copy m dst src n) a k = bytes m a k :=
  bytes_congr fun j inside => copy_outside (by omega)

theorem bytes_store32_apart {k : Nat} (apart : a + k ≤ b ∨ b + 4 ≤ a) :
    bytes (store32 m b v) a k = bytes m a k := bytes_copy_apart apart

/-- A copy reads back as its source. -/
theorem bytes_copy : bytes (copy m dst src n) dst n = bytes src 0 n :=
  bytes_congr fun k inside => by rw [copy_at inside,Nat.zero_add]

end

section
variable {s : List UInt8}

theorem cstr_nonzero {c : UInt8} (member : c ∈ cstr s) : c ≠ 0 := by
  simpa using List.mem_takeWhile_imp member

theorem cstr_of_nonzero (nonzero : ∀ c ∈ s, c ≠ 0) (rest : List UInt8) : cstr (s ++ 0 :: rest) = s := by
  simp only [cstr]
  rw [List.takeWhile_append_of_pos (by simpa using nonzero)]
  simp

theorem cstr_cons (c : UInt8) (s : List UInt8) : cstr (c :: s) = if c = 0 then [] else c :: cstr s := by
  by_cases stop : c = 0 <;> simp [cstr,stop]

/-- A string that ends in the first part does not depend on what follows. -/
theorem cstr_append {t : List UInt8} (ends : 0 ∈ s) : cstr (s ++ t) = cstr s := by
  obtain ⟨before,after,rfl⟩ := List.append_of_mem ends
  clear ends
  induction before with
  | nil => simp [cstr_cons]
  | cons c rest ih => simp only [List.cons_append,cstr_cons,ih]

theorem cstr_eq_nil {c : UInt8} : cstr (c :: s) = [] ↔ c = 0 := by
  by_cases stop : c = 0 <;> simp [cstr_cons,stop]

/-- A string read from memory: its characters, then a NUL. -/
theorem cstr_bytes {m : Mem} {a n : Nat} (fits : s.length < n) (nonzero : ∀ c ∈ s, c ≠ 0)
    (chars : ∀ k (inside : k < s.length), m (a + k) = s[k]) (stop : m (a + s.length) = 0) :
    cstr (bytes m a n) = s := by
  have split : bytes m a n = s ++ 0 :: bytes m (a + s.length + 1) (n - s.length - 1) := by
    apply List.ext_getElem
    · simp [bytes_length]; omega
    · intro k left right
      rcases Nat.lt_trichotomy k s.length with less | same | more
      · simp [bytes,List.getElem_append_left less,chars k less]
      · subst same
        simp [bytes,stop]
      · obtain ⟨j,rfl⟩ := Nat.exists_eq_add_of_lt more
        simp [bytes,List.getElem_append_right,Nat.add_assoc]
        congr 1
        omega
  rw [split,cstr_of_nonzero nonzero]

end

end IpcMsq.Memory
