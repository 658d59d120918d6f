import Mathlib

set_option autoImplicit false

namespace Bytes

-- Big-endian fields inside a byte buffer. A read past the end yields zero and
-- a write past the end is dropped, so every operation keeps the length.
abbrev Byte := BitVec 8
abbrev Buffer := List Byte

def get8 (buf : Buffer) (i : Nat) : BitVec 8 := buf.getD i 0

def get16 (buf : Buffer) (i : Nat) : BitVec 16 := get8 buf i ++ get8 buf (i + 1)

def get32 (buf : Buffer) (i : Nat) : BitVec 32 := get16 buf i ++ get16 buf (i + 2)

def put8 (buf : Buffer) (i : Nat) (value : BitVec 8) : Buffer := buf.set i value

def put16 (buf : Buffer) (i : Nat) (value : BitVec 16) : Buffer :=
  put8 (put8 buf i (value.extractLsb' 8 8)) (i + 1) (value.extractLsb' 0 8)

-- n bytes from start on; what lies behind the end of the buffer reads as zero.
def copyBytes (src : Buffer) (start n : Nat) : Buffer := (List.range n).map fun i => get8 src (start + i)

-- n bytes moved inside one buffer, as if through a copy.
def moveBytes (buf : Buffer) (dst src n : Nat) : Buffer := buf.take dst ++ copyBytes buf src n ++ buf.drop (dst + n)

theorem bytes_join (value : BitVec 16) :
    (value.extractLsb' 8 8 ++ value.extractLsb' 0 8 : BitVec 16) = value := by
  apply BitVec.eq_of_getLsbD_eq
  intro i bound
  rw [BitVec.getLsbD_append]
  by_cases low : i < 8
  · simp [low]
  · have high : i - 8 < 8 := by omega
    simp [low, high, show 8 + (i - 8) = i by omega]

@[simp] theorem put8_length (buf : Buffer) (i : Nat) (value : BitVec 8) :
    (put8 buf i value).length = buf.length := by
  simp [put8]

@[simp] theorem put16_length (buf : Buffer) (i : Nat) (value : BitVec 16) :
    (put16 buf i value).length = buf.length := by
  simp [put16]

theorem get8_put8_here (buf : Buffer) (i : Nat) (value : BitVec 8) (bound : i < buf.length) :
    get8 (put8 buf i value) i = value := by
  simp [get8, put8, bound]

theorem get8_put8_elsewhere (buf : Buffer) (i j : Nat) (value : BitVec 8) (different : i ≠ j) :
    get8 (put8 buf i value) j = get8 buf j := by
  simp [get8, put8, List.getD_eq_getElem?_getD, List.getElem?_set_ne different]

theorem get8_put16_elsewhere (buf : Buffer) (i j : Nat) (value : BitVec 16)
    (first : i ≠ j) (second : i + 1 ≠ j) : get8 (put16 buf i value) j = get8 buf j := by
  rw [put16, get8_put8_elsewhere _ _ _ _ second, get8_put8_elsewhere _ _ _ _ first]

theorem get16_put16_here (buf : Buffer) (i : Nat) (value : BitVec 16) (bound : i + 1 < buf.length) :
    get16 (put16 buf i value) i = value := by
  have first : get8 (put16 buf i value) i = value.extractLsb' 8 8 := by
    rw [put16, get8_put8_elsewhere _ _ _ _ (by omega), get8_put8_here _ _ _ (by omega)]
  have second : get8 (put16 buf i value) (i + 1) = value.extractLsb' 0 8 := by
    rw [put16, get8_put8_here _ _ _ (by simpa using bound)]
  rw [get16, first, second, bytes_join]

theorem get16_put16_elsewhere (buf : Buffer) (i j : Nat) (value : BitVec 16)
    (apart : i + 1 < j ∨ j + 1 < i) : get16 (put16 buf i value) j = get16 buf j := by
  rw [get16, get16, get8_put16_elsewhere _ _ _ _ (by omega) (by omega),
    get8_put16_elsewhere _ _ _ _ (by omega) (by omega)]

theorem put16_drop (buf : Buffer) (i n : Nat) (value : BitVec 16) (before : i + 1 < n) :
    (put16 buf i value).drop n = buf.drop n := by
  rw [put16, put8, put8, List.drop_set_of_lt before, List.drop_set_of_lt (by omega)]

theorem put8_drop (buf : Buffer) (i n : Nat) (value : BitVec 8) (before : i < n) :
    (put8 buf i value).drop n = buf.drop n := by
  rw [put8, List.drop_set_of_lt before]

theorem get8_append_left (left right : Buffer) (i : Nat) (bound : i < left.length) :
    get8 (left ++ right) i = get8 left i := by
  simp [get8, List.getD_eq_getElem?_getD, List.getElem?_append_left bound]

theorem get16_append_left (left right : Buffer) (i : Nat) (bound : i + 1 < left.length) :
    get16 (left ++ right) i = get16 left i := by
  rw [get16, get16, get8_append_left _ _ _ (by omega), get8_append_left _ _ _ bound]

theorem get8_append_right (left right : Buffer) (i : Nat) : get8 (left ++ right) (left.length + i) = get8 right i := by
  unfold get8
  rw [List.getD_append_right _ _ _ _ (Nat.le_add_right _ _), Nat.add_sub_cancel_left]

theorem get8_here (front more : Buffer) (byte : BitVec 8) : get8 (front ++ byte :: more) front.length = byte := by
  simp [get8]

theorem get8_next (front more : Buffer) (byte next : BitVec 8) (length : more.head? = some next) :
    get8 (front ++ byte :: more) (front.length + 1) = next := by
  obtain ⟨tail, rfl⟩ : ∃ tail, more = next :: tail := by
    cases more with
    | nil => cases length
    | cons first tail =>
        cases length
        exact ⟨tail, rfl⟩
  simp [get8]

theorem get8_take (buf : Buffer) (i n : Nat) (bound : i < n) : get8 (buf.take n) i = get8 buf i := by
  simp [get8, List.getD_eq_getElem?_getD, List.getElem?_take_of_lt bound]

@[simp] theorem copy_bytes_length (src : Buffer) (start n : Nat) : (copyBytes src start n).length = n := by
  simp [copyBytes]

theorem copy_bytes_inside (src : Buffer) (start n : Nat) (inside : start + n ≤ src.length) :
    copyBytes src start n = (src.drop start).take n := by
  apply List.ext_getElem
  · simp; omega
  · intro i first second
    have bound : start + i < src.length := by simp at first; omega
    simp [copyBytes, get8, bound]

theorem get8_copy_bytes (src : Buffer) (start n i : Nat) (bound : i < n) :
    get8 (copyBytes src start n) i = get8 src (start + i) := by
  simp [get8, copyBytes, bound]

theorem get16_congr (first second : Buffer) (i j : Nat) (high : get8 first i = get8 second j)
    (low : get8 first (i + 1) = get8 second (j + 1)) : get16 first i = get16 second j := by
  rw [get16, get16, high, low]

theorem move_bytes_length (buf : Buffer) (dst src n : Nat) (inside : dst + n ≤ buf.length) :
    (moveBytes buf dst src n).length = buf.length := by
  simp [moveBytes]; omega

theorem move_bytes_take (buf : Buffer) (dst src n : Nat) (inside : dst ≤ buf.length) :
    (moveBytes buf dst src n).take dst = buf.take dst := by
  rw [moveBytes, List.append_assoc, List.take_append_of_le_length (by simp [inside])]
  simp

theorem move_bytes_moved (buf : Buffer) (dst src n : Nat) (inside : dst ≤ buf.length) :
    ((moveBytes buf dst src n).drop dst).take n = copyBytes buf src n := by
  have front : (buf.take dst).length = dst := by simp [inside]
  rw [moveBytes, List.append_assoc, List.drop_append_of_le_length (by omega), List.drop_of_length_le (by omega)]
  rw [List.nil_append, List.take_append_of_le_length (by simp), List.take_of_length_le (by simp)]

theorem move_bytes_drop (buf : Buffer) (dst src n m : Nat) (inside : dst ≤ buf.length) (behind : dst + n ≤ m) :
    (moveBytes buf dst src n).drop m = buf.drop m := by
  have front : (buf.take dst ++ copyBytes buf src n).length = dst + n := by simp [inside]
  rw [moveBytes, List.drop_append, front, List.drop_of_length_le (by omega), List.nil_append, List.drop_drop]
  congr 1
  omega

-- Runs of bytes that are read from a memory, and written into it.
def peek (mem : Nat → Byte) (p n : Nat) : Buffer := (List.range n).map fun i => mem (p + i)

def poke (mem : Nat → Byte) (p : Nat) (bytes : Buffer) : Nat → Byte := fun addr =>
  if p ≤ addr ∧ addr < p + bytes.length then get8 bytes (addr - p) else mem addr

@[simp] theorem peek_length (mem : Nat → Byte) (p n : Nat) : (peek mem p n).length = n := by
  simp [peek]

theorem peek_same (mem mem' : Nat → Byte) (p q n : Nat) (same : ∀ i < n, mem' (q + i) = mem (p + i)) :
    peek mem' q n = peek mem p n :=
  List.map_congr_left fun i inside => same i (List.mem_range.mp inside)

theorem peek_append (mem : Nat → Byte) (p n m : Nat) : peek mem p (n + m) = peek mem p n ++ peek mem (p + n) m := by
  apply List.ext_getElem
  · simp
  · intro i first second
    by_cases before : i < n
    · rw [List.getElem_append_left (by simpa using before)]
      simp [peek]
    · rw [List.getElem_append_right (by simpa using before)]
      simp only [peek, List.getElem_map, List.getElem_range, List.length_map, List.length_range]
      congr 1
      omega

theorem peek_take (mem : Nat → Byte) (p n m : Nat) (order : n ≤ m) : (peek mem p m).take n = peek mem p n := by
  obtain ⟨more, rfl⟩ := Nat.exists_eq_add_of_le order
  rw [peek_append, List.take_left' (peek_length mem p n)]

theorem peek_drop (mem : Nat → Byte) (p n m : Nat) : (peek mem p (n + m)).drop n = peek mem (p + n) m := by
  rw [peek_append, List.drop_left' (peek_length mem p n)]

theorem poke_outside (mem : Nat → Byte) (p addr : Nat) (bytes : Buffer) (outside : addr < p ∨ p + bytes.length ≤ addr) :
    poke mem p bytes addr = mem addr := by
  unfold poke
  rw [if_neg (by omega)]

theorem peek_poke_apart (mem : Nat → Byte) (p q n : Nat) (bytes : Buffer) (apart : q + n ≤ p ∨ p + bytes.length ≤ q) :
    peek (poke mem p bytes) q n = peek mem q n :=
  peek_same mem (poke mem p bytes) q q n fun i inside => poke_outside mem p (q + i) bytes (by omega)

theorem peek_poke_here (mem : Nat → Byte) (p : Nat) (bytes : Buffer) : peek (poke mem p bytes) p bytes.length = bytes := by
  apply List.ext_getElem
  · simp
  · intro i first inside
    simp [peek, poke, get8, inside]

-- A run that is written inside of another one.
theorem peek_poke_inside (mem : Nat → Byte) (p i n : Nat) (bytes : Buffer) (inside : i + bytes.length ≤ n) :
    peek (poke mem (p + i) bytes) p n = (peek mem p n).take i ++ bytes ++ (peek mem p n).drop (i + bytes.length) := by
  obtain ⟨rest, rfl⟩ := Nat.exists_eq_add_of_le inside
  rw [peek_append, peek_append _ _ i, peek_poke_apart _ _ _ _ _ (Or.inl le_rfl), peek_poke_here,
    peek_poke_apart _ _ _ _ _ (Or.inr (by omega)), peek_drop, Nat.add_assoc, peek_take _ _ _ _ (Nat.le_add_right _ _)]

-- Big-endian words in a memory.
def bytes32 (x : BitVec 32) : Buffer := [x.extractLsb' 24 8, x.extractLsb' 16 8, x.extractLsb' 8 8, x.extractLsb' 0 8]

def word (mem : Nat → Byte) (p : Nat) : BitVec 32 := get32 (peek mem p 4) 0

def setWord (mem : Nat → Byte) (p : Nat) (x : BitVec 32) : Nat → Byte := poke mem p (bytes32 x)

theorem get32_bytes (x : BitVec 32) : get32 (bytes32 x) 0 = x := by
  have high : get16 (bytes32 x) 0 = x.extractLsb' 16 16 := by
    exact (BitVec.extractLsb'_append_extractLsb'_eq_extractLsb' (by rfl)).trans rfl
  have low : get16 (bytes32 x) 2 = x.extractLsb' 0 16 := by
    exact (BitVec.extractLsb'_append_extractLsb'_eq_extractLsb' (by rfl)).trans rfl
  rw [get32, high, low]
  exact (BitVec.extractLsb'_append_extractLsb'_eq_extractLsb' (by rfl)).trans (by simp)

theorem word_here (mem : Nat → Byte) (p : Nat) (x : BitVec 32) : word (setWord mem p x) p = x := by
  unfold word setWord
  have written := peek_poke_here mem p (bytes32 x)
  rw [show (bytes32 x).length = 4 from rfl] at written
  rw [written, get32_bytes]

theorem word_apart (mem : Nat → Byte) (p q : Nat) (x : BitVec 32) (apart : q + 4 ≤ p ∨ p + 4 ≤ q) :
    word (setWord mem p x) q = word mem q := by
  unfold word setWord
  rw [peek_poke_apart mem p q 4 (bytes32 x) apart]

theorem word_same (mem mem' : Nat → Byte) (p : Nat) (same : ∀ a, p ≤ a → a < p + 4 → mem' a = mem a) :
    word mem' p = word mem p := by
  unfold word
  rw [peek_same mem mem' p p 4 fun i inside => same (p + i) (by omega) (by omega)]

theorem set_word_outside (mem : Nat → Byte) (p a : Nat) (x : BitVec 32) (outside : a < p ∨ p + 4 ≤ a) :
    setWord mem p x a = mem a :=
  poke_outside mem p a (bytes32 x) outside

end Bytes
