import MagxNet.Lib.Bytes

set_option autoImplicit false

namespace Bytes

def put32 (buf : Buffer) (i : Nat) (value : BitVec 32) : Buffer :=
  put16 (put16 buf i (value.extractLsb' 16 16)) (i + 2) (value.extractLsb' 0 16)

@[simp] theorem put32_length (buf : Buffer) (i : Nat) (value : BitVec 32) : (put32 buf i value).length = buf.length := by
  simp [put32]

theorem words_join (value : BitVec 32) : (value.extractLsb' 16 16 ++ value.extractLsb' 0 16 : BitVec 32) = value :=
  (BitVec.extractLsb'_append_extractLsb'_eq_extractLsb' (by rfl)).trans (by simp)

theorem get8_put32_elsewhere (buf : Buffer) (i j : Nat) (value : BitVec 32) (apart : j < i ∨ i + 4 ≤ j) :
    get8 (put32 buf i value) j = get8 buf j := by
  rw [put32, get8_put16_elsewhere _ _ _ _ (by omega) (by omega), get8_put16_elsewhere _ _ _ _ (by omega) (by omega)]

theorem get32_put32_here (buf : Buffer) (i : Nat) (value : BitVec 32) (bound : i + 3 < buf.length) :
    get32 (put32 buf i value) i = value := by
  rw [get32, put32, get16_put16_elsewhere _ _ _ _ (by omega), get16_put16_here _ _ _ (by omega),
    get16_put16_here _ _ _ (by simpa using bound), words_join]

theorem get32_congr (first second : Buffer) (i j : Nat) (same : ∀ k < 4, get8 first (i + k) = get8 second (j + k)) :
    get32 first i = get32 second j := by
  rw [get32, get32, get16_congr first second i j (same 0 (by decide)) (same 1 (by decide)),
    get16_congr first second (i + 2) (j + 2) (same 2 (by decide)) (same 3 (by decide))]

theorem append_inj {m n : Nat} (a c : BitVec m) (b d : BitVec n) (same : a ++ b = c ++ d) : a = c ∧ b = d := by
  have high := congrArg (BitVec.extractLsb' n m) same
  have low := congrArg (BitVec.extractLsb' 0 n) same
  rw [BitVec.extractLsb'_append_eq_left, BitVec.extractLsb'_append_eq_left] at high
  rw [BitVec.extractLsb'_append_eq_right, BitVec.extractLsb'_append_eq_right] at low
  exact ⟨high, low⟩

theorem get16_bytes (first second : Buffer) (i j : Nat) (same : get16 first i = get16 second j) :
    get8 first i = get8 second j ∧ get8 first (i + 1) = get8 second (j + 1) :=
  append_inj _ _ _ _ same

theorem get32_bytes_same (first second : Buffer) (i j : Nat) (same : get32 first i = get32 second j) :
    ∀ k < 4, get8 first (i + k) = get8 second (j + k) := by
  obtain ⟨high, low⟩ := append_inj _ _ _ _ same
  obtain ⟨b0, b1⟩ := get16_bytes first second i j high
  obtain ⟨b2, b3⟩ := get16_bytes first second (i + 2) (j + 2) low
  intro k less
  obtain rfl | rfl | rfl | rfl : k = 0 ∨ k = 1 ∨ k = 2 ∨ k = 3 := by omega
  · exact b0
  · exact b1
  · exact b2
  · exact b3

theorem buffer_ext (first second : Buffer) (length : first.length = second.length)
    (same : ∀ i < first.length, get8 first i = get8 second i) : first = second := by
  refine List.ext_getElem length fun i less less' => ?_
  have here := same i less
  rwa [get8, get8, List.getD_eq_getElem _ _ less, List.getD_eq_getElem _ _ less'] at here

-- A field is its place and its size.
abbrev Field := Nat × Nat

def Inside (f : Field) (i : Nat) : Prop := f.1 ≤ i ∧ i < f.1 + f.2

def Apart (f g : Field) : Prop := ∀ i, Inside f i → ¬ Inside g i

-- The first n bytes are on the way from old to new: the fields named are still old, and all the rest is new.
structure Patched (old new buf : Buffer) (n : Nat) (fields : List Field) : Prop where
  length : n ≤ buf.length
  apart : fields.Pairwise Apart
  old : ∀ f ∈ fields, ∀ i < n, Inside f i → get8 buf i = get8 old i
  new : ∀ i < n, (∀ f ∈ fields, ¬ Inside f i) → get8 buf i = get8 new i

section Patched

variable (old new buf : Buffer) (n i : Nat) (fields : List Field)

-- The first field becomes new, whatever wrote it.
theorem patched_next (w : Nat) (buf' : Buffer) (patched : Patched old new buf n ((i, w) :: fields))
    (length : buf'.length = buf.length)
    (others : ∀ j < n, ¬ Inside (i, w) j → get8 buf' j = get8 buf j) (here : ∀ j < n, Inside (i, w) j → get8 buf' j = get8 new j) :
    Patched old new buf' n fields := by
  obtain ⟨first, apart⟩ := List.pairwise_cons.mp patched.apart
  refine ⟨length ▸ patched.length, apart, fun f member j less inside => ?_, fun j less outside => ?_⟩
  · rw [others j less fun both => first f member j both inside]
    exact patched.old f (List.mem_cons_of_mem _ member) j less inside
  · by_cases inside : Inside (i, w) j
    · exact here j less inside
    · rw [others j less inside]
      refine patched.new j less fun f member => ?_
      obtain rfl | member := List.mem_cons.mp member
      · exact inside
      · exact outside f member

theorem patched_put8 (value : Byte) (patched : Patched old new buf n ((i, 1) :: fields)) (bound : i < n)
    (right : value = get8 new i) :
    Patched old new (put8 buf i value) n fields := by
  refine patched_next old new buf n i fields 1 _ patched (put8_length ..) (fun j _ outside => ?_) fun j less inside => ?_
  · exact get8_put8_elsewhere _ _ _ _ fun same => outside (by unfold Inside; omega)
  · obtain rfl : j = i := by unfold Inside at inside; omega
    rw [get8_put8_here _ _ _ (bound.trans_le patched.length), right]

theorem patched_put16 (value : BitVec 16) (patched : Patched old new buf n ((i, 2) :: fields)) (bound : i + 1 < n)
    (right : value = get16 new i) : Patched old new (put16 buf i value) n fields := by
  have bytes := get16_bytes (put16 buf i value) new i i
    ((get16_put16_here buf i value (bound.trans_le patched.length)).trans right)
  refine patched_next old new buf n i fields 2 _ patched (put16_length ..) (fun j _ outside => ?_) fun j less inside => ?_
  · unfold Inside at outside
    exact get8_put16_elsewhere _ _ _ _ (by omega) (by omega)
  · obtain rfl | rfl : j = i ∨ j = i + 1 := by unfold Inside at inside; omega
    · exact bytes.1
    · exact bytes.2

theorem patched_put32 (value : BitVec 32) (patched : Patched old new buf n ((i, 4) :: fields)) (bound : i + 3 < n)
    (right : value = get32 new i) : Patched old new (put32 buf i value) n fields := by
  have bytes := get32_bytes_same (put32 buf i value) new i i
    ((get32_put32_here buf i value (bound.trans_le patched.length)).trans right)
  refine patched_next old new buf n i fields 4 _ patched (put32_length ..) (fun j _ outside => ?_) fun j less inside => ?_
  · unfold Inside at outside
    exact get8_put32_elsewhere _ _ _ _ (by omega)
  · obtain ⟨k, rfl⟩ : ∃ k, j = i + k := ⟨j - i, by unfold Inside at inside; omega⟩
    exact bytes k (by unfold Inside at inside; omega)

-- A field that is the same in both.
theorem patched_same (w : Nat) (patched : Patched old new buf n ((i, w) :: fields))
    (same : ∀ j < n, Inside (i, w) j → get8 old j = get8 new j) : Patched old new buf n fields :=
  patched_next old new buf n i fields w buf patched rfl (fun _ _ _ => rfl) fun j less inside =>
    (patched.old (i, w) List.mem_cons_self j less inside).trans (same j less inside)

variable {old new buf n fields}

theorem patched_get8 (patched : Patched old new buf n fields) (member : (i, 1) ∈ fields) (bound : i < n) :
    get8 buf i = get8 old i :=
  patched.old (i, 1) member i bound (by unfold Inside; omega)

theorem patched_get16 (patched : Patched old new buf n fields) (member : (i, 2) ∈ fields) (bound : i + 1 < n) :
    get16 buf i = get16 old i :=
  get16_congr _ _ _ _ (patched.old (i, 2) member i (by omega) (by unfold Inside; omega))
    (patched.old (i, 2) member (i + 1) bound (by unfold Inside; omega))

theorem patched_get32 (patched : Patched old new buf n fields) (member : (i, 4) ∈ fields) (bound : i + 3 < n) :
    get32 buf i = get32 old i :=
  get32_congr _ _ _ _ fun k less => patched.old (i, 4) member (i + k) (by omega) (by unfold Inside; omega)

end Patched

end Bytes
