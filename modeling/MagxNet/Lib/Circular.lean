import Mathlib

set_option autoImplicit false

namespace Circular

-- A ring of cells, filled at the head and emptied at the tail. One cell stays free, so that a full ring is told from
-- an empty one.
structure Buffer (α : Type) where
  cells : List α
  head : Nat
  tail : Nat
deriving DecidableEq, Repr

variable {α : Type}

def Buffer.size (r : Buffer α) : Nat := r.cells.length

def Buffer.used (r : Buffer α) : Nat := (r.head + r.size - r.tail) % r.size

def Buffer.free (r : Buffer α) : Nat := r.size - 1 - r.used

def Buffer.put (r : Buffer α) (x : α) : Buffer α :=
  { r with cells := r.cells.set r.head x, head := (r.head + 1) % r.size }

def Buffer.puts (r : Buffer α) (xs : List α) : Buffer α := xs.foldl Buffer.put r

-- The cell at the tail, and the ring without it.
def Buffer.peek [Inhabited α] (r : Buffer α) : α := r.cells.getD r.tail default

def Buffer.drop (r : Buffer α) (n : Nat) : Buffer α := { r with tail := (r.tail + n) % r.size }

-- A block is written from the head on, up to the end of the cells at most.
def Buffer.fill (r : Buffer α) (xs : List α) : Buffer α :=
  { r with
    cells := r.cells.take r.head ++ xs ++ r.cells.drop (r.head + xs.length)
    head := (r.head + xs.length) % r.size }

-- The cells from the tail on, without going round.
def Buffer.ahead (r : Buffer α) (n : Nat) : List α := (r.cells.drop r.tail).take n

-- Both ends point to a cell.
structure Buffer.Sound (r : Buffer α) : Prop where
  head : r.head < r.size
  tail : r.tail < r.size

-- What has been put in and not yet been taken out.
def Buffer.contents (r : Buffer α) : List α :=
  if r.tail ≤ r.head then (r.cells.drop r.tail).take (r.head - r.tail)
  else r.cells.drop r.tail ++ r.cells.take r.head

-- Going round once at most.
theorem wrap_cases (n size : Nat) (within : n < 2 * size) :
    (n < size ∧ n % size = n) ∨ (size ≤ n ∧ n % size = n - size) := by
  by_cases small : n < size
  · exact Or.inl ⟨small, Nat.mod_eq_of_lt small⟩
  · refine Or.inr ⟨by omega, ?_⟩
    rw [Nat.mod_eq_sub_mod (by omega), Nat.mod_eq_of_lt (by omega)]

theorem used_cases (r : Buffer α) (sound : r.Sound) :
    (r.tail ≤ r.head ∧ r.used = r.head - r.tail) ∨ (r.head < r.tail ∧ r.used = r.head + r.size - r.tail) := by
  obtain ⟨head, tail⟩ := sound
  have wrapped := wrap_cases (r.head + r.size - r.tail) r.size (by omega)
  unfold Buffer.used
  omega

theorem used_lt (r : Buffer α) (sound : r.Sound) : r.used < r.size :=
  Nat.mod_lt _ (by have := sound.head; omega)

theorem contents_length (r : Buffer α) (sound : r.Sound) : r.contents.length = r.used := by
  have head : r.head < r.cells.length := sound.head
  have tail : r.tail < r.cells.length := sound.tail
  have used := used_cases r sound
  unfold Buffer.size at used
  rw [Buffer.contents]
  split
  · rw [List.length_take, List.length_drop]
    omega
  · rw [List.length_append, List.length_drop, List.length_take]
    omega

theorem contents_nil_iff (r : Buffer α) (sound : r.Sound) : r.contents = [] ↔ r.head = r.tail := by
  have length := contents_length r sound
  have here := sound.head
  have there := sound.tail
  have used := used_cases r sound
  rw [← List.length_eq_zero_iff, length]
  omega

theorem size_put (r : Buffer α) (x : α) : (r.put x).size = r.size := by
  simp [Buffer.put, Buffer.size]

theorem size_drop (r : Buffer α) (n : Nat) : (r.drop n).size = r.size := rfl

theorem size_fill (r : Buffer α) (xs : List α) (straight : r.head + xs.length ≤ r.size) :
    (r.fill xs).size = r.size := by
  unfold Buffer.size at straight
  simp only [Buffer.fill, Buffer.size, List.length_append, List.length_take, List.length_drop]
  omega

theorem sound_put (r : Buffer α) (x : α) (sound : r.Sound) : (r.put x).Sound := by
  constructor
  · rw [size_put]
    exact Nat.mod_lt _ (by have := sound.head; omega)
  · rw [size_put]
    exact sound.tail

theorem sound_drop (r : Buffer α) (n : Nat) (sound : r.Sound) : (r.drop n).Sound :=
  ⟨sound.head, Nat.mod_lt _ (by have := sound.head; omega)⟩

theorem sound_fill (r : Buffer α) (xs : List α) (sound : r.Sound) (straight : r.head + xs.length ≤ r.size) :
    (r.fill xs).Sound := by
  constructor
  · rw [size_fill r xs straight]
    exact Nat.mod_lt _ (by have := sound.head; omega)
  · rw [size_fill r xs straight]
    exact sound.tail

-- The i-th element from the tail on.
theorem contents_get (r : Buffer α) (sound : r.Sound) (i : Nat) (inside : i < r.used) :
    r.contents[i]? = r.cells[(r.tail + i) % r.size]? := by
  have head : r.head < r.cells.length := sound.head
  have tail : r.tail < r.cells.length := sound.tail
  have used := used_cases r sound
  have wrapped := wrap_cases (r.tail + i) r.size (by unfold Buffer.size at *; omega)
  unfold Buffer.size at *
  rw [Buffer.contents]
  split
  · have here : (r.tail + i) % r.cells.length = r.tail + i := by omega
    rw [here, List.getElem?_take_of_lt (by omega), List.getElem?_drop]
  · by_cases early : r.tail + i < r.cells.length
    · have here : (r.tail + i) % r.cells.length = r.tail + i := by omega
      rw [here, List.getElem?_append_left (by rw [List.length_drop]; omega), List.getElem?_drop]
    · have here : (r.tail + i) % r.cells.length = i - (r.cells.length - r.tail) := by omega
      rw [here, List.getElem?_append_right (by rw [List.length_drop]; omega), List.length_drop,
        List.getElem?_take_of_lt (by omega)]

theorem contents_ext (r : Buffer α) (sound : r.Sound) (xs : List α) (length : xs.length = r.used)
    (same : ∀ i, i < r.used → r.cells[(r.tail + i) % r.size]? = xs[i]?) : r.contents = xs := by
  apply List.ext_getElem?
  intro i
  by_cases inside : i < r.used
  · rw [contents_get r sound i inside, same i inside]
  · rw [List.getElem?_eq_none (by rw [contents_length r sound]; omega), List.getElem?_eq_none (by omega)]

theorem used_fill (r : Buffer α) (xs : List α) (sound : r.Sound) (straight : r.head + xs.length ≤ r.size)
    (room : xs.length ≤ r.free) : (r.fill xs).used = r.used + xs.length := by
  have head := sound.head
  have tail := sound.tail
  have used := used_cases r sound
  have after := used_cases (r.fill xs) (sound_fill r xs sound straight)
  have wrapped := wrap_cases (r.head + xs.length) r.size (by omega)
  rw [size_fill r xs straight] at after
  unfold Buffer.free at room
  simp only [Buffer.fill] at after ⊢
  omega

theorem contents_fill (r : Buffer α) (xs : List α) (sound : r.Sound) (straight : r.head + xs.length ≤ r.size)
    (room : xs.length ≤ r.free) : (r.fill xs).contents = r.contents ++ xs := by
  have head := sound.head
  have tail := sound.tail
  have length := contents_length r sound
  have more := used_fill r xs sound straight room
  have used := used_cases r sound
  have limit : r.cells.length = r.size := rfl
  apply contents_ext _ (sound_fill r xs sound straight)
  · rw [more, List.length_append, length]
  · intro i inside
    unfold Buffer.free at room
    have wrapped := wrap_cases (r.tail + i) r.size (by omega)
    rw [size_fill r xs straight]
    simp only [Buffer.fill]
    by_cases before : i < r.used
    · have old : (r.contents ++ xs)[i]? = r.cells[(r.tail + i) % r.size]? := by
        rw [List.getElem?_append_left (by omega), contents_get r sound i before]
      rw [old]
      by_cases low : (r.tail + i) % r.size < r.head
      · rw [List.append_assoc, List.getElem?_append_left (by rw [List.length_take]; omega), List.getElem?_take_of_lt low]
      · rw [List.getElem?_append_right (by rw [List.length_append, List.length_take]; omega), List.getElem?_drop,
          List.length_append, List.length_take]
        congr 1
        omega
    · have new : (r.contents ++ xs)[i]? = xs[i - r.used]? := by
        rw [List.getElem?_append_right (by omega), length]
      rw [new, List.append_assoc, List.getElem?_append_right (by rw [List.length_take]; omega),
        List.getElem?_append_left (by rw [List.length_take]; omega), List.length_take]
      congr 1
      omega

-- One element is a block of its own.
theorem put_fill (r : Buffer α) (x : α) (sound : r.Sound) : r.put x = r.fill [x] := by
  have head : r.head < r.cells.length := sound.head
  rw [Buffer.put, Buffer.fill, List.length_singleton, List.append_assoc, List.singleton_append,
    List.set_eq_take_append_cons_drop, if_pos head]

theorem contents_put (r : Buffer α) (x : α) (sound : r.Sound) (room : 0 < r.free) :
    (r.put x).contents = r.contents ++ [x] := by
  rw [put_fill r x sound]
  exact contents_fill r [x] sound sound.head room

theorem used_put (r : Buffer α) (x : α) (sound : r.Sound) (room : 0 < r.free) : (r.put x).used = r.used + 1 := by
  rw [put_fill r x sound]
  exact used_fill r [x] sound sound.head room

theorem free_put (r : Buffer α) (x : α) (sound : r.Sound) (room : 0 < r.free) : (r.put x).free = r.free - 1 := by
  have more := used_put r x sound room
  unfold Buffer.free at room ⊢
  rw [more, size_put]
  omega

-- Elements put one after the other.
theorem puts_done (r : Buffer α) (xs : List α) (sound : r.Sound) (room : xs.length ≤ r.free) :
    (r.puts xs).Sound ∧ (r.puts xs).size = r.size ∧ (r.puts xs).contents = r.contents ++ xs
      ∧ (r.puts xs).free = r.free - xs.length := by
  induction xs generalizing r with
  | nil => exact ⟨sound, rfl, (List.append_nil _).symm, rfl⟩
  | cons x rest ih =>
      rw [List.length_cons] at room ⊢
      have less := free_put r x sound (by omega)
      obtain ⟨sound', size, contents, free⟩ := ih (r.put x) (sound_put r x sound) (by omega)
      refine ⟨sound', size.trans (size_put r x), ?_, ?_⟩
      · rw [Buffer.puts, List.foldl_cons]
        exact contents.trans (by rw [contents_put r x sound (by omega), List.append_assoc, List.singleton_append])
      · rw [Buffer.puts, List.foldl_cons]
        exact free.trans (by omega)

theorem used_drop (r : Buffer α) (n : Nat) (sound : r.Sound) (within : n ≤ r.used) :
    (r.drop n).used = r.used - n := by
  have head := sound.head
  have tail := sound.tail
  have used := used_cases r sound
  have short := used_lt r sound
  have after := used_cases (r.drop n) (sound_drop r n sound)
  have wrapped := wrap_cases (r.tail + n) r.size (by omega)
  rw [size_drop] at after
  simp only [Buffer.drop] at after ⊢
  omega

theorem contents_drop (r : Buffer α) (n : Nat) (sound : r.Sound) (within : n ≤ r.used) :
    (r.drop n).contents = r.contents.drop n := by
  have less := used_drop r n sound within
  apply contents_ext _ (sound_drop r n sound)
  · rw [less, List.length_drop, contents_length r sound]
  · intro i inside
    rw [List.getElem?_drop, contents_get r sound (n + i) (by omega)]
    simp only [Buffer.drop, Buffer.size]
    rw [Nat.mod_add_mod, Nat.add_assoc]

theorem contents_cons [Inhabited α] (r : Buffer α) (sound : r.Sound) (some' : 0 < r.used) :
    r.contents = r.peek :: (r.drop 1).contents := by
  have first := contents_get r sound 0 some'
  rw [Nat.add_zero, Nat.mod_eq_of_lt sound.tail] at first
  rw [contents_drop r 1 sound some', Buffer.peek, List.getD_eq_getElem?_getD, ← first]
  cases whole : r.contents with
  | nil =>
      have empty := contents_length r sound
      rw [whole, List.length_nil] at empty
      omega
  | cons x rest => rfl

theorem ahead_take (r : Buffer α) (n : Nat) (sound : r.Sound) (within : n ≤ r.used) (straight : r.tail + n ≤ r.size) :
    r.ahead n = r.contents.take n := by
  have tail := sound.tail
  have limit : r.cells.length = r.size := rfl
  apply List.ext_getElem?
  intro i
  by_cases inside : i < n
  · rw [Buffer.ahead, List.getElem?_take_of_lt inside, List.getElem?_take_of_lt inside, List.getElem?_drop,
      contents_get r sound i (by omega), Nat.mod_eq_of_lt (by omega)]
  · rw [List.getElem?_eq_none (by rw [Buffer.ahead, List.length_take]; omega),
      List.getElem?_eq_none (by rw [List.length_take]; omega)]

end Circular
