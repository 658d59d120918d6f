import MagxNet.Tcp.Sending

set_option autoImplicit false

namespace MagxNet.Tcp

open Bytes

-- What the second loop leaves to do; it runs the same way in iov2buf_cpy and in buf2iov_cpy.
def todoIov : Int → List Iovec → Int
  | todo, [] => todo
  | todo, v :: rest => if todo > 0 then todoIov (todo - min todo v.len.toInt) rest else todo

def todoSkipped (todo : Int) : Int × Option Iovec × List Iovec → Int
  | (skip, some _, rest) => if skip < 0 then todoIov (todo - min (-skip) todo) rest else todoIov todo rest
  | (_, none, rest) => todoIov todo rest

-- What both functions return.
def iovCopied (nbytes : Int) (iov : List Iovec) (skip : Int) : Int :=
  if iov = [] ∨ nbytes ≤ 0 ∨ skip < 0 then 0 else nbytes - todoSkipped nbytes (skipIov skip none iov)

-- The second loop in buf2iov_cpy; buf is what lies in memory from the source buffer on, and done how far it has come.
def putIov (buf : Nat → Byte) (mem : Nat → Byte) (todo : Int) (done : Nat) : List Iovec → Nat → Byte
  | [] => mem
  | v :: rest =>
      if todo > 0 then
        let cando := min todo v.len.toInt
        putIov buf (poke mem v.base (peek buf done cando.toNat)) (todo - cando) (done + cando.toNat) rest
      else mem

def putSkipped (buf mem : Nat → Byte) (todo : Int) : Int × Option Iovec × List Iovec → Nat → Byte
  | (skip, some v, rest) =>
      if skip < 0 then
        let cando := min (-skip) todo
        putIov buf (poke mem (v.base + (skip + v.len.toInt).toNat) (peek buf 0 cando.toNat)) (todo - cando) cando.toNat rest
      else putIov buf mem todo 0 rest
  | (_, none, rest) => putIov buf mem todo 0 rest

def buf2iovCpy (buf mem : Nat → Byte) (nbytes : Int) (iov : List Iovec) (skip : Int) : Nat → Byte :=
  if iov = [] ∨ nbytes ≤ 0 ∨ skip < 0 then mem else putSkipped buf mem nbytes (skipIov skip none iov)

-- Where the bytes of the concatenated pieces are.
def addresses (iov : List Iovec) : List Nat := iov.flatMap fun v => List.range' v.base v.len.toNat

-- The bytes go to the addresses one after the other.
def store (mem : Nat → Byte) : List Nat → Buffer → Nat → Byte
  | addr :: addrs, byte :: bytes => store (Function.update mem addr byte) addrs bytes
  | _, _ => mem

@[simp] theorem addresses_nil : addresses [] = [] := rfl

@[simp] theorem addresses_cons (v : Iovec) (rest : List Iovec) :
    addresses (v :: rest) = List.range' v.base v.len.toNat ++ addresses rest := rfl

@[simp] theorem store_nil (mem : Nat → Byte) (bytes : Buffer) : store mem [] bytes = mem := by
  cases bytes <;> rfl

theorem peek_map (mem : Nat → Byte) (p n : Nat) : peek mem p n = (List.range' p n).map mem := by
  rw [List.range'_eq_map_range, List.map_map]
  rfl

theorem contents_map (mem : Nat → Byte) (iov : List Iovec) : contents mem iov = (addresses iov).map mem := by
  induction iov with
  | nil => rfl
  | cons v rest ih => rw [contents_cons, addresses_cons, List.map_append, ih, peek_map]

theorem store_append (mem : Nat → Byte) (addrs addrs' : List Nat) (bytes bytes' : Buffer) (equal : addrs.length = bytes.length) :
    store mem (addrs ++ addrs') (bytes ++ bytes') = store (store mem addrs bytes) addrs' bytes' := by
  induction addrs generalizing mem bytes with
  | nil =>
      obtain rfl := List.length_eq_zero_iff.mp equal.symm
      rw [store_nil]
      rfl
  | cons addr addrs ih =>
      cases bytes with
      | nil => cases equal
      | cons byte bytes => exact ih _ bytes (Nat.succ.inj equal)

-- What is not asked to be written stays.
theorem store_outside (mem : Nat → Byte) (addrs : List Nat) (bytes : Buffer) (addr : Nat) (outside : addr ∉ addrs) :
    store mem addrs bytes addr = mem addr := by
  induction addrs generalizing mem bytes with
  | nil => rw [store_nil]
  | cons first addrs ih =>
      cases bytes with
      | nil => rfl
      | cons byte bytes =>
          obtain ⟨different, later⟩ := List.ne_and_not_mem_of_not_mem_cons outside
          rw [store, ih _ bytes later, Function.update_of_ne different]

-- Addresses that do not repeat hold afterwards what was written to them.
theorem store_read (mem : Nat → Byte) (addrs : List Nat) (bytes : Buffer) (equal : addrs.length = bytes.length)
    (apart : addrs.Nodup) : addrs.map (store mem addrs bytes) = bytes := by
  induction addrs generalizing mem bytes with
  | nil => exact (List.length_eq_zero_iff.mp equal.symm).symm
  | cons addr addrs ih =>
      cases bytes with
      | nil => cases equal
      | cons byte bytes =>
          obtain ⟨fresh, apart⟩ := List.nodup_cons.mp apart
          rw [List.map_cons, store, store_outside _ _ _ _ fresh, Function.update_self]
          exact congrArg _ (ih _ bytes (Nat.succ.inj equal) apart)

theorem poke_store (mem : Nat → Byte) (p : Nat) (bytes : Buffer) :
    poke mem p bytes = store mem (List.range' p bytes.length) bytes := by
  induction bytes generalizing mem p with
  | nil =>
      funext addr
      exact poke_outside mem p addr [] (by simp; omega)
  | cons byte bytes ih =>
      rw [List.length_cons, List.range'_succ, store, ← ih]
      funext addr
      unfold poke
      rw [List.length_cons]
      by_cases first : addr = p
      · subst first
        rw [if_pos (by omega), if_neg (by omega), Function.update_self, Nat.sub_self]
        rfl
      · rw [Function.update_of_ne first]
        by_cases inside : p + 1 ≤ addr ∧ addr < p + 1 + bytes.length
        · rw [if_pos inside, if_pos (by omega), show addr - p = addr - (p + 1) + 1 by omega]
          rfl
        · rw [if_neg inside, if_neg (by omega)]

theorem take_range (start n k : Nat) : (List.range' start n).take k = List.range' start (min k n) := by
  obtain less | more := Nat.le_total k n
  · rw [Nat.min_eq_left less, List.take_range'_of_length_ge less]
  · rw [Nat.min_eq_right more, List.take_range'_of_length_le more]

theorem put_iov_store (buf mem : Nat → Byte) (iov : List Iovec) (sized : SizedIov iov) (todo done : Nat) :
    putIov buf mem todo done iov = store mem ((addresses iov).take todo) (peek buf done todo) := by
  induction iov generalizing mem todo done with
  | nil => rw [addresses_nil, List.take_nil, store_nil, putIov]
  | cons v rest ih =>
      have length := sized_length v (sized v (List.mem_cons_self ..))
      rw [putIov, length]
      split
      · have cando : (min (todo : Int) v.len.toNat).toNat = min todo v.len.toNat := by omega
        have left : (todo : Int) - min (todo : Int) v.len.toNat = ((todo - min todo v.len.toNat : Nat) : Int) := by omega
        dsimp only
        rw [left, cando, ih _ (fun u member => sized u (List.mem_cons_of_mem _ member)), poke_store, peek_length,
          ← store_append _ _ _ _ _ (by simp), ← peek_append, Nat.add_sub_cancel' (Nat.min_le_left ..), addresses_cons,
          List.take_append, List.length_range', take_range, show todo - min todo v.len.toNat = todo - v.len.toNat by omega]
      · rename_i none
        rw [show todo = 0 by omega, List.take_zero, store_nil]

theorem todo_iov_left (iov : List Iovec) (sized : SizedIov iov) (todo : Nat) :
    todoIov todo iov = (todo - (addresses iov).length : Nat) := by
  induction iov generalizing todo with
  | nil => rw [todoIov, addresses_nil, List.length_nil, Nat.sub_zero]
  | cons v rest ih =>
      have length := sized_length v (sized v (List.mem_cons_self ..))
      rw [todoIov, length, addresses_cons, List.length_append, List.length_range']
      split
      · have left : (todo : Int) - min (todo : Int) v.len.toNat = ((todo - v.len.toNat : Nat) : Int) := by omega
        rw [left, ih (fun u member => sized u (List.mem_cons_of_mem _ member)), Nat.sub_sub]
      · omega

-- The first loop stops inside of a piece, or in front of the ones that are left.
theorem skip_iov_stops (iov : List Iovec) (sized : SizedIov iov) (last : Option Iovec) (skip : Nat) :
    (∃ (part : Nat) (v : Iovec) (rest : List Iovec), skipIov skip last iov = ((part : Int) - v.len.toNat, some v, rest) ∧ part < v.len.toNat
        ∧ v.len.toInt = v.len.toNat ∧ SizedIov rest
        ∧ (addresses iov).drop skip = List.range' (v.base + part) (v.len.toNat - part) ++ addresses rest)
      ∨ ∃ (left : Nat) (passed : Option Iovec) (rest : List Iovec), skipIov skip last iov = ((left : Int), passed, rest) ∧ SizedIov rest
        ∧ (addresses iov).drop skip = addresses rest := by
  induction iov generalizing last skip with
  | nil => exact Or.inr ⟨skip, last, [], rfl, sized, List.drop_nil⟩
  | cons v rest ih =>
      have length := sized_length v (sized v (List.mem_cons_self ..))
      have later : SizedIov rest := fun u member => sized u (List.mem_cons_of_mem _ member)
      rw [skipIov, length, addresses_cons, List.drop_append, List.length_range', List.drop_range']
      split
      · obtain inside | beyond := Nat.lt_or_ge skip v.len.toNat
        · refine Or.inl ⟨skip, v, rest, ?_, inside, length, later, ?_⟩
          · cases rest with
            | nil => rfl
            | cons u rest => rw [skipIov, if_neg (by omega)]
          · rw [Nat.sub_eq_zero_of_le inside.le, List.drop_zero, Nat.mul_one]
        · rw [show (skip : Int) - v.len.toNat = ((skip - v.len.toNat : Nat) : Int) by omega, Nat.sub_eq_zero_of_le beyond]
          exact ih later (some v) (skip - v.len.toNat)
      · rename_i none
        obtain rfl : skip = 0 := by omega
        exact Or.inr ⟨0, last, v :: rest, rfl, sized, by simp⟩

theorem put_skipped_store (buf mem : Nat → Byte) (iov : List Iovec) (sized : SizedIov iov) (last : Option Iovec)
    (skip todo : Nat) :
    putSkipped buf mem todo (skipIov skip last iov) = store mem (((addresses iov).drop skip).take todo) (peek buf 0 todo) := by
  obtain ⟨part, v, rest, stops, inside, length, later, slots⟩ | ⟨left, passed, rest, stops, later, slots⟩ :=
    skip_iov_stops iov sized last skip
  · have cando : (min (-((part : Int) - v.len.toNat)) todo).toNat = min todo (v.len.toNat - part) := by omega
    have left : (todo : Int) - min (-((part : Int) - v.len.toNat)) todo = ((todo - min todo (v.len.toNat - part) : Nat) : Int) := by
      omega
    have start : ((part : Int) - v.len.toNat + v.len.toNat).toNat = part := by omega
    have pieces := peek_append buf 0 (min todo (v.len.toNat - part)) (todo - min todo (v.len.toNat - part))
    rw [Nat.add_sub_cancel' (Nat.min_le_left ..), Nat.zero_add] at pieces
    rw [stops, slots, putSkipped, if_pos (by omega)]
    dsimp only
    rw [left, cando, put_iov_store _ _ _ later, poke_store, peek_length, length, start, ← store_append _ _ _ _ _ (by simp),
      ← pieces, List.take_append, List.length_range', take_range,
      show todo - min todo (v.len.toNat - part) = todo - (v.len.toNat - part) by omega]
  · rw [stops, slots]
    cases passed with
    | none => exact put_iov_store _ _ _ later _ _
    | some v =>
        rw [putSkipped, if_neg (by omega)]
        exact put_iov_store _ _ _ later _ _

theorem todo_skipped_left (iov : List Iovec) (sized : SizedIov iov) (last : Option Iovec) (skip todo : Nat) :
    todoSkipped todo (skipIov skip last iov) = (todo - ((addresses iov).length - skip) : Nat) := by
  rw [← List.length_drop]
  obtain ⟨part, v, rest, stops, inside, length, later, slots⟩ | ⟨left, passed, rest, stops, later, slots⟩ :=
    skip_iov_stops iov sized last skip
  · have left : (todo : Int) - min (-((part : Int) - v.len.toNat)) todo = ((todo - (v.len.toNat - part) : Nat) : Int) := by
      omega
    rw [stops, slots, todoSkipped, if_pos (by omega), left, todo_iov_left _ later, List.length_append, List.length_range',
      Nat.sub_sub]
  · rw [stops, slots]
    cases passed with
    | none => exact todo_iov_left _ later _
    | some v =>
        rw [todoSkipped, if_neg (by omega)]
        exact todo_iov_left _ later _

theorem contents_length (mem : Nat → Byte) (iov : List Iovec) : (contents mem iov).length = (addresses iov).length := by
  rw [contents_map, List.length_map]

-- How many bytes there are to copy.
theorem iov_copied (mem : Nat → Byte) (iov : List Iovec) (sized : SizedIov iov) (nbytes skip : Nat) :
    iovCopied nbytes iov skip = (min nbytes ((contents mem iov).length - skip) : Nat) := by
  rw [contents_length]
  unfold iovCopied
  split
  · rename_i none
    obtain rfl | few | before := none
    · simp
    · omega
    · omega
  · rw [todo_skipped_left iov sized]
    omega

theorem buf2iov_store (buf mem : Nat → Byte) (iov : List Iovec) (sized : SizedIov iov) (nbytes skip : Nat) :
    buf2iovCpy buf mem nbytes iov skip = store mem (((addresses iov).drop skip).take nbytes) (peek buf 0 nbytes) := by
  unfold buf2iovCpy
  split
  · rename_i none
    obtain rfl | few | before := none
    · rw [addresses_nil, List.drop_nil, List.take_nil, store_nil]
    · rw [show nbytes = 0 by omega, List.take_zero, store_nil]
    · omega
  · exact put_skipped_store buf mem iov sized none skip nbytes

-- The bytes that are asked for and are there, counted from skip on.
def slots (iov : List Iovec) (nbytes skip : Nat) : List Nat := ((addresses iov).drop skip).take nbytes

theorem slots_length (mem : Nat → Byte) (iov : List Iovec) (nbytes skip : Nat) :
    (slots iov nbytes skip).length = min nbytes ((contents mem iov).length - skip) := by
  rw [slots, List.length_take, List.length_drop, contents_length]

theorem store_short (mem : Nat → Byte) (addrs : List Nat) (bytes : Buffer) :
    store mem addrs (bytes.take addrs.length) = store mem addrs bytes := by
  induction addrs generalizing mem bytes with
  | nil => rw [store_nil, store_nil]
  | cons addr addrs ih =>
      cases bytes with
      | nil => rfl
      | cons byte bytes => exact ih _ bytes

theorem buf2iov_slots (buf mem : Nat → Byte) (iov : List Iovec) (sized : SizedIov iov) (nbytes skip : Nat) :
    buf2iovCpy buf mem nbytes iov skip = store mem (slots iov nbytes skip) (peek buf 0 (slots iov nbytes skip).length) := by
  have fewer : (slots iov nbytes skip).length ≤ nbytes := List.length_take_le _ _
  rw [buf2iov_store buf mem iov sized, ← peek_take buf 0 _ _ fewer, store_short]
  rfl

theorem iov2buf_slots (mem : Nat → Byte) (iov : List Iovec) (sized : SizedIov iov) (nbytes skip : Nat) :
    iov2bufCpy mem nbytes iov skip = (slots iov nbytes skip).map mem := by
  rw [iov2buf_slice mem iov sized, contents_map, slots, List.map_take, List.map_drop]

-- Both functions copy what is there between skip and skip + nbytes, and nothing else is written; where the pieces do not
-- overlap, what has been copied out comes back.
theorem iov_copies (buf mem : Nat → Byte) (iov : List Iovec) (sized : SizedIov iov) (nbytes skip : Nat) :
    let r := min nbytes ((contents mem iov).length - skip)
    let written := buf2iovCpy buf mem nbytes iov skip
    iovCopied nbytes iov skip = (r : Nat) ∧ iov2bufCpy mem nbytes iov skip = ((contents mem iov).drop skip).take r
      ∧ (slots iov nbytes skip).length = r ∧ written = store mem (slots iov nbytes skip) (peek buf 0 r)
      ∧ (∀ addr ∉ slots iov nbytes skip, written addr = mem addr)
      ∧ ((slots iov nbytes skip).Nodup → iov2bufCpy written nbytes iov skip = peek buf 0 r) := by
  dsimp only
  have length := slots_length mem iov nbytes skip
  have placed := buf2iov_slots buf mem iov sized nbytes skip
  rw [length] at placed
  refine ⟨iov_copied mem iov sized nbytes skip, ?_, length, placed, fun addr outside => ?_, fun apart => ?_⟩
  · rw [iov2buf_slice mem iov sized, ← List.length_drop, List.take_eq_take_min]
  · rw [placed, store_outside _ _ _ _ outside]
  · rw [iov2buf_slots _ iov sized, placed, store_read _ _ _ (by rw [length, peek_length]) apart]

theorem iov_copies_two :
    iov2bufCpy (buf2iovCpy (BitVec.ofNat 8) (fun _ => 0) 3 [⟨0, 2⟩, ⟨8, 0⟩, ⟨4, 3⟩] 1) 3 [⟨0, 2⟩, ⟨8, 0⟩, ⟨4, 3⟩] 1
      = peek (BitVec.ofNat 8) 0 3 :=
  (iov_copies (BitVec.ofNat 8) (fun _ => 0) [⟨0, 2⟩, ⟨8, 0⟩, ⟨4, 3⟩] (by unfold SizedIov; decide) 3 1).2.2.2.2.2 (by decide)

-- Two pieces in the same place: the second byte is read back twice.
theorem iov_overlap_lost :
    iov2bufCpy (buf2iovCpy (fun addr => if addr = 0 then 1 else 2) (fun _ => 0) 2 [⟨0, 1⟩, ⟨0, 1⟩] 0) 2 [⟨0, 1⟩, ⟨0, 1⟩] 0 = [2, 2]
      ∧ peek (fun addr => if addr = 0 then 1 else 2) 0 2 = [1, 2] := by
  decide

end MagxNet.Tcp
