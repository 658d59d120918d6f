import MagxNet.Gluestik.Pool

set_option autoImplicit false

namespace MagxNet.Gluestik

open Bytes Paving

-- A pointer as it is handed out.
def pointer (arena : Nat) : Option Nat → Nat
  | none => 0
  | some p => arena + p

section Arena

variable (mem : Memory) (arena stop : Nat) (positive : 0 < arena) (within : arena + stop ≤ 2 ^ 32)

theorem paved_fits (start : Nat) (chunks : List Chunk) (within : arena + stop ≤ 2 ^ 32)
    (paved : Paved Chunk.addr Chunk.len start stop chunks) : ∀ c ∈ chunks, arena + c.addr + HEADER ≤ 2 ^ 32 := by
  intro c member
  have inside := (paved_inside _ _ _ _ _ paved c member).2
  unfold Chunk.len at inside
  omega

theorem merge_next_head (H : Chunk) (rest : List Chunk) :
    ∃ c more, mergeNext (H :: rest) = c :: more ∧ c.addr = H.addr ∧ more.Sublist rest := by
  cases rest with
  | nil => exact ⟨H, [], rfl, rfl, List.Sublist.refl []⟩
  | cons next rest =>
      rw [mergeNext]
      by_cases freed : isFreed next
      · rw [if_pos freed]
        exact ⟨_, rest, rfl, rfl, List.sublist_cons_self next rest⟩
      · rw [if_neg freed]
        exact ⟨H, next :: rest, rfl, rfl, List.Sublist.refl _⟩

-- A block that is cut in two fills the same place.
theorem split_paved (start : Nat) (rest : List Chunk) (block : Chunk) (newsize : Ulong) (enough : newsize ≤ chunksize block)
    (split : MIN_CHUNK ≤ chunksize block - newsize) (paved : Paved Chunk.addr Chunk.len start stop (block :: rest)) :
    Paved Chunk.addr Chunk.len start stop (⟨block.addr, newsize ||| ALLOCED⟩
      :: ⟨block.mem + newsize.toNat, (chunksize block - newsize - BitVec.ofNat 32 HEADER) ||| FREED⟩ :: rest) := by
  obtain ⟨rfl, behind⟩ := paved
  have small := chunksize_small block
  have size := spare_size newsize block enough split
  have taken : newsize.toNat < 2 ^ 24 := Nat.lt_of_le_of_lt enough small
  have tail : (chunksize block - newsize - BitVec.ofNat 32 HEADER).toNat < 2 ^ 24 := by
    unfold room at size
    omega
  have kept : room ⟨block.addr, newsize ||| ALLOCED⟩ = newsize.toNat := room_of_word _ _ _ taken rfl
  have spare := room_of_word (block.mem + newsize.toNat) _ FREED tail rfl
  have place : block.addr + Chunk.len ⟨block.addr, newsize ||| ALLOCED⟩ = block.mem + newsize.toNat := by
    unfold Chunk.len Chunk.mem
    rw [kept, Nat.add_assoc]
  refine ⟨rfl, place.symm, ?_⟩
  unfold Chunk.len at place behind ⊢
  rw [place, spare, show block.mem = block.addr + HEADER from rfl,
    show block.addr + HEADER + newsize.toNat + (HEADER + (chunksize block - newsize - BitVec.ofNat 32 HEADER).toNat)
      = block.addr + (HEADER + room block) by omega]
  exact behind

include positive within

theorem try_split_at (front rest : List Chunk) (block : Chunk) (newsize : Ulong) (enough : newsize ≤ chunksize block)
    (paved : Paved Chunk.addr Chunk.len 0 stop (front ++ block :: rest))
    (headers : Headers mem arena (front ++ block :: rest) 0) :
    Headers (trySplitAt mem (arena + block.addr) newsize) arena (front ++ trySplit newsize (block :: rest)) 0
      ∧ ∀ a, ¬ InHeader arena (trySplit newsize (block :: rest)) a → trySplitAt mem (arena + block.addr) newsize a = mem a := by
  obtain ⟨-, size, link, -⟩ := (headers_append _ _ _ _ _).mp headers
  have here := (same_size _ block size).1
  unfold trySplitAt
  rw [trySplit, here, link]
  by_cases split : MIN_CHUNK ≤ chunksize block - newsize
  · rw [if_pos split, if_pos split]
    generalize tail : (chunksize block - newsize - BitVec.ofNat 32 HEADER) ||| FREED = spare
    obtain ⟨mid, ahead, inner⟩ := (paved_append _ _ _ _ _ _).mp paved
    have paved' := (paved_append _ _ front _ 0 stop).mpr ⟨mid, ahead, split_paved stop mid rest block newsize enough split inner⟩
    rw [tail] at paved'
    have spaced := paved_spaced 0 stop _ paved'
    have fits := paved_fits arena stop 0 _ within paved'
    have fits' : arena + (block.mem + newsize.toNat) + HEADER ≤ 2 ^ 32 := fits ⟨block.mem + newsize.toNat, spare⟩ (by simp)
    have later : ∀ c ∈ rest, arena + c.addr < 2 ^ 32 := fun c member =>
      (Nat.lt_add_of_pos_right (by decide)).trans_le (fits c (by simp [member]))
    obtain ⟨two, frame⟩ := split_at_two mem arena front rest block newsize spare (by rw [List.append_assoc]; exact spaced) later
      ((Nat.lt_add_of_pos_right (by decide)).trans_le fits') headers
    have place : arena + block.addr + HEADER + newsize.toNat = arena + (block.mem + newsize.toNat) := by
      unfold Chunk.mem
      omega
    obtain ⟨c, more, head, first, -⟩ := merge_next_head ⟨block.mem + newsize.toNat, spare⟩ rest
    have far : Far (arena + (block.mem + newsize.toNat)) (arena + block.addr) := Or.inr (by unfold Chunk.mem; omega)
    have left := (same_size (chunkAt (setNext mem (arena + (block.mem + newsize.toNat)) (firstAt arena rest 0)) (arena + block.addr))
      block (by rw [size_set_next_far _ _ _ _ far, size])).1
    dsimp only
    rw [place, left, tail]
    have joined := merge_next_at _ arena positive (front ++ [⟨block.addr, newsize ||| ALLOCED⟩]) rest
      ⟨block.mem + newsize.toNat, spare⟩ (by simpa [List.append_assoc] using spaced) later
      (by simpa only [List.append_assoc, List.singleton_append] using two)
    refine ⟨by simpa only [List.append_assoc, List.singleton_append] using joined, fun a outside => ?_⟩
    have second : ¬ (arena + (block.mem + newsize.toNat) ≤ a ∧ a < arena + (block.mem + newsize.toNat) + HEADER) := fun inside =>
      outside ⟨c, by rw [head]; simp, by rw [first]; exact inside⟩
    rw [merge_next_outside _ _ a second]
    apply frame a
    rintro ⟨H, member, inside⟩
    obtain rfl | rfl := by simpa using member
    · exact outside ⟨_, List.mem_cons_self, inside⟩
    · exact second inside
  · rw [if_neg split, if_neg split]
    refine ⟨set_size_at mem arena front rest block _ (paved_spaced 0 stop _ paved) headers, fun a outside => ?_⟩
    exact set_size_outside _ _ a (fun inside => outside ⟨_, List.mem_cons_self, inside⟩) _

theorem alloc_loop_at (size : Ulong) (chunks before : List Chunk) (rounds : Nat) (enough : chunks.length < rounds)
    (paved : Paved Chunk.addr Chunk.len 0 stop (before ++ chunks)) (headers : Headers mem arena (before ++ chunks) 0) :
    ∃ mem', allocLoopAt size mem rounds (firstAt arena chunks 0) = some (pointer arena (allocLoop size chunks).1, mem')
      ∧ Headers mem' arena (before ++ (allocLoop size chunks).2) 0
      ∧ ((allocLoop size chunks).1 = none → mem' = mem)
      ∧ ∀ a, ¬ InHeader arena (before ++ (allocLoop size chunks).2) a → mem' a = mem a := by
  induction chunks generalizing before rounds with
  | nil =>
      obtain ⟨more, rfl⟩ := Nat.exists_eq_add_of_lt enough
      exact ⟨mem, rfl, headers, fun _ => rfl, fun _ _ => rfl⟩
  | cons H rest ih =>
      obtain ⟨rounds, rfl⟩ : ∃ more, rounds = more + 1 := ⟨rounds - 1, by rw [List.length_cons] at enough; omega⟩
      obtain ⟨-, size', link, -⟩ := (headers_append _ _ _ _ _).mp headers
      obtain ⟨room, -, alloced⟩ := same_size _ H size'
      have asks : (isAlloced (chunkAt mem (arena + H.addr)) ∨ chunksize (chunkAt mem (arena + H.addr)) < size)
          ↔ (isAlloced H ∨ chunksize H < size) := by
        rw [alloced, room]
      rw [firstAt, allocLoopAt, if_neg (by omega), allocLoop]
      by_cases skipped : isAlloced H ∨ chunksize H < size
      · rw [if_pos (asks.mpr skipped), if_pos skipped, link]
        have split : before ++ H :: rest = (before ++ [H]) ++ rest := by simp
        obtain ⟨mem', result, headers', same, frame⟩ := ih (before ++ [H]) rounds (Nat.lt_of_succ_lt_succ enough) (split ▸ paved)
          (split ▸ headers)
        rw [List.append_assoc, List.singleton_append] at headers' frame
        exact ⟨mem', result, headers', same, frame⟩
      · rw [if_neg (asks.not.mpr skipped), if_neg skipped]
        have fit : size ≤ chunksize H := BitVec.not_lt.mp fun less => skipped (Or.inr less)
        obtain ⟨headers', frame⟩ := try_split_at mem arena stop positive within before rest H size fit paved headers
        refine ⟨_, rfl, headers', fun none => (by cases none), fun a outside => frame a ?_⟩
        rintro ⟨c, member, inside⟩
        exact outside ⟨c, List.mem_append_right before member, inside⟩

omit positive within in
theorem paved_length (start : Nat) (chunks : List Chunk) (paved : Paved Chunk.addr Chunk.len start stop chunks) :
    start + HEADER * chunks.length ≤ stop := by
  have total := paved_sum _ _ _ _ _ paved
  have each := List.sum_le_sum (l := chunks) (f := fun _ => HEADER) (g := Chunk.len) fun H _ => Nat.le_add_right HEADER (room H)
  rw [List.map_const', List.sum_replicate, smul_eq_mul, Nat.mul_comm] at each
  omega

theorem gs_mem_alloc_at (chunks : List Chunk) (size : Ulong) (paved : Paved Chunk.addr Chunk.len 0 stop chunks)
    (first : firstAt arena chunks 0 = arena) (headers : Headers mem arena chunks 0) :
    ∃ mem', gsMemAllocAt mem arena size = some (pointer arena (gsMemAlloc chunks size).1, mem')
      ∧ Headers mem' arena (gsMemAlloc chunks size).2 0
      ∧ ((gsMemAlloc chunks size).1 = none → mem' = mem)
      ∧ ∀ a, ¬ InHeader arena (gsMemAlloc chunks size).2 a → mem' a = mem a := by
  unfold gsMemAllocAt gsMemAlloc
  by_cases guarded : 0x01000000 ≤ round size ∨ round size = 0
  · rw [if_pos guarded, if_pos guarded]
    exact ⟨mem, rfl, headers, fun _ => rfl, fun _ _ => rfl⟩
  · rw [if_neg guarded, if_neg guarded]
    have short : chunks.length < ROUNDS := by
      have length := paved_length stop 0 chunks paved
      unfold ROUNDS
      unfold HEADER at length
      omega
    have loop := alloc_loop_at mem arena stop positive within (round size) chunks [] ROUNDS short paved headers
    rw [first] at loop
    exact loop

omit positive within in
theorem header_at (chunks : List Chunk) (last : Nat) (headers : Headers mem arena chunks last) (H : Chunk) (member : H ∈ chunks) :
    (chunkAt mem (arena + H.addr)).size = H.size := by
  induction chunks with
  | nil => exact absurd member List.not_mem_nil
  | cons c rest ih =>
      obtain rfl | later := List.mem_cons.mp member
      · exact headers.1
      · exact ih headers.2.2 later

-- The loop that looks for the chunk in front of H ends at the last one before it.
omit within in
theorem prev_loop_at (H : Chunk) (back before : List Chunk) (c : Chunk) (rounds : Nat) (enough : before.length < rounds)
    (spaced : Spaced (before ++ c :: H :: back)) (headers : Headers mem arena (before ++ c :: H :: back) 0) :
    prevLoopAt mem (arena + H.addr) rounds (firstAt arena (before ++ c :: H :: back) 0) = some (arena + c.addr) := by
  induction before generalizing rounds with
  | nil =>
      obtain ⟨rounds, rfl⟩ : ∃ more, rounds = more + 1 := ⟨rounds - 1, by rw [List.length_nil] at enough; omega⟩
      have link : headerNext mem (arena + c.addr) = arena + H.addr := headers.2.1
      exact if_neg fun both => both.2 link
  | cons first rest ih =>
      obtain ⟨rounds, rfl⟩ : ∃ more, rounds = more + 1 := ⟨rounds - 1, by rw [List.length_cons] at enough; omega⟩
      have inner : Spaced (rest ++ c :: H :: back) := List.Pairwise.of_cons spaced
      have later := ih rounds (Nat.lt_of_succ_lt_succ enough) inner headers.2.2
      have link : headerNext mem (arena + first.addr) = firstAt arena (rest ++ c :: H :: back) 0 := headers.2.1
      have other : headerNext mem (arena + first.addr) ≠ arena + H.addr := by
        obtain ⟨-, close, across⟩ := List.pairwise_append.mp ((spaced_iff _).mp inner)
        have last := List.rel_of_pairwise_cons close List.mem_cons_self
        rw [link]
        cases rest with
        | nil =>
            unfold HEADER at last
            exact (Nat.add_lt_add_left (by omega) arena).ne
        | cons second more =>
            have order := across second List.mem_cons_self H (by simp)
            unfold HEADER at order
            exact (Nat.add_lt_add_left (by omega) arena).ne
      have real : arena + first.addr ≠ 0 := by omega
      rw [List.cons_append, firstAt, prevLoopAt, if_pos ⟨real, other⟩, link]
      exact later

theorem gs_mem_free_at (before after : List Chunk) (H : Chunk) (alloced : isAlloced H)
    (paved : Paved Chunk.addr Chunk.len 0 stop (before ++ H :: after)) (headers : Headers mem arena (before ++ H :: after) 0) :
    ∃ mem', gsMemFreeAt mem arena (arena + H.mem) = some mem'
      ∧ Headers mem' arena (mergePrev before (mergeNext ({ H with size := chunksize H ||| FREED } :: after))) 0
      ∧ ∀ a, ¬ InHeader arena (before ++ H :: after) a → mem' a = mem a := by
  have spaced := paved_spaced 0 stop _ paved
  have fits := paved_fits arena stop 0 _ within paved
  have later : ∀ c ∈ after, arena + c.addr < 2 ^ 32 := fun c member =>
    (Nat.lt_add_of_pos_right (by decide)).trans_le (fits c (by simp [member]))
  have here := header_at mem arena _ 0 headers H (by simp)
  obtain ⟨room, -, mark⟩ := same_size _ H here
  have place : arena + H.mem - HEADER = arena + H.addr := by
    unfold Chunk.mem
    omega
  have size := set_size_at mem arena before after H (chunksize H ||| FREED) spaced headers
  have spaced' : Spaced (before ++ ⟨H.addr, chunksize H ||| FREED⟩ :: after) := by simpa [Spaced] using spaced
  have merged := merge_next_at _ arena positive before after ⟨H.addr, chunksize H ||| FREED⟩ spaced' later size
  obtain ⟨c, rest, head, first, fewer⟩ := merge_next_head ⟨H.addr, chunksize H ||| FREED⟩ after
  have frame : ∀ a, ¬ InHeader arena (before ++ H :: after) a →
      mergeNextAt (setSize mem (arena + H.addr) (chunksize H ||| FREED)) (arena + H.addr) a = mem a := fun a outside => by
    have inside : ¬ (arena + H.addr ≤ a ∧ a < arena + H.addr + HEADER) := fun inside => outside ⟨H, by simp, inside⟩
    exact (merge_next_outside _ _ a inside).trans (set_size_outside _ _ a inside _)
  unfold gsMemFreeAt
  rw [if_neg (by omega), place, if_neg (not_not.mpr (mark.mpr alloced))]
  dsimp only
  rw [room]
  generalize mergeNextAt (setSize mem (arena + H.addr) (chunksize H ||| FREED)) (arena + H.addr) = mem' at merged frame ⊢
  rw [head] at merged ⊢
  have same : c.addr = H.addr := first
  obtain rfl | ⟨init, H2, rfl⟩ := List.eq_nil_or_concat' before
  · have start : H.addr = 0 := paved.1
    exact ⟨mem', if_pos (by rw [start, Nat.add_zero]), merged, frame⟩
  · rw [List.append_assoc, List.singleton_append] at merged spaced' paved spaced
    have order : H2.addr + HEADER ≤ H.addr := by
      obtain ⟨-, inner, -⟩ := List.pairwise_append.mp ((spaced_iff _).mp spaced)
      exact List.rel_of_pairwise_cons inner List.mem_cons_self
    have short : init.length < ROUNDS := by
      have length := paved_length stop 0 _ paved
      rw [List.length_append] at length
      unfold ROUNDS
      unfold HEADER at length
      omega
    have begins : firstAt arena (init ++ H2 :: c :: rest) 0 = arena := by
      cases init with
      | nil => exact congrArg (arena + ·) paved.1
      | cons _ _ => exact congrArg (arena + ·) paved.1
    have spaced'' : Spaced (init ++ H2 :: c :: rest) := by
      refine List.Pairwise.sublist ?_ spaced
      simp only [List.map_append, List.map_cons, same]
      exact (List.Sublist.refl _).append (((fewer.map _).cons_cons _).cons_cons _)
    have loop := prev_loop_at mem' arena positive c rest init H2 ROUNDS short spaced'' merged
    have freed := (same_size _ H2 (header_at mem' arena _ 0 merged H2 (by simp))).2.1
    rw [same, begins] at loop
    rw [if_neg (by unfold HEADER at order; omega), loop]
    refine ⟨_, rfl, ?_⟩
    unfold mergePrev
    rw [List.getLast?_concat]
    dsimp only
    rw [if_neg (by omega)]
    by_cases free : isFreed H2
    · rw [if_pos (freed.mpr free), if_pos free, List.dropLast_concat]
      refine ⟨join_next_at mem' arena init rest H2 c FREED spaced'' (fun x member => later x (fewer.subset member)) merged,
        fun a outside => ?_⟩
      have inside : ¬ (arena + H2.addr ≤ a ∧ a < arena + H2.addr + HEADER) := fun inside => outside ⟨H2, by simp, inside⟩
      exact (join_next_outside mem' _ a inside FREED).trans (frame a outside)
    · rw [if_neg (freed.not.mpr free), if_neg free, List.append_assoc, List.singleton_append]
      exact ⟨merged, frame⟩

end Arena

end MagxNet.Gluestik
