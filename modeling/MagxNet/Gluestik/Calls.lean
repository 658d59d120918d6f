import MagxNet.Gluestik.Chunks

set_option autoImplicit false

namespace MagxNet.Gluestik

open Paving

-- In a region the chunks of two places have different pointers.
theorem alone (start stop : Nat) (before after : List Chunk) (H : Chunk) (region : Region start stop (before ++ H :: after)) :
    (∀ other ∈ before, other.mem ≠ H.mem) ∧ ∀ other ∈ after, other.mem ≠ H.mem := by
  obtain ⟨-, behind, ahead⟩ := List.pairwise_append.mp (paved_ordered _ _ _ _ _ region.paved)
  constructor
  · intro other member
    have order := ahead other member H List.mem_cons_self
    unfold Chunk.len HEADER at order
    unfold Chunk.mem
    omega
  · intro other member
    have order := List.rel_of_pairwise_cons behind member
    unfold Chunk.len HEADER at order
    unfold Chunk.mem
    omega

theorem not_handed (chunks : List Chunk) (mem bytes : Nat) (others : ∀ other ∈ chunks, other.mem ≠ mem) :
    ¬ Handed chunks mem bytes := by
  rintro ⟨other, member, -, same, -⟩
  exact others other member same

theorem split_at (start stop : Nat) (before after : List Chunk) (H : Chunk)
    (region : Region start stop (before ++ H :: after)) : splitAt (before ++ H :: after) H.mem = (before, H :: after) := by
  unfold splitAt
  rw [List.span_eq_takeWhile_dropWhile]
  have others : ∀ other ∈ before, (!decide (other.mem = H.mem)) = true := fun other member => by
    simpa using (alone start stop before after H region).1 other member
  rw [List.takeWhile_append_of_pos others, List.dropWhile_append_of_pos others]
  simp

-- A block in front of a region needs no seam.
theorem region_front (start mid stop : Nat) (before back : List Chunk) (H : Chunk) (front : Region start mid before)
    (later : Region mid stop (H :: back)) (alloced : isAlloced H) : Region start stop (before ++ H :: back) := by
  refine (region_append _ _ _ _).mpr ⟨mid, front, later, ?_⟩
  rintro last - next ⟨⟩ both
  exact alloced_not_freed H alloced both.2

-- What a call leaves that hands out mem with at least bytes.
structure Taken (stop : Nat) (arena arena' : List Chunk) (mem bytes : Nat) : Prop where
  region : Region 0 stop arena'
  others : ∀ other n, other ≠ mem → (Handed arena' other n ↔ Handed arena other n)
  holds : ∃ n, bytes ≤ n ∧ Handed arena' mem n

-- Clearing the low bits of a word.
theorem cleared (x mask : Ulong) (k : Nat) (low : mask.toNat = 2 ^ k - 1) :
    (x &&& ~~~mask).toNat = x.toNat - x.toNat % 2 ^ k := by
  have rest : (x &&& mask).toNat = x.toNat % 2 ^ k := by rw [BitVec.toNat_and, low, Nat.and_two_pow_sub_one_eq_mod]
  have apart : (x &&& ~~~mask) &&& (x &&& mask) = 0#32 := by
    ext i inside
    cases bit : mask[i] <;> simp [bit]
  have whole : (x &&& ~~~mask) + (x &&& mask) = x := by
    rw [BitVec.add_eq_or_of_and_eq_zero _ _ apart]
    ext i inside
    cases bit : mask[i] <;> simp [bit]
  have sum := congrArg BitVec.toNat whole
  have below : (x &&& ~~~mask).toNat ≤ x.toNat := by
    rw [BitVec.toNat_and]
    exact Nat.and_le_left
  have bound := x.isLt
  have small := Nat.mod_le x.toNat (2 ^ k)
  rw [BitVec.toNat_add, rest] at sum
  omega

theorem le_round (n : Ulong) (wanted : round n ≠ 0) : n.toNat ≤ (round n).toNat := by
  have value : (round n).toNat = (n + 7).toNat - (n + 7).toNat % 2 ^ 3 := cleared (n + 7) 7 3 rfl
  have nonzero : (round n).toNat ≠ 0 := fun zero => wanted (BitVec.eq_of_toNat_eq zero)
  have bound := n.isLt
  rw [BitVec.toNat_add, show (7 : Ulong).toNat = 7 from rfl] at value
  omega

theorem alloc_loop (size : Ulong) (arena : List Chunk) :
    allocLoop size arena = (none, arena) ∨ ∃ before H rest, arena = before ++ H :: rest ∧ ¬ isAlloced H ∧ size ≤ chunksize H
      ∧ allocLoop size arena = (some H.mem, before ++ trySplit size (H :: rest)) := by
  induction arena with
  | nil => exact Or.inl rfl
  | cons H rest ih =>
      unfold allocLoop
      by_cases skipped : isAlloced H ∨ chunksize H < size
      · rw [if_pos skipped]
        obtain none | ⟨before, chunk, after, rfl, unused, enough, found⟩ := ih
        · exact Or.inl (by rw [none])
        · exact Or.inr ⟨H :: before, chunk, after, rfl, unused, enough, by rw [found]; rfl⟩
      · rw [if_neg skipped]
        exact Or.inr ⟨[], H, rest, rfl, fun alloced => skipped (Or.inl alloced), BitVec.not_lt.mp fun less => skipped (Or.inr less),
          rfl⟩

theorem handed_around (before after : List Chunk) (H : Chunk) (other n : Nat) (apart : other ≠ H.mem) :
    Handed (before ++ H :: after) other n ↔ Handed before other n ∨ Handed after other n := by
  rw [handed_append, handed_cons]
  exact or_congr_right (or_iff_right fun here => apart here.2.1.symm)

section Arena

variable (stop : Nat) (fits : stop < 2 ^ 24 + HEADER)

include fits

-- try_split in the middle of the arena.
theorem split_taken (size : Ulong) (before rest : List Chunk) (H : Chunk) (region : Region 0 stop (before ++ H :: rest))
    (enough : size ≤ chunksize H) :
    Taken stop (before ++ H :: rest) (before ++ trySplit size (H :: rest)) H.mem size.toNat := by
  obtain ⟨mid, front, back, -⟩ := (region_append _ _ _ _).mp region
  obtain ⟨here, -, -, later⟩ := (region_cons _ _ _ _).mp back
  obtain ⟨block, rest', result, alloced, holds, region', handed⟩ := try_split size mid stop H rest here enough later fits
  have same : block.mem = H.mem := by
    unfold Chunk.mem
    rw [here, ((region_cons _ _ _ _).mp region').1]
  rw [result]
  refine ⟨region_front _ _ _ _ _ _ front region' alloced, fun other n apart => ?_, room block, holds, block,
    List.mem_append_right before List.mem_cons_self, alloced, same, rfl⟩
  rw [handed_around before rest' block other n (same ▸ apart), handed_around before rest H other n apart, handed]

-- The block has taken the free one behind it.
theorem grown_region (size : Ulong) (before rest : List Chunk) (H next : Chunk)
    (region : Region 0 stop (before ++ H :: next :: rest)) (grows : nextFits size (H :: next :: rest)) :
    ∃ joined, joinNext ALLOCED (H :: next :: rest) = joined :: rest ∧ joined.addr = H.addr ∧ size ≤ chunksize joined
      ∧ Region 0 stop (before ++ joined :: rest) := by
  obtain ⟨-, enough⟩ := grows
  obtain ⟨mid, front, back, -⟩ := (region_append _ _ _ _).mp region
  obtain ⟨here, -, -, later⟩ := (region_cons _ _ _ _).mp back
  obtain ⟨joined, result, place, mark, holds, behind⟩ := join_next ALLOCED rfl mid stop H next rest here later fits
  have alloced : isAlloced joined := mark
  refine ⟨joined, result, place.trans here.symm, ?_, region_front 0 mid stop before rest joined front
    ((region_cons _ _ _ _).mpr ⟨place, Or.inl alloced, fun _ _ both => alloced_not_freed _ alloced both.1, behind⟩) alloced⟩
  refine (show size.toNat ≤ room joined from ?_)
  have small : room joined < 2 ^ 24 := chunksize_small joined
  rw [holds] at small ⊢
  rw [← joined_size H next small]
  exact enough

-- The same as split_taken when the block has taken the free one behind it first.
theorem grown_taken (size : Ulong) (before rest : List Chunk) (H next : Chunk)
    (region : Region 0 stop (before ++ H :: next :: rest)) (grows : nextFits size (H :: next :: rest)) :
    Taken stop (before ++ H :: next :: rest) (before ++ trySplit size (joinNext ALLOCED (H :: next :: rest))) H.mem size.toNat := by
  obtain ⟨joined, result, place, fit, region'⟩ := grown_region stop fits size before rest H next region grows
  have same : joined.mem = H.mem := congrArg (· + HEADER) place
  rw [result]
  obtain ⟨whole, others, holds'⟩ := split_taken stop fits size before rest joined region' fit
  rw [same] at others holds'
  refine ⟨whole, fun other n apart => (others other n apart).trans ?_, holds'⟩
  rw [handed_around before rest joined other n (same ▸ apart), handed_around before (next :: rest) H other n apart,
    handed_free next rest other n grows.1]

theorem alloc_spec (arena : List Chunk) (region : Region 0 stop arena) (size : Ulong) :
    gsMemAlloc arena size = (none, arena) ∨ ∃ mem arena', gsMemAlloc arena size = (some mem, arena')
      ∧ (∀ bytes, ¬ Handed arena mem bytes) ∧ Taken stop arena arena' mem (round size).toNat ∧ round size ≠ 0 := by
  unfold gsMemAlloc
  by_cases guarded : 0x01000000 ≤ round size ∨ round size = 0
  · exact Or.inl (if_pos guarded)
  · rw [if_neg guarded]
    obtain none | ⟨before, H, rest, rfl, unused, enough, found⟩ := alloc_loop (round size) arena
    · exact Or.inl none
    · obtain ⟨others, others'⟩ := alone 0 stop before rest H region
      refine Or.inr ⟨H.mem, _, found, fun bytes => ?_, split_taken stop fits (round size) before rest H region enough,
        fun zero => guarded (Or.inr zero)⟩
      rw [handed_append, handed_cons]
      rintro (inside | inside | inside)
      · exact not_handed before H.mem bytes others inside
      · exact unused inside.1
      · exact not_handed rest H.mem bytes others' inside

theorem merge_prev (mid : Nat) (before rest : List Chunk) (merged : Chunk) (front : Region 0 mid before)
    (back : Region mid stop (merged :: rest)) (freed : isFreed merged) :
    Region 0 stop (mergePrev before (merged :: rest)) ∧ ∀ mem bytes,
      Handed (mergePrev before (merged :: rest)) mem bytes ↔ Handed before mem bytes ∨ Handed rest mem bytes := by
  obtain rfl | ⟨init, H2, rfl⟩ := List.eq_nil_or_concat' before
  · obtain rfl : 0 = mid := front.paved
    refine ⟨back, fun mem bytes => (handed_free merged rest mem bytes freed).trans (or_iff_right ?_).symm⟩
    exact not_handed [] mem bytes fun _ member => absurd member List.not_mem_nil
  · unfold mergePrev
    rw [List.getLast?_concat]
    dsimp only
    by_cases free : isFreed H2
    · obtain ⟨low, front', last, seam⟩ := (region_append _ _ _ _).mp front
      obtain ⟨here, -, -, end'⟩ := (region_cons _ _ _ _).mp last
      obtain rfl : low + H2.len = mid := end'.paved
      obtain ⟨joined, result, place, mark, -, behind⟩ := join_next FREED rfl low stop H2 merged rest here back fits
      have next := ((region_cons _ _ _ _).mp back).2.2.1
      rw [if_pos free, List.dropLast_concat, result]
      refine ⟨(region_append _ _ _ _).mpr ⟨low, front', (region_cons _ _ _ _).mpr ⟨place, Or.inr mark, fun other first both =>
        next other first ⟨freed, both.2⟩, behind⟩, ?_⟩, fun mem bytes => ?_⟩
      · rintro last member other ⟨⟩ both
        exact seam last member H2 rfl ⟨both.1, free⟩
      · rw [handed_append, handed_free _ _ _ _ mark, handed_append, handed_free H2 [] mem bytes free]
        simp [Handed]
    · rw [if_neg free]
      refine ⟨(region_append _ _ _ _).mpr ⟨mid, front, back, ?_⟩, fun mem bytes => ?_⟩
      · intro last member other first both
        obtain rfl : H2 = last := by simpa using member
        exact free both.1
      · rw [handed_append, handed_free merged rest mem bytes freed]

omit fits in
-- The chunk that a pointer in use belongs to, as the code finds it.
theorem handed_split (arena : List Chunk) (region : Region 0 stop arena) (mem bytes : Nat) (live : Handed arena mem bytes) :
    ∃ before H after, arena = before ++ H :: after ∧ isAlloced H ∧ H.mem = mem ∧ room H = bytes
      ∧ splitAt arena mem = (before, H :: after) ∧ (∀ n, ¬ Handed before mem n) ∧ ∀ n, ¬ Handed after mem n := by
  obtain ⟨H, member, alloced, rfl, rfl⟩ := live
  obtain ⟨before, after, rfl⟩ := List.append_of_mem member
  obtain ⟨others, others'⟩ := alone 0 stop before after H region
  exact ⟨before, H, after, rfl, alloced, rfl, rfl, split_at 0 stop before after H region,
    fun n => not_handed before H.mem n others, fun n => not_handed after H.mem n others'⟩

omit fits in
theorem freed_chunks (before after : List Chunk) (H : Chunk) (alloced : isAlloced H) (region : Region 0 stop (before ++ H :: after)) :
    gsMemFree (before ++ H :: after) (some H.mem)
      = mergePrev before (mergeNext (⟨H.addr, chunksize H ||| FREED⟩ :: after)) := by
  unfold gsMemFree
  dsimp only
  rw [split_at 0 stop before after H region]
  dsimp only
  rw [if_neg (not_not.mpr alloced)]

theorem free_spec (arena : List Chunk) (region : Region 0 stop arena) (mem bytes : Nat) (live : Handed arena mem bytes) :
    Region 0 stop (gsMemFree arena (some mem))
      ∧ ∀ other n, Handed (gsMemFree arena (some mem)) other n ↔ other ≠ mem ∧ Handed arena other n := by
  obtain ⟨before, H, after, rfl, alloced, rfl, -, -, gone, gone'⟩ := handed_split stop arena region mem bytes live
  obtain ⟨mid, front, back, -⟩ := (region_append _ _ _ _).mp region
  obtain ⟨here, -, -, later⟩ := (region_cons _ _ _ _).mp back
  have word := freed_word H.addr (chunksize H) (chunksize_small H)
  have kept : Chunk.len ⟨H.addr, chunksize H ||| FREED⟩ = H.len := congrArg (HEADER + ·.toNat) word.2
  obtain ⟨merged, rest, result, freed, region', handed⟩ := merge_next mid stop ⟨H.addr, chunksize H ||| FREED⟩ after here word.1
    (by rwa [kept]) fits
  obtain ⟨whole, left⟩ := merge_prev stop fits mid before rest merged front region' freed
  rw [freed_chunks stop before after H alloced region, result]
  refine ⟨whole, fun other n => ?_⟩
  rw [left, handed]
  by_cases same : other = H.mem
  · subst same
    simp [gone, gone']
  · rw [handed_around before after H other n same]
    exact (and_iff_right same).symm

-- What gs_mem_realloc does with a pointer in use: nothing, the block in its place, or another block and the copied bytes.
theorem realloc_spec (arena : List Chunk) (region : Region 0 stop arena) (mem bytes : Nat) (live : Handed arena mem bytes)
    (newsize : Ulong) (wanted : newsize ≠ 0) :
    gsMemRealloc arena (some mem) newsize = ⟨none, arena, none⟩
      ∨ (∃ arena', gsMemRealloc arena (some mem) newsize = ⟨some mem, arena', none⟩
          ∧ Taken stop arena arena' mem (round newsize).toNat)
      ∨ ∃ newmem between, gsMemRealloc arena (some mem) newsize = ⟨some newmem, gsMemFree between (some mem), some (newmem, bytes)⟩
          ∧ (∀ n, ¬ Handed arena newmem n) ∧ Taken stop arena between newmem bytes := by
  obtain ⟨before, H, after, rfl, alloced, rfl, rfl, found, -, -⟩ := handed_split stop arena region mem bytes live
  unfold gsMemRealloc
  dsimp only
  rw [if_neg wanted, found]
  dsimp only
  rw [if_neg (not_not.mpr alloced)]
  by_cases shrinks : round newsize ≤ chunksize H
  · rw [if_pos shrinks]
    exact Or.inr (Or.inl ⟨_, rfl, split_taken stop fits _ before after H region shrinks⟩)
  rw [if_neg shrinks]
  by_cases grows : nextFits (round newsize) (H :: after)
  · rw [if_pos grows]
    obtain ⟨next, rest, rfl⟩ : ∃ next rest, after = next :: rest := by
      cases after with
      | nil => exact grows.elim
      | cons next rest => exact ⟨next, rest, rfl⟩
    refine Or.inr (Or.inl ⟨_, rfl, ?_⟩)
    exact grown_taken stop fits (round newsize) before rest H next region grows
  · rw [if_neg grows]
    obtain none | ⟨newmem, between, given, fresh, taken, some⟩ := alloc_spec stop fits _ region (round newsize)
    · exact Or.inl (by rw [none])
    · refine Or.inr (Or.inr ⟨newmem, between, by rw [given]; rfl, fresh, taken.region, taken.others, ?_⟩)
      obtain ⟨n, enough, holds⟩ := taken.holds
      have less : (chunksize H).toNat < (round newsize).toNat := BitVec.not_le.mp shrinks
      exact ⟨n, (less.le.trans (le_round _ some)).trans enough, holds⟩

end Arena

end MagxNet.Gluestik
