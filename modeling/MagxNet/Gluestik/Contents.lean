import MagxNet.Gluestik.Memory

set_option autoImplicit false

namespace MagxNet.Gluestik

open Bytes Paving

-- How many bytes a pointer in use has, as its header says.
def capacity (mem : Memory) (p : Nat) : Nat := room (chunkAt mem (p - HEADER))

def InBlock (mem : Memory) (p a : Nat) : Prop := p ≤ a ∧ a < p + capacity mem p

def unheld (live : List Nat) (p : Nat) : List Nat := live.filter fun q => decide (q ≠ p)

def handedOut (newmem : Nat) (live : List Nat) : List Nat := if newmem = 0 then live else newmem :: live

-- What the owners hold after gs_mem_realloc (p, newsize) has returned newmem.
def heldAfter (live : List Nat) (p : Nat) (newsize : Ulong) (newmem : Nat) : List Nat :=
  if newmem ≠ 0 ∨ newsize = 0 then handedOut newmem (unheld live p) else live

-- The memory and the pointers in use. Between the calls the owners write what they like into their blocks, and the bytes outside
-- of the pool are other people's.
inductive Runs (pool : Nat) (config : Option Ulong) : Memory → List Nat → Prop
  | start (mem : Memory) : Runs pool config (initMemAt mem pool config) []
  | used (mem mem' : Memory) (live : List Nat) (before : Runs pool config mem live)
      (own : ∀ a, pool ≤ a → a < pool + (poolsizeOf config).toNat → mem' a ≠ mem a → ∃ p ∈ live, InBlock mem p a) :
      Runs pool config mem' live
  | alloc (mem mem' : Memory) (live : List Nat) (before : Runs pool config mem live) (size : Ulong) (newmem : Nat)
      (result : gsMemAllocAt mem pool size = some (newmem, mem')) : Runs pool config mem' (handedOut newmem live)
  | free (mem mem' : Memory) (live : List Nat) (before : Runs pool config mem live) (p : Nat) (owned : p = 0 ∨ p ∈ live)
      (result : gsMemFreeAt mem pool p = some mem') : Runs pool config mem' (unheld live p)
  | realloc (mem mem' : Memory) (live : List Nat) (before : Runs pool config mem live) (p : Nat) (owned : p = 0 ∨ p ∈ live)
      (newsize : Ulong) (newmem : Nat) (result : gsMemReallocAt mem pool p newsize = some (newmem, mem')) :
      Runs pool config mem' (heldAfter live p newsize newmem)

-- The block that a call gives in the place of p: in use, within the pool, apart from all others and large enough, with the bytes
-- that p had.
structure Given (pool poolsize : Nat) (mem mem' : Memory) (live : List Nat) (p newsize newmem : Nat) : Prop where
  alloced : isAlloced (chunkAt mem' (newmem - HEADER))
  inside : pool + HEADER ≤ newmem ∧ newmem + capacity mem' newmem ≤ pool + poolsize
  apart : ∀ q ∈ live, q ≠ p → q ≠ newmem ∧ ∀ a, ¬ (InBlock mem' q a ∧ InBlock mem' newmem a)
  enough : newsize ≤ capacity mem' newmem
  contents : if p = 0 then ∀ i < newsize, mem' (newmem + i) = 0
    else ∀ i < min (capacity mem p) newsize, mem' (newmem + i) = mem (p + i)

-- What gs_mem_realloc (p, newsize) is to leave when it returns newmem.
structure Meets (pool poolsize : Nat) (mem mem' : Memory) (live : List Nat) (p newsize newmem : Nat) : Prop where
  result : newmem = 0 ∧ mem' = mem ∨ Given pool poolsize mem mem' live p newsize newmem
  others : ∀ q ∈ live, q ≠ p → capacity mem' q = capacity mem q ∧ ∀ i < capacity mem q, mem' (q + i) = mem (q + i)

-- The pointers in use are those of the chunks in use.
def Owns (pool : Nat) (live : List Nat) (chunks : List Chunk) : Prop :=
  ∀ p, p ∈ live ↔ ∃ o bytes, p = pool + o ∧ Handed chunks o bytes

theorem memset_here (mem : Memory) (p : Nat) (c : Byte) (n i : Nat) (inside : i < n) : memset mem p c n (p + i) = c := by
  unfold memset poke
  rw [if_pos (by rw [List.length_replicate]; omega), Nat.add_sub_cancel_left]
  simp [get8, inside]

theorem memcpy_here (mem : Memory) (p q n i : Nat) (inside : i < n) : memcpy mem p q n (p + i) = mem (q + i) := by
  unfold memcpy poke
  rw [if_pos (by rw [peek_length]; omega), Nat.add_sub_cancel_left]
  simp [get8, peek, inside]

section Blocks

variable (mem : Memory) (pool stop : Nat) (chunks : List Chunk)

theorem handed_capacity (headers : Headers mem pool chunks 0) (o bytes : Nat) (handed : Handed chunks o bytes) :
    isAlloced (chunkAt mem (pool + o - HEADER)) ∧ capacity mem (pool + o) = bytes := by
  obtain ⟨H, member, alloced, rfl, rfl⟩ := handed
  have place : pool + H.mem - HEADER = pool + H.addr := by
    unfold Chunk.mem
    omega
  obtain ⟨size, -, mark⟩ := same_size _ H (header_at mem pool chunks 0 headers H member)
  unfold capacity room
  rw [place, size]
  exact ⟨mark.mpr alloced, rfl⟩

-- No header is in a block.
theorem block_not_header (paved : Paved Chunk.addr Chunk.len 0 stop chunks) (o bytes : Nat) (handed : Handed chunks o bytes) (i : Nat)
    (inside : i < bytes) : ¬ InHeader pool chunks (pool + o + i) := by
  obtain ⟨H, member, -, rfl, rfl⟩ := handed
  rintro ⟨H2, member', low, high⟩
  have places := paved_apart _ _ _ _ _ paved H H2 member member'
  unfold Chunk.len at places
  unfold Chunk.mem at low high
  obtain rfl | before | behind := places <;> omega

-- What is written into a block.
theorem headers_block (mem' : Memory) (paved : Paved Chunk.addr Chunk.len 0 stop chunks) (headers : Headers mem pool chunks 0)
    (o bytes : Nat) (handed : Handed chunks o bytes)
    (frame : ∀ a, a < pool + o ∨ pool + o + bytes ≤ a → mem' a = mem a) : Headers mem' pool chunks 0 := by
  refine headers_same mem mem' pool chunks 0 (fun a inside => frame a ?_) headers
  by_contra within
  refine block_not_header pool stop chunks paved o bytes handed (a - (pool + o)) (by omega) ?_
  rwa [Nat.add_sub_of_le (by omega)]

theorem block_inside (paved : Paved Chunk.addr Chunk.len 0 stop chunks) (o bytes : Nat) (handed : Handed chunks o bytes) :
    HEADER ≤ o ∧ o + bytes ≤ stop := by
  obtain ⟨H, member, -, rfl, rfl⟩ := handed
  have bounds := (paved_inside _ _ _ _ _ paved H member).2
  unfold Chunk.len at bounds
  unfold Chunk.mem
  omega

theorem blocks_apart (paved : Paved Chunk.addr Chunk.len 0 stop chunks) (o bytes o' bytes' : Nat) (handed : Handed chunks o bytes)
    (handed' : Handed chunks o' bytes') (other : o ≠ o') : o + bytes ≤ o' ∨ o' + bytes' ≤ o := by
  obtain ⟨H, member, -, rfl, rfl⟩ := handed
  obtain ⟨H2, member', -, rfl, rfl⟩ := handed'
  have places := paved_apart _ _ _ _ _ paved H H2 member member'
  unfold Chunk.len at places
  unfold Chunk.mem at other ⊢
  obtain rfl | before | behind := places
  · exact absurd rfl other
  · exact Or.inl (by omega)
  · exact Or.inr (by omega)

theorem owns_taken (live : List Nat) (owns : Owns pool live chunks) (chunks' : List Chunk) (o bytes : Nat)
    (taken : Taken stop chunks chunks' o bytes) (p : Nat) :
    (∃ o' n, p = pool + o' ∧ Handed chunks' o' n) ↔ p = pool + o ∨ p ∈ live := by
  rw [owns]
  constructor
  · rintro ⟨o', n, rfl, handed⟩
    by_cases same : o' = o
    · exact Or.inl (congrArg (pool + ·) same)
    · exact Or.inr ⟨o', n, rfl, (taken.others o' n same).mp handed⟩
  · intro either
    by_cases same : p = pool + o
    · obtain ⟨n, -, holds⟩ := taken.holds
      exact ⟨o, n, same, holds⟩
    · obtain ⟨o', n, rfl, handed⟩ := either.resolve_left same
      exact ⟨o', n, rfl, (taken.others o' n fun eq => same (congrArg (pool + ·) eq)).mpr handed⟩

theorem owns_freed (chunks' : List Chunk) (o : Nat) (left : ∀ other n, Handed chunks' other n ↔ other ≠ o ∧ Handed chunks other n)
    (p : Nat) : (∃ o' n, p = pool + o' ∧ Handed chunks' o' n) ↔ p ≠ pool + o ∧ ∃ o' n, p = pool + o' ∧ Handed chunks o' n := by
  constructor
  · rintro ⟨o', n, rfl, handed⟩
    obtain ⟨other, handed⟩ := (left o' n).mp handed
    exact ⟨fun same => other (Nat.add_left_cancel same), o', n, rfl, handed⟩
  · rintro ⟨other, o', n, rfl, handed⟩
    exact ⟨o', n, rfl, (left o' n).mpr ⟨fun same => other (congrArg (pool + ·) same), handed⟩⟩

end Blocks

theorem try_split_head (newsize : Ulong) (block : Chunk) (rest : List Chunk) :
    ∃ c more, trySplit newsize (block :: rest) = c :: more ∧ c.addr = block.addr := by
  rw [trySplit]
  split
  · exact ⟨_, _, rfl, rfl⟩
  · exact ⟨_, _, rfl, rfl⟩

section Realloc

variable (mem : Memory) (pool stop : Nat) (positive : 0 < pool) (within : pool + stop ≤ 2 ^ 32)

include positive within

theorem freed_at (chunks : List Chunk) (region : Region 0 stop chunks) (headers : Headers mem pool chunks 0) (o bytes : Nat)
    (handed : Handed chunks o bytes) :
    ∃ mem', gsMemFreeAt mem pool (pool + o) = some mem' ∧ Headers mem' pool (gsMemFree chunks (some o)) 0
      ∧ ∀ a, ¬ InHeader pool chunks a → mem' a = mem a := by
  obtain ⟨before, H, after, rfl, alloced, rfl, -, -, -, -⟩ := handed_split stop chunks region o bytes handed
  rw [freed_chunks stop before after H alloced region]
  exact gs_mem_free_at mem pool stop positive within before after H alloced region.paved headers

omit positive within in
theorem paved_begins (chunks : List Chunk) (paved : Paved Chunk.addr Chunk.len 0 stop chunks) (some : chunks ≠ []) :
    firstAt pool chunks 0 = pool := by
  cases chunks with
  | nil => exact absurd rfl some
  | cons H rest => exact congrArg (pool + ·) paved.1

-- The block moves: the new one holds the bytes of the old one.
theorem moved_at (chunks : List Chunk) (region : Region 0 stop chunks) (headers : Headers mem pool chunks 0) (o bytes : Nat)
    (handed : Handed chunks o bytes) (newo n : Nat) (room : bytes ≤ n) (given : Handed chunks newo n) :
    ∃ mem', gsMemFreeAt (memcpy mem (pool + newo) (pool + o) bytes) pool (pool + o) = some mem'
      ∧ Headers mem' pool (gsMemFree chunks (some o)) 0
      ∧ (∀ i < bytes, mem' (pool + newo + i) = mem (pool + o + i))
      ∧ ∀ q m, q ≠ newo → Handed chunks q m → ∀ i < m, mem' (pool + q + i) = mem (pool + q + i) := by
  have copied : ∀ a, a < pool + newo ∨ pool + newo + n ≤ a → memcpy mem (pool + newo) (pool + o) bytes a = mem a :=
    fun a outside => poke_outside mem _ a _ (by rw [peek_length]; omega)
  have headers' := headers_block mem pool stop chunks _ region.paved headers newo n given copied
  obtain ⟨mem', result, left, frame⟩ := freed_at _ pool stop positive within chunks region headers' o bytes handed
  refine ⟨mem', result, left, fun i inside => ?_, fun q m apart held i inside => ?_⟩
  · rw [frame _ (block_not_header pool stop chunks region.paved newo n given i (by omega))]
    exact memcpy_here mem (pool + newo) (pool + o) bytes i inside
  · rw [frame _ (block_not_header pool stop chunks region.paved q m held i inside)]
    have places := blocks_apart stop chunks region.paved q m newo n held given apart
    exact copied _ (by omega)

-- What gs_mem_realloc does with a block: nothing, the block in its place, or another block with its bytes.
theorem gs_mem_realloc_at (fits : stop < 2 ^ 24 + HEADER) (chunks : List Chunk) (region : Region 0 stop chunks)
    (headers : Headers mem pool chunks 0) (o bytes : Nat) (handed : Handed chunks o bytes) (newsize : Ulong) (wanted : newsize ≠ 0) :
    gsMemReallocAt mem pool (pool + o) newsize = some (0, mem)
      ∨ (∃ mem' chunks', gsMemReallocAt mem pool (pool + o) newsize = some (pool + o, mem')
          ∧ Headers mem' pool chunks' 0 ∧ Taken stop chunks chunks' o (round newsize).toNat
          ∧ ∀ a, ¬ InHeader pool chunks' a → mem' a = mem a)
      ∨ ∃ mem' newo between n, gsMemReallocAt mem pool (pool + o) newsize = some (pool + newo, mem')
          ∧ Headers mem' pool (gsMemFree between (some o)) 0 ∧ Taken stop chunks between newo (round newsize).toNat
          ∧ (∀ m, ¬ Handed chunks newo m) ∧ Handed between newo n ∧ bytes ≤ n ∧ (round newsize).toNat ≤ n
          ∧ (∀ i < bytes, mem' (pool + newo + i) = mem (pool + o + i))
          ∧ ∀ q m, q ≠ newo → Handed between q m → ∀ i < m, mem' (pool + q + i) = mem (pool + q + i) := by
  obtain ⟨before, H, after, rfl, alloced, rfl, rfl, -, -, -⟩ := handed_split stop chunks region o bytes handed
  have place : pool + H.mem - HEADER = pool + H.addr := by
    unfold Chunk.mem
    omega
  obtain ⟨-, size, link, behind⟩ := (headers_append _ _ _ _ _).mp headers
  obtain ⟨here, -, mark⟩ := same_size _ H size
  unfold gsMemReallocAt
  rw [if_neg (by omega), if_neg wanted, place]
  dsimp only
  rw [if_neg (not_not.mpr (mark.mpr alloced)), here, link]
  by_cases shrinks : round newsize ≤ chunksize H
  · rw [if_pos shrinks]
    obtain ⟨headers', frame⟩ := try_split_at mem pool stop positive within before after H _ shrinks region.paved headers
    refine Or.inr (Or.inl ⟨_, _, rfl, headers', split_taken stop fits _ before after H region shrinks, fun a outside => ?_⟩)
    apply frame a
    rintro ⟨c, member, inside⟩
    exact outside ⟨c, List.mem_append_right before member, inside⟩
  rw [if_neg shrinks]
  by_cases grows : nextFits (round newsize) (H :: after)
  · obtain ⟨next, rest, rfl⟩ : ∃ next rest, after = next :: rest := by
      cases after with
      | nil => exact grows.elim
      | cons next rest => exact ⟨next, rest, rfl⟩
    obtain ⟨there, free, -⟩ := same_size _ next behind.1
    have real : pool + next.addr ≠ 0 := by omega
    obtain ⟨joined, result, start, fit, region'⟩ := grown_region stop fits (round newsize) before rest H next region grows
    have later : ∀ c ∈ rest, pool + c.addr < 2 ^ 32 := fun c member =>
      (Nat.lt_add_of_pos_right (by decide)).trans_le (paved_fits pool stop 0 _ within region.paved c (by simp [member]))
    have joins := join_next_at mem pool before rest H next ALLOCED (paved_spaced 0 stop _ region.paved) later headers
    rw [result] at joins
    obtain ⟨headers', frame⟩ := try_split_at _ pool stop positive within before rest joined _ fit region'.paved joins
    have taken := grown_taken stop fits (round newsize) before rest H next region grows
    obtain ⟨c, more, head, same⟩ := try_split_head (round newsize) joined rest
    rw [result] at taken
    rw [start] at headers' frame same
    rw [firstAt, if_pos ⟨real, free.mpr grows.1, by rw [there]; exact grows.2⟩]
    refine Or.inr (Or.inl ⟨_, _, rfl, headers', taken, fun a outside => ?_⟩)
    have untouched : ¬ InHeader pool (trySplit (round newsize) (joined :: rest)) a := by
      rintro ⟨c, member, inside⟩
      exact outside ⟨c, List.mem_append_right before member, inside⟩
    rw [frame a untouched]
    refine join_next_outside mem _ a (fun inside => outside ⟨c, ?_, by rwa [same]⟩) ALLOCED
    rw [head]
    exact List.mem_append_right before List.mem_cons_self
  · have asks := next_freed pool positive after mem behind
    have stuck : ¬ (firstAt pool after 0 ≠ 0 ∧ isFreed (chunkAt mem (firstAt pool after 0)) ∧ round newsize
        ≤ chunksize H + chunksize (chunkAt mem (firstAt pool after 0)) + BitVec.ofNat 32 HEADER) := by
      rintro ⟨real, free, more⟩
      obtain ⟨next, rest, rfl, freed⟩ := asks.mp ⟨real, free⟩
      rw [firstAt, (same_size _ next behind.1).1] at more
      exact grows ⟨freed, more⟩
    rw [if_neg stuck]
    have begins := paved_begins pool stop _ region.paved (by simp)
    obtain ⟨mem1, result, between', same, frame⟩ := gs_mem_alloc_at mem pool stop positive within _ (round newsize) region.paved
      begins headers
    rw [result]
    obtain none | ⟨newo, between, given, fresh, taken, wanted'⟩ := alloc_spec stop fits _ region (round newsize)
    · rw [none] at same ⊢
      rw [same rfl]
      exact Or.inl rfl
    · rw [given] at between' frame ⊢
      dsimp only at between' frame
      obtain ⟨n, enough, holds⟩ := taken.holds
      have more := (le_round _ wanted').trans enough
      have less : room H < (round newsize).toNat := BitVec.not_le.mp shrinks
      have other : newo ≠ H.mem := fun eq => fresh (room H) (eq ▸ handed)
      have old := (taken.others H.mem (room H) other.symm).mpr handed
      have count := (handed_capacity mem1 pool between between' H.mem (room H) old).2
      unfold capacity room at count
      rw [place] at count
      obtain ⟨mem', freeing, left, bytes, blocks⟩ := moved_at mem1 pool stop positive within between taken.region between' H.mem
        (room H) old newo n (less.le.trans more) holds
      have new : pool + newo ≠ 0 := by omega
      have stays : ∀ q m, Handed between q m → ∀ i < m, mem1 (pool + q + i) = mem (pool + q + i) := fun q m held i inside =>
        frame _ (block_not_header pool stop between taken.region.paved q m held i inside)
      have room' : (chunksize (chunkAt mem1 (pool + H.addr))).toNat = room H := count
      unfold pointer
      rw [Option.bind_some]
      dsimp only
      rw [if_neg new, room', freeing]
      refine Or.inr (Or.inr ⟨mem', newo, between, n, rfl, left, ⟨taken.region, taken.others, n, more, holds⟩, fresh, holds,
        less.le.trans more, more, fun i inside => ?_, fun q m apart held i inside => ?_⟩)
      · exact (bytes i inside).trans (stays _ _ old i inside)
      · exact (blocks q m apart held i inside).trans (stays q m held i inside)

end Realloc

-- A block in the place of p, and the other blocks where they were.
theorem meets_block (mem mem' : Memory) (pool stop poolsize : Nat) (fits : stop ≤ poolsize) (live : List Nat) (p newsize : Nat)
    (chunks : List Chunk) (paved : Paved Chunk.addr Chunk.len 0 stop chunks) (headers : Headers mem' pool chunks 0) (o n : Nat)
    (holds : Handed chunks o n) (enough : newsize ≤ n)
    (others : ∀ q ∈ live, q ≠ p → ∃ o' m, q = pool + o' ∧ o' ≠ o ∧ Handed chunks o' m ∧ capacity mem q = m
      ∧ ∀ i < m, mem' (q + i) = mem (q + i))
    (contents : if p = 0 then ∀ i < newsize, mem' (pool + o + i) = 0
      else ∀ i < min (capacity mem p) newsize, mem' (pool + o + i) = mem (p + i)) :
    Meets pool poolsize mem mem' live p newsize (pool + o) := by
  obtain ⟨alloced, count⟩ := handed_capacity mem' pool chunks headers o n holds
  obtain ⟨low, high⟩ := block_inside stop chunks paved o n holds
  refine ⟨Or.inr ⟨alloced, ⟨by omega, by omega⟩, fun q member other => ?_, by omega, contents⟩, fun q member other => ?_⟩
  · obtain ⟨o', m, rfl, apart, handed, -, -⟩ := others q member other
    have count' := (handed_capacity mem' pool chunks headers o' m handed).2
    have places := blocks_apart stop chunks paved o' m o n handed holds apart
    refine ⟨by omega, fun a ⟨first, second⟩ => ?_⟩
    unfold InBlock at first second
    omega
  · obtain ⟨o', m, rfl, -, handed, rfl, same⟩ := others q member other
    exact ⟨(handed_capacity mem' pool chunks headers o' _ handed).2, same⟩

-- What every run keeps. Where malloc has given more than a header can say, the first chunk may carry no mark until it is used.
def Held (pool stop : Nat) (mem : Memory) (live : List Nat) : Prop :=
  (∃ chunks, Headers mem pool chunks 0 ∧ Region 0 stop chunks ∧ Owns pool live chunks)
    ∨ live = [] ∧ ∃ size, Headers mem pool [⟨0, size⟩] 0 ∧ ¬ isAlloced ⟨0, size⟩ ∧ stop = HEADER + room ⟨0, size⟩

section Held

variable (mem : Memory) (pool stop : Nat) (live : List Nat) (positive : 0 < pool) (within : pool + stop ≤ 2 ^ 32)
  (fits : stop < 2 ^ 24 + HEADER) (large : 0 < stop)

theorem try_split_same (newsize : Ulong) (block block2 : Chunk) (rest : List Chunk) (place : block.addr = block2.addr)
    (size : chunksize block = chunksize block2) : trySplit newsize (block :: rest) = trySplit newsize (block2 :: rest) := by
  simp only [trySplit, Chunk.mem, place, size]

-- The mark of a chunk that is not in use does not matter.
theorem unmarked_alloc (size n : Ulong) (unused : ¬ isAlloced ⟨0, size⟩) :
    gsMemAlloc [⟨0, size⟩] n = (none, [⟨0, size⟩])
      ∨ gsMemAlloc [⟨0, size⟩] n = gsMemAlloc [⟨0, chunksize ⟨0, size⟩ ||| FREED⟩] n := by
  have word := freed_word 0 (chunksize ⟨0, size⟩) (chunksize_small _)
  unfold gsMemAlloc
  by_cases guarded : 0x01000000 ≤ round n ∨ round n = 0
  · exact Or.inl (if_pos guarded)
  · rw [if_neg guarded, if_neg guarded]
    unfold allocLoop
    by_cases small : chunksize ⟨0, size⟩ < round n
    · exact Or.inl (by rw [if_pos (Or.inr small)]; rfl)
    · refine Or.inr ?_
      rw [if_neg (not_or.mpr ⟨unused, small⟩), if_neg (not_or.mpr ⟨fun marked => alloced_not_freed _ marked word.1, by rwa [word.2]⟩)]
      exact Prod.ext rfl (try_split_same (round n) _ _ [] rfl word.2.symm)

include positive within fits large

theorem alloc_held (held : Held pool stop mem live) (size : Ulong) :
    gsMemAllocAt mem pool size = some (0, mem)
      ∨ ∃ chunks chunks' mem' o, gsMemAllocAt mem pool size = some (pool + o, mem') ∧ round size ≠ 0
          ∧ Headers mem' pool chunks' 0 ∧ Owns pool live chunks ∧ Taken stop chunks chunks' o (round size).toNat
          ∧ (∀ n, ¬ Handed chunks o n) ∧ (∀ q n, Handed chunks q n → capacity mem (pool + q) = n)
          ∧ ∀ a, ¬ InHeader pool chunks' a → mem' a = mem a := by
  obtain ⟨chunks, headers, region, owns⟩ | ⟨rfl, word, headers, unused, rfl⟩ := held
  · have some : chunks ≠ [] := by
      rintro rfl
      exact large.ne region.paved
    obtain ⟨mem', result, headers', same, frame⟩ := gs_mem_alloc_at mem pool stop positive within chunks size region.paved
      (paved_begins pool stop chunks region.paved some) headers
    rw [result]
    obtain none | ⟨o, chunks', given, fresh, taken, wanted⟩ := alloc_spec stop fits chunks region size
    · rw [none] at same ⊢
      rw [same rfl]
      exact Or.inl rfl
    · rw [given] at headers' frame ⊢
      exact Or.inr ⟨chunks, chunks', mem', o, rfl, wanted, headers', owns, taken, fresh,
        fun q n handed => (handed_capacity mem pool chunks headers q n handed).2, frame⟩
  · have marked := freed_word 0 (chunksize ⟨0, word⟩) (chunksize_small _)
    have kept : room ⟨0, chunksize ⟨0, word⟩ ||| FREED⟩ = room ⟨0, word⟩ := congrArg BitVec.toNat marked.2
    have region : Region 0 (HEADER + room ⟨0, word⟩) [⟨0, chunksize ⟨0, word⟩ ||| FREED⟩] := by
      refine (region_cons _ _ _ _).mpr ⟨rfl, Or.inr marked.1, by simp, ?_⟩
      unfold Chunk.len
      rw [kept, Nat.zero_add]
      exact region_nil _
    have none' : ∀ q n, ¬ Handed [⟨0, chunksize ⟨0, word⟩ ||| FREED⟩] q n := by
      intro q n handed
      rw [handed_free _ _ _ _ marked.1] at handed
      exact not_handed [] q n (fun _ member => absurd member List.not_mem_nil) handed
    obtain ⟨mem', result, headers', same, frame⟩ := gs_mem_alloc_at mem pool _ positive within [⟨0, word⟩] size
      ⟨rfl, (Nat.zero_add _)⟩ rfl headers
    rw [result]
    obtain none | equal := unmarked_alloc word size unused
    · rw [none] at same ⊢
      rw [same rfl]
      exact Or.inl rfl
    · obtain none | ⟨o, chunks', given, fresh, taken, wanted⟩ := alloc_spec _ fits _ region size
      · rw [equal, none] at same ⊢
        rw [same rfl]
        exact Or.inl rfl
      · rw [equal, given] at headers' frame ⊢
        refine Or.inr ⟨_, chunks', mem', o, rfl, wanted, headers', fun p => ?_, taken, fresh,
          fun q n handed => absurd handed (none' q n), frame⟩
        exact iff_of_false List.not_mem_nil fun ⟨q, n, _, handed⟩ => none' q n handed

omit positive within fits large in
theorem handed_taken (chunks chunks' : List Chunk) (o bytes : Nat) (owns : Owns pool live chunks)
    (taken : Taken stop chunks chunks' o bytes) (q : Nat) (owned : q ∈ live) (other : q ≠ pool + o) :
    ∃ o' m, q = pool + o' ∧ o' ≠ o ∧ Handed chunks o' m ∧ Handed chunks' o' m := by
  obtain ⟨o', m, rfl, handed⟩ := (owns q).mp owned
  have apart : o' ≠ o := fun same => other (congrArg (pool + ·) same)
  exact ⟨o', m, rfl, apart, handed, (taken.others o' m apart).mpr handed⟩

omit positive within fits large in
theorem mem_unheld (p q : Nat) : q ∈ unheld live p ↔ q ∈ live ∧ q ≠ p := by
  unfold unheld
  rw [List.mem_filter, decide_eq_true_iff]

omit within fits large in
theorem unheld_null (held : Held pool stop mem live) : unheld live 0 = live := by
  refine List.filter_eq_self.mpr fun q member => decide_eq_true ?_
  obtain ⟨chunks, -, -, owns⟩ | ⟨rfl, -⟩ := held
  · obtain ⟨o, -, rfl, -⟩ := (owns q).mp member
    omega
  · exact absurd member List.not_mem_nil

theorem alloc_keeps (held : Held pool stop mem live) (size : Ulong) (newmem : Nat) (mem' : Memory)
    (result : gsMemAllocAt mem pool size = some (newmem, mem')) : Held pool stop mem' (handedOut newmem live) := by
  obtain none | ⟨chunks, chunks', mem1, o, given, -, headers', owns, taken, -⟩ :=
    alloc_held mem pool stop live positive within fits large held size
  · obtain ⟨rfl, rfl⟩ := Prod.mk.inj (Option.some.inj (none.symm.trans result))
    exact held
  · obtain ⟨rfl, rfl⟩ := Prod.mk.inj (Option.some.inj (given.symm.trans result))
    refine Or.inl ⟨chunks', headers', taken.region, fun p => ?_⟩
    unfold handedOut
    rw [if_neg (by omega), List.mem_cons]
    exact (owns_taken pool stop chunks live owns chunks' o _ taken p).symm

omit large in
theorem free_keeps (held : Held pool stop mem live) (p : Nat) (owned : p = 0 ∨ p ∈ live) :
    ∃ mem', gsMemFreeAt mem pool p = some mem' ∧ Held pool stop mem' (unheld live p) := by
  obtain rfl | owned := owned
  · rw [unheld_null mem pool stop live positive held]
    exact ⟨mem, if_pos rfl, held⟩
  · obtain ⟨chunks, headers, region, owns⟩ | ⟨rfl, -⟩ := held
    · obtain ⟨o, bytes, rfl, handed⟩ := (owns p).mp owned
      obtain ⟨mem', result, headers', -⟩ := freed_at mem pool stop positive within chunks region headers o bytes handed
      obtain ⟨region', left⟩ := free_spec stop fits chunks region o bytes handed
      refine ⟨mem', result, Or.inl ⟨_, headers', region', fun q => ?_⟩⟩
      rw [mem_unheld, owns_freed pool chunks _ o left q, owns]
      exact and_comm
    · exact absurd owned List.not_mem_nil

theorem null_keeps (held : Held pool stop mem live) (newsize : Ulong) (poolsize : Nat) (least : stop ≤ poolsize) :
    ∃ newmem mem', gsMemReallocAt mem pool 0 newsize = some (newmem, mem')
      ∧ Held pool stop mem' (heldAfter live 0 newsize newmem) ∧ Meets pool poolsize mem mem' live 0 newsize.toNat newmem := by
  unfold gsMemReallocAt heldAfter
  rw [if_pos rfl, unheld_null mem pool stop live positive held]
  obtain none | ⟨chunks, chunks', mem1, o, given, wanted, headers', owns, taken, fresh, sizes, frame⟩ :=
    alloc_held mem pool stop live positive within fits large held newsize
  · rw [none]
    refine ⟨0, mem, rfl, ?_, Or.inl ⟨rfl, rfl⟩, fun _ _ _ => ⟨rfl, fun _ _ => rfl⟩⟩
    unfold handedOut
    rwa [if_pos rfl, ite_self]
  · have real : pool + o ≠ 0 := by omega
    obtain ⟨n, enough, holds⟩ := taken.holds
    have enough : newsize.toNat ≤ n := (le_round _ wanted).trans enough
    have written : ∀ a, a < pool + o ∨ pool + o + n ≤ a → memset mem1 (pool + o) 0 newsize.toNat a = mem1 a := fun a outside =>
      poke_outside mem1 _ a _ (by rw [List.length_replicate]; omega)
    have kept := headers_block mem1 pool stop chunks' _ taken.region.paved headers' o n holds written
    rw [given, Option.map_some]
    dsimp only
    rw [if_pos real]
    refine ⟨pool + o, _, rfl, ?_, ?_⟩
    · unfold handedOut
      rw [if_pos (Or.inl real), if_neg real]
      refine Or.inl ⟨chunks', kept, taken.region, fun p => ?_⟩
      rw [List.mem_cons]
      exact (owns_taken pool stop chunks live owns chunks' o _ taken p).symm
    · refine meets_block mem _ pool stop poolsize least live 0 _ chunks' taken.region.paved kept o n holds enough
        (fun q member _ => ?_) ?_
      · obtain ⟨o', m, rfl, handed⟩ := (owns q).mp member
        have apart : o' ≠ o := by
          rintro rfl
          exact fresh m handed
        have handed' := (taken.others o' m apart).mpr handed
        refine ⟨o', m, rfl, apart, handed', sizes o' m handed, fun i inside => ?_⟩
        have places := blocks_apart stop chunks' taken.region.paved o' m o n handed' holds apart
        rw [written _ (by omega)]
        exact frame _ (block_not_header pool stop chunks' taken.region.paved o' m handed' i inside)
      · rw [if_pos rfl]
        exact fun i inside => memset_here mem1 (pool + o) 0 newsize.toNat i inside

omit large in
theorem block_keeps (held : Held pool stop mem live) (p : Nat) (owned : p ∈ live) (newsize : Ulong) (wanted : newsize ≠ 0)
    (poolsize : Nat) (least : stop ≤ poolsize) :
    ∃ newmem mem', gsMemReallocAt mem pool p newsize = some (newmem, mem')
      ∧ Held pool stop mem' (heldAfter live p newsize newmem)
      ∧ (round newsize ≠ 0 → Meets pool poolsize mem mem' live p newsize.toNat newmem) := by
  unfold heldAfter handedOut
  obtain ⟨chunks, headers, region, owns⟩ | ⟨rfl, -⟩ := held
  · obtain ⟨o, bytes, rfl, handed⟩ := (owns p).mp owned
    have count := (handed_capacity mem pool chunks headers o bytes handed).2
    have real : pool + o ≠ 0 := by omega
    obtain same | ⟨mem', chunks', result, headers', taken, frame⟩
      | ⟨mem', newo, between, n, result, headers', taken, fresh, holds, more, enough, copied, blocks⟩ :=
      gs_mem_realloc_at mem pool stop positive within fits chunks region headers o bytes handed newsize wanted
    · refine ⟨0, mem, same, ?_, fun _ => ⟨Or.inl ⟨rfl, rfl⟩, fun _ _ _ => ⟨rfl, fun _ _ => rfl⟩⟩⟩
      rw [if_neg (by simpa using wanted)]
      exact Or.inl ⟨chunks, headers, region, owns⟩
    · refine ⟨pool + o, mem', result, ?_, fun nonzero => ?_⟩
      · rw [if_pos (Or.inl real), if_neg real]
        refine Or.inl ⟨chunks', headers', taken.region, fun q => ?_⟩
        rw [owns_taken pool stop chunks live owns chunks' o _ taken q, List.mem_cons, mem_unheld]
        tauto
      · obtain ⟨n, enough, holds⟩ := taken.holds
        have fit := (le_round _ nonzero).trans enough
        refine meets_block mem mem' pool stop poolsize least live _ _ chunks' taken.region.paved headers' o n holds fit
          (fun q member other => ?_) ?_
        · obtain ⟨o', m, rfl, apart, handed', handed''⟩ := handed_taken pool stop live chunks chunks' o _ owns taken q member other
          exact ⟨o', m, rfl, apart, handed'', (handed_capacity mem pool chunks headers o' m handed').2, fun i inside =>
            frame _ (block_not_header pool stop chunks' taken.region.paved o' m handed'' i inside)⟩
        · rw [if_neg real]
          exact fun i inside => frame _ (block_not_header pool stop chunks' taken.region.paved o n holds i (by omega))
    · have new : pool + newo ≠ 0 := by omega
      have other : newo ≠ o := by
        rintro rfl
        exact fresh bytes handed
      obtain ⟨o₁, held₁⟩ : ∃ m, Handed between o m := ⟨bytes, (taken.others o bytes other.symm).mpr handed⟩
      obtain ⟨region', left⟩ := free_spec stop fits between taken.region o o₁ held₁
      refine ⟨pool + newo, mem', result, ?_, fun nonzero => ?_⟩
      · rw [if_pos (Or.inl new), if_neg new]
        refine Or.inl ⟨_, headers', region', fun q => ?_⟩
        rw [owns_freed pool between _ o left q, owns_taken pool stop chunks live owns between newo _ taken q, List.mem_cons, mem_unheld]
        have apart : q = pool + newo → q ≠ pool + o := by omega
        tauto
      · have fit := (le_round _ nonzero).trans enough
        refine meets_block mem mem' pool stop poolsize least live _ _ _ region'.paved headers' newo n ((left newo n).mpr ⟨other, holds⟩)
          fit (fun q member away => ?_) ?_
        · obtain ⟨o', m, rfl, handed'⟩ := (owns q).mp member
          have apart : o' ≠ newo := by
            rintro rfl
            exact fresh m handed'
          have kept := (taken.others o' m apart).mpr handed'
          exact ⟨o', m, rfl, apart, (left o' m).mpr ⟨fun same => away (congrArg (pool + ·) same), kept⟩,
            (handed_capacity mem pool chunks headers o' m handed').2, blocks o' m apart kept⟩
        · rw [if_neg real, count]
          exact fun i inside => copied i (by omega)
  · exact absurd owned List.not_mem_nil

theorem realloc_keeps (held : Held pool stop mem live) (p : Nat) (owned : p = 0 ∨ p ∈ live) (newsize : Ulong) (poolsize : Nat)
    (least : stop ≤ poolsize) :
    ∃ newmem mem', gsMemReallocAt mem pool p newsize = some (newmem, mem')
      ∧ Held pool stop mem' (heldAfter live p newsize newmem)
      ∧ (newsize ≠ 0 → p = 0 ∨ round newsize ≠ 0 → Meets pool poolsize mem mem' live p newsize.toNat newmem) := by
  by_cases null : p = 0
  · subst null
    obtain ⟨newmem, mem', result, held', meets⟩ := null_keeps mem pool stop live positive within fits large held newsize poolsize least
    exact ⟨newmem, mem', result, held', fun _ _ => meets⟩
  · by_cases freeing : newsize = 0
    · obtain ⟨mem', result, held'⟩ := free_keeps mem pool stop live positive within fits held p owned
      refine ⟨0, mem', ?_, ?_, fun wanted => absurd freeing wanted⟩
      · unfold gsMemReallocAt
        rw [if_neg null, if_pos freeing, result]
        rfl
      · unfold heldAfter handedOut
        rwa [if_pos (Or.inr freeing), if_pos rfl]
    · obtain ⟨newmem, mem', result, held', meets⟩ := block_keeps mem pool stop live positive within fits held p
        (owned.resolve_left null) newsize freeing poolsize least
      exact ⟨newmem, mem', result, held', fun _ fine => meets (fine.resolve_left null)⟩

end Held

theorem round_zero (n : Ulong) (some : n ≠ 0) : round n ≠ 0 ↔ n.toNat ≤ 2 ^ 32 - 8 := by
  have value : (round n).toNat = (n + 7).toNat - (n + 7).toNat % 2 ^ 3 := cleared (n + 7) 7 3 rfl
  have nonzero : n.toNat ≠ 0 := fun zero => some (BitVec.eq_of_toNat_eq zero)
  have bound := n.isLt
  have iff : round n = 0 ↔ (round n).toNat = 0 := BitVec.toNat_inj.symm
  rw [BitVec.toNat_add, show (7 : Ulong).toNat = 7 from rfl] at value
  rw [ne_eq, iff, value]
  omega

-- A size that wraps around cuts the block down to nothing, or leaves it as it is.
theorem wrapped_at (mem : Memory) (pool p : Nat) (newsize : Ulong) (some : p ≠ 0) (wanted : newsize ≠ 0)
    (alloced : isAlloced (chunkAt mem (p - HEADER))) (wraps : round newsize = 0) :
    gsMemReallocAt mem pool p newsize = Option.some (p, trySplitAt mem (p - HEADER) 0) := by
  unfold gsMemReallocAt
  rw [if_neg some, if_neg wanted, wraps]
  dsimp only
  rw [if_neg (not_not.mpr alloced)]
  exact if_pos (Nat.zero_le _)

-- How far the chunks reach.
def stopOf (config : Option Ulong) : Nat := Chunk.len ⟨0, (poolsizeOf config - BitVec.ofNat 32 HEADER) ||| FREED⟩

theorem poolsize_least (config : Option Ulong) : HEADER ≤ (poolsizeOf config).toNat := by
  obtain ⟨rounded, value, made⟩ := poolsize_value config
  have large := wanted_large config
  have bound := (wantedSize config).isLt
  unfold HEADER
  omega

theorem stop_within (config : Option Ulong) : stopOf config ≤ (poolsizeOf config).toNat ∧ stopOf config < 2 ^ 24 + HEADER := by
  have least := poolsize_least config
  have header : BitVec.ofNat 32 HEADER ≤ poolsizeOf config := least
  have size : (poolsizeOf config - BitVec.ofNat 32 HEADER).toNat = (poolsizeOf config).toNat - HEADER :=
    BitVec.toNat_sub_of_le header
  have small := chunksize_small ⟨0, (poolsizeOf config - BitVec.ofNat 32 HEADER) ||| FREED⟩
  have below : chunksize ⟨0, (poolsizeOf config - BitVec.ofNat 32 HEADER) ||| FREED⟩ = (poolsizeOf config - BitVec.ofNat 32 HEADER)
      &&& 0x00ffffff := by
    unfold chunksize
    rw [BitVec.and_or_distrib_right, show FREED &&& 0x00ffffff = 0 from rfl]
    exact BitVec.or_zero
  have fewer := congrArg BitVec.toNat below
  have less : ((poolsizeOf config - BitVec.ofNat 32 HEADER) &&& 0x00ffffff).toNat ≤ (poolsizeOf config).toNat - HEADER := by
    rw [BitVec.toNat_and, ← size]
    exact Nat.and_le_left
  unfold stopOf Chunk.len room
  omega

theorem marked_unused (x : Ulong) : ¬ isAlloced ⟨0, x ||| FREED⟩ := by
  intro alloced
  have bit := congrArg (fun w : Ulong => w.getLsbD 30) alloced
  simp [FREED, ALLOCED] at bit

theorem start_held (mem : Memory) (pool : Nat) (config : Option Ulong) : Held pool (stopOf config) (initMemAt mem pool config) [] := by
  refine Or.inr ⟨rfl, _, ⟨size_set_size _ _ _, ?_, trivial⟩, marked_unused _, rfl⟩
  exact (next_set_size _ _ _).trans (next_set_next _ _ _ (Nat.two_pow_pos 32))

theorem used_held (mem mem' : Memory) (pool stop poolsize : Nat) (least : stop ≤ poolsize) (live : List Nat)
    (own : ∀ a, pool ≤ a → a < pool + poolsize → mem' a ≠ mem a → ∃ p ∈ live, InBlock mem p a)
    (held : Held pool stop mem live) : Held pool stop mem' live := by
  obtain ⟨chunks, headers, region, owns⟩ | ⟨rfl, size, headers, unused, rfl⟩ := held
  · refine Or.inl ⟨chunks, headers_same mem mem' pool chunks 0 (fun a inside => ?_) headers, region, owns⟩
    by_contra changed
    obtain ⟨H, member, low, high⟩ := inside
    have bounds := (paved_inside _ _ _ _ _ region.paved H member).2
    unfold Chunk.len at bounds
    obtain ⟨p, owned, first, last⟩ := own a (by omega) (by omega) changed
    obtain ⟨o, bytes, rfl, handed⟩ := (owns p).mp owned
    rw [(handed_capacity mem pool chunks headers o bytes handed).2] at last
    have clear := block_not_header pool stop chunks region.paved o bytes handed (a - (pool + o)) (by omega)
    rw [Nat.add_sub_of_le first] at clear
    exact clear ⟨H, member, low, high⟩
  · refine Or.inr ⟨rfl, size, headers_same mem mem' pool _ 0 (fun a inside => ?_) headers, unused, rfl⟩
    by_contra changed
    obtain ⟨low, high⟩ := (in_header_single _ _ _).mp inside
    dsimp only at low high
    obtain ⟨p, owned, -⟩ := own a (by omega) (by omega) changed
    exact absurd owned List.not_mem_nil

section Runs

variable (pool : Nat) (config : Option Ulong) (real : 0 < pool) (within : pool + (poolsizeOf config).toNat ≤ 2 ^ 32) (mem : Memory)
  (live : List Nat) (runs : Runs pool config mem live)

include real within runs

theorem runs_held : Held pool (stopOf config) mem live := by
  obtain ⟨least, fits⟩ := stop_within config
  have large : 0 < stopOf config := Nat.lt_of_lt_of_le (by decide) (Nat.le_add_right HEADER _)
  have within : pool + stopOf config ≤ 2 ^ 32 := (Nat.add_le_add_left least pool).trans within
  induction runs with
  | start mem => exact start_held mem pool config
  | used mem mem' live _ own ih => exact used_held mem mem' pool _ _ least live own ih
  | alloc mem mem' live _ size newmem result ih => exact alloc_keeps mem pool _ live real within fits large ih size newmem mem' result
  | free mem mem' live _ p owned result ih =>
      obtain ⟨mem1, freed, held⟩ := free_keeps mem pool _ live real within fits ih p owned
      obtain rfl := Option.some.inj (freed.symm.trans result)
      exact held
  | realloc mem mem' live _ p owned newsize newmem result ih =>
      obtain ⟨newmem1, mem1, given, held, -⟩ := realloc_keeps mem pool _ live real within fits large ih p owned newsize _ least
      obtain ⟨rfl, rfl⟩ := Prod.mk.inj (Option.some.inj (given.symm.trans result))
      exact held

theorem wrapped_fails (p : Nat) (owned : p ∈ live) (newsize : Ulong) (wanted : newsize ≠ 0) (huge : 2 ^ 32 - 8 < newsize.toNat) :
    ¬ ∃ newmem mem', gsMemReallocAt mem pool p newsize = some (newmem, mem')
      ∧ Meets pool (poolsizeOf config).toNat mem mem' live p newsize.toNat newmem := by
  rintro ⟨newmem, mem', result, meets⟩
  obtain ⟨chunks, headers, -, owns⟩ | ⟨rfl, -⟩ := runs_held pool config real within mem live runs
  · obtain ⟨o, bytes, rfl, handed⟩ := (owns p).mp owned
    have wraps : round newsize = 0 := by
      by_contra nonzero
      exact Nat.not_le_of_lt huge ((round_zero newsize wanted).mp nonzero)
    have alloced := (handed_capacity mem pool chunks headers o bytes handed).1
    rw [wrapped_at mem pool (pool + o) newsize (by omega) wanted alloced wraps] at result
    obtain ⟨rfl, -⟩ := Prod.mk.inj (Option.some.inj result)
    obtain ⟨null, -⟩ | given := meets.result
    · omega
    · have enough := given.enough
      have small : capacity mem' (pool + o) < 2 ^ 24 := chunksize_small _
      omega
  · exact absurd owned List.not_mem_nil

theorem realloc_iff (p : Nat) (owned : p = 0 ∨ p ∈ live) (newsize : Ulong) (wanted : newsize ≠ 0) :
    (∃ newmem mem', gsMemReallocAt mem pool p newsize = some (newmem, mem')
      ∧ Meets pool (poolsizeOf config).toNat mem mem' live p newsize.toNat newmem) ↔ p = 0 ∨ newsize.toNat ≤ 2 ^ 32 - 8 := by
  obtain ⟨least, fits⟩ := stop_within config
  have large : 0 < stopOf config := Nat.lt_of_lt_of_le (by decide) (Nat.le_add_right HEADER _)
  have within' : pool + stopOf config ≤ 2 ^ 32 := (Nat.add_le_add_left least pool).trans within
  have held := runs_held pool config real within mem live runs
  obtain ⟨newmem, mem', result, -, meets⟩ := realloc_keeps mem pool _ live real within' fits large held p owned newsize _ least
  constructor
  · intro met
    by_contra neither
    obtain ⟨some, huge⟩ := not_or.mp neither
    exact wrapped_fails pool config real within mem live runs p (owned.resolve_left some) newsize wanted (Nat.lt_of_not_le huge) met
  · exact fun fine => ⟨newmem, mem', result, meets wanted (fine.imp_right (round_zero newsize wanted).mpr)⟩

end Runs

-- A block of 104 bytes is the first of the default pool.
theorem first_block (mem : Memory) (pool : Nat) (real : 0 < pool) (within : pool + 56832 ≤ 2 ^ 32) :
    ∃ mem', Runs pool none mem' [pool + 8] := by
  have headers : Headers (initMemAt mem pool none) pool [⟨0, 0xfb00ddf8⟩] 0 :=
    ⟨size_set_size _ _ _, (next_set_size _ _ _).trans (next_set_next _ _ _ (Nat.two_pow_pos 32)), trivial⟩
  obtain ⟨mem', result, -⟩ := gs_mem_alloc_at (initMemAt mem pool none) pool 56832 real within [⟨0, 0xfb00ddf8⟩] 100
    ⟨rfl, show 0 + Chunk.len ⟨0, 0xfb00ddf8⟩ = 56832 by decide⟩ rfl headers
  have given : (gsMemAlloc [⟨0, 0xfb00ddf8⟩] 100).1 = some 8 := by decide
  rw [given] at result
  have run := Runs.alloc _ mem' [] (Runs.start mem) 100 (pool + 8) result
  unfold handedOut at run
  rw [if_neg (by omega)] at run
  exact ⟨mem', run⟩

-- A block of the default pool that is to have 200 bytes.
theorem realloc_iff_grown : ∃ mem live newmem mem', Runs 4096 none mem live ∧ 4104 ∈ live
    ∧ gsMemReallocAt mem 4096 4104 200 = some (newmem, mem') ∧ Meets 4096 56832 mem mem' live 4104 200 newmem := by
  obtain ⟨mem, runs⟩ := first_block (fun _ => 0) 4096 (by decide) (by decide)
  obtain ⟨newmem, mem', result, meets⟩ := (realloc_iff 4096 none (by decide) (by decide) mem _ runs 4104
    (Or.inr List.mem_cons_self) 200 (by decide)).mpr (Or.inr (by decide))
  exact ⟨mem, _, newmem, mem', runs, List.mem_cons_self, result, meets⟩

-- The same block and 2 ^ 32 - 1 bytes.
theorem realloc_wraps : ¬ ∀ (pool : Nat) (config : Option Ulong), 0 < pool → pool + (poolsizeOf config).toNat ≤ 2 ^ 32 →
    ∀ mem live, Runs pool config mem live → ∀ p, (p = 0 ∨ p ∈ live) → ∀ newsize : Ulong, newsize ≠ 0 →
      ∃ newmem mem', gsMemReallocAt mem pool p newsize = some (newmem, mem')
        ∧ Meets pool (poolsizeOf config).toNat mem mem' live p newsize.toNat newmem := by
  intro claim
  obtain ⟨mem, runs⟩ := first_block (fun _ => 0) 4096 (by decide) (by decide)
  refine wrapped_fails 4096 none (by decide) (by decide) mem _ runs 4104 List.mem_cons_self 0xffffffff (by decide) (by decide) ?_
  exact claim 4096 none (by decide) (by decide) mem _ runs 4104 (Or.inr List.mem_cons_self) 0xffffffff (by decide)

end MagxNet.Gluestik
