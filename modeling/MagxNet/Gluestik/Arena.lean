import MagxNet.Gluestik.Calls

set_option autoImplicit false

namespace MagxNet.Gluestik

open Paving

-- The pointers that are handed out and not yet freed, and the bytes that the last call wrote.
structure State where
  arena : List Chunk
  live : List Nat
  written : Option (Nat × Nat)
deriving DecidableEq, Repr

inductive Call
  | alloc (size : Ulong)
  | realloc (mem : Option Nat) (newsize : Ulong)
  | free (mem : Option Nat)

def Call.pointer : Call → Option Nat
  | alloc _ => none
  | realloc mem _ => mem
  | free mem => mem

def without (live : List Nat) (mem : Option Nat) : List Nat := live.filter fun p => decide (mem ≠ some p)

-- What a pointer's owner holds after gs_mem_realloc: the result, if there is one, in the place of the pointer.
def reowned (live : List Nat) (mem : Option Nat) (newsize : Ulong) : Option Nat → List Nat
  | some newmem => newmem :: without live mem
  | none => if newsize = 0 then without live mem else live

def step (s : State) : Call → State
  | .alloc size =>
      let (mem, arena) := gsMemAlloc s.arena size
      ⟨arena, mem.toList ++ s.live, none⟩
  | .realloc mem newsize =>
      let r := gsMemRealloc s.arena mem newsize
      ⟨r.arena, reowned s.live mem newsize r.mem, r.written⟩
  | .free mem => ⟨gsMemFree s.arena mem, without s.live mem, none⟩

inductive Reach (arena : List Chunk) : State → Prop
  | start : Reach arena ⟨arena, [], none⟩
  | call (s : State) (call : Call) (before : Reach arena s) (owned : ∀ mem ∈ call.pointer, mem ∈ s.live) :
      Reach arena (step s call)

def freeSizes (arena : List Chunk) : List Nat := (arena.filter fun H => decide (isFreed H)).map room

structure Sound (poolsize : Nat) (s : State) : Prop where
  paved : Paved Chunk.addr Chunk.len 0 poolsize s.arena
  total : (s.arena.map Chunk.len).sum = poolsize
  marked : ∀ H ∈ s.arena, isAlloced H ∨ isFreed H
  apart : s.arena.IsChain fun H next => ¬ (isFreed H ∧ isFreed next)
  owned : ∀ mem, mem ∈ s.live ↔ ∃ bytes, Handed s.arena mem bytes
  once : s.live.Nodup
  inside : ∀ mem bytes, Handed s.arena mem bytes → mem + bytes ≤ poolsize
  disjoint : ∀ mem bytes other n, Handed s.arena mem bytes → Handed s.arena other n →
    mem = other ∧ bytes = n ∨ mem + bytes ≤ other ∨ other + n ≤ mem
  sum : (gsMemGetfree s.arena false).toNat = (freeSizes s.arena).sum
  largest : (gsMemGetfree s.arena true).toNat = (freeSizes s.arena).foldr max 0
  written : ∀ mem n, s.written = some (mem, n) → ∃ bytes, n ≤ bytes ∧ Handed s.arena mem bytes

theorem getfree_sum (arena : List Chunk) : ∀ size : Ulong, size.toNat + (arena.map room).sum < 2 ^ 32 →
    (arena.foldl (fun size H => if isFreed H then size + chunksize H else size) size).toNat
      = size.toNat + (freeSizes arena).sum := by
  induction arena with
  | nil => exact fun _ _ => rfl
  | cons H rest ih =>
      intro size fits
      rw [List.map_cons, List.sum_cons] at fits
      unfold freeSizes at ih ⊢
      rw [List.foldl_cons, List.filter_cons]
      by_cases free : isFreed H
      · have add : (size + chunksize H).toNat = size.toNat + room H := by
          rw [BitVec.toNat_add, Nat.mod_eq_of_lt]
          · rfl
          · exact Nat.lt_of_le_of_lt (by unfold room; omega) fits
        rw [if_pos free, ih _ (by rw [add]; omega), add, if_pos (decide_eq_true free), List.map_cons, List.sum_cons]
        omega
      · rw [if_neg free, ih _ (by omega), if_neg (by simpa using free)]

theorem getfree_largest (arena : List Chunk) : ∀ size : Ulong,
    (arena.foldl (fun size H => if isFreed H ∧ size < chunksize H then chunksize H else size) size).toNat
      = max size.toNat ((freeSizes arena).foldr max 0) := by
  induction arena with
  | nil => exact fun size => (Nat.max_zero _).symm
  | cons H rest ih =>
      intro size
      unfold freeSizes at ih ⊢
      rw [List.foldl_cons, List.filter_cons, ih]
      by_cases free : isFreed H
      · rw [if_pos (decide_eq_true free), List.map_cons, List.foldr_cons, ← Nat.max_assoc]
        refine congrArg (max · _) ?_
        by_cases more : size < chunksize H
        · rw [if_pos ⟨free, more⟩]
          exact (Nat.max_eq_right (Nat.le_of_lt more)).symm
        · rw [if_neg fun both => more both.2]
          exact (Nat.max_eq_left (BitVec.not_lt.mp more)).symm
      · rw [if_neg fun both => free both.1, if_neg (by simpa using free)]

-- What every call keeps.
structure Inv (poolsize : Nat) (s : State) : Prop where
  region : Region 0 poolsize s.arena
  owned : ∀ mem, mem ∈ s.live ↔ ∃ bytes, Handed s.arena mem bytes
  once : s.live.Nodup
  written : ∀ mem n, s.written = some (mem, n) → ∃ bytes, n ≤ bytes ∧ Handed s.arena mem bytes

theorem inv_sound (poolsize : Nat) (fits : poolsize < 2 ^ 24 + HEADER) (s : State) (inv : Inv poolsize s) : Sound poolsize s := by
  obtain ⟨⟨paved, marked, apart⟩, owned, once, written⟩ := inv
  have total := paved_sum _ _ _ _ _ paved
  rw [Nat.zero_add] at total
  have rooms : (s.arena.map room).sum ≤ (s.arena.map Chunk.len).sum :=
    List.sum_le_sum fun H _ => Nat.le_add_left (room H) HEADER
  unfold HEADER at fits
  have sum := getfree_sum s.arena 0 (by rw [show (0 : Ulong).toNat = 0 from rfl]; omega)
  have largest := getfree_largest s.arena 0
  rw [show (0 : Ulong).toNat = 0 from rfl, Nat.zero_add] at sum
  rw [show (0 : Ulong).toNat = 0 from rfl, Nat.zero_max] at largest
  refine ⟨paved, total, marked, apart, owned, once, ?_, ?_, sum, largest, written⟩
  · rintro mem bytes ⟨H, member, -, rfl, rfl⟩
    have bounds := (paved_inside _ _ _ _ _ paved H member).2
    unfold Chunk.len at bounds
    unfold Chunk.mem
    omega
  · rintro mem bytes other n ⟨H, member, -, rfl, rfl⟩ ⟨H2, member', -, rfl, rfl⟩
    have places := paved_apart _ _ _ _ _ paved H H2 member member'
    unfold Chunk.len at places
    unfold Chunk.mem
    obtain rfl | before | behind := places
    · exact Or.inl ⟨rfl, rfl⟩
    · exact Or.inr (Or.inl (by omega))
    · exact Or.inr (Or.inr (by omega))

theorem mem_without (live : List Nat) (mem : Option Nat) (p : Nat) : p ∈ without live mem ↔ p ∈ live ∧ mem ≠ some p := by
  unfold without
  rw [List.mem_filter, decide_eq_true_iff]

theorem taken_owned (stop : Nat) (arena arena' : List Chunk) (mem bytes : Nat) (taken : Taken stop arena arena' mem bytes)
    (live : List Nat) (owned : ∀ p, p ∈ live ↔ ∃ n, Handed arena p n) (p : Nat) :
    (∃ n, Handed arena' p n) ↔ p = mem ∨ p ∈ live := by
  by_cases same : p = mem
  · subst same
    obtain ⟨n, -, holds⟩ := taken.holds
    exact iff_of_true ⟨n, holds⟩ (Or.inl rfl)
  · rw [or_iff_right same, owned]
    exact exists_congr fun n => taken.others p n same

section Step

variable (poolsize : Nat) (fits : poolsize < 2 ^ 24 + HEADER) (s : State) (inv : Inv poolsize s)

include fits inv

-- A block is handed out, and perhaps as many bytes as were asked for are cleared.
theorem alloc_inv (size : Ulong) (written : Option (Nat × Nat))
    (cleared : ∀ mem n, written = some (mem, n) → (gsMemAlloc s.arena size).1 = some mem ∧ n = size.toNat) :
    Inv poolsize ⟨(gsMemAlloc s.arena size).2, (gsMemAlloc s.arena size).1.toList ++ s.live, written⟩ := by
  obtain none | ⟨mem, arena, given, fresh, taken, wanted⟩ := alloc_spec poolsize fits s.arena inv.region size
  · rw [none] at cleared ⊢
    exact ⟨inv.region, inv.owned, inv.once, fun other n wrote => by cases (cleared other n wrote).1⟩
  · rw [given] at cleared ⊢
    refine ⟨taken.region, fun p => ?_, List.nodup_cons.mpr ⟨fun old => ?_, inv.once⟩, fun other n wrote => ?_⟩
    · exact List.mem_cons.trans (taken_owned _ _ _ _ _ taken s.live inv.owned p).symm
    · obtain ⟨bytes, handed⟩ := (inv.owned mem).mp old
      exact fresh bytes handed
    · obtain ⟨⟨⟩, rfl⟩ := cleared other n wrote
      obtain ⟨bytes, enough, holds⟩ := taken.holds
      exact ⟨bytes, (le_round size wanted).trans enough, holds⟩

theorem free_inv (mem : Option Nat) (live : ∀ p ∈ mem, p ∈ s.live) :
    Inv poolsize ⟨gsMemFree s.arena mem, without s.live mem, none⟩ := by
  refine ⟨?_, fun p => ?_, inv.once.filter _, fun _ _ wrote => by cases wrote⟩
  · cases mem with
    | none => exact inv.region
    | some mem =>
        obtain ⟨bytes, handed⟩ := (inv.owned mem).mp (live mem rfl)
        exact (free_spec poolsize fits s.arena inv.region mem bytes handed).1
  · rw [mem_without, inv.owned]
    cases mem with
    | none => exact and_iff_left (by simp)
    | some mem =>
        obtain ⟨bytes, handed⟩ := (inv.owned mem).mp (live mem rfl)
        have left := (free_spec poolsize fits s.arena inv.region mem bytes handed).2
        simp only [left, Option.some_inj.not, ne_eq, exists_and_left, and_comm, eq_comm]

theorem realloc_inv (mem : Nat) (newsize : Ulong) (live : mem ∈ s.live) (wanted : newsize ≠ 0) :
    Inv poolsize (step s (.realloc (some mem) newsize)) := by
  obtain ⟨bytes, handed⟩ := (inv.owned mem).mp live
  unfold step
  dsimp only
  obtain same | ⟨arena, here, taken⟩ | ⟨newmem, between, moved, fresh, taken⟩ :=
    realloc_spec poolsize fits s.arena inv.region mem bytes handed newsize wanted
  · rw [same]
    unfold reowned
    dsimp only
    rw [if_neg wanted]
    exact ⟨inv.region, inv.owned, inv.once, fun _ _ wrote => by cases wrote⟩
  · rw [here]
    refine ⟨taken.region, fun p => ?_, List.nodup_cons.mpr ⟨fun old => ?_, inv.once.filter _⟩, fun _ _ wrote => by cases wrote⟩
    · rw [taken_owned _ _ _ _ _ taken s.live inv.owned p]
      unfold reowned
      rw [List.mem_cons, mem_without]
      by_cases same : p = mem
      · exact iff_of_true (Or.inl same) (Or.inl same)
      · rw [or_iff_right same, or_iff_right same]
        exact and_iff_left fun eq => same (Option.some.inj eq).symm
    · exact ((mem_without _ _ _).mp old).2 rfl
  · rw [moved]
    have middle : Inv poolsize ⟨between, newmem :: s.live, none⟩ := by
      refine ⟨taken.region, fun p => ?_, List.nodup_cons.mpr ⟨fun old => ?_, inv.once⟩, fun _ _ wrote => by cases wrote⟩
      · exact List.mem_cons.trans (taken_owned _ _ _ _ _ taken s.live inv.owned p).symm
      · obtain ⟨n, handed⟩ := (inv.owned newmem).mp old
        exact fresh n handed
    have apart : newmem ≠ mem := by
      rintro rfl
      exact fresh bytes handed
    have freed := free_inv poolsize fits _ middle (some mem) fun p member =>
      List.mem_cons_of_mem newmem (Option.mem_some.mp member ▸ live)
    have list : without (newmem :: s.live) (some mem) = newmem :: without s.live (some mem) :=
      List.filter_cons_of_pos (decide_eq_true fun eq => apart (Option.some.inj eq).symm)
    rw [list] at freed
    refine ⟨freed.region, freed.owned, freed.once, ?_⟩
    rintro _ _ ⟨⟩
    obtain ⟨n, enough, holds⟩ := taken.holds
    refine ⟨n, enough, ?_⟩
    obtain ⟨old, handed'⟩ := (middle.owned mem).mp (List.mem_cons_of_mem newmem live)
    exact ((free_spec poolsize fits between taken.region mem old handed').2 newmem n).mpr ⟨apart, holds⟩

theorem step_inv (call : Call) (owned : ∀ mem ∈ call.pointer, mem ∈ s.live) : Inv poolsize (step s call) := by
  cases call with
  | alloc size => exact alloc_inv poolsize fits s inv size none fun _ _ wrote => by cases wrote
  | free mem => exact free_inv poolsize fits s inv mem owned
  | realloc mem newsize =>
      cases mem with
      | none =>
          have given := alloc_inv poolsize fits s inv newsize ((gsMemAlloc s.arena newsize).1.map fun mem => (mem, newsize.toNat))
            fun mem n wrote => by
              obtain ⟨newmem, given, ⟨⟩⟩ := Option.map_eq_some_iff.mp wrote
              exact ⟨given, rfl⟩
          have kept : without s.live none = s.live := List.filter_eq_self.mpr fun _ _ => rfl
          unfold step gsMemRealloc reowned
          dsimp only
          rw [kept, ite_self]
          cases newmem : (gsMemAlloc s.arena newsize).1 <;> rw [newmem] at given <;> exact given
      | some mem =>
          by_cases freeing : newsize = 0
          · have freed := free_inv poolsize fits s inv (some mem) owned
            unfold step gsMemRealloc reowned
            dsimp only
            rw [if_pos freeing]
            dsimp only
            rw [if_pos freeing]
            exact freed
          · exact realloc_inv poolsize fits s inv mem newsize (owned mem rfl) freeing

end Step

theorem reach_inv (poolsize : Nat) (fits : poolsize < 2 ^ 24 + HEADER) (arena : List Chunk) (region : Region 0 poolsize arena)
    (unused : ∀ mem bytes, ¬ Handed arena mem bytes) (s : State) (reach : Reach arena s) : Inv poolsize s := by
  induction reach with
  | start =>
      exact ⟨region, fun mem => iff_of_false List.not_mem_nil (fun ⟨bytes, handed⟩ => unused mem bytes handed), List.nodup_nil,
        fun _ _ wrote => by cases wrote⟩
  | call s call _ owned ih => exact step_inv poolsize fits s ih call owned

-- The size that init_mem rounds up.
def wantedSize (config : Option Ulong) : Ulong :=
  if config.getD POOLSIZE_DEFAULT ≤ MIN_CHUNK then POOLSIZE_DEFAULT else config.getD POOLSIZE_DEFAULT

theorem wanted_large (config : Option Ulong) : 16 < (wantedSize config).toNat := by
  unfold wantedSize
  by_cases small : config.getD POOLSIZE_DEFAULT ≤ MIN_CHUNK
  · rw [if_pos small]
    decide
  · rw [if_neg small]
    exact BitVec.not_le.mp small

theorem wanted_bounded (config : Option Ulong) :
    (wantedSize config).toNat ≤ 2 ^ 24 ↔ ∀ n, config = some n → n.toNat ≤ 2 ^ 24 := by
  unfold wantedSize
  cases config with
  | none => exact iff_of_true (by decide) (fun _ none => by cases none)
  | some n =>
      rw [Option.getD_some]
      by_cases small : n ≤ MIN_CHUNK
      · rw [if_pos small]
        have bound : n.toNat ≤ 16 := small
        exact iff_of_true (by decide) fun _ same => by cases same; omega
      · rw [if_neg small]
        simp

theorem poolsize_value (config : Option Ulong) : ∃ rounded, (poolsizeOf config).toNat = (rounded + (2 ^ 32 - 512)) % 2 ^ 32
    ∧ rounded = ((wantedSize config).toNat + 8191) % 2 ^ 32 - ((wantedSize config).toNat + 8191) % 2 ^ 32 % 8192 := by
  have low : (wantedSize config + 8191 &&& ~~~8191).toNat = _ := cleared (wantedSize config + 8191) 8191 13 rfl
  refine ⟨(wantedSize config + 8191 &&& ~~~8191).toNat, ?_, low⟩
  have whole : poolsizeOf config = (wantedSize config + 8191 &&& ~~~8191) - 512 := rfl
  rw [whole, BitVec.toNat_sub, Nat.add_comm]
  rfl

theorem poolsize_bounded (config : Option Ulong) (bounded : ∀ n, config = some n → n.toNat ≤ 2 ^ 24) :
    HEADER ≤ (poolsizeOf config).toNat ∧ (poolsizeOf config).toNat < 2 ^ 24 := by
  obtain ⟨rounded, value, made⟩ := poolsize_value config
  have small := (wanted_bounded config).mpr bounded
  have large := wanted_large config
  unfold HEADER
  omega

theorem poolsize_beyond (config : Option Ulong) (beyond : ¬ ∀ n, config = some n → n.toNat ≤ 2 ^ 24) :
    2 ^ 24 + HEADER ≤ (poolsizeOf config).toNat := by
  obtain ⟨rounded, value, made⟩ := poolsize_value config
  have large := (wanted_bounded config).not.mpr beyond
  have bound := (wantedSize config).isLt
  unfold HEADER
  omega

theorem arena_iff (config : Option Ulong) (malloc : Ulong → Bool) (arena : List Chunk)
    (pool : initMem config malloc = some arena) :
    (∀ s, Reach arena s → Sound (poolsizeOf config).toNat s) ↔ ∀ n, config = some n → n.toNat ≤ 2 ^ 24 := by
  obtain rfl : [⟨0, (poolsizeOf config - BitVec.ofNat 32 HEADER) ||| FREED⟩] = arena := by
    unfold initMem at pool
    by_cases given : malloc (poolsizeOf config)
    · rw [if_pos given] at pool
      exact Option.some.inj pool
    · rw [if_neg given] at pool
      cases pool
  constructor
  · intro sound
    by_contra beyond
    have total := (sound _ Reach.start).total
    have large := poolsize_beyond config beyond
    have small := chunksize_small ⟨0, (poolsizeOf config - BitVec.ofNat 32 HEADER) ||| FREED⟩
    rw [List.map_singleton, List.sum_singleton] at total
    unfold Chunk.len room at total
    omega
  · intro bounded s reach
    obtain ⟨least, most⟩ := poolsize_bounded config bounded
    have header : BitVec.ofNat 32 HEADER ≤ poolsizeOf config := least
    have size : (poolsizeOf config - BitVec.ofNat 32 HEADER).toNat = (poolsizeOf config).toNat - HEADER :=
      BitVec.toNat_sub_of_le header
    have small : (poolsizeOf config - BitVec.ofNat 32 HEADER).toNat < 2 ^ 24 := by omega
    have word := freed_word 0 _ small
    refine inv_sound _ (by unfold HEADER; omega) s (reach_inv _ (by unfold HEADER; omega) _ ?_ ?_ s reach)
    · refine (region_cons _ _ _ _).mpr ⟨rfl, Or.inr word.1, by simp, ?_⟩
      unfold Chunk.len
      rw [room_of_word 0 _ FREED small rfl, size, Nat.zero_add, Nat.add_sub_cancel' least]
      exact region_nil _
    · rintro mem bytes ⟨H, member, alloced, -⟩
      obtain rfl := List.mem_singleton.mp member
      exact alloced_not_freed _ alloced word.1

-- Two blocks of the default pool, and the first of them made smaller.
theorem arena_iff_default : Sound 56832 ⟨[⟨0, 0xab000028⟩, ⟨48, 0xfb000038⟩, ⟨112, 0xab000038⟩, ⟨176, 0xfb00dd48⟩], [8, 120], none⟩ :=
  (arena_iff none (fun _ => true) [⟨0, 0xfb00ddf8⟩] rfl).mpr (fun _ none => by cases none) _
    (Reach.call _ (.realloc (some 8) 40) (Reach.call _ (.alloc 50) (Reach.call _ (.alloc 100) Reach.start (by decide)) (by decide))
      (by decide))

-- 32 MiB: the size of the only chunk has 24 bits.
theorem arena_half_lost : ¬ ∀ (config : Option Ulong) (malloc : Ulong → Bool) (arena : List Chunk),
    initMem config malloc = some arena → ∀ s, Reach arena s → Sound (poolsizeOf config).toNat s := by
  intro sound
  have total := (sound (some 0x2000000) (fun _ => true) _ rfl _ Reach.start).total
  revert total
  decide

end MagxNet.Gluestik
