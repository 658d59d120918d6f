import MagxNet.Gluestik.Mem
import MagxNet.Lib.Tiling

set_option autoImplicit false

namespace MagxNet.Gluestik

open Paving

theorem low_bits (x : Ulong) (small : x.toNat < 2 ^ 24) : x &&& 0x00ffffff = x := by
  refine BitVec.eq_of_toNat_eq ?_
  have mask : (0x00ffffff : Ulong).toNat = 2 ^ 24 - 1 := rfl
  rw [BitVec.toNat_and, mask, Nat.and_two_pow_sub_one_eq_mod, Nat.mod_eq_of_lt small]

theorem high_bits (x : Ulong) (small : x.toNat < 2 ^ 24) : x &&& 0xff000000 = 0 := by
  have masks : (0x00ffffff : Ulong) &&& 0xff000000 = 0 := rfl
  rw [← low_bits x small, BitVec.and_assoc, masks]
  exact BitVec.and_zero

section Words

variable (addr : Nat) (x : Ulong) (small : x.toNat < 2 ^ 24)

include small

theorem size_of_word (state : Ulong) (mark : state &&& 0x00ffffff = 0) : chunksize ⟨addr, x ||| state⟩ = x := by
  unfold chunksize
  rw [BitVec.and_or_distrib_right, low_bits x small, mark]
  exact BitVec.or_zero

theorem mark_of_word (state : Ulong) : (x ||| state) &&& 0xff000000 = state &&& 0xff000000 := by
  rw [BitVec.and_or_distrib_right, high_bits x small]
  exact BitVec.zero_or

theorem freed_word : isFreed ⟨addr, x ||| FREED⟩ ∧ chunksize ⟨addr, x ||| FREED⟩ = x :=
  ⟨mark_of_word x small FREED, size_of_word addr x small FREED rfl⟩

theorem alloced_word : isAlloced ⟨addr, x ||| ALLOCED⟩ ∧ chunksize ⟨addr, x ||| ALLOCED⟩ = x :=
  ⟨mark_of_word x small ALLOCED, size_of_word addr x small ALLOCED rfl⟩

end Words

theorem chunksize_small (H : Chunk) : (chunksize H).toNat < 2 ^ 24 := by
  unfold chunksize
  rw [BitVec.toNat_and]
  exact Nat.lt_of_le_of_lt Nat.and_le_right (by decide)

theorem alloced_not_freed (H : Chunk) (alloced : isAlloced H) : ¬ isFreed H := by
  unfold isAlloced at alloced
  unfold isFreed
  rw [alloced]
  decide

def room (H : Chunk) : Nat := (chunksize H).toNat

def Chunk.len (H : Chunk) : Nat := HEADER + room H

def Apart (H H2 : Chunk) : Prop := ¬ (isFreed H ∧ isFreed H2)

-- A part of the arena: the chunks fill it in their order, each is marked, and no two free ones are neighbours.
structure Region (start stop : Nat) (chunks : List Chunk) : Prop where
  paved : Paved Chunk.addr Chunk.len start stop chunks
  marked : ∀ H ∈ chunks, isAlloced H ∨ isFreed H
  apart : chunks.IsChain Apart

theorem region_nil (start : Nat) : Region start start [] :=
  ⟨rfl, fun _ member => absurd member List.not_mem_nil, List.isChain_nil⟩

theorem region_cons (start stop : Nat) (H : Chunk) (rest : List Chunk) :
    Region start stop (H :: rest) ↔ H.addr = start ∧ (isAlloced H ∨ isFreed H) ∧ (∀ next ∈ rest.head?, Apart H next)
      ∧ Region (start + H.len) stop rest := by
  constructor
  · rintro ⟨⟨here, paved⟩, marked, apart⟩
    rw [List.isChain_cons] at apart
    exact ⟨here, marked H List.mem_cons_self, apart.1, paved, fun other member => marked other (List.mem_cons_of_mem H member),
      apart.2⟩
  · rintro ⟨here, mark, seam, paved, marked, apart⟩
    refine ⟨⟨here, paved⟩, fun other member => ?_, List.isChain_cons.mpr ⟨seam, apart⟩⟩
    obtain rfl | member := List.mem_cons.mp member
    · exact mark
    · exact marked other member

theorem region_append (start stop : Nat) (front back : List Chunk) :
    Region start stop (front ++ back) ↔ ∃ mid, Region start mid front ∧ Region mid stop back
      ∧ ∀ H ∈ front.getLast?, ∀ next ∈ back.head?, Apart H next := by
  constructor
  · rintro ⟨paved, marked, apart⟩
    obtain ⟨mid, first, second⟩ := (paved_append _ _ front back start stop).mp paved
    obtain ⟨chain, chain', seam⟩ := List.isChain_append.mp apart
    exact ⟨mid, ⟨first, fun H member => marked H (List.mem_append_left back member), chain⟩,
      ⟨second, fun H member => marked H (List.mem_append_right front member), chain'⟩, seam⟩
  · rintro ⟨mid, ⟨first, marks, chain⟩, ⟨second, marks', chain'⟩, seam⟩
    refine ⟨(paved_append _ _ front back start stop).mpr ⟨mid, first, second⟩, fun H member => ?_,
      List.isChain_append.mpr ⟨chain, chain', seam⟩⟩
    obtain member | member := List.mem_append.mp member
    · exact marks H member
    · exact marks' H member

-- A chunk in use: its pointer and how many bytes it has.
def Handed (chunks : List Chunk) (mem bytes : Nat) : Prop := ∃ H ∈ chunks, isAlloced H ∧ H.mem = mem ∧ room H = bytes

theorem handed_cons (H : Chunk) (rest : List Chunk) (mem bytes : Nat) :
    Handed (H :: rest) mem bytes ↔ (isAlloced H ∧ H.mem = mem ∧ room H = bytes) ∨ Handed rest mem bytes := by
  simp [Handed]

theorem handed_append (front back : List Chunk) (mem bytes : Nat) :
    Handed (front ++ back) mem bytes ↔ Handed front mem bytes ∨ Handed back mem bytes := by
  simp [Handed, or_and_right, exists_or]

theorem handed_free (H : Chunk) (rest : List Chunk) (mem bytes : Nat) (freed : isFreed H) :
    Handed (H :: rest) mem bytes ↔ Handed rest mem bytes := by
  rw [handed_cons]
  exact or_iff_right fun both => alloced_not_freed H both.1 freed

theorem room_of_word (addr : Nat) (x state : Ulong) (small : x.toNat < 2 ^ 24) (mark : state &&& 0x00ffffff = 0) :
    room ⟨addr, x ||| state⟩ = x.toNat := by
  unfold room
  rw [size_of_word addr x small state mark]

theorem joined_size (H H2 : Chunk) (fits : room H + HEADER + room H2 < 2 ^ 24) :
    (chunksize H + chunksize H2 + BitVec.ofNat 32 HEADER).toNat = room H + HEADER + room H2 := by
  unfold room HEADER at *
  rw [BitVec.toNat_add, BitVec.toNat_add, BitVec.toNat_ofNat]
  omega

-- The chunk that join_next makes of the two takes their whole place, with the header between them.
theorem join_next (state : Ulong) (mark : state &&& 0x00ffffff = 0) (start stop : Nat) (H H2 : Chunk) (rest : List Chunk)
    (here : H.addr = start) (later : Region (start + H.len) stop (H2 :: rest)) (fits : stop < 2 ^ 24 + HEADER) :
    ∃ joined, joinNext state (H :: H2 :: rest) = joined :: rest ∧ joined.addr = start
      ∧ joined.size &&& 0xff000000 = state &&& 0xff000000 ∧ room joined = room H + HEADER + room H2
      ∧ Region (start + joined.len) stop rest := by
  obtain ⟨-, -, -, behind⟩ := (region_cons _ _ _ _).mp later
  have total := paved_sum _ _ _ _ _ behind.paved
  have small : room H + HEADER + room H2 < 2 ^ 24 := by
    unfold Chunk.len at total
    omega
  have size := joined_size H H2 small
  have inside : (chunksize H + chunksize H2 + BitVec.ofNat 32 HEADER).toNat < 2 ^ 24 := by rwa [size]
  have joined := (room_of_word H.addr _ state inside mark).trans size
  refine ⟨_, rfl, here, mark_of_word _ inside state, joined, ?_⟩
  unfold Chunk.len at behind ⊢
  rw [joined]
  rwa [show start + (HEADER + (room H + HEADER + room H2)) = start + (HEADER + room H) + (HEADER + room H2) by omega]

-- What the free chunk in front of a region becomes.
theorem merge_next (start stop : Nat) (H : Chunk) (rest : List Chunk) (here : H.addr = start) (freed : isFreed H)
    (later : Region (start + H.len) stop rest) (fits : stop < 2 ^ 24 + HEADER) :
    ∃ merged rest', mergeNext (H :: rest) = merged :: rest' ∧ isFreed merged ∧ Region start stop (merged :: rest')
      ∧ ∀ mem bytes, Handed rest' mem bytes ↔ Handed rest mem bytes := by
  cases rest with
  | nil => exact ⟨H, [], rfl, freed, (region_cons _ _ _ _).mpr ⟨here, Or.inr freed, by simp, later⟩, fun _ _ => Iff.rfl⟩
  | cons next rest =>
      obtain ⟨-, -, seam, -⟩ := (region_cons _ _ _ _).mp later
      by_cases free : isFreed next
      · obtain ⟨merged, result, place, mark, -, behind⟩ := join_next FREED rfl start stop H next rest here later fits
        refine ⟨merged, rest, ?_, mark, (region_cons _ _ _ _).mpr ⟨place, Or.inr mark, fun other first both => ?_, behind⟩,
          fun mem bytes => (handed_free next rest mem bytes free).symm⟩
        · rw [mergeNext, if_pos free, result]
        · exact seam other first ⟨free, both.2⟩
      · refine ⟨H, next :: rest, ?_, freed, (region_cons _ _ _ _).mpr ⟨here, Or.inr freed, ?_, later⟩, fun _ _ => Iff.rfl⟩
        · rw [mergeNext, if_neg free]
        · rintro other ⟨⟩ both
          exact free both.2

-- What is left of a block behind the new one and its header.
theorem spare_size (newsize : Ulong) (block : Chunk) (enough : newsize ≤ chunksize block)
    (split : MIN_CHUNK ≤ chunksize block - newsize) :
    newsize.toNat + HEADER + (chunksize block - newsize - BitVec.ofNat 32 HEADER).toNat = room block := by
  have bound : newsize.toNat ≤ (chunksize block).toNat := enough
  have spare : 16 ≤ (chunksize block - newsize).toNat := split
  have left : (chunksize block - newsize).toNat = (chunksize block).toNat - newsize.toNat := BitVec.toNat_sub_of_le enough
  unfold room HEADER
  rw [BitVec.toNat_sub, left, BitVec.toNat_ofNat]
  omega

-- What try_split makes of a block that is large enough.
theorem try_split (newsize : Ulong) (start stop : Nat) (block : Chunk) (rest : List Chunk) (here : block.addr = start)
    (enough : newsize ≤ chunksize block) (later : Region (start + block.len) stop rest) (fits : stop < 2 ^ 24 + HEADER) :
    ∃ block' rest', trySplit newsize (block :: rest) = block' :: rest' ∧ isAlloced block' ∧ newsize.toNat ≤ room block'
      ∧ Region start stop (block' :: rest') ∧ ∀ mem bytes, Handed rest' mem bytes ↔ Handed rest mem bytes := by
  have small := chunksize_small block
  by_cases split : MIN_CHUNK ≤ chunksize block - newsize
  · have size := spare_size newsize block enough split
    have taken : newsize.toNat < 2 ^ 24 := Nat.lt_of_le_of_lt enough small
    have word := alloced_word block.addr newsize taken
    have kept : room ⟨block.addr, newsize ||| ALLOCED⟩ = newsize.toNat := room_of_word _ _ _ taken rfl
    have tail : (chunksize block - newsize - BitVec.ofNat 32 HEADER).toNat < 2 ^ 24 := by
      unfold room at size
      omega
    have spare := room_of_word (block.mem + newsize.toNat) _ FREED tail rfl
    have behind : Region (block.mem + newsize.toNat
        + Chunk.len ⟨block.mem + newsize.toNat, (chunksize block - newsize - BitVec.ofNat 32 HEADER) ||| FREED⟩) stop rest := by
      unfold Chunk.len at later ⊢
      rw [spare, Chunk.mem, here, show start + HEADER + newsize.toNat + (HEADER + (chunksize block - newsize
        - BitVec.ofNat 32 HEADER).toNat) = start + (HEADER + room block) by omega]
      exact later
    obtain ⟨merged, rest', result, freed, region, handed⟩ := merge_next _ stop _ rest rfl (freed_word _ _ tail).1 behind fits
    refine ⟨⟨block.addr, newsize ||| ALLOCED⟩, merged :: rest', ?_, word.1, kept.ge, (region_cons _ _ _ _).mpr
      ⟨here, Or.inl word.1, fun _ _ both => alloced_not_freed _ word.1 both.1, ?_⟩, fun mem bytes => ?_⟩
    · rw [trySplit, if_pos split]
      exact congrArg _ result
    · unfold Chunk.len
      rwa [kept, ← Nat.add_assoc, ← here]
    · rw [handed_free merged rest' mem bytes freed, handed]
  · have word := alloced_word block.addr (chunksize block) small
    have kept : room ⟨block.addr, chunksize block ||| ALLOCED⟩ = room block := room_of_word _ _ _ small rfl
    refine ⟨⟨block.addr, chunksize block ||| ALLOCED⟩, rest, ?_, word.1, ?_, (region_cons _ _ _ _).mpr
      ⟨here, Or.inl word.1, fun _ _ both => alloced_not_freed _ word.1 both.1, ?_⟩, fun _ _ => Iff.rfl⟩
    · rw [trySplit, if_neg split]
    · rw [kept]
      exact enough
    · unfold Chunk.len at later ⊢
      rwa [kept]

end MagxNet.Gluestik
