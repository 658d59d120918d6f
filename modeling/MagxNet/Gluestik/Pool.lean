import MagxNet.Lib.Bytes
import MagxNet.Gluestik.Arena

set_option autoImplicit false

namespace MagxNet.Gluestik

open Bytes Paving

-- The functions of gs_mem.c once more, on the memory that the headers and the blocks are in; pointers are addresses, and 0 is
-- NULL.
abbrev Memory := Nat → Byte

def headerNext (mem : Memory) (H : Nat) : Nat := (word mem H).toNat

-- The chunk whose header is at H.
def chunkAt (mem : Memory) (H : Nat) : Chunk := ⟨H, word mem (H + 4)⟩

def setNext (mem : Memory) (H next : Nat) : Memory := setWord mem H (BitVec.ofNat 32 next)

def setSize (mem : Memory) (H : Nat) (size : Ulong) : Memory := setWord mem (H + 4) size

def joinNextAt (mem : Memory) (H : Nat) (state : Ulong) : Memory :=
  let H2 := headerNext mem H
  let mem := setNext mem H (headerNext mem H2)
  setSize mem H ((chunksize (chunkAt mem H) + chunksize (chunkAt mem H2) + BitVec.ofNat 32 HEADER) ||| state)

def mergeNextAt (mem : Memory) (H : Nat) : Memory :=
  if headerNext mem H ≠ 0 ∧ isFreed (chunkAt mem (headerNext mem H)) then joinNextAt mem H FREED else mem

def trySplitAt (mem : Memory) (block : Nat) (newsize : Ulong) : Memory :=
  if MIN_CHUNK ≤ chunksize (chunkAt mem block) - newsize then
    let H := block + HEADER + newsize.toNat
    let mem := setNext mem H (headerNext mem block)
    let mem := setSize mem H ((chunksize (chunkAt mem block) - newsize - BitVec.ofNat 32 HEADER) ||| FREED)
    let mem := setNext mem block H
    let mem := setSize mem block (newsize ||| ALLOCED)
    mergeNextAt mem H
  else setSize mem block (chunksize (chunkAt mem block) ||| ALLOCED)

-- A list of headers that does not come back to itself is shorter than this.
def ROUNDS : Nat := 2 ^ 32

-- The loops give none when they have not ended after so many rounds.
def allocLoopAt (size : Ulong) (mem : Memory) : Nat → Nat → Option (Nat × Memory)
  | 0, _ => none
  | rounds + 1, H =>
      if H = 0 then some (0, mem)
      else if isAlloced (chunkAt mem H) ∨ chunksize (chunkAt mem H) < size then allocLoopAt size mem rounds (headerNext mem H)
      else some (H + HEADER, trySplitAt mem H size)

def gsMemAllocAt (mem : Memory) (arena : Nat) (size : Ulong) : Option (Nat × Memory) :=
  if 0x01000000 ≤ round size ∨ round size = 0 then some (0, mem) else allocLoopAt (round size) mem ROUNDS arena

def prevLoopAt (mem : Memory) (H : Nat) : Nat → Nat → Option Nat
  | 0, _ => none
  | rounds + 1, H2 => if H2 ≠ 0 ∧ headerNext mem H2 ≠ H then prevLoopAt mem H rounds (headerNext mem H2) else some H2

def gsMemFreeAt (mem : Memory) (arena p : Nat) : Option Memory :=
  if p = 0 then some mem
  else if ¬ isAlloced (chunkAt mem (p - HEADER)) then some mem
  else
    let H := p - HEADER
    let mem := setSize mem H (chunksize (chunkAt mem H) ||| FREED)
    let mem := mergeNextAt mem H
    if H = arena then some mem
    else (prevLoopAt mem H ROUNDS arena).map fun H2 =>
      if H2 = 0 then mem else if isFreed (chunkAt mem H2) then joinNextAt mem H2 FREED else mem

def memset (mem : Memory) (p : Nat) (c : Byte) (n : Nat) : Memory := poke mem p (List.replicate n c)

def memcpy (mem : Memory) (p q n : Nat) : Memory := poke mem p (peek mem q n)

def gsMemReallocAt (mem : Memory) (arena p : Nat) (newsize : Ulong) : Option (Nat × Memory) :=
  if p = 0 then
    (gsMemAllocAt mem arena newsize).map fun (newmem, mem) =>
      (newmem, if newmem ≠ 0 then memset mem newmem 0 newsize.toNat else mem)
  else if newsize = 0 then (gsMemFreeAt mem arena p).map fun mem => (0, mem)
  else
    let H := p - HEADER
    let newsize := round newsize
    let next := headerNext mem H
    if ¬ isAlloced (chunkAt mem H) then some (0, mem)
    else if newsize ≤ chunksize (chunkAt mem H) then some (p, trySplitAt mem H newsize)
    else if next ≠ 0 ∧ isFreed (chunkAt mem next)
        ∧ newsize ≤ chunksize (chunkAt mem H) + chunksize (chunkAt mem next) + BitVec.ofNat 32 HEADER then
      some (p, trySplitAt (joinNextAt mem H ALLOCED) H newsize)
    else
      (gsMemAllocAt mem arena newsize).bind fun (newmem, mem) =>
        if newmem = 0 then some (0, mem)
        else (gsMemFreeAt (memcpy mem newmem p (chunksize (chunkAt mem H)).toNat) arena p).map fun mem => (newmem, mem)

-- init_mem once it has its pool.
def initMemAt (mem : Memory) (pool : Nat) (config : Option Ulong) : Memory :=
  setSize (setNext mem pool 0) pool ((poolsizeOf config - BitVec.ofNat 32 HEADER) ||| FREED)

-- Where the first of some chunks is, counted from arena on; last is what the last of them links to.
def firstAt (arena : Nat) (chunks : List Chunk) (last : Nat) : Nat :=
  match chunks with
  | [] => last
  | H :: _ => arena + H.addr

-- The headers of the chunks are in the memory, each linked to the next.
def Headers (mem : Memory) (arena : Nat) : List Chunk → Nat → Prop
  | [], _ => True
  | H :: rest, last =>
      (chunkAt mem (arena + H.addr)).size = H.size ∧ headerNext mem (arena + H.addr) = firstAt arena rest last
        ∧ Headers mem arena rest last

-- The bytes of the headers.
def InHeader (arena : Nat) (chunks : List Chunk) (a : Nat) : Prop := ∃ H ∈ chunks, arena + H.addr ≤ a ∧ a < arena + H.addr + HEADER

theorem headers_append (mem : Memory) (arena : Nat) (l r : List Chunk) (last : Nat) :
    Headers mem arena (l ++ r) last ↔ Headers mem arena l (firstAt arena r last) ∧ Headers mem arena r last := by
  induction l with
  | nil => exact (and_iff_right trivial).symm
  | cons H rest ih =>
      have link : firstAt arena (rest ++ r) last = firstAt arena rest (firstAt arena r last) := by cases rest <;> rfl
      rw [List.cons_append, Headers, Headers, ih, link]
      tauto

-- Headers stay as long as their bytes do.
theorem headers_same (mem mem' : Memory) (arena : Nat) (chunks : List Chunk) (last : Nat)
    (same : ∀ a, InHeader arena chunks a → mem' a = mem a) (headers : Headers mem arena chunks last) :
    Headers mem' arena chunks last := by
  induction chunks with
  | nil => trivial
  | cons H rest ih =>
      obtain ⟨size, next, later⟩ := headers
      refine ⟨?_, ?_, ih (fun a ⟨other, member, inside⟩ => same a ⟨other, List.mem_cons_of_mem H member, inside⟩) later⟩
      · unfold chunkAt at size ⊢
        dsimp only at size ⊢
        rw [word_same mem mem' _ fun a low high => same a ⟨H, List.mem_cons_self, by omega, by unfold HEADER; omega⟩, size]
      · unfold headerNext at next ⊢
        rw [word_same mem mem' _ fun a low high => same a ⟨H, List.mem_cons_self, low, by unfold HEADER; omega⟩, next]

section Fields

variable (mem : Memory) (H H2 next : Nat) (size : Ulong)

def Far (H H2 : Nat) : Prop := H + HEADER ≤ H2 ∨ H2 + HEADER ≤ H

@[simp] theorem size_set_size : (chunkAt (setSize mem H size) H).size = size := word_here _ _ _

@[simp] theorem size_set_next : (chunkAt (setNext mem H next) H).size = (chunkAt mem H).size :=
  word_apart _ _ _ _ (Or.inr le_rfl)

@[simp] theorem next_set_size : headerNext (setSize mem H size) H = headerNext mem H :=
  congrArg BitVec.toNat (word_apart _ _ _ _ (Or.inl le_rfl))

theorem next_set_next (fits : next < 2 ^ 32) : headerNext (setNext mem H next) H = next := by
  unfold headerNext setNext
  rw [word_here, BitVec.toNat_ofNat, Nat.mod_eq_of_lt fits]

variable (far : Far H H2)

include far

theorem size_set_size_far : (chunkAt (setSize mem H size) H2).size = (chunkAt mem H2).size := by
  unfold Far HEADER at far
  exact word_apart _ _ _ _ (by omega)

theorem size_set_next_far : (chunkAt (setNext mem H next) H2).size = (chunkAt mem H2).size := by
  unfold Far HEADER at far
  exact word_apart _ _ _ _ (by omega)

theorem next_set_size_far : headerNext (setSize mem H size) H2 = headerNext mem H2 := by
  unfold Far HEADER at far
  exact congrArg BitVec.toNat (word_apart _ _ _ _ (by omega))

theorem next_set_next_far : headerNext (setNext mem H next) H2 = headerNext mem H2 := by
  unfold Far HEADER at far
  exact congrArg BitVec.toNat (word_apart _ _ _ _ (by omega))

end Fields

section Outside

variable (mem : Memory) (H a : Nat) (outside : ¬ (H ≤ a ∧ a < H + HEADER))

include outside

theorem set_next_outside (next : Nat) : setNext mem H next a = mem a := by
  unfold HEADER at outside
  exact set_word_outside _ _ _ _ (by omega)

theorem set_size_outside (size : Ulong) : setSize mem H size a = mem a := by
  unfold HEADER at outside
  exact set_word_outside _ _ _ _ (by omega)

theorem join_next_outside (state : Ulong) : joinNextAt mem H state a = mem a := by
  unfold joinNextAt
  rw [set_size_outside _ H a outside, set_next_outside _ H a outside]

theorem merge_next_outside : mergeNextAt mem H a = mem a := by
  unfold mergeNextAt
  split
  · exact join_next_outside mem H a outside FREED
  · rfl

end Outside

-- Only the size of a chunk says what it is and how large.
theorem same_size (H H2 : Chunk) (same : H.size = H2.size) :
    chunksize H = chunksize H2 ∧ (isFreed H ↔ isFreed H2) ∧ (isAlloced H ↔ isAlloced H2) := by
  unfold chunksize isFreed isAlloced
  rw [same]
  exact ⟨rfl, Iff.rfl, Iff.rfl⟩

def Spaced (chunks : List Chunk) : Prop := (chunks.map Chunk.addr).Pairwise fun a b => a + HEADER ≤ b

theorem spaced_iff (chunks : List Chunk) : Spaced chunks ↔ chunks.Pairwise fun H H2 => H.addr + HEADER ≤ H2.addr :=
  List.pairwise_map

theorem paved_spaced (start stop : Nat) (chunks : List Chunk) (paved : Paved Chunk.addr Chunk.len start stop chunks) :
    Spaced chunks :=
  (spaced_iff chunks).mpr ((paved_ordered _ _ _ _ _ paved).imp fun order =>
    (Nat.add_le_add_left (Nat.le_add_right _ _) _).trans order)

-- Some chunks in the middle give way to others that begin in the same place; only their headers are written.
theorem headers_replace (mem mem' : Memory) (arena : Nat) (front mid mid' back : List Chunk)
    (spaced : Spaced (front ++ (mid' ++ back))) (first : firstAt arena mid 0 = firstAt arena mid' 0) (some : mid ≠ [])
    (some' : mid' ≠ []) (frame : ∀ a, ¬ InHeader arena mid' a → mem' a = mem a)
    (here : Headers mem' arena mid' (firstAt arena back 0)) (before : Headers mem arena (front ++ (mid ++ back)) 0) :
    Headers mem' arena (front ++ (mid' ++ back)) 0 := by
  obtain ⟨-, inner, across⟩ := List.pairwise_append.mp ((spaced_iff _).mp spaced)
  obtain ⟨-, -, across'⟩ := List.pairwise_append.mp inner
  obtain ⟨ahead, later⟩ := (headers_append _ _ _ _ _).mp before
  obtain ⟨-, behind⟩ := (headers_append _ _ _ _ _).mp later
  have link : firstAt arena (mid ++ back) 0 = firstAt arena (mid' ++ back) 0 := by
    cases mid with
    | nil => exact absurd rfl some
    | cons H rest =>
        cases mid' with
        | nil => exact absurd rfl some'
        | cons H' rest' => exact first
  refine (headers_append _ _ _ _ _).mpr ⟨?_, (headers_append _ _ _ _ _).mpr ⟨here, ?_⟩⟩
  · rw [← link]
    refine headers_same mem mem' arena front _ (fun a ⟨H, member, inside⟩ => frame a ?_) ahead
    rintro ⟨H2, member', inside'⟩
    have order := across H member H2 (List.mem_append_left back member')
    omega
  · refine headers_same mem mem' arena back _ (fun a ⟨H, member, inside⟩ => frame a ?_) behind
    rintro ⟨H2, member', inside'⟩
    have order := across' H2 member' H member
    omega

theorem in_header_single (arena a : Nat) (H : Chunk) : InHeader arena [H] a ↔ arena + H.addr ≤ a ∧ a < arena + H.addr + HEADER := by
  simp [InHeader]

section Joins

variable (mem : Memory) (arena : Nat) (positive : 0 < arena) (front rest : List Chunk) (H : Chunk)

theorem first_fits (chunks : List Chunk) (fits : ∀ c ∈ chunks, arena + c.addr < 2 ^ 32) : firstAt arena chunks 0 < 2 ^ 32 := by
  cases chunks with
  | nil => exact Nat.two_pow_pos 32
  | cons c more => exact fits c List.mem_cons_self

theorem join_next_at (H2 : Chunk) (state : Ulong) (spaced : Spaced (front ++ H :: H2 :: rest))
    (fits : ∀ c ∈ rest, arena + c.addr < 2 ^ 32) (headers : Headers mem arena (front ++ H :: H2 :: rest) 0) :
    Headers (joinNextAt mem (arena + H.addr) state) arena (front ++ joinNext state (H :: H2 :: rest)) 0 := by
  obtain ⟨-, size, next, size2, next2, -⟩ := (headers_append _ _ _ _ _).mp headers
  have next : headerNext mem (arena + H.addr) = arena + H2.addr := next
  have order : H.addr + HEADER ≤ H2.addr := by
    have inner := (List.pairwise_append.mp ((spaced_iff _).mp spaced)).2.1
    exact List.rel_of_pairwise_cons inner List.mem_cons_self
  have far : Far (arena + H.addr) (arena + H2.addr) := Or.inl (by omega)
  have less : Spaced (front ++ ([⟨H.addr, (chunksize H + chunksize H2 + BitVec.ofNat 32 HEADER) ||| state⟩] ++ rest)) := by
    unfold Spaced at spaced ⊢
    refine spaced.sublist ?_
    simp only [List.map_append, List.map_cons, List.singleton_append]
    exact (List.Sublist.refl _).append ((List.sublist_cons_self _ _).cons_cons _)
  refine headers_replace mem _ arena front [H, H2] [_] rest less rfl (List.cons_ne_nil _ _) (List.cons_ne_nil _ _)
    (fun a outside => ?_) ⟨?_, ?_, trivial⟩ headers
  · exact join_next_outside mem _ a (fun inside => outside ((in_header_single _ _ _).mpr inside)) state
  · have here := (same_size (chunkAt (setNext mem (arena + H.addr) (headerNext mem (arena + H2.addr))) (arena + H.addr)) H
      (by rw [size_set_next, size])).1
    have there := (same_size (chunkAt (setNext mem (arena + H.addr) (headerNext mem (arena + H2.addr))) (arena + H2.addr)) H2
      (by rw [size_set_next_far _ _ _ _ far, size2])).1
    unfold joinNextAt
    rw [size_set_size, next, here, there]
  · unfold joinNextAt
    rw [next_set_size, next, next_set_next _ _ _ (next2 ▸ first_fits arena rest fits), next2]
    rfl

include positive

-- Whether the next chunk is free, as the code asks it.
theorem next_freed (mem' : Memory) (headers : Headers mem' arena rest 0) :
    (firstAt arena rest 0 ≠ 0 ∧ isFreed (chunkAt mem' (firstAt arena rest 0))) ↔ ∃ next more, rest = next :: more ∧ isFreed next := by
  cases rest with
  | nil => simp [firstAt]
  | cons next more =>
      have freed := (same_size (chunkAt mem' (arena + next.addr)) next headers.1).2.1
      have real : arena + next.addr ≠ 0 := by omega
      unfold firstAt
      dsimp only
      rw [and_iff_right real, freed]
      exact ⟨fun free => ⟨next, more, rfl, free⟩, fun ⟨_, _, same, free⟩ => by cases same; exact free⟩

theorem merge_next_at (spaced : Spaced (front ++ H :: rest)) (fits : ∀ c ∈ rest, arena + c.addr < 2 ^ 32)
    (headers : Headers mem arena (front ++ H :: rest) 0) :
    Headers (mergeNextAt mem (arena + H.addr)) arena (front ++ mergeNext (H :: rest)) 0 := by
  obtain ⟨-, -, link, behind⟩ := (headers_append _ _ _ _ _).mp headers
  have asks := next_freed arena positive rest mem behind
  unfold mergeNextAt
  rw [link]
  by_cases free : ∃ next more, rest = next :: more ∧ isFreed next
  · rw [if_pos (asks.mpr free)]
    obtain ⟨next, more, rfl, freed⟩ := free
    rw [mergeNext, if_pos freed]
    exact join_next_at mem arena front more H next FREED spaced (fun c member => fits c (List.mem_cons_of_mem next member)) headers
  · rw [if_neg (fun both => free (asks.mp both))]
    cases rest with
    | nil => exact headers
    | cons next more =>
        rw [mergeNext, if_neg fun freed => free ⟨next, more, rfl, freed⟩]
        exact headers

end Joins

-- A chunk gets another size.
theorem set_size_at (mem : Memory) (arena : Nat) (front rest : List Chunk) (H : Chunk) (size : Ulong)
    (spaced : Spaced (front ++ H :: rest)) (headers : Headers mem arena (front ++ H :: rest) 0) :
    Headers (setSize mem (arena + H.addr) size) arena (front ++ ⟨H.addr, size⟩ :: rest) 0 := by
  obtain ⟨-, -, next, -⟩ := (headers_append _ _ _ _ _).mp headers
  refine headers_replace mem _ arena front [H] [⟨H.addr, size⟩] rest (by simpa [Spaced] using spaced) rfl (List.cons_ne_nil _ _)
    (List.cons_ne_nil _ _) (fun a outside => ?_) ⟨size_set_size _ _ _, ?_, trivial⟩ headers
  · exact set_size_outside mem _ a (fun inside => outside ((in_header_single _ _ _).mpr inside)) size
  · rw [next_set_size, next]
    rfl

-- A block of newsize bytes, and a free chunk behind it.
theorem split_at_two (mem : Memory) (arena : Nat) (front rest : List Chunk) (block : Chunk) (newsize size : Ulong)
    (spaced : Spaced (front ++ [⟨block.addr, newsize ||| ALLOCED⟩, ⟨block.mem + newsize.toNat, size⟩] ++ rest))
    (fits : ∀ c ∈ rest, arena + c.addr < 2 ^ 32) (fits' : arena + (block.mem + newsize.toNat) < 2 ^ 32)
    (headers : Headers mem arena (front ++ block :: rest) 0) :
    let H := arena + (block.mem + newsize.toNat)
    let split := setSize (setNext (setSize (setNext mem H (firstAt arena rest 0)) H size) (arena + block.addr) H)
      (arena + block.addr) (newsize ||| ALLOCED)
    Headers split arena (front ++ ⟨block.addr, newsize ||| ALLOCED⟩ :: ⟨block.mem + newsize.toNat, size⟩ :: rest) 0
      ∧ ∀ a, ¬ InHeader arena [⟨block.addr, newsize ||| ALLOCED⟩, ⟨block.mem + newsize.toNat, size⟩] a → split a = mem a := by
  intro H split
  have far : Far (arena + block.addr) H := by
    refine Or.inl ?_
    have mem : block.mem = block.addr + HEADER := rfl
    omega
  have far' : Far H (arena + block.addr) := far.symm
  have frame : ∀ a, ¬ InHeader arena [⟨block.addr, newsize ||| ALLOCED⟩, ⟨block.mem + newsize.toNat, size⟩] a → split a = mem a := by
    intro a outside
    have first : ¬ (arena + block.addr ≤ a ∧ a < arena + block.addr + HEADER) := fun inside => outside ⟨_, List.mem_cons_self, inside⟩
    have second : ¬ (H ≤ a ∧ a < H + HEADER) := fun inside => outside ⟨_, List.mem_cons_of_mem _ List.mem_cons_self, inside⟩
    exact (set_size_outside _ _ a first _).trans ((set_next_outside _ _ a first _).trans
      ((set_size_outside _ _ a second _).trans (set_next_outside _ _ a second _)))
  rw [List.append_assoc] at spaced
  refine ⟨headers_replace mem split arena front [block] [_, _] rest spaced rfl (List.cons_ne_nil _ _) (List.cons_ne_nil _ _) frame
    ⟨size_set_size _ _ _, ?_, ?_, ?_, trivial⟩ headers, frame⟩
  · exact (next_set_size _ _ _).trans (next_set_next _ _ _ fits')
  · exact (size_set_size_far _ _ _ _ far).trans ((size_set_next_far _ _ _ _ far).trans (size_set_size _ _ _))
  · exact (next_set_size_far _ _ _ _ far).trans ((next_set_next_far _ _ _ _ far).trans
      ((next_set_size _ _ _).trans (next_set_next _ _ _ (first_fits arena rest fits))))

end MagxNet.Gluestik
