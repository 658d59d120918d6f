import Mathlib

set_option autoImplicit false

namespace MagxNet.Gluestik

abbrev Ulong := BitVec 32

def POOLSIZE_DEFAULT : Ulong := 50000

-- sizeof (chunk_header): a pointer and a long.
def HEADER : Nat := 8
def MIN_CHUNK : Ulong := 16
def ALLOCED : Ulong := 0xab000000
def FREED : Ulong := 0xfb000000

def round (n : Ulong) : Ulong := (n + 7) &&& ~~~7

-- A chunk_header with its address, counted from the start of the pool. The arena is the list of them along next.
structure Chunk where
  addr : Nat
  size : Ulong
deriving DecidableEq, Repr

def isAlloced (H : Chunk) : Prop := H.size &&& 0xff000000 = ALLOCED
def isFreed (H : Chunk) : Prop := H.size &&& 0xff000000 = FREED
def chunksize (H : Chunk) : Ulong := H.size &&& 0x00ffffff

instance (H : Chunk) : Decidable (isAlloced H) := inferInstanceAs (Decidable (_ = _))

instance (H : Chunk) : Decidable (isFreed H) := inferInstanceAs (Decidable (_ = _))

-- What the caller gets for a chunk: (char *) (H + 1).
def Chunk.mem (H : Chunk) : Nat := H.addr + HEADER

-- poolsize as init_mem makes it from the configured value, if there is one.
def poolsizeOf (config : Option Ulong) : Ulong :=
  let poolsize := config.getD POOLSIZE_DEFAULT
  let poolsize := if poolsize ≤ MIN_CHUNK then POOLSIZE_DEFAULT else poolsize
  ((poolsize + 8191) &&& ~~~8191) - 512

-- config is what strtoul makes of the variable; malloc says whether there is a pool of this size.
def initMem (config : Option Ulong) (malloc : Ulong → Bool) : Option (List Chunk) :=
  if malloc (poolsizeOf config) then some [⟨0, (poolsizeOf config - BitVec.ofNat 32 HEADER) ||| FREED⟩] else none

-- The arena from H on; H->next is not null.
def joinNext (state : Ulong) : List Chunk → List Chunk
  | H :: H2 :: rest => { H with size := (chunksize H + chunksize H2 + BitVec.ofNat 32 HEADER) ||| state } :: rest
  | chunks => chunks

-- A free chunk H swallows the next one if that is free.
def mergeNext : List Chunk → List Chunk
  | H :: next :: rest => if isFreed next then joinNext FREED (H :: next :: rest) else H :: next :: rest
  | chunks => chunks

-- The arena from block on.
def trySplit (newsize : Ulong) : List Chunk → List Chunk
  | [] => []
  | block :: rest =>
      if MIN_CHUNK ≤ chunksize block - newsize then
        let H : Chunk := ⟨block.mem + newsize.toNat, (chunksize block - newsize - BitVec.ofNat 32 HEADER) ||| FREED⟩
        { block with size := newsize ||| ALLOCED } :: mergeNext (H :: rest)
      else { block with size := chunksize block ||| ALLOCED } :: rest

-- The loop of gs_mem_alloc.
def allocLoop (size : Ulong) : List Chunk → Option Nat × List Chunk
  | [] => (none, [])
  | H :: rest =>
      if isAlloced H ∨ chunksize H < size then
        let later := allocLoop size rest
        (later.1, H :: later.2)
      else (some H.mem, trySplit size (H :: rest))

def gsMemAlloc (arena : List Chunk) (size : Ulong) : Option Nat × List Chunk :=
  if 0x01000000 ≤ round size ∨ round size = 0 then (none, arena) else allocLoop (round size) arena

-- The arena up to the chunk of a pointer, and from there on.
def splitAt (arena : List Chunk) (mem : Nat) : List Chunk × List Chunk := arena.span fun H => !decide (H.mem = mem)

-- The chunk in front of the freed ones, if there is one and it is free, swallows them.
def mergePrev (before chunks : List Chunk) : List Chunk :=
  match before.getLast? with
  | some H2 => if isFreed H2 then before.dropLast ++ joinNext FREED (H2 :: chunks) else before ++ chunks
  | none => chunks

def gsMemFree (arena : List Chunk) : Option Nat → List Chunk
  | none => arena
  | some mem =>
      match splitAt arena mem with
      | (before, H :: after) =>
          if ¬ isAlloced H then arena
          else mergePrev before (mergeNext ({ H with size := chunksize H ||| FREED } :: after))
      | (_, []) => arena

def nextFits (newsize : Ulong) : List Chunk → Prop
  | H :: next :: _ => isFreed next ∧ newsize ≤ chunksize H + chunksize next + BitVec.ofNat 32 HEADER
  | _ => False

instance (newsize : Ulong) (chunks : List Chunk) : Decidable (nextFits newsize chunks) := by
  unfold nextFits
  split <;> infer_instance

-- What a call returns, the arena that it leaves, and the bytes that it writes: where and how many.
structure Realloced where
  mem : Option Nat
  arena : List Chunk
  written : Option (Nat × Nat)
deriving DecidableEq, Repr

def gsMemRealloc (arena : List Chunk) (mem : Option Nat) (newsize : Ulong) : Realloced :=
  match mem with
  | none =>
      let (newmem, arena) := gsMemAlloc arena newsize
      ⟨newmem, arena, newmem.map fun newmem => (newmem, newsize.toNat)⟩
  | some mem =>
      if newsize = 0 then ⟨none, gsMemFree arena (some mem), none⟩
      else match splitAt arena mem with
        | (before, H :: after) =>
            if ¬ isAlloced H then ⟨none, arena, none⟩
            else if round newsize ≤ chunksize H then ⟨some mem, before ++ trySplit (round newsize) (H :: after), none⟩
            else if nextFits (round newsize) (H :: after) then
              ⟨some mem, before ++ trySplit (round newsize) (joinNext ALLOCED (H :: after)), none⟩
            else match gsMemAlloc arena (round newsize) with
              | (none, arena) => ⟨none, arena, none⟩
              | (some newmem, arena) => ⟨some newmem, gsMemFree arena (some mem), some (newmem, (chunksize H).toNat)⟩
        | (_, []) => ⟨none, arena, none⟩

-- The largest free chunk, or all of them together.
def gsMemGetfree (arena : List Chunk) (flag : Bool) : Ulong :=
  if flag then arena.foldl (fun size H => if isFreed H ∧ size < chunksize H then chunksize H else size) 0
  else arena.foldl (fun size H => if isFreed H then size + chunksize H else size) 0

end MagxNet.Gluestik
