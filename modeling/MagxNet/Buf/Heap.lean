import MagxNet.Lib.Bytes
import MagxNet.Lib.Outcome

set_option autoImplicit false

namespace MagxNet.Buf

def BUF_BLOCK_SIZE : Nat := 32768
abbrev BUF_NSPLIT : Nat := 7

-- sizeof(BUF) on the 68000, where longs are aligned to two bytes.
def SIZEOF_BUF : Nat := 46

-- The smallest buffer size kept on free list i.
def bufSize (i : Nat) : Nat := BUF_BLOCK_SIZE >>> i

-- The size buf_alloc looks for: the header is added, the sum is rounded to an even number and
-- raised to the smallest list size. The additions are on ulong and wrap.
def roundSize (size : BitVec 32) : BitVec 32 := (size + BitVec.ofNat 32 (SIZEOF_BUF + 2)) &&& ~~~1#32

def allocSize (size : BitVec 32) : Nat := max (roundSize size).toNat (bufSize BUF_NSPLIT)

-- No free list holds buffers that large: buf_alloc refuses without looking for memory.
def tooBig (size : BitVec 32) : Bool := decide (BUF_BLOCK_SIZE < allocSize size)

theorem mask_even (x : BitVec 32) : (x &&& ~~~1#32).toNat = x.toNat / 2 * 2 := by
  have mask : x &&& ~~~1#32 = (x >>> 1) <<< 1 := by
    ext i bound
    cases i with
    | zero => simp
    | succ i => simp [-BitVec.reduceNot, show 1 + i = i + 1 by omega, BitVec.getLsbD_eq_getElem bound]
  rw [mask, BitVec.toNat_shiftLeft, BitVec.toNat_ushiftRight]
  simp only [Nat.shiftLeft_eq, Nat.shiftRight_eq_div_pow]
  omega

theorem round_size_nat (size : BitVec 32) :
    (roundSize size).toNat = (size.toNat + 48) % 2 ^ 32 / 2 * 2 := by
  rw [roundSize, mask_even, BitVec.toNat_add]
  rfl

theorem alloc_size_lower (size : BitVec 32) : bufSize BUF_NSPLIT ≤ allocSize size :=
  Nat.le_max_right ..

theorem too_big_iff (size : BitVec 32) (bound : size.toNat + 48 < 2 ^ 32) :
    tooBig size = true ↔ 32722 ≤ size.toNat := by
  have whole : (size.toNat + 48) % 2 ^ 32 = size.toNat + 48 := Nat.mod_eq_of_lt bound
  simp only [tooBig, allocSize, round_size_nat, whole, decide_eq_true_eq, BUF_BLOCK_SIZE,
    show bufSize BUF_NSPLIT = 256 by rfl]
  omega

-- A slightly negative request wraps and is served like a small one.
theorem small_not_too_big (size : Int) (lower : -48 ≤ size) (upper : size ≤ 32000) :
    tooBig (BitVec.ofInt 32 size) = false := by
  simp only [tooBig, allocSize, round_size_nat, BitVec.toNat_ofInt, decide_eq_false_iff_not, BUF_BLOCK_SIZE,
    show bufSize BUF_NSPLIT = 256 by rfl]
  omega

-- A BUF *: NULL, one of the pool heads, or a buffer in network memory.
inductive Ptr where
  | null
  | pool (i : Nat)
  | mem (addr : Nat)
deriving DecidableEq, Repr

def Ptr.addr : Ptr → Nat
  | .mem addr => addr
  | _ => 0

-- Every field of struct buf that buf.c works with is an array over the pointers. blocks are the
-- addresses kmalloc has handed out and kfree has not taken back.
structure Heap where
  buflen : Ptr → Nat
  links : Ptr → Int
  dstart : Ptr → Nat
  dend : Ptr → Nat
  info : Ptr → Int
  n : Ptr → Ptr
  p : Ptr → Ptr
  nfree : Ptr → Ptr
  pfree : Ptr → Ptr
  memUsed : Int
  failedAllocs : Int
  bufTmout : Bool
  blocks : List Nat

def add32 (x y : Nat) : Nat := (x + y) % 2 ^ 32
def sub32 (x y : Nat) : Nat := (x + 2 ^ 32 - y) % 2 ^ 32

-- A 32 bit value read as a long.
def long (z : Int) : Int := (BitVec.ofInt 32 z).toInt

def bufEmpty (h : Heap) (i : Nat) : Bool := h.nfree (.pool i) = .pool i

-- b->_nfree->_pfree = b->_pfree; b->_pfree->_nfree = b->_nfree;
def freeUnlink (h : Heap) (b : Ptr) : Heap :=
  let h := { h with pfree := Function.update h.pfree (h.nfree b) (h.pfree b) }
  { h with nfree := Function.update h.nfree (h.pfree b) (h.nfree b) }

-- Puts b right behind the head of free list i.
def freeLink (h : Heap) (i : Nat) (b : Ptr) : Heap :=
  let h := { h with nfree := Function.update h.nfree b (h.nfree (.pool i)) }
  let h := { h with pfree := Function.update h.pfree b (.pool i) }
  let h := { h with pfree := Function.update h.pfree (h.nfree b) b }
  { h with nfree := Function.update h.nfree (h.pfree b) b }

-- a swallows b, its neighbour in memory.
def absorb (h : Heap) (a b : Ptr) : Heap :=
  let h := if h.n b = .null then h else { h with p := Function.update h.p (h.n b) a }
  let h := { h with n := Function.update h.n a (h.n b) }
  { h with buflen := Function.update h.buflen a (add32 (h.buflen a) (h.buflen b)) }

-- Cuts nxtbuf off the end of newbuf, so that size bytes remain.
def carve (h : Heap) (newbuf nxtbuf : Ptr) (size : Nat) : Heap :=
  let h := if h.n newbuf = .null then h else { h with p := Function.update h.p (h.n newbuf) nxtbuf }
  let h := { h with buflen := Function.update h.buflen nxtbuf (sub32 (h.buflen newbuf) size) }
  let h := { h with links := Function.update h.links nxtbuf 0 }
  let h := { h with n := Function.update h.n nxtbuf (h.n newbuf) }
  let h := { h with p := Function.update h.p nxtbuf newbuf }
  let h := { h with buflen := Function.update h.buflen newbuf size }
  { h with n := Function.update h.n newbuf nxtbuf }

-- kmalloc sees which blocks are out.
abbrev Kmalloc := List Nat → Option Nat

def bufAddBlock (kmalloc : Kmalloc) (h : Heap) : Bool × Heap :=
  match kmalloc h.blocks with
  | none => (true, h)
  | some addr =>
      let new := Ptr.mem addr
      let h := { h with blocks := addr :: h.blocks }
      let h := { h with buflen := Function.update h.buflen new BUF_BLOCK_SIZE, links := Function.update h.links new 0 }
      let h := { h with n := Function.update h.n new .null, p := Function.update h.p new .null }
      let h := freeLink h 0 new
      let h := { h with memUsed := h.memUsed + h.buflen new }
      (false, { h with bufTmout := false })

def addmem (kmalloc : Kmalloc) (h : Heap) : Heap := (bufAddBlock kmalloc { h with bufTmout := false }).2

-- Returns whether a block has been given back.
def bufFreeBlock (h : Heap) : Bool × Heap :=
  let buf := h.nfree (.pool 0)
  if buf = .pool 0 ∨ h.nfree buf = .pool 0 then (false, h)
  else
    let h := { h with memUsed := h.memUsed - h.buflen buf }
    let h := freeUnlink h buf
    (true, { h with blocks := h.blocks.erase buf.addr })

def gc : Nat → Heap → Outcome Heap
  | 0, _ => .running
  | fuel + 1, h =>
      match bufFreeBlock h with
      | (true, h) => gc fuel h
      | (false, h) => .ret h

def bufInit (kmalloc : Kmalloc) (h : Heap) : Bool × Heap :=
  let pool := fun (ptr : Ptr) => match ptr with
    | .pool i => decide (i ≤ BUF_NSPLIT)
    | _ => false
  let h := { h with
    buflen := fun ptr => if pool ptr then 0 else h.buflen ptr
    links := fun ptr => if pool ptr then 1000 else h.links ptr
    n := fun ptr => if pool ptr then .null else h.n ptr
    p := fun ptr => if pool ptr then .null else h.p ptr
    nfree := fun ptr => if pool ptr then ptr else h.nfree ptr
    pfree := fun ptr => if pool ptr then ptr else h.pfree ptr }
  bufAddBlock kmalloc h

-- for (idx = count - 1; idx >= 0; idx--): the last list whose size is enough.
def sizeIndex (size : Nat) : Nat → Option Nat
  | 0 => none
  | idx + 1 => if size ≤ bufSize idx then some idx else sizeIndex size idx

-- for (i = count - 1; i >= 0 && BUF_EMPTY (i); i--)
def searchFree (h : Heap) : Nat → Option Nat
  | 0 => none
  | i + 1 => if bufEmpty h i then searchFree h i else some i

-- The first list from i on whose size is at most len; the search ends after count steps.
def searchUp (len : Nat) : Nat → Nat → Nat
  | 0, i => i
  | count + 1, i => if len < bufSize i then searchUp len count (i + 1) else i

-- The part of buf_alloc that takes the first buffer of free list i. BUF_SIZE is zero from 16 on, so
-- that the while loop ends there at the latest.
def bufTake (h : Heap) (i size : Nat) (reserve : BitVec 32) : Ptr × Heap :=
  let newbuf := h.nfree (.pool i)
  let h := freeUnlink h newbuf
  let use := fun (h : Heap) =>
    let h := { h with nfree := Function.update h.nfree newbuf .null, pfree := Function.update h.pfree newbuf .null }
    let h := { h with links := Function.update h.links newbuf 1 }
    let start := add32 (newbuf.addr + SIZEOF_BUF) reserve.toNat
    (newbuf, { h with dstart := Function.update h.dstart newbuf start, dend := Function.update h.dend newbuf start })
  if bufSize BUF_NSPLIT ≤ sub32 (h.buflen newbuf) size then
    let nxtbuf := Ptr.mem (newbuf.addr + size)
    let h := carve h newbuf nxtbuf size
    let j := searchUp (h.buflen nxtbuf) 17 i
    if BUF_NSPLIT < j then (.null, h) else use (freeLink h j nxtbuf)
  else use h

def roundReserve (reserve : BitVec 32) : BitVec 32 := (reserve + 1) &&& ~~~1#32

-- try_again: a block is added and the search is repeated.
def bufTryAlloc (kmalloc : Kmalloc) (idx size : Nat) (reserve : BitVec 32) (atomic : Bool) :
    Nat → Heap → Outcome (Ptr × Heap)
  | 0, _ => .running
  | fuel + 1, h =>
      match searchFree h (idx + 1) with
      | some i => .ret (bufTake h i size reserve)
      | none =>
          if atomic then .ret (.null, { h with bufTmout := true, failedAllocs := h.failedAllocs + 1 })
          else
            match bufAddBlock kmalloc h with
            | (true, h) => .ret (.null, { h with failedAllocs := h.failedAllocs + 1 })
            | (false, h) => bufTryAlloc kmalloc idx size reserve atomic fuel h

def bufAlloc (kmalloc : Kmalloc) (fuel : Nat) (h : Heap) (size reserve : BitVec 32) (atomic : Bool) :
    Outcome (Ptr × Heap) :=
  match sizeIndex (allocSize size) (BUF_NSPLIT + 1) with
  | none => .ret (.null, { h with failedAllocs := h.failedAllocs + 1 })
  | some idx => bufTryAlloc kmalloc idx (allocSize size) (roundReserve reserve) atomic fuel h

-- buf_free, and the copy of it in buf_deref: the buffer joins its free neighbours.
def joinLeft (h : Heap) (buf : Ptr) : Ptr × Heap :=
  let b := h.p buf
  if b ≠ .null ∧ h.links b = 0 then (b, absorb (freeUnlink h b) b buf) else (buf, h)

def joinRight (h : Heap) (buf : Ptr) : Heap :=
  let b := h.n buf
  if b ≠ .null ∧ h.links b = 0 then absorb (freeUnlink h b) buf b else h

def bufFree (h : Heap) (buf : Ptr) : Heap :=
  let (buf, h) := joinLeft h buf
  let h := joinRight h buf
  let i := searchUp (h.buflen buf) (BUF_NSPLIT + 1) 0
  if BUF_BLOCK_SIZE < h.buflen buf ∨ BUF_NSPLIT < i then h
  else freeLink { h with links := Function.update h.links buf 0 } i buf

def bufDeref (h : Heap) (buf : Ptr) : Heap :=
  let h := { h with links := Function.update h.links buf (h.links buf - 1) }
  if 0 < h.links buf then h else bufFree h buf

-- memcpy (nbuf->dstart, .., used): the bytes are not modelled, but they must stay inside nbuf.
def copyInto (h : Heap) (nbuf : Ptr) (used : Int) : Outcome Unit :=
  if used = 0 ∨ (0 < used ∧ h.dstart nbuf + used ≤ nbuf.addr + h.buflen nbuf) then .ret () else .fault

def bufClone (kmalloc : Kmalloc) (fuel : Nat) (h : Heap) (buf : Ptr) (atomic : Bool) : Outcome (Ptr × Heap) :=
  let len := BitVec.ofInt 32 (h.dstart buf - (buf.addr + SIZEOF_BUF))
  (bufAlloc kmalloc fuel h (BitVec.ofInt 32 (h.buflen buf - SIZEOF_BUF)) len atomic).bind fun (nbuf, h) =>
    if nbuf = .null then .ret (.null, h)
    else
      let used := long (h.dend buf - h.dstart buf)
      (copyInto h nbuf used).bind fun _ =>
        .ret (nbuf, { h with
          dend := Function.update h.dend nbuf (add32 (h.dend nbuf) (BitVec.ofInt 32 used).toNat)
          info := Function.update h.info nbuf (h.info buf) })

-- nspace: the space asked for in the two modes.
def reserveSpace (h : Heap) (buf : Ptr) (reserve : BitVec 32) (atEnd : Bool) : Int :=
  if atEnd then long (h.dend buf - (buf.addr + SIZEOF_BUF) + reserve.toInt)
  else long (buf.addr + h.buflen buf - h.dstart buf + reserve.toInt)

-- What the new buffer keeps free before its data.
def reserveLead (h : Heap) (buf : Ptr) (reserve : BitVec 32) (atEnd : Bool) : BitVec 32 :=
  if atEnd then BitVec.ofInt 32 (h.dstart buf - (buf.addr + SIZEOF_BUF)) else reserve

def bufReserve (kmalloc : Kmalloc) (fuel : Nat) (h : Heap) (buf : Ptr) (reserve : BitVec 32) (atEnd : Bool) :
    Outcome (Ptr × Heap) :=
  let reserve := roundReserve reserve
  let nspace := reserveSpace h buf reserve atEnd
  let ospace : Int := h.buflen buf - SIZEOF_BUF
  if nspace ≤ ospace then .ret (buf, h)
  else
    let used := long (h.dend buf - h.dstart buf)
    (bufAlloc kmalloc fuel h (BitVec.ofInt 32 nspace) (reserveLead h buf reserve atEnd) false).bind fun (nbuf, h) =>
      if nbuf = .null then .ret (.null, h)
      else
        (copyInto h nbuf used).bind fun _ =>
          let h := { h with
            dend := Function.update h.dend nbuf (add32 (h.dstart nbuf) (BitVec.ofInt 32 used).toNat)
            info := Function.update h.info nbuf (h.info buf) }
          .ret (nbuf, bufDeref h buf)

end MagxNet.Buf
