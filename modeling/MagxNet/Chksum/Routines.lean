import MagxNet.Lib.Bytes
import MagxNet.Lib.M68k

set_option autoImplicit false

namespace MagxNet.Chksum

open Bytes M68k

-- The inline assembly of the GNU build, for either processor, and chksum.s for Pure-C.
inductive Build where
  | gnu
  | coldfire
  | purec
deriving DecidableEq, Repr

def IPPROTO_TCP : BitVec 16 := 6
def IPPROTO_UDP : BitVec 16 := 17

-- A byte moved into the high half of a word whose low half is cleared by the shift.
def highByte (byte : BitVec 8) : BitVec 16 := byte ++ 0#8

-- The pseudo IP header. The flag that the first addition finds is not looked at.
def pseudoGnu (proto : BitVec 16) (srcadr dstadr : BitVec 32) (len : BitVec 16) : Acc :=
  let sum : Acc := ⟨mvzw proto, false⟩
  addxw 0 (addxw len (addxl dstadr (addl srcadr sum)))

def pseudoColdfire (proto : BitVec 16) (srcadr dstadr : BitVec 32) (len : BitVec 16) : Acc :=
  let sum : Acc := ⟨mvzw proto, false⟩
  addxl 0 (addxl (mvzw len) (addxl dstadr (addl srcadr sum)))

def add16 (dgram : Buffer) (p : Nat) (sum : Acc) : Acc :=
  addxl (get32 dgram (p + 12)) (addxl (get32 dgram (p + 8)) (addxl (get32 dgram (p + 4)) (addxl (get32 dgram p) sum)))

-- dbra runs the loop once more than d1 counts, and leaves the flag as it is.
def loop16Gnu (dgram : Buffer) : Nat → Nat → Acc → Nat × Acc
  | 0, p, sum => (p + 16, add16 dgram p sum)
  | d1 + 1, p, sum => loop16Gnu dgram d1 (p + 16) (add16 dgram p sum)

def blocksGnu (dgram : Buffer) (len : BitVec 16) (sum : Acc) : Nat × Acc :=
  let d1 := len >>> 4
  if d1 = 0 then (0, sum)
  else
    let (p, sum) := loop16Gnu dgram (d1 - 1).toNat 0 { sum with x := false }
    (p, addxl 0 sum)

-- Here the count goes down by a subtraction, which sets the flag when it goes below zero.
def loop16Coldfire (dgram : Buffer) : Nat → Nat → Acc → Nat × Acc
  | 0, p, sum => (p + 16, { addxl 0 (add16 dgram p sum) with x := true })
  | d1 + 1, p, sum => loop16Coldfire dgram d1 (p + 16) { addxl 0 (add16 dgram p sum) with x := false }

def blocksColdfire (dgram : Buffer) (len : BitVec 16) (sum : Acc) : Nat × Acc :=
  let d1 := mvzw len >>> 4
  if d1 = 0 then (0, sum) else loop16Coldfire dgram (d1 - 1).toNat 0 { sum with x := false }

def loop4 (buf : Buffer) : Nat → Nat → Acc → Nat × Acc
  | 0, p, sum => (p + 4, addxl 0 (addl (get32 buf p) sum))
  | d1 + 1, p, sum => loop4 buf d1 (p + 4) (addxl 0 (addl (get32 buf p) sum))

def longs (dgram : Buffer) (len : BitVec 16) (p : Nat) (sum : Acc) : Nat × Acc :=
  let d1 := (len &&& 15) >>> 2
  if d1 = 0 then (p, sum) else loop4 dgram (d1 - 1).toNat p sum

def tailGnu (dgram : Buffer) (len : BitVec 16) (p : Nat) (sum : Acc) : Acc :=
  let (p, sum) := if len.getLsbD 1 then (p + 2, addxw 0 (addw (get16 dgram p) sum)) else (p, sum)
  if len.getLsbD 0 then addxw 0 (addw (highByte (get8 dgram p)) sum) else sum

def tailColdfire (dgram : Buffer) (len : BitVec 16) (p : Nat) (sum : Acc) : Acc :=
  let (p, sum) := if len.getLsbD 1 then (p + 2, addxl 0 (addl (mvzw (get16 dgram p)) sum)) else (p, sum)
  if len.getLsbD 0 then addxl 0 (addl (mvzw (highByte (get8 dgram p))) sum) else sum

-- Convert to short.
def foldGnu (sum : Acc) : BitVec 16 :=
  let d1 := swap sum.d
  ~~~lo (addxw 0 (addw (lo d1) sum)).d

def fold1 (sum : BitVec 32) : BitVec 32 :=
  let sum := swap sum
  let d1 := mvzw (lo sum)
  swap (clrw sum) + d1

def foldColdfire (sum : Acc) : BitVec 16 := ~~~lo (fold1 (fold1 sum.d))

def checksumGnu (proto : BitVec 16) (dgram : Buffer) (srcadr dstadr : BitVec 32) (len : BitVec 16) : BitVec 16 :=
  let sum := pseudoGnu proto srcadr dstadr len
  let (p, sum) := blocksGnu dgram len sum
  let (p, sum) := longs dgram len p sum
  foldGnu (tailGnu dgram len p sum)

def checksumColdfire (proto : BitVec 16) (dgram : Buffer) (srcadr dstadr : BitVec 32) (len : BitVec 16) : BitVec 16 :=
  let sum := pseudoColdfire proto srcadr dstadr len
  let (p, sum) := blocksColdfire dgram len sum
  let (p, sum) := longs dgram len p sum
  foldColdfire (tailColdfire dgram len p sum)

def loop2 (dgram : Buffer) : Nat → Nat → BitVec 32 → Nat × BitVec 32
  | 0, p, d0 => (p + 2, d0 + mvzw (get16 dgram p))
  | d1 + 1, p, d0 => loop2 dgram d1 (p + 2) (d0 + mvzw (get16 dgram p))

-- The common part of chksum.s: d0 and d1 hold the addresses, d2 protocol and length.
def tcp_chksum1 (dgram : Buffer) (d0 d1 d2 : BitVec 32) : BitVec 16 :=
  let low := addw (lo d0) ⟨d1, false⟩
  let high := addxw (lo low.d) ⟨swap (clrw d0), low.x⟩
  let d0 := (addxl (swap (clrw low.d)) high).d
  let d1 := mvzw (lo d2)
  let d0 := d0 + d1
  let d0 := d0 + swap (clrw d2)
  let d1 := d1.rotateRight 1
  let (p, d0) := if d1 = 0 then (0, d0) else loop2 dgram (lo d1 - 1).toNat 0 d0
  let d0 := if d1.msb then d0 + mvzw (highByte (get8 dgram p)) else d0
  let d2 := lo d0
  ~~~lo (addxw 0 (addw d2 ⟨swap (clrw d0), false⟩)).d

def tcp_checksum (build : Build) (dgram : Buffer) (srcadr dstadr : BitVec 32) (len : BitVec 16) : BitVec 16 :=
  match build with
  | .gnu => checksumGnu IPPROTO_TCP dgram srcadr dstadr len
  | .coldfire => checksumColdfire IPPROTO_TCP dgram srcadr dstadr len
  | .purec => tcp_chksum1 dgram srcadr dstadr (IPPROTO_TCP ++ len)

-- The length is that in the header of the datagram.
def udp_checksum (build : Build) (dgram : Buffer) (srcadr dstadr : BitVec 32) : BitVec 16 :=
  let len := get16 dgram 4
  match build with
  | .gnu => checksumGnu IPPROTO_UDP dgram srcadr dstadr len
  | .coldfire => checksumColdfire IPPROTO_UDP dgram srcadr dstadr len
  | .purec => tcp_chksum1 dgram srcadr dstadr (IPPROTO_UDP ++ len)

-- chksum.s goes through the same instructions as the GNU build for the 68000.
def chksumGnu (buf : Buffer) (nwords : BitVec 16) : BitVec 16 :=
  let d1 := nwords >>> 1
  let (p, sum) : Nat × Acc :=
    if nwords.getLsbD 0 then (2, addxw 0 (addw (get16 buf 0) ⟨0, false⟩)) else (0, ⟨0, false⟩)
  let d1 := d1 - 1
  let (_, sum) := if d1.msb then (p, sum) else loop4 buf d1.toNat p sum
  foldGnu sum

def chksumColdfire (buf : Buffer) (nwords : BitVec 16) : BitVec 16 :=
  let d1 := mvzw nwords >>> 1
  let (p, sum) : Nat × Acc :=
    if nwords.getLsbD 0 then (2, addxl 0 (addl (mvzw (get16 buf 0)) ⟨0, false⟩)) else (0, ⟨0, false⟩)
  let d1 := d1 - 1
  let (_, sum) := if d1.msb then (p, sum) else loop4 buf d1.toNat p sum
  foldColdfire sum

def chksum (build : Build) (buf : Buffer) (nwords : BitVec 16) : BitVec 16 :=
  match build with
  | .gnu | .purec => chksumGnu buf nwords
  | .coldfire => chksumColdfire buf nwords

-- What udp_send puts into the header, where zero stands for no checksum.
def udpField (sum : BitVec 16) : BitVec 16 := if sum = 0 then 0xffff else sum

end MagxNet.Chksum
