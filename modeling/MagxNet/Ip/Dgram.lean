import MagxNet.Lib.Outcome
import MagxNet.Buf.Heap

set_option autoImplicit false

namespace MagxNet.Ip

open Bytes

-- struct ip_dgram without options.
def IP_MINLEN : Nat := 20
def IP_VERSION : Nat := 4

def IP_MF : BitVec 16 := 0x2000
def IP_DF : BitVec 16 := 0x4000
def IP_FRAGOFF : BitVec 16 := 0x1fff

def iphVersion (iph : Buffer) : Nat := (get8 iph 0).toNat / 16
def iphHdrlen (iph : Buffer) : Nat := (get8 iph 0).toNat % 16
def iphLength (iph : Buffer) : BitVec 16 := get16 iph 2
def iphId (iph : Buffer) : BitVec 16 := get16 iph 4
def iphFragoff (iph : Buffer) : BitVec 16 := get16 iph 6
def iphProto (iph : Buffer) : BitVec 8 := get8 iph 9
def iphSaddr (iph : Buffer) : BitVec 32 := get32 iph 12
def iphDaddr (iph : Buffer) : BitVec 32 := get32 iph 16

-- The header length in bytes: IPH_HDRLEN times sizeof(long).
def ipHdrlen (iph : Buffer) : Nat := iphHdrlen iph * 4

def setHdrlen (iph : Buffer) (hdrlen : Nat) : Buffer :=
  put8 iph 0 (BitVec.ofNat 8 ((get8 iph 0).toNat / 16 * 16 + hdrlen % 16))
def setLength (iph : Buffer) (length : Nat) : Buffer := put16 iph 2 (BitVec.ofNat 16 length)
def setFragoff (iph : Buffer) (fragoff : BitVec 16) : Buffer := put16 iph 6 fragoff
def setChksum (iph : Buffer) (sum : BitVec 16) : Buffer := put16 iph 10 sum

-- add and addx: the carry out of the addition is added in again.
def addCarry {w : Nat} (x y : BitVec w) : BitVec w :=
  x + y + BitVec.ofNat w ((x.toNat + y.toNat) / 2 ^ w)

def sumLongs (buf : Buffer) : Nat → Nat → BitVec 32 → BitVec 32
  | _, 0, sum => sum
  | at_, n + 1, sum => sumLongs buf (at_ + 4) n (addCarry sum (get32 buf at_))

-- chksum in chksum.s: an odd word first, then longs, then the two halves are folded.
def chksum (buf : Buffer) (nwords : Nat) : BitVec 16 :=
  let odd := nwords % 2 = 1
  let first : BitVec 32 := if odd then (addCarry 0 (get16 buf 0)).zeroExtend 32 else 0
  let sum := sumLongs buf (if odd then 2 else 0) (nwords / 2) first
  ~~~addCarry (sum.extractLsb' 0 16) (sum.extractLsb' 16 16)

def fillChksum (iph : Buffer) (nwords : Nat) : Buffer :=
  let cleared := setChksum iph 0
  setChksum cleared (chksum cleared nwords)

-- The checks of ip_input that come before any processing. Lengths are compared as shorts.
def ipInputAccepts (bytes : Buffer) : Bool :=
  let pktlen := (BitVec.ofNat 16 bytes.length).toInt
  decide ((IP_MINLEN : Int) ≤ pktlen) && decide (pktlen = (iphLength bytes).toInt) &&
    decide (chksum bytes (iphHdrlen bytes * 2) = 0) && decide (iphVersion bytes = IP_VERSION)

def payload (dgram : Buffer) : Buffer := dgram.drop (ipHdrlen dgram)
def fragOffset (dgram : Buffer) : Nat := (iphFragoff dgram &&& IP_FRAGOFF).toNat
def moreFrags (dgram : Buffer) : Bool := decide (iphFragoff dgram &&& IP_MF ≠ 0)

def ENOMEM : Int := -39
-- The code takes EINVAL for ENOSYS.
def EINVAL : Int := -32
def EOPNOTSUPP : Int := -307

def ICMPT_DSTUR : Nat := 3
def ICMPT_TIMEX : Nat := 11
def ICMPC_FNDF : Nat := 4
def ICMPC_FRAGEX : Nat := 1

-- A BUF as the IP layer sees it: the bytes from dstart to dend, the priority in info, and the name
-- under which its release is recorded.
structure IpBuf where
  id : Nat
  bytes : Buffer
  info : Int
deriving DecidableEq, Repr

-- What the rest of the kernel answers: whether memory is found for a buffer of acceptable size, and
-- the result of the interface's output function. Both may depend on how many calls came before.
structure Oracle where
  memory : Nat → Bool
  ifSend : Nat → Int

inductive Release where
  | deref (id : Nat)
  | icmp (type code : Nat) (daddr : BitVec 32) (id : Nat)
deriving DecidableEq, Repr

structure IpNet where
  calls : Nat
  sent : List Buffer
  released : List Release
deriving DecidableEq, Repr

def IpNet.init : IpNet := ⟨0, [], []⟩

def bufDeref (net : IpNet) (buf : IpBuf) : IpNet :=
  { net with released := net.released ++ [.deref buf.id] }

-- icmp_send answers with an error message built around the buffer, or releases it.
def icmpSend (net : IpNet) (type code : Nat) (daddr : BitVec 32) (buf : IpBuf) : IpNet :=
  { net with released := net.released ++ [.icmp type code daddr buf.id] }

def bufAlloc (oracle : Oracle) (net : IpNet) (size : BitVec 32) : Option IpBuf × IpNet :=
  if Buf.tooBig size then (none, net)
  else if oracle.memory net.calls then
    (some ⟨net.calls, [], 0⟩, { net with calls := net.calls + 1 })
  else (none, { net with calls := net.calls + 1 })

-- if_send takes the buffer over, whatever it returns.
def ifSend (oracle : Oracle) (net : IpNet) (buf : IpBuf) : Int × IpNet :=
  (oracle.ifSend net.calls, { net with calls := net.calls + 1, sent := net.sent ++ [buf.bytes] })

@[simp] theorem buf_deref_sent (net : IpNet) (buf : IpBuf) : (bufDeref net buf).sent = net.sent := rfl

@[simp] theorem icmp_send_sent (net : IpNet) (type code : Nat) (daddr : BitVec 32) (buf : IpBuf) :
    (icmpSend net type code daddr buf).sent = net.sent := rfl

@[simp] theorem if_send_sent (oracle : Oracle) (net : IpNet) (buf : IpBuf) :
    (ifSend oracle net buf).2.sent = net.sent ++ [buf.bytes] := rfl

theorem buf_alloc_some (oracle : Oracle) (net net' : IpNet) (size : BitVec 32) (buf : IpBuf)
    (granted : bufAlloc oracle net size = (some buf, net')) :
    buf.bytes = [] ∧ net'.sent = net.sent ∧ Buf.tooBig size = false := by
  unfold bufAlloc at granted
  split at granted
  · cases granted
  · split at granted
    · cases granted
      exact ⟨rfl, rfl, by simpa using ‹¬ Buf.tooBig size = true›⟩
    · cases granted

theorem buf_alloc_none (oracle : Oracle) (net net' : IpNet) (size : BitVec 32)
    (refused : bufAlloc oracle net size = (none, net')) : net'.sent = net.sent := by
  unfold bufAlloc at refused
  split at refused
  · cases refused; rfl
  · split at refused <;> cases refused
    rfl

-- A kernel that never runs out of memory and whose interface takes every datagram.
def Oracle.willing : Oracle := ⟨fun _ => true, fun _ => 0⟩

theorem buf_alloc_willing (net : IpNet) (size : BitVec 32) (fits : Buf.tooBig size = false) :
    bufAlloc .willing net size = (some ⟨net.calls, [], 0⟩, { net with calls := net.calls + 1 }) := by
  simp [bufAlloc, fits, Oracle.willing]

end MagxNet.Ip
