import MagxNet.Ip.Dgram
import MagxNet.Tcp.Demux

set_option autoImplicit false

namespace MagxNet.Icmp

open Bytes (Byte get8 get16)
open Ip (ipHdrlen iphProto iphSaddr iphDaddr chksum)
open Tcp (World InData IcmpError inDataLookup boundHere fromPeer tcpError INADDR_ANY)

def ICMPT_DSTUR : Byte := 3
def ICMPC_PROTOUR : Int := 2
def ICMPC_FNDF : Int := 4
def ICMPT_SRCQ : Byte := 4
def ICMPT_TIMEX : Byte := 11
def ICMPT_PARAMP : Byte := 12

def IPPROTO_TCP : Byte := 6
def IPPROTO_UDP : Byte := 17

def EINTERNAL : Int := -65
def ENOPROTOOPT : Int := -304
def EOPNOTSUPP : Int := -307
def ENETUNREACH : Int := -313
def EHOSTUNREACH : Int := -323

def icmpErrors : List Int := [ENETUNREACH, EHOSTUNREACH, ENOPROTOOPT, Tcp.ECONNREFUSED, EOPNOTSUPP, EOPNOTSUPP]

-- What the kernel's memory holds besides: the bytes behind the message, the word behind icmp_errors, and whether the
-- message can be cloned, into a buffer with that number.
structure Memory where
  behind : Nat → Byte
  entry : Int
  clone : Bool
  id : Nat

structure Kernel where
  tcp : List World
  udp : List InData

-- The bytes of the message and the entries of icmp_errors that were looked at.
structure Reads where
  bytes : List Nat
  table : List Nat

def byteAt (m : Memory) (msg : List Byte) (i : Nat) : Byte := if i < msg.length then get8 msg i else m.behind i

def portAt (m : Memory) (msg : List Byte) (i : Nat) : BitVec 16 := byteAt m msg i ++ byteAt m msg (i + 1)

-- datalen is a short.
def datalen (msg : List Byte) : Int := (BitVec.ofNat 16 (msg.length - ipHdrlen msg)).toInt

def nwords (msg : List Byte) : Nat := (BitVec.ofInt 16 ((datalen msg + 1) >>> (1 : Nat))).toNat

def padded (msg : List Byte) (i : Nat) : Prop := datalen msg % 2 = 1 ∧ i = msg.length

instance (msg : List Byte) (i : Nat) : Decidable (padded msg i) := inferInstanceAs (Decidable (_ ∧ _))

-- The words that are summed up; an odd byte is made even with a zero behind it.
def summed (m : Memory) (msg : List Byte) : List Byte :=
  (List.range (2 * nwords msg)).map fun i =>
    if padded msg (ipHdrlen msg + i) then 0 else byteAt m msg (ipHdrlen msg + i)

def sumReads (msg : List Byte) : List Nat :=
  ((List.range (2 * nwords msg)).map (ipHdrlen msg + ·)).filter fun i => ¬ padded msg i

def icmphType (m : Memory) (msg : List Byte) : Byte := byteAt m msg (ipHdrlen msg)

-- A char, which is signed.
def icmphCode (m : Memory) (msg : List Byte) : Int := (byteAt m msg (ipHdrlen msg + 1)).toInt

def icmpErrno (m : Memory) (type : Byte) (code : Int) : Int :=
  if type ≠ ICMPT_DSTUR then EOPNOTSUPP
  else if (BitVec.ofInt 16 code).toNat > icmpErrors.length then EINTERNAL
  else icmpErrors.getD (BitVec.ofInt 16 code).toNat m.entry

def errnoReads (type : Byte) (code : Int) : List Nat :=
  if type ≠ ICMPT_DSTUR then []
  else if (BitVec.ofInt 16 code).toNat > icmpErrors.length then []
  else [(BitVec.ofInt 16 code).toNat]

-- The header of the packet that the message is about, and where its ports are.
def quoteStart (msg : List Byte) : Nat := ipHdrlen msg + 8

def quote (msg : List Byte) : List Byte := msg.drop (quoteStart msg)

def portsStart (msg : List Byte) : Nat := quoteStart msg + ipHdrlen (quote msg)

structure Quoted where
  saddr : BitVec 32
  sport : BitVec 16
  daddr : BitVec 32
  dport : BitVec 16

def quoted (m : Memory) (msg : List Byte) : Quoted where
  saddr := iphSaddr (quote msg)
  sport := portAt m msg (portsStart msg)
  daddr := iphDaddr (quote msg)
  dport := portAt m msg (portsStart msg + 2)

-- in_data_lookup over in_datas, with the position of the one that is found.
def lookupLoop (q : Quoted) : List InData → Nat → Option (Nat × InData) → Option (Nat × InData) → Option (Nat × InData)
  | [], _, deflt, dead => deflt <|> dead
  | d :: rest, i, deflt, dead =>
      if boundHere q.saddr q.sport d then
        if d.isconnected then
          if fromPeer q.daddr q.dport d then
            if d.dead then lookupLoop q rest (i + 1) deflt (some (i, d)) else some (i, d)
          else lookupLoop q rest (i + 1) deflt dead
        else if deflt.all fun found => decide (found.2.saddr = INADDR_ANY) then
          lookupLoop q rest (i + 1) (some (i, d)) dead
        else lookupLoop q rest (i + 1) deflt dead
      else lookupLoop q rest (i + 1) deflt dead

def lookup (q : Quoted) (datas : List InData) : Option (Nat × InData) := lookupLoop q datas 0 none none

-- What the packet that came back would have been looked up with, source and destination changed over.
def tcpFound (m : Memory) (k : Kernel) (msg : List Byte) : Option (Nat × World) :=
  inDataLookup (quoted m msg).daddr (quoted m msg).dport (quoted m msg).saddr (quoted m msg).sport k.tcp

def udpFound (m : Memory) (k : Kernel) (msg : List Byte) : Option (Nat × InData) := lookup (quoted m msg) k.udp

def icmpErrorOf (m : Memory) (type : Byte) (code : Int) : IcmpError :=
  if type = ICMPT_SRCQ then .sourceQuench
  else if type = ICMPT_DSTUR ∧ ICMPC_PROTOUR ≤ code ∧ code ≤ ICMPC_FNDF then .hard (icmpErrno m type code)
  else .soft (icmpErrno m type code)

-- icmp_errno is called unless it is a source quench, or a soft error for a socket that is gone.
def tcpErrnoReads (w : World) (type : Byte) (code : Int) : List Nat :=
  if type = ICMPT_SRCQ then []
  else if type = ICMPT_DSTUR ∧ ICMPC_PROTOUR ≤ code ∧ code ≤ ICMPC_FNDF then errnoReads type code
  else if w.data.sock.isSome then errnoReads type code
  else []

def portReads (msg : List Byte) : List Nat :=
  [portsStart msg, portsStart msg + 1, portsStart msg + 2, portsStart msg + 3]

def tcpReport (m : Memory) (k : Kernel) (msg : List Byte) : Kernel × Reads :=
  match tcpFound m k msg with
  | none => (k, ⟨portReads msg, []⟩)
  | some (i, w) =>
      ({ k with tcp := k.tcp.set i (tcpError w m.id (icmpErrorOf m (icmphType m msg) (icmphCode m msg))) },
        ⟨portReads msg, tcpErrnoReads w (icmphType m msg) (icmphCode m msg)⟩)

def setErr (d : InData) (err : Int) : InData := { d with err := err }

def udpReport (m : Memory) (k : Kernel) (msg : List Byte) : Kernel × Reads :=
  match udpFound m k msg with
  | none => (k, ⟨portReads msg, []⟩)
  | some (i, d) =>
      if d.isconnected then
        ({ k with udp := k.udp.set i (setErr d (icmpErrno m (icmphType m msg) (icmphCode m msg))) },
          ⟨portReads msg, errnoReads (icmphType m msg) (icmphCode m msg)⟩)
      else (k, ⟨portReads msg, []⟩)

def quoteReads (msg : List Byte) : List Nat :=
  [ipHdrlen msg, ipHdrlen msg + 1] ++ (List.range 20).map (quoteStart msg + ·)

-- The error functions of the other protocols only free the buffer.
def report (m : Memory) (k : Kernel) (msg : List Byte) : Kernel × Reads :=
  if iphProto (quote msg) = IPPROTO_TCP then tcpReport m k msg
  else if iphProto (quote msg) = IPPROTO_UDP then udpReport m k msg
  else (k, ⟨[], []⟩)

def moreReads (bytes : List Nat) : Kernel × Reads → Kernel × Reads
  | (k, r) => (k, { r with bytes := bytes ++ r.bytes })

-- len is compared as an unsigned long.
def tooShort (msg : List Byte) : Bool := decide ((BitVec.ofInt 32 (datalen msg)).toNat < 8 + 20 + 2 * 4)

def doErreport (m : Memory) (k : Kernel) (msg : List Byte) : Kernel × Reads :=
  if tooShort msg then (k, ⟨[], []⟩)
  else if m.clone then moreReads (quoteReads msg) (report m k msg)
  else (k, ⟨[], []⟩)

def isError (type : Byte) : Bool :=
  decide (type = ICMPT_DSTUR) || decide (type = ICMPT_TIMEX) || decide (type = ICMPT_SRCQ) || decide (type = ICMPT_PARAMP)

-- icmp_input, as far as sockets go: no other message reaches one.
def icmpInput (m : Memory) (k : Kernel) (msg : List Byte) : Kernel × Reads :=
  if chksum (summed m msg) (nwords msg) ≠ 0 then (k, ⟨sumReads msg, []⟩)
  else if isError (icmphType m msg) then moreReads (sumReads msg ++ [ipHdrlen msg]) (doErreport m k msg)
  else (k, ⟨sumReads msg ++ [ipHdrlen msg], []⟩)

end MagxNet.Icmp
