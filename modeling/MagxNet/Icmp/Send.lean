import MagxNet.Buf.Copies
import MagxNet.Chksum.Recheck
import MagxNet.Lib.Bytes
import MagxNet.Route.Ip

set_option autoImplicit false

namespace MagxNet.Icmp

open Bytes (Byte Buffer peek poke get8 get32 put16)
open Buf (Heap Kmalloc Ptr bufCloneBytes bufDeref bufReserveBytes memcpy)
open Ip (ipHdrlen iphDaddr)
open Route (IcmpType InAddr Netifs icmpDontsend ipIsBrdcstAddr ipIsLocalAddr INADDR_ANY INADDR_LOOPBACK)

def icmptByte : IcmpType → Byte
  | .echorp => 0
  | .dstur => 3
  | .srcq => 4
  | .redir => 5
  | .echorq => 8
  | .timex => 11
  | .paramp => 12
  | .timerq => 13
  | .timerp => 14
  | .inforq => 15
  | .inforp => 16
  | .maskrq => 17
  | .maskrp => 18

-- ip_local_addr asks the routing table.
structure SendEnv where
  ifs : Netifs
  ipLocalAddr : InAddr → InAddr
  kmalloc : Kmalloc
  build : Chksum.Build

-- A buffer that ip_send was given, with its reference, and what it held then.
structure Sent where
  buf : Nat
  saddr : InAddr
  daddr : InAddr
  message : Buffer

structure Net where
  heap : Heap
  mem : Buf.Memory
  sent : List Sent

def Net.dstart (net : Net) (buf : Nat) : Nat := net.heap.dstart (.mem buf)
def Net.dend (net : Net) (buf : Nat) : Nat := net.heap.dend (.mem buf)

def Net.setDstart (net : Net) (buf start : Nat) : Net :=
  { net with heap.dstart := Function.update net.heap.dstart (.mem buf) start }

def Net.setDend (net : Net) (buf stop : Nat) : Net :=
  { net with heap.dend := Function.update net.heap.dend (.mem buf) stop }

-- The bytes between dstart and dend, and those that are read as the IP header.
def Net.data (net : Net) (buf : Nat) : Buffer := peek net.mem (net.dstart buf) (net.dend buf - net.dstart buf)
def Net.iph (net : Net) (buf : Nat) : Buffer := peek net.mem (net.dstart buf) Ip.IP_MINLEN

def ipData (net : Net) (buf : Nat) : Nat := net.dstart buf + ipHdrlen (net.iph buf)

def ipSend (saddr daddr : InAddr) (buf : Nat) (net : Net) : Net :=
  { net with sent := net.sent ++ [⟨buf, saddr, daddr, net.data buf⟩] }

def Net.deref (net : Net) (buf : Nat) : Net := { net with heap := bufDeref net.heap (.mem buf) }

def derefOptional (net : Net) : Option Nat → Net
  | some buf => net.deref buf
  | none => net

-- The first 64 bits of the datagram stay behind its header, and 8 bytes are made in front of it.
def reserveHeader (kmalloc : Kmalloc) (fuel : Nat) (buf1 : Nat) (net : Net) : Outcome (Option Nat × Net) :=
  let net := net.setDend buf1 (ipData net buf1 + 8)
  (bufReserveBytes kmalloc fuel net.heap net.mem (.mem buf1) 8 false).bind fun
    | (.mem nbuf, heap, mem) =>
        let net := { net with heap := heap, mem := mem }
        .ret (some nbuf, net.setDstart nbuf (net.dstart nbuf - 8))
    | (_, heap, mem) => .ret (none, { net with heap := heap, mem := mem })

def doSend (kmalloc : Kmalloc) (fuel : Nat) (type : IcmpType) (buf1 : Nat) (buf2 : Option Nat) (net : Net) :
    Outcome (Option Nat × Net) :=
  match type with
  | .echorp | .timerp | .inforp | .maskrp => .ret (some buf1, net.setDstart buf1 (ipData net buf1))
  | .dstur | .timex =>
      (reserveHeader kmalloc fuel buf1 net).bind fun
        | (some nbuf, net) => .ret (some nbuf, { net with mem := poke net.mem (net.dstart nbuf + 4) [0, 0, 0, 0] })
        | (none, net) => .ret (none, net)
  | .redir =>
      (reserveHeader kmalloc fuel buf1 net).bind fun
        | (some nbuf, net) =>
            match buf2 with
            | some gwbuf => .ret (some nbuf, { net with mem := memcpy net.mem (net.dstart nbuf + 4) (net.dstart gwbuf) 4 })
            | none => .fault
        | (none, net) => .ret (none, net)
  | _ => .ret (none, net)

-- datalen is a short.
def sumWords (datalen : BitVec 16) : BitVec 16 := BitVec.ofInt 16 ((datalen.toInt + 1) >>> (1 : Nat))

def fillHeader (build : Chksum.Build) (type : IcmpType) (code : BitVec 16) (nbuf : Nat) (net : Net) : Net :=
  let icmph := net.dstart nbuf
  let mem := poke net.mem icmph [icmptByte type, code.truncate 8, 0, 0]
  let datalen := BitVec.ofNat 16 (net.dend nbuf - icmph)
  let mem := if datalen.getLsbD 0 then poke mem (net.dend nbuf) [0] else mem
  let sum := Chksum.chksum build (peek mem icmph (2 * (sumWords datalen).toNat)) (sumWords datalen)
  { net with mem := poke mem (icmph + 2) [sum.extractLsb' 8 8, sum.extractLsb' 0 8] }

-- A message to a broadcast address is reflected to the local system, as it is up to here.
def reflect (env : SendEnv) (fuel : Nat) (saddr daddr : InAddr) (nbuf : Nat) (net : Net) : Outcome Net :=
  if ipIsBrdcstAddr env.ifs daddr then
    (bufCloneBytes env.kmalloc fuel net.heap net.mem (.mem nbuf) false).bind fun
      | (.mem clone, heap, mem) => .ret (ipSend saddr INADDR_LOOPBACK clone { net with heap := heap, mem := mem })
      | (_, heap, mem) => .ret { net with heap := heap, mem := mem }
  else .ret net

def icmpSource (env : SendEnv) (dst : InAddr) : InAddr :=
  let saddr := if ipIsBrdcstAddr env.ifs dst then env.ipLocalAddr dst else dst
  if ipIsLocalAddr env.ifs saddr then saddr else INADDR_ANY

def icmpSend (env : SendEnv) (fuel : Nat) (type : IcmpType) (code : BitVec 16) (daddr : InAddr) (buf1 : Nat) (buf2 : Option Nat)
    (net : Net) : Outcome Net :=
  if icmpDontsend env.ifs type (net.iph buf1) then .ret (derefOptional (net.deref buf1) buf2)
  else
    let saddr := icmpSource env (iphDaddr (net.iph buf1))
    (doSend env.kmalloc fuel type buf1 buf2 net).bind fun
      | (none, net) => .ret (derefOptional (net.deref buf1) buf2)
      | (some nbuf, net) =>
          (reflect env fuel saddr daddr nbuf net).bind fun net =>
            .ret (derefOptional (ipSend saddr daddr nbuf (fillHeader env.build type code nbuf net)) buf2)

end MagxNet.Icmp
