import MagxNet.Lib.Bytes
import MagxNet.Lib.Buckets

set_option autoImplicit false

namespace MagxNet.Arp

open Bytes (Byte Buffer get8 get16 get32 put16 copyBytes)
open Buckets (insert unlink)

def ARP_RETRIES : Nat := 4
def ARP_HASHSIZE : Nat := 47
def IF_MAXQ : Nat := 60
def ARPRTYPE_IP : BitVec 16 := 0x0800
def AROP_ARPREQ : BitVec 16 := 1
def AROP_ARPREP : BitVec 16 := 2
def AROP_RARPREQ : BitVec 16 := 3
def AROP_RARPREP : BitVec 16 := 4
def HWTYPE_ETH : BitVec 16 := 1
def HWTYPE_NONE : BitVec 16 := 200
def AF_INET : BitVec 16 := 2
def AF_LINK : BitVec 16 := 200

-- sizeof (hwaddr.adr.bytes) and sizeof (struct arp_dgram).
def ADR_SIZE : Nat := 10
def ARP_HLEN : Nat := 8

-- The code takes EINVAL for ENOSYS.
def EINVAL : Int := -32
def ENOSYS : Int := -32
def ENOENT : Int := -33
def EACCES : Int := -36
def ENOMEM : Int := -39
def EAFNOSUPPORT : Int := -309
def ENETUNREACH : Int := -313

structure Hwaddr where
  len : Nat
  bytes : Buffer
deriving DecidableEq, Repr

structure Flags where
  prcom : Bool
  hwcom : Bool
  perm : Bool
  publ : Bool
  norarp : Bool
deriving DecidableEq, Repr

-- tmout says whether the event is set. The packets of outq are numbered; they all have the same priority.
structure Entry where
  links : Nat
  flags : Flags
  hwtype : BitVec 16
  prtype : BitVec 16
  praddr : Hwaddr
  hwaddr : Hwaddr
  nif : Nat
  outq : List Nat
  tmout : Bool
  retries : Nat
deriving DecidableEq, Repr

-- ATF_ISCOM
def isCom (are : Entry) : Bool := are.flags.prcom && are.flags.hwcom

-- up says that the interface is up and running. myaddr is the memory from its address on. A hardware address fits.
structure Netif where
  up : Bool
  noarp : Bool
  hwtype : BitVec 16
  hwlocal : Hwaddr
  hwbrcst : Hwaddr
  myaddr : Option Buffer
  fits : hwlocal.len ≤ ADR_SIZE

structure Route where
  nif : Nat
  gateway : Bool

-- What a call finds outside of the cache: the interfaces, whether kmalloc and buf_alloc have memory, what is
-- left in an entry that is freed and on the stack, the caller's user, the routes and what output returns. gnuc is
-- for the compiler, which arp_lookup depends on.
structure Env where
  nif : Nat → Netif
  kmalloc : Bool
  bufAlloc : Bool
  junk : Nat → Entry
  stack : Buffer
  root : Bool
  route : Buffer → Option Route
  output : Int
  gnuc : Bool

inductive Fate where
  | sent (nif : Nat) (hwaddr : Buffer) (hwlen : Nat)
  | direct (nif : Nat) (hwaddr : Buffer) (hwlen : Nat)
  | full
  | ifDown
  | freed
deriving DecidableEq, Repr

-- What became of a packet, and the entry that it was for.
structure Done where
  packet : Nat
  are : Nat
  fate : Fate
deriving DecidableEq, Repr

structure Frame where
  nif : Nat
  dgram : Buffer
  hwaddr : Buffer
  hwlen : Nat
  rarp : Bool
deriving DecidableEq, Repr

-- Entries are numbered in the order of their allocation, packets in that of their coming. events is
-- the chain of the timer, held the references that callers of arp_lookup have. The others are records: dest of
-- the entry that each packet was for, done of what became of it, wire of the ARP datagrams that interfaces were
-- given, and stale of freed entries that were used.
structure Cache where
  entry : Nat → Entry
  live : Nat → Bool
  allocs : Nat
  arptab : Nat → List Nat
  rarptab : Nat → List Nat
  events : List Nat
  held : List Nat
  dest : List Nat
  done : List Done
  wire : List Frame
  stale : List Nat

def Cache.setEntry (s : Cache) (are : Nat) (e : Entry) : Cache := { s with entry := Function.update s.entry are e }

-- Every function that follows a pointer to an entry does so through this one.
def use (s : Cache) (are : Nat) : Cache := if s.live are then s else { s with stale := s.stale ++ [are] }

-- A length of 32 bits or more shifts everything out.
def arpHash (addr : Buffer) (len : Nat) : Nat :=
  let v := get32 addr 0
  let v := if len < 4 then v >>> (32 - 8 * len) else v
  v.toNat % 65536 % ARP_HASHSIZE

def prHash (e : Entry) : Nat := arpHash e.praddr.bytes e.praddr.len

def hwHash (e : Entry) : Nat := arpHash e.hwaddr.bytes e.hwaddr.len

def memcpy (dst src : Buffer) (n : Nat) : Buffer := copyBytes src 0 n ++ dst.drop n

def eventDel (s : Cache) (are : Nat) : Cache :=
  if (s.entry are).tmout then
    { s with events := s.events.erase are }.setEntry are { s.entry are with tmout := false }
  else s

-- The chain is kept in the order of the times; which event is the next one is left open here.
def eventAdd (s : Cache) (are : Nat) : Cache :=
  let s := if (s.entry are).tmout then { s with events := s.events.erase are } else s
  { s with events := s.events ++ [are] }.setEntry are { s.entry are with tmout := true }

-- What a loop over a chain looks at, up to the entry that it stops at.
def walk (stop : Nat → Bool) : List Nat → Cache → Cache × Option Nat
  | [], s => (s, none)
  | curr :: next, s => if stop curr then (use s curr, some curr) else walk stop next (use s curr)

-- if_flushq, and the loop over if_dequeue: the packets go in the order in which they were put on the queue.
def drainq (s : Cache) (are : Nat) (fate : Fate) : Cache :=
  { s with done := s.done ++ (s.entry are).outq.map (Done.mk · are fate) }.setEntry are { s.entry are with outq := [] }

-- The loops of arp_flush over one chain; what is unlinked is dereferenced before the walk goes on.
def flushChain (drop : Cache → Nat → Cache) (nif : Nat) : List Nat → Cache → Cache
  | [], s => s
  | curr :: next, s =>
      let s := use s curr
      if (s.entry curr).nif = nif then flushChain drop nif next (drop s curr) else flushChain drop nif next s

section

variable (env : Env)

def arpFree (s : Cache) (are : Nat) : Cache :=
  let s := use s are
  let s := drainq s are .freed
  let s := eventDel s are
  { s with live := Function.update s.live are false }.setEntry are (env.junk are)

def decLinks (e : Entry) : Entry := { e with links := (e.links + 65535) % 65536 }

def incLinks (e : Entry) : Entry := { e with links := (e.links + 1) % 65536 }

-- links is an unsigned short.
def arpDeref (s : Cache) (are : Nat) : Cache :=
  let s := use s are
  let s := s.setEntry are (decLinks (s.entry are))
  if (s.entry are).links = 0 then arpFree env s are else s

-- Out of the chain, and its reference with it.
def dropPr (i : Nat) (s : Cache) (are : Nat) : Cache := arpDeref env { s with arptab := unlink s.arptab i are } are

def dropHw (i : Nat) (s : Cache) (are : Nat) : Cache := arpDeref env { s with rarptab := unlink s.rarptab i are } are

def arpRemove (s : Cache) (are : Nat) : Cache :=
  let s := use s are
  if (s.entry are).flags.prcom then
    let idx := prHash (s.entry are)
    match walk (· = are) (s.arptab idx) s with
    | (s, some _) => dropPr env idx s are
    | (s, none) => s
  else s

def rarpRemove (s : Cache) (are : Nat) : Cache :=
  let s := use s are
  if (s.entry are).flags.hwcom then
    let idx := hwHash (s.entry are)
    match walk (· = are) (s.rarptab idx) s with
    | (s, some _) => dropHw env idx s are
    | (s, none) => s
  else s

def rarpPut (s : Cache) (are : Nat) : Cache :=
  let s := use s are
  let s := s.setEntry are (incLinks (s.entry are))
  { s with rarptab := insert s.rarptab (hwHash (s.entry are)) are }

def flushChains (nif : Nat) (s : Cache) (i : Nat) : Cache :=
  let s := flushChain (dropPr env i) nif (s.arptab i) s
  flushChain (dropHw env i) nif (s.rarptab i) s

def arpFlush (nif : Nat) (s : Cache) : Cache := (List.range ARP_HASHSIZE).foldl (flushChains env nif) s

def arpMyaddr (nif : Nat) (type : BitVec 16) : Option Buffer := if type = ARPRTYPE_IP then (env.nif nif).myaddr else none

def arpDosend (s : Cache) (frame : Frame) : Cache :=
  if (env.nif frame.nif).up then { s with wire := s.wire ++ [frame] } else s

def be16 (value : BitVec 16) : Buffer := [value.extractLsb' 8 8, value.extractLsb' 0 8]

def arpRequest (e : Entry) (myaddr : Buffer) : Buffer :=
  be16 e.hwtype ++ be16 e.prtype ++ [BitVec.ofNat 8 e.hwaddr.len, BitVec.ofNat 8 e.praddr.len] ++ be16 AROP_ARPREQ
    ++ copyBytes (env.nif e.nif).hwlocal.bytes 0 e.hwaddr.len ++ copyBytes myaddr 0 e.praddr.len
    ++ copyBytes (env.nif e.nif).hwbrcst.bytes 0 e.hwaddr.len ++ copyBytes e.praddr.bytes 0 e.praddr.len

-- When the retries are over, rarp_remove gets the entry that arp_remove may have freed.
def arpSendreq (s : Cache) (are : Nat) : Cache :=
  let s := use s are
  let s := s.setEntry are { s.entry are with retries := ((s.entry are).retries + 1) % 65536 }
  let e := s.entry are
  if ARP_RETRIES < e.retries then rarpRemove env (arpRemove env s are) are
  else
    match arpMyaddr env e.nif e.prtype with
    | none => s
    | some myaddr =>
        if env.bufAlloc then
          arpDosend env (eventAdd (eventDel s are) are)
            ⟨e.nif, arpRequest env e myaddr, (env.nif e.nif).hwbrcst.bytes, e.hwaddr.len, false⟩
        else s

def arpTimeout (s : Cache) (are : Nat) : Cache :=
  let s := use s are
  if isCom (s.entry are) then
    if (s.entry are).flags.perm then s else rarpRemove env (arpRemove env s are) are
  else if (s.entry are).flags.prcom then arpSendreq env s are
  else s

-- check_events takes the event from its chain first.
def expire (s : Cache) (are : Nat) : Cache :=
  let s := use s are
  let s := { s with events := s.events.erase are }.setEntry are { s.entry are with tmout := false }
  arpTimeout env s are

end

end MagxNet.Arp
