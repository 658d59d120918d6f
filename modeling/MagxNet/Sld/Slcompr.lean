import MagxNet.Chksum.Routines
import MagxNet.Ip.Dgram
import MagxNet.Lib.Lru
import MagxNet.Lib.Patch
import MagxNet.Sld.Slip

set_option autoImplicit false

namespace MagxNet.Sld.Slc

open Bytes Ip MagxNet.Sld.Slip

def MAX_STATES : Nat := 16
def MAX_HDR : Nat := 128

-- Bits in the first octet of a compressed packet.
def NEW_C : Byte := 0x40
def NEW_I : Byte := 0x20
def TCP_PUSH_BIT : Byte := 0x10
def NEW_S : Byte := 0x08
def NEW_A : Byte := 0x04
def NEW_W : Byte := 0x02
def NEW_U : Byte := 0x01
def SPECIAL_I : Byte := NEW_S ||| NEW_W ||| NEW_U
def SPECIAL_D : Byte := NEW_S ||| NEW_A ||| NEW_W ||| NEW_U
def SPECIALS_MASK : Byte := NEW_S ||| NEW_A ||| NEW_W ||| NEW_U

def TCPF_PSH : Byte := 0x08
def TCPF_URG : Byte := 0x20

-- struct cstate; cs_next is an index into tstate.
structure Cstate where
  next : Nat
  hlen : Nat
  id : Byte
  hdr : Buffer
deriving DecidableEq, Repr

-- struct slcompress without its counters. toss is SLF_TOSS, the only flag.
structure Slcompress where
  lastCs : Nat
  lastRecv : Byte
  lastXmit : Byte
  toss : Bool
  tstate : Nat → Cstate
  rstate : Nat → Cstate

def cstateInit (i : Nat) : Cstate :=
  ⟨if i = 0 then MAX_STATES - 1 else i - 1, 0, BitVec.ofNat 8 i, List.replicate MAX_HDR 0⟩

def slcInit : Slcompress where
  lastCs := 0
  lastRecv := 255
  lastXmit := 255
  toss := true
  tstate := cstateInit
  rstate _ := ⟨0, 0, 0, List.replicate MAX_HDR 0⟩

-- Where the TCP header begins, and the fields of the TCP header there.
def tcpAt (p : Buffer) : Nat := 4 * iphHdrlen p
def tcphHdrlen (p : Buffer) : Nat := (get8 p (tcpAt p + 12)).toNat / 16
def tcphSeq (p : Buffer) : BitVec 32 := get32 p (tcpAt p + 4)
def tcphAck (p : Buffer) : BitVec 32 := get32 p (tcpAt p + 8)
def tcphFlags (p : Buffer) : Byte := get8 p (tcpAt p + 13)
def tcphWindow (p : Buffer) : BitVec 16 := get16 p (tcpAt p + 14)
def tcphChksum (p : Buffer) : BitVec 16 := get16 p (tcpAt p + 16)
def tcphUrgptr (p : Buffer) : BitVec 16 := get16 p (tcpAt p + 18)

-- Both headers together.
def hdrLength (p : Buffer) : Nat := 4 * (iphHdrlen p + tcphHdrlen p)

-- BCOPY into cs_hdr.
def bcopy (p hdr : Buffer) (n : Nat) : Buffer := copyBytes p 0 n ++ hdr.drop n

-- The addresses and the ports, by which a connection is known.
def connOf (p : Buffer) : BitVec 32 × BitVec 32 × BitVec 32 := (get32 p 12, get32 p 16, get32 p (tcpAt p))

def hits (comp : Slcompress) (p : Buffer) (cs : Nat) : Bool := connOf p = connOf (comp.tstate cs).hdr

def setLastCs (comp : Slcompress) (cs : Nat) : Slcompress := { comp with lastCs := cs }

def setNext (comp : Slcompress) (next : Nat → Nat) : Slcompress :=
  { comp with tstate := fun i => { comp.tstate i with next := next i } }

def nextOf (comp : Slcompress) (i : Nat) : Nat := (comp.tstate i).next

-- The state for a packet, and whether it is the one of its connection; none when the search does not end.
def findState (comp : Slcompress) (p : Buffer) : Option (Slcompress × Nat × Bool) :=
  if hits comp p (nextOf comp comp.lastCs) then some (comp, nextOf comp comp.lastCs, true)
  else
    match Lru.seek (nextOf comp) (hits comp p) comp.lastCs MAX_STATES (nextOf comp comp.lastCs) with
    | none => none
    | some (lcs, cs, found) =>
        if found = false ∨ cs = comp.lastCs then some (setLastCs comp lcs, cs, found)
        else some (setNext comp (Lru.bring (nextOf comp) comp.lastCs lcs cs), cs, found)

def encode (n : BitVec 16) : Buffer :=
  if n.toNat ≥ 256 then [0, n.extractLsb' 8 8, n.extractLsb' 0 8] else [n.extractLsb' 0 8]

def encodez (n : BitVec 16) : Buffer :=
  if n.toNat ≥ 256 ∨ n = 0 then [0, n.extractLsb' 8 8, n.extractLsb' 0 8] else [n.extractLsb' 0 8]

-- What must not change: version, header lengths and service, fragmentation, time to live and protocol, and the options.
def sameShape (p h : Buffer) : Bool :=
  get16 p 0 = get16 h 0 && get16 p 6 = get16 h 6 && get16 p 8 = get16 h 8
    && (get8 p (tcpAt p + 12)).toNat / 16 = (get8 h (tcpAt p + 12)).toNat / 16
    && (iphHdrlen p ≤ 5 || copyBytes p 20 (tcpAt p - 20) = copyBytes h 20 (tcpAt p - 20))
    && (tcphHdrlen p ≤ 5 || copyBytes p (tcpAt p + 20) (hdrLength p - (tcpAt p + 20))
      = copyBytes h (tcpAt p + 20) (hdrLength p - (tcpAt p + 20)))

-- The changes and their numbers, in the order of the source.
abbrev Changes := Byte × Buffer

def codeUrgent (p h : Buffer) : Option Changes :=
  if tcphFlags p &&& TCPF_URG ≠ 0 then some (NEW_U, encodez (tcphUrgptr p))
  else if tcphUrgptr p ≠ tcphUrgptr h then none
  else some (0, [])

def codeWindow (p h : Buffer) : Changes :=
  if tcphWindow p - tcphWindow h ≠ 0 then (NEW_W, encode (tcphWindow p - tcphWindow h)) else (0, [])

def codeLong (bit : Byte) (delta : BitVec 32) : Option Changes :=
  if delta = 0 then some (0, [])
  else if delta.toNat > 0xffff then none
  else some (bit, encode (delta.setWidth 16))

def codeNumbers (p h : Buffer) : Option Changes :=
  match codeUrgent p h, codeLong NEW_A (tcphAck p - tcphAck h), codeLong NEW_S (tcphSeq p - tcphSeq h) with
  | some (u, us), some (a, as), some (s, ss) =>
      some (u ||| (codeWindow p h).1 ||| a ||| s, us ++ (codeWindow p h).2 ++ as ++ ss)
  | _, _, _ => none

-- The data in the packet before.
def lastData (p h : Buffer) : BitVec 32 := (iphLength h).setWidth 32 - BitVec.ofNat 32 (hdrLength p)

def codeSpecial (p h : Buffer) (c : Changes) : Option Changes :=
  if c.1 = 0 then if iphLength p ≠ iphLength h ∧ (iphLength h).toNat = hdrLength p then some c else none
  else if c.1 = SPECIAL_I ∨ c.1 = SPECIAL_D then none
  else if c.1 = NEW_S ||| NEW_A then
    if tcphSeq p - tcphSeq h = tcphAck p - tcphAck h ∧ tcphSeq p - tcphSeq h = lastData p h then some (SPECIAL_I, []) else some c
  else if c.1 = NEW_S then
    if tcphSeq p - tcphSeq h = lastData p h then some (SPECIAL_D, []) else some c
  else some c

def codeId (p h : Buffer) (c : Changes) : Changes :=
  if iphId p - iphId h ≠ 1 then (c.1 ||| NEW_I, c.2 ++ encodez (iphId p - iphId h)) else c

def codePush (p : Buffer) (c : Changes) : Changes :=
  if tcphFlags p &&& TCPF_PSH ≠ 0 then (c.1 ||| TCP_PUSH_BIT, c.2) else c

-- The change mask and the numbers; none where the packet is sent uncompressed.
def codeHeader (p h : Buffer) : Option Changes :=
  if sameShape p h then
    match codeNumbers p h with
    | none => none
    | some c => (codeSpecial p h c).map fun c => codePush p (codeId p h c)
  else none

def setHdr (comp : Slcompress) (cs : Nat) (hdr : Buffer) : Slcompress :=
  { comp with tstate := Function.update comp.tstate cs { comp.tstate cs with hdr := hdr } }

def setLastXmit (comp : Slcompress) (id : Byte) : Slcompress := { comp with lastXmit := id }

def keepHdr (comp : Slcompress) (cs : Nat) (p : Buffer) : Slcompress :=
  setHdr comp cs (bcopy p (comp.tstate cs).hdr (hdrLength p))

def sendUncompressed (comp : Slcompress) (cs : Nat) (p : Buffer) : Slcompress × Byte × Buffer :=
  (setLastXmit (keepHdr comp cs p) (comp.tstate cs).id, TYPE_UNCOMPRESSED_TCP, put8 p 9 (comp.tstate cs).id)

-- The mask, the connection id where it is needed, the TCP checksum, the numbers, and the data.
def compressed (explicit : Bool) (id : Byte) (p : Buffer) (c : Changes) : Buffer :=
  (if explicit then [c.1 ||| NEW_C, id] else [c.1])
    ++ [(tcphChksum p).extractLsb' 8 8, (tcphChksum p).extractLsb' 0 8] ++ c.2 ++ p.drop (hdrLength p)

def sendCompressed (comp : Slcompress) (compressCid : Bool) (cs : Nat) (p : Buffer) (c : Changes) :
    Slcompress × Byte × Buffer :=
  let id := (comp.tstate cs).id
  let explicit := !compressCid || comp.lastXmit ≠ id
  (if explicit then setLastXmit (keepHdr comp cs p) id else keepHdr comp cs p, TYPE_COMPRESSED_TCP, compressed explicit id p c)

def compressible (p : Buffer) : Bool :=
  iphFragoff p &&& (IP_MF ||| IP_FRAGOFF) = 0 && 40 ≤ p.length && get16 p (tcpAt p + 12) &&& 0x17 = 0x10

-- none when the search does not end.
def slcCompress (comp : Slcompress) (compressCid : Bool) (p : Buffer) : Option (Slcompress × Byte × Buffer) :=
  if compressible p then
    match findState comp p with
    | none => none
    | some (comp, cs, false) => some (sendUncompressed comp cs p)
    | some (comp, cs, true) =>
        match codeHeader p (comp.tstate cs).hdr with
        | none => some (sendUncompressed comp cs p)
        | some c => some (sendCompressed comp compressCid cs p c)
  else some (comp, TYPE_IP, p)

-- A number at pos, as it is added to a short and to a long, and where it ends. An int has 16 bits.
def short (b : Buffer) (pos : Nat) : BitVec 16 := if get8 b pos = 0 then get16 b (pos + 1) else (get8 b pos).setWidth 16
def long (b : Buffer) (pos : Nat) : BitVec 32 :=
  if get8 b pos = 0 then (get16 b (pos + 1)).signExtend 32 else (get8 b pos).setWidth 32
def after (b : Buffer) (pos : Nat) : Nat := if get8 b pos = 0 then pos + 3 else pos + 1

-- The header that is restored, and the place in the packet.
abbrev Restoring := Buffer × Nat

def restorePush (changes : Byte) (t : Nat) (hdr : Buffer) : Buffer :=
  put8 hdr (t + 13) (if changes &&& TCP_PUSH_BIT ≠ 0 then get8 hdr (t + 13) ||| TCPF_PSH else get8 hdr (t + 13) &&& ~~~TCPF_PSH)

def restoreUrgent (changes : Byte) (t : Nat) (b : Buffer) (r : Restoring) : Restoring :=
  if changes &&& NEW_U ≠ 0 then
    (put16 (put8 r.1 (t + 13) (get8 r.1 (t + 13) ||| TCPF_URG)) (t + 18) (short b r.2), after b r.2)
  else (put8 r.1 (t + 13) (get8 r.1 (t + 13) &&& ~~~TCPF_URG), r.2)

def restoreShort (bit changes : Byte) (i : Nat) (b : Buffer) (r : Restoring) : Restoring :=
  if changes &&& bit ≠ 0 then (put16 r.1 i (get16 r.1 i + short b r.2), after b r.2) else r

def restoreLong (bit changes : Byte) (i : Nat) (b : Buffer) (r : Restoring) : Restoring :=
  if changes &&& bit ≠ 0 then (put32 r.1 i (get32 r.1 i + long b r.2), after b r.2) else r

def restoreNumbers (changes : Byte) (t : Nat) (b : Buffer) (r : Restoring) : Restoring :=
  restoreLong NEW_S changes (t + 4) b (restoreLong NEW_A changes (t + 8) b
    (restoreShort NEW_W changes (t + 14) b (restoreUrgent changes t b r)))

-- hlen is cs_hlen.
def restoreSpecial (changes : Byte) (t hlen : Nat) (b : Buffer) (r : Restoring) : Restoring :=
  let data := (get16 r.1 2).setWidth 32 - BitVec.ofNat 32 hlen
  if changes &&& SPECIALS_MASK = SPECIAL_I then
    let hdr := put32 r.1 (t + 8) (get32 r.1 (t + 8) + data)
    (put32 hdr (t + 4) (get32 hdr (t + 4) + data), r.2)
  else if changes &&& SPECIALS_MASK = SPECIAL_D then (put32 r.1 (t + 4) (get32 r.1 (t + 4) + data), r.2)
  else restoreNumbers changes t b r

def restoreId (changes : Byte) (b : Buffer) (r : Restoring) : Restoring :=
  if changes &&& NEW_I ≠ 0 then (put16 r.1 4 (get16 r.1 4 + short b r.2), after b r.2)
  else (put16 r.1 4 (get16 r.1 4 + 1), r.2)

def restoreHdr (changes : Byte) (hlen : Nat) (hdr b : Buffer) (pos : Nat) : Restoring :=
  let t := tcpAt hdr
  restoreId changes b (restoreSpecial changes t hlen b (restorePush changes t (put16 hdr (t + 16) (get16 b pos)), pos + 2))

def bad (comp : Slcompress) : Slcompress := { comp with toss := true }

def setRecv (comp : Slcompress) (id : Byte) : Slcompress := { comp with lastRecv := id, toss := false }

def receiving (comp : Slcompress) : Cstate := comp.rstate comp.lastRecv.toNat

def setRstate (comp : Slcompress) (hdr : Buffer) (hlen : Nat) : Slcompress :=
  { comp with rstate := Function.update comp.rstate comp.lastRecv.toNat { receiving comp with hdr := hdr, hlen := hlen } }

def recvUncompressed (comp : Slcompress) (b : Buffer) : Slcompress × Option Buffer :=
  if b.length < 40 ∨ (iphProto b).toNat ≥ MAX_STATES then (bad comp, none)
  else
    let ip := put8 (put8 b 0 (get8 b 0 &&& 0x4f)) 9 IPPROTO_TCP
    let comp := setRecv comp (iphProto b)
    if hdrLength ip > 128 ∨ hdrLength ip > ip.length then (bad comp, none)
    else (setRstate comp (put16 (bcopy ip (receiving comp).hdr (hdrLength ip)) 10 0) (hdrLength ip), some ip)

-- The header in front of the data, with its length and its checksum.
def rebuilt (build : Chksum.Build) (hdr : Buffer) (hlen : Nat) (data : Buffer) : Buffer :=
  let ip := copyBytes hdr 0 hlen ++ data
  put16 ip 10 (Chksum.chksum build ip (BitVec.ofNat 16 (2 * iphHdrlen hdr)))

def recvState (build : Chksum.Build) (comp : Slcompress) (changes : Byte) (b : Buffer) (pos : Nat) :
    Slcompress × Option Buffer :=
  let cs := receiving comp
  let r := restoreHdr changes cs.hlen cs.hdr b pos
  if b.length < r.2 then (bad (setRstate comp r.1 cs.hlen), none)
  else
    let hdr := put16 r.1 2 (BitVec.ofNat 16 (b.length - r.2 + cs.hlen))
    let comp := setRstate comp hdr cs.hlen
    -- A length of 0 says that there is no packet.
    if b.length - r.2 + cs.hlen = 0 then (comp, none) else (comp, some (rebuilt build hdr cs.hlen (b.drop r.2)))

def recvCompressed (build : Chksum.Build) (comp : Slcompress) (b : Buffer) : Slcompress × Option Buffer :=
  let changes := get8 b 0
  if changes &&& NEW_C ≠ 0 then
    if (get8 b 1).toNat ≥ MAX_STATES then (bad comp, none) else recvState build (setRecv comp (get8 b 1)) changes b 2
  else if comp.toss then (comp, none)
  else recvState build comp changes b 1

def slcUncompress (build : Chksum.Build) (comp : Slcompress) (type : Byte) (b : Buffer) : Slcompress × Option Buffer :=
  if type = TYPE_UNCOMPRESSED_TCP then recvUncompressed comp b
  else if type = TYPE_COMPRESSED_TCP then recvCompressed build comp b
  else (bad comp, none)

-- The compression of slcompr.c, for the drivers.
def vj (build : Chksum.Build) : Vj Slcompress where
  compress comp compressCid p := (slcCompress comp compressCid p).getD (comp, TYPE_ERROR, [])
  uncompress := slcUncompress build

end MagxNet.Sld.Slc
