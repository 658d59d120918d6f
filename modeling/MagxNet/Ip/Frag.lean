import MagxNet.Ip.Dgram

set_option autoImplicit false

namespace MagxNet.Ip

open Bytes

def IPOPT_COPY : BitVec 8 := 0x80
def IPOPT_TYPE : BitVec 8 := 0x7f
def IPOPT_EOL : BitVec 8 := 0x00
def IPOPT_NOP : BitVec 8 := 0x01

-- The loop of frag_opts over the option bytes cp. A count below zero makes memcpy run away, and an
-- option of length zero is looked at again and again.
def fragOptsScan : Nat → Buffer → Nat → Nat → Outcome (Buffer × Nat)
  | 0, _, _, _ => .running
  | fuel + 1, cp, i, optlen =>
      if i < optlen then
        let type := get8 cp i
        if type &&& IPOPT_TYPE = IPOPT_EOL then .ret (cp, i + 1)
        else if type &&& IPOPT_TYPE = IPOPT_NOP then fragOptsScan fuel cp (i + 1) optlen
        else
          let len := (get8 cp (i + 1)).toNat
          if type &&& IPOPT_COPY ≠ 0 then fragOptsScan fuel cp (i + len) optlen
          else if optlen < i + len then .fault
          else fragOptsScan fuel (moveBytes cp i (i + len) (optlen - i - len)) i (optlen - len)
      else .ret (cp, i)

-- The bytes needed to bring i to a multiple of four.
def padding (i : Nat) : Nat := (4 - i % 4) % 4

def fragOptsPad (cp : Buffer) (i : Nat) : Buffer :=
  cp.take i ++ List.replicate (padding i) IPOPT_NOP ++ cp.drop (i + padding i)

-- Returns the header with the options that go into every fragment, and its length.
def fragOpts (fuel : Nat) (iph : Buffer) (optlen : Nat) : Outcome (Buffer × Nat) :=
  (fragOptsScan fuel (iph.drop IP_MINLEN) 0 optlen).bind fun (cp, i) =>
    let hdrlen := i + padding i + IP_MINLEN
    .ret (setHdrlen (iph.take IP_MINLEN ++ fragOptsPad cp i) (hdrlen / 4), hdrlen)

-- The variables that change while ip_frag loops. The bytes of buf stay those it came with, apart
-- from what frag_opts does to the header.
structure FragLoop where
  buf : IpBuf
  hdrlen : Nat
  datalen : Int
  offset : Nat
deriving DecidableEq, Repr

-- The header fields of one fragment: length, fragoff and, last, the checksum.
def fragSeal (bytes : Buffer) (hdrlen todo offset : Nat) (more : Bool) : Buffer :=
  let iph := setLength bytes (hdrlen + todo)
  let iph := setFragoff iph (iphFragoff iph + BitVec.ofNat 16 (offset / 8))
  let iph := if more then setFragoff iph (iphFragoff iph ||| IP_MF) else iph
  fillChksum iph (hdrlen / 2)

-- A new buffer for a fragment of fraglen bytes, or the input buffer itself for the last one.
def fragTake (oracle : Oracle) (net : IpNet) (s : FragLoop) (fraglen : Int) :
    Option (IpBuf × Int × Nat) × IpNet :=
  if s.datalen > fraglen then
    let (fragbuf, net) := bufAlloc oracle net (BitVec.ofInt 32 (fraglen + s.hdrlen))
    (fragbuf.map fun fragbuf => (fragbuf, fraglen, s.hdrlen), net)
  else (some (s.buf, s.datalen, ipHdrlen s.buf.bytes), net)

-- After the first fragment the options that belong there only are stripped. Had it been the input
-- buffer itself, its header would be gone by now.
def fragStrip (fuel : Nat) (s : FragLoop) (fraglen : Int) : Outcome FragLoop :=
  if s.offset = 0 ∧ IP_MINLEN < s.hdrlen then
    if s.datalen > fraglen then
      (fragOpts fuel s.buf.bytes (s.hdrlen - IP_MINLEN)).bind fun (bytes, hdrlen) =>
        .ret { s with buf := { s.buf with bytes := bytes }, hdrlen := hdrlen }
    else .fault
  else .ret s

-- data is the place of the first payload byte in the input buffer.
def ipFragLoop (oracle : Oracle) (data : Nat) (fraglen : Int) :
    Nat → IpNet → FragLoop → Outcome (Int × IpNet)
  | 0, _, _ => .running
  | fuel + 1, net, s =>
      if s.datalen ≤ 0 then .ret (0, net)
      else
        match fragTake oracle net s fraglen with
        | (none, net) => .ret (ENOMEM, bufDeref net s.buf)
        | (some (fragbuf, todo, header), net) =>
            if todo < 0 then .fault
            else
              let bytes := copyBytes s.buf.bytes 0 header ++ copyBytes s.buf.bytes (data + s.offset) todo.toNat
              let sealed := fragSeal bytes s.hdrlen todo.toNat s.offset (decide (0 < s.datalen - todo))
              let (r, net) := ifSend oracle net ⟨fragbuf.id, sealed, s.buf.info⟩
              if r ≠ 0 then .ret (r, if s.datalen > fraglen then bufDeref net s.buf else net)
              else
                (fragStrip fuel s fraglen).bind fun stripped =>
                  ipFragLoop oracle data fraglen fuel net
                    { stripped with datalen := s.datalen - todo, offset := s.offset + todo.toNat }

-- (mtu - hdrlen) & ~7; the interface's mtu is below the datagram's length here, so the
-- subtraction does not leave the range of a long.
def fragLen (mtu : BitVec 32) (hdrlen : Nat) : Int := ((mtu.toNat : Int) - hdrlen) / 8 * 8

def ipFrag (fuel : Nat) (oracle : Oracle) (net : IpNet) (mtu : BitVec 32) (buf : IpBuf) : Outcome (Int × IpNet) :=
  let iph := buf.bytes
  let fragoff := iphFragoff iph
  let hdrlen := ipHdrlen iph
  let datalen : Int := (iphLength iph).toNat - hdrlen
  if (iphLength iph).toNat ≤ mtu.toNat then
    .ret (ifSend oracle net { buf with bytes := fillChksum iph (iphHdrlen iph * 2) })
  else if fragoff &&& IP_DF ≠ 0 then
    .ret (EOPNOTSUPP, icmpSend net ICMPT_DSTUR ICMPC_FNDF (iphSaddr iph) buf)
  else if IP_FRAGOFF.toNat < (fragOffset iph : Int) + datalen / 8 then .ret (EINVAL, bufDeref net buf)
  else ipFragLoop oracle hdrlen (fragLen mtu hdrlen) fuel net ⟨buf, hdrlen, datalen, 0⟩

abbrev IPFRAG_HEADS : Nat := 16

-- struct fragment. The chain through link3 is a list; an empty chain marks a free slot.
structure Fragment where
  buf : List IpBuf
  id : BitVec 16
  saddr : BitVec 32
  totlen : Int
  curlen : Int
  tmout : Bool
deriving DecidableEq, Repr

def Fragment.free : Fragment := ⟨[], 0, 0, 0, 0, false⟩

abbrev FragTable := Fin IPFRAG_HEADS → Fragment

def allfrags : FragTable := fun _ => .free

def datalen (iph : Buffer) : Int := (iphLength iph).toNat - ipHdrlen iph

def derefAll (net : IpNet) (bufs : List IpBuf) : IpNet := bufs.foldl bufDeref net

def fragDelete (net : IpNet) (frag : Fragment) : Fragment × IpNet :=
  ({ frag with buf := [], tmout := false }, derefAll net frag.buf)

-- The timeout sends the first fragment back in an error message. What link3 of that fragment leads to is read
-- only after icmp_send has disposed of it; a queue of an interface has cleared it then.
def fragTimeout (net : IpNet) (frag : Fragment) (link3 : List IpBuf) : Fragment × IpNet :=
  match frag.buf with
  | [] => (frag, net)
  | first :: _ => fragDelete (icmpSend net ICMPT_TIMEX ICMPC_FRAGEX frag.saddr first) { frag with buf := link3 }

-- Appends the payloads of the chain to bytes, as long as each starts where the one before ended.
-- A fragment shorter than its own header makes memcpy run away.
def fragCopy (bytes : Buffer) (offset : Int) (net : IpNet) : List IpBuf →
    Outcome (Option (Buffer × Int) × List IpBuf × IpNet)
  | [] => .ret (some (bytes, offset), [], net)
  | oldbuf :: rest =>
      if offset ≠ fragOffset oldbuf.bytes * 8 then .ret (none, oldbuf :: rest, net)
      else if datalen oldbuf.bytes < 0 then .fault
      else
        let length := (datalen oldbuf.bytes).toNat
        fragCopy (bytes ++ copyBytes oldbuf.bytes (ipHdrlen oldbuf.bytes) length) (offset + length)
          (bufDeref net oldbuf) rest

def fragPullup (oracle : Oracle) (net : IpNet) (frag : Fragment) : Outcome (Option IpBuf × Fragment × IpNet) :=
  if frag.totlen = 0 ∨ frag.totlen ≠ frag.curlen then .ret (none, frag, net)
  else
    match frag.buf with
    | [] => .fault
    | first :: _ =>
        let length := ipHdrlen first.bytes
        match bufAlloc oracle net (BitVec.ofInt 32 (length + frag.totlen)) with
        | (none, net) =>
            let (frag, net) := fragDelete net frag
            .ret (none, frag, net)
        | (some nbuf, net) =>
            (fragCopy (copyBytes first.bytes 0 length) 0 net frag.buf).bind fun (copied, rest, net) =>
              match copied with
              | none =>
                  let (frag, net) := fragDelete net { frag with buf := rest }
                  .ret (none, frag, net)
              | some (bytes, offset) =>
                  let iph := setFragoff (setLength bytes offset.toNat) 0
                  .ret (some { nbuf with bytes := iph }, { frag with buf := [], tmout := false }, net)

-- Where a buffer goes in the chain: none when its offset is taken already, and whether it is last.
def fragLink (buf : IpBuf) : List IpBuf → Option (List IpBuf × Bool)
  | [] => some ([buf], true)
  | curr :: rest =>
      if fragOffset buf.bytes < fragOffset curr.bytes then some (buf :: curr :: rest, false)
      else if fragOffset curr.bytes = fragOffset buf.bytes then none
      else (fragLink buf rest).map fun (chain, last) => (curr :: chain, last)

def fragInsert (net : IpNet) (frag : Fragment) (buf : IpBuf) : Fragment × IpNet :=
  match fragLink buf frag.buf with
  | none => (frag, bufDeref net buf)
  | some (chain, last) =>
      let length := datalen buf.bytes
      let totlen := if last ∧ iphFragoff buf.bytes &&& IP_MF = 0 then fragOffset buf.bytes * 8 + length else frag.totlen
      ({ frag with buf := chain, curlen := frag.curlen + length, totlen := totlen }, net)

inductive Slot where
  | found (i : Fin IPFRAG_HEADS)
  | free (i : Fin IPFRAG_HEADS)
  | full
deriving DecidableEq, Repr

def Matches (iph : Buffer) (frag : Fragment) : Prop := iphId iph = frag.id ∧ iphSaddr iph = frag.saddr

instance (iph : Buffer) (frag : Fragment) : Decidable (Matches iph frag) := inferInstanceAs (Decidable (_ ∧ _))

-- The search stops at the first chain of the datagram and remembers the last free slot on its way.
def slotSearch (frags : FragTable) (iph : Buffer) : List (Fin IPFRAG_HEADS) → Slot → Slot
  | [], seen => seen
  | i :: rest, seen =>
      if (frags i).buf ≠ [] then
        if Matches iph (frags i) then .found i else slotSearch frags iph rest seen
      else slotSearch frags iph rest (.free i)

def slotOf (frags : FragTable) (iph : Buffer) : Slot := slotSearch frags iph (List.finRange IPFRAG_HEADS) .full

def ipDefrag (oracle : Oracle) (frags : FragTable) (net : IpNet) (buf : IpBuf) :
    Outcome (Option IpBuf × FragTable × IpNet) :=
  let iph := buf.bytes
  if iphFragoff iph &&& (IP_MF ||| IP_FRAGOFF) = 0 then .ret (some buf, frags, net)
  else
    match slotOf frags iph with
    | .found i =>
        let (frag, net) := fragInsert net (frags i) buf
        (fragPullup oracle net frag).bind fun (out, frag, net) => .ret (out, Function.update frags i frag, net)
    | .free i =>
        let (frag, net) := fragInsert net ⟨[], iphId iph, iphSaddr iph, 0, 0, true⟩ buf
        .ret (none, Function.update frags i frag, net)
    | .full => .ret (none, frags, bufDeref net buf)

end MagxNet.Ip
