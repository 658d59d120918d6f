import MagxNet.Arp.Cache

set_option autoImplicit false

namespace MagxNet.Arp

open Bytes (Byte Buffer get8 get16 get32 put16 copyBytes)
open Buckets (insert unlink)

section

variable (env : Env)

-- Built with Pure C the addresses are compared as longs, whatever their length.
def prMatches (e : Entry) (nif : Option Nat) (type : BitVec 16) (len : Nat) (addr : Buffer) : Bool :=
  e.flags.prcom && decide (e.prtype = type) && nif.all (fun n => decide (e.nif = n))
    && if env.gnuc then decide (copyBytes addr 0 len = copyBytes e.praddr.bytes 0 len)
      else decide (get32 addr 0 = get32 e.praddr.bytes 0)

def arpAlloc : Entry where
  links := 0
  flags := ⟨false, false, false, false, false⟩
  hwtype := 0
  prtype := 0
  praddr := ⟨0, List.replicate ADR_SIZE 0⟩
  hwaddr := ⟨0, List.replicate ADR_SIZE 0⟩
  nif := 0
  outq := []
  tmout := false
  retries := 0

def newEntry (nif : Nat) (type : BitVec 16) (len : Nat) (addr : Buffer) : Entry :=
  { arpAlloc with
    links := 2, flags := { arpAlloc.flags with prcom := true }, hwtype := (env.nif nif).hwtype,
    hwaddr := { arpAlloc.hwaddr with len := (env.nif nif).hwlocal.len }, prtype := type,
    praddr := ⟨len, memcpy arpAlloc.praddr.bytes addr len⟩, nif := nif }

def create (s : Cache) (nif : Nat) (type : BitVec 16) (len : Nat) (addr : Buffer) : Cache :=
  { s with
    allocs := s.allocs + 1, live := Function.update s.live s.allocs true,
    arptab := insert s.arptab (arpHash addr len) s.allocs }.setEntry s.allocs (newEntry env nif type len addr)

-- None of the cases: memcpy would write past the address of the entry.
def arpLookup (s : Cache) (nocreat noresolv : Bool) (nif : Option Nat) (type : BitVec 16) (len : Nat) (addr : Buffer) :
    Option (Cache × Option Nat) :=
  match walk (fun are => prMatches env (s.entry are) nif type len addr) (s.arptab (arpHash addr len)) s with
  | (s, some are) => some (s.setEntry are (incLinks (s.entry are)), some are)
  | (s, none) =>
      match nif with
      | none => some (s, none)
      | some nif =>
          if nocreat || !env.kmalloc then some (s, none)
          else if ADR_SIZE < len then none
          else
            let are := s.allocs
            let s := create env s nif type len addr
            some (if noresolv then s else arpSendreq env s are, some are)

def hwMatches (e : Entry) (nif : Nat) (type : BitVec 16) (len : Nat) (addr : Buffer) : Bool :=
  e.flags.hwcom && decide (e.hwtype = type) && decide (e.nif = nif)
    && decide (copyBytes addr 0 len = copyBytes e.hwaddr.bytes 0 len)

def rarpLookup (s : Cache) (nif : Nat) (type : BitVec 16) (len : Nat) (addr : Buffer) : Cache × Option Nat :=
  match walk (fun are => hwMatches (s.entry are) nif type len addr) (s.rarptab (arpHash addr len)) s with
  | (s, some are) => (s.setEntry are (incLinks (s.entry are)), some are)
  | (s, none) => (s, none)

def arpSendq (s : Cache) (are : Nat) : Cache :=
  let s := use s are
  let e := s.entry are
  if (env.nif e.nif).up then drainq s are (.sent e.nif e.hwaddr.bytes e.hwaddr.len) else drainq s are .ifDown

-- What arp_input and arp_ioctl do with an entry whose hardware address they have got.
def arpUpdate (s : Cache) (are : Nat) (change : Entry → Entry) : Cache :=
  let s := rarpRemove env s are
  let s := use s are
  let s := s.setEntry are (change (s.entry are))
  let s := rarpPut s are
  let s := eventDel s are
  let s := if (s.entry are).flags.perm then s else eventAdd s are
  let s := arpSendq env s are
  arpDeref env s are

end

section

variable (buf : Buffer)

def arphHwtype : BitVec 16 := get16 buf 0

def arphPrtype : BitVec 16 := get16 buf 2

def arphHwlen : Nat := (get8 buf 4).toNat

def arphPrlen : Nat := (get8 buf 5).toNat

def arphOp : BitVec 16 := get16 buf 6

def ARP_SHW : Nat := ARP_HLEN

def ARP_SPR : Nat := ARP_HLEN + arphHwlen buf

def ARP_DHW : Nat := ARP_HLEN + arphHwlen buf + arphPrlen buf

def ARP_DPR : Nat := ARP_HLEN + 2 * arphHwlen buf + arphPrlen buf

def ARP_LEN : Nat := ARP_HLEN + 2 * (arphHwlen buf + arphPrlen buf)

-- The answer: the sender becomes the destination, and the address that was asked for the sender.
def arpReply (op : BitVec 16) (shw spr dpr : Buffer) : Buffer :=
  be16 (arphHwtype buf) ++ be16 (arphPrtype buf) ++ [get8 buf 4, get8 buf 5] ++ be16 op
    ++ shw ++ spr ++ copyBytes buf ARP_SHW (arphHwlen buf) ++ dpr

def goodLength : Bool := decide (ARP_HLEN ≤ buf.length) && decide (buf.length = ARP_LEN buf)

end

section

variable (env : Env)

def mine (nif : Nat) (buf : Buffer) : Bool :=
  decide (arphHwtype buf = (env.nif nif).hwtype) && decide (arphHwlen buf = (env.nif nif).hwlocal.len) && !(env.nif nif).noarp

def forme (buf myaddr : Buffer) : Bool :=
  decide (copyBytes myaddr 0 (arphPrlen buf) = copyBytes buf (ARP_DPR buf) (arphPrlen buf))

def setHwaddr (buf : Buffer) (e : Entry) : Entry :=
  { e with
    hwaddr := { e.hwaddr with bytes := memcpy e.hwaddr.bytes (buf.drop ARP_SHW) (arphHwlen buf) },
    flags := { e.flags with hwcom := true } }

def sendReply (s : Cache) (nif : Nat) (buf : Buffer) (op : BitVec 16) (spr shw dpr : Buffer) (rarp : Bool) : Cache :=
  arpDosend env s
    ⟨nif, arpReply buf op shw spr dpr, copyBytes buf ARP_SHW (arphHwlen buf), arphHwlen buf, rarp⟩

def proxyReply (s : Cache) (nif : Nat) (buf : Buffer) (are : Nat) : Cache :=
  let s := use s are
  let e := s.entry are
  let s :=
    if e.flags.publ && isCom e then
      sendReply env s nif buf AROP_ARPREP (copyBytes e.praddr.bytes 0 (arphPrlen buf))
        (copyBytes e.hwaddr.bytes 0 (arphHwlen buf)) (copyBytes buf (ARP_SPR buf) (arphPrlen buf)) false
    else s
  arpDeref env s are

def arpAnswer (s : Cache) (nif : Nat) (buf myaddr : Buffer) : Option Cache :=
  if arphOp buf = AROP_ARPREQ then
    if forme buf myaddr then
      some (sendReply env s nif buf AROP_ARPREP (copyBytes myaddr 0 (arphPrlen buf))
        (copyBytes (env.nif nif).hwlocal.bytes 0 (arphHwlen buf)) (copyBytes buf (ARP_SPR buf) (arphPrlen buf)) false)
    else
      match arpLookup env s true false none (arphPrtype buf) (arphPrlen buf) (buf.drop (ARP_DPR buf)) with
      | none => none
      | some (s, none) => some s
      | some (s, some are) => some (proxyReply env s nif buf are)
  else some s

def arpInput (nif : Nat) (buf : Buffer) (s : Cache) : Option Cache :=
  if goodLength buf then
    match arpMyaddr env nif (arphPrtype buf) with
    | none => some s
    | some myaddr =>
        if mine env nif buf then
          match arpLookup env s (!forme buf myaddr) (forme buf myaddr) (some nif) (arphPrtype buf) (arphPrlen buf)
            (buf.drop (ARP_SPR buf)) with
          | none => none
          | some (s, none) => arpAnswer env s nif buf myaddr
          | some (s, some are) => arpAnswer env (arpUpdate env s are (setHwaddr buf)) nif buf myaddr
        else some s
  else some s

def rarpReply (s : Cache) (nif : Nat) (buf myaddr : Buffer) (are : Nat) : Cache :=
  let s := use s are
  let e := s.entry are
  let s :=
    if e.flags.prcom && !e.flags.norarp && decide (e.prtype = arphPrtype buf) then
      sendReply env s nif buf AROP_RARPREP (copyBytes myaddr 0 (arphPrlen buf))
        (copyBytes (env.nif nif).hwlocal.bytes 0 (arphHwlen buf)) (copyBytes e.praddr.bytes 0 (arphPrlen buf)) true
    else s
  arpDeref env s are

def rarpInput (nif : Nat) (buf : Buffer) (s : Cache) : Cache :=
  if goodLength buf then
    match arpMyaddr env nif (arphPrtype buf) with
    | none => s
    | some myaddr =>
        if decide (arphOp buf = AROP_RARPREQ) && mine env nif buf then
          match rarpLookup s nif (arphHwtype buf) (arphHwlen buf) (buf.drop ARP_SHW) with
          | (s, none) => s
          | (s, some are) => rarpReply env s nif buf myaddr are
        else s
  else s

end

inductive Cmd where
  | sarp
  | darp
  | garp
  | other
deriving DecidableEq, Repr

-- struct arp_req, with its two addresses taken apart.
structure ArpReq where
  prFamily : BitVec 16
  prAddr : Buffer
  hwFamily : BitVec 16
  hwType : BitVec 16
  hwLen : Nat
  hwAddr : Buffer
  flags : Flags
deriving DecidableEq, Repr

section

variable (env : Env)

def getPraddr (req : ArpReq) : Option Hwaddr := if req.prFamily = AF_INET then some ⟨4, copyBytes req.prAddr 0 4⟩ else none

def getHwaddr (req : ArpReq) : Option Hwaddr :=
  if req.hwFamily = AF_LINK ∧ req.hwLen ≤ ADR_SIZE then some ⟨req.hwLen, memcpy env.stack req.hwAddr req.hwLen⟩ else none

def putHwaddr (e : Entry) (req : ArpReq) : ArpReq :=
  { req with
    hwFamily := AF_LINK, hwType := e.hwtype, hwLen := e.hwaddr.len,
    hwAddr := memcpy req.hwAddr e.hwaddr.bytes (min 8 e.hwaddr.len), flags := e.flags }

-- ATF_USRMASK
def setStatic (req : ArpReq) (hwaddr : Hwaddr) (e : Entry) : Entry :=
  { e with
    hwtype := req.hwType, hwaddr := hwaddr,
    flags := { e.flags with hwcom := true, perm := req.flags.perm, publ := req.flags.publ, norarp := req.flags.norarp } }

def siocsarp (req : ArpReq) (s : Cache) : Option (Cache × Int) :=
  if !env.root then some (s, EACCES)
  else
    match getPraddr req, getHwaddr env req with
    | some praddr, some hwaddr =>
        match env.route praddr.bytes with
        | none => some (s, ENETUNREACH)
        | some rt =>
            if rt.gateway then some (s, ENETUNREACH)
            else
              match arpLookup env s false true (some rt.nif) ARPRTYPE_IP praddr.len praddr.bytes with
              | none => none
              | some (s, none) => some (s, ENOMEM)
              | some (s, some are) => some (arpUpdate env s are (setStatic req hwaddr), 0)
    | _, _ => some (s, EINVAL)

def siocdarp (req : ArpReq) (s : Cache) : Option (Cache × Int) :=
  if !env.root then some (s, EACCES)
  else
    match getPraddr req with
    | none => some (s, EINVAL)
    | some praddr =>
        match arpLookup env s true false none ARPRTYPE_IP praddr.len praddr.bytes with
        | none => none
        | some (s, none) => some (s, ENOENT)
        | some (s, some are) => some (arpDeref env (rarpRemove env (arpRemove env s are) are) are, 0)

def siocgarp (req : ArpReq) (s : Cache) : Option (Cache × Int × ArpReq) :=
  match getPraddr req with
  | none => some (s, EINVAL, req)
  | some praddr =>
      match arpLookup env s true false none ARPRTYPE_IP praddr.len praddr.bytes with
      | none => none
      | some (s, none) => some (s, ENOENT, req)
      | some (s, some are) =>
          let s := use s are
          let e := s.entry are
          if e.flags.hwcom then some (arpDeref env s are, 0, putHwaddr e req) else some (arpDeref env s are, ENOENT, req)

def arpIoctl (cmd : Cmd) (req : ArpReq) (s : Cache) : Option (Cache × Int × ArpReq) :=
  match cmd with
  | .sarp => (siocsarp env req s).map fun r => (r.1, r.2, req)
  | .darp => (siocdarp env req s).map fun r => (r.1, r.2, req)
  | .garp => siocgarp env req s
  | .other => some (s, ENOSYS, req)

def ifEnqueue (s : Cache) (are p : Nat) : Cache × Int :=
  if (s.entry are).outq.length < IF_MAXQ then
    (s.setEntry are { s.entry are with outq := (s.entry are).outq ++ [p] }, 0)
  else ({ s with done := s.done ++ [⟨p, are, .full⟩] }, ENOMEM)

-- What if_send does with a packet and the entry of the next hop.
def ifSendTo (s : Cache) (are : Nat) : Cache × Int :=
  let s := use s are
  let e := s.entry are
  let p := s.dest.length
  let s := { s with dest := s.dest ++ [are] }
  let (s, ret) :=
    if isCom e then
      ({ s with done := s.done ++ [⟨p, are, .direct e.nif e.hwaddr.bytes e.hwaddr.len⟩] }, env.output)
    else ifEnqueue s are p
  (arpDeref env s are, ret)

-- nexthop is the address as it lies in memory. Only packets that get to an entry are numbered.
def ifSend (nif : Nat) (nexthop : Buffer) (isbrcst : Bool) (s : Cache) : Option (Cache × Int) :=
  if !(env.nif nif).up then some (s, ENETUNREACH)
  else if HWTYPE_NONE.toInt ≤ (env.nif nif).hwtype.toInt then some (s, env.output)
  else if (env.nif nif).hwtype = HWTYPE_ETH then
    if isbrcst then some (s, env.output)
    else
      match arpLookup env s false false (some nif) ARPRTYPE_IP 4 nexthop with
      | none => none
      | some (s, none) => some (s, ENOMEM)
      | some (s, some are) => some (ifSendTo env s are)
  else some (s, EINVAL)

end

end MagxNet.Arp
