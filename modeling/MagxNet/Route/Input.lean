import MagxNet.Route.Ip

set_option autoImplicit false

namespace MagxNet.Route

open Bytes
open Ip (iphSaddr iphDaddr iphProto iphFragoff iphLength ipHdrlen ipInputAccepts IP_DF IP_FRAGOFF IP_MINLEN)

def ICMPC_NETUR : Byte := 0
def ICMPC_HOSTUR : Byte := 1
def ICMPC_NETRD : Byte := 0
def ICMPC_HOSTRD : Byte := 1

-- The ICMP header of a datagram, and the IP header that an error message quotes.
def icmphCode (dgram : Buffer) : Byte := get8 dgram (ipHdrlen dgram + 1)
def redirGw (dgram : Buffer) : InAddr := get32 dgram (ipHdrlen dgram + 4)
def quoted (dgram : Buffer) : Buffer := dgram.drop (ipHdrlen dgram + 8)

def ICMP_QUOTE : Nat := 8 + IP_MINLEN + 8

def setReject (t : Table) (rt : Nat) : Table := t.setRt rt { t.rt rt with flags := (t.rt rt).flags ||| RTF_REJECT }

def doUnreach (buf : Buffer) (len : Nat) (node : Node) : Int × Node :=
  if len < ICMP_QUOTE then (-1, node)
  else if icmphCode buf = ICMPC_HOSTUR ∨ icmphCode buf = ICMPC_NETUR then
    match get node (iphDaddr (quoted buf)) with
    | (none, node) => (0, node)
    | (some rt, node) => (0, deref (node.setTable (setReject node.table rt)) rt)
  else (0, node)

-- A route is fetched, looked at and given back at once.
def probe {α : Type} (node : Node) (daddr : InAddr) (look : Rt → α) : Option α × Node :=
  match get node daddr with
  | (none, node) => (none, node)
  | (some rt, node) => (some (look (node.table.rt rt)), deref node rt)

def goodGw (rt : Rt) : Bool := !decide (rt.has RTF_GATEWAY)

def sentBy (saddr : InAddr) (rt : Rt) : Bool := decide (rt.has RTF_GATEWAY) && decide (rt.gway = saddr)

def doRedir (env : Env) (buf : Buffer) (nif : Nat) (len : Nat) (node : Node) : Int × Node :=
  let daddr := iphDaddr (quoted buf)
  if len < ICMP_QUOTE then (-1, node)
  else if icmphCode buf ≠ ICMPC_NETRD ∧ icmphCode buf ≠ ICMPC_HOSTRD then (0, node)
  else
    let gw := probe node (redirGw buf) goodGw
    if gw.1 ≠ some true then (0, gw.2)
    else
      let sender := probe gw.2 daddr (sentBy (iphSaddr buf))
      if sender.1 ≠ some true then (0, sender.2)
      else if icmphCode buf = ICMPC_NETRD then
        (0, add env sender.2 ⟨nif, daddr, ipNetmask env.ifs daddr, redirGw buf,
          RTF_DYNAMIC ||| RTF_MODIFIED ||| RTF_GATEWAY, RT_TTL, 1⟩)
      else
        (0, add env sender.2 ⟨nif, daddr, 0xffffffff, redirGw buf,
          RTF_DYNAMIC ||| RTF_MODIFIED ||| RTF_HOST ||| RTF_GATEWAY, RT_TTL, 1⟩)

-- What tcp_mss reads of the route: the interface, the metric, and whether there is a gateway.
def tcpMss (faddr : InAddr) (node : Node) : Option (Nat × BitVec 32 × Bool) × Node :=
  probe node faddr fun rt => (rt.nif, rt.metric, decide (rt.has RTF_GATEWAY))

-- SIOCSARP up to the interface to attach the entry to: euid and the kinds of the addresses come first. The other
-- commands look at no route.
def arpIoctl (root valid inet : Bool) (praddr : InAddr) (node : Node) : Int × Option Nat × Node :=
  if ¬ root then (EACCES, none, node)
  else if ¬ valid then (EINVAL, none, node)
  else if ¬ inet then (EAFNOSUPPORT, none, node)
  else match probe node praddr fun rt => if rt.has RTF_GATEWAY then none else some rt.nif with
    | (some (some nif), node) => (0, some nif, node)
    | (_, node) => (ENETUNREACH, none, node)

-- The protocols, masquerading and reassembly may change any buffer that they can reach.
structure Proto' where
  proto : Proto
  input : Nat → Nat → InAddr → InAddr → Node → Int × Node

structure Hooks where
  masq : Option (Nat → Nat → Node → Option Nat × Node)
  defrag : Nat → Node → Option Nat × Node
  protos : List Proto'

-- The loop over allipprotos; the header is read through iph each time.
def deliver (env : Env) (nif iph buf : Nat) : List Proto' → Node → Node
  | [], node => icmpSend env .dstur (iphSaddr (node.mem iph)) (node.mem buf) none node
  | p :: rest, node =>
      if p.proto = iphProto (node.mem iph) ∨ p.proto = IPPROTO_RAW then
        let result := p.input nif buf (iphSaddr (node.mem iph)) (iphDaddr (node.mem iph)) node
        if result.1 = 0 then result.2 else deliver env nif iph buf rest result.2
      else deliver env nif iph buf rest node

def iphTtl (dgram : Buffer) : Byte := get8 dgram 8

def setTtl (dgram : Buffer) (ttl : Byte) : Buffer := copyBytes dgram 0 8 ++ ttl :: dgram.drop 9

-- A datagram that ip_input passes on through ip_frag.
structure Forwarded where
  nif : Nat
  nexthop : InAddr
  addrtype : AddrType
  dgram : Buffer
deriving DecidableEq, Repr

-- The buffer that is passed on: one with a pointer, or the copy, which nobody else knows.
inductive Holder where
  | buf (id : Nat)
  | copy (dgram : Buffer)
deriving DecidableEq, Repr

def Holder.bytes (node : Node) : Holder → Buffer
  | .buf id => node.mem id
  | .copy dgram => dgram

def decTtl (node : Node) (iph : Nat) : Node :=
  { node with mem := Function.update node.mem iph (setTtl (node.mem iph) (iphTtl (node.mem iph) - 1)) }

-- ttl is an unsigned char, so that only zero is not above zero.
def forward (env : Env) (node : Node) (nif iph : Nat) (rt : Nat) (addrtype : AddrType) (buf : Holder) :
    Option Forwarded × Node :=
  let node := decTtl node iph
  if iphTtl (node.mem iph) = 0 then
    (none, deref (icmpSend env .timex (iphSaddr (node.mem iph)) (buf.bytes node) none node) rt)
  else if (node.table.rt rt).nif = nif then
    let gateway := (node.table.rt rt).has RTF_GATEWAY
    let gwbuf := ask env node
    if gateway ∧ gwbuf.1 then
      (none, deref (icmpSend env .redir (iphSaddr (gwbuf.2.mem iph)) (buf.bytes gwbuf.2)
        (some (be32 (gwbuf.2.table.rt rt).gway)) gwbuf.2) rt)
    else (none, deref (if gateway then gwbuf.2 else node) rt)
  else
    let route := node.table.rt rt
    let nexthop := if route.has RTF_GATEWAY then route.gway else iphDaddr (node.mem iph)
    (some ⟨route.nif, nexthop, addrtype, buf.bytes node⟩,
      deref (ipFrag (icmpSend env) env node route.nif (buf.bytes node)).2 rt)

-- Local delivery, and what is left to be passed on.
def localInput (env : Env) (hooks : Hooks) (node : Node) (nif iph buf : Nat) (rt : Nat) (addrtype : AddrType) :
    Option Buffer × Node :=
  let copied := ipBrdcstCopy env node (node.mem buf) nif (node.table.rt rt) addrtype
  match hooks.defrag buf copied.2 with
  | (none, node) => (copied.1, node)
  | (some buf, node) => (copied.1, deliver env nif iph buf hooks.protos node)

-- ip_input once masquerading has had the datagram; iph still points into the buffer that came in.
def ipInputRoute (env : Env) (hooks : Hooks) (nif iph buf : Nat) (node : Node) : Option Forwarded × Node :=
  match get node (iphDaddr (node.mem iph)) with
  | (none, node) => (none, icmpSend env .dstur (iphSaddr (node.mem iph)) (node.mem buf) none node)
  | (some rt, node) =>
      let addrtype := ipChkAddr env.ifs (iphDaddr (node.mem iph)) (node.table.rt rt)
      if addrtype = .badclass then (none, deref node rt)
      else if addrtype = .local' ∨ addrtype = .brdcst then
        match localInput env hooks node nif iph buf rt addrtype with
        | (none, node) => (none, deref node rt)
        | (some copy, node) => forward env node nif iph rt addrtype (.copy copy)
      else forward env node nif iph rt addrtype (.buf buf)

def masqInput (hooks : Hooks) (nif buf : Nat) (node : Node) : Option Nat × Node :=
  match hooks.masq with
  | none => (some buf, node)
  | some masq => masq nif buf node

def ipInput (env : Env) (hooks : Hooks) (nif buf : Nat) (node : Node) : Option Forwarded × Node :=
  if ¬ ipInputAccepts (node.mem buf) then (none, node)
  else match masqInput hooks nif buf node with
    | (none, node) => (none, node)
    | (some buf', node) => ipInputRoute env hooks nif buf buf' node

end MagxNet.Route
