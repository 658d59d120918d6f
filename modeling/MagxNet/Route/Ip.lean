import MagxNet.Ip.Frag
import MagxNet.Route.Table

set_option autoImplicit false

namespace MagxNet.Route

open Bytes
open Ip (iphSaddr iphDaddr iphProto iphFragoff iphLength ipHdrlen ipInputAccepts IP_DF IP_FRAGOFF IP_MINLEN)

abbrev Proto := BitVec 8

def IPPROTO_ICMP : Proto := 1
def IPPROTO_RAW : Proto := 255
def IP_DEFAULT_TTL : Byte := 255
def IP_DEFAULT_TOS : Byte := 0
def IP_BROADCAST : Short := 0x02

def EINVAL : Int := -32
def EOPNOTSUPP : Int := -307

inductive AddrType where
  | none
  | local'
  | brdcst
  | badclass
deriving DecidableEq, Repr

inductive IcmpType where
  | echorp
  | dstur
  | srcq
  | redir
  | echorq
  | timex
  | paramp
  | timerq
  | timerp
  | inforq
  | inforp
  | maskrq
  | maskrp
deriving DecidableEq, Repr

-- Whether the n-th buffer can be had, and what the n-th call of if_send returns.
structure Env where
  ifs : Netifs
  alloc : Nat → Bool
  ifSend : Nat → Int

-- mem holds the bytes of the buffers, from dstart on. A fault is a route that is read through a null pointer.
-- refused lists the routes that ip_send held when it found a broadcast that was not allowed; it is a record kept for the
-- proofs, and no function reads it.
structure Node where
  table : Table
  mem : Nat → Buffer
  calls : Nat
  dgramid : BitVec 16
  fault : Bool
  refused : List Nat

def Node.setTable (node : Node) (table : Table) : Node := { node with table := table }

def ask (env : Env) (node : Node) : Bool × Node := (env.alloc node.calls, { node with calls := node.calls + 1 })

def get (node : Node) (daddr : InAddr) : Option Nat × Node :=
  ((routeGet node.table daddr).1, node.setTable (routeGet node.table daddr).2)

def deref (node : Node) (rt : Nat) : Node := node.setTable (routeDeref node.table rt)

def add (env : Env) (node : Node) (new : NewRt) : Node :=
  let memory := ask env node
  memory.2.setTable (routeAdd memory.1 memory.2.table new).2

def chkClass (addr : InAddr) : AddrType :=
  if ¬ IN_CLASSA addr ∧ ¬ IN_CLASSB addr ∧ ¬ IN_CLASSC addr then .badclass else .none

def ipChkAddr (ifs : Netifs) (addr : InAddr) (rt : Rt) : AddrType :=
  if addr = INADDR_ANY ∨ addr = INADDR_BROADCAST then .brdcst
  else if addr &&& IN_CLASSA_NET = 0x7f000000 then .local'
  else if rt.has RTF_LOCAL then .local'
  else match ifAf2ifaddr ifs rt.nif with
    | none => chkClass addr
    | some ifa =>
        if addr = ifa.adr then .local'
        else if addr = ifa.net ∨ addr = ifa.subnet ∨ addr = ifa.netBroadaddr then .brdcst
        else if (ifs.netif rt.nif).broadcast ∧ addr = ifa.ifu then .brdcst
        else chkClass addr

def ipLocalAddr (env : Env) (node : Node) (dstaddr : InAddr) : InAddr × Node :=
  let adr := fun nif => ((ifAf2ifaddr env.ifs nif).map Ifaddr.adr).getD INADDR_ANY
  if dstaddr = INADDR_ANY then (adr env.ifs.primary, node)
  else match get node dstaddr with
    | (none, node) => (INADDR_ANY, node)
    | (some rt, node) => (adr (node.table.rt rt).nif, deref node rt)

structure IpOptions where
  pri : Int
  ttl : Byte
  tos : Byte
deriving DecidableEq, Repr

def defOpts : IpOptions := ⟨0, IP_DEFAULT_TTL, IP_DEFAULT_TOS⟩

def be16 (x : BitVec 16) : Buffer := [x.extractLsb' 8 8, x.extractLsb' 0 8]

def be32 (x : BitVec 32) : Buffer := be16 (x.extractLsb' 16 16) ++ be16 (x.extractLsb' 0 16)

-- The header that ip_send puts in front of a buffer.
def ipHeader (saddr daddr : InAddr) (buf : Buffer) (proto : Proto) (opts : IpOptions) (id : BitVec 16) : Buffer :=
  [0x45, opts.tos] ++ be16 (BitVec.ofNat 16 (IP_MINLEN + buf.length)) ++ be16 id ++ be16 0 ++ [opts.ttl, proto] ++ be16 0
    ++ be32 saddr ++ be32 daddr

def setSaddr (dgram : Buffer) (saddr : InAddr) : Buffer := dgram.take 12 ++ be32 saddr ++ dgram.drop 16

def setDaddr (dgram : Buffer) (daddr : InAddr) : Buffer := dgram.take 16 ++ be32 daddr ++ dgram.drop 20

-- icmp_send for a datagram that cannot go on.
abbrev IcmpSend := IcmpType → InAddr → Buffer → Option Buffer → Node → Node

-- ip_frag answers with an error when the datagram is too long and must not be cut; else if_send gets it, as a whole
-- or in pieces.
def fragRefused (mtu : BitVec 32) (dgram : Buffer) : Bool :=
  decide (mtu.toNat < (iphLength dgram).toNat) && decide (iphFragoff dgram &&& IP_DF ≠ 0)

def ipFrag (icmp : IcmpSend) (env : Env) (node : Node) (nif : Nat) (dgram : Buffer) : Int × Node :=
  if fragRefused (env.ifs.netif nif).mtu dgram then
    (EOPNOTSUPP, icmp .dstur (iphSaddr dgram) dgram none node)
  else (env.ifSend node.calls, { node with calls := node.calls + 1 })

def ipBrdcstCopy (env : Env) (node : Node) (buf : Buffer) (nif : Nat) (rt : Rt) (addrtype : AddrType) :
    Option Buffer × Node :=
  if addrtype ≠ .brdcst ∨ nif = rt.nif then (none, node)
  else
    let clone := ask env node
    (if clone.1 then some buf else none, clone.2)

-- The copy of a broadcast goes to the local software through the route to the local address.
def sendCopy (icmp : IcmpSend) (env : Env) (node : Node) (rt : Nat) (copy : Buffer) : Node :=
  let node := deref node rt
  let local' := ipLocalAddr env node (iphDaddr copy)
  match get local'.2 local'.1 with
  | (none, node) => { node with fault := true }
  | (some rt, node) => deref (ipFrag icmp env node (node.table.rt rt).nif (setDaddr copy local'.1)).2 rt

-- What ip_send and ip_output do with a datagram that has its route.
def ipEmit (icmp : IcmpSend) (env : Env) (node : Node) (rt : Nat) (addrtype : AddrType) (dgram : Buffer) : Int × Node :=
  let nif := (node.table.rt rt).nif
  let copied := ipBrdcstCopy env node dgram nif (node.table.rt rt) addrtype
  let sent := ipFrag icmp env copied.2 nif dgram
  match copied.1 with
  | some copy => (sent.1, sendCopy icmp env sent.2 rt copy)
  | none => (sent.1, deref sent.2 rt)

-- The address of the interface stands in for a source that is not filled in.
def fillSource (env : Env) (nif : Nat) (dgram : Buffer) : Option Buffer :=
  if iphSaddr dgram = INADDR_ANY then (ifAf2ifaddr env.ifs nif).map fun ifa => setSaddr dgram ifa.adr else some dgram

def ipOutputWith (icmp : IcmpSend) (env : Env) (buf : Buffer) (node : Node) : Int × Node :=
  match get node (iphDaddr buf) with
  | (none, node) => (ENETUNREACH, icmp .dstur (iphSaddr buf) buf none node)
  | (some rt, node) =>
      let addrtype := ipChkAddr env.ifs (iphDaddr buf) (node.table.rt rt)
      if addrtype = .badclass then (EADDRNOTAVAIL, deref node rt)
      else match fillSource env (node.table.rt rt).nif buf with
        | none => (EADDRNOTAVAIL, deref node rt)
        | some dgram => ipEmit icmp env node rt addrtype dgram

def refuse (node : Node) (rt : Nat) : Node := { node with refused := rt :: node.refused }

def ipSendWith (icmp : IcmpSend) (env : Env) (saddr daddr : InAddr) (buf : Buffer) (proto : Proto) (flags : Short)
    (opts : Option IpOptions) (node : Node) : Int × Node :=
  let reserved := ask env node
  if ¬ reserved.1 then (ENOMEM, reserved.2)
  else
    let nbuf := ipHeader saddr daddr buf proto (opts.getD defOpts) node.dgramid ++ buf
    match get { reserved.2 with dgramid := node.dgramid + 1 } daddr with
    | (none, node) => (ENETUNREACH, icmp .dstur saddr nbuf none node)
    | (some rt, node) =>
        let addrtype := ipChkAddr env.ifs daddr (node.table.rt rt)
        if addrtype = .badclass then (EADDRNOTAVAIL, deref node rt)
        -- This way out keeps the reference.
        else if addrtype = .brdcst ∧ flags &&& IP_BROADCAST = 0 then (EACCES, refuse node rt)
        else match fillSource env (node.table.rt rt).nif nbuf with
          | none => (EADDRNOTAVAIL, deref node rt)
          | some dgram => ipEmit icmp env node rt addrtype dgram

def icmpDontsend (ifs : Netifs) (type : IcmpType) (dgram : Buffer) : Bool :=
  if iphFragoff dgram &&& IP_FRAGOFF ≠ 0 then true
  else if iphProto dgram = IPPROTO_ICMP then
    match type with
    | .dstur | .redir | .srcq | .timex | .paramp => true
    | .echorp => false
    | _ => ipIsBrdcstAddr ifs (iphDaddr dgram)
  else ipIsBrdcstAddr ifs (iphDaddr dgram)

-- do_send: replies take the datagram's own data, errors its header and the first 64 bits behind it. The bytes of the
-- ICMP header do not matter here.
def doSend (env : Env) (node : Node) (type : IcmpType) (buf1 : Buffer) : Option Buffer × Node :=
  match type with
  | .echorp | .timerp | .inforp | .maskrp => (some (buf1.drop (ipHdrlen buf1)), node)
  | .dstur | .timex | .redir =>
      let reserved := ask env node
      (if reserved.1 then some (List.replicate 8 0 ++ buf1.take (ipHdrlen buf1 + 8)) else none, reserved.2)
  | _ => (none, node)

def icmpSource (env : Env) (node : Node) (dgram : Buffer) : InAddr × Node :=
  let found := if ipIsBrdcstAddr env.ifs (iphDaddr dgram) then ipLocalAddr env node (iphDaddr dgram) else (iphDaddr dgram, node)
  (if ipIsLocalAddr env.ifs found.1 then found.1 else INADDR_ANY, found.2)

-- send is ip_send for an ICMP message, with no flags and the default options.
def icmpSendWith (send : InAddr → InAddr → Buffer → Node → Node) (env : Env) : IcmpSend := fun type daddr buf1 _ node =>
  if icmpDontsend env.ifs type buf1 then node
  else
    let source := icmpSource env node buf1
    match doSend env source.2 type buf1 with
    | (none, node) => node
    | (some nbuf, node) =>
        -- A message to a broadcast address is reflected to the local system.
        let node :=
          if ipIsBrdcstAddr env.ifs daddr then
            let clone := ask env node
            if clone.1 then send source.1 INADDR_LOOPBACK nbuf clone.2 else clone.2
          else node
        send source.1 daddr nbuf node

-- No error is sent about an ICMP message, so that ip_send comes back from icmp_send at once.
def ipSendIcmp (env : Env) (saddr daddr : InAddr) (buf : Buffer) (node : Node) : Node :=
  (ipSendWith (fun _ _ _ _ node => node) env saddr daddr buf IPPROTO_ICMP 0 none node).2

def icmpSend (env : Env) : IcmpSend := icmpSendWith (ipSendIcmp env) env

def ipSend (env : Env) (saddr daddr : InAddr) (buf : Buffer) (proto : Proto) (flags : Short)
    (opts : Option IpOptions) (node : Node) : Int × Node :=
  ipSendWith (icmpSend env) env saddr daddr buf proto flags opts node

def ipOutput (env : Env) (buf : Buffer) (node : Node) : Int × Node := ipOutputWith (icmpSend env) env buf node

theorem header_proto (saddr daddr : InAddr) (buf data : Buffer) (proto : Proto) (opts : IpOptions) (id : BitVec 16) :
    iphProto (ipHeader saddr daddr buf proto opts id ++ data) = proto := rfl

theorem source_proto (saddr daddr adr : InAddr) (buf data : Buffer) (proto : Proto) (opts : IpOptions) (id : BitVec 16) :
    iphProto (setSaddr (ipHeader saddr daddr buf proto opts id ++ data) adr) = proto := rfl

theorem dontsend_icmp (ifs : Netifs) (dgram : Buffer) (proto : iphProto dgram = IPPROTO_ICMP) :
    icmpDontsend ifs .dstur dgram := by
  unfold icmpDontsend
  rw [if_pos proto]
  split <;> rfl

theorem send_icmp_quiet (env : Env) (daddr : InAddr) (dgram : Buffer) (gw : Option Buffer) (node : Node)
    (proto : iphProto dgram = IPPROTO_ICMP) : icmpSend env .dstur daddr dgram gw node = node := by
  unfold icmpSend icmpSendWith
  rw [if_pos (dontsend_icmp env.ifs dgram proto)]

theorem frag_same (icmp icmp' : IcmpSend) (env : Env) (node : Node) (nif : Nat) (dgram : Buffer)
    (same : ∀ daddr node, icmp .dstur daddr dgram none node = icmp' .dstur daddr dgram none node) :
    ipFrag icmp env node nif dgram = ipFrag icmp' env node nif dgram := by
  unfold ipFrag
  rw [same]

-- No copy is made, as the interface of the route is its own.
theorem emit_alone (icmp : IcmpSend) (env : Env) (node : Node) (rt : Nat) (addrtype : AddrType) (dgram : Buffer) :
    ipEmit icmp env node rt addrtype dgram
      = ((ipFrag icmp env node (node.table.rt rt).nif dgram).1,
          deref (ipFrag icmp env node (node.table.rt rt).nif dgram).2 rt) := by
  have alone : ipBrdcstCopy env node dgram (node.table.rt rt).nif (node.table.rt rt) addrtype = (none, node) :=
    if_pos (Or.inr rfl)
  unfold ipEmit
  dsimp only
  rw [alone]

-- icmp_send sends its messages through ip_send itself.
theorem send_icmp_eq (env : Env) (saddr daddr : InAddr) (buf : Buffer) (node : Node) :
    ipSendIcmp env saddr daddr buf node = (ipSend env saddr daddr buf IPPROTO_ICMP 0 none node).2 := by
  unfold ipSendIcmp ipSend ipSendWith
  dsimp only
  split
  · rfl
  · split
    · exact (send_icmp_quiet env _ _ none _ (header_proto _ _ _ _ _ _ _)).symm
    · split_ifs
      · rfl
      · rfl
      · rename_i rt node' found bad brdcst
        have proto : ∀ dgram, fillSource env (node'.table.rt rt).nif
            (ipHeader saddr daddr buf IPPROTO_ICMP ((none : Option IpOptions).getD defOpts) node.dgramid ++ buf) = some dgram →
              iphProto dgram = IPPROTO_ICMP := by
          intro dgram filled
          unfold fillSource at filled
          split at filled
          · obtain ⟨ifa, -, rfl⟩ := Option.map_eq_some_iff.mp filled
            exact source_proto _ _ _ _ _ _ _ _
          · cases filled
            exact header_proto _ _ _ _ _ _ _
        split
        · rfl
        · rename_i dgram filled
          rw [emit_alone, emit_alone, frag_same _ (icmpSend env) env node' _ dgram fun daddr node =>
            (send_icmp_quiet env daddr dgram none node (proto dgram filled)).symm]

-- A datagram that ip_frag refuses is one that the fragmentation hands to icmp_send.
theorem frag_refused (fuel : Nat) (oracle : Ip.Oracle) (net : Ip.IpNet) (mtu : BitVec 32) (buf : Ip.IpBuf)
    (refused : fragRefused mtu buf.bytes) :
    Ip.ipFrag fuel oracle net mtu buf
      = .ret (Ip.EOPNOTSUPP, Ip.icmpSend net Ip.ICMPT_DSTUR Ip.ICMPC_FNDF (iphSaddr buf.bytes) buf) := by
  unfold fragRefused at refused
  rw [Bool.and_eq_true, decide_eq_true_eq, decide_eq_true_eq] at refused
  unfold Ip.ipFrag
  dsimp only
  rw [if_neg (by omega), if_pos refused.2]

end MagxNet.Route
