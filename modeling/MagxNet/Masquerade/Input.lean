import MagxNet.Masquerade.Table

set_option autoImplicit false

namespace MagxNet.Masquerade

open Bytes

abbrev IcmpType := BitVec 8

def ICMPT_ECHORP : IcmpType := 0
def ICMPT_DSTUR : IcmpType := 3
def ICMPT_SRCQ : IcmpType := 4
def ICMPT_REDIR : IcmpType := 5
def ICMPT_ECHORQ : IcmpType := 8
def ICMPT_TIMEX : IcmpType := 11
def ICMPT_PARAMP : IcmpType := 12
def ICMPT_TIMERQ : IcmpType := 13
def ICMPT_TIMERP : IcmpType := 14
def ICMPT_INFORQ : IcmpType := 15
def ICMPT_INFORP : IcmpType := 16
def ICMPT_MASKRP : IcmpType := 18

structure Tcp where
  srcport : Port
  dstport : Port
  seq : Long
  ack : Long
  syn : Bool
  fin : Bool
  rst : Bool
  data : Buffer
deriving DecidableEq, Repr

-- The datagram that an ICMP error message is about.
structure Orig where
  saddr : Long
  proto : Proto
  srcport : Port
  seq : Long
deriving DecidableEq, Repr

inductive Body where
  | tcp (t : Tcp)
  | udp (srcport dstport : Port)
  | icmp (type : IcmpType) (id : Port) (orig : Orig)
  | other
deriving DecidableEq, Repr

-- The checksums are those of what is in the datagram.
structure Dgram where
  saddr : Long
  daddr : Long
  body : Body
deriving DecidableEq, Repr

-- The time, what is read as a record through a null pointer, whether there is memory for the record of ftp_modifier, for
-- that of masq_ip_input and for a longer datagram, what the route to the destination says, and what lies behind the datagram.
structure Env where
  time : Long
  nul : Record
  allocFtp : Bool
  alloc : Bool
  reserve : Bool
  isLocal : Bool
  localaddr : Long
  behind : Buffer

-- used is the record by which the datagram was translated: it is kept for the proofs.
structure Result where
  buf : Option Dgram
  unreach : Bool
  used : Option Ptr
  masq : Masq

def isReply (type : IcmpType) : Bool :=
  type = ICMPT_ECHORP ∨ type = ICMPT_TIMERP ∨ type = ICMPT_INFORP ∨ type = ICMPT_MASKRP

def isError (type : IcmpType) : Bool :=
  type = ICMPT_DSTUR ∨ type = ICMPT_SRCQ ∨ type = ICMPT_REDIR ∨ type = ICMPT_TIMEX ∨ type = ICMPT_PARAMP

def isRequest (type : IcmpType) : Bool :=
  type = ICMPT_ECHORQ ∨ type = ICMPT_TIMERQ ∨ type = ICMPT_INFORQ ∨ type = ICMPT_MASKRP

-- The port an incoming datagram is for, none if it is not to be touched.
def inPort : Body → Option Port
  | .tcp t => some t.dstport
  | .udp _ dstport => some dstport
  | .icmp type id orig =>
      if isReply type then some id
      else if isError type then
        if orig.proto = IPPROTO_TCP ∨ orig.proto = IPPROTO_UDP then some orig.srcport else none
      else some 0
  | .other => none

def tcpTimeout (s : Masq) (t : Tcp) (r : Record) : Record :=
  let r := if t.syn then { r with timeout := s.tcpAckTimeout } else r
  if t.fin ∨ t.rst then { r with timeout := s.tcpFinTimeout } else r

-- The first datagram that comes for a port that ftp_modifier has made known.
def firstIn (r : Record) (t : Tcp) : Record := if r.dstPort = 0 then { r with dstPort := t.srcport, seq := t.ack } else r

def inBody (r : Record) : Body → Body
  | .tcp t => .tcp { t with dstport := r.masqPort, ack := t.ack - offset (firstIn r t) t.ack }
  | .udp srcport _ => .udp srcport r.masqPort
  | .icmp type id orig =>
      if isReply type then .icmp type r.masqPort orig
      else if isError type then
        if orig.proto = IPPROTO_TCP then
          .icmp type id { orig with saddr := r.masqAddr, srcport := r.masqPort, seq := orig.seq - offset r orig.seq }
        else .icmp type id { orig with saddr := r.masqAddr, srcport := r.masqPort }
      else .icmp type id orig
  | .other => .other

def inRecord (s : Masq) (r : Record) : Body → Record
  | .tcp t => tcpTimeout s t (firstIn r t)
  | _ => r

-- An incoming datagram for a masqueraded machine.
def incoming (env : Env) (s : Masq) (p : Dgram) (ptr : Ptr) : Result :=
  match s.get ptr with
  | none => ⟨none, true, none, s⟩
  | some r =>
      let r := { r with modified := env.time }
      ⟨some { p with daddr := r.masqAddr, body := inBody r p.body }, false, some ptr, s.put (inRecord s r p.body) ptr⟩

-- ftp_modifier runs over the end of the buffer, drops the datagram, or returns by how much it made it longer.
inductive FtpResult where
  | stuck
  | dropped (s : Masq)
  | done (delta : Int) (data : Buffer) (s : Masq)

def ftpRecord (env : Env) (s : Masq) (i : Nat) (saddr : Long) (ftpPort : Port) : Record where
  memory := s.allocated
  num := BitVec.ofNat 16 i
  masqAddr := saddr
  masqPort := ftpPort
  dstPort := 0
  proto := IPPROTO_TCP
  modified := env.time
  timeout := s.tcpAckTimeout
  offs := 0
  prevOffs := 0
  seq := 0

-- The record for the incoming data: a new one, unless the datagram is a retry.
def ftpEntry (env : Env) (s : Masq) (r : Record) (saddr : Long) (seq : Long) (ftpPort : Port) : Option Nat × Masq :=
  if after seq r.seq then
    match newPortRecord env.time env.allocFtp (List.range MASQ_NUM_PORTS) s.portDb with
    | (none, db) => (none, { s with portDb := db })
    | (some i, db) =>
        (some i, { s with portDb := Function.update db i (some (ftpRecord env s i saddr ftpPort)), allocated := s.allocated + 1 })
  else (findPortRecord env.nul s.portDb saddr ftpPort 0 IPPROTO_TCP, s)

def ftpReplace (env : Env) (s : Masq) (data : Buffer) (start stop : Nat) (localPort : Port) : FtpResult :=
  let new := tmpbuf env.localaddr localPort
  let delta : Int := new.length - (stop - start)
  let changed := data.take start ++ new ++ data.drop stop
  if stop - start < new.length then
    if env.reserve then .done delta (changed.take (data.length + delta.toNat)) s else .dropped s
  else if data.length < stop then .stuck
  else .done delta changed s

def ftpModifier (env : Env) (s : Masq) (saddr : Long) (t : Tcp) : FtpResult :=
  match findPort (t.data ++ env.behind) t.data.length t.data.length 0 with
  | none => .done 0 t.data s
  | some (ftpPort, start, stop) =>
      match (findPortRecord env.nul s.portDb saddr t.srcport t.dstport IPPROTO_TCP).bind s.portDb with
      | none => .dropped s
      | some r =>
          match ftpEntry env s r saddr t.seq ftpPort with
          | (none, s) => .dropped s
          | (some i, s) =>
              match s.portDb i with
              | none => .dropped s
              | some new => ftpReplace env s t.data start stop (BitVec.ofNat 16 MASQ_BASE_PORT + new.num)

def lookup (env : Env) (s : Masq) (saddr : Long) (srcPort dstPort : Port) (proto : Proto) : Option Ptr :=
  match findRedirectionByMasqPort s srcPort with
  | some k => some (.redirection k)
  | none => (findPortRecord env.nul s.portDb saddr srcPort dstPort proto).map .slot

def rewritten (r : Record) (seq : Long) (delta : Int) : Record :=
  if delta ≠ 0 ∧ after seq r.seq then { r with prevOffs := r.offs, offs := r.offs + BitVec.ofInt 32 delta, seq := seq } else r

-- The record of the connection is told of a change that ftp_modifier has made.
def noteChange (env : Env) (s : Masq) (saddr : Long) (t : Tcp) (delta : Int) : Masq :=
  match lookup env s saddr t.srcport t.dstport IPPROTO_TCP with
  | none => s
  | some ptr =>
      match s.get ptr with
      | none => s
      | some r => s.put (rewritten r t.seq delta) ptr

def firstTimeout (s : Masq) (proto : Proto) : Long :=
  if proto = IPPROTO_TCP then s.tcpFirstTimeout else if proto = IPPROTO_UDP then s.udpTimeout else s.icmpTimeout

def outRecord (env : Env) (s : Masq) (i : Nat) (saddr : Long) (srcPort dstPort : Port) (proto : Proto) (seq : Long) : Record where
  memory := s.allocated
  num := BitVec.ofNat 16 i
  masqAddr := saddr
  masqPort := srcPort
  dstPort := dstPort
  proto := proto
  modified := env.time
  timeout := firstTimeout s proto
  offs := 0
  prevOffs := 0
  seq := seq

-- The record for an outgoing datagram, a new one if there is none.
def outEntry (env : Env) (s : Masq) (saddr : Long) (srcPort dstPort : Port) (proto : Proto) (seq : Long) : Option Ptr × Masq :=
  match lookup env s saddr srcPort dstPort proto with
  | some ptr => (some ptr, s)
  | none =>
      match newPortRecord env.time env.alloc (List.range MASQ_NUM_PORTS) s.portDb with
      | (none, db) => (none, { s with portDb := db })
      | (some i, db) =>
          (some (.slot i), { s with
            portDb := Function.update db i (some (outRecord env s i saddr srcPort dstPort proto seq)), allocated := s.allocated + 1 })

def lport (r : Record) : Ptr → Port
  | .slot _ => BitVec.ofNat 16 MASQ_BASE_PORT + r.num
  | .redirection _ => r.num

def outBody (r : Record) (lport : Port) : Body → Body
  | .tcp t => .tcp { t with srcport := lport, seq := t.seq + offset r t.seq }
  | .udp _ dstport => .udp lport dstport
  | .icmp type _ orig => .icmp type lport orig
  | .other => .other

def outHeader (s : Masq) (r : Record) : Body → Record
  | .tcp t => tcpTimeout s t r
  | _ => r

def outgoing (env : Env) (s : Masq) (p : Dgram) (srcPort dstPort : Port) (proto : Proto) (seq : Long) : Result :=
  match outEntry env s p.saddr srcPort dstPort proto seq with
  | (none, s) => ⟨none, false, none, s⟩
  | (some ptr, s) =>
      match s.get ptr with
      | none => ⟨none, false, none, s⟩
      | some r =>
          let r := { r with modified := env.time }
          ⟨some { p with saddr := env.localaddr, body := outBody r (lport r ptr) p.body }, false, some ptr,
            s.put (outHeader s r p.body) ptr⟩

def FTP_PORT : Port := 21

def outgoingTcp (env : Env) (s : Masq) (p : Dgram) (t : Tcp) : Option Result :=
  if t.dstport = FTP_PORT then
    match ftpModifier env s p.saddr t with
    | .stuck => none
    | .dropped s => some ⟨none, false, none, s⟩
    | .done delta data s =>
        some (outgoing env (noteChange env s p.saddr t delta) { p with body := .tcp { t with data := data } }
          t.srcport t.dstport IPPROTO_TCP t.seq)
  else some (outgoing env s p t.srcport t.dstport IPPROTO_TCP t.seq)

-- The record of the port that an incoming datagram is for, if it is for a masqueraded machine.
def inbound (env : Env) (s : Masq) (port : Port) : Option Ptr :=
  if ¬ env.isLocal then none
  else
    match findRedirection s port with
    | some k => some (.redirection k)
    | none =>
        if MASQ_BASE_PORT ≤ port.toNat ∧ port.toNat < MASQ_BASE_PORT + MASQ_NUM_PORTS then
          some (.slot (port.toNat - MASQ_BASE_PORT))
        else none

-- A datagram from a masqueraded machine that is not for this one.
def outbound (env : Env) (s : Masq) (p : Dgram) : Bool :=
  s.addr = p.saddr &&& s.mask ∧ ¬ (env.isLocal ∧ s.flags &&& MASQ_LOCAL_PACKETS = 0)

-- From ip_defrag on.
def masqIpInput (env : Env) (s : Masq) (p : Dgram) : Option Result :=
  match inPort p.body with
  | none => some ⟨some p, false, none, s⟩
  | some port =>
      match inbound env s port with
      | some ptr => some (incoming env s p ptr)
      | none =>
          if outbound env s p then
            match p.body with
            | .tcp t => outgoingTcp env s p t
            | .udp srcport _ => some (outgoing env s p srcport 0 IPPROTO_UDP 0)
            | .icmp type id _ => if isRequest type then some (outgoing env s p id 0 IPPROTO_ICMP 0) else some ⟨some p, false, none, s⟩
            | .other => some ⟨some p, false, none, s⟩
          else some ⟨some p, false, none, s⟩

end MagxNet.Masquerade
