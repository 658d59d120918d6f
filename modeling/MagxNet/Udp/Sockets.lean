import MagxNet.Chksum.Routines
import MagxNet.Inet.Sockets
import MagxNet.Ip.Dgram
import MagxNet.Lib.Singly
import MagxNet.Tcp.Scatter

set_option autoImplicit false

namespace MagxNet.Udp

open Bytes
open Inet (SockaddrIn AF_INET EADDRNOTAVAIL EAFNOSUPPORT)
open Ip (ipHdrlen iphDaddr iphProto iphSaddr)
open Tcp (InAddr InPort Iovec SoState EINTR EINVAL EPIPE INADDR_ANY buf2iovCpy iovCopied iovSize ipSameAddr)

def UNLIMITED : Int := 0x7fffffff

def IN_DEFAULT_RSPACE : Int := 64240
def IN_MIN_RSPACE : Int := 4096
def IN_MAX_RSPACE : Int := 65535

def IPPROTO_ICMP : Nat := 1
def IPPROTO_TCP : Nat := 6
def IPPROTO_UDP : Nat := 17

-- struct udp_dgram without its data.
def UDP_MINLEN : Nat := 8

-- udp_proto and rip_proto.
inductive Handler where
  | udp
  | raw
deriving DecidableEq, Repr

structure Dataq where
  maxdatalen : Int
  curdatalen : Int
  qfirst : Option Nat
  qlast : Option Nat
deriving DecidableEq, Repr

-- What of an in_data, and of the socket that it belongs to, datagrams have to do with. Only TCP sets IN_DEAD.
structure Sock where
  proto : Handler
  protonum : Nat
  saddr : InAddr
  sport : InPort
  daddr : InAddr
  dport : InPort
  isbound : Bool
  isconnected : Bool
  err : Int
  state : SoState
  cantrcvmore : Bool
  cantsndmore : Bool
deriving DecidableEq, Repr

structure InData extends Sock where
  rcv : Dataq
deriving DecidableEq, Repr

-- The lists of the two protocols name their sockets by numbers, of which made counts those given so far. So do next and
-- prev with the buffers, whose bytes from dstart to dend are dgram. derefs and replies record the buffers that were given to
-- buf_deref and to icmp_send, and replies what was in them.
structure World where
  sock : Nat → InData
  made : Nat
  udp : List Nat
  raw : List Nat
  next : Nat → Option Nat
  prev : Nat → Option Nat
  dgram : Nat → Buffer
  bufs : Nat
  derefs : List Nat
  replies : List (Nat × Buffer)

-- Which build's checksum routine this is, and which calls of buf_clone find memory.
structure Env where
  build : Chksum.Build
  clone : Nat → Bool

section Fields

variable (w : World)

def settings (id : Nat) : Sock := (w.sock id).toSock

def setData (id : Nat) (d : InData) : World := { w with sock := Function.update w.sock id d }

def setSock (id : Nat) (s : Sock) : World := setData w id { w.sock id with toSock := s }

def setRcv (id : Nat) (q : Dataq) : World := setData w id { w.sock id with rcv := q }

def setNext (buf : Nat) (next : Option Nat) : World := { w with next := Function.update w.next buf next }

def setPrev (buf : Nat) (prev : Option Nat) : World := { w with prev := Function.update w.prev buf prev }

def bufDeref (buf : Nat) : World := { w with derefs := buf :: w.derefs }

def icmpSend (buf : Nat) : World := { w with replies := (buf, w.dgram buf) :: w.replies }

-- A new buffer, with these bytes.
def bufFilled (bytes : Buffer) : World := { w with dgram := Function.update w.dgram w.bufs bytes, bufs := w.bufs + 1 }

end Fields

def setErr (s : Sock) (err : Int) : Sock := { s with err := err }

def uh (dgram : Buffer) : Buffer := dgram.drop (ipHdrlen dgram)

def uhSrcport (dgram : Buffer) : InPort := get16 (uh dgram) 0
def uhDstport (dgram : Buffer) : InPort := get16 (uh dgram) 2
def uhLength (dgram : Buffer) : Nat := (get16 (uh dgram) 4).toNat
def uhChksum (dgram : Buffer) : BitVec 16 := get16 (uh dgram) 6

-- in_data_lookup and in_data_lookup_next

section Lookup

variable (srcaddr : InAddr) (srcport : InPort) (dstaddr : InAddr) (dstport : InPort)

def boundHere (d : Sock) : Bool := d.isbound && decide (d.sport = dstport) && ipSameAddr d.saddr dstaddr

def fromPeer (d : Sock) : Bool := decide (d.dport = srcport) && ipSameAddr srcaddr d.daddr

variable (sock : Nat → Sock)

def lookupLoop : List Nat → Option Nat → Option Nat
  | [], deflt => deflt
  | d :: rest, deflt =>
      if boundHere dstaddr dstport (sock d) then
        if (sock d).isconnected then
          if fromPeer srcaddr srcport (sock d) then some d else lookupLoop rest deflt
        else if deflt.all fun found => decide ((sock found).saddr = INADDR_ANY) then lookupLoop rest (some d)
        else lookupLoop rest deflt
      else lookupLoop rest deflt

def inDataLookup (datas : List Nat) : Option Nat := lookupLoop srcaddr srcport dstaddr dstport sock datas none

-- Whether in_data_lookup_next stops here; wildcard is set.
def nextHere (d : Sock) : Bool :=
  boundHere dstaddr dstport d && (!d.isconnected || fromPeer srcaddr srcport d)

end Lookup

-- The end of udp_input and of rip_input: the buffer is put behind the last one.
def enqueue (w : World) (id buf : Nat) (len : Int) : World :=
  let q := (w.sock id).rcv
  let w := setNext w buf none
  match q.qlast with
  | some last =>
      let w := setPrev (setNext w last (some buf)) buf (some last)
      setRcv w id { q with qlast := some buf, curdatalen := q.curdatalen + len }
  | none => setRcv (setPrev w buf none) id { q with qfirst := some buf, qlast := some buf, curdatalen := q.curdatalen + len }

-- udp.c

def pktlen (dgram : Buffer) : Int := dgram.length - ipHdrlen dgram

-- pktlen is first compared as an unsigned long.
def badLength (dgram : Buffer) : Bool :=
  decide ((BitVec.ofInt 32 (pktlen dgram)).toNat < UDP_MINLEN) || decide (pktlen dgram ≠ uhLength dgram)

def badChksum (env : Env) (dgram : Buffer) (saddr daddr : InAddr) : Bool :=
  decide (uhChksum dgram ≠ 0) && decide (Chksum.udp_checksum env.build (uh dgram) saddr daddr ≠ 0)

def full (d : InData) (len : Int) : Bool := decide (len + d.rcv.curdatalen > d.rcv.maxdatalen)

def udpFound (sock : Nat → Sock) (udp : List Nat) (dgram : Buffer) (saddr daddr : InAddr) : Option Nat :=
  inDataLookup saddr (uhSrcport dgram) daddr (uhDstport dgram) sock udp

-- Of a datagram for a port that is not there, a copy goes into the ICMP message.
def portUnreach (env : Env) (w : World) (buf : Nat) : World :=
  if env.clone 0 then icmpSend (bufFilled w (w.dgram buf)) w.bufs else w

-- The buffer stays with the caller if this is not zero.
def udpInput (env : Env) (w : World) (buf : Nat) (saddr daddr : InAddr) : Int × World :=
  if badLength (w.dgram buf) then (0, bufDeref w buf)
  else if badChksum env (w.dgram buf) saddr daddr then (0, bufDeref w buf)
  else match udpFound (settings w) w.udp (w.dgram buf) saddr daddr with
    | none => (-1, portUnreach env w buf)
    | some d =>
        if full (w.sock d) (pktlen (w.dgram buf) - UDP_MINLEN) then (0, bufDeref w buf)
        else if (w.sock d).cantrcvmore then (0, bufDeref w buf)
        else (0, enqueue w d buf (pktlen (w.dgram buf) - UDP_MINLEN))

-- The packet that an ICMP error is about went the other way.
def errorFound (sock : Nat → Sock) (udp : List Nat) (dgram : Buffer) (saddr daddr : InAddr) : Option Nat :=
  inDataLookup daddr (uhDstport dgram) saddr (uhSrcport dgram) sock udp

-- errno is what icmp_errno makes of the message.
def udpError (w : World) (buf : Nat) (saddr daddr : InAddr) (errno : Int) : World :=
  match errorFound (settings w) w.udp (w.dgram buf) saddr daddr with
  | none => bufDeref w buf
  | some d => if (w.sock d).isconnected then bufDeref (setSock w d (setErr (settings w d) errno)) buf else bufDeref w buf

def udpConnect (d : Sock) (addr : InAddr) (port : InPort) : Int × Sock :=
  if port = 0 then (EADDRNOTAVAIL, { d with isconnected := false })
  else (0, { d with daddr := addr, dport := port, isconnected := true })

-- rawip.c

def isInetProto (proto : Nat) : Bool :=
  decide (proto = IPPROTO_ICMP) || decide (proto = IPPROTO_TCP) || decide (proto = IPPROTO_UDP)

def ripWants (dgram : Buffer) (saddr daddr : InAddr) (d : Sock) : Bool :=
  nextHere saddr 0 daddr 0 d && (decide (d.protonum = 0) || decide (d.protonum = (iphProto dgram).toNat))

def ripTakes (dgram : Buffer) (d : InData) : Bool := !full d dgram.length && !d.cantrcvmore

-- The first socket gets the buffer itself, the others copies of it.
def ripBuf (env : Env) (w : World) (buf delivered : Nat) : Option (Nat × World) :=
  if delivered = 0 then some (buf, w)
  else if env.clone delivered then some (w.bufs, bufFilled w (w.dgram buf)) else none

structure Rip where
  found : Nat
  delivered : Nat
  world : World

def ripLoop (env : Env) (buf : Nat) (saddr daddr : InAddr) : List Nat → Rip → Rip
  | [], r => r
  | d :: rest, r =>
      if ripWants (r.world.dgram buf) saddr daddr (settings r.world d) then
        if ripTakes (r.world.dgram buf) (r.world.sock d) then
          match ripBuf env r.world buf r.delivered with
          | none => { r with found := r.found + 1 }
          | some (nbuf, w) =>
              ripLoop env buf saddr daddr rest ⟨r.found + 1, r.delivered + 1, enqueue w d nbuf (r.world.dgram buf).length⟩
        else ripLoop env buf saddr daddr rest { r with found := r.found + 1 }
      else ripLoop env buf saddr daddr rest r

def ripInput (env : Env) (w : World) (buf : Nat) (saddr daddr : InAddr) : Int × World :=
  let r := ripLoop env buf saddr daddr w.raw ⟨0, 0, w⟩
  if r.found ≠ 0 then (0, if r.delivered = 0 then bufDeref r.world buf else r.world)
  else if isInetProto (iphProto (w.dgram buf)).toNat then (0, bufDeref r.world buf)
  else (-1, r.world)

def ripConnect (d : Sock) (addr : InAddr) : Int × Sock := (0, { d with daddr := addr, dport := 0, isconnected := true })

-- What udp_recv and rip_recv do differently: which bytes the reader gets, how many, and which port he is told.

def dataOf (proto : Handler) (dgram : Buffer) : Buffer :=
  match proto with
  | .udp => (uh dgram).drop UDP_MINLEN
  | .raw => dgram

def todoOf (proto : Handler) (dgram : Buffer) : Int :=
  match proto with
  | .udp => uhLength dgram - UDP_MINLEN
  | .raw => dgram.length

def portOf (proto : Handler) (dgram : Buffer) : InPort :=
  match proto with
  | .udp => uhSrcport dgram
  | .raw => 0

-- The arguments of recv: the reader's memory, where the bytes are to go, and *addrlen if the sender is asked for; addrlen itself
-- may be null. port is the one that port_alloc finds if it is called.
structure RecvArgs where
  mem : Nat → Byte
  iov : List Iovec
  nonblock : Bool
  peek : Bool
  addrlen : Option (Option Int)
  port : InPort

-- What is returned, the reader's memory then, and what he is told of the sender: how much of the address, and the address.
inductive RecvResult where
  | returned (r : Int) (mem : Nat → Byte) (sender : Option (Int × InAddr × InPort))
  | asleep

def dequeue (w : World) (id buf : Nat) (todo : Int) : World :=
  let q := (w.sock id).rcv
  match w.next buf with
  | none => setRcv w id { q with qfirst := none, qlast := none, curdatalen := 0 }
  | some b => setPrev (setRcv w id { q with qfirst := some b, curdatalen := q.curdatalen - todo }) b none

def senderOf (proto : Handler) (dgram : Buffer) (addrlen : Option (Option Int)) : Option (Int × InAddr × InPort) :=
  addrlen.map fun len => (min (len.getD 0) Inet.SOCKADDR_LEN, iphSaddr dgram, portOf proto dgram)

def nothing (a : RecvArgs) (r : Int) : RecvResult := .returned r a.mem none

-- The loop of udp_recv and of rip_recv, up to a sleep, and what comes behind it.
def recvTurn (w : World) (id : Nat) (a : RecvArgs) : RecvResult × World :=
  match (w.sock id).rcv.qfirst with
  | none => (if a.nonblock ∨ (w.sock id).cantrcvmore then nothing a 0 else .asleep, w)
  | some buf =>
      let proto := (w.sock id).proto
      let todo := todoOf proto (w.dgram buf)
      (.returned (iovCopied todo a.iov 0) (buf2iovCpy (get8 (dataOf proto (w.dgram buf))) a.mem todo a.iov 0)
          (senderOf proto (w.dgram buf) a.addrlen),
        if a.peek then w else bufDeref (dequeue w id buf todo) buf)

-- What udp_recv and rip_recv refuse before they look at the queue.
def refused (a : RecvArgs) : Option Int :=
  if iovSize a.iov = 0 then some 0
  else if iovSize a.iov < 0 then some EINVAL
  else if a.addrlen.any fun len => len.all fun n => decide (n < 0) then some EINVAL
  else none

def protoRecv (w : World) (id : Nat) (a : RecvArgs) : RecvResult × World :=
  match refused a with
  | some r => (nothing a r, w)
  | none => recvTurn w id a

-- What stops a reader after a sleep, and what is left of the socket's error.
def wokenBy (s : Sock) (interrupted : Bool) : Option (Int × Sock) :=
  if interrupted then some (EINTR, s)
  else if s.state ≠ .isunconnected then some (0, s)
  else if s.err ≠ 0 then some (s.err, setErr s 0)
  else none

def recvWoken (w : World) (id : Nat) (a : RecvArgs) (interrupted : Bool) : RecvResult × World :=
  match wokenBy (settings w id) interrupted with
  | some (r, s) => (nothing a r, setSock w id s)
  | none => recvTurn w id a

def readable (s : Sock) (waiting : Bool) : Bool := s.cantrcvmore || decide (s.err ≠ 0) || waiting

def selectRead (w : World) (id : Nat) : Bool := readable (settings w id) (w.sock id).rcv.qfirst.isSome

def fionread (w : World) (id : Nat) : Int :=
  if (w.sock id).cantrcvmore ∨ (w.sock id).err ≠ 0 then UNLIMITED
  else match (w.sock id).rcv.qfirst with
    | none => 0
    | some buf => todoOf (w.sock id).proto (w.dgram buf)

-- inetutil.c

def inDataCreate (proto : Handler) (protonum : Nat) : InData :=
  ⟨⟨proto, protonum, 0, 0, 0, 0, false, false, 0, .isunconnected, false, false⟩, ⟨IN_DEFAULT_RSPACE, 0, none, none⟩⟩

def inDataPut (w : World) (d : InData) : World :=
  let w1 := { setData w w.made d with made := w.made + 1 }
  match d.proto with
  | .udp => { w1 with udp := w.made :: w.udp }
  | .raw => { w1 with raw := w.made :: w.raw }

def inDataRemove (w : World) (id : Nat) : World :=
  match (w.sock id).proto with
  | .udp => { w with udp := w.udp.erase id }
  | .raw => { w with raw := w.raw.erase id }

-- The loop of in_data_flush; none stands for one that does not end. The sending queue of these sockets is always empty.
def flushLoop : Nat → World → Option Nat → Option World
  | 0, _, _ => none
  | _ + 1, w, none => some w
  | fuel + 1, w, some buf => flushLoop fuel (bufDeref w buf) (w.next buf)

def inDataFlush (w : World) (id : Nat) : Option World :=
  (flushLoop (w.bufs + 1) w (w.sock id).rcv.qfirst).map fun w1 =>
    setRcv w1 id { (w1.sock id).rcv with curdatalen := 0, qfirst := none, qlast := none }

-- inet.c, as far as these sockets go

def autobind (s : Sock) (port : InPort) : Sock :=
  if s.isbound then s else { s with saddr := INADDR_ANY, sport := if s.proto = .raw then 0 else port, isbound := true }

-- What inet_bind does when it finds nothing else wrong.
def bind (s : Sock) (addr : InAddr) (port : InPort) : Int × Sock :=
  if s.isbound then (EINVAL, s) else (0, { s with saddr := addr, sport := port, isbound := true })

-- faddr is what ip_dst_addr makes of the address, and port what port_alloc finds if it is called.
structure ConnectArgs where
  addr : Option SockaddrIn
  addrlen : Nat
  faddr : InAddr
  port : InPort
deriving DecidableEq, Repr

def disconnect (s : Sock) : Sock := { s with isconnected := false }

def inetConnect (s : Sock) (args : ConnectArgs) : Int × Sock :=
  match args.addr with
  | none => (EINVAL, disconnect s)
  | some a =>
      if args.addrlen ≠ Inet.SOCKADDR_LEN then (EINVAL, disconnect s)
      else if a.family ≠ AF_INET then (EAFNOSUPPORT, disconnect s)
      else match s.proto with
        | .udp => udpConnect (autobind s args.port) args.faddr a.port
        | .raw => ripConnect (autobind s args.port) args.faddr

def rcvbufSize (val : Int) : Int :=
  if val > IN_MAX_RSPACE then IN_MAX_RSPACE else if val < IN_MIN_RSPACE then IN_MIN_RSPACE else val

def setRcvbuf (w : World) (id : Nat) (val : Int) : World :=
  setRcv w id { (w.sock id).rcv with maxdatalen := rcvbufSize val }

-- What inet_send returns before it goes on to the protocol, and what is left of the socket's error.
def sendStopped (s : Sock) (addr : Option SockaddrIn) (addrlen : Nat) : Option (Int × Sock) :=
  if s.state = .isdisconnecting ∨ s.state = .isdisconnected then some (EPIPE, s)
  else if s.err ≠ 0 then some (s.err, setErr s 0)
  else if s.cantsndmore then some (EPIPE, s)
  else match addr with
    | none => none
    | some a =>
        if addrlen ≠ Inet.SOCKADDR_LEN then some (EINVAL, s) else if a.family ≠ AF_INET then some (EAFNOSUPPORT, s) else none

-- sent is what udp_send or rip_send returns; they change nothing here.
def inetSend (s : Sock) (addr : Option SockaddrIn) (addrlen : Nat) (port : InPort) (sent : Int) : Int × Sock :=
  match sendStopped s addr addrlen with
  | some r => r
  | none => (sent, autobind s port)

-- What inet_recv returns before it goes on to the protocol, and what is left of the socket's error.
def recvStopped (s : Sock) : Option (Int × Sock) :=
  if s.state = .isdisconnecting ∨ s.state = .isdisconnected then some (0, s)
  else if s.err ≠ 0 then some (s.err, setErr s 0)
  else none

def inetRecv (w : World) (id : Nat) (a : RecvArgs) : RecvResult × World :=
  match recvStopped (settings w id) with
  | some (r, s) => (nothing a r, setSock w id s)
  | none => protoRecv (setSock w id (autobind (settings w id) a.port)) id a

def gone (s : Sock) : Sock := { s with state := .isdisconnected }

-- so_release, udp_detach and in_data_destroy.
def soRelease (w : World) (id : Nat) : Option World :=
  (inDataFlush (inDataRemove w id) id).map fun w1 => setSock w1 id (gone (settings w1 id))

-- mgx_shutdown: which directions are shut.
def shut (s : Sock) (how : Int) : Sock :=
  match how with
  | 0 => { s with cantrcvmore := true }
  | 1 => { s with cantsndmore := true }
  | 2 => { s with cantrcvmore := true, cantsndmore := true }
  | _ => s

def bothShut (s : Sock) : Bool := s.cantrcvmore && s.cantsndmore

-- A socket that is shut both ways is released.
def inetShutdown (w : World) (id : Nat) (how : Int) (port : InPort) : Option World :=
  let s := shut (settings w id) how
  let w1 := setSock w id (autobind s port)
  if bothShut s then soRelease w1 id else some w1

-- The loop of ip_input over the protocols, for a datagram that no other protocol takes: what udp_input does not take,
-- or is not for it, goes to rip_input, and what that does not take into an ICMP message.
def deliver (env : Env) (w : World) (buf : Nat) : World :=
  let saddr := iphSaddr (w.dgram buf)
  let daddr := iphDaddr (w.dgram buf)
  let first := if (iphProto (w.dgram buf)).toNat = IPPROTO_UDP then udpInput env w buf saddr daddr else (-1, w)
  let second := if first.1 = 0 then first else ripInput env first.2 buf saddr daddr
  if second.1 = 0 then second.2 else icmpSend second.2 buf

-- rip_error only frees the buffer, and so does the error function of a protocol without one of its own.
def report (w : World) (buf : Nat) (errno : Int) : World :=
  if (iphProto (w.dgram buf)).toNat = IPPROTO_UDP then udpError w buf (iphSaddr (w.dgram buf)) (iphDaddr (w.dgram buf)) errno
  else bufDeref w buf

-- What can happen: the calls of users, and a datagram or the packet quoted in an ICMP error coming in a new buffer.
inductive Op where
  | attach (proto : Handler) (protonum : Nat)
  | bind (id : Nat) (addr : InAddr) (port : InPort)
  | connect (id : Nat) (args : ConnectArgs)
  | rcvbuf (id : Nat) (val : Int)
  | send (id : Nat) (addr : Option SockaddrIn) (addrlen : Nat) (port : InPort) (sent : Int)
  | shutdown (id : Nat) (how : Int) (port : InPort)
  | release (id : Nat)
  | recv (id : Nat) (a : RecvArgs)
  | woken (id : Nat) (a : RecvArgs) (interrupted : Bool)
  | select (id : Nat)
  | fionread (id : Nat)
  | input (env : Env) (dgram : Buffer)
  | error (dgram : Buffer) (errno : Int)

-- replied lists the datagrams that ICMP messages are sent about.
inductive Answer where
  | nothing
  | code (r : Int)
  | ready (r : Bool)
  | recv (r : RecvResult)
  | replied (dgrams : List Buffer)

def World.init : World :=
  ⟨fun _ => inDataCreate .udp 0, 0, [], [], fun _ => none, fun _ => none, fun _ => [], 0, [], []⟩

-- A user calls only for sockets that are there and not shut both ways; a call that slept may come back later, and its
-- arguments were looked at before.
def comes (live : List Nat) : Op → Bool
  | .bind id _ _ | .connect id _ | .rcvbuf id _ | .send id _ _ _ _ | .shutdown id _ _ | .release id | .recv id _ | .select id
  | .fionread id =>
      decide (id ∈ live)
  | .woken _ a _ => (refused a).isNone
  | .attach _ _ | .input _ _ | .error _ _ => true

def newReplies (w w' : World) : List Buffer := (w'.replies.take (w'.replies.length - w.replies.length)).map Prod.snd

def called (w : World) (id : Nat) (r : Int × Sock) : Option (Answer × World) := some (.code r.1, setSock w id r.2)

def act (w : World) : Op → Option (Answer × World)
  | .attach proto protonum => some (.nothing, inDataPut w (inDataCreate proto protonum))
  | .bind id addr port => called w id (bind (settings w id) addr port)
  | .connect id args => called w id (inetConnect (settings w id) args)
  | .rcvbuf id val => some (.code 0, setRcvbuf w id val)
  | .send id addr addrlen port sent => called w id (inetSend (settings w id) addr addrlen port sent)
  | .shutdown id how port => (inetShutdown w id how port).map fun w' => (.code 0, w')
  | .release id => (soRelease w id).map fun w' => (.nothing, w')
  | .recv id a => some (.recv (inetRecv w id a).1, (inetRecv w id a).2)
  | .woken id a interrupted => some (.recv (recvWoken w id a interrupted).1, (recvWoken w id a interrupted).2)
  | .select id => some (.ready (selectRead w id), w)
  | .fionread id => some (.code (fionread w id), w)
  | .input env dgram =>
      let w' := deliver env (bufFilled w dgram) w.bufs
      some (.replied (newReplies w w'), w')
  | .error dgram errno => some (.nothing, report (bufFilled w dgram) w.bufs errno)

def step (w : World) (op : Op) : Option (Answer × World) :=
  if comes (w.udp ++ w.raw) op then act w op else some (.nothing, w)

def run (w : World) : List Op → Option (List Answer × World)
  | [] => some ([], w)
  | op :: rest => (step w op).bind fun r => (run r.2 rest).map fun later => (r.1 :: later.1, later.2)

end MagxNet.Udp
