import MagxNet.Tcp.Queue

set_option autoImplicit false

namespace MagxNet.Tcp

open Bytes

def EVTGRAN : Int := 10
def TCP_MSS : Int := 1460
def TCP_MAXMSS : Int := 0x2000
def TCP_MSL : Int := 30000 / EVTGRAN
def TCP_MINRETRANS : Int := 200 / EVTGRAN
def TCP_MAXRETRANS : Int := 100000 / EVTGRAN
def TCP_MAXPROBE : Int := 30000 / EVTGRAN
def TCP_MAXRETRY : Int := 15
def TCP_ACKDELAY : Int := 15 / EVTGRAN
def TCP_CONN_TMOUT : Int := 10 * 60 * 1000 / EVTGRAN
def TCP_DUPTHRESH : Int := 3
def TCP_DROPTHRESH : Int := 1

def IN_DEFAULT_SPACE : Int := 64240
def IN_MAX_SPACE : Int := 65535
def IN_MIN_SPACE : Int := 8192 / 2

def EINTR : Int := -128
def ENOMEM : Int := -39
-- The code takes EINVAL for ENOSYS.
def EINVAL : Int := -32
def EAGAIN : Int := -326
def ECONNRESET : Int := -316
def ECONNREFUSED : Int := -321
def ETIMEDOUT : Int := -320
def EPIPE : Int := -81
def ENOTCONN : Int := -318
def EISCONN : Int := -317
def EINPROGRESS : Int := -325

inductive TcbState where
  | closed
  | listen
  | synsent
  | synrcvd
  | established
  | finwait1
  | finwait2
  | closewait
  | lastack
  | closing
  | timewait
deriving DecidableEq, Repr

-- The TCBS_ constants, by which the states are compared.
def TcbState.num : TcbState → Nat
  | .closed => 0
  | .listen => 1
  | .synsent => 2
  | .synrcvd => 3
  | .established => 4
  | .finwait1 => 5
  | .finwait2 => 6
  | .closewait => 7
  | .lastack => 8
  | .closing => 9
  | .timewait => 10

-- At least TCBS_SYNRCVD.
def TcbState.synced (s : TcbState) : Bool := decide (TcbState.synrcvd.num ≤ s.num)

inductive OutState where
  | idle
  | retrans
  | persist
  | xmit
deriving DecidableEq, Repr

inductive OutEvent where
  | send
  | ackrcvd
  | wndopen
  | wndclose
  | timeout
  | dupack
deriving DecidableEq, Repr

structure TcbFlags where
  psh : Bool
  fin : Bool
  passive : Bool
  dortt : Bool
  ndelay : Bool
  delack : Bool
  ackvalid : Bool
deriving DecidableEq, Repr

-- A pending event is recorded with the delay it was set to.
structure Tcb where
  state : TcbState
  ostate : OutState
  flags : TcbFlags
  sndIsn : Seq
  sndUna : Seq
  sndNxt : Seq
  sndMax : Seq
  sndWnd : Int
  sndCwnd : Int
  sndThresh : Int
  sndWndseq : Seq
  sndWndack : Seq
  sndWndmax : Int
  sndPpw : Int
  sndMss : Int
  sndUrg : Seq
  rcvIsn : Seq
  rcvNxt : Seq
  rcvWnd : Seq
  rcvMss : Int
  rcvUrg : Seq
  seqPsh : Seq
  seqFin : Seq
  seqRead : Seq
  seqUread : Seq
  seqWrite : Seq
  rttseq : Seq
  rtt : Int
  rttdev : Int
  backoff : Nat
  dupacks : Int
  nretrans : Int
  retransTmo : Int
  persistTmo : Int
  timerEvt : Option Int
  deleteEvt : Option Int
  ackEvt : Option Int
  lastRecv : Int
  lastAck : Int
  artt : Int
  arttdev : Int

inductive SoState where
  | virgin
  | isunconnected
  | isconnecting
  | isconnected
  | isdisconnecting
  | isdisconnected
deriving DecidableEq, Repr

-- Of a listening socket, queued counts the clients on its iconn_q.
structure Socket where
  state : SoState
  acceptcon : Bool
  cantrcvmore : Bool
  cantsndmore : Bool
  queued : Nat
deriving DecidableEq, Repr

structure InData where
  sock : Option Socket
  snd : Dataq
  rcv : Dataq
  saddr : InAddr
  sport : InPort
  daddr : InAddr
  dport : InPort
  isbound : Bool
  isconnected : Bool
  oobinline : Bool
  dead : Bool
  backlog : Nat
  err : Int
deriving DecidableEq, Repr

-- Which function handed a datagram to ip_send, the datagram, and the tcb at that moment. The tcb is a
-- record kept for the proofs.
inductive Emitter where
  | output
  | sndseg
  | probe
  | sndack
  | sndrst
deriving DecidableEq, Repr

structure Sent where
  emitter : Emitter
  tcph : Dgram
  tcb : Tcb

-- The route and interface data that tcp_mss looks at.
structure Route where
  mtu : Int
  metric : Int
  gateway : Bool
  maxpackets : Int
deriving DecidableEq, Repr

-- What the rest of the kernel answers: whether the n-th buffer can be had, what the n-th ip_send
-- returns, the checksum routine, the addresses that broadcast, the routes, and the time of day.
structure Env where
  memory : Nat → Bool
  ipSend : Nat → Int
  chksum : Dgram → InAddr → InAddr → BitVec 16
  isBroadcast : InAddr → Bool
  route : InAddr → Option Route
  unixtime : Seq

-- The surroundings of a connection. A fault is a copy of more than 2^31 bytes or a null pointer:
-- nothing the kernel does after it is described here.
structure Net where
  now : Int
  isn : Seq
  allocs : Nat
  sends : Nat
  sent : List Sent
  freed : List Nat
  fault : Bool

-- What tcp_output has put into the sequence space, from snd_isn on.
inductive Item where
  | syn
  | byte (b : Byte)
  | fin
deriving DecidableEq, Repr

-- An incoming buffer: IP addresses and the datagram; a runt is shorter than the fixed header.
structure Pkt where
  id : Nat
  saddr : InAddr
  daddr : InAddr
  runt : Bool
  tcph : Dgram
deriving DecidableEq, Repr

-- One connection: its tcb, the in_data behind it, and its surroundings. alive is dropped when tcb
-- and in_data are freed. The stream is a record kept for the proofs; no function reads it.
structure World where
  tcb : Tcb
  data : InData
  net : Net
  alive : Bool
  stream : List Item

def DIFTIME (o n : Int) : Int := (n - o) >>> (1 : Nat)

def bufDeref (w : World) (id : Nat) : World := { w with net.freed := w.net.freed ++ [id] }

def bufsDeref (w : World) (ids : List Nat) : World := { w with net.freed := w.net.freed ++ ids }

-- The n-th buffer is known by the number n.
def bufAlloc (env : Env) (w : World) : Option Nat × World :=
  (if env.memory w.net.allocs then some w.net.allocs else none, { w with net.allocs := w.net.allocs + 1 })

def ipSend (env : Env) (w : World) (emitter : Emitter) (tcph : Dgram) : Int × World :=
  (env.ipSend w.net.sends, { w with net.sends := w.net.sends + 1, net.sent := w.net.sent ++ [⟨emitter, tcph, w.tcb⟩] })

def fault (w : World) : World := { w with net.fault := true }

def setState (w : World) (state : TcbState) : World := { w with tcb.state := state }

def setOstate (w : World) (ostate : OutState) : World := { w with tcb.ostate := ostate }

def setSndNxt (w : World) (nxt : Seq) : World := { w with tcb.sndNxt := nxt }

def setRcvNxt (w : World) (nxt : Seq) : World := { w with tcb.rcvNxt := nxt }

def setSndq (w : World) (q : List Buf) : World := { w with data.snd.q := q }

def setRcvq (w : World) (q : Dataq) : World := { w with data.rcv := q }

def clearDelack (w : World) : World := { w with tcb.flags.delack := false }

-- The timer package: an event that is not pending is not found by event_reset.
def timerAdd (w : World) (delta : Int) : World := { w with tcb.timerEvt := some delta }

def timerDel (w : World) : World := { w with tcb.timerEvt := none }

def timerReset (w : World) (delta : Int) : World :=
  { w with tcb.timerEvt := w.tcb.timerEvt.map fun _ => delta }

end MagxNet.Tcp
