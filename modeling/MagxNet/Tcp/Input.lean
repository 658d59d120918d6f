import MagxNet.Tcp.In

set_option autoImplicit false

namespace MagxNet.Tcp

open Bytes

def setDead (w : World) : World := { w with data.dead := true }

def resetOrSyn (pkt : Pkt) : Bool := pkt.tcph.flags.rst || pkt.tcph.flags.syn

-- A reset, a SYN, or data that no socket waits for any more.
def unwelcome (w : World) (pkt : Pkt) : Bool :=
  resetOrSyn pkt || (w.data.sock.isNone && decide (tcpDatalen pkt.tcph ≠ 0))

def tcbsClosed (env : Env) (w : World) (pkt : Pkt) : World := bufDeref (tcpSndrst env w pkt) pkt.id

def childData (w : World) (pkt : Pkt) : InData :=
  { inDataCreate with
    sock := some ⟨.isunconnected, false, false, false, 0⟩
    saddr := pkt.daddr
    sport := pkt.tcph.dstport
    daddr := pkt.saddr
    dport := pkt.tcph.srcport
    isbound := true
    isconnected := true
    oobinline := w.data.oobinline }

def startRcv (w : World) (seq : Seq) : World :=
  { w with
    tcb.rcvIsn := seq
    tcb.rcvNxt := seq
    tcb.rcvWnd := seq
    tcb.rcvUrg := seq
    tcb.seqRead := seq + 1
    tcb.seqUread := seq + 1 }

def setPassive (w : World) : World := { w with tcb.flags.passive := true }

-- The child tcb of a listening socket, before so_connect.
def listenChild (env : Env) (w : World) (pkt : Pkt) : World :=
  openRcvMss env (startRcv (setIsn (setState (setPassive
    ⟨tcbAlloc, childData w pkt, (tcpIsn env w.net).2, true, []⟩) .synrcvd) (tcpIsn env w.net).1) pkt.tcph.seq)

def setSndMss (w : World) (mss : Int) : World :=
  { w with
    tcb.sndMss := mss
    tcb.sndCwnd := mss
    tcb.sndThresh := if w.tcb.sndThresh < 2 * mss then 2 * mss else w.tcb.sndThresh }

-- The segment size that the peer's option and the route allow; none when tcp_options never returns.
def openSndMss (env : Env) (w : World) (pkt : Pkt) : World :=
  match tcpOptions pkt.tcph with
  | none => fault w
  | some r => setSndMss (limitRcv env w w.data.daddr r) (tcpMss env w w.data.daddr r)

def synAck (env : Env) (w : World) : World := (tcpOutput env w [] TCPF_SYN_ACK).2

-- The child once so_connect has put it on the listener's queue.
def childAnswer (env : Env) (w : World) (pkt : Pkt) : World :=
  synAck env (tcpRcvdata env (openSndMss env (setSockState w .isconnecting) pkt) pkt)

def setNet (w : World) (net : Net) : World := { w with net := net }

def countQueued (w : World) : World :=
  { w with data.sock := w.data.sock.map fun so => { so with queued := so.queued + 1 } }

-- Whether so_connect takes one more client.
def listens (w : World) : Bool := w.data.sock.any fun so => so.acceptcon && decide (so.queued < w.data.backlog)

-- The connection that a listening one spawns, when the segment gets that far.
def listenSpawn (env : Env) (w : World) (pkt : Pkt) (duplicate : Bool) : Option World :=
  if pkt.tcph.flags.rst ∨ ¬ pkt.tcph.flags.syn ∨ pkt.tcph.flags.ack ∨ duplicate ∨ env.isBroadcast pkt.daddr then none
  else if listens w then some (childAnswer env (listenChild env w pkt) pkt)
  else none

-- The listening connection afterwards. (Memory for the new socket is taken to be there.)
def tcbsListen (env : Env) (w : World) (pkt : Pkt) (duplicate : Bool) : World :=
  if pkt.tcph.flags.rst ∨ ¬ pkt.tcph.flags.syn then bufDeref w pkt.id
  else if pkt.tcph.flags.ack then bufDeref (tcpSndrst env w pkt) pkt.id
  else if duplicate ∨ env.isBroadcast pkt.daddr then bufDeref w pkt.id
  else if w.data.sock.isNone then fault w
  else if listens w then
    countQueued (setNet w (childAnswer env (listenChild env w pkt) pkt).net)
  else bufDeref (tcpSndrst env (setNet w (listenChild env w pkt).net) pkt) pkt.id

-- A connection whose SYN is answered by a SYN, which may carry an ack of it.
def synsentOpen (w : World) (pkt : Pkt) : World :=
  if SEQGT w.tcb.sndUna w.tcb.sndIsn then
    setSockState (setWindow (setState w .established) pkt.tcph) .isconnected
  else setState w .synrcvd

def synsentAccept (env : Env) (w : World) (pkt : Pkt) : World :=
  sendAck env (tcpRcvdata env
    (openSndMss env (synsentOpen (tcpAck env (startRcv w pkt.tcph.seq) pkt false) pkt) pkt) pkt)

def closeSock (w : World) (err : Int) : World :=
  setSockState (setState (tcbReset w err) .closed) .isdisconnecting

def tcbsSynsent (env : Env) (w : World) (pkt : Pkt) : World :=
  if pkt.tcph.flags.ack ∧ (SEQLE pkt.tcph.ack w.tcb.sndIsn ∨ SEQGT pkt.tcph.ack w.tcb.sndMax) then
    bufDeref (tcpSndrst env w pkt) pkt.id
  else if pkt.tcph.flags.rst then
    bufDeref (if pkt.tcph.flags.ack then closeSock w ECONNREFUSED else w) pkt.id
  else if ¬ pkt.tcph.flags.syn ∨ env.isBroadcast pkt.daddr then bufDeref w pkt.id
  else synsentAccept env w pkt

-- How a half-open connection ends.
def synrcvdAbort (w : World) : World :=
  if w.tcb.flags.passive then soFree (setState w .closed) else closeSock w ECONNRESET

def synrcvdOpen (w : World) (pkt : Pkt) : World := setWindow (setState w .established) pkt.tcph

def noteConnected (w : World) : World := if w.tcb.flags.passive then w else setSockState w .isconnected

def synrcvdDone (w : World) : World :=
  if tcpFinished w then setSockState (setState w .closewait) .isdisconnecting else w

def synrcvdAccept (env : Env) (w : World) (pkt : Pkt) : World :=
  synrcvdDone (noteConnected (tcpRcvdata env (synrcvdOpen (tcpAck env w pkt false) pkt) pkt))

def tcbsSynrcvd (env : Env) (w : World) (pkt : Pkt) : World :=
  if pkt.tcph.flags.rst then bufDeref (synrcvdAbort w) pkt.id
  else if pkt.tcph.flags.syn then bufDeref (synrcvdAbort (tcpSndrst env w pkt)) pkt.id
  else if ¬ pkt.tcph.flags.ack then bufDeref w pkt.id
  else synrcvdAccept env w pkt

def hangUp (w : World) : World := setState (tcbReset w ECONNRESET) .closed

def closewaitIfFinished (w : World) : World := if tcpFinished w then setState w .closewait else w

def tcbsEstablished (env : Env) (w : World) (pkt : Pkt) : World :=
  if pkt.tcph.flags.rst then bufDeref (hangUp w) pkt.id
  else if pkt.tcph.flags.syn then bufDeref (hangUp (tcpSndrst env w pkt)) pkt.id
  else if ¬ pkt.tcph.flags.ack then bufDeref w pkt.id
  else closewaitIfFinished (tcpRcvdata env (tcpAck env w pkt true) pkt)

-- Reset sent, connection reset and deleted, the segment released.
def refuse (env : Env) (w : World) (pkt : Pkt) : World :=
  tcbDelete (setState (bufDeref (tcbReset (tcpSndrst env w pkt) ECONNRESET) pkt.id) .closed)

def toTimewait (w : World) : World := tcbWait (setDead (setState w .timewait))

-- The FIN of this side counts as acked when nothing written is unacked.
def finAcked (w : World) : Prop := SEQLE w.tcb.seqWrite w.tcb.sndUna

instance (w : World) : Decidable (finAcked w) := inferInstanceAs (Decidable (SEQLE _ _))

def finwait1Done (w : World) : World :=
  if tcpFinished w then if finAcked w then toTimewait w else setState w .closing
  else if finAcked w then tcbWait (setState w .finwait2) else w

def tcbsFinwait1 (env : Env) (w : World) (pkt : Pkt) : World :=
  if unwelcome w pkt then refuse env w pkt
  else if ¬ pkt.tcph.flags.ack then bufDeref w pkt.id
  else finwait1Done (tcpRcvdata env (tcpAck env w pkt true) pkt)

def finwait2Done (w : World) : World := if tcpFinished w then toTimewait w else w

def tcbsFinwait2 (env : Env) (w : World) (pkt : Pkt) : World :=
  if unwelcome w pkt then
    tcbDelete (setState (tcbReset (bufDeref (tcpSndrst env w pkt) pkt.id) ECONNRESET) .closed)
  else if ¬ pkt.tcph.flags.ack then bufDeref w pkt.id
  else finwait2Done (tcpRcvdata env (tcpAck env w pkt false) pkt)

def tcbsClosewait (env : Env) (w : World) (pkt : Pkt) : World :=
  if resetOrSyn pkt then refuse env w pkt
  else bufDeref (tcpAck env w pkt true) pkt.id

def lastackDone (w : World) : World := if finAcked w then tcbDelete (setDead (setState w .closed)) else w

def tcbsLastack (env : Env) (w : World) (pkt : Pkt) : World :=
  if unwelcome w pkt then refuse env w pkt else lastackDone (tcpAck env w pkt false)

def closingDone (w : World) : World := if finAcked w then toTimewait w else w

def tcbsClosing (env : Env) (w : World) (pkt : Pkt) : World :=
  if unwelcome w pkt then refuse env w pkt else closingDone (tcpAck env w pkt false)

def tcbsTimewait (env : Env) (w : World) (pkt : Pkt) : World :=
  if unwelcome w pkt then tcbDelete (setState (bufDeref (tcpSndrst env w pkt) pkt.id) .closed)
  else tcbWait (tcpRcvdata env (tcpAck env w pkt false) pkt)

def tcbState (env : Env) (w : World) (pkt : Pkt) (duplicate : Bool) : World :=
  match w.tcb.state with
  | .closed => tcbsClosed env w pkt
  | .listen => tcbsListen env w pkt duplicate
  | .synsent => tcbsSynsent env w pkt
  | .synrcvd => tcbsSynrcvd env w pkt
  | .established => tcbsEstablished env w pkt
  | .finwait1 => tcbsFinwait1 env w pkt
  | .finwait2 => tcbsFinwait2 env w pkt
  | .closewait => tcbsClosewait env w pkt
  | .lastack => tcbsLastack env w pkt
  | .closing => tcbsClosing env w pkt
  | .timewait => tcbsTimewait env w pkt

-- The urgent data is taken out of a segment before tcp_valid looks at it.
def inputUrgent (env : Env) (w : World) (pkt : Pkt) : Pkt × World :=
  if pkt.tcph.flags.urg then tcpRcvurg env (setLastRecv w) pkt else (pkt, setLastRecv w)

-- The segment that the state function sees.
def withTcph (pkt : Pkt) (tcph : Dgram) : Pkt := { pkt with tcph := tcph }

def gatePkt (w : World) (pkt : Pkt) : Pkt := withTcph pkt (tcpValid w pkt.tcph).2

def gatePass (env : Env) (w : World) (pkt : Pkt) (duplicate : Bool) : World :=
  if (tcpValid w pkt.tcph).1 then tcbState env w (gatePkt w pkt) duplicate
  else bufDeref (tcpSndack env w (gatePkt w pkt)) pkt.id

-- The part of tcp_input behind the lookup, for a connection that is not hit by the land attack.
def inputFound (env : Env) (w : World) (pkt : Pkt) (duplicate : Bool) : World :=
  gatePass env (inputUrgent env w pkt).2 (inputUrgent env w pkt).1 duplicate

-- The connection that a listening one spawns for the segment.
def inputSpawn (env : Env) (w : World) (pkt : Pkt) (duplicate : Bool) : Option World :=
  if w.tcb.state = .listen then
    listenSpawn env (inputUrgent env w pkt).2 (gatePkt (inputUrgent env w pkt).2 (inputUrgent env w pkt).1) duplicate
  else none

-- tcp_error: a source quench slows the sender down, a hard error aborts, others are only noted.
inductive IcmpError where
  | sourceQuench
  | hard (err : Int)
  | soft (err : Int)
deriving DecidableEq, Repr

def noteError (w : World) (error : IcmpError) : World :=
  match error with
  | .sourceQuench => shrinkCwnd w
  | .hard err => closeWith w err
  | .soft err => if w.data.sock.isSome then tcbError w err else w

def tcpError (w : World) (id : Nat) (error : IcmpError) : World := bufDeref (noteError w error) id

end MagxNet.Tcp
