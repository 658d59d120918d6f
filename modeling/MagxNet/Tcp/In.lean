import MagxNet.Tcp.Sock

set_option autoImplicit false

namespace MagxNet.Tcp

open Bytes

def tcpFinished (w : World) : Bool := w.tcb.flags.fin && decide (SEQLT w.tcb.seqFin w.tcb.rcvNxt)

-- The next sequence number beyond the continuous run of received bytes that starts the list.
def chainNxt : List Buf → Seq → Seq
  | [], nxt => nxt
  | b :: rest, nxt => if SEQLE (SEQ1ST b) nxt then chainNxt rest (SEQNXT b) else nxt

-- The segment as tcp_rcvdata queues it: its data length in urgptr, the special flags taken off.
def rcvSeg (pkt : Pkt) : Buf :=
  let th := pkt.tcph
  ⟨pkt.id, 0, { th with
    urgptr := BitVec.ofInt 16 (tcpDatalen th)
    seq := if th.flags.syn then th.seq + 1 else th.seq
    flags := { th.flags with syn := false, psh := false, fin := false } }⟩

def segStop (pkt : Pkt) : Seq := SEQ1ST (rcvSeg pkt) + BitVec.ofInt 32 (tcpDatalen pkt.tcph)

def noteSyn (w : World) (pkt : Pkt) : World :=
  if pkt.tcph.flags.syn then setRcvNxt w (w.tcb.rcvNxt + 1) else w

def noteFin (w : World) (pkt : Pkt) : World :=
  if pkt.tcph.flags.fin then { w with tcb.flags.fin := true, tcb.seqFin := segStop pkt } else w

def notePsh (w : World) (pkt : Pkt) : World :=
  if pkt.tcph.flags.psh then { w with tcb.flags.psh := true, tcb.seqPsh := segStop pkt } else w

-- SYN, FIN and PSH of the segment, noted before its data.
def rcvFlags (w : World) (pkt : Pkt) : World := notePsh (noteFin (noteSyn w pkt) pkt) pkt

-- Where the data received without a gap ends once buf is on the queue.
def chainedNxt (w : World) (buf : Buf) : Seq :=
  if (tcpAddseg w.data.rcv buf).taken then chainNxt (buf :: (tcpAddseg w.data.rcv buf).tail) w.tcb.rcvNxt
  else w.tcb.rcvNxt

def recvSeg (w : World) (buf : Buf) : World :=
  bufsDeref (setRcvq w (tcpAddseg w.data.rcv buf).q) (tcpAddseg w.data.rcv buf).freed

def atFin (w : World) (nxt : Seq) : Bool := w.tcb.flags.fin && (w.tcb.seqFin == nxt)

-- Whether the segment's ack has to go out at once.
def acksNow (w : World) (pkt : Pkt) : Bool :=
  !(tcpAddseg w.data.rcv (rcvSeg pkt)).taken || (w.tcb.rcvNxt != SEQ1ST (rcvSeg pkt))
    || (chainedNxt w (rcvSeg pkt) - w.tcb.rcvNxt != BitVec.ofInt 32 (tcpDatalen pkt.tcph))
    || atFin w (chainedNxt w (rcvSeg pkt))

def rcvQueue (w : World) (pkt : Pkt) : World :=
  setRcvNxt (recvSeg w (rcvSeg pkt))
    (if atFin w (chainedNxt w (rcvSeg pkt)) then chainedNxt w (rcvSeg pkt) + 1 else chainedNxt w (rcvSeg pkt))

def armDelack (w : World) : World := { w with tcb.flags.delack := true, tcb.ackEvt := some TCP_ACKDELAY }

def rcvAnswer (env : Env) (w : World) (acknow : Bool) : World :=
  if w.tcb.state = .established ∧ ¬ acknow ∧ ¬ w.tcb.flags.delack then armDelack w else sendAck env w

def rcvTaken (env : Env) (w : World) (pkt : Pkt) : World :=
  if tcpDatalen pkt.tcph > 0 ∨ pkt.tcph.flags.fin then rcvAnswer env (rcvQueue w pkt) (acksNow w pkt)
  else rcvQueue w pkt

def tcpRcvdata (env : Env) (w : World) (pkt : Pkt) : World := rcvTaken env (rcvFlags w pkt) pkt

-- Delayed ack timeout.
def dodelack (env : Env) (w : World) : World := if w.tcb.flags.delack then sendAck env w else w

-- The segment is older than the one that last set the window.
def staleWindow (w : World) (tcph : Dgram) : Prop :=
  SEQLT tcph.seq w.tcb.sndWndseq ∨ (tcph.seq = w.tcb.sndWndseq ∧ SEQLT tcph.ack w.tcb.sndWndack)

instance (w : World) (tcph : Dgram) : Decidable (staleWindow w tcph) := by
  unfold staleWindow
  infer_instance

def owlast (w : World) : Seq := w.tcb.sndWndack + BitVec.ofInt 32 w.tcb.sndWnd

def wlast (tcph : Dgram) : Seq := tcph.ack + tcph.window.setWidth 32

-- A window that shrinks below what was sent pulls snd_nxt back.
def shrunkNxt (w : World) (tcph : Dgram) : Seq :=
  if SEQLT (wlast tcph) (owlast w) ∧ SEQLT (wlast tcph) w.tcb.sndNxt then wlast tcph else w.tcb.sndNxt

def setWindow (w : World) (tcph : Dgram) : World :=
  { w with
    tcb.sndWnd := tcph.window.toNat
    tcb.sndWndseq := tcph.seq
    tcb.sndWndack := tcph.ack }

def noteWndmax (w : World) : World :=
  if w.tcb.sndWnd > w.tcb.sndWndmax then
    { w with tcb.sndWndmax := w.tcb.sndWnd, tcb.sndPpw := max 2 (w.tcb.sndWnd / w.tcb.sndMss) }
  else w

def tcpSndwnd (w : World) (tcph : Dgram) : World :=
  noteWndmax (setWindow (setSndNxt w (shrunkNxt w tcph)) tcph)

-- What the output side is told of the new window, given the old connection.
def windowEvent (w : World) (tcph : Dgram) : OutEvent :=
  if SEQLE (owlast w) (wlast tcph) ∧ tcph.window.toNat > 0 then .wndopen else .wndclose

def setUna (w : World) (ack : Seq) : World := { w with tcb.sndUna := ack }

def setDupacks (w : World) (dupacks : Int) : World := { w with tcb.dupacks := dupacks }

-- The position of the ack: beyond what was sent, new, old, or a duplicate.
def ackPlace (env : Env) (w : World) (pkt : Pkt) (osndWnd : Int) : World :=
  if SEQGT pkt.tcph.ack w.tcb.sndMax then
    if w.tcb.state = .synrcvd then tcpSndrst env w pkt else tcpSndack env w pkt
  else if SEQLT w.tcb.sndUna pkt.tcph.ack then
    setDupacks (tcbOstate env (setUna w pkt.tcph.ack) .ackrcvd) 0
  else if SEQLT pkt.tcph.ack w.tcb.sndUna then w
  else if w.tcb.sndUna = pkt.tcph.ack ∧ osndWnd = pkt.tcph.window.toNat ∧ tcpSeglen pkt.tcph = 0 then
    tcbOstate env (setDupacks w (w.tcb.dupacks + 1)) .dupack
  else w

def ackUpdating (env : Env) (w : World) (pkt : Pkt) : World :=
  tcbOstate env (ackPlace env (tcpSndwnd w pkt.tcph) pkt w.tcb.sndWnd) (windowEvent w pkt.tcph)

-- The result is nonzero for a segment without ACK, and only for such a segment.
def tcpAck (env : Env) (w : World) (pkt : Pkt) (updateSndwnd : Bool) : World :=
  if ¬ pkt.tcph.flags.ack then w
  else if updateSndwnd ∧ ¬ staleWindow w pkt.tcph then ackUpdating env w pkt
  else ackPlace env w pkt w.tcb.sndWnd

def clearUrg (pkt : Pkt) : Pkt := { pkt with tcph.flags.urg := false }

-- The urgent bytes are cut off the front of the data. (A header length below five would make the
-- copy run over the header itself.)
def cutUrgent (pkt : Pkt) : Pkt :=
  let options := tcpHdrlen pkt.tcph - TCP_MINLEN
  let urglen := pkt.tcph.urgptr.toNat
  { pkt with
    tcph.body := pkt.tcph.body.take options ++ pkt.tcph.body.drop (options + urglen)
    tcph.flags.urg := false
    tcph.seq := pkt.tcph.seq + BitVec.ofNat 32 urglen }

-- The new segment that holds a copy of the urgent data.
def urgentSeg (id : Nat) (tcph : Dgram) : Buf :=
  ⟨id, 0, { tcph with
    body := tcph.body.take (tcpHdrlen tcph - TCP_MINLEN + tcph.urgptr.toNat)
    flags := TCPF_URG }⟩

def urgentAdvance (env : Env) (w : World) (nxt : Seq) : World :=
  if SEQLT w.tcb.rcvNxt nxt then sendAck env (setRcvNxt w nxt) else w

def queueUrgent (env : Env) (w : World) (ubuf : Buf) : World :=
  if (tcpAddseg w.data.rcv ubuf).taken then urgentAdvance env (recvSeg w ubuf) (chainedNxt w ubuf)
  else recvSeg w ubuf

def noteUrgent (w : World) (urgptr : Seq) : World :=
  if SEQLT w.tcb.rcvUrg urgptr then { w with tcb.rcvUrg := urgptr } else w

def urgEnd (tcph : Dgram) : Seq := tcph.seq + tcph.urgptr.setWidth 32

-- Urgent data is looked at between TCBS_SYNRCVD and TCBS_CLOSEWAIT.
def takesUrgent (w : World) (tcph : Dgram) : Bool :=
  tcph.flags.urg && w.tcb.state.synced && decide (w.tcb.state.num ≤ TcbState.closewait.num) && !tcph.flags.syn

-- The urgent bytes themselves are in the segment.
def carriesUrgent (tcph : Dgram) : Prop := tcpDatalen tcph > 0 ∧ tcph.urgptr.toNat ≤ tcpDatalen tcph

instance (tcph : Dgram) : Decidable (carriesUrgent tcph) := inferInstanceAs (Decidable (_ ∧ _))

def copyUrgent (env : Env) (w : World) (tcph : Dgram) : World :=
  match bufAlloc env w with
  | (none, w1) => w1
  | (some id, w1) => queueUrgent env w1 (urgentSeg id tcph)

-- Nothing is done to the connection by a retransmitted segment.
def rcvurgConn (env : Env) (w : World) (tcph : Dgram) : World :=
  if SEQLE (urgEnd tcph) w.tcb.rcvNxt then w
  else if carriesUrgent tcph then copyUrgent env (noteUrgent w (urgEnd tcph)) tcph
  else noteUrgent w (urgEnd tcph)

def tcpRcvurg (env : Env) (w : World) (pkt : Pkt) : Pkt × World :=
  if takesUrgent w pkt.tcph then
    (if carriesUrgent pkt.tcph then cutUrgent pkt else clearUrg pkt, rcvurgConn env w pkt.tcph)
  else (clearUrg pkt, w)

end MagxNet.Tcp
