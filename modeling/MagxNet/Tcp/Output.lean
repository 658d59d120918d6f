import MagxNet.Tcp.Out

set_option autoImplicit false

namespace MagxNet.Tcp

open Bytes

-- Connection closed by this side: reset, and deleted when no socket is left.
def closeWith (w : World) (err : Int) : World := tcbDelete (setState (tcbReset w err) .closed)

-- One bogus byte, below the window.
def probeSeg (env : Env) (w : World) (tcph : Dgram) : Dgram :=
  let tcph := { tcph with flags := TCPF_ACK, seq := w.tcb.sndUna - 2, window := BitVec.ofInt 16 (rcvSpace w) }
  let tcph := match w.data.snd.q.find? (fun (u : Buf) => u.th.flags.urg) with
    | some u =>
        if SEQGT w.tcb.sndUrg w.tcb.sndUna then
          { tcph with flags.urg := true, urgptr := (SEQNXT u - tcph.seq).setWidth 16 }
        else tcph
    | none => tcph
  withChksum env tcph w.data.saddr w.data.daddr

def probeSend (env : Env) (w : World) : World :=
  match tcpMkseg env w (TCP_MINLEN + 1) with
  | (none, w1) => w1
  | (some b, w1) => (ipSend env w1 .probe (probeSeg env w1 b.th)).2

def probeTmo (w : World) : Int :=
  let tmo := min TCP_MAXPROBE (w.tcb.persistTmo * 2)
  if tmo < TCP_MINRETRANS then TCP_MINRETRANS else tmo

def setPersistTmo (w : World) (tmo : Int) : World := { w with tcb.persistTmo := tmo }

def setRetransTmo (w : World) (tmo : Int) : World := { w with tcb.retransTmo := tmo }

def probeArm (w : World) (tmo : Int) : World := timerAdd (setPersistTmo w tmo) tmo

def peerSilent (w : World) : Prop := DIFTIME w.tcb.lastRecv w.net.now > TCP_CONN_TMOUT

instance (w : World) : Decidable (peerSilent w) := inferInstanceAs (Decidable (_ > _))

-- The result tells in the source that the connection was closed, which here is peerSilent before.
def tcpProbe (env : Env) (w : World) : World :=
  if peerSilent w then closeWith w ETIMEDOUT else probeArm (probeSend env w) (probeTmo w)

-- Threshold to half of its size, congestion window to one segment.
def shrinkCwnd (w : World) : World :=
  let thresh := if w.tcb.sndCwnd > w.tcb.sndThresh then w.tcb.sndCwnd else w.tcb.sndThresh
  let half := min thresh w.tcb.sndWnd >>> (1 : Nat)
  { w with
    tcb.sndThresh := if half < 2 * w.tcb.sndMss then 2 * w.tcb.sndMss else half
    tcb.sndCwnd := w.tcb.sndMss }

def countRetrans (w : World) : World := { w with tcb.nretrans := w.tcb.nretrans + 1 }

def backOff (w : World) (r : Int) : World :=
  { w with tcb.backoff := w.tcb.backoff + 1, data.err := if r = 0 then w.data.err else r }

def retransArm (w : World) : World := timerAdd (setRetransTmo w (tcpTimeout w)) (tcpTimeout w)

def retransSend (env : Env) (w : World) (b : Buf) (rest : List Buf) : World :=
  match tcpSndseg env w b rest w.tcb.nretrans w.tcb.sndUna w.tcb.sndNxt with
  | (r, w1) => retransArm (if r = ENOMEM then w1 else backOff w1 r)

def tcpRetrans (env : Env) (w : World) : World :=
  if w.tcb.nretrans + 1 > TCP_MAXRETRY then closeWith (countRetrans w) ETIMEDOUT
  else match w.data.snd.q with
    | [] => setOstate (countRetrans w) .idle
    | b :: rest => retransSend env (shrinkCwnd (countRetrans w)) b rest

def startCwnd (w : World) : World :=
  { w with
    tcb.sndThresh := if w.tcb.sndCwnd > w.tcb.sndThresh then w.tcb.sndCwnd else w.tcb.sndThresh
    tcb.sndCwnd := w.tcb.sndMss }

-- How long the first queued segment has been under way.
def headAge (w : World) : Int := DIFTIME ((w.data.snd.q.head?.map Buf.info).getD 0) w.net.now

def noRtt (w : World) : World := { w with tcb.flags.dortt := false, tcb.flags.ackvalid := false }

def clearAckvalid (w : World) : World := { w with tcb.flags.ackvalid := false }

def setTmos (w : World) (tmo : Int) : World := { w with tcb.persistTmo := tmo, tcb.retransTmo := tmo }

def setLastRecv (w : World) : World := { w with tcb.lastRecv := w.net.now }

-- A sender that was idle for longer than a timeout starts slowly again.
def idleStart (w : World) : World :=
  setLastRecv (if DIFTIME w.tcb.lastRecv w.net.now > tcpTimeout w then startCwnd w else w)

def idleArm (w : World) (tmo : Int) : World :=
  if canretrans w then timerAdd (setOstate w .xmit) (max 1 (tmo - headAge w))
  else timerAdd (noRtt (setOstate w .persist)) tmo

def idleSent (w : World) : World := idleArm (setTmos w (tcpTimeout w)) (tcpTimeout w)

def tcbosIdle (env : Env) (w : World) : OutEvent → World
  | .send => if SEQGE w.tcb.sndNxt w.tcb.seqWrite then w else idleSent (tcpSndhead env (idleStart w))
  | _ => w

def toPersist (w : World) : World := setOstate (setPersistTmo w w.tcb.retransTmo) .persist

-- What WNDOPEN falls through to in tcbos_xmit.
def xmitWndclose (w : World) : World := if canretrans w then w else noRtt (toPersist w)

def sndheadPending (env : Env) (w : World) : World :=
  if SEQLT w.tcb.sndNxt w.tcb.seqWrite then tcpSndhead env w else w

def allAcked (w : World) : Prop := SEQGE w.tcb.sndUna w.tcb.seqWrite

instance (w : World) : Decidable (allAcked w) := inferInstanceAs (Decidable (¬ _))

def toIdle (w : World) : World := setOstate (timerDel w) .idle

def xmitReset (w : World) (tmo : Int) : World :=
  timerReset w (if canretrans w then max (tcpAtimeout w) (tmo - headAge w) else tmo)

def xmitAcked (w : World) : World :=
  if allAcked w then clearAckvalid (toIdle w) else xmitReset (setRetransTmo w (tcpTimeout w)) (tcpTimeout w)

def capDupacks (w : World) : World :=
  { w with tcb.dupacks := if w.tcb.dupacks ≥ TCP_DUPTHRESH then TCP_DUPTHRESH - 1 else w.tcb.dupacks }

def tcbosXmit (env : Env) (w : World) : OutEvent → World
  | .send => sndheadPending env w
  | .wndopen => xmitWndclose (sndheadPending env w)
  | .wndclose => xmitWndclose w
  | .ackrcvd => xmitAcked (tcpDropdata w).2
  | .timeout => tcpRetrans env (capDupacks (noRtt (setOstate w .retrans)))
  | .dupack => w

-- The segment that the i-th duplicate ack beyond the threshold asks for, with those behind it.
def dupackSeg (w : World) : List Buf := w.data.snd.q.drop (w.tcb.dupacks - TCP_DUPTHRESH).toNat

def dupackResend (env : Env) (w : World) : World :=
  if w.tcb.dupacks ≥ TCP_DUPTHRESH ∧ canretrans w then
    match dupackSeg w with
    | [] => w
    | b :: rest =>
        if SEQLE (seqEnd b) w.tcb.sndNxt then
          (tcpSndseg env w b rest (if w.tcb.dupacks = TCP_DUPTHRESH then w.tcb.nretrans else 0) w.tcb.sndUna
            w.tcb.sndNxt).2
        else w
  else w

-- An ack for part of a retransmission tells that it was lost before, not late.
def resetBackoff (w : World) (nsegs : Nat) : World :=
  match w.data.snd.q.head? with
  | some b =>
      if nsegs = 1 ∧ (w.tcb.sndUna - SEQ1ST b).toInt ≥ TCP_DROPTHRESH then { w with tcb.backoff := 0 } else w
  | none => w

def resetRetransTmo (w : World) : World := timerReset (setRetransTmo w (tcpTimeout w)) (tcpTimeout w)

def retransWait (w : World) (tmo : Int) : World :=
  timerReset w (if canretrans w then max 1 (tmo - headAge w) else tmo)

-- Everything sent has been acked, or only a part of it.
def retransProgress (env : Env) (w : World) : World :=
  if SEQGE w.tcb.sndUna w.tcb.sndNxt then resetRetransTmo (setOstate (sndheadPending env (startCwnd w)) .xmit)
  else retransWait (setRetransTmo w (tcpTimeout w)) (tcpTimeout w)

def retransAcked (env : Env) (w : World) (nsegs : Nat) : World :=
  if allAcked w then toIdle w else retransProgress env (resetBackoff w nsegs)

def tcbosRetrans (env : Env) (w : World) : OutEvent → World
  | .timeout => tcpRetrans env w
  | .wndclose => if canretrans w then w else toPersist w
  | .dupack => dupackResend env w
  | .ackrcvd => retransAcked env (tcpDropdata w).2 (tcpDropdata w).1
  | _ => w

def setWndmax (w : World) : World := { w with tcb.sndWndmax := w.tcb.sndWnd }

-- After an attempt to send into a small window: wait for its ack, or probe.
def persistSent (env : Env) (w : World) : World :=
  if canretrans w then retransArm (setOstate w .xmit) else tcpProbe env (noRtt w)

def persistAcked (w : World) : World := if allAcked w then toIdle w else w

def persistOpened (w : World) : World :=
  if canretrans w then resetRetransTmo (setOstate w .xmit) else noRtt w

def tcbosPersist (env : Env) (w : World) : OutEvent → World
  | .timeout => if w.tcb.sndWnd > 0 then persistSent env (tcpSndhead env (setWndmax w)) else tcpProbe env w
  | .ackrcvd => persistAcked (tcpDropdata w).2
  | .wndopen => persistOpened (sndheadPending env w)
  | _ => w

def tcbOstate (env : Env) (w : World) (event : OutEvent) : World :=
  match w.tcb.ostate with
  | .idle => tcbosIdle env w event
  | .retrans => tcbosRetrans env w event
  | .persist => tcbosPersist env w event
  | .xmit => tcbosXmit env w event

def ackSeg (env : Env) (w : World) (tcph : Dgram) (psh : Bool) : Dgram :=
  withChksum env { tcph with flags := { TCPF_ACK with psh := psh }, window := BitVec.ofInt 16 (rcvSpace w) }
    w.data.saddr w.data.daddr

-- An ACK without data, the only thing tcp_output sends itself.
def outputAck (env : Env) (w : World) (psh : Bool) : Int × World :=
  match tcpMkseg env w TCP_MINLEN with
  | (none, w1) => (ENOMEM, w1)
  | (some b, w1) => ipSend env (clearDelack (tcpRcvwnd w1 true).2) .output (ackSeg env w1 b.th psh)

-- The free space of the last segment, when it is unsent and fits the new data.
def combineRoom (w : World) (flags : Flags) : Int :=
  match w.data.snd.q.getLast? with
  | some b =>
      if SEQLE w.tcb.sndMax (SEQ1ST b) ∧ flags.urg = b.th.flags.urg ∧ ¬ flags.syn then b.info - DATLEN b else 0
  | none => 0

def mssOption (mss : Int) : List Byte :=
  let short := BitVec.ofInt 16 mss
  [2, 4, short.extractLsb' 8 8, short.extractLsb' 0 8]

-- A fresh segment at seq_write, with a SYN in front of the data when asked for.
def freshSeg (w : World) (id : Nat) (flags : Flags) (first : Bool) : Buf :=
  let plain : Dgram := ⟨w.data.sport, w.data.dport, w.tcb.seqWrite, w.tcb.rcvNxt, 5, false,
    { flags with syn := false, fin := false }, 0, 0, 0, []⟩
  ⟨id, w.tcb.sndMss - TCP_MAXRETRY,
    if first ∧ flags.syn then { plain with flags.syn := true, hdrlen := 6, body := mssOption w.tcb.rcvMss }
    else { plain with flags.ack := true }⟩

def growSnd (w : World) (r : Nat) : World :=
  { w with data.snd.curdatalen := w.data.snd.curdatalen + BitVec.ofNat 32 r }

-- The segment goes to the end of the queue; curdatalen starts afresh where the queue was empty.
def enqueue (w : World) (b : Buf) (r : Nat) : World :=
  { w with
    data.snd.q := w.data.snd.q ++ [b]
    data.snd.curdatalen := (if w.data.snd.q.isEmpty then 0 else w.data.snd.curdatalen) + BitVec.ofNat 32 r }

def writeSyn (w : World) (b : Buf) : World :=
  if b.th.flags.syn then { w with tcb.seqWrite := w.tcb.seqWrite + 1, stream := w.stream ++ [.syn] } else w

-- Bytes, and a FIN behind the last of them, go to the segment b.
def fillSeg (b : Buf) (bytes : List Byte) (fin : Bool) : Buf :=
  let th := if bytes.isEmpty then b.th
    else { b.th with
      body := b.th.body ++ bytes
      urgptr := b.th.urgptr + BitVec.ofNat 16 bytes.length
      flags.psh := true }
  if fin then { b with th := { th with flags.fin := true }, info := th.urgptr.toNat } else { b with th := th }

def fillLast (w : World) (b : Buf) (bytes : List Byte) (fin : Bool) : World :=
  { w with
    data.snd.q := w.data.snd.q.dropLast ++ [fillSeg b bytes fin]
    tcb.seqWrite := w.tcb.seqWrite + BitVec.ofNat 32 (bytes.length + (if fin then 1 else 0))
    stream := w.stream ++ (bytes.map Item.byte ++ (if fin then [.fin] else [])) }

def outputFresh (w : World) (id : Nat) (flags : Flags) (first : Bool) (r : Nat) : World :=
  writeSyn (enqueue w (freshSeg w id flags first) r) (freshSeg w id flags first)

-- One round of the loop in tcp_output: the segment that takes the next bytes is put at the end of the
-- queue, and the number of bytes it takes is returned. Without memory for a new segment there is none.
def outputRoom (env : Env) (w : World) (len : Nat) (flags : Flags) (first : Bool) : Option Nat × World :=
  if combineRoom w flags > 0 then
    (some (min (combineRoom w flags) len).toNat, growSnd w (min (combineRoom w flags) len).toNat)
  else match bufAlloc env w with
    | (none, w1) => (none, w1)
    | (some id, w1) =>
        let r := (min (w.tcb.sndMss - TCP_MAXRETRY) len).toNat
        (some r, outputFresh w1 id flags first r)

def outputFill (w : World) (bytes : List Byte) (r : Nat) (fin : Bool) : World :=
  match w.data.snd.q.getLast? with
  | none => fault w
  | some b => fillLast w b (bytes.take r) (fin && (bytes.drop r).isEmpty)

def outputRound (env : Env) (w : World) (bytes : List Byte) (flags : Flags) (first : Bool) :
    Option (List Byte) × World :=
  match outputRoom env w bytes.length flags first with
  | (none, w1) => (none, w1)
  | (some r, w1) => (some (bytes.drop r), outputFill w1 bytes r flags.fin)

-- Nothing was queued at all: none. A segment that takes nothing would be followed by more of them
-- for ever.
def outputLoop (env : Env) (flags : Flags) : Nat → World → List Byte → Bool → Option Int × World
  | 0, w, _, _ => (some 0, fault w)
  | fuel + 1, w, bytes, first =>
      match outputRound env w bytes flags first with
      | (none, w1) => (if first then none else some ENOMEM, w1)
      | (some [], w1) => (some 0, w1)
      | (some (byte :: rest), w1) => outputLoop env flags fuel w1 (byte :: rest) false

def setSndUrg (w : World) : World := { w with tcb.sndUrg := w.tcb.seqWrite }

-- In PERSIST state a probe makes the urgent pointer known at once; it may close the connection.
def outputUrgent (env : Env) (w : World) : World :=
  if w.tcb.ostate = .persist then
    if peerSilent w then tcpProbe env (setPersistTmo (timerDel w) (tcpTimeout w))
    else tcbOstate env (tcpProbe env (setPersistTmo (timerDel w) (tcpTimeout w))) .send
  else tcbOstate env w .send

def tcpOutput (env : Env) (w : World) (bytes : List Byte) (flags : Flags) : Int × World :=
  if bytes.isEmpty ∧ ¬ flags.syn ∧ ¬ flags.fin then outputAck env w flags.psh
  else match outputLoop env flags (bytes.length + 1) w bytes true with
    | (none, w1) => (ENOMEM, w1)
    | (some ret, w1) =>
        (ret, if flags.urg then outputUrgent env (setSndUrg w1) else tcbOstate env w1 .send)

-- The retransmit and persist timer.
def wakeme (env : Env) (w : World) : World := tcbOstate env w .timeout

end MagxNet.Tcp
