import MagxNet.Tcp.Util

set_option autoImplicit false

namespace MagxNet.Tcp

open Bytes

def tcpMkseg (env : Env) (w : World) (size : Nat) : Option Buf × World :=
  match bufAlloc env w with
  | (none, w1) => (none, w1)
  | (some id, w1) =>
      (some ⟨id, 0, ⟨w.data.sport, w.data.dport, w.tcb.sndNxt, w.tcb.rcvNxt, 5, false, Flags.none, 0, 0, 0,
        List.replicate (size - TCP_MINLEN) 0⟩⟩, w1)

-- What tcp_sndseg makes of a queued segment and a window: the part inside the window, and whether
-- it was cut on the right. A cut that would copy a negative number of bytes is an overrun.
inductive Cut where
  | outside
  | overrun
  | piece (tcph : Dgram) (finCut : Bool)
deriving DecidableEq, Repr

def excess (b : Buf) (wndnxt : Seq) : Int :=
  if SEQLT wndnxt (seqEnd b) then ((if b.th.flags.fin then seqEnd b - 1 else seqEnd b) - wndnxt).toInt else 0

def cutRight (b : Buf) (wndnxt : Seq) : Cut :=
  let finCut := decide (SEQLT wndnxt (seqEnd b))
  let todo : Int := TCP_MINLEN + b.th.body.length - excess b wndnxt
  if todo < 0 then .overrun
  else .piece
    { b.th with body := b.th.body.take (todo - TCP_MINLEN).toNat, flags.fin := b.th.flags.fin && !finCut } finCut

def cutLeft (b : Buf) (wnd1st wndnxt : Seq) : Cut :=
  let finCut := decide (SEQLT wndnxt (seqEnd b))
  let offs := (wnd1st - (if b.th.flags.syn then SEQ1ST b + 1 else SEQ1ST b)).toInt
  let todo := DATLEN b - offs - excess b wndnxt
  if offs < 0 ∨ todo < 0 then .overrun
  else .piece
    { b.th with
      seq := wnd1st
      body := b.th.body.take (tcpHdrlen b.th - TCP_MINLEN) ++ ((tcpData b.th).drop offs.toNat).take todo.toNat
      flags.syn := false
      flags.fin := b.th.flags.fin && !finCut } finCut

def sndsegCut (b : Buf) (wnd1st wndnxt : Seq) : Cut :=
  if SEQLE wndnxt (SEQ1ST b) ∨ SEQLE (seqEnd b) wnd1st then .outside
  else
    match if SEQLT (SEQ1ST b) wnd1st then cutLeft b wnd1st wndnxt else cutRight b wndnxt with
    | .piece tcph finCut =>
        if SEQGT (tcph.seq + BitVec.ofInt 32 (tcpDatalen tcph)) wndnxt then .outside else .piece tcph finCut
    | other => other

-- How many bytes of the next segment tcp_sndseg adds, to tell retransmissions apart by their acks.
def extension (w : World) (tcph : Dgram) (finCut : Bool) (rest : List Buf) (nretrans : Int) : Nat :=
  match rest.head? with
  | none => 0
  | some b2 =>
      let n := min (DATLEN b2) nretrans.toNat
      if nretrans > 0 ∧ ¬ finCut ∧ n > 0
          ∧ SEQLE (SEQ1ST b2 + BitVec.ofNat 32 n) (w.tcb.sndWndack + BitVec.ofInt 32 w.tcb.sndWnd)
          ∧ tcph.flags.urg = b2.th.flags.urg ∧ tcph.flags.syn = b2.th.flags.syn
          ∧ tcph.flags.fin = b2.th.flags.fin then n
      else 0

def extend (tcph : Dgram) (rest : List Buf) (n : Nat) : Dgram :=
  { tcph with body := tcph.body ++ (rest.head?.elim [] fun b2 => (tcpData b2.th).take n) }

def extendMax (w : World) (rest : List Buf) (n : Nat) : World :=
  match rest.head? with
  | none => w
  | some b2 =>
      let seqnxt := SEQ1ST b2 + BitVec.ofNat 32 n
      if n > 0 ∧ SEQLT w.tcb.sndMax seqnxt then { w with tcb.sndMax := seqnxt } else w

-- The urgent pointer goes to the end of the first urgent segment queued.
def markUrgent (w : World) (tcph : Dgram) (bufs : List Buf) : Dgram :=
  match bufs.find? fun b => b.th.flags.urg with
  | some b =>
      if SEQGT w.tcb.sndUrg tcph.seq then
        { tcph with flags.urg := true, urgptr := (SEQNXT b - tcph.seq).setWidth 16 }
      else tcph
  | none => tcph

def sndsegHeader (env : Env) (w : World) (b : Buf) (rest : List Buf) (tcph : Dgram) : Dgram :=
  let tcph := { tcph with ack := w.tcb.rcvNxt, window := BitVec.ofInt 16 (rcvSpace w), urgptr := 0 }
  withChksum env (markUrgent w tcph (b :: rest)) w.data.saddr w.data.daddr

def sndsegSend (env : Env) (w : World) (b : Buf) (rest : List Buf) (tcph : Dgram) : Int × World :=
  ipSend env (clearDelack (tcpRcvwnd w true).2) .sndseg (sndsegHeader env w b rest tcph)

-- The buffer sent is a copy; b heads the part of the queue that follows it.
def tcpSndseg (env : Env) (w : World) (b : Buf) (rest : List Buf) (nretrans : Int) (wnd1st wndnxt : Seq) :
    Int × World :=
  match bufAlloc env w with
  | (none, w1) => (ENOMEM, w1)
  | (some _, w1) =>
      match sndsegCut b wnd1st wndnxt with
      | .outside => (-1, w1)
      | .overrun => (-1, fault w1)
      | .piece tcph finCut =>
          let n := extension w tcph finCut rest nretrans
          sndsegSend env (extendMax w1 rest n) b rest (extend tcph rest n)

def ackClock (w : World) : World := { w with tcb.lastAck := w.net.now, tcb.flags.ackvalid := true }

def rttSample (w : World) (b : Buf) : World :=
  let err := DIFTIME b.info w.net.now - w.tcb.rtt >>> (3 : Nat)
  { w with
    tcb.rtt := w.tcb.rtt + err
    tcb.rttdev := w.tcb.rttdev + (|err| - w.tcb.rttdev >>> (2 : Nat))
    tcb.backoff := 0
    tcb.rttseq := seqEnd b }

def tcpRtt (w : World) (b : Buf) : World :=
  if w.tcb.flags.dortt ∧ SEQLT w.tcb.rttseq (seqEnd b) then
    if w.tcb.flags.ackvalid then rttSample w b else ackClock (rttSample w b)
  else w

def arttSample (w : World) : World :=
  let err := DIFTIME w.tcb.lastAck w.net.now - w.tcb.artt >>> (3 : Nat)
  { w with
    tcb.artt := w.tcb.artt + err
    tcb.arttdev := w.tcb.arttdev + (|err| - w.tcb.arttdev >>> (2 : Nat)) }

def tcpArtt (w : World) : World :=
  if w.tcb.flags.dortt then ackClock (if w.tcb.flags.ackvalid then arttSample w else w) else w

def shortenSnd (w : World) (b : Buf) (rest : List Buf) : World :=
  { w with
    data.snd.curdatalen :=
      if rest.isEmpty then 0 else w.data.snd.curdatalen - BitVec.ofNat 32 (DATLEN b) }

-- The loop of tcp_dropdata over the segments still queued.
def dropAcked (una : Seq) : List Buf → Nat → World → Nat × World
  | [], n, w => (n, setSndq w [])
  | b :: rest, n, w =>
      if SEQLE (seqEnd b) una then dropAcked una rest (n + 1) (bufDeref (tcpRtt (shortenSnd w b rest) b) b.id)
      else (n, setSndq w (b :: rest))

def growCwnd (w : World) (n : Nat) : World :=
  let step := if w.tcb.sndCwnd < w.tcb.sndThresh then w.tcb.sndMss else w.tcb.sndMss * w.tcb.sndMss / w.tcb.sndCwnd
  { w with tcb.nretrans := 0, tcb.sndCwnd := w.tcb.sndCwnd + n * step }

def dragUrg (w : World) : World :=
  if SEQLT w.tcb.sndUrg w.tcb.sndUna then { w with tcb.sndUrg := w.tcb.sndUna } else w

def countAcked (w : World) (n : Nat) : World := dragUrg (if n > 0 then growCwnd (tcpArtt w) n else w)

-- How many segments were acked, and the connection without them.
def tcpDropdata (w : World) : Nat × World :=
  let dropped := dropAcked w.tcb.sndUna w.data.snd.q 0 w
  (dropped.1, countAcked dropped.2 dropped.1)

def raiseMax (w : World) : World :=
  if SEQLT w.tcb.sndMax w.tcb.sndNxt then { w with tcb.sndMax := w.tcb.sndNxt } else w

-- How the loop of tcp_sndhead ends: the segments sent, the queue from where it began, and whether
-- it returned early because nothing could be sent with nothing outstanding.
structure SndLoop where
  sent : Nat
  rttseq : Seq
  queue : List Buf
  failed : Bool
  world : World

def sndFailed (w : World) (r : Int) : World := if r ≠ ENOMEM then tcbError w r else w

def easeBackoff (w : World) (r : Int) : World :=
  { w with tcb.backoff := if r = ENOMEM ∧ w.tcb.backoff > 0 then w.tcb.backoff - 1 else w.tcb.backoff }

def sndAdvance (w : World) (nxt : Seq) : World := raiseMax (setSndNxt w nxt)

-- With nothing outstanding the segment counts as sent, and its retransmission repeats the attempt.
def sndGiveUp (w : World) (r : Int) (seqnxt : Seq) : World := sndAdvance (easeBackoff w r) seqnxt

-- Whether the segment is sent: all of it fits into the window, or a part of it that is more than
-- half of the largest window seen.
def sendable (w : World) (b : Buf) (wndnxt : Seq) : Bool :=
  let room := wndnxt - w.tcb.sndNxt
  decide (SEQLE (seqEnd b) wndnxt ∨ (SEQLT w.tcb.sndNxt wndnxt ∧ (room + room).toInt > w.tcb.sndWndmax))

def sndLoop (env : Env) (wndnxt : Seq) : List Buf → Nat → Seq → World → SndLoop
  | [], sent, rttseq, w => ⟨sent, rttseq, [], false, w⟩
  | b :: rest, sent, rttseq, w =>
      if sendable w b wndnxt then
        match tcpSndseg env w b rest 0 w.tcb.sndNxt wndnxt with
        | (r, w1) =>
            let stamped := { b with info := w.net.now }
            if r < 0 then
              if w.tcb.sndUna = w.tcb.sndNxt then
                ⟨1, rttseq, stamped :: rest, true, sndGiveUp (sndFailed w1 r) r (seqEnd b)⟩
              else ⟨sent, rttseq, b :: rest, false, sndFailed w1 r⟩
            else
              let next := sndLoop env wndnxt rest (sent + 1) (if sent = 0 then w.tcb.sndNxt else rttseq)
                (sndAdvance w1 (if SEQLE (seqEnd b) wndnxt then seqEnd b else wndnxt))
              { next with queue := stamped :: next.queue }
      else ⟨sent, rttseq, b :: rest, false, w⟩

-- The right edge that tcp_sndhead sends up to; the Nagle rule pulls it back to the last segment.
def sndheadEdge (w : World) (last : Buf) : Seq :=
  let held := ¬ w.tcb.flags.ndelay ∧ last.info > DATLEN last
    ∧ (SEQLT w.tcb.sndUna w.tcb.sndNxt ∨ 1 < w.data.snd.q.length)
  let r := if held then min (SEQ1ST last - w.tcb.sndWndack).toInt w.tcb.sndCwnd else w.tcb.sndCwnd
  w.tcb.sndWndack + BitVec.ofInt 32 (min w.tcb.sndWnd r)

def alreadySent (w : World) (b : Buf) : Bool := decide (SEQGE w.tcb.sndNxt (seqEnd b))

def sndheadLoop (env : Env) (w : World) (last : Buf) : SndLoop :=
  sndLoop env (sndheadEdge w last) (w.data.snd.q.dropWhile (alreadySent w)) 0 0 w

def startRtt (w : World) (rttseq : Seq) : World := { w with tcb.rttseq := rttseq, tcb.flags.dortt := true }

-- An RTT measurement is scheduled unless one is running.
def sndheadDone (skipped : List Buf) (done : SndLoop) : World :=
  let w := done.world
  setSndq (if done.failed = false ∧ done.sent > 0 ∧ w.tcb.flags.dortt = false then startRtt w done.rttseq else w)
    (skipped ++ done.queue)

def tcpSndhead (env : Env) (w : World) : World :=
  if SEQGE w.tcb.sndNxt w.tcb.seqWrite then w
  else match w.data.snd.q.getLast? with
    | none => if w.tcb.flags.ndelay then w else fault w
    | some last => sndheadDone (w.data.snd.q.takeWhile (alreadySent w)) (sndheadLoop env w last)

-- Something was sent, is not acked yet and still fits into the window.
def canretrans (w : World) : Bool :=
  match w.data.snd.q.head? with
  | some b => decide (w.tcb.sndWnd > 0 ∧ SEQLT w.tcb.sndUna w.tcb.sndNxt ∧ SEQLT (SEQ1ST b) w.tcb.sndNxt)
  | none => false

def clampTmo (tmout : Int) : Int :=
  if tmout < TCP_MINRETRANS then TCP_MINRETRANS else if tmout > TCP_MAXRETRANS then TCP_MAXRETRANS else tmout

def tcpTimeout (w : World) : Int :=
  let tmout := w.tcb.rtt >>> (3 : Nat) + w.tcb.rttdev
  if tmout < 0 ∨ tmout > 0x7fffffff / 2 ^ 15 then TCP_MAXRETRANS
  else clampTmo (BitVec.ofInt 32 tmout <<< w.tcb.backoff).toInt

def tcpAtimeout (w : World) : Int := clampTmo (w.tcb.artt >>> (3 : Nat) + w.tcb.arttdev)

end MagxNet.Tcp
