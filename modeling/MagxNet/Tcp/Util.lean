import MagxNet.Tcp.State

set_option autoImplicit false

namespace MagxNet.Tcp

open Bytes

def tcpIsn (env : Env) (net : Net) : Seq × Net :=
  let isn := (if net.isn = 0 then env.unixtime else net.isn) + 999
  (isn, { net with isn := isn })

def tcbAlloc : Tcb where
  state := .closed
  ostate := .idle
  flags := ⟨false, false, false, false, false, false, false⟩
  sndIsn := 0
  sndUna := 0
  sndNxt := 0
  sndMax := 0
  sndWnd := 0
  sndCwnd := TCP_MSS
  sndThresh := 65536
  sndWndseq := 0
  sndWndack := 0
  sndWndmax := 0
  sndPpw := 2
  sndMss := TCP_MSS
  sndUrg := 0
  rcvIsn := 0
  rcvNxt := 0
  rcvWnd := 0
  rcvMss := TCP_MSS
  rcvUrg := 0
  seqPsh := 0
  seqFin := 0
  seqRead := 0
  seqUread := 0
  seqWrite := 0
  rttseq := 0
  rtt := 0
  rttdev := 2000 / EVTGRAN
  backoff := 0
  dupacks := 0
  nretrans := 0
  retransTmo := 0
  persistTmo := 0
  timerEvt := none
  deleteEvt := none
  ackEvt := none
  lastRecv := 0
  lastAck := 0
  artt := 0
  arttdev := TCP_MINRETRANS

def inDataCreate : InData where
  sock := none
  snd := ⟨IN_DEFAULT_SPACE, 0, []⟩
  rcv := ⟨IN_DEFAULT_SPACE, 0, []⟩
  saddr := 0
  sport := 0
  daddr := 0
  dport := 0
  isbound := false
  isconnected := false
  oobinline := false
  dead := false
  backlog := 0
  err := 0

def queuedIds (w : World) : List Nat := w.data.rcv.q.map Buf.id ++ w.data.snd.q.map Buf.id

def inDataFlush (w : World) : World :=
  bufsDeref { w with data.rcv := flushQueue w.data.rcv, data.snd := flushQueue w.data.snd } (queuedIds w)

def tcbDeltimers (w : World) : World :=
  { w with tcb.timerEvt := none, tcb.deleteEvt := none, tcb.ackEvt := none }

-- tcb_free and in_data_destroy together: the connection is gone.
def connFree (w : World) : World := { inDataFlush (tcbDeltimers w) with alive := false }

def tcbDelete (w : World) : World :=
  if w.data.sock.isNone then connFree (setState w .closed) else setState w .closed

def deleteme (w : World) : World := tcbDelete w

def deleteAdd (w : World) (delta : Int) : World := { w with tcb.deleteEvt := some delta }

def tcbWait (w : World) : World :=
  match w.tcb.state with
  | .finwait2 => deleteAdd w TCP_CONN_TMOUT
  | _ => deleteAdd (tcbDeltimers w) (2 * TCP_MSL)

def tcbError (w : World) (err : Int) : World := { w with data.err := err }

def tcbReset (w : World) (err : Int) : World := inDataFlush (tcbError (setOstate (tcbDeltimers w) .idle) err)

-- so_release and the detach it leads to, for a tcb in TCBS_CLOSED.
def soFree (w : World) : World :=
  match w.data.sock with
  | some so => if so.state = .virgin ∨ so.state = .isdisconnected then w else connFree w
  | none => w

def setSockState (w : World) (state : SoState) : World :=
  { w with data.sock := w.data.sock.map fun so => { so with state := state } }

-- The free space of the receive queue, zero where announcing it would invite silly windows, and
-- not less than what was announced before.
def rcvSpace (w : World) : Int :=
  let free := (BitVec.ofInt 32 w.data.rcv.maxdatalen - w.data.rcv.curdatalen).toInt
  let space := if free < w.tcb.rcvMss ∧ free * 4 < w.data.rcv.maxdatalen then 0 else free
  if w.tcb.state.synced then max space (w.tcb.rcvWnd - w.tcb.rcvNxt).toInt else space

def tcpRcvwnd (w : World) (wndUpdate : Bool) : Int × World :=
  if w.tcb.state.synced ∧ wndUpdate then
    (rcvSpace w, { w with tcb.rcvWnd := w.tcb.rcvNxt + BitVec.ofInt 32 (rcvSpace w) })
  else (rcvSpace w, w)

-- Everything of a reply but the checksum.
def replyHeader (pkt : Pkt) (seq ack : Seq) (flags : Flags) (window : Int) : Dgram :=
  ⟨pkt.tcph.dstport, pkt.tcph.srcport, seq, ack, 5, false, flags, BitVec.ofInt 16 window, 0, 0, []⟩

def withChksum (env : Env) (tcph : Dgram) (saddr daddr : InAddr) : Dgram :=
  { tcph with chksum := env.chksum { tcph with chksum := 0 } saddr daddr }

def rstReply (pkt : Pkt) : Dgram :=
  replyHeader pkt (if pkt.tcph.flags.ack then pkt.tcph.ack else 0)
    (pkt.tcph.seq + BitVec.ofInt 32 (tcpSeglen pkt.tcph))
    (if pkt.tcph.flags.ack then TCPF_RST else TCPF_RST_ACK) 0

def tcpSndrst (env : Env) (w : World) (pkt : Pkt) : World :=
  if pkt.tcph.flags.rst then w
  else match bufAlloc env w with
    | (none, w1) => w1
    | (some _, w1) => (ipSend env w1 .sndrst (withChksum env (rstReply pkt) pkt.daddr pkt.saddr)).2

-- An ack is sent from snd_nxt, or from the last number inside the window.
def ackReply (w : World) (pkt : Pkt) : Dgram :=
  let edge := w.tcb.sndWndack + BitVec.ofInt 32 w.tcb.sndWnd
  let wndlast := if w.tcb.sndWnd > 0 then edge - 1 else edge
  replyHeader pkt (if SEQLE w.tcb.sndNxt wndlast then w.tcb.sndNxt else wndlast) w.tcb.rcvNxt TCPF_ACK (rcvSpace w)

def tcpSndack (env : Env) (w : World) (pkt : Pkt) : World :=
  if pkt.tcph.flags.rst then w
  else match bufAlloc env w with
    | (none, w1) => w1
    | (some _, w1) =>
        (ipSend env (clearDelack (tcpRcvwnd w1 true).2) .sndack
          (withChksum env (ackReply w pkt) pkt.daddr pkt.saddr)).2

def rcvEdge (w : World) : Seq := w.tcb.rcvNxt + BitVec.ofInt 32 (rcvSpace w)

-- The last number of a segment, or the one it stands at when it is empty.
def segLast (tcph : Dgram) : Seq :=
  if tcpSeglen tcph ≠ 0 then tcph.seq + BitVec.ofInt 32 (tcpSeglen tcph) - 1
  else tcph.seq + BitVec.ofInt 32 (tcpSeglen tcph)

def stripSyn (w : World) (tcph : Dgram) : Dgram :=
  if tcph.flags.syn ∧ SEQLT tcph.seq w.tcb.rcvNxt then { tcph with flags.syn := false, seq := tcph.seq + 1 } else tcph

def stripFin (wndlast seqlast : Seq) (tcph : Dgram) : Dgram :=
  if tcph.flags.fin ∧ SEQGE seqlast wndlast then { tcph with flags.fin := false } else tcph

-- The datagram may come back with its SYN or FIN stripped.
def tcpValid (w : World) (tcph : Dgram) : Bool × Dgram :=
  if ¬ w.tcb.state.synced then (true, tcph)
  else if rcvSpace w > 0 then
    (decide (SEQLE w.tcb.rcvNxt (segLast tcph) ∧ SEQLT tcph.seq (rcvEdge w)),
      stripFin (rcvEdge w) (segLast tcph) (stripSyn w tcph))
  else (decide (tcpSeglen tcph = 0 ∧ tcph.seq = w.tcb.rcvNxt), tcph)

-- The scan of tcp_options. An option of length zero is scanned for ever, which none stands for.
def optionsScan (cp : List Byte) (optlen : Nat) (syn : Bool) : Nat → Nat → Int → Option Int
  | 0, _, mss => some mss
  | fuel + 1, i, mss =>
      if optlen ≤ i then some mss
      else if get8 cp i = 0 then some mss
      else if get8 cp i = 1 then optionsScan cp optlen syn fuel (i + 1) mss
      else if get8 cp i = 2 then
        let len := (get8 cp (i + 1)).toNat
        if len = 0 then none
        else
          let found := (get16 cp (i + 2)).toNat
          optionsScan cp optlen syn fuel (i + len) (if len = 4 ∧ syn then found else mss)
      else some mss

def tcpOptions (tcph : Dgram) : Option Int :=
  let optlen := tcpHdrlen tcph - TCP_MINLEN
  optionsScan tcph.body optlen tcph.flags.syn (optlen + 1) 0 TCP_MSS

def routeMss (rt : Route) (maxmss : Int) : Int :=
  let mss := min (rt.mtu - 20) (maxmss + 20) - TCP_MINLEN
  let mss := if (rt.metric > 0 ∨ rt.gateway) ∧ mss > TCP_MSS then TCP_MSS else mss
  if mss < 32 then 32 else mss

theorem route_mss_least (rt : Route) (maxmss : Int) : 32 ≤ routeMss rt maxmss := by
  unfold routeMss
  dsimp only
  split <;> omega

-- The segment size towards faddr, at most half of the send queue.
def tcpMss (env : Env) (w : World) (faddr : InAddr) (maxmss : Int) : Int :=
  match env.route faddr with
  | none => TCP_MSS
  | some rt =>
      let mss := routeMss rt maxmss
      if 2 * mss > w.data.snd.maxdatalen then w.data.snd.maxdatalen / 2 else mss

-- What tcp_mss does besides: an interface that takes few packets limits the receive queue.
def limitRcv (env : Env) (w : World) (faddr : InAddr) (maxmss : Int) : World :=
  match env.route faddr with
  | none => w
  | some rt =>
      let win := rt.maxpackets * routeMss rt maxmss
      if rt.maxpackets > 0 ∧ win < w.data.rcv.maxdatalen then { w with data.rcv.maxdatalen := win } else w

end MagxNet.Tcp
