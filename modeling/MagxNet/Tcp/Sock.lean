import MagxNet.Tcp.Output

set_option autoImplicit false

namespace MagxNet.Tcp

open Bytes

def lowestRead (w : World) : Seq := if SEQLT w.tcb.seqRead w.tcb.seqUread then w.tcb.seqRead else w.tcb.seqUread

-- The pointers into the receive queue move up to its new start.
def dragPointers (w : World) (lowest : Seq) : World :=
  let up := fun (x : Seq) => if SEQLT x lowest then lowest else x
  { w with
    tcb.seqRead := up w.tcb.seqRead
    tcb.seqUread := up w.tcb.seqUread
    tcb.rcvUrg := up w.tcb.rcvUrg }

def freeMarked (w : World) : World :=
  match dropMarked w.data.rcv (lowestRead w) w.data.rcv.q [] with
  | (rcv, lowest, freed) => dragPointers (bufsDeref (setRcvq w rcv) freed) lowest

-- A window update is worth a segment when the window opens by two segments or half the queue.
def opensWindow (w : World) : Bool :=
  let win := rcvSpace w - (w.tcb.rcvWnd - w.tcb.rcvNxt).toInt
  decide (win ≥ 2 * w.tcb.rcvMss ∨ 2 * win ≥ w.data.rcv.maxdatalen)

-- A bare ACK, whatever becomes of it.
def sendAck (env : Env) (w : World) : World := (outputAck env w false).2

def announce (env : Env) (w : World) : World := if opensWindow w then sendAck env w else w

def tcpDropsegs (env : Env) (w : World) : World := announce env (freeMarked w)

inductive RecvResult where
  | data (bytes : List Byte)
  | eof
  | fail (err : Int)
  | wait
deriving DecidableEq, Repr

structure RecvArgs where
  size : Nat
  oob : Bool
  peek : Bool
  nonblock : Bool
deriving DecidableEq, Repr

-- Marked by the reader, or urgent where ordinary data is wanted and the other way round.
def unfit (oobinline urg : Bool) (b : Buf) : Bool := b.th.freeme || (!oobinline && (b.th.flags.urg != urg))

def skipUnfit (oobinline urg : Bool) : List Buf → Seq → List Buf × Seq
  | [], readnxt => ([], readnxt)
  | b :: rest, readnxt =>
      if unfit oobinline urg b ∧ SEQLE (SEQ1ST b) readnxt then skipUnfit oobinline urg rest (SEQNXT b)
      else (b :: rest, readnxt)

-- The first segment to read from, with those behind it, and the sequence number reading starts at.
def seekSeg (w : World) (oob : Bool) : List Buf × Seq :=
  let start := if oob then w.tcb.seqUread else w.tcb.seqRead
  let behind := w.data.rcv.q.dropWhile fun b => decide (SEQLE (SEQNXT b) start)
  let (bufs, readnxt) := skipUnfit w.data.oobinline oob behind start
  match bufs with
  | [] => ([], readnxt)
  | b :: rest => if SEQLE (SEQ1ST b) readnxt then (b :: rest, readnxt) else ([], readnxt)

structure Copied where
  readnxt : Seq
  bytes : List Byte
  bufs : List Buf

-- The urgent bytes of an inline segment that were read with MSG_OOB before are skipped.
def skipUread (w : World) (args : RecvArgs) (urg : Bool) (b : Buf) (readnxt : Seq) : Seq :=
  if w.data.oobinline ∧ urg ∧ ¬ args.oob ∧ SEQLT readnxt w.tcb.seqUread ∧ SEQLT w.tcb.seqUread (SEQNXT b) then
    w.tcb.seqUread
  else readnxt

def copyLoop (w : World) (args : RecvArgs) (urg : Bool) : List Buf → Int → Seq → Copied
  | [], _, readnxt => ⟨readnxt, [], []⟩
  | b :: rest, size, readnxt =>
      if size ≤ 0 ∨ b.th.flags.urg ≠ urg ∨ SEQLT readnxt (SEQ1ST b) then ⟨readnxt, [], b :: rest⟩
      else if b.th.freeme then
        let next := copyLoop w args urg rest size (SEQNXT b)
        { next with bufs := b :: next.bufs }
      else
        let readnxt := skipUread w args urg b readnxt
        let offset := (readnxt - SEQ1ST b).toInt
        let cando := min size (DATLEN b - offset)
        let after := readnxt + BitVec.ofInt 32 cando
        let b1 := if ¬ args.peek ∧ SEQLE (SEQNXT b) after then b.mark true else b
        let next := copyLoop w args urg rest (size - cando) after
        ⟨next.readnxt, ((tcpData b.th).drop offset.toNat).take cando.toNat ++ next.bytes, b1 :: next.bufs⟩

def setReadPtr (w : World) (oob : Bool) (readnxt : Seq) : World :=
  { w with
    tcb.seqRead := if oob then w.tcb.seqRead else readnxt
    tcb.seqUread := if oob ∨ w.data.oobinline then readnxt else w.tcb.seqUread }

-- The queue with its last part replaced by what copyLoop left of it.
def putBack (w : World) (bufs : List Buf) (done : List Buf) : World :=
  { w with data.rcv.q := w.data.rcv.q.take (w.data.rcv.q.length - bufs.length) ++ done }

def recvCopied (w : World) (args : RecvArgs) (bufs : List Buf) (readnxt : Seq) : Copied :=
  copyLoop w args ((bufs.head?.map fun b => b.th.flags.urg).getD false) bufs args.size readnxt

-- The data is copied and, unless it was only peeked at, done with.
def recvCopy (env : Env) (w : World) (args : RecvArgs) (bufs : List Buf) (readnxt : Seq) : List Byte × World :=
  let done := recvCopied w args bufs readnxt
  (done.bytes,
    if args.peek then w else tcpDropsegs env (setReadPtr (putBack w bufs done.bufs) args.oob done.readnxt))

-- One round of the loop in tcp_recv; wait stands for the call of sleep.
def recvRound (env : Env) (w : World) (args : RecvArgs) : RecvResult × World :=
  match seekSeg w args.oob with
  | ([], _) =>
      if w.tcb.state ≠ .established then (.eof, w)
      else if args.oob ∧ SEQGT w.tcb.rcvUrg w.tcb.rcvNxt then (.fail EAGAIN, w)
      else if args.nonblock then (.fail EAGAIN, w)
      else (.wait, w)
  | (b :: rest, readnxt) =>
      let (bytes, w1) := recvCopy env w args (b :: rest) readnxt
      (.data bytes, w1)

-- From the call up to its first sleep; an empty iovec is answered at once.
def tcpRecv (env : Env) (w : World) (args : RecvArgs) : RecvResult × World :=
  if args.size = 0 then (.data [], w)
  else if w.tcb.state.num ≤ TcbState.synsent.num then (.fail ENOTCONN, w)
  else recvRound env w args

def clearErr (w : World) : World := { w with data.err := 0 }

-- From one sleep to the next.
def tcpRecvWoken (env : Env) (w : World) (args : RecvArgs) : RecvResult × World :=
  if w.data.err ≠ 0 then (.fail w.data.err, clearErr w)
  else if w.data.sock.any (fun so => so.cantrcvmore) then (.eof, w)
  else recvRound env w args

def connecting (w : World) : Bool := w.tcb.state = .synsent || w.tcb.state = .synrcvd

def connected (w : World) : Bool := w.tcb.state = .established || w.tcb.state = .closewait

def tcpCanwrite (w : World) : Int :=
  if ¬ connected w then 0
  else
    let space := w.data.snd.maxdatalen - w.data.snd.curdatalen.toInt
    max (if space < w.tcb.sndMss ∧ 2 * w.tcb.sndMss ≤ w.data.snd.maxdatalen then 0 else space) 0

inductive SendResult where
  | sent (n : Nat)
  | fail (err : Int)
  | wait
deriving DecidableEq, Repr

-- One round of the loop in tcp_send over the bytes still to be written.
def sendRound (env : Env) (w : World) (bytes : List Byte) (oob : Bool) : SendResult × World :=
  if (connected w ∧ tcpCanwrite w ≤ 0) ∨ connecting w then (.wait, w)
  else if ¬ connected w then (.fail EPIPE, w)
  else
    match tcpOutput env w (bytes.take (tcpCanwrite w).toNat) (if oob then TCPF_URG else Flags.none) with
    | (r, w1) => (if r < 0 then .fail r else .sent (bytes.take (tcpCanwrite w).toNat).length, w1)

def tcpSend (env : Env) (w : World) (bytes : List Byte) (oob : Bool) : SendResult × World :=
  if bytes.isEmpty then (.sent 0, w)
  else if w.tcb.state.num ≤ TcbState.listen.num then (.fail ENOTCONN, w)
  else sendRound env w bytes oob

def tcpSendWoken (env : Env) (w : World) (bytes : List Byte) (oob : Bool) : SendResult × World :=
  if w.data.err ≠ 0 then (.fail w.data.err, clearErr w)
  else if w.data.sock.any (fun so => so.cantsndmore) then (.fail EPIPE, w)
  else sendRound env w bytes oob

def outputFin (env : Env) (w : World) : World := (tcpOutput env w [] TCPF_FIN_ACK).2

-- The half of tcp_shutdown and tcp_detach that leaves a state in which data can be sent.
def sendFin (env : Env) (w : World) : World :=
  match w.tcb.state with
  | .synrcvd | .established => outputFin env (setState w .finwait1)
  | .closewait => outputFin env (setState w .lastack)
  | _ => w

def tcpShutdown (env : Env) (w : World) (how : Nat) : World :=
  if how = 1 ∨ how = 2 then sendFin env w else w

def markAll (w : World) : World :=
  { w with
    tcb.seqRead := w.tcb.rcvNxt
    tcb.seqUread := w.tcb.rcvNxt
    data.rcv.q := w.data.rcv.q.map fun b => b.mark true }

def dropSock (w : World) : World := { w with data.sock := none }

def tcpDetach (env : Env) (w : World) : World :=
  match w.tcb.state with
  | .closed | .listen | .synsent => connFree w
  | _ => tcpDropsegs env (markAll (dropSock (sendFin env w)))

-- A new socket of type SOCK_STREAM, bound to a port.
def tcpAttach (sport : InPort) (net : Net) : World :=
  ⟨tcbAlloc, { inDataCreate with sock := some ⟨.isunconnected, false, false, false, 0⟩, sport := sport, isbound := true },
    net, true, []⟩

def setAccepting (w : World) : World :=
  setState { w with data.sock := w.data.sock.map fun so => { so with acceptcon := true } } .listen

def setBacklog (w : World) (backlog : Nat) : World := { w with data.backlog := backlog }

def tcpListen (w : World) (backlog : Nat) : World :=
  if w.data.isconnected ∨ w.tcb.state.num > TcbState.listen.num then setBacklog w backlog
  else setAccepting (setBacklog w backlog)

-- What tcp_connect is told by the routing code about the peer's address.
structure ConnectArgs where
  faddr : InAddr
  fport : InPort
  laddr : InAddr
  duplicate : Bool
deriving DecidableEq, Repr

def setPeer (w : World) (args : ConnectArgs) : World :=
  { w with
    data.saddr := args.laddr
    data.daddr := args.faddr
    data.dport := args.fport
    data.isconnected := true }

def setIsn (w : World) (isn : Seq) : World :=
  { w with
    tcb.sndWnd := TCP_MSS
    tcb.sndIsn := isn
    tcb.sndUna := isn
    tcb.sndWndack := isn
    tcb.sndNxt := isn
    tcb.sndMax := isn
    tcb.sndUrg := isn
    tcb.seqWrite := isn
    stream := [] }

def takeIsn (env : Env) (w : World) : World := { w with net := (tcpIsn env w.net).2 }

def setRcvMss (w : World) (mss : Int) : World := { w with tcb.rcvMss := mss }

def openRcvMss (env : Env) (w : World) : World :=
  setRcvMss (limitRcv env w w.data.daddr TCP_MAXMSS) (tcpMss env w w.data.daddr TCP_MAXMSS)

def connectStart (env : Env) (w : World) (args : ConnectArgs) : World :=
  openRcvMss env (setIsn (takeIsn env (setSockState (setPeer w args) .isconnecting)) (tcpIsn env w.net).1)

-- The part of tcp_connect before it waits for the handshake.
def tcpConnect (env : Env) (w : World) (args : ConnectArgs) : World :=
  if w.tcb.state ≠ .closed ∨ args.fport = 0 ∨ env.isBroadcast args.faddr ∨ args.laddr = 0 then w
  else if args.duplicate then { w with data.saddr := args.laddr }
  else setState (tcpOutput env (connectStart env w args) [] TCPF_SYN).2 .synsent

-- inet_setsockopt for a stream socket: the sizes of the two queues.
def clampSpace (val : Int) : Int :=
  if val > IN_MAX_SPACE then IN_MAX_SPACE else if val < IN_MIN_SPACE then IN_MIN_SPACE else val

def setRcvbuf (w : World) (val : Int) : World :=
  if clampSpace val < w.data.rcv.curdatalen.toInt then w else { w with data.rcv.maxdatalen := clampSpace val }

def setSndbuf (w : World) (val : Int) : World :=
  if clampSpace val < w.data.snd.curdatalen.toInt then w else { w with data.snd.maxdatalen := clampSpace val }

end MagxNet.Tcp
