import MagxNet.Tcp.Cut
import MagxNet.Tcp.Congestion

set_option autoImplicit false

namespace MagxNet.Tcp

open Bytes

-- The calls of tcp_sndseg that each function makes, in their order. They follow the functions branch by
-- branch, as a call leaves no trace in the connection when it fails.
section Calls

variable (env : Env)

def loopCalls (wndnxt : Seq) : List Buf → World → List SegCall
  | [], _ => []
  | b :: rest, w =>
      if sendable w b wndnxt then
        ⟨w, b, rest, 0, w.tcb.sndNxt, wndnxt⟩
          :: match tcpSndseg env w b rest 0 w.tcb.sndNxt wndnxt with
            | (r, w1) =>
                if r < 0 then []
                else loopCalls wndnxt rest (sndAdvance w1 (if SEQLE (seqEnd b) wndnxt then seqEnd b else wndnxt))
      else []

def sndheadCalls (w : World) : List SegCall :=
  if SEQGE w.tcb.sndNxt w.tcb.seqWrite then []
  else match w.data.snd.q.getLast? with
    | none => []
    | some last => loopCalls env (sndheadEdge w last) (w.data.snd.q.dropWhile (alreadySent w)) w

def pendingCalls (w : World) : List SegCall := if SEQLT w.tcb.sndNxt w.tcb.seqWrite then sndheadCalls env w else []

def retransCalls (w : World) : List SegCall :=
  if w.tcb.nretrans + 1 > TCP_MAXRETRY then []
  else match w.data.snd.q with
    | [] => []
    | b :: rest =>
        let x := shrinkCwnd (countRetrans w)
        [⟨x, b, rest, x.tcb.nretrans, x.tcb.sndUna, x.tcb.sndNxt⟩]

def dupackCalls (w : World) : List SegCall :=
  if w.tcb.dupacks ≥ TCP_DUPTHRESH ∧ canretrans w then
    match dupackSeg w with
    | [] => []
    | b :: rest =>
        if SEQLE (seqEnd b) w.tcb.sndNxt then
          [⟨w, b, rest, if w.tcb.dupacks = TCP_DUPTHRESH then w.tcb.nretrans else 0, w.tcb.sndUna, w.tcb.sndNxt⟩]
        else []
  else []

def progressCalls (w : World) : List SegCall :=
  if SEQGE w.tcb.sndUna w.tcb.sndNxt then pendingCalls env (startCwnd w) else []

def idleCalls (w : World) : OutEvent → List SegCall
  | .send => if SEQGE w.tcb.sndNxt w.tcb.seqWrite then [] else sndheadCalls env (idleStart w)
  | _ => []

def xmitCalls (w : World) : OutEvent → List SegCall
  | .send | .wndopen => pendingCalls env w
  | .timeout => retransCalls (capDupacks (noRtt (setOstate w .retrans)))
  | _ => []

def lossCalls (w : World) : OutEvent → List SegCall
  | .timeout => retransCalls w
  | .dupack => dupackCalls w
  | .ackrcvd =>
      if allAcked (tcpDropdata w).2 then [] else progressCalls env (resetBackoff (tcpDropdata w).2 (tcpDropdata w).1)
  | _ => []

def persistCalls (w : World) : OutEvent → List SegCall
  | .timeout => if w.tcb.sndWnd > 0 then sndheadCalls env (setWndmax w) else []
  | .wndopen => pendingCalls env w
  | _ => []

def ostateCalls (w : World) (event : OutEvent) : List SegCall :=
  match w.tcb.ostate with
  | .idle => idleCalls env w event
  | .retrans => lossCalls env w event
  | .persist => persistCalls env w event
  | .xmit => xmitCalls env w event

def urgentCalls (w : World) : List SegCall :=
  if w.tcb.ostate = .persist then
    if peerSilent w then [] else ostateCalls env (tcpProbe env (setPersistTmo (timerDel w) (tcpTimeout w))) .send
  else ostateCalls env w .send

def outputCalls (w : World) (bytes : List Byte) (flags : Flags) : List SegCall :=
  if bytes.isEmpty ∧ ¬ flags.syn ∧ ¬ flags.fin then []
  else match outputLoop env flags (bytes.length + 1) w bytes true with
    | (none, _) => []
    | (some _, w1) => if flags.urg then urgentCalls env (setSndUrg w1) else ostateCalls env w1 .send

def placeCalls (w : World) (pkt : Pkt) (osndWnd : Int) : List SegCall :=
  if SEQGT pkt.tcph.ack w.tcb.sndMax then []
  else if SEQLT w.tcb.sndUna pkt.tcph.ack then ostateCalls env (setUna w pkt.tcph.ack) .ackrcvd
  else if SEQLT pkt.tcph.ack w.tcb.sndUna then []
  else if w.tcb.sndUna = pkt.tcph.ack ∧ osndWnd = pkt.tcph.window.toNat ∧ tcpSeglen pkt.tcph = 0 then
    ostateCalls env (setDupacks w (w.tcb.dupacks + 1)) .dupack
  else []

def ackCalls (w : World) (pkt : Pkt) (updateSndwnd : Bool) : List SegCall :=
  if ¬ pkt.tcph.flags.ack then []
  else if updateSndwnd ∧ ¬ staleWindow w pkt.tcph then
    placeCalls env (tcpSndwnd w pkt.tcph) pkt w.tcb.sndWnd
      ++ ostateCalls env (ackPlace env (tcpSndwnd w pkt.tcph) pkt w.tcb.sndWnd) (windowEvent w pkt.tcph)
  else placeCalls env w pkt w.tcb.sndWnd

def stateCalls (w : World) (pkt : Pkt) : List SegCall :=
  match w.tcb.state with
  | .closed | .listen => []
  | .synsent =>
      if pkt.tcph.flags.ack ∧ (SEQLE pkt.tcph.ack w.tcb.sndIsn ∨ SEQGT pkt.tcph.ack w.tcb.sndMax) then []
      else if pkt.tcph.flags.rst then []
      else if ¬ pkt.tcph.flags.syn ∨ env.isBroadcast pkt.daddr then []
      else ackCalls env (startRcv w pkt.tcph.seq) pkt false
  | .synrcvd =>
      if pkt.tcph.flags.rst then [] else if pkt.tcph.flags.syn then [] else ackCalls env w pkt false
  | .established =>
      if pkt.tcph.flags.rst then [] else if pkt.tcph.flags.syn then [] else ackCalls env w pkt true
  | .finwait1 => if unwelcome w pkt then [] else ackCalls env w pkt true
  | .closewait => if resetOrSyn pkt then [] else ackCalls env w pkt true
  | .finwait2 | .lastack | .closing | .timewait => if unwelcome w pkt then [] else ackCalls env w pkt false

def inputCalls (w : World) (pkt : Pkt) : List SegCall :=
  if accepted env w pkt then stateCalls env (gateConn env w pkt) (gateSeg env w pkt) else []

def roundCalls (w : World) (bytes : List Byte) (oob : Bool) : List SegCall :=
  if (connected w ∧ tcpCanwrite w ≤ 0) ∨ connecting w then []
  else if ¬ connected w then []
  else outputCalls env w (bytes.take (tcpCanwrite w).toNat) (if oob then TCPF_URG else Flags.none)

def finCalls (w : World) : List SegCall :=
  match w.tcb.state with
  | .synrcvd | .established => outputCalls env (setState w .finwait1) [] TCPF_FIN_ACK
  | .closewait => outputCalls env (setState w .lastack) [] TCPF_FIN_ACK
  | _ => []

def userCalls (w : World) : Op → List SegCall
  | .send bytes oob =>
      if bytes.isEmpty then [] else if w.tcb.state.num ≤ TcbState.listen.num then [] else roundCalls env w bytes oob
  | .sendWoken bytes oob =>
      if w.data.err ≠ 0 then [] else if w.data.sock.any (fun so => so.cantsndmore) then [] else roundCalls env w bytes oob
  | .shutdown how => if how = 1 ∨ how = 2 then finCalls env (setCant w how) else []
  | .detach =>
      match w.tcb.state with
      | .closed | .listen | .synsent => []
      | _ => finCalls env w
  | _ => []

def stepCalls (w : World) (op : Op) : List SegCall :=
  if w.alive then
    match op with
    | .segment pkt _ => inputCalls env w pkt
    | .wakeme => if w.tcb.timerEvt.isSome then ostateCalls env (takeTimer w) .timeout else []
    | .error _ _ | .deleteme | .dodelack | .tick _ => []
    | op => if w.data.sock.isSome then userCalls env w op else []
  else []

end Calls

-- A call of tcp_sndseg in some run: when a connection begins, by tcp_connect or as the child of a
-- listening one, or in one of its steps.
inductive Invoked (allowed : Env → World → Op → Prop) (c : SegCall) : Prop
  | connect (env : Env) (w : World) (args : ConnectArgs) : Configured w → (tcpConnect env w args).tcb.state = .synsent →
      c ∈ outputCalls env (connectStart env w args) [] TCPF_SYN → Invoked allowed c
  | listen (env : Env) (w : World) (pkt : Pkt) : c ∈ outputCalls env (childOpened env w pkt) [] TCPF_SYN_ACK →
      Invoked allowed c
  | step (env : Env) (w : World) (op : Op) : Reach allowed w → allowed env w op → c ∈ stepCalls env w op →
      Invoked allowed c

end MagxNet.Tcp
