import MagxNet.Inet.Sockets

set_option autoImplicit false

namespace MagxNet.Inet

open Tcp

-- What check_syn finds with in_data_lookup_next: a dead connection of the same two ends that began with this SYN.
def checkSyn (p : Proto) (pkt : Pkt) : Bool :=
  p.datas.any fun s => boundHere pkt.daddr pkt.tcph.dstport s.conn.data && s.conn.data.isconnected
    && fromPeer pkt.saddr pkt.tcph.srcport s.conn.data && s.conn.data.dead && decide (s.conn.tcb.rcvIsn = pkt.tcph.seq)

-- The new socket is put on the list, and on the queue of the listening one.
def enqueue (p : Proto) (server : Nat) (child : World) : Proto :=
  change (inDataPut p child (some server)) server fun s => some (setQueue s (s.iconnQ ++ [p.made]))

def spawn (p : Proto) (server : Nat) (child : Option World) : Proto :=
  match child with
  | none => p
  | some w => enqueue p server w

-- so_free, called while a socket's own segment is handled, also takes it off its queue.
def freeSock (p : Proto) (s : Sock) (w : World) : Proto :=
  if w.alive = false ∧ s.conn.data.sock.isSome then leaveQueue p s else p

def inputSock (env : Env) (p : Proto) (s : Sock) (pkt : Pkt) : Proto :=
  let w := inputFound env (here p s) pkt (checkSyn p pkt)
  spawn (put (freeSock p s w) s w) s.id (inputSpawn env (here p s) pkt (checkSyn p pkt))

-- No socket is looked at by a segment that finds none.
def bare (p : Proto) : World := ⟨tcbAlloc, inDataCreate, p.net, true, []⟩

def keepNet (p : Proto) (w : World) : Proto := { p with net := w.net }

def input (env : Env) (p : Proto) (pkt : Pkt) : Proto :=
  match tcpInput env (conns p) pkt with
  | .dropped => keepNet p (bufDeref (bare p) pkt.id)
  | .reset => keepNet p (tcpSndrst env (bare p) pkt)
  | .handed i =>
      match p.datas[i]? with
      | none => p
      | some s => inputSock env p s pkt

-- The ends of the segment that an ICMP message is about, as it was sent.
structure Quoted where
  saddr : InAddr
  sport : InPort
  daddr : InAddr
  dport : InPort
deriving DecidableEq, Repr

def errorInput (p : Proto) (q : Quoted) (id : Nat) (error : IcmpError) : Proto :=
  match inDataLookup q.daddr q.dport q.saddr q.sport (conns p) with
  | none => keepNet p (bufDeref (bare p) id)
  | some (i, _) =>
      match p.datas[i]? with
      | none => p
      | some s => put p s (tcpError (here p s) id error)

-- The calls of a user that go to the connection as they are, and the timers.
def byUser : Op → Bool
  | .recv _ | .recvWoken _ | .send _ _ | .sendWoken _ _ | .rcvbuf _ | .sndbuf _ | .nodelay _ | .oobinline _ | .takeErr => true
  | _ => false

def byTimer : Op → Bool
  | .wakeme | .deleteme | .dodelack => true
  | _ => false

-- inet_send and inet_recv bind the socket before they go on to the connection.
def autobinds : Op → Bool
  | .recv _ | .send _ _ => true
  | _ => false

def userCall (env : Env) (p : Proto) (s : Sock) (op : Op) : Option Proto :=
  (if autobinds op then inetAutobind p s else some p).map fun p1 => run p1 s.id fun w => userStep env w op

def shutDown (p : Proto) (id : Nat) : Option Sock :=
  (p.get id).filter fun s => s.conn.data.sock.any fun so => so.cantsndmore && so.cantrcvmore

def releaseShut (env : Env) (p : Proto) (id : Nat) : Proto :=
  match shutDown p id with
  | none => p
  | some s => soRelease env p s

-- inet_shutdown releases the socket when neither direction is left.
def inetShutdown (env : Env) (p : Proto) (s : Sock) (how : Nat) : Option Proto :=
  (inetAutobind p s).map fun p1 => releaseShut env (run p1 s.id fun w => tcpShutdown env (setCant w how) how) s.id

inductive Call where
  | socket
  | reuse (id : Nat) (set : Bool)
  | bind (id : Nat) (args : BindArgs)
  | getname (id : Nat)
  | connect (id : Nat) (args : DialArgs)
  | listen (id : Nat) (backlog : Int)
  | accept (id : Nat) (nonblock : Bool)
  | acceptWoken (id : Nat) (nonblock : Bool)
  | shutdown (id : Nat) (how : Nat)
  | close (id : Nat)
  | user (id : Nat) (op : Op)
  | timer (id : Nat) (op : Op)
  | segment (pkt : Pkt)
  | error (q : Quoted) (buf : Nat) (error : IcmpError)
  | tick (delta : Nat)

-- A user's call needs a descriptor: the socket is there, and on no queue.
def held (p : Proto) (id : Nat) : Option Sock :=
  (p.get id).filter fun s => s.conn.data.sock.isSome && s.server.isNone

def withHeld (p : Proto) (id : Nat) (f : Sock → Proto) : Proto :=
  match held p id with
  | none => p
  | some s => f s

-- A call that never returns leaves everything to itself.
def returned (p : Proto) (result : Option (Int × Proto)) : Proto := (result.map (·.2)).getD p

def newSock (p : Proto) : World :=
  ⟨tcbAlloc, { inDataCreate with sock := some ⟨.isunconnected, false, false, false, 0⟩ }, p.net, true, []⟩

def step (env : Env) (p : Proto) : Call → Proto
  | .socket => inDataPut p (newSock p) none
  | .reuse id set => withHeld p id fun s => change p s.id fun s => some { s with reuse := set }
  | .bind id args => withHeld p id fun s => returned p (inetBind p s args)
  | .getname id => withHeld p id fun s => (inetAutobind p s).getD p
  | .connect id args => withHeld p id fun s => returned p (mgxConnect env p s args)
  | .listen id backlog => withHeld p id fun s => returned p (mgxListen p s backlog)
  | .accept id nonblock => withHeld p id fun s => (mgxAccept p s nonblock).2
  | .acceptWoken id nonblock => withHeld p id fun s => (tcpAcceptWoken p s nonblock).2
  | .shutdown id how => withHeld p id fun s => (inetShutdown env p s how).getD p
  | .close id => withHeld p id fun s => soRelease env p s
  | .user id op => if byUser op then withHeld p id fun s => (userCall env p s op).getD p else p
  | .timer id op => if byTimer op then run p id fun w => netStep env w op else p
  | .segment pkt => input env p pkt
  | .error q buf error => errorInput p q buf error
  | .tick delta => { p with net.now := p.net.now + delta }

def start (net : Net) : Proto := ⟨[], net, IPPORT_RESERVED - 1, 0⟩

-- A run: each call meets its own surroundings.
def runs (p : Proto) : List (Env × Call) → Proto
  | [] => p
  | (env, call) :: rest => runs (step env p call) rest

inductive Reached (allowed : Env → Proto → Call → Prop) : Proto → Prop
  | start (net : Net) : Reached allowed (start net)
  | step (env : Env) (p : Proto) (call : Call) : Reached allowed p → allowed env p call → Reached allowed (step env p call)

theorem reached_invariant (allowed : Env → Proto → Call → Prop) (inv : Proto → Prop) (atStart : ∀ net, inv (start net))
    (kept : ∀ env p call, inv p → allowed env p call → inv (step env p call)) (p : Proto) (reached : Reached allowed p) :
    inv p := by
  induction reached with
  | start net => exact atStart net
  | step env p call _ ok ih => exact kept env p call ih ok

end MagxNet.Inet
