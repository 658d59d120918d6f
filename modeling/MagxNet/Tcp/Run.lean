import MagxNet.Tcp.Frame

set_option autoImplicit false

namespace MagxNet.Tcp

open Bytes

-- Everything that happens to a connection. What the user does takes a socket; a timer takes a
-- pending event; each step meets its own surroundings, so that what fails may differ every time.
inductive Op where
  | segment (pkt : Pkt) (duplicate : Bool)
  | error (id : Nat) (error : IcmpError)
  | wakeme
  | deleteme
  | dodelack
  | recv (args : RecvArgs)
  | recvWoken (args : RecvArgs)
  | send (bytes : List Byte) (oob : Bool)
  | sendWoken (bytes : List Byte) (oob : Bool)
  | shutdown (how : Nat)
  | detach
  | accept
  | rcvbuf (val : Int)
  | sndbuf (val : Int)
  | nodelay (set : Bool)
  | oobinline (set : Bool)
  | takeErr
  | tick (delta : Nat)

def takeTimer (w : World) : World := timerDel w

def takeDelete (w : World) : World := { w with tcb.deleteEvt := none }

def takeAck (w : World) : World := { w with tcb.ackEvt := none }

-- shutdown(2) notes on the socket which directions are closed.
def setCant (w : World) (how : Nat) : World :=
  { w with
    data.sock := w.data.sock.map fun so =>
      { so with
        cantrcvmore := so.cantrcvmore || decide (how = 0 ∨ how = 2)
        cantsndmore := so.cantsndmore || decide (how = 1 ∨ how = 2) } }

-- The socket that accept(2) returns takes over a connection that is past the handshake.
def tcpAccept (w : World) : World :=
  if w.tcb.flags.passive ∧ w.tcb.state ≠ .synrcvd then
    { w with data.sock := some ⟨.isconnected, false, false, false, 0⟩ }
  else w

def setNodelay (w : World) (set : Bool) : World := { w with tcb.flags.ndelay := set }

def setOobinline (w : World) (set : Bool) : World := { w with data.oobinline := set }

def tick (w : World) (delta : Nat) : World := { w with net.now := w.net.now + delta }

def userStep (env : Env) (w : World) : Op → World
  | .recv args => (tcpRecv env w args).2
  | .recvWoken args => (tcpRecvWoken env w args).2
  | .send bytes oob => (tcpSend env w bytes oob).2
  | .sendWoken bytes oob => (tcpSendWoken env w bytes oob).2
  | .shutdown how => tcpShutdown env (setCant w how) how
  | .detach => tcpDetach env w
  | .accept => tcpAccept w
  | .rcvbuf val => setRcvbuf w val
  | .sndbuf val => setSndbuf w val
  | .nodelay set => setNodelay w set
  | .oobinline set => setOobinline w set
  | .takeErr => clearErr w
  | _ => w

def netStep (env : Env) (w : World) : Op → World
  | .segment pkt duplicate => inputFound env w pkt duplicate
  | .error id error => tcpError w id error
  | .wakeme => if w.tcb.timerEvt.isSome then wakeme env (takeTimer w) else w
  | .deleteme => if w.tcb.deleteEvt.isSome then deleteme (takeDelete w) else w
  | .dodelack => if w.tcb.ackEvt.isSome then dodelack env (takeAck w) else w
  | .tick delta => tick w delta
  | op => if w.data.sock.isSome then userStep env w op else w

def step (env : Env) (w : World) (op : Op) : World := if w.alive then netStep env w op else w

-- A socket that is neither connected nor listening, with its options set as the user likes.
inductive Configured : World → Prop
  | attach (sport : InPort) (net : Net) : Configured (tcpAttach sport net)
  | rcvbuf (w : World) (val : Int) : Configured w → Configured (setRcvbuf w val)
  | sndbuf (w : World) (val : Int) : Configured w → Configured (setSndbuf w val)
  | nodelay (w : World) (set : Bool) : Configured w → Configured (setNodelay w set)
  | oobinline (w : World) (set : Bool) : Configured w → Configured (setOobinline w set)
  | net (w : World) (net : Net) : Configured w → Configured (setNet w net)

-- How a connection begins: by tcp_connect, or as the child of a listening one.
inductive Start : World → Prop
  | connect (env : Env) (w : World) (args : ConnectArgs) : Configured w →
      (tcpConnect env w args).tcb.state = .synsent → Start (tcpConnect env w args)
  | listen (env : Env) (w : World) (pkt : Pkt) (duplicate : Bool) (child : World) :
      inputSpawn env w pkt duplicate = some child → Start child

-- The states that a connection reaches by steps of an allowed kind.
inductive Reach (allowed : Env → World → Op → Prop) : World → Prop
  | start (w : World) : Start w → Reach allowed w
  | step (env : Env) (w : World) (op : Op) : Reach allowed w → allowed env w op → Reach allowed (step env w op)

theorem reach_invariant (allowed : Env → World → Op → Prop) (inv : World → Prop)
    (atStart : ∀ w, Start w → inv w)
    (kept : ∀ env w op, inv w → allowed env w op → inv (step env w op))
    (w : World) (reached : Reach allowed w) : inv w := by
  induction reached with
  | start w start => exact atStart w start
  | step env w op _ ok ih => exact kept env w op ih ok

theorem reach_weaken (allowed laxer : Env → World → Op → Prop)
    (weaker : ∀ env w op, allowed env w op → laxer env w op) (w : World) (reached : Reach allowed w) :
    Reach laxer w := by
  induction reached with
  | start w start => exact .start w start
  | step env w op _ ok ih => exact .step env w op ih (weaker env w op ok)

end MagxNet.Tcp
