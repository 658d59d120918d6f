import MagxNet.Tcp.Run
import MagxNet.Tcp.Demux

set_option autoImplicit false

namespace MagxNet.Inet

open Tcp

def EACCES : Int := -36
def EDESTADDRREQ : Int := -301
def EAFNOSUPPORT : Int := -309
def EADDRINUSE : Int := -310
def EADDRNOTAVAIL : Int := -311
def ENETUNREACH : Int := -313
def EALREADY : Int := -324

def AF_INET : Nat := 2
-- sizeof(struct sockaddr_in)
def SOCKADDR_LEN : Nat := 16

def IPPORT_RESERVED : InPort := 1024
def IPPORT_USERRESERVED : InPort := 5000

-- A stream socket and the connection behind it. server is its conn field and iconnQ its queue of clients; both name
-- sockets by their numbers.
structure Sock where
  id : Nat
  conn : World
  reuse : Bool
  server : Option Nat
  iconnQ : List Nat

-- tcp_proto with its list of sockets, the last one put there first. made counts them; no number is given twice.
structure Proto where
  datas : List Sock
  net : Net
  lastport : InPort
  made : Nat

def Proto.get (p : Proto) (id : Nat) : Option Sock := p.datas.find? fun s => decide (s.id = id)

-- One socket is changed, or taken off the list.
def change (p : Proto) (id : Nat) (f : Sock → Option Sock) : Proto :=
  { p with datas := p.datas.filterMap fun s => if s.id = id then f s else some s }

-- The surroundings are shared by all connections.
def here (p : Proto) (s : Sock) : World := setNet s.conn p.net

def settle (s : Sock) (w : World) : Option Sock := if w.alive then some { s with conn := w } else none

def put (p : Proto) (s : Sock) (w : World) : Proto := { change p s.id (fun s => settle s w) with net := w.net }

def run (p : Proto) (id : Nat) (f : World → World) : Proto :=
  match p.get id with
  | none => p
  | some s => put p s (f (here p s))

def conns (p : Proto) : List World := p.datas.map (·.conn)

def inDataPut (p : Proto) (w : World) (server : Option Nat) : Proto :=
  { p with datas := ⟨p.made, w, false, server, []⟩ :: p.datas, made := p.made + 1 }

def sockState (s : Sock) : Option SoState := s.conn.data.sock.map (·.state)

-- port.c

def hasPort (port : InPort) (s : Sock) : Bool := s.conn.data.isbound && decide (s.conn.data.sport = port)

def portInuse (p : Proto) (port : InPort) : Bool := p.datas.any (hasPort port)

def portFindWithAddr (p : Proto) (port : InPort) (addr : InAddr) : Option Sock :=
  p.datas.find? fun s => hasPort port s && decide (s.conn.data.saddr = addr)

def nextPort (lastport : InPort) : InPort :=
  if IPPORT_USERRESERVED < lastport + 1 then IPPORT_RESERVED else lastport + 1

def allocLoop (p : Proto) : Nat → InPort → Option InPort
  | 0, _ => none
  | fuel + 1, lastport =>
      if portInuse p (nextPort lastport) then allocLoop p fuel (nextPort lastport) else some (nextPort lastport)

-- With every port in use the search never ends, which none stands for.
def portAlloc (p : Proto) : Option InPort := allocLoop p 3977 p.lastport

-- inet.c

def bindTo (w : World) (addr : InAddr) (port : InPort) : World :=
  { w with data.saddr := addr, data.sport := port, data.isbound := true }

def bindSock (p : Proto) (id : Nat) (addr : InAddr) (port : InPort) : Proto :=
  change p id fun s => some { s with conn := bindTo s.conn addr port }

def inetAutobind (p : Proto) (s : Sock) : Option Proto :=
  if s.conn.data.isbound then some p
  else (portAlloc p).map fun port => { bindSock p s.id INADDR_ANY port with lastport := port }

structure SockaddrIn where
  family : Nat
  addr : InAddr
  port : InPort
deriving DecidableEq, Repr

-- islocal is what ip_is_local_addr answers.
structure BindArgs where
  addr : Option SockaddrIn
  addrlen : Nat
  islocal : Bool
  superuser : Bool
deriving DecidableEq, Repr

-- The port may be shared when both sockets have IN_REUSE set.
def bindTaken (p : Proto) (s : Sock) (a : SockaddrIn) : Bool :=
  (portFindWithAddr p a.port a.addr).any fun data2 => !s.reuse || !data2.reuse

def inetBind (p : Proto) (s : Sock) (args : BindArgs) : Option (Int × Proto) :=
  match args.addr with
  | none => some (EDESTADDRREQ, p)
  | some a =>
      if s.conn.data.isbound then some (EINVAL, p)
      else if args.addrlen ≠ SOCKADDR_LEN then some (EINVAL, p)
      else if a.family ≠ AF_INET then some (EAFNOSUPPORT, p)
      else if a.addr ≠ INADDR_ANY ∧ ¬ args.islocal then some (EADDRNOTAVAIL, p)
      else if a.port = 0 then
        (portAlloc p).map fun port => (0, { bindSock p s.id a.addr port with lastport := port })
      else if a.port < IPPORT_RESERVED ∧ ¬ args.superuser then some (EACCES, p)
      else if bindTaken p s a then some (EADDRINUSE, p)
      else some (0, bindSock p s.id a.addr a.port)

-- faddr is what ip_dst_addr makes of the address, laddr what ip_local_addr answers for it.
structure DialArgs where
  addr : Option SockaddrIn
  addrlen : Nat
  faddr : InAddr
  laddr : InAddr
deriving DecidableEq, Repr

-- The lookup that tcp_connect makes once it has set its own address.
def dialFound (p : Proto) (s : Sock) (fport : InPort) (args : DialArgs) : Option (Nat × World) :=
  inDataLookup args.laddr s.conn.data.sport args.faddr fport
    (conns (change p s.id fun s => some { s with conn.data.saddr := args.laddr }))

def dialArgs (p : Proto) (s : Sock) (fport : InPort) (args : DialArgs) : ConnectArgs :=
  ⟨args.faddr, fport, args.laddr, (dialFound p s fport args).any fun found => found.2.data.isconnected⟩

-- What tcp_connect answers; a call that does not return at once waits where this answers EINPROGRESS.
def connectResult (env : Env) (w : World) (args : ConnectArgs) : Int :=
  if w.tcb.state ≠ .closed then EISCONN
  else if args.fport = 0 then EADDRNOTAVAIL
  else if env.isBroadcast args.faddr then EINVAL
  else if args.laddr = 0 then ENETUNREACH
  else if args.duplicate then EADDRINUSE
  else EINPROGRESS

def tcpConnect (env : Env) (p : Proto) (s : Sock) (fport : InPort) (args : DialArgs) : Int × Proto :=
  (connectResult env (here p s) (dialArgs p s fport args),
    run p s.id fun w => Tcp.tcpConnect env w (dialArgs p s fport args))

def inetConnect (env : Env) (p : Proto) (s : Sock) (args : DialArgs) : Option (Int × Proto) :=
  if sockState s = some .isconnecting then some (EALREADY, p)
  else match args.addr with
    | none => some (EINVAL, p)
    | some a =>
        if args.addrlen ≠ SOCKADDR_LEN then some (EINVAL, p)
        else if a.family ≠ AF_INET then some (EAFNOSUPPORT, p)
        else (inetAutobind p s).map fun p1 => tcpConnect env p1 ((p1.get s.id).getD s) a.port args

-- Of the states in which connect(2) is passed on, inet_connect takes only the first.
def mgxConnect (env : Env) (p : Proto) (s : Sock) (args : DialArgs) : Option (Int × Proto) :=
  match s.conn.data.sock with
  | none => some (EINVAL, p)
  | some so =>
      match so.state with
      | .isunconnected | .isconnecting =>
          if so.acceptcon then some (EINVAL, p) else inetConnect env p s args
      | .isconnected => some (EISCONN, p)
      | .isdisconnecting | .isdisconnected | .virgin => some (EINVAL, p)

def listenResult (w : World) : Int :=
  if w.data.isconnected then EINVAL else if w.tcb.state.num > TcbState.listen.num then EALREADY else 0

def inetListen (p : Proto) (s : Sock) (backlog : Nat) : Option (Int × Proto) :=
  (inetAutobind p s).map fun p1 => (listenResult s.conn, run p1 s.id fun w => tcpListen w backlog)

def mgxListen (p : Proto) (s : Sock) (backlog : Int) : Option (Int × Proto) :=
  if sockState s ≠ some .isunconnected then some (EINVAL, p) else inetListen p s backlog.toNat

-- The queue of clients. A client is taken off and loses its server.

def setQueue (s : Sock) (q : List Nat) : Sock :=
  { s with iconnQ := q, conn.data.sock := s.conn.data.sock.map fun so => { so with queued := q.length } }

def dequeue (p : Proto) (server client : Nat) : Proto :=
  change p server fun s => some (setQueue s (s.iconnQ.erase client))

def forget (p : Proto) (client : Nat) : Proto := change p client fun s => some { s with server := none }

def acceptable (p : Proto) (id : Nat) : Bool := (p.get id).any fun s => decide (s.conn.tcb.state ≠ .synrcvd)

def tcpCanaccept (p : Proto) (s : Sock) : Bool :=
  decide (s.conn.tcb.state = .listen) && s.iconnQ.any (acceptable p)

inductive AcceptResult where
  | took (client : Nat)
  | fail (err : Int)
  | wait
deriving DecidableEq, Repr

-- The client's connection goes over to the new socket.
def handOver (p : Proto) (server client : Nat) : Proto :=
  run (forget (dequeue p server client) client) client Tcp.tcpAccept

-- One round of the loop in tcp_accept; wait stands for the call of sleep.
def tcpAccept (p : Proto) (s : Sock) (nonblock : Bool) : AcceptResult × Proto :=
  if s.conn.tcb.state ≠ .listen then (.fail EINVAL, p)
  else match s.iconnQ.find? (acceptable p) with
    | some client => (.took client, handOver p s.id client)
    | none => (if nonblock then .fail EAGAIN else .wait, p)

def tcpAcceptWoken (p : Proto) (s : Sock) (nonblock : Bool) : AcceptResult × Proto :=
  if s.conn.data.err ≠ 0 then (.fail s.conn.data.err, run p s.id clearErr) else tcpAccept p s nonblock

-- The socket that the caller is to get is made and, when a client takes its place, detached again.
def mgxAccept (p : Proto) (s : Sock) (nonblock : Bool) : AcceptResult × Proto :=
  if sockState s ≠ some .isunconnected then (.fail EINVAL, p)
  else if ¬ s.conn.data.sock.any (·.acceptcon) then (.fail EINVAL, p)
  else tcpAccept p s nonblock

-- ipcutil.c

-- A socket that is still connecting is taken off the queue of its server.
def leaveQueue (p : Proto) (s : Sock) : Proto :=
  if sockState s = some .isconnecting then
    match s.server with
    | some server => forget (dequeue p server s.id) s.id
    | none => p
  else p

def soDetach (env : Env) (p : Proto) (id : Nat) : Proto :=
  run p id fun w => tcpDetach env (setSockState w .isdisconnecting)

-- tcp_abort frees every client on the queue.
def abortClients (env : Env) (server : Nat) : List Nat → Proto → Proto
  | [], p => p
  | client :: rest, p =>
      abortClients env server rest (soDetach env (forget (dequeue p server client) client) client)

def soRelease (env : Env) (p : Proto) (s : Sock) : Proto :=
  match s.conn.data.sock with
  | none => p
  | some so =>
      if so.state = .virgin ∨ so.state = .isdisconnected then p
      else soDetach env (leaveQueue (if so.acceptcon then abortClients env s.id s.iconnQ p else p) s) s.id

end MagxNet.Inet
