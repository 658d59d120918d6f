import MagxNet.Lib.Sessions
import MagxNet.Gluestik.Arena

set_option autoImplicit false

namespace MagxNet.Stik

open Gluestik

-- An int has 16 bits here.
abbrev CInt := BitVec 16
abbrev Port := BitVec 16
abbrev Address := BitVec 32

def E_RRESET : CInt := -4
def E_NOMEM : CInt := -6
def E_REFUSE : CInt := -7
def E_BADHANDLE : CInt := -9
def E_NOCCB : CInt := -11
def E_CNTIMEOUT : CInt := -16
def E_UNREACHABLE : CInt := -24
def E_NOROUTINE : CInt := -26
def E_PARAMETER : CInt := -30
def TCP_ACTIVE : Port := 0
def P_TCP : BitVec 16 := 6
def INADDR_ANY : Address := 0

def GS_LISTENING : BitVec 16 := 1
def GS_NOSOCKET : BitVec 16 := 4
def SIZEOF_GS : Ulong := 20
def TABLE_SIZE : Nat := 128

-- The errno constants are negative here; 24, 9 and 12 are EMFILE, EBADF and ENOMEM as gs_open has them.
def gsXlateError (err : CInt) : CInt :=
  if err = -32 ∨ err = -307 then E_NOROUTINE
  else if err = 24 then E_NOCCB
  else if err = 9 ∨ err = -300 then E_BADHANDLE
  else if err = 12 ∨ err = -67 then E_NOMEM
  else if err = -64 ∨ err = -310 ∨ err = -311 then E_PARAMETER
  else if err = -316 then E_RRESET
  else if err = -320 then E_CNTIMEOUT
  else if err = -321 then E_REFUSE
  else if err = -312 ∨ err = -313 ∨ err = -322 ∨ err = -323 then E_UNREACHABLE
  else -1000 + err

structure Cib where
  protocol : BitVec 16
  lport : Port
  rport : Port
  rhost : Address
  lhost : Address
  status : BitVec 16
deriving DecidableEq, Repr

-- A struct gs, with the block that it is in.
structure Gs where
  block : Nat
  cib : Cib
  sockFd : CInt
  flags : BitVec 16
deriving DecidableEq, Repr

-- The handles, the pool and the descriptors that are open.
structure Handles where
  table : Nat → Option Gs
  arena : List Chunk
  sockets : Finset CInt

def failed (retval : CInt) : Prop := retval.toInt < 0

instance (retval : CInt) : Decidable (failed retval) := inferInstanceAs (Decidable (_ < _))

def freeHandle (s : Handles) : Option Nat := (List.range' 1 (TABLE_SIZE - 1)).find? fun fd => (s.table fd).isNone

-- After bzero.
def bare (block : Nat) : Gs := ⟨block, ⟨0, 0, 0, 0, 0, 0⟩, 0, GS_NOSOCKET⟩

def gsOpen (s : Handles) : CInt × Handles :=
  match freeHandle s with
  | none => (24, s)
  | some fd =>
      match gsMemAlloc s.arena SIZEOF_GS with
      | (none, arena) => (12, { s with arena := arena })
      | (some block, arena) => (BitVec.ofNat 16 fd,
          { s with arena := arena, table := Function.update s.table fd (some (bare block)) })

def hasSocket (gs : Gs) : Prop := gs.flags &&& GS_NOSOCKET = 0

instance (gs : Gs) : Decidable (hasSocket gs) := inferInstanceAs (Decidable (_ = _))

def gsClose (s : Handles) (fd : Nat) : Handles :=
  match s.table fd with
  | none => s
  | some gs =>
      { sockets := if hasSocket gs then s.sockets.erase gs.sockFd else s.sockets
        arena := gsMemFree s.arena (some gs.block)
        table := Function.update s.table fd none }

def gsGet (s : Handles) (fd : CInt) : Option Gs := if ¬ failed fd ∧ fd.toNat < TABLE_SIZE then s.table fd.toNat else none

-- What socket, bind, listen, connect and getsockname return, with the address that the last one gives.
structure Net where
  socket : CInt
  bind : Address → Port → CInt
  listen : CInt
  connect : Address → Port → CInt
  getsockname : CInt
  lhost : Address
  lport : Port

def gsConnect (s : Handles) (fd : CInt) (rhost : Address) (rport : Port) (lhost : Address) (lport : Port) (net : Net) :
    CInt × Handles :=
  match gsGet s fd with
  | none => (E_BADHANDLE, s)
  | some gs =>
      if hasSocket gs then (E_BADHANDLE, s)
      else if failed net.socket then (gsXlateError net.socket, s)
      else
        let s := { s with sockets := insert net.socket s.sockets }
        if failed (net.bind lhost lport) then (gsXlateError (net.bind lhost lport), s)
        else
          let retval := if rhost = 0 then net.listen else net.connect rhost rport
          if failed retval then (gsXlateError retval, s)
          else if failed net.getsockname then (gsXlateError net.getsockname, s)
          else
            let cib := { gs.cib with protocol := P_TCP, rhost := rhost, rport := rport, lhost := net.lhost, lport := net.lport }
            let flags := if rhost = 0 then GS_LISTENING else 0
            (0, { s with table := Function.update s.table fd.toNat (some { gs with cib := cib, sockFd := net.socket, flags := flags }) })

def gsUdpOpen (s : Handles) (fd : CInt) (rhost : Address) (rport : Port) (net : Net) : CInt × Handles :=
  match gsGet s fd with
  | none => (E_BADHANDLE, s)
  | some gs =>
      if hasSocket gs then (E_BADHANDLE, s)
      else if failed net.socket then (gsXlateError net.socket, s)
      else
        let s := { s with sockets := insert net.socket s.sockets }
        let retval := net.connect rhost rport
        if failed retval then (gsXlateError retval, s)
        else if failed net.getsockname then (gsXlateError net.getsockname, s)
        else
          let cib := { gs.cib with protocol := P_TCP, lport := net.lport, rport := rport, rhost := rhost, lhost := net.lhost }
          (0, { s with table := Function.update s.table fd.toNat (some { gs with cib := cib, sockFd := net.socket, flags := 0 }) })

-- What do_TCP_open and do_UDP_open have in common.
def doOpen (s : Handles) (connect : Handles → CInt → CInt × Handles) : CInt × Handles :=
  let (fd, s) := gsOpen s
  if failed fd then (fd, s)
  else
    let (ret, s) := connect s fd
    if failed ret then (ret, s) else (fd, s)

structure Ends where
  rhost : Address
  rport : Port
  lhost : Address
  lport : Port

-- The ends of a connection as do_TCP_open takes them from its parameters; cib is what rhost points to where rport says so.
def tcpEnds (rhost : Address) (rport : Port) (cib : Cib) : Ends :=
  if rhost = 0 then ⟨0, 0, INADDR_ANY, rport⟩
  else if rport = TCP_ACTIVE then ⟨cib.rhost, cib.rport, cib.lhost, cib.lport⟩
  else ⟨rhost, rport, INADDR_ANY, 0⟩

def doTcpOpen (s : Handles) (rhost : Address) (rport : Port) (cib : Cib) (net : Net) : CInt × Handles :=
  let ends := tcpEnds rhost rport cib
  doOpen s fun s fd => gsConnect s fd ends.rhost ends.rport ends.lhost ends.lport net

def doUdpOpen (s : Handles) (rhost : Address) (rport : Port) (net : Net) : CInt × Handles :=
  doOpen s fun s fd => gsUdpOpen s fd rhost rport net

-- A close may name any handle of the table, open or not.
inductive Call
  | tcpOpen (rhost : Address) (rport : Port) (cib : Cib) (net : Net)
  | udpOpen (rhost : Address) (rport : Port) (net : Net)
  | close (fd : Fin TABLE_SIZE)

-- What a call returns and leaves; do_TCP_close and do_UDP_close both return 0.
def perform (s : Handles) : Call → CInt × Handles
  | .tcpOpen rhost rport cib net => doTcpOpen s rhost rport cib net
  | .udpOpen rhost rport net => doUdpOpen s rhost rport net
  | .close fd => (0, gsClose s fd)

-- An open is to fail with everything left as it was, or to return a handle that was not in use, with a block and a socket.
def Opens (s : Handles) (socket : CInt) (r : CInt × Handles) : Prop :=
  failed r.1 ∧ r.2 = s ∨ ∃ fd block, 1 ≤ fd ∧ fd < TABLE_SIZE ∧ r.1 = BitVec.ofNat 16 fd ∧ s.table fd = none
    ∧ (gsMemAlloc s.arena SIZEOF_GS).1 = some block ∧ r.2.arena = (gsMemAlloc s.arena SIZEOF_GS).2
    ∧ r.2.sockets = insert socket s.sockets
    ∧ ∃ gs, hasSocket gs ∧ gs.block = block ∧ gs.sockFd = socket ∧ r.2.table = Function.update s.table fd (some gs)

def Meets (s : Handles) : Call → CInt × Handles → Prop
  | .tcpOpen _ _ _ net, r => Opens s net.socket r
  | .udpOpen _ _ net, r => Opens s net.socket r
  | .close fd, r => r.2.table = Function.update s.table fd none

-- None of the calls that an open makes for its socket fails.
def tcpConnects (rhost : Address) (rport : Port) (lhost : Address) (lport : Port) (net : Net) : Prop :=
  ¬ failed net.socket ∧ ¬ failed (net.bind lhost lport) ∧ ¬ failed (if rhost = 0 then net.listen else net.connect rhost rport)
    ∧ ¬ failed net.getsockname

def udpConnects (rhost : Address) (rport : Port) (net : Net) : Prop :=
  ¬ failed net.socket ∧ ¬ failed (net.connect rhost rport) ∧ ¬ failed net.getsockname

-- There is a handle for another connection, and a block.
def Room (s : Handles) : Prop := freeHandle s ≠ none ∧ (gsMemAlloc s.arena SIZEOF_GS).1 ≠ none

-- Where there is room for a connection, it is made.
def Connects (s : Handles) : Call → Prop
  | .tcpOpen rhost rport cib net =>
      let ends := tcpEnds rhost rport cib
      Room s → tcpConnects ends.rhost ends.rport ends.lhost ends.lport net
  | .udpOpen rhost rport net => Room s → udpConnects rhost rport net
  | .close _ => True

-- Every handle in use has a socket.
def Inv (s : Handles) : Prop := ∀ fd gs, s.table fd = some gs → hasSocket gs

theorem bare_socketless (block : Nat) : ¬ hasSocket (bare block) := show ¬ GS_NOSOCKET &&& GS_NOSOCKET = 0 by decide

theorem alloc_none (arena : List Chunk) (size : Ulong) (none : (gsMemAlloc arena size).1 = none) : (gsMemAlloc arena size).2 = arena := by
  unfold gsMemAlloc at none ⊢
  split
  · rfl
  · rename_i asked
    rw [if_neg asked] at none
    obtain refused | ⟨before, H, rest, -, -, -, found⟩ := alloc_loop (round size) arena
    · rw [refused]
    · rw [found] at none
      cases none

theorem free_handle (s : Handles) (fd : Nat) (found : freeHandle s = some fd) : 1 ≤ fd ∧ fd < TABLE_SIZE ∧ s.table fd = none := by
  have member := List.mem_of_find?_eq_some found
  have free := List.find?_some found
  rw [List.mem_range'_1] at member
  unfold TABLE_SIZE at member ⊢
  exact ⟨member.1, by omega, Option.isNone_iff_eq_none.mp free⟩

theorem gs_open (s : Handles) :
    ¬ Room s ∧ (gsOpen s).2 = s ∧ ((gsOpen s).1 = 12 ∨ (gsOpen s).1 = 24)
      ∨ ∃ fd block, Room s ∧ 1 ≤ fd ∧ fd < TABLE_SIZE ∧ s.table fd = none ∧ (gsMemAlloc s.arena SIZEOF_GS).1 = some block
          ∧ gsOpen s = (BitVec.ofNat 16 fd, { s with
            arena := (gsMemAlloc s.arena SIZEOF_GS).2
            table := Function.update s.table fd (some (bare block)) }) := by
  unfold gsOpen Room
  cases handle : freeHandle s with
  | none => exact Or.inl ⟨fun room => room.1 rfl, rfl, Or.inr rfl⟩
  | some fd =>
      obtain ⟨low, high, free⟩ := free_handle s fd handle
      have kept := alloc_none s.arena SIZEOF_GS
      cases result : gsMemAlloc s.arena SIZEOF_GS with
      | mk block arena =>
          rw [result] at kept
          cases block with
          | none => exact Or.inl ⟨fun room => room.2 rfl, by rw [show arena = s.arena from kept rfl], Or.inl rfl⟩
          | some block =>
              exact Or.inr ⟨fd, block, ⟨Option.some_ne_none fd, Option.some_ne_none block⟩, low, high, free, rfl, rfl⟩

-- What a handle is after its connection is made.
def Made (s : Handles) (fd : Nat) (gs : Gs) (socket : CInt) (r : CInt × Handles) : Prop :=
  r.1 = 0 ∧ ∃ gs', hasSocket gs' ∧ gs'.block = gs.block ∧ gs'.sockFd = socket
    ∧ r.2 = { s with sockets := insert socket s.sockets, table := Function.update s.table fd (some gs') }

theorem handle_value (fd : Nat) (within : fd < TABLE_SIZE) : (BitVec.ofNat 16 fd).toNat = fd ∧ ¬ failed (BitVec.ofNat 16 fd) := by
  unfold TABLE_SIZE at within
  have value : (BitVec.ofNat 16 fd).toNat = fd := by
    rw [BitVec.toNat_ofNat, Nat.mod_eq_of_lt (by omega)]
  refine ⟨value, ?_⟩
  unfold failed
  rw [BitVec.toInt_eq_toNat_of_lt (by rw [value]; omega)]
  omega

theorem gs_get (s : Handles) (fd : Nat) (within : fd < TABLE_SIZE) : gsGet s (BitVec.ofNat 16 fd) = s.table fd := by
  obtain ⟨value, positive⟩ := handle_value fd within
  unfold gsGet
  rw [if_pos ⟨positive, by rw [value]; exact within⟩, value]

theorem flags_socket (rhost : Address) : (if rhost = 0 then GS_LISTENING else 0) &&& GS_NOSOCKET = 0 := by
  split <;> rfl

section Connect

variable (s : Handles) (net : Net) (rhost : Address) (rport : Port) (lhost : Address) (lport : Port)

-- Where every handle has its socket, none can be given one.
theorem connect_refused (inv : Inv s) (fd : CInt) : gsConnect s fd rhost rport lhost lport net = (E_BADHANDLE, s) := by
  unfold gsConnect gsGet
  split
  · rfl
  · rename_i gs got
    split at got
    · exact if_pos (inv _ gs got)
    · cases got

theorem udp_refused (inv : Inv s) (fd : CInt) : gsUdpOpen s fd rhost rport net = (E_BADHANDLE, s) := by
  unfold gsUdpOpen gsGet
  split
  · rfl
  · rename_i gs got
    split at got
    · exact if_pos (inv _ gs got)
    · cases got

variable (fd : Nat) (gs : Gs) (within : fd < TABLE_SIZE) (here : s.table fd = some gs) (unused : ¬ hasSocket gs)

include within here unused

theorem gs_connect :
    (tcpConnects rhost rport lhost lport net → Made s fd gs net.socket (gsConnect s (BitVec.ofNat 16 fd) rhost rport lhost lport net))
      ∧ (¬ tcpConnects rhost rport lhost lport net →
        (gsConnect s (BitVec.ofNat 16 fd) rhost rport lhost lport net).2.table = s.table) := by
  unfold gsConnect
  rw [gs_get s fd within, here]
  dsimp only
  rw [if_neg unused, (handle_value fd within).1]
  constructor
  · rintro ⟨socket, bind, retval, getsockname⟩
    rw [if_neg socket, if_neg bind, if_neg retval, if_neg getsockname]
    refine ⟨rfl, _, ?_, ?_, ?_, rfl⟩
    · exact flags_socket rhost
    · rfl
    · rfl
  · intro fails
    by_cases socket : failed net.socket
    · rw [if_pos socket]
    rw [if_neg socket]
    by_cases bind : failed (net.bind lhost lport)
    · rw [if_pos bind]
    rw [if_neg bind]
    by_cases retval : failed (if rhost = 0 then net.listen else net.connect rhost rport)
    · rw [if_pos retval]
    rw [if_neg retval]
    by_cases getsockname : failed net.getsockname
    · rw [if_pos getsockname]
    · exact absurd ⟨socket, bind, retval, getsockname⟩ fails

theorem gs_udp_open :
    (udpConnects rhost rport net → Made s fd gs net.socket (gsUdpOpen s (BitVec.ofNat 16 fd) rhost rport net))
      ∧ (¬ udpConnects rhost rport net → (gsUdpOpen s (BitVec.ofNat 16 fd) rhost rport net).2.table = s.table) := by
  unfold gsUdpOpen
  rw [gs_get s fd within, here]
  dsimp only
  rw [if_neg unused, (handle_value fd within).1]
  constructor
  · rintro ⟨socket, retval, getsockname⟩
    rw [if_neg socket, if_neg retval, if_neg getsockname]
    refine ⟨rfl, _, ?_, ?_, ?_, rfl⟩
    · exact (show (0 : BitVec 16) &&& GS_NOSOCKET = 0 from rfl)
    · rfl
    · rfl
  · intro fails
    by_cases socket : failed net.socket
    · rw [if_pos socket]
    rw [if_neg socket]
    by_cases retval : failed (net.connect rhost rport)
    · rw [if_pos retval]
    rw [if_neg retval]
    by_cases getsockname : failed net.getsockname
    · rw [if_pos getsockname]
    · exact absurd ⟨socket, retval, getsockname⟩ fails

end Connect

section Open

variable (s : Handles) (inv : Inv s) (connect : Handles → CInt → CInt × Handles) (socket : CInt) (ok : Prop)
  (refused : ∀ s fd, Inv s → connect s fd = (E_BADHANDLE, s))
  (makes : ∀ s fd gs, fd < TABLE_SIZE → s.table fd = some gs → ¬ hasSocket gs →
    (ok → Made s fd gs socket (connect s (BitVec.ofNat 16 fd))) ∧ (¬ ok → (connect s (BitVec.ofNat 16 fd)).2.table = s.table))

include inv refused makes

theorem open_connects (fine : Room s → ok) : Opens s socket (doOpen s connect) ∧ Inv (doOpen s connect).2 := by
  unfold doOpen
  obtain ⟨-, same, code⟩ | ⟨fd, block, room, low, high, free, given, opened⟩ := gs_open s
  · have positive : ¬ failed (gsOpen s).1 := by
      obtain code | code := code <;> rw [code] <;> decide
    have negative : failed E_BADHANDLE := by decide
    dsimp only
    rw [if_neg positive, same, refused s _ inv, if_pos negative]
    exact ⟨Or.inl ⟨negative, rfl⟩, inv⟩
  · obtain ⟨zero, gs, has, same, sock, left⟩ := (makes (gsOpen s).2 fd _ high (by rw [opened]; exact Function.update_self ..) (bare_socketless block)).1
      (fine room)
    rw [opened] at zero left ⊢
    dsimp only at zero left ⊢
    rw [if_neg (handle_value fd high).2, zero, left, if_neg (by decide)]
    rw [Function.update_idem]
    refine ⟨Or.inr ⟨fd, block, low, high, rfl, free, given, rfl, rfl, gs, has, same, sock, rfl⟩, fun other gs' taken => ?_⟩
    by_cases here : other = fd
    · subst here
      dsimp only at taken
      rw [Function.update_self] at taken
      obtain rfl := Option.some.inj taken
      exact has
    · dsimp only at taken
      rw [Function.update_of_ne here] at taken
      exact inv other gs' taken

omit inv refused in
-- A handle is left behind without a socket.
theorem open_leaks (room : Room s) (fails : ¬ ok) : ¬ Opens s socket (doOpen s connect) := by
  obtain ⟨none, -, -⟩ | ⟨fd, block, -, low, high, free, given, opened⟩ := gs_open s
  · exact absurd room none
  have kept := (makes (gsOpen s).2 fd _ high (by rw [opened]; exact Function.update_self ..) (bare_socketless block)).2 fails
  have leaked : (doOpen s connect).2.table fd = some (bare block) := by
    unfold doOpen
    rw [opened] at kept ⊢
    dsimp only at kept ⊢
    rw [if_neg (handle_value fd high).2]
    split
    · rw [kept, Function.update_self]
    · rw [kept, Function.update_self]
  rintro (⟨-, same⟩ | ⟨fd', -, -, -, -, -, -, -, -, gs, has, -, -, table⟩)
  · rw [same, free] at leaked
    cases leaked
  · rw [table] at leaked
    by_cases here : fd = fd'
    · subst here
      rw [Function.update_self] at leaked
      obtain rfl := Option.some.inj leaked
      exact bare_socketless block has
    · rw [Function.update_of_ne here, free] at leaked
      cases leaked

end Open

theorem close_handle (s : Handles) (inv : Inv s) (fd : Nat) :
    (gsClose s fd).table = Function.update s.table fd none ∧ Inv (gsClose s fd) := by
  have table : (gsClose s fd).table = Function.update s.table fd none := by
    unfold gsClose
    cases taken : s.table fd with
    | none => exact (taken ▸ Function.update_eq_self fd s.table).symm
    | some gs => rfl
  refine ⟨table, fun other gs here => ?_⟩
  rw [table] at here
  by_cases same : other = fd
  · subst same
    rw [Function.update_self] at here
    cases here
  · rw [Function.update_of_ne same] at here
    exact inv other gs here

section Calls

variable (rhost : Address) (rport : Port) (cib : Cib) (net : Net)

theorem tcp_opens (s : Handles) (inv : Inv s) (connects : Connects s (.tcpOpen rhost rport cib net)) :
    Opens s net.socket (doTcpOpen s rhost rport cib net) ∧ Inv (doTcpOpen s rhost rport cib net).2 := by
  dsimp only [Connects] at connects
  unfold doTcpOpen
  generalize tcpEnds rhost rport cib = ends at connects ⊢
  exact open_connects s inv (fun s fd => gsConnect s fd ends.rhost ends.rport ends.lhost ends.lport net) net.socket
    (tcpConnects ends.rhost ends.rport ends.lhost ends.lport net) (fun s fd inv => connect_refused s net _ _ _ _ inv fd)
    (fun s fd gs within here unused => gs_connect s net _ _ _ _ fd gs within here unused) connects

theorem udp_opens (s : Handles) (inv : Inv s) (connects : Connects s (.udpOpen rhost rport net)) :
    Opens s net.socket (doUdpOpen s rhost rport net) ∧ Inv (doUdpOpen s rhost rport net).2 :=
  open_connects s inv (fun s fd => gsUdpOpen s fd rhost rport net) net.socket (udpConnects rhost rport net)
    (fun s fd inv => udp_refused s net _ _ inv fd) (fun s fd gs within here unused => gs_udp_open s net _ _ fd gs within here unused)
    connects

theorem tcp_leaks (s : Handles) (fails : ¬ Connects s (.tcpOpen rhost rport cib net)) :
    ¬ Opens s net.socket (doTcpOpen s rhost rport cib net) := by
  dsimp only [Connects] at fails
  unfold doTcpOpen
  generalize tcpEnds rhost rport cib = ends at fails ⊢
  obtain ⟨room, fails⟩ := Classical.not_imp.mp fails
  exact open_leaks s (fun s fd => gsConnect s fd ends.rhost ends.rport ends.lhost ends.lport net) net.socket
    (tcpConnects ends.rhost ends.rport ends.lhost ends.lport net)
    (fun s fd gs within here unused => gs_connect s net _ _ _ _ fd gs within here unused) room fails

theorem udp_leaks (s : Handles) (fails : ¬ Connects s (.udpOpen rhost rport net)) :
    ¬ Opens s net.socket (doUdpOpen s rhost rport net) := by
  obtain ⟨room, fails⟩ := Classical.not_imp.mp fails
  exact open_leaks s (fun s fd => gsUdpOpen s fd rhost rport net) net.socket (udpConnects rhost rport net)
    (fun s fd gs within here unused => gs_udp_open s net _ _ fd gs within here unused) room fails

end Calls

theorem connects_meets (s : Handles) (inv : Inv s) (call : Call) (connects : Connects s call) :
    Meets s call (perform s call) ∧ Inv (perform s call).2 := by
  cases call with
  | tcpOpen rhost rport cib net => exact tcp_opens rhost rport cib net s inv connects
  | udpOpen rhost rport net => exact udp_opens rhost rport net s inv connects
  | close fd => exact close_handle s inv fd

theorem refused_leaks (s : Handles) (call : Call) (fails : ¬ Connects s call) : ¬ Meets s call (perform s call) := by
  cases call with
  | tcpOpen rhost rport cib net => exact tcp_leaks rhost rport cib net s fails
  | udpOpen rhost rport net => exact udp_leaks rhost rport net s fails
  | close fd => exact absurd trivial fails

def AllMeet : Handles → List Call → Prop := Sessions.AllMeet (fun s call => some (perform s call)) (fun _ _ r => r.2) Meets

def AllConnect : Handles → List Call → Prop := Sessions.AllAllowed (fun s call => some (perform s call)) (fun _ _ r => r.2) Connects

theorem meet_iff_connect (calls : List Call) (s : Handles) (inv : Inv s) : AllMeet s calls ↔ AllConnect s calls := by
  refine Sessions.all_meet_iff (fun s call => some (perform s call)) (fun _ _ r => r.2) Meets Connects Inv ?_ ?_ calls s inv
  · exact fun s call inv connects => ⟨_, rfl, connects_meets s inv call connects⟩
  · rintro s call - fails _ ⟨⟩
    exact refused_leaks s call fails

-- No handle is in use; the pool and the descriptors that are open may be any.
def begun (arena : List Chunk) (sockets : Finset CInt) : Handles := ⟨fun _ => none, arena, sockets⟩

theorem begun_inv (arena : List Chunk) (sockets : Finset CInt) : Inv (begun arena sockets) := fun _ _ none => by cases none

theorem handles_kept (arena : List Chunk) (sockets : Finset CInt) (calls : List Call) :
    AllMeet (begun arena sockets) calls ↔ AllConnect (begun arena sockets) calls :=
  meet_iff_connect calls _ (begun_inv arena sockets)

-- The first connection with the default pool is refused by the other end.
theorem handle_leaked : ¬ ∀ (arena : List Chunk) (sockets : Finset CInt) (calls : List Call), AllMeet (begun arena sockets) calls := by
  intro claim
  have meet := claim [⟨0, 0xfb00ddf8⟩] ∅
    [.tcpOpen 0x0a000001 80 ⟨0, 0, 0, 0, 0, 0⟩ ⟨6, fun _ _ => 0, 0, fun _ _ => -321, 0, 0, 0⟩]
  have connect := ((meet_iff_connect _ _ (begun_inv _ _)).mp meet).1
  exact (connect ⟨by decide, by decide⟩).2.2.1 (by decide)

end MagxNet.Stik
