import MagxNet.Udp.Sockets

set_option autoImplicit false

namespace MagxNet.Udp

open Bytes
open Ip (iphDaddr iphProto iphSaddr)
open Tcp (InAddr InPort INADDR_ANY)

-- What the sockets are for: each keeps letters, in the order in which they came, as far as it has room for what is in them.
structure Box extends Sock where
  limit : Int
  letters : List Buffer

structure Mail where
  box : Nat → Box
  made : Nat
  udp : List Nat
  raw : List Nat

def size (proto : Handler) (letter : Buffer) : Nat := (dataOf proto letter).length

def Box.weight (b : Box) : Nat := (b.letters.map (size b.proto)).sum

def Box.accepts (b : Box) (letter : Buffer) : Bool :=
  decide (((size b.proto letter + b.weight : Nat) : Int) ≤ b.limit) && !b.cantrcvmore

namespace Mail

variable (m : Mail)

def settings (id : Nat) : Sock := (m.box id).toSock

def setBox (id : Nat) (b : Box) : Mail := { m with box := Function.update m.box id b }

def setSock (id : Nat) (s : Sock) : Mail := m.setBox id { m.box id with toSock := s }

def setLetters (id : Nat) (letters : List Buffer) : Mail := m.setBox id { m.box id with letters := letters }

-- One letter for each of these sockets.
def post (letter : Buffer) (ids : List Nat) : Mail :=
  { m with box := fun id => if id ∈ ids then { m.box id with letters := (m.box id).letters ++ [letter] } else m.box id }

end Mail

section Best

variable (srcaddr : InAddr) (srcport : InPort) (dstaddr : InAddr) (dstport : InPort) (sock : Nat → Sock)

def isPeer (id : Nat) : Bool :=
  boundHere dstaddr dstport (sock id) && (sock id).isconnected && fromPeer srcaddr srcport (sock id)

def isOpen (id : Nat) : Bool := boundHere dstaddr dstport (sock id) && !(sock id).isconnected

def anywhere (id : Nat) : Bool := decide ((sock id).saddr = INADDR_ANY)

-- The socket that is connected to the sender, else one that is bound to just this address, else the oldest one that is bound
-- to every address; the newest sockets come first.
def best (ids : List Nat) : Option Nat :=
  let opens := ids.filter (isOpen dstaddr dstport sock)
  (ids.find? (isPeer srcaddr srcport dstaddr dstport sock)).or
    ((opens.find? fun id => !anywhere sock id).or opens.getLast?)

-- What becomes of deflt when these sockets could all be taken.
def settle : List Nat → Option Nat → Option Nat
  | [], deflt => deflt
  | id :: rest, deflt => settle rest (if deflt.all (anywhere sock) then some id else deflt)

theorem settle_found (opens : List Nat) (id : Nat) (exact' : anywhere sock id = false) :
    settle sock opens (some id) = some id := by
  induction opens with
  | nil => rfl
  | cons other rest ih =>
      rw [settle, if_neg (by rw [Option.all_some, exact']; decide)]
      exact ih

theorem settle_open (opens : List Nat) : ∀ deflt, deflt.all (anywhere sock) = true →
    settle sock opens deflt = (opens.find? fun id => !anywhere sock id).or (opens.getLast?.or deflt) := by
  induction opens with
  | nil => exact fun _ _ => rfl
  | cons id rest ih =>
      intro deflt open'
      rw [settle, if_pos open', List.find?_cons, List.getLast?_cons]
      cases any : anywhere sock id with
      | false => exact settle_found sock rest id any
      | true =>
          rw [ih (some id) any, Option.or_some]
          rfl

theorem lookup_loop_settle (ids : List Nat) : ∀ deflt, lookupLoop srcaddr srcport dstaddr dstport sock ids deflt
    = (ids.find? (isPeer srcaddr srcport dstaddr dstport sock)).or
      (settle sock (ids.filter (isOpen dstaddr dstport sock)) deflt) := by
  induction ids with
  | nil => exact fun _ => rfl
  | cons id rest ih =>
      intro deflt
      rw [lookupLoop, List.find?_cons, List.filter_cons, ih, ih]
      unfold isPeer isOpen
      cases boundHere dstaddr dstport (sock id) with
      | false => rfl
      | true =>
          cases (sock id).isconnected with
          | true => cases fromPeer srcaddr srcport (sock id) <;> rfl
          | false =>
              change (if (deflt.all (anywhere sock)) = true then _ else _) = Option.or _ (settle sock (id :: _) deflt)
              rw [settle]
              split <;> rfl

theorem lookup_best (ids : List Nat) : inDataLookup srcaddr srcport dstaddr dstport sock ids
    = best srcaddr srcport dstaddr dstport sock ids := by
  unfold inDataLookup best
  rw [lookup_loop_settle, settle_open sock _ none rfl, Option.or_none]

theorem best_among (ids : List Nat) (id : Nat) (found : best srcaddr srcport dstaddr dstport sock ids = some id) : id ∈ ids := by
  unfold best at found
  rcases Option.or_eq_some_iff.mp found with peer | ⟨-, open'⟩
  · exact List.mem_of_find?_eq_some peer
  · refine List.mem_of_mem_filter (p := isOpen dstaddr dstport sock) ?_
    rcases Option.or_eq_some_iff.mp open' with exact' | ⟨-, last⟩
    · exact List.mem_of_find?_eq_some exact'
    · exact List.mem_of_getLast? last

end Best

-- A UDP datagram is looked at only if its length and its checksum are right.
def whole (env : Env) (letter : Buffer) : Bool := !badLength letter && !badChksum env letter (iphSaddr letter) (iphDaddr letter)

def addressee (m : Mail) (letter : Buffer) : Option Nat :=
  best (iphSaddr letter) (uhSrcport letter) (iphDaddr letter) (uhDstport letter) m.settings m.udp

def wants (m : Mail) (letter : Buffer) (id : Nat) : Bool := ripWants letter (iphSaddr letter) (iphDaddr letter) (m.settings id)

def takes (m : Mail) (letter : Buffer) (id : Nat) : Bool := wants m letter id && (m.box id).accepts letter

-- The first socket gets the datagram itself, those behind it copies, until there is no memory for one.
def served (env : Env) : Nat → List Nat → List Nat
  | _, [] => []
  | delivered, id :: rest => if delivered = 0 ∨ env.clone delivered then id :: served env (delivered + 1) rest else []

def rawTakers (env : Env) (m : Mail) (letter : Buffer) : List Nat := served env 0 (m.raw.filter (takes m letter))

-- Who gets a letter, and what goes back in ICMP messages.

def receivers (env : Env) (m : Mail) (letter : Buffer) : List Nat :=
  if (iphProto letter).toNat = IPPROTO_UDP then
    if whole env letter then
      match addressee m letter with
      | some id => if (m.box id).accepts letter then [id] else []
      | none => rawTakers env m letter
    else []
  else rawTakers env m letter

def returned (env : Env) (m : Mail) (letter : Buffer) : List Buffer :=
  if (iphProto letter).toNat = IPPROTO_UDP then
    if whole env letter ∧ addressee m letter = none ∧ env.clone 0 then [letter] else []
  else if m.raw.any (wants m letter) ∨ isInetProto (iphProto letter).toNat then [] else [letter]

-- The socket that an ICMP error is told: the packet that it is about went the other way.
def concerned (m : Mail) (packet : Buffer) : Option Nat :=
  if (iphProto packet).toNat = IPPROTO_UDP then
    (best (iphDaddr packet) (uhDstport packet) (iphSaddr packet) (uhSrcport packet) m.settings m.udp).filter fun id =>
      (m.box id).isconnected
  else none

-- The first letter is read, as much of it as the reader has room for; what is left of it is lost.
def fetch (m : Mail) (id : Nat) (a : RecvArgs) : RecvResult × Mail :=
  match (m.box id).letters with
  | [] => (if a.nonblock ∨ (m.box id).cantrcvmore then nothing a 0 else .asleep, m)
  | letter :: rest =>
      let data := dataOf (m.box id).proto letter
      let places := Tcp.slots a.iov data.length 0
      (.returned places.length (Tcp.store a.mem places data) (senderOf (m.box id).proto letter a.addrlen),
        if a.peek then m else m.setLetters id rest)

def collect (m : Mail) (id : Nat) (a : RecvArgs) : RecvResult × Mail :=
  match recvStopped (m.settings id) with
  | some (r, s) => (nothing a r, m.setSock id s)
  | none =>
      let m1 := m.setSock id (autobind (m.settings id) a.port)
      match refused a with
      | some r => (nothing a r, m1)
      | none => fetch m1 id a

def wake (m : Mail) (id : Nat) (a : RecvArgs) (interrupted : Bool) : RecvResult × Mail :=
  match wokenBy (m.settings id) interrupted with
  | some (r, s) => (nothing a r, m.setSock id s)
  | none => fetch m id a

def waitingSize (b : Box) : Int :=
  if b.cantrcvmore ∨ b.err ≠ 0 then UNLIMITED
  else match b.letters with
    | [] => 0
    | letter :: _ => size b.proto letter

def open' (m : Mail) (proto : Handler) (protonum : Nat) : Mail :=
  let d := inDataCreate proto protonum
  let m1 := { m.setBox m.made ⟨d.toSock, d.rcv.maxdatalen, []⟩ with made := m.made + 1 }
  match proto with
  | .udp => { m1 with udp := m.made :: m.udp }
  | .raw => { m1 with raw := m.made :: m.raw }

def close (m : Mail) (id : Nat) : Mail :=
  let m1 := match (m.box id).proto with
    | .udp => { m with udp := m.udp.erase id }
    | .raw => { m with raw := m.raw.erase id }
  m1.setBox id { m.box id with toSock := gone (m.settings id), letters := [] }

def closeShut (m : Mail) (id : Nat) (how : Int) (port : InPort) : Mail :=
  let s := shut (m.settings id) how
  let m1 := m.setSock id (autobind s port)
  if bothShut s then close m1 id else m1

def called' (m : Mail) (id : Nat) (r : Int × Sock) : Answer × Mail := (.code r.1, m.setSock id r.2)

def serve (m : Mail) : Op → Answer × Mail
  | .attach proto protonum => (.nothing, open' m proto protonum)
  | .bind id addr port => called' m id (bind (m.settings id) addr port)
  | .connect id args => called' m id (inetConnect (m.settings id) args)
  | .rcvbuf id val => (.code 0, m.setBox id { m.box id with limit := rcvbufSize val })
  | .send id addr addrlen port sent => called' m id (inetSend (m.settings id) addr addrlen port sent)
  | .shutdown id how port => (.code 0, closeShut m id how port)
  | .release id => (.nothing, close m id)
  | .recv id a => (.recv (collect m id a).1, (collect m id a).2)
  | .woken id a interrupted => (.recv (wake m id a interrupted).1, (wake m id a interrupted).2)
  | .select id => (.ready (readable (m.settings id) (!(m.box id).letters.isEmpty)), m)
  | .fionread id => (.code (waitingSize (m.box id)), m)
  | .input env letter => (.replied (returned env m letter), m.post letter (receivers env m letter))
  | .error packet errno => (.nothing, (concerned m packet).elim m fun id => m.setSock id (setErr (m.settings id) errno))

def mailStep (m : Mail) (op : Op) : Answer × Mail :=
  if comes (m.udp ++ m.raw) op then serve m op else (.nothing, m)

def Mail.init : Mail := ⟨fun _ => ⟨(inDataCreate .udp 0).toSock, IN_DEFAULT_RSPACE, []⟩, 0, [], []⟩

def mailRun (m : Mail) : List Op → List Answer × Mail
  | [] => ([], m)
  | op :: rest => ((mailStep m op).1 :: (mailRun (mailStep m op).2 rest).1, (mailRun (mailStep m op).2 rest).2)

end MagxNet.Udp
