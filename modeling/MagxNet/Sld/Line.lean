import MagxNet.Lib.Bytes
import MagxNet.Lib.Circular

set_option autoImplicit false

namespace MagxNet.Sld

open Bytes (Byte)

def SL_OBUFSIZE : Nat := 2048
def SL_IBUFSIZE : Nat := 4096

-- The ring buffers of a struct slbuf. Their sizes are powers of two, so that a mask is a remainder.
abbrev Fifo := Circular.Buffer Byte

-- An interface queue: qfirst[0] and qfirst[1], and the turn in curr. qlen is the number of packets on both.
structure Ifq (π : Type) where
  maxqlen : Nat
  curr : BitVec 16
  low : List π
  high : List π

-- What lies between dstart and the read position of a buffer that is being received, and how much fits.
structure Receiving where
  limit : Int
  bytes : List Byte
deriving DecidableEq

-- What struct slip and struct ppp have in common, with their struct slbuf; opt is all the rest. snd_buf is what lies
-- between snd_tail and snd_head. A store behind the end of the receive buffer is noted in overrun. The last six fields
-- are records kept for the proofs: the packets taken off the queue, the bytes put for the device, those the device
-- took, those it gave, those received, and what was made of them.
structure Line (τ π δ : Type) where
  opt : τ
  sending : Bool
  input : Fifo
  output : Fifo
  nread : Int
  nwrite : Int
  snd : Ifq π
  sndBuf : Option (List Byte)
  rcvBuf : Option Receiving
  esc : Bool
  drop : Bool
  overrun : Bool
  allocs : Nat
  taken : List π
  put : List Byte
  toDev : List Byte
  fromDev : List Byte
  seen : List Byte
  delivered : List δ

-- Where slip_send, slip_recv and ppp_send, ppp_recv differ: the character between frames, how many bytes a receive
-- buffer holds, what a character of a frame stands for, which frames are thrown away at once, what becomes of the
-- others (none: the buffer is kept), and the way back. Packets that are diverted never get to the line.
structure Driver (τ π δ : Type) where
  diverts : τ → π → Bool
  delim : Byte
  limit : τ → Int
  data : τ → Bool → Byte → Bool × Option Byte
  rejects : Bool → Nat → Bool
  close : τ → List Byte → τ × Option δ
  build : τ → π → τ × List Byte
  stuff : τ → Byte → List Byte

variable {τ π δ : Type}

def Ifq.qlen (q : Ifq π) : Nat := q.low.length + q.high.length

def ifEnqueue (q : Ifq π) (buf : π) (pri : BitVec 16) : Option (Ifq π) :=
  if q.maxqlen ≤ q.qlen then none
  else if pri = 0 then some { q with low := q.low ++ [buf] }
  else some { q with high := q.high ++ [buf] }

-- GET_QUEUE: the queue whose turn it is; true stands for queue 1.
def Ifq.turn (q : Ifq π) : Bool := q.curr.getLsbD 1

def Ifq.setCurr (q : Ifq π) (curr : BitVec 16) : Ifq π := { q with curr := curr }

-- The first packet of queue 0 or 1. A queue served out of turn sets curr first (SET_QUEUE).
def takeFrom (q : Ifq π) (que : Bool) (curr : BitVec 16) : Option (π × Ifq π) :=
  if que then
    match q.high with
    | [] => none
    | buf :: rest => some (buf, { q with high := rest, curr := curr + 1 })
  else
    match q.low with
    | [] => none
    | buf :: rest => some (buf, { q with low := rest, curr := curr + 2 })

def ifDequeue (q : Ifq π) : Option (π × Ifq π) :=
  match takeFrom q q.turn q.curr with
  | some got => some got
  | none => takeFrom q (!q.turn) (if q.turn then 0 else 2)

-- SL_GETC.
def getc (w : Line τ π δ) : Byte × Line τ π δ :=
  (w.input.peek, { w with input := w.input.drop 1, seen := w.seen ++ [w.input.peek] })

-- SL_PUTC.
def putc (w : Line τ π δ) (c : Byte) : Line τ π δ :=
  { w with output := w.output.put c, put := w.put ++ [c] }

def putAll (w : Line τ π δ) (cs : List Byte) : Line τ π δ := cs.foldl putc w

def setEsc (w : Line τ π δ) (esc : Bool) : Line τ π δ := { w with esc := esc }

def setRcvBuf (w : Line τ π δ) (b : Option Receiving) : Line τ π δ := { w with rcvBuf := b }

def setSndBuf (w : Line τ π δ) (rest : Option (List Byte)) : Line τ π δ := { w with sndBuf := rest }

def setDrop (w : Line τ π δ) (drop : Bool) : Line τ π δ := { w with drop := drop }

def setSending (w : Line τ π δ) (sending : Bool) : Line τ π δ := { w with sending := sending }

def space (b : Receiving) : Int := b.limit - b.bytes.length

def rewind (b : Receiving) : Receiving := { b with bytes := [] }

-- *cp++ = x
def store (w : Line τ π δ) (b : Receiving) (x : Byte) : Line τ π δ × Receiving :=
  if space b > 0 then (w, { b with bytes := b.bytes ++ [x] }) else ({ w with overrun := true }, b)

-- At the end of a frame: nothing is left of the buffer once it is handed on.
def endFrame (d : Driver τ π δ) (w : Line τ π δ) (b : Receiving) : Line τ π δ × Option Receiving :=
  if w.drop ∨ d.rejects w.esc b.bytes.length then (setDrop (setEsc w false) false, some (rewind b))
  else match d.close w.opt b.bytes with
    | (opt, none) => ({ setDrop (setEsc w false) false with opt := opt }, some (rewind b))
    | (opt, some out) =>
        ({ setDrop (setEsc w false) false with opt := opt, delivered := w.delivered ++ [out] }, none)

def char (d : Driver τ π δ) (w : Line τ π δ) (b : Receiving) (c : Byte) : Line τ π δ × Option Receiving :=
  if c = d.delim then endFrame d w b
  else match d.data w.opt w.esc c with
    | (esc, none) => (setEsc w esc, some b)
    | (esc, some x) =>
        match store (setEsc w esc) b x with
        | (w1, b1) => (w1, some b1)

-- while (--nbytes >= 0)
def chunk (d : Driver τ π δ) : Nat → Line τ π δ → Receiving → Line τ π δ × Option Receiving
  | 0, w, b => (w, some b)
  | n + 1, w, b =>
      match char d (getc w).2 b (getc w).1 with
      | (w1, none) => (w1, none)
      | (w1, some b1) => chunk d n w1 b1

-- What is kept of the buffer for the next round: nothing but its room after an overflow.
def settle (w : Line τ π δ) : Option Receiving → Line τ π δ
  | none => setRcvBuf w none
  | some b => if space b ≤ 0 then setRcvBuf (setDrop w true) (some (rewind b)) else setRcvBuf w (some b)

def countAlloc (w : Line τ π δ) : Line τ π δ := { w with allocs := w.allocs + 1 }

-- The buffer received into, a new one where there is none.
def rcvBufOf (d : Driver τ π δ) (memory : Nat → Bool) (w : Line τ π δ) : Option Receiving × Line τ π δ :=
  match w.rcvBuf with
  | some b => (some b, w)
  | none => (if memory w.allocs then some ⟨d.limit w.opt, []⟩ else none, countAlloc w)

-- The loops of slip_recv and ppp_recv as one: a round takes as many bytes as there are and fit. Every round starts
-- from SL_IUSED again, as the loops do. None when the rounds are used up.
def recvLoop (d : Driver τ π δ) (memory : Nat → Bool) : Nat → Line τ π δ → Option (Line τ π δ)
  | 0, _ => none
  | fuel + 1, w =>
      if w.input.used = 0 then some w
      else match rcvBufOf d memory w with
        | (none, w1) => some w1
        | (some b, w1) =>
            match chunk d (min (w1.input.used : Int) (space b)).toNat w1 b with
            | (w2, left) => recvLoop d memory fuel (settle w2 left)

-- A round takes a byte at least, where the buffer has room for any.
def recv (d : Driver τ π δ) (memory : Nat → Bool) (w : Line τ π δ) : Option (Line τ π δ) :=
  recvLoop d memory (w.input.used + 1) w

-- while (--space >= 0)
def stuffBytes (d : Driver τ π δ) : Nat → Line τ π δ → List Byte → Line τ π δ × List Byte
  | n + 1, w, c :: rest => stuffBytes d n (putAll w (d.stuff w.opt c)) rest
  | _, w, rest => (w, rest)

-- SL_OFREE / 2
def halfFree (w : Line τ π δ) : Nat := w.output.free / 2

-- while (nbytes > 0 && space > 0); every round takes one of the bytes left at least.
def fillLoop (d : Driver τ π δ) : Nat → Line τ π δ → List Byte → Nat → Line τ π δ × List Byte × Nat
  | 0, w, rest, space => (w, rest, space)
  | fuel + 1, w, rest, space =>
      if rest.length = 0 ∨ space = 0 then (w, rest, space)
      else match stuffBytes d (min space rest.length) w rest with
        | (w1, rest1) => fillLoop d fuel w1 rest1 (halfFree w1)

-- The frame of the next packet, begun with its first delimiter.
def takePacket (d : Driver τ π δ) (w : Line τ π δ) : Option (Line τ π δ) :=
  match ifDequeue w.snd with
  | none => none
  | some (packet, snd) =>
      some (putc
        { w with
          opt := (d.build w.opt packet).1
          snd := snd
          sndBuf := some (d.build w.opt packet).2
          taken := w.taken ++ [packet] } d.delim)

-- The frame being sent, with the space left for it: a new one where none is under way.
def sndBufOf (d : Driver τ π δ) (w : Line τ π δ) (space : Nat) : Option (Line τ π δ × List Byte × Nat) :=
  match w.sndBuf with
  | some rest => some (w, rest, space)
  | none => (takePacket d w).map fun w1 => (w1, w1.sndBuf.getD [], space - 1)

-- The end of a round: the frame is done when there is space left, and the next one follows.
def sendOn (d : Driver τ π δ) (loop : Line τ π δ → Nat → Line τ π δ) : Line τ π δ × List Byte × Nat → Line τ π δ
  | (w, rest, space) =>
      if space > 0 then loop (putc (setSndBuf w none) d.delim) (space - 1) else setSndBuf w (some rest)

def sendLoop (d : Driver τ π δ) : Nat → Line τ π δ → Nat → Line τ π δ
  | 0, w, _ => w
  | fuel + 1, w, space =>
      if space = 0 then w
      else match sndBufOf d w space with
        | none => w
        | some (w1, rest, space1) => sendOn d (sendLoop d fuel) (fillLoop d rest.length w1 rest space1)

-- A round ends a frame or is the last one.
def send (d : Driver τ π δ) (w : Line τ π δ) : Line τ π δ := sendLoop d (w.snd.qlen + 2) w (halfFree w)

def serialSend (d : Driver τ π δ) (w : Line τ π δ) : Line τ π δ :=
  if w.sending then w else setSending (send d w) true

-- slip_output and ppp_send_frame.
def output (d : Driver τ π δ) (w : Line τ π δ) (packet : π) (pri : BitVec 16) : Line τ π δ :=
  if d.diverts w.opt packet then w
  else match ifEnqueue w.snd packet pri with
    | none => w
    | some snd => serialSend d { w with snd := snd }

-- What the device says in one round of do_work: what FIONREAD and FIONWRITE find, what the two calls of Fread find to
-- transfer, and how many bytes the two calls of Fwrite take; none stands for an error.
structure Answers where
  nr : Int
  read1 : Option (List Byte)
  read2 : Option (List Byte)
  nw : Int
  write1 : Option Nat
  write2 : Option Nat

-- The result of one call, the count nr after it, and the line.
def fread (w : Line τ π δ) (nr : Int) (space : Nat) (answer : Option (List Byte)) : Int × Int × Line τ π δ :=
  match answer with
  | none => (-1, nr, w)
  | some found =>
      ((found.take space).length, nr - (found.take space).length,
        { w with input := w.input.fill (found.take space), fromDev := w.fromDev ++ found.take space })

def fwrite (w : Line τ π δ) (nr : Int) (space : Nat) (answer : Option Nat) : Int × Int × Line τ π δ :=
  match answer with
  | none => (-1, nr, w)
  | some takes =>
      ((min takes space : Nat), nr - (min takes space : Nat),
        { w with
          output := w.output.drop (min takes space)
          toDev := w.toDev ++ w.output.ahead (min takes space) })

-- Read from head to end of buffer.
def readToEnd (w : Line τ π δ) (a : Answers) : Int × Int × Line τ π δ :=
  if w.input.tail ≤ w.input.head ∧ w.input.size - w.input.head - (if w.input.tail = 0 then 1 else 0) > 0 then
    fread w a.nr (w.input.size - w.input.head - (if w.input.tail = 0 then 1 else 0)) a.read1
  else (1, a.nr, w)

-- Read from start of buffer to 1 byte before tail.
def readFromStart (a : Answers) : Int × Int × Line τ π δ → Int × Int × Line τ π δ
  | (r, nr, w) =>
      if r > 0 ∧ w.input.head + 1 < w.input.tail then fread w nr (w.input.tail - w.input.head - 1) a.read2
      else (r, nr, w)

def setNread (w : Line τ π δ) (nr : Int) : Line τ π δ := { w with nread := if nr < 0 then 0 else nr }

def readDev (w : Line τ π δ) (a : Answers) : Line τ π δ :=
  if a.nr ≠ 0 ∧ a.nr ≤ w.nread then
    match readFromStart a (readToEnd w a) with
    | (_, nr, w1) => setNread w1 nr
  else setNread w a.nr

-- Write from tail to end of buffer.
def writeToEnd (w : Line τ π δ) (a : Answers) : Int × Int × Line τ π δ :=
  if w.output.head < w.output.tail ∧ w.output.size - w.output.tail > 0 then
    fwrite w a.nw (w.output.size - w.output.tail) a.write1
  else (1, a.nw, w)

-- Write from start of buffer to head.
def writeFromStart (a : Answers) : Int × Int × Line τ π δ → Int × Int × Line τ π δ
  | (r, nr, w) =>
      if r > 0 ∧ w.output.tail < w.output.head then fwrite w nr (w.output.head - w.output.tail) a.write2
      else (r, nr, w)

def setNwrite (w : Line τ π δ) (nr : Int) : Line τ π δ := { w with nwrite := if nr < 0 then 0 else nr }

-- A quarter of the ring is free: the driver puts more.
def refill (d : Driver τ π δ) (w : Line τ π δ) : Line τ π δ :=
  if 4 * w.output.free ≥ w.output.size then
    let w1 := send d (if w.output.tail = w.output.head then setSending w false else w)
    if w1.output.head ≠ w1.output.tail then setSending w1 true else w1
  else w

def mayWrite (w : Line τ π δ) (a : Answers) : Prop :=
  (a.nw ≠ 0 ∧ a.nw ≤ w.nwrite) ∨ a.nw ≥ 100 ∨ a.nw ≥ w.output.used

instance (w : Line τ π δ) (a : Answers) : Decidable (mayWrite w a) := inferInstanceAs (Decidable (_ ∨ _))

def writeDev (d : Driver τ π δ) (w : Line τ π δ) (a : Answers) : Line τ π δ :=
  if w.sending then
    if mayWrite w a then
      match writeFromStart a (writeToEnd w a) with
      | (_, nr, w1) => setNwrite (refill d w1) nr
    else setNwrite w a.nw
  else w

-- One round for a device in use. None when the driver's recv does not return.
def doWork (d : Driver τ π δ) (memory : Nat → Bool) (w : Line τ π δ) (a : Answers) : Option (Line τ π δ) :=
  (if (readDev w a).input.head ≠ (readDev w a).input.tail then recv d memory (readDev w a) else some (readDev w a)).map
    fun w1 => writeDev d w1 a

inductive Op (π : Type) where
  | output (packet : π) (pri : BitVec 16)
  | work (memory : Nat → Bool) (a : Answers)

def step (d : Driver τ π δ) (w : Line τ π δ) : Op π → Option (Line τ π δ)
  | .output packet pri => some (output d w packet pri)
  | .work memory a => doWork d memory w a

-- serial_open: whatever lies in the memory of the two rings.
def opened (opt : τ) (maxqlen : Nat) (curr : BitVec 16) (ibuf obuf : List Byte) : Line τ π δ where
  opt := opt
  sending := false
  input := ⟨ibuf, 0, 0⟩
  output := ⟨obuf, 0, 0⟩
  nread := 0
  nwrite := 0
  snd := ⟨maxqlen, curr, [], []⟩
  sndBuf := none
  rcvBuf := none
  esc := false
  drop := false
  overrun := false
  allocs := 0
  taken := []
  put := []
  toDev := []
  fromDev := []
  seen := []
  delivered := []

-- The states of a line from the time it is linked to a device.
inductive Reached (d : Driver τ π δ) (opt : τ) : Line τ π δ → Prop
  | opened (maxqlen : Nat) (curr : BitVec 16) (ibuf obuf : List Byte) : ibuf.length = SL_IBUFSIZE →
      obuf.length = SL_OBUFSIZE → Reached d opt (opened opt maxqlen curr ibuf obuf)
  | step (w w' : Line τ π δ) (op : Op π) : Reached d opt w → step d w op = some w' → Reached d opt w'

def run (d : Driver τ π δ) : Line τ π δ → List (Op π) → Option (Line τ π δ)
  | w, [] => some w
  | w, op :: rest => (step d w op).bind fun w1 => run d w1 rest

theorem reached_run (d : Driver τ π δ) (opt : τ) (ops : List (Op π)) (w w' : Line τ π δ) (reached : Reached d opt w)
    (done : run d w ops = some w') : Reached d opt w' := by
  induction ops generalizing w with
  | nil =>
      obtain rfl := Option.some.inj done
      exact reached
  | cons op rest ih =>
      obtain ⟨w1, first, later⟩ := Option.bind_eq_some_iff.mp done
      exact ih w1 (.step w w1 op reached first) later

theorem reached_invariant (d : Driver τ π δ) (opt : τ) (inv : Line τ π δ → Prop)
    (atOpen : ∀ maxqlen curr ibuf obuf, ibuf.length = SL_IBUFSIZE → obuf.length = SL_OBUFSIZE →
      inv (opened opt maxqlen curr ibuf obuf))
    (kept : ∀ w w' op, inv w → step d w op = some w' → inv w') (w : Line τ π δ) (reached : Reached d opt w) : inv w := by
  induction reached with
  | opened maxqlen curr ibuf obuf sizeIn sizeOut => exact atOpen maxqlen curr ibuf obuf sizeIn sizeOut
  | step w w' op _ taken ih => exact kept w w' op ih taken

end MagxNet.Sld
