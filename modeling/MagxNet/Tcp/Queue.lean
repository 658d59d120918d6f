import MagxNet.Lib.Bytes
import MagxNet.Lib.Serial

set_option autoImplicit false

namespace MagxNet.Tcp

open Bytes

abbrev Seq := BitVec 32
abbrev InAddr := BitVec 32
abbrev InPort := BitVec 16

-- SEQEQ and SEQNE are equality and its negation.
abbrev SEQLT (x y : Seq) : Prop := Serial.lt x y
abbrev SEQLE (x y : Seq) : Prop := Serial.le x y
abbrev SEQGT (x y : Seq) : Prop := ¬ SEQLE x y
abbrev SEQGE (x y : Seq) : Prop := ¬ SEQLT x y

structure Flags where
  urg : Bool
  ack : Bool
  psh : Bool
  rst : Bool
  syn : Bool
  fin : Bool
deriving DecidableEq, Repr

def Flags.none : Flags := ⟨false, false, false, false, false, false⟩
def TCPF_URG : Flags := { Flags.none with urg := true }
def TCPF_ACK : Flags := { Flags.none with ack := true }
def TCPF_RST : Flags := { Flags.none with rst := true }
def TCPF_SYN : Flags := { Flags.none with syn := true }
def TCPF_SYN_ACK : Flags := { Flags.none with syn := true, ack := true }
def TCPF_FIN_ACK : Flags := { Flags.none with fin := true, ack := true }
def TCPF_RST_ACK : Flags := { Flags.none with rst := true, ack := true }

-- A datagram from its header to dend: body holds everything behind the fixed header, the options
-- first. The header length is whatever the sender wrote there, in units of four bytes.
structure Dgram where
  srcport : InPort
  dstport : InPort
  seq : Seq
  ack : Seq
  hdrlen : BitVec 4
  freeme : Bool
  flags : Flags
  window : BitVec 16
  chksum : BitVec 16
  urgptr : BitVec 16
  body : List Byte
deriving DecidableEq, Repr

def TCP_MINLEN : Nat := 20

def Flags.byte (flags : Flags) : Byte :=
  BitVec.ofNat 8 ((if flags.urg then 32 else 0) + (if flags.ack then 16 else 0) + (if flags.psh then 8 else 0)
    + (if flags.rst then 4 else 0) + (if flags.syn then 2 else 0) + (if flags.fin then 1 else 0))

def Dgram.header (tcph : Dgram) : List Byte :=
  let bytes16 := fun (x : BitVec 16) => [x.extractLsb' 8 8, x.extractLsb' 0 8]
  let bytes32 := fun (x : BitVec 32) => bytes16 (x.extractLsb' 16 16) ++ bytes16 (x.extractLsb' 0 16)
  bytes16 tcph.srcport ++ bytes16 tcph.dstport ++ bytes32 tcph.seq ++ bytes32 tcph.ack
    ++ [tcph.hdrlen ++ (if tcph.freeme then 8#4 else 0#4), tcph.flags.byte]
    ++ bytes16 tcph.window ++ bytes16 tcph.chksum ++ bytes16 tcph.urgptr

def tcpHdrlen (tcph : Dgram) : Nat := tcph.hdrlen.toNat * 4

-- TCP_DATA: the bytes from the end of the header on, wherever the header length says that is.
def tcpData (tcph : Dgram) : List Byte := (tcph.header ++ tcph.body).drop (tcpHdrlen tcph)

def tcpDatalen (tcph : Dgram) : Int := TCP_MINLEN + tcph.body.length - tcpHdrlen tcph

def tcpSeglen (tcph : Dgram) : Int :=
  tcpDatalen tcph + (if tcph.flags.syn then 1 else 0) + (if tcph.flags.fin then 1 else 0)

-- A buffer in one of the two queues: info is the free space or the send time of an outgoing segment.
structure Buf where
  id : Nat
  info : Int
  th : Dgram
deriving DecidableEq, Repr

-- On a queue urgptr holds the length of the data.
def DATLEN (b : Buf) : Nat := b.th.urgptr.toNat
def SEQ1ST (b : Buf) : Seq := b.th.seq
def SEQNXT (b : Buf) : Seq := b.th.seq + b.th.urgptr.setWidth 32

-- The end of a segment on the send queue, SYN and FIN included.
def seqEnd (b : Buf) : Seq := b.th.seq + BitVec.ofInt 32 (tcpSeglen b.th)

@[simp] theorem header_length (tcph : Dgram) : tcph.header.length = TCP_MINLEN := by
  simp [Dgram.header, TCP_MINLEN]

theorem data_of_options (tcph : Dgram) (room : 5 ≤ tcph.hdrlen.toNat) :
    tcpData tcph = tcph.body.drop (tcpHdrlen tcph - TCP_MINLEN) := by
  have beyond : TCP_MINLEN ≤ tcpHdrlen tcph := by
    unfold tcpHdrlen TCP_MINLEN
    omega
  rw [tcpData, List.drop_append, header_length, List.drop_eq_nil_of_le (by simpa using beyond), List.nil_append]

theorem data_length (tcph : Dgram) : ((tcpData tcph).length : Int) = max (tcpDatalen tcph) 0 := by
  simp only [tcpData, List.length_drop, List.length_append, header_length, tcpDatalen]
  omega

structure Dataq where
  maxdatalen : Int
  curdatalen : BitVec 32
  q : List Buf
deriving DecidableEq, Repr

-- Where the backward search of tcp_addseg stops: the last hole between two neighbours that the
-- segment fills at least partly. The queue is returned cut in that hole.
def holeIn (seq1st seqnxt : Seq) : List Buf → Option (List Buf × List Buf)
  | b :: next :: rest =>
      match holeIn seq1st seqnxt (next :: rest) with
      | some (before, behind) => some (b :: before, behind)
      | none =>
          if SEQLT (SEQNXT b) (SEQ1ST next) ∧ SEQLT seq1st (SEQ1ST next) ∧ SEQLT (SEQNXT b) seqnxt then
            some ([b], next :: rest)
          else none
  | _ => none

-- The place tcp_addseg finds for a segment: the buffers before it, those behind it, and the new
-- curdatalen. Nothing is found for a duplicate.
def placeFor (q : Dataq) (buf : Buf) : Option (List Buf × List Buf × BitVec 32) :=
  match q.q.head?, q.q.getLast? with
  | some first, some last =>
      if SEQLT (SEQNXT last) (SEQNXT buf) then
        some (q.q, [], q.curdatalen + (SEQNXT buf - SEQNXT last))
      else if SEQLT (SEQ1ST buf) (SEQ1ST first) then
        some ([], q.q, q.curdatalen + (SEQ1ST first - SEQ1ST buf))
      else (holeIn (SEQ1ST buf) (SEQNXT buf) q.q).map fun cut => (cut.1, cut.2, q.curdatalen)
  | _, _ => some ([], [], buf.th.urgptr.setWidth 32)

-- tail is what follows the new segment on the queue.
structure Added where
  taken : Bool
  q : Dataq
  tail : List Buf
  freed : List Nat
deriving DecidableEq, Repr

-- TCPF_FREEME marks a segment the reader is done with.
def Buf.mark (b : Buf) (freeme : Bool) : Buf := { b with th.freeme := freeme }

@[simp] theorem mark_seq1st (b : Buf) (freeme : Bool) : SEQ1ST (b.mark freeme) = SEQ1ST b := rfl

@[simp] theorem mark_seqnxt (b : Buf) (freeme : Bool) : SEQNXT (b.mark freeme) = SEQNXT b := rfl

@[simp] theorem mark_id (b : Buf) (freeme : Bool) : (b.mark freeme).id = b.id := rfl

-- Segments contained in the new one are freed, forward and backward from it.
def linkSeg (q : Dataq) (buf : Buf) (before behind : List Buf) (cur : BitVec 32) : Added :=
  let covered := fun b => decide (SEQLE (SEQNXT b) (SEQNXT buf))
  let overlaid := fun b => decide (SEQLE (SEQ1ST buf) (SEQ1ST b))
  ⟨true, { q with curdatalen := cur, q := before.rdropWhile overlaid ++ buf :: behind.dropWhile covered },
    behind.dropWhile covered,
    (behind.takeWhile covered).map Buf.id ++ (before.rtakeWhile overlaid).reverse.map Buf.id⟩

def tcpAddseg (q : Dataq) (buf : Buf) : Added :=
  if buf.th.urgptr = 0 then ⟨false, q, [], [buf.id]⟩
  else match placeFor q (buf.mark false) with
    | none => ⟨false, q, [], [buf.id]⟩
    | some (before, behind, cur) => linkSeg q (buf.mark false) before behind cur

-- curdatalen once b is taken off the front of the queue and rest remains.
def lenWithout (q : Dataq) (b : Buf) : List Buf → BitVec 32
  | [] => 0
  | next :: _ => q.curdatalen - (SEQ1ST next - SEQ1ST b)

-- The part of tcp_dropsegs that frees the segments marked by the reader; lowest is what min becomes.
def dropMarked (q : Dataq) (lowest : Seq) : List Buf → List Nat → Dataq × Seq × List Nat
  | [], freed => ({ q with q := [] }, lowest, freed)
  | b :: rest, freed =>
      if b.th.freeme then
        dropMarked { q with curdatalen := lenWithout q b rest } (SEQNXT b) rest (freed ++ [b.id])
      else ({ q with q := b :: rest }, lowest, freed)

def flushQueue (q : Dataq) : Dataq := { q with curdatalen := 0, q := [] }

-- What the comment on tcp_addseg says curdatalen is.
def Counted (q : Dataq) : Prop :=
  match q.q.head?, q.q.getLast? with
  | some first, some last => q.curdatalen = SEQNXT last - SEQ1ST first
  | _, _ => q.curdatalen = 0

instance (q : Dataq) : Decidable (Counted q) := by
  unfold Counted
  split <;> infer_instance

end MagxNet.Tcp
