import MagxNet.Bpf.Filter
import MagxNet.Buf.Reach

set_option autoImplicit false

namespace MagxNet.Bpf

open Bytes Buf

abbrev BPF_MAXPACKETS : Nat := 60
abbrev BPF_READBUF : Nat := 8192
abbrev BPF_RESERVE : Nat := 100
abbrev BPF_ALIGNMENT : Nat := 4
abbrev SIZEOF_BPF_HDR : Nat := 18

abbrev wordalign (n : Nat) : Nat := (n + (BPF_ALIGNMENT - 1)) / BPF_ALIGNMENT * BPF_ALIGNMENT

abbrev BPF_HDRLEN : Nat := wordalign SIZEOF_BPF_HDR

def ENXIO : Int := -46
def EWOULDBLOCK : Int := -326
def EINTR : Int := -128

-- The length of a packet is a long.
structure Packet where
  bytes : Buffer
  short : bytes.length < 2 ^ 31

-- A packet that was captured, and what the filter said of it.
structure Capture where
  packet : Packet
  snaplen : Word

-- A buffer in the queue of a descriptor: its address, what lies between its dstart and its dend, and the packets it was
-- filled with, which are kept for the proofs.
structure Queued where
  addr : Nat
  bytes : Buffer
  taken : List Capture

-- The struct bpf. Only one priority of recvq is used.
structure Desc where
  isOpen : Bool
  recvq : List Queued
  inPkts : Word
  inDrop : Word
  sTime : Word
  sTicks : Word

structure Listening where
  mem : Buf.State
  bpf : Nat → Desc

def Listening.setBpf (s : Listening) (k : Nat) (d : Desc) : Listening := { s with bpf := Function.update s.bpf k d }

-- What bpf_filter returns for each descriptor, the time, and what is read behind the packet and found in the buffer.
structure Arrival where
  result : Nat → Word
  ticks : Word
  behind : Nat → Byte
  found : Nat → Byte

-- MIN compares longs; the sum and its bound are unsigned.
def capLen (snaplen pktlen : Word) : Word :=
  let caplen := BitVec.ofNat 32 BPF_HDRLEN + (if snaplen.toInt < pktlen.toInt then snaplen else pktlen)
  if BPF_READBUF - BPF_ALIGNMENT < caplen.toNat then BitVec.ofNat 32 (BPF_READBUF - BPF_ALIGNMENT) else caplen

def trailSpace (h : Heap) (a : Nat) : Word := BitVec.ofInt 32 (a + h.buflen (.mem a) - h.dend (.mem a))

def fits (h : Heap) (a : Nat) (caplen : Word) : Bool :=
  caplen.toNat + BPF_ALIGNMENT + BPF_RESERVE / 2 ≤ (trailSpace h a).toNat

def setDend (h : Heap) (a stop : Nat) : Heap := { h with dend := Function.update h.dend (.mem a) stop }

-- The buffer that the record goes to, and the others of the queue.
def place (env : Arrival) (m : Buf.State) (queue : List Queued) (caplen : Word) : Outcome (Option (List Queued × Queued) × Buf.State) :=
  match queue.getLast?.filter fun b => fits m.heap b.addr caplen with
  | some b =>
      let align := wordalign (m.heap.dend (.mem b.addr) - m.heap.dstart (.mem b.addr))
      .ret (some (queue.dropLast, { b with bytes := b.bytes ++ (List.range (align - b.bytes.length)).map env.found }),
        { m with heap := setDend m.heap b.addr (add32 (m.heap.dstart (.mem b.addr)) align) })
  | none =>
      if BPF_MAXPACKETS ≤ queue.length then .ret (none, m)
      else
        -- With BUF_ATOMIC buf_alloc never asks for a block.
        (bufAlloc (fun _ => none) 1 m.heap (caplen + BitVec.ofNat 32 BPF_RESERVE) (BitVec.ofNat 32 (BPF_RESERVE / 2)) true).bind fun
          | (.mem a, h) =>
              -- if_enqueue
              if BPF_MAXPACKETS ≤ queue.length then .ret (none, ⟨bufDeref h (.mem a), release ⟨h, a :: m.live⟩ a⟩)
              else .ret (some (queue, ⟨a, [], []⟩), ⟨h, a :: m.live⟩)
          | (_, h) => .ret (none, ⟨h, m.live⟩)

def bytes16 (value : BitVec 16) : Buffer := [value.extractLsb' 8 8, value.extractLsb' 0 8]

def bytes32 (value : BitVec 32) : Buffer := bytes16 (value.extractLsb' 16 16) ++ bytes16 (value.extractLsb' 0 16)

-- The struct bpf_hdr and the two bytes behind it that are not written.
def header (env : Arrival) (d : Desc) (pktlen caplen : Word) : Buffer :=
  let ticks := (env.ticks - d.sTicks) * 5
  bytes32 (d.sTime + ticks.sdiv 1000) ++ bytes32 (ticks.srem 1000 * 1000) ++ bytes32 caplen ++ bytes32 pktlen ++
    bytes16 (BitVec.ofNat 16 BPF_HDRLEN) ++ (List.range (BPF_HDRLEN - SIZEOF_BPF_HDR)).map env.found

-- memcpy (.., buf->dstart, caplen), which may read on behind the packet.
def snapshot (env : Arrival) (p : Buffer) (caplen : Nat) : Buffer :=
  p.take caplen ++ (List.range (caplen - p.length)).map env.behind

-- The record is written at the end of the buffer. Below BPF_HDRLEN, memcpy gets nearly 2^32 bytes to copy.
def store (env : Arrival) (m : Buf.State) (d : Desc) (p : Packet) (snaplen caplen : Word) (b : Queued) : Outcome (Queued × Buf.State) :=
  let stop := m.heap.dend (.mem b.addr) + caplen.toNat
  if caplen.toNat < BPF_HDRLEN ∨ b.addr + m.heap.buflen (.mem b.addr) < stop then .fault
  else
    let record := header env d (BitVec.ofNat 32 p.bytes.length) (caplen - BitVec.ofNat 32 BPF_HDRLEN) ++
      snapshot env p.bytes (caplen.toNat - BPF_HDRLEN)
    .ret ({ b with bytes := b.bytes ++ record, taken := b.taken ++ [⟨p, snaplen⟩] }, { m with heap := setDend m.heap b.addr stop })

-- The body of the loop in bpf_input.
def capture (env : Arrival) (p : Packet) (s : Listening) (k : Nat) : Outcome Listening :=
  let d := s.bpf k
  if ¬ d.isOpen then .ret s
  else
    let d := { d with inPkts := d.inPkts + 1 }
    let snaplen := env.result k
    if snaplen = 0 then .ret (s.setBpf k d)
    else
      let caplen := capLen snaplen (BitVec.ofNat 32 p.bytes.length)
      (place env s.mem d.recvq caplen).bind fun
        | (none, m) => .ret ({ s with mem := m }.setBpf k { d with inDrop := d.inDrop + 1 })
        | (some (front, b), m) =>
            (store env m d p snaplen caplen b).bind fun (b, m) => .ret ({ s with mem := m }.setBpf k { d with recvq := front ++ [b] })

-- nif is the list of the descriptors that listen to the interface.
def bpfInput (env : Arrival) (p : Packet) : List Nat → Listening → Outcome Listening
  | [], s => .ret s
  | k :: rest, s => (capture env p s k).bind (bpfInput env p rest)

inductive ReadResult where
  | error (code : Int)
  | sleeps
  | data (b : Queued)

def dequeue (s : Listening) (k : Nat) (b : Queued) (rest : List Queued) : Listening :=
  { s with mem := ⟨bufDeref s.mem.heap (.mem b.addr), release s.mem b.addr⟩ }.setBpf k { s.bpf k with recvq := rest }

def bpfRead (s : Listening) (k : Nat) (nbytes : Int) (ndelay : Bool) : ReadResult × Listening :=
  if ¬ (s.bpf k).isOpen then (.error ENXIO, s)
  else if nbytes < BPF_READBUF then (.error EINVAL, s)
  else
    match (s.bpf k).recvq with
    | b :: rest => (.data b, dequeue s k b rest)
    | [] => if ndelay then (.error EWOULDBLOCK, s) else (.sleeps, s)

-- bpf_read goes on after its sleep.
def bpfReadOn (s : Listening) (k : Nat) (interrupted : Bool) : ReadResult × Listening :=
  if interrupted then (.error EINTR, s)
  else
    match (s.bpf k).recvq with
    | b :: rest => (.data b, dequeue s k b rest)
    | [] => (.error EWOULDBLOCK, s)

end MagxNet.Bpf
