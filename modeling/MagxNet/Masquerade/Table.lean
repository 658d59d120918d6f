import MagxNet.Lib.Bytes

set_option autoImplicit false

namespace MagxNet.Masquerade

open Bytes

abbrev Long := BitVec 32
abbrev Port := BitVec 16
abbrev Proto := BitVec 8

abbrev MASQ_NUM_PORTS : Nat := 4096
abbrev MASQ_BASE_PORT : Nat := 60000
def MASQ_LOCAL_PACKETS : Long := 2

def IPPROTO_ICMP : Proto := 1
def IPPROTO_TCP : Proto := 6
def IPPROTO_UDP : Proto := 17

-- memory says which allocation the record is: it is kept for the proofs, and no function looks at it.
structure Record where
  memory : Nat
  num : Port
  masqAddr : Long
  masqPort : Port
  dstPort : Port
  proto : Proto
  modified : Long
  timeout : Long
  offs : Long
  prevOffs : Long
  seq : Long
deriving DecidableEq, Repr

-- allocated counts the records that have been allocated.
structure Masq where
  addr : Long
  mask : Long
  flags : Long
  tcpFirstTimeout : Long
  tcpAckTimeout : Long
  tcpFinTimeout : Long
  udpTimeout : Long
  icmpTimeout : Long
  portDb : Nat → Option Record
  redirectionDb : List Record
  allocated : Nat

abbrev PortDb := Nat → Option Record

-- A pointer to a record.
inductive Ptr where
  | slot (i : Nat)
  | redirection (k : Nat)
deriving DecidableEq, Repr

def Masq.get (s : Masq) : Ptr → Option Record
  | .slot i => s.portDb i
  | .redirection k => s.redirectionDb[k]?

def Masq.put (s : Masq) (r : Record) : Ptr → Masq
  | .slot i => { s with portDb := Function.update s.portDb i (some r) }
  | .redirection k => { s with redirectionDb := s.redirectionDb.set k r }

def after (seqNum1 seqNum2 : Long) : Bool := 0 < (seqNum1 - seqNum2).toInt

def offset (r : Record) (seqNum : Long) : Long := if after seqNum r.seq then r.offs else r.prevOffs

def sameConnection (r : Record) (addr : Long) (srcPort dstPort : Port) (proto : Proto) : Bool :=
  addr = r.masqAddr ∧ srcPort = r.masqPort ∧ (proto ≠ IPPROTO_TCP ∨ dstPort = 0 ∨ dstPort = r.dstPort) ∧ proto = r.proto

-- The empty places are compared, too: nul is what is read through a null pointer. The first place that compares
-- equal is returned, be it empty or not.
def findPortRecord (nul : Record) (db : PortDb) (addr : Long) (srcPort dstPort : Port) (proto : Proto) : Option Nat :=
  ((List.range MASQ_NUM_PORTS).find? fun i => sameConnection ((db i).getD nul) addr srcPort dstPort proto).filter fun i => (db i).isSome

def deletePortRecord (r : Record) (db : PortDb) : PortDb :=
  if 0 ≤ r.num.toInt ∧ r.num.toNat < MASQ_NUM_PORTS then Function.update db r.num.toNat none else db

def expired (time : Long) (r : Record) : Bool := (r.modified + r.timeout - time).toInt < 0

def makeRoom (time : Long) (db : PortDb) (i : Nat) : PortDb :=
  match db i with
  | none => db
  | some r => if expired time r then deletePortRecord r db else db

-- The place that the new record is to be put in; alloc says whether there is memory for it.
def newPortRecord (time : Long) (alloc : Bool) : List Nat → PortDb → Option Nat × PortDb
  | [], db => (none, db)
  | i :: rest, db =>
      let db := makeRoom time db i
      if (db i).isSome then newPortRecord time alloc rest db else (if alloc then some i else none, db)

def purgePortRecords (time : Long) : List Nat → PortDb → PortDb
  | [], db => db
  | i :: rest, db =>
      match db i with
      | none => purgePortRecords time rest db
      | some r => purgePortRecords time rest (if (r.modified + r.timeout).toNat < time.toNat then deletePortRecord r db else db)

def findRedirection (s : Masq) (port : Port) : Option Nat := s.redirectionDb.findIdx? fun r => r.num = port

def findRedirectionByMasqPort (s : Masq) (port : Port) : Option Nat := s.redirectionDb.findIdx? fun r => r.masqPort = port

-- What is written to /dev/masquerade is a whole record.
def newRedirection (s : Masq) (r : Record) : Masq :=
  { s with redirectionDb := { r with memory := s.allocated } :: s.redirectionDb, allocated := s.allocated + 1 }

def deleteRedirection (s : Masq) (k : Nat) : Masq := { s with redirectionDb := s.redirectionDb.eraseIdx k }

def isSpace (b : Byte) : Bool := b = 32 ∨ (9 ≤ b.toNat ∧ b.toNat ≤ 13)

def isDigit (b : Byte) : Bool := 48 ≤ b.toNat ∧ b.toNat ≤ 57

def COMMA : Byte := 44
def PLUS : Byte := 43
def MINUS : Byte := 45
def CR : Byte := 13
def LF : Byte := 10

-- "PORT " and "port "
def PORT_UPPER : List Byte := [80, 79, 82, 84, 32]
def PORT_LOWER : List Byte := [112, 111, 114, 116, 32]

-- strtoul (data + at, &end, 10): the number and where it ends.
def strtoul (data : Buffer) (start : Nat) : Nat × Nat :=
  let blanks := ((data.drop start).takeWhile isSpace).length
  let sign := get8 data (start + blanks)
  let signed := if sign = PLUS ∨ sign = MINUS then 1 else 0
  let digits := (data.drop (start + blanks + signed)).takeWhile isDigit
  if digits = [] then (0, start)
  else
    let value := digits.foldl (fun value b => 10 * value + (b.toNat - 48)) 0
    let number := if 2 ^ 32 ≤ value then 2 ^ 32 - 1 else if sign = MINUS then (2 ^ 32 - value) % 2 ^ 32 else value
    (number, start + blanks + signed + digits.length)

-- What a PORT command says: the port, where the address starts and where the port ends; or where to look on.
inductive Parsed where
  | port (port : Port) (start stop : Nat)
  | goOn (data : Nat)
deriving DecidableEq, Repr

def parsePort (data : Buffer) (start : Nat) : Parsed :=
  let a := strtoul data start
  if get8 data a.2 ≠ COMMA then .goOn a.2
  else
    let b := strtoul data (a.2 + 1)
    if get8 data b.2 ≠ COMMA then .goOn b.2
    else
      let c := strtoul data (b.2 + 1)
      if get8 data c.2 ≠ COMMA then .goOn c.2
      else
        let d := strtoul data (c.2 + 1)
        if get8 data d.2 ≠ COMMA then .goOn d.2
        else
          let high := strtoul data (d.2 + 1)
          if get8 data high.2 ≠ COMMA then .goOn high.2
          else
            let low := strtoul data (high.2 + 1)
            if get8 data low.2 ≠ CR ∧ get8 data low.2 ≠ LF then .goOn low.2
            else .port (BitVec.ofNat 16 high.1 <<< 8 ||| BitVec.ofNat 16 low.1) start low.2

-- The search for a PORT command; len is the length of the datagram's data, and memory goes on behind them.
def findPort (data : Buffer) (len : Nat) : Nat → Nat → Option (Port × Nat × Nat)
  | 0, _ => none
  | fuel + 1, at' =>
      if at' + 17 < len then
        if copyBytes data at' 5 ≠ PORT_UPPER ∧ copyBytes data at' 5 ≠ PORT_LOWER then findPort data len fuel (at' + 1)
        else
          match parsePort data (at' + 5) with
          | .port port start stop => some (port, start, stop)
          | .goOn next => findPort data len fuel next
      else none

def decimal (n : Nat) : List Byte := (Nat.toDigits 10 n).map fun c => BitVec.ofNat 8 c.toNat

-- sprintf (tmpbuf, "%ld,%ld,%ld,%ld,%ld,%ld", ..)
def tmpbuf (localaddr : Long) (localPort : Port) : List Byte :=
  decimal ((localaddr >>> 24) &&& 255).toNat ++ COMMA :: decimal ((localaddr >>> 16) &&& 255).toNat ++ COMMA ::
    decimal ((localaddr >>> 8) &&& 255).toNat ++ COMMA :: decimal (localaddr &&& 255).toNat ++ COMMA ::
    decimal ((localPort >>> 8) &&& 255).toNat ++ COMMA :: decimal (localPort &&& 255).toNat

end MagxNet.Masquerade
