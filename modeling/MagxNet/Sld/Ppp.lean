import MagxNet.Sld.Slip

set_option autoImplicit false

namespace MagxNet.Sld

open Bytes (Byte get8)

namespace Ppp

def PPP_MTU : BitVec 32 := 1500

def ESC : Byte := 0x7d
def FLAG : Byte := 0x7e
def TRANS : Byte := 0x20
def ADDR : Byte := 0xff
def CTRL : Byte := 0x03

def PPPPROTO_IP : BitVec 16 := 0x0021
def PPPPROTO_COMP_TCP : BitVec 16 := 0x002d
def PPPPROTO_UNCOMP_TCP : BitVec 16 := 0x002f

def FCS_INIT : BitVec 16 := 0xffff
def FCS_GOOD : BitVec 16 := 0xf0b8

abbrev Map := List (BitVec 32)

-- MAP_ISSET, MAP_SET.
def mapIsset (m : Map) (c : Byte) : Bool := (m.getD (c.toNat / 32) 0).getLsbD (c.toNat % 32)

def mapSet (m : Map) (c : Byte) : Map :=
  m.set (c.toNat / 32) (m.getD (c.toNat / 32) 0 ||| BitVec.twoPow 32 (c.toNat % 32))

-- The options PPPO_, the two character maps, the size of what is received, and the state of the interface.
structure PppOpt (σ : Type) where
  protComp : Bool
  addrComp : Bool
  ipDown : Bool
  compress : Bool
  autocomp : Bool
  xmap : Map
  rmap : Map
  mru : BitVec 32
  up : Bool
  comp : σ

-- A packet on the send queue: its protocol number in the two bytes before dstart.
structure Packet where
  proto : BitVec 16
  info : List Byte
deriving DecidableEq, Repr

-- What becomes of a frame: it goes to if_input, to /dev/ppp, or nowhere.
inductive Received where
  | ip (info : List Byte)
  | usr (packet : Packet)
  | discarded
deriving DecidableEq, Repr

def fcstab : List (BitVec 16) :=
  [0x0000, 0x1189, 0x2312, 0x329b, 0x4624, 0x57ad, 0x6536, 0x74bf,
    0x8c48, 0x9dc1, 0xaf5a, 0xbed3, 0xca6c, 0xdbe5, 0xe97e, 0xf8f7,
    0x1081, 0x0108, 0x3393, 0x221a, 0x56a5, 0x472c, 0x75b7, 0x643e,
    0x9cc9, 0x8d40, 0xbfdb, 0xae52, 0xdaed, 0xcb64, 0xf9ff, 0xe876,
    0x2102, 0x308b, 0x0210, 0x1399, 0x6726, 0x76af, 0x4434, 0x55bd,
    0xad4a, 0xbcc3, 0x8e58, 0x9fd1, 0xeb6e, 0xfae7, 0xc87c, 0xd9f5,
    0x3183, 0x200a, 0x1291, 0x0318, 0x77a7, 0x662e, 0x54b5, 0x453c,
    0xbdcb, 0xac42, 0x9ed9, 0x8f50, 0xfbef, 0xea66, 0xd8fd, 0xc974,
    0x4204, 0x538d, 0x6116, 0x709f, 0x0420, 0x15a9, 0x2732, 0x36bb,
    0xce4c, 0xdfc5, 0xed5e, 0xfcd7, 0x8868, 0x99e1, 0xab7a, 0xbaf3,
    0x5285, 0x430c, 0x7197, 0x601e, 0x14a1, 0x0528, 0x37b3, 0x263a,
    0xdecd, 0xcf44, 0xfddf, 0xec56, 0x98e9, 0x8960, 0xbbfb, 0xaa72,
    0x6306, 0x728f, 0x4014, 0x519d, 0x2522, 0x34ab, 0x0630, 0x17b9,
    0xef4e, 0xfec7, 0xcc5c, 0xddd5, 0xa96a, 0xb8e3, 0x8a78, 0x9bf1,
    0x7387, 0x620e, 0x5095, 0x411c, 0x35a3, 0x242a, 0x16b1, 0x0738,
    0xffcf, 0xee46, 0xdcdd, 0xcd54, 0xb9eb, 0xa862, 0x9af9, 0x8b70,
    0x8408, 0x9581, 0xa71a, 0xb693, 0xc22c, 0xd3a5, 0xe13e, 0xf0b7,
    0x0840, 0x19c9, 0x2b52, 0x3adb, 0x4e64, 0x5fed, 0x6d76, 0x7cff,
    0x9489, 0x8500, 0xb79b, 0xa612, 0xd2ad, 0xc324, 0xf1bf, 0xe036,
    0x18c1, 0x0948, 0x3bd3, 0x2a5a, 0x5ee5, 0x4f6c, 0x7df7, 0x6c7e,
    0xa50a, 0xb483, 0x8618, 0x9791, 0xe32e, 0xf2a7, 0xc03c, 0xd1b5,
    0x2942, 0x38cb, 0x0a50, 0x1bd9, 0x6f66, 0x7eef, 0x4c74, 0x5dfd,
    0xb58b, 0xa402, 0x9699, 0x8710, 0xf3af, 0xe226, 0xd0bd, 0xc134,
    0x39c3, 0x284a, 0x1ad1, 0x0b58, 0x7fe7, 0x6e6e, 0x5cf5, 0x4d7c,
    0xc60c, 0xd785, 0xe51e, 0xf497, 0x8028, 0x91a1, 0xa33a, 0xb2b3,
    0x4a44, 0x5bcd, 0x6956, 0x78df, 0x0c60, 0x1de9, 0x2f72, 0x3efb,
    0xd68d, 0xc704, 0xf59f, 0xe416, 0x90a9, 0x8120, 0xb3bb, 0xa232,
    0x5ac5, 0x4b4c, 0x79d7, 0x685e, 0x1ce1, 0x0d68, 0x3ff3, 0x2e7a,
    0xe70e, 0xf687, 0xc41c, 0xd595, 0xa12a, 0xb0a3, 0x8238, 0x93b1,
    0x6b46, 0x7acf, 0x4854, 0x59dd, 0x2d62, 0x3ceb, 0x0e70, 0x1ff9,
    0xf78f, 0xe606, 0xd49d, 0xc514, 0xb1ab, 0xa022, 0x92b9, 0x8330,
    0x7bc7, 0x6a4e, 0x58d5, 0x495c, 0x3de3, 0x2c6a, 0x1ef1, 0x0f78]

def fcsStep (fcs : BitVec 16) (c : Byte) : BitVec 16 :=
  (fcs >>> 8) ^^^ fcstab.getD ((fcs ^^^ c.signExtend 16) &&& 0xff).toNat 0

def pppFcs (bytes : List Byte) : BitVec 16 := bytes.foldl fcsStep FCS_INIT

variable {σ : Type}

-- PPPIOCSXMAP; none stands for EINVAL.
def setXmap (l : Map) : Option Map :=
  let both := fun (i : Nat) => l.getD i 0 &&& l.getD (i + 1) 0 ≠ 0
  if both 0 ∨ both 2 ∨ both 4 ∨ both 6 ∨ mapIsset l (FLAG ^^^ TRANS) ∨ mapIsset l (ESC ^^^ TRANS) then none
  else some (mapSet (mapSet (l.set 1 0) ESC) FLAG)

-- The map that ppp_link sets: ESC, FLAG and the control characters.
def linkXmap : Map := (List.range 32).foldl (fun m j => mapSet m (BitVec.ofNat 8 j))
  (mapSet (mapSet (List.replicate 8 0) ESC) FLAG)

-- At least 1500 bytes and some slope, as a long.
def pppLimit (t : PppOpt σ) : Int := ((if PPP_MTU.ult t.mru then t.mru else PPP_MTU) + 10).toInt

def pppData (t : PppOpt σ) (esc : Bool) (c : Byte) : Bool × Option Byte :=
  if c = ESC then (true, none)
  else if 0x20 ≤ c.toNat ∨ ¬ mapIsset t.rmap c then (false, some (if esc then c ^^^ TRANS else c))
  else (esc, none)

def setComp (t : PppOpt σ) (comp : σ) : PppOpt σ := { t with comp := comp }

def setCompress (t : PppOpt σ) : PppOpt σ := { t with compress := true }

def slcUncompress (vj : Vj σ) (t : PppOpt σ) (type : Byte) (b : List Byte) : PppOpt σ × Option (List Byte) :=
  (setComp t (vj.uncompress t.comp type b).1, (vj.uncompress t.comp type b).2)

-- The switch over the protocol: the information, if it may go on, and what protocol it then is.
def uncompress (vj : Vj σ) (t : PppOpt σ) (p : Packet) : PppOpt σ × Option Packet :=
  let asIp := fun (info : List Byte) => (⟨PPPPROTO_IP, info⟩ : Packet)
  if p.proto = PPPPROTO_COMP_TCP then
    if t.compress then
      match slcUncompress vj t Slip.TYPE_COMPRESSED_TCP p.info with
      | (t1, b) => (t1, b.map asIp)
    else (t, none)
  else if p.proto = PPPPROTO_UNCOMP_TCP then
    if t.compress then
      match slcUncompress vj t Slip.TYPE_UNCOMPRESSED_TCP p.info with
      | (t1, b) => (t1, b.map asIp)
    else if t.autocomp then
      match slcUncompress vj t Slip.TYPE_UNCOMPRESSED_TCP p.info with
      | (t1, some b) => (setCompress t1, some (asIp b))
      | (t1, none) => (t1, none)
    else (t, none)
  else (t, some p)

def handOn (t : PppOpt σ) (p : Packet) : Received :=
  if p.proto = PPPPROTO_IP ∧ t.up ∧ ¬ t.ipDown then .ip p.info else .usr p

-- Address and control field may be compressed away.
def stripAddr (bytes : List Byte) : List Byte :=
  if get8 bytes 0 = ADDR ∧ get8 bytes 1 = CTRL then bytes.drop 2 else bytes

-- The protocol field may be compressed to one byte. What follows still has the check sequence at its end.
def stripProto (bytes : List Byte) : Packet :=
  if (get8 bytes 0).getLsbD 0 then ⟨(get8 bytes 0).setWidth 16, bytes.drop 1⟩
  else ⟨get8 bytes 0 ++ get8 bytes 1, bytes.drop 2⟩

def pppRecvFrame (vj : Vj σ) (t : PppOpt σ) (bytes : List Byte) : PppOpt σ × Received :=
  if bytes.length < 3 ∨ pppFcs bytes ≠ FCS_GOOD then (t, .discarded)
  else
    let p := stripProto (stripAddr bytes)
    if p.info.length < 3 then (t, .discarded)
    else match uncompress vj t { p with info := p.info.take (p.info.length - 2) } with
      | (t1, none) => (t1, .discarded)
      | (t1, some p1) => (t1, handOn t1 p1)

-- The protocol number put together from two chars, which are signed.
def charsProto (p : Packet) : BitVec 16 :=
  (((p.proto.extractLsb' 8 8).signExtend 32 <<< 8) ||| (p.proto.extractLsb' 0 8).signExtend 32).setWidth 16

-- VJ header compression; the connection id flag is looked up in the wrong word, where it is never set.
def compressed (vj : Vj σ) (t : PppOpt σ) (p : Packet) : PppOpt σ × Packet :=
  if t.compress ∧ charsProto p = PPPPROTO_IP ∧ get8 p.info 9 = Slip.IPPROTO_TCP then
    match vj.compress t.comp false p.info with
    | (comp, type, info) =>
        (setComp t comp,
          ⟨if type = Slip.TYPE_COMPRESSED_TCP then PPPPROTO_COMP_TCP
            else if type = Slip.TYPE_UNCOMPRESSED_TCP then PPPPROTO_UNCOMP_TCP
            else charsProto p, info⟩)
  else (t, ⟨charsProto p, p.info⟩)

-- Address, control and protocol, and behind them the information.
def framed (t : PppOpt σ) (p : Packet) : List Byte :=
  (if t.addrComp then [] else [ADDR, CTRL])
    ++ (if ¬ t.protComp ∨ p.proto.extractLsb' 8 8 ≠ 0 then [p.proto.extractLsb' 8 8] else [])
    ++ p.proto.extractLsb' 0 8 :: p.info

def withFcs (bytes : List Byte) : List Byte :=
  bytes ++ [(~~~ pppFcs bytes).extractLsb' 0 8, (~~~ pppFcs bytes).extractLsb' 8 8]

def pppBuildFrame (vj : Vj σ) (t : PppOpt σ) (p : Packet) : PppOpt σ × List Byte :=
  match compressed vj t p with
  | (t1, p1) => (t1, withFcs (framed t1 p1))

def pppStuff (t : PppOpt σ) (c : Byte) : List Byte := if mapIsset t.xmap c then [ESC, c ^^^ TRANS] else [c]

-- An IP packet goes back to /dev/ppp when the user wants it there. An escape before the flag aborts the frame; every other frame is used up, for better or worse.
def pppDriver (vj : Vj σ) : Driver (PppOpt σ) Packet Received where
  diverts := fun t p => decide (p.proto = PPPPROTO_IP) && t.ipDown
  delim := FLAG
  limit := pppLimit
  data := pppData
  rejects := fun esc l => esc || decide (l < 3)
  close := fun t bytes => ((pppRecvFrame vj t bytes).1, some (pppRecvFrame vj t bytes).2)
  build := pppBuildFrame vj
  stuff := pppStuff

abbrev PppLine (σ : Type) := Line (PppOpt σ) Packet Received

def pppRecv (vj : Vj σ) (memory : Nat → Bool) (w : PppLine σ) : Option (PppLine σ) := recv (pppDriver vj) memory w

def pppSend (vj : Vj σ) (w : PppLine σ) : PppLine σ := send (pppDriver vj) w

def pppSendFrame (vj : Vj σ) (w : PppLine σ) (p : Packet) (pri : BitVec 16) : PppLine σ :=
  output (pppDriver vj) w p pri

end Ppp

end MagxNet.Sld
