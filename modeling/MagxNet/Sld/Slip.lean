import MagxNet.Sld.Line

set_option autoImplicit false

namespace MagxNet.Sld

open Bytes (Byte get8)

-- The Van Jacobson compression of slcompr.c over its connection states: slc_compress with the connection id flag, which
-- returns the type of the packet, and slc_uncompress with the type.
structure Vj (σ : Type) where
  compress : σ → Bool → List Byte → σ × Byte × List Byte
  uncompress : σ → Byte → List Byte → σ × Option (List Byte)

namespace Slip

def ESC : Byte := 219
def END : Byte := 192
def ESC_ESC : Byte := 221
def ESC_END : Byte := 220

def TYPE_IP : Byte := 0x40
def TYPE_UNCOMPRESSED_TCP : Byte := 0x70
def TYPE_COMPRESSED_TCP : Byte := 0x80
def TYPE_ERROR : Byte := 0x00

def IPPROTO_TCP : Byte := 6

-- The interface's mtu, the flags that the user sets, and the compression states.
structure SlipOpt (σ : Type) where
  mtu : BitVec 32
  compress : Bool
  autocomp : Bool
  compcid : Bool
  comp : σ

variable {σ : Type}

def slcType (b : List Byte) : Byte :=
  let c := get8 b 0 &&& 0xf0
  if c = TYPE_IP then TYPE_IP
  else if c &&& 0x80 ≠ 0 then TYPE_COMPRESSED_TCP
  else if c = TYPE_UNCOMPRESSED_TCP then TYPE_UNCOMPRESSED_TCP
  else TYPE_ERROR

def setComp (t : SlipOpt σ) (comp : σ) : SlipOpt σ := { t with comp := comp }

def setCompress (t : SlipOpt σ) : SlipOpt σ := { t with compress := true }

def slcUncompress (vj : Vj σ) (t : SlipOpt σ) (type : Byte) (b : List Byte) : SlipOpt σ × Option (List Byte) :=
  (setComp t (vj.uncompress t.comp type b).1, (vj.uncompress t.comp type b).2)

-- The packet, if it may go up.
def uncompress (vj : Vj σ) (t : SlipOpt σ) (b : List Byte) : SlipOpt σ × Option (List Byte) :=
  if slcType b = TYPE_IP then (t, some b)
  else if slcType b = TYPE_COMPRESSED_TCP then
    if t.compress then slcUncompress vj t TYPE_COMPRESSED_TCP b else (t, none)
  else if slcType b = TYPE_UNCOMPRESSED_TCP then
    if t.compress then slcUncompress vj t TYPE_UNCOMPRESSED_TCP b
    else if t.autocomp then
      match slcUncompress vj t TYPE_UNCOMPRESSED_TCP b with
      | (t1, some b1) => (setCompress t1, some b1)
      | (t1, none) => (t1, none)
    else (t, none)
  else (t, none)

-- How many bytes behind dstart a receive buffer takes: mtu + 1, and a long.
def slipLimit (t : SlipOpt σ) : Int := (t.mtu + 1).toInt

def slipData (esc : Bool) (c : Byte) : Bool × Option Byte :=
  if c = ESC then (true, none)
  else if c = ESC_ESC then (false, some (if esc then ESC else c))
  else if c = ESC_END then (false, some (if esc then END else c))
  else (false, some c)

def slipStuff (c : Byte) : List Byte :=
  if c = ESC then [ESC, ESC_ESC] else if c = END then [ESC, ESC_END] else [c]

def orFirst (type : Byte) : List Byte → List Byte
  | [] => []
  | c :: rest => (c ||| type) :: rest

def slipBuild (vj : Vj σ) (t : SlipOpt σ) (b : List Byte) : SlipOpt σ × List Byte :=
  if t.compress ∧ get8 b 9 = IPPROTO_TCP then
    match vj.compress t.comp t.compcid b with
    | (comp, type, b1) => (setComp t comp, orFirst type b1)
  else (t, b)

def slipDriver (vj : Vj σ) : Driver (SlipOpt σ) (List Byte) (List Byte) where
  diverts := fun _ _ => false
  delim := END
  limit := slipLimit
  data := fun _ => slipData
  rejects := fun _ l => decide (l < 3)
  close := uncompress vj
  build := slipBuild vj
  stuff := fun _ => slipStuff

abbrev SlipLine (σ : Type) := Line (SlipOpt σ) (List Byte) (List Byte)

def slipRecv (vj : Vj σ) (memory : Nat → Bool) (w : SlipLine σ) : Option (SlipLine σ) := recv (slipDriver vj) memory w

def slipSend (vj : Vj σ) (w : SlipLine σ) : SlipLine σ := send (slipDriver vj) w

def slipOutput (vj : Vj σ) (w : SlipLine σ) (buf : List Byte) (pri : BitVec 16) : SlipLine σ :=
  output (slipDriver vj) w buf pri

end Slip

end MagxNet.Sld
