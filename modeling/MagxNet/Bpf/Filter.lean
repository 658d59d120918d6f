import MagxNet.Lib.Bytes

set_option autoImplicit false

namespace MagxNet.Bpf

open Bytes

def BPF_MAXINSNS : Nat := 512
abbrev BPF_MEMWORDS : Nat := 16

abbrev Code := BitVec 16
abbrev Word := BitVec 32

def BPF_LD : Code := 0x00
def BPF_LDX : Code := 0x01
def BPF_ST : Code := 0x02
def BPF_STX : Code := 0x03
def BPF_ALU : Code := 0x04
def BPF_JMP : Code := 0x05
def BPF_RET : Code := 0x06
def BPF_MISC : Code := 0x07

def BPF_W : Code := 0x00
def BPF_H : Code := 0x08
def BPF_B : Code := 0x10

def BPF_IMM : Code := 0x00
def BPF_ABS : Code := 0x20
def BPF_IND : Code := 0x40
def BPF_MEM : Code := 0x60
def BPF_LEN : Code := 0x80
def BPF_MSH : Code := 0xa0

def BPF_ADD : Code := 0x00
def BPF_SUB : Code := 0x10
def BPF_MUL : Code := 0x20
def BPF_DIV : Code := 0x30
def BPF_OR : Code := 0x40
def BPF_AND : Code := 0x50
def BPF_LSH : Code := 0x60
def BPF_RSH : Code := 0x70
def BPF_NEG : Code := 0x80
def BPF_JA : Code := 0x00
def BPF_JEQ : Code := 0x10
def BPF_JGT : Code := 0x20
def BPF_JGE : Code := 0x30
def BPF_JSET : Code := 0x40
def BPF_K : Code := 0x00
def BPF_X : Code := 0x08
def BPF_A : Code := 0x10
def BPF_TAX : Code := 0x00
def BPF_TXA : Code := 0x80

def bpfClass (code : Code) : Code := code &&& 0x07
def bpfMode (code : Code) : Code := code &&& 0xe0
def bpfOp (code : Code) : Code := code &&& 0xf0

structure Insn where
  code : Code
  jt : BitVec 8
  jf : BitVec 8
  k : Word
deriving DecidableEq, Repr

inductive Size where
  | w
  | h
  | b
deriving DecidableEq, Repr

inductive Src where
  | k
  | x
deriving DecidableEq, Repr

inductive Alu where
  | add
  | sub
  | mul
  | div
  | and
  | or
  | lsh
  | rsh
deriving DecidableEq, Repr

inductive Test where
  | gt
  | ge
  | eq
  | set
deriving DecidableEq, Repr

-- The instructions that bpf_filter tells apart.
inductive Instr where
  | retK
  | retA
  | ldAbs (size : Size)
  | ldInd (size : Size)
  | ldLen
  | ldxLen
  | ldxMsh
  | ldImm
  | ldxImm
  | ldMem
  | ldxMem
  | st
  | stx
  | ja
  | jump (test : Test) (src : Src)
  | alu (op : Alu) (src : Src)
  | neg
  | tax
  | txa
deriving DecidableEq, Repr

-- The cases of the switch.
def cases : List (Code × Instr) :=
  [(BPF_RET ||| BPF_K, .retK), (BPF_RET ||| BPF_A, .retA),
    (BPF_LD ||| BPF_W ||| BPF_ABS, .ldAbs .w), (BPF_LD ||| BPF_H ||| BPF_ABS, .ldAbs .h),
    (BPF_LD ||| BPF_B ||| BPF_ABS, .ldAbs .b), (BPF_LD ||| BPF_W ||| BPF_LEN, .ldLen),
    (BPF_LDX ||| BPF_W ||| BPF_LEN, .ldxLen), (BPF_LD ||| BPF_W ||| BPF_IND, .ldInd .w),
    (BPF_LD ||| BPF_H ||| BPF_IND, .ldInd .h), (BPF_LD ||| BPF_B ||| BPF_IND, .ldInd .b),
    (BPF_LDX ||| BPF_MSH ||| BPF_B, .ldxMsh), (BPF_LD ||| BPF_IMM, .ldImm), (BPF_LDX ||| BPF_IMM, .ldxImm),
    (BPF_LD ||| BPF_MEM, .ldMem), (BPF_LDX ||| BPF_MEM, .ldxMem), (BPF_ST, .st), (BPF_STX, .stx),
    (BPF_JMP ||| BPF_JA, .ja), (BPF_JMP ||| BPF_JGT ||| BPF_K, .jump .gt .k), (BPF_JMP ||| BPF_JGE ||| BPF_K, .jump .ge .k),
    (BPF_JMP ||| BPF_JEQ ||| BPF_K, .jump .eq .k), (BPF_JMP ||| BPF_JSET ||| BPF_K, .jump .set .k),
    (BPF_JMP ||| BPF_JGT ||| BPF_X, .jump .gt .x), (BPF_JMP ||| BPF_JGE ||| BPF_X, .jump .ge .x),
    (BPF_JMP ||| BPF_JEQ ||| BPF_X, .jump .eq .x), (BPF_JMP ||| BPF_JSET ||| BPF_X, .jump .set .x),
    (BPF_ALU ||| BPF_ADD ||| BPF_X, .alu .add .x), (BPF_ALU ||| BPF_SUB ||| BPF_X, .alu .sub .x),
    (BPF_ALU ||| BPF_MUL ||| BPF_X, .alu .mul .x), (BPF_ALU ||| BPF_DIV ||| BPF_X, .alu .div .x),
    (BPF_ALU ||| BPF_AND ||| BPF_X, .alu .and .x), (BPF_ALU ||| BPF_OR ||| BPF_X, .alu .or .x),
    (BPF_ALU ||| BPF_LSH ||| BPF_X, .alu .lsh .x), (BPF_ALU ||| BPF_RSH ||| BPF_X, .alu .rsh .x),
    (BPF_ALU ||| BPF_ADD ||| BPF_K, .alu .add .k), (BPF_ALU ||| BPF_SUB ||| BPF_K, .alu .sub .k),
    (BPF_ALU ||| BPF_MUL ||| BPF_K, .alu .mul .k), (BPF_ALU ||| BPF_DIV ||| BPF_K, .alu .div .k),
    (BPF_ALU ||| BPF_AND ||| BPF_K, .alu .and .k), (BPF_ALU ||| BPF_OR ||| BPF_K, .alu .or .k),
    (BPF_ALU ||| BPF_LSH ||| BPF_K, .alu .lsh .k), (BPF_ALU ||| BPF_RSH ||| BPF_K, .alu .rsh .k),
    (BPF_ALU ||| BPF_NEG, .neg), (BPF_MISC ||| BPF_TAX, .tax), (BPF_MISC ||| BPF_TXA, .txa)]

def decode (code : Code) : Option Instr := (cases.find? fun c => c.1 == code).map Prod.snd

-- The variables of bpf_filter; pc counts instructions from the start of the program.
structure Vm where
  pc : Int
  a : Word
  x : Word
  mem : Fin BPF_MEMWORDS → Word

-- An instruction ends the run, accesses memory that it must not, or goes on.
inductive Next where
  | ret (value : Word)
  | fault
  | go (vm : Vm)

-- pc[i] is an instruction only inside the program.
def fetch (prog : List Insn) (pc : Int) : Option Insn := if pc < 0 then none else prog[pc.toNat]?

-- A word of mem takes 4 bytes and an instruction 8, and an address has 32 bits, so that the top bits of k are lost.
def memIndex (k : Word) : Nat := (k.setWidth 30).toNat

def jumpOffset (k : Word) : Int := (k.setWidth 29).toInt

def memAt (k : Word) : Option (Fin BPF_MEMWORDS) :=
  if inside : memIndex k < BPF_MEMWORDS then some ⟨memIndex k, inside⟩ else none

def Size.bytes : Size → Nat
  | .w => 4
  | .h => 2
  | .b => 1

-- The bound that is checked before a load. A word or half word adds its size to the offset, which may wrap.
def outOfRange (size : Size) (buflen k : Word) : Bool :=
  match size with
  | .b => decide (buflen ≤ k)
  | size => decide (buflen < k + BitVec.ofNat 32 size.bytes)

-- EXTRACT_LONG, EXTRACT_SHORT or a single byte; none where one of the bytes is not in the packet.
def extract (p : List Byte) (size : Size) (k : Word) : Option Word :=
  if k.toNat + size.bytes ≤ p.length then
    some (((p.drop k.toNat).take size.bytes).foldl (fun (value : Word) (byte : Byte) => value <<< 8 ||| byte.setWidth 32) 0)
  else none

-- Where control goes after an instruction, and how far a jump adds to it.
def Vm.next (vm : Vm) : Vm := { vm with pc := vm.pc + 1 }

def Vm.jump (vm : Vm) (offset : Int) : Vm := { vm with pc := vm.pc + 1 + offset }

def Vm.setA (vm : Vm) (a : Word) : Vm := { vm.next with a := a }

def Vm.setX (vm : Vm) (x : Word) : Vm := { vm.next with x := x }

def Vm.store (vm : Vm) (i : Fin BPF_MEMWORDS) (value : Word) : Vm :=
  { vm.next with mem := Function.update vm.mem i value }

def loadAt (p : List Byte) (vm : Vm) (size : Size) (k : Word) : Next :=
  if outOfRange size (BitVec.ofNat 32 p.length) k then .ret 0
  else match extract p size k with
    | none => .fault
    | some value => .go (vm.setA value)

def loadMsh (p : List Byte) (vm : Vm) (k : Word) : Next :=
  if BitVec.ofNat 32 p.length ≤ k then .ret 0
  else match extract p .b k with
    | none => .fault
    | some value => .go (vm.setX ((value &&& 0xf) <<< 2))

def operand (vm : Vm) (insn : Insn) : Src → Word
  | .k => insn.k
  | .x => vm.x

-- A and the operand are long, so that they are compared with their signs.
def holds (test : Test) (a y : Word) : Bool :=
  match test with
  | .gt => decide (y.toInt < a.toInt)
  | .ge => decide (y.toInt ≤ a.toInt)
  | .eq => decide (a = y)
  | .set => decide (a &&& y ≠ 0)

-- The shift count is taken modulo 64, as the 68000 does.
def aluOp (op : Alu) (a y : Word) : Word :=
  match op with
  | .add => a + y
  | .sub => a - y
  | .mul => a * y
  | .div => a.sdiv y
  | .and => a &&& y
  | .or => a ||| y
  | .lsh => a <<< (y.toNat % 64)
  | .rsh => a.sshiftRight (y.toNat % 64)

-- Only the division by X looks at its operand first; a division by zero is a trap.
def aluNext (vm : Vm) (insn : Insn) (op : Alu) (src : Src) : Next :=
  if op = .div ∧ operand vm insn src = 0 then
    match src with
    | .x => .ret 0
    | .k => .fault
  else .go (vm.setA (aluOp op vm.a (operand vm insn src)))

def execInstr (p : List Byte) (wirelen : Word) (vm : Vm) (insn : Insn) : Instr → Next
  | .retK => .ret insn.k
  | .retA => .ret vm.a
  | .ldAbs size => loadAt p vm size insn.k
  | .ldInd size => loadAt p vm size (vm.x + insn.k)
  | .ldLen => .go (vm.setA wirelen)
  | .ldxLen => .go (vm.setX wirelen)
  | .ldxMsh => loadMsh p vm insn.k
  | .ldImm => .go (vm.setA insn.k)
  | .ldxImm => .go (vm.setX insn.k)
  | .ldMem => (memAt insn.k).elim .fault fun i => .go (vm.setA (vm.mem i))
  | .ldxMem => (memAt insn.k).elim .fault fun i => .go (vm.setX (vm.mem i))
  | .st => (memAt insn.k).elim .fault fun i => .go (vm.store i vm.a)
  | .stx => (memAt insn.k).elim .fault fun i => .go (vm.store i vm.x)
  | .ja => .go (vm.jump (jumpOffset insn.k))
  | .jump test src =>
      .go (vm.jump (if holds test vm.a (operand vm insn src) then insn.jt.toNat else insn.jf.toNat))
  | .alu op src => aluNext vm insn op src
  | .neg => .go (vm.setA (-vm.a))
  | .tax => .go (vm.setX vm.a)
  | .txa => .go (vm.setA vm.x)

-- One round of the loop in bpf_filter; buflen is the length of the packet.
def step (prog : List Insn) (p : List Byte) (wirelen : Word) (vm : Vm) : Next :=
  match fetch prog vm.pc with
  | none => .fault
  | some insn => (decode insn.code).elim (.ret 0) (execInstr p wirelen vm insn)

-- The run after at most n instructions.
def exec (prog : List Insn) (p : List Byte) (wirelen : Word) : Nat → Vm → Next
  | 0, vm => .go vm
  | n + 1, vm =>
      match step prog p wirelen vm with
      | .go vm => exec prog p wirelen n vm
      | ended => ended

-- mem is not initialized.
def start (mem : Fin BPF_MEMWORDS → Word) : Vm := ⟨0, 0, 0, mem⟩

-- The jump targets, the memory words and the constant divisors that bpf_validate looks at.
def jumpOk (len : Nat) (from' : Word) (p : Insn) : Bool :=
  if bpfOp p.code = BPF_JA then decide ((from' + p.k).toInt < len)
  else decide ((from' + p.jt.setWidth 32).toInt < len) && decide ((from' + p.jf.setWidth 32).toInt < len)

def memOk (p : Insn) : Bool :=
  !(decide (bpfClass p.code = BPF_ST) || (decide (bpfClass p.code = BPF_LD) && decide (bpfMode p.code = BPF_MEM)))
    || (decide (0 ≤ p.k.toInt) && decide (p.k.toInt < BPF_MEMWORDS))

def divOk (p : Insn) : Bool := !(decide (p.code = BPF_ALU ||| BPF_DIV ||| BPF_K) && decide (p.k = 0))

def insnOk (len i : Nat) (p : Insn) : Bool :=
  (decide (bpfClass p.code ≠ BPF_JMP) || jumpOk len (BitVec.ofNat 32 (i + 1)) p) && memOk p && divOk p

-- before is what lies in memory in front of the program, and counts for its last instruction when it has none.
def bpfValidate (before : Insn) (f : List Insn) : Bool :=
  (f.zipIdx.all fun pi => insnOk f.length pi.2 pi.1) && decide (bpfClass (f.getLast?.getD before).code = BPF_RET)

-- What BIOCSETF passes: a length, and a pointer to instructions or none.
structure BpfProgram where
  bfLen : Word
  bfInsns : Option (Nat → Insn)

-- The code takes EINVAL for ENOSYS.
def EINVAL : Int := -32
def ENOMEM : Int := -39

def copied (insns : Nat → Insn) (len : Nat) : List Insn := (List.range len).map insns

-- The result, and the program that is installed afterwards. kmalloc says whether there is memory.
def bpfSfilter (kmalloc : Bool) (before : Insn) (old : Option (List Insn)) (prog : BpfProgram) :
    Int × Option (List Insn) :=
  match prog.bfInsns with
  | none => if prog.bfLen ≠ 0 then (EINVAL, old) else (0, none)
  | some insns =>
      if BPF_MAXINSNS < prog.bfLen.toNat then (EINVAL, old)
      else if ¬ kmalloc then (ENOMEM, old)
      else if bpfValidate before (copied insns prog.bfLen.toNat) then (0, some (copied insns prog.bfLen.toNat))
      else (EINVAL, old)

end MagxNet.Bpf
