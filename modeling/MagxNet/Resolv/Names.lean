import MagxNet.Lib.Labels
import MagxNet.Lib.Outcome

set_option autoImplicit false

namespace MagxNet.Resolv

open Bytes Labels

def INDIR_MASK : Byte := 0xc0
def NS_MAXLABEL : Nat := 63
def DOT : Byte := 0x2e
def BACKSLASH : Byte := 0x5c

-- Where the two bytes of an indirection point to, from the start of the message.
def indir (n low : Byte) : Nat := ((n &&& 0x3f).toNat <<< 8) ||| low.toNat

-- Addresses are offsets from msg, dn is what has been written to exp_dn; -1 is none.

-- The bytes of one label, its dots escaped.
def copyLabel (msg : Buffer) (eomorig length : Nat) : Nat → Nat → Buffer → Option (Nat × Buffer)
  | 0, cp, dn => some (cp, dn)
  | n + 1, cp, dn =>
      let c := get8 msg cp
      if c = DOT ∧ length ≤ dn.length + n + 2 then none
      else if eomorig ≤ cp + 1 then none
      else copyLabel msg eomorig length n (cp + 1) (if c = DOT then dn ++ [BACKSLASH, c] else dn ++ [c])

def expandLoop (msg : Buffer) (eomorig comp length : Nat) : Nat → Nat → Buffer → Option Nat → Nat → Outcome (Option (Nat × Buffer))
  | 0, _, _, _, _ => .running
  | fuel + 1, cp, dn, len, checked =>
      let n := get8 msg cp
      if n = 0 then .ret (some (len.getD (cp + 1 - comp), dn))
      else if n &&& INDIR_MASK = 0 then
        if dn ≠ [] ∧ length ≤ dn.length then .ret none
        else
          let dn := if dn = [] then dn else dn ++ [DOT]
          if length ≤ dn.length + n.toNat then .ret none
          else
            match copyLabel msg eomorig length n.toNat (cp + 1) dn with
            | none => .ret none
            | some (cp, dn) => expandLoop msg eomorig comp length fuel cp dn len (checked + n.toNat + 1)
      else if n &&& INDIR_MASK = INDIR_MASK then
        if eomorig ≤ indir n (get8 msg (cp + 1)) then .ret none
        else if eomorig ≤ checked + 2 then .ret none
        else expandLoop msg eomorig comp length fuel (indir n (get8 msg (cp + 1))) dn (some (len.getD (cp + 2 - comp)))
          (checked + 2)
      else .ret none

-- The size of the compressed name and the name as a string.
def dnExpand (msg : Buffer) (eomorig comp length : Nat) : Outcome (Option (Nat × Buffer)) :=
  expandLoop msg eomorig comp length (2 * eomorig + 3) comp [] none 0

def skipLoop (msg : Buffer) (eom comp : Nat) : Nat → Nat → Outcome (Option Nat)
  | 0, _ => .running
  | fuel + 1, cp =>
      if cp < eom then
        let n := get8 msg cp
        if n = 0 then .ret (some (cp + 1 - comp))
        else if n &&& INDIR_MASK = 0 then skipLoop msg eom comp fuel (cp + 1 + n.toNat)
        else if n &&& INDIR_MASK = INDIR_MASK then .ret (some (cp + 2 - comp))
        else .ret none
      else .ret (some (cp - comp))

def dnSkipname (msg : Buffer) (comp eom : Nat) : Outcome (Option Nat) := skipLoop msg eom comp (eom + 1) comp

-- A string is the list of its bytes up to the NUL, which is what a read behind them yields.

-- One label of the message against the string: what is left of both, or none for the next name.
def matchLabel (msg : Buffer) : Nat → List Byte → Nat → Option (List Byte × Nat)
  | 0, dn, cp => some (dn, cp)
  | n + 1, dn, cp =>
      if dn.headD 0 = DOT then none
      else
        let dn := if dn.headD 0 = BACKSLASH then dn.tail else dn
        if dn.headD 0 = get8 msg cp then matchLabel msg n dn.tail (cp + 1) else none

-- The comparison with one name: it is the same, it is another one, or its label type is illegal.
inductive Match where
  | here
  | next
  | illegal
deriving DecidableEq, Repr

def findAt (msg : Buffer) : Nat → List Byte → Nat → Outcome Match
  | 0, _, _ => .running
  | fuel + 1, dn, cp =>
      let n := get8 msg cp
      if n = 0 then .ret (if dn = [] then .here else .next)
      else if n &&& INDIR_MASK = 0 then
        match matchLabel msg n.toNat dn (cp + 1) with
        | none => .ret .next
        | some (dn, cp) =>
            if dn.headD 0 = 0 ∧ get8 msg cp = 0 then .ret .here
            else if dn.headD 0 = DOT then findAt msg fuel dn.tail cp
            else .ret .next
      else if n &&& INDIR_MASK = INDIR_MASK then findAt msg fuel dn (indir n (get8 msg (cp + 1)))
      else .ret .illegal

def dnFind (msg : Buffer) (fuel : Nat) (dn : List Byte) : List Nat → Outcome (Option Nat)
  | [] => .ret none
  | sp :: rest => (findAt msg fuel dn sp).bind fun found =>
      match found with
      | .here => .ret (some sp)
      | .next => dnFind msg fuel dn rest
      | .illegal => .ret none

-- The bytes of a label are written from cp on; none when the room up to eob runs out.
def labelLoop (eob : Nat) : List Byte → Buffer → Nat → Buffer × Option (Nat × List Byte)
  | [], msg, cp => (msg, some (cp, []))
  | c :: dn, msg, cp =>
      if c = DOT then (msg, some (cp, dn))
      else if c = BACKSLASH then
        match dn with
        | [] => (msg, some (cp, []))
        | e :: dn => if eob ≤ cp then (msg, none) else labelLoop eob dn (put8 msg cp e) (cp + 1)
      else if eob ≤ cp then (msg, none)
      else labelLoop eob dn (put8 msg cp c) (cp + 1)

-- What dn_comp returns, the message, and the list of names behind dnptrs[0].
structure Comp where
  ret : Option Nat
  msg : Buffer
  ptrs : List Nat
deriving DecidableEq, Repr

-- The surroundings of one call: where it writes, the names that it searches, whether it compresses at all, and how many entries the
-- array of pointers has up to lastdnptr (none for a null pointer).
structure CompArgs where
  comp : Nat
  length : Nat
  compress : Bool
  old : List Nat
  slots : Nat
deriving DecidableEq, Repr

def CompArgs.eob (a : CompArgs) : Nat := a.comp + a.length

def saveName (a : CompArgs) (ptrs : List Nat) (cp : Nat) : List Nat :=
  if a.compress ∧ ptrs.length + 2 < a.slots then ptrs ++ [cp] else ptrs

-- A failure takes the new entries off the list again, if there is one.
def compFail (a : CompArgs) (msg : Buffer) (ptrs : List Nat) : Comp := ⟨none, msg, if a.compress then a.old else ptrs⟩

def compEnd (a : CompArgs) (msg : Buffer) (cp : Nat) (ptrs : List Nat) : Comp :=
  if a.eob ≤ cp then compFail a msg ptrs else ⟨some (cp + 1 - a.comp), put8 msg cp 0, ptrs⟩

-- An indirection to a name found. Without room for it the new entries stay on the list.
def compLink (a : CompArgs) (msg : Buffer) (cp l : Nat) (ptrs : List Nat) : Comp :=
  if a.eob ≤ cp + 1 then ⟨none, msg, ptrs⟩
  else ⟨some (cp + 2 - a.comp), put8 (put8 msg cp (BitVec.ofNat 8 (l >>> 8) ||| INDIR_MASK)) (cp + 1)
    (BitVec.ofNat 8 (l % 256)), ptrs⟩

def compLoop (a : CompArgs) (reach : Nat) : Nat → List Byte → Buffer → Nat → List Nat → Outcome Comp
  | 0, _, _, _, _ => .running
  | _ + 1, [], msg, cp, ptrs => .ret (compEnd a msg cp ptrs)
  | fuel + 1, c :: dn, msg, cp, ptrs =>
      (if a.compress then dnFind msg reach (c :: dn) a.old else .ret none).bind fun found =>
        match found with
        | some l => .ret (compLink a msg cp l ptrs)
        | none =>
            match labelLoop a.eob (c :: dn) msg (cp + 1) with
            | (msg, none) => .ret (compFail a msg (saveName a ptrs cp))
            | (msg, some (end', rest)) =>
                if end' - cp - 1 = 0 ∧ rest = [] then .ret (compEnd a msg cp (saveName a ptrs cp))
                else if end' - cp - 1 = 0 ∨ NS_MAXLABEL < end' - cp - 1 then .ret (compFail a msg (saveName a ptrs cp))
                else compLoop a reach fuel rest (put8 msg cp (BitVec.ofNat 8 (end' - cp - 1))) end' (saveName a ptrs cp)

def dnComp (a : CompArgs) (reach : Nat) (name : List Byte) (msg : Buffer) : Outcome Comp :=
  compLoop a reach (name.length + 1) name msg a.comp a.old

end MagxNet.Resolv
