import MagxNet.Lib.Outcome
import MagxNet.Lib.Singly

set_option autoImplicit false

namespace MagxNet.Iface

open Singly

abbrev IF_PRIORITY_BITS : Nat := 1
abbrev IF_PRIORITIES : Nat := 1 <<< IF_PRIORITY_BITS
def ENOMEM : Int := -39

-- qlen is counted up only below maxqlen, which is a short like it.
structure Ifq (β : Type) where
  maxqlen : Int
  qlen : Int
  curr : BitVec 16
  qfirst : Nat → Option β
  qlast : Nat → Option β

-- One queue and the link3 of all buffers. derefs records the buffers given to buf_deref.
structure World (β : Type) where
  q : Ifq β
  link3 : β → Option β
  derefs : List β

def GET_QUEUE (curr : BitVec 16) : Nat := (curr.sshiftRight IF_PRIORITY_BITS &&& BitVec.ofNat 16 (IF_PRIORITIES - 1)).toNat
def SET_QUEUE (n : Nat) : BitVec 16 := BitVec.ofNat 16 (n <<< IF_PRIORITY_BITS)
def INC_QUEUE (curr : BitVec 16) (n : Nat) : BitVec 16 := curr + BitVec.ofNat 16 (IF_PRIORITIES - n)

-- if ((ushort) pri >= IF_PRIORITIES) pri = IF_PRIORITIES - 1
def lane (pri : BitVec 16) : Nat := if IF_PRIORITIES ≤ pri.toNat then IF_PRIORITIES - 1 else pri.toNat

section Queue

variable {β : Type} [DecidableEq β]

def bufDeref (w : World β) (buf : β) : World β := { w with derefs := w.derefs ++ [buf] }

def setLink3 (w : World β) (buf : β) (next : Option β) : World β := { w with link3 := Function.update w.link3 buf next }

def setFirst (w : World β) (pri : Nat) (buf : Option β) : World β := { w with q.qfirst := Function.update w.q.qfirst pri buf }

def setLast (w : World β) (pri : Nat) (buf : Option β) : World β := { w with q.qlast := Function.update w.q.qlast pri buf }

def setCurr (w : World β) (curr : BitVec 16) : World β := { w with q.curr := curr }

def setQlen (w : World β) (qlen : Int) : World β := { w with q.qlen := qlen }

def ifEnqueue (w : World β) (buf : β) (pri : BitVec 16) : Int × World β :=
  if w.q.maxqlen ≤ w.q.qlen then (ENOMEM, bufDeref w buf)
  else
    let pri := lane pri
    let w := setLink3 w buf none
    let w := match w.q.qlast pri with
      | some last => setLast (setLink3 w last (some buf)) pri (some buf)
      | none => setLast (setFirst w pri (some buf)) pri (some buf)
    (0, setQlen w (w.q.qlen + 1))

def ifPutback (w : World β) (buf : β) (pri : BitVec 16) : Int × World β :=
  if w.q.maxqlen ≤ w.q.qlen then (ENOMEM, bufDeref w buf)
  else
    let pri := lane pri
    let w := setLink3 w buf (w.q.qfirst pri)
    let w := setFirst w pri (some buf)
    let w := if w.q.qlast pri = none then setLast w pri (some buf) else w
    (0, setQlen w (w.q.qlen + 1))

-- for (i = IF_PRIORITIES; i > 0; --i): i and que.
def dequeueLoop (w : World β) : Nat → Nat → Option β × World β
  | 0, _ => (none, w)
  | i + 1, que =>
      match w.q.qfirst que with
      | some buf =>
          let w := setFirst w que (w.link3 buf)
          let w := if w.link3 buf = none then setLast w que none else w
          let w := if i + 1 < IF_PRIORITIES then setCurr w (SET_QUEUE que) else w
          let w := setCurr w (INC_QUEUE w.q.curr que)
          (some buf, setQlen w (w.q.qlen - 1))
      | none => dequeueLoop w i ((que + 1) % IF_PRIORITIES)

def ifDequeue (w : World β) : Option β × World β :=
  if 0 < w.q.qlen then dequeueLoop w IF_PRIORITIES (GET_QUEUE w.q.curr) else (none, w)

-- for (buf = q->qfirst[i]; buf; buf = next)
def flushLoop : Nat → World β → Option β → Outcome (World β)
  | 0, _, _ => .running
  | _ + 1, w, none => .ret w
  | fuel + 1, w, some buf => flushLoop fuel (bufDeref w buf) (w.link3 buf)

def flushPri (fuel : Nat) (w : World β) (i : Nat) : Outcome (World β) :=
  (flushLoop fuel w (w.q.qfirst i)).bind fun w => .ret (setFirst (setLast w i none) i none)

def ifFlushq (fuel : Nat) (w : World β) : Outcome (World β) :=
  (flushPri fuel w 0).bind fun w => (flushPri fuel w 1).bind fun w => .ret (setQlen w 0)

inductive Op (β : Type) where
  | enqueue (buf : β) (pri : BitVec 16)
  | putback (buf : β) (pri : BitVec 16)
  | dequeue
  | flushq
  | setLink (buf : β) (next : Option β)
deriving DecidableEq, Repr

inductive Answer (β : Type) where
  | code (r : Int)
  | got (buf : Option β)
  | done
deriving DecidableEq, Repr

-- setLink is what the owner of a buffer does with its link3 outside the queue.
def step (fuel : Nat) (w : World β) : Op β → Outcome (Answer β × World β)
  | .enqueue buf pri => .ret (.code (ifEnqueue w buf pri).1, (ifEnqueue w buf pri).2)
  | .putback buf pri => .ret (.code (ifPutback w buf pri).1, (ifPutback w buf pri).2)
  | .dequeue => .ret (.got (ifDequeue w).1, (ifDequeue w).2)
  | .flushq => (ifFlushq fuel w).bind fun w => .ret (.done, w)
  | .setLink buf next => .ret (.done, setLink3 w buf next)

-- The buffer can be reached from one of the two heads.
def Inside (w : World β) (buf : β) : Prop :=
  ∃ p < IF_PRIORITIES, ∃ l, Singly.Linked w.link3 (w.q.qfirst p) l ∧ buf ∈ l

-- Whoever puts a buffer on the queue, or writes its link, owns it.
def Op.Allowed (w : World β) : Op β → Prop
  | .enqueue buf _ | .putback buf _ | .setLink buf _ => ¬ Inside w buf
  | _ => True

inductive Reached (start : World β) : List (Op β × Answer β) → World β → Prop where
  | start : Reached start [] start
  | step (fuel : Nat) (trace : List (Op β × Answer β)) (w w' : World β) (op : Op β) (answer : Answer β)
      (before : Reached start trace w) (allowed : op.Allowed w) (run : step fuel w op = .ret (answer, w')) :
      Reached start (trace ++ [(op, answer)]) w'

-- if_register, or what a driver sets up statically: curr need not be initialised.
structure Fresh (w : World β) : Prop where
  room : 0 ≤ w.q.maxqlen
  none_queued : w.q.qlen = 0
  firsts : ∀ p < IF_PRIORITIES, w.q.qfirst p = none
  lasts : ∀ p < IF_PRIORITIES, w.q.qlast p = none

end Queue

-- What the queue is for: one line of buffers for each priority. passed counts the dequeues in a row that found
-- someone in a line and served another one.
structure Lanes (β : Type) where
  lane : Nat → List β
  passed : Nat → Nat

section Lanes

variable {β : Type}

def Lanes.all (l : Lanes β) : List β := l.lane 0 ++ l.lane 1

def nobody : Lanes β := ⟨fun _ => [], fun _ => 0⟩

def Lanes.put (l : Lanes β) (p : Nat) (line : List β) : Lanes β := { l with lane := Function.update l.lane p line }

def Lanes.serve (l : Lanes β) (p : Nat) (rest : List β) : Lanes β where
  lane := Function.update l.lane p rest
  passed r := if r = p ∨ l.lane r = [] then 0 else l.passed r + 1

-- A buffer that does not fit any more is dereferenced, and nothing else happens.
def Admits (max : Int) (l : Lanes β) (buf : β) (next : Lanes β) (r : Int) (derefs : List β) (l' : Lanes β) : Prop :=
  if l.all.length < max then r = 0 ∧ derefs = [] ∧ l' = next else r = ENOMEM ∧ derefs = [buf] ∧ l' = l

-- What an operation answers, which buffers it dereferences, and what it does to the lines.
def Spec (max : Int) (l : Lanes β) : Op β → Answer β → List β → Lanes β → Prop
  | .enqueue buf pri, .code r, derefs, l' => Admits max l buf (l.put (lane pri) (l.lane (lane pri) ++ [buf])) r derefs l'
  | .putback buf pri, .code r, derefs, l' => Admits max l buf (l.put (lane pri) (buf :: l.lane (lane pri))) r derefs l'
  | .dequeue, .got none, derefs, l' => l.all = [] ∧ derefs = [] ∧ l' = l
  | .dequeue, .got (some buf), derefs, l' =>
      derefs = [] ∧ ∃ p < IF_PRIORITIES, ∃ rest, l.lane p = buf :: rest ∧ l' = l.serve p rest
  | .flushq, .done, derefs, l' => derefs = l.all ∧ l' = { l with lane := fun _ => [] }
  | .setLink _ _, .done, derefs, l' => derefs = [] ∧ l' = l
  | _, _, _, _ => False

inductive SpecRun (max : Int) : List (Op β × Answer β) → List β → Lanes β → Prop where
  | start : SpecRun max [] [] nobody
  | step (trace : List (Op β × Answer β)) (derefs more : List β) (l l' : Lanes β) (op : Op β) (answer : Answer β)
      (before : SpecRun max trace derefs l) (next : Spec max l op answer more l') :
      SpecRun max (trace ++ [(op, answer)]) (derefs ++ more) l'

-- How many dequeues may still pass the line p: the turn goes 0, 1, 1.
def slack (curr : BitVec 16) (p : Nat) : Nat :=
  let c := curr.toNat % 4
  if p = 0 then (if c < 2 then 0 else 4 - c) else (if c < 2 then 1 else 0)

-- The lists in memory are the lines.
structure Shows (w : World β) (l : Lanes β) : Prop where
  queued : ∀ p < IF_PRIORITIES, Queued w.link3 (w.q.qfirst p) (w.q.qlast p) (l.lane p)
  once : l.all.Nodup
  count : w.q.qlen = l.all.length
  room : w.q.qlen ≤ w.q.maxqlen
  fair : ∀ p < IF_PRIORITIES, l.passed p + slack w.q.curr p ≤ 2

end Lanes

theorem get_queue_nat (curr : BitVec 16) : GET_QUEUE curr = curr.toNat / 2 % 2 := by
  have one : BitVec.ofNat 16 (IF_PRIORITIES - 1) = 1#16 := rfl
  rw [GET_QUEUE, one, BitVec.toNat_and, BitVec.toNat_ofNat, Nat.one_mod, Nat.and_one_is_mod]
  cases sign : curr.msb with
  | false =>
      rw [BitVec.sshiftRight_eq_of_msb_false sign, BitVec.toNat_ushiftRight, Nat.shiftRight_eq_div_pow]
      rfl
  | true =>
      rw [BitVec.sshiftRight_eq_of_msb_true sign, BitVec.toNat_not, BitVec.toNat_ushiftRight, BitVec.toNat_not,
        Nat.shiftRight_eq_div_pow, show 2 ^ IF_PRIORITY_BITS = 2 from rfl]
      have := curr.isLt
      omega

theorem inc_queue_nat (curr : BitVec 16) (n : Nat) (bound : n < IF_PRIORITIES) :
    (INC_QUEUE curr n).toNat % 4 = (curr.toNat + (2 - n)) % 4 := by
  rw [INC_QUEUE, BitVec.toNat_add, BitVec.toNat_ofNat]
  have two : IF_PRIORITIES = 2 := rfl
  omega

theorem priorities (p : Nat) (bound : p < IF_PRIORITIES) : p = 0 ∨ p = 1 := by
  have two : IF_PRIORITIES = 2 := rfl
  omega

theorem get_queue_lt (curr : BitVec 16) : GET_QUEUE curr < IF_PRIORITIES := by
  rw [get_queue_nat]
  exact Nat.mod_lt _ (by decide)

theorem lane_lt (pri : BitVec 16) : lane pri < IF_PRIORITIES := by
  rw [lane]
  split
  · decide
  · omega

theorem slack_le (curr : BitVec 16) (p : Nat) : slack curr p ≤ 2 := by
  rw [slack]
  split <;> split <;> omega

-- A dequeue that serves the line whose turn it is comes closer to the other one.
theorem slack_inc (curr : BitVec 16) (p : Nat) (bound : p < IF_PRIORITIES) (other : p ≠ GET_QUEUE curr) :
    slack (INC_QUEUE curr (GET_QUEUE curr)) p + 1 = slack curr p := by
  have counted := inc_queue_nat curr _ (get_queue_lt curr)
  have two : IF_PRIORITIES = 2 := rfl
  rw [get_queue_nat] at other counted ⊢
  rw [slack, slack, counted]
  by_cases low : p = 0
  · rw [if_pos low, if_pos low]
    split <;> split <;> omega
  · rw [if_neg low, if_neg low]
    split <;> split <;> omega

section Lines

variable {β : Type} (l : Lanes β)

theorem mem_all_iff (a : β) : a ∈ l.all ↔ ∃ p < IF_PRIORITIES, a ∈ l.lane p := by
  rw [Lanes.all, List.mem_append]
  constructor
  · rintro (low | high)
    · exact ⟨0, by decide, low⟩
    · exact ⟨1, by decide, high⟩
  · rintro ⟨p, bound, inside⟩
    obtain rfl | rfl := priorities p bound
    · exact Or.inl inside
    · exact Or.inr inside

theorem lanes_apart (once : l.all.Nodup) (p r : Nat) (a : β) (bound : p < IF_PRIORITIES) (bound' : r < IF_PRIORITIES) (other : r ≠ p)
    (inside : a ∈ l.lane p) : a ∉ l.lane r := by
  obtain ⟨_, _, apart⟩ := List.nodup_append.mp once
  intro again
  obtain rfl | rfl := priorities p bound <;> obtain rfl | rfl := priorities r bound'
  · exact other rfl
  · exact apart a inside a again rfl
  · exact apart a again a inside rfl
  · exact other rfl

theorem put_all (p : Nat) (buf : β) (line : List β) (bound : p < IF_PRIORITIES) (more : line.Perm (buf :: l.lane p)) :
    (l.put p line).all.Perm (buf :: l.all) := by
  rw [Lanes.all, Lanes.put, Lanes.all]
  dsimp only
  obtain rfl | rfl := priorities p bound
  · rw [Function.update_self, Function.update_of_ne (by decide)]
    exact more.append_right _
  · rw [Function.update_self, Function.update_of_ne (by decide)]
    exact (more.append_left _).trans List.perm_middle

theorem serve_all (p : Nat) (buf : β) (rest : List β) (bound : p < IF_PRIORITIES) (line : l.lane p = buf :: rest) :
    l.all.Perm (buf :: (l.serve p rest).all) := by
  rw [Lanes.all, Lanes.all, Lanes.serve]
  dsimp only
  obtain rfl | rfl := priorities p bound
  · rw [Function.update_self, Function.update_of_ne (by decide), line]
    rfl
  · rw [Function.update_self, Function.update_of_ne (by decide), line]
    exact List.perm_middle

end Lines

end MagxNet.Iface
