import MagxNet.Lib.Bytes
import MagxNet.Tcp.Run

set_option autoImplicit false

namespace MagxNet.Tcp

open Bytes

def IOV_MAX : Nat := 16

-- One piece of the memory of a process, and its length, a size_t.
structure Iovec where
  base : Nat
  len : BitVec 32
deriving DecidableEq, Repr

def contents (mem : Nat → Byte) (iov : List Iovec) : Buffer := iov.flatMap fun v => peek mem v.base v.len.toNat

-- The loop in iov_size; the sum is a long.
def iovSum : BitVec 32 → List Iovec → Int
  | size, [] => size.toInt
  | size, v :: rest => if v.len.toInt < 0 then -1 else iovSum (size + v.len) rest

-- A niov that is not positive is an empty list here.
def iovSize (iov : List Iovec) : Int :=
  if iov = [] ∨ iov.length > IOV_MAX then -1 else iovSum 0 iov

-- The first loop in iov2buf_cpy: what is left to skip, the piece it came past last, and the pieces behind.
def skipIov : Int → Option Iovec → List Iovec → Int × Option Iovec × List Iovec
  | skip, last, [] => (skip, last, [])
  | skip, last, v :: rest => if skip > 0 then skipIov (skip - v.len.toInt) (some v) rest else (skip, last, v :: rest)

def copyIov (mem : Nat → Byte) : Int → List Iovec → Buffer
  | _, [] => []
  | todo, v :: rest =>
      if todo > 0 then peek mem v.base (min todo v.len.toInt).toNat ++ copyIov mem (todo - min todo v.len.toInt) rest else []

-- More was skipped than the pieces so far hold: the last one begins with what to skip.
def copySkipped (mem : Nat → Byte) (todo : Int) : Int × Option Iovec × List Iovec → Buffer
  | (skip, some v, rest) =>
      if skip < 0 then
        peek mem (v.base + (skip + v.len.toInt).toNat) (min (-skip) todo).toNat ++ copyIov mem (todo - min (-skip) todo) rest
      else copyIov mem todo rest
  | (_, none, rest) => copyIov mem todo rest

def iov2bufCpy (mem : Nat → Byte) (nbytes : Int) (iov : List Iovec) (skip : Int) : Buffer :=
  if iov = [] ∨ nbytes ≤ 0 ∨ skip < 0 then [] else copySkipped mem nbytes (skipIov skip none iov)

-- The arguments of tcp_send; the memory of the process stays as it is while the call runs.
structure SendArgs where
  mem : Nat → Byte
  iov : List Iovec
  oob : Bool
  nonblock : Bool

def SendArgs.flags (a : SendArgs) : Flags := if a.oob then TCPF_URG else Flags.none

-- What tcp_send keeps while it runs: how many bytes it has passed on, and the seq_write it began with.
structure Progress where
  offset : Nat
  seqWrite : Seq
deriving DecidableEq, Repr

inductive SendPhase where
  | running (p : Progress)
  | asleep (p : Progress)
  | returned (r : Int)
deriving DecidableEq, Repr

def sendEnter (w : World) (a : SendArgs) : SendPhase :=
  if iovSize a.iov = 0 then .returned 0
  else if iovSize a.iov < 0 then .returned EINVAL
  else if w.tcb.state.num ≤ TcbState.listen.num then .returned ENOTCONN
  else .running ⟨0, w.tcb.seqWrite⟩

def sendAvail (w : World) (a : SendArgs) (p : Progress) : Nat := (min (tcpCanwrite w) (iovSize a.iov - p.offset)).toNat

-- What tcp_output is given: it copies its segments out of the iovec one by one.
def sendSlice (w : World) (a : SendArgs) (p : Progress) : Buffer := iov2bufCpy a.mem (sendAvail w a p) a.iov p.offset

-- Once tcp_output has failed, the count is taken from seq_write.
def sendFailed (w : World) (p : Progress) (r : Int) : Int :=
  if SEQLT p.seqWrite w.tcb.seqWrite then (w.tcb.seqWrite - p.seqWrite).toInt else r

-- From the head of the loop to its end, or to a sleep.
def sendTurn (env : Env) (w : World) (a : SendArgs) (p : Progress) : SendPhase × World :=
  if iovSize a.iov ≤ p.offset then (.returned p.offset, w)
  else if (connected w ∧ tcpCanwrite w ≤ 0) ∨ connecting w then
    (if a.nonblock then .returned (if p.offset ≠ 0 then p.offset else EAGAIN) else .asleep p, w)
  else if ¬ connected w then (.returned EPIPE, w)
  else match tcpOutput env w (sendSlice w a p) a.flags with
    | (r, w1) => (if r < 0 then .returned (sendFailed w1 p r) else .running ⟨p.offset + sendAvail w a p, p.seqWrite⟩, w1)

-- Behind the sleep, which of itself tells of no interruption here.
def sendWake (w : World) (p : Progress) (interrupted : Bool) : SendPhase × World :=
  if interrupted then (.returned (if p.offset ≠ 0 then p.offset else EINTR), w)
  else if w.data.err ≠ 0 then (.returned w.data.err, clearErr w)
  else if w.data.sock.any (fun so => so.cantsndmore) then (.returned EPIPE, w)
  else (.running p, w)

-- A connection with one call of tcp_send under way; own is what this call has put into the stream.
structure Sending where
  world : World
  own : List Item
  phase : SendPhase

inductive SendMove where
  | turn (env : Env)
  | wake (interrupted : Bool)
  | other (env : Env) (op : Op)

def afterTurn (env : Env) (x : Sending) (a : SendArgs) (p : Progress) : Sending :=
  let done := sendTurn env x.world a p
  ⟨done.2, x.own ++ done.2.stream.drop x.world.stream.length, done.1⟩

-- While the call sleeps, all kinds of things happen to the connection.
def sendMove (a : SendArgs) (x : Sending) : SendMove → Sending
  | .turn env => match x.phase with
      | .running p => afterTurn env x a p
      | _ => x
  | .wake interrupted => match x.phase with
      | .asleep p => ⟨(sendWake x.world p interrupted).2, x.own, (sendWake x.world p interrupted).1⟩
      | _ => x
  | .other env op => match x.phase with
      | .asleep _ => { x with world := step env x.world op }
      | _ => x

@[simp] theorem contents_nil (mem : Nat → Byte) : contents mem [] = [] := rfl

@[simp] theorem contents_cons (mem : Nat → Byte) (v : Iovec) (rest : List Iovec) :
    contents mem (v :: rest) = peek mem v.base v.len.toNat ++ contents mem rest := rfl

-- The lengths that iov_size lets pass.
def SizedIov (iov : List Iovec) : Prop := ∀ v ∈ iov, 0 ≤ v.len.toInt

theorem sized_length (v : Iovec) (sized : 0 ≤ v.len.toInt) : v.len.toInt = v.len.toNat := by
  rw [BitVec.toInt_eq_toNat_cond] at sized ⊢
  split <;> omega

theorem iov_sum_sized (iov : List Iovec) (size : BitVec 32) (sum : 0 ≤ iovSum size iov) : SizedIov iov := by
  induction iov generalizing size with
  | nil => exact fun v member => by cases member
  | cons v rest ih =>
      rw [iovSum] at sum
      split at sum
      · omega
      · rename_i fits
        intro u member
        obtain rfl | later := List.mem_cons.mp member
        · omega
        · exact ih _ sum u later

-- The sum may go round; it is never more than there is.
theorem iov_sum_within (mem : Nat → Byte) (iov : List Iovec) (size : BitVec 32) (sum : 0 ≤ iovSum size iov) :
    iovSum size iov ≤ size.toNat + (contents mem iov).length := by
  induction iov generalizing size with
  | nil =>
      have here := BitVec.toInt_eq_toNat_cond size
      rw [iovSum, contents_nil, List.length_nil]
      split at here <;> omega
  | cons v rest ih =>
      rw [iovSum] at sum ⊢
      split at sum
      · omega
      · rename_i fits
        rw [if_neg fits, contents_cons, List.length_append, peek_length]
        have later := ih _ sum
        have added := Nat.mod_le (size.toNat + v.len.toNat) (2 ^ 32)
        rw [BitVec.toNat_add] at later
        omega

theorem iov_size_sized (iov : List Iovec) (some : 0 ≤ iovSize iov) : SizedIov iov := by
  unfold iovSize at some
  split at some
  · omega
  · exact iov_sum_sized iov 0 some

theorem iov_size_within (mem : Nat → Byte) (iov : List Iovec) (some : 0 ≤ iovSize iov) :
    iovSize iov ≤ (contents mem iov).length := by
  unfold iovSize at some ⊢
  split at some
  · omega
  · rename_i few
    have within := iov_sum_within mem iov 0 some
    rw [if_neg few]
    simpa using within

theorem copy_iov_take (mem : Nat → Byte) (iov : List Iovec) (sized : SizedIov iov) (todo : Nat) :
    copyIov mem todo iov = (contents mem iov).take todo := by
  induction iov generalizing todo with
  | nil => simp [copyIov]
  | cons v rest ih =>
      have length := sized_length v (sized v (List.mem_cons_self ..))
      rw [copyIov, contents_cons, length]
      split
      · have left : (todo : Int) - min (todo : Int) v.len.toNat = ((todo - v.len.toNat : Nat) : Int) := by omega
        have here : (min (todo : Int) v.len.toNat).toNat = min todo v.len.toNat := by omega
        rw [left, ih (fun u member => sized u (List.mem_cons_of_mem _ member)), here, List.take_append, peek_length]
        congr 1
        obtain less | more := Nat.le_total todo v.len.toNat
        · rw [Nat.min_eq_left less, peek_take _ _ _ _ less]
        · rw [Nat.min_eq_right more, List.take_of_length_le (by rw [peek_length]; exact more)]
      · rename_i none
        have zero : todo = 0 := by omega
        rw [zero, List.take_zero]

theorem copy_whole (mem : Nat → Byte) (todo skip : Int) (last : Option Iovec) (rest : List Iovec) (none : 0 ≤ skip) :
    copySkipped mem todo (skip, last, rest) = copyIov mem todo rest := by
  cases last with
  | none => rfl
  | some v => rw [copySkipped, if_neg (by omega)]

theorem copy_rest (mem : Nat → Byte) (v : Iovec) (rest : List Iovec) (sized : SizedIov (v :: rest)) (skip todo : Nat)
    (inside : skip < v.len.toNat) :
    copySkipped mem todo (skip - v.len.toInt, some v, rest) = ((contents mem (v :: rest)).drop skip).take todo := by
  have length := sized_length v (sized v (List.mem_cons_self ..))
  have some : (skip : Int) - v.len.toInt < 0 := by omega
  rw [copySkipped, if_pos some, length]
  have start : ((skip : Int) - v.len.toNat + v.len.toNat).toNat = skip := by omega
  have part : (min (-((skip : Int) - v.len.toNat)) todo).toNat = min (v.len.toNat - skip) todo := by omega
  have left : (todo : Int) - min (-((skip : Int) - v.len.toNat)) todo = ((todo - (v.len.toNat - skip) : Nat) : Int) := by
    omega
  have split : v.len.toNat = skip + (v.len.toNat - skip) := by omega
  rw [start, part, left, copy_iov_take mem rest fun u member => sized u (List.mem_cons_of_mem _ member), contents_cons,
    List.drop_append_of_le_length (by rw [peek_length]; exact inside.le), List.take_append, List.length_drop, peek_length]
  congr 1
  conv_rhs => rw [split, peek_drop]
  obtain less | more := Nat.le_total todo (v.len.toNat - skip)
  · rw [Nat.min_eq_right less, peek_take _ _ _ _ less]
  · rw [Nat.min_eq_left more, List.take_of_length_le (by rw [peek_length]; exact more)]

theorem skip_iov_slice (mem : Nat → Byte) (iov : List Iovec) (sized : SizedIov iov) (last : Option Iovec) (skip todo : Nat) :
    copySkipped mem todo (skipIov skip last iov) = ((contents mem iov).drop skip).take todo := by
  induction iov generalizing last skip with
  | nil =>
      rw [skipIov, copy_whole _ _ _ _ _ (Int.natCast_nonneg _), contents_nil, List.drop_nil, List.take_nil]
      rfl
  | cons v rest ih =>
      have length := sized_length v (sized v (List.mem_cons_self ..))
      have later : SizedIov rest := fun u member => sized u (List.mem_cons_of_mem _ member)
      rw [skipIov]
      split
      · obtain inside | beyond := Nat.lt_or_ge skip v.len.toNat
        · have stops : skipIov (skip - v.len.toInt) (some v) rest = (skip - v.len.toInt, some v, rest) := by
            cases rest with
            | nil => rfl
            | cons u rest => rw [skipIov, if_neg (by omega)]
          rw [stops, copy_rest mem v rest sized skip todo inside]
        · have left : (skip : Int) - v.len.toInt = ((skip - v.len.toNat : Nat) : Int) := by omega
          have passed : (peek mem v.base v.len.toNat).drop skip = [] :=
            List.drop_eq_nil_of_le (by rw [peek_length]; exact beyond)
          rw [left, ih later, contents_cons, List.drop_append, passed, List.nil_append, peek_length]
      · rename_i none
        have zero : skip = 0 := by omega
        rw [copy_whole _ _ _ _ _ (Int.natCast_nonneg _), copy_iov_take mem _ sized, zero, List.drop_zero]

-- iov2buf_cpy cuts a piece out of what the user writes.
theorem iov2buf_slice (mem : Nat → Byte) (iov : List Iovec) (sized : SizedIov iov) (nbytes skip : Nat) :
    iov2bufCpy mem nbytes iov skip = ((contents mem iov).drop skip).take nbytes := by
  unfold iov2bufCpy
  split
  · rename_i none
    obtain empty | few | before := none
    · rw [empty, contents_nil, List.drop_nil, List.take_nil]
    · rw [show nbytes = 0 by omega, List.take_zero]
    · omega
  · exact skip_iov_slice mem iov sized none skip nbytes

-- Copied one by one, the segments of tcp_output hold what is here passed to it at once.
theorem iov2buf_pieces (mem : Nat → Byte) (iov : List Iovec) (sized : SizedIov iov) (avail offset k r : Nat)
    (inside : k + r ≤ avail) :
    iov2bufCpy mem r iov (offset + k : Nat) = ((iov2bufCpy mem avail iov offset).drop k).take r := by
  rw [iov2buf_slice mem iov sized, iov2buf_slice mem iov sized, List.drop_take, List.take_take, List.drop_drop,
    Nat.min_eq_left (by omega)]

end MagxNet.Tcp
