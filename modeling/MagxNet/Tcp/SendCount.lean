import MagxNet.Tcp.Appending
import MagxNet.Tcp.Callers
import MagxNet.Tcp.Sending

set_option autoImplicit false

namespace MagxNet.Tcp

open Bytes Serial

-- A process has the socket in hand; accept(2) gives one away only once the handshake is over.
structure InHand (w : World) : Prop where
  alive : w.alive
  sock : w.data.sock.isSome
  taken : w.tcb.flags.passive → ¬ connecting w

theorem connecting_state (w : World) : connecting w ↔ w.tcb.state = .synsent ∨ w.tcb.state = .synrcvd := by
  simp [connecting]

theorem in_hand_stays (w w' : World) (stays : Stays (standing w) (standing w')) (hand : InHand w) : InHand w' where
  alive := by
    by_contra gone
    obtain dead | alone := stays.freed (Bool.eq_false_iff.mpr gone)
    · exact Bool.eq_false_iff.mp dead hand.alive
    · exact Option.isSome_iff_ne_none.mp hand.sock alone
  sock := by
    have sock := hand.sock
    rw [Option.isSome_iff_ne_none] at sock ⊢
    exact fun gone => sock ((sock_kept_none _ _ stays.sock).mpr gone)
  taken := by
    intro passive
    have same : w'.tcb.flags.passive = w.tcb.flags.passive := stays.passive
    have later := hand.taken (by rw [← same]; exact passive)
    rw [connecting_state] at later ⊢
    rintro (asks | half)
    · exact later (Or.inl ((stays.opens (Or.inr asks)).symm.trans asks))
    · obtain asked | ⟨half', -⟩ := stays.half half
      · exact later (Or.inl asked)
      · exact later (Or.inr half')

theorem in_hand_segment (env : Env) (w : World) (pkt : Pkt) (duplicate : Bool) (talks : w.tcb.state ≠ .listen)
    (hand : InHand w) : InHand (inputFound env w pkt duplicate) := by
  obtain stays | ⟨passive, half, -⟩ := input_stays env w pkt duplicate talks
  · exact in_hand_stays w _ stays hand
  · exact (hand.taken passive ((connecting_state w).mpr (Or.inr half))).elim

theorem in_hand_accept (w : World) (hand : InHand w) : InHand (tcpAccept w) := by
  unfold tcpAccept
  split
  · exact ⟨hand.alive, rfl, hand.taken⟩
  · exact hand

theorem in_hand_step (env : Env) (w : World) (op : Op) (talks : w.tcb.state ≠ .listen) (stays : op ≠ .detach)
    (hand : InHand w) : InHand (step env w op) := by
  have calls : ∀ w', Stays (standing w) (standing w') → InHand w' := fun w' stays => in_hand_stays w w' stays hand
  have held : ∀ w', InHand w' → InHand (if w.data.sock.isSome then w' else w) := by
    intro w' hand'
    rw [if_pos hand.sock]
    exact hand'
  unfold step
  rw [if_pos hand.alive]
  cases op with
  | segment pkt duplicate => exact in_hand_segment env w pkt duplicate talks hand
  | error id error => exact calls _ (stays_error w id error)
  | wakeme => exact calls _ (stays_timer env w .wakeme (Or.inl rfl))
  | deleteme => exact calls _ (stays_timer env w .deleteme (Or.inr (Or.inl rfl)))
  | dodelack => exact calls _ (stays_timer env w .dodelack (Or.inr (Or.inr rfl)))
  | tick delta => exact calls _ (stays_refl _)
  | detach => exact (stays rfl).elim
  | accept => exact held _ (in_hand_accept w hand)
  | recv args => exact held _ (calls _ (stays_recv env w args))
  | recvWoken args => exact held _ (calls _ (stays_recv_woken env w args))
  | send bytes oob => exact held _ (calls _ (stays_send env w bytes oob))
  | sendWoken bytes oob => exact held _ (calls _ (stays_send_woken env w bytes oob))
  | shutdown how => exact held _ (calls _ (stays_shutdown env w how))
  | rcvbuf val => exact held _ (calls _ (stays_rcvbuf w val))
  | sndbuf val => exact held _ (calls _ (stays_sndbuf w val))
  | nodelay set => exact held _ (calls _ (stays_refl _))
  | oobinline set => exact held _ (calls _ (stays_refl _))
  | takeErr => exact held _ (calls _ (stays_refl _))

-- Acks are for what was sent, and no process closes a socket that another one is writing to.
def Orderly (x : Sending) : SendMove → Prop
  | .other env op => Sane env x.world op ∧ op ≠ .detach
  | _ => True

-- Every call of tcp_send, whatever else happens to the connection while it sleeps.
inductive Calls (allowed : Sending → SendMove → Prop) (a : SendArgs) : Sending → Prop
  | enter (w : World) : Reach Sane w → InHand w → Calls allowed a ⟨w, [], sendEnter w a⟩
  | move (x : Sending) (m : SendMove) : Calls allowed a x → allowed x m → Calls allowed a (sendMove a x m)

-- What is still to be written.
def sendRest (a : SendArgs) (p : Progress) : Buffer := ((contents a.mem a.iov).take (iovSize a.iov).toNat).drop p.offset

theorem canwrite_nonneg (w : World) : 0 ≤ tcpCanwrite w := by
  unfold tcpCanwrite
  split
  · exact le_refl 0
  · exact le_max_right _ _

theorem send_slice_eq (w : World) (a : SendArgs) (p : Progress) (more : p.offset < iovSize a.iov) :
    sendSlice w a p = ((contents a.mem a.iov).drop p.offset).take (sendAvail w a p) :=
  iov2buf_slice a.mem a.iov (iov_size_sized a.iov (by omega)) _ _

theorem send_slice_rest (w : World) (a : SendArgs) (p : Progress) (more : p.offset < iovSize a.iov) :
    sendSlice w a p = (sendRest a p).take (tcpCanwrite w).toNat := by
  have some := canwrite_nonneg w
  rw [send_slice_eq w a p more, sendRest, List.drop_take, List.take_take, sendAvail]
  congr 1
  omega

theorem send_rest_empty (a : SendArgs) (p : Progress) : (sendRest a p).isEmpty ↔ iovSize a.iov ≤ p.offset := by
  have within : 0 ≤ iovSize a.iov → iovSize a.iov ≤ (contents a.mem a.iov).length := iov_size_within a.mem a.iov
  rw [List.isEmpty_iff, sendRest, List.drop_eq_nil_iff, List.length_take]
  omega

theorem not_ready (w : World) (few : w.tcb.state.num ≤ TcbState.listen.num) : ¬ connected w ∧ ¬ connecting w := by
  unfold connected connecting
  cases state : w.tcb.state <;> rw [state] at few <;> first | decide | exact absurd few (by decide)

-- A turn does to the connection what a call of tcp_send with the rest does before it sleeps.
theorem turn_world (env : Env) (w : World) (a : SendArgs) (p : Progress) :
    (sendTurn env w a p).2 = (tcpSend env w (sendRest a p) a.oob).2 := by
  unfold sendTurn tcpSend
  by_cases done : iovSize a.iov ≤ p.offset
  · rw [if_pos done, if_pos ((send_rest_empty a p).mpr done)]
  · rw [if_neg done, if_neg (fun empty => done ((send_rest_empty a p).mp empty))]
    by_cases few : w.tcb.state.num ≤ TcbState.listen.num
    · obtain ⟨closed, quiet⟩ := not_ready w few
      rw [if_pos few, if_neg (by tauto), if_pos closed]
    · rw [if_neg few, sendRound, ← send_slice_rest w a p (not_le.mp done)]
      by_cases blocked : (connected w ∧ tcpCanwrite w ≤ 0) ∨ connecting w
      · rw [if_pos blocked, if_pos blocked]
      · rw [if_neg blocked, if_neg blocked]
        split
        · rfl
        · rfl

theorem turn_step (env : Env) (w : World) (a : SendArgs) (p : Progress) (hand : InHand w) :
    (sendTurn env w a p).2 = step env w (.send (sendRest a p) a.oob) := by
  rw [turn_world, step, if_pos hand.alive]
  exact (if_pos hand.sock).symm

theorem wake_step (env : Env) (w : World) (p : Progress) (interrupted : Bool) (hand : InHand w) :
    (sendWake w p interrupted).2 = w ∨ (sendWake w p interrupted).2 = step env w .takeErr := by
  unfold sendWake
  split
  · exact Or.inl rfl
  · split
    · right
      rw [step, if_pos hand.alive]
      exact (if_pos hand.sock).symm
    · split <;> exact Or.inl rfl

theorem sane_call (env : Env) (w : World) (op : Op) (call : ∀ pkt duplicate, op ≠ .segment pkt duplicate) : Sane env w op :=
  fun pkt duplicate same => (call pkt duplicate same).elim

theorem reach_hand_step (env : Env) (w : World) (op : Op) (sane : Sane env w op) (stays : op ≠ .detach)
    (good : Reach Sane w ∧ InHand w) : Reach Sane (step env w op) ∧ InHand (step env w op) := by
  have booked := reach_booked Sane (fun _ _ _ sane => sane) w good.1
  exact ⟨.step env w op good.1 sane,
    in_hand_step env w op (booked_not_listen w good.2.alive booked) stays good.2⟩

-- All that the call does are steps of the connection.
theorem calls_reach (allowed : Sending → SendMove → Prop) (orderly : ∀ x m, allowed x m → Orderly x m) (a : SendArgs)
    (x : Sending) (calls : Calls allowed a x) : Reach Sane x.world ∧ InHand x.world := by
  induction calls with
  | enter w reached hand => exact ⟨reached, hand⟩
  | move x m _ ok ih =>
      cases m with
      | turn env =>
          dsimp only [sendMove]
          split
          · rename_i p _
            show Reach Sane (sendTurn env x.world a p).2 ∧ InHand (sendTurn env x.world a p).2
            rw [turn_step env x.world a p ih.2]
            exact reach_hand_step env x.world _ (sane_call _ _ _ fun _ _ h => by cases h) (fun h => by cases h) ih
          · exact ih
      | wake interrupted =>
          dsimp only [sendMove]
          split
          · rename_i p _
            obtain same | took := wake_step plainEnv x.world p interrupted ih.2
            · rw [same]
              exact ih
            · rw [took]
              exact reach_hand_step _ x.world _ (sane_call _ _ _ fun _ _ h => by cases h) (fun h => by cases h) ih
          · exact ih
      | other env op =>
          obtain ⟨sane, stays⟩ := orderly _ _ ok
          dsimp only [sendMove]
          split
          · exact reach_hand_step env x.world op sane stays ih
          · exact ih

-- What a call has put into the stream is the beginning of its data, and its result says how much that is.
structure Accounted (a : SendArgs) (x : Sending) : Prop where
  written : x.own <+: (contents a.mem a.iov).map .byte
  count : ∀ r, x.phase = .returned r → 0 ≤ r → r = x.own.length
  refused : ∀ r, x.phase = .returned r → r < 0 → x.own = []
  queue : QueueSound x.world

-- A call that has passed something on does not come upon an error, a closed direction or the end of the
-- connection; and where memory runs out nothing but its own bytes has been written since it began.
def Counts (a : SendArgs) (x : Sending) : SendMove → Prop
  | .turn env => ∀ p, x.phase = .running p → p.offset < iovSize a.iov →
      (¬ connected x.world → ¬ connecting x.world → p.offset = 0)
        ∧ (connected x.world → Starved env x.world (sendAvail x.world a p) a.flags →
          x.world.tcb.seqWrite = p.seqWrite + BitVec.ofNat 32 p.offset)
  | .wake interrupted => ∀ p, x.phase = .asleep p → interrupted = false →
      (x.world.data.err ≠ 0 → p.offset = 0 ∧ x.world.data.err < 0)
        ∧ (x.world.data.err = 0 → (x.world.data.sock.any fun so => so.cantsndmore) → p.offset = 0)
  | .other _ _ => True

def Careful (a : SendArgs) (x : Sending) (m : SendMove) : Prop := Orderly x m ∧ Counts a x m

-- The account while the call runs, and when it is over.
def Underway (a : SendArgs) (own : List Item) (p : Progress) : Prop :=
  0 < iovSize a.iov ∧ p.offset ≤ iovSize a.iov ∧ own = ((contents a.mem a.iov).take p.offset).map .byte

def Over (a : SendArgs) (own : List Item) (r : Int) : Prop :=
  own <+: (contents a.mem a.iov).map .byte ∧ (0 ≤ r → r = own.length) ∧ (r < 0 → own = [])

def Tally (a : SendArgs) (own : List Item) : SendPhase → Prop
  | .running p => Underway a own p
  | .asleep p => Underway a own p
  | .returned r => Over a own r

theorem taken_begins (data : Buffer) (n : Nat) : (data.take n).map Item.byte <+: data.map Item.byte :=
  (List.take_prefix n data).map _

theorem going_length (a : SendArgs) (own : List Item) (p : Progress) (going : Underway a own p) : own.length = p.offset := by
  obtain ⟨some, within, rfl⟩ := going
  have there := iov_size_within a.mem a.iov some.le
  rw [List.length_map, List.length_take]
  omega

theorem over_count (a : SendArgs) (own : List Item) (p : Progress) (going : Underway a own p) : Over a own p.offset := by
  have length := going_length a own p going
  refine ⟨?_, fun _ => by rw [length], fun before => by omega⟩
  rw [going.2.2]
  exact taken_begins _ _

theorem over_error (a : SendArgs) (own : List Item) (p : Progress) (r : Int) (going : Underway a own p) (none : p.offset = 0)
    (error : r < 0) : Over a own r := by
  have empty : own = [] := by rw [← List.length_eq_zero_iff, going_length a own p going, none]
  refine ⟨?_, fun some => by omega, fun _ => empty⟩
  rw [empty]
  exact List.nil_prefix

-- The number of bytes so far, or an error in place of a zero.
theorem over_either (a : SendArgs) (own : List Item) (p : Progress) (r : Int) (going : Underway a own p) (error : r < 0) :
    Over a own (if p.offset ≠ 0 then p.offset else r) := by
  split
  · exact over_count a own p going
  · rename_i none
    exact over_error a own p r going (not_not.mp none) error

theorem iov_size_small (iov : List Iovec) : iovSize iov < 2 ^ 31 := by
  have sums : ∀ (rest : List Iovec) (size : BitVec 32), iovSum size rest < 2 ^ 31 := by
    intro rest
    induction rest with
    | nil =>
        intro size
        have small := BitVec.toInt_lt (x := size)
        rw [iovSum]
        omega
    | cons v rest ih =>
        intro size
        rw [iovSum]
        split
        · omega
        · exact ih _
  unfold iovSize
  split
  · omega
  · exact sums iov 0

-- What seq_write tells is what the call has written, when it has only moved for that.
theorem send_failed_count (w : World) (p : Progress) (n : Nat) (r : Int) (small : n < 2 ^ 31)
    (write : w.tcb.seqWrite = p.seqWrite + BitVec.ofNat 32 n) : sendFailed w p r = if n = 0 then r else n := by
  have there : w.tcb.seqWrite = place p.seqWrite n := by rw [write, ← BitVec.ofInt_natCast, place]
  have number : (w.tcb.seqWrite - p.seqWrite).toInt = n := by
    rw [there, ← place_zero p.seqWrite, place_place, place_sub_toInt] <;> omega
  have order : SEQLT p.seqWrite w.tcb.seqWrite ↔ (0 : Int) < n := by
    have start : p.seqWrite = place p.seqWrite 0 := (place_zero p.seqWrite).symm
    rw [there]
    conv_lhs => arg 1; rw [start]
    exact lt_place p.seqWrite 0 n (by omega) (by omega)
  unfold sendFailed
  rw [number]
  by_cases none : n = 0
  · rw [if_neg (by rw [order]; omega), if_pos none]
  · rw [if_pos (order.mpr (by omega)), if_neg none]

theorem own_still (x : Sending) : x.own ++ x.world.stream.drop x.world.stream.length = x.own := by
  rw [List.drop_length, List.append_nil]

-- The bytes of a turn follow those before it.
theorem going_more (w : World) (a : SendArgs) (own : List Item) (p : Progress) (k : Nat) (going : Underway a own p)
    (more : p.offset < iovSize a.iov) (taken : k ≤ sendAvail w a p) :
    own ++ ((sendSlice w a p).take k).map .byte = ((contents a.mem a.iov).take (p.offset + k)).map .byte := by
  rw [going.2.2, send_slice_eq w a p more, List.take_take, Nat.min_eq_left taken, ← List.map_append, ← List.take_add]

theorem tally_written (env : Env) (x : Sending) (a : SendArgs) (p : Progress) (going : Underway a x.own p)
    (reached : Reach Sane x.world) (hand : InHand x.world) (connects : connected x.world)
    (room : ¬ tcpCanwrite x.world ≤ 0) (more : p.offset < iovSize a.iov)
    (counts : Starved env x.world (sendAvail x.world a p) a.flags →
      x.world.tcb.seqWrite = p.seqWrite + BitVec.ofNat 32 p.offset) :
    ∃ k, (tcpOutput env x.world (sendSlice x.world a p) a.flags).2.stream = x.world.stream ++ k
      ∧ Tally a (x.own ++ k)
        (if (tcpOutput env x.world (sendSlice x.world a p) a.flags).1 < 0 then
          .returned (sendFailed (tcpOutput env x.world (sendSlice x.world a p) a.flags).2 p
            (tcpOutput env x.world (sendSlice x.world a p) a.flags).1)
        else .running ⟨p.offset + sendAvail x.world a p, p.seqWrite⟩) := by
  have within := iov_size_within a.mem a.iov going.1.le
  have small := iov_size_small a.iov
  have avail : (sendAvail x.world a p : Int) = min (tcpCanwrite x.world) (iovSize a.iov - p.offset) := by
    unfold sendAvail
    omega
  have length : (sendSlice x.world a p).length = sendAvail x.world a p := by
    rw [send_slice_eq x.world a p more, List.length_take, List.length_drop]
    omega
  have real : sendSlice x.world a p ≠ [] := by
    rw [← List.length_pos_iff, length]
    omega
  have booked := reach_booked Sane (fun _ _ _ sane => sane) x.world reached
  obtain ⟨k, taken, ⟨stream, write⟩, ended⟩ := output_appended env x.world (sendSlice x.world a p) a.oob hand.alive booked
    connects real (by rw [length]; omega)
  rw [length] at taken ended
  have grown := going_more x.world a x.own p k going more taken
  refine ⟨_, stream, ?_⟩
  rw [grown]
  obtain ⟨done, whole⟩ | ⟨failed, starved⟩ := ended
  · rw [show (tcpOutput env x.world (sendSlice x.world a p) a.flags).1 = 0 from done, if_neg (by omega)]
    refine ⟨going.1, ?_, ?_⟩
    · dsimp only
      omega
    · dsimp only
      rw [whole]
  · have begun := counts starved
    have moved : (tcpOutput env x.world (sendSlice x.world a p) a.flags).2.tcb.seqWrite
        = p.seqWrite + BitVec.ofNat 32 (p.offset + k) := by
      rw [BitVec.ofNat_add, ← BitVec.add_assoc, ← begun]
      exact write
    have result := send_failed_count _ p (p.offset + k) ENOMEM (by omega) moved
    rw [show (tcpOutput env x.world (sendSlice x.world a p) a.flags).1 = ENOMEM from failed, if_pos (by decide), result]
    have total : (((contents a.mem a.iov).take (p.offset + k)).map Item.byte).length = p.offset + k := by
      rw [List.length_map, List.length_take]
      omega
    refine ⟨taken_begins _ _, ?_, ?_⟩
    · split
      · exact fun some => absurd some (by decide)
      · exact fun _ => by rw [total]
    · split
      · rename_i none
        intro _
        rw [none, List.take_zero, List.map_nil]
      · exact fun negative => by omega

theorem tally_turn (env : Env) (x : Sending) (a : SendArgs) (p : Progress) (phase : x.phase = .running p)
    (tally : Tally a x.own x.phase) (reached : Reach Sane x.world) (hand : InHand x.world)
    (counts : Counts a x (.turn env)) : Tally a (afterTurn env x a p).own (afterTurn env x a p).phase := by
  rw [phase] at tally
  have going : Underway a x.own p := tally
  unfold afterTurn sendTurn
  by_cases done : iovSize a.iov ≤ p.offset
  · rw [if_pos done]
    dsimp only
    rw [own_still]
    exact over_count a x.own p going
  · obtain ⟨broken, starved⟩ := counts p phase (not_le.mp done)
    rw [if_neg done]
    by_cases blocked : (connected x.world ∧ tcpCanwrite x.world ≤ 0) ∨ connecting x.world
    · rw [if_pos blocked]
      dsimp only
      rw [own_still]
      split
      · exact over_either a x.own p EAGAIN going (by decide)
      · exact going
    · rw [if_neg blocked]
      rw [not_or, not_and] at blocked
      by_cases connects : connected x.world
      · rw [if_neg (not_not.mpr connects)]
        obtain ⟨k, stream, tally⟩ := tally_written env x a p going reached hand connects (blocked.1 connects)
          (not_le.mp done) (starved connects)
        dsimp only
        rw [stream, List.drop_left]
        exact tally
      · rw [if_pos connects]
        dsimp only
        rw [own_still]
        exact over_error a x.own p EPIPE going (broken connects blocked.2) (by decide)

theorem tally_wake (x : Sending) (a : SendArgs) (p : Progress) (interrupted : Bool) (phase : x.phase = .asleep p)
    (tally : Tally a x.own x.phase) (counts : Counts a x (.wake interrupted)) :
    Tally a x.own (sendWake x.world p interrupted).1 := by
  rw [phase] at tally
  have going : Underway a x.own p := tally
  unfold sendWake
  by_cases breaks : interrupted = true
  · rw [if_pos breaks]
    exact over_either a x.own p EINTR going (by decide)
  · obtain ⟨errs, shut⟩ := counts p phase (Bool.eq_false_iff.mpr breaks)
    rw [if_neg breaks]
    by_cases err : x.world.data.err ≠ 0
    · rw [if_pos err]
      exact over_error a x.own p _ going (errs err).1 (errs err).2
    · rw [if_neg err]
      split
      · rename_i closed
        exact over_error a x.own p EPIPE going (shut (not_not.mp err) closed) (by decide)
      · exact going

theorem tally_enter (w : World) (a : SendArgs) : Tally a [] (sendEnter w a) := by
  have refused : ∀ r : Int, r ≤ 0 → Over a [] r := fun r most =>
    ⟨List.nil_prefix, fun some => by rw [List.length_nil]; omega, fun _ => rfl⟩
  unfold sendEnter
  split
  · exact refused 0 (by decide)
  · rename_i some
    split
    · exact refused EINVAL (by decide)
    · rename_i size
      split
      · exact refused ENOTCONN (by decide)
      · refine ⟨by omega, by dsimp only; omega, ?_⟩
        rw [List.take_zero, List.map_nil]

theorem calls_tally (a : SendArgs) (x : Sending) (calls : Calls (Careful a) a x) : Tally a x.own x.phase := by
  induction calls with
  | enter w _ _ => exact tally_enter w a
  | move x m before careful ih =>
      obtain ⟨reached, hand⟩ := calls_reach (Careful a) (fun _ _ careful => careful.1) a x before
      cases m with
      | turn env =>
          dsimp only [sendMove]
          split
          · rename_i p phase
            exact tally_turn env x a p phase ih reached hand careful.2
          · exact ih
      | wake interrupted =>
          dsimp only [sendMove]
          split
          · rename_i p phase
            exact tally_wake x a p interrupted phase ih careful.2
          · exact ih
      | other env op =>
          dsimp only [sendMove]
          split
          · exact ih
          · exact ih

theorem tally_begins (a : SendArgs) (own : List Item) (phase : SendPhase) (tally : Tally a own phase) :
    own <+: (contents a.mem a.iov).map .byte := by
  cases phase with
  | running p =>
      rw [tally.2.2]
      exact taken_begins _ _
  | asleep p =>
      rw [tally.2.2]
      exact taken_begins _ _
  | returned r => exact tally.1

-- As long as every step is careful, tcp_send accounts for what it has written.
theorem send_accounted (a : SendArgs) (x : Sending) (calls : Calls (Careful a) a x) : Accounted a x := by
  have tally := calls_tally a x calls
  obtain ⟨reached, hand⟩ := calls_reach (Careful a) (fun _ _ careful => careful.1) a x calls
  refine ⟨tally_begins a x.own x.phase tally, fun r back => ?_, fun r back => ?_, ?_⟩
  · rw [back] at tally
    exact tally.2.1
  · rw [back] at tally
    exact tally.2.2
  · exact queue_sound_booked x.world hand.alive (reach_booked Sane (fun _ _ _ sane => sane) x.world reached)

theorem careful_fed (a : SendArgs) (x : Sending) (connects : connected x.world) : Careful a x (.turn plainEnv) := by
  refine ⟨trivial, fun p _ _ => ⟨fun broken => (broken connects).elim, ?_⟩⟩
  rintro _ ⟨i, _, refused⟩
  cases refused

theorem in_hand_open (w : World) (alive : w.alive) (sock : w.data.sock.isSome) (active : w.tcb.flags.passive = false) :
    InHand w :=
  ⟨alive, sock, fun passive => by rw [active] at passive; cases passive⟩

-- Three bytes in two pieces.
def fewBytes : SendArgs := ⟨fun p => BitVec.ofNat 8 p, [⟨0, 2⟩, ⟨8, 1⟩], false, false⟩

def fewWritten : Sending := sendMove fewBytes ⟨openConn 5000, [], sendEnter (openConn 5000) fewBytes⟩ (.turn plainEnv)

theorem send_accounted_few : Accounted fewBytes (sendMove fewBytes fewWritten (.turn plainEnv))
    ∧ (sendMove fewBytes fewWritten (.turn plainEnv)).phase = .returned 3
    ∧ fewWritten.own = [.byte 0, .byte 1, .byte 8] := by
  refine ⟨send_accounted fewBytes _ (.move _ _ (.move _ _ (.enter _ ?_ ?_) ?_) ?_), by decide +kernel, by decide +kernel⟩
  · exact reach_open Sane 5000 (sane_open 5000)
  · exact in_hand_open _ (by decide +kernel) (by decide +kernel) (by decide +kernel)
  · exact careful_fed _ _ (by decide +kernel)
  · exact careful_fed _ _ (by decide +kernel)

-- More than the send buffer holds: 4096 bytes of it are written, and the call sleeps.
def manyBytes : SendArgs := ⟨fun _ => 0, [⟨0, 5000⟩], false, false⟩

def manyAsked : World := step plainEnv (openConn 5000) (.sndbuf 4096)

def manyAsleep : Sending :=
  sendMove manyBytes (sendMove manyBytes ⟨manyAsked, [], sendEnter manyAsked manyBytes⟩ (.turn plainEnv)) (.turn plainEnv)

-- Then the peer's host is reported unreachable.
def manyWoken : Sending :=
  sendMove manyBytes (sendMove manyBytes manyAsleep (.other plainEnv (.error 7 (.soft (-323))))) (.wake false)

theorem send_error_uncounted : ¬ ∀ (a : SendArgs) (x : Sending), Calls Orderly a x → Accounted a x := by
  intro all
  have reached : Reach Sane manyAsked :=
    .step plainEnv (openConn 5000) (.sndbuf 4096) (reach_open Sane 5000 (sane_open 5000))
      (sane_call _ _ _ fun _ _ h => by cases h)
  have hand : InHand manyAsked := in_hand_open _ (by decide +kernel) (by decide +kernel) (by decide +kernel)
  have asleep : Calls Orderly manyBytes manyAsleep := .move _ _ (.move _ _ (.enter _ reached hand) trivial) trivial
  have woken : Calls Orderly manyBytes manyWoken :=
    .move _ _ (.move _ _ asleep ⟨sane_call _ _ _ (fun _ _ h => by cases h), (fun h => by cases h)⟩) trivial
  have empty := (all manyBytes manyWoken woken).refused (-323) (by decide +kernel) (by decide)
  have some : manyWoken.own.length = 4096 := by decide +kernel
  rw [empty] at some
  cases some

end MagxNet.Tcp
