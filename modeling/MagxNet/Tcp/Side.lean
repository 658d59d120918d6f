import MagxNet.Tcp.Gate
import MagxNet.Tcp.Handshake
import MagxNet.Tcp.Ledger

set_option autoImplicit false

namespace MagxNet.Tcp

-- What the rules about the sending side are about: what was written, sent and acked, the window, what
-- was handed to ip_send, and what keeps the connection alive.
structure SendSide where
  state : TcbState
  ostate : OutState
  timer : Option Int
  delete : Option Int
  sock : Bool
  alive : Bool
  nxt : Seq
  wndack : Seq
  wnd : Int
  sent : List Sent
  ledger : Ledger

def sendSide (w : World) : SendSide :=
  ⟨w.tcb.state, w.tcb.ostate, w.tcb.timerEvt, w.tcb.deleteEvt, w.data.sock.isSome, w.alive, w.tcb.sndNxt,
    w.tcb.sndWndack, w.tcb.sndWnd, w.net.sent.filter ofSndseg, ledger w⟩

theorem side_of_outgoing (w w' : World) (same : outgoing w' = outgoing w) : sendSide w' = sendSide w := by
  apply outgoing_same sendSide w w' same
  intro x
  have once : (outgoing x).net.sent.filter ofSndseg = x.net.sent.filter ofSndseg := by
    change (x.net.sent.filter ofSndseg).filter ofSndseg = _
    rw [List.filter_filter]
    simp
  unfold sendSide
  rw [once]
  rfl

@[simp] theorem side_deref (w : World) (id : Nat) : sendSide (bufDeref w id) = sendSide w := rfl

@[simp] theorem side_sndrst (env : Env) (w : World) (pkt : Pkt) : sendSide (tcpSndrst env w pkt) = sendSide w :=
  side_of_outgoing _ _ (outgoing_sndrst env w pkt)

@[simp] theorem side_rcvdata (env : Env) (w : World) (pkt : Pkt) : sendSide (tcpRcvdata env w pkt) = sendSide w :=
  side_of_outgoing _ _ (outgoing_rcvdata env w pkt)

@[simp] theorem side_send_ack (env : Env) (w : World) : sendSide (sendAck env w) = sendSide w :=
  side_of_outgoing _ _ (outgoing_send_ack env w)

@[simp] theorem side_gate (env : Env) (w : World) (pkt : Pkt) : sendSide (gateConn env w pkt) = sendSide w :=
  side_of_outgoing _ _ (outgoing_gate env w pkt)

-- In these states the next ack may end the connection, or half of it.
def SendSide.waits (y : SendSide) : Prop := y.state = .finwait1 ∨ y.state = .closing ∨ y.state = .lastack

-- The FIN of this side counts as acked.
def SendSide.done (y : SendSide) : Prop := SEQLE y.ledger.write y.ledger.una

-- What becomes of the sending side once tcp_ack has been called in a synchronized state.
inductive Settles (tcph : Dgram) (y : SendSide) : SendSide → Prop
  | stays : (y.waits → ¬ y.done) → y.state ≠ .synrcvd → y.state ≠ .timewait → Settles tcph y y
  | closes : y.state = .established → Settles tcph y { y with state := .closewait }
  | crosses : y.state = .finwait1 → ¬ y.done → Settles tcph y { y with state := .closing }
  | halfCloses : y.state = .finwait1 → y.done →
      Settles tcph y { y with state := .finwait2, delete := some TCP_CONN_TMOUT }
  | ends : (y.state = .finwait1 ∨ y.state = .closing) ∧ y.done ∨ y.state = .finwait2 ∨ y.state = .timewait →
      Settles tcph y { y with state := .timewait, timer := none, delete := some (2 * TCP_MSL) }
  | deletes : y.state = .lastack → y.done → y.sock → Settles tcph y { y with state := .closed }
  | opens (state : TcbState) : y.state = .synrcvd → state = .established ∨ state = .closewait →
      Settles tcph y { y with state := state, wndack := tcph.ack, wnd := tcph.window.toNat }

theorem side_wait (w : World) (notYet : w.tcb.state ≠ .finwait2) :
    sendSide (tcbWait w) = { sendSide w with timer := none, delete := some (2 * TCP_MSL) } := by
  unfold tcbWait
  split
  · rename_i half
    exact (notYet half).elim
  · rfl

theorem side_timewait (w : World) :
    sendSide (toTimewait w) = { sendSide w with state := .timewait, timer := none, delete := some (2 * TCP_MSL) } :=
  side_wait (setDead (setState w .timewait)) (by show TcbState.timewait ≠ .finwait2; decide)

theorem ack_state (env : Env) (w : World) (pkt : Pkt) (update : Bool) :
    (tcpAck env w pkt update).tcb.state = w.tcb.state :=
  incoming_same (·.tcb.state) w _ (incoming_ack env w pkt update) fun _ => rfl

-- Whether the state function lets a segment through to tcp_ack.
def hears (env : Env) (w : World) (pkt : Pkt) : Prop :=
  match w.tcb.state with
  | .closed | .listen => False
  | .synsent =>
      ¬ (pkt.tcph.flags.ack ∧ (SEQLE pkt.tcph.ack w.tcb.sndIsn ∨ SEQGT pkt.tcph.ack w.tcb.sndMax))
        ∧ ¬ pkt.tcph.flags.rst ∧ ¬ (¬ pkt.tcph.flags.syn ∨ env.isBroadcast pkt.daddr)
  | .synrcvd | .established | .closewait => resetOrSyn pkt = false
  | _ => unwelcome w pkt = false

def Acks (env : Env) (w : World) (pkt : Pkt) : Prop :=
  accepted env w pkt ∧ pkt.tcph.flags.ack ∧ hears env (gateConn env w pkt) (gateSeg env w pkt)

-- What becomes of the sending side when a segment arrives. In a synchronized state it goes through tcp_ack,
-- which ignores a segment without an ack; only three states take a new window from it.
inductive Outcome (env : Env) (w : World) (pkt : Pkt) (w' : World) : Prop
  | held : sendSide w' = sendSide w → Outcome env w pkt w'
  | ended : Ended w w' → Outcome env w pkt w'
  | gone : w'.alive = false → Outcome env w pkt w'
  | deleted : sendSide w' = { sendSide w with state := .closed } → w.tcb.state = .synrcvd ∨ w.data.sock.isSome →
      Outcome env w pkt w'
  | acked (update : Bool) : (pkt.tcph.flags.ack → Acks env w pkt) →
      (update → w.tcb.state = .established ∨ w.tcb.state = .finwait1 ∨ w.tcb.state = .closewait) →
      Settles pkt.tcph (sendSide (tcpAck env (gateConn env w pkt) (gateSeg env w pkt) update)) (sendSide w') →
      Outcome env w pkt w'
  | joined (y : World) (state : TcbState) (wndack : Seq) (wnd mss : Int) : w.tcb.state = .synsent →
      state = .established ∨ state = .synrcvd →
      (sendSide y = sendSide w ∨ Acks env w pkt ∧
        ∃ x, sendSide x = sendSide w ∧ y = tcpAck env x (gateSeg env w pkt) false) →
      ((sendSide w).ledger.room ≤ 65535 → 4096 ≤ (sendSide w).ledger.room →
        mss = (sendSide w).ledger.mss ∨ 32 ≤ mss ∧ mss ≤ 65535) →
      sendSide w' = { sendSide y with
        state := state, wndack := wndack, wnd := wnd, ledger := { (sendSide y).ledger with mss := mss } } →
      Outcome env w pkt w'

section

variable (env : Env) (w : World) (pkt : Pkt)

theorem acks_of_hears (through : accepted env w pkt)
    (heard : hears env (gateConn env w pkt) (gateSeg env w pkt)) : pkt.tcph.flags.ack → Acks env w pkt :=
  fun acks => ⟨through, acks, heard⟩

theorem plain_hears (x : World) (pkt : Pkt) (plain : resetOrSyn pkt = false)
    (state : x.tcb.state = .synrcvd ∨ x.tcb.state = .established ∨ x.tcb.state = .closewait) : hears env x pkt := by
  unfold hears
  obtain same | same | same := state <;> rw [same] <;> exact plain

theorem welcome_hears (x : World) (pkt : Pkt) (welcome : unwelcome x pkt = false)
    (state : x.tcb.state = .finwait1 ∨ x.tcb.state = .finwait2 ∨ x.tcb.state = .closing ∨ x.tcb.state = .lastack
      ∨ x.tcb.state = .timewait) : hears env x pkt := by
  unfold hears
  obtain same | same | same | same | same := state <;> rw [same] <;> exact welcome

theorem ended_hang_up (x : World) (same : outgoing x = outgoing w) (synced : w.tcb.state = .established) :
    Ended w (hangUp x) := by
  refine ended_of_outgoing w x _ same ⟨rfl, rfl, rfl, rfl, rfl, rfl, fun _ => Or.inr ?_, rfl, rfl⟩
  rw [outgoing_same (·.tcb.state) w x same fun _ => rfl, synced]

theorem established_outcome (through : accepted env w pkt) (state : w.tcb.state = .established) :
    Outcome env w pkt (tcbsEstablished env (gateConn env w pkt) (gateSeg env w pkt)) := by
  unfold tcbsEstablished
  split
  · exact .ended (ended_outgoing w _ _ (ended_hang_up w _ (outgoing_gate env w pkt) state) (outgoing_deref _ _))
  · split
    · exact .ended (ended_outgoing w _ _ (ended_hang_up w _ ((outgoing_sndrst env _ _).trans (outgoing_gate env w pkt))
        state) (outgoing_deref _ _))
    · split
      · exact .held (side_gate env w pkt)
      · have plain : resetOrSyn (gateSeg env w pkt) = false := by simp_all [resetOrSyn]
        have heard := plain_hears env (gateConn env w pkt) (gateSeg env w pkt) plain
          (Or.inr (Or.inl ((gate_conn_state env w pkt).trans state)))
        have here : (sendSide (tcpAck env (gateConn env w pkt) (gateSeg env w pkt) true)).state = .established :=
          (ack_state env _ _ true).trans ((gate_conn_state env w pkt).trans state)
        refine .acked true (acks_of_hears env w pkt through heard) (fun _ => Or.inl state) ?_
        unfold closewaitIfFinished
        split
        · have side : sendSide (setState (tcpRcvdata env (tcpAck env (gateConn env w pkt) (gateSeg env w pkt) true)
              (gateSeg env w pkt)) .closewait)
              = { sendSide (tcpRcvdata env (tcpAck env (gateConn env w pkt) (gateSeg env w pkt) true)
                (gateSeg env w pkt)) with state := .closewait } := rfl
          rw [side, side_rcvdata]
          exact .closes here
        · rw [side_rcvdata]
          exact .stays (by simp [SendSide.waits, here]) (by simp [here]) (by simp [here])

theorem finwait1_outcome (through : accepted env w pkt) (state : w.tcb.state = .finwait1) :
    Outcome env w pkt (tcbsFinwait1 env (gateConn env w pkt) (gateSeg env w pkt)) := by
  unfold tcbsFinwait1
  split
  · exact .ended (ended_of_outgoing w _ _ (outgoing_gate env w pkt) (ended_refuse env _ _))
  · split
    · exact .held (side_gate env w pkt)
    · have heard := welcome_hears env (gateConn env w pkt) (gateSeg env w pkt) (Bool.eq_false_iff.mpr ‹_›)
        (Or.inl ((gate_conn_state env w pkt).trans state))
      refine .acked true (acks_of_hears env w pkt through heard) (fun _ => Or.inr (Or.inl state)) ?_
      have here : (sendSide (tcpAck env (gateConn env w pkt) (gateSeg env w pkt) true)).state = .finwait1 :=
        (ack_state env _ _ true).trans ((gate_conn_state env w pkt).trans state)
      have data := side_rcvdata env (tcpAck env (gateConn env w pkt) (gateSeg env w pkt) true) (gateSeg env w pkt)
      generalize tcpRcvdata env (tcpAck env (gateConn env w pkt) (gateSeg env w pkt) true) (gateSeg env w pkt) = z
        at data ⊢
      rw [← data] at here ⊢
      unfold finwait1Done
      split
      · split
        · rename_i acked
          rw [side_timewait]
          exact .ends (Or.inl ⟨Or.inl here, acked⟩)
        · rename_i unacked
          exact .crosses here unacked
      · split
        · rename_i acked
          exact .halfCloses here acked
        · rename_i unacked
          exact .stays (fun _ => unacked) (by simp [here]) (by simp [here])

theorem finwait2_outcome (through : accepted env w pkt) (state : w.tcb.state = .finwait2) :
    Outcome env w pkt (tcbsFinwait2 env (gateConn env w pkt) (gateSeg env w pkt)) := by
  unfold tcbsFinwait2
  split
  · refine .ended (ended_of_outgoing w _ _ ?_ (ended_delete (bufDeref (tcpSndrst env _ _) _) _))
    exact (outgoing_sndrst env _ _).trans (outgoing_gate env w pkt)
  · split
    · exact .held (side_gate env w pkt)
    · have heard := welcome_hears env (gateConn env w pkt) (gateSeg env w pkt) (Bool.eq_false_iff.mpr ‹_›)
        (Or.inr (Or.inl ((gate_conn_state env w pkt).trans state)))
      refine .acked false (acks_of_hears env w pkt through heard)
        (fun updates => (Bool.false_ne_true updates).elim) ?_
      have here : (sendSide (tcpAck env (gateConn env w pkt) (gateSeg env w pkt) false)).state = .finwait2 :=
        (ack_state env _ _ false).trans ((gate_conn_state env w pkt).trans state)
      have data := side_rcvdata env (tcpAck env (gateConn env w pkt) (gateSeg env w pkt) false) (gateSeg env w pkt)
      generalize tcpRcvdata env (tcpAck env (gateConn env w pkt) (gateSeg env w pkt) false) (gateSeg env w pkt) = z
        at data ⊢
      rw [← data] at here ⊢
      unfold finwait2Done
      split
      · rw [side_timewait]
        exact .ends (Or.inr (Or.inl here))
      · exact .stays (by simp [SendSide.waits, here]) (by simp [here]) (by simp [here])

theorem closewait_outcome (through : accepted env w pkt) (state : w.tcb.state = .closewait) :
    Outcome env w pkt (tcbsClosewait env (gateConn env w pkt) (gateSeg env w pkt)) := by
  unfold tcbsClosewait
  split
  · exact .ended (ended_of_outgoing w _ _ (outgoing_gate env w pkt) (ended_refuse env _ _))
  · have heard := plain_hears env (gateConn env w pkt) (gateSeg env w pkt) (Bool.eq_false_iff.mpr ‹_›)
      (Or.inr (Or.inr ((gate_conn_state env w pkt).trans state)))
    have here : (sendSide (tcpAck env (gateConn env w pkt) (gateSeg env w pkt) true)).state = .closewait :=
      (ack_state env _ _ true).trans ((gate_conn_state env w pkt).trans state)
    refine .acked true (acks_of_hears env w pkt through heard) (fun _ => Or.inr (Or.inr state)) ?_
    rw [side_deref]
    exact .stays (by simp [SendSide.waits, here]) (by simp [here]) (by simp [here])

theorem lastack_outcome (through : accepted env w pkt) (state : w.tcb.state = .lastack) :
    Outcome env w pkt (tcbsLastack env (gateConn env w pkt) (gateSeg env w pkt)) := by
  unfold tcbsLastack
  split
  · exact .ended (ended_of_outgoing w _ _ (outgoing_gate env w pkt) (ended_refuse env _ _))
  · have heard := welcome_hears env (gateConn env w pkt) (gateSeg env w pkt) (Bool.eq_false_iff.mpr ‹_›)
      (Or.inr (Or.inr (Or.inr (Or.inl ((gate_conn_state env w pkt).trans state)))))
    have here : (sendSide (tcpAck env (gateConn env w pkt) (gateSeg env w pkt) false)).state = .lastack :=
      (ack_state env _ _ false).trans ((gate_conn_state env w pkt).trans state)
    have settles : ∀ y, Settles pkt.tcph (sendSide (tcpAck env (gateConn env w pkt) (gateSeg env w pkt) false)) y →
        ∀ w', sendSide w' = y → Outcome env w pkt w' := by
      rintro y settled w' rfl
      exact .acked false (acks_of_hears env w pkt through heard)
        (fun updates => (Bool.false_ne_true updates).elim) settled
    unfold lastackDone
    split
    · rename_i acked
      unfold tcbDelete
      split
      · exact .gone rfl
      · rename_i held
        refine settles _ (.deletes here acked ?_) _ rfl
        exact Option.isSome_iff_ne_none.mpr fun none => held (Option.isNone_iff_eq_none.mpr none)
    · rename_i unacked
      exact settles _ (.stays (fun _ => unacked) (by simp [here]) (by simp [here])) _ rfl

theorem closing_outcome (through : accepted env w pkt) (state : w.tcb.state = .closing) :
    Outcome env w pkt (tcbsClosing env (gateConn env w pkt) (gateSeg env w pkt)) := by
  unfold tcbsClosing
  split
  · exact .ended (ended_of_outgoing w _ _ (outgoing_gate env w pkt) (ended_refuse env _ _))
  · have heard := welcome_hears env (gateConn env w pkt) (gateSeg env w pkt) (Bool.eq_false_iff.mpr ‹_›)
      (Or.inr (Or.inr (Or.inl ((gate_conn_state env w pkt).trans state))))
    refine .acked false (acks_of_hears env w pkt through heard)
      (fun updates => (Bool.false_ne_true updates).elim) ?_
    have here : (sendSide (tcpAck env (gateConn env w pkt) (gateSeg env w pkt) false)).state = .closing :=
      (ack_state env _ _ false).trans ((gate_conn_state env w pkt).trans state)
    unfold closingDone
    split
    · rename_i acked
      rw [side_timewait]
      exact .ends (Or.inl ⟨Or.inr here, acked⟩)
    · rename_i unacked
      exact .stays (fun _ => unacked) (by simp [here]) (by simp [here])

theorem timewait_outcome (through : accepted env w pkt) (state : w.tcb.state = .timewait) :
    Outcome env w pkt (tcbsTimewait env (gateConn env w pkt) (gateSeg env w pkt)) := by
  unfold tcbsTimewait
  split
  · unfold tcbDelete
    split
    · exact .gone rfl
    · rename_i held
      have side := (side_sndrst env (gateConn env w pkt) (gateSeg env w pkt)).trans (side_gate env w pkt)
      refine .deleted ?_ ?_
      · exact congrArg (fun y : SendSide => { y with state := .closed }) side
      · change ¬ (tcpSndrst env (gateConn env w pkt) (gateSeg env w pkt)).data.sock.isNone at held
        have sock := congrArg SendSide.sock side
        change (tcpSndrst env (gateConn env w pkt) (gateSeg env w pkt)).data.sock.isSome = w.data.sock.isSome at sock
        rw [← sock]
        exact Or.inr (Option.isSome_iff_ne_none.mpr fun none => held (Option.isNone_iff_eq_none.mpr none))
  · have heard := welcome_hears env (gateConn env w pkt) (gateSeg env w pkt) (Bool.eq_false_iff.mpr ‹_›)
      (Or.inr (Or.inr (Or.inr (Or.inr ((gate_conn_state env w pkt).trans state)))))
    refine .acked false (acks_of_hears env w pkt through heard)
      (fun updates => (Bool.false_ne_true updates).elim) ?_
    have here : (tcpAck env (gateConn env w pkt) (gateSeg env w pkt) false).tcb.state = .timewait :=
      (ack_state env _ _ false).trans ((gate_conn_state env w pkt).trans state)
    have data := side_rcvdata env (tcpAck env (gateConn env w pkt) (gateSeg env w pkt) false) (gateSeg env w pkt)
    have here' := (congrArg SendSide.state data).trans here
    rw [side_wait _ (by rw [show (tcpRcvdata env _ _).tcb.state = .timewait from here']; decide), data]
    have same : sendSide (tcpAck env (gateConn env w pkt) (gateSeg env w pkt) false)
        = { sendSide (tcpAck env (gateConn env w pkt) (gateSeg env w pkt) false) with state := .timewait } := by
      rw [← here]
      rfl
    rw [same]
    exact .ends (Or.inr (Or.inr rfl))

theorem abort_outcome (x : World) (same : outgoing x = outgoing w) (half : w.tcb.state = .synrcvd) :
    Outcome env w pkt (synrcvdAbort x) := by
  have deleted : sendSide (setState x .closed) = { sendSide w with state := .closed } :=
    congrArg (fun y : SendSide => { y with state := .closed }) (side_of_outgoing _ _ same)
  unfold synrcvdAbort
  split
  · unfold soFree
    split
    · split
      · exact .deleted deleted (Or.inl half)
      · exact .gone rfl
    · exact .deleted deleted (Or.inl half)
  · refine .ended (ended_of_outgoing w x _ same ⟨rfl, rfl, rfl, rfl, rfl, Option.isSome_map, fun _ => Or.inr ?_, rfl, rfl⟩)
    rw [outgoing_same (·.tcb.state) w x same fun _ => rfl, half]
    decide

theorem deref_outcome (x : World) (id : Nat) (outcome : Outcome env w pkt x) :
    Outcome env w pkt (bufDeref x id) := by
  cases outcome with
  | held same => exact .held same
  | ended done => exact .ended (ended_outgoing w x _ done (outgoing_deref x id))
  | gone dead => exact .gone dead
  | deleted same held => exact .deleted same held
  | acked update acks updates settled => exact .acked update acks updates settled
  | joined y state wndack wnd mss opening joins before range same =>
      exact .joined y state wndack wnd mss opening joins before range same

theorem side_note_connected (x : World) : sendSide (noteConnected x) = sendSide x := by
  unfold noteConnected
  split
  · rfl
  · unfold sendSide setSockState
    simp [ledger]

theorem synrcvd_outcome (through : accepted env w pkt) (state : w.tcb.state = .synrcvd) :
    Outcome env w pkt (tcbsSynrcvd env (gateConn env w pkt) (gateSeg env w pkt)) := by
  unfold tcbsSynrcvd
  split
  · exact deref_outcome env w pkt _ _ (abort_outcome env w pkt _ (outgoing_gate env w pkt) state)
  · split
    · exact deref_outcome env w pkt _ _ (abort_outcome env w pkt _
        ((outgoing_sndrst env _ _).trans (outgoing_gate env w pkt)) state)
    · split
      · exact .held (side_gate env w pkt)
      · have plain : resetOrSyn (gateSeg env w pkt) = false := by simp_all [resetOrSyn]
        have heard := plain_hears env (gateConn env w pkt) (gateSeg env w pkt) plain
          (Or.inl ((gate_conn_state env w pkt).trans state))
        refine .acked false (acks_of_hears env w pkt through heard)
          (fun updates => (Bool.false_ne_true updates).elim) ?_
        have here : (sendSide (tcpAck env (gateConn env w pkt) (gateSeg env w pkt) false)).state = .synrcvd :=
          (ack_state env _ _ false).trans ((gate_conn_state env w pkt).trans state)
        obtain ⟨-, number, window⟩ := gate_seg_keeps_ack env w pkt
        have opened : sendSide (synrcvdOpen (tcpAck env (gateConn env w pkt) (gateSeg env w pkt) false)
            (gateSeg env w pkt))
            = { sendSide (tcpAck env (gateConn env w pkt) (gateSeg env w pkt) false) with
              state := .established, wndack := pkt.tcph.ack, wnd := pkt.tcph.window.toNat } := by
          rw [← number, ← window]
          rfl
        have side := (side_note_connected _).trans ((side_rcvdata env (synrcvdOpen
          (tcpAck env (gateConn env w pkt) (gateSeg env w pkt) false) (gateSeg env w pkt)) (gateSeg env w pkt)).trans
          opened)
        unfold synrcvdAccept
        generalize noteConnected (tcpRcvdata env (synrcvdOpen (tcpAck env (gateConn env w pkt) (gateSeg env w pkt)
          false) (gateSeg env w pkt)) (gateSeg env w pkt)) = z at side ⊢
        unfold synrcvdDone
        split
        · have shut : sendSide (setSockState (setState z .closewait) .isdisconnecting)
              = { sendSide z with state := .closewait } := by
            unfold sendSide setSockState setState
            simp [ledger]
          rw [shut, side]
          exact .opens .closewait here (Or.inr rfl)
        · rw [side]
          exact .opens .established here (Or.inl rfl)

theorem tcp_mss_range (x : World) (faddr : InAddr) (maxmss : Int) (low : 4096 ≤ x.data.snd.maxdatalen)
    (high : x.data.snd.maxdatalen ≤ 65535) :
    32 ≤ tcpMss env x faddr maxmss ∧ tcpMss env x faddr maxmss ≤ 65535 := by
  unfold tcpMss
  split
  · decide
  · rename_i rt found
    have least := route_mss_least rt maxmss
    dsimp only
    split <;> omega

theorem side_limit_rcv (x : World) (faddr : InAddr) (maxmss : Int) :
    sendSide (limitRcv env x faddr maxmss) = sendSide x :=
  side_of_outgoing _ _ (outgoing_limit_rcv env x faddr maxmss)

theorem side_open_snd_mss (x : World) (pkt : Pkt) :
    ∃ mss, (4096 ≤ (sendSide x).ledger.room → (sendSide x).ledger.room ≤ 65535 →
        mss = (sendSide x).ledger.mss ∨ 32 ≤ mss ∧ mss ≤ 65535)
      ∧ sendSide (openSndMss env x pkt) = { sendSide x with ledger := { (sendSide x).ledger with mss := mss } } := by
  unfold openSndMss
  split
  · exact ⟨x.tcb.sndMss, fun _ _ => Or.inl rfl, rfl⟩
  · rename_i r found
    refine ⟨tcpMss env x x.data.daddr r, fun low high => Or.inr (tcp_mss_range env x _ r low high), ?_⟩
    exact congrArg (fun y : SendSide => { y with ledger := { y.ledger with mss := tcpMss env x x.data.daddr r } })
      (side_limit_rcv env x x.data.daddr r)

theorem ack_room (x : World) (pkt : Pkt) (update : Bool) :
    (sendSide (tcpAck env x pkt update)).ledger.room = (sendSide x).ledger.room :=
  incoming_same (fun y => y.data.snd.maxdatalen) x _ (incoming_ack env x pkt update) fun _ => rfl

theorem ack_mss (x : World) (pkt : Pkt) (update : Bool) :
    (sendSide (tcpAck env x pkt update)).ledger.mss = (sendSide x).ledger.mss :=
  incoming_same (fun y => y.tcb.sndMss) x _ (incoming_ack env x pkt update) fun _ => rfl

theorem side_synsent_open (x : World) (pkt : Pkt) :
    ∃ state wndack wnd, (state = .established ∨ state = .synrcvd)
      ∧ sendSide (synsentOpen x pkt) = { sendSide x with state := state, wndack := wndack, wnd := wnd } := by
  unfold synsentOpen
  split
  · refine ⟨.established, pkt.tcph.ack, pkt.tcph.window.toNat, Or.inl rfl, ?_⟩
    unfold sendSide setSockState
    simp [ledger, setWindow, setState]
  · exact ⟨.synrcvd, x.tcb.sndWndack, x.tcb.sndWnd, Or.inr rfl, rfl⟩

theorem synsent_accept_outcome (state : w.tcb.state = .synsent)
    (acks : pkt.tcph.flags.ack → Acks env w pkt) :
    Outcome env w pkt (synsentAccept env (gateConn env w pkt) (gateSeg env w pkt)) := by
  have gated : sendSide (startRcv (gateConn env w pkt) (gateSeg env w pkt).tcph.seq) = sendSide w :=
    (side_of_outgoing _ _ (outgoing_start_rcv _ _)).trans (side_gate env w pkt)
  have before : sendSide (tcpAck env (startRcv (gateConn env w pkt) (gateSeg env w pkt).tcph.seq) (gateSeg env w pkt)
        false) = sendSide w
      ∨ Acks env w pkt ∧ ∃ x, sendSide x = sendSide w
        ∧ tcpAck env (startRcv (gateConn env w pkt) (gateSeg env w pkt).tcph.seq) (gateSeg env w pkt) false
          = tcpAck env x (gateSeg env w pkt) false := by
    by_cases flag : (gateSeg env w pkt).tcph.flags.ack
    · rw [(gate_seg_keeps_ack env w pkt).1] at flag
      exact Or.inr ⟨acks flag, _, gated, rfl⟩
    · left
      rw [tcpAck, if_pos flag, gated]
  have room := ack_room env (startRcv (gateConn env w pkt) (gateSeg env w pkt).tcph.seq) (gateSeg env w pkt) false
  have same := ack_mss env (startRcv (gateConn env w pkt) (gateSeg env w pkt).tcph.seq) (gateSeg env w pkt) false
  rw [gated] at room same
  unfold synsentAccept
  generalize tcpAck env (startRcv (gateConn env w pkt) (gateSeg env w pkt).tcph.seq) (gateSeg env w pkt) false = y
    at before room same ⊢
  obtain ⟨state', wndack, wnd, joins, opened⟩ := side_synsent_open y (gateSeg env w pkt)
  obtain ⟨mss, range, sized⟩ := side_open_snd_mss env (synsentOpen y (gateSeg env w pkt)) (gateSeg env w pkt)
  rw [opened] at range sized
  refine .joined y state' wndack wnd mss state joins ?_ ?_ ?_
  · obtain kept | ⟨acks, x, side, isAck⟩ := before
    · exact Or.inl kept
    · exact Or.inr ⟨acks, x, side, isAck⟩
  · intro high low
    rw [← room] at high low
    rw [← same]
    exact range low high
  · rw [side_send_ack, side_rcvdata, sized]

theorem synsent_outcome (through : accepted env w pkt) (state : w.tcb.state = .synsent) :
    Outcome env w pkt (tcbsSynsent env (gateConn env w pkt) (gateSeg env w pkt)) := by
  unfold tcbsSynsent
  split
  · exact .held (by rw [side_deref, side_sndrst, side_gate])
  · split
    · apply deref_outcome
      split
      · refine .ended (ended_of_outgoing w _ _ (outgoing_gate env w pkt)
          ⟨rfl, rfl, rfl, rfl, rfl, Option.isSome_map, fun _ => Or.inr ?_, rfl, rfl⟩)
        rw [gate_conn_state, state]
        decide
      · exact .held (side_gate env w pkt)
    · split
      · exact .held (side_gate env w pkt)
      · refine synsent_accept_outcome env w pkt state (acks_of_hears env w pkt through ?_)
        rw [hears, (gate_conn_state env w pkt).trans state]
        exact ⟨‹_›, ‹_›, ‹_›⟩

theorem refused_side (duplicate : Bool) (refused : accepted env w pkt = false) :
    sendSide (inputFound env w pkt duplicate) = sendSide w := by
  rw [input_found_refused env w pkt duplicate refused, side_deref]
  exact (side_of_outgoing _ _ (outgoing_sndack env _ _)).trans (side_gate env w pkt)

-- A closed connection answers with a reset and stays as it is.
theorem closed_side (duplicate : Bool) (closed : w.tcb.state = .closed) :
    sendSide (inputFound env w pkt duplicate) = sendSide w := by
  cases through : accepted env w pkt with
  | true =>
      rw [input_found_accepted env w pkt duplicate through, tcbState, gate_conn_state, closed]
      dsimp only
      rw [tcbsClosed, side_deref, side_sndrst, side_gate]
  | false => exact refused_side env w pkt duplicate through

theorem input_outcome (duplicate : Bool) (notClosed : w.tcb.state ≠ .closed) (notListen : w.tcb.state ≠ .listen) :
    Outcome env w pkt (inputFound env w pkt duplicate) := by
  cases through : accepted env w pkt with
  | true =>
      rw [input_found_accepted env w pkt duplicate through, tcbState, gate_conn_state]
      cases state : w.tcb.state with
      | closed => exact (notClosed state).elim
      | listen => exact (notListen state).elim
      | synsent => exact synsent_outcome env w pkt through state
      | synrcvd => exact synrcvd_outcome env w pkt through state
      | established => exact established_outcome env w pkt through state
      | finwait1 => exact finwait1_outcome env w pkt through state
      | finwait2 => exact finwait2_outcome env w pkt through state
      | closewait => exact closewait_outcome env w pkt through state
      | lastack => exact lastack_outcome env w pkt through state
      | closing => exact closing_outcome env w pkt through state
      | timewait => exact timewait_outcome env w pkt through state
  | false => exact .held (refused_side env w pkt duplicate through)

end

end MagxNet.Tcp
