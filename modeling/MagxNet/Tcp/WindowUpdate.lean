import MagxNet.Tcp.Gate

set_option autoImplicit false

namespace MagxNet.Tcp

theorem owlast_of_steady (w w' : World) (same : steady w' = steady w) : owlast w' = owlast w :=
  steady_same owlast _ _ same fun _ => rfl

theorem owlast_of_outgoing (w w' : World) (same : outgoing w' = outgoing w) : owlast w' = owlast w :=
  outgoing_same owlast _ _ same fun _ => rfl

@[simp] theorem owlast_rcvdata (env : Env) (w : World) (pkt : Pkt) : owlast (tcpRcvdata env w pkt) = owlast w :=
  owlast_of_outgoing _ _ (outgoing_rcvdata env w pkt)

@[simp] theorem owlast_gate (env : Env) (w : World) (pkt : Pkt) : owlast (gateConn env w pkt) = owlast w :=
  owlast_of_outgoing _ _ (outgoing_gate env w pkt)

@[simp] theorem owlast_ack_place (env : Env) (w : World) (pkt : Pkt) (osndWnd : Int) :
    owlast (ackPlace env w pkt osndWnd) = owlast w := by
  unfold ackPlace
  split
  · split
    · exact owlast_of_steady _ _ (steady_sndrst env w pkt)
    · exact owlast_of_steady _ _ (steady_sndack env w pkt)
  · split
    · have kept := owlast_of_steady _ _ (steady_ostate env (setUna w pkt.tcph.ack) .ackrcvd (by decide))
      exact kept
    · split
      · rfl
      · split
        · have kept := owlast_of_steady _ _
            (steady_ostate env (setDupacks w (w.tcb.dupacks + 1)) .dupack (by decide))
          exact kept
        · rfl

@[simp] theorem owlast_sndwnd (w : World) (tcph : Dgram) : owlast (tcpSndwnd w tcph) = wlast tcph := by
  have width : BitVec.ofInt 32 (tcph.window.toNat : Int) = tcph.window.setWidth 32 := by
    rw [BitVec.ofInt_natCast, BitVec.ofNat_toNat]
  unfold tcpSndwnd noteWndmax
  split <;> exact congrArg (tcph.ack + ·) width

theorem owlast_ack_updating (env : Env) (w : World) (pkt : Pkt) :
    owlast (ackUpdating env w pkt) = wlast pkt.tcph := by
  unfold ackUpdating
  rw [owlast_of_steady _ _ (steady_window_event env _ w pkt.tcph)]
  simp

@[simp] theorem owlast_ack_kept (env : Env) (w : World) (pkt : Pkt) : owlast (tcpAck env w pkt false) = owlast w := by
  unfold tcpAck
  split
  · rfl
  · simp

theorem owlast_ack_updated (env : Env) (w : World) (pkt : Pkt) (acks : pkt.tcph.flags.ack)
    (fresh : ¬ staleWindow w pkt.tcph) : owlast (tcpAck env w pkt true) = wlast pkt.tcph := by
  unfold tcpAck
  rw [if_neg (not_not.mpr acks), if_pos ⟨rfl, fresh⟩]
  exact owlast_ack_updating env w pkt

@[simp] theorem owlast_wait (w : World) : owlast (tcbWait w) = owlast w := by
  unfold tcbWait
  split <;> rfl

@[simp] theorem owlast_timewait (w : World) : owlast (toTimewait w) = owlast w := by
  unfold toTimewait
  rw [owlast_wait]
  rfl

@[simp] theorem owlast_state (w : World) (state : TcbState) : owlast (setState w state) = owlast w := rfl

@[simp] theorem owlast_deref (w : World) (id : Nat) : owlast (bufDeref w id) = owlast w := rfl

@[simp] theorem owlast_delete (w : World) : owlast (tcbDelete w) = owlast w := by
  unfold tcbDelete
  split <;> rfl

@[simp] theorem owlast_closewait (w : World) : owlast (closewaitIfFinished w) = owlast w := by
  unfold closewaitIfFinished
  split <;> rfl

@[simp] theorem owlast_finwait1 (w : World) : owlast (finwait1Done w) = owlast w := by
  unfold finwait1Done
  split
  · split <;> simp
  · split <;> simp

@[simp] theorem owlast_lastack (w : World) : owlast (lastackDone w) = owlast w := by
  unfold lastackDone
  split
  · rw [owlast_delete]
    rfl
  · rfl

@[simp] theorem owlast_closing (w : World) : owlast (closingDone w) = owlast w := by
  unfold closingDone
  split <;> simp

-- The states in which data that was queued before the close may still wait to be sent.
def TcbState.sends (state : TcbState) : Prop :=
  state = .established ∨ state = .finwait1 ∨ state = .closewait ∨ state = .closing ∨ state = .lastack

-- An ACK that is acceptable, carries nothing unwelcome, and is not older than the segment that set
-- the window before.
structure InOrderAck (env : Env) (w : World) (pkt : Pkt) : Prop where
  through : accepted env w pkt
  welcome : unwelcome (gateConn env w pkt) (gateSeg env w pkt) = false
  acks : pkt.tcph.flags.ack
  fresh : ¬ staleWindow (gateConn env w pkt) (gateSeg env w pkt).tcph

theorem window_follows_ack (env : Env) (w : World) (pkt : Pkt) (duplicate : Bool) (ack : InOrderAck env w pkt)
    (updates : w.tcb.state = .established ∨ w.tcb.state = .finwait1 ∨ w.tcb.state = .closewait) :
    owlast (inputFound env w pkt duplicate) = wlast pkt.tcph := by
  obtain ⟨flag, number, window⟩ := gate_seg_keeps_ack env w pkt
  obtain ⟨noRst, noSyn⟩ := welcome_plain _ _ ack.welcome
  have acks : (gateSeg env w pkt).tcph.flags.ack := flag.trans ack.acks
  have edge : wlast (gateSeg env w pkt).tcph = wlast pkt.tcph := by
    unfold wlast
    rw [number, window]
  have updated := (owlast_ack_updated env _ _ acks ack.fresh).trans edge
  rw [input_found_accepted env w pkt duplicate ack.through]
  unfold tcbState
  rw [gate_conn_state]
  obtain same | same | same := updates
  · simp [same, tcbsEstablished, noRst, noSyn, acks, updated]
  · simp [same, tcbsFinwait1, ack.welcome, acks, updated]
  · simp [same, tcbsClosewait, resetOrSyn, noRst, noSyn, updated]

theorem window_kept_closing (env : Env) (w : World) (pkt : Pkt) (duplicate : Bool) (ack : InOrderAck env w pkt)
    (keeps : w.tcb.state = .closing ∨ w.tcb.state = .lastack) :
    owlast (inputFound env w pkt duplicate) = owlast w := by
  rw [input_found_accepted env w pkt duplicate ack.through]
  unfold tcbState
  rw [gate_conn_state]
  obtain same | same := keeps
  · simp [same, tcbsClosing, ack.welcome]
  · simp [same, tcbsLastack, ack.welcome]

-- The usable right edge becomes that of the segment in exactly the states that let tcp_ack update
-- the window, or where it is the same already.
theorem window_update_iff (env : Env) (w : World) (pkt : Pkt) (duplicate : Bool) (sends : w.tcb.state.sends)
    (ack : InOrderAck env w pkt) :
    owlast (inputFound env w pkt duplicate) = wlast pkt.tcph
      ↔ w.tcb.state ≠ .closing ∧ w.tcb.state ≠ .lastack ∨ owlast w = wlast pkt.tcph := by
  by_cases keeps : w.tcb.state = .closing ∨ w.tcb.state = .lastack
  · rw [window_kept_closing env w pkt duplicate ack keeps]
    constructor
    · exact Or.inr
    · rintro (⟨notClosing, notLastack⟩ | same)
      · exact (keeps.elim notClosing notLastack).elim
      · exact same
  · rw [not_or] at keeps
    refine ⟨fun _ => Or.inl keeps, fun _ => window_follows_ack env w pkt duplicate ack ?_⟩
    obtain state | state | state | state | state := sends
    · exact Or.inl state
    · exact Or.inr (Or.inl state)
    · exact Or.inr (Or.inr state)
    · exact (keeps.1 state).elim
    · exact (keeps.2 state).elim

-- A hundred of 200 written bytes are sent, the window is used up, and both sides have closed.
def lastackConn : World :=
  tcpShutdown plainEnv (inputFound plainEnv (tcpSend plainEnv (openConn 100) (List.replicate 200 7) false).2
    (peerSeg 5001 1001 TCPF_FIN_ACK 100 0 []) false) 1

theorem window_update_iff_established :
    owlast (inputFound plainEnv (openConn 100) (peerSeg 5001 1001 TCPF_ACK 5000 0 []) false)
      = wlast (peerSeg 5001 1001 TCPF_ACK 5000 0 []).tcph := by
  refine (window_update_iff plainEnv (openConn 100) (peerSeg 5001 1001 TCPF_ACK 5000 0 []) false
    (Or.inl (by decide +kernel)) ⟨?_, ?_, ?_, ?_⟩).mpr (Or.inl ?_) <;> decide +kernel

-- The ack of all that was sent offers 5000 bytes; the edge stays where the 100 bytes ended.
theorem window_update_lost :
    lastackConn.tcb.state = .lastack ∧ SEQLT lastackConn.tcb.sndMax lastackConn.tcb.seqWrite
      ∧ lastackConn.tcb.sndMax = (peerSeg 5002 1101 TCPF_ACK 5000 0 []).tcph.ack
      ∧ InOrderAck plainEnv lastackConn (peerSeg 5002 1101 TCPF_ACK 5000 0 [])
      ∧ owlast (inputFound plainEnv lastackConn (peerSeg 5002 1101 TCPF_ACK 5000 0 []) false)
        ≠ wlast (peerSeg 5002 1101 TCPF_ACK 5000 0 []).tcph := by
  refine ⟨?_, ?_, ?_, ⟨?_, ?_, ?_, ?_⟩, ?_⟩ <;> decide +kernel

end MagxNet.Tcp
