import MagxNet.Tcp.Gate
import MagxNet.Tcp.Frame

set_option autoImplicit false

namespace MagxNet.Tcp

-- An ack of the SYN and of nothing that was never sent: snd_isn < ack <= snd_max.
def AckInRange (w : World) (tcph : Dgram) : Prop := SEQLT w.tcb.sndIsn tcph.ack ∧ SEQLE tcph.ack w.tcb.sndMax

instance (w : World) (tcph : Dgram) : Decidable (AckInRange w tcph) := inferInstanceAs (Decidable (_ ∧ _))

-- An acceptable segment that neither resets nor opens the connection, and carries an ack.
def CarriesAck (env : Env) (w : World) (pkt : Pkt) : Prop :=
  accepted env w pkt ∧ resetOrSyn (gateSeg env w pkt) = false ∧ pkt.tcph.flags.ack

instance (env : Env) (w : World) (pkt : Pkt) : Decidable (CarriesAck env w pkt) :=
  inferInstanceAs (Decidable (_ ∧ _ ∧ _))

def Opened (w : World) : Prop := w.tcb.state = .established ∨ w.tcb.state = .closewait

instance (w : World) : Decidable (Opened w) := inferInstanceAs (Decidable (_ ∨ _))

-- A reset is the last segment sent, unless there was no memory for it.
def AnsweredByReset (env : Env) (w w' : World) : Prop :=
  env.memory w.net.allocs → w'.net.sent.getLast?.map Sent.emitter = some .sndrst

-- The connection gets open only through an ack of its SYN; an ack out of range is answered with a
-- reset and changes nothing else of the state.
def HandshakeSound (env : Env) (w : World) (pkt : Pkt) (duplicate : Bool) : Prop :=
  (Opened (inputFound env w pkt duplicate) → pkt.tcph.flags.ack ∧ AckInRange w pkt.tcph)
    ∧ (CarriesAck env w pkt → ¬ AckInRange w pkt.tcph →
      AnsweredByReset env w (inputFound env w pkt duplicate)
        ∧ (inputFound env w pkt duplicate).tcb.state = .synrcvd)

theorem synrcvd_abort_closed (w : World) : (synrcvdAbort w).tcb.state = .closed := by
  unfold synrcvdAbort
  split
  · unfold soFree
    split
    · split <;> rfl
    · rfl
  · rfl

theorem synrcvd_accept_opened (env : Env) (w : World) (pkt : Pkt) : Opened (synrcvdAccept env w pkt) := by
  unfold synrcvdAccept
  generalize opened : synrcvdOpen (tcpAck env w pkt false) pkt = w1
  have established : w1.tcb.state = .established := by
    rw [← opened]
    rfl
  have kept : (tcpRcvdata env w1 pkt).tcb.state = .established :=
    (outgoing_same (·.tcb.state) _ _ (outgoing_rcvdata env w1 pkt) fun _ => rfl).trans established
  have noted : (noteConnected (tcpRcvdata env w1 pkt)).tcb.state = .established := by
    unfold noteConnected
    split
    · exact kept
    · exact kept
  unfold synrcvdDone
  split
  · exact Or.inr rfl
  · exact Or.inl noted

theorem synrcvd_plain (env : Env) (w : World) (pkt : Pkt) (plain : resetOrSyn pkt = false) :
    tcbsSynrcvd env w pkt = if pkt.tcph.flags.ack then synrcvdAccept env w pkt else bufDeref w pkt.id := by
  obtain ⟨noRst, noSyn⟩ := Bool.or_eq_false_iff.mp plain
  unfold tcbsSynrcvd
  rw [if_neg (by simp [noRst]), if_neg (by simp [noSyn])]
  cases pkt.tcph.flags.ack <;> rfl

theorem synrcvd_opened_iff (env : Env) (w : World) (pkt : Pkt) (half : w.tcb.state = .synrcvd) :
    Opened (tcbsSynrcvd env w pkt) ↔ resetOrSyn pkt = false ∧ pkt.tcph.flags.ack := by
  cases plain : resetOrSyn pkt with
  | true =>
      refine iff_of_false ?_ (by simp)
      have closed : (tcbsSynrcvd env w pkt).tcb.state = .closed := by
        unfold tcbsSynrcvd
        split
        · exact synrcvd_abort_closed w
        · split
          · exact synrcvd_abort_closed _
          · rename_i noRst noSyn
            simp [resetOrSyn, noRst, noSyn] at plain
      simp [Opened, closed]
  | false =>
      rw [synrcvd_plain env w pkt plain]
      split
      · rename_i acks
        exact iff_of_true (synrcvd_accept_opened env w pkt) ⟨rfl, acks⟩
      · rename_i noAck
        refine iff_of_false ?_ fun opened => noAck opened.2
        simp [Opened, bufDeref, half]

theorem input_opened_iff (env : Env) (w : World) (pkt : Pkt) (duplicate : Bool) (half : w.tcb.state = .synrcvd) :
    Opened (inputFound env w pkt duplicate) ↔ CarriesAck env w pkt := by
  have halfGate : (gateConn env w pkt).tcb.state = .synrcvd := (gate_conn_state env w pkt).trans half
  have acks := (gate_seg_keeps_ack env w pkt).1
  cases through : accepted env w pkt with
  | true =>
      rw [input_found_accepted env w pkt duplicate through, tcbState, halfGate]
      dsimp only
      rw [synrcvd_opened_iff env _ _ halfGate, acks]
      simp [CarriesAck, through]
  | false =>
      refine iff_of_false ?_ (by simp [CarriesAck, through])
      have state := steady_same (·.tcb.state) _ _ (refused_steady env w pkt duplicate through) fun _ => rfl
      simp only [halfGate] at state
      simp [Opened, state]

-- Every acceptable ack opens the connection, wherever it lies; so the handshake is sound exactly
-- while no ack out of range gets that far.
theorem handshake_sound_iff (env : Env) (w : World) (pkt : Pkt) (duplicate : Bool) (half : w.tcb.state = .synrcvd) :
    HandshakeSound env w pkt duplicate ↔ (CarriesAck env w pkt → AckInRange w pkt.tcph) := by
  have opens := input_opened_iff env w pkt duplicate half
  constructor
  · rintro ⟨sound, -⟩ carries
    exact (sound (opens.mpr carries)).2
  · intro inRange
    refine ⟨fun opened => ?_, fun carries outside => (outside (inRange carries)).elim⟩
    have carries := opens.mp opened
    exact ⟨carries.2.2, inRange carries⟩

-- The child of a listening connection, with 1000 and 5000 the first numbers of the two streams.
def halfOpen : World :=
  (inputSpawn plainEnv (tcpListen (tcpAttach 1024 quietNet) 1) (peerSeg 5000 0 TCPF_SYN 100 0 []) false).getD synSent

theorem handshake_sound_iff_acked : HandshakeSound plainEnv halfOpen (peerSeg 5001 1001 TCPF_ACK 100 0 []) false :=
  (handshake_sound_iff plainEnv halfOpen (peerSeg 5001 1001 TCPF_ACK 100 0 []) false (by decide +kernel)).mpr
    fun _ => by decide +kernel

-- An ack from before the connection began opens it.
theorem handshake_unsound :
    halfOpen.tcb.state = .synrcvd ∧ ¬ HandshakeSound plainEnv halfOpen (peerSeg 5001 900 TCPF_ACK 100 0 []) false := by
  have opened : Opened (inputFound plainEnv halfOpen (peerSeg 5001 900 TCPF_ACK 100 0 []) false) := by decide +kernel
  have outside : ¬ AckInRange halfOpen (peerSeg 5001 900 TCPF_ACK 100 0 []).tcph := by decide +kernel
  exact ⟨by decide +kernel, fun sound => outside (sound.1 opened).2⟩

-- The numbers that the sending side keeps, and what was written.
def sendPlaces (w : World) : Seq × Seq × Seq × Seq × Seq × List Item :=
  (w.tcb.sndIsn, w.tcb.sndUna, w.tcb.sndNxt, w.tcb.sndMax, w.tcb.seqWrite, w.stream)

-- The connection was reset: it is closed, nothing is under way any more, and nothing will be sent. Without a
-- socket it is freed as well, which only a connection that always has one leaves to others.
structure Ended (w w' : World) : Prop where
  closed : w'.tcb.state = .closed
  idle : w'.tcb.ostate = .idle
  timer : w'.tcb.timerEvt = none
  places : sendPlaces w' = sendPlaces w
  sent : w'.net.sent.filter ofSndseg = w.net.sent.filter ofSndseg
  sock : w'.data.sock.isSome = w.data.sock.isSome
  freed : w.data.sock = none → w'.alive = false ∨ w.tcb.state.num ≤ TcbState.established.num
  cleared : w'.data.snd.q = [] ∧ w'.data.snd.curdatalen = 0

-- What comes before the reset may not touch what the sending side keeps.
theorem ended_from (w x w' : World) (ended : Ended x w') (closed : x.data.sock = w.data.sock) (state : x.tcb.state = w.tcb.state)
    (places : sendPlaces x = sendPlaces w) (sent : x.net.sent.filter ofSndseg = w.net.sent.filter ofSndseg) : Ended w w' where
  closed := ended.closed
  idle := ended.idle
  timer := ended.timer
  places := ended.places.trans places
  sent := ended.sent.trans sent
  sock := by rw [ended.sock, closed]
  freed := by
    rw [← closed, ← state]
    exact ended.freed
  cleared := ended.cleared

theorem ended_of_outgoing (w x w' : World) (same : outgoing x = outgoing w) (ended : Ended x w') : Ended w w' := by
  have kept := congrArg (fun y : World => y.net.sent) same
  exact ended_from w x w' ended (outgoing_same (fun y => y.data.sock) w x same fun _ => rfl)
    (outgoing_same (fun y => y.tcb.state) w x same fun _ => rfl) (outgoing_same sendPlaces w x same fun _ => rfl) kept

theorem ended_outgoing (w x w' : World) (ended : Ended w x) (same : outgoing w' = outgoing x) : Ended w w' where
  closed := (outgoing_same (fun y => y.tcb.state) x w' same fun _ => rfl).trans ended.closed
  idle := (outgoing_same (fun y => y.tcb.ostate) x w' same fun _ => rfl).trans ended.idle
  timer := (outgoing_same (fun y => y.tcb.timerEvt) x w' same fun _ => rfl).trans ended.timer
  places := (outgoing_same sendPlaces x w' same fun _ => rfl).trans ended.places
  sent := by
    have kept := congrArg (fun y : World => y.net.sent) same
    exact Eq.trans kept ended.sent
  sock := (outgoing_same (fun y => y.data.sock.isSome) x w' same fun _ => rfl).trans ended.sock
  freed := by
    intro gone
    rw [outgoing_same (fun y => y.alive) x w' same fun _ => rfl]
    exact ended.freed gone
  cleared := by
    rw [outgoing_same (fun y => y.data.snd) x w' same fun _ => rfl]
    exact ended.cleared

theorem ended_delete (w : World) (err : Int) : Ended w (tcbDelete (setState (tcbReset w err) .closed)) := by
  unfold tcbDelete
  split
  · exact ⟨rfl, rfl, rfl, rfl, rfl, rfl, fun _ => Or.inl rfl, rfl, rfl⟩
  · rename_i held
    refine ⟨rfl, rfl, rfl, rfl, rfl, rfl, fun gone => ?_, rfl, rfl⟩
    exact (held (by
      change w.data.sock.isNone
      rw [gone]
      rfl)).elim

theorem ended_close_with (w : World) (err : Int) : Ended w (closeWith w err) := ended_delete w err

theorem ended_refuse (env : Env) (w : World) (pkt : Pkt) : Ended w (refuse env w pkt) := by
  have ended := ended_delete (tcpSndrst env w pkt) ECONNRESET
  have same := outgoing_sndrst env w pkt
  refine ended_of_outgoing w _ _ same ?_
  unfold refuse tcbDelete
  unfold tcbDelete at ended
  split
  · exact ⟨rfl, rfl, rfl, rfl, rfl, rfl, fun _ => Or.inl rfl, rfl, rfl⟩
  · rename_i held
    refine ⟨rfl, rfl, rfl, rfl, rfl, rfl, fun gone => ?_, rfl, rfl⟩
    exact (held (by
      change (tcpSndrst env w pkt).data.sock.isNone
      rw [gone]
      rfl)).elim

end MagxNet.Tcp
