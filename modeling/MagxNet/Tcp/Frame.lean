import MagxNet.Tcp.Input

set_option autoImplicit false

namespace MagxNet.Tcp

-- The connection with everything blanked that the output side may change while it sends: two
-- connections that are steady in the same way agree on all the rest.
def steady (w : World) : World :=
  { w with
    tcb.ostate := .idle
    tcb.flags.dortt := false
    tcb.flags.delack := false
    tcb.flags.ackvalid := false
    tcb.sndNxt := 0
    tcb.sndMax := 0
    tcb.sndCwnd := 0
    tcb.sndThresh := 0
    tcb.sndWndmax := 0
    tcb.sndUrg := 0
    tcb.rcvWnd := 0
    tcb.rttseq := 0
    tcb.rtt := 0
    tcb.rttdev := 0
    tcb.backoff := 0
    tcb.nretrans := 0
    tcb.retransTmo := 0
    tcb.persistTmo := 0
    tcb.timerEvt := none
    tcb.lastRecv := 0
    tcb.lastAck := 0
    tcb.artt := 0
    tcb.arttdev := 0
    data.snd.q := []
    data.snd.curdatalen := 0
    data.err := 0
    net.allocs := 0
    net.sends := 0
    net.sent := []
    net.freed := []
    net.fault := false }

theorem steady_same {α : Type} (f : World → α) (w w' : World) (same : steady w' = steady w)
    (blind : ∀ x, f (steady x) = f x) : f w' = f w := by
  rw [← blind w', same, blind]

@[simp] theorem steady_alloc (env : Env) (w : World) : steady (bufAlloc env w).2 = steady w := rfl

@[simp] theorem steady_ip_send (env : Env) (w : World) (emitter : Emitter) (tcph : Dgram) :
    steady (ipSend env w emitter tcph).2 = steady w := rfl

@[simp] theorem steady_deref (w : World) (id : Nat) : steady (bufDeref w id) = steady w := rfl

@[simp] theorem steady_fault (w : World) : steady (fault w) = steady w := rfl

@[simp] theorem steady_ostate_set (w : World) (ostate : OutState) : steady (setOstate w ostate) = steady w := rfl

@[simp] theorem steady_snd_nxt (w : World) (nxt : Seq) : steady (setSndNxt w nxt) = steady w := rfl

@[simp] theorem steady_sndq (w : World) (q : List Buf) : steady (setSndq w q) = steady w := rfl

@[simp] theorem steady_clear_delack (w : World) : steady (clearDelack w) = steady w := rfl

@[simp] theorem steady_timer_add (w : World) (delta : Int) : steady (timerAdd w delta) = steady w := rfl

@[simp] theorem steady_timer_del (w : World) : steady (timerDel w) = steady w := rfl

@[simp] theorem steady_timer_reset (w : World) (delta : Int) : steady (timerReset w delta) = steady w := rfl

@[simp] theorem steady_error (w : World) (err : Int) : steady (tcbError w err) = steady w := rfl

@[simp] theorem steady_shorten (w : World) (b : Buf) (rest : List Buf) : steady (shortenSnd w b rest) = steady w :=
  rfl

@[simp] theorem steady_persist_tmo (w : World) (tmo : Int) : steady (setPersistTmo w tmo) = steady w := rfl

@[simp] theorem steady_retrans_tmo (w : World) (tmo : Int) : steady (setRetransTmo w tmo) = steady w := rfl

@[simp] theorem steady_tmos (w : World) (tmo : Int) : steady (setTmos w tmo) = steady w := rfl

@[simp] theorem steady_last_recv (w : World) : steady (setLastRecv w) = steady w := rfl

@[simp] theorem steady_no_rtt (w : World) : steady (noRtt w) = steady w := rfl

@[simp] theorem steady_clear_ackvalid (w : World) : steady (clearAckvalid w) = steady w := rfl

@[simp] theorem steady_start_cwnd (w : World) : steady (startCwnd w) = steady w := rfl

@[simp] theorem steady_start_rtt (w : World) (rttseq : Seq) : steady (startRtt w rttseq) = steady w := rfl

@[simp] theorem steady_grow_cwnd (w : World) (n : Nat) : steady (growCwnd w n) = steady w := rfl

@[simp] theorem steady_rcvwnd (w : World) (update : Bool) : steady (tcpRcvwnd w update).2 = steady w := by
  unfold tcpRcvwnd
  split <;> rfl

theorem steady_alloc_split (env : Env) (w w1 : World) (id : Option Nat) (got : bufAlloc env w = (id, w1)) :
    steady w1 = steady w := by
  rw [← steady_alloc env w, got]

@[simp] theorem steady_extend_max (w : World) (rest : List Buf) (n : Nat) :
    steady (extendMax w rest n) = steady w := by
  unfold extendMax
  split
  · rfl
  · dsimp only
    split <;> rfl

@[simp] theorem steady_sndseg (env : Env) (w : World) (b : Buf) (rest : List Buf) (nretrans : Int)
    (wnd1st wndnxt : Seq) : steady (tcpSndseg env w b rest nretrans wnd1st wndnxt).2 = steady w := by
  unfold tcpSndseg
  cases got : bufAlloc env w with
  | mk id w1 =>
      have kept := steady_alloc_split env w w1 id got
      cases id with
      | none => exact kept
      | some id =>
          dsimp only
          split
          · exact kept
          · exact kept
          · simp [sndsegSend, kept]

theorem steady_sndseg_split (env : Env) (w w1 : World) (b : Buf) (rest : List Buf) (nretrans r : Int)
    (wnd1st wndnxt : Seq) (sent : tcpSndseg env w b rest nretrans wnd1st wndnxt = (r, w1)) :
    steady w1 = steady w := by
  rw [← steady_sndseg env w b rest nretrans wnd1st wndnxt, sent]

@[simp] theorem steady_rtt (w : World) (b : Buf) : steady (tcpRtt w b) = steady w := by
  unfold tcpRtt
  split
  · split <;> rfl
  · rfl

@[simp] theorem steady_artt (w : World) : steady (tcpArtt w) = steady w := by
  unfold tcpArtt
  split
  · split <;> rfl
  · rfl

theorem steady_drop_acked (una : Seq) (bufs : List Buf) (n : Nat) (w : World) :
    steady (dropAcked una bufs n w).2 = steady w := by
  induction bufs generalizing n w with
  | nil => rfl
  | cons b rest ih =>
      rw [dropAcked]
      split
      · simp [ih]
      · rfl

@[simp] theorem steady_drag_urg (w : World) : steady (dragUrg w) = steady w := by
  unfold dragUrg
  split <;> rfl

@[simp] theorem steady_dropdata (w : World) : steady (tcpDropdata w).2 = steady w := by
  have dropped := steady_drop_acked w.tcb.sndUna w.data.snd.q 0 w
  unfold tcpDropdata countAcked
  dsimp only
  split
  · simpa using dropped
  · simpa using dropped

@[simp] theorem steady_raise_max (w : World) : steady (raiseMax w) = steady w := by
  unfold raiseMax
  split <;> rfl

@[simp] theorem steady_snd_failed (w : World) (r : Int) : steady (sndFailed w r) = steady w := by
  unfold sndFailed
  split <;> rfl

@[simp] theorem steady_ease_backoff (w : World) (r : Int) : steady (easeBackoff w r) = steady w := rfl

@[simp] theorem steady_snd_advance (w : World) (nxt : Seq) : steady (sndAdvance w nxt) = steady w := by
  simp [sndAdvance]

@[simp] theorem steady_snd_give_up (w : World) (r : Int) (seqnxt : Seq) :
    steady (sndGiveUp w r seqnxt) = steady w := by
  simp [sndGiveUp]

theorem steady_snd_loop (env : Env) (wndnxt : Seq) (bufs : List Buf) (sent : Nat) (rttseq : Seq) (w : World) :
    steady (sndLoop env wndnxt bufs sent rttseq w).world = steady w := by
  induction bufs generalizing sent rttseq w with
  | nil => rfl
  | cons b rest ih =>
      rw [sndLoop]
      split
      · cases got : tcpSndseg env w b rest 0 w.tcb.sndNxt wndnxt with
        | mk r w1 =>
            have kept := steady_sndseg_split env w w1 b rest 0 r _ _ got
            dsimp only
            split
            · split
              · simp [kept]
              · simp [kept]
            · simp [ih, kept]
      · rfl

theorem sndhead_done_keeps (skipped : List Buf) (done : SndLoop) :
    (sndheadDone skipped done).tcb.sndNxt = done.world.tcb.sndNxt ∧ (sndheadDone skipped done).net = done.world.net := by
  unfold sndheadDone
  dsimp only
  split <;> exact ⟨rfl, rfl⟩

@[simp] theorem steady_sndhead (env : Env) (w : World) : steady (tcpSndhead env w) = steady w := by
  unfold tcpSndhead
  split
  · rfl
  · split
    · split <;> rfl
    · rename_i last atLast
      have looped : steady (sndheadLoop env w last).world = steady w := steady_snd_loop env _ _ 0 0 w
      unfold sndheadDone
      dsimp only
      split <;> simpa using looped

@[simp] theorem steady_sndhead_pending (env : Env) (w : World) : steady (sndheadPending env w) = steady w := by
  unfold sndheadPending
  split
  · exact steady_sndhead env w
  · rfl

@[simp] theorem steady_idle_start (w : World) : steady (idleStart w) = steady w := by
  unfold idleStart
  split <;> rfl

@[simp] theorem steady_idle_sent (w : World) : steady (idleSent w) = steady w := by
  unfold idleSent idleArm
  split <;> rfl

theorem steady_idle (env : Env) (w : World) (event : OutEvent) : steady (tcbosIdle env w event) = steady w := by
  cases event with
  | send =>
      dsimp only [tcbosIdle]
      split
      · rfl
      · simp
  | ackrcvd => rfl
  | wndopen => rfl
  | wndclose => rfl
  | timeout => rfl
  | dupack => rfl

@[simp] theorem steady_to_persist (w : World) : steady (toPersist w) = steady w := rfl

@[simp] theorem steady_to_idle (w : World) : steady (toIdle w) = steady w := rfl

@[simp] theorem steady_xmit_wndclose (w : World) : steady (xmitWndclose w) = steady w := by
  unfold xmitWndclose
  split <;> rfl

@[simp] theorem steady_xmit_acked (w : World) : steady (xmitAcked w) = steady w := by
  unfold xmitAcked
  split <;> rfl

theorem steady_xmit (env : Env) (w : World) (event : OutEvent) (quiet : event ≠ .timeout) :
    steady (tcbosXmit env w event) = steady w := by
  cases event with
  | send => exact steady_sndhead_pending env w
  | wndopen => exact (steady_xmit_wndclose _).trans (steady_sndhead_pending env w)
  | wndclose => exact steady_xmit_wndclose w
  | ackrcvd => exact (steady_xmit_acked _).trans (steady_dropdata w)
  | timeout => exact (quiet rfl).elim
  | dupack => rfl

theorem steady_dupack_resend (env : Env) (w : World) : steady (dupackResend env w) = steady w := by
  unfold dupackResend
  split
  · split
    · rfl
    · split
      · exact steady_sndseg env w _ _ _ _ _
      · rfl
  · rfl

@[simp] theorem steady_reset_backoff (w : World) (nsegs : Nat) : steady (resetBackoff w nsegs) = steady w := by
  unfold resetBackoff
  split
  · split <;> rfl
  · rfl

@[simp] theorem steady_reset_retrans_tmo (w : World) : steady (resetRetransTmo w) = steady w := rfl

@[simp] theorem steady_retrans_progress (env : Env) (w : World) : steady (retransProgress env w) = steady w := by
  unfold retransProgress
  split
  · simp
  · rfl

@[simp] theorem steady_retrans_acked (env : Env) (w : World) (nsegs : Nat) :
    steady (retransAcked env w nsegs) = steady w := by
  unfold retransAcked
  split
  · rfl
  · simp

theorem steady_retrans (env : Env) (w : World) (event : OutEvent) (quiet : event ≠ .timeout) :
    steady (tcbosRetrans env w event) = steady w := by
  cases event with
  | ackrcvd => exact (steady_retrans_acked env _ _).trans (steady_dropdata w)
  | wndclose =>
      dsimp only [tcbosRetrans]
      split <;> rfl
  | dupack => exact steady_dupack_resend env w
  | timeout => exact (quiet rfl).elim
  | send => rfl
  | wndopen => rfl

@[simp] theorem steady_persist_acked (w : World) : steady (persistAcked w) = steady w := by
  unfold persistAcked
  split <;> rfl

@[simp] theorem steady_persist_opened (w : World) : steady (persistOpened w) = steady w := by
  unfold persistOpened
  split <;> rfl

theorem steady_persist (env : Env) (w : World) (event : OutEvent) (quiet : event ≠ .timeout) :
    steady (tcbosPersist env w event) = steady w := by
  cases event with
  | ackrcvd => exact (steady_persist_acked _).trans (steady_dropdata w)
  | wndopen => exact (steady_persist_opened _).trans (steady_sndhead_pending env w)
  | timeout => exact (quiet rfl).elim
  | send => rfl
  | wndclose => rfl
  | dupack => rfl

-- Only a timeout can close a connection from its output side.
theorem steady_ostate (env : Env) (w : World) (event : OutEvent) (quiet : event ≠ .timeout) :
    steady (tcbOstate env w event) = steady w := by
  unfold tcbOstate
  split
  · exact steady_idle env w event
  · exact steady_retrans env w event quiet
  · exact steady_persist env w event quiet
  · exact steady_xmit env w event quiet

theorem steady_window_event (env : Env) (w old : World) (tcph : Dgram) :
    steady (tcbOstate env w (windowEvent old tcph)) = steady w := by
  apply steady_ostate
  unfold windowEvent
  split <;> simp

theorem steady_output_ack (env : Env) (w : World) (psh : Bool) : steady (outputAck env w psh).2 = steady w := by
  unfold outputAck tcpMkseg
  cases got : bufAlloc env w with
  | mk id w1 =>
      have same := steady_alloc_split env w w1 id got
      cases id with
      | none => exact same
      | some id => simp [same]

@[simp] theorem steady_send_ack (env : Env) (w : World) : steady (sendAck env w) = steady w :=
  steady_output_ack env w false

@[simp] theorem steady_sndack (env : Env) (w : World) (pkt : Pkt) : steady (tcpSndack env w pkt) = steady w := by
  unfold tcpSndack
  split
  · rfl
  · cases got : bufAlloc env w with
    | mk id w1 =>
        have same := steady_alloc_split env w w1 id got
        cases id with
        | none => exact same
        | some id => simp [same]

@[simp] theorem steady_sndrst (env : Env) (w : World) (pkt : Pkt) : steady (tcpSndrst env w pkt) = steady w := by
  unfold tcpSndrst
  split
  · rfl
  · cases got : bufAlloc env w with
    | mk id w1 =>
        have same := steady_alloc_split env w w1 id got
        cases id with
        | none => exact same
        | some id => exact same

-- The connection with everything blanked that an ack may change besides.
def incoming (w : World) : World :=
  { steady w with
    tcb.sndUna := 0
    tcb.sndWnd := 0
    tcb.sndWndseq := 0
    tcb.sndWndack := 0
    tcb.sndPpw := 0
    tcb.dupacks := 0 }

theorem incoming_same {α : Type} (f : World → α) (w w' : World) (same : incoming w' = incoming w)
    (blind : ∀ x, f (incoming x) = f x) : f w' = f w := by
  rw [← blind w', same, blind]

theorem incoming_of_steady (w w' : World) (same : steady w' = steady w) : incoming w' = incoming w := by
  unfold incoming
  rw [same]

@[simp] theorem incoming_una (w : World) (ack : Seq) : incoming (setUna w ack) = incoming w := rfl

@[simp] theorem incoming_dupacks (w : World) (dupacks : Int) : incoming (setDupacks w dupacks) = incoming w := rfl

@[simp] theorem incoming_sndwnd (w : World) (tcph : Dgram) : incoming (tcpSndwnd w tcph) = incoming w := by
  unfold tcpSndwnd noteWndmax
  split <;> rfl

@[simp] theorem incoming_ack_place (env : Env) (w : World) (pkt : Pkt) (osndWnd : Int) :
    incoming (ackPlace env w pkt osndWnd) = incoming w := by
  unfold ackPlace
  split
  · split
    · exact incoming_of_steady _ _ (steady_sndrst env w pkt)
    · exact incoming_of_steady _ _ (steady_sndack env w pkt)
  · split
    · rw [incoming_dupacks, incoming_of_steady _ _ (steady_ostate env _ .ackrcvd (by decide)), incoming_una]
    · split
      · rfl
      · split
        · rw [incoming_of_steady _ _ (steady_ostate env _ .dupack (by decide)), incoming_dupacks]
        · rfl

@[simp] theorem incoming_ack (env : Env) (w : World) (pkt : Pkt) (updateSndwnd : Bool) :
    incoming (tcpAck env w pkt updateSndwnd) = incoming w := by
  unfold tcpAck
  split
  · rfl
  · split
    · unfold ackUpdating
      rw [incoming_of_steady _ _ (steady_window_event env _ w pkt.tcph)]
      simp
    · simp

def ofSndseg (s : Sent) : Bool := decide (s.emitter = .sndseg)

-- The connection with everything blanked that receiving may change; of what was sent only the
-- segments with data or flags in them are kept, which only the output side sends.
def outgoing (w : World) : World :=
  { w with
    tcb.flags.psh := false
    tcb.flags.fin := false
    tcb.flags.delack := false
    tcb.rcvIsn := 0
    tcb.rcvNxt := 0
    tcb.rcvWnd := 0
    tcb.rcvMss := 0
    tcb.rcvUrg := 0
    tcb.seqPsh := 0
    tcb.seqFin := 0
    tcb.seqRead := 0
    tcb.seqUread := 0
    tcb.ackEvt := none
    tcb.lastRecv := 0
    data.rcv := ⟨0, 0, []⟩
    data.dead := false
    net.allocs := 0
    net.sends := 0
    net.sent := w.net.sent.filter ofSndseg
    net.freed := [] }

theorem outgoing_same {α : Type} (f : World → α) (w w' : World) (same : outgoing w' = outgoing w)
    (blind : ∀ x, f (outgoing x) = f x) : f w' = f w := by
  rw [← blind w', same, blind]

@[simp] theorem outgoing_alloc (env : Env) (w : World) : outgoing (bufAlloc env w).2 = outgoing w := rfl

theorem outgoing_alloc_split (env : Env) (w w1 : World) (id : Option Nat) (got : bufAlloc env w = (id, w1)) :
    outgoing w1 = outgoing w := by
  rw [← outgoing_alloc env w, got]

theorem outgoing_ip_send (env : Env) (w : World) (emitter : Emitter) (tcph : Dgram) (bare : emitter ≠ .sndseg) :
    outgoing (ipSend env w emitter tcph).2 = outgoing w := by
  have dropped : (w.net.sent ++ [(⟨emitter, tcph, w.tcb⟩ : Sent)]).filter ofSndseg = w.net.sent.filter ofSndseg := by
    simp [List.filter_append, ofSndseg, bare]
  unfold outgoing ipSend
  dsimp only
  rw [dropped]

@[simp] theorem outgoing_deref (w : World) (id : Nat) : outgoing (bufDeref w id) = outgoing w := rfl

@[simp] theorem outgoing_derefs (w : World) (ids : List Nat) : outgoing (bufsDeref w ids) = outgoing w := rfl

@[simp] theorem outgoing_clear_delack (w : World) : outgoing (clearDelack w) = outgoing w := rfl

@[simp] theorem outgoing_rcv_nxt (w : World) (nxt : Seq) : outgoing (setRcvNxt w nxt) = outgoing w := rfl

@[simp] theorem outgoing_rcvq (w : World) (q : Dataq) : outgoing (setRcvq w q) = outgoing w := rfl

@[simp] theorem outgoing_last_recv (w : World) : outgoing (setLastRecv w) = outgoing w := rfl

@[simp] theorem outgoing_dead (w : World) : outgoing (setDead w) = outgoing w := rfl

@[simp] theorem outgoing_start_rcv (w : World) (seq : Seq) : outgoing (startRcv w seq) = outgoing w := rfl

@[simp] theorem outgoing_rcv_mss (w : World) (mss : Int) : outgoing (setRcvMss w mss) = outgoing w := rfl

@[simp] theorem outgoing_arm_delack (w : World) : outgoing (armDelack w) = outgoing w := rfl

@[simp] theorem outgoing_drag_pointers (w : World) (lowest : Seq) : outgoing (dragPointers w lowest) = outgoing w :=
  rfl

@[simp] theorem outgoing_read_ptr (w : World) (oob : Bool) (nxt : Seq) :
    outgoing (setReadPtr w oob nxt) = outgoing w := rfl

@[simp] theorem outgoing_put_back (w : World) (bufs done : List Buf) : outgoing (putBack w bufs done) = outgoing w :=
  rfl

@[simp] theorem outgoing_mark_all (w : World) : outgoing (markAll w) = outgoing w := rfl

@[simp] theorem outgoing_rcvwnd (w : World) (update : Bool) : outgoing (tcpRcvwnd w update).2 = outgoing w := by
  unfold tcpRcvwnd
  split <;> rfl

@[simp] theorem outgoing_limit_rcv (env : Env) (w : World) (faddr : InAddr) (maxmss : Int) :
    outgoing (limitRcv env w faddr maxmss) = outgoing w := by
  unfold limitRcv
  split
  · rfl
  · dsimp only
    split <;> rfl

theorem outgoing_output_ack (env : Env) (w : World) (psh : Bool) :
    outgoing (outputAck env w psh).2 = outgoing w := by
  unfold outputAck tcpMkseg
  cases got : bufAlloc env w with
  | mk id w1 =>
      have same := outgoing_alloc_split env w w1 id got
      cases id with
      | none => exact same
      | some id => exact (outgoing_ip_send env _ _ _ (by decide)).trans (by simp [same])

@[simp] theorem outgoing_send_ack (env : Env) (w : World) : outgoing (sendAck env w) = outgoing w :=
  outgoing_output_ack env w false

@[simp] theorem outgoing_sndack (env : Env) (w : World) (pkt : Pkt) :
    outgoing (tcpSndack env w pkt) = outgoing w := by
  unfold tcpSndack
  split
  · rfl
  · cases got : bufAlloc env w with
    | mk id w1 =>
        have same := outgoing_alloc_split env w w1 id got
        cases id with
        | none => exact same
        | some id => exact (outgoing_ip_send env _ _ _ (by decide)).trans (by simp [same])

@[simp] theorem outgoing_sndrst (env : Env) (w : World) (pkt : Pkt) :
    outgoing (tcpSndrst env w pkt) = outgoing w := by
  unfold tcpSndrst
  split
  · rfl
  · cases got : bufAlloc env w with
    | mk id w1 =>
        have same := outgoing_alloc_split env w w1 id got
        cases id with
        | none => exact same
        | some id => exact (outgoing_ip_send env _ _ _ (by decide)).trans same

@[simp] theorem outgoing_rcv_flags (w : World) (pkt : Pkt) : outgoing (rcvFlags w pkt) = outgoing w := by
  unfold rcvFlags notePsh noteFin noteSyn
  split <;> split <;> split <;> rfl

@[simp] theorem outgoing_recv_seg (w : World) (buf : Buf) : outgoing (recvSeg w buf) = outgoing w := rfl

@[simp] theorem outgoing_rcv_queue (w : World) (pkt : Pkt) : outgoing (rcvQueue w pkt) = outgoing w := rfl

@[simp] theorem outgoing_rcv_answer (env : Env) (w : World) (acknow : Bool) :
    outgoing (rcvAnswer env w acknow) = outgoing w := by
  unfold rcvAnswer
  split <;> simp

@[simp] theorem outgoing_rcvdata (env : Env) (w : World) (pkt : Pkt) :
    outgoing (tcpRcvdata env w pkt) = outgoing w := by
  unfold tcpRcvdata rcvTaken
  split <;> simp

@[simp] theorem outgoing_dodelack (env : Env) (w : World) : outgoing (dodelack env w) = outgoing w := by
  unfold dodelack
  split <;> simp

@[simp] theorem outgoing_queue_urgent (env : Env) (w : World) (ubuf : Buf) :
    outgoing (queueUrgent env w ubuf) = outgoing w := by
  unfold queueUrgent urgentAdvance
  split
  · split <;> simp
  · rfl

@[simp] theorem outgoing_note_urgent (w : World) (urgptr : Seq) : outgoing (noteUrgent w urgptr) = outgoing w := by
  unfold noteUrgent
  split <;> rfl

@[simp] theorem outgoing_copy_urgent (env : Env) (w : World) (tcph : Dgram) :
    outgoing (copyUrgent env w tcph) = outgoing w := by
  unfold copyUrgent
  cases got : bufAlloc env w with
  | mk id w1 =>
      have same := outgoing_alloc_split env w w1 id got
      cases id with
      | none => exact same
      | some id => simp [same]

@[simp] theorem outgoing_rcvurg_conn (env : Env) (w : World) (tcph : Dgram) :
    outgoing (rcvurgConn env w tcph) = outgoing w := by
  unfold rcvurgConn
  split
  · rfl
  · split <;> simp

@[simp] theorem outgoing_rcvurg (env : Env) (w : World) (pkt : Pkt) :
    outgoing (tcpRcvurg env w pkt).2 = outgoing w := by
  unfold tcpRcvurg
  split
  · simp
  · rfl

@[simp] theorem outgoing_input_urgent (env : Env) (w : World) (pkt : Pkt) :
    outgoing (inputUrgent env w pkt).2 = outgoing w := by
  unfold inputUrgent
  split
  · simp
  · rfl

@[simp] theorem outgoing_announce (env : Env) (w : World) : outgoing (announce env w) = outgoing w := by
  unfold announce
  split <;> simp

@[simp] theorem outgoing_free_marked (w : World) : outgoing (freeMarked w) = outgoing w := by
  unfold freeMarked
  rfl

@[simp] theorem outgoing_dropsegs (env : Env) (w : World) : outgoing (tcpDropsegs env w) = outgoing w := by
  simp [tcpDropsegs]

@[simp] theorem outgoing_recv_copy (env : Env) (w : World) (args : RecvArgs) (bufs : List Buf) (readnxt : Seq) :
    outgoing (recvCopy env w args bufs readnxt).2 = outgoing w := by
  unfold recvCopy
  dsimp only
  split <;> simp

@[simp] theorem outgoing_recv_round (env : Env) (w : World) (args : RecvArgs) :
    outgoing (recvRound env w args).2 = outgoing w := by
  unfold recvRound
  split
  · split
    · rfl
    · split
      · rfl
      · split <;> rfl
  · simp

end MagxNet.Tcp
