import MagxNet.Tcp.Books

set_option autoImplicit false

namespace MagxNet.Tcp

-- The state of the output side and its timer.
def clock (w : World) : OutState × Option Int := (w.tcb.ostate, w.tcb.timerEvt)

-- Nothing is to be sent and no timer runs; or something is, and one does.
def Resting (w : World) : Prop := w.tcb.ostate = .idle ∧ w.tcb.timerEvt = none

def Going (w : World) : Prop := w.tcb.ostate ≠ .idle ∧ w.tcb.timerEvt.isSome

theorem resting_of_clock (w w' : World) (same : clock w' = clock w) (rests : Resting w) : Resting w' :=
  ⟨(congrArg Prod.fst same).trans rests.1, (congrArg Prod.snd same).trans rests.2⟩

theorem going_of_clock (w w' : World) (same : clock w' = clock w) (goes : Going w) : Going w' := by
  have ostate : w'.tcb.ostate = w.tcb.ostate := congrArg Prod.fst same
  have timer : w'.tcb.timerEvt = w.tcb.timerEvt := congrArg Prod.snd same
  unfold Going
  rw [ostate, timer]
  exact goes

@[simp] theorem clock_snd_advance (w : World) (nxt : Seq) : clock (sndAdvance w nxt) = clock w := by
  unfold sndAdvance raiseMax
  split <;> rfl

@[simp] theorem clock_snd_failed (w : World) (r : Int) : clock (sndFailed w r) = clock w := by
  unfold sndFailed
  split <;> rfl

@[simp] theorem clock_give_up (w : World) (r : Int) (seqnxt : Seq) : clock (sndGiveUp w r seqnxt) = clock w :=
  clock_snd_advance (easeBackoff w r) seqnxt

theorem clock_sndseg (env : Env) (w : World) (b : Buf) (rest : List Buf) (nretrans : Int) (wnd1st wndnxt : Seq) :
    clock (tcpSndseg env w b rest nretrans wnd1st wndnxt).2 = clock w := by
  unfold tcpSndseg bufAlloc
  dsimp only
  split
  · rename_i got
    obtain ⟨-, rfl⟩ := Prod.mk.inj got
    rfl
  · rename_i id w1 got
    obtain ⟨-, rfl⟩ := Prod.mk.inj got
    split
    · rfl
    · rfl
    · unfold sndsegSend tcpRcvwnd extendMax
      split
      · split <;> rfl
      · dsimp only
        split <;> split <;> rfl

theorem clock_snd_loop (env : Env) (wndnxt : Seq) (bufs : List Buf) (sent : Nat) (rttseq : Seq) (w : World) :
    clock (sndLoop env wndnxt bufs sent rttseq w).world = clock w := by
  induction bufs generalizing sent rttseq w with
  | nil => rfl
  | cons b rest ih =>
      have same := clock_sndseg env w b rest 0 w.tcb.sndNxt wndnxt
      rw [sndLoop]
      split
      · cases got : tcpSndseg env w b rest 0 w.tcb.sndNxt wndnxt with
        | mk r w1 =>
            rw [got] at same
            dsimp only at same ⊢
            split
            · split
              · simp [same]
              · simp [same]
            · simp [ih, same]
      · rfl

@[simp] theorem clock_sndhead (env : Env) (w : World) : clock (tcpSndhead env w) = clock w := by
  unfold tcpSndhead
  split
  · rfl
  · split
    · split <;> rfl
    · rename_i last atLast
      have looped : clock (sndheadLoop env w last).world = clock w := clock_snd_loop env _ _ 0 0 w
      unfold sndheadDone
      dsimp only
      split <;> exact looped

@[simp] theorem clock_sndhead_pending (env : Env) (w : World) : clock (sndheadPending env w) = clock w := by
  unfold sndheadPending
  split
  · exact clock_sndhead env w
  · rfl

theorem clock_rtt (w : World) (b : Buf) : clock (tcpRtt w b) = clock w := by
  unfold tcpRtt
  split
  · split <;> rfl
  · rfl

theorem clock_drop_acked (una : Seq) (bufs : List Buf) (n : Nat) (w : World) :
    clock (dropAcked una bufs n w).2 = clock w := by
  induction bufs generalizing n w with
  | nil => rfl
  | cons b rest ih =>
      rw [dropAcked]
      split
      · rw [ih]
        exact clock_rtt (shortenSnd w b rest) b
      · rfl

theorem clock_drag_urg (w : World) : clock (dragUrg w) = clock w := by
  unfold dragUrg
  split <;> rfl

theorem clock_artt (w : World) : clock (tcpArtt w) = clock w := by
  unfold tcpArtt
  split
  · split <;> rfl
  · rfl

@[simp] theorem clock_dropdata (w : World) : clock (tcpDropdata w).2 = clock w := by
  have dropped := clock_drop_acked w.tcb.sndUna w.data.snd.q 0 w
  unfold tcpDropdata countAcked
  dsimp only
  rw [clock_drag_urg]
  split
  · exact (clock_artt _).trans dropped
  · exact dropped

@[simp] theorem clock_reset_backoff (w : World) (nsegs : Nat) : clock (resetBackoff w nsegs) = clock w := by
  unfold resetBackoff
  split
  · split <;> rfl
  · rfl

theorem clock_dupack_resend (env : Env) (w : World) : clock (dupackResend env w) = clock w := by
  unfold dupackResend
  split
  · split
    · rfl
    · split
      · exact clock_sndseg env w _ _ _ _ _
      · rfl
  · rfl

theorem going_timer_reset (w : World) (delta : Int) (goes : Going w) : Going (timerReset w delta) := by
  refine ⟨goes.1, ?_⟩
  change (w.tcb.timerEvt.map fun _ => delta).isSome
  rw [Option.isSome_map]
  exact goes.2

theorem going_reset_retrans (w : World) (goes : Going w) : Going (resetRetransTmo w) :=
  going_timer_reset (setRetransTmo w (tcpTimeout w)) _ goes

theorem going_ostate (w : World) (ostate : OutState) (busy : ostate ≠ .idle) (goes : Going w) :
    Going (setOstate w ostate) := ⟨busy, goes.2⟩

-- With nothing to do only a new segment starts the output side.
theorem resting_event (env : Env) (w : World) (event : OutEvent) (other : event ≠ .send) (rests : Resting w) :
    tcbOstate env w event = w := by
  rw [tcbOstate, rests.1]
  cases event with
  | send => exact (other rfl).elim
  | ackrcvd => rfl
  | wndopen => rfl
  | wndclose => rfl
  | timeout => rfl
  | dupack => rfl

theorem idle_sent_going (w : World) : Going (idleSent w) := by
  unfold idleSent idleArm
  split
  · exact ⟨(fun h => by cases h), rfl⟩
  · exact ⟨(fun h => by cases h), rfl⟩

theorem resting_send (env : Env) (w : World) (rests : Resting w) :
    SEQGE w.tcb.sndNxt w.tcb.seqWrite ∧ tcbOstate env w .send = w ∨ Going (tcbOstate env w .send) := by
  rw [tcbOstate, rests.1]
  dsimp only [tcbosIdle]
  split
  · rename_i nothing
    exact Or.inl ⟨nothing, rfl⟩
  · exact Or.inr (idle_sent_going _)

theorem going_xmit_wndclose (w : World) (goes : Going w) : Going (xmitWndclose w) := by
  unfold xmitWndclose
  split
  · exact goes
  · exact ⟨(fun h => by cases h), goes.2⟩

theorem going_retrans_wndclose (w : World) (goes : Going w) : Going (if canretrans w then w else toPersist w) := by
  split
  · exact goes
  · exact ⟨(fun h => by cases h), goes.2⟩

theorem going_persist_opened (w : World) (goes : Going w) : Going (persistOpened w) := by
  unfold persistOpened
  split
  · exact going_reset_retrans _ (going_ostate w .xmit (fun h => by cases h) goes)
  · exact goes

-- Once something is to be sent, only an ack or a timeout can end that.
theorem going_event (env : Env) (w : World) (event : OutEvent) (notTimeout : event ≠ .timeout)
    (notAck : event ≠ .ackrcvd) (goes : Going w) : Going (tcbOstate env w event) := by
  have pending : Going (sndheadPending env w) := going_of_clock _ _ (clock_sndhead_pending env w) goes
  unfold tcbOstate
  split
  · rename_i idle
    exact (goes.1 idle).elim
  · cases event with
    | send => exact goes
    | ackrcvd => exact (notAck rfl).elim
    | wndopen => exact goes
    | wndclose => exact going_retrans_wndclose w goes
    | timeout => exact (notTimeout rfl).elim
    | dupack => exact going_of_clock _ _ (clock_dupack_resend env w) goes
  · cases event with
    | send => exact goes
    | ackrcvd => exact (notAck rfl).elim
    | wndopen => exact going_persist_opened _ pending
    | wndclose => exact goes
    | timeout => exact (notTimeout rfl).elim
    | dupack => exact goes
  · cases event with
    | send => exact pending
    | ackrcvd => exact (notAck rfl).elim
    | wndopen => exact going_xmit_wndclose _ pending
    | wndclose => exact going_xmit_wndclose w goes
    | timeout => exact (notTimeout rfl).elim
    | dupack => exact goes

theorem going_xmit_acked (w : World) (goes : Going w) :
    allAcked w ∧ Resting (xmitAcked w) ∨ ¬ allAcked w ∧ Going (xmitAcked w) := by
  unfold xmitAcked
  split
  · rename_i acked
    exact Or.inl ⟨acked, rfl, rfl⟩
  · rename_i unacked
    exact Or.inr ⟨unacked, going_timer_reset (setRetransTmo w (tcpTimeout w)) _ goes⟩

theorem going_persist_acked (w : World) (goes : Going w) :
    allAcked w ∧ Resting (persistAcked w) ∨ ¬ allAcked w ∧ Going (persistAcked w) := by
  unfold persistAcked
  split
  · rename_i acked
    exact Or.inl ⟨acked, rfl, rfl⟩
  · rename_i unacked
    exact Or.inr ⟨unacked, goes⟩

theorem going_retrans_progress (env : Env) (w : World) (goes : Going w) : Going (retransProgress env w) := by
  unfold retransProgress
  split
  · have sent : Going (sndheadPending env (startCwnd w)) := going_of_clock _ _ (clock_sndhead_pending env _) goes
    exact going_reset_retrans _ (going_ostate _ .xmit (fun h => by cases h) sent)
  · exact going_timer_reset (setRetransTmo w (tcpTimeout w)) _ goes

theorem going_retrans_acked (env : Env) (w : World) (nsegs : Nat) (goes : Going w) :
    allAcked w ∧ Resting (retransAcked env w nsegs) ∨ ¬ allAcked w ∧ Going (retransAcked env w nsegs) := by
  unfold retransAcked
  split
  · rename_i acked
    exact Or.inl ⟨acked, rfl, rfl⟩
  · rename_i unacked
    exact Or.inr ⟨unacked, going_retrans_progress env _ (going_of_clock _ _ (clock_reset_backoff w nsegs) goes)⟩

theorem dropdata_acked (w : World) : allAcked (tcpDropdata w).2 ↔ allAcked w := by
  have una := steady_same (·.tcb.sndUna) _ _ (steady_dropdata w) fun _ => rfl
  have write := steady_same (·.tcb.seqWrite) _ _ (steady_dropdata w) fun _ => rfl
  unfold allAcked
  rw [una, write]

-- An ack of everything stops the timer.
theorem going_ackrcvd (env : Env) (w : World) (goes : Going w) :
    allAcked w ∧ Resting (tcbOstate env w .ackrcvd) ∨ ¬ allAcked w ∧ Going (tcbOstate env w .ackrcvd) := by
  have dropped : Going (tcpDropdata w).2 := going_of_clock _ _ (clock_dropdata w) goes
  rw [← dropdata_acked]
  unfold tcbOstate
  split
  · rename_i idle
    exact (goes.1 idle).elim
  · exact going_retrans_acked env _ _ dropped
  · exact going_persist_acked _ dropped
  · exact going_xmit_acked _ dropped

theorem going_retrans_arm (w : World) (busy : w.tcb.ostate ≠ .idle) : Going (retransArm w) := ⟨busy, rfl⟩

theorem going_probe_heard (env : Env) (w : World) (busy : w.tcb.ostate ≠ .idle) (heard : ¬ peerSilent w) :
    Going (tcpProbe env w) := by
  unfold tcpProbe
  rw [if_neg heard]
  refine ⟨?_, rfl⟩
  change (probeSend env w).tcb.ostate ≠ .idle
  unfold probeSend tcpMkseg bufAlloc
  dsimp only
  by_cases memory : env.memory w.net.allocs
  · rw [if_pos memory]
    exact busy
  · rw [if_neg memory]
    exact busy

theorem going_probe (env : Env) (w : World) (busy : w.tcb.ostate ≠ .idle) :
    Ended w (tcpProbe env w) ∨ Going (tcpProbe env w) := by
  by_cases silent : peerSilent w
  · unfold tcpProbe
    rw [if_pos silent]
    exact Or.inl (ended_close_with w _)
  · exact Or.inr (going_probe_heard env w busy silent)

theorem going_retrans_send (env : Env) (w : World) (b : Buf) (rest : List Buf) (busy : w.tcb.ostate ≠ .idle) :
    Going (retransSend env w b rest) := by
  have same := congrArg Prod.fst (clock_sndseg env w b rest w.tcb.nretrans w.tcb.sndUna w.tcb.sndNxt)
  unfold retransSend
  cases got : tcpSndseg env w b rest w.tcb.nretrans w.tcb.sndUna w.tcb.sndNxt with
  | mk r w1 =>
      rw [got] at same
      refine going_retrans_arm _ ?_
      have kept : w1.tcb.ostate ≠ .idle := by
        rw [show w1.tcb.ostate = w.tcb.ostate from same]
        exact busy
      split <;> exact kept

theorem going_retrans (env : Env) (w : World) (busy : w.tcb.ostate ≠ .idle) :
    Ended w (tcpRetrans env w) ∨ w.data.snd.q = [] ∨ Going (tcpRetrans env w) := by
  unfold tcpRetrans
  split
  · exact Or.inl (ended_from w (countRetrans w) _ (ended_close_with (countRetrans w) ETIMEDOUT) rfl rfl rfl rfl)
  · split
    · rename_i empty
      exact Or.inr (Or.inl empty)
    · exact Or.inr (Or.inr (going_retrans_send env (shrinkCwnd (countRetrans w)) _ _ busy))

-- A timer that fires is set again, unless the connection is given up or the queue is empty.
theorem going_timeout (env : Env) (w : World) (busy : w.tcb.ostate ≠ .idle) :
    (∃ x, Ended x (tcbOstate env w .timeout)) ∨ w.data.snd.q = [] ∨ Going (tcbOstate env w .timeout) := by
  unfold tcbOstate
  split
  · rename_i idle
    exact (busy idle).elim
  · obtain ended | rest := going_retrans env w busy
    · exact Or.inl ⟨w, ended⟩
    · exact Or.inr rest
  · rename_i persist
    dsimp only [tcbosPersist]
    split
    · have sent : (tcpSndhead env (setWndmax w)).tcb.ostate ≠ .idle := by
        rw [show (tcpSndhead env (setWndmax w)).tcb.ostate = w.tcb.ostate from
          congrArg Prod.fst (clock_sndhead env (setWndmax w))]
        exact busy
      unfold persistSent
      split
      · exact Or.inr (Or.inr (going_retrans_arm _ fun h => by cases h))
      · obtain ended | goes := going_probe env (noRtt (tcpSndhead env (setWndmax w))) sent
        · exact Or.inl ⟨_, ended⟩
        · exact Or.inr (Or.inr goes)
    · obtain ended | goes := going_probe env w busy
      · exact Or.inl ⟨w, ended⟩
      · exact Or.inr (Or.inr goes)
  · obtain ended | empty | goes := going_retrans env (capDupacks (noRtt (setOstate w .retrans))) fun h => by cases h
    · exact Or.inl ⟨_, ended⟩
    · exact Or.inr (Or.inl empty)
    · exact Or.inr (Or.inr goes)

end MagxNet.Tcp
