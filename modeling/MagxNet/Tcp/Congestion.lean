import MagxNet.Tcp.Pace

set_option autoImplicit false

namespace MagxNet.Tcp

open Bytes

-- Segment size, congestion window and send buffer are never negative.
def Sized (w : World) : Prop := 0 ≤ w.tcb.sndMss ∧ 0 ≤ w.tcb.sndCwnd ∧ 0 ≤ w.data.snd.maxdatalen

def sizes (w : World) : Int × Int × Int := (w.tcb.sndMss, w.tcb.sndCwnd, w.data.snd.maxdatalen)

theorem sized_of_eq (w w' : World) (same : sizes w' = sizes w) (sized : Sized w) : Sized w' := by
  obtain ⟨mss, cwnd, room⟩ : _ ∧ _ ∧ _ := by simpa [sizes] using same
  unfold Sized
  rw [mss, cwnd, room]
  exact sized

theorem sizes_outgoing (w w' : World) (same : outgoing w' = outgoing w) : sizes w' = sizes w :=
  outgoing_same sizes w w' same fun _ => rfl

theorem sizes_sndseg (env : Env) (w : World) (b : Buf) (rest : List Buf) (nretrans : Int) (wnd1st wndnxt : Seq) :
    sizes (tcpSndseg env w b rest nretrans wnd1st wndnxt).2 = sizes w := by
  unfold tcpSndseg bufAlloc
  dsimp only
  split
  · rename_i got
    obtain ⟨-, rfl⟩ := Prod.mk.inj got
    rfl
  · rename_i id w1 got
    obtain ⟨-, rfl⟩ := Prod.mk.inj got
    split
    · rfl
    · rfl
    · unfold sndsegSend ipSend clearDelack tcpRcvwnd extendMax
      dsimp only
      split
      · split <;> rfl
      · split <;> split <;> rfl

theorem sizes_advance (w : World) (nxt : Seq) : sizes (sndAdvance w nxt) = sizes w := by
  unfold sndAdvance raiseMax
  split <;> rfl

theorem sizes_failed (w : World) (r : Int) : sizes (sndFailed w r) = sizes w := by
  unfold sndFailed
  split <;> rfl

theorem sizes_snd_loop (env : Env) (wndnxt : Seq) (bufs : List Buf) (sent : Nat) (rttseq : Seq) (w : World) :
    sizes (sndLoop env wndnxt bufs sent rttseq w).world = sizes w := by
  induction bufs generalizing sent rttseq w with
  | nil => rfl
  | cons b rest ih =>
      have same := sizes_sndseg env w b rest 0 w.tcb.sndNxt wndnxt
      rw [sndLoop]
      cases got : tcpSndseg env w b rest 0 w.tcb.sndNxt wndnxt with
      | mk r w1 =>
          rw [got] at same
          dsimp only at same ⊢
          split
          · split
            · split
              · exact (sizes_advance (easeBackoff (sndFailed w1 r) r) (seqEnd b)).trans ((sizes_failed w1 r).trans same)
              · exact (sizes_failed w1 r).trans same
            · dsimp only
              rw [ih, sizes_advance, same]
          · rfl

theorem sizes_sndhead (env : Env) (w : World) : sizes (tcpSndhead env w) = sizes w := by
  unfold tcpSndhead
  split
  · rfl
  · split
    · split <;> rfl
    · rename_i last atLast
      have same := sizes_snd_loop env (sndheadEdge w last) (w.data.snd.q.dropWhile (alreadySent w)) 0 0 w
      unfold sndheadDone
      dsimp only
      split <;> exact same

theorem sizes_pending (env : Env) (w : World) : sizes (sndheadPending env w) = sizes w := by
  unfold sndheadPending
  split
  · exact sizes_sndhead env w
  · rfl

theorem sized_start_cwnd (w : World) (sized : Sized w) : Sized (startCwnd w) := ⟨sized.1, sized.1, sized.2.2⟩

theorem sized_idle_start (w : World) (sized : Sized w) : Sized (idleStart w) := by
  unfold idleStart
  split
  · exact sized_start_cwnd w sized
  · exact sized

theorem sizes_idle_sent (w : World) : sizes (idleSent w) = sizes w := by
  unfold idleSent idleArm
  split <;> rfl

theorem sizes_xmit_wndclose (w : World) : sizes (xmitWndclose w) = sizes w := by
  unfold xmitWndclose
  split <;> rfl

theorem sizes_drop_acked (una : Seq) (bufs : List Buf) (n : Nat) (w : World) :
    sizes (dropAcked una bufs n w).2 = sizes w := by
  induction bufs generalizing n w with
  | nil => rfl
  | cons b rest ih =>
      rw [dropAcked]
      split
      · rw [ih]
        unfold tcpRtt
        split
        · split <;> rfl
        · rfl
      · rfl

theorem sizes_artt (w : World) : sizes (tcpArtt w) = sizes w := by
  unfold tcpArtt
  split
  · split <;> rfl
  · rfl

theorem sizes_drag_urg (w : World) : sizes (dragUrg w) = sizes w := by
  unfold dragUrg
  split <;> rfl

theorem sized_grow_cwnd (w : World) (n : Nat) (sized : Sized w) : Sized (growCwnd w n) := by
  refine ⟨sized.1, ?_, sized.2.2⟩
  have step : 0 ≤ (if w.tcb.sndCwnd < w.tcb.sndThresh then w.tcb.sndMss else w.tcb.sndMss * w.tcb.sndMss / w.tcb.sndCwnd) := by
    split
    · exact sized.1
    · exact Int.ediv_nonneg (mul_nonneg sized.1 sized.1) sized.2.1
  exact add_nonneg sized.2.1 (mul_nonneg (Int.natCast_nonneg n) step)

theorem sized_dropdata (w : World) (sized : Sized w) : Sized (tcpDropdata w).2 := by
  have dropped := sized_of_eq _ _ (sizes_drop_acked w.tcb.sndUna w.data.snd.q 0 w) sized
  unfold tcpDropdata countAcked
  refine sized_of_eq _ _ (sizes_drag_urg _) ?_
  split
  · exact sized_grow_cwnd _ _ (sized_of_eq _ _ (sizes_artt _) dropped)
  · exact dropped

theorem sizes_xmit_acked (w : World) : sizes (xmitAcked w) = sizes w := by
  unfold xmitAcked
  split <;> rfl

theorem sizes_close_with (w : World) (err : Int) : sizes (closeWith w err) = sizes w := by
  unfold closeWith tcbDelete
  split <;> rfl

theorem sizes_probe (env : Env) (w : World) : sizes (tcpProbe env w) = sizes w := by
  unfold tcpProbe
  split
  · exact sizes_close_with w _
  · unfold probeSend tcpMkseg bufAlloc
    dsimp only
    by_cases memory : env.memory w.net.allocs
    · rw [if_pos memory]
      rfl
    · rw [if_neg memory]
      rfl

theorem sizes_retrans_send (env : Env) (w : World) (b : Buf) (rest : List Buf) : sizes (retransSend env w b rest) = sizes w := by
  have same := sizes_sndseg env w b rest w.tcb.nretrans w.tcb.sndUna w.tcb.sndNxt
  unfold retransSend
  cases got : tcpSndseg env w b rest w.tcb.nretrans w.tcb.sndUna w.tcb.sndNxt with
  | mk r w1 =>
      rw [got] at same
      dsimp only at same ⊢
      split <;> exact same

theorem sized_tcp_retrans (env : Env) (w : World) (sized : Sized w) : Sized (tcpRetrans env w) := by
  unfold tcpRetrans
  split
  · exact sized_of_eq _ _ (sizes_close_with (countRetrans w) ETIMEDOUT) sized
  · split
    · exact sized
    · have shrunk : Sized (shrinkCwnd (countRetrans w)) := ⟨sized.1, sized.1, sized.2.2⟩
      exact sized_of_eq _ _ (sizes_retrans_send env _ _ _) shrunk

theorem sizes_dupack (env : Env) (w : World) : sizes (dupackResend env w) = sizes w := by
  unfold dupackResend
  split
  · split
    · rfl
    · split
      · exact sizes_sndseg env w _ _ _ _ _
      · rfl
  · rfl

theorem sizes_reset_backoff (w : World) (nsegs : Nat) : sizes (resetBackoff w nsegs) = sizes w := by
  unfold resetBackoff
  split
  · split <;> rfl
  · rfl

theorem sized_retrans_acked (env : Env) (w : World) (nsegs : Nat) (sized : Sized w) : Sized (retransAcked env w nsegs) := by
  unfold retransAcked
  split
  · exact sized
  · have reset := sized_of_eq _ _ (sizes_reset_backoff w nsegs) sized
    unfold retransProgress
    split
    · exact sized_of_eq _ _ (sizes_pending env (startCwnd (resetBackoff w nsegs))) (sized_start_cwnd _ reset)
    · exact reset

theorem sizes_persist_sent (env : Env) (w : World) : sizes (persistSent env w) = sizes w := by
  unfold persistSent
  split
  · rfl
  · exact sizes_probe env (noRtt w)

theorem sizes_persist_acked (w : World) : sizes (persistAcked w) = sizes w := by
  unfold persistAcked
  split <;> rfl

theorem sizes_persist_opened (w : World) : sizes (persistOpened w) = sizes w := by
  unfold persistOpened
  split <;> rfl

theorem sized_idle (env : Env) (w : World) (event : OutEvent) (sized : Sized w) : Sized (tcbosIdle env w event) := by
  cases event with
  | send =>
      dsimp only [tcbosIdle]
      split
      · exact sized
      · exact sized_of_eq _ _ ((sizes_idle_sent _).trans (sizes_sndhead env _)) (sized_idle_start w sized)
  | ackrcvd => exact sized
  | wndopen => exact sized
  | wndclose => exact sized
  | timeout => exact sized
  | dupack => exact sized

theorem sized_xmit (env : Env) (w : World) (event : OutEvent) (sized : Sized w) : Sized (tcbosXmit env w event) := by
  cases event with
  | send => exact sized_of_eq _ _ (sizes_pending env w) sized
  | ackrcvd => exact sized_of_eq _ _ (sizes_xmit_acked _) (sized_dropdata w sized)
  | wndopen => exact sized_of_eq _ _ ((sizes_xmit_wndclose _).trans (sizes_pending env w)) sized
  | wndclose => exact sized_of_eq _ _ (sizes_xmit_wndclose w) sized
  | timeout => exact sized_tcp_retrans env _ (sized_of_eq w _ rfl sized)
  | dupack => exact sized

theorem sized_retrans (env : Env) (w : World) (event : OutEvent) (sized : Sized w) : Sized (tcbosRetrans env w event) := by
  cases event with
  | send => exact sized
  | ackrcvd => exact sized_retrans_acked env _ _ (sized_dropdata w sized)
  | wndopen => exact sized
  | wndclose =>
      dsimp only [tcbosRetrans]
      split <;> exact sized
  | timeout => exact sized_tcp_retrans env w sized
  | dupack => exact sized_of_eq _ _ (sizes_dupack env w) sized

theorem sized_persist (env : Env) (w : World) (event : OutEvent) (sized : Sized w) : Sized (tcbosPersist env w event) := by
  cases event with
  | send => exact sized
  | ackrcvd => exact sized_of_eq _ _ (sizes_persist_acked _) (sized_dropdata w sized)
  | wndopen => exact sized_of_eq _ _ ((sizes_persist_opened _).trans (sizes_pending env w)) sized
  | wndclose => exact sized
  | timeout =>
      dsimp only [tcbosPersist]
      split
      · exact sized_of_eq _ _ ((sizes_persist_sent env _).trans (sizes_sndhead env (setWndmax w))) sized
      · exact sized_of_eq _ _ (sizes_probe env w) sized
  | dupack => exact sized

theorem sized_ostate (env : Env) (w : World) (event : OutEvent) (sized : Sized w) : Sized (tcbOstate env w event) := by
  unfold tcbOstate
  split
  · exact sized_idle env w event sized
  · exact sized_retrans env w event sized
  · exact sized_persist env w event sized
  · exact sized_xmit env w event sized

theorem sizes_sndwnd (w : World) (tcph : Dgram) : sizes (tcpSndwnd w tcph) = sizes w := by
  unfold tcpSndwnd noteWndmax
  split <;> rfl

theorem tcp_mss_nonneg (env : Env) (w : World) (faddr : InAddr) (maxmss : Int) (room : 0 ≤ w.data.snd.maxdatalen) :
    0 ≤ tcpMss env w faddr maxmss := by
  unfold tcpMss
  split
  · decide
  · rename_i rt found
    have least := route_mss_least rt maxmss
    dsimp only
    split <;> omega

theorem sized_open_mss (env : Env) (w : World) (pkt : Pkt) (sized : Sized w) : Sized (openSndMss env w pkt) := by
  unfold openSndMss
  split
  · exact sized
  · rename_i r found
    have limited := sized_of_eq _ _ (sizes_outgoing _ _ (outgoing_limit_rcv env w w.data.daddr r)) sized
    have mss := tcp_mss_nonneg env w w.data.daddr r sized.2.2
    exact ⟨mss, mss, limited.2.2⟩

theorem clamp_nonneg (val : Int) : 0 ≤ clampSpace val := (by decide : (0 : Int) ≤ 4096).trans (clamp_range val).1

theorem sized_sndbuf (w : World) (val : Int) (sized : Sized w) : Sized (setSndbuf w val) := by
  unfold setSndbuf
  split
  · exact sized
  · exact ⟨sized.1, sized.2.1, clamp_nonneg val⟩

theorem sized_robust : Robust fun p => 0 ≤ p.1 ∧ 0 ≤ p.2.1 ∧ 0 ≤ p.2.2.1 where
  event env w event _ sized := sized_ostate env w event sized
  opened := sized_open_mss
  sndbuf := sized_sndbuf
  quench _ sized := ⟨sized.1, sized.1, sized.2.2⟩

theorem sized_fresh : 0 ≤ TCP_MSS ∧ 0 ≤ TCP_MSS ∧ 0 ≤ IN_DEFAULT_SPACE := by decide

theorem sized_ack_place (env : Env) (w : World) (pkt : Pkt) (osndWnd : Int) (sized : Sized w) :
    Sized (ackPlace env w pkt osndWnd) := robust_ack_place sized_robust env w pkt osndWnd sized

theorem sized_connect_start (env : Env) (w : World) (args : ConnectArgs) (sized : Sized w) : Sized (connectStart env w args) := by
  unfold Sized
  exact paced_connect_start (P := fun p => 0 ≤ p.1 ∧ 0 ≤ p.2.1 ∧ 0 ≤ p.2.2.1) env w args sized

theorem sized_child_opened (env : Env) (w : World) (pkt : Pkt) : Sized (childOpened env w pkt) :=
  robust_child_opened sized_robust sized_fresh env w pkt

theorem sized_step (env : Env) (w : World) (op : Op) (sized : Sized w) : Sized (step env w op) :=
  robust_step sized_robust env w op sized fun _ _ _ => sized_ostate env (takeTimer w) .timeout sized

theorem configured_sized (w : World) (configured : Configured w) : Sized w := robust_configured sized_robust sized_fresh w configured

theorem start_sized (w : World) (start : Start w) : Sized w := robust_start sized_robust sized_fresh w start

theorem reach_sized (allowed : Env → World → Op → Prop) (w : World) (reached : Reach allowed w) : Sized w :=
  reach_invariant allowed Sized start_sized (fun env w op sized _ => sized_step env w op sized) w reached

end MagxNet.Tcp
