import MagxNet.Tcp.LedgerOut
import MagxNet.Tcp.Handshake

set_option autoImplicit false

namespace MagxNet.Tcp

open Bytes Serial

-- The ledger is kept: snd_una and what is written stand, acked segments may be gone, and snd_max may
-- have moved on.
def Keeps (l l' : Ledger) : Prop := ∀ s u m, Kept l s u m → ∃ s' m', s ≤ s' ∧ m ≤ m' ∧ Kept l' s' u m'

theorem keeps_of_eq (l l' : Ledger) (same : l' = l) : Keeps l l' := by
  intro s u m kept
  rw [same]
  exact ⟨s, m, le_refl s, le_refl m, kept⟩

theorem keeps_of_raises (l l' : Ledger) (raised : Raises l l') : Keeps l l' := by
  intro s u m kept
  obtain ⟨m', later, kept'⟩ := raised s u m kept
  exact ⟨s, m', le_refl s, later, kept'⟩

theorem keeps_trans (l l' l'' : Ledger) (first : Keeps l l') (second : Keeps l' l'') : Keeps l l'' := by
  intro s u m kept
  obtain ⟨s', m', low, later, kept'⟩ := first s u m kept
  obtain ⟨s'', m'', low', later', kept''⟩ := second s' u m' kept'
  exact ⟨s'', m'', low.trans low', later.trans later', kept''⟩

theorem keeps_dropdata (w : World) : Keeps (ledger w) (ledger (tcpDropdata w).2) := by
  intro s u m kept
  obtain ⟨s', low, kept'⟩ := dropdata_keeps w kept
  exact ⟨s', m, low, le_refl m, kept'⟩

theorem keeps_sndhead (env : Env) (w : World) : Keeps (ledger w) (ledger (tcpSndhead env w)) :=
  keeps_of_raises _ _ (raises_sndhead env w)

theorem keeps_sndhead_pending (env : Env) (w : World) : Keeps (ledger w) (ledger (sndheadPending env w)) :=
  keeps_of_raises _ _ (raises_sndhead_pending env w)

theorem ledger_idle_start (w : World) : ledger (idleStart w) = ledger w := by
  unfold idleStart
  split <;> rfl

theorem ledger_idle_sent (w : World) : ledger (idleSent w) = ledger w := by
  unfold idleSent idleArm
  split <;> rfl

theorem keeps_idle (env : Env) (w : World) (event : OutEvent) : Keeps (ledger w) (ledger (tcbosIdle env w event)) := by
  cases event with
  | send =>
      dsimp only [tcbosIdle]
      split
      · exact keeps_of_eq _ _ rfl
      · have sent := keeps_sndhead env (idleStart w)
        rw [ledger_idle_start] at sent
        rw [ledger_idle_sent]
        exact sent
  | ackrcvd => exact keeps_of_eq _ _ rfl
  | wndopen => exact keeps_of_eq _ _ rfl
  | wndclose => exact keeps_of_eq _ _ rfl
  | timeout => exact keeps_of_eq _ _ rfl
  | dupack => exact keeps_of_eq _ _ rfl

theorem ledger_xmit_wndclose (w : World) : ledger (xmitWndclose w) = ledger w := by
  unfold xmitWndclose
  split <;> rfl

theorem ledger_xmit_acked (w : World) : ledger (xmitAcked w) = ledger w := by
  unfold xmitAcked
  split <;> rfl

theorem keeps_xmit (env : Env) (w : World) (event : OutEvent) (quiet : event ≠ .timeout) :
    Keeps (ledger w) (ledger (tcbosXmit env w event)) := by
  cases event with
  | send => exact keeps_sndhead_pending env w
  | wndopen =>
      dsimp only [tcbosXmit]
      rw [ledger_xmit_wndclose]
      exact keeps_sndhead_pending env w
  | wndclose => exact keeps_of_eq _ _ (ledger_xmit_wndclose w)
  | ackrcvd =>
      dsimp only [tcbosXmit]
      rw [ledger_xmit_acked]
      exact keeps_dropdata w
  | timeout => exact (quiet rfl).elim
  | dupack => exact keeps_of_eq _ _ rfl

theorem drop_append (bufs : List Buf) (n : Nat) (b : Buf) (rest : List Buf) (dropped : bufs.drop n = b :: rest) :
    bufs = bufs.take n ++ b :: rest := by
  rw [← dropped, List.take_append_drop]

theorem keeps_dupack_resend (env : Env) (w : World) : Keeps (ledger w) (ledger (dupackResend env w)) := by
  unfold dupackResend
  split
  · split
    · exact keeps_of_eq _ _ rfl
    · rename_i b rest dropped
      split
      · exact keeps_of_raises _ _ (sndseg_raises env w _ rest b _ _ _ (drop_append _ _ b rest dropped))
      · exact keeps_of_eq _ _ rfl
  · exact keeps_of_eq _ _ rfl

theorem ledger_reset_backoff (w : World) (nsegs : Nat) : ledger (resetBackoff w nsegs) = ledger w := by
  unfold resetBackoff
  split
  · split <;> rfl
  · rfl

theorem keeps_retrans_progress (env : Env) (w : World) : Keeps (ledger w) (ledger (retransProgress env w)) := by
  unfold retransProgress
  split
  · exact keeps_sndhead_pending env (startCwnd w)
  · exact keeps_of_eq _ _ rfl

theorem keeps_retrans_acked (env : Env) (w : World) (nsegs : Nat) :
    Keeps (ledger w) (ledger (retransAcked env w nsegs)) := by
  unfold retransAcked
  split
  · exact keeps_of_eq _ _ rfl
  · have kept := keeps_retrans_progress env (resetBackoff w nsegs)
    rw [ledger_reset_backoff] at kept
    exact kept

theorem keeps_retrans (env : Env) (w : World) (event : OutEvent) (quiet : event ≠ .timeout) :
    Keeps (ledger w) (ledger (tcbosRetrans env w event)) := by
  cases event with
  | ackrcvd => exact keeps_trans _ _ _ (keeps_dropdata w) (keeps_retrans_acked env _ _)
  | wndclose =>
      dsimp only [tcbosRetrans]
      split <;> exact keeps_of_eq _ _ rfl
  | dupack => exact keeps_dupack_resend env w
  | timeout => exact (quiet rfl).elim
  | send => exact keeps_of_eq _ _ rfl
  | wndopen => exact keeps_of_eq _ _ rfl

theorem ledger_persist_acked (w : World) : ledger (persistAcked w) = ledger w := by
  unfold persistAcked
  split <;> rfl

theorem ledger_persist_opened (w : World) : ledger (persistOpened w) = ledger w := by
  unfold persistOpened
  split <;> rfl

theorem keeps_persist (env : Env) (w : World) (event : OutEvent) (quiet : event ≠ .timeout) :
    Keeps (ledger w) (ledger (tcbosPersist env w event)) := by
  cases event with
  | ackrcvd =>
      dsimp only [tcbosPersist]
      rw [ledger_persist_acked]
      exact keeps_dropdata w
  | wndopen =>
      dsimp only [tcbosPersist]
      rw [ledger_persist_opened]
      exact keeps_sndhead_pending env w
  | timeout => exact (quiet rfl).elim
  | send => exact keeps_of_eq _ _ rfl
  | wndclose => exact keeps_of_eq _ _ rfl
  | dupack => exact keeps_of_eq _ _ rfl

theorem keeps_ostate (env : Env) (w : World) (event : OutEvent) (quiet : event ≠ .timeout) :
    Keeps (ledger w) (ledger (tcbOstate env w event)) := by
  unfold tcbOstate
  split
  · exact keeps_idle env w event
  · exact keeps_retrans env w event quiet
  · exact keeps_persist env w event quiet
  · exact keeps_xmit env w event quiet

theorem ledger_probe_send (env : Env) (w : World) : ledger (probeSend env w) = ledger w := by
  unfold probeSend tcpMkseg bufAlloc
  dsimp only
  by_cases memory : env.memory w.net.allocs
  · rw [if_pos memory]
    rfl
  · rw [if_neg memory]
    rfl

@[simp] theorem steady_probe_arm (w : World) (tmo : Int) : steady (probeArm w tmo) = steady w := rfl

@[simp] theorem ledger_probe_arm (w : World) (tmo : Int) : ledger (probeArm w tmo) = ledger w := rfl

theorem steady_probe_send (env : Env) (w : World) : steady (probeSend env w) = steady w := by
  unfold probeSend tcpMkseg
  cases got : bufAlloc env w with
  | mk id w1 =>
      have same := steady_alloc_split env w w1 id got
      cases id with
      | none => exact same
      | some id => exact same

theorem probe_heard (env : Env) (w : World) (heard : ¬ peerSilent w) :
    steady (tcpProbe env w) = steady w ∧ ledger (tcpProbe env w) = ledger w := by
  unfold tcpProbe
  rw [if_neg heard, steady_probe_arm, ledger_probe_arm, ledger_probe_send]
  exact ⟨steady_probe_send env w, rfl⟩

-- What the output side may do when nothing is written or acked: the ledger is kept, and so is all the
-- rest that sending leaves alone.
def Runs (w w' : World) : Prop := incoming w' = incoming w ∧ Keeps (ledger w) (ledger w')

theorem runs_of_eq (w w' : World) (same : incoming w' = incoming w) (kept : ledger w' = ledger w) : Runs w w' :=
  ⟨same, keeps_of_eq _ _ kept⟩

theorem runs_trans (w w' w'' : World) (first : Runs w w') (second : Runs w' w'') : Runs w w'' :=
  ⟨second.1.trans first.1, keeps_trans _ _ _ first.2 second.2⟩

theorem runs_ostate (env : Env) (w : World) (event : OutEvent) (quiet : event ≠ .timeout) :
    Runs w (tcbOstate env w event) :=
  ⟨incoming_of_steady _ _ (steady_ostate env w event quiet), keeps_ostate env w event quiet⟩

-- A timeout closes the connection, or the ledger is kept.
theorem probe_runs (env : Env) (w : World) : Ended w (tcpProbe env w) ∨ Runs w (tcpProbe env w) := by
  by_cases silent : peerSilent w
  · unfold tcpProbe
    rw [if_pos silent]
    exact Or.inl (ended_close_with w _)
  · obtain ⟨same, kept⟩ := probe_heard env w silent
    exact Or.inr (runs_of_eq _ _ (incoming_of_steady _ _ same) kept)

theorem runs_retrans_send (env : Env) (w : World) (b : Buf) (rest : List Buf) (queued : w.data.snd.q = b :: rest) :
    Runs w (retransSend env w b rest) := by
  have raised := sndseg_raises env w [] rest b w.tcb.nretrans w.tcb.sndUna w.tcb.sndNxt queued
  have same := steady_sndseg env w b rest w.tcb.nretrans w.tcb.sndUna w.tcb.sndNxt
  unfold retransSend
  cases got : tcpSndseg env w b rest w.tcb.nretrans w.tcb.sndUna w.tcb.sndNxt with
  | mk r w1 =>
      rw [got] at raised same
      have armed : Runs w1 (retransArm (if r = ENOMEM then w1 else backOff w1 r)) := by
        split <;> exact runs_of_eq _ _ rfl rfl
      exact runs_trans w w1 _ ⟨incoming_of_steady _ _ same, keeps_of_raises _ _ raised⟩ armed

theorem retrans_runs (env : Env) (w : World) : Ended w (tcpRetrans env w) ∨ Runs w (tcpRetrans env w) := by
  unfold tcpRetrans
  split
  · exact Or.inl (ended_from w (countRetrans w) _ (ended_close_with (countRetrans w) ETIMEDOUT) rfl rfl rfl rfl)
  · right
    split
    · exact runs_of_eq _ _ rfl rfl
    · rename_i b rest queued
      exact runs_retrans_send env (shrinkCwnd (countRetrans w)) b rest queued

theorem persist_sent_runs (env : Env) (w : World) : Ended w (persistSent env w) ∨ Runs w (persistSent env w) := by
  unfold persistSent
  split
  · exact Or.inr (runs_of_eq _ _ rfl rfl)
  · obtain ended | runs := probe_runs env (noRtt w)
    · exact Or.inl (ended_from w (noRtt w) _ ended rfl rfl rfl rfl)
    · exact Or.inr runs

theorem timeout_runs (env : Env) (w : World) :
    (∃ x, Runs w x ∧ Ended x (tcbOstate env w .timeout)) ∨ Runs w (tcbOstate env w .timeout) := by
  unfold tcbOstate
  split
  · exact Or.inr (runs_of_eq _ _ rfl rfl)
  · obtain ended | runs := retrans_runs env w
    · exact Or.inl ⟨w, runs_of_eq _ _ rfl rfl, ended⟩
    · exact Or.inr runs
  · dsimp only [tcbosPersist]
    split
    · have sent : Runs w (tcpSndhead env (setWndmax w)) :=
        ⟨incoming_of_steady _ _ (steady_sndhead env (setWndmax w)), keeps_sndhead env (setWndmax w)⟩
      obtain ended | runs := persist_sent_runs env (tcpSndhead env (setWndmax w))
      · exact Or.inl ⟨_, sent, ended⟩
      · exact Or.inr (runs_trans _ _ _ sent runs)
    · obtain ended | runs := probe_runs env w
      · exact Or.inl ⟨w, runs_of_eq _ _ rfl rfl, ended⟩
      · exact Or.inr runs
  · obtain ended | runs := retrans_runs env (capDupacks (noRtt (setOstate w .retrans)))
    · exact Or.inl ⟨w, runs_of_eq _ _ rfl rfl,
        ended_from w (capDupacks (noRtt (setOstate w .retrans))) _ ended rfl rfl rfl rfl⟩
    · have begun : Runs w (capDupacks (noRtt (setOstate w .retrans))) := runs_of_eq _ _ rfl rfl
      exact Or.inr (runs_trans _ _ _ begun runs)

theorem keeps_window_event (env : Env) (w old : World) (tcph : Dgram) :
    Keeps (ledger w) (ledger (tcbOstate env w (windowEvent old tcph))) := by
  apply keeps_ostate
  unfold windowEvent
  split <;> simp

end MagxNet.Tcp
