import MagxNet.Tcp.Pace
import MagxNet.Tcp.Opening

set_option autoImplicit false

namespace MagxNet.Tcp

open Bytes

-- tcp_timeout for another backoff.
def timeoutAt (w : World) (backoff : Nat) : Int := tcpTimeout { w with tcb.backoff := backoff }

-- No retransmission timeout is shifted further than the guard in tcp_timeout allows for.
structure Unhurried (w : World) : Prop where
  bound : (w.tcb.backoff : Int) ≤ TCP_MAXRETRY
  least : ∀ i, TCP_MINRETRANS ≤ timeoutAt w i ∧ timeoutAt w i ≤ TCP_MAXRETRANS
  grows : ∀ i j : Nat, i ≤ j → (j : Int) ≤ TCP_MAXRETRY → timeoutAt w i ≤ timeoutAt w j

-- There is no memory for the copy of the segment, or ip_send finds none.
def starved (env : Env) (w : World) (b : Buf) : Prop :=
  env.memory w.net.allocs = false ∨
    ((∃ tcph finCut, sndsegCut b w.tcb.sndUna w.tcb.sndNxt = .piece tcph finCut) ∧ env.ipSend w.net.sends = ENOMEM)

-- The timer fires, retries are left, and the first segment is sent again.
def resends (env : Env) (w : World) (op : Op) : Prop :=
  w.alive ∧ op = .wakeme ∧ w.tcb.timerEvt.isSome ∧ (w.tcb.ostate = .xmit ∨ w.tcb.ostate = .retrans) ∧
    w.tcb.nretrans + 1 ≤ TCP_MAXRETRY ∧ ∃ b ∈ w.data.snd.q.head?, ¬ starved env w b

def Spaced (env : Env) (w : World) (op : Op) : Prop := resends env w op → (w.tcb.backoff : Int) < TCP_MAXRETRY

section Timeouts

theorem clamp_eq (x : Int) : clampTmo x = max TCP_MINRETRANS (min x TCP_MAXRETRANS) := by
  have least : TCP_MINRETRANS = 20 := by decide
  have most : TCP_MAXRETRANS = 10000 := by decide
  unfold clampTmo
  split
  · omega
  · split <;> omega

-- What passes the guard can be shifted by as many bits as there are retries.
theorem shift_exact (base : Int) (backoff : Nat) (low : 0 ≤ base) (high : base ≤ 0x7fffffff / 2 ^ 15) (bound : backoff ≤ 15) :
    (BitVec.ofInt 32 base <<< backoff).toInt = base * 2 ^ backoff := by
  obtain ⟨n, rfl⟩ := Int.eq_ofNat_of_zero_le low
  have power : 2 ^ backoff ≤ 2 ^ 15 := Nat.pow_le_pow_right (by decide) bound
  have product : n * 2 ^ backoff ≤ 65535 * 2 ^ 15 := Nat.mul_le_mul (by omega) power
  have whole : (BitVec.ofNat 32 n <<< backoff).toNat = n * 2 ^ backoff := by
    rw [BitVec.toNat_shiftLeft, BitVec.toNat_ofNat, Nat.mod_eq_of_lt (show n < 2 ^ 32 by omega), Nat.shiftLeft_eq, Nat.mod_eq_of_lt (by omega)]
  rw [BitVec.ofInt_natCast, BitVec.toInt_eq_toNat_of_lt (by omega), whole]
  push_cast
  rfl

theorem timeout_within (w : World) : TCP_MINRETRANS ≤ tcpTimeout w ∧ tcpTimeout w ≤ TCP_MAXRETRANS := by
  unfold tcpTimeout
  dsimp only
  split
  · decide
  · rw [clamp_eq]
    exact ⟨le_max_left _ _, max_le (by decide) (min_le_right _ _)⟩

theorem timeout_grows (w : World) (i j : Nat) (order : i ≤ j) (bound : (j : Int) ≤ TCP_MAXRETRY) : timeoutAt w i ≤ timeoutAt w j := by
  have most : TCP_MAXRETRY = 15 := rfl
  unfold timeoutAt tcpTimeout
  dsimp only
  generalize w.tcb.rtt >>> (3 : Nat) + w.tcb.rttdev = base
  split
  · exact le_refl _
  · rename_i guarded
    obtain ⟨low, high⟩ := not_or.mp guarded
    have nonneg := not_lt.mp low
    rw [shift_exact base i nonneg (not_lt.mp high) (by omega), shift_exact base j nonneg (not_lt.mp high) (by omega)]
    rw [clamp_eq, clamp_eq]
    have shifted : base * 2 ^ i ≤ base * 2 ^ j := mul_le_mul_of_nonneg_left (pow_le_pow_right₀ (by decide) order) nonneg
    exact max_le_max le_rfl (min_le_min shifted le_rfl)

theorem unhurried_iff (w : World) : Unhurried w ↔ (w.tcb.backoff : Int) ≤ TCP_MAXRETRY :=
  ⟨Unhurried.bound, fun bound => ⟨bound, fun _ => timeout_within _, timeout_grows w⟩⟩

end Timeouts

section Easing

variable (env : Env)

theorem backoff_sndseg (w : World) (b : Buf) (rest : List Buf) (nretrans : Int) (wnd1st wndnxt : Seq) :
    (tcpSndseg env w b rest nretrans wnd1st wndnxt).2.tcb.backoff = w.tcb.backoff := by
  unfold tcpSndseg bufAlloc
  dsimp only
  split
  · rename_i got
    obtain ⟨-, rfl⟩ := Prod.mk.inj got
    rfl
  · rename_i id w1 got
    obtain ⟨-, rfl⟩ := Prod.mk.inj got
    split
    · rfl
    · rfl
    · unfold sndsegSend ipSend clearDelack tcpRcvwnd extendMax
      dsimp only
      split
      · split <;> rfl
      · split <;> split <;> rfl

theorem backoff_advance (w : World) (nxt : Seq) : (sndAdvance w nxt).tcb.backoff = w.tcb.backoff := by
  unfold sndAdvance raiseMax
  split <;> rfl

theorem backoff_failed (w : World) (r : Int) : (sndFailed w r).tcb.backoff = w.tcb.backoff := by
  unfold sndFailed
  split <;> rfl

theorem eases_ease (w : World) (r : Int) : (easeBackoff w r).tcb.backoff ≤ w.tcb.backoff := by
  unfold easeBackoff
  dsimp only
  split
  · exact Nat.sub_le _ _
  · exact le_refl _

theorem eases_loop (wndnxt : Seq) (bufs : List Buf) (sent : Nat) (rttseq : Seq) (w : World) :
    (sndLoop env wndnxt bufs sent rttseq w).world.tcb.backoff ≤ w.tcb.backoff := by
  induction bufs generalizing sent rttseq w with
  | nil => exact le_refl _
  | cons b rest ih =>
      have same := backoff_sndseg env w b rest 0 w.tcb.sndNxt wndnxt
      rw [sndLoop]
      split
      · cases got : tcpSndseg env w b rest 0 w.tcb.sndNxt wndnxt with
        | mk r w1 =>
            rw [got] at same
            dsimp only at same ⊢
            split
            · split
              · have eased := eases_ease (sndFailed w1 r) r
                rw [backoff_failed, same] at eased
                rw [sndGiveUp, backoff_advance]
                exact eased
              · rw [backoff_failed, same]
            · refine (ih _ _ _).trans ?_
              rw [backoff_advance, same]
      · exact le_refl _

theorem eases_sndhead (w : World) : (tcpSndhead env w).tcb.backoff ≤ w.tcb.backoff := by
  unfold tcpSndhead
  split
  · exact le_refl _
  · split
    · split <;> exact le_refl _
    · rename_i last atLast
      have looped : (sndheadLoop env w last).world.tcb.backoff ≤ w.tcb.backoff := eases_loop env _ _ 0 0 w
      unfold sndheadDone
      dsimp only
      split <;> exact looped

theorem eases_pending (w : World) : (sndheadPending env w).tcb.backoff ≤ w.tcb.backoff := by
  unfold sndheadPending
  split
  · exact eases_sndhead env w
  · exact le_refl _

theorem eases_rtt (w : World) (b : Buf) : (tcpRtt w b).tcb.backoff ≤ w.tcb.backoff := by
  unfold tcpRtt
  split
  · split <;> exact Nat.zero_le _
  · exact le_refl _

theorem eases_drop_acked (una : Seq) (bufs : List Buf) (n : Nat) (w : World) :
    (dropAcked una bufs n w).2.tcb.backoff ≤ w.tcb.backoff := by
  induction bufs generalizing n w with
  | nil => exact le_refl _
  | cons b rest ih =>
      rw [dropAcked]
      split
      · exact (ih _ _).trans (eases_rtt (shortenSnd w b rest) b)
      · exact le_refl _

theorem backoff_artt (w : World) : (tcpArtt w).tcb.backoff = w.tcb.backoff := by
  unfold tcpArtt
  split
  · split <;> rfl
  · rfl

theorem backoff_drag_urg (w : World) : (dragUrg w).tcb.backoff = w.tcb.backoff := by
  unfold dragUrg
  split <;> rfl

theorem eases_dropdata (w : World) : (tcpDropdata w).2.tcb.backoff ≤ w.tcb.backoff := by
  have dropped := eases_drop_acked w.tcb.sndUna w.data.snd.q 0 w
  unfold tcpDropdata countAcked
  dsimp only
  rw [backoff_drag_urg]
  split
  · exact (backoff_artt _).trans_le dropped
  · exact dropped

theorem eases_reset (w : World) (nsegs : Nat) : (resetBackoff w nsegs).tcb.backoff ≤ w.tcb.backoff := by
  unfold resetBackoff
  split
  · split
    · exact Nat.zero_le _
    · exact le_refl _
  · exact le_refl _

theorem eases_retrans_acked (w : World) (nsegs : Nat) : (retransAcked env w nsegs).tcb.backoff ≤ w.tcb.backoff := by
  unfold retransAcked
  split
  · exact le_refl _
  · have reset := eases_reset w nsegs
    unfold retransProgress
    split
    · exact (eases_pending env (startCwnd (resetBackoff w nsegs))).trans reset
    · exact reset

theorem backoff_dupack (w : World) : (dupackResend env w).tcb.backoff = w.tcb.backoff := by
  unfold dupackResend
  split
  · split
    · rfl
    · split
      · exact backoff_sndseg env w _ _ _ _ _
      · rfl
  · rfl

theorem backoff_probe (w : World) : (tcpProbe env w).tcb.backoff = w.tcb.backoff := congrArg (·.2.2.2) (pace_probe env w)

theorem backoff_idle_start (w : World) : (idleStart w).tcb.backoff = w.tcb.backoff := by
  unfold idleStart
  split <;> rfl

theorem backoff_idle_sent (w : World) : (idleSent w).tcb.backoff = w.tcb.backoff := by
  unfold idleSent idleArm
  split <;> rfl

theorem backoff_wndclose (w : World) : (xmitWndclose w).tcb.backoff = w.tcb.backoff := by
  unfold xmitWndclose
  split <;> rfl

theorem backoff_xmit_acked (w : World) : (xmitAcked w).tcb.backoff = w.tcb.backoff := by
  unfold xmitAcked
  split <;> rfl

theorem backoff_persist_acked (w : World) : (persistAcked w).tcb.backoff = w.tcb.backoff := by
  unfold persistAcked
  split <;> rfl

theorem backoff_persist_opened (w : World) : (persistOpened w).tcb.backoff = w.tcb.backoff := by
  unfold persistOpened
  split <;> rfl

theorem backoff_persist_sent (w : World) : (persistSent env w).tcb.backoff = w.tcb.backoff := by
  unfold persistSent
  split
  · rfl
  · exact backoff_probe env (noRtt w)

theorem eases_idle (w : World) (event : OutEvent) : (tcbosIdle env w event).tcb.backoff ≤ w.tcb.backoff := by
  cases event with
  | send =>
      dsimp only [tcbosIdle]
      split
      · exact Nat.le_refl _
      · have sent := eases_sndhead env (idleStart w)
        rw [backoff_idle_start] at sent
        rw [backoff_idle_sent]
        exact sent
  | ackrcvd => exact Nat.le_refl _
  | wndopen => exact Nat.le_refl _
  | wndclose => exact Nat.le_refl _
  | timeout => exact Nat.le_refl _
  | dupack => exact Nat.le_refl _

theorem eases_xmit (w : World) (event : OutEvent) (quiet : event ≠ .timeout) : (tcbosXmit env w event).tcb.backoff ≤ w.tcb.backoff := by
  cases event with
  | send => exact eases_pending env w
  | ackrcvd => exact (backoff_xmit_acked _).trans_le (eases_dropdata w)
  | wndopen => exact (backoff_wndclose _).trans_le (eases_pending env w)
  | wndclose => exact (backoff_wndclose w).le
  | timeout => exact (quiet rfl).elim
  | dupack => exact Nat.le_refl _

theorem eases_retrans (w : World) (event : OutEvent) (quiet : event ≠ .timeout) :
    (tcbosRetrans env w event).tcb.backoff ≤ w.tcb.backoff := by
  cases event with
  | send => exact le_refl _
  | ackrcvd => exact (eases_retrans_acked env _ _).trans (eases_dropdata w)
  | wndopen => exact le_refl _
  | wndclose =>
      dsimp only [tcbosRetrans]
      split <;> exact le_refl _
  | timeout => exact (quiet rfl).elim
  | dupack => exact (backoff_dupack env w).le

-- In PERSIST the timer sends, or probes; neither is a retransmission.
theorem eases_persist (w : World) (event : OutEvent) : (tcbosPersist env w event).tcb.backoff ≤ w.tcb.backoff := by
  cases event with
  | send => exact le_refl _
  | ackrcvd => exact (backoff_persist_acked _).trans_le (eases_dropdata w)
  | wndopen => exact (backoff_persist_opened _).trans_le (eases_pending env w)
  | wndclose => exact Nat.le_refl _
  | timeout =>
      dsimp only [tcbosPersist]
      split
      · exact (backoff_persist_sent env _).trans_le (eases_sndhead env (setWndmax w))
      · exact (backoff_probe env w).le
  | dupack => exact le_refl _

theorem eases_event (w : World) (event : OutEvent) (quiet : event ≠ .timeout) : (tcbOstate env w event).tcb.backoff ≤ w.tcb.backoff := by
  unfold tcbOstate
  split
  · exact eases_idle env w event
  · exact eases_retrans env w event quiet
  · exact eases_persist env w event
  · exact eases_xmit env w event quiet

end Easing

theorem backoff_open_mss (env : Env) (w : World) (pkt : Pkt) : (openSndMss env w pkt).tcb.backoff = w.tcb.backoff := by
  unfold openSndMss
  split
  · rfl
  · rename_i r found
    exact congrArg (·.2.2.2) (pace_outgoing _ _ (outgoing_limit_rcv env w w.data.daddr r))

theorem eased_robust (k : Nat) : Robust fun p => p.2.2.2 ≤ k where
  event env w event quiet bound := (eases_event env w event quiet).trans bound
  opened env w pkt bound := (backoff_open_mss env w pkt).trans_le bound
  sndbuf w val bound := by
    unfold setSndbuf
    split <;> exact bound
  quench _ bound := bound

section Firing

variable (env : Env)

theorem sndseg_answer (w : World) (b : Buf) (rest : List Buf) (n : Nat) (seg : Dgram) :
    (sndsegSend env (extendMax w rest n) b rest seg).1 = env.ipSend w.net.sends := by
  have kept : (extendMax w rest n).net.sends = w.net.sends := by
    unfold extendMax
    split
    · rfl
    · dsimp only
      split <;> rfl
  unfold sndsegSend ipSend clearDelack tcpRcvwnd
  dsimp only
  split <;> exact congrArg env.ipSend kept

theorem sndseg_starved (w : World) (b : Buf) (rest : List Buf) (nretrans : Int) :
    (tcpSndseg env w b rest nretrans w.tcb.sndUna w.tcb.sndNxt).1 = ENOMEM ↔ starved env w b := by
  unfold tcpSndseg bufAlloc starved
  dsimp only
  cases memory : env.memory w.net.allocs with
  | false => exact iff_of_true rfl (Or.inl rfl)
  | true =>
      cases cut : sndsegCut b w.tcb.sndUna w.tcb.sndNxt with
      | outside => exact iff_of_false (show (-1 : Int) ≠ ENOMEM by decide) (by simp)
      | overrun => exact iff_of_false (show (-1 : Int) ≠ ENOMEM by decide) (by simp)
      | piece tcph finCut =>
          refine (Eq.congr_left (sndseg_answer env _ b rest _ _)).trans ?_
          simp

theorem backoff_retrans_send (w : World) (b : Buf) (rest : List Buf) :
    (retransSend env w b rest).tcb.backoff = if (tcpSndseg env w b rest w.tcb.nretrans w.tcb.sndUna w.tcb.sndNxt).1 = ENOMEM
      then w.tcb.backoff else w.tcb.backoff + 1 := by
  have same := backoff_sndseg env w b rest w.tcb.nretrans w.tcb.sndUna w.tcb.sndNxt
  unfold retransSend
  cases got : tcpSndseg env w b rest w.tcb.nretrans w.tcb.sndUna w.tcb.sndNxt with
  | mk r w1 =>
      rw [got] at same
      dsimp only at same ⊢
      split
      · exact same
      · exact congrArg (· + 1) same

theorem backoff_close_with (w : World) (err : Int) : (closeWith w err).tcb.backoff = w.tcb.backoff :=
  congrArg (·.2.2.2) (pace_close_with w err)

-- What a timeout in XMIT or RETRANS does to the backoff.
theorem backoff_retrans (w : World) :
    (w.tcb.nretrans + 1 ≤ TCP_MAXRETRY ∧ (∃ b ∈ w.data.snd.q.head?, ¬ starved env w b) →
      (tcpRetrans env w).tcb.backoff = w.tcb.backoff + 1) ∧
    (¬ (w.tcb.nretrans + 1 ≤ TCP_MAXRETRY ∧ ∃ b ∈ w.data.snd.q.head?, ¬ starved env w b) →
      (tcpRetrans env w).tcb.backoff = w.tcb.backoff) := by
  unfold tcpRetrans
  split
  · rename_i beyond
    exact ⟨fun both => absurd both.1 (not_le.mpr beyond), fun _ => backoff_close_with (countRetrans w) ETIMEDOUT⟩
  · rename_i again
    split
    · rename_i none
      rw [none]
      exact ⟨(fun both => by obtain ⟨_, b, first, _⟩ := both; cases first), fun _ => rfl⟩
    · rename_i b rest queued
      have sent := backoff_retrans_send env (shrinkCwnd (countRetrans w)) b rest
      have short := sndseg_starved env (shrinkCwnd (countRetrans w)) b rest (shrinkCwnd (countRetrans w)).tcb.nretrans
      rw [sent, queued]
      constructor
      · rintro ⟨_, b', first, fed⟩
        obtain rfl : b = b' := Option.some.inj first
        rw [if_neg fun failed => fed (short.mp failed)]
        rfl
      · intro neither
        rw [if_pos (short.mpr (by_contra fun fed => neither ⟨not_lt.mp again, b, rfl, fed⟩))]
        rfl

theorem fires_backoff (w : World) (alive : w.alive) (set : w.tcb.timerEvt.isSome) :
    (resends env w .wakeme → (tcbOstate env (takeTimer w) .timeout).tcb.backoff = w.tcb.backoff + 1) ∧
      (¬ resends env w .wakeme → (tcbOstate env (takeTimer w) .timeout).tcb.backoff ≤ w.tcb.backoff) := by
  have firing : ∀ x : World, x.tcb.nretrans = w.tcb.nretrans → x.data.snd.q = w.data.snd.q → x.tcb.backoff = w.tcb.backoff →
      (∀ b, starved env x b ↔ starved env w b) → (w.tcb.ostate = .xmit ∨ w.tcb.ostate = .retrans) →
      (resends env w .wakeme → (tcpRetrans env x).tcb.backoff = w.tcb.backoff + 1) ∧
        (¬ resends env w .wakeme → (tcpRetrans env x).tcb.backoff ≤ w.tcb.backoff) := by
    intro x count queue backoff alike busy
    obtain ⟨more, keeps⟩ := backoff_retrans env x
    rw [count, queue, backoff] at more keeps
    constructor
    · rintro ⟨_, _, _, _, again, b, first, fed⟩
      exact more ⟨again, b, first, fun short => fed ((alike b).mp short)⟩
    · intro not_resends
      refine (keeps ?_).le
      rintro ⟨again, b, first, fed⟩
      exact not_resends ⟨alive, rfl, set, busy, again, b, first, fun short => fed ((alike b).mpr short)⟩
  unfold tcbOstate
  split
  · rename_i idle
    have idle' : w.tcb.ostate = .idle := idle
    refine ⟨?_, fun _ => eases_idle env (takeTimer w) .timeout⟩
    rintro ⟨_, _, _, busy, _⟩
    rw [idle'] at busy
    simp at busy
  · rename_i retrans
    exact firing (takeTimer w) rfl rfl rfl (fun _ => Iff.rfl) (Or.inr retrans)
  · rename_i persist
    have persist' : w.tcb.ostate = .persist := persist
    refine ⟨?_, fun _ => eases_persist env (takeTimer w) .timeout⟩
    rintro ⟨_, _, _, busy, _⟩
    rw [persist'] at busy
    simp at busy
  · rename_i xmit
    exact firing (capDupacks (noRtt (setOstate (takeTimer w) .retrans))) rfl rfl rfl (fun _ => Iff.rfl) (Or.inl xmit)

-- Only a segment that is sent again adds to the backoff, and it adds one.
theorem step_backoff (w : World) (op : Op) :
    (resends env w op → (step env w op).tcb.backoff = w.tcb.backoff + 1) ∧
      (¬ resends env w op → (step env w op).tcb.backoff ≤ w.tcb.backoff) := by
  constructor
  · intro again
    have ⟨alive, fires, set, _⟩ := again
    subst fires
    unfold step netStep
    rw [if_pos alive]
    dsimp only
    rw [if_pos set]
    exact (fires_backoff env w alive set).1 again
  · intro quiet
    refine robust_step (eased_robust w.tcb.backoff) env w op (Nat.le_refl _) ?_
    rintro alive rfl set
    exact (fires_backoff env w alive set).2 quiet

theorem step_unhurried_iff (w : World) (op : Op) (unhurried : Unhurried w) : Unhurried (step env w op) ↔ Spaced env w op := by
  have bound := unhurried.bound
  obtain ⟨more, keeps⟩ := step_backoff env w op
  rw [unhurried_iff, Spaced]
  by_cases again : resends env w op
  · have grown := more again
    refine ⟨fun kept _ => by omega, fun spaced => ?_⟩
    have below := spaced again
    omega
  · have kept := keeps again
    exact ⟨fun _ resent => absurd resent again, fun _ => by omega⟩

end Firing

theorem start_unhurried (w : World) (start : Start w) : Unhurried w := by
  have fresh : w.tcb.backoff ≤ 0 := robust_start (eased_robust 0) (Nat.le_refl 0) w start
  have most : TCP_MAXRETRY = 15 := rfl
  exact (unhurried_iff w).mpr (by omega)

-- In every run in which no segment is sent again at a backoff of TCP_MAXRETRY the timeouts are sound; the step
-- that does so ends this.
theorem backoff_sound (w : World) (reached : Reach Spaced w) :
    Unhurried w ∧ ∀ env op, Unhurried (step env w op) ↔ Spaced env w op := by
  have kept : Unhurried w := reach_invariant Spaced Unhurried start_unhurried
    (fun env w op unhurried spaced => (step_unhurried_iff env w op unhurried).mpr spaced) w reached
  exact ⟨kept, fun env op => step_unhurried_iff env w op kept⟩

theorem backoff_sound_open : Unhurried (openConn 5000) ∧
    (Unhurried (step plainEnv (openConn 5000) .wakeme) ↔ Spaced plainEnv (openConn 5000) .wakeme) := by
  have spaced : Spaced plainEnv synSent (.segment (peerSeg 5000 1001 TCPF_SYN_ACK 5000 0 []) false) := by
    rintro ⟨_, fires, _⟩
    cases fires
  obtain ⟨sound, next⟩ := backoff_sound (openConn 5000) (reach_open Spaced 5000 spaced)
  exact ⟨sound, next plainEnv .wakeme⟩

-- Fifteen SYNs are lost, and then the first segment nine times: the ack of the SYN has only started counting afresh.
def spent : World :=
  steps synSent (List.replicate 15 (plainEnv, .wakeme) ++ [(plainEnv, .segment (peerSeg 5000 1001 TCPF_SYN_ACK 5000 0 []) false),
    (plainEnv, .send [65] false)] ++ List.replicate 9 (plainEnv, .wakeme))

-- The timeout has been shifted out of the word, and falls to the least there is.
theorem timeout_collapsed : Reach (fun _ _ _ => True) spent ∧ spent.tcb.backoff = 24 ∧
    timeoutAt spent 15 = TCP_MAXRETRANS ∧ spent.tcb.timerEvt = some TCP_MINRETRANS ∧ ¬ Unhurried spent := by
  have counted : spent.tcb.backoff = 24 := by decide +kernel
  refine ⟨reach_steps _ _ (reach_synsent _), counted, by decide +kernel, by decide +kernel, fun unhurried => ?_⟩
  have bound := unhurried.bound
  rw [counted] at bound
  exact absurd bound (by decide)

end MagxNet.Tcp
