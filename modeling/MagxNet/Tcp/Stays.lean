import MagxNet.Tcp.Standing

set_option autoImplicit false

namespace MagxNet.Tcp

def Standing.ends (s : Standing) : InAddr × InPort × InAddr × InPort × Bool × Bool :=
  (s.saddr, s.sport, s.daddr, s.dport, s.isbound, s.isconnected)

def Standing.sockState (s : Standing) : Option SoState := s.sock.map (·.state)

def SockKept : Option Socket → Option Socket → Prop
  | none, none => True
  | some so, some so' =>
      so'.acceptcon = so.acceptcon ∧ so'.queued = so.queued ∧ (so'.state = .isunconnected → so.state = .isunconnected)
  | _, _ => False

-- What segments, timers, errors and most calls leave as it is. None of them frees a connection that has a socket.
structure Stays (s s' : Standing) : Prop where
  ends : s'.ends = s.ends
  backlog : s'.backlog = s.backlog
  passive : s'.passive = s.passive
  dead : s.dead → s'.dead
  opens : s'.state = .listen ∨ s'.state = .synsent → s'.state = s.state
  half : s'.state = .synrcvd → s.state = .synsent ∨ s.state = .synrcvd ∧ s'.sockState = s.sockState
  sock : SockKept s.sock s'.sock
  freed : s'.alive = false → s.alive = false ∨ s.sock = none

theorem sock_kept_refl (so : Option Socket) : SockKept so so := by
  cases so with
  | none => trivial
  | some so => exact ⟨rfl, rfl, id⟩

theorem sock_kept_trans (a b c : Option Socket) (ab : SockKept a b) (bc : SockKept b c) : SockKept a c := by
  cases a <;> cases b <;> cases c
  · trivial
  · exact bc.elim
  · exact ab.elim
  · exact ab.elim
  · exact ab.elim
  · exact ab.elim
  · exact bc.elim
  · exact ⟨bc.1.trans ab.1, bc.2.1.trans ab.2.1, fun fresh => ab.2.2 (bc.2.2 fresh)⟩

theorem sock_kept_none (a b : Option Socket) (kept : SockKept a b) : a = none ↔ b = none := by
  cases a <;> cases b <;> simp_all [SockKept]

theorem stays_refl (s : Standing) : Stays s s where
  ends := rfl
  backlog := rfl
  passive := rfl
  dead := id
  opens := fun _ => rfl
  half := fun half => Or.inr ⟨half, rfl⟩
  sock := sock_kept_refl s.sock
  freed := Or.inl

theorem stays_trans (a b c : Standing) (ab : Stays a b) (bc : Stays b c) : Stays a c where
  ends := bc.ends.trans ab.ends
  backlog := bc.backlog.trans ab.backlog
  passive := bc.passive.trans ab.passive
  dead := fun dead => bc.dead (ab.dead dead)
  opens := by
    intro opens
    have same := bc.opens opens
    rw [same] at opens
    exact same.trans (ab.opens opens)
  half := by
    intro half
    obtain asking | ⟨half, same⟩ := bc.half half
    · exact Or.inl ((ab.opens (Or.inr asking)).symm.trans asking)
    · obtain asking | ⟨half, before⟩ := ab.half half
      · exact Or.inl asking
      · exact Or.inr ⟨half, same.trans before⟩
  sock := sock_kept_trans a.sock b.sock c.sock ab.sock bc.sock
  freed := by
    intro gone
    obtain gone | alone := bc.freed gone
    · exact ab.freed gone
    · exact Or.inr ((sock_kept_none a.sock b.sock ab.sock).mpr alone)

theorem stays_same (w w' : World) (same : standing w' = standing w) : Stays (standing w) (standing w') := by
  rw [same]
  exact stays_refl (standing w)

-- Nothing but the state changes, and not to one in which a connection begins.
theorem stays_state (w : World) (state : TcbState) (later : state ≠ .listen ∧ state ≠ .synsent ∧ state ≠ .synrcvd) :
    Stays (standing w) (standing (setState w state)) where
  ends := rfl
  backlog := rfl
  passive := rfl
  dead := id
  opens := fun opens => (opens.elim later.1 later.2.1).elim
  half := fun half => (later.2.2 half).elim
  sock := sock_kept_refl w.data.sock
  freed := Or.inl

theorem stays_half (w : World) (asking : w.tcb.state = .synsent) : Stays (standing w) (standing (setState w .synrcvd)) where
  ends := rfl
  backlog := rfl
  passive := rfl
  dead := id
  opens := fun opens => by obtain opens | opens := opens <;> cases opens
  half := fun _ => Or.inl asking
  sock := sock_kept_refl w.data.sock
  freed := Or.inl

theorem stays_sock_state (w : World) (state : SoState) (used : state ≠ .isunconnected) (open' : w.tcb.state ≠ .synrcvd) :
    Stays (standing w) (standing (setSockState w state)) where
  ends := rfl
  backlog := rfl
  passive := rfl
  dead := id
  opens := fun _ => rfl
  half := fun half => (open' half).elim
  sock := by
    show SockKept w.data.sock (w.data.sock.map fun so => { so with state := state })
    cases w.data.sock with
    | none => trivial
    | some so => exact ⟨rfl, rfl, fun fresh => (used fresh).elim⟩
  freed := Or.inl

theorem stays_dead (w : World) : Stays (standing w) (standing (setDead w)) :=
  { stays_refl (standing w) with dead := fun _ => rfl }

theorem stays_gone (w : World) (alone : w.data.sock = none) : Stays (standing w) { standing w with alive := false } :=
  { stays_refl (standing w) with freed := fun _ => Or.inr alone }

theorem standing_free (w : World) : standing (connFree w) = { standing w with alive := false } := rfl

theorem stays_delete (w : World) : Stays (standing w) (standing (tcbDelete w)) := by
  have closes := stays_state w .closed (by decide)
  unfold tcbDelete
  split
  · rename_i alone
    refine stays_trans _ _ _ closes ?_
    rw [standing_free]
    exact stays_gone (setState w .closed) (Option.isNone_iff_eq_none.mp alone)
  · exact closes

theorem stays_close (w : World) (err : Int) : Stays (standing w) (standing (closeWith w err)) :=
  stays_trans _ _ _ (stays_state (tcbReset w err) .closed (by decide)) (stays_delete _)

theorem standing_wait (w : World) : standing (tcbWait w) = standing w := by
  unfold tcbWait
  split <;> rfl

theorem stays_timewait (w : World) : Stays (standing w) (standing (toTimewait w)) := by
  unfold toTimewait
  rw [standing_wait]
  exact stays_trans _ _ _ (stays_state w .timewait (by decide)) (stays_dead _)

theorem standing_limit_rcv (env : Env) (w : World) (faddr : InAddr) (maxmss : Int) :
    standing (limitRcv env w faddr maxmss) = standing w := by
  unfold limitRcv
  split
  · rfl
  · dsimp only
    split <;> rfl

theorem standing_open_snd_mss (env : Env) (w : World) (pkt : Pkt) : standing (openSndMss env w pkt) = standing w := by
  unfold openSndMss
  split
  · rfl
  · exact standing_limit_rcv env w _ _

theorem stays_reset_closed (w : World) (err : Int) :
    Stays (standing w) (standing (closeSock w err)) :=
  stays_trans _ _ _ (stays_state (tcbReset w err) .closed (by decide)) (stays_sock_state _ .isdisconnecting (by decide)
    (by show TcbState.closed ≠ .synrcvd; decide))

theorem stays_hang_up (w : World) : Stays (standing w) (standing (hangUp w)) :=
  stays_state (tcbReset w ECONNRESET) .closed (by decide)

section

variable (env : Env) (w : World) (pkt : Pkt)

theorem stays_synsent_open (asking : w.tcb.state = .synsent) : Stays (standing w) (standing (synsentOpen w pkt)) := by
  unfold synsentOpen
  split
  · exact stays_trans _ _ _ (stays_state w .established (by decide)) (stays_sock_state
      (setWindow (setState w .established) pkt.tcph) .isconnected (by decide) (by show TcbState.established ≠ .synrcvd; decide))
  · exact stays_half w asking

theorem stays_synsent_accept (asking : w.tcb.state = .synsent) :
    Stays (standing w) (standing (synsentAccept env w pkt)) := by
  unfold synsentAccept
  rw [standing_send_ack, standing_rcvdata, standing_open_snd_mss]
  have acked : standing (tcpAck env (startRcv w pkt.tcph.seq) pkt false) = standing w := standing_ack env _ pkt false
  rw [← acked]
  exact stays_synsent_open _ pkt ((congrArg Standing.state acked).trans asking)

theorem stays_synsent (asking : w.tcb.state = .synsent) : Stays (standing w) (standing (tcbsSynsent env w pkt)) := by
  unfold tcbsSynsent
  split
  · exact stays_same w _ (standing_sndrst env w pkt)
  · split
    · rw [standing_deref]
      split
      · exact stays_reset_closed w ECONNREFUSED
      · exact stays_refl _
    · split
      · exact stays_refl _
      · exact stays_synsent_accept env w pkt asking

theorem standing_so_free : standing (soFree w) = standing w ∨ standing (soFree w) = { standing w with alive := false } := by
  unfold soFree
  split
  · split
    · exact Or.inl rfl
    · exact Or.inr (standing_free w)
  · exact Or.inl rfl

-- The one exception: a passive connection that has not been established is freed with its socket.
def FreedHalf (w w' : World) : Prop := w.tcb.flags.passive ∧ w.tcb.state = .synrcvd ∧ w'.alive = false

theorem stays_abort (half : w.tcb.state = .synrcvd) :
    Stays (standing w) (standing (synrcvdAbort w)) ∨ FreedHalf w (synrcvdAbort w) := by
  unfold synrcvdAbort
  split
  · rename_i passive
    obtain same | gone := standing_so_free (setState w .closed)
    · rw [same]
      exact Or.inl (stays_state w .closed (by decide))
    · exact Or.inr ⟨passive, half, congrArg Standing.alive gone⟩
  · exact Or.inl (stays_reset_closed w ECONNRESET)

theorem stays_note_connected (open' : w.tcb.state ≠ .synrcvd) : Stays (standing w) (standing (noteConnected w)) := by
  unfold noteConnected
  split
  · exact stays_refl _
  · exact stays_sock_state w .isconnected (by decide) open'

theorem stays_synrcvd_done : Stays (standing w) (standing (synrcvdDone w)) := by
  unfold synrcvdDone
  split
  · exact stays_trans _ _ _ (stays_state w .closewait (by decide)) (stays_sock_state _ .isdisconnecting (by decide)
      (by show TcbState.closewait ≠ .synrcvd; decide))
  · exact stays_refl _

theorem stays_synrcvd_accept : Stays (standing w) (standing (synrcvdAccept env w pkt)) := by
  have acked := standing_ack env w pkt false
  have opened : Stays (standing w) (standing (synrcvdOpen (tcpAck env w pkt false) pkt)) := by
    rw [← acked]
    exact stays_state (tcpAck env w pkt false) .established (by decide)
  have data := standing_rcvdata env (synrcvdOpen (tcpAck env w pkt false) pkt) pkt
  rw [← data] at opened
  have open' : (tcpRcvdata env (synrcvdOpen (tcpAck env w pkt false) pkt) pkt).tcb.state ≠ .synrcvd := by
    rw [show (tcpRcvdata env (synrcvdOpen (tcpAck env w pkt false) pkt) pkt).tcb.state = .established from
      congrArg Standing.state data]
    decide
  exact stays_trans _ _ _ opened (stays_trans _ _ _ (stays_note_connected _ open') (stays_synrcvd_done _))

theorem stays_synrcvd (half : w.tcb.state = .synrcvd) :
    Stays (standing w) (standing (tcbsSynrcvd env w pkt)) ∨ FreedHalf w (tcbsSynrcvd env w pkt) := by
  unfold tcbsSynrcvd
  split
  · exact stays_abort w half
  · split
    · have same := standing_sndrst env w pkt
      have aborted := stays_abort (tcpSndrst env w pkt) ((congrArg Standing.state same).trans half)
      rw [same] at aborted
      refine aborted.imp id fun freed => ⟨?_, half, freed.2.2⟩
      rw [← show (tcpSndrst env w pkt).tcb.flags.passive = w.tcb.flags.passive from congrArg Standing.passive same]
      exact freed.1
    · split
      · exact Or.inl (stays_refl _)
      · exact Or.inl (stays_synrcvd_accept env w pkt)

theorem stays_established : Stays (standing w) (standing (tcbsEstablished env w pkt)) := by
  unfold tcbsEstablished
  split
  · exact stays_hang_up w
  · split
    · have reset := stays_hang_up (tcpSndrst env w pkt)
      rw [standing_sndrst] at reset
      exact reset
    · split
      · exact stays_refl _
      · unfold closewaitIfFinished
        split
        · refine stays_trans _ _ _ (stays_same w _ ?_) (stays_state _ .closewait (by decide))
          simp
        · exact stays_same w _ (by simp)

theorem stays_refuse : Stays (standing w) (standing (refuse env w pkt)) := by
  unfold refuse
  refine stays_trans _ _ _ (stays_trans _ _ _ (stays_same w _ ?_) (stays_state _ .closed (by decide))) (stays_delete _)
  exact standing_sndrst env w pkt

theorem stays_finwait1_done : Stays (standing w) (standing (finwait1Done w)) := by
  unfold finwait1Done
  split
  · split
    · exact stays_timewait w
    · exact stays_state w .closing (by decide)
  · split
    · rw [standing_wait]
      exact stays_state w .finwait2 (by decide)
    · exact stays_refl _

theorem stays_finwait1 : Stays (standing w) (standing (tcbsFinwait1 env w pkt)) := by
  unfold tcbsFinwait1
  split
  · exact stays_refuse env w pkt
  · split
    · exact stays_refl _
    · exact stays_trans _ _ _ (stays_same w _ (by simp)) (stays_finwait1_done _)

theorem stays_finwait2 : Stays (standing w) (standing (tcbsFinwait2 env w pkt)) := by
  unfold tcbsFinwait2
  split
  · refine stays_trans _ _ _ (stays_trans _ _ _ (stays_same w _ ?_) (stays_state _ .closed (by decide))) (stays_delete _)
    exact standing_sndrst env w pkt
  · split
    · exact stays_refl _
    · unfold finwait2Done
      split
      · exact stays_trans _ _ _ (stays_same w _ (by simp)) (stays_timewait _)
      · exact stays_same w _ (by simp)

theorem stays_closewait : Stays (standing w) (standing (tcbsClosewait env w pkt)) := by
  unfold tcbsClosewait
  split
  · exact stays_refuse env w pkt
  · exact stays_same w _ (standing_ack env w pkt true)

theorem stays_lastack : Stays (standing w) (standing (tcbsLastack env w pkt)) := by
  unfold tcbsLastack
  split
  · exact stays_refuse env w pkt
  · unfold lastackDone
    split
    · refine stays_trans _ _ _ (stays_trans _ _ _ (stays_same w _ (standing_ack env w pkt false))
        (stays_trans _ _ _ (stays_state _ .closed (by decide)) (stays_dead _))) (stays_delete _)
    · exact stays_same w _ (standing_ack env w pkt false)

theorem stays_closing : Stays (standing w) (standing (tcbsClosing env w pkt)) := by
  unfold tcbsClosing
  split
  · exact stays_refuse env w pkt
  · unfold closingDone
    split
    · exact stays_trans _ _ _ (stays_same w _ (standing_ack env w pkt false)) (stays_timewait _)
    · exact stays_same w _ (standing_ack env w pkt false)

theorem stays_in_timewait : Stays (standing w) (standing (tcbsTimewait env w pkt)) := by
  unfold tcbsTimewait
  split
  · refine stays_trans _ _ _ (stays_trans _ _ _ (stays_same w _ ?_) (stays_state _ .closed (by decide))) (stays_delete _)
    exact standing_sndrst env w pkt
  · rw [standing_wait]
    exact stays_same w _ (by simp)

theorem stays_state_function (duplicate : Bool) (talks : w.tcb.state ≠ .listen) :
    Stays (standing w) (standing (tcbState env w pkt duplicate)) ∨ FreedHalf w (tcbState env w pkt duplicate) := by
  unfold tcbState
  cases state : w.tcb.state with
  | closed => exact Or.inl (stays_same w _ (standing_sndrst env w pkt))
  | listen => exact (talks state).elim
  | synsent => exact Or.inl (stays_synsent env w pkt state)
  | synrcvd => exact stays_synrcvd env w pkt state
  | established => exact Or.inl (stays_established env w pkt)
  | finwait1 => exact Or.inl (stays_finwait1 env w pkt)
  | finwait2 => exact Or.inl (stays_finwait2 env w pkt)
  | closewait => exact Or.inl (stays_closewait env w pkt)
  | lastack => exact Or.inl (stays_lastack env w pkt)
  | closing => exact Or.inl (stays_closing env w pkt)
  | timewait => exact Or.inl (stays_in_timewait env w pkt)

theorem input_stays (duplicate : Bool) (talks : w.tcb.state ≠ .listen) :
    Stays (standing w) (standing (inputFound env w pkt duplicate)) ∨ FreedHalf w (inputFound env w pkt duplicate) := by
  have urgent := standing_urgent env w pkt
  unfold inputFound gatePass
  split
  · have state : (inputUrgent env w pkt).2.tcb.state = w.tcb.state := congrArg Standing.state urgent
    have passive : (inputUrgent env w pkt).2.tcb.flags.passive = w.tcb.flags.passive := congrArg Standing.passive urgent
    have handled := stays_state_function env (inputUrgent env w pkt).2
      (gatePkt (inputUrgent env w pkt).2 (inputUrgent env w pkt).1) duplicate (by rw [state]; exact talks)
    rw [urgent] at handled
    exact handled.imp id fun freed => ⟨by rw [← passive]; exact freed.1, by rw [← state]; exact freed.2.1, freed.2.2⟩
  · exact Or.inl (stays_same w _ ((standing_sndack env _ _).trans urgent))

end

end MagxNet.Tcp
