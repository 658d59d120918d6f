import MagxNet.Tcp.StreamRun
import MagxNet.Tcp.Callers
import MagxNet.Tcp.LedgerEvents

set_option autoImplicit false

namespace MagxNet.Tcp

open Bytes

-- What receiving works with.
structure RcvSide where
  state : TcbState
  read : Seq
  uread : Seq
  nxt : Seq
  fin : Bool
  seqFin : Seq
  queue : List Buf

def rcvSide (w : World) : RcvSide :=
  ⟨w.tcb.state, w.tcb.seqRead, w.tcb.seqUread, w.tcb.rcvNxt, w.tcb.flags.fin, w.tcb.seqFin, w.data.rcv.q⟩

-- A closed connection with nothing left to read.
def RcvSide.gone (r : RcvSide) : Prop := r.state = .closed ∧ r.queue = []

-- What everything but data from the peer and a reader does: the state may move on, and only a connection that
-- is closed for good loses what it has received.
def Rests (r r' : RcvSide) : Prop :=
  r'.gone ∨ r' = { r with state := r'.state } ∧ (r'.state = r.state ∨ r'.state = .closed ∨ r.state.synced ∧ r'.state.synced)

theorem rests_refl (r : RcvSide) : Rests r r := Or.inr ⟨rfl, Or.inl rfl⟩

theorem rests_trans (a b c : RcvSide) (ab : Rests a b) (bc : Rests b c) : Rests a c := by
  obtain gone | ⟨same, state⟩ := bc
  · exact Or.inl gone
  · obtain ⟨closed, empty⟩ | ⟨same', state'⟩ := ab
    · refine Or.inl ⟨?_, by rw [same]; exact empty⟩
      obtain still | now | ⟨synced, -⟩ := state
      · exact still.trans closed
      · exact now
      · rw [closed] at synced
        cases synced
    · refine Or.inr ⟨by rw [same, same'], ?_⟩
      obtain still | now | ⟨synced, later⟩ := state
      · rw [still]
        exact state'
      · exact Or.inr (Or.inl now)
      · obtain still | now | ⟨before, -⟩ := state'
        · exact Or.inr (Or.inr ⟨still ▸ synced, later⟩)
        · rw [now] at synced
          cases synced
        · exact Or.inr (Or.inr ⟨before, later⟩)

theorem rests_same (w w' : World) (same : rcvSide w' = rcvSide w) : Rests (rcvSide w) (rcvSide w') := by
  rw [same]
  exact rests_refl _

theorem rests_state (w : World) (state : TcbState) (later : state = .closed ∨ w.tcb.state.synced ∧ state.synced) :
    Rests (rcvSide w) (rcvSide (setState w state)) :=
  Or.inr ⟨rfl, Or.inr later⟩

theorem rcv_incoming (w w' : World) (same : incoming w' = incoming w) : rcvSide w' = rcvSide w :=
  incoming_same rcvSide w w' same fun _ => rfl

theorem rcv_steady (w w' : World) (same : steady w' = steady w) : rcvSide w' = rcvSide w :=
  steady_same rcvSide w w' same fun _ => rfl

theorem rcv_state (w w' : World) (same : rcvSide w' = rcvSide w) : w'.tcb.state = w.tcb.state := congrArg RcvSide.state same

theorem quiet_same (w w' : World) (same : rcvSide w' = { rcvSide w with state := w'.tcb.state }) : Calm w w' :=
  ⟨congrArg RcvSide.read same, congrArg RcvSide.uread same, congrArg RcvSide.nxt same, congrArg RcvSide.fin same,
    congrArg RcvSide.seqFin same, congrArg RcvSide.queue same⟩

theorem rests_quiet (w w' : World) (rests : Rests (rcvSide w) (rcvSide w')) : (rcvSide w').gone ∨ Calm w w' :=
  rests.imp id fun kept => quiet_same w w' kept.1

-- How a connection ends.

theorem gone_reset (w : World) (err : Int) : (rcvSide (setState (tcbReset w err) .closed)).gone := ⟨rfl, rfl⟩

theorem gone_free (w : World) (closed : w.tcb.state = .closed) : (rcvSide (connFree w)).gone := ⟨closed, rfl⟩

theorem rests_delete (w : World) : Rests (rcvSide w) (rcvSide (tcbDelete w)) := by
  unfold tcbDelete
  split
  · exact Or.inl (gone_free (setState w .closed) rfl)
  · exact rests_state w .closed (Or.inl rfl)

theorem rests_close (w : World) (err : Int) : Rests (rcvSide w) (rcvSide (closeWith w err)) :=
  rests_trans _ _ _ (Or.inl (gone_reset w err)) (rests_delete _)

theorem rests_so_free (w : World) : Rests (rcvSide w) (rcvSide (soFree (setState w .closed))) := by
  unfold soFree
  split
  · split
    · exact rests_state w .closed (Or.inl rfl)
    · exact Or.inl (gone_free (setState w .closed) rfl)
  · exact rests_state w .closed (Or.inl rfl)

theorem rcv_wait (w : World) : rcvSide (tcbWait w) = rcvSide w := by
  unfold tcbWait
  split <;> rfl

theorem rests_timewait (w : World) (synced : w.tcb.state.synced = true) : Rests (rcvSide w) (rcvSide (toTimewait w)) := by
  unfold toTimewait
  rw [rcv_wait]
  exact rests_state w .timewait (Or.inr ⟨synced, rfl⟩)

section

variable (env : Env) (w : World)

-- The output side.

theorem rcv_retrans_send (b : Buf) (rest : List Buf) : rcvSide (retransSend env w b rest) = rcvSide w := by
  have sent := rcv_steady w _ (steady_sndseg env w b rest w.tcb.nretrans w.tcb.sndUna w.tcb.sndNxt)
  unfold retransSend
  generalize tcpSndseg env w b rest w.tcb.nretrans w.tcb.sndUna w.tcb.sndNxt = done at sent ⊢
  obtain ⟨r, w1⟩ := done
  dsimp only
  split <;> exact sent

theorem rests_retrans : Rests (rcvSide w) (rcvSide (tcpRetrans env w)) := by
  unfold tcpRetrans
  split
  · exact rests_close (countRetrans w) ETIMEDOUT
  · split
    · exact rests_refl _
    · exact rests_same w _ (rcv_retrans_send env (shrinkCwnd (countRetrans w)) _ _)

theorem rests_probe : Rests (rcvSide w) (rcvSide (tcpProbe env w)) := by
  by_cases silent : peerSilent w
  · unfold tcpProbe
    rw [if_pos silent]
    exact rests_close w ETIMEDOUT
  · exact rests_same w _ (rcv_steady w _ (probe_heard env w silent).1)

theorem rests_persist_sent : Rests (rcvSide w) (rcvSide (persistSent env w)) := by
  unfold persistSent
  split
  · exact rests_refl _
  · exact rests_probe env (noRtt w)

theorem rests_timeout : Rests (rcvSide w) (rcvSide (tcbOstate env w .timeout)) := by
  unfold tcbOstate
  split
  · exact rests_refl _
  · exact rests_retrans env w
  · unfold tcbosPersist
    dsimp only
    split
    · have sent := rcv_steady (setWndmax w) _ (steady_sndhead env (setWndmax w))
      exact rests_trans _ _ _ (rests_same w _ sent) (rests_persist_sent env _)
    · exact rests_probe env w
  · exact rests_retrans env (capDupacks (noRtt (setOstate w .retrans)))

theorem rests_event (event : OutEvent) : Rests (rcvSide w) (rcvSide (tcbOstate env w event)) := by
  by_cases timeout : event = .timeout
  · rw [timeout]
    exact rests_timeout env w
  · exact rests_same w _ (rcv_steady w _ (steady_ostate env w event timeout))

theorem rcv_output_round (bytes : List Byte) (flags : Flags) (first : Bool) :
    rcvSide (outputRound env w bytes flags first).2 = rcvSide w := by
  have room : rcvSide (outputRoom env w bytes.length flags first).2 = rcvSide w := by
    unfold outputRoom
    split
    · rfl
    · cases got : bufAlloc env w with
      | mk id w1 =>
          have same := rcv_steady w w1 (steady_alloc_split env w w1 id got)
          cases id with
          | none => exact same
          | some id =>
              dsimp only [outputFresh, writeSyn]
              split <;> exact same
  have fill : ∀ x r fin, rcvSide (outputFill x bytes r fin) = rcvSide x := by
    intro x r fin
    unfold outputFill
    split <;> rfl
  unfold outputRound
  generalize outputRoom env w bytes.length flags first = got at room ⊢
  obtain ⟨r, w1⟩ := got
  cases r with
  | none => exact room
  | some r => exact (fill w1 r flags.fin).trans room

theorem rcv_output_loop (flags : Flags) (fuel : Nat) (w : World) (bytes : List Byte) (first : Bool) :
    rcvSide (outputLoop env flags fuel w bytes first).2 = rcvSide w := by
  induction fuel generalizing w bytes first with
  | zero => rfl
  | succ fuel ih =>
      have round := rcv_output_round env w bytes flags first
      unfold outputLoop
      generalize outputRound env w bytes flags first = got at round ⊢
      obtain ⟨left, w1⟩ := got
      cases left with
      | none => exact round
      | some left =>
          cases left with
          | nil => exact round
          | cons byte rest => exact (ih w1 (byte :: rest) false).trans round

theorem rests_output_urgent : Rests (rcvSide w) (rcvSide (outputUrgent env w)) := by
  have probed : Rests (rcvSide w) (rcvSide (tcpProbe env (setPersistTmo (timerDel w) (tcpTimeout w)))) :=
    rests_probe env (setPersistTmo (timerDel w) (tcpTimeout w))
  unfold outputUrgent
  split
  · split
    · exact probed
    · exact rests_trans _ _ _ probed (rests_event env _ .send)
  · exact rests_event env w .send

theorem rests_output (bytes : List Byte) (flags : Flags) : Rests (rcvSide w) (rcvSide (tcpOutput env w bytes flags).2) := by
  have queued := rcv_output_loop env flags (bytes.length + 1) w bytes true
  unfold tcpOutput
  split
  · exact rests_same w _ (rcv_steady w _ (steady_output_ack env w flags.psh))
  · generalize outputLoop env flags (bytes.length + 1) w bytes true = got at queued ⊢
    obtain ⟨ret, w1⟩ := got
    cases ret with
    | none => exact rests_same w _ queued
    | some ret =>
        dsimp only at queued ⊢
        rw [← queued]
        split
        · exact rests_output_urgent env (setSndUrg w1)
        · exact rests_event env w1 .send

-- Without urgent data nothing is probed.
theorem rcv_output (bytes : List Byte) (flags : Flags) (plain : flags.urg = false) :
    rcvSide (tcpOutput env w bytes flags).2 = rcvSide w := by
  have queued := rcv_output_loop env flags (bytes.length + 1) w bytes true
  unfold tcpOutput
  split
  · exact rcv_steady w _ (steady_output_ack env w flags.psh)
  · generalize outputLoop env flags (bytes.length + 1) w bytes true = got at queued ⊢
    obtain ⟨ret, w1⟩ := got
    cases ret with
    | none => exact queued
    | some ret =>
        rw [plain]
        exact (rcv_steady w1 _ (steady_ostate env w1 .send (by decide))).trans queued

theorem rests_send_round (bytes : List Byte) (oob : Bool) : Rests (rcvSide w) (rcvSide (sendRound env w bytes oob).2) := by
  unfold sendRound
  split
  · exact rests_refl _
  · split
    · exact rests_refl _
    · exact rests_output env w _ _

theorem rests_send_fin : Rests (rcvSide w) (rcvSide (sendFin env w)) := by
  have moves : ∀ next : TcbState, w.tcb.state.synced = true → next.synced = true →
      Rests (rcvSide w) (rcvSide (outputFin env (setState w next))) := fun next synced later =>
    rests_trans _ _ _ (rests_state w next (Or.inr ⟨synced, later⟩)) (rests_output env _ [] TCPF_FIN_ACK)
  unfold sendFin
  split
  · rename_i state
    exact moves .finwait1 (by rw [state]; rfl) rfl
  · rename_i state
    exact moves .finwait1 (by rw [state]; rfl) rfl
  · rename_i state
    exact moves .lastack (by rw [state]; rfl) rfl
  · exact rests_refl _

-- The calls and the timers.

theorem rests_shutdown (how : Nat) : Rests (rcvSide w) (rcvSide (tcpShutdown env (setCant w how) how)) := by
  unfold tcpShutdown
  split
  · exact rests_send_fin env (setCant w how)
  · exact rests_refl _

theorem rests_send (bytes : List Byte) (oob : Bool) : Rests (rcvSide w) (rcvSide (tcpSend env w bytes oob).2) := by
  unfold tcpSend
  split
  · exact rests_refl _
  · split
    · exact rests_refl _
    · exact rests_send_round env w bytes oob

theorem rests_send_woken (bytes : List Byte) (oob : Bool) : Rests (rcvSide w) (rcvSide (tcpSendWoken env w bytes oob).2) := by
  unfold tcpSendWoken
  split
  · exact rests_refl _
  · split
    · exact rests_refl _
    · exact rests_send_round env w bytes oob

theorem rests_error (id : Nat) (error : IcmpError) : Rests (rcvSide w) (rcvSide (tcpError w id error)) := by
  unfold tcpError noteError
  cases error with
  | sourceQuench => exact rests_refl _
  | hard err => exact rests_close w err
  | soft err =>
      dsimp only
      split <;> exact rests_refl _

theorem rests_timer (op : Op) (timer : op = .wakeme ∨ op = .deleteme ∨ op = .dodelack) :
    Rests (rcvSide w) (rcvSide (netStep env w op)) := by
  obtain rfl | rfl | rfl := timer <;> unfold netStep <;> dsimp only <;> split
  · exact rests_timeout env (takeTimer w)
  · exact rests_refl _
  · exact rests_delete (takeDelete w)
  · exact rests_refl _
  · unfold dodelack
    split
    · exact rests_same w _ (rcv_steady (takeAck w) _ (steady_send_ack env _))
    · exact rests_refl _
  · exact rests_refl _

-- What the user does besides reading and hanging up.
def Op.plainCall : Op → Prop
  | .send _ _ | .sendWoken _ _ | .shutdown _ | .accept | .rcvbuf _ | .sndbuf _ | .nodelay _ | .oobinline _ | .takeErr => True
  | _ => False

theorem rests_call (op : Op) (plain : op.plainCall) : Rests (rcvSide w) (rcvSide (netStep env w op)) := by
  have calls : Rests (rcvSide w) (rcvSide (userStep env w op)) →
    Rests (rcvSide w) (rcvSide (if w.data.sock.isSome then userStep env w op else w)) := by
    intro called
    split
    · exact called
    · exact rests_refl _
  cases op with
  | send bytes oob => exact calls (rests_send env w bytes oob)
  | sendWoken bytes oob => exact calls (rests_send_woken env w bytes oob)
  | shutdown how => exact calls (rests_shutdown env w how)
  | accept =>
      refine calls (rests_same w _ ?_)
      dsimp only [userStep, tcpAccept]
      split <;> rfl
  | rcvbuf val =>
      refine calls (rests_same w _ ?_)
      dsimp only [userStep, setRcvbuf]
      split <;> rfl
  | sndbuf val =>
      refine calls (rests_same w _ ?_)
      dsimp only [userStep, setSndbuf]
      split <;> rfl
  | nodelay set => exact calls (rests_refl _)
  | oobinline set => exact calls (rests_refl _)
  | takeErr => exact calls (rests_refl _)
  | segment pkt duplicate => exact plain.elim
  | error id error => exact plain.elim
  | wakeme => exact plain.elim
  | deleteme => exact plain.elim
  | dodelack => exact plain.elim
  | recv args => exact plain.elim
  | recvWoken args => exact plain.elim
  | detach => exact plain.elim
  | tick delta => exact plain.elim

end

end MagxNet.Tcp
