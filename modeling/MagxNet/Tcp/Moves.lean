import MagxNet.Tcp.Run
import MagxNet.Tcp.Side
import MagxNet.Tcp.LedgerOutput

set_option autoImplicit false

namespace MagxNet.Tcp

open Bytes

-- Where sending the FIN leads.
def TcbState.finishes : TcbState → Option TcbState
  | .synrcvd | .established => some .finwait1
  | .closewait => some .lastack
  | _ => none

-- How much a call asks tcp_output to queue.
def finAsked (w : World) : Nat := if w.tcb.state.finishes.isSome then 1 else 0

def asked (w : World) : Op → Nat
  | .send bytes _ | .sendWoken bytes _ => min bytes.length (tcpCanwrite w).toNat
  | .shutdown how => if how = 1 ∨ how = 2 then finAsked w else 0
  | .detach => finAsked w
  | _ => 0

-- A call that sends the FIN.
def finishing (w : World) : Op → Prop
  | .shutdown how => (how = 1 ∨ how = 2) ∧ w.tcb.state.finishes.isSome
  | .detach => w.tcb.state.finishes.isSome
  | _ => False

-- What one step of a connection does to its sending side.
inductive Moves (env : Env) (w : World) (op : Op) (w' : World) : Prop
  | same : sendSide w' = sendSide w → Moves env w op w'
  | gone : w'.alive = false → Moves env w op w'
  | ended : Ended w w' → Moves env w op w'
  | deleted : w.data.sock.isSome → sendSide w' = { sendSide w with state := .closed, delete := none } →
      Moves env w op w'
  | heard (pkt : Pkt) (duplicate : Bool) : op = .segment pkt duplicate → w.tcb.state ≠ .closed →
      Outcome env w pkt w' → Moves env w op w'
  | fired : op = .wakeme → w.tcb.timerEvt.isSome → w' = tcbOstate env (timerDel w) .timeout → Moves env w op w'
  | wrote (bytes : List Byte) (flags : Flags) : asked w op = bytes.length → connected w → bytes ≠ [] →
      (bytes.length : Int) ≤ tcpCanwrite w → flags.syn = false → flags.fin = false →
      w' = (tcpOutput env w bytes flags).2 → Moves env w op w'
  | finished (x : World) (state : TcbState) (sock : Bool) : asked w op = 1 → finishing w op → sendSide x = sendSide w →
      x.data.snd = w.data.snd → x.net = w.net → w.tcb.state.finishes = some state →
      sendSide w' = { sendSide (outputFin env (setState x state)) with sock := sock } → Moves env w op w'
  | detached : op = .detach → w.tcb.state.finishes = none → w.tcb.state ≠ .closed → w.tcb.state ≠ .listen →
      w.tcb.state ≠ .synsent → sendSide w' = { sendSide w with sock := false } → Moves env w op w'
  | accepted : sendSide w' = { sendSide w with sock := true } → Moves env w op w'
  | resized (room : Int) : 4096 ≤ room → room ≤ 65535 →
      sendSide w' = { sendSide w with ledger := { (sendSide w).ledger with room := room } } → Moves env w op w'

section

variable (env : Env) (w : World) (op : Op)

theorem recv_round_side (args : RecvArgs) : sendSide (recvRound env w args).2 = sendSide w :=
  side_of_outgoing _ _ (outgoing_recv_round env w args)

theorem recv_side (args : RecvArgs) : sendSide (tcpRecv env w args).2 = sendSide w := by
  unfold tcpRecv
  split
  · rfl
  · split
    · rfl
    · exact recv_round_side env w args

theorem recv_woken_side (args : RecvArgs) : sendSide (tcpRecvWoken env w args).2 = sendSide w := by
  unfold tcpRecvWoken
  split
  · rfl
  · split
    · rfl
    · exact recv_round_side env w args

theorem send_round_moves (bytes : List Byte) (oob : Bool)
    (asks : asked w op = min bytes.length (tcpCanwrite w).toNat) :
    Moves env w op (sendRound env w bytes oob).2 := by
  unfold sendRound
  split
  · exact .same rfl
  · rename_i ready
    split
    · exact .same rfl
    · rename_i open'
      rw [not_or, not_and, not_le] at ready
      have room := ready.1 (not_not.mp open')
      dsimp only
      by_cases real : bytes.take (tcpCanwrite w).toNat = []
      · have bare : (tcpOutput env w (bytes.take (tcpCanwrite w).toNat) (if oob then TCPF_URG else Flags.none)).2
            = (outputAck env w false).2 := by
          rw [real, tcpOutput, if_pos (by cases oob <;> decide)]
          cases oob <;> rfl
        rw [bare]
        exact .same (side_of_outgoing _ _ (outgoing_output_ack env w false))
      · refine .wrote _ _ ?_ (not_not.mp open') real ?_ (by cases oob <;> rfl) (by cases oob <;> rfl) rfl
        · rw [List.length_take, asks, min_comm]
        · rw [List.length_take]
          omega

theorem send_moves (bytes : List Byte) (oob : Bool)
    (asks : asked w op = min bytes.length (tcpCanwrite w).toNat) : Moves env w op (tcpSend env w bytes oob).2 := by
  unfold tcpSend
  split
  · exact .same rfl
  · split
    · exact .same rfl
    · exact send_round_moves env w op bytes oob asks

theorem send_woken_moves (bytes : List Byte) (oob : Bool)
    (asks : asked w op = min bytes.length (tcpCanwrite w).toNat) : Moves env w op (tcpSendWoken env w bytes oob).2 := by
  unfold tcpSendWoken
  split
  · exact .same rfl
  · split
    · exact .same rfl
    · exact send_round_moves env w op bytes oob asks

theorem send_fin_finishes (state : TcbState) (finishes : w.tcb.state.finishes = some state) :
    sendFin env w = outputFin env (setState w state) := by
  unfold sendFin
  unfold TcbState.finishes at finishes
  cases here : w.tcb.state <;> rw [here] at finishes <;> cases finishes <;> rfl

theorem send_fin_none (finishes : w.tcb.state.finishes = none) : sendFin env w = w := by
  unfold sendFin
  unfold TcbState.finishes at finishes
  cases here : w.tcb.state <;> rw [here] at finishes <;> first | rfl | cases finishes

theorem side_set_cant (how : Nat) : sendSide (setCant w how) = sendSide w := by
  unfold sendSide setCant
  simp [ledger]

theorem shutdown_moves (how : Nat) (held : w.data.sock.isSome) :
    Moves env w (.shutdown how) (tcpShutdown env (setCant w how) how) := by
  unfold tcpShutdown
  split
  · rename_i ends
    cases finishes : w.tcb.state.finishes with
    | none =>
        refine .same ?_
        rw [send_fin_none env (setCant w how) finishes, side_set_cant]
    | some state =>
        have sock : (outputFin env (setState (setCant w how) state)).data.sock.isSome = true := by
          rw [outputFin, output_sock env _ [] TCPF_FIN_ACK rfl (Or.inr (Or.inr rfl))]
          exact (congrArg SendSide.sock (side_set_cant w how)).trans held
        have asks : asked w (.shutdown how) = 1 := by
          dsimp only [asked]
          rw [if_pos ends, finAsked, finishes]
          rfl
        have calls : finishing w (.shutdown how) := ⟨ends, by rw [finishes]; rfl⟩
        refine .finished (setCant w how) state true asks calls (side_set_cant w how) rfl rfl finishes ?_
        rw [send_fin_finishes env (setCant w how) state finishes, ← sock]
        rfl
  · exact .same (side_set_cant w how)

theorem side_drop_sock (w : World) : sendSide (dropSock w) = { sendSide w with sock := false } := rfl

theorem dropsegs_side (x : World) : sendSide (tcpDropsegs env (markAll x)) = sendSide x :=
  side_of_outgoing _ _ ((outgoing_dropsegs env _).trans (outgoing_mark_all x))

theorem detach_moves : Moves env w .detach (tcpDetach env w) := by
  have gone : ∀ x : World, connFree w = x → Moves env w .detach x := by
    rintro x rfl
    exact .gone rfl
  have stays : w.tcb.state ≠ .closed → w.tcb.state ≠ .listen → w.tcb.state ≠ .synsent →
      Moves env w .detach (tcpDropsegs env (markAll (dropSock (sendFin env w)))) := by
    intro notClosed notListen notSynsent
    cases finishes : w.tcb.state.finishes with
    | none =>
        refine .detached rfl finishes notClosed notListen notSynsent ?_
        rw [dropsegs_side, side_drop_sock, send_fin_none env w finishes]
    | some state =>
        have asks : asked w .detach = 1 := by
          dsimp only [asked]
          rw [finAsked, finishes]
          rfl
        have calls : finishing w .detach := by
          dsimp only [finishing]
          rw [finishes]
          rfl
        refine .finished w state false asks calls rfl rfl rfl finishes ?_
        rw [dropsegs_side, side_drop_sock, send_fin_finishes env w state finishes]
  unfold tcpDetach
  cases state : w.tcb.state with
  | closed => exact .gone rfl
  | listen => exact .gone rfl
  | synsent => exact .gone rfl
  | synrcvd => exact stays (by simp [state]) (by simp [state]) (by simp [state])
  | established => exact stays (by simp [state]) (by simp [state]) (by simp [state])
  | finwait1 => exact stays (by simp [state]) (by simp [state]) (by simp [state])
  | finwait2 => exact stays (by simp [state]) (by simp [state]) (by simp [state])
  | closewait => exact stays (by simp [state]) (by simp [state]) (by simp [state])
  | lastack => exact stays (by simp [state]) (by simp [state]) (by simp [state])
  | closing => exact stays (by simp [state]) (by simp [state]) (by simp [state])
  | timewait => exact stays (by simp [state]) (by simp [state]) (by simp [state])

theorem clamp_range (val : Int) : 4096 ≤ clampSpace val ∧ clampSpace val ≤ 65535 := by
  unfold clampSpace IN_MAX_SPACE IN_MIN_SPACE
  split
  · decide
  · split <;> omega

theorem user_moves (held : w.data.sock.isSome) : Moves env w op (userStep env w op) := by
  cases op with
  | recv args => exact .same (recv_side env w args)
  | recvWoken args => exact .same (recv_woken_side env w args)
  | send bytes oob => exact send_moves env w _ bytes oob rfl
  | sendWoken bytes oob => exact send_woken_moves env w _ bytes oob rfl
  | shutdown how => exact shutdown_moves env w how held
  | detach => exact detach_moves env w
  | accept =>
      dsimp only [userStep, tcpAccept]
      split
      · exact .accepted rfl
      · exact .same rfl
  | rcvbuf val =>
      dsimp only [userStep, setRcvbuf]
      split <;> exact .same rfl
  | sndbuf val =>
      dsimp only [userStep, setSndbuf]
      split
      · exact .same rfl
      · exact .resized (clampSpace val) (clamp_range val).1 (clamp_range val).2 rfl
  | nodelay set => exact .same rfl
  | oobinline set => exact .same rfl
  | takeErr => exact .same rfl
  | segment pkt duplicate => exact .same rfl
  | error id error => exact .same rfl
  | wakeme => exact .same rfl
  | deleteme => exact .same rfl
  | dodelack => exact .same rfl
  | tick delta => exact .same rfl

theorem error_moves (id : Nat) (error : IcmpError) : Moves env w op (tcpError w id error) := by
  unfold tcpError noteError
  split
  · exact .same rfl
  · exact .ended (ended_outgoing w _ _ (ended_close_with w _) (outgoing_deref _ id))
  · split <;> exact .same rfl

theorem delete_moves : Moves env w op (deleteme (takeDelete w)) := by
  unfold deleteme tcbDelete
  split
  · exact .gone rfl
  · rename_i held
    exact .deleted (Option.isSome_iff_ne_none.mpr fun none => held (Option.isNone_iff_eq_none.mpr none)) rfl

theorem net_moves (notListen : w.tcb.state ≠ .listen) : Moves env w op (netStep env w op) := by
  have user : ∀ x, x = (if w.data.sock.isSome then userStep env w op else w) → Moves env w op x := by
    rintro x rfl
    split
    · rename_i held
      exact user_moves env w op held
    · exact .same rfl
  cases op with
  | segment pkt duplicate =>
      by_cases closed : w.tcb.state = .closed
      · exact .same (closed_side env w pkt duplicate closed)
      · exact .heard pkt duplicate rfl closed (input_outcome env w pkt duplicate closed notListen)
  | error id error => exact error_moves env w _ id error
  | wakeme =>
      dsimp only [netStep]
      split
      · rename_i pending
        exact .fired rfl pending rfl
      · exact .same rfl
  | deleteme =>
      dsimp only [netStep]
      split
      · exact delete_moves env w _
      · exact .same rfl
  | dodelack =>
      dsimp only [netStep]
      split
      · exact .same (side_of_outgoing _ _ (outgoing_dodelack env (takeAck w)))
      · exact .same rfl
  | tick delta => exact .same rfl
  | recv args => exact user _ rfl
  | recvWoken args => exact user _ rfl
  | send bytes oob => exact user _ rfl
  | sendWoken bytes oob => exact user _ rfl
  | shutdown how => exact user _ rfl
  | detach => exact user _ rfl
  | accept => exact user _ rfl
  | rcvbuf val => exact user _ rfl
  | sndbuf val => exact user _ rfl
  | nodelay set => exact user _ rfl
  | oobinline set => exact user _ rfl
  | takeErr => exact user _ rfl

end

end MagxNet.Tcp
