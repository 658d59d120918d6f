import MagxNet.Tcp.SendOrder

set_option autoImplicit false

namespace MagxNet.Tcp

open Bytes

-- What the timing of a connection is set by.
def pace (w : World) : Int × Int × Int × Nat := (w.tcb.sndMss, w.tcb.sndCwnd, w.data.snd.maxdatalen, w.tcb.backoff)

-- What holds of the pace, and is kept by the output side unless its timer fires.
structure Robust (P : Int × Int × Int × Nat → Prop) : Prop where
  event : ∀ env w event, event ≠ .timeout → P (pace w) → P (pace (tcbOstate env w event))
  opened : ∀ env w pkt, P (pace w) → P (pace (openSndMss env w pkt))
  sndbuf : ∀ w val, P (pace w) → P (pace (setSndbuf w val))
  quench : ∀ w, P (pace w) → P (pace (shrinkCwnd w))

theorem paced_of_eq {P : Int × Int × Int × Nat → Prop} (w w' : World) (same : pace w' = pace w) (holds : P (pace w)) : P (pace w') :=
  same ▸ holds

theorem pace_outgoing (w w' : World) (same : outgoing w' = outgoing w) : pace w' = pace w :=
  outgoing_same pace w w' same fun _ => rfl

theorem pace_close_with (w : World) (err : Int) : pace (closeWith w err) = pace w := by
  unfold closeWith tcbDelete
  split <;> rfl

theorem pace_probe (env : Env) (w : World) : pace (tcpProbe env w) = pace w := by
  unfold tcpProbe
  split
  · exact pace_close_with w _
  · unfold probeSend tcpMkseg bufAlloc
    dsimp only
    by_cases memory : env.memory w.net.allocs
    · rw [if_pos memory]
      rfl
    · rw [if_neg memory]
      rfl

theorem pace_output_ack (env : Env) (w : World) (psh : Bool) : pace (outputAck env w psh).2 = pace w :=
  pace_outgoing _ _ (outgoing_output_ack env w psh)

theorem pace_sndwnd (w : World) (tcph : Dgram) : pace (tcpSndwnd w tcph) = pace w := by
  unfold tcpSndwnd noteWndmax
  split <;> rfl

section Segment

variable (env : Env) (w : World) (pkt : Pkt)

theorem pace_rcvdata : pace (tcpRcvdata env w pkt) = pace w := pace_outgoing _ _ (outgoing_rcvdata env w pkt)

theorem pace_sndrst : pace (tcpSndrst env w pkt) = pace w := pace_outgoing _ _ (outgoing_sndrst env w pkt)

theorem pace_delete : pace (tcbDelete w) = pace w := by
  unfold tcbDelete
  split <;> rfl

theorem pace_wait : pace (tcbWait w) = pace w := by
  unfold tcbWait
  split <;> rfl

theorem pace_so_free : pace (soFree w) = pace w := by
  unfold soFree
  split
  · split <;> rfl
  · rfl

theorem pace_refuse : pace (refuse env w pkt) = pace w :=
  (pace_delete (setState (bufDeref (tcbReset (tcpSndrst env w pkt) ECONNRESET) pkt.id) .closed)).trans (pace_sndrst env w pkt)

theorem pace_abort : pace (synrcvdAbort w) = pace w := by
  unfold synrcvdAbort
  split
  · exact pace_so_free (setState w .closed)
  · rfl

theorem pace_listen (duplicate : Bool) : pace (tcbsListen env w pkt duplicate) = pace w := by
  have refused : pace (bufDeref (tcpSndrst env (setNet w (listenChild env w pkt).net) pkt) pkt.id) = pace w :=
    pace_sndrst env (setNet w (listenChild env w pkt).net) pkt
  unfold tcbsListen
  split
  · rfl
  · split
    · exact pace_sndrst env w pkt
    · split
      · rfl
      · split
        · rfl
        · split
          · rfl
          · exact refused

theorem pace_timewait : pace (toTimewait w) = pace w := pace_wait (setDead (setState w .timewait))

end Segment

theorem window_event_plain (w : World) (tcph : Dgram) : windowEvent w tcph ≠ .timeout := by
  unfold windowEvent
  split <;> decide

section Walk

variable {P : Int × Int × Int × Nat → Prop}

theorem paced_synsent_open (w : World) (pkt : Pkt) (holds : P (pace w)) : P (pace (synsentOpen w pkt)) := by
  unfold synsentOpen
  split <;> exact holds

theorem paced_recv_round (env : Env) (w : World) (args : RecvArgs) (holds : P (pace w)) : P (pace (recvRound env w args).2) :=
  paced_of_eq _ _ (pace_outgoing _ _ (outgoing_recv_round env w args)) holds

theorem paced_open_rcv_mss (env : Env) (w : World) (holds : P (pace w)) : P (pace (openRcvMss env w)) :=
  paced_of_eq (limitRcv env w w.data.daddr TCP_MAXMSS) _ rfl
    (paced_of_eq _ _ (pace_outgoing _ _ (outgoing_limit_rcv env w w.data.daddr TCP_MAXMSS)) holds)

theorem paced_set_isn (w : World) (isn : Seq) (holds : P (pace w)) : P (pace (setIsn w isn)) := holds

theorem paced_connect_start (env : Env) (w : World) (args : ConnectArgs) (holds : P (pace w)) : P (pace (connectStart env w args)) := by
  unfold connectStart
  apply paced_open_rcv_mss
  apply paced_set_isn
  exact holds

variable (robust : Robust P)

include robust

theorem robust_output_urgent (env : Env) (w : World) (holds : P (pace w)) : P (pace (outputUrgent env w)) := by
  unfold outputUrgent
  split
  · have probed := paced_of_eq w _ (pace_probe env (setPersistTmo (timerDel w) (tcpTimeout w))) holds
    split
    · exact probed
    · exact robust.event env _ .send (by decide) probed
  · exact robust.event env w .send (by decide) holds

theorem robust_output (env : Env) (w : World) (bytes : List Byte) (flags : Flags) (holds : P (pace w)) :
    P (pace (tcpOutput env w bytes flags).2) := by
  have same : pace (queued env w bytes flags).2 = pace w :=
    unwritten_same pace _ _ (unwritten_queued env w bytes flags) fun _ => rfl
  have begun := paced_of_eq _ _ same holds
  unfold tcpOutput
  split
  · exact paced_of_eq _ _ (pace_output_ack env w flags.psh) holds
  · rw [show outputLoop env flags (bytes.length + 1) w bytes true = queued env w bytes flags from rfl]
    cases got : queued env w bytes flags with
    | mk r w1 =>
        rw [got] at begun
        cases r with
        | none => exact begun
        | some r =>
            dsimp only
            split
            · exact robust_output_urgent robust env (setSndUrg w1) begun
            · exact robust.event env w1 .send (by decide) begun

theorem robust_ack_place (env : Env) (w : World) (pkt : Pkt) (osndWnd : Int) (holds : P (pace w)) :
    P (pace (ackPlace env w pkt osndWnd)) := by
  unfold ackPlace
  split
  · split
    · exact paced_of_eq _ _ (pace_outgoing _ _ (outgoing_sndrst env w pkt)) holds
    · exact paced_of_eq _ _ (pace_outgoing _ _ (outgoing_sndack env w pkt)) holds
  · split
    · exact robust.event env (setUna w pkt.tcph.ack) .ackrcvd (by decide) holds
    · split
      · exact holds
      · split
        · exact robust.event env (setDupacks w (w.tcb.dupacks + 1)) .dupack (by decide) holds
        · exact holds

theorem robust_ack (env : Env) (w : World) (pkt : Pkt) (update : Bool) (holds : P (pace w)) : P (pace (tcpAck env w pkt update)) := by
  unfold tcpAck
  split
  · exact holds
  · split
    · exact robust.event env _ _ (window_event_plain w pkt.tcph) (robust_ack_place robust env _ pkt _ (paced_of_eq _ _ (pace_sndwnd w pkt.tcph) holds))
    · exact robust_ack_place robust env w pkt _ holds

section Segment

variable (env : Env) (w : World) (pkt : Pkt)

theorem robust_synsent (holds : P (pace w)) : P (pace (tcbsSynsent env w pkt)) := by
  unfold tcbsSynsent
  split
  · exact paced_of_eq _ _ (pace_sndrst env w pkt) holds
  · split
    · change P (pace (if pkt.tcph.flags.ack then closeSock w ECONNREFUSED else w))
      split <;> exact holds
    · split
      · exact holds
      · unfold synsentAccept
        refine paced_of_eq _ _ (pace_outgoing _ _ (outgoing_send_ack env _)) ?_
        refine paced_of_eq _ _ (pace_rcvdata env _ pkt) (robust.opened env _ pkt (paced_synsent_open _ pkt ?_))
        exact robust_ack robust env (startRcv w pkt.tcph.seq) pkt false holds

theorem robust_synrcvd (holds : P (pace w)) : P (pace (tcbsSynrcvd env w pkt)) := by
  unfold tcbsSynrcvd
  split
  · exact paced_of_eq _ _ (pace_abort w) holds
  · split
    · exact paced_of_eq _ _ ((pace_abort _).trans (pace_sndrst env w pkt)) holds
    · split
      · exact holds
      · have opened := paced_of_eq _ _ (pace_rcvdata env (synrcvdOpen (tcpAck env w pkt false) pkt) pkt)
          (robust_ack robust env w pkt false holds)
        unfold synrcvdAccept synrcvdDone noteConnected
        split <;> split <;> exact opened

theorem robust_established (holds : P (pace w)) : P (pace (tcbsEstablished env w pkt)) := by
  unfold tcbsEstablished
  split
  · exact holds
  · split
    · exact paced_of_eq _ _ (pace_sndrst env w pkt) holds
    · split
      · exact holds
      · have heard := paced_of_eq _ _ (pace_rcvdata env (tcpAck env w pkt true) pkt) (robust_ack robust env w pkt true holds)
        unfold closewaitIfFinished
        split <;> exact heard

theorem robust_finwait1 (holds : P (pace w)) : P (pace (tcbsFinwait1 env w pkt)) := by
  unfold tcbsFinwait1
  split
  · exact paced_of_eq _ _ (pace_refuse env w pkt) holds
  · split
    · exact holds
    · have heard := paced_of_eq _ _ (pace_rcvdata env (tcpAck env w pkt true) pkt) (robust_ack robust env w pkt true holds)
      unfold finwait1Done
      split
      · split
        · exact paced_of_eq _ _ (pace_timewait _) heard
        · exact heard
      · split
        · exact paced_of_eq _ _ (pace_wait (setState _ .finwait2)) heard
        · exact heard

theorem robust_finwait2 (holds : P (pace w)) : P (pace (tcbsFinwait2 env w pkt)) := by
  unfold tcbsFinwait2
  split
  · refine paced_of_eq _ _ (pace_delete (setState (tcbReset (bufDeref (tcpSndrst env w pkt) pkt.id) ECONNRESET) .closed)) ?_
    exact paced_of_eq _ _ (pace_sndrst env w pkt) holds
  · split
    · exact holds
    · have heard := paced_of_eq _ _ (pace_rcvdata env (tcpAck env w pkt false) pkt) (robust_ack robust env w pkt false holds)
      unfold finwait2Done
      split
      · exact paced_of_eq _ _ (pace_timewait _) heard
      · exact heard

theorem robust_lastack (holds : P (pace w)) : P (pace (tcbsLastack env w pkt)) := by
  unfold tcbsLastack
  split
  · exact paced_of_eq _ _ (pace_refuse env w pkt) holds
  · have heard := robust_ack robust env w pkt false holds
    unfold lastackDone
    split
    · exact paced_of_eq _ _ (pace_delete (setDead (setState (tcpAck env w pkt false) .closed))) heard
    · exact heard

theorem robust_closing (holds : P (pace w)) : P (pace (tcbsClosing env w pkt)) := by
  unfold tcbsClosing
  split
  · exact paced_of_eq _ _ (pace_refuse env w pkt) holds
  · have heard := robust_ack robust env w pkt false holds
    unfold closingDone
    split
    · exact paced_of_eq _ _ (pace_timewait _) heard
    · exact heard

theorem robust_timewait (holds : P (pace w)) : P (pace (tcbsTimewait env w pkt)) := by
  unfold tcbsTimewait
  split
  · refine paced_of_eq _ _ (pace_delete (setState (bufDeref (tcpSndrst env w pkt) pkt.id) .closed)) ?_
    exact paced_of_eq _ _ (pace_sndrst env w pkt) holds
  · refine paced_of_eq _ _ ((pace_wait _).trans (pace_rcvdata env (tcpAck env w pkt false) pkt)) ?_
    exact robust_ack robust env w pkt false holds

theorem robust_closewait (holds : P (pace w)) : P (pace (tcbsClosewait env w pkt)) := by
  unfold tcbsClosewait
  split
  · exact paced_of_eq _ _ (pace_refuse env w pkt) holds
  · exact robust_ack robust env w pkt true holds

theorem robust_state (duplicate : Bool) (holds : P (pace w)) : P (pace (tcbState env w pkt duplicate)) := by
  unfold tcbState
  split
  · exact paced_of_eq _ _ (pace_sndrst env w pkt) holds
  · exact paced_of_eq _ _ (pace_listen env w pkt duplicate) holds
  · exact robust_synsent robust env w pkt holds
  · exact robust_synrcvd robust env w pkt holds
  · exact robust_established robust env w pkt holds
  · exact robust_finwait1 robust env w pkt holds
  · exact robust_finwait2 robust env w pkt holds
  · exact robust_closewait robust env w pkt holds
  · exact robust_lastack robust env w pkt holds
  · exact robust_closing robust env w pkt holds
  · exact robust_timewait robust env w pkt holds

theorem robust_input (duplicate : Bool) (holds : P (pace w)) : P (pace (inputFound env w pkt duplicate)) := by
  have gated := paced_of_eq _ _ (pace_outgoing _ _ (outgoing_gate env w pkt)) holds
  cases through : accepted env w pkt with
  | true =>
      rw [input_found_accepted env w pkt duplicate through]
      exact robust_state robust env _ _ duplicate gated
  | false =>
      rw [input_found_refused env w pkt duplicate through]
      exact paced_of_eq _ _ (pace_outgoing _ _ (outgoing_sndack env _ _)) gated

end Segment

theorem robust_send_round (env : Env) (w : World) (bytes : List Byte) (oob : Bool) (holds : P (pace w)) :
    P (pace (sendRound env w bytes oob).2) := by
  unfold sendRound
  split
  · exact holds
  · split
    · exact holds
    · exact robust_output robust env w _ _ holds

theorem robust_send_fin (env : Env) (w : World) (holds : P (pace w)) : P (pace (sendFin env w)) := by
  unfold sendFin
  split
  · exact robust_output robust env (setState w .finwait1) [] TCPF_FIN_ACK holds
  · exact robust_output robust env (setState w .finwait1) [] TCPF_FIN_ACK holds
  · exact robust_output robust env (setState w .lastack) [] TCPF_FIN_ACK holds
  · exact holds

theorem robust_detach (env : Env) (w : World) (holds : P (pace w)) : P (pace (tcpDetach env w)) := by
  have same := pace_outgoing _ _ (outgoing_dropsegs env (markAll (dropSock (sendFin env w))))
  have ended := paced_of_eq _ _ same (robust_send_fin robust env w holds)
  unfold tcpDetach
  split
  · exact holds
  · exact holds
  · exact holds
  · exact ended

theorem robust_user (env : Env) (w : World) (op : Op) (holds : P (pace w)) : P (pace (userStep env w op)) := by
  cases op with
  | recv args =>
      dsimp only [userStep, tcpRecv]
      split
      · exact holds
      · split
        · exact holds
        · exact paced_recv_round env w args holds
  | recvWoken args =>
      dsimp only [userStep, tcpRecvWoken]
      split
      · exact holds
      · split
        · exact holds
        · exact paced_recv_round env w args holds
  | send bytes oob =>
      dsimp only [userStep, tcpSend]
      split
      · exact holds
      · split
        · exact holds
        · exact robust_send_round robust env w bytes oob holds
  | sendWoken bytes oob =>
      dsimp only [userStep, tcpSendWoken]
      split
      · exact holds
      · split
        · exact holds
        · exact robust_send_round robust env w bytes oob holds
  | shutdown how =>
      dsimp only [userStep, tcpShutdown]
      split
      · exact robust_send_fin robust env (setCant w how) holds
      · exact holds
  | detach => exact robust_detach robust env w holds
  | accept =>
      dsimp only [userStep, tcpAccept]
      split <;> exact holds
  | rcvbuf val =>
      dsimp only [userStep, setRcvbuf]
      split <;> exact holds
  | sndbuf val => exact robust.sndbuf w val holds
  | nodelay set => exact holds
  | oobinline set => exact holds
  | takeErr => exact holds
  | segment pkt duplicate => exact holds
  | error id error => exact holds
  | wakeme => exact holds
  | deleteme => exact holds
  | dodelack => exact holds
  | tick delta => exact holds

theorem robust_error (w : World) (id : Nat) (error : IcmpError) (holds : P (pace w)) : P (pace (tcpError w id error)) := by
  unfold tcpError noteError
  cases error with
  | sourceQuench => exact robust.quench w holds
  | hard err => exact paced_of_eq _ _ (pace_close_with w err) holds
  | soft err =>
      dsimp only
      split <;> exact holds

-- What the timer does is left open.
theorem robust_step (env : Env) (w : World) (op : Op) (holds : P (pace w))
    (fires : w.alive → op = .wakeme → w.tcb.timerEvt.isSome → P (pace (tcbOstate env (takeTimer w) .timeout))) :
    P (pace (step env w op)) := by
  have user : P (pace (if w.data.sock.isSome then userStep env w op else w)) := by
    split
    · exact robust_user robust env w op holds
    · exact holds
  unfold step
  split
  · rename_i alive
    cases op with
    | segment pkt duplicate => exact robust_input robust env w pkt duplicate holds
    | error id error => exact robust_error robust w id error holds
    | wakeme =>
        dsimp only [netStep]
        split
        · rename_i set
          exact fires alive rfl set
        · exact holds
    | deleteme =>
        dsimp only [netStep]
        split
        · exact paced_of_eq _ _ (pace_delete (takeDelete w)) holds
        · exact holds
    | dodelack =>
        dsimp only [netStep]
        split
        · exact paced_of_eq _ _ (pace_outgoing _ _ (outgoing_dodelack env (takeAck w))) holds
        · exact holds
    | tick delta => exact holds
    | recv args => exact user
    | recvWoken args => exact user
    | send bytes oob => exact user
    | sendWoken bytes oob => exact user
    | shutdown how => exact user
    | detach => exact user
    | accept => exact user
    | rcvbuf val => exact user
    | sndbuf val => exact user
    | nodelay set => exact user
    | oobinline set => exact user
    | takeErr => exact user
  · exact holds

-- The child of a listening connection when its SYN goes out.
def childOpened (env : Env) (w : World) (pkt : Pkt) : World :=
  tcpRcvdata env (openSndMss env (setSockState (listenChild env w pkt) .isconnecting) pkt) pkt

section Start

variable (fresh : P (TCP_MSS, TCP_MSS, IN_DEFAULT_SPACE, 0))

include fresh

theorem robust_configured (w : World) (configured : Configured w) : P (pace w) := by
  induction configured with
  | attach sport net => exact fresh
  | rcvbuf w val _ ih =>
      unfold setRcvbuf
      split <;> exact ih
  | sndbuf w val _ ih => exact robust.sndbuf w val ih
  | nodelay w set _ ih => exact ih
  | oobinline w set _ ih => exact ih
  | net w net _ ih => exact ih

theorem robust_child_opened (env : Env) (w : World) (pkt : Pkt) : P (pace (childOpened env w pkt)) := by
  have child : P (pace (listenChild env w pkt)) := by
    unfold listenChild
    apply paced_open_rcv_mss
    exact fresh
  unfold childOpened
  refine paced_of_eq _ _ (pace_rcvdata env _ pkt) ?_
  apply robust.opened
  exact child

theorem robust_start (w : World) (start : Start w) : P (pace w) := by
  cases start with
  | connect env w args configured opened =>
      have blank := robust_configured robust fresh w configured
      unfold tcpConnect
      split
      · exact blank
      · split
        · exact blank
        · exact robust_output robust env _ [] TCPF_SYN (paced_connect_start env w args blank)
  | listen env w pkt duplicate child spawned =>
      unfold inputSpawn listenSpawn at spawned
      split at spawned
      · split at spawned
        · cases spawned
        · split at spawned
          · obtain rfl := Option.some.inj spawned
            exact robust_output robust env _ [] TCPF_SYN_ACK (robust_child_opened robust fresh env _ _)
          · cases spawned
      · cases spawned

end Start

end Walk

end MagxNet.Tcp
