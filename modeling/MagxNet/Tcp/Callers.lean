import MagxNet.Tcp.Stays

set_option autoImplicit false

namespace MagxNet.Tcp

open Bytes

section

variable (env : Env) (w : World)

theorem standing_sndseg (b : Buf) (rest : List Buf) (nretrans : Int) (wnd1st wndnxt : Seq) :
    standing (tcpSndseg env w b rest nretrans wnd1st wndnxt).2 = standing w :=
  standing_steady w _ (steady_sndseg env w b rest nretrans wnd1st wndnxt)

theorem standing_retrans_send (b : Buf) (rest : List Buf) : standing (retransSend env w b rest) = standing w := by
  have sent := standing_sndseg env w b rest w.tcb.nretrans w.tcb.sndUna w.tcb.sndNxt
  unfold retransSend
  generalize tcpSndseg env w b rest w.tcb.nretrans w.tcb.sndUna w.tcb.sndNxt = done at sent ⊢
  obtain ⟨r, w1⟩ := done
  dsimp only
  split <;> exact sent

theorem stays_retrans : Stays (standing w) (standing (tcpRetrans env w)) := by
  unfold tcpRetrans
  split
  · exact stays_close (countRetrans w) ETIMEDOUT
  · split
    · exact stays_refl _
    · exact stays_same w _ (standing_retrans_send env (shrinkCwnd (countRetrans w)) _ _)

theorem standing_mkseg (size : Nat) : standing (tcpMkseg env w size).2 = standing w := by
  unfold tcpMkseg
  cases got : bufAlloc env w with
  | mk id w1 =>
      have same := standing_steady w w1 (steady_alloc_split env w w1 id got)
      cases id with
      | none => exact same
      | some id => exact same

theorem standing_probe_send : standing (probeSend env w) = standing w := by
  have made := standing_mkseg env w (TCP_MINLEN + 1)
  unfold probeSend
  generalize tcpMkseg env w (TCP_MINLEN + 1) = got at made ⊢
  obtain ⟨b, w1⟩ := got
  cases b with
  | none => exact made
  | some b => exact made

theorem stays_probe : Stays (standing w) (standing (tcpProbe env w)) := by
  unfold tcpProbe
  split
  · exact stays_close w ETIMEDOUT
  · exact stays_same w _ (standing_probe_send env w)

theorem stays_persist_sent : Stays (standing w) (standing (persistSent env w)) := by
  unfold persistSent
  split
  · exact stays_refl _
  · exact stays_probe env (noRtt w)

-- Only a timeout can close the connection.
theorem stays_timeout : Stays (standing w) (standing (tcbOstate env w .timeout)) := by
  unfold tcbOstate
  split
  · exact stays_refl _
  · exact stays_retrans env w
  · unfold tcbosPersist
    dsimp only
    split
    · have sent := standing_steady (setWndmax w) _ (steady_sndhead env (setWndmax w))
      exact stays_trans _ _ _ (stays_same w _ sent) (stays_persist_sent env _)
    · exact stays_probe env w
  · exact stays_retrans env (capDupacks (noRtt (setOstate w .retrans)))

theorem stays_event (event : OutEvent) : Stays (standing w) (standing (tcbOstate env w event)) := by
  by_cases timeout : event = .timeout
  · rw [timeout]
    exact stays_timeout env w
  · exact stays_same w _ (standing_event env w event timeout)

theorem standing_write_syn (b : Buf) : standing (writeSyn w b) = standing w := by
  unfold writeSyn
  split <;> rfl

theorem standing_output_room (len : Nat) (flags : Flags) (first : Bool) :
    standing (outputRoom env w len flags first).2 = standing w := by
  unfold outputRoom
  split
  · rfl
  · cases got : bufAlloc env w with
    | mk id w1 =>
        have same := standing_steady w w1 (steady_alloc_split env w w1 id got)
        cases id with
        | none => exact same
        | some id => exact (standing_write_syn _ _).trans same

theorem standing_output_fill (bytes : List Byte) (r : Nat) (fin : Bool) :
    standing (outputFill w bytes r fin) = standing w := by
  unfold outputFill
  split <;> rfl

theorem standing_output_round (bytes : List Byte) (flags : Flags) (first : Bool) :
    standing (outputRound env w bytes flags first).2 = standing w := by
  have room := standing_output_room env w bytes.length flags first
  unfold outputRound
  generalize outputRoom env w bytes.length flags first = got at room ⊢
  obtain ⟨r, w1⟩ := got
  cases r with
  | none => exact room
  | some r => exact (standing_output_fill w1 bytes r flags.fin).trans room

theorem standing_output_loop (flags : Flags) (fuel : Nat) (w : World) (bytes : List Byte) (first : Bool) :
    standing (outputLoop env flags fuel w bytes first).2 = standing w := by
  induction fuel generalizing w bytes first with
  | zero => rfl
  | succ fuel ih =>
      have round := standing_output_round env w bytes flags first
      unfold outputLoop
      generalize outputRound env w bytes flags first = got at round ⊢
      obtain ⟨left, w1⟩ := got
      cases left with
      | none => exact round
      | some left =>
          cases left with
          | nil => exact round
          | cons byte rest => exact (ih w1 (byte :: rest) false).trans round

theorem stays_output_urgent : Stays (standing w) (standing (outputUrgent env w)) := by
  have probed : Stays (standing w) (standing (tcpProbe env (setPersistTmo (timerDel w) (tcpTimeout w)))) :=
    stays_probe env (setPersistTmo (timerDel w) (tcpTimeout w))
  unfold outputUrgent
  split
  · split
    · exact probed
    · exact stays_trans _ _ _ probed (stays_event env _ .send)
  · exact stays_event env w .send

theorem stays_output (bytes : List Byte) (flags : Flags) : Stays (standing w) (standing (tcpOutput env w bytes flags).2) := by
  have queued := standing_output_loop env flags (bytes.length + 1) w bytes true
  unfold tcpOutput
  split
  · exact stays_same w _ (standing_steady w _ (steady_output_ack env w flags.psh))
  · generalize outputLoop env flags (bytes.length + 1) w bytes true = got at queued ⊢
    obtain ⟨ret, w1⟩ := got
    cases ret with
    | none => exact stays_same w _ queued
    | some ret =>
        dsimp only at queued ⊢
        rw [← queued]
        split
        · exact stays_output_urgent env (setSndUrg w1)
        · exact stays_event env w1 .send

-- Without urgent data nothing is probed.
theorem standing_output (bytes : List Byte) (flags : Flags) (plain : flags.urg = false) :
    standing (tcpOutput env w bytes flags).2 = standing w := by
  have queued := standing_output_loop env flags (bytes.length + 1) w bytes true
  unfold tcpOutput
  split
  · exact standing_steady w _ (steady_output_ack env w flags.psh)
  · generalize outputLoop env flags (bytes.length + 1) w bytes true = got at queued ⊢
    obtain ⟨ret, w1⟩ := got
    cases ret with
    | none => exact queued
    | some ret =>
        rw [plain]
        exact (standing_event env w1 .send (by decide)).trans queued

theorem stays_send_round (bytes : List Byte) (oob : Bool) : Stays (standing w) (standing (sendRound env w bytes oob).2) := by
  unfold sendRound
  split
  · exact stays_refl _
  · split
    · exact stays_refl _
    · exact stays_output env w _ _

theorem stays_send_fin : Stays (standing w) (standing (sendFin env w)) := by
  unfold sendFin outputFin
  split
  · exact stays_trans _ _ _ (stays_state w .finwait1 (by decide)) (stays_output env _ [] TCPF_FIN_ACK)
  · exact stays_trans _ _ _ (stays_state w .finwait1 (by decide)) (stays_output env _ [] TCPF_FIN_ACK)
  · exact stays_trans _ _ _ (stays_state w .lastack (by decide)) (stays_output env _ [] TCPF_FIN_ACK)
  · exact stays_refl _

theorem stays_cant (how : Nat) : Stays (standing w) (standing (setCant w how)) where
  ends := rfl
  backlog := rfl
  passive := rfl
  dead := id
  opens := fun _ => rfl
  half := by
    intro half
    refine Or.inr ⟨half, ?_⟩
    show (setCant w how).data.sock.map (·.state) = w.data.sock.map (·.state)
    simp [setCant, Function.comp_def]
  sock := by
    show SockKept w.data.sock (setCant w how).data.sock
    unfold setCant
    cases w.data.sock with
    | none => trivial
    | some so => exact ⟨rfl, rfl, id⟩
  freed := Or.inl

theorem stays_shutdown (how : Nat) : Stays (standing w) (standing (tcpShutdown env (setCant w how) how)) := by
  unfold tcpShutdown
  split
  · exact stays_trans _ _ _ (stays_cant w how) (stays_send_fin env _)
  · exact stays_cant w how

theorem stays_recv (args : RecvArgs) : Stays (standing w) (standing (tcpRecv env w args).2) := by
  unfold tcpRecv
  split
  · exact stays_refl _
  · split
    · exact stays_refl _
    · exact stays_same w _ (standing_recv_round env w args)

theorem stays_recv_woken (args : RecvArgs) : Stays (standing w) (standing (tcpRecvWoken env w args).2) := by
  unfold tcpRecvWoken
  split
  · exact stays_refl _
  · split
    · exact stays_refl _
    · exact stays_same w _ (standing_recv_round env w args)

theorem stays_send (bytes : List Byte) (oob : Bool) : Stays (standing w) (standing (tcpSend env w bytes oob).2) := by
  unfold tcpSend
  split
  · exact stays_refl _
  · split
    · exact stays_refl _
    · exact stays_send_round env w bytes oob

theorem stays_send_woken (bytes : List Byte) (oob : Bool) :
    Stays (standing w) (standing (tcpSendWoken env w bytes oob).2) := by
  unfold tcpSendWoken
  split
  · exact stays_refl _
  · split
    · exact stays_refl _
    · exact stays_send_round env w bytes oob

theorem stays_rcvbuf (val : Int) : Stays (standing w) (standing (setRcvbuf w val)) := by
  unfold setRcvbuf
  split <;> exact stays_refl _

theorem stays_sndbuf (val : Int) : Stays (standing w) (standing (setSndbuf w val)) := by
  unfold setSndbuf
  split <;> exact stays_refl _

theorem stays_error (id : Nat) (error : IcmpError) : Stays (standing w) (standing (tcpError w id error)) := by
  unfold tcpError noteError
  rw [standing_deref]
  cases error with
  | sourceQuench => exact stays_refl _
  | hard err => exact stays_close w err
  | soft err =>
      dsimp only
      split <;> exact stays_refl _

theorem stays_timer (op : Op) (timer : op = .wakeme ∨ op = .deleteme ∨ op = .dodelack) :
    Stays (standing w) (standing (netStep env w op)) := by
  obtain rfl | rfl | rfl := timer <;> unfold netStep <;> dsimp only <;> split
  · exact stays_timeout env (takeTimer w)
  · exact stays_refl _
  · exact stays_delete (takeDelete w)
  · exact stays_refl _
  · exact stays_same w _ (standing_dodelack env (takeAck w))
  · exact stays_refl _

-- The calls that make something else of a connection.

-- A connection that is given up without its socket.
theorem detach_standing : standing (tcpDetach env w) = { standing w with alive := false }
    ∨ ∃ s, Stays (standing w) s ∧ s.alive = w.alive ∧ standing (tcpDetach env w) = { s with sock := none } := by
  have left : ∀ x, standing (tcpDropsegs env (markAll (dropSock x))) = { standing x with sock := none } :=
    fun x => (standing_dropsegs env _).trans rfl
  have kept : (standing (sendFin env w)).alive = w.alive := by
    unfold sendFin outputFin
    split
    · exact congrArg Standing.alive (standing_output env (setState w .finwait1) [] TCPF_FIN_ACK rfl)
    · exact congrArg Standing.alive (standing_output env (setState w .finwait1) [] TCPF_FIN_ACK rfl)
    · exact congrArg Standing.alive (standing_output env (setState w .lastack) [] TCPF_FIN_ACK rfl)
    · rfl
  unfold tcpDetach
  split
  · exact Or.inl rfl
  · exact Or.inl rfl
  · exact Or.inl rfl
  · exact Or.inr ⟨_, stays_send_fin env w, kept, left _⟩

def dialed (s : Standing) (args : ConnectArgs) : Standing :=
  { s with
    saddr := args.laddr
    daddr := args.faddr
    dport := args.fport
    isconnected := true
    state := .synsent
    sock := s.sock.map fun so => { so with state := .isconnecting } }

theorem standing_isn (isn : Seq) : standing (setIsn w isn) = standing w := rfl

theorem standing_take_isn : standing (takeIsn env w) = standing w := standing_net w (tcpIsn env w.net).2

theorem standing_connect_start (args : ConnectArgs) :
    standing (setState (connectStart env w args) .synsent) = dialed (standing w) args := by
  have limited : ∀ x, standing (openRcvMss env x) = standing x := fun x => standing_limit_rcv env x _ _
  show { standing (connectStart env w args) with state := .synsent } = _
  unfold connectStart
  rw [limited, standing_isn, standing_take_isn]
  rfl

theorem connect_standing (args : ConnectArgs) :
    standing (tcpConnect env w args) =
      if w.tcb.state ≠ .closed ∨ args.fport = 0 ∨ env.isBroadcast args.faddr ∨ args.laddr = 0 then standing w
      else if args.duplicate then { standing w with saddr := args.laddr }
      else dialed (standing w) args := by
  unfold tcpConnect
  split
  · rfl
  · split
    · rfl
    · have sent := standing_output env (connectStart env w args) [] TCPF_SYN rfl
      have asked := congrArg (fun s : Standing => { s with state := .synsent }) sent
      exact asked.trans (standing_connect_start env w args)

theorem standing_listen (backlog : Nat) : standing (tcpListen w backlog) =
    if w.data.isconnected ∨ w.tcb.state.num > TcbState.listen.num then { standing w with backlog := backlog }
    else { standing w with
      backlog := backlog
      state := .listen
      sock := w.data.sock.map fun so => { so with acceptcon := true } } := by
  unfold tcpListen
  split <;> rfl

theorem standing_accept : standing (tcpAccept w) =
    if w.tcb.flags.passive ∧ w.tcb.state ≠ .synrcvd then
      { standing w with sock := some ⟨.isconnected, false, false, false, 0⟩ }
    else standing w := by
  unfold tcpAccept
  split <;> rfl

-- The child of a listening connection as the segment that made it leaves it.
def childStanding (pkt : Pkt) : Standing where
  saddr := pkt.daddr
  sport := pkt.tcph.dstport
  daddr := pkt.saddr
  dport := pkt.tcph.srcport
  isbound := true
  isconnected := true
  dead := false
  state := .synrcvd
  passive := true
  backlog := 0
  sock := some ⟨.isconnecting, false, false, false, 0⟩
  alive := true

theorem standing_child (pkt : Pkt) : standing (childAnswer env (listenChild env w pkt) pkt) = childStanding pkt := by
  unfold childAnswer synAck
  rw [standing_output env _ [] TCPF_SYN_ACK rfl, standing_rcvdata, standing_open_snd_mss]
  have limited : ∀ x, standing (openRcvMss env x) = standing x := fun x => standing_limit_rcv env x _ _
  have born := limited (startRcv (setIsn (setState (setPassive
    ⟨tcbAlloc, childData w pkt, (tcpIsn env w.net).2, true, []⟩) .synrcvd) (tcpIsn env w.net).1) pkt.tcph.seq)
  exact congrArg (fun s : Standing => { s with sock := s.sock.map fun (so : Socket) => { so with state := .isconnecting } })
    born

theorem urgent_listen (pkt : Pkt) (listening : w.tcb.state = .listen) :
    (inputUrgent env w pkt).1 = (if pkt.tcph.flags.urg then clearUrg pkt else pkt)
      ∧ (inputUrgent env w pkt).2 = setLastRecv w := by
  have waits : takesUrgent (setLastRecv w) pkt.tcph = false := by
    unfold takesUrgent
    rw [show (setLastRecv w).tcb.state = .listen from listening]
    simp [TcbState.synced, TcbState.num]
  unfold inputUrgent tcpRcvurg
  rw [waits]
  split <;> exact ⟨rfl, rfl⟩

-- Nothing but a SYN that is new and not broadcast makes a listening connection try to have a child.
def listenRefuses (pkt : Pkt) (duplicate : Bool) : Prop :=
  pkt.tcph.flags.rst ∨ ¬ pkt.tcph.flags.syn ∨ pkt.tcph.flags.ack ∨ duplicate ∨ env.isBroadcast pkt.daddr

theorem listen_refused (pkt : Pkt) (duplicate : Bool) (refuses : listenRefuses env pkt duplicate) :
    standing (tcbsListen env w pkt duplicate) = standing w := by
  unfold tcbsListen
  split
  · rfl
  · split
    · exact standing_sndrst env w pkt
    · split
      · rfl
      · rename_i plainSyn acks again
        unfold listenRefuses at refuses
        tauto

theorem listen_taken (pkt : Pkt) (duplicate : Bool) (takes : ¬ listenRefuses env pkt duplicate) :
    standing (tcbsListen env w pkt duplicate) = if listens w then standing (countQueued w) else standing w := by
  unfold listenRefuses at takes
  unfold tcbsListen
  rw [if_neg (by tauto), if_neg (by tauto), if_neg (by tauto)]
  split
  · rename_i alone
    have deaf : ¬ listens w := by
      unfold listens
      rw [Option.isNone_iff_eq_none.mp alone]
      exact Bool.false_ne_true
    rw [if_neg deaf]
    rfl
  · split
    · rfl
    · exact (standing_sndrst env _ pkt).trans rfl

-- A segment for a listening connection leaves it as it is, but for the count of its clients when there is a new one.
theorem input_listen (pkt : Pkt) (duplicate : Bool) (listening : w.tcb.state = .listen) :
    standing (inputFound env w pkt duplicate) =
      if (inputSpawn env w pkt duplicate).isSome then standing (countQueued w) else standing w := by
  have plain := standing_urgent env w pkt
  have state : (inputUrgent env w pkt).2.tcb.state = .listen := (congrArg Standing.state plain).trans listening
  have passes : (tcpValid (inputUrgent env w pkt).2 (inputUrgent env w pkt).1.tcph).1 = true := by
    unfold tcpValid
    rw [state]
    rfl
  have counted : standing (countQueued (inputUrgent env w pkt).2) = standing (countQueued w) :=
    congrArg (fun s : Standing => { s with sock := s.sock.map fun (so : Socket) => { so with queued := so.queued + 1 } }) plain
  unfold inputFound gatePass inputSpawn
  rw [if_pos passes, if_pos listening]
  unfold tcbState
  rw [state]
  dsimp only
  generalize gatePkt (inputUrgent env w pkt).2 (inputUrgent env w pkt).1 = pkt'
  generalize (inputUrgent env w pkt).2 = x at plain counted ⊢
  by_cases refuses : listenRefuses env pkt' duplicate
  · have none' : listenSpawn env x pkt' duplicate = none := if_pos refuses
    rw [listen_refused env x pkt' duplicate refuses, none']
    exact plain
  · have tried : listenSpawn env x pkt' duplicate
        = if listens x then some (childAnswer env (listenChild env x pkt') pkt') else none := if_neg refuses
    rw [listen_taken env x pkt' duplicate refuses, tried]
    by_cases room : listens x
    · rw [if_pos room, if_pos room]
      exact counted
    · rw [if_neg room, if_neg room]
      exact plain

theorem spawn_child (pkt : Pkt) (duplicate : Bool) (child : World) (spawned : inputSpawn env w pkt duplicate = some child) :
    w.tcb.state = .listen ∧ standing child = childStanding pkt
      ∧ w.data.sock.any fun so => so.acceptcon && decide (so.queued < w.data.backlog) := by
  unfold inputSpawn at spawned
  split at spawned
  · rename_i listening
    obtain ⟨seg, conn⟩ := urgent_listen env w pkt listening
    unfold listenSpawn at spawned
    split at spawned
    · cases spawned
    · split at spawned
      · rename_i room
        refine ⟨listening, ?_, ?_⟩
        · rw [← Option.some.inj spawned, standing_child]
          have ends : gatePkt (inputUrgent env w pkt).2 (inputUrgent env w pkt).1 = (inputUrgent env w pkt).1 := by
            unfold gatePkt tcpValid
            rw [conn, show (setLastRecv w).tcb.state = .listen from listening]
            rfl
          rw [ends, seg]
          split <;> rfl
        · rw [conn] at room
          exact room
      · cases spawned
  · cases spawned

end

end MagxNet.Tcp
