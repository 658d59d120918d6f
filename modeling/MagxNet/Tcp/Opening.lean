import MagxNet.Tcp.Moves

set_option autoImplicit false

namespace MagxNet.Tcp

open Bytes Serial

-- A connection about to send its SYN.
structure Opening (x : World) : Prop where
  kept : Kept (ledger x) 0 0 0
  stream : x.stream = []
  nxt : x.tcb.sndNxt = x.tcb.sndIsn
  wndack : x.tcb.sndWndack = x.tcb.sndIsn
  wnd : x.tcb.sndWnd = TCP_MSS
  idle : x.tcb.ostate = .idle
  timer : x.tcb.timerEvt = none
  sock : x.data.sock.isSome

theorem opening_of_side (x x' : World) (opening : Opening x) (same : sendSide x' = sendSide x) : Opening x' := by
  have isn : x'.tcb.sndIsn = x.tcb.sndIsn := congrArg (fun y : SendSide => y.ledger.isn) same
  have nxt : x'.tcb.sndNxt = x.tcb.sndNxt := congrArg SendSide.nxt same
  have wndack : x'.tcb.sndWndack = x.tcb.sndWndack := congrArg SendSide.wndack same
  refine ⟨?_, (congrArg (fun y : SendSide => y.ledger.stream) same).trans opening.stream, ?_, ?_,
    (congrArg SendSide.wnd same).trans opening.wnd, (congrArg SendSide.ostate same).trans opening.idle,
    (congrArg SendSide.timer same).trans opening.timer, (congrArg SendSide.sock same).trans opening.sock⟩
  · rw [show ledger x' = ledger x from congrArg SendSide.ledger same]
    exact opening.kept
  · rw [nxt, isn]
    exact opening.nxt
  · rw [wndack, isn]
    exact opening.wndack

-- What holds of a socket until it is connected.
structure Blank (w : World) : Prop where
  closed : w.tcb.state = .closed
  idle : w.tcb.ostate = .idle
  timer : w.tcb.timerEvt = none
  sock : w.data.sock.isSome
  queue : w.data.snd.q = []
  count : w.data.snd.curdatalen = 0
  room : 4096 ≤ w.data.snd.maxdatalen ∧ w.data.snd.maxdatalen ≤ 65535
  mss : w.tcb.sndMss = TCP_MSS

theorem configured_blank (w : World) (configured : Configured w) : Blank w := by
  induction configured with
  | attach sport net => exact ⟨rfl, rfl, rfl, rfl, rfl, rfl, (by decide : 4096 ≤ IN_DEFAULT_SPACE ∧ IN_DEFAULT_SPACE ≤ 65535), rfl⟩
  | rcvbuf w val _ ih =>
      unfold setRcvbuf
      split
      · exact ih
      · exact ⟨ih.closed, ih.idle, ih.timer, ih.sock, ih.queue, ih.count, ih.room, ih.mss⟩
  | sndbuf w val _ ih =>
      unfold setSndbuf
      split
      · exact ih
      · exact ⟨ih.closed, ih.idle, ih.timer, ih.sock, ih.queue, ih.count, clamp_range val, ih.mss⟩
  | nodelay w set _ ih => exact ⟨ih.closed, ih.idle, ih.timer, ih.sock, ih.queue, ih.count, ih.room, ih.mss⟩
  | oobinline w set _ ih => exact ⟨ih.closed, ih.idle, ih.timer, ih.sock, ih.queue, ih.count, ih.room, ih.mss⟩
  | net w net _ ih => exact ⟨ih.closed, ih.idle, ih.timer, ih.sock, ih.queue, ih.count, ih.room, ih.mss⟩

theorem kept_start (l : Ledger) (una : l.una = l.isn) (max : l.max = l.isn) (write : l.write = l.isn)
    (stream : l.stream = []) (segs : l.segs = []) (count : l.count = 0) (room : 4096 ≤ l.room ∧ l.room ≤ 65535)
    (mss : 32 ≤ l.mss ∧ l.mss ≤ 65535) : Kept l 0 0 0 where
  una := by rw [una, Nat.cast_zero, place_zero]
  max := by rw [max, Nat.cast_zero, place_zero]
  write := by rw [write, stream, List.length_nil, Nat.cast_zero, place_zero]
  lined := by
    rw [segs]
    trivial
  content := by
    rw [segs, stream]
    rfl
  unacked := le_refl 0
  sent := le_refl 0
  written := Nat.zero_le _
  count := by
    rw [count, segs]
    rfl
  fits := by
    rw [segs]
    exact Nat.zero_le _
  room := room
  mss := mss
  marks := by
    rw [stream]
    exact Nat.zero_le _

theorem set_isn_opening (y : World) (isn : Seq) (idle : y.tcb.ostate = .idle) (timer : y.tcb.timerEvt = none)
    (sock : y.data.sock.isSome) (queue : y.data.snd.q = []) (count : y.data.snd.curdatalen = 0)
    (room : 4096 ≤ y.data.snd.maxdatalen ∧ y.data.snd.maxdatalen ≤ 65535)
    (mss : 32 ≤ y.tcb.sndMss ∧ y.tcb.sndMss ≤ 65535) : Opening (setIsn y isn) := by
  have segs : (ledger (setIsn y isn)).segs = [] := congrArg (List.map Buf.th) queue
  exact ⟨kept_start (ledger (setIsn y isn)) rfl rfl rfl rfl segs count room mss, rfl, rfl, rfl, rfl, idle, timer, sock⟩

theorem side_open_rcv_mss (env : Env) (y : World) : sendSide (openRcvMss env y) = sendSide y :=
  (side_of_outgoing _ _ (outgoing_rcv_mss (limitRcv env y y.data.daddr TCP_MAXMSS) _)).trans
    (side_limit_rcv env y y.data.daddr TCP_MAXMSS)

theorem connect_opening (env : Env) (w : World) (args : ConnectArgs) (blank : Blank w) :
    Opening (connectStart env w args) := by
  refine opening_of_side _ _ (set_isn_opening (takeIsn env (setSockState (setPeer w args) .isconnecting)) _ blank.idle
    blank.timer (Option.isSome_map.trans blank.sock) blank.queue blank.count blank.room ?_) (side_open_rcv_mss env _)
  change 32 ≤ w.tcb.sndMss ∧ w.tcb.sndMss ≤ 65535
  rw [blank.mss]
  decide

theorem listen_opening (env : Env) (w : World) (pkt : Pkt) : Opening (listenChild env w pkt) := by
  unfold listenChild
  refine opening_of_side _ _ ?_ ((side_open_rcv_mss env _).trans (side_of_outgoing _ _ (outgoing_start_rcv _ _)))
  exact set_isn_opening _ _ rfl rfl rfl rfl rfl (by decide : 4096 ≤ IN_DEFAULT_SPACE ∧ IN_DEFAULT_SPACE ≤ 65535)
    (by decide : 32 ≤ TCP_MSS ∧ TCP_MSS ≤ 65535)

theorem opening_mss (x x' : World) (opening : Opening x) (mss : Int)
    (range : 4096 ≤ (sendSide x).ledger.room → (sendSide x).ledger.room ≤ 65535 →
      mss = (sendSide x).ledger.mss ∨ 32 ≤ mss ∧ mss ≤ 65535)
    (same : sendSide x' = { sendSide x with ledger := { (sendSide x).ledger with mss := mss } }) : Opening x' := by
  have kept := opening.kept
  have isn : x'.tcb.sndIsn = x.tcb.sndIsn := congrArg (fun y : SendSide => y.ledger.isn) same
  have nxt : x'.tcb.sndNxt = x.tcb.sndNxt := congrArg SendSide.nxt same
  have wndack : x'.tcb.sndWndack = x.tcb.sndWndack := congrArg SendSide.wndack same
  refine ⟨?_, (congrArg (fun y : SendSide => y.ledger.stream) same).trans opening.stream, ?_, ?_,
    (congrArg SendSide.wnd same).trans opening.wnd, (congrArg SendSide.ostate same).trans opening.idle,
    (congrArg SendSide.timer same).trans opening.timer, (congrArg SendSide.sock same).trans opening.sock⟩
  · rw [show ledger x' = { ledger x with mss := mss } from congrArg SendSide.ledger same]
    refine { kept with mss := ?_ }
    obtain unchanged | sized := range kept.room.1 kept.room.2
    · rw [unchanged]
      exact kept.mss
    · exact sized
  · rw [nxt, isn]
    exact opening.nxt
  · rw [wndack, isn]
    exact opening.wndack

theorem child_opening (env : Env) (w : World) (pkt : Pkt) :
    Opening (tcpRcvdata env (openSndMss env (setSockState (listenChild env w pkt) .isconnecting) pkt) pkt) := by
  refine opening_of_side _ _ ?_ (side_rcvdata env _ pkt)
  obtain ⟨mss, range, same⟩ := side_open_snd_mss env (setSockState (listenChild env w pkt) .isconnecting) pkt
  refine opening_mss _ _ (opening_of_side _ _ (listen_opening env w pkt) ?_) mss range same
  unfold sendSide setSockState
  simp [ledger]

theorem child_state (env : Env) (w : World) (pkt : Pkt) :
    (tcpRcvdata env (openSndMss env (setSockState (listenChild env w pkt) .isconnecting) pkt) pkt).tcb.state
      = .synrcvd := by
  have data := congrArg SendSide.state (side_rcvdata env (openSndMss env (setSockState (listenChild env w pkt)
    .isconnecting) pkt) pkt)
  obtain ⟨mss, -, same⟩ := side_open_snd_mss env (setSockState (listenChild env w pkt) .isconnecting) pkt
  have sized := congrArg SendSide.state same
  have listen := congrArg SendSide.state ((side_open_rcv_mss env _).trans (side_of_outgoing _ _ (outgoing_start_rcv
    (setIsn (setState (setPassive ⟨tcbAlloc, childData w pkt, (tcpIsn env w.net).2, true, []⟩) .synrcvd)
      (tcpIsn env w.net).1) pkt.tcph.seq)))
  exact data.trans (sized.trans listen)

-- Every connection begins by sending a SYN.
theorem start_opening (w : World) (start : Start w) :
    ∃ env x flags state, Opening x ∧ flags.syn = true ∧ flags.fin = false ∧ flags.urg = false
      ∧ (state = .synsent ∨ x.tcb.state = .synrcvd ∧ state = .synrcvd)
      ∧ sendSide w = { sendSide (tcpOutput env x [] flags).2 with state := state } := by
  cases start with
  | connect env w args configured opened =>
      have blank := configured_blank w configured
      unfold tcpConnect at opened ⊢
      split at opened
      · rw [blank.closed] at opened
        cases opened
      · split at opened
        · change w.tcb.state = _ at opened
          rw [blank.closed] at opened
          cases opened
        · rename_i proceeds noDuplicate
          rw [if_neg proceeds, if_neg noDuplicate]
          exact ⟨env, connectStart env w args, TCPF_SYN, .synsent, connect_opening env w args blank, rfl, rfl, rfl,
            Or.inl rfl, rfl⟩
  | listen env w pkt duplicate child spawned =>
      unfold inputSpawn listenSpawn at spawned
      split at spawned
      · split at spawned
        · cases spawned
        · split at spawned
          · obtain rfl := Option.some.inj spawned
            generalize gatePkt (inputUrgent env w pkt).2 (inputUrgent env w pkt).1 = seg
            have state := child_state env (inputUrgent env w pkt).2 seg
            refine ⟨env, _, TCPF_SYN_ACK, .synrcvd, child_opening env (inputUrgent env w pkt).2 seg, rfl, rfl, rfl,
              Or.inr ⟨state, rfl⟩, ?_⟩
            have kept := output_state env (tcpRcvdata env (openSndMss env (setSockState (listenChild env
              (inputUrgent env w pkt).2 seg) .isconnecting) seg) seg) [] TCPF_SYN_ACK rfl (Or.inr (Or.inl rfl))
            rw [← kept.trans state]
            rfl
          · cases spawned
      · cases spawned

-- What happens to a connection one step after the other, each in its own surroundings.
def steps (w : World) (ops : List (Env × Op)) : World := ops.foldl (fun w s => step s.1 w s.2) w

theorem reach_steps (w : World) (ops : List (Env × Op)) (reached : Reach (fun _ _ _ => True) w) :
    Reach (fun _ _ _ => True) (steps w ops) := by
  induction ops generalizing w with
  | nil => exact reached
  | cons s rest ih => exact ih (step s.1 w s.2) (.step s.1 w s.2 reached trivial)

theorem reach_synsent (allowed : Env → World → Op → Prop) : Reach allowed synSent :=
  .start _ (.connect plainEnv (tcpAttach 1024 quietNet) ⟨2, 80, 1, false⟩ (.attach 1024 quietNet) (by decide +kernel))

theorem reach_open (allowed : Env → World → Op → Prop) (window : BitVec 16)
    (ok : allowed plainEnv synSent (.segment (peerSeg 5000 1001 TCPF_SYN_ACK window 0 []) false)) :
    Reach allowed (openConn window) := by
  have alive : synSent.alive = true := by decide +kernel
  have stepped : step plainEnv synSent (.segment (peerSeg 5000 1001 TCPF_SYN_ACK window 0 []) false)
      = openConn window := by
    rw [step, if_pos alive]
    rfl
  rw [← stepped]
  exact .step plainEnv synSent _ (reach_synsent allowed) ok

end MagxNet.Tcp
