import MagxNet.Tcp.Run

set_option autoImplicit false

namespace MagxNet.Tcp

-- What the rest of the kernel knows a connection by.
structure Standing where
  saddr : InAddr
  sport : InPort
  daddr : InAddr
  dport : InPort
  isbound : Bool
  isconnected : Bool
  dead : Bool
  state : TcbState
  passive : Bool
  backlog : Nat
  sock : Option Socket
  alive : Bool

def standing (w : World) : Standing where
  saddr := w.data.saddr
  sport := w.data.sport
  daddr := w.data.daddr
  dport := w.data.dport
  isbound := w.data.isbound
  isconnected := w.data.isconnected
  dead := w.data.dead
  state := w.tcb.state
  passive := w.tcb.flags.passive
  backlog := w.data.backlog
  sock := w.data.sock
  alive := w.alive

theorem standing_steady (w w' : World) (same : steady w' = steady w) : standing w' = standing w :=
  steady_same standing w w' same fun _ => rfl

theorem standing_incoming (w w' : World) (same : incoming w' = incoming w) : standing w' = standing w :=
  incoming_same standing w w' same fun _ => rfl

section

variable (env : Env) (w : World)

@[simp] theorem standing_net (net : Net) : standing (setNet w net) = standing w := rfl

@[simp] theorem standing_deref (id : Nat) : standing (bufDeref w id) = standing w := rfl

@[simp] theorem standing_ack (pkt : Pkt) (update : Bool) : standing (tcpAck env w pkt update) = standing w :=
  standing_incoming w _ (incoming_ack env w pkt update)

@[simp] theorem standing_sndrst (pkt : Pkt) : standing (tcpSndrst env w pkt) = standing w :=
  standing_steady w _ (steady_sndrst env w pkt)

@[simp] theorem standing_sndack (pkt : Pkt) : standing (tcpSndack env w pkt) = standing w :=
  standing_steady w _ (steady_sndack env w pkt)

@[simp] theorem standing_send_ack : standing (sendAck env w) = standing w :=
  standing_steady w _ (steady_send_ack env w)

theorem standing_event (event : OutEvent) (quiet : event ≠ .timeout) : standing (tcbOstate env w event) = standing w :=
  standing_steady w _ (steady_ostate env w event quiet)

@[simp] theorem standing_rcv_queue (pkt : Pkt) : standing (rcvQueue w pkt) = standing w := rfl

@[simp] theorem standing_rcv_flags (pkt : Pkt) : standing (rcvFlags w pkt) = standing w := by
  unfold rcvFlags notePsh noteFin noteSyn
  split <;> split <;> split <;> rfl

@[simp] theorem standing_rcvdata (pkt : Pkt) : standing (tcpRcvdata env w pkt) = standing w := by
  unfold tcpRcvdata rcvTaken
  split
  · unfold rcvAnswer
    split
    · exact standing_rcv_flags w pkt
    · simp
  · simp

@[simp] theorem standing_urgent_seg (ubuf : Buf) : standing (queueUrgent env w ubuf) = standing w := by
  unfold queueUrgent urgentAdvance
  split
  · split
    · exact standing_send_ack env _
    · rfl
  · rfl

@[simp] theorem standing_note_urgent (urgptr : Seq) : standing (noteUrgent w urgptr) = standing w := by
  unfold noteUrgent
  split <;> rfl

@[simp] theorem standing_copy_urgent (tcph : Dgram) : standing (copyUrgent env w tcph) = standing w := by
  unfold copyUrgent
  cases got : bufAlloc env w with
  | mk id w1 =>
      have same := standing_steady w w1 (steady_alloc_split env w w1 id got)
      cases id with
      | none => exact same
      | some id => exact (standing_urgent_seg env w1 _).trans same

theorem standing_rcvurg_conn (tcph : Dgram) : standing (rcvurgConn env w tcph) = standing w := by
  unfold rcvurgConn
  split
  · rfl
  · split <;> simp

@[simp] theorem standing_urgent (pkt : Pkt) : standing (inputUrgent env w pkt).2 = standing w := by
  unfold inputUrgent
  split
  · unfold tcpRcvurg
    split
    · exact standing_rcvurg_conn env (setLastRecv w) pkt.tcph
    · rfl
  · rfl

@[simp] theorem standing_dropsegs : standing (tcpDropsegs env w) = standing w := by
  unfold tcpDropsegs announce
  split
  · exact standing_send_ack env _
  · rfl

theorem standing_recv_round (args : RecvArgs) : standing (recvRound env w args).2 = standing w := by
  unfold recvRound
  split
  · split
    · rfl
    · split
      · rfl
      · split <;> rfl
  · show standing (recvCopy env w args _ _).2 = standing w
    unfold recvCopy
    dsimp only
    split
    · rfl
    · exact standing_dropsegs env _

theorem standing_dodelack : standing (dodelack env w) = standing w := by
  unfold dodelack
  split
  · exact standing_send_ack env w
  · rfl

end

end MagxNet.Tcp
