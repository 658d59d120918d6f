import MagxNet.Icmp.Input

set_option autoImplicit false

namespace MagxNet.Icmp

open Bytes (Byte get8 get16)
open Ip (ipHdrlen iphProto iphSaddr iphDaddr chksum)
open Tcp (World InData IcmpError inDataLookup boundHere fromPeer tcpError noteError shrinkCwnd flushQueue)

-- A connected socket with the very addresses and ports of the quoted packet.
def Exact (q : Quoted) (d : InData) : Prop :=
  d.isconnected = true ∧ d.saddr = q.saddr ∧ d.sport = q.sport ∧ d.daddr = q.daddr ∧ d.dport = q.dport

def SameConn (w w' : World) : Prop := w'.tcb = w.tcb ∧ w'.data = w.data ∧ w'.alive = w.alive

-- The message reaches no socket but the one it is about, and only bytes of the message and entries of icmp_errors
-- take part.
structure Isolated (m : Memory) (k : Kernel) (msg : List Byte) : Prop where
  tcp : ∀ (i : Nat) (w w' : World), k.tcp[i]? = some w → (icmpInput m k msg).1.tcp[i]? = some w' → ¬ SameConn w w' →
    Exact (quoted m msg) w.data
  udp : ∀ (i : Nat) (d d' : InData), k.udp[i]? = some d → (icmpInput m k msg).1.udp[i]? = some d' → d' ≠ d → Exact (quoted m msg) d
  bytes : ∀ i ∈ (icmpInput m k msg).2.bytes, i < msg.length
  table : ∀ i ∈ (icmpInput m k msg).2.table, i < icmpErrors.length

-- The error function of the quoted protocol is called.
def Reported (m : Memory) (msg : List Byte) : Prop :=
  chksum (summed m msg) (nwords msg) = 0 ∧ isError (icmphType m msg) = true ∧ tooShort msg = false ∧ m.clone = true

-- A TCP socket that the error finds as it would leave it.
def Rests (w : World) : IcmpError → Prop
  | .sourceQuench => w.tcb.sndCwnd = w.tcb.sndMss ∧ (shrinkCwnd w).tcb.sndThresh = w.tcb.sndThresh
  | .hard err => w.tcb.state = .closed ∧ w.tcb.ostate = .idle ∧ w.tcb.timerEvt = none ∧ w.tcb.deleteEvt = none
      ∧ w.tcb.ackEvt = none ∧ w.data.err = err ∧ flushQueue w.data.rcv = w.data.rcv ∧ flushQueue w.data.snd = w.data.snd
      ∧ (w.data.sock.isSome = true ∨ w.alive = false)
  | .soft err => w.data.sock = none ∨ w.data.err = err

-- The code of a destination unreachable for which icmp_errors has no entry.
def Beyond (m : Memory) (msg : List Byte) : Prop := icmphType m msg = ICMPT_DSTUR ∧ icmphCode m msg = 6

structure Harmless (m : Memory) (k : Kernel) (msg : List Byte) : Prop where
  sum : ¬ (2 ^ 15 ≤ msg.length - ipHdrlen msg ∧ msg.length - ipHdrlen msg < 2 ^ 16 - 1)
  ports : Reported m msg → iphProto (quote msg) = IPPROTO_TCP ∨ iphProto (quote msg) = IPPROTO_UDP →
    portsStart msg + 4 ≤ msg.length
  tcp : Reported m msg → iphProto (quote msg) = IPPROTO_TCP → ∀ i w, tcpFound m k msg = some (i, w) →
    (Exact (quoted m msg) w.data ∨ Rests w (icmpErrorOf m (icmphType m msg) (icmphCode m msg)))
      ∧ (Beyond m msg → w.data.sock = none)
  udp : Reported m msg → iphProto (quote msg) = IPPROTO_UDP → ∀ i d, udpFound m k msg = some (i, d) → d.isconnected = true →
    (Exact (quoted m msg) d ∨ d.err = icmpErrno m (icmphType m msg) (icmphCode m msg)) ∧ ¬ Beyond m msg

-- What a hard error leaves of a connection.
theorem closed_tcb (w : World) (err : Int) : (Tcp.closeWith w err).tcb
    = { w.tcb with state := .closed, ostate := .idle, timerEvt := none, deleteEvt := none, ackEvt := none } := by
  unfold Tcp.closeWith Tcp.tcbDelete
  split <;> rfl

theorem tcb_rests (t : Tcp.Tcb) (state : t.state = .closed) (ostate : t.ostate = .idle) (timer : t.timerEvt = none)
    (delete : t.deleteEvt = none) (ack : t.ackEvt = none) :
    { t with state := .closed, ostate := .idle, timerEvt := none, deleteEvt := none, ackEvt := none } = t := by
  cases t
  cases state
  cases ostate
  cases timer
  cases delete
  cases ack
  rfl

theorem closed_data (w : World) (err : Int) : (Tcp.closeWith w err).data
    = { w.data with err := err, rcv := flushQueue w.data.rcv, snd := flushQueue w.data.snd } := by
  unfold Tcp.closeWith Tcp.tcbDelete
  split <;> rfl

theorem closed_alive (w : World) (err : Int) : (Tcp.closeWith w err).alive = (w.alive && w.data.sock.isSome) := by
  unfold Tcp.closeWith Tcp.tcbDelete
  cases sock : w.data.sock with
  | none =>
      have gone : (Tcp.setState (Tcp.tcbReset w err) .closed).data.sock.isNone = true := congrArg Option.isNone sock
      rw [if_pos gone, Option.isSome_none, Bool.and_false]
      rfl
  | some so =>
      have held : ¬ (Tcp.setState (Tcp.tcbReset w err) .closed).data.sock.isNone = true := by
        intro gone
        have none' : w.data.sock.isNone = true := gone
        rw [sock] at none'
        cases none'
      rw [if_neg held, Option.isSome_some, Bool.and_true]
      rfl

theorem rests_iff (w : World) (id : Nat) (error : IcmpError) : SameConn w (tcpError w id error) ↔ Rests w error := by
  cases error with
  | sourceQuench =>
      constructor
      · rintro ⟨tcb, -, -⟩
        exact ⟨(congrArg Tcp.Tcb.sndCwnd tcb).symm, congrArg Tcp.Tcb.sndThresh tcb⟩
      · rintro ⟨cwnd, thresh⟩
        refine ⟨?_, rfl, rfl⟩
        change (shrinkCwnd w).tcb = w.tcb
        have shape : (shrinkCwnd w).tcb
            = { w.tcb with sndThresh := (shrinkCwnd w).tcb.sndThresh, sndCwnd := w.tcb.sndMss } := rfl
        rw [shape, thresh, ← cwnd]
  | hard err =>
      change SameConn w (Tcp.closeWith w err) ↔ _
      unfold SameConn
      rw [closed_tcb, closed_data, closed_alive]
      constructor
      · rintro ⟨tcb, data, alive⟩
        refine ⟨(congrArg Tcp.Tcb.state tcb).symm, (congrArg Tcp.Tcb.ostate tcb).symm, (congrArg Tcp.Tcb.timerEvt tcb).symm,
          (congrArg Tcp.Tcb.deleteEvt tcb).symm, (congrArg Tcp.Tcb.ackEvt tcb).symm, (congrArg InData.err data).symm,
          congrArg InData.rcv data, congrArg InData.snd data, ?_⟩
        cases here : w.alive with
        | false => exact Or.inr rfl
        | true =>
            rw [here, Bool.true_and] at alive
            exact Or.inl alive
      · rintro ⟨state, ostate, timer, delete, ack, same, rcv, snd, held⟩
        refine ⟨?_, ?_, ?_⟩
        · exact tcb_rests w.tcb state ostate timer delete ack
        · rw [rcv, snd, ← same]
        · rcases held with held | gone
          · rw [held, Bool.and_true]
          · rw [gone, Bool.false_and]
  | soft err =>
      change SameConn w (if w.data.sock.isSome then Tcp.tcbError w err else w) ↔ w.data.sock = none ∨ w.data.err = err
      cases sock : w.data.sock with
      | none => simp [SameConn]
      | some so =>
          have held : (some so).isSome = true := rfl
          rw [if_pos held]
          constructor
          · rintro ⟨-, data, -⟩
            exact Or.inr (congrArg InData.err data).symm
          · rintro (none' | same)
            · cases none'
            · refine ⟨rfl, ?_, rfl⟩
              change { w.data with err := err } = w.data
              rw [← same]

theorem lookup_found (q : Quoted) (rest seen : List InData) (deflt dead : Option (Nat × InData)) (i : Nat) (d : InData)
    (first : ∀ j e, deflt = some (j, e) → (seen ++ rest)[j]? = some e)
    (second : ∀ j e, dead = some (j, e) → (seen ++ rest)[j]? = some e)
    (found : lookupLoop q rest seen.length deflt dead = some (i, d)) : (seen ++ rest)[i]? = some d := by
  induction rest generalizing seen deflt dead with
  | nil =>
      rw [lookupLoop] at found
      cases held : deflt with
      | some open' =>
          rw [held] at found
          obtain rfl : open' = (i, d) := Option.some.inj found
          exact first i d held
      | none =>
          rw [held] at found
          exact second i d found
  | cons e rest ih =>
      have onward := ih (seen ++ [e])
      rw [List.append_assoc, List.singleton_append, List.length_append, List.length_singleton] at onward
      have here : (seen ++ e :: rest)[seen.length]? = some e := by simp
      rw [lookupLoop] at found
      split at found
      · split at found
        · split at found
          · split at found
            · refine onward deflt (some (seen.length, e)) first ?_ found
              rintro j e' ⟨⟩
              exact here
            · obtain ⟨rfl, rfl⟩ := Prod.mk.inj (Option.some.inj found)
              exact here
          · exact onward deflt dead first second found
        · split at found
          · refine onward (some (seen.length, e)) dead ?_ second found
            rintro j e' ⟨⟩
            exact here
          · exact onward deflt dead first second found
      · exact onward deflt dead first second found

theorem udp_found_mem (m : Memory) (k : Kernel) (msg : List Byte) (i : Nat) (d : InData)
    (found : udpFound m k msg = some (i, d)) : k.udp[i]? = some d :=
  lookup_found (quoted m msg) k.udp [] none none i d (fun _ _ none' => by cases none') (fun _ _ none' => by cases none') found

theorem tcp_found_mem (m : Memory) (k : Kernel) (msg : List Byte) (i : Nat) (w : World)
    (found : tcpFound m k msg = some (i, w)) : k.tcp[i]? = some w := by
  have answer := Tcp.lookup_answer (quoted m msg).daddr (quoted m msg).dport (quoted m msg).saddr (quoted m msg).sport k.tcp
  rw [tcpFound] at found
  rw [found] at answer
  exact answer.1

theorem datalen_cases (msg : List Byte) :
    (datalen msg = (((msg.length - ipHdrlen msg) % 2 ^ 16 : Nat) : Int) ∧ (msg.length - ipHdrlen msg) % 2 ^ 16 < 2 ^ 15)
      ∨ (datalen msg = (((msg.length - ipHdrlen msg) % 2 ^ 16 : Nat) : Int) - 2 ^ 16
        ∧ 2 ^ 15 ≤ (msg.length - ipHdrlen msg) % 2 ^ 16) := by
  unfold datalen
  rw [BitVec.toInt_eq_toNat_cond, BitVec.toNat_ofNat]
  split
  · exact Or.inl ⟨rfl, by omega⟩
  · exact Or.inr ⟨rfl, by omega⟩

theorem nwords_eq (msg : List Byte) : (nwords msg : Int) = ((datalen msg + 1) / 2) % 2 ^ 16 := by
  unfold nwords
  rw [BitVec.toNat_ofInt, Int.shiftRight_eq_div_pow]
  omega

-- The checksum reaches behind the message when the length of the message, as a short, is below -1.
theorem sum_inside (msg : List Byte) (typed : ipHdrlen msg < msg.length) :
    (∀ i ∈ sumReads msg, i < msg.length)
      ↔ ¬ (2 ^ 15 ≤ msg.length - ipHdrlen msg ∧ msg.length - ipHdrlen msg < 2 ^ 16 - 1) := by
  have words := nwords_eq msg
  have cases' := datalen_cases msg
  constructor
  · rintro inside ⟨large, small⟩
    have member : msg.length + 1 ∈ sumReads msg := by
      refine List.mem_filter.mpr ⟨List.mem_map.mpr ⟨msg.length + 1 - ipHdrlen msg, List.mem_range.mpr (by omega), by omega⟩, ?_⟩
      have free : ¬ padded msg (msg.length + 1) := fun pad => by
        have := pad.2
        omega
      simp [free]
    have := inside _ member
    omega
  · intro right i member
    obtain ⟨there, free⟩ := List.mem_filter.mp member
    obtain ⟨j, range, rfl⟩ := List.mem_map.mp there
    have bound := List.mem_range.mp range
    have unpadded : ¬ padded msg (ipHdrlen msg + j) := of_decide_eq_true free
    unfold padded at unpadded
    omega

theorem input_quiet (m : Memory) (k : Kernel) (msg : List Byte) (quiet : ¬ Reported m msg) :
    (icmpInput m k msg).1 = k ∧ (icmpInput m k msg).2.table = []
      ∧ ((icmpInput m k msg).2.bytes = sumReads msg ∨ (icmpInput m k msg).2.bytes = sumReads msg ++ [ipHdrlen msg]) := by
  unfold icmpInput
  split
  · exact ⟨rfl, rfl, Or.inl rfl⟩
  · rename_i sound
    split
    · rename_i error
      unfold doErreport
      split
      · exact ⟨rfl, rfl, Or.inr (by simp [moreReads])⟩
      · rename_i long
        split
        · rename_i clone
          exact (quiet ⟨not_not.mp sound, error, by simpa using long, clone⟩).elim
        · exact ⟨rfl, rfl, Or.inr (by simp [moreReads])⟩
    · exact ⟨rfl, rfl, Or.inr rfl⟩

theorem input_reported (m : Memory) (k : Kernel) (msg : List Byte) (reported : Reported m msg) :
    (icmpInput m k msg).1 = (report m k msg).1 ∧ (icmpInput m k msg).2.table = (report m k msg).2.table
      ∧ (icmpInput m k msg).2.bytes
        = sumReads msg ++ [ipHdrlen msg] ++ (quoteReads msg ++ (report m k msg).2.bytes) := by
  obtain ⟨sound, error, long, clone⟩ := reported
  unfold icmpInput doErreport
  rw [if_neg (not_not.mpr sound), if_pos error, long, if_neg (by decide), if_pos clone]
  exact ⟨rfl, rfl, rfl⟩

theorem reported_long (m : Memory) (msg : List Byte) (reported : Reported m msg) : 36 ≤ msg.length - ipHdrlen msg := by
  have long := reported.2.2.1
  have cases' := datalen_cases msg
  unfold tooShort at long
  rw [decide_eq_false_iff_not, BitVec.toNat_ofInt] at long
  omega

theorem quote_inside (m : Memory) (msg : List Byte) (reported : Reported m msg) : ∀ i ∈ quoteReads msg, i < msg.length := by
  have long := reported_long m msg reported
  intro i member
  unfold quoteReads quoteStart at member
  simp only [List.cons_append, List.nil_append, List.mem_cons, List.mem_map, List.mem_range] at member
  omega

theorem port_inside (msg : List Byte) : (∀ i ∈ portReads msg, i < msg.length) ↔ portsStart msg + 4 ≤ msg.length := by
  unfold portReads
  simp only [List.mem_cons, List.not_mem_nil, or_false, forall_eq_or_imp, forall_eq]
  omega

theorem icmph_code_range (m : Memory) (msg : List Byte) : -128 ≤ icmphCode m msg ∧ icmphCode m msg < 128 := by
  have lower := BitVec.le_toInt (byteAt m msg (ipHdrlen msg + 1))
  have upper := BitVec.toInt_lt (x := byteAt m msg (ipHdrlen msg + 1))
  unfold icmphCode
  omega

-- icmp_errno goes one entry too far.
theorem errno_inside (m : Memory) (msg : List Byte) :
    (∀ i ∈ errnoReads (icmphType m msg) (icmphCode m msg), i < icmpErrors.length) ↔ ¬ Beyond m msg := by
  have range := icmph_code_range m msg
  have length : icmpErrors.length = 6 := rfl
  have value : ((BitVec.ofInt 16 (icmphCode m msg)).toNat : Int) = icmphCode m msg % 2 ^ 16 := by
    rw [BitVec.toNat_ofInt]
    omega
  unfold errnoReads Beyond
  by_cases type : icmphType m msg = ICMPT_DSTUR
  · rw [if_neg (not_not.mpr type)]
    split
    · simp only [List.not_mem_nil, false_imp_iff, implies_true, true_iff, not_and]
      intro _
      omega
    · simp only [List.mem_singleton, forall_eq]
      constructor
      · rintro inside ⟨-, six⟩
        omega
      · intro other
        have notSix : icmphCode m msg ≠ 6 := fun six => other ⟨type, six⟩
        omega
  · rw [if_pos type]
    simp [type]

theorem tcp_errno_inside (m : Memory) (msg : List Byte) (w : World) :
    (∀ i ∈ tcpErrnoReads w (icmphType m msg) (icmphCode m msg), i < icmpErrors.length)
      ↔ (Beyond m msg → w.data.sock = none) := by
  have inside := errno_inside m msg
  unfold tcpErrnoReads
  split
  · rename_i quench
    have notBeyond : ¬ Beyond m msg := fun beyond => by
      rw [beyond.1] at quench
      exact absurd quench (by decide)
    simp [notBeyond]
  · split
    · rename_i hard
      have notBeyond : ¬ Beyond m msg := fun beyond => by
        have six := beyond.2
        unfold ICMPC_FNDF at hard
        omega
      rw [inside]
      simp [notBeyond]
    · split
      · rename_i held
        rw [inside]
        constructor
        · intro notBeyond beyond
          exact (notBeyond beyond).elim
        · intro gone beyond
          rw [gone beyond] at held
          cases held
      · rename_i gone
        have none' : w.data.sock = none := by simpa using gone
        simp [none']

-- One element of a list is replaced.
theorem set_changes {α : Type} (l : List α) (i : Nat) (old new : α) (same : α → α → Prop) (mine : α → Prop)
    (there : l[i]? = some old) (refl : ∀ a, same a a) :
    (∀ (j : Nat) (a b : α), l[j]? = some a → (l.set i new)[j]? = some b → ¬ same a b → mine a) ↔ (¬ same old new → mine old) := by
  have inside : i < l.length := (List.getElem?_eq_some_iff.mp there).1
  constructor
  · intro all changed
    exact all i old new there (List.getElem?_set_self inside) changed
  · intro one j a b before after changed
    by_cases here : i = j
    · subst here
      rw [List.getElem?_set_self inside] at after
      rw [there] at before
      obtain rfl := Option.some.inj before
      obtain rfl := Option.some.inj after
      exact one changed
    · rw [List.getElem?_set_ne here, before] at after
      obtain rfl := Option.some.inj after
      exact (changed (refl a)).elim

theorem unchanged_same {α : Type} (l : List α) (same : α → α → Prop) (mine : α → Prop) (refl : ∀ a, same a a) :
    ∀ (j : Nat) (a b : α), l[j]? = some a → l[j]? = some b → ¬ same a b → mine a := by
  intro j a b before after changed
  rw [before] at after
  obtain rfl := Option.some.inj after
  exact (changed (refl a)).elim

theorem same_conn_refl (w : World) : SameConn w w := ⟨rfl, rfl, rfl⟩

theorem quiet_isolated (m : Memory) (k : Kernel) (msg : List Byte) (typed : ipHdrlen msg < msg.length)
    (quiet : ¬ Reported m msg) : Isolated m k msg ↔ Harmless m k msg := by
  obtain ⟨same, table, bytes⟩ := input_quiet m k msg quiet
  have sums := sum_inside msg typed
  constructor
  · intro isolated
    refine ⟨sums.mp fun i member => isolated.bytes i ?_, fun reported => (quiet reported).elim,
      fun reported => (quiet reported).elim, fun reported => (quiet reported).elim⟩
    rcases bytes with bytes | bytes
    · rw [bytes]
      exact member
    · rw [bytes]
      exact List.mem_append_left _ member
  · intro harmless
    refine ⟨?_, ?_, ?_, ?_⟩
    · rw [same]
      exact unchanged_same k.tcp SameConn _ same_conn_refl
    · rw [same]
      exact unchanged_same k.udp (fun d d' => d' = d) _ fun _ => rfl
    · intro i member
      rcases bytes with bytes | bytes
      · rw [bytes] at member
        exact sums.mpr harmless.sum i member
      · rw [bytes] at member
        rcases List.mem_append.mp member with old | new
        · exact sums.mpr harmless.sum i old
        · obtain rfl := List.mem_singleton.mp new
          exact typed
    · rw [table]
      intro i none'
      cases none'

-- What the report adds to the reads of a message that is reported.
theorem reported_bytes (m : Memory) (k : Kernel) (msg : List Byte) (typed : ipHdrlen msg < msg.length)
    (reported : Reported m msg) :
    (∀ i ∈ (icmpInput m k msg).2.bytes, i < msg.length)
      ↔ ¬ (2 ^ 15 ≤ msg.length - ipHdrlen msg ∧ msg.length - ipHdrlen msg < 2 ^ 16 - 1)
        ∧ ∀ i ∈ (report m k msg).2.bytes, i < msg.length := by
  obtain ⟨-, -, bytes⟩ := input_reported m k msg reported
  have sums := sum_inside msg typed
  have quotes := quote_inside m msg reported
  rw [bytes]
  constructor
  · intro all
    refine ⟨sums.mp fun i member => all i ?_, fun i member => all i ?_⟩
    · exact List.mem_append_left _ (List.mem_append_left _ member)
    · exact List.mem_append_right _ (List.mem_append_right _ member)
  · rintro ⟨right, more⟩ i member
    rcases List.mem_append.mp member with front | back
    · rcases List.mem_append.mp front with old | type
      · exact sums.mpr right i old
      · obtain rfl := List.mem_singleton.mp type
        exact typed
    · rcases List.mem_append.mp back with quoted | ports
      · exact quotes i quoted
      · exact more i ports

theorem tcp_isolated (m : Memory) (k : Kernel) (msg : List Byte) (typed : ipHdrlen msg < msg.length)
    (reported : Reported m msg) (tcp : iphProto (quote msg) = IPPROTO_TCP) : Isolated m k msg ↔ Harmless m k msg := by
  obtain ⟨kernel, table, -⟩ := input_reported m k msg reported
  have bytes := reported_bytes m k msg typed reported
  have ports := port_inside msg
  have notUdp : iphProto (quote msg) ≠ IPPROTO_UDP := by
    rw [tcp]
    decide
  have mine : report m k msg = tcpReport m k msg := if_pos tcp
  rw [mine] at kernel table bytes
  cases found : tcpFound m k msg with
  | none =>
      have result : tcpReport m k msg = (k, ⟨portReads msg, []⟩) := by
        rw [tcpReport, found]
      rw [result] at kernel table bytes
      constructor
      · intro isolated
        obtain ⟨sum, inside⟩ := bytes.mp isolated.bytes
        exact ⟨sum, fun _ _ => ports.mp inside, (fun _ _ i w none' => by rw [found] at none'; cases none'),
          fun _ udp => (notUdp udp).elim⟩
      · intro harmless
        refine ⟨?_, ?_, bytes.mpr ⟨harmless.sum, ports.mpr (harmless.ports reported (Or.inl tcp))⟩, ?_⟩
        · rw [kernel]
          exact unchanged_same k.tcp SameConn _ same_conn_refl
        · rw [kernel]
          exact unchanged_same k.udp (fun d d' => d' = d) _ fun _ => rfl
        · rw [table]
          intro i none'
          cases none'
  | some first =>
      obtain ⟨i, w⟩ := first
      have there := tcp_found_mem m k msg i w found
      have errno := tcp_errno_inside m msg w
      have rests := rests_iff w m.id (icmpErrorOf m (icmphType m msg) (icmphCode m msg))
      have result : tcpReport m k msg
          = ({ k with tcp := k.tcp.set i (tcpError w m.id (icmpErrorOf m (icmphType m msg) (icmphCode m msg))) },
              ⟨portReads msg, tcpErrnoReads w (icmphType m msg) (icmphCode m msg)⟩) := by
        rw [tcpReport, found]
      have changes := set_changes k.tcp i w (tcpError w m.id (icmpErrorOf m (icmphType m msg) (icmphCode m msg))) SameConn
        (fun w => Exact (quoted m msg) w.data) there same_conn_refl
      rw [result] at kernel table bytes
      constructor
      · intro isolated
        obtain ⟨sum, inside⟩ := bytes.mp isolated.bytes
        have one := isolated.tcp
        have entries := isolated.table
        rw [kernel] at one
        rw [table] at entries
        refine ⟨sum, fun _ _ => ports.mp inside, fun _ _ j v same => ?_, fun _ udp => (notUdp udp).elim⟩
        rw [found] at same
        obtain ⟨rfl, rfl⟩ := Prod.mk.inj (Option.some.inj same)
        refine ⟨?_, errno.mp entries⟩
        by_cases still : Rests w (icmpErrorOf m (icmphType m msg) (icmphCode m msg))
        · exact Or.inr still
        · exact Or.inl (changes.mp one fun unchanged => still (rests.mp unchanged))
      · intro harmless
        obtain ⟨right, entries⟩ := harmless.tcp reported tcp i w found
        refine ⟨?_, ?_, bytes.mpr ⟨harmless.sum, ports.mpr (harmless.ports reported (Or.inl tcp))⟩, ?_⟩
        · rw [kernel]
          refine changes.mpr fun changed => ?_
          rcases right with exact' | still
          · exact exact'
          · exact (changed (rests.mpr still)).elim
        · rw [kernel]
          exact unchanged_same k.udp (fun d d' => d' = d) _ fun _ => rfl
        · rw [table]
          exact errno.mpr entries

-- A connected socket is marked with the error of the message.
theorem udp_isolated (m : Memory) (k : Kernel) (msg : List Byte) (typed : ipHdrlen msg < msg.length)
    (reported : Reported m msg) (udp : iphProto (quote msg) = IPPROTO_UDP) : Isolated m k msg ↔ Harmless m k msg := by
  obtain ⟨kernel, table, -⟩ := input_reported m k msg reported
  have bytes := reported_bytes m k msg typed reported
  have ports := port_inside msg
  have notTcp : iphProto (quote msg) ≠ IPPROTO_TCP := by
    rw [udp]
    decide
  have mine : report m k msg = udpReport m k msg := (if_neg notTcp).trans (if_pos udp)
  rw [mine] at kernel table bytes
  by_cases marked : ∃ i d, udpFound m k msg = some (i, d) ∧ d.isconnected = true
  · obtain ⟨i, d, found, connected⟩ := marked
    have there := udp_found_mem m k msg i d found
    have errno := errno_inside m msg
    have result : udpReport m k msg
        = ({ k with udp := k.udp.set i (setErr d (icmpErrno m (icmphType m msg) (icmphCode m msg))) },
            ⟨portReads msg, errnoReads (icmphType m msg) (icmphCode m msg)⟩) := by
      rw [udpReport, found]
      exact if_pos connected
    have changes := set_changes k.udp i d (setErr d (icmpErrno m (icmphType m msg) (icmphCode m msg)))
      (fun d d' => d' = d) (Exact (quoted m msg)) there fun _ => rfl
    have rests : setErr d (icmpErrno m (icmphType m msg) (icmphCode m msg)) = d
        ↔ d.err = icmpErrno m (icmphType m msg) (icmphCode m msg) := by
      constructor
      · intro same
        exact (congrArg InData.err same).symm
      · intro same
        rw [← same]
        rfl
    rw [result] at kernel table bytes
    constructor
    · intro isolated
      obtain ⟨sum, inside⟩ := bytes.mp isolated.bytes
      have one := isolated.udp
      have entries := isolated.table
      rw [kernel] at one
      rw [table] at entries
      refine ⟨sum, fun _ _ => ports.mp inside, fun _ tcp => (notTcp tcp).elim, fun _ _ j e same _ => ?_⟩
      rw [found] at same
      obtain ⟨rfl, rfl⟩ := Prod.mk.inj (Option.some.inj same)
      refine ⟨?_, errno.mp entries⟩
      by_cases still : d.err = icmpErrno m (icmphType m msg) (icmphCode m msg)
      · exact Or.inr still
      · exact Or.inl (changes.mp one fun unchanged => still (rests.mp unchanged))
    · intro harmless
      obtain ⟨right, entries⟩ := harmless.udp reported udp i d found connected
      refine ⟨?_, ?_, bytes.mpr ⟨harmless.sum, ports.mpr (harmless.ports reported (Or.inr udp))⟩, ?_⟩
      · rw [kernel]
        exact unchanged_same k.tcp SameConn _ same_conn_refl
      · rw [kernel]
        refine changes.mpr fun changed => ?_
        rcases right with exact' | still
        · exact exact'
        · exact (changed (rests.mpr still)).elim
      · rw [table]
        exact errno.mpr entries
  · have result : udpReport m k msg = (k, ⟨portReads msg, []⟩) := by
      unfold udpReport
      split
      · rfl
      · rename_i i d found
        exact if_neg fun connected => marked ⟨i, d, found, connected⟩
    rw [result] at kernel table bytes
    constructor
    · intro isolated
      obtain ⟨sum, inside⟩ := bytes.mp isolated.bytes
      exact ⟨sum, fun _ _ => ports.mp inside, fun _ tcp => (notTcp tcp).elim,
        fun _ _ i d found connected => (marked ⟨i, d, found, connected⟩).elim⟩
    · intro harmless
      refine ⟨?_, ?_, bytes.mpr ⟨harmless.sum, ports.mpr (harmless.ports reported (Or.inr udp))⟩, ?_⟩
      · rw [kernel]
        exact unchanged_same k.tcp SameConn _ same_conn_refl
      · rw [kernel]
        exact unchanged_same k.udp (fun d d' => d' = d) _ fun _ => rfl
      · rw [table]
        intro i none'
        cases none'

theorem other_isolated (m : Memory) (k : Kernel) (msg : List Byte) (typed : ipHdrlen msg < msg.length)
    (reported : Reported m msg) (notTcp : iphProto (quote msg) ≠ IPPROTO_TCP) (notUdp : iphProto (quote msg) ≠ IPPROTO_UDP) :
    Isolated m k msg ↔ Harmless m k msg := by
  obtain ⟨kernel, table, -⟩ := input_reported m k msg reported
  have bytes := reported_bytes m k msg typed reported
  have result : report m k msg = (k, ⟨[], []⟩) := (if_neg notTcp).trans (if_neg notUdp)
  rw [result] at kernel table bytes
  constructor
  · intro isolated
    refine ⟨(bytes.mp isolated.bytes).1, ?_, fun _ tcp => (notTcp tcp).elim, fun _ udp => (notUdp udp).elim⟩
    rintro - (tcp | udp)
    · exact (notTcp tcp).elim
    · exact (notUdp udp).elim
  · intro harmless
    refine ⟨?_, ?_, bytes.mpr ⟨harmless.sum, fun i none' => by cases none'⟩, ?_⟩
    · rw [kernel]
      exact unchanged_same k.tcp SameConn _ same_conn_refl
    · rw [kernel]
      exact unchanged_same k.udp (fun d d' => d' = d) _ fun _ => rfl
    · rw [table]
      intro i none'
      cases none'

-- Exactly which messages leave all other sockets, and what lies around the message, alone.
theorem icmp_isolation (m : Memory) (k : Kernel) (msg : List Byte) (typed : ipHdrlen msg < msg.length) :
    Isolated m k msg ↔ Harmless m k msg := by
  by_cases reported : Reported m msg
  · by_cases tcp : iphProto (quote msg) = IPPROTO_TCP
    · exact tcp_isolated m k msg typed reported tcp
    · by_cases udp : iphProto (quote msg) = IPPROTO_UDP
      · exact udp_isolated m k msg typed reported udp
      · exact other_isolated m k msg typed reported tcp udp
  · exact quiet_isolated m k msg typed reported

def quietMemory : Memory := ⟨fun _ => 0, 0, true, 1⟩

-- From 10.0.0.9 to 10.0.0.1: port unreachable, about a segment from 10.0.0.1, port 80, to 10.0.0.9, port 1025.
def portUnreach : List Byte :=
  [0x45, 0, 0, 56, 0, 0, 0, 0, 64, 1, 0, 0, 10, 0, 0, 9, 10, 0, 0, 1,
    3, 3, 0x5f, 0x73, 0, 0, 0, 0,
    0x45, 0, 0, 40, 0, 0, 0, 0, 64, 6, 0, 0, 10, 0, 0, 1, 10, 0, 0, 9,
    0, 80, 4, 1, 0, 0, 0, 0]

theorem icmp_isolation_port : Isolated quietMemory ⟨[], []⟩ portUnreach ↔ Harmless quietMemory ⟨[], []⟩ portUnreach :=
  icmp_isolation quietMemory ⟨[], []⟩ portUnreach (by decide)

def webListener : World := Tcp.tcpListen (Tcp.tcpAttach 80 Tcp.quietNet) 5

-- The message closes a socket that listens on port 80.
theorem icmp_closes_listener :
    ¬ ∀ (m : Memory) (k : Kernel) (msg : List Byte), ipHdrlen msg < msg.length → Isolated m k msg := by
  intro claimed
  have isolated := claimed quietMemory ⟨[webListener], []⟩ portUnreach (by decide)
  have listens : webListener.tcb.state = .listen ∧ webListener.data.isconnected = false := by decide +kernel
  have closed : (icmpInput quietMemory ⟨[webListener], []⟩ portUnreach).1.tcp.map (fun w => w.tcb.state) = [.closed] := by
    decide +kernel
  cases after : (icmpInput quietMemory ⟨[webListener], []⟩ portUnreach).1.tcp with
  | nil =>
      rw [after] at closed
      cases closed
  | cons w rest =>
      rw [after] at closed
      have state : w.tcb.state = .closed := (List.cons.inj closed).1
      have exact' := isolated.tcp 0 webListener w rfl (by rw [after]; rfl) fun same => by
        rw [same.1, listens.1] at state
        cases state
      have connected := exact'.1
      rw [listens.2] at connected
      cases connected

end MagxNet.Icmp
