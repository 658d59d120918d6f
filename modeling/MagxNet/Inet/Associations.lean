import MagxNet.Inet.Unique

set_option autoImplicit false

namespace MagxNet.Inet

open Tcp

-- What the lookup answers to tcp_connect: a live connection whose ends are those asked for the other way round, or,
-- when no unconnected socket is bound to the far end, a dead one.
def Mirrored (socks : List World) (a : Assoc) : Prop :=
  (∃ w ∈ socks, LivePeer a.1 a.2.1 a.2.2.1 a.2.2.2 w)
    ∨ (∃ w ∈ socks, DeadPeer a.1 a.2.1 a.2.2.1 a.2.2.2 w) ∧ ∀ w ∈ socks, ¬ Unconnected a.2.2.1 a.2.2.2 w

-- The sockets as tcp_connect looks through them.
def dialing (p : Proto) (s : Sock) (args : DialArgs) : Proto :=
  change p s.id fun s => some { s with conn.data.saddr := args.laddr }

def wanted (s : Sock) (fport : InPort) (args : DialArgs) : Assoc :=
  (args.laddr, s.conn.data.sport, args.faddr, fport)

-- Nothing is wrong with the call itself.
structure Opens (env : Env) (s : Sock) (fport : InPort) (args : DialArgs) : Prop where
  closed : s.conn.tcb.state = .closed
  port : fport ≠ 0
  single : ¬ env.isBroadcast args.faddr
  routed : args.laddr ≠ 0

-- The state of things at the lookup in tcp_connect, when the call gets to it.
def dialState (p : Proto) (s : Sock) (args : DialArgs) : Option (Proto × Sock × InPort) :=
  match s.conn.data.sock, args.addr with
  | some so, some a =>
      if so.state = .isunconnected ∧ so.acceptcon = false ∧ args.addrlen = SOCKADDR_LEN ∧ a.family = AF_INET then
        (inetAutobind p s).map fun p1 => (p1, (p1.get s.id).getD s, a.port)
      else none
  | _, _ => none

-- The association is refused for its mirror image: it is as it should be when both are taken or neither is.
def Fair (env : Env) (p : Proto) : Call → Prop
  | .connect id args => ∀ s p1 s1 fport, held p id = some s → dialState p s args = some (p1, s1, fport) →
      Opens env s1 fport args → (Mirrored (conns (dialing p1 s1 args)) (wanted s1 fport args) ↔ wanted s1 fport args ∈ assocs p1)
  | _ => True

theorem found_connected (socks : List World) (a : Assoc) :
    ((inDataLookup a.1 a.2.1 a.2.2.1 a.2.2.2 socks).any fun found => found.2.data.isconnected) ↔ Mirrored socks a := by
  have answer := lookup_answer a.1 a.2.1 a.2.2.1 a.2.2.2 socks
  cases found : inDataLookup a.1 a.2.1 a.2.2.1 a.2.2.2 socks with
  | none =>
      rw [found] at answer
      constructor
      · intro none'
        cases none'
      · intro mirrored
        obtain ⟨w, member, live⟩ | ⟨⟨w, member, dead⟩, -⟩ := mirrored
        · exact ((answer w member).1 live).elim
        · exact ((answer w member).2.2 dead).elim
  | some first =>
      obtain ⟨i, w⟩ := first
      rw [found] at answer
      obtain ⟨there, chosen⟩ := answer
      have member := List.mem_of_getElem? there
      cases chosen with
      | live matches' => exact ⟨fun _ => Or.inl ⟨w, member, matches'⟩, fun _ => matches'.2.1⟩
      | unconnected matches' none' exact' =>
          constructor
          · intro connected
            exact (matches'.2 connected).elim
          · intro mirrored
            obtain ⟨v, isThere, live⟩ | ⟨-, closed⟩ := mirrored
            · exact (none' v isThere live).elim
            · exact (closed w member matches').elim
      | dead matches' none' closed => exact ⟨fun _ => Or.inr ⟨⟨w, member, matches'⟩, closed⟩, fun _ => matches'.2.1⟩

theorem duplicate_iff (p : Proto) (s : Sock) (fport : InPort) (args : DialArgs) :
    (dialArgs p s fport args).duplicate ↔ Mirrored (conns (dialing p s args)) (wanted s fport args) :=
  found_connected (conns (dialing p s args)) (wanted s fport args)

theorem refused_iff (env : Env) (p : Proto) (s : Sock) (fport : InPort) (args : DialArgs) :
    (tcpConnect env p s fport args).1 = EADDRINUSE
      ↔ Opens env s fport args ∧ Mirrored (conns (dialing p s args)) (wanted s fport args) := by
  rw [← duplicate_iff]
  show connectResult env (here p s) (dialArgs p s fport args) = EADDRINUSE ↔ _
  unfold connectResult
  split
  · rename_i busy
    exact ⟨fun same => absurd same (by decide), fun opens => (busy opens.1.closed).elim⟩
  · rename_i closed
    split
    · rename_i zero
      exact ⟨fun same => absurd same (by decide), fun opens => (opens.1.port zero).elim⟩
    · rename_i port
      split
      · rename_i broad
        exact ⟨fun same => absurd same (by decide), fun opens => (opens.1.single broad).elim⟩
      · rename_i single
        split
        · rename_i lost
          exact ⟨fun same => absurd same (by decide), fun opens => (opens.1.routed lost).elim⟩
        · rename_i routed
          split
          · rename_i twice
            exact ⟨fun _ => ⟨⟨not_not.mp closed, port, single, routed⟩, twice⟩, fun _ => rfl⟩
          · rename_i once
            exact ⟨fun same => absurd same (by decide), fun opens => (once opens.2).elim⟩

-- The call is right exactly under the condition.
theorem refusal_exact (env : Env) (p : Proto) (s : Sock) (fport : InPort) (args : DialArgs) :
    ((tcpConnect env p s fport args).1 = EADDRINUSE ↔ Opens env s fport args ∧ wanted s fport args ∈ assocs p)
      ↔ (Opens env s fport args →
        (Mirrored (conns (dialing p s args)) (wanted s fport args) ↔ wanted s fport args ∈ assocs p)) := by
  rw [refused_iff]
  exact and_congr_right_iff

theorem loose_ends (s : Standing) (unconnected : s.isconnected = false) : Ends s where
  listening := fun _ => unconnected
  used := by
    intro connected
    rw [unconnected] at connected
    cases connected
  bound := by
    intro connected
    rw [unconnected] at connected
    cases connected

theorem ends_unbound (s : Standing) (ends : Ends s) (unbound : s.isbound = false) : s.isconnected = false := by
  by_contra connected
  have bound := ends.bound (Bool.not_eq_false _ ▸ connected)
  rw [unbound] at bound
  cases bound

theorem ends_fresh (s : Standing) (ends : Ends s) (fresh : s.sockState = some .isunconnected) : s.isconnected = false := by
  by_contra connected
  exact ends.used (Bool.not_eq_false _ ▸ connected) fresh

theorem distinct_lastport (p : Proto) (port : InPort) (distinct : Distinct p) : Distinct { p with lastport := port } :=
  ⟨⟨distinct.numbered.falling, distinct.numbered.below⟩, distinct.ends, distinct.unique⟩

theorem distinct_bind_sock (p : Proto) (s : Sock) (addr : InAddr) (port : InPort) (member : s ∈ p.datas)
    (unbound : s.conn.data.isbound = false) (distinct : Distinct p) : Distinct (bindSock p s.id addr port) := by
  refine distinct_change p s.id _ ?_ ?_ distinct
  · intro t u kept
    cases kept
    rfl
  · intro t there same u kept
    cases kept
    cases id_inj p distinct.numbered t s there member same
    refine loose_tame _ _ fun ends => ?_
    have loose := ends_unbound _ ends unbound
    exact ⟨loose_ends _ loose, loose⟩

theorem distinct_autobind (p p1 : Proto) (s : Sock) (member : s ∈ p.datas) (bound : inetAutobind p s = some p1)
    (distinct : Distinct p) : Distinct p1 := by
  unfold inetAutobind at bound
  split at bound
  · cases bound
    exact distinct
  · rename_i unbound
    obtain ⟨port, -, rfl⟩ := Option.map_eq_some_iff.mp bound
    exact distinct_lastport _ port
      (distinct_bind_sock p s INADDR_ANY port member (Bool.eq_false_iff.mpr unbound) distinct)

theorem distinct_bind (p : Proto) (s : Sock) (args : BindArgs) (member : s ∈ p.datas) (distinct : Distinct p) :
    Distinct (returned p (inetBind p s args)) := by
  unfold inetBind
  split
  · exact distinct
  · split
    · exact distinct
    · rename_i unbound
      split
      · exact distinct
      · split
        · exact distinct
        · split
          · exact distinct
          · split
            · unfold returned
              cases portAlloc p with
              | none => exact distinct
              | some port =>
                  exact distinct_lastport _ port
                    (distinct_bind_sock p s _ port member (Bool.eq_false_iff.mpr unbound) distinct)
            · split
              · exact distinct
              · split
                · exact distinct
                · exact distinct_bind_sock p s _ _ member (Bool.eq_false_iff.mpr unbound) distinct

-- The socket after the call has bound it.
theorem autobind_get (p p1 : Proto) (s : Sock) (numbered : Numbered p) (member : s ∈ p.datas)
    (bound : inetAutobind p s = some p1) :
    ∃ s1, p1.get s.id = some s1 ∧ s1.id = s.id ∧ s1.conn.data.isbound ∧ s1.conn.data.sock = s.conn.data.sock
      ∧ s1.conn.tcb = s.conn.tcb ∧ s1.conn.data.isconnected = s.conn.data.isconnected := by
  unfold inetAutobind at bound
  split at bound
  · rename_i isBound
    cases bound
    exact ⟨s, get_of_mem p numbered s member, rfl, isBound, rfl, rfl, rfl⟩
  · obtain ⟨port, -, rfl⟩ := Option.map_eq_some_iff.mp bound
    have keeps : KeepsId fun s => some { s with conn := bindTo s.conn INADDR_ANY port } := by
      intro t u kept
      cases kept
      rfl
    have there : { s with conn := bindTo s.conn INADDR_ANY port } ∈ (bindSock p s.id INADDR_ANY port).datas :=
      (mem_change p s.id _ _).mpr ⟨s, member, if_pos rfl⟩
    have after := get_of_mem (bindSock p s.id INADDR_ANY port) (numbered_change p s.id _ keeps numbered) _ there
    exact ⟨_, after, rfl, rfl, rfl, rfl, rfl⟩

-- What dialState tells of the socket that connects.
structure Dials (p p1 : Proto) (s s1 : Sock) : Prop where
  bound : inetAutobind p s = some p1
  there : p1.get s.id = some s1
  same : s1.id = s.id
  isbound : s1.conn.data.isbound
  fresh : (standing s1.conn).sockState = some .isunconnected

theorem dial_state_dials (p p1 : Proto) (s s1 : Sock) (fport : InPort) (args : DialArgs) (numbered : Numbered p)
    (member : s ∈ p.datas) (dials : dialState p s args = some (p1, s1, fport)) : Dials p p1 s s1 := by
  unfold dialState at dials
  split at dials
  · rename_i so a sock addr
    split at dials
    · rename_i ready
      obtain ⟨p', bound, same⟩ := Option.map_eq_some_iff.mp dials
      obtain ⟨s', there, sameId, isbound, sameSock, -, -⟩ := autobind_get p p' s numbered member bound
      rw [there] at same
      cases same
      refine ⟨bound, there, sameId, isbound, ?_⟩
      show s'.conn.data.sock.map (·.state) = _
      rw [sameSock, sock]
      exact congrArg some ready.1
    · cases dials
  · cases dials

theorem inet_connect_calls (env : Env) (p : Proto) (s : Sock) (so : Socket) (args : DialArgs)
    (sock : s.conn.data.sock = some so) (idle : so.acceptcon = false)
    (early : so.state = .isunconnected ∨ so.state = .isconnecting) :
    returned p (inetConnect env p s args) =
      match dialState p s args with
      | some (p1, s1, fport) => (tcpConnect env p1 s1 fport args).2
      | none => p := by
  have state : sockState s = some so.state := by
    unfold sockState
    rw [sock]
    rfl
  unfold inetConnect dialState
  rw [sock, state]
  cases args.addr with
  | none =>
      dsimp only
      split <;> rfl
  | some a =>
      dsimp only
      by_cases busy : so.state = .isconnecting
      · rw [if_pos (congrArg some busy), if_neg (by simp [busy])]
        rfl
      · have fresh := early.resolve_right busy
        rw [if_neg (fun same => busy (Option.some.inj same))]
        by_cases long : args.addrlen = SOCKADDR_LEN
        · by_cases family : a.family = AF_INET
          · rw [if_neg (not_not.mpr long), if_neg (not_not.mpr family), if_pos ⟨fresh, idle, long, family⟩]
            cases inetAutobind p s with
            | none => rfl
            | some p1 => rfl
          · rw [if_neg (not_not.mpr long), if_pos family, if_neg (fun ready => family ready.2.2.2)]
            rfl
        · rw [if_pos long, if_neg (fun ready => long ready.2.2.1)]
          rfl

theorem connect_calls (env : Env) (p : Proto) (s : Sock) (args : DialArgs) :
    returned p (mgxConnect env p s args) =
      match dialState p s args with
      | some (p1, s1, fport) => (tcpConnect env p1 s1 fport args).2
      | none => p := by
  cases sock : s.conn.data.sock with
  | none =>
      have nowhere : dialState p s args = none := by
        unfold dialState
        rw [sock]
      rw [nowhere]
      unfold mgxConnect
      rw [sock]
      rfl
  | some so =>
      by_cases idle : so.acceptcon = false ∧ (so.state = .isunconnected ∨ so.state = .isconnecting)
      · rw [← inet_connect_calls env p s so args sock idle.1 idle.2]
        unfold mgxConnect
        rw [sock]
        obtain same | same := idle.2 <;> dsimp only <;> rw [same] <;> dsimp only <;> rw [if_neg (by simp [idle.1])]
      · have nowhere : dialState p s args = none := by
          unfold dialState
          rw [sock]
          cases args.addr with
          | none => rfl
          | some a => exact if_neg fun ready => idle ⟨ready.2.1, Or.inl ready.1⟩
        rw [nowhere]
        unfold mgxConnect
        rw [sock]
        dsimp only
        split
        · rename_i same
          rw [if_pos (by by_contra open'; exact idle ⟨by simpa using open', Or.inl same⟩)]
          rfl
        · rename_i same
          rw [if_pos (by by_contra open'; exact idle ⟨by simpa using open', Or.inr same⟩)]
          rfl
        · rfl
        · rfl
        · rfl
        · rfl

theorem assoc_dialed (s : Standing) (args : ConnectArgs) :
    assoc (dialed s args) = if s.dead then none else some (args.laddr, s.sport, args.faddr, args.fport) := by
  unfold assoc dialed
  cases s.dead <;> rfl

theorem ends_dialed (s : Standing) (args : ConnectArgs) (bound : s.isbound) : Ends (dialed s args) where
  listening := by
    intro listening
    cases listening
  used := by
    intro _ fresh
    have same : (dialed s args).sockState = s.sock.map fun _ => SoState.isconnecting := by
      show (s.sock.map fun (so : Socket) => { so with state := .isconnecting }).map (·.state) = _
      rw [Option.map_map]
      rfl
    rw [same] at fresh
    obtain ⟨-, -, state⟩ := Option.map_eq_some_iff.mp fresh
    cases state
  bound := fun _ => bound

theorem distinct_dial (env : Env) (p : Proto) (s : Sock) (fport : InPort) (args : DialArgs) (member : s ∈ p.datas)
    (bound : s.conn.data.isbound) (fresh : (standing s.conn).sockState = some .isunconnected)
    (fair : Opens env s fport args →
      (Mirrored (conns (dialing p s args)) (wanted s fport args) ↔ wanted s fport args ∈ assocs p))
    (distinct : Distinct p) : Distinct (tcpConnect env p s fport args).2 := by
  have loose := ends_fresh _ (distinct.ends s member) fresh
  have after := connect_standing env (here p s) (dialArgs p s fport args)
  have there := get_of_mem p distinct.numbered s member
  unfold tcpConnect run
  rw [there]
  dsimp only
  generalize made : Tcp.tcpConnect env (here p s) (dialArgs p s fport args) = w at after ⊢
  have same : standing (here p s) = standing s.conn := rfl
  rw [same] at after
  split at after
  · refine distinct_put p s w (fun _ t isThere mine => ?_) distinct
    rw [id_inj p distinct.numbered t s isThere member mine, after]
    exact milder_tame _ _ (milder_refl _)
  · rename_i opens
    split at after
    · refine distinct_put p s w (fun _ t isThere mine => ?_) distinct
      rw [id_inj p distinct.numbered t s isThere member mine, after]
      exact loose_tame _ _ fun _ => ⟨loose_ends _ loose, loose⟩
    · rename_i once
      rw [duplicate_iff] at once
      obtain ⟨closed, opens⟩ := not_or.mp opens
      obtain ⟨port, opens⟩ := not_or.mp opens
      obtain ⟨single, routed⟩ := not_or.mp opens
      have new : wanted s fport args ∉ assocs p := fun taken =>
        once ((fair ⟨not_not.mp closed, port, single, routed⟩).mpr taken)
      have given := assoc_dialed (standing s.conn) (dialArgs p s fport args)
      cases dead : (standing s.conn).dead with
      | true =>
          refine distinct_put p s w (fun _ t isThere mine => ?_) distinct
          rw [id_inj p distinct.numbered t s isThere member mine, after]
          intro _
          rw [dead] at given
          exact ⟨ends_dialed _ _ bound, Or.inl given⟩
      | false =>
          rw [dead] at given
          refine distinct_insert p s w (wanted s fport args) ?_ ?_ new distinct
          · rw [after]
            exact ends_dialed _ _ bound
          · rw [after]
            exact given

theorem distinct_connect (env : Env) (p : Proto) (s : Sock) (args : DialArgs) (member : s ∈ p.datas)
    (fair : ∀ p1 s1 fport, dialState p s args = some (p1, s1, fport) → Opens env s1 fport args →
      (Mirrored (conns (dialing p1 s1 args)) (wanted s1 fport args) ↔ wanted s1 fport args ∈ assocs p1))
    (distinct : Distinct p) : Distinct (returned p (mgxConnect env p s args)) := by
  rw [connect_calls]
  cases state : dialState p s args with
  | none => exact distinct
  | some found =>
      obtain ⟨p1, s1, fport⟩ := found
      have dials := dial_state_dials p p1 s s1 fport args distinct.numbered member state
      have distinct1 := distinct_autobind p p1 s member dials.bound distinct
      exact distinct_dial env p1 s1 fport args (get_mem p1 s.id s1 dials.there).1 dials.isbound dials.fresh
        (fair p1 s1 fport state) distinct1

theorem distinct_listen (p : Proto) (s : Sock) (backlog : Int) (member : s ∈ p.datas) (distinct : Distinct p) :
    Distinct (returned p (mgxListen p s backlog)) := by
  unfold mgxListen inetListen
  split
  · exact distinct
  · cases bound : inetAutobind p s with
    | none => exact distinct
    | some p1 =>
        show Distinct (run p1 s.id fun w => tcpListen w backlog.toNat)
        refine distinct_run p1 s.id _ (fun w _ => ?_) (distinct_autobind p p1 s member bound distinct)
        rw [standing_listen]
        split
        · exact milder_tame _ _ ⟨rfl, id, id, id⟩
        · rename_i waits
          push Not at waits
          have loose : w.data.isconnected = false := by simpa using waits.1
          exact loose_tame _ _ fun _ => ⟨loose_ends _ loose, loose⟩

theorem milder_accept (w : World) : Milder (standing w) (standing (Tcp.tcpAccept w)) := by
  rw [standing_accept]
  split
  · refine ⟨rfl, id, id, fun fresh => ?_⟩
    cases fresh
  · exact milder_refl _

theorem distinct_hand_over (p : Proto) (server client : Nat) (distinct : Distinct p) : Distinct (handOver p server client) :=
  distinct_run _ client _ (fun w _ => milder_tame _ _ (milder_accept w))
    (distinct_forget _ client (distinct_dequeue p server client distinct))

theorem distinct_accept (p : Proto) (s : Sock) (nonblock : Bool) (distinct : Distinct p) :
    Distinct (tcpAccept p s nonblock).2 := by
  unfold tcpAccept
  split
  · exact distinct
  · split
    · exact distinct_hand_over p s.id _ distinct
    · exact distinct

theorem user_stays (env : Env) (w : World) (op : Op) (user : byUser op) : Stays (standing w) (standing (userStep env w op)) := by
  cases op with
  | recv args => exact stays_recv env w args
  | recvWoken args => exact stays_recv_woken env w args
  | send bytes oob => exact stays_send env w bytes oob
  | sendWoken bytes oob => exact stays_send_woken env w bytes oob
  | rcvbuf val => exact stays_rcvbuf w val
  | sndbuf val => exact stays_sndbuf w val
  | nodelay set => exact stays_refl _
  | oobinline set => exact stays_refl _
  | takeErr => exact stays_refl _
  | _ => cases user

theorem timer_stays (env : Env) (w : World) (op : Op) (timer : byTimer op) : Stays (standing w) (standing (netStep env w op)) := by
  cases op with
  | wakeme => exact stays_timer env w .wakeme (Or.inl rfl)
  | deleteme => exact stays_timer env w .deleteme (Or.inr (Or.inl rfl))
  | dodelack => exact stays_timer env w .dodelack (Or.inr (Or.inr rfl))
  | _ => cases timer

theorem distinct_user (env : Env) (p : Proto) (s : Sock) (op : Op) (member : s ∈ p.datas) (user : byUser op)
    (distinct : Distinct p) : Distinct ((userCall env p s op).getD p) := by
  unfold userCall
  have ran : ∀ p1, Distinct p1 → Distinct (run p1 s.id fun w => userStep env w op) := fun p1 distinct1 =>
    distinct_run p1 s.id _ (fun w _ => stays_tame _ _ (user_stays env w op user)) distinct1
  split
  · cases bound : inetAutobind p s with
    | none => exact distinct
    | some p1 => exact ran p1 (distinct_autobind p p1 s member bound distinct)
  · exact ran p distinct

theorem distinct_shutdown (env : Env) (p : Proto) (s : Sock) (how : Nat) (member : s ∈ p.datas) (distinct : Distinct p) :
    Distinct ((inetShutdown env p s how).getD p) := by
  unfold inetShutdown
  cases bound : inetAutobind p s with
  | none => exact distinct
  | some p1 =>
      show Distinct (releaseShut env (run p1 s.id fun w => tcpShutdown env (setCant w how) how) s.id)
      have ran := distinct_run p1 s.id _ (fun w _ => stays_tame _ _ (stays_shutdown env w how))
        (distinct_autobind p p1 s member bound distinct)
      unfold releaseShut
      split
      · exact ran
      · exact distinct_release env _ _ ran

end MagxNet.Inet
