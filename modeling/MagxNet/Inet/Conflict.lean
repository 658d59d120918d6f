import MagxNet.Inet.Associations

set_option autoImplicit false

namespace MagxNet.Inet

open Tcp

theorem handed_chosen (env : Env) (socks : List World) (pkt : Pkt) (i : Nat) (handed : tcpInput env socks pkt = .handed i) :
    ∃ w, socks[i]? = some w ∧ Chosen pkt.saddr pkt.tcph.srcport pkt.daddr pkt.tcph.dstport socks w := by
  have answer := lookup_answer pkt.saddr pkt.tcph.srcport pkt.daddr pkt.tcph.dstport socks
  unfold tcpInput at handed
  split at handed
  · cases handed
  · split at handed
    · cases handed
    · split at handed
      · cases handed
      · rename_i found
        rw [found] at answer
        split at handed
        · cases handed
        · cases handed
          exact ⟨_, answer⟩

-- The association that a segment's sender asks for.
def askedBy (pkt : Pkt) : Assoc := (pkt.daddr, pkt.tcph.dstport, pkt.saddr, pkt.tcph.srcport)

theorem same_addr_refl (addr : InAddr) : ipSameAddr addr addr := by
  unfold ipSameAddr
  simp

-- A connection with these ends would have got the segment.
theorem taken_live (p : Proto) (pkt : Pkt) (ends : ∀ s ∈ p.datas, Ends (standing s.conn)) (taken : askedBy pkt ∈ assocs p) :
    ∃ w ∈ conns p, LivePeer pkt.saddr pkt.tcph.srcport pkt.daddr pkt.tcph.dstport w := by
  obtain ⟨s, member, connected, alive, same⟩ := assoc_mem p (askedBy pkt) taken
  simp only [askedBy, Prod.mk.injEq] at same
  refine ⟨s.conn, List.mem_map_of_mem member, ?_, connected, ?_, alive⟩
  · unfold boundHere
    rw [same.1, same.2.1]
    simp [show s.conn.data.isbound = true from (ends s member).bound connected, same_addr_refl]
  · unfold fromPeer
    rw [same.2.2.1, same.2.2.2]
    simp [same_addr_refl]

theorem listener_fresh (p : Proto) (pkt : Pkt) (w : World) (ends : ∀ s ∈ p.datas, Ends (standing s.conn))
    (chosen : Chosen pkt.saddr pkt.tcph.srcport pkt.daddr pkt.tcph.dstport (conns p) w) (loose : w.data.isconnected = false) :
    askedBy pkt ∉ assocs p := by
  intro taken
  obtain ⟨v, member, live⟩ := taken_live p pkt ends taken
  cases chosen with
  | live matches' =>
      have connected := matches'.2.1
      rw [loose] at connected
      cases connected
  | unconnected matches' none' exact' => exact none' v member live
  | dead matches' none' closed => exact none' v member live

theorem milder_count (w : World) : Milder (standing w) (standing (countQueued w)) where
  ends := rfl
  dead := id
  listening := id
  used := by
    intro fresh
    have same : (standing (countQueued w)).sockState = (standing w).sockState := by
      show (w.data.sock.map fun so => { so with queued := so.queued + 1 }).map (·.state) = w.data.sock.map (·.state)
      rw [Option.map_map]
      rfl
    exact same.symm.trans fresh

theorem milder_input (env : Env) (w : World) (pkt : Pkt) (duplicate : Bool)
    (alive : (inputFound env w pkt duplicate).alive) : Milder (standing w) (standing (inputFound env w pkt duplicate)) := by
  by_cases listening : w.tcb.state = .listen
  · rw [input_listen env w pkt duplicate listening]
    split
    · exact milder_count w
    · exact milder_refl _
  · obtain stays | freed := input_stays env w pkt duplicate listening
    · exact milder_stays _ _ stays
    · rw [freed.2.2] at alive
      cases alive

theorem ends_child (pkt : Pkt) : Ends (childStanding pkt) where
  listening := by
    intro listening
    cases listening
  used := by
    intro _ fresh
    cases fresh
  bound := fun _ => rfl

theorem distinct_enqueue (p : Proto) (server : Nat) (child : World) (pkt : Pkt) (born : standing child = childStanding pkt)
    (fresh : askedBy pkt ∉ assocs p) (distinct : Distinct p) : Distinct (enqueue p server child) := by
  refine distinct_change _ server _ ?_ ?_ (distinct_push p child (some server) ?_ ?_ distinct)
  · intro s t kept
    cases kept
    rfl
  · intro s _ _ t kept
    cases kept
    exact milder_tame _ _ (milder_queue s _)
  · rw [born]
    exact ends_child pkt
  · intro a gives
    rw [born] at gives
    cases gives
    exact fresh

theorem distinct_free (p : Proto) (s : Sock) (w : World) (distinct : Distinct p) : Distinct (freeSock p s w) := by
  unfold freeSock
  split
  · exact distinct_leave p s distinct
  · exact distinct

theorem fewer_dequeue (p : Proto) (server client : Nat) (distinct : Distinct p) :
    (assocs (dequeue p server client)).Sublist (assocs p) := by
  refine fewer_change p server _ ?_ distinct
  intro s _ _ t kept
  cases kept
  exact milder_tame _ _ (milder_queue s _)

theorem fewer_forget (p : Proto) (client : Nat) (distinct : Distinct p) : (assocs (forget p client)).Sublist (assocs p) := by
  refine fewer_change p client _ ?_ distinct
  intro s _ _ t kept
  cases kept
  exact milder_tame _ _ (milder_refl _)

theorem fewer_free (p : Proto) (s : Sock) (w : World) (distinct : Distinct p) :
    (assocs (freeSock p s w)).Sublist (assocs p) := by
  unfold freeSock leaveQueue
  split
  · split
    · split
      · exact (fewer_forget _ _ (distinct_dequeue p _ _ distinct)).trans (fewer_dequeue p _ _ distinct)
      · exact List.Sublist.refl _
    · exact List.Sublist.refl _
  · exact List.Sublist.refl _

theorem fewer_put (p : Proto) (s : Sock) (w : World) (distinct : Distinct p)
    (tame : w.alive → ∀ t ∈ p.datas, t.id = s.id → Tame (standing t.conn) (standing w)) :
    (assocs (put p s w)).Sublist (assocs p) := by
  refine fewer_change p s.id _ ?_ distinct
  intro t there mine t' kept
  obtain ⟨alive, rfl⟩ := settle_conn t t' w kept
  exact tame alive t there mine

theorem free_alive (p : Proto) (s : Sock) (w : World) (alive : w.alive) : freeSock p s w = p :=
  if_neg fun both => by
    rw [alive] at both
    cases both.1

theorem tame_input (env : Env) (p : Proto) (s : Sock) (pkt : Pkt) (duplicate : Bool) (numbered : Numbered p)
    (member : s ∈ p.datas) :
    (inputFound env (here p s) pkt duplicate).alive →
      ∀ t ∈ (freeSock p s (inputFound env (here p s) pkt duplicate)).datas, t.id = s.id →
        Tame (standing t.conn) (standing (inputFound env (here p s) pkt duplicate)) := by
  intro alive t there mine
  rw [free_alive p s _ alive] at there
  rw [id_inj p numbered t s there member mine]
  exact milder_tame _ _ (milder_input env (here p s) pkt duplicate alive)

theorem distinct_input_sock (env : Env) (p : Proto) (s : Sock) (pkt : Pkt) (member : s ∈ p.datas)
    (chosen : Chosen pkt.saddr pkt.tcph.srcport pkt.daddr pkt.tcph.dstport (conns p) s.conn) (distinct : Distinct p) :
    Distinct (inputSock env p s pkt) := by
  have tame := tame_input env p s pkt (checkSyn p pkt) distinct.numbered member
  have free := distinct_free p s (inputFound env (here p s) pkt (checkSyn p pkt)) distinct
  have handled := distinct_put _ s _ tame free
  unfold inputSock spawn
  dsimp only
  split
  · exact handled
  · rename_i child spawned
    obtain ⟨listening, born, -⟩ := spawn_child env (here p s) pkt (checkSyn p pkt) child spawned
    have loose := (distinct.ends s member).listening listening
    have fresh := listener_fresh p pkt s.conn distinct.ends chosen loose
    have fewer := (fewer_put _ s _ free tame).trans (fewer_free p s _ distinct)
    exact distinct_enqueue _ s.id child pkt born (fun taken => fresh (fewer.subset taken)) handled

theorem distinct_input (env : Env) (p : Proto) (pkt : Pkt) (distinct : Distinct p) : Distinct (input env p pkt) := by
  unfold input
  split
  · exact distinct_net p _ distinct
  · exact distinct_net p _ distinct
  · rename_i i handed
    split
    · exact distinct
    · rename_i s there
      obtain ⟨w, isThere, chosen⟩ := handed_chosen env (conns p) pkt i handed
      have same : (conns p)[i]? = some s.conn := by
        unfold conns
        rw [List.getElem?_map, there]
        rfl
      cases Option.some.inj (isThere.symm.trans same)
      exact distinct_input_sock env p s pkt (List.mem_of_getElem? there) chosen distinct

theorem distinct_error (p : Proto) (q : Quoted) (id : Nat) (error : IcmpError) (distinct : Distinct p) :
    Distinct (errorInput p q id error) := by
  unfold errorInput
  split
  · exact distinct_net p _ distinct
  · split
    · exact distinct
    · rename_i s there
      refine distinct_put p s _ (fun _ t isThere mine => ?_) distinct
      rw [id_inj p distinct.numbered t s isThere (List.mem_of_getElem? there) mine]
      exact stays_tame _ _ (stays_error (here p s) id error)

theorem held_mem (p : Proto) (id : Nat) (s : Sock) (held : held p id = some s) : s ∈ p.datas :=
  (get_mem p id s (Option.filter_eq_some_iff.mp held).1).1

theorem distinct_held (p : Proto) (id : Nat) (f : Sock → Proto)
    (kept : ∀ s, held p id = some s → s ∈ p.datas → Distinct (f s)) (distinct : Distinct p) : Distinct (withHeld p id f) := by
  unfold withHeld
  split
  · exact distinct
  · rename_i s found
    exact kept s found (held_mem p id s found)

theorem distinct_step (env : Env) (p : Proto) (call : Call) (distinct : Distinct p) (fair : Fair env p call) :
    Distinct (step env p call) := by
  cases call with
  | socket =>
      refine distinct_push p _ none (loose_ends _ rfl) (fun a gives => ?_) distinct
      cases gives
  | reuse id set =>
      refine distinct_held p id _ (fun s _ _ => distinct_change p s.id _ ?_ ?_ distinct) distinct
      · intro t u kept
        cases kept
        rfl
      · intro t _ _ u kept
        cases kept
        exact milder_tame _ _ (milder_refl _)
  | bind id args => exact distinct_held p id _ (fun s _ member => distinct_bind p s args member distinct) distinct
  | getname id =>
      refine distinct_held p id _ (fun s _ member => ?_) distinct
      cases bound : inetAutobind p s with
      | none => exact distinct
      | some p1 => exact distinct_autobind p p1 s member bound distinct
  | connect id args =>
      exact distinct_held p id _ (fun s found member => distinct_connect env p s args member
        (fun p1 s1 fport => fair s p1 s1 fport found) distinct) distinct
  | listen id backlog => exact distinct_held p id _ (fun s _ member => distinct_listen p s backlog member distinct) distinct
  | accept id nonblock =>
      refine distinct_held p id _ (fun s _ _ => ?_) distinct
      unfold mgxAccept
      split
      · exact distinct
      · split
        · exact distinct
        · exact distinct_accept p s nonblock distinct
  | acceptWoken id nonblock =>
      refine distinct_held p id _ (fun s _ _ => ?_) distinct
      unfold tcpAcceptWoken
      split
      · exact distinct_run p s.id clearErr (fun _ _ => milder_tame _ _ (milder_refl _)) distinct
      · exact distinct_accept p s nonblock distinct
  | shutdown id how =>
      exact distinct_held p id _ (fun s _ member => distinct_shutdown env p s how member distinct) distinct
  | close id => exact distinct_held p id _ (fun s _ _ => distinct_release env p s distinct) distinct
  | user id op =>
      dsimp only [step]
      split
      · rename_i user
        exact distinct_held p id _ (fun s _ member => distinct_user env p s op member user distinct) distinct
      · exact distinct
  | timer id op =>
      dsimp only [step]
      split
      · rename_i timer
        exact distinct_run p id _ (fun w _ => stays_tame _ _ (timer_stays env w op timer)) distinct
      · exact distinct
  | segment pkt => exact distinct_input env p pkt distinct
  | error q buf error => exact distinct_error p q buf error distinct
  | tick delta => exact distinct_net p _ distinct

theorem distinct_start (net : Net) : Distinct (start net) :=
  ⟨⟨List.Pairwise.nil, fun _ member => by cases member⟩, fun _ member => (by cases member), List.nodup_nil⟩

theorem reached_distinct (p : Proto) (reached : Reached Fair p) : Distinct p :=
  reached_invariant Fair Distinct distinct_start (fun env p call distinct fair => distinct_step env p call distinct fair) p
    reached

-- In a run of fair calls no association is there twice. A call refuses one exactly when it is there, if and only if
-- the call is fair.
theorem association_unique (p : Proto) (reached : Reached Fair p) :
    (assocs p).Nodup ∧ ∀ env id args s p1 s1 fport, held p id = some s → dialState p s args = some (p1, s1, fport) →
      (((tcpConnect env p1 s1 fport args).1 = EADDRINUSE
          ↔ Opens env s1 fport args ∧ wanted s1 fport args ∈ assocs p1)
        ↔ (Opens env s1 fport args →
          (Mirrored (conns (dialing p1 s1 args)) (wanted s1 fport args) ↔ wanted s1 fport args ∈ assocs p1))) :=
  ⟨(reached_distinct p reached).unique, fun env _ args _ p1 s1 fport _ _ => refusal_exact env p1 s1 fport args⟩

instance (socks : List World) (a : Assoc) : Decidable (Mirrored socks a) := decidable_of_iff _ (found_connected socks a)

def fairCheck (p : Proto) (id : Nat) (args : DialArgs) : Bool :=
  match held p id with
  | none => true
  | some s =>
      match dialState p s args with
      | none => true
      | some (p1, s1, fport) =>
          decide (Mirrored (conns (dialing p1 s1 args)) (wanted s1 fport args) ↔ wanted s1 fport args ∈ assocs p1)

theorem fair_of_check (env : Env) (p : Proto) (id : Nat) (args : DialArgs) (checked : fairCheck p id args) :
    Fair env p (.connect id args) := by
  intro s p1 s1 fport found state _
  unfold fairCheck at checked
  rw [found] at checked
  dsimp only at checked
  rw [state] at checked
  exact of_decide_eq_true checked

-- From the address 10.0.0.1 to port 80 of 10.0.0.2.
def toWeb : DialArgs := ⟨some ⟨AF_INET, 0x0a000002, 80⟩, SOCKADDR_LEN, 0x0a000002, 0x0a000001⟩

def toPort (port : InPort) : DialArgs := ⟨some ⟨AF_INET, 0x0a000001, port⟩, SOCKADDR_LEN, 0x0a000001, 0x0a000001⟩

def anyPort (port : InPort) : BindArgs := ⟨some ⟨AF_INET, INADDR_ANY, port⟩, SOCKADDR_LEN, true, true⟩

def oneSocket : Proto := step plainEnv (start quietNet) .socket

theorem association_unique_web : (assocs (step plainEnv oneSocket (.connect 0 toWeb))).Nodup :=
  (association_unique _ (.step plainEnv oneSocket (.connect 0 toWeb)
    (.step plainEnv (start quietNet) .socket (.start quietNet) trivial)
    (fair_of_check plainEnv oneSocket 0 toWeb (by decide +kernel)))).1

def calls (p : Proto) (ops : List Call) : Proto := runs p (ops.map fun call => (plainEnv, call))

-- Two sockets that share port 5000 both connect to the web server; and a connection from port 6000 to port 5000 is
-- refused because there is one from port 5000 to port 6000.
theorem association_twice :
    ¬ (assocs (calls (start quietNet) [.socket, .socket, .reuse 0 true, .reuse 1 true, .bind 0 (anyPort 5000),
        .bind 1 (anyPort 5000), .connect 0 toWeb, .connect 1 toWeb])).Nodup
      ∧ (let p := calls (start quietNet) [.socket, .socket, .bind 0 (anyPort 5000), .bind 1 (anyPort 6000),
          .connect 0 (toPort 6000)]
        assocs p = [(0x0a000001, 5000, 0x0a000001, 6000)]
          ∧ ((p.get 1).bind fun s => (mgxConnect plainEnv p s (toPort 5000)).map (·.1)) = some EADDRINUSE) := by
  decide +kernel

end MagxNet.Inet
