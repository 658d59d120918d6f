import MagxNet.Masquerade.Records

set_option autoImplicit false

namespace MagxNet.Masquerade

open Bytes

-- The tables stay in shape, their records are carried on, and the redirections are what they were.
structure Steady (s s' : Masq) : Prop where
  shape : Shape s'
  evolves : Evolves s s'
  redirections : redirections s' = redirections s

theorem steady_refl (s : Masq) (shape : Shape s) : Steady s s := ⟨shape, evolves_refl s, rfl⟩

theorem steady_trans (s s' s'' : Masq) (first : Steady s s') (second : Steady s' s'') : Steady s s'' :=
  ⟨second.shape, evolves_trans s s' s'' first.evolves second.evolves, second.redirections.trans first.redirections⟩

section Kept

variable (s : Masq) (r : Record) (t : Tcp)

theorem timeout_same : SameRecord r (tcpTimeout s t r) := by
  rw [tcpTimeout]
  split <;> split <;> exact ⟨rfl, rfl, rfl⟩

theorem first_in_same : SameRecord r (firstIn r t) := by
  rw [firstIn]
  split <;> exact ⟨rfl, rfl, rfl⟩

theorem rewritten_same (seq : Long) (delta : Int) : SameRecord r (rewritten r seq delta) := by
  rw [rewritten]
  split <;> exact ⟨rfl, rfl, rfl⟩

theorem in_record_same (body : Body) : SameRecord r (inRecord s r body) := by
  cases body with
  | tcp t => exact same_trans r (firstIn r t) _ (first_in_same r t) (timeout_same s (firstIn r t) t)
  | _ => exact same_refl r

theorem out_header_same (body : Body) : SameRecord r (outHeader s r body) := by
  cases body with
  | tcp t => exact timeout_same s r t
  | _ => exact same_refl r

end Kept

section Steps

variable (env : Env) (s : Masq) (shape : Shape s)

include shape in
theorem put_steady (ptr : Ptr) (r r' : Record) (here : s.get ptr = some r) (same : SameRecord r r') : Steady s (s.put r' ptr) :=
  ⟨put_shape s shape ptr r r' here same, put_evolves s ptr r r' here same, put_redirections s ptr r r' here same⟩

include shape in
theorem shrink_steady (db : PortDb) (fewer : ∀ i r, db i = some r → s.portDb i = some r) : Steady s { s with portDb := db } :=
  ⟨shrink_shape s shape db fewer, shrink_evolves s db fewer, rfl⟩

include shape in
theorem insert_steady (db : PortDb) (fewer : ∀ i r, db i = some r → s.portDb i = some r) (i : Nat) (r : Record)
    (bound : i < MASQ_NUM_PORTS) (num : r.num = BitVec.ofNat 16 i) (memory : r.memory = s.allocated) :
    Steady s { s with portDb := Function.update db i (some r), allocated := s.allocated + 1 } := by
  have shrunk := shrink_steady s shape db fewer
  exact steady_trans s _ _ shrunk
    ⟨insert_shape _ shrunk.shape i r bound num memory, insert_evolves { s with portDb := db } i r memory, rfl⟩

theorem slot_assigned (i : Nat) (r : Record) (steady : Shape s) (here : s.portDb i = some r) : Assigned s (lport r (.slot i)) r := by
  obtain ⟨bound, num⟩ := steady.nums i r here
  refine Or.inl ⟨i, bound, here, ?_⟩
  rw [lport, num, BitVec.ofNat_add]

theorem ptr_assigned (ptr : Ptr) (r : Record) (steady : Shape s) (here : s.get ptr = some r) : Assigned s (lport r ptr) r := by
  cases ptr with
  | slot i => exact slot_assigned s i r steady here
  | redirection k => exact Or.inr ⟨List.mem_of_getElem? here, rfl⟩

include shape in
theorem ftp_entry_steady (r : Record) (saddr seq : Long) (ftpPort : Port) : Steady s (ftpEntry env s r saddr seq ftpPort).2 := by
  rw [ftpEntry]
  split
  · obtain ⟨fewer, place⟩ := new_port_record_spec env.time env.allocFtp (List.range MASQ_NUM_PORTS) s.portDb
    cases new : newPortRecord env.time env.allocFtp (List.range MASQ_NUM_PORTS) s.portDb with
    | mk found db =>
        rw [new] at fewer place
        cases found with
        | none => exact shrink_steady s shape db fewer
        | some i => exact insert_steady s shape db fewer i _ (List.mem_range.mp (place i rfl)) rfl rfl
  · exact steady_refl s shape

include shape in
theorem ftp_modifier_steady (saddr : Long) (t : Tcp) : ∀ s' ∈ (ftpModifier env s saddr t).state, Steady s s' := by
  intro s' inside
  rcases ftp_modifier_state env s saddr t s' inside with rfl | ⟨r, ftpPort, rfl⟩
  · exact steady_refl s' shape
  · exact ftp_entry_steady env s shape r saddr t.seq ftpPort

include shape in
theorem note_change_steady (saddr : Long) (t : Tcp) (delta : Int) : Steady s (noteChange env s saddr t delta) := by
  rw [noteChange]
  split
  · exact steady_refl s shape
  · split
    · exact steady_refl s shape
    · rename_i r here
      exact put_steady s shape _ r _ here (rewritten_same r t.seq delta)

-- The record that an outgoing datagram is translated by: one for its endpoint, or the first redirection for its port.
def Chosen (s : Masq) (user : Endpoint) (ptr : Ptr) (r : Record) : Prop :=
  s.get ptr = some r ∧ match ptr with
    | .slot _ => endpoint r = user
    | .redirection k => findRedirectionByMasqPort s user.port = some k

include shape in
theorem out_entry_steady (saddr : Long) (srcPort dstPort : Port) (proto : Proto) (seq : Long) :
    Steady s (outEntry env s saddr srcPort dstPort proto seq).2 ∧
      ∀ ptr ∈ (outEntry env s saddr srcPort dstPort proto seq).1, ∃ r,
        Chosen (outEntry env s saddr srcPort dstPort proto seq).2 ⟨saddr, srcPort, proto⟩ ptr r := by
  rw [outEntry, lookup]
  cases redirected : findRedirectionByMasqPort s srcPort with
  | some k =>
      refine ⟨steady_refl s shape, fun ptr same => ?_⟩
      cases same
      have bound := (List.findIdx?_eq_some_iff_findIdx_eq.mp redirected).1
      exact ⟨s.redirectionDb[k], List.getElem?_eq_getElem bound, redirected⟩
  | none =>
      dsimp only
      cases found : findPortRecord env.nul s.portDb saddr srcPort dstPort proto with
      | some i =>
          refine ⟨steady_refl s shape, fun ptr same => ?_⟩
          cases same
          obtain ⟨r, here, _, equal⟩ := find_port_record_spec env.nul s.portDb saddr srcPort dstPort proto i found
          exact ⟨r, here, equal⟩
      | none =>
          dsimp only [Option.map_none]
          obtain ⟨fewer, place⟩ := new_port_record_spec env.time env.alloc (List.range MASQ_NUM_PORTS) s.portDb
          cases new : newPortRecord env.time env.alloc (List.range MASQ_NUM_PORTS) s.portDb with
          | mk slot db =>
              rw [new] at fewer place
              cases slot with
              | none => exact ⟨shrink_steady s shape db fewer, fun ptr none => by cases none⟩
              | some i =>
                  refine ⟨insert_steady s shape db fewer i _ (List.mem_range.mp (place i rfl)) rfl rfl, fun ptr same => ?_⟩
                  cases same
                  exact ⟨_, Function.update_self .., rfl⟩

-- What an outgoing datagram becomes.
structure Sent (s : Masq) (user : Endpoint) (body : Body) (res : Result) : Prop where
  steady : Steady s res.masq
  used : ∀ ptr ∈ res.used, ∃ r, Chosen res.masq user ptr r ∧ ∀ q ∈ res.buf, ∃ seqed, q.body = outBody seqed (lport r ptr) body

theorem masq_ports_same (s s' : Masq) (same : redirections s' = redirections s) (port : Port) :
    findRedirectionByMasqPort s' port = findRedirectionByMasqPort s port := by
  have general : ∀ s : Masq, findRedirectionByMasqPort s port = (redirections s).findIdx? fun x => x.2.port = port := fun s => by
    rw [findRedirectionByMasqPort, redirections, List.findIdx?_map]
    rfl
  rw [general, general, same]

include shape in
theorem outgoing_sent (p : Dgram) (srcPort dstPort : Port) (proto : Proto) (seq : Long) :
    Sent s ⟨p.saddr, srcPort, proto⟩ p.body (outgoing env s p srcPort dstPort proto seq) := by
  rw [outgoing]
  obtain ⟨steady, chosen⟩ := out_entry_steady env s shape p.saddr srcPort dstPort proto seq
  cases entry : outEntry env s p.saddr srcPort dstPort proto seq with
  | mk found s1 =>
      rw [entry] at steady chosen
      cases found with
      | none => exact ⟨steady, fun ptr none => by cases none⟩
      | some ptr =>
          obtain ⟨r, here, kind⟩ := chosen ptr rfl
          dsimp only at here ⊢
          rw [here]
          dsimp only
          generalize touched : ({ r with modified := env.time } : Record) = r1
          have same1 : SameRecord r r1 := by
            rw [← touched]
            exact ⟨rfl, rfl, rfl⟩
          have same := same_trans r r1 _ same1 (out_header_same s1 r1 p.body)
          have put := put_steady s1 steady.shape ptr r _ here same
          refine ⟨steady_trans s s1 _ steady put, fun ptr' equal => ?_⟩
          cases equal
          refine ⟨outHeader s1 r1 p.body, ⟨put_get s1 r _ ptr here, ?_⟩, fun q equal => ?_⟩
          · cases ptr with
            | slot i => exact same.endpoint.symm.trans kind
            | redirection k => exact (masq_ports_same s1 _ put.redirections srcPort).trans kind
          · cases equal
            have port : lport r1 ptr = lport (outHeader s1 r1 p.body) ptr := by
              cases ptr with
              | slot i => rw [lport, lport, (out_header_same s1 r1 p.body).num]
              | redirection k => exact (out_header_same s1 r1 p.body).num
            exact ⟨r1, by rw [port]⟩

include shape in
theorem outgoing_tcp_sent (p : Dgram) (t : Tcp) (res : Result) (body : p.body = .tcp t) (run : outgoingTcp env s p t = some res) :
    ∃ data, Sent s ⟨p.saddr, t.srcport, IPPROTO_TCP⟩ (.tcp { t with data := data }) res := by
  rw [outgoingTcp] at run
  split at run
  · have steady := ftp_modifier_steady env s shape p.saddr t
    split at run
    · cases run
    · rename_i s1 modified
      cases run
      rw [modified] at steady
      exact ⟨[], steady s1 rfl, fun ptr none => by cases none⟩
    · rename_i delta data s1 modified
      cases run
      rw [modified] at steady
      have first := steady s1 rfl
      have noted := note_change_steady env s1 first.shape p.saddr t delta
      have sent := outgoing_sent env _ noted.shape { p with body := .tcp { t with data := data } } t.srcport t.dstport IPPROTO_TCP t.seq
      exact ⟨data, steady_trans s s1 _ first (steady_trans s1 _ _ noted sent.steady), sent.used⟩
  · cases run
    have sent := outgoing_sent env s shape p t.srcport t.dstport IPPROTO_TCP t.seq
    rw [body] at sent
    exact ⟨t.data, sent⟩

include shape in
theorem incoming_steady (p : Dgram) (ptr : Ptr) : Steady s (incoming env s p ptr).masq := by
  rw [incoming]
  split
  · exact steady_refl s shape
  · rename_i r here
    generalize touched : ({ r with modified := env.time } : Record) = r1
    have same1 : SameRecord r r1 := by
      rw [← touched]
      exact ⟨rfl, rfl, rfl⟩
    exact put_steady s shape ptr r _ here (same_trans r r1 _ same1 (in_record_same s r1 p.body))

include shape in
theorem input_steady (p : Dgram) (res : Result) (run : masqIpInput env s p = some res) : Steady s res.masq := by
  rw [masqIpInput] at run
  split at run
  · cases run
    exact steady_refl s shape
  · split at run
    · cases run
      exact incoming_steady env s shape p _
    · split at run
      · split at run
        · rename_i t body
          obtain ⟨_, sent⟩ := outgoing_tcp_sent env s shape p t res body run
          exact sent.steady
        · cases run
          exact (outgoing_sent env s shape p _ 0 IPPROTO_UDP 0).steady
        · split at run
          · cases run
            exact (outgoing_sent env s shape p _ 0 IPPROTO_ICMP 0).steady
          · cases run
            exact steady_refl s shape
        · cases run
          exact steady_refl s shape
      · cases run
        exact steady_refl s shape

theorem inbound_assigned (dstPort : Port) (ptr : Ptr) (r : Record) (found : inbound env s dstPort = some ptr) (here : s.get ptr = some r) :
    Assigned s dstPort r := by
  rw [inbound] at found
  split at found
  · cases found
  · split at found
    · rename_i k redirected
      cases found
      obtain ⟨bound, num, _⟩ := List.findIdx?_eq_some_iff_getElem.mp redirected
      have same : s.redirectionDb[k] = r := Option.some.inj ((List.getElem?_eq_getElem bound).symm.trans here)
      rw [same] at num
      exact Or.inr ⟨List.mem_of_getElem? here, (of_decide_eq_true num).symm⟩
    · split at found
      · rename_i range
        cases found
        refine Or.inl ⟨dstPort.toNat - MASQ_BASE_PORT, by omega, here, ?_⟩
        rw [Nat.add_sub_cancel' range.1]
        exact BitVec.eq_of_toNat_eq (by simp)
      · cases found

end Steps

-- What has been given is still what the records stand for.
structure Inv (s : Masq) (given : List Grant) : Prop where
  shape : Shape s
  grants : ∀ g ∈ given, g.memory < s.allocated ∧ ∀ port r, Assigned s port r → r.memory = g.memory → endpoint r = g.user ∧ port = g.port

section Invariant

variable (s : Masq) (given : List Grant) (inv : Inv s given)

include inv in
theorem steady_grants (s' : Masq) (shape : Shape s') (evolves : Evolves s s') : Inv s' given := by
  refine ⟨shape, fun g member => ?_⟩
  obtain ⟨bound, kept⟩ := inv.grants g member
  refine ⟨bound.trans_le evolves.allocated, fun port r' assigned same => ?_⟩
  rcases evolves.records port r' assigned with ⟨r, before, memory, equal⟩ | ⟨lower, _⟩
  · obtain ⟨user, here⟩ := kept port r before (memory.trans same)
    exact ⟨equal.symm.trans user, here⟩
  · omega

include inv in
theorem inv_isolated : Isolated s given := by
  rintro g inG g' inG' ⟨port, r, assigned, memory⟩ ⟨port', r', assigned', memory'⟩ same
  obtain ⟨user, here⟩ := (inv.grants g inG).2 port r assigned memory
  obtain ⟨user', here'⟩ := (inv.grants g' inG').2 port' r' assigned' memory'
  have equal : port = port' := here.trans (same.trans here'.symm)
  rw [← user, ← user', assigned_unique s inv.shape port r r' assigned (equal ▸ assigned')]

theorem in_body_ports (r : Record) (body : Body) (srcPort dstPort : Port) (proto : Proto) (some' : ports body = some (srcPort, dstPort, proto)) :
    ∃ r', ports (inBody r' body) = some (srcPort, r'.masqPort, proto) ∧ r' = r := by
  cases body with
  | tcp t =>
      cases some'
      exact ⟨r, rfl, rfl⟩
  | udp src dst =>
      cases some'
      exact ⟨r, rfl, rfl⟩
  | icmp => cases some'
  | other => cases some'

theorem ports_in_port (body : Body) (srcPort dstPort : Port) (proto : Proto) (some' : ports body = some (srcPort, dstPort, proto)) :
    inPort body = some dstPort := by
  cases body with
  | tcp t =>
      cases some'
      rfl
  | udp src dst =>
      cases some'
      rfl
  | icmp => cases some'
  | other => cases some'

include inv in
theorem inv_delivered (env : Env) (p : Dgram) (meets : Meets s (.input env p)) : Delivered s given env p := by
  intro srcPort dstPort proto ptr res q some' found run out
  have condition := meets srcPort dstPort proto some'
  rw [found] at condition
  dsimp only at condition
  rw [masqIpInput, ports_in_port p.body srcPort dstPort proto some'] at run
  dsimp only at run
  rw [found] at run
  cases run
  rw [incoming] at out
  split at out
  · cases out
  · rename_i r here
    cases out
    have assigned := inbound_assigned env s dstPort ptr r found here
    have same := condition r here
    obtain ⟨r', equal, rfl⟩ := in_body_ports { r with modified := env.time } p.body srcPort dstPort proto some'
    have user : endpoint r = ⟨r.masqAddr, r.masqPort, proto⟩ := by rw [endpoint, same]
    refine ⟨srcPort, r.masqPort, proto, equal, ⟨r, assigned⟩, fun r2 other => ?_, fun g member live port => ?_⟩
    · rw [← assigned_unique s inv.shape dstPort r r2 assigned other]
      exact user
    · obtain ⟨port2, r2, assigned2, memory⟩ := live
      obtain ⟨user2, here2⟩ := (inv.grants g member).2 port2 r2 assigned2 memory
      have equal2 : port2 = dstPort := here2.trans port
      rw [← user2, ← assigned_unique s inv.shape dstPort r r2 assigned (equal2 ▸ assigned2)]
      exact user

theorem redirection_kept (s' : Masq) (same : redirections s' = redirections s) (k : Nat) (r : Record) (here : s'.redirectionDb[k]? = some r) :
    ∃ r0, s.redirectionDb[k]? = some r0 ∧ endpoint r0 = endpoint r := by
  have at_k := congrArg (·[k]?) same
  simp only [redirections, List.getElem?_map, here, Option.map_some] at at_k
  obtain ⟨r0, before, equal⟩ := Option.map_eq_some_iff.mp at_k.symm
  exact ⟨r0, before, congrArg Prod.snd equal⟩

-- The record that is chosen is that of the endpoint the datagram comes from.
theorem chosen_endpoint (s' : Masq) (same : redirections s' = redirections s) (user : Endpoint) (ptr : Ptr) (r : Record)
    (chosen : Chosen s' user ptr r)
    (own : ∀ k r, findRedirectionByMasqPort s user.port = some k → s.redirectionDb[k]? = some r →
      r.masqAddr = user.addr ∧ r.proto = user.proto) : endpoint r = user := by
  obtain ⟨here, kind⟩ := chosen
  cases ptr with
  | slot i => exact kind
  | redirection k =>
      have found : findRedirectionByMasqPort s user.port = some k := (masq_ports_same s s' same user.port).symm.trans kind
      obtain ⟨r0, before, equal⟩ := redirection_kept s s' same k r here
      obtain ⟨addr, proto⟩ := own k r0 found before
      obtain ⟨bound, num, _⟩ := List.findIdx?_eq_some_iff_getElem.mp found
      have same0 : s.redirectionDb[k] = r0 := Option.some.inj ((List.getElem?_eq_getElem bound).symm.trans before)
      rw [same0] at num
      rw [← equal, endpoint, addr, of_decide_eq_true num, proto]

theorem sent_granted (user : Endpoint) (body : Body) (res : Result) (sent : Sent s user body res) (r : Record)
    (port dst dst' : Port) (proto proto' : Proto) (some' : ports body = some (user.port, dst, proto))
    (used : res.used.bind res.masq.get = some r) (out : (res.buf.bind fun q => ports q.body) = some (port, dst', proto'))
    (own : ∀ k r, findRedirectionByMasqPort s user.port = some k → s.redirectionDb[k]? = some r →
      r.masqAddr = user.addr ∧ r.proto = user.proto) : Assigned res.masq port r ∧ endpoint r = user := by
  obtain ⟨ptr, isUsed, here⟩ := Option.bind_eq_some_iff.mp used
  obtain ⟨q, isOut, outPorts⟩ := Option.bind_eq_some_iff.mp out
  obtain ⟨r', chosen, translated⟩ := sent.used ptr isUsed
  obtain rfl : r' = r := Option.some.inj (chosen.1.symm.trans here)
  obtain ⟨seqed, changed⟩ := translated q isOut
  have named : port = lport r' ptr := by
    rw [changed] at outPorts
    cases body with
    | tcp t =>
        cases outPorts
        rfl
    | udp src dst =>
        cases outPorts
        rfl
    | icmp => cases some'
    | other => cases some'
  exact ⟨named ▸ ptr_assigned res.masq ptr r' sent.steady.shape chosen.1,
    chosen_endpoint s res.masq sent.steady.redirections user ptr r' chosen own⟩

theorem granted_spec (env : Env) (p : Dgram) (shape : Shape s) (meets : Meets s (.input env p)) (g : Grant)
    (given' : granted env s p = some g) (res : Result) (run : masqIpInput env s p = some res) :
    ∃ r, Assigned res.masq g.port r ∧ r.memory = g.memory ∧ endpoint r = g.user := by
  rw [granted, run] at given'
  split at given'
  · rename_i srcPort dstPort proto res' some' same
    cases same
    split at given'
    · rename_i r port dst' proto' far used out
      cases given'
      have condition := meets srcPort dstPort proto some'
      rw [far] at condition
      dsimp only at condition
      rw [masqIpInput, ports_in_port p.body srcPort dstPort proto some'] at run
      dsimp only at run
      rw [far] at run
      dsimp only at run
      split at run
      · rename_i own
        have match' := condition own
        split at run
        · rename_i t body
          obtain ⟨data, sent⟩ := outgoing_tcp_sent env s shape p t _ body run
          rw [body] at some'
          cases some'
          obtain ⟨assigned, user⟩ := sent_granted s _ _ _ sent r port t.dstport dst' IPPROTO_TCP proto' rfl used out match'
          exact ⟨r, assigned, rfl, user⟩
        · rename_i src dst body
          cases run
          have sent := outgoing_sent env s shape p src 0 IPPROTO_UDP 0
          rw [body] at some' sent
          cases some'
          obtain ⟨assigned, user⟩ := sent_granted s _ _ _ sent r port _ dst' IPPROTO_UDP proto' rfl used out match'
          exact ⟨r, assigned, rfl, user⟩
        · rename_i body
          rw [body] at some'
          cases some'
        · rename_i body
          rw [body] at some'
          cases some'
      · cases run
        cases used
    · cases given'
  · cases given'

-- One grant more.
theorem grant_inv (g : Grant) (inv : Inv s given) (r : Record) (assigned : Assigned s g.port r) (memory : r.memory = g.memory)
    (user : endpoint r = g.user) : Inv s (g :: given) := by
  refine ⟨inv.shape, fun g' member => ?_⟩
  rcases List.mem_cons.mp member with rfl | old
  · refine ⟨memory ▸ inv.shape.memory _ r assigned, fun port r' assigned' same => ?_⟩
    have here := inv.shape.distinct port r' g'.port r assigned' assigned (same.trans memory.symm)
    have equal := assigned_unique s inv.shape port r' r assigned' (here ▸ assigned)
    exact ⟨equal ▸ user, here⟩
  · exact inv.grants g' old

theorem step_inv (cmd : Cmd) (s' : Masq) (inv : Inv s given) (meets : Meets s cmd) (run : step s cmd = some s') :
    Inv s' (grants s cmd ++ given) := by
  cases cmd with
  | input env p =>
      obtain ⟨res, done, rfl⟩ := Option.map_eq_some_iff.mp run
      have steady := input_steady env s inv.shape p res done
      have kept := steady_grants s given inv res.masq steady.shape steady.evolves
      rw [grants]
      cases new : granted env s p with
      | none => exact kept
      | some g =>
          obtain ⟨r, assigned, memory, user⟩ := granted_spec s env p inv.shape meets g new res done
          exact grant_inv res.masq given g kept r assigned memory user
  | redirect r =>
      cases run
      obtain ⟨outside, others⟩ := meets
      have records : ∀ port r', Assigned (newRedirection s r) port r' →
          (port = r.num ∧ r' = { r with memory := s.allocated }) ∨ Assigned s port r' := by
        intro port r' assigned
        rcases assigned with slot | ⟨member, same⟩
        · exact Or.inr (Or.inl slot)
        · rcases List.mem_cons.mp member with rfl | old
          · exact Or.inl ⟨same, rfl⟩
          · exact Or.inr (Or.inr ⟨old, same⟩)
      have carried := allocated_memory s inv.shape (newRedirection s r) r.num { r with memory := s.allocated } rfl rfl records
      refine steady_grants s given inv _ ⟨inv.shape.nums, ?_, fun r' member => ?_, carried.1, carried.2⟩ ⟨Nat.le_succ _, fun port r' assigned => ?_⟩
      · exact List.pairwise_cons.mpr ⟨fun r' member => (others r' member).symm, inv.shape.apart⟩
      · rcases List.mem_cons.mp member with rfl | old
        · exact outside
        · exact inv.shape.outside r' old
      · rcases records port r' assigned with ⟨_, rfl⟩ | old
        · exact Or.inr ⟨le_refl _, Nat.lt_succ_self _⟩
        · exact Or.inl ⟨r', old, rfl, rfl⟩
  | unredirect k =>
      cases run
      have fewer : (s.redirectionDb.eraseIdx k).Sublist s.redirectionDb := List.eraseIdx_sublist ..
      have evolves : Evolves s (deleteRedirection s k) := by
        refine ⟨le_refl _, fun port r' assigned => Or.inl ⟨r', ?_, rfl, rfl⟩⟩
        rcases assigned with slot | ⟨member, same⟩
        · exact Or.inl slot
        · exact Or.inr ⟨fewer.subset member, same⟩
      have carried := evolves_memory s inv.shape (deleteRedirection s k) evolves rfl
      exact steady_grants s given inv _ ⟨inv.shape.nums, inv.shape.apart.sublist fewer,
        fun r' member => inv.shape.outside r' (fewer.subset member), carried.1, carried.2⟩ evolves
  | purge time =>
      cases run
      have steady := shrink_steady s inv.shape _ (purge_fewer time (List.range MASQ_NUM_PORTS) s.portDb)
      exact steady_grants s given inv _ steady.shape steady.evolves
  | configure addr mask flags tcpFirst tcpAck tcpFin udp icmp =>
      cases run
      exact steady_grants s given inv _
        ⟨inv.shape.nums, inv.shape.apart, inv.shape.outside, inv.shape.memory, inv.shape.distinct⟩ ⟨le_refl _, fun _ r' assigned =>
          Or.inl ⟨r', assigned, rfl, rfl⟩⟩

end Invariant

theorem initial_inv : Inv initial [] := by
  have none : ∀ port r, ¬ Assigned initial port r := by
    rintro port r (⟨_, _, here, _⟩ | ⟨member, _⟩)
    · cases here
    · exact absurd member List.not_mem_nil
  refine ⟨⟨fun _ _ here => ?_, List.Pairwise.nil, fun _ member => absurd member List.not_mem_nil,
    fun port r assigned => absurd assigned (none port r), fun port r _ _ assigned => absurd assigned (none port r)⟩,
    fun _ member => absurd member List.not_mem_nil⟩
  cases here

theorem reached_inv (s : Masq) (given : List Grant) (reached : Reached Meets s given) : Inv s given := by
  induction reached with
  | start => exact initial_inv
  | step s s' given cmd _ yes run inv => exact step_inv s given cmd s' inv yes run

theorem nat_isolated (s : Masq) (given : List Grant) (reached : Reached Meets s given) :
    Isolated s given ∧ ∀ env p, Meets s (.input env p) → Delivered s given env p :=
  have inv := reached_inv s given reached
  ⟨inv_isolated s given inv, fun env p meets => inv_delivered s given inv env p meets⟩

section Sample

-- The network 10.0.0.0 is masqueraded, and TCP port 8080 is redirected to port 80 of 10.0.0.1.
def network : Cmd := .configure 0x0a000000 0xff000000 1 12000 720000 102000 12000 12000

def webServer : Record where
  memory := 0
  num := 8080
  masqAddr := 0x0a000001
  masqPort := 80
  dstPort := 0
  proto := IPPROTO_TCP
  modified := 0
  timeout := 0
  offs := 0
  prevOffs := 0
  seq := 0

def away : Env := ⟨1000, webServer, true, true, true, false, 0xc0a80001, []⟩

-- A segment that a host sends from its port 80.
def segment (saddr : Long) : Dgram := ⟨saddr, 0xc6336401, .tcp ⟨80, 1234, 7, 9, false, false, false, []⟩⟩

theorem nat_isolated_web : ∃ s given, given = [⟨⟨0x0a000001, 80, IPPROTO_TCP⟩, 8080, 0⟩] ∧ Isolated s given := by
  have configured := Reached.step _ _ [] network (Reached.start : Reached Meets initial []) trivial rfl
  have redirected := Reached.step _ _ _ (.redirect webServer) configured ⟨by decide, fun _ member => absurd member List.not_mem_nil⟩ rfl
  have sent := Reached.step _ _ _ (.input away (segment 0x0a000001)) redirected (fun srcPort dstPort proto some' => by
    cases some'
    intro _ k r found here
    cases found
    cases here
    exact ⟨rfl, rfl⟩) rfl
  exact ⟨_, _, rfl, (nat_isolated _ _ sent).1⟩

-- Another host that sends from its port 80 gets the same port.
theorem nat_not_isolated : ¬ ∀ s given, Reached (fun _ _ => True) s given →
    Isolated s given ∧ ∀ env p, Delivered s given env p := by
  intro all
  have configured := Reached.step _ _ [] network (Reached.start : Reached (fun _ _ => True) initial []) trivial rfl
  have redirected := Reached.step _ _ _ (.redirect webServer) configured trivial rfl
  have first := Reached.step _ _ _ (.input away (segment 0x0a000001)) redirected trivial rfl
  have second := Reached.step _ _ _ (.input away (segment 0x0a000002)) first trivial rfl
  have live : ∀ s : Masq, ∀ g : Grant, ∀ r ∈ s.redirectionDb, r.memory = g.memory → Live s g := fun s g r member memory =>
    ⟨r.num, r, Or.inr ⟨member, rfl⟩, memory⟩
  have same := (all _ _ second).1 ⟨⟨0x0a000002, 80, IPPROTO_TCP⟩, 8080, 0⟩ (List.mem_cons_self ..)
    ⟨⟨0x0a000001, 80, IPPROTO_TCP⟩, 8080, 0⟩ (List.mem_cons_of_mem _ (List.mem_cons_self ..))
    (live _ _ _ (List.mem_cons_self ..) rfl) (live _ _ _ (List.mem_cons_self ..) rfl) rfl
  cases same

end Sample

end MagxNet.Masquerade
