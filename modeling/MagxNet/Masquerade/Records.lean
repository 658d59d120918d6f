import MagxNet.Masquerade.Input

set_option autoImplicit false

namespace MagxNet.Masquerade

open Bytes

-- A datagram comes in, or /dev/masquerade is written to: a redirection is added or taken away, old records are purged, or
-- the numbers at its positions 2 to 9 are set.
inductive Cmd where
  | input (env : Env) (p : Dgram)
  | redirect (r : Record)
  | unredirect (k : Nat)
  | purge (time : Long)
  | configure (addr mask flags tcpFirst tcpAck tcpFin udp icmp : Long)

def step (s : Masq) : Cmd → Option Masq
  | .input env p => (masqIpInput env s p).map Result.masq
  | .redirect r => some (newRedirection s r)
  | .unredirect k => some (deleteRedirection s k)
  | .purge time => some { s with portDb := purgePortRecords time (List.range MASQ_NUM_PORTS) s.portDb }
  | .configure addr mask flags tcpFirst tcpAck tcpFin udp icmp => some { s with
      addr := addr, mask := mask, flags := flags, tcpFirstTimeout := tcpFirst, tcpAckTimeout := tcpAck, tcpFinTimeout := tcpFin,
      udpTimeout := udp, icmpTimeout := icmp }

def initial : Masq where
  addr := 0
  mask := 0
  flags := 4
  tcpFirstTimeout := 12000
  tcpAckTimeout := 720000
  tcpFinTimeout := 102000
  udpTimeout := 12000
  icmpTimeout := 12000
  portDb _ := none
  redirectionDb := []
  allocated := 0

structure Endpoint where
  addr : Long
  port : Port
  proto : Proto
deriving DecidableEq, Repr

def endpoint (r : Record) : Endpoint := ⟨r.masqAddr, r.masqPort, r.proto⟩

-- The source and the destination port and the protocol of a TCP or UDP datagram.
def ports : Body → Option (Port × Port × Proto)
  | .tcp t => some (t.srcport, t.dstport, IPPROTO_TCP)
  | .udp srcport dstport => some (srcport, dstport, IPPROTO_UDP)
  | _ => none

-- A datagram of user has got port by the record in memory.
structure Grant where
  user : Endpoint
  port : Port
  memory : Nat
deriving DecidableEq, Repr

-- What masq_ip_input has given to an outgoing datagram.
def granted (env : Env) (s : Masq) (p : Dgram) : Option Grant :=
  match ports p.body, masqIpInput env s p with
  | some (srcPort, dstPort, proto), some res =>
      match inbound env s dstPort, res.used.bind res.masq.get, res.buf.bind fun q => ports q.body with
      | none, some r, some (port, _, _) => some ⟨⟨p.saddr, srcPort, proto⟩, port, r.memory⟩
      | _, _, _ => none
  | _, _ => none

def grants (s : Masq) : Cmd → List Grant
  | .input env p => (granted env s p).toList
  | _ => []

-- The states that runs lead to whose steps are all allowed, and the ports that have been given.
inductive Reached (allowed : Masq → Cmd → Prop) : Masq → List Grant → Prop
  | start : Reached allowed initial []
  | step (s s' : Masq) (given : List Grant) (cmd : Cmd) (reached : Reached allowed s given) (yes : allowed s cmd)
      (run : step s cmd = some s') : Reached allowed s' (grants s cmd ++ given)

-- The record r stands for port.
def Assigned (s : Masq) (port : Port) (r : Record) : Prop :=
  (∃ i < MASQ_NUM_PORTS, s.portDb i = some r ∧ port = BitVec.ofNat 16 (MASQ_BASE_PORT + i)) ∨ (r ∈ s.redirectionDb ∧ port = r.num)

-- A grant is live as long as its record is there.
def Live (s : Masq) (g : Grant) : Prop := ∃ port r, Assigned s port r ∧ r.memory = g.memory

-- No port is that of two live endpoints.
def Isolated (s : Masq) (given : List Grant) : Prop :=
  ∀ g ∈ given, ∀ g' ∈ given, Live s g → Live s g' → g.port = g'.port → g.user = g'.user

-- An incoming TCP or UDP datagram that is translated goes where its port is assigned to, and to whom it was given.
def Delivered (s : Masq) (given : List Grant) (env : Env) (p : Dgram) : Prop :=
  ∀ srcPort dstPort proto ptr res q, ports p.body = some (srcPort, dstPort, proto) → inbound env s dstPort = some ptr →
    masqIpInput env s p = some res → res.buf = some q →
      ∃ srcPort' dstPort' proto', ports q.body = some (srcPort', dstPort', proto') ∧ (∃ r, Assigned s dstPort r) ∧
        (∀ r, Assigned s dstPort r → endpoint r = ⟨q.daddr, dstPort', proto'⟩) ∧
        ∀ g ∈ given, Live s g → g.port = dstPort → g.user = ⟨q.daddr, dstPort', proto'⟩

-- A redirection that an outgoing datagram is sent by is that of its own address and protocol; an incoming datagram has the
-- protocol of the record of its port; no redirection is made for a port that can be given otherwise.
def Meets (s : Masq) : Cmd → Prop
  | .input env p => ∀ srcPort dstPort proto, ports p.body = some (srcPort, dstPort, proto) →
      match inbound env s dstPort with
      | some ptr => ∀ r, s.get ptr = some r → r.proto = proto
      | none => outbound env s p → ∀ k r, findRedirectionByMasqPort s srcPort = some k → s.redirectionDb[k]? = some r →
          r.masqAddr = p.saddr ∧ r.proto = proto
  | .redirect r => ¬ (MASQ_BASE_PORT ≤ r.num.toNat ∧ r.num.toNat < MASQ_BASE_PORT + MASQ_NUM_PORTS) ∧
      ∀ r' ∈ s.redirectionDb, r'.num ≠ r.num
  | _ => True

-- The places of the table have their numbers, the redirections have ports of their own, and no two records are in
-- the same memory.
structure Shape (s : Masq) : Prop where
  nums : ∀ i r, s.portDb i = some r → i < MASQ_NUM_PORTS ∧ r.num = BitVec.ofNat 16 i
  apart : s.redirectionDb.Pairwise fun r r' => r.num ≠ r'.num
  outside : ∀ r ∈ s.redirectionDb, ¬ (MASQ_BASE_PORT ≤ r.num.toNat ∧ r.num.toNat < MASQ_BASE_PORT + MASQ_NUM_PORTS)
  memory : ∀ port r, Assigned s port r → r.memory < s.allocated
  distinct : ∀ port r port' r', Assigned s port r → Assigned s port' r' → r.memory = r'.memory → port = port'

-- Every record of s' is one of s, for the same port and the same endpoint, or has been allocated since.
structure Evolves (s s' : Masq) : Prop where
  allocated : s.allocated ≤ s'.allocated
  records : ∀ port r', Assigned s' port r' →
    (∃ r, Assigned s port r ∧ r.memory = r'.memory ∧ endpoint r = endpoint r') ∨ (s.allocated ≤ r'.memory ∧ r'.memory < s'.allocated)

theorem slot_port (i : Nat) (bound : i < MASQ_NUM_PORTS) : (BitVec.ofNat 16 (MASQ_BASE_PORT + i)).toNat = MASQ_BASE_PORT + i := by
  have small : MASQ_BASE_PORT + i < 2 ^ 16 := by
    dsimp only [MASQ_BASE_PORT, MASQ_NUM_PORTS] at bound ⊢
    omega
  rw [BitVec.toNat_ofNat, Nat.mod_eq_of_lt small]

theorem pairwise_unique {α : Type} (f : α → Port) (l : List α) (apart : l.Pairwise fun x y => f x ≠ f y) (x y : α) (inX : x ∈ l)
    (inY : y ∈ l) (same : f x = f y) : x = y := by
  induction l with
  | nil => exact absurd inX List.not_mem_nil
  | cons z rest next =>
      obtain ⟨first, later⟩ := List.pairwise_cons.mp apart
      rcases List.mem_cons.mp inX with rfl | oldX
      · rcases List.mem_cons.mp inY with rfl | oldY
        · rfl
        · exact absurd same (first y oldY)
      · rcases List.mem_cons.mp inY with rfl | oldY
        · exact absurd same.symm (first x oldX)
        · exact next later oldX oldY

theorem assigned_unique (s : Masq) (shape : Shape s) (port : Port) (r r' : Record) (first : Assigned s port r)
    (second : Assigned s port r') : r = r' := by
  rcases first with ⟨i, bound, here, rfl⟩ | ⟨member, rfl⟩
  · rcases second with ⟨j, bound', here', same⟩ | ⟨member', same⟩
    · have equal := congrArg BitVec.toNat same
      rw [slot_port i bound, slot_port j bound'] at equal
      obtain rfl : i = j := by omega
      exact Option.some.inj (here.symm.trans here')
    · refine absurd ?_ (shape.outside r' member')
      rw [← same, slot_port i bound]
      omega
  · rcases second with ⟨j, bound', here', same⟩ | ⟨member', same⟩
    · refine absurd ?_ (shape.outside r member)
      rw [same, slot_port j bound']
      omega
    · exact pairwise_unique Record.num s.redirectionDb shape.apart r r' member member' same

theorem evolves_refl (s : Masq) : Evolves s s := ⟨le_refl _, fun _ r' assigned => Or.inl ⟨r', assigned, rfl, rfl⟩⟩

theorem evolves_trans (s s' s'' : Masq) (first : Evolves s s') (second : Evolves s' s'') : Evolves s s'' := by
  refine ⟨first.allocated.trans second.allocated, fun port r'' assigned => ?_⟩
  rcases second.records port r'' assigned with ⟨r', assigned', memory', same'⟩ | ⟨lower, upper⟩
  · rcases first.records port r' assigned' with ⟨r, assigned0, memory, same⟩ | ⟨lower, upper⟩
    · exact Or.inl ⟨r, assigned0, memory.trans memory', same.trans same'⟩
    · exact Or.inr ⟨memory' ▸ lower, memory' ▸ upper.trans_le second.allocated⟩
  · exact Or.inr ⟨first.allocated.trans lower, upper⟩

section Changes

variable (s : Masq) (shape : Shape s)

-- Records are taken out of the table.
theorem shrink_evolves (db : PortDb) (fewer : ∀ i r, db i = some r → s.portDb i = some r) :
    Evolves s { s with portDb := db } := by
  refine ⟨le_refl _, fun port r assigned => Or.inl ⟨r, ?_, rfl, rfl⟩⟩
  rcases assigned with ⟨i, bound, here, same⟩ | old
  · exact Or.inl ⟨i, bound, fewer i r here, same⟩
  · exact Or.inr old

include shape in
-- No record is allocated.
theorem evolves_memory (s' : Masq) (evolves : Evolves s s') (same : s'.allocated = s.allocated) :
    (∀ port r, Assigned s' port r → r.memory < s'.allocated) ∧
      ∀ port r port' r', Assigned s' port r → Assigned s' port' r' → r.memory = r'.memory → port = port' := by
  have old : ∀ port r', Assigned s' port r' → ∃ r, Assigned s port r ∧ r.memory = r'.memory := by
    intro port r' assigned
    rcases evolves.records port r' assigned with ⟨r, before, memory, _⟩ | ⟨lower, upper⟩
    · exact ⟨r, before, memory⟩
    · omega
  refine ⟨fun port r assigned => ?_, fun port r port' r' assigned assigned' equal => ?_⟩
  · obtain ⟨r0, before, memory⟩ := old port r assigned
    have bound := shape.memory port r0 before
    omega
  · obtain ⟨r0, before, memory⟩ := old port r assigned
    obtain ⟨r1, before', memory'⟩ := old port' r' assigned'
    exact shape.distinct port r0 port' r1 before before' (memory.trans (equal.trans memory'.symm))

include shape in
theorem shrink_shape (db : PortDb) (fewer : ∀ i r, db i = some r → s.portDb i = some r) : Shape { s with portDb := db } :=
  have carried := evolves_memory s shape { s with portDb := db } (shrink_evolves s db fewer) rfl
  ⟨fun i r here => shape.nums i r (fewer i r here), shape.apart, shape.outside, carried.1, carried.2⟩

-- A new record is put into the table.
theorem insert_evolves (i : Nat) (r : Record) (memory : r.memory = s.allocated) :
    Evolves s { s with portDb := Function.update s.portDb i (some r), allocated := s.allocated + 1 } := by
  refine ⟨Nat.le_succ _, fun port r' assigned => ?_⟩
  rcases assigned with ⟨j, bound, here, same⟩ | old
  · dsimp only at here
    by_cases place : j = i
    · rw [place, Function.update_self] at here
      cases here
      exact Or.inr ⟨memory.ge, by dsimp only; omega⟩
    · rw [Function.update_of_ne place] at here
      exact Or.inl ⟨r', Or.inl ⟨j, bound, here, same⟩, rfl, rfl⟩
  · exact Or.inl ⟨r', Or.inr old, rfl, rfl⟩

include shape in
-- The record that is allocated last is in a memory of its own.
theorem allocated_memory (s' : Masq) (fresh : Port) (r : Record) (memory : r.memory = s.allocated)
    (allocated : s'.allocated = s.allocated + 1)
    (records : ∀ port r', Assigned s' port r' → (port = fresh ∧ r' = r) ∨ Assigned s port r') :
    (∀ port r', Assigned s' port r' → r'.memory < s'.allocated) ∧
      ∀ port r' port' r'', Assigned s' port r' → Assigned s' port' r'' → r'.memory = r''.memory → port = port' := by
  refine ⟨fun port r' assigned => ?_, fun port r' port' r'' assigned assigned' equal => ?_⟩
  · rcases records port r' assigned with ⟨_, rfl⟩ | old
    · omega
    · have bound := shape.memory port r' old
      omega
  · rcases records port r' assigned with ⟨here, rfl⟩ | old
    · rcases records port' r'' assigned' with ⟨here', _⟩ | old'
      · exact here.trans here'.symm
      · have bound := shape.memory port' r'' old'
        omega
    · rcases records port' r'' assigned' with ⟨_, rfl⟩ | old'
      · have bound := shape.memory port r' old
        omega
      · exact shape.distinct port r' port' r'' old old' equal

include shape in
theorem insert_shape (i : Nat) (r : Record) (bound : i < MASQ_NUM_PORTS) (num : r.num = BitVec.ofNat 16 i)
    (memory : r.memory = s.allocated) :
    Shape { s with portDb := Function.update s.portDb i (some r), allocated := s.allocated + 1 } := by
  have carried := allocated_memory s shape { s with portDb := Function.update s.portDb i (some r), allocated := s.allocated + 1 }
    (BitVec.ofNat 16 (MASQ_BASE_PORT + i)) r memory rfl fun port r' assigned => by
      rcases assigned with ⟨j, bound, here, same⟩ | old
      · dsimp only at here
        by_cases place : j = i
        · rw [place, Function.update_self] at here
          cases here
          exact Or.inl ⟨place ▸ same, rfl⟩
        · rw [Function.update_of_ne place] at here
          exact Or.inr (Or.inl ⟨j, bound, here, same⟩)
      · exact Or.inr (Or.inr old)
  refine ⟨fun j r' here => ?_, shape.apart, shape.outside, carried.1, carried.2⟩
  dsimp only at here
  by_cases place : j = i
  · rw [place, Function.update_self] at here
    cases here
    exact ⟨place ▸ bound, place ▸ num⟩
  · rw [Function.update_of_ne place] at here
    exact shape.nums j r' here

-- A record is changed in place, but not its port, its endpoint or its memory.
structure SameRecord (r r' : Record) : Prop where
  memory : r.memory = r'.memory
  num : r.num = r'.num
  endpoint : endpoint r = endpoint r'

theorem same_refl (r : Record) : SameRecord r r := ⟨rfl, rfl, rfl⟩

theorem same_trans (r r' r'' : Record) (first : SameRecord r r') (second : SameRecord r' r'') : SameRecord r r'' :=
  ⟨first.memory.trans second.memory, first.num.trans second.num, first.endpoint.trans second.endpoint⟩

theorem set_same {α β : Type} (f : α → β) (l : List α) (k : Nat) (x x' : α) (here : l[k]? = some x) (same : f x = f x') :
    (l.set k x').map f = l.map f := by
  refine List.ext_getElem? fun j => ?_
  rw [List.getElem?_map, List.getElem?_map, List.getElem?_set]
  by_cases place : k = j
  · have bound : k < l.length := (List.getElem?_eq_some_iff.mp here).1
    rw [if_pos place, if_pos (place ▸ bound), ← place, here, Option.map_some, Option.map_some, same]
  · rw [if_neg place]

theorem put_evolves (ptr : Ptr) (r r' : Record) (here : s.get ptr = some r) (same : SameRecord r r') : Evolves s (s.put r' ptr) := by
  have old : ∀ port, Assigned s port r → ∃ r0, Assigned s port r0 ∧ r0.memory = r'.memory ∧ endpoint r0 = endpoint r' := fun _ assigned =>
    ⟨r, assigned, same.memory, same.endpoint⟩
  cases ptr with
  | slot i =>
      refine ⟨le_refl _, fun port r2 assigned => Or.inl ?_⟩
      rcases assigned with ⟨j, bound, there, equal⟩ | member
      · dsimp only [Masq.put] at there
        by_cases place : j = i
        · rw [place, Function.update_self] at there
          cases there
          exact old port (Or.inl ⟨i, place ▸ bound, here, place ▸ equal⟩)
        · rw [Function.update_of_ne place] at there
          exact ⟨r2, Or.inl ⟨j, bound, there, equal⟩, rfl, rfl⟩
      · exact ⟨r2, Or.inr member, rfl, rfl⟩
  | redirection k =>
      refine ⟨le_refl _, fun port r2 assigned => Or.inl ?_⟩
      rcases assigned with slot | ⟨member, rfl⟩
      · exact ⟨r2, Or.inl slot, rfl, rfl⟩
      · rcases List.mem_or_eq_of_mem_set member with other | rfl
        · exact ⟨r2, Or.inr ⟨other, rfl⟩, rfl, rfl⟩
        · exact old _ (Or.inr ⟨List.mem_of_getElem? here, same.num.symm⟩)

include shape in
theorem put_shape (ptr : Ptr) (r r' : Record) (here : s.get ptr = some r) (same : SameRecord r r') : Shape (s.put r' ptr) := by
  have carried := evolves_memory s shape (s.put r' ptr) (put_evolves s ptr r r' here same) (by cases ptr <;> rfl)
  cases ptr with
  | slot i =>
      obtain ⟨bound, num⟩ := shape.nums i r here
      refine ⟨fun j r2 there => ?_, shape.apart, shape.outside, carried.1, carried.2⟩
      dsimp only [Masq.put] at there
      by_cases place : j = i
      · rw [place, Function.update_self] at there
        cases there
        exact ⟨place ▸ bound, place ▸ same.num ▸ num⟩
      · rw [Function.update_of_ne place] at there
        exact shape.nums j r2 there
  | redirection k =>
      have nums : (s.redirectionDb.set k r').map Record.num = s.redirectionDb.map Record.num :=
        set_same Record.num s.redirectionDb k r r' here same.num
      refine ⟨shape.nums, ?_, fun r2 member => ?_, carried.1, carried.2⟩
      · have apart := shape.apart
        rw [← List.pairwise_map (f := Record.num) (R := fun a b => a ≠ b)] at apart ⊢
        dsimp only [Masq.put]
        rw [nums]
        exact apart
      · rcases List.mem_or_eq_of_mem_set member with other | rfl
        · exact shape.outside r2 other
        · rw [← same.num]
          exact shape.outside r (List.mem_of_getElem? here)

theorem put_get (r r' : Record) (ptr : Ptr) (here : s.get ptr = some r) : (s.put r' ptr).get ptr = some r' := by
  cases ptr with
  | slot i => exact Function.update_self ..
  | redirection k =>
      have bound : k < s.redirectionDb.length := (List.getElem?_eq_some_iff.mp here).1
      exact List.getElem?_set_self bound

-- What the redirections say of ports and endpoints.
def redirections (s : Masq) : List (Port × Endpoint) := s.redirectionDb.map fun r => (r.num, endpoint r)

theorem put_redirections (ptr : Ptr) (r r' : Record) (here : s.get ptr = some r) (same : SameRecord r r') :
    redirections (s.put r' ptr) = redirections s := by
  cases ptr with
  | slot i => rfl
  | redirection k => exact set_same (fun r => (r.num, endpoint r)) s.redirectionDb k r r' here (Prod.ext same.num same.endpoint)

end Changes

section Table

variable (time : Long)

-- A place only ever loses its record.
theorem delete_fewer (r : Record) (db : PortDb) (i : Nat) (x : Record) (here : deletePortRecord r db i = some x) : db i = some x := by
  rw [deletePortRecord] at here
  split at here
  · by_cases place : i = r.num.toNat
    · rw [place, Function.update_self] at here
      cases here
    · rwa [Function.update_of_ne place] at here
  · exact here

theorem make_room_fewer (db : PortDb) (j i : Nat) (x : Record) (here : makeRoom time db j i = some x) : db i = some x := by
  rw [makeRoom] at here
  cases found : db j with
  | none =>
      rw [found] at here
      exact here
  | some r =>
      rw [found] at here
      dsimp only at here
      split at here
      · exact delete_fewer _ db i x here
      · exact here

theorem new_port_record_spec (alloc : Bool) (places : List Nat) : ∀ db : PortDb,
    (∀ i x, (newPortRecord time alloc places db).2 i = some x → db i = some x) ∧
      ∀ i ∈ (newPortRecord time alloc places db).1, i ∈ places := by
  induction places with
  | nil => exact fun db => ⟨fun _ _ here => here, fun _ none => by cases none⟩
  | cons j rest next =>
      intro db
      rw [newPortRecord]
      split
      · obtain ⟨fewer, found⟩ := next (makeRoom time db j)
        exact ⟨fun i x here => make_room_fewer time db j i x (fewer i x here), fun i inside => List.mem_cons_of_mem _ (found i inside)⟩
      · refine ⟨fun i x here => make_room_fewer time db j i x here, fun i inside => ?_⟩
        cases alloc with
        | true =>
            cases inside
            exact List.mem_cons_self ..
        | false => cases inside

theorem purge_fewer (places : List Nat) : ∀ db : PortDb, ∀ i x, purgePortRecords time places db i = some x → db i = some x := by
  induction places with
  | nil => exact fun _ _ _ here => here
  | cons j rest next =>
      intro db i x here
      rw [purgePortRecords] at here
      cases found : db j with
      | none =>
          rw [found] at here
          exact next db i x here
      | some r =>
          rw [found] at here
          have fewer := next _ i x here
          split at fewer
          · exact delete_fewer _ db i x fewer
          · exact fewer

theorem find_port_record_spec (nul : Record) (db : PortDb) (addr : Long) (srcPort dstPort : Port) (proto : Proto) (i : Nat)
    (found : findPortRecord nul db addr srcPort dstPort proto = some i) :
    ∃ r, db i = some r ∧ i < MASQ_NUM_PORTS ∧ endpoint r = ⟨addr, srcPort, proto⟩ := by
  rw [findPortRecord, Option.filter_eq_some_iff] at found
  obtain ⟨first, there⟩ := found
  obtain ⟨r, here⟩ := Option.isSome_iff_exists.mp there
  have equal := List.find?_some (p := fun i => sameConnection ((db i).getD nul) addr srcPort dstPort proto) first
  have member := List.mem_range.mp (List.mem_of_find?_eq_some first)
  rw [here, Option.getD_some, sameConnection, decide_eq_true_eq] at equal
  obtain ⟨sameAddr, samePort, _, sameProto⟩ := equal
  exact ⟨r, here, member, by rw [endpoint, sameAddr, samePort, sameProto]⟩

end Table

section Ftp

variable (env : Env) (s : Masq)

-- The state that ftp_modifier leaves behind.
def FtpResult.state : FtpResult → Option Masq
  | .stuck => none
  | .dropped s => some s
  | .done _ _ s => some s

theorem ftp_replace_state (data : Buffer) (start stop : Nat) (localPort : Port) :
    ∀ s' ∈ (ftpReplace env s data start stop localPort).state, s' = s := by
  intro s' inside
  rw [ftpReplace] at inside
  split at inside
  · split at inside <;> cases inside <;> rfl
  · split at inside <;> cases inside
    rfl

theorem ftp_modifier_state (saddr : Long) (t : Tcp) :
    ∀ s' ∈ (ftpModifier env s saddr t).state, s' = s ∨ ∃ r ftpPort, s' = (ftpEntry env s r saddr t.seq ftpPort).2 := by
  intro s' inside
  rw [ftpModifier] at inside
  split at inside
  · cases inside
    exact Or.inl rfl
  · rename_i ftpPort start stop _
    split at inside
    · cases inside
      exact Or.inl rfl
    · rename_i r _
      split at inside
      · rename_i s1 entry
        cases inside
        exact Or.inr ⟨r, ftpPort, by rw [entry]⟩
      · rename_i j s1 entry
        split at inside
        · cases inside
          exact Or.inr ⟨r, ftpPort, by rw [entry]⟩
        · rw [ftp_replace_state env s1 _ _ _ _ s' inside]
          exact Or.inr ⟨r, ftpPort, by rw [entry]⟩

end Ftp

end MagxNet.Masquerade
