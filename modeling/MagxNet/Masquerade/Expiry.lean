import MagxNet.Masquerade.Isolation
import MagxNet.Lib.Serial

set_option autoImplicit false

namespace MagxNet.Masquerade

open Bytes

-- Every record knows its place; this holds whatever is written to /dev/masquerade.
def Placed (db : PortDb) : Prop := ∀ i r, db i = some r → i < MASQ_NUM_PORTS ∧ r.num = BitVec.ofNat 16 i

theorem placed_fewer (db db' : PortDb) (fewer : ∀ i r, db' i = some r → db i = some r) (placed : Placed db) : Placed db' :=
  fun i r here => placed i r (fewer i r here)

theorem placed_update (db : PortDb) (i : Nat) (r : Record) (bound : i < MASQ_NUM_PORTS) (num : r.num = BitVec.ofNat 16 i)
    (placed : Placed db) : Placed (Function.update db i (some r)) := by
  intro j x here
  by_cases same : j = i
  · rw [same, Function.update_self] at here
    cases here
    exact ⟨same ▸ bound, same ▸ num⟩
  · rw [Function.update_of_ne same] at here
    exact placed j x here

section Runs

variable (env : Env) (s : Masq) (placed : Placed s.portDb)

include placed in
theorem placed_put (ptr : Ptr) (r r' : Record) (here : s.get ptr = some r) (same : SameRecord r r') :
    Placed (s.put r' ptr).portDb := by
  cases ptr with
  | slot i =>
      obtain ⟨bound, num⟩ := placed i r here
      exact placed_update s.portDb i r' bound (same.num.symm.trans num) placed
  | redirection k => exact placed

include placed in
theorem placed_incoming (p : Dgram) (ptr : Ptr) : Placed (incoming env s p ptr).masq.portDb := by
  rw [incoming]
  split
  · exact placed
  · rename_i r here
    generalize touched : ({ r with modified := env.time } : Record) = r1
    have same1 : SameRecord r r1 := by
      rw [← touched]
      exact ⟨rfl, rfl, rfl⟩
    exact placed_put s placed ptr r _ here (same_trans r r1 _ same1 (in_record_same s r1 p.body))

include placed in
theorem placed_new (alloc : Bool) : Placed (newPortRecord env.time alloc (List.range MASQ_NUM_PORTS) s.portDb).2 :=
  placed_fewer _ _ (new_port_record_spec env.time alloc (List.range MASQ_NUM_PORTS) s.portDb).1 placed

include placed in
theorem placed_ftp_entry (r : Record) (saddr seq : Long) (ftpPort : Port) :
    Placed (ftpEntry env s r saddr seq ftpPort).2.portDb := by
  have fewer := placed_new env s placed env.allocFtp
  have place := (new_port_record_spec env.time env.allocFtp (List.range MASQ_NUM_PORTS) s.portDb).2
  rw [ftpEntry]
  split
  · generalize newPortRecord env.time env.allocFtp (List.range MASQ_NUM_PORTS) s.portDb = new at fewer place ⊢
    obtain ⟨found, db⟩ := new
    cases found with
    | none => exact fewer
    | some i => exact placed_update db i _ (List.mem_range.mp (place i rfl)) rfl fewer
  · exact placed

include placed in
theorem placed_ftp_modifier (saddr : Long) (t : Tcp) (s' : Masq) (inside : s' ∈ (ftpModifier env s saddr t).state) :
    Placed s'.portDb := by
  obtain rfl | ⟨r, ftpPort, rfl⟩ := ftp_modifier_state env s saddr t s' inside
  · exact placed
  · exact placed_ftp_entry env s placed r saddr t.seq ftpPort

include placed in
theorem placed_note_change (saddr : Long) (t : Tcp) (delta : Int) : Placed (noteChange env s saddr t delta).portDb := by
  rw [noteChange]
  split
  · exact placed
  · split
    · exact placed
    · rename_i r here
      exact placed_put s placed _ r _ here (rewritten_same r t.seq delta)

include placed in
theorem placed_out_entry (saddr : Long) (srcPort dstPort : Port) (proto : Proto) (seq : Long) :
    Placed (outEntry env s saddr srcPort dstPort proto seq).2.portDb := by
  have fewer := placed_new env s placed env.alloc
  have place := (new_port_record_spec env.time env.alloc (List.range MASQ_NUM_PORTS) s.portDb).2
  rw [outEntry]
  split
  · exact placed
  · generalize newPortRecord env.time env.alloc (List.range MASQ_NUM_PORTS) s.portDb = new at fewer place ⊢
    obtain ⟨found, db⟩ := new
    cases found with
    | none => exact fewer
    | some i => exact placed_update db i _ (List.mem_range.mp (place i rfl)) rfl fewer

include placed in
theorem placed_outgoing (p : Dgram) (srcPort dstPort : Port) (proto : Proto) (seq : Long) :
    Placed (outgoing env s p srcPort dstPort proto seq).masq.portDb := by
  have entry := placed_out_entry env s placed p.saddr srcPort dstPort proto seq
  rw [outgoing]
  generalize outEntry env s p.saddr srcPort dstPort proto seq = found at entry ⊢
  obtain ⟨ptr, s1⟩ := found
  cases ptr with
  | none => exact entry
  | some ptr =>
      dsimp only at entry ⊢
      split
      · exact entry
      · rename_i r here
        generalize touched : ({ r with modified := env.time } : Record) = r1
        have same1 : SameRecord r r1 := by
          rw [← touched]
          exact ⟨rfl, rfl, rfl⟩
        exact placed_put s1 entry ptr r _ here (same_trans r r1 _ same1 (out_header_same s1 r1 p.body))

include placed in
theorem placed_outgoing_tcp (p : Dgram) (t : Tcp) (res : Result) (run : outgoingTcp env s p t = some res) :
    Placed res.masq.portDb := by
  rw [outgoingTcp] at run
  split at run
  · have modified := placed_ftp_modifier env s placed p.saddr t
    split at run
    · cases run
    · rename_i s1 same
      cases run
      rw [same] at modified
      exact modified s1 rfl
    · rename_i delta data s1 same
      cases run
      rw [same] at modified
      exact placed_outgoing env _ (placed_note_change env s1 (modified s1 rfl) p.saddr t delta) _ _ _ _ _
  · cases run
    exact placed_outgoing env s placed p _ _ _ _

include placed in
theorem placed_input (p : Dgram) (res : Result) (run : masqIpInput env s p = some res) : Placed res.masq.portDb := by
  rw [masqIpInput] at run
  split at run
  · cases run
    exact placed
  · split at run
    · cases run
      exact placed_incoming env s placed p _
    · split at run
      · split at run
        · exact placed_outgoing_tcp env s placed p _ res run
        · cases run
          exact placed_outgoing env s placed p _ _ _ _
        · split at run
          · cases run
            exact placed_outgoing env s placed p _ _ _ _
          · cases run
            exact placed
        · cases run
          exact placed
      · cases run
        exact placed

include placed in
theorem placed_step (cmd : Cmd) (s' : Masq) (run : step s cmd = some s') : Placed s'.portDb := by
  cases cmd with
  | input env p =>
      obtain ⟨res, done, rfl⟩ := Option.map_eq_some_iff.mp run
      exact placed_input env s placed p res done
  | purge time =>
      have fewer : Placed (purgePortRecords time (List.range MASQ_NUM_PORTS) s.portDb) :=
        placed_fewer s.portDb _ (purge_fewer time (List.range MASQ_NUM_PORTS) s.portDb) placed
      rw [step] at run
      generalize purgePortRecords time (List.range MASQ_NUM_PORTS) s.portDb = db at fewer run
      cases run
      exact fewer
  | redirect r =>
      cases run
      exact placed
  | unredirect k =>
      cases run
      exact placed
  | configure addr mask flags tcpFirst tcpAck tcpFin udp icmp =>
      cases run
      exact placed

end Runs

theorem placed_reached (allowed : Masq → Cmd → Prop) (s : Masq) (given : List Grant) (reached : Reached allowed s given) :
    Placed s.portDb := by
  induction reached with
  | start => exact fun _ _ here => by cases here
  | step s s' given cmd _ _ run placed => exact placed_step s placed cmd s' run

-- The comparison of purge_port_records.
def outdated (time : Long) (r : Record) : Bool := (r.modified + r.timeout).toNat < time.toNat

theorem delete_here (db : PortDb) (i : Nat) (r : Record) (placed : Placed db) (here : db i = some r) :
    deletePortRecord r db = Function.update db i none := by
  obtain ⟨bound, num⟩ := placed i r here
  have small : i < 4096 := bound
  have place : r.num.toNat = i := by
    rw [num, BitVec.toNat_ofNat]
    omega
  have signed : r.num.toInt = i := by
    rw [BitVec.toInt_eq_toNat_cond, place]
    omega
  rw [deletePortRecord, if_pos ⟨by omega, by omega⟩, place]

theorem delete_placed (db : PortDb) (r : Record) (placed : Placed db) : Placed (deletePortRecord r db) :=
  placed_fewer db _ (delete_fewer r db) placed

-- What purge_port_records leaves at a place.
theorem purge_place (time : Long) (i : Nat) (places : List Nat) : ∀ db : PortDb, Placed db →
    purgePortRecords time places db i = if i ∈ places ∧ (db i).any (outdated time) then none else db i := by
  induction places with
  | nil => exact fun db _ => by simp [purgePortRecords]
  | cons j rest next =>
      intro db placed
      rw [purgePortRecords]
      cases found : db j with
      | none =>
          dsimp only
          rw [next db placed]
          by_cases same : i = j
          · simp [same, found]
          · simp [same]
      | some r =>
          dsimp only
          split
          · rename_i old
            have gone : outdated time r = true := decide_eq_true old
            rw [next _ (delete_placed db r placed), delete_here db j r placed found]
            by_cases same : i = j
            · simp [same, found, gone]
            · simp [same]
          · rename_i fresh
            have stays : outdated time r = false := decide_eq_false fresh
            rw [next db placed]
            by_cases same : i = j
            · simp [same, found, stays]
            · simp [same]

theorem purge_here (time : Long) (db : PortDb) (i : Nat) (r : Record) (placed : Placed db) (here : db i = some r) :
    purgePortRecords time (List.range MASQ_NUM_PORTS) db i = none ↔ outdated time r := by
  rw [purge_place time i _ db placed, here]
  simp [(placed i r here).1]

theorem room_here (time : Long) (db : PortDb) (i : Nat) (r : Record) (placed : Placed db) (here : db i = some r) :
    makeRoom time db i i = none ↔ expired time r := by
  rw [makeRoom, here]
  dsimp only
  split
  · rename_i old
    rw [delete_here db i r placed here, Function.update_self]
    simp [old]
  · rename_i fresh
    simp [here, fresh]

-- The clock counts the ticks of 1/200 of a second in 32 bits.
def clock (ticks : Nat) : Long := BitVec.ofNat 32 ticks

-- The signed comparison is right, whatever the clock shows.
theorem expired_iff (r : Record) (modified now : Nat) (stamp : r.modified = clock modified) (order : modified ≤ now)
    (recent : now ≤ modified + 2 ^ 31) (short : r.timeout.toNat < 2 ^ 31) :
    expired (clock now) r ↔ modified + r.timeout.toNat < now := by
  have due : r.modified + r.timeout = Serial.place 0 ((modified : Int) + r.timeout.toNat) := by
    rw [stamp, Serial.place, BitVec.ofInt_add]
    simp [clock]
  have later : clock now = Serial.place 0 (now : Int) := by simp [Serial.place, clock]
  unfold expired
  rw [decide_eq_true_eq, due, later]
  have compare := Serial.lt_place (0 : BitVec 32) ((modified : Int) + r.timeout.toNat) now (by omega) (by omega)
  unfold Serial.lt at compare
  rw [compare]
  omega

theorem outdated_iff (r : Record) (modified now : Nat) (stamp : r.modified = clock modified) :
    outdated (clock now) r ↔ (modified % 2 ^ 32 + r.timeout.toNat) % 2 ^ 32 < now % 2 ^ 32 := by
  unfold outdated
  rw [decide_eq_true_eq, stamp, BitVec.toNat_add]
  simp [clock]

-- What happens to a record that is due at a certain time: both functions agree on it, and neither is early.
structure Agrees (db : PortDb) (i due now : Nat) : Prop where
  same : purgePortRecords (clock now) (List.range MASQ_NUM_PORTS) db i = none ↔ makeRoom (clock now) db i i = none
  purged : purgePortRecords (clock now) (List.range MASQ_NUM_PORTS) db i = none → due < now
  replaced : makeRoom (clock now) db i i = none → due < now

-- The sum of purge_port_records has to pass 2^32 with the clock.
theorem expiry_agreement (s : Masq) (given : List Grant) (reached : Reached (fun _ _ => True) s given) (i : Nat) (r : Record)
    (here : s.portDb i = some r) (modified now : Nat) (stamp : r.modified = clock modified) (order : modified ≤ now)
    (recent : now ≤ modified + 2 ^ 31) (short : r.timeout.toNat < 2 ^ 31) :
    Agrees s.portDb i (modified + r.timeout.toNat) now ↔
      (2 ^ 32 ≤ modified % 2 ^ 32 + r.timeout.toNat ↔ now % 2 ^ 32 < modified % 2 ^ 32) := by
  have placed := placed_reached _ s given reached
  have purge := purge_here (clock now) s.portDb i r placed here
  have room := room_here (clock now) s.portDb i r placed here
  rw [outdated_iff r modified now stamp] at purge
  rw [expired_iff r modified now stamp order recent short] at room
  constructor
  · intro agrees
    have same := agrees.same
    rw [purge, room] at same
    omega
  · intro carries
    have same : (modified % 2 ^ 32 + r.timeout.toNat) % 2 ^ 32 < now % 2 ^ 32 ↔ modified + r.timeout.toNat < now := by omega
    exact ⟨by rw [purge, room, same], fun gone => same.mp (purge.mp gone), room.mp⟩

-- A name server is asked 16 ticks before the clock wraps.
def dnsQuery : Cmd := .input { away with time := 0xfffffff0 } ⟨0x0a000001, 0xc6336401, .udp 1024 53⟩

def asked : Option Masq := (step initial network).bind fun s => step s dnsQuery

def queryRecord : Record where
  memory := 0
  num := 0
  masqAddr := 0x0a000001
  masqPort := 1024
  dstPort := 0
  proto := IPPROTO_UDP
  modified := 0xfffffff0
  timeout := 12000
  offs := 0
  prevOffs := 0
  seq := 0

theorem query_recorded : asked.bind (fun s => s.portDb 0) = some queryRecord := by decide +kernel

theorem query_reached : ∃ s given, Reached (fun _ _ => True) s given ∧ s.portDb 0 = some queryRecord := by
  obtain ⟨s, run, here⟩ := Option.bind_eq_some_iff.mp query_recorded
  obtain ⟨s1, first, second⟩ := Option.bind_eq_some_iff.mp run
  exact ⟨s, _, .step s1 s _ dnsQuery (.step initial s1 [] network .start trivial first) trivial second, here⟩

theorem expiry_agreement_later : ∃ s given, Reached (fun _ _ => True) s given ∧ s.portDb 0 = some queryRecord
    ∧ Agrees s.portDb 0 (0xfffffff0 + queryRecord.timeout.toNat) (0xfffffff0 + 12001) := by
  obtain ⟨s, given, reached, here⟩ := query_reached
  refine ⟨s, given, reached, here, (expiry_agreement s given reached 0 queryRecord here 0xfffffff0 (0xfffffff0 + 12001) rfl
    (by decide) (by decide) (by decide)).mpr (by decide)⟩

-- The same record is purged at once.
theorem expiry_early : ∃ s given, Reached (fun _ _ => True) s given ∧ s.portDb 0 = some queryRecord
    ∧ purgePortRecords (clock 0xfffffff0) (List.range MASQ_NUM_PORTS) s.portDb 0 = none
    ∧ ¬ Agrees s.portDb 0 (0xfffffff0 + queryRecord.timeout.toNat) 0xfffffff0 := by
  obtain ⟨s, given, reached, here⟩ := query_reached
  have gone := (purge_here (clock 0xfffffff0) s.portDb 0 queryRecord (placed_reached _ s given reached) here).mpr (by decide)
  refine ⟨s, given, reached, here, gone, fun agrees => ?_⟩
  have late := agrees.purged gone
  omega

end MagxNet.Masquerade
