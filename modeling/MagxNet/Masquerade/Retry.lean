import MagxNet.Masquerade.Isolation
import MagxNet.Masquerade.Modifier

set_option autoImplicit false

namespace MagxNet.Masquerade

open Bytes

-- The places that the loop of find_port_record looks at: it goes on until one compares equal.
def lookedAt (wanted : Nat → Bool) : List Nat → List Nat
  | [] => []
  | i :: rest => i :: if wanted i then [] else lookedAt wanted rest

theorem looked_at_range (wanted : Nat → Bool) (i n : Nat) : ∀ start, i ∈ lookedAt wanted (List.range' start n) ↔
    (start ≤ i ∧ i < start + n) ∧ ∀ j, start ≤ j → j < i → wanted j = false := by
  induction n with
  | zero =>
      intro start
      simp only [List.range'_zero, lookedAt, List.not_mem_nil, false_iff]
      omega
  | succ n next =>
      intro start
      rw [List.range'_succ, lookedAt, List.mem_cons]
      cases here : wanted start with
      | true =>
          simp only [if_true, List.not_mem_nil, or_false]
          constructor
          · rintro rfl
            exact ⟨by omega, fun j lower before => by omega⟩
          · rintro ⟨bounds, unwanted⟩
            by_contra other
            have found := unwanted start (le_refl start) (by omega)
            rw [here] at found
            cases found
      | false =>
          simp only [Bool.false_eq_true, if_false, next (start + 1)]
          constructor
          · rintro (rfl | ⟨bounds, unwanted⟩)
            · exact ⟨by omega, fun j lower before => by omega⟩
            · refine ⟨by omega, fun j lower before => ?_⟩
              by_cases first : j = start
              · rw [first, here]
              · exact unwanted j (by omega) before
          · rintro ⟨bounds, unwanted⟩
            by_cases first : i = start
            · exact Or.inl first
            · exact Or.inr ⟨by omega, fun j lower before => unwanted j (by omega) before⟩

section Search

variable (nul : Record) (db : PortDb) (addr : Long) (srcPort dstPort : Port) (proto : Proto)

def wantedAt (i : Nat) : Bool := sameConnection ((db i).getD nul) addr srcPort dstPort proto

def Matches (i : Nat) : Prop := ∃ r, db i = some r ∧ sameConnection r addr srcPort dstPort proto

def examined : List Nat := lookedAt (wantedAt nul db addr srcPort dstPort proto) (List.range MASQ_NUM_PORTS)

-- No empty place is looked at, and what is found is there.
structure SearchesOccupied : Prop where
  occupied : ∀ i ∈ examined nul db addr srcPort dstPort proto, (db i).isSome
  found : (findPortRecord nul db addr srcPort dstPort proto).isSome ↔
    ∃ i < MASQ_NUM_PORTS, Matches db addr srcPort dstPort proto i

theorem examined_iff (i : Nat) : i ∈ examined nul db addr srcPort dstPort proto ↔
    i < MASQ_NUM_PORTS ∧ ∀ j < i, wantedAt nul db addr srcPort dstPort proto j = false := by
  rw [examined, List.range_eq_range', looked_at_range]
  simp

theorem matches_wanted (i : Nat) (here : Matches db addr srcPort dstPort proto i) :
    wantedAt nul db addr srcPort dstPort proto i = true := by
  obtain ⟨r, there, same⟩ := here
  rw [wantedAt, there]
  exact same

theorem wanted_matches (i : Nat) (there : (db i).isSome) (wanted : wantedAt nul db addr srcPort dstPort proto i = true) :
    Matches db addr srcPort dstPort proto i := by
  obtain ⟨r, here⟩ := Option.isSome_iff_exists.mp there
  rw [wantedAt, here] at wanted
  exact ⟨r, here, wanted⟩

theorem find_first (i : Nat) : (List.range MASQ_NUM_PORTS).find? (wantedAt nul db addr srcPort dstPort proto) = some i ↔
    wantedAt nul db addr srcPort dstPort proto i = true ∧ i ∈ examined nul db addr srcPort dstPort proto := by
  rw [List.find?_range_eq_some, examined_iff]
  simp

-- The places up to the first match are occupied, so the null page plays no part.
theorem searches_found (occupied : ∀ i ∈ examined nul db addr srcPort dstPort proto, (db i).isSome) :
    (findPortRecord nul db addr srcPort dstPort proto).isSome ↔ ∃ i < MASQ_NUM_PORTS, Matches db addr srcPort dstPort proto i := by
  constructor
  · intro found
    obtain ⟨i, here⟩ := Option.isSome_iff_exists.mp found
    obtain ⟨first, there⟩ := Option.filter_eq_some_iff.mp here
    obtain ⟨wanted, looked⟩ := (find_first nul db addr srcPort dstPort proto i).mp first
    exact ⟨i, ((examined_iff nul db addr srcPort dstPort proto i).mp looked).1,
      wanted_matches nul db addr srcPort dstPort proto i there wanted⟩
  · rintro ⟨i, bound, here⟩
    have wanted := matches_wanted nul db addr srcPort dstPort proto i here
    have some' : ((List.range MASQ_NUM_PORTS).find? (wantedAt nul db addr srcPort dstPort proto)).isSome :=
      List.find?_isSome.mpr ⟨i, List.mem_range.mpr bound, wanted⟩
    obtain ⟨k, first⟩ := Option.isSome_iff_exists.mp some'
    have there := occupied k ((find_first nul db addr srcPort dstPort proto k).mp first).2
    have kept : findPortRecord nul db addr srcPort dstPort proto = some k := Option.filter_eq_some_iff.mpr ⟨first, there⟩
    rw [kept]
    rfl

-- The first of the empty places is looked at unless a match comes before it.
theorem first_empty (occupied : ∀ i ∈ examined nul db addr srcPort dstPort proto, (db i).isSome) (i : Nat)
    (bound : i < MASQ_NUM_PORTS) (empty : db i = none) : ∃ j < i, Matches db addr srcPort dstPort proto j := by
  induction i using Nat.strong_induction_on with
  | _ i earlier =>
      by_contra unmatched
      have filled : ∀ j < i, (db j).isSome := by
        intro j before
        by_contra hole
        obtain ⟨k, less, here⟩ := earlier j before (before.trans bound) (Option.not_isSome_iff_eq_none.mp hole)
        exact unmatched ⟨k, less.trans before, here⟩
      have looked : i ∈ examined nul db addr srcPort dstPort proto := by
        refine (examined_iff nul db addr srcPort dstPort proto i).mpr ⟨bound, fun j before => ?_⟩
        by_contra wanted
        exact unmatched ⟨j, before, wanted_matches nul db addr srcPort dstPort proto j (filled j before)
          (Bool.not_eq_false _ ▸ wanted)⟩
      have there := occupied i looked
      rw [empty] at there
      cases there

-- The search is as it should be exactly if every empty place lies behind a match.
theorem search_occupied : SearchesOccupied nul db addr srcPort dstPort proto ↔
    ∀ i < MASQ_NUM_PORTS, db i = none → ∃ j < i, Matches db addr srcPort dstPort proto j := by
  constructor
  · intro searches i bound empty
    exact first_empty nul db addr srcPort dstPort proto searches.occupied i bound empty
  · intro covered
    have occupied : ∀ i ∈ examined nul db addr srcPort dstPort proto, (db i).isSome := by
      intro i looked
      obtain ⟨bound, unwanted⟩ := (examined_iff nul db addr srcPort dstPort proto i).mp looked
      by_contra hole
      obtain ⟨j, before, here⟩ := covered i bound (Option.not_isSome_iff_eq_none.mp hole)
      have wanted := matches_wanted nul db addr srcPort dstPort proto j here
      rw [unwanted j before] at wanted
      cases wanted
    exact ⟨occupied, searches_found nul db addr srcPort dstPort proto occupied⟩

end Search

-- Right after masq_init the search for any connection looks at the first place, which is empty.
theorem search_empty : ∃ s given, Reached (fun _ _ => True) s given ∧ s.portDb 0 = none
    ∧ 0 ∈ examined webServer s.portDb 0x0a000001 80 1234 IPPROTO_TCP
    ∧ ¬ SearchesOccupied webServer s.portDb 0x0a000001 80 1234 IPPROTO_TCP := by
  have looked : 0 ∈ examined webServer initial.portDb 0x0a000001 80 1234 IPPROTO_TCP := by
    refine (examined_iff webServer initial.portDb 0x0a000001 80 1234 IPPROTO_TCP 0).mpr ⟨by decide, fun j before => ?_⟩
    omega
  refine ⟨initial, [], .start, rfl, looked, fun searches => ?_⟩
  have there := searches.occupied 0 looked
  cases there

section Finding

variable (nul : Record) (db : PortDb) (addr : Long) (srcPort dstPort : Port) (proto : Proto)

-- When what is read through a null pointer does not match, the first record that does is found.
theorem find_matches (apart : nul.masqAddr ≠ addr) (i : Nat) : findPortRecord nul db addr srcPort dstPort proto = some i ↔
    i < MASQ_NUM_PORTS ∧ Matches db addr srcPort dstPort proto i ∧ ∀ k < i, ¬ Matches db addr srcPort dstPort proto k := by
  have occupied : ∀ k, wantedAt nul db addr srcPort dstPort proto k = true ↔ Matches db addr srcPort dstPort proto k := by
    intro k
    constructor
    · intro wanted
      cases here : db k with
      | none =>
          unfold wantedAt sameConnection at wanted
          rw [here, Option.getD_none, decide_eq_true_eq] at wanted
          exact absurd wanted.1.symm apart
      | some r => exact wanted_matches nul db addr srcPort dstPort proto k (by rw [here]; rfl) wanted
    · exact matches_wanted nul db addr srcPort dstPort proto k
  have first := find_first nul db addr srcPort dstPort proto i
  rw [examined_iff, occupied] at first
  unfold findPortRecord
  rw [Option.filter_eq_some_iff]
  constructor
  · rintro ⟨found, -⟩
    obtain ⟨here, bound, before⟩ := first.mp found
    refine ⟨bound, here, fun k less matched => ?_⟩
    have no := before k less
    rw [(occupied k).mpr matched] at no
    cases no
  · rintro ⟨bound, here, before⟩
    refine ⟨first.mpr ⟨here, bound, fun k less => Bool.eq_false_iff.mpr ((occupied k).not.mpr (before k less))⟩, ?_⟩
    obtain ⟨r, there, -⟩ := here
    rw [there]
    rfl

end Finding

-- A new record takes the place of nothing but what is at its own.
theorem new_place (time : Long) (alloc : Bool) (places : List Nat) : ∀ db db' : PortDb, Placed db → ∀ i,
    newPortRecord time alloc places db = (some i, db') → ∀ k, k ≠ i → db' k = db k := by
  induction places with
  | nil => exact fun db db' _ i result => by cases result
  | cons j rest next =>
      intro db db' placed i result k other
      have room : makeRoom time db j = db ∨ makeRoom time db j = Function.update db j none := by
        unfold makeRoom
        cases here : db j with
        | none => exact .inl rfl
        | some r =>
            dsimp only
            rw [delete_here db j r placed here]
            split
            · exact .inr rfl
            · exact .inl rfl
      rw [newPortRecord] at result
      obtain same | gone := room
      · rw [same] at result
        split at result
        · exact next db db' placed i result k other
        · obtain ⟨-, rfl⟩ := Prod.mk.inj result
          rfl
      · rw [gone, Function.update_self, if_neg (by decide)] at result
        obtain ⟨place, rfl⟩ := Prod.mk.inj result
        split at place
        · cases place
          exact Function.update_of_ne other _ _
        · cases place

theorem same_connection_same (addr : Long) (srcPort dstPort : Port) (proto : Proto) (r r' : Record)
    (same : endpoint r = endpoint r')
    (dest : dstPort = 0 ∨ r.dstPort = r'.dstPort) :
    sameConnection r addr srcPort dstPort proto = sameConnection r' addr srcPort dstPort proto := by
  obtain ⟨addr', port', proto'⟩ := Endpoint.mk.inj same
  unfold sameConnection
  rw [addr', port', proto']
  obtain rfl | dest := dest
  · simp
  · rw [dest]

-- A search asks only for what a record keeps.
theorem find_kept (nul nul' : Record) (db db' : PortDb) (addr : Long) (srcPort dstPort : Port) (proto : Proto)
    (apart : nul.masqAddr ≠ addr) (apart' : nul'.masqAddr ≠ addr)
    (kept : ∀ k, Matches db addr srcPort dstPort proto k ↔ Matches db' addr srcPort dstPort proto k) (i : Nat) :
    findPortRecord nul db addr srcPort dstPort proto = some i ↔ findPortRecord nul' db' addr srcPort dstPort proto = some i := by
  rw [find_matches nul db addr srcPort dstPort proto apart, find_matches nul' db' addr srcPort dstPort proto apart', kept]
  exact and_congr_right' (and_congr_right' (forall₂_congr fun k _ => (kept k).not))

-- All records but the one at place j are as they were, and that one is for the same connection.
structure Touched (db db' : PortDb) (j : Nat) (c c' : Record) : Prop where
  others : ∀ k, k ≠ j → db' k = db k
  before : db j = some c
  after : db' j = some c'
  same : SameRecord c c'
  dest : c.dstPort = c'.dstPort

theorem touched_matches (db db' : PortDb) (j : Nat) (c c' : Record) (touched : Touched db db' j c c') (addr : Long)
    (srcPort dstPort : Port) (proto : Proto) (k : Nat) :
    Matches db addr srcPort dstPort proto k ↔ Matches db' addr srcPort dstPort proto k := by
  have asks := same_connection_same addr srcPort dstPort proto c c' touched.same.endpoint (.inr touched.dest)
  unfold Matches
  by_cases here : k = j
  · rw [here, touched.before, touched.after]
    constructor
    · rintro ⟨r, found, matched⟩
      cases found
      exact ⟨c', rfl, asks ▸ matched⟩
    · rintro ⟨r, found, matched⟩
      cases found
      exact ⟨c, rfl, asks ▸ matched⟩
  · rw [touched.others k here]

section Passing

variable (env : Env) (s : Masq) (p : Dgram) (t : Tcp) (j : Nat) (c : Record)

theorem lookup_slot (unredirected : findRedirectionByMasqPort s t.srcport = none)
    (control : findPortRecord env.nul s.portDb p.saddr t.srcport t.dstport IPPROTO_TCP = some j) :
    lookup env s p.saddr t.srcport t.dstport IPPROTO_TCP = some (.slot j) := by
  unfold lookup
  rw [unredirected, control]
  rfl

theorem put_touched (here : s.portDb j = some c) (c' : Record) (same : SameRecord c c') (dest : c.dstPort = c'.dstPort) :
    Touched s.portDb (s.put c' (.slot j)).portDb j c c' :=
  ⟨fun _ other => Function.update_of_ne other _ _, here, Function.update_self .., same, dest⟩

-- A datagram whose connection has a record goes out by it.
theorem outgoing_slot (unredirected : findRedirectionByMasqPort s t.srcport = none)
    (control : findPortRecord env.nul s.portDb p.saddr t.srcport t.dstport IPPROTO_TCP = some j) (here : s.portDb j = some c) :
    outgoing env s p t.srcport t.dstport IPPROTO_TCP t.seq =
      ⟨some { p with
          saddr := env.localaddr
          body := outBody { c with modified := env.time } (lport { c with modified := env.time } (.slot j)) p.body },
        false, some (.slot j), s.put (outHeader s { c with modified := env.time } p.body) (.slot j)⟩ := by
  unfold outgoing outEntry
  rw [lookup_slot env s p t j unredirected control]
  dsimp only
  rw [show s.get (.slot j) = some c from here]

theorem header_kept (r : Record) (body : Body) : (outHeader s r body).dstPort = r.dstPort ∧ (outHeader s r body).seq = r.seq := by
  unfold outHeader tcpTimeout
  cases body with
  | tcp t =>
      dsimp only
      split <;> split <;> exact ⟨rfl, rfl⟩
  | _ => exact ⟨rfl, rfl⟩

theorem note_slot (unredirected : findRedirectionByMasqPort s t.srcport = none)
    (control : findPortRecord env.nul s.portDb p.saddr t.srcport t.dstport IPPROTO_TCP = some j) (here : s.portDb j = some c)
    (delta : Int) : noteChange env s p.saddr t delta = s.put (rewritten c t.seq delta) (.slot j) := by
  unfold noteChange
  rw [lookup_slot env s p t j unredirected control]
  dsimp only
  rw [show s.get (.slot j) = some c from here]

theorem segment_passes (apart : env.nul.masqAddr ≠ p.saddr) (unredirected : findRedirectionByMasqPort s t.srcport = none)
    (control : findPortRecord env.nul s.portDb p.saddr t.srcport t.dstport IPPROTO_TCP = some j) (here : s.portDb j = some c)
    (delta : Int) (body : Body) : ∃ res c',
      outgoing env (noteChange env s p.saddr t delta) { p with body := body } t.srcport t.dstport IPPROTO_TCP t.seq = res
      ∧ Touched s.portDb res.masq.portDb j c c' ∧ c'.seq = (rewritten c t.seq delta).seq ∧ res.buf.isSome
      ∧ res.masq.allocated = s.allocated := by
  have dest : c.dstPort = (rewritten c t.seq delta).dstPort := by
    unfold rewritten
    split <;> rfl
  have same := rewritten_same c t.seq delta
  rw [note_slot env s p t j c unredirected control here delta]
  generalize rewritten c t.seq delta = c₁ at dest same ⊢
  have touched := put_touched s j c here c₁ same dest
  have control' := (find_kept env.nul env.nul s.portDb _ p.saddr t.srcport t.dstport IPPROTO_TCP apart apart
    (touched_matches _ _ j c c₁ touched _ _ _ _) j).mp control
  have out := outgoing_slot env (s.put c₁ (.slot j)) { p with body := body } t j c₁ unredirected control' touched.after
  have header := out_header_same (s.put c₁ (.slot j)) { c₁ with modified := env.time } body
  obtain ⟨dest', seq⟩ := header_kept (s.put c₁ (.slot j)) { c₁ with modified := env.time } body
  refine ⟨_, outHeader (s.put c₁ (.slot j)) { c₁ with modified := env.time } body, out, ?_, seq, rfl, rfl⟩
  generalize outHeader (s.put c₁ (.slot j)) { c₁ with modified := env.time } body = c₂ at header dest'
  refine ⟨fun k other => ?_, here, Function.update_self .., ?_, ?_⟩
  · exact (Function.update_of_ne other _ _).trans (touched.others k other)
  · exact same_trans c c₁ c₂ same ⟨header.memory, header.num, header.endpoint⟩
  · exact dest.trans dest'.symm

end Passing

theorem ftp_replace_done (env : Env) (s : Masq) (data : Buffer) (start stop : Nat) (localPort : Port) (order : start ≤ stop)
    (within : stop ≤ data.length) (given : ¬ (stop - start < (tmpbuf env.localaddr localPort).length ∧ env.reserve = false)) :
    ftpReplace env s data start stop localPort = .done ((tmpbuf env.localaddr localPort).length - ((stop : Int) - start))
      (data.take start ++ tmpbuf env.localaddr localPort ++ data.drop stop) s := by
  have length : (data.take start ++ tmpbuf env.localaddr localPort ++ data.drop stop).length
      = data.length + (tmpbuf env.localaddr localPort).length - (stop - start) := by
    rw [List.length_append, List.length_append, List.length_take, List.length_drop]
    omega
  unfold ftpReplace
  dsimp only
  by_cases more : stop - start < (tmpbuf env.localaddr localPort).length
  · cases room : env.reserve with
    | true => rw [if_pos more, if_pos rfl, List.take_of_length_le (by omega)]
    | false => exact absurd ⟨more, room⟩ given
  · rw [if_neg more, if_neg (by omega)]

section Segments

variable (env : Env) (s : Masq) (bytes : Buffer) (segment : FtpSegment bytes)

include segment

theorem payload_replaced (length : BitVec 16) (a stop : Nat) (new : List Byte) (inside : tcpData bytes + a ≤ bytes.length) :
    ((put16 bytes 2 length).take (tcpData bytes + a) ++ new ++ bytes.drop (tcpData bytes + stop)).drop (tcpData bytes)
      = (payload bytes).take a ++ new ++ (payload bytes).drop stop := by
  have header : 20 ≤ tcpData bytes := segment.header.trans (Nat.le_add_right _ _)
  have front : ((put16 bytes 2 length).take (tcpData bytes + a)).length = tcpData bytes + a := by
    rw [List.length_take, put16_length]
    omega
  rw [List.append_assoc, List.drop_append_of_le_length (by omega), List.drop_take, Nat.add_sub_cancel_left,
    put16_drop bytes 2 _ _ (by omega), ← List.append_assoc, ← List.drop_drop]
  rfl

-- ftp_modifier on the fields and the data of the segment does the same as on its bytes.
theorem modifier_refines (whole : ¬ CutOff (payload bytes)) (delta : Int) (bytes' : Buffer) (used : Option Nat) (s' : Masq)
    (result : modifyBytes env s bytes = .done delta bytes' used s') :
    ftpModifier env s (sourceOf bytes) (tcpFields bytes) = .done delta (bytes'.drop (tcpData bytes)) s' := by
  obtain ⟨missing, -⟩ | ⟨place, port, stop, first, found⟩ := find_first_command env bytes whole
  · unfold modifyBytes at result
    unfold ftpModifier
    dsimp only at result
    rw [show (tcpFields bytes).data = payload bytes from rfl, missing] at result ⊢
    cases result
    rfl
  · obtain ⟨front, order, within⟩ := argument_inside bytes segment place port stop first
    obtain ⟨s'', dropped, -⟩ | ⟨i, r, s'', ⟨c, control, entry, here⟩, replaced⟩ := modify_first env s bytes place port stop found
    · rw [dropped] at result
      cases result
    · obtain ⟨bytes'', delta', done, shape, -, length, delta''⟩ := replaced_bytes env bytes segment place port stop first r s'' i
      rw [replaced, done] at result
      split at result
      · cases result
      · rename_i given
        cases result
        have data := payload_replaced bytes segment (BitVec.ofNat 16 bytes'.length) (place + 5) stop (text env r) (by omega)
        rw [← shape] at data
        have rest : (payload bytes).length = bytes.length - tcpData bytes := List.length_drop
        unfold ftpModifier
        rw [show (tcpFields bytes).data = payload bytes from rfl, found]
        dsimp only
        rw [control]
        dsimp only
        rw [entry]
        dsimp only
        rw [here]
        dsimp only
        have replaced' := ftp_replace_done env s' (payload bytes) (place + 5) stop (BitVec.ofNat 16 MASQ_BASE_PORT + r.num)
          (by omega)
          (by omega) given
        have longer : ((text env r).length : Int) - ((stop : Int) - (place + 5 : Nat)) = delta := by
          rw [delta'']
          omega
        unfold text at longer data
        rw [replaced', data, longer]

end Segments

-- Datagrams that come in for a port, as from a server that has connected to it.
def Meanwhile (port : Port) : Masq → Masq → Prop := Relation.ReflTransGen fun s s' =>
  ∃ env q u res, q.body = .tcp u ∧ u.dstport = port ∧ env.isLocal = true ∧ masqIpInput env s q = some res ∧ s' = res.masq

-- What such datagrams leave: only the record at place i is touched, and it is still the same record.
structure Left (db db' : PortDb) (i : Nat) : Prop where
  others : ∀ k, k ≠ i → db' k = db k
  same : ∀ r, db i = some r → ∃ r', db' i = some r' ∧ SameRecord r r'

theorem left_refl (db : PortDb) (i : Nat) : Left db db i := ⟨fun _ _ => rfl, fun r here => ⟨r, here, same_refl r⟩⟩

theorem incoming_left (env : Env) (s : Masq) (q : Dgram) (ptr : Ptr) (i : Nat) (place : ∀ k, ptr = .slot k → k = i) :
    Left s.portDb (incoming env s q ptr).masq.portDb i := by
  unfold incoming
  cases found : s.get ptr with
  | none => exact left_refl s.portDb i
  | some r =>
      have record := in_record_same s { r with modified := env.time } q.body
      dsimp only
      generalize inRecord s { r with modified := env.time } q.body = r' at record ⊢
      cases ptr with
      | redirection k => exact left_refl s.portDb i
      | slot k =>
          obtain rfl := place k rfl
          refine ⟨fun j other => Function.update_of_ne other _ _, fun x here => ⟨r', Function.update_self .., ?_⟩⟩
          cases found.symm.trans here
          exact ⟨record.memory, record.num, record.endpoint⟩

theorem meanwhile_left (i : Nat) (bound : i < MASQ_NUM_PORTS) (s s' : Masq)
    (met : Meanwhile (BitVec.ofNat 16 (MASQ_BASE_PORT + i)) s s') : Left s.portDb s'.portDb i := by
  induction met with
  | refl => exact left_refl s.portDb i
  | tail met step ih =>
      rename_i s1 s2
      obtain ⟨env, q, u, res, body, port, isLocal, run, rfl⟩ := step
      have number := slot_port i bound
      have place : ∀ ptr, inbound env s1 u.dstport = some ptr → ∀ k, ptr = .slot k → k = i := by
        intro ptr here k slot
        subst slot
        unfold inbound at here
        rw [isLocal, if_neg (by decide)] at here
        split at here
        · cases here
        · split at here
          · have slot := Ptr.slot.inj (Option.some.inj here)
            rw [← slot, port, number, Nat.add_sub_cancel_left]
          · cases here
      have later : Left s1.portDb res.masq.portDb i := by
        unfold masqIpInput at run
        rw [body] at run
        dsimp only [inPort] at run
        cases there : inbound env s1 u.dstport with
        | some ptr =>
            rw [there] at run
            cases run
            exact incoming_left env s1 q ptr i (place ptr there)
        | none =>
            unfold inbound at there
            rw [isLocal, if_neg (by decide)] at there
            split at there
            · cases there
            · rw [if_pos (by rw [port, number]; exact ⟨Nat.le_add_right _ _, Nat.add_lt_add_left bound _⟩)] at there
              cases there
      refine ⟨fun k other => (later.others k other).trans (ih.others k other), fun r here => ?_⟩
      obtain ⟨r', here', same⟩ := ih.same r here
      obtain ⟨r'', here'', same'⟩ := later.same r' here'
      exact ⟨r'', here'', same_trans r r' r'' same same'⟩

-- The place of the record of the control connection.
def controlPlace (env : Env) (s : Masq) (bytes : Buffer) : Option Nat :=
  findPortRecord env.nul s.portDb (sourceOf bytes) (tcpFields bytes).srcport (tcpFields bytes).dstport IPPROTO_TCP

-- The segment goes out by the record of its connection, and there is memory. The port in the command is not the one of the control
-- connection itself, and the new record does not take the place of an expired one that is the control connection's.
structure Tracked (env : Env) (s : Masq) (bytes : Buffer) : Prop where
  apart : env.nul.masqAddr ≠ sourceOf bytes
  room : env.reserve = true
  unredirected : findRedirectionByMasqPort s (tcpFields bytes).srcport = none
  own : ∀ place port stop, First (payload bytes) place port stop → port ≠ (tcpFields bytes).srcport
  kept : ∀ place port stop i r s', First (payload bytes) place port stop → Entered env s bytes port i r s' →
    controlPlace env s bytes ≠ some i

-- If the segment is new, its new text has another length than the old, and no record in front of the new one has the same
-- address and port.
def Noted (env : Env) (s : Masq) (bytes : Buffer) : Prop :=
  ∀ place port stop i r s' j c, First (payload bytes) place port stop → Entered env s bytes port i r s' →
    controlPlace env s bytes = some j →
    s.portDb j = some c → after (tcpFields bytes).seq c.seq = true →
      (text env r).length ≠ stop - (place + 5) ∧ ∀ k < i, ¬ Matches s.portDb (sourceOf bytes) port 0 IPPROTO_TCP k

-- When a segment that has been rewritten comes again, with the same public address, it becomes the same by the same record.
def Retried (env : Env) (s : Masq) (bytes : Buffer) : Prop :=
  ∀ delta bytes' i s' r res later env', modifyBytes env s bytes = .done delta bytes' (some i) s' → s'.portDb i = some r →
    outgoingTcp env s (dgramOf bytes) (tcpFields bytes) = some res → Meanwhile (BitVec.ofNat 16 MASQ_BASE_PORT + r.num) res.masq later →
    env'.localaddr = env.localaddr → env'.reserve = true → env'.nul.masqAddr ≠ sourceOf bytes →
      ∃ s'' r', modifyBytes env' later bytes = .done delta bytes' (some i) s'' ∧ s''.portDb i = some r' ∧ r'.memory = r.memory

section Entering

variable (env : Env) (s : Masq) (placed : Placed s.portDb) (c : Record) (saddr seq : Long) (port : Port) (i : Nat) (s' : Masq)
  (entry : ftpEntry env s c saddr seq port = (some i, s'))

include placed entry

-- The table with the record for the incoming data.
theorem entry_state :
    (∀ k, k ≠ i → s'.portDb k = s.portDb k) ∧ s'.redirectionDb = s.redirectionDb ∧ i < MASQ_NUM_PORTS
      ∧ (after seq c.seq = true → s'.portDb i = some (ftpRecord env s i saddr port) ∧ s'.allocated = s.allocated + 1)
      ∧ (after seq c.seq = false → s' = s ∧ findPortRecord env.nul s.portDb saddr port 0 IPPROTO_TCP = some i) := by
  unfold ftpEntry at entry
  by_cases new : after seq c.seq = true
  · rw [if_pos new] at entry
    cases made : newPortRecord env.time env.allocFtp (List.range MASQ_NUM_PORTS) s.portDb with
    | mk place db =>
        have others := new_place env.time env.allocFtp (List.range MASQ_NUM_PORTS) s.portDb db placed
        obtain ⟨-, inside⟩ := new_port_record_spec env.time env.allocFtp (List.range MASQ_NUM_PORTS) s.portDb
        rw [made] at entry others inside
        cases place with
        | none => cases entry
        | some i' =>
            cases entry
            refine ⟨fun k other => ?_, rfl, List.mem_range.mp (inside i rfl), fun _ => ⟨Function.update_self .., rfl⟩,
              fun old => by rw [new] at old; cases old⟩
            exact (Function.update_of_ne other _ _).trans (others i rfl k other)
  · rw [if_neg new] at entry
    obtain ⟨found, rfl⟩ := Prod.mk.inj entry
    obtain ⟨-, -, bound, -⟩ := find_port_record_spec env.nul s.portDb saddr port 0 IPPROTO_TCP i found
    exact ⟨fun _ _ => rfl, rfl, bound, fun yes => absurd yes new, fun _ => ⟨rfl, found⟩⟩

end Entering

theorem no_match (r : Record) (addr : Long) (port srcPort dstPort : Port) (proto : Proto) (ends : endpoint r = ⟨addr, port, proto⟩)
    (other : port ≠ srcPort) : ¬ sameConnection r addr srcPort dstPort proto := by
  intro same
  unfold sameConnection at same
  rw [decide_eq_true_eq] at same
  exact other ((Endpoint.mk.inj ends).2.1.symm.trans same.2.1.symm)

theorem data_match (r : Record) (addr : Long) (port : Port) (proto : Proto) (ends : endpoint r = ⟨addr, port, proto⟩) :
    sameConnection r addr port 0 proto := by
  obtain ⟨addr', port', proto'⟩ := Endpoint.mk.inj ends
  unfold sameConnection
  rw [addr', port', proto']
  simp

section Passes

variable (env : Env) (s : Masq) (placed : Placed s.portDb) (bytes : Buffer) (segment : FtpSegment bytes)
    (tracked : Tracked env s bytes)
  (place : Nat) (port : Port) (stop : Nat) (first : First (payload bytes) place port stop) (i : Nat) (r : Record) (s' : Masq)
  (entered : Entered env s bytes port i r s')

include placed tracked first entered

-- The record for the incoming data is apart from that of the control connection, which is still found.
theorem control_entered : ∃ j c, controlPlace env s bytes = some j ∧ s.portDb j = some c ∧ j ≠ i ∧ s'.portDb j = some c
    ∧ endpoint r = ⟨sourceOf bytes, port, IPPROTO_TCP⟩
    ∧ findPortRecord env.nul s'.portDb (sourceOf bytes) (tcpFields bytes).srcport (tcpFields bytes).dstport IPPROTO_TCP = some j := by
  obtain ⟨c, bound, entry, here⟩ := id entered
  obtain ⟨j, found, there⟩ := Option.bind_eq_some_iff.mp bound
  have other : j ≠ i := fun same => tracked.kept place port stop i r s' first entered (same ▸ found)
  obtain ⟨others, -, -, -, -⟩ := entry_state env s placed c (sourceOf bytes) (tcpFields bytes).seq port i s' entry
  have ends := entry_endpoint env s c _ _ port i s' r entry here
  have apart := no_match r (sourceOf bytes) port (tcpFields bytes).srcport (tcpFields bytes).dstport IPPROTO_TCP ends
    (tracked.own place port stop first)
  obtain ⟨low, matched, before⟩ := (find_matches env.nul s.portDb _ _ _ _ tracked.apart j).mp found
  refine ⟨j, c, found, there, other, (others j other).trans there, ends,
    (find_matches env.nul s'.portDb _ _ _ _ tracked.apart j).mpr
    ⟨low, ?_, fun k less => ?_⟩⟩
  · unfold Matches
    rw [others j other]
    exact matched
  · by_cases new : k = i
    · rintro ⟨x, there', same⟩
      rw [new, here] at there'
      cases there'
      exact apart same
    · unfold Matches
      rw [others k new]
      exact before k less

include segment

theorem first_pass (whole : ¬ CutOff (payload bytes)) (delta : Int) (bytes' : Buffer)
    (done : modifyBytes env s bytes = .done delta bytes' (some i) s') : ∃ j c c' res, controlPlace env s bytes = some j
      ∧ s.portDb j = some c
      ∧ j ≠ i ∧ outgoingTcp env s (dgramOf bytes) (tcpFields bytes) = some res ∧ Touched s'.portDb res.masq.portDb j c c'
      ∧ c'.seq = (rewritten c (tcpFields bytes).seq delta).seq ∧ res.masq.allocated = s'.allocated := by
  obtain ⟨j, c, found, there, other, there', -, found'⟩ := control_entered env s placed bytes tracked place port stop first i r s' entered
  obtain ⟨c₀, -, entry, -⟩ := id entered
  have unredirected : findRedirectionByMasqPort s' (tcpFields bytes).srcport = none := by
    obtain ⟨-, redirections, -, -, -⟩ := entry_state env s placed _ _ _ port i s' entry
    unfold findRedirectionByMasqPort
    rw [redirections]
    exact tracked.unredirected
  obtain ⟨res, c', sent, touched, seq, -, allocated⟩ := segment_passes env s' (dgramOf bytes)
    (tcpFields bytes) j c tracked.apart unredirected
    found' there' delta (.tcp { tcpFields bytes with data := bytes'.drop (tcpData bytes) })
  refine ⟨j, c, c', res, found, there, other, ?_, touched, seq, allocated⟩
  unfold outgoingTcp
  rw [if_pos segment.ftp, show (dgramOf bytes).saddr = sourceOf bytes from rfl,
    modifier_refines env s bytes segment whole delta bytes' (some i) s' done]
  exact congrArg some sent

end Passes

-- The table when the segment comes again: db' after the first time, later after what has come in meanwhile.
section Again

variable (env : Env) (s : Masq) (placed : Placed s.portDb) (bytes : Buffer) (tracked : Tracked env s bytes)
  (place : Nat) (port : Port) (stop : Nat) (first : First (payload bytes) place port stop) (i : Nat) (r : Record) (s' : Masq)
  (entered : Entered env s bytes port i r s') (j : Nat) (c c' : Record) (found : controlPlace env s bytes = some j)
  (other : j ≠ i) (db' : PortDb) (touched : Touched s'.portDb db' j c c') (later : PortDb) (left : Left db' later i)
  (nul' : Record) (apart' : nul'.masqAddr ≠ sourceOf bytes)

include placed tracked first entered found other touched left apart'

theorem again_found : later j = some c' ∧ (∃ r', later i = some r' ∧ SameRecord r r')
    ∧ findPortRecord nul' later (sourceOf bytes) (tcpFields bytes).srcport (tcpFields bytes).dstport IPPROTO_TCP = some j
    ∧ (findPortRecord nul' later (sourceOf bytes) port 0 IPPROTO_TCP = some i ↔
        ∀ k < i, ¬ Matches s.portDb (sourceOf bytes) port 0 IPPROTO_TCP k) := by
  obtain ⟨c₀, -, entry, here⟩ := id entered
  obtain ⟨others, -, bound, -, -⟩ := entry_state env s placed c₀ (sourceOf bytes) (tcpFields bytes).seq port i s' entry
  have ends := entry_endpoint env s c₀ _ _ port i s' r entry here
  have mine : db' i = some r := (touched.others i other.symm).trans here
  obtain ⟨r', mine', same⟩ := left.same r mine
  have ends' : endpoint r' = ⟨sourceOf bytes, port, IPPROTO_TCP⟩ := same.endpoint.symm.trans ends
  have apart := no_match r' (sourceOf bytes) port (tcpFields bytes).srcport (tcpFields bytes).dstport IPPROTO_TCP ends'
    (tracked.own place port stop first)
  have kept : ∀ k, k ≠ i → ∀ srcPort dstPort, (Matches s.portDb (sourceOf bytes) srcPort dstPort IPPROTO_TCP k ↔
      Matches later (sourceOf bytes) srcPort dstPort IPPROTO_TCP k) := by
    intro k new srcPort dstPort
    have asks := touched_matches s'.portDb db' j c c' touched (sourceOf bytes) srcPort dstPort IPPROTO_TCP k
    unfold Matches at asks ⊢
    rwa [others k new, ← left.others k new] at asks
  obtain ⟨low, matched, before⟩ := (find_matches env.nul s.portDb _ _ _ _ tracked.apart j).mp found
  refine ⟨(left.others j other).trans touched.after, ⟨r', mine', same⟩, (find_matches nul' later _ _ _ _ apart' j).mpr
    ⟨low, (kept j other _ _).mp matched, fun k less => ?_⟩, ?_⟩
  · by_cases new : k = i
    · rintro ⟨x, here', same'⟩
      rw [new, mine'] at here'
      cases here'
      exact apart same'
    · exact (kept k new _ _).not.mp (before k less)
  · rw [find_matches nul' later _ _ _ _ apart' i]
    have data : Matches later (sourceOf bytes) port 0 IPPROTO_TCP i := ⟨r', mine', data_match r' _ _ _ ends'⟩
    constructor
    · rintro ⟨-, -, none⟩ k less
      exact (kept k less.ne _ _).not.mpr (none k less)
    · exact fun none => ⟨bound, data, fun k less => (kept k less.ne _ _).not.mp (none k less)⟩

end Again

-- The same text in the same place makes the same datagram.
theorem modified_again (env env' : Env) (s later : Masq) (bytes : Buffer) (segment : FtpSegment bytes)
    (whole : ¬ CutOff (payload bytes))
    (place : Nat) (port : Port) (stop : Nat) (first : First (payload bytes) place port stop) (i : Nat) (r r' : Record)
      (s' s'' : Masq)
    (entered : Entered env s bytes port i r s') (entered' : Entered env' later bytes port i r' s'') (num : r.num = r'.num)
    (address : env'.localaddr = env.localaddr) (room : env.reserve = true) (room' : env'.reserve = true) :
    ∃ delta bytes', modifyBytes env s bytes = .done delta bytes' (some i) s' ∧ modifyBytes env' later bytes = .done delta bytes'
      (some i) s''
      ∧ delta = (text env r).length - ((stop : Int) - (place + 5 : Nat)) := by
  have result : ∀ env s r s', Entered env s bytes port i r s' → modifyBytes env s bytes
      = replaceBytes env s' bytes (tcpData bytes + (place + 5)) (tcpData bytes + stop) i
        (BitVec.ofNat 16 MASQ_BASE_PORT + r.num) := by
    intro env s r s' entered
    obtain ⟨missing, none⟩ | ⟨place', port', stop', first', found⟩ := find_first_command env bytes whole
    · exact absurd first.command (none place port stop)
    · obtain ⟨rfl, rfl, rfl⟩ := first_unique _ _ _ _ _ _ _ first first'
      obtain ⟨-, -, unentered⟩ | ⟨i', r', s'', entered', replaced⟩ := modify_first env s bytes place port stop found
      · exact absurd entered (unentered i r s')
      · obtain ⟨rfl, rfl, rfl⟩ := entered_unique env s bytes port i i' r r' s' s'' entered entered'
        exact replaced
  have words : text env' r' = text env r := by
    unfold text
    rw [address, num]
  obtain ⟨bytes', delta, done, shape, -, length, longer⟩ := replaced_bytes env bytes segment place port stop first r s' i
  obtain ⟨bytes'', delta', done', shape', -, length', longer'⟩ := replaced_bytes env' bytes segment place port stop first r' s'' i
  have total : bytes''.length = bytes'.length := by
    rw [words] at length'
    omega
  have same : bytes'' = bytes' := by
    rw [shape, shape', total, words]
  refine ⟨delta, bytes', ?_, ?_, ?_⟩
  · rw [result env s r s' entered, done, if_neg fun both => by rw [room] at both; cases both.2]
  · rw [result env' later r' s'' entered', done', if_neg (fun both => by rw [room'] at both; cases both.2), same]
    congr 1
    omega
  · obtain ⟨-, order, -⟩ := argument_inside bytes segment place port stop first
    omega

theorem done_entered (env : Env) (s : Masq) (bytes : Buffer) (segment : FtpSegment bytes) (whole : ¬ CutOff (payload bytes))
    (delta : Int)
    (bytes' : Buffer) (i : Nat) (s' : Masq) (done : modifyBytes env s bytes = .done delta bytes' (some i) s') :
    ∃ place port stop r, First (payload bytes) place port stop ∧ Entered env s bytes port i r s' := by
  obtain ⟨missing, -⟩ | ⟨place, port, stop, first, found⟩ := find_first_command env bytes whole
  · unfold modifyBytes at done
    dsimp only at done
    rw [show (tcpFields bytes).data = payload bytes from rfl, missing] at done
    cases done
  · obtain ⟨s'', dropped, -⟩ | ⟨i', r, s'', entered, replaced⟩ := modify_first env s bytes place port stop found
    · rw [dropped] at done
      cases done
    · obtain ⟨bytes'', delta', result, -⟩ := replaced_bytes env bytes segment place port stop first r s'' i'
      rw [replaced, result] at done
      split at done
      · cases done
      · cases done
        exact ⟨place, port, stop, r, first, entered⟩

theorem after_self (seq : Long) : after seq seq = false := by
  unfold after
  rw [BitVec.sub_self]
  rfl

theorem rewritten_seq (c : Record) (seq : Long) (delta : Int) :
    (rewritten c seq delta).seq = if delta ≠ 0 ∧ after seq c.seq = true then seq else c.seq := by
  unfold rewritten
  split <;> rfl

section Retrying

variable (env : Env) (s : Masq) (placed : Placed s.portDb) (bytes : Buffer) (segment : FtpSegment bytes)
    (whole : ¬ CutOff (payload bytes))
  (tracked : Tracked env s bytes)

include placed segment whole tracked

theorem noted_retried (noted : Noted env s bytes) : Retried env s bytes := by
  intro delta bytes' i s' r res later env' done here sent met address room' apart'
  obtain ⟨place, port, stop, r₀, first, entered⟩ := done_entered env s bytes segment whole delta bytes' i s' done
  obtain ⟨j, c, c', res', found, there, other, sent', touched, seq, -⟩ :=
    first_pass env s placed bytes segment tracked place port stop first
    i r₀ s' entered whole delta bytes' done
  cases sent.symm.trans sent'
  obtain ⟨c₀, bound, entry, here'⟩ := id entered
  cases here.symm.trans here'
  rw [show findPortRecord env.nul s.portDb (sourceOf bytes) (tcpFields bytes).srcport
    (tcpFields bytes).dstport IPPROTO_TCP = some j from found,
    Option.bind_some, there] at bound
  cases bound
  obtain ⟨-, -, low, -, retry⟩ := entry_state env s placed c (sourceOf bytes) (tcpFields bytes).seq port i s' entry
  have number : r.num = BitVec.ofNat 16 i := by
    have placed' := placed_ftp_entry env s placed c (sourceOf bytes) (tcpFields bytes).seq port
    rw [entry] at placed'
    exact (placed' i r here).2
  rw [number, ← BitVec.ofNat_add] at met
  have left := meanwhile_left i low res.masq later met
  obtain ⟨there', ⟨r', mine, same⟩, control', data⟩ := again_found env s placed bytes tracked place port stop first i r s' entered j c c'
    found other res.masq.portDb touched later.portDb left env'.nul apart'
  obtain ⟨delta', bytes₀, done', -, longer⟩ := modified_again env env s s bytes segment whole place port stop first i r r s' s' entered entered
    rfl rfl tracked.room tracked.room
  cases done.symm.trans done'
  have remembered : after (tcpFields bytes).seq c'.seq = false ∧ ∀ k < i, ¬ Matches s.portDb (sourceOf bytes) port 0 IPPROTO_TCP k := by
    rw [seq, rewritten_seq]
    by_cases new : after (tcpFields bytes).seq c.seq = true
    · obtain ⟨different, none⟩ := noted place port stop i r s' j c first entered found there new
      obtain ⟨-, order, -⟩ := argument_inside bytes segment place port stop first
      rw [if_pos ⟨by omega, new⟩]
      exact ⟨after_self _, none⟩
    · obtain ⟨-, found'⟩ := retry (Bool.eq_false_iff.mpr new)
      rw [if_neg fun both => new both.2]
      exact ⟨Bool.eq_false_iff.mpr new, ((find_matches env.nul s.portDb _ _ _ _ tracked.apart i).mp found').2.2⟩
  have entered' : Entered env' later bytes port i r' later := by
    refine ⟨c', ?_, ?_, mine⟩
    · rw [control', Option.bind_some, there']
    · unfold ftpEntry
      rw [if_neg (by rw [remembered.1]; decide), data.mpr remembered.2]
  obtain ⟨delta', bytes₁, first', again, -⟩ := modified_again env env' s later bytes segment whole place port stop first i r r' s' later
    entered entered' same.num address tracked.room room'
  cases done.symm.trans first'
  exact ⟨later, r', again, mine, same.memory.symm⟩

theorem retried_noted (retried : Retried env s bytes) : Noted env s bytes := by
  intro place port stop i r s' j c first entered found there new
  obtain ⟨delta, bytes', done, -, longer⟩ := modified_again env env s s bytes segment whole place port stop first i r r s' s' entered entered
    rfl rfl tracked.room tracked.room
  obtain ⟨j', c₀, c', res, found', there₀, other, sent, touched, seq, allocated⟩ :=
    first_pass env s placed bytes segment tracked place port
    stop first i r s' entered whole delta bytes' done
  cases found.symm.trans found'
  cases there.symm.trans there₀
  obtain ⟨c₁, bound, entry, here⟩ := id entered
  rw [show findPortRecord env.nul s.portDb (sourceOf bytes) (tcpFields bytes).srcport
    (tcpFields bytes).dstport IPPROTO_TCP = some j from found,
    Option.bind_some, there] at bound
  cases bound
  obtain ⟨-, -, low, made, -⟩ := entry_state env s placed c (sourceOf bytes) (tcpFields bytes).seq port i s' entry
  obtain ⟨fresh, counted⟩ := made new
  cases here.symm.trans fresh
  obtain ⟨there', -, control', data⟩ := again_found env s placed bytes tracked place port stop first i _ s' entered j c c'
    found other res.masq.portDb touched res.masq.portDb (left_refl _ i) env.nul tracked.apart
  obtain ⟨s'', r', again, mine, memory⟩ := retried delta bytes' i s' _ res res.masq env done here sent .refl rfl tracked.room tracked.apart
  obtain ⟨place', port', stop', r'', first', c₂, bound', entry', here'⟩ :=
    done_entered env res.masq bytes segment whole delta bytes' i s'' again
  obtain ⟨rfl, rfl, rfl⟩ := first_unique _ _ _ _ _ _ _ first first'
  rw [control', Option.bind_some, there'] at bound'
  cases bound'
  have placed' := placed_outgoing_tcp env s placed (dgramOf bytes) (tcpFields bytes) res sent
  obtain ⟨-, -, -, made', retry⟩ := entry_state env res.masq placed' c' (sourceOf bytes) (tcpFields bytes).seq port i s'' entry'
  obtain ⟨-, order, -⟩ := argument_inside bytes segment place port stop first
  rw [seq, rewritten_seq] at made' retry
  by_cases equal : delta = 0
  · obtain ⟨fresh', -⟩ := made' (by rw [if_neg fun both => both.1 equal]; exact new)
    cases mine.symm.trans fresh'
    have older : res.masq.allocated = s.allocated := memory
    omega
  · obtain ⟨-, found''⟩ := retry (by rw [if_pos ⟨equal, new⟩]; exact after_self _)
    exact ⟨by omega, data.mp found''⟩

end Retrying

structure Kept (env : Env) (s : Masq) (bytes : Buffer) : Prop where
  reads : ReadsInside env bytes
  rewritten : Rewritten env s bytes
  retried : Retried env s bytes

-- From 10.0.0.1, port 1024, to port 21.
def heading (length : Byte) : Buffer :=
  [0x45, 0, 0, length, 0, 0, 0, 0, 64, 6, 0, 0, 10, 0, 0, 1, 198, 51, 100, 1, 4, 0, 0, 21, 0, 0, 0, 1, 0, 0, 0, 0, 0x50, 0x18, 0,
    0, 0, 0, 0, 0]

-- "PORT 1,2,3,4,5,6" with the end of the line
def wholeCommand : Buffer := heading 58 ++ PORT_UPPER ++ [49, 44, 50, 44, 51, 44, 52, 44, 53, 44, 54, 13, 10]

def quiet : Env := { away with nul := { webServer with masqAddr := 0 } }

theorem whole_command : First (payload wholeCommand) 0 1286 16 := by
  refine ⟨⟨by decide, by decide, by decide⟩, fun a front => absurd front (Nat.not_lt_zero a)⟩

theorem whole_tracked : Tracked quiet initial wholeCommand where
  apart := by decide
  room := rfl
  unredirected := rfl
  own place port stop first := by
    obtain ⟨-, rfl, -⟩ := first_unique _ _ _ _ _ _ _ whole_command first
    decide
  kept place port stop i r s' _ entered found := by
    obtain ⟨x, here, -⟩ := find_port_record_spec _ _ _ _ _ _ _ found
    cases here

-- "PORT 1,2,3,4,5,678"
def cutCommand : Buffer := heading 58 ++ PORT_UPPER ++ [49, 44, 50, 44, 51, 44, 52, 44, 53, 44, 54, 55, 56]

end MagxNet.Masquerade
