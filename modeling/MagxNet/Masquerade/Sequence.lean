import MagxNet.Masquerade.Records

set_option autoImplicit false

namespace MagxNet.Masquerade

open Bytes

-- A segment that a client has sent: by how much ftp_modifier made it longer, and the sequence number it left with.
structure Segment where
  seq : Long
  delta : Int
  out : Long
deriving DecidableEq, Repr

-- The changes that count: those that come after the last of them; the first segment has the sequence number isn.
def changes (isn : Long) : List Segment → List Segment
  | [] => []
  | x :: rest => if x.delta ≠ 0 ∧ after x.seq isn then x :: changes x.seq rest else changes isn rest

def total (l : List Segment) : Long := (l.map fun x => BitVec.ofInt 32 x.delta).sum

def lastSeq (isn : Long) (l : List Segment) : Long := (l.getLast?.map Segment.seq).getD isn

-- The changes before a sequence number, as far as the record remembers: all of them, or all but the last.
def changesBefore (isn : Long) (sent : List Segment) (seq : Long) : List Segment :=
  if after seq (lastSeq isn (changes isn sent)) then changes isn sent else (changes isn sent).dropLast

-- What the record says of the segments sent so far.
structure Reads (r : Record) (isn : Long) (sent : List Segment) : Prop where
  offs : r.offs = total (changes isn sent)
  prevOffs : r.prevOffs = total (changes isn sent).dropLast
  seq : r.seq = lastSeq isn (changes isn sent)

theorem reads_offset (r : Record) (isn : Long) (sent : List Segment) (reads : Reads r isn sent) (seq : Long) :
    offset r seq = total (changesBefore isn sent seq) := by
  rw [offset, changesBefore, reads.seq, reads.offs, reads.prevOffs]
  split <;> rfl

theorem changes_append (sent : List Segment) (x : Segment) : ∀ isn : Long, changes isn (sent ++ [x]) =
    changes isn sent ++ if x.delta ≠ 0 ∧ after x.seq (lastSeq isn (changes isn sent)) then [x] else [] := by
  induction sent with
  | nil =>
      intro isn
      rw [List.nil_append, changes, changes, changes]
      rfl
  | cons y rest next =>
      intro isn
      rw [List.cons_append, changes, changes]
      by_cases counts : y.delta ≠ 0 ∧ after y.seq isn = true
      · have last : lastSeq isn (y :: changes y.seq rest) = lastSeq y.seq (changes y.seq rest) := by
          rw [lastSeq, lastSeq, List.getLast?_cons]
          cases (changes y.seq rest).getLast? <;> rfl
        rw [if_pos counts, if_pos counts, next, last, List.cons_append]
      · rw [if_neg counts, if_neg counts, next]

theorem total_append (l : List Segment) (x : Segment) : total (l ++ [x]) = total l + BitVec.ofInt 32 x.delta := by
  rw [total, total, List.map_append, List.sum_append, List.map_singleton, List.sum_singleton]

-- The record is told of a segment.
theorem reads_rewritten (r : Record) (isn : Long) (sent : List Segment) (x : Segment) (reads : Reads r isn sent) :
    Reads (rewritten r x.seq x.delta) isn (sent ++ [x]) := by
  have appended := changes_append sent x isn
  rw [← reads.seq] at appended
  rw [rewritten]
  by_cases counts : x.delta ≠ 0 ∧ after x.seq r.seq = true
  · rw [if_pos counts] at appended ⊢
    refine ⟨?_, ?_, ?_⟩
    · rw [appended, total_append, reads.offs]
    · rw [appended, List.dropLast_concat]
      exact reads.offs
    · rw [appended, lastSeq, List.getLast?_concat]
      rfl
  · rw [if_neg counts, List.append_nil] at appended
    rw [if_neg counts]
    exact ⟨appended ▸ reads.offs, appended ▸ reads.prevOffs, appended ▸ reads.seq⟩

-- By how much ftp_modifier makes a segment longer.
def lengthChange (env : Env) (s : Masq) (p : Dgram) (t : Tcp) : Int :=
  if t.dstport = FTP_PORT then
    match ftpModifier env s p.saddr t with
    | .done delta _ _ => delta
    | _ => 0
  else 0

def tcpOf (p : Dgram) : Option Tcp :=
  match p.body with
  | .tcp t => some t
  | _ => none

-- The segment, if any, that is translated on its way out by the record in place i.
def segmentOf (i : Nat) (s : Masq) : Cmd → List Segment
  | .input env p =>
      match tcpOf p, masqIpInput env s p with
      | some t, some res =>
          match inbound env s t.dstport, res.buf.bind tcpOf with
          | none, some out => if res.used = some (.slot i) then [⟨t.seq, lengthChange env s p t, out.seq⟩] else []
          | _, _ => []
      | _, _ => []
  | _ => []

def runCmds : List Cmd → Masq → Option Masq
  | [], s => some s
  | cmd :: rest, s => (step s cmd).bind (runCmds rest)

def segments (i : Nat) : List Cmd → Masq → List Segment
  | [], _ => []
  | cmd :: rest, s =>
      match step s cmd with
      | none => []
      | some s' => segmentOf i s cmd ++ segments i rest s'

-- What becomes of the record in place i when the segments sent are sent by it. A record that is new has another memory.
structure Carries (i : Nat) (s s' : Masq) (sent : List Segment) : Prop where
  allocated : s.allocated ≤ s'.allocated
  record : ∀ r', s'.portDb i = some r' → r'.memory < s.allocated → ∃ r, s.portDb i = some r ∧ r.memory = r'.memory ∧
    (r.dstPort ≠ 0 → r'.dstPort = r.dstPort ∧ ∀ isn before, Reads r isn before → Reads r' isn (before ++ sent))

section Carry

variable (i : Nat) (s : Masq)

theorem carries_refl : Carries i s s [] :=
  ⟨le_refl _, fun r' here _ => ⟨r', here, rfl, fun _ => ⟨rfl, fun _ before reads => (List.append_nil before).symm ▸ reads⟩⟩⟩

theorem carries_trans (s' s'' : Masq) (first second : List Segment) (one : Carries i s s' first) (two : Carries i s' s'' second) :
    Carries i s s'' (first ++ second) := by
  refine ⟨one.allocated.trans two.allocated, fun r'' here old => ?_⟩
  obtain ⟨r', here', memory', kept'⟩ := two.record r'' here (old.trans_le one.allocated)
  obtain ⟨r, here0, memory, kept⟩ := one.record r' here' (memory' ▸ old)
  refine ⟨r, here0, memory.trans memory', fun set => ?_⟩
  obtain ⟨dst, reads⟩ := kept set
  obtain ⟨dst', reads'⟩ := kept' (dst ▸ set)
  refine ⟨dst'.trans dst, fun isn before start => ?_⟩
  rw [← List.append_assoc]
  exact reads' isn _ (reads isn before start)

theorem shrink_carries (db : PortDb) (fewer : ∀ i r, db i = some r → s.portDb i = some r) : Carries i s { s with portDb := db } [] :=
  ⟨le_refl _, fun r' here _ => ⟨r', fewer i r' here, rfl, fun _ => ⟨rfl, fun _ before reads => (List.append_nil before).symm ▸ reads⟩⟩⟩

theorem insert_carries (db : PortDb) (fewer : ∀ i r, db i = some r → s.portDb i = some r) (j : Nat) (r : Record)
    (memory : r.memory = s.allocated) (sent : List Segment) (away : j ≠ i → sent = []) :
    Carries i s { s with portDb := Function.update db j (some r), allocated := s.allocated + 1 } sent := by
  refine ⟨Nat.le_succ _, fun r' here old => ?_⟩
  dsimp only at here
  by_cases place : j = i
  · rw [place, Function.update_self] at here
    cases here
    omega
  · rw [Function.update_of_ne (Ne.symm place)] at here
    rw [away place]
    exact (shrink_carries i s db fewer).record r' here old

-- The record in ptr is changed: in place i as if by the segments sent, and elsewhere in any way.
theorem put_carries (ptr : Ptr) (r r' : Record) (here : s.get ptr = some r) (memory : r.memory = r'.memory) (sent : List Segment)
    (changed : ptr = .slot i → r.dstPort ≠ 0 → r'.dstPort = r.dstPort ∧ ∀ isn before, Reads r isn before → Reads r' isn (before ++ sent))
    (away : ptr ≠ .slot i → sent = []) : Carries i s (s.put r' ptr) sent := by
  cases ptr with
  | slot j =>
      refine ⟨le_refl _, fun r2 there old => ?_⟩
      dsimp only [Masq.put] at there
      by_cases place : j = i
      · rw [place, Function.update_self] at there
        cases there
        exact ⟨r, place ▸ here, memory, changed (congrArg _ place)⟩
      · rw [Function.update_of_ne (Ne.symm place)] at there
        rw [away fun same => place (Ptr.slot.inj same)]
        exact (carries_refl i s).record r2 there old
  | redirection k =>
      rw [away fun same => by cases same]
      exact ⟨le_refl _, (carries_refl i s).record⟩

end Carry

-- A record is changed, but not what it says of a connection.
structure SameSequence (r r' : Record) : Prop where
  memory : r.memory = r'.memory
  dstPort : r'.dstPort = r.dstPort
  offs : r'.offs = r.offs
  prevOffs : r'.prevOffs = r.prevOffs
  seq : r'.seq = r.seq

theorem same_reads (r r' : Record) (same : SameSequence r r') (isn : Long) (before : List Segment) (reads : Reads r isn before) :
    Reads r' isn (before ++ []) := by
  rw [List.append_nil]
  exact ⟨same.offs.trans reads.offs, same.prevOffs.trans reads.prevOffs, same.seq.trans reads.seq⟩

theorem same_offset (r r' : Record) (same : SameSequence r r') (seq : Long) : offset r' seq = offset r seq := by
  rw [offset, offset, same.offs, same.prevOffs, same.seq]

theorem timeout_sequence (s : Masq) (r : Record) (t : Tcp) : SameSequence r (tcpTimeout s t r) := by
  rw [tcpTimeout]
  split <;> split <;> exact ⟨rfl, rfl, rfl, rfl, rfl⟩

theorem out_header_sequence (s : Masq) (r : Record) (body : Body) : SameSequence r (outHeader s r body) := by
  cases body with
  | tcp t => exact timeout_sequence s r t
  | _ => exact ⟨rfl, rfl, rfl, rfl, rfl⟩

section Outgoing

variable (env : Env) (i : Nat) (s : Masq)

theorem ftp_entry_carries (r : Record) (saddr seq : Long) (ftpPort : Port) : Carries i s (ftpEntry env s r saddr seq ftpPort).2 [] := by
  rw [ftpEntry]
  split
  · obtain ⟨fewer, _⟩ := new_port_record_spec env.time env.allocFtp (List.range MASQ_NUM_PORTS) s.portDb
    cases new : newPortRecord env.time env.allocFtp (List.range MASQ_NUM_PORTS) s.portDb with
    | mk found db =>
        rw [new] at fewer
        cases found with
        | none => exact shrink_carries i s db fewer
        | some j => exact insert_carries i s db fewer j _ rfl [] fun _ => rfl
  · exact carries_refl i s

theorem ftp_modifier_carries (saddr : Long) (t : Tcp) : ∀ s' ∈ (ftpModifier env s saddr t).state, Carries i s s' [] := by
  intro s' inside
  rcases ftp_modifier_state env s saddr t s' inside with rfl | ⟨r, ftpPort, rfl⟩
  · exact carries_refl i s'
  · exact ftp_entry_carries env i s r saddr t.seq ftpPort

-- The records are looked up by what a change does not touch.
theorem lookup_put (ptr : Ptr) (r r' : Record) (here : s.get ptr = some r)
    (same : ∀ addr src dst proto, sameConnection r' addr src dst proto = sameConnection r addr src dst proto)
    (port : r'.masqPort = r.masqPort) (saddr : Long) (src dst : Port) (proto : Proto) :
    lookup env (s.put r' ptr) saddr src dst proto = lookup env s saddr src dst proto := by
  cases ptr with
  | slot j =>
      have equal : ∀ k, sameConnection (((s.put r' (.slot j)).portDb k).getD env.nul) saddr src dst proto =
          sameConnection ((s.portDb k).getD env.nul) saddr src dst proto := by
        intro k
        dsimp only [Masq.put]
        by_cases place : k = j
        · have before : s.portDb j = some r := here
          rw [place, Function.update_self, before, Option.getD_some, Option.getD_some, same]
        · rw [Function.update_of_ne place]
      have there : ∀ k, ((s.put r' (.slot j)).portDb k).isSome = (s.portDb k).isSome := by
        intro k
        dsimp only [Masq.put]
        by_cases place : k = j
        · have before : s.portDb j = some r := here
          rw [place, Function.update_self, before, Option.isSome_some, Option.isSome_some]
        · rw [Function.update_of_ne place]
      have found : findPortRecord env.nul (s.put r' (.slot j)).portDb saddr src dst proto = findPortRecord env.nul s.portDb saddr src dst proto := by
        rw [findPortRecord, findPortRecord]
        simp only [equal, there]
      rw [lookup, lookup, found]
      rfl
  | redirection k =>
      have ports : (s.redirectionDb.set k r').map Record.masqPort = s.redirectionDb.map Record.masqPort :=
        set_same Record.masqPort s.redirectionDb k r r' here port.symm
      have general : ∀ l : List Record, (l.findIdx? fun r => decide (r.masqPort = src)) = (l.map Record.masqPort).findIdx? fun x => x = src :=
        fun l => by
          rw [List.findIdx?_map]
          rfl
      have found : findRedirectionByMasqPort (s.put r' (.redirection k)) src = findRedirectionByMasqPort s src := by
        rw [findRedirectionByMasqPort, findRedirectionByMasqPort, general, general]
        exact congrArg _ ports
      rw [lookup, lookup, found]
      rfl

theorem rewritten_fields (r : Record) (seq : Long) (delta : Int) : (rewritten r seq delta).memory = r.memory ∧
    (rewritten r seq delta).dstPort = r.dstPort ∧ (rewritten r seq delta).masqPort = r.masqPort ∧
    ∀ addr src dst proto, sameConnection (rewritten r seq delta) addr src dst proto = sameConnection r addr src dst proto := by
  rw [rewritten]
  split <;> exact ⟨rfl, rfl, rfl, fun _ _ _ _ => rfl⟩

theorem lookup_get (saddr : Long) (src dst : Port) (proto : Proto) (ptr : Ptr) (found : lookup env s saddr src dst proto = some ptr) :
    ∃ r, s.get ptr = some r := by
  rw [lookup] at found
  split at found
  · rename_i k redirected
    cases found
    have bound := (List.findIdx?_eq_some_iff_findIdx_eq.mp redirected).1
    exact ⟨_, List.getElem?_eq_getElem bound⟩
  · obtain ⟨j, place, rfl⟩ := Option.map_eq_some_iff.mp found
    obtain ⟨r, here, _⟩ := find_port_record_spec env.nul s.portDb saddr src dst proto j place
    exact ⟨r, here⟩

-- The record that a change is noted in is the one by which the segment is translated then.
theorem note_change_carries (saddr : Long) (t : Tcp) (x : Segment) (seq : x.seq = t.seq) :
    Carries i s (noteChange env s saddr t x.delta)
        (if lookup env s saddr t.srcport t.dstport IPPROTO_TCP = some (.slot i) then [x] else []) ∧
      lookup env (noteChange env s saddr t x.delta) saddr t.srcport t.dstport IPPROTO_TCP =
        lookup env s saddr t.srcport t.dstport IPPROTO_TCP := by
  rw [noteChange]
  cases found : lookup env s saddr t.srcport t.dstport IPPROTO_TCP with
  | none =>
      rw [if_neg (fun none => by cases none)]
      exact ⟨carries_refl i s, found⟩
  | some ptr =>
      obtain ⟨r, here⟩ := lookup_get env s saddr t.srcport t.dstport IPPROTO_TCP ptr found
      obtain ⟨memory, dst, port, same⟩ := rewritten_fields r t.seq x.delta
      dsimp only
      rw [here]
      refine ⟨put_carries i s ptr r _ here memory.symm _ (fun place _ => ⟨dst, fun isn before reads => ?_⟩) (fun place => ?_),
        (lookup_put env s ptr r _ here same port saddr _ _ _).trans found⟩
      · rw [if_pos (congrArg some place), ← seq]
        exact reads_rewritten r isn before x reads
      · exact if_neg fun equal => place (Option.some.inj equal)

-- A datagram is sent by the record that is found for it, or by a new one.
structure Leaves (p : Dgram) (look : Option Ptr) (res : Result) : Prop where
  carries : ∀ sent, (look.isSome ∨ res.used ≠ some (.slot i) → sent = []) → Carries i s res.masq sent
  used : ∀ ptr ∈ look, res.used = some ptr
  out : res.used = some (.slot i) → ∃ r', res.masq.portDb i = some r' ∧ ∀ t, tcpOf p = some t →
    ∃ out, res.buf.bind tcpOf = some out ∧ out.seq = t.seq + offset r' t.seq

-- What is left to do once there is a record.
theorem header_leaves (p : Dgram) (ptr : Ptr) (r : Record) (here : s.get ptr = some r) :
    let r1 := { r with modified := env.time }
    let masq := s.put (outHeader s r1 p.body) ptr
    Carries i s masq [] ∧ (ptr = .slot i → ∃ r', masq.portDb i = some r' ∧ ∀ t, tcpOf p = some t → ∃ out,
      tcpOf { p with saddr := env.localaddr, body := outBody r1 (lport r1 ptr) p.body } = some out ∧ out.seq = t.seq + offset r' t.seq) := by
  dsimp only
  generalize touched : ({ r with modified := env.time } : Record) = r1
  have first : SameSequence r r1 := by
    rw [← touched]
    exact ⟨rfl, rfl, rfl, rfl, rfl⟩
  have second := out_header_sequence s r1 p.body
  refine ⟨put_carries i s ptr r _ here (first.memory.trans second.memory) []
    (fun _ _ => ⟨second.dstPort.trans first.dstPort, fun isn before reads => ?_⟩) (fun _ => rfl), fun place => ?_⟩
  · have kept := same_reads r r1 first isn before reads
    rw [List.append_nil] at kept
    exact same_reads r1 _ second isn before kept
  · cases place
    refine ⟨outHeader s r1 p.body, Function.update_self .., fun t isTcp => ?_⟩
    rw [same_offset r1 _ second]
    rw [tcpOf] at isTcp ⊢
    cases body : p.body with
    | tcp t' =>
        rw [body] at isTcp
        cases isTcp
        exact ⟨_, rfl, rfl⟩
    | _ =>
        rw [body] at isTcp
        cases isTcp

theorem outgoing_leaves (p : Dgram) (srcPort dstPort : Port) (proto : Proto) (seq : Long) :
    Leaves i s p (lookup env s p.saddr srcPort dstPort proto) (outgoing env s p srcPort dstPort proto seq) := by
  rw [outgoing, outEntry]
  cases found : lookup env s p.saddr srcPort dstPort proto with
  | some ptr =>
      obtain ⟨r, here⟩ := lookup_get env s p.saddr srcPort dstPort proto ptr found
      obtain ⟨carries, out⟩ := header_leaves env i s p ptr r here
      dsimp only
      rw [here]
      refine ⟨fun sent none => ?_, fun ptr' same => ?_, fun same => out (Option.some.inj same)⟩
      · rw [none (Or.inl rfl)]
        exact carries
      · exact same
  | none =>
      dsimp only
      obtain ⟨fewer, _⟩ := new_port_record_spec env.time env.alloc (List.range MASQ_NUM_PORTS) s.portDb
      cases new : newPortRecord env.time env.alloc (List.range MASQ_NUM_PORTS) s.portDb with
      | mk slot db =>
          rw [new] at fewer
          cases slot with
          | none =>
              refine ⟨fun sent none => ?_, fun ptr same => (by cases same), fun same => (by cases same)⟩
              rw [none (Or.inr fun same => by cases same)]
              exact shrink_carries i s db fewer
          | some j =>
              dsimp only
              generalize made : ({ s with
                portDb := Function.update db j (some (outRecord env s j p.saddr srcPort dstPort proto seq)),
                allocated := s.allocated + 1 } : Masq) = s1
              have here : s1.get (.slot j) = some (outRecord env s j p.saddr srcPort dstPort proto seq) := by
                rw [← made]
                exact Function.update_self ..
              obtain ⟨carries, out⟩ := header_leaves env i s1 p (.slot j) _ here
              rw [here]
              refine ⟨fun sent none => ?_, fun ptr same => (by cases same), fun same => out (Option.some.inj same)⟩
              have inserted := insert_carries i s db fewer j (outRecord env s j p.saddr srcPort dstPort proto seq) rfl sent
                fun place => none (Or.inr fun same => place (Ptr.slot.inj (Option.some.inj same)))
              rw [made] at inserted
              have both := carries_trans i s s1 _ sent [] inserted carries
              rwa [List.append_nil] at both

theorem unchanged_carries (s' : Masq) (x : Segment) (none : x.delta = 0) (carries : Carries i s s' []) : Carries i s s' [x] := by
  refine ⟨carries.allocated, fun r' here old => ?_⟩
  obtain ⟨r, before, memory, kept⟩ := carries.record r' here old
  refine ⟨r, before, memory, fun set => ⟨(kept set).1, fun isn sent reads => ?_⟩⟩
  have after' := (kept set).2 isn sent reads
  rw [List.append_nil] at after'
  have told := reads_rewritten r' isn sent x after'
  rwa [none, rewritten, if_neg (fun counts => counts.1 rfl)] at told

-- What is carried when the record that is found is the one that is used.
theorem leaves_carries (p : Dgram) (look : Option Ptr) (res : Result) (leaves : Leaves i s p look res) (first : Masq) (x : Segment)
    (note : Carries i first s (if look = some (.slot i) then [x] else [])) :
    Carries i first res.masq (if res.used = some (.slot i) then [x] else []) := by
  cases look with
  | some ptr =>
      rw [leaves.used ptr rfl]
      have both := carries_trans i first s _ _ [] note (leaves.carries [] fun _ => rfl)
      rwa [List.append_nil] at both
  | none =>
      rw [if_neg (fun none => by cases none)] at note
      refine carries_trans i first s _ [] _ note (leaves.carries _ fun kind => ?_)
      rcases kind with found | other
      · cases found
      · exact if_neg other

theorem outgoing_tcp_carries (p : Dgram) (t : Tcp) (res : Result) (body : p.body = .tcp t) (run : outgoingTcp env s p t = some res)
    (x : Segment) (seq : x.seq = t.seq) (delta : x.delta = lengthChange env s p t) :
    Carries i s res.masq (if res.used = some (.slot i) then [x] else []) ∧ (res.used = some (.slot i) →
      ∃ r', res.masq.portDb i = some r' ∧ ∃ out, res.buf.bind tcpOf = some out ∧ out.seq = t.seq + offset r' t.seq) := by
  rw [outgoingTcp] at run
  rw [lengthChange] at delta
  have modifier := ftp_modifier_carries env i s p.saddr t
  split at run
  · rename_i ftp
    rw [if_pos ftp] at delta
    split at run
    · cases run
    · rename_i s1 modified
      cases run
      rw [modified] at modifier
      rw [if_neg (fun none => by cases none)]
      exact ⟨modifier s1 rfl, fun none => by cases none⟩
    · rename_i change data s1 modified
      cases run
      rw [modified] at modifier delta
      dsimp only at delta
      obtain ⟨note, same⟩ := note_change_carries env i s1 p.saddr t x seq
      rw [delta] at note same
      have leaves := outgoing_leaves env i (noteChange env s1 p.saddr t change) { p with body := .tcp { t with data := data } }
        t.srcport t.dstport IPPROTO_TCP t.seq
      refine ⟨?_, fun used => ?_⟩
      · refine leaves_carries i _ _ _ _ leaves s x ?_
        have both := carries_trans i s s1 _ [] _ (modifier s1 rfl) note
        rw [List.nil_append] at both
        dsimp only
        rwa [same]
      · obtain ⟨r', here, out⟩ := leaves.out used
        exact ⟨r', here, out { t with data := data } rfl⟩
  · rename_i other
    rw [if_neg other] at delta
    cases run
    have leaves := outgoing_leaves env i s p t.srcport t.dstport IPPROTO_TCP t.seq
    refine ⟨leaves_carries i s p _ _ leaves s x ?_, fun used => ?_⟩
    · split
      · exact unchanged_carries i s s x delta (carries_refl i s)
      · exact carries_refl i s
    · obtain ⟨r', here, out⟩ := leaves.out used
      refine ⟨r', here, out t ?_⟩
      rw [tcpOf, body]

-- A record whose connection is known already only gets other times.
theorem in_record_sequence (r : Record) (body : Body) (set : r.dstPort ≠ 0) : SameSequence r (inRecord s r body) := by
  cases body with
  | tcp t =>
      have first : firstIn r t = r := if_neg set
      rw [inRecord, first]
      exact timeout_sequence s r t
  | _ => exact ⟨rfl, rfl, rfl, rfl, rfl⟩

theorem in_record_memory (r : Record) (body : Body) : (inRecord s r body).memory = r.memory := by
  cases body with
  | tcp t =>
      rw [inRecord, tcpTimeout, firstIn]
      split <;> split <;> split <;> rfl
  | _ => rfl

theorem incoming_carries (p : Dgram) (ptr : Ptr) : Carries i s (incoming env s p ptr).masq [] := by
  rw [incoming]
  split
  · exact carries_refl i s
  · rename_i r here
    refine put_carries i s ptr r _ here (in_record_memory s { r with modified := env.time } p.body).symm [] (fun _ set => ?_) fun _ => rfl
    have same := in_record_sequence s { r with modified := env.time } p.body set
    exact ⟨same.dstPort, fun isn before reads => same_reads _ _ same isn before ⟨reads.offs, reads.prevOffs, reads.seq⟩⟩

-- What a step does to the record in place i, and what it sends by it.
theorem step_carries (cmd : Cmd) (s' : Masq) (run : step s cmd = some s') : Carries i s s' (segmentOf i s cmd) ∧
    ∀ x ∈ segmentOf i s cmd, segmentOf i s cmd = [x] ∧ ∃ r', s'.portDb i = some r' ∧ x.out = x.seq + offset r' x.seq := by
  have nothing : Carries i s s' [] → segmentOf i s cmd = [] → Carries i s s' (segmentOf i s cmd) ∧
      ∀ x ∈ segmentOf i s cmd, segmentOf i s cmd = [x] ∧ ∃ r', s'.portDb i = some r' ∧ x.out = x.seq + offset r' x.seq := by
    intro carries none
    rw [none]
    exact ⟨carries, fun x member => absurd member List.not_mem_nil⟩
  cases cmd with
  | input env p =>
      obtain ⟨res, done, rfl⟩ := Option.map_eq_some_iff.mp run
      cases body : p.body with
      | tcp t =>
          have isTcp : tcpOf p = some t := by rw [tcpOf, body]
          have whole := done
          rw [masqIpInput, body] at done
          dsimp only [inPort] at done
          cases found : inbound env s t.dstport with
          | some ptr =>
              rw [found] at done
              cases done
              refine nothing (incoming_carries env i s p ptr) ?_
              rw [segmentOf, isTcp, whole]
              dsimp only
              rw [found]
          | none =>
              rw [found] at done
              dsimp only at done
              split at done
              · obtain ⟨carries, out⟩ := outgoing_tcp_carries env i s p t res body done
                  ⟨t.seq, lengthChange env s p t, ((res.buf.bind tcpOf).map Tcp.seq).getD 0⟩ rfl rfl
                rw [segmentOf, isTcp, whole]
                dsimp only
                rw [found]
                by_cases used : res.used = some (.slot i)
                · obtain ⟨r', here, sent, isOut, seq⟩ := out used
                  rw [isOut] at carries ⊢
                  rw [if_pos used] at carries
                  dsimp only at carries ⊢
                  rw [if_pos used]
                  refine ⟨carries, fun x member => ?_⟩
                  rw [List.mem_singleton.mp member]
                  exact ⟨rfl, r', here, seq⟩
                · rw [if_neg used] at carries
                  have none : (match (Option.none : Option Ptr), res.buf.bind tcpOf with
                      | Option.none, some out => if res.used = some (.slot i) then [⟨t.seq, lengthChange env s p t, out.seq⟩] else []
                      | _, _ => ([] : List Segment)) = [] := by
                    cases res.buf.bind tcpOf with
                    | none => rfl
                    | some out => exact if_neg used
                  rw [none]
                  exact ⟨carries, fun x member => absurd member List.not_mem_nil⟩
              · cases done
                refine nothing (carries_refl i s) ?_
                rw [segmentOf, isTcp, whole]
                dsimp only
                rw [found, Option.bind_some, isTcp]
                exact if_neg fun same => by cases same
      | udp src dst =>
          have notTcp : tcpOf p = none := by rw [tcpOf, body]
          refine nothing ?_ (by rw [segmentOf, notTcp])
          rw [masqIpInput, body] at done
          dsimp only [inPort] at done
          split at done
          · cases done
            exact incoming_carries env i s p _
          · split at done
            · cases done
              exact (outgoing_leaves env i s p src 0 IPPROTO_UDP 0).carries [] fun _ => rfl
            · cases done
              exact carries_refl i s
      | icmp type id orig =>
          have notTcp : tcpOf p = none := by rw [tcpOf, body]
          refine nothing ?_ (by rw [segmentOf, notTcp])
          rw [masqIpInput, body] at done
          split at done
          · cases done
            exact carries_refl i s
          · split at done
            · cases done
              exact incoming_carries env i s p _
            · split at done
              · dsimp only at done
                split at done
                · cases done
                  exact (outgoing_leaves env i s p id 0 IPPROTO_ICMP 0).carries [] fun _ => rfl
                · cases done
                  exact carries_refl i s
              · cases done
                exact carries_refl i s
      | other =>
          have notTcp : tcpOf p = none := by rw [tcpOf, body]
          refine nothing ?_ (by rw [segmentOf, notTcp])
          rw [masqIpInput, body] at done
          cases done
          exact carries_refl i s
  | redirect r =>
      cases run
      exact nothing ⟨Nat.le_succ _, (carries_refl i s).record⟩ rfl
  | unredirect k =>
      cases run
      exact nothing ⟨le_refl _, (carries_refl i s).record⟩ rfl
  | purge time =>
      cases run
      exact nothing (shrink_carries i s _ (purge_fewer time (List.range MASQ_NUM_PORTS) s.portDb)) rfl
  | configure addr mask flags tcpFirst tcpAck tcpFin udp icmp =>
      cases run
      exact nothing ⟨le_refl _, (carries_refl i s).record⟩ rfl

end Outgoing

end MagxNet.Masquerade
