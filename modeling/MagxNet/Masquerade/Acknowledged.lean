import MagxNet.Masquerade.Sequence

set_option autoImplicit false

namespace MagxNet.Masquerade

open Bytes

section Run

variable (i : Nat)

theorem run_carries (cmds : List Cmd) : ∀ s s' : Masq, runCmds cmds s = some s' → Carries i s s' (segments i cmds s) := by
  induction cmds with
  | nil =>
      intro s s' run
      cases run
      exact carries_refl i s
  | cons cmd rest next =>
      intro s s' run
      obtain ⟨s1, done, later⟩ := Option.bind_eq_some_iff.mp run
      rw [segments, done]
      exact carries_trans i s s1 s' _ _ (step_carries i s cmd s1 done).1 (next s1 s' later)

-- The record of a connection, from when it tells of the segments sent before on, has told the truth of each segment that it sent later.
theorem run_sent (cmds : List Cmd) : ∀ (s s' : Masq) (r r' : Record) (isn : Long) (sent : List Segment),
    runCmds cmds s = some s' → s.portDb i = some r → r.memory < s.allocated → r.dstPort ≠ 0 → Reads r isn sent →
    s'.portDb i = some r' → r'.memory = r.memory → ∀ before x later, segments i cmds s = before ++ x :: later →
    x.out = x.seq + total (changesBefore isn (sent ++ (before ++ [x])) x.seq) := by
  induction cmds with
  | nil =>
      intro s s' r r' isn sent _ _ _ _ _ _ _ before x later split
      simp [segments] at split
  | cons cmd rest next =>
      intro s s' r r' isn sent run here old set reads here' same before x later cut
      obtain ⟨s1, done, go⟩ := Option.bind_eq_some_iff.mp run
      obtain ⟨carries, out⟩ := step_carries i s cmd s1 done
      have onward := run_carries i rest s1 s' go
      obtain ⟨r1, here1, memory1, _⟩ := onward.record r' here' (by rw [same]; exact old.trans_le carries.allocated)
      obtain ⟨r0, here0, memory0, kept⟩ := carries.record r1 here1 (by rw [memory1, same]; exact old)
      obtain rfl : r0 = r := Option.some.inj (here0.symm.trans here)
      obtain ⟨dst, told⟩ := kept set
      have reads1 := told isn sent reads
      rw [segments, done] at cut
      dsimp only at cut
      by_cases none : segmentOf i s cmd = []
      · rw [none, List.append_nil] at reads1
        rw [none, List.nil_append] at cut
        exact next s1 s' r1 r' isn sent go here1 (memory0 ▸ old.trans_le carries.allocated) (dst ▸ set) reads1 here'
          (same.trans memory0) before x later cut
      · obtain ⟨y, member⟩ := List.exists_mem_of_ne_nil _ none
        obtain ⟨single, r2, here2, translated⟩ := out y member
        obtain rfl : r2 = r1 := Option.some.inj (here2.symm.trans here1)
        rw [single] at cut reads1
        cases before with
        | nil =>
            obtain ⟨rfl, _⟩ := List.cons_eq_cons.mp cut
            rw [translated, reads_offset r2 isn _ reads1]
            rfl
        | cons z before =>
            obtain ⟨rfl, more⟩ := List.cons_eq_cons.mp cut
            have later' := next s1 s' r2 r' isn (sent ++ [y]) go here1 (memory0 ▸ old.trans_le carries.allocated) (dst ▸ set) reads1 here'
              (same.trans memory0) before x later more
            rw [later']
            simp only [List.append_assoc, List.cons_append, List.nil_append]

end Run

-- The segment that opens a control connection, translated by the new record in place i.
structure Opens (i : Nat) (env : Env) (s : Masq) (p : Dgram) (t : Tcp) : Prop where
  body : p.body = .tcp t
  control : t.dstport = FTP_PORT
  unknown : lookup env s p.saddr t.srcport t.dstport IPPROTO_TCP = none
  sent : segmentOf i s (.input env p) ≠ []

-- There is no PORT command in the first segment, or it is dropped.
theorem modifier_unknown (env : Env) (s : Masq) (saddr : Long) (t : Tcp)
    (unknown : lookup env s saddr t.srcport t.dstport IPPROTO_TCP = none) :
    ftpModifier env s saddr t = .done 0 t.data s ∨ ftpModifier env s saddr t = .dropped s := by
  have noRecord : findPortRecord env.nul s.portDb saddr t.srcport t.dstport IPPROTO_TCP = none := by
    rw [lookup] at unknown
    split at unknown
    · cases unknown
    · exact Option.map_eq_none_iff.mp unknown
  rw [ftpModifier, noRecord]
  split
  · exact Or.inl rfl
  · exact Or.inr rfl

-- The record that is made for a segment without one.
structure Fresh (r : Record) (s : Masq) (dstPort : Port) (seq : Long) : Prop where
  memory : r.memory < s.allocated
  dstPort : r.dstPort = dstPort
  offs : r.offs = 0
  prevOffs : r.prevOffs = 0
  seq : r.seq = seq

theorem outgoing_unknown (i : Nat) (env : Env) (s : Masq) (p : Dgram) (srcPort dstPort : Port) (proto : Proto) (seq : Long) (res : Result)
    (unknown : lookup env s p.saddr srcPort dstPort proto = none) (run : outgoing env s p srcPort dstPort proto seq = res)
    (used : res.used = some (.slot i)) : ∃ r, res.masq.portDb i = some r ∧ Fresh r res.masq dstPort seq := by
  rw [outgoing, outEntry, unknown] at run
  cases new : newPortRecord env.time env.alloc (List.range MASQ_NUM_PORTS) s.portDb with
  | mk slot db =>
      rw [new] at run
      cases slot with
      | none =>
          cases run
          cases used
      | some j =>
          dsimp only [Masq.get] at run
          rw [Function.update_self] at run
          cases run
          cases used
          have same := out_header_sequence { s with
              portDb := Function.update db i (some (outRecord env s i p.saddr srcPort dstPort proto seq)), allocated := s.allocated + 1 }
            { outRecord env s i p.saddr srcPort dstPort proto seq with modified := env.time } p.body
          refine ⟨_, Function.update_self .., ?_, same.dstPort, same.offs, same.prevOffs, same.seq⟩
          rw [← same.memory]
          exact Nat.lt_succ_self _

theorem opened (i : Nat) (env : Env) (s s' : Masq) (p : Dgram) (t : Tcp) (opens : Opens i env s p t)
    (run : step s (.input env p) = some s') : segmentOf i s (.input env p) = [⟨t.seq, 0, t.seq⟩] ∧
      ∃ r, s'.portDb i = some r ∧ r.memory < s'.allocated ∧ r.dstPort = FTP_PORT ∧ Reads r t.seq [⟨t.seq, 0, t.seq⟩] := by
  obtain ⟨x, member⟩ := List.exists_mem_of_ne_nil _ opens.sent
  obtain ⟨single, r', here, out⟩ := (step_carries i s _ s' run).2 x member
  obtain ⟨res, done, rfl⟩ := Option.map_eq_some_iff.mp run
  have isTcp : tcpOf p = some t := by rw [tcpOf, opens.body]
  -- The segment is an outgoing one, and place i is the one used.
  have facts : inbound env s t.dstport = none ∧ res.used = some (.slot i) ∧ x.seq = t.seq ∧ x.delta = lengthChange env s p t := by
    rw [segmentOf, isTcp, done] at member
    dsimp only at member
    split at member
    · rename_i outward isOut
      split at member
      · rename_i used
        obtain rfl := List.mem_singleton.mp member
        exact ⟨outward, used, rfl, rfl⟩
      · cases member
    · cases member
  obtain ⟨outward, used, seq, delta⟩ := facts
  rw [masqIpInput, opens.body] at done
  dsimp only [inPort] at done
  rw [outward] at done
  dsimp only at done
  have fresh : x.delta = 0 ∧ ∃ r, res.masq.portDb i = some r ∧ Fresh r res.masq t.dstport t.seq := by
    split at done
    · rw [outgoingTcp, if_pos opens.control] at done
      rw [lengthChange, if_pos opens.control] at delta
      rcases modifier_unknown env s p.saddr t opens.unknown with same | dropped
      · rw [same] at done delta
        dsimp only at done
        have unnoted : noteChange env s p.saddr t 0 = s := by rw [noteChange, opens.unknown]
        rw [unnoted] at done
        exact ⟨delta, outgoing_unknown i env s { p with body := .tcp t } _ _ _ _ res opens.unknown (Option.some.inj done) used⟩
      · rw [dropped] at done
        cases done
        cases used
    · cases done
      cases used
  obtain ⟨unchanged, r, there, memory, dst, offs, prevOffs, isn⟩ := fresh
  obtain rfl : r' = r := Option.some.inj (here.symm.trans there)
  have straight : offset r' x.seq = 0 := by
    rw [offset, offs, prevOffs]
    split <;> rfl
  rw [straight, add_zero] at out
  have only : x = ⟨t.seq, 0, t.seq⟩ := by
    cases x
    exact congr (congr (congrArg Segment.mk seq) unchanged) (out.trans seq)
  rw [single, only]
  have none : changes t.seq [⟨t.seq, 0, t.seq⟩] = [] := if_neg fun counts => counts.1 rfl
  refine ⟨rfl, r', here, memory, dst.trans opens.control, ?_, ?_, ?_⟩
  · rw [none, offs]
    rfl
  · rw [none, prevOffs]
    rfl
  · rw [none, isn]
    rfl

-- The rewrites that a segment is moved by when it is sent, those that an acknowledgement of it is moved back by, and
-- those that only one of the two is moved by.
def counted (isn : Long) (before : List Segment) (x : Segment) : List Segment := changesBefore isn (before ++ [x]) x.seq

def recounted (isn : Long) (before : List Segment) (x : Segment) (later : List Segment) : List Segment :=
  changesBefore isn (before ++ x :: later) (x.seq + total (counted isn before x))

def apart (a b : List Segment) : List Segment := a.drop b.length ++ b.drop a.length

def between (isn : Long) (before : List Segment) (x : Segment) (later : List Segment) : List Segment :=
  apart (counted isn before x) (recounted isn before x later)

theorem changes_prefix (l m : List Segment) : ∀ isn : Long, changes isn l <+: changes isn (l ++ m) := by
  induction l with
  | nil => exact fun isn => List.nil_prefix
  | cons x rest next =>
      intro isn
      rw [List.cons_append, changes, changes]
      split
      · exact (List.prefix_cons_inj x).mpr (next x.seq)
      · exact next isn

theorem changes_before_front (isn : Long) (sent : List Segment) (seq : Long) : changesBefore isn sent seq <+: changes isn sent := by
  rw [changesBefore]
  split
  · exact List.prefix_rfl
  · exact List.dropLast_prefix _

theorem total_concat (a b : List Segment) : total (a ++ b) = total a + total b := by
  rw [total, total, total, List.map_append, List.sum_append]

theorem apart_front (a b : List Segment) (one : a <+: b) : apart a b = b.drop a.length ∧ apart b a = b.drop a.length := by
  have short : a.drop b.length = [] := List.drop_eq_nil_of_le one.length_le
  rw [apart, apart, short, List.nil_append, List.append_nil]
  exact ⟨rfl, rfl⟩

theorem total_drop (a b : List Segment) (one : a <+: b) : total b = total a + total (b.drop a.length) := by
  obtain ⟨rest, rfl⟩ := one
  rw [List.drop_left, total_concat]

theorem total_apart (a b whole : List Segment) (one : a <+: whole) (two : b <+: whole) : total (apart a b) = 0 ↔ total b = total a := by
  rcases List.prefix_or_prefix_of_prefix one two with short | short
  · rw [(apart_front a b short).1, total_drop a b short]
    exact add_eq_left.symm
  · rw [(apart_front b a short).2, total_drop b a short]
    exact left_eq_add.symm

theorem total_between (isn : Long) (before : List Segment) (x : Segment) (later : List Segment) :
    total (between isn before x later) = 0 ↔ total (recounted isn before x later) = total (counted isn before x) := by
  refine total_apart _ _ (changes isn (before ++ x :: later)) ?_ (changes_before_front ..)
  have grown := changes_prefix (before ++ [x]) later isn
  rw [List.append_assoc] at grown
  exact (changes_before_front isn (before ++ [x]) x.seq).trans grown

-- What each segment was moved by, the first one included.
theorem sent_counted (i : Nat) (env : Env) (s s1 s' : Masq) (p : Dgram) (t : Tcp) (cmds : List Cmd) (opens : Opens i env s p t)
    (first : step s (.input env p) = some s1) (run : runCmds cmds s1 = some s')
    (alive : (s'.portDb i).map Record.memory = (s1.portDb i).map Record.memory)
    (before later : List Segment) (x : Segment) (sent : segments i (.input env p :: cmds) s = before ++ x :: later) :
    x.out = x.seq + total (counted t.seq before x) ∧
      ∃ r, s'.portDb i = some r ∧ r.dstPort = FTP_PORT ∧ Reads r t.seq (before ++ x :: later) := by
  obtain ⟨only, r1, here1, old, dst, reads⟩ := opened i env s s1 p t opens first
  rw [segments, first] at sent
  dsimp only at sent
  rw [only] at sent
  rw [here1] at alive
  obtain ⟨r', here', memory⟩ := Option.map_eq_some_iff.mp alive
  have set : r1.dstPort ≠ 0 := by
    rw [dst]
    decide
  refine ⟨?_, r', here', ?_⟩
  · cases before with
    | nil =>
        obtain ⟨rfl, _⟩ := List.cons_eq_cons.mp sent
        have none : counted t.seq [] ⟨t.seq, 0, t.seq⟩ = [] := by
          have unchanged : changes t.seq [⟨t.seq, 0, t.seq⟩] = [] := if_neg fun counts => counts.1 rfl
          rw [counted, changesBefore, List.nil_append, unchanged]
          split <;> rfl
        rw [none]
        exact (add_zero _).symm
    | cons y before =>
        obtain ⟨rfl, more⟩ := List.cons_eq_cons.mp sent
        exact run_sent i cmds s1 s' r1 r' t.seq _ run here1 old set reads here' memory before x later more
  · obtain ⟨r0, here0, _, kept⟩ := (run_carries i cmds s1 s' run).record r' here' (memory ▸ old)
    obtain rfl : r0 = r1 := Option.some.inj (here0.symm.trans here1)
    obtain ⟨same, told⟩ := kept set
    refine ⟨same.trans dst, ?_⟩
    rw [← sent]
    exact told t.seq _ reads

theorem ack_translated (i : Nat) (env env' : Env) (s s1 s' : Masq) (p p' : Dgram) (t t' : Tcp) (cmds : List Cmd)
    (opens : Opens i env s p t) (first : step s (.input env p) = some s1) (run : runCmds cmds s1 = some s')
    (alive : (s'.portDb i).map Record.memory = (s1.portDb i).map Record.memory)
    (before later : List Segment) (x : Segment) (sent : segments i (.input env p :: cmds) s = before ++ x :: later)
    (body : p'.body = .tcp t') (inward : inbound env' s' t'.dstport = some (.slot i)) (ack : t'.ack = x.out) :
    ∃ res out, masqIpInput env' s' p' = some res ∧ res.buf.bind tcpOf = some out ∧
      (out.ack = x.seq ↔ total (between t.seq before x later) = 0) := by
  obtain ⟨moved, r, here, dst, reads⟩ := sent_counted i env s s1 s' p t cmds opens first run alive before later x sent
  have known : r.dstPort ≠ 0 := by
    rw [dst]
    decide
  have run' : masqIpInput env' s' p' = some (incoming env' s' p' (.slot i)) := by
    rw [masqIpInput, body]
    dsimp only [inPort]
    rw [inward]
  have back : offset r x.out = total (recounted t.seq before x later) := by
    rw [reads_offset r t.seq _ reads, moved]
    rfl
  refine ⟨_, { t' with dstport := r.masqPort, ack := x.out - total (recounted t.seq before x later) }, run', ?_, ?_⟩
  · rw [incoming, Masq.get, here, body, ← back, ← ack]
    have unchanged : firstIn { r with modified := env'.time } t' = { r with modified := env'.time } := if_neg known
    dsimp only [inBody]
    rw [unchanged]
    rfl
  · rw [total_between, moved]
    dsimp only
    rw [sub_eq_iff_eq_add, add_right_inj]
    exact eq_comm

-- No PORT command that has been sent has its text where seq is.
def outside (cmds : List Cmd) (seq : Long) : Bool :=
  cmds.all fun
    | .input env p =>
        match tcpOf p with
        | none => true
        | some t =>
            match findPort (t.data ++ env.behind) t.data.length t.data.length 0 with
            | none => true
            | some (_, start, stop) => stop - start ≤ (seq - (t.seq + BitVec.ofNat 32 start)).toNat
    | _ => true

section Sample

def ftpNetwork : Masq := { initial with addr := 0x0a000000, mask := 0xff000000, flags := 1 }

def noRecord : Record where
  memory := 0
  num := 0
  masqAddr := 0
  masqPort := 0
  dstPort := 0
  proto := 0
  modified := 0
  timeout := 0
  offs := 0
  prevOffs := 0
  seq := 0

def outward : Env := ⟨1000, noRecord, true, true, true, false, 0xc0a80001, []⟩

def inwards : Env := { outward with isLocal := true }

def control (seq : Long) (data : Buffer) : Dgram := ⟨0x0a000001, 0xc6336401, .tcp ⟨1025, 21, seq, 0, false, false, false, data⟩⟩

-- "PORT 10,0,0,1,4,1" and the end of the line
def portCommand : Buffer := [80, 79, 82, 84, 32, 49, 48, 44, 48, 44, 48, 44, 49, 44, 52, 44, 49, 13, 10]

def hello : Cmd := .input outward (control 999 [])

def command (seq : Long) : Cmd := .input outward (control seq portCommand)

def reply (ack : Long) : Tcp := ⟨21, 60000, 0, ack, false, false, false, []⟩

def answer (ack : Long) : Dgram := ⟨0xc6336401, 0xc0a80001, .tcp (reply ack)⟩

def once : List Cmd := [command 1000, .input outward (control 1019 [])]

def twice : List Cmd := [command 1000, command 1019]

def helloMasq : Masq := (step ftpNetwork hello).getD ftpNetwork

def sampleMasq (cmds : List Cmd) : Masq := (runCmds cmds helloMasq).getD ftpNetwork

theorem some_getD {α : Type} (o : Option α) (d : α) (there : o.isSome = true) : o = some (o.getD d) := by
  cases o with
  | none => cases there
  | some x => rfl

theorem hello_facts : lookup outward ftpNetwork 0x0a000001 1025 21 IPPROTO_TCP = none ∧
    segmentOf 0 ftpNetwork hello ≠ [] ∧ (step ftpNetwork hello).isSome = true := by
  decide +kernel

theorem hello_opens : Opens 0 outward ftpNetwork (control 999 []) ⟨1025, 21, 999, 0, false, false, false, []⟩ :=
  ⟨rfl, rfl, hello_facts.1, hello_facts.2.1⟩

theorem hello_run : step ftpNetwork hello = some helloMasq := some_getD _ _ hello_facts.2.2

-- One PORT command, made longer by 6, and the segment behind it.
theorem ack_translated_once : ∃ res out, runCmds once helloMasq = some (sampleMasq once) ∧
    masqIpInput inwards (sampleMasq once) (answer 1025) = some res ∧ res.buf.bind tcpOf = some out ∧ out.ack = 1019 := by
  have facts : (runCmds once helloMasq).isSome = true ∧
      ((sampleMasq once).portDb 0).map Record.memory = (helloMasq.portDb 0).map Record.memory ∧
      segments 0 (hello :: once) ftpNetwork = [⟨999, 0, 999⟩, ⟨1000, 6, 1000⟩, ⟨1019, 0, 1025⟩] ∧
      inbound inwards (sampleMasq once) 60000 = some (.slot 0) := by
    decide +kernel
  obtain ⟨ran, alive, sent, inward⟩ := facts
  have run := some_getD _ ftpNetwork ran
  obtain ⟨res, out, input, isOut, back⟩ := ack_translated 0 outward inwards ftpNetwork helloMasq (sampleMasq once)
    (control 999 []) (answer 1025) _ (reply 1025) once hello_opens hello_run run alive
    [⟨999, 0, 999⟩, ⟨1000, 6, 1000⟩] [] ⟨1019, 0, 1025⟩ sent rfl inward rfl
  exact ⟨res, out, run, input, isOut, back.mpr (by decide)⟩

-- The second command has been sent when the first is acknowledged.
theorem ack_not_translated : ¬ ∀ (i : Nat) (env env' : Env) (s s1 s' : Masq) (p p' : Dgram) (t t' : Tcp) (cmds : List Cmd),
    Opens i env s p t → step s (.input env p) = some s1 → runCmds cmds s1 = some s' →
    (s'.portDb i).map Record.memory = (s1.portDb i).map Record.memory →
    ∀ before later x, segments i (.input env p :: cmds) s = before ++ x :: later → outside (.input env p :: cmds) x.seq →
      p'.body = .tcp t' → inbound env' s' t'.dstport = some (.slot i) → t'.ack = x.out →
      ∃ res out, masqIpInput env' s' p' = some res ∧ res.buf.bind tcpOf = some out ∧ out.ack = x.seq := by
  intro all
  have facts : (runCmds twice helloMasq).isSome = true ∧
      ((sampleMasq twice).portDb 0).map Record.memory = (helloMasq.portDb 0).map Record.memory ∧
      segments 0 (hello :: twice) ftpNetwork = [⟨999, 0, 999⟩, ⟨1000, 6, 1000⟩, ⟨1019, 6, 1025⟩] ∧
      outside (hello :: twice) 1019 = true ∧ inbound inwards (sampleMasq twice) 60000 = some (.slot 0) ∧
      ((masqIpInput inwards (sampleMasq twice) (answer 1025)).bind fun res => (res.buf.bind tcpOf).map Tcp.ack) = some 1013 := by
    decide +kernel
  obtain ⟨ran, alive, sent, elsewhere, inward, acked⟩ := facts
  obtain ⟨res, out, run, isOut, back⟩ := all 0 outward inwards ftpNetwork helloMasq (sampleMasq twice)
    (control 999 []) (answer 1025) _ (reply 1025) twice hello_opens hello_run (some_getD _ ftpNetwork ran) alive
    [⟨999, 0, 999⟩, ⟨1000, 6, 1000⟩] [] ⟨1019, 6, 1025⟩ sent elsewhere rfl inward rfl
  rw [run, Option.bind_some, isOut] at acked
  exact absurd ((Option.some.inj acked).symm.trans back) (by decide)

end Sample

end MagxNet.Masquerade
