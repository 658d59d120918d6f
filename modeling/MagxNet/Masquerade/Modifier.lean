import MagxNet.Masquerade.Command
import MagxNet.Masquerade.Expiry

set_option autoImplicit false

namespace MagxNet.Masquerade

open Bytes

-- Where the TCP header and the data are in a datagram.
def tcpHeader (bytes : Buffer) : Nat := (get8 bytes 0).toNat % 16 * 4

def tcpData (bytes : Buffer) : Nat := tcpHeader bytes + (get8 bytes (tcpHeader bytes + 12)).toNat / 16 * 4

def sourceOf (bytes : Buffer) : Long := get32 bytes 12

def tcpFields (bytes : Buffer) : Tcp where
  srcport := get16 bytes (tcpHeader bytes)
  dstport := get16 bytes (tcpHeader bytes + 2)
  seq := get32 bytes (tcpHeader bytes + 4)
  ack := get32 bytes (tcpHeader bytes + 8)
  syn := (get8 bytes (tcpHeader bytes + 13)).getLsbD 1
  fin := (get8 bytes (tcpHeader bytes + 13)).getLsbD 0
  rst := (get8 bytes (tcpHeader bytes + 13)).getLsbD 2
  data := bytes.drop (tcpData bytes)

def dgramOf (bytes : Buffer) : Dgram := ⟨sourceOf bytes, get32 bytes 16, .tcp (tcpFields bytes)⟩

-- used is the place of the record that the port is taken from: it is kept for the proofs.
inductive Modified where
  | stuck
  | dropped (s : Masq)
  | done (delta : Int) (bytes : Buffer) (used : Option Nat) (s : Masq)

-- The text from start to stop is replaced: the head moves down if the new one is longer, else the tail.
def replaceBytes (env : Env) (s : Masq) (bytes : Buffer) (start stop used : Nat) (localPort : Port) : Modified :=
  let new := tmpbuf env.localaddr localPort
  let delta : Int := new.length - (stop - start)
  let bytes := put16 bytes 2 (get16 bytes 2 + BitVec.ofInt 16 delta)
  if stop - start < new.length then
    if env.reserve then
      let moved := bytes.take start ++ bytes.drop (start - (new.length - (stop - start)))
      .done delta (moved.take start ++ new ++ moved.drop (start + new.length)) (some used) s
    else .dropped s
  else if bytes.length < stop then .stuck
  else
    let moved := bytes.take (start + new.length) ++ bytes.drop stop
    .done delta (moved.take start ++ new ++ moved.drop (start + new.length)) (some used) s

-- ftp_modifier on the bytes of a datagram.
def modifyBytes (env : Env) (s : Masq) (bytes : Buffer) : Modified :=
  let t := tcpFields bytes
  match findPort (t.data ++ env.behind) t.data.length t.data.length 0 with
  | none => .done 0 bytes none s
  | some (ftpPort, start, stop) =>
      match (findPortRecord env.nul s.portDb (sourceOf bytes) t.srcport t.dstport IPPROTO_TCP).bind s.portDb with
      | none => .dropped s
      | some r =>
          match ftpEntry env s r (sourceOf bytes) t.seq ftpPort with
          | (none, s) => .dropped s
          | (some i, s) =>
              match s.portDb i with
              | none => .dropped s
              | some new => replaceBytes env s bytes (tcpData bytes + start) (tcpData bytes + stop) i
                (BitVec.ofNat 16 MASQ_BASE_PORT + new.num)

theorem decimal_short : ∀ n < 256, (decimal n).length ≤ 3 := by decide +kernel

theorem tmpbuf_short (localaddr : Long) (localPort : Port) : (tmpbuf localaddr localPort).length ≤ 23 := by
  have byte : ∀ a : Long, (decimal (a &&& 255).toNat).length ≤ 3 := fun a => decimal_short _ (by
    rw [BitVec.toNat_and]
    exact Nat.lt_of_le_of_lt Nat.and_le_right (by decide))
  have byte' : ∀ a : Port, (decimal (a &&& 255).toNat).length ≤ 3 := fun a => decimal_short _ (by
    rw [BitVec.toNat_and]
    exact Nat.lt_of_le_of_lt Nat.and_le_right (by decide))
  have first := byte (localaddr >>> 24)
  have second := byte (localaddr >>> 16)
  have third := byte (localaddr >>> 8)
  have fourth := byte localaddr
  have high := byte' (localPort >>> 8)
  have low := byte' localPort
  unfold tmpbuf
  simp only [List.length_append, List.length_cons]
  omega

-- Both ways of moving come to the same: what is in front of start, the new text, and what comes from stop on.
section Replacing

variable (bytes new : Buffer) (start stop : Nat)

theorem moved_down (order : start ≤ stop) (within : stop ≤ bytes.length) (less : stop - start ≤ new.length)
    (front : new.length ≤ stop) :
    (bytes.take start ++ bytes.drop (start - (new.length - (stop - start)))).take start ++ new
        ++ (bytes.take start ++ bytes.drop (start - (new.length - (stop - start)))).drop (start + new.length)
      = bytes.take start ++ new ++ bytes.drop stop := by
  have length : (bytes.take start).length = start := by
    rw [List.length_take]
    omega
  have tail : (bytes.take start ++ bytes.drop (start - (new.length - (stop - start)))).drop
    (start + new.length) = bytes.drop stop := by
    rw [List.drop_append, List.drop_of_length_le (by omega), List.nil_append, length, List.drop_drop]
    congr 1
    omega
  rw [tail, List.take_append_of_le_length (by omega), List.take_of_length_le (by omega)]

theorem moved_up (order : start ≤ stop) (within : stop ≤ bytes.length) (more : new.length ≤ stop - start) :
    (bytes.take (start + new.length) ++ bytes.drop stop).take start ++ new
        ++ (bytes.take (start + new.length) ++ bytes.drop stop).drop (start + new.length)
      = bytes.take start ++ new ++ bytes.drop stop := by
  have length : (bytes.take (start + new.length)).length = start + new.length := by
    rw [List.length_take]
    omega
  rw [List.drop_append, List.drop_of_length_le length.le, List.nil_append, length, Nat.sub_self, List.drop_zero,
    List.take_append_of_le_length (by omega), List.take_take, Nat.min_eq_left (by omega)]

end Replacing

theorem replace_done (env : Env) (s : Masq) (bytes : Buffer) (start stop used : Nat) (localPort : Port) (order : start ≤ stop)
    (within : stop ≤ bytes.length) (front : 23 ≤ stop) (delta : Int) (heading : Buffer)
    (longer : delta = (tmpbuf env.localaddr localPort).length - ((stop : Int) - start))
    (head : heading = put16 bytes 2 (get16 bytes 2 + BitVec.ofInt 16 delta)) :
    replaceBytes env s bytes start stop used localPort =
      if stop - start < (tmpbuf env.localaddr localPort).length ∧ env.reserve = false then .dropped s
      else .done delta (heading.take start ++ tmpbuf env.localaddr localPort ++ heading.drop stop) (some used) s := by
  have short := tmpbuf_short env.localaddr localPort
  have length : heading.length = bytes.length := by rw [head, put16_length]
  unfold replaceBytes
  dsimp only
  rw [← longer, ← head]
  by_cases more : stop - start < (tmpbuf env.localaddr localPort).length
  · rw [if_pos more]
    cases room : env.reserve with
    | true =>
        rw [if_pos rfl, if_neg (fun both => by cases both.2)]
        rw [moved_down heading _ start stop order (by omega) (by omega) (by omega)]
    | false => rw [if_neg (by decide), if_pos ⟨more, rfl⟩]
  · rw [if_neg more, if_neg (by omega), if_neg (fun both => more both.1)]
    rw [moved_up heading _ start stop order (by omega) (by omega)]

-- A segment of an FTP control connection: the IP header is there, and its length field is the length of the datagram.
structure FtpSegment (bytes : Buffer) : Prop where
  header : 20 ≤ tcpHeader bytes
  length : (get16 bytes 2).toNat = bytes.length
  ftp : (tcpFields bytes).dstport = FTP_PORT

def payload (bytes : Buffer) : Buffer := (tcpFields bytes).data

def ReadsInside (env : Env) (bytes : Buffer) : Prop :=
  searched (payload bytes ++ env.behind) (payload bytes).length (payload bytes).length 0 ≤ (payload bytes).length

structure First (seg : Buffer) (place : Nat) (port : Port) (stop : Nat) : Prop where
  command : Command seg place port stop
  first : ∀ a < place, ∀ port stop, ¬ Command seg a port stop

-- Before any command that is complete there is one whose numbers run to the end of the segment.
def CutOff (seg : Buffer) : Prop := ∃ place, Cut seg place ∧ ∀ a < place, ∀ port stop, ¬ Command seg a port stop

-- The record r at place i is the one for the incoming data; s' is the table with it.
def Entered (env : Env) (s : Masq) (bytes : Buffer) (port : Port) (i : Nat) (r : Record) (s' : Masq) : Prop :=
  ∃ c, (findPortRecord env.nul s.portDb (sourceOf bytes) (tcpFields bytes).srcport
    (tcpFields bytes).dstport IPPROTO_TCP).bind s.portDb = some c
    ∧ ftpEntry env s c (sourceOf bytes) (tcpFields bytes).seq port = (some i, s') ∧ s'.portDb i = some r

theorem entered_unique (env : Env) (s : Masq) (bytes : Buffer) (port : Port) (i i' : Nat) (r r' : Record) (s' s'' : Masq)
    (entered : Entered env s bytes port i r s') (entered' : Entered env s bytes port i' r' s'') : i = i' ∧ r = r' ∧ s' = s'' := by
  obtain ⟨c, control, entry, here⟩ := entered
  obtain ⟨c', control', entry', here'⟩ := entered'
  cases control.symm.trans control'
  cases entry.symm.trans entry'
  exact ⟨rfl, Option.some.inj (here.symm.trans here'), rfl⟩

-- What is written for a record.
def text (env : Env) (r : Record) : List Byte := tmpbuf env.localaddr (BitVec.ofNat 16 MASQ_BASE_PORT + r.num)

-- The argument of the command is the new text, the length field is right, and the rest of the datagram is as it was.
structure Replaced (env : Env) (bytes bytes' : Buffer) (place stop : Nat) (r : Record) : Prop where
  bytes : bytes' = (put16 bytes 2 (BitVec.ofNat 16 bytes'.length)).take (tcpData bytes + (place + 5)) ++ text env r ++ bytes.drop
    (tcpData bytes + stop)
  length : (get16 bytes' 2).toNat = bytes'.length

def Rewritten (env : Env) (s : Masq) (bytes : Buffer) : Prop :=
  match modifyBytes env s bytes with
  | .stuck => False
  | .dropped _ => True
  | .done _ bytes' none _ => bytes' = bytes ∧ ∀ place port stop, ¬ Command (payload bytes) place port stop
  | .done _ bytes' (some i) s' =>
      ∃ place port stop r, First (payload bytes) place port stop ∧ s'.portDb i = some r
        ∧ endpoint r = ⟨sourceOf bytes, port, IPPROTO_TCP⟩ ∧ Replaced env bytes bytes' place stop r

-- With the new text the datagram is not too long for its length field.
def Short (env : Env) (s : Masq) (bytes : Buffer) : Prop :=
  ∀ place port stop i r s', First (payload bytes) place port stop → Entered env s bytes port i r s' →
    bytes.length + (text env r).length < 2 ^ 16 + (stop - (place + 5)) ∨ stop - (place + 5) < (text env r).length
      ∧ env.reserve = false

theorem first_unique (seg : Buffer) (place place' : Nat) (port port' : Port) (stop stop' : Nat) (first : First seg place port stop)
    (first' : First seg place' port' stop') : place = place' ∧ port = port' ∧ stop = stop' := by
  have same : place = place' := by
    obtain less | same | more := lt_trichotomy place place'
    · exact absurd first.command (first'.first place less port stop)
    · exact same
    · exact absurd first'.command (first.first place' more port' stop')
  subst same
  have both := first.command.argument.symm.trans first'.command.argument
  cases both
  exact ⟨rfl, rfl, rfl⟩

theorem stop_inside (seg : Buffer) (place : Nat) (port : Port) (stop : Nat) (command : Command seg place port stop) :
    place + 10 ≤ stop ∧ stop < seg.length := by
  have argument := command.argument
  rw [parse_scan] at argument
  obtain ⟨-, more, ended⟩ := scan_port seg _ 5 0 _ port _ stop argument
  refine ⟨by omega, ?_⟩
  by_contra past
  have null : get8 seg stop = 0 := List.getD_eq_default _ _ (not_lt.mp past)
  rw [null] at ended
  obtain cr | lf := ended
  · cases cr
  · cases lf

section Modifying

variable (env : Env) (s : Masq) (bytes : Buffer)

theorem reads_iff : ReadsInside env bytes ↔ ¬ CutOff (payload bytes) := by
  have outcome := search_outcome (payload bytes) env.behind (payload bytes).length 0 (by omega)
  unfold ReadsInside CutOff
  generalize searched _ _ _ _ = last at outcome ⊢
  generalize findPort _ _ _ _ = result at outcome
  cases outcome with
  | cut _ _ place low clear here past =>
      exact iff_of_false (not_le.mpr past) fun none => none ⟨place, here, fun a front => (clear a (Nat.zero_le a) front).2⟩
  | command _ place port stop low clear whole here within =>
      refine iff_of_true within ?_
      rintro ⟨b, cut, none⟩
      obtain less | same | more := lt_trichotomy b place
      · exact (clear b (Nat.zero_le b) less).1 cut
      · exact whole (same ▸ cut)
      · exact none place more port stop here
  | nothing _ clear within =>
      refine iff_of_true within ?_
      rintro ⟨b, cut, -⟩
      exact (clear b (Nat.zero_le b) (by have inside := cut.inside; omega)).1 cut

theorem find_first_command (whole : ¬ CutOff (payload bytes)) :
    findPort (payload bytes ++ env.behind) (payload bytes).length (payload bytes).length 0 = none
        ∧ (∀ place port stop, ¬ Command (payload bytes) place port stop)
      ∨ ∃ place port stop, First (payload bytes) place port stop
        ∧ findPort (payload bytes ++ env.behind) (payload bytes).length (payload bytes).length 0 = some (port, place + 5, stop) :=
          by
  have outcome := search_outcome (payload bytes) env.behind (payload bytes).length 0 (by omega)
  generalize searched _ _ _ _ = last at outcome
  generalize findPort _ _ _ _ = result at outcome ⊢
  cases outcome with
  | cut _ _ place low clear here past =>
      exact absurd ⟨place, here, fun a front => (clear a (Nat.zero_le a) front).2⟩ whole
  | command _ place port stop low clear whole here within =>
      exact .inr ⟨place, port, stop, ⟨here, fun a front => (clear a (Nat.zero_le a) front).2⟩, rfl⟩
  | nothing _ clear within =>
      refine .inl ⟨rfl, fun place port stop command => ?_⟩
      have inside := command.inside
      exact (clear place (Nat.zero_le place) (by omega)).2 port stop command

theorem entry_endpoint (c : Record) (saddr seq : Long) (port : Port) (i : Nat) (s' : Masq) (r : Record)
    (entry : ftpEntry env s c saddr seq port = (some i, s')) (here : s'.portDb i = some r) : endpoint r =
      ⟨saddr, port, IPPROTO_TCP⟩ := by
  unfold ftpEntry at entry
  split at entry
  · split at entry
    · cases entry
    · cases entry
      dsimp only at here
      rw [Function.update_self] at here
      cases here
      rfl
  · rw [Prod.mk.injEq] at entry
    obtain ⟨found, rfl⟩ := entry
    obtain ⟨r', here', -, same⟩ := find_port_record_spec env.nul s.portDb saddr port 0 IPPROTO_TCP i found
    rw [here] at here'
    cases here'
    exact same

-- What ftp_modifier does with the first command.
theorem modify_first (place : Nat) (port : Port) (stop : Nat)
    (found : findPort (payload bytes ++ env.behind) (payload bytes).length (payload bytes).length 0 = some
      (port, place + 5, stop)) :
    (∃ s', modifyBytes env s bytes = .dropped s' ∧ ∀ i r s'', ¬ Entered env s bytes port i r s'')
      ∨ ∃ i r s', Entered env s bytes port i r s' ∧ modifyBytes env s bytes
        = replaceBytes env s' bytes (tcpData bytes + (place + 5)) (tcpData bytes + stop) i
          (BitVec.ofNat 16 MASQ_BASE_PORT + r.num) := by
  unfold modifyBytes Entered
  dsimp only
  rw [show (tcpFields bytes).data = payload bytes from rfl, found]
  dsimp only
  cases control : (findPortRecord env.nul s.portDb (sourceOf bytes) (tcpFields bytes).srcport
    (tcpFields bytes).dstport IPPROTO_TCP).bind s.portDb with
  | none => exact .inl ⟨s, rfl, fun i r s'' entered => by obtain ⟨c, none, -⟩ := entered; cases none⟩
  | some c =>
      dsimp only
      cases entry : ftpEntry env s c (sourceOf bytes) (tcpFields bytes).seq port with
      | mk i s' =>
          cases i with
          | none =>
              refine .inl ⟨s', rfl, fun i r s'' entered => ?_⟩
              obtain ⟨c', same, entry', -⟩ := entered
              cases same
              rw [entry] at entry'
              cases entry'
          | some i =>
              cases here : s'.portDb i with
              | none =>
                  dsimp only
                  rw [here]
                  refine .inl ⟨s', rfl, fun i' r s'' entered => ?_⟩
                  obtain ⟨c', same, entry', here'⟩ := entered
                  cases same
                  rw [entry] at entry'
                  cases entry'
                  rw [here] at here'
                  cases here'
              | some r =>
                  dsimp only
                  rw [here]
                  exact .inr ⟨i, r, s', ⟨c, rfl, entry, here⟩, rfl⟩

section Rewriting

variable (segment : FtpSegment bytes) (place : Nat) (port : Port) (stop : Nat) (first : First (payload bytes) place port stop)
    (r : Record)

include segment first

theorem argument_inside : 25 ≤ tcpData bytes + (place + 5) ∧ tcpData bytes + (place + 10) ≤ tcpData bytes + stop
    ∧ tcpData bytes + stop < bytes.length := by
  obtain ⟨more, inside⟩ := stop_inside (payload bytes) place port stop first.command
  have header := segment.header
  have data : tcpHeader bytes ≤ tcpData bytes := Nat.le_add_right _ _
  have length : (payload bytes).length = bytes.length - tcpData bytes := List.length_drop
  omega

-- The datagram as ftp_modifier leaves it, and its length.
theorem replaced_bytes (s' : Masq) (i : Nat) : ∃ bytes' : Buffer, ∃ delta : Int,
    replaceBytes env s' bytes (tcpData bytes + (place + 5)) (tcpData bytes + stop) i (BitVec.ofNat 16 MASQ_BASE_PORT + r.num)
        = (if stop - (place + 5) < (text env r).length ∧ env.reserve = false then .dropped s' else .done delta bytes' (some i) s')
      ∧ bytes' = (put16 bytes 2 (BitVec.ofNat 16 bytes'.length)).take (tcpData bytes + (place + 5)) ++ text env r
          ++ bytes.drop (tcpData bytes + stop)
      ∧ get16 bytes' 2 = BitVec.ofNat 16 bytes'.length ∧ bytes'.length + (stop - (place + 5)) = bytes.length + (text env r).length
      ∧ delta = (bytes'.length : Int) - bytes.length := by
  obtain ⟨front, order, within⟩ := argument_inside bytes segment place port stop first
  generalize same : bytes.length + (text env r).length - (stop - (place + 5)) = length
  have field : get16 bytes 2 + BitVec.ofInt 16 ((length : Int) - bytes.length) = BitVec.ofNat 16 length := by
    have before : get16 bytes 2 = BitVec.ofInt 16 bytes.length := by
      rw [← segment.length, BitVec.ofInt_natCast, BitVec.ofNat_toNat, BitVec.setWidth_eq]
    rw [before, ← BitVec.ofInt_add, ← BitVec.ofInt_natCast]
    congr 1
    omega
  have heading : (put16 bytes 2 (BitVec.ofNat 16 length)).length = bytes.length := put16_length _ _ _
  have total : ((put16 bytes 2 (BitVec.ofNat 16 length)).take (tcpData bytes + (place + 5)) ++ text env r
      ++ bytes.drop (tcpData bytes + stop)).length = length := by
    rw [List.length_append, List.length_append, List.length_take, List.length_drop, heading]
    omega
  refine ⟨_, (length : Int) - bytes.length, ?_, by rw [total], ?_, by rw [total]; omega, by rw [total]⟩
  · rw [replace_done env s' bytes _ _ i _ (by omega) (by omega) (by omega) ((length : Int) - bytes.length) _ (by
      change _ = ((text env r).length : Int) - _
      omega) rfl, field, put16_drop bytes 2 _ _ (by omega), Nat.add_sub_add_left]
    rfl
  · rw [total, List.append_assoc, get16_append_left _ _ _ (by rw [List.length_take, heading]; omega)]
    rw [get16, get8_take _ _ _ (by omega), get8_take _ _ _ (by omega)]
    exact get16_put16_here bytes 2 _ (by omega)

end Rewriting

theorem rewritten_iff (segment : FtpSegment bytes) (whole : ¬ CutOff (payload bytes)) : Rewritten env s bytes ↔ Short env s bytes := by
  obtain ⟨missing, none⟩ | ⟨place, port, stop, first, found⟩ := find_first_command env bytes whole
  · refine iff_of_true ?_ fun place port stop i r s' first => absurd first.command (none place port stop)
    have result : modifyBytes env s bytes = .done 0 bytes Option.none s := by
      unfold modifyBytes
      dsimp only
      rw [show (tcpFields bytes).data = payload bytes from rfl, missing]
    unfold Rewritten
    rw [result]
    exact ⟨rfl, none⟩
  · obtain ⟨s', result, unentered⟩ | ⟨i, r, s', entered, result⟩ := modify_first env s bytes place port stop found
    · refine iff_of_true ?_ fun place' port' stop' i r s'' first' entered => ?_
      · unfold Rewritten
        rw [result]
        trivial
      · obtain ⟨-, rfl, -⟩ := first_unique _ _ _ _ _ _ _ first first'
        exact absurd entered (unentered i r s'')
    · obtain ⟨bytes', delta, replaced, shape, field, length, -⟩ := replaced_bytes env bytes segment place port stop first r s' i
      have only : ∀ i' r' s'', Entered env s bytes port i' r' s'' → r' = r := fun i' r' s'' entered' =>
        (entered_unique env s bytes port i' i r' r s'' s' entered' entered).2.1
      have fits : (get16 bytes' 2).toNat = bytes'.length ↔ bytes'.length < 2 ^ 16 := by
        rw [field, BitVec.toNat_ofNat]
        omega
      rw [replaced] at result
      unfold Rewritten
      rw [result]
      by_cases denied : stop - (place + 5) < (text env r).length ∧ env.reserve = false
      · rw [if_pos denied]
        refine iff_of_true trivial fun place' port' stop' i' r' s'' first' entered' => .inr ?_
        obtain ⟨rfl, rfl, rfl⟩ := first_unique _ _ _ _ _ _ _ first first'
        rwa [only i' r' s'' entered']
      · rw [if_neg denied]
        constructor
        · rintro ⟨place', port', stop', r', -, -, -, same⟩ place'' port'' stop'' i'' r'' s'' first'' entered''
          obtain ⟨rfl, rfl, rfl⟩ := first_unique _ _ _ _ _ _ _ first first''
          have small := fits.mp same.length
          rw [only i'' r'' s'' entered'']
          exact .inl (by omega)
        · intro short
          have small := (short place port stop i r s' first entered).resolve_right denied
          obtain ⟨c, control, entry, here⟩ := entered
          exact ⟨place, port, stop, r, first, here, entry_endpoint env s c _ _ port i s' r entry here, shape, fits.mpr (by omega)⟩

end Modifying

end MagxNet.Masquerade
