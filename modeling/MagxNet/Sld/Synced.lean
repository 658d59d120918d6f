import MagxNet.Sld.Recent
import MagxNet.Sld.Restore

set_option autoImplicit false

namespace MagxNet.Sld.Slc

open Bytes Ip MagxNet.Sld.Slip

-- A whole TCP segment in one datagram, as TCP and IP make it.
structure Formed (build : Chksum.Build) (p : Buffer) : Prop where
  regular : Regular p
  tcp : get8 p 9 = IPPROTO_TCP
  fits : hdrLength p ≤ p.length
  length : (iphLength p).toNat = p.length
  sum : get16 p 10 = Chksum.chksum build (put16 p 10 0) (BitVec.ofNat 16 (2 * iphHdrlen p))

theorem hdr_length_max (p : Buffer) : hdrLength p ≤ 120 := by
  unfold hdrLength iphHdrlen tcphHdrlen
  have high := (get8 p (tcpAt p + 12)).isLt
  omega

-- What the receiver holds for the headers h that the sender keeps.
structure Held (h : Buffer) (cs : Cstate) : Prop where
  regular : Regular h
  copy : Copy h cs.hdr
  sum : get16 cs.hdr 10 = 0
  hlen : cs.hlen = hdrLength h

theorem heads_regular (p q : Buffer) (regular : Regular p) (heads : Heads p q) : Regular q := by
  obtain ⟨first, place, second, size⟩ := heads_place p q regular.ihl regular.doff heads
  have inside := tcp_inside regular
  have flags : tcphFlags q = tcphFlags p := by
    unfold tcphFlags
    rw [place, heads _ (by omega)]
  have urgent : tcphUrgptr q = tcphUrgptr p := by
    unfold tcphUrgptr
    rw [place]
    exact get16_congr _ _ _ _ (heads _ (by omega)) (heads _ (by omega))
  refine ⟨first ▸ regular.ihl, second ▸ regular.doff, flags ▸ regular.flags, ?_, ?_⟩
  · rw [place, heads _ (by omega)]
    exact regular.reserved
  · rw [flags, urgent]
    exact regular.urgent

theorem heads_held (p q : Buffer) (cs : Cstate) (held : Held p cs) (heads : Heads p q) : Held q cs := by
  obtain ⟨-, -, -, size⟩ := heads_place p q held.regular.ihl held.regular.doff heads
  refine ⟨heads_regular p q held.regular heads, ⟨held.copy.length, size ▸ held.copy.fits, fun i less first second => ?_⟩, held.sum,
    held.hlen.trans size.symm⟩
  rw [size] at less
  rw [held.copy.same i less first second, heads i less]

-- Both ends of a link agree: a state that was never used has nothing in its first octet.
structure Synced (s r : Slcompress) : Prop where
  states : ∃ nodes, States s nodes ∧ nodes.Perm (List.range MAX_STATES)
  ids : ∀ i < MAX_STATES, (s.tstate i).id = BitVec.ofNat 8 i
  size : ∀ i, (r.rstate i).hdr.length = MAX_HDR
  held : ∀ i < MAX_STATES, get8 (s.tstate i).hdr 0 = 0 ∨ Held (s.tstate i).hdr (r.rstate i)
  last : s.lastXmit = 255 ∨ r.toss = false ∧ r.lastRecv = s.lastXmit

theorem init_synced : Synced slcInit slcInit := by
  refine ⟨⟨_, init_states, List.reverse_perm _⟩, fun _ _ => rfl, fun _ => List.length_replicate .., fun i _ => Or.inl ?_,
    Or.inl rfl⟩
  change get8 (List.replicate MAX_HDR 0) 0 = 0
  decide

-- What the packet does to the sender, and what its frame does to the receiver.
structure Sends (s s1 s' : Slcompress) (cs : Nat) (p : Buffer) : Prop where
  relinked : Relinked s s1
  lastCs : s'.lastCs = s1.lastCs
  tstate : s'.tstate = (keepHdr s1 cs p).tstate
  lastXmit : s'.lastXmit = (s1.tstate cs).id

structure Receives (r r' : Slcompress) (cs : Nat) (new : Cstate) : Prop where
  rstate : r'.rstate = Function.update r.rstate cs new
  lastRecv : r'.lastRecv = BitVec.ofNat 8 cs
  toss : r'.toss = false

theorem synced_next (s s1 s' r r' : Slcompress) (cs : Nat) (p : Buffer) (new : Cstate) (nodes : List Nat) (synced : Synced s r)
    (sends : Sends s s1 s' cs p) (receives : Receives r r' cs new) (states : States s1 nodes)
    (order : nodes.Perm (List.range MAX_STATES)) (inside : cs < MAX_STATES) (held : Held p new) : Synced s' r' := by
  have next : nextOf s' = nextOf (keepHdr s1 cs p) := by
    unfold nextOf
    rw [sends.tstate]
  have id : ∀ i < MAX_STATES, (s'.tstate i).id = BitVec.ofNat 8 i := fun i less => by
    rw [sends.tstate, ← synced.ids i less, ← sends.relinked.id]
    unfold keepHdr setHdr
    dsimp only
    by_cases same : i = cs
    · rw [same, Function.update_self]
    · rw [Function.update_of_ne same]
  refine ⟨⟨nodes, ?_, order⟩, id, fun i => ?_, fun i less => ?_, Or.inr ⟨receives.toss, ?_⟩⟩
  · rw [States, next, sends.lastCs]
    exact keep_states s1 cs p nodes states
  · rw [receives.rstate]
    by_cases same : i = cs
    · rw [same, Function.update_self]
      exact held.copy.length
    · rw [Function.update_of_ne same]
      exact synced.size i
  · rw [receives.rstate, sends.tstate]
    unfold keepHdr setHdr
    dsimp only
    by_cases same : i = cs
    · rw [same, Function.update_self, Function.update_self]
      exact Or.inr (heads_held p _ new held (bcopy_heads p _))
    · rw [Function.update_of_ne same, Function.update_of_ne same, sends.relinked.hdr]
      exact synced.held i less
  · rw [receives.lastRecv, sends.lastXmit, sends.relinked.id, synced.ids cs inside]

theorem id_number (cs : Nat) (inside : cs < MAX_STATES) : (BitVec.ofNat 8 cs).toNat = cs := by
  rw [BitVec.toNat_ofNat]
  exact Nat.mod_eq_of_lt (by unfold MAX_STATES at inside; omega)

theorem rstate_receives (r comp : Slcompress) (cs hlen : Nat) (hdr : Buffer) (inside : cs < MAX_STATES)
    (same : comp.rstate = r.rstate)
    (last : comp.lastRecv = BitVec.ofNat 8 cs) (toss : comp.toss = false) :
    Receives r (setRstate comp hdr hlen) cs { r.rstate cs with hdr := hdr, hlen := hlen } := by
  refine ⟨?_, last, toss⟩
  unfold setRstate receiving
  dsimp only
  rw [last, id_number cs inside, same]

-- The receiver of an uncompressed packet gets it back, whatever it held.
theorem uncompressed_received (build : Chksum.Build) (r : Slcompress) (p : Buffer) (cs : Nat) (x : Byte) (formed : Formed build p)
    (long : 40 ≤ p.length) (inside : cs < MAX_STATES) (size : (r.rstate cs).hdr.length = MAX_HDR) (first : x &&& 0x4f = get8 p 0) :
    ∃ r' new, recvUncompressed r (put8 (put8 p 9 (BitVec.ofNat 8 cs)) 0 x) = (r', some p) ∧ Receives r r' cs new ∧ Held p new := by
  generalize frame : put8 (put8 p 9 (BitVec.ofNat 8 cs)) 0 x = b
  have length : b.length = p.length := by rw [← frame, put8_length, put8_length]
  have id : iphProto b = BitVec.ofNat 8 cs := by
    rw [iphProto, ← frame, get8_put8_elsewhere _ _ _ _ (by decide), get8_put8_here _ _ _ (by omega)]
  have number : (iphProto b).toNat = cs := by rw [id, id_number cs inside]
  have back : put8 (put8 b 0 (get8 b 0 &&& 0x4f)) 9 IPPROTO_TCP = p := by
    refine buffer_ext _ _ (by rw [put8_length, put8_length, length]) fun i less => ?_
    rw [put8_length, put8_length, length] at less
    by_cases nine : i = 9
    · rw [nine, get8_put8_here _ _ _ (by rw [put8_length]; omega), formed.tcp]
    · rw [get8_put8_elsewhere _ _ _ _ (Ne.symm nine)]
      by_cases zero : i = 0
      · rw [zero, get8_put8_here _ _ _ (by omega), ← frame, get8_put8_here _ _ _ (by rw [put8_length]; omega), first]
      · rw [get8_put8_elsewhere _ _ _ _ (Ne.symm zero), ← frame, get8_put8_elsewhere _ _ _ _ (Ne.symm zero),
          get8_put8_elsewhere _ _ _ _ (Ne.symm nine)]
  have most := hdr_length_max p
  have inside' := tcp_inside formed.regular
  have fits := formed.fits
  have copied : (bcopy p (r.rstate cs).hdr (hdrLength p)).length = MAX_HDR := by
    unfold bcopy
    rw [List.length_append, copy_bytes_length, List.length_drop, size, MAX_HDR]
    omega
  refine ⟨_, _, ?_, rstate_receives r (setRecv r (iphProto b)) cs (hdrLength p)
    (put16 (bcopy p (r.rstate cs).hdr (hdrLength p)) 10 0) inside rfl id rfl, ?_⟩
  · unfold recvUncompressed
    rw [if_neg (by rw [length, number]; omega)]
    dsimp only
    rw [back, if_neg (by omega)]
    unfold receiving setRecv
    dsimp only
    rw [number]
  · refine ⟨formed.regular, ⟨?_, by unfold MAX_HDR; omega, fun i less first second => ?_⟩, ?_, rfl⟩
    · rw [put16_length, copied]
    · rw [get8_put16_elsewhere _ _ _ _ (Ne.symm first) (Ne.symm second)]
      exact bcopy_heads p _ i less
    · exact get16_put16_here _ _ _ (by rw [copied]; decide)

-- What the receiver makes of a compressed packet.
def meantOf (p h : Buffer) (c : Changes) : Buffer :=
  put32 (put32 p (tcpAt p + 8) (tcphAck h + carried c (tcphAck p - tcphAck h))) (tcpAt p + 4)
    (tcphSeq h + carried c (tcphSeq p - tcphSeq h))

theorem meant_of (p h : Buffer) (c : Changes) (regular : Regular p) (fits : hdrLength p ≤ p.length) : Meant p h c
    (meantOf p h c) := by
  have inside := tcp_inside regular
  refine ⟨fun i less outside => ?_, ?_, ?_⟩
  · unfold meantOf
    rw [get8_put32_elsewhere _ _ _ _ (by omega), get8_put32_elsewhere _ _ _ _ (by omega)]
  · unfold meantOf
    rw [get32_congr _ _ _ _ fun k less => get8_put32_elsewhere _ (tcpAt p + 4) (tcpAt p + 8 + k) _ (by omega)]
    exact get32_put32_here _ _ _ (by omega)
  · unfold meantOf
    exact get32_put32_here _ _ _ (by rw [put32_length]; omega)

section Compressed

variable (build : Chksum.Build) (p h new b front : Buffer) (c : Changes) (changes : Byte) (cs : Cstate) (formed : Formed build p)
  (held : Held h cs) (conn : connOf p = connOf h) (coded : codeHeader p h = some c) (meant : Meant p h c new)
  (mask : changes &&& 0x3f = c.1)
  (whole : b = front ++ [(tcphChksum p).extractLsb' 8 8, (tcphChksum p).extractLsb' 0 8] ++ c.2 ++ p.drop (hdrLength p))

include formed held conn coded meant mask whole

-- The header with its length, before the checksum.
theorem state_restored (comp : Slcompress) (same : receiving comp = cs) :
    ∃ hdr, recvState build comp changes b front.length
        = (setRstate comp hdr (hdrLength p), some (rebuilt build hdr (hdrLength p) (p.drop (hdrLength p))))
      ∧ hdr.length = MAX_HDR ∧ get16 hdr 10 = 0
      ∧ ∀ i < hdrLength p, i ≠ 10 → i ≠ 11 → get8 hdr i = get8 new i := by
  obtain ⟨shape, -⟩ := code_header_parts p h c coded
  obtain ⟨-, size, -⟩ := shape_same p h conn shape formed.regular held.regular
  have inside := tcp_inside formed.regular
  have most := hdr_length_max p
  have fits := formed.fits
  obtain ⟨A, run, patched⟩ := header_restored formed.regular held.regular conn shape held.copy meant front (p.drop (hdrLength p)) b
    changes coded mask whole
  have long : A.length = MAX_HDR := by
    have kept := restore_hdr_length changes (hdrLength p) front.length cs.hdr b
    rw [run] at kept
    exact kept.trans held.copy.length
  generalize stop : (front ++ [(tcphChksum p).extractLsb' 8 8, (tcphChksum p).extractLsb' 0 8] ++ c.2).length = pos at run
  have end' : b.length = pos + (p.length - hdrLength p) := by rw [whole, List.length_append, stop, List.length_drop]
  have rest : b.drop pos = p.drop (hdrLength p) := by
    rw [whole, ← stop]
    exact List.drop_left
  have total : b.length - pos + hdrLength p = p.length := by omega
  have value : BitVec.ofNat 16 p.length = get16 new 2 := by
    rw [meant_get16 meant 2 (by omega) (Or.inl (by omega)), ← formed.length]
    exact (BitVec.ofNat_toNat ..).trans (BitVec.setWidth_eq _)
  have sized := patched_put16 cs.hdr new A _ 2 _ _ patched (by omega) value
  refine ⟨put16 A 2 (BitVec.ofNat 16 p.length), ?_, ?_, ?_, fun i less first second => ?_⟩
  · unfold recvState
    dsimp only
    rw [same, held.hlen, size, run]
    dsimp only
    rw [if_neg (by omega), total, if_neg (by omega), rest]
  · rw [put16_length, long]
  · rw [patched_get16 10 sized List.mem_cons_self (by omega), held.sum]
  · refine sized.new i less fun f member => ?_
    obtain rfl := List.mem_singleton.mp member
    unfold Inside
    omega

end Compressed

theorem rebuilt_get8 (build : Chksum.Build) (hdr data : Buffer) (hlen i : Nat) (less : i < hlen) (first : i ≠ 10)
    (second : i ≠ 11) :
    get8 (rebuilt build hdr hlen data) i = get8 hdr i := by
  unfold rebuilt
  dsimp only
  rw [get8_put16_elsewhere _ _ _ _ (Ne.symm first) (Ne.symm second), get8_append_left _ _ _ (by rwa [copy_bytes_length]),
    get8_copy_bytes _ _ _ _ less, Nat.zero_add]

theorem rebuilt_same (build : Chksum.Build) (p hdr : Buffer) (formed : Formed build p) (sum : get16 hdr 10 = 0)
    (same : ∀ i < hdrLength p, i ≠ 10 → i ≠ 11 → get8 hdr i = get8 p i) :
    rebuilt build hdr (hdrLength p) (p.drop (hdrLength p)) = p := by
  have inside := tcp_inside formed.regular
  have fits := formed.fits
  have zero := get16_bytes hdr [] 10 0 sum
  have blank : copyBytes hdr 0 (hdrLength p) ++ p.drop (hdrLength p) = put16 p 10 0 := by
    refine buffer_ext _ _ ?_ fun i less => ?_
    · rw [List.length_append, copy_bytes_length, List.length_drop, put16_length]
      omega
    · have written := get16_bytes (put16 p 10 0) [] 10 0 (get16_put16_here p 10 0 (by omega))
      by_cases front : i < hdrLength p
      · rw [get8_append_left _ _ _ (by rwa [copy_bytes_length]), get8_copy_bytes _ _ _ _ front, Nat.zero_add]
        by_cases first : i = 10
        · rw [first, zero.1, written.1]
        by_cases second : i = 11
        · rw [second, zero.2, written.2]
        rw [same i front first second, get8_put16_elsewhere _ _ _ _ (Ne.symm first) (Ne.symm second)]
      · obtain ⟨k, rfl⟩ := Nat.exists_eq_add_of_le (Nat.le_of_not_lt front)
        have behind := get8_append_right (copyBytes hdr 0 (hdrLength p)) (p.drop (hdrLength p)) k
        rw [copy_bytes_length] at behind
        rw [behind, get8_put16_elsewhere _ _ _ _ (by omega) (by omega), get8, get8, List.getD_eq_getElem?_getD,
          List.getD_eq_getElem?_getD, List.getElem?_drop]
  have ihl : iphHdrlen hdr = iphHdrlen p := by
    unfold iphHdrlen
    rw [same 0 (by omega) (by decide) (by decide)]
  unfold rebuilt
  dsimp only
  rw [blank, ihl, ← formed.sum]
  have back := get16_bytes (put16 (put16 p 10 0) 10 (get16 p 10)) p 10 10 (get16_put16_here _ _ _ (by rw [put16_length]; omega))
  refine buffer_ext _ _ (by rw [put16_length, put16_length]) fun i _ => ?_
  by_cases first : i = 10
  · rw [first, back.1]
  by_cases second : i = 11
  · rw [second, back.2]
  rw [get8_put16_elsewhere _ _ _ _ (Ne.symm first) (Ne.symm second), get8_put16_elsewhere _ _ _ _ (Ne.symm first) (Ne.symm second)]

def special (c : Changes) : Bool := c.1 &&& SPECIALS_MASK = SPECIAL_I || c.1 &&& SPECIALS_MASK = SPECIAL_D

theorem carried_whole (c : Changes) (d : BitVec 32) (near : d.toNat ≤ 0xffff) :
    carried c d = d ↔ special c = true ∨ d.toNat < 0x8000 := by
  unfold carried special
  rw [Bool.or_eq_true, decide_eq_true_eq, decide_eq_true_eq]
  by_cases made : c.1 &&& SPECIALS_MASK = SPECIAL_I ∨ c.1 &&& SPECIALS_MASK = SPECIAL_D
  · rw [if_pos made]
    exact iff_of_true rfl (Or.inl made)
  · rw [if_neg made, or_iff_right made]
    have value : (d.setWidth 16).toNat = d.toNat := by
      rw [BitVec.toNat_setWidth]
      exact Nat.mod_eq_of_lt (by omega)
    by_cases small : d.toNat < 0x8000
    · refine iff_of_true ?_ small
      rw [BitVec.signExtend_eq_setWidth_of_msb_false (BitVec.msb_eq_false_iff_two_mul_lt.mpr (by omega))]
      apply BitVec.eq_of_toNat_eq
      rw [BitVec.toNat_setWidth, value]
      exact Nat.mod_eq_of_lt d.isLt
    · refine iff_of_false (fun same => ?_) small
      have negative : (d.setWidth 16).msb = true := BitVec.msb_eq_true_iff_two_mul_ge.mpr (by omega)
      have sign : (BitVec.signExtend 32 (d.setWidth 16)).msb = true := by
        rw [BitVec.msb_signExtend, if_neg (by decide), negative]
        rfl
      rw [same] at sign
      have large := BitVec.msb_eq_true_iff_two_mul_ge.mp sign
      omega

-- A difference of the numbers that is written out and does not fit into a signed short.
def wide (p h : Buffer) : Bool :=
  match codeHeader p h with
  | none => false
  | some c => !special c && (0x8000 ≤ (tcphAck p - tcphAck h).toNat || 0x8000 ≤ (tcphSeq p - tcphSeq h).toNat)

theorem wide_carried (p h : Buffer) (c : Changes) (coded : codeHeader p h = some c) :
    wide p h = false ↔ carried c (tcphAck p - tcphAck h) = tcphAck p - tcphAck h
      ∧ carried c (tcphSeq p - tcphSeq h) = tcphSeq p - tcphSeq h := by
  obtain ⟨-, c0, c1, u, w, a, s, numbers, -⟩ := code_header_parts p h c coded
  rw [carried_whole c _ numbers.nearAck, carried_whole c _ numbers.nearSeq]
  unfold wide
  rw [coded]
  dsimp only
  rw [Bool.and_eq_false_iff, Bool.or_eq_false_iff, decide_eq_false_iff_not, decide_eq_false_iff_not, Nat.not_le, Nat.not_le,
    Bool.not_eq_false']
  exact or_and_left

-- The frame of a compressed packet, whose first octet may have the type in its highest bit.
theorem compressed_received (build : Chksum.Build) (r : Slcompress) (p h : Buffer) (c : Changes) (cs : Nat) (x : Byte)
    (explicit : Bool)
    (formed : Formed build p) (held : Held h (r.rstate cs)) (inside : cs < MAX_STATES) (conn : connOf p = connOf h)
    (coded : codeHeader p h = some c) (first : x &&& 0x7f = if explicit then c.1 ||| NEW_C else c.1)
    (known : explicit = false → r.toss = false ∧ r.lastRecv = BitVec.ofNat 8 cs) :
    ∃ r' out new, recvCompressed build r (x :: (compressed explicit (BitVec.ofNat 8 cs) p c).tail) = (r', some out)
      ∧ Receives r r' cs new ∧ (wide p h = false → out = p ∧ Held p new) ∧ (wide p h = true → out ≠ p) := by
  have low := code_header_low p h c coded
  have mask : x &&& 0x3f = c.1 := by
    have part : x &&& 0x3f = x &&& 0x7f &&& 0x3f := by
      rw [BitVec.and_assoc]
      rfl
    have drops : ∀ m : Byte, m &&& 0x3f = m → (m ||| NEW_C) &&& 0x3f = m := by decide
    rw [part, first]
    cases explicit with
    | true => exact drops _ low
    | false => exact low
  have flag : x &&& NEW_C ≠ 0 ↔ explicit = true := by
    have part : x &&& NEW_C = x &&& 0x7f &&& NEW_C := by
      rw [BitVec.and_assoc]
      rfl
    have sets : ∀ m : Byte, (m ||| NEW_C) &&& NEW_C ≠ 0 := by decide
    have clear : ∀ m : Byte, m &&& 0x3f = m → ¬ m &&& NEW_C ≠ 0 := by decide
    rw [part, first]
    cases explicit with
    | true => exact iff_of_true (sets _) rfl
    | false => exact iff_of_false (clear _ low) Bool.false_ne_true
  obtain ⟨shape, -⟩ := code_header_parts p h c coded
  have fits := formed.fits
  have inside' := tcp_inside formed.regular
  have parts : ∀ new, Meant p h c new → ∃ r' hdr, recvCompressed build r (x :: (compressed explicit (BitVec.ofNat 8 cs) p c).tail)
        = (r', some (rebuilt build hdr (hdrLength p) (p.drop (hdrLength p))))
      ∧ Receives r r' cs { r.rstate cs with hdr := hdr, hlen := hdrLength p }
      ∧ hdr.length = MAX_HDR ∧ get16 hdr 10 = 0 ∧ ∀ i < hdrLength p, i ≠ 10 → i ≠ 11 → get8 hdr i = get8 new i := by
    intro new meant
    unfold recvCompressed
    dsimp only
    rw [show get8 (x :: (compressed explicit (BitVec.ofNat 8 cs) p c).tail) 0 = x from rfl]
    cases explicit with
    | true =>
        obtain ⟨hdr, run, facts⟩ := state_restored build p h new _ [x, BitVec.ofNat 8 cs] c x
          (r.rstate cs) formed held conn coded meant
          mask rfl (setRecv r (BitVec.ofNat 8 cs)) (by unfold receiving setRecv; dsimp only; rw [id_number cs inside])
        refine ⟨_, hdr, ?_, rstate_receives r (setRecv r (BitVec.ofNat 8 cs)) cs (hdrLength p) hdr inside rfl rfl rfl, facts⟩
        have id : get8 (x :: (compressed true (BitVec.ofNat 8 cs) p c).tail) 1 = BitVec.ofNat 8 cs := rfl
        rw [if_pos (flag.mpr rfl), id, if_neg (by rw [id_number cs inside]; omega)]
        exact run
    | false =>
        obtain ⟨toss, last⟩ := known rfl
        obtain ⟨hdr, run, facts⟩ := state_restored build p h new _ [x] c x (r.rstate cs) formed held conn coded meant mask rfl r
          (by unfold receiving; rw [last, id_number cs inside])
        refine ⟨_, hdr, ?_, rstate_receives r r cs (hdrLength p) hdr inside rfl last toss, facts⟩
        rw [if_neg fun set => Bool.false_ne_true (flag.mp set), toss, if_neg Bool.false_ne_true]
        exact run
  have near := wide_carried p h c coded
  cases far : wide p h with
  | false =>
      obtain ⟨ack, seq⟩ := near.mp far
      obtain ⟨r', hdr, run, receives, length, sum, same⟩ := parts p ⟨fun _ _ _ => rfl, by rw [ack]; exact (add_sub_cancel _ _).symm,
        by rw [seq]; exact (add_sub_cancel _ _).symm⟩
      refine ⟨r', _, _, run, receives, fun _ => ⟨rebuilt_same build p hdr formed sum same, ?_⟩, fun wrong => absurd wrong
        (by decide)⟩
      have most := hdr_length_max p
      exact ⟨formed.regular, ⟨length, by unfold MAX_HDR; omega, same⟩, sum, rfl⟩
  | true =>
      obtain ⟨r', hdr, run, receives, -, -, same⟩ := parts (meantOf p h c) (meant_of p h c formed.regular fits)
      refine ⟨r', _, _, run, receives, fun wrong => absurd wrong (by decide), fun _ back => ?_⟩
      have meant := meant_of p h c formed.regular fits
      have read : ∀ i, 12 ≤ i → i + 3 < hdrLength p → get32 (meantOf p h c) i = get32 p i := by
        intro i behind less
        refine get32_congr _ _ _ _ fun k four => ?_
        rw [← same (i + k) (by omega) (by omega) (by omega), ← rebuilt_get8 build hdr (p.drop (hdrLength p)) (hdrLength p) (i + k)
          (by omega) (by omega) (by omega), back]
      have ack := (meant.ack.symm.trans (read _ (by omega) (by omega))).trans (show get32 p (tcpAt p + 8) = tcphAck p from rfl)
      have seq := (meant.seq.symm.trans (read _ (by omega) (by omega))).trans (show get32 p (tcpAt p + 4) = tcphSeq p from rfl)
      exact Bool.false_ne_true ((near.mpr ⟨eq_sub_of_add_eq' ack, eq_sub_of_add_eq' seq⟩).symm.trans far)

end MagxNet.Sld.Slc
