import MagxNet.Lib.Sessions
import MagxNet.Sld.PppTrip
import MagxNet.Sld.Synced

set_option autoImplicit false

namespace MagxNet.Sld.Slc

open Bytes Ip MagxNet.Sld.Slip

-- Whether the sender writes out a difference that the receiver takes for a negative one.
def tooWide (comp : Slcompress) (p : Buffer) : Bool :=
  match findState comp p with
  | some (comp', cs, true) => wide p (comp'.tstate cs).hdr
  | _ => false

-- Some state of the sender has been used.
def Used (comp : Slcompress) : Prop := ∃ i < MAX_STATES, get8 (comp.tstate i).hdr 0 ≠ 0

-- The first octet of a frame: a driver may have put the type of the packet into it.
structure Heard (type first x : Byte) : Prop where
  uncompressed : type = TYPE_UNCOMPRESSED_TCP → x &&& 0x4f = first
  compressed : type = TYPE_COMPRESSED_TCP → x &&& 0x7f = first

-- One packet on its way.
structure Passes (build : Chksum.Build) (s r s' : Slcompress) (p : Buffer) (type : Byte) (b : Buffer) : Prop where
  kind : type = TYPE_UNCOMPRESSED_TCP ∧ get8 b 0 = get8 p 0 ∨ type = TYPE_COMPRESSED_TCP ∧ get8 b 0 &&& 0x7f = get8 b 0 ∧ Used s
  full : b ≠ []
  back : ∀ x, Heard type (get8 b 0) x → ∃ r' out, slcUncompress build r type (put8 b 0 x) = (r', some out)
    ∧ (tooWide s p = false → out = p ∧ Synced s' r') ∧ (tooWide s p = true → out ≠ p)

theorem unused_shape (p h : Buffer) (regular : Regular p) (unused : get8 h 0 = 0) : codeHeader p h = none := by
  have other : sameShape p h = false := by
    unfold sameShape
    have first : ¬ get16 p 0 = get16 h 0 := fun same => by
      have ihl := regular.ihl
      unfold iphHdrlen at ihl
      rw [(get16_bytes p h 0 0 same).1, unused] at ihl
      revert ihl
      decide
    rw [decide_eq_false first]
    rfl
  unfold codeHeader
  rw [other]
  rfl

theorem uncompressed_passes (build : Chksum.Build) (s s1 r : Slcompress) (p : Buffer) (cs : Nat) (nodes : List Nat)
    (synced : Synced s r) (formed : Formed build p) (able : compressible p = true) (relinked : Relinked s s1)
      (states : States s1 nodes)
    (order : nodes.Perm (List.range MAX_STATES)) (inside : cs < MAX_STATES) (narrow : tooWide s p = false) :
    Passes build s r (sendUncompressed s1 cs p).1 p TYPE_UNCOMPRESSED_TCP (put8 p 9 (s1.tstate cs).id) := by
  have id : (s1.tstate cs).id = BitVec.ofNat 8 cs := (relinked.id cs).trans (synced.ids cs inside)
  have long : 40 ≤ p.length := by
    unfold compressible at able
    simp only [Bool.and_eq_true, decide_eq_true_eq] at able
    exact able.1.2
  have first : get8 (put8 p 9 (s1.tstate cs).id) 0 = get8 p 0 := get8_put8_elsewhere _ _ _ _ (by decide)
  refine ⟨Or.inl ⟨rfl, first⟩, fun none => ?_, fun x heard => ?_⟩
  · have length := congrArg List.length none
    rw [put8_length] at length
    rw [length] at long
    cases long
  · obtain ⟨r', new, run, receives, held⟩ := uncompressed_received build r p cs x formed long inside (synced.size cs)
      ((heard.uncompressed rfl).trans first)
    rw [id]
    refine ⟨r', p, (if_pos rfl).trans run, fun _ => ⟨rfl, ?_⟩, fun far => absurd (narrow.symm.trans far) (by decide)⟩
    exact synced_next s s1 _ r r' cs p new nodes synced ⟨relinked, rfl, rfl, rfl⟩ receives states order inside held

theorem compressed_passes (build : Chksum.Build) (s s1 r : Slcompress) (cid : Bool) (p : Buffer) (cs : Nat) (c : Changes)
    (nodes : List Nat) (synced : Synced s r) (formed : Formed build p) (relinked : Relinked s s1)
    (states : States s1 nodes) (order : nodes.Perm (List.range MAX_STATES)) (inside : cs < MAX_STATES)
    (find : findState s p = some (s1, cs, true)) (here : connOf p = connOf (s.tstate cs).hdr)
    (coded : codeHeader p (s1.tstate cs).hdr = some c) :
    Passes build s r (sendCompressed s1 cid cs p c).1 p TYPE_COMPRESSED_TCP (sendCompressed s1 cid cs p c).2.2 := by
  have id : (s1.tstate cs).id = BitVec.ofNat 8 cs := (relinked.id cs).trans (synced.ids cs inside)
  have width : tooWide s p = wide p (s1.tstate cs).hdr := by
    unfold tooWide
    rw [find]
  rw [relinked.hdr] at coded width
  have used : get8 (s.tstate cs).hdr 0 ≠ 0 := fun unused => by
    rw [unused_shape p _ formed.regular unused] at coded
    cases coded
  have held := (synced.held cs inside).resolve_left used
  unfold sendCompressed
  dsimp only
  rw [id, relinked.lastXmit]
  generalize mode : (!cid || decide (s.lastXmit ≠ BitVec.ofNat 8 cs)) = explicit
  have low := code_header_low p _ c coded
  have first : get8 (compressed explicit (BitVec.ofNat 8 cs) p c) 0 = if explicit then c.1 ||| NEW_C else c.1 := by
    cases explicit <;> rfl
  have shape : ∀ x, put8 (compressed explicit (BitVec.ofNat 8 cs) p c) 0 x = x ::
    (compressed explicit (BitVec.ofNat 8 cs) p c).tail :=
    fun x => by cases explicit <;> rfl
  have again : explicit = false → s.lastXmit = BitVec.ofNat 8 cs := fun implicit => by
    rw [implicit] at mode
    exact not_not.mp (of_decide_eq_false (Bool.or_eq_false_iff.mp mode).2)
  have known : explicit = false → r.toss = false ∧ r.lastRecv = BitVec.ofNat 8 cs := fun implicit => by
    have same := again implicit
    rw [← same]
    refine synced.last.resolve_left fun none => ?_
    have number := id_number cs inside
    rw [← same, none] at number
    unfold MAX_STATES at inside
    have value : (255 : Byte).toNat = 255 := rfl
    omega
  refine ⟨Or.inr ⟨rfl, ?_, cs, inside, used⟩, fun none => ?_, fun x heard => ?_⟩
  · have clear : ∀ m : Byte, m &&& 0x3f = m → (m ||| NEW_C) &&& 0x7f = m ||| NEW_C ∧ m &&& 0x7f = m := by decide
    rw [first]
    cases explicit with
    | true => exact (clear _ low).1
    | false => exact (clear _ low).2
  · cases explicit <;> cases none
  · rw [shape x]
    obtain ⟨r', out, new, run, receives, narrow, far⟩ :=
      compressed_received build r p _ c cs x explicit formed held inside here coded
      ((heard.compressed rfl).trans first) known
    refine ⟨r', out, ?_, fun fits => ?_, fun wrong => far (width.symm.trans wrong)⟩
    · unfold slcUncompress
      rw [if_neg (by decide), if_pos rfl]
      exact run
    · obtain ⟨same, held'⟩ := narrow (width.symm.trans fits)
      refine ⟨same, synced_next s s1 _ r r' cs p new nodes synced ⟨relinked, ?_, ?_, ?_⟩ receives states order inside held'⟩
      · split <;> rfl
      · split <;> rfl
      · rw [id]
        cases explicit with
        | true => rfl
        | false =>
            rw [if_neg Bool.false_ne_true]
            exact relinked.lastXmit.trans (again rfl)

-- One packet, whether it goes compressed or not.
theorem slc_passes (build : Chksum.Build) (s r : Slcompress) (cid : Bool) (p : Buffer) (synced : Synced s r)
    (formed : Formed build p)
    (able : compressible p = true) : ∃ s' type b, slcCompress s cid p = some (s', type, b) ∧ Passes build s r s' p type b := by
  obtain ⟨nodes, states, order⟩ := synced.states
  have size : nodes.length = MAX_STATES := order.length_eq.trans (List.length_range ..)
  obtain ⟨s1, cs, found, find, relinked, member, states', finds⟩ := find_spec s p nodes states size
  have inside : cs < MAX_STATES := List.mem_range.mp (order.mem_iff.mp member)
  have order' : (cs :: nodes.erase cs).Perm (List.range MAX_STATES) := (List.perm_cons_erase member).symm.trans order
  unfold slcCompress
  rw [if_pos able, find]
  cases found with
  | false =>
      refine ⟨_, _, _, rfl, uncompressed_passes build s s1 r p cs _ synced formed able relinked states' order' inside ?_⟩
      unfold tooWide
      rw [find]
  | true =>
      cases coded : codeHeader p (s1.tstate cs).hdr with
      | none =>
          dsimp only
          rw [coded]
          refine ⟨_, _, _, rfl, uncompressed_passes build s s1 r p cs _ synced formed able relinked states' order' inside ?_⟩
          unfold tooWide
          rw [find]
          dsimp only
          unfold wide
          rw [coded]
      | some c =>
          dsimp only
          rw [coded]
          cases finds with
          | hit front back whole here missed =>
              exact ⟨_, _, _, rfl, compressed_passes build s s1 r cid p cs c _ synced formed relinked states' order' inside find
                (of_decide_eq_true here) coded⟩

-- A packet for a driver: only TCP goes to slc_compress.
structure Tidy (build : Chksum.Build) (p : Buffer) : Prop where
  version : get8 p 0 &&& 0xf0 = 0x40
  formed : compressible p = true → get8 p 9 = IPPROTO_TCP → Formed build p

-- Both drivers agree: where the sender compresses, the receiver can follow.
structure Paired (s r : Slcompress) (sends follows waits : Bool) : Prop where
  synced : Synced s r
  able : sends = true → follows = true ∨ waits = true ∧ ¬ Used s

theorem init_unused : ¬ Used slcInit := by
  rintro ⟨i, -, used⟩
  apply used
  change get8 (List.replicate MAX_HDR 0) 0 = 0
  decide

theorem or_first (type : Byte) (b : Buffer) : orFirst type b = put8 b 0 (get8 b 0 ||| type) := by
  cases b <;> rfl

theorem vj_compress (build : Chksum.Build) (s s' : Slcompress) (cid : Bool) (p b : Buffer) (type : Byte)
    (result : slcCompress s cid p = some (s', type, b)) : (vj build).compress s cid p = (s', type, b) := by
  unfold vj
  dsimp only
  rw [result]
  rfl

theorem packets_tidy : ∀ p ∈ [ackPacket, dataPacket], Tidy .gnu p := by
  intro p member
  obtain rfl | rfl : p = ackPacket ∨ p = dataPacket := by simpa using member
  · exact ⟨by decide, fun _ _ => ⟨⟨by decide, by decide, by decide, by decide, by decide⟩, by decide, by decide, by decide,
      by decide⟩⟩
  · exact ⟨by decide, fun _ _ => ⟨⟨by decide, by decide, by decide, by decide, by decide⟩, by decide, by decide, by decide,
      by decide⟩⟩

section Slip

variable (build : Chksum.Build)

def slipWide (t : SlipOpt Slcompress) (p : Buffer) : Bool :=
  t.compress && decide (get8 p 9 = IPPROTO_TCP) && compressible p && tooWide t.comp p

-- A packet through a pair of SLIP drivers, the sender first.
def slipRelay (w : SlipOpt Slcompress × SlipOpt Slcompress) (p : Buffer) :
    (SlipOpt Slcompress × SlipOpt Slcompress) × Option Buffer :=
  let sent := slipBuild (vj build) w.1 p
  let read := uncompress (vj build) w.2 sent.2
  ((sent.1, read.1), read.2)

def SlipPair (w : SlipOpt Slcompress × SlipOpt Slcompress) : Prop :=
  Paired w.1.comp w.2.comp w.1.compress w.2.compress w.2.autocomp

theorem type_ip (b : Buffer) (version : get8 b 0 &&& 0xf0 = 0x40) : slcType b = TYPE_IP := by
  unfold slcType
  dsimp only
  rw [version]
  rfl

theorem type_uncompressed (b : Buffer) (first : Byte) (version : first &&& 0xf0 = 0x40)
    (head : get8 b 0 = first ||| TYPE_UNCOMPRESSED_TCP) :
    slcType b = TYPE_UNCOMPRESSED_TCP ∧ (first ||| TYPE_UNCOMPRESSED_TCP) &&& 0x4f = first := by
  have bits : ∀ y : Byte, y &&& 0xf0 = 0x40 → (y ||| TYPE_UNCOMPRESSED_TCP) &&& 0xf0 = TYPE_UNCOMPRESSED_TCP
      ∧ (y ||| TYPE_UNCOMPRESSED_TCP) &&& 0x4f = y := by decide
  unfold slcType
  dsimp only
  rw [head, (bits first version).1]
  exact ⟨rfl, (bits first version).2⟩

theorem type_compressed (b : Buffer) (first : Byte) (low : first &&& 0x7f = first)
    (head : get8 b 0 = first ||| TYPE_COMPRESSED_TCP) :
    slcType b = TYPE_COMPRESSED_TCP ∧ (first ||| TYPE_COMPRESSED_TCP) &&& 0x7f = first := by
  have bits : ∀ y : Byte, y &&& 0x7f = y → (y ||| TYPE_COMPRESSED_TCP) &&& 0xf0 ≠ TYPE_IP
      ∧ (y ||| TYPE_COMPRESSED_TCP) &&& 0xf0 &&& 0x80 ≠ 0 ∧ (y ||| TYPE_COMPRESSED_TCP) &&& 0x7f = y := by decide
  obtain ⟨other, top, back⟩ := bits first low
  unfold slcType
  dsimp only
  rw [head, if_neg other, if_pos top]
  exact ⟨rfl, back⟩

omit build in
theorem heard_uncompressed (v : Vj Slcompress) (t : SlipOpt Slcompress) (b out : Buffer) (r : Slcompress)
    (type : slcType b = TYPE_UNCOMPRESSED_TCP) (able : t.compress = true ∨ t.autocomp = true)
    (run : v.uncompress t.comp TYPE_UNCOMPRESSED_TCP b = (r, some out)) :
    ∃ t', uncompress v t b = (t', some out) ∧ t'.comp = r ∧ t'.compress = true ∧ t'.autocomp = t.autocomp := by
  unfold uncompress Slip.slcUncompress
  rw [type, if_neg (by decide), if_neg (by decide), if_pos rfl, run]
  cases on : t.compress with
  | true => exact ⟨_, if_pos rfl, rfl, on, rfl⟩
  | false =>
      rw [if_neg Bool.false_ne_true, if_pos (able.resolve_left (by rw [on]; exact Bool.false_ne_true))]
      exact ⟨_, rfl, rfl, rfl, rfl⟩

omit build in
theorem heard_compressed (v : Vj Slcompress) (t : SlipOpt Slcompress) (b out : Buffer) (r : Slcompress)
    (type : slcType b = TYPE_COMPRESSED_TCP) (able : t.compress = true)
    (run : v.uncompress t.comp TYPE_COMPRESSED_TCP b = (r, some out)) :
    uncompress v t b = (Slip.setComp t r, some out) := by
  unfold uncompress Slip.slcUncompress
  rw [type, if_neg (by decide), if_pos rfl, run, if_pos able]

theorem slip_step (w : SlipOpt Slcompress × SlipOpt Slcompress) (p : Buffer) (pair : SlipPair w) (tidy : Tidy build p) :
    (slipWide w.1 p = false → (slipRelay build w p).2 = some p ∧ SlipPair (slipRelay build w p).1)
      ∧ (slipWide w.1 p = true → (slipRelay build w p).2 ≠ some p) := by
  obtain ⟨s, r⟩ := w
  have plain : uncompress (vj build) r p = (r, some p) := if_pos (type_ip p tidy.version)
  have passed : slipBuild (vj build) s p = (s, p) → slipWide s p = false →
      (slipWide s p = false → (slipRelay build (s, r) p).2 = some p ∧ SlipPair (slipRelay build (s, r) p).1)
        ∧ (slipWide s p = true → (slipRelay build (s, r) p).2 ≠ some p) := fun same narrow => by
    unfold slipRelay
    dsimp only
    rw [same, plain]
    exact ⟨fun _ => ⟨rfl, pair⟩, fun wrong => absurd (narrow.symm.trans wrong) (by decide)⟩
  by_cases tcp : s.compress = true ∧ get8 p 9 = IPPROTO_TCP
  · cases able : compressible p with
    | false =>
        refine passed ?_ (by rw [slipWide, able, Bool.and_false, Bool.false_and])
        have first : get8 p 0 ||| TYPE_IP = get8 p 0 := by
          have bits : ∀ y : Byte, y &&& 0xf0 = 0x40 → y ||| TYPE_IP = y := by decide
          exact bits _ tidy.version
        have back : put8 p 0 (get8 p 0) = p := by
          cases p <;> rfl
        have whole : slcCompress s.comp s.compcid p = some (s.comp, TYPE_IP, p) := by
          unfold slcCompress
          rw [able, if_neg Bool.false_ne_true]
        unfold slipBuild
        rw [if_pos tcp, vj_compress build _ _ _ _ _ _ whole]
        dsimp only
        rw [or_first, first, back]
        rfl
    | true =>
        obtain ⟨s', type, b, result, passes⟩ := slc_passes build s.comp r.comp s.compcid p pair.synced (tidy.formed able tcp.2) able
        have width : slipWide s p = tooWide s.comp p := by
          rw [slipWide, tcp.1, tcp.2, able]
          rfl
        have sent : slipBuild (vj build) s p = (Slip.setComp s s', put8 b 0 (get8 b 0 ||| type)) := by
          unfold slipBuild
          rw [if_pos tcp, vj_compress build _ _ _ _ _ _ result]
          dsimp only
          rw [or_first]
        have head : get8 (put8 b 0 (get8 b 0 ||| type)) 0 = get8 b 0 ||| type :=
          get8_put8_here _ _ _ (List.length_pos_iff.mpr passes.full)
        rw [width]
        unfold slipRelay
        dsimp only
        rw [sent]
        rcases passes.kind with ⟨rfl, first⟩ | ⟨rfl, low, used⟩
        · obtain ⟨type, back⟩ := type_uncompressed _ _ (by rw [first]; exact tidy.version) head
          obtain ⟨r', out, run, narrow, far⟩ := passes.back _ ⟨fun _ => back, fun wrong => absurd wrong (by decide)⟩
          obtain ⟨r1, read, comp, on, auto⟩ := heard_uncompressed (vj build) r _ out r' type
            ((pair.able tcp.1).imp id And.left) run
          rw [read]
          refine ⟨fun fits => ?_, fun wrong same => far wrong (Option.some.inj same)⟩
          obtain ⟨same, synced⟩ := narrow fits
          exact ⟨congrArg some same, ⟨comp ▸ synced, fun _ => Or.inl on⟩⟩
        · obtain ⟨type, back⟩ := type_compressed _ _ low head
          obtain ⟨r', out, run, narrow, far⟩ := passes.back _ ⟨fun wrong => absurd wrong (by decide), fun _ => back⟩
          have on := (pair.able tcp.1).resolve_right fun waits => waits.2 used
          rw [heard_compressed (vj build) r _ out r' type on run]
          refine ⟨fun fits => ?_, fun wrong same => far wrong (Option.some.inj same)⟩
          obtain ⟨same, synced⟩ := narrow fits
          exact ⟨congrArg some same, ⟨synced, fun _ => Or.inl on⟩⟩
  · refine passed (if_neg tcp) ?_
    rw [slipWide]
    by_cases on : s.compress = true
    · rw [decide_eq_false fun own => tcp ⟨on, own⟩, Bool.and_false, Bool.false_and, Bool.false_and]
    · rw [Bool.eq_false_of_not_eq_true on, Bool.false_and, Bool.false_and, Bool.false_and]

def slipOpt : SlipOpt Slcompress := ⟨296, true, true, true, slcInit⟩

end Slip

section Ppp

open MagxNet.Sld.Ppp (PppOpt Packet PPPPROTO_IP PPPPROTO_COMP_TCP PPPPROTO_UNCOMP_TCP pppBuildFrame pppRecvFrame withFcs framed)

theorem strip_tcp (t : PppOpt Slcompress) (proto : BitVec 16) (info tail : Buffer) (full : info ≠ [])
    (own : proto = PPPPROTO_IP ∨ proto = PPPPROTO_COMP_TCP ∨ proto = PPPPROTO_UNCOMP_TCP) :
    Ppp.stripProto (Ppp.stripAddr (framed t ⟨proto, info⟩ ++ tail)) = ⟨proto, info ++ tail⟩ := by
  have high : proto.extractLsb' 8 8 = 0 := by obtain rfl | rfl | rfl := own <;> decide
  have odd : (proto.extractLsb' 0 8).getLsbD 0 = true := by obtain rfl | rfl | rfl := own <;> decide
  have other : proto.extractLsb' 0 8 ≠ Ppp.ADDR := by obtain rfl | rfl | rfl := own <;> decide
  have cases' := Ppp.body_cases t ⟨proto, info⟩
  have unlike : Ppp.Unlike t ⟨proto, info⟩ := fun _ same => by
    rcases cases' with both | ⟨-, one⟩
    · rw [both] at same
      exact absurd (high.symm.trans same) (by decide)
    · rw [one] at same
      exact absurd same other
  rw [Ppp.strip_addr_framed t ⟨proto, info⟩ tail full unlike]
  rcases cases' with both | ⟨zero, one⟩
  · have whole := bytes_join proto
    rw [both]
    unfold Ppp.stripProto
    have first : get8 (proto.extractLsb' 8 8 :: proto.extractLsb' 0 8 :: info ++ tail) 0 = proto.extractLsb' 8 8 := rfl
    have second : get8 (proto.extractLsb' 8 8 :: proto.extractLsb' 0 8 :: info ++ tail) 1 = proto.extractLsb' 0 8 := rfl
    rw [first, second, whole, high]
    rfl
  · rw [one]
    unfold Ppp.stripProto
    have first : get8 (proto.extractLsb' 0 8 :: info ++ tail) 0 = proto.extractLsb' 0 8 := rfl
    rw [first, odd, if_pos rfl, Ppp.low_proto ⟨proto, info⟩ zero]
    rfl

theorem recv_taken (v : Vj Slcompress) (t t' : PppOpt Slcompress) (bytes : Buffer) (p p' : Packet) (long : bytes ≠ [])
    (full : p.info ≠ []) (stripped : ∀ tail, Ppp.stripProto (Ppp.stripAddr (bytes ++ tail)) = ⟨p.proto, p.info ++ tail⟩)
    (taken : Ppp.uncompress v t p = (t', some p')) : pppRecvFrame v t (withFcs bytes) = (t', Ppp.handOn t' p') := by
  have length := List.length_pos_iff.mpr full
  have first := List.length_pos_iff.mpr long
  have three : ¬ (withFcs bytes).length < 3 := by
    unfold withFcs
    rw [List.length_append]
    change ¬ _ + 2 < 3
    omega
  unfold pppRecvFrame
  rw [if_neg (not_or.mpr ⟨three, not_not.mpr (Ppp.fcs_good bytes)⟩)]
  unfold withFcs
  dsimp only
  rw [stripped]
  dsimp only
  rw [List.length_append, List.length_cons, List.length_singleton, if_neg (by omega), Nat.add_sub_cancel, List.take_left, taken]

variable (build : Chksum.Build)

def pppWide (t : PppOpt Slcompress) (p : Buffer) : Bool :=
  t.compress && decide (get8 p 9 = IPPROTO_TCP) && compressible p && tooWide t.comp p

-- An IP packet through a pair of PPP drivers, the sender first.
def pppRelay (w : PppOpt Slcompress × PppOpt Slcompress) (p : Buffer) : (PppOpt Slcompress × PppOpt Slcompress) × Ppp.Received :=
  let sent := pppBuildFrame (vj build) w.1 ⟨PPPPROTO_IP, p⟩
  let read := pppRecvFrame (vj build) w.2 sent.2
  ((sent.1, read.1), read.2)

structure PppPair (w : PppOpt Slcompress × PppOpt Slcompress) : Prop where
  paired : Paired w.1.comp w.2.comp w.1.compress w.2.compress w.2.autocomp
  up : w.2.up = true
  wanted : w.2.ipDown = false

theorem hand_ip (t : PppOpt Slcompress) (p : Buffer) (up : t.up = true) (wanted : t.ipDown = false) :
    Ppp.handOn t ⟨PPPPROTO_IP, p⟩ = .ip p := by
  unfold Ppp.handOn
  rw [up, wanted]
  rfl

theorem ppp_step (w : PppOpt Slcompress × PppOpt Slcompress) (p : Buffer) (pair : PppPair w) (tidy : Tidy build p) :
    (pppWide w.1 p = false → (pppRelay build w p).2 = .ip p ∧ PppPair (pppRelay build w p).1)
      ∧ (pppWide w.1 p = true → (pppRelay build w p).2 ≠ .ip p) := by
  obtain ⟨s, r⟩ := w
  obtain ⟨paired, up, wanted⟩ := pair
  dsimp only at paired up wanted
  have some' : p ≠ [] := by
    rintro rfl
    exact absurd tidy.version (by decide)
  have ip : Ppp.charsProto ⟨PPPPROTO_IP, p⟩ = PPPPROTO_IP :=
    Ppp.chars_proto_low _ (show ¬ PPPPROTO_IP.getLsbD 7 = true by decide)
  have plain : Ppp.compressed (vj build) s ⟨PPPPROTO_IP, p⟩ = (s, ⟨PPPPROTO_IP, p⟩) → pppWide s p = false →
      (pppWide s p = false → (pppRelay build (s, r) p).2 = .ip p ∧ PppPair (pppRelay build (s, r) p).1)
        ∧ (pppWide s p = true → (pppRelay build (s, r) p).2 ≠ .ip p) := fun same narrow => by
    have taken : Ppp.uncompress (vj build) r ⟨PPPPROTO_IP, p⟩ = (r, some ⟨PPPPROTO_IP, p⟩) := rfl
    have read := recv_taken (vj build) r r (framed s ⟨PPPPROTO_IP, p⟩) ⟨PPPPROTO_IP, p⟩ _ (Ppp.framed_some s _) some'
      (fun tail => strip_tcp s _ p tail some' (Or.inl rfl)) taken
    unfold pppRelay pppBuildFrame
    dsimp only
    rw [same]
    dsimp only
    rw [read, hand_ip r p up wanted]
    exact ⟨fun _ => ⟨rfl, paired, up, wanted⟩, fun wrong => absurd (narrow.symm.trans wrong) (by decide)⟩
  by_cases tcp : s.compress = true ∧ get8 p 9 = IPPROTO_TCP
  · have asked : s.compress = true ∧ Ppp.charsProto ⟨PPPPROTO_IP, p⟩ = PPPPROTO_IP ∧ get8 p 9 = IPPROTO_TCP := ⟨tcp.1, ip, tcp.2⟩
    cases able : compressible p with
    | false =>
        refine plain ?_ (by rw [pppWide, able, Bool.and_false, Bool.false_and])
        have whole : slcCompress s.comp false p = some (s.comp, TYPE_IP, p) := by
          unfold slcCompress
          rw [able, if_neg Bool.false_ne_true]
        unfold Ppp.compressed
        rw [if_pos asked, vj_compress build _ _ _ _ _ _ whole]
        dsimp only
        rw [ip]
        rfl
    | true =>
        obtain ⟨s', type, b, result, passes⟩ := slc_passes build s.comp r.comp false p paired.synced (tidy.formed able tcp.2) able
        have width : pppWide s p = tooWide s.comp p := by
          rw [pppWide, tcp.1, tcp.2, able]
          rfl
        have same : put8 b 0 (get8 b 0) = b := by
          cases b <;> rfl
        have sent : ∀ proto, (if type = TYPE_COMPRESSED_TCP then PPPPROTO_COMP_TCP
              else if type = TYPE_UNCOMPRESSED_TCP then PPPPROTO_UNCOMP_TCP else PPPPROTO_IP) = proto →
            pppBuildFrame (vj build) s ⟨PPPPROTO_IP, p⟩
              = (Ppp.setComp s s', withFcs (framed (Ppp.setComp s s') ⟨proto, b⟩)) := fun proto number => by
          unfold pppBuildFrame Ppp.compressed
          rw [if_pos asked, vj_compress build _ _ _ _ _ _ result]
          dsimp only
          rw [ip, number]
        rw [width]
        rcases passes.kind with ⟨rfl, first⟩ | ⟨rfl, low, used⟩
        · have kept : get8 b 0 &&& 0x4f = get8 b 0 := by
            have bits : ∀ y : Byte, y &&& 0xf0 = 0x40 → y &&& 0x4f = y := by decide
            rw [first]
            exact bits _ tidy.version
          obtain ⟨r', out, run, narrow, far⟩ := passes.back _ ⟨fun _ => kept, fun wrong => absurd wrong (by decide)⟩
          rw [same] at run
          obtain ⟨r1, taken, comp, on, auto, up', wanted'⟩ : ∃ r1, Ppp.uncompress (vj build) r ⟨PPPPROTO_UNCOMP_TCP, b⟩
              = (r1, some ⟨PPPPROTO_IP, out⟩) ∧ r1.comp = r' ∧ r1.compress = true ∧ r1.autocomp = r.autocomp ∧ r1.up = r.up
              ∧ r1.ipDown = r.ipDown := by
            have unpacked : (vj build).uncompress r.comp TYPE_UNCOMPRESSED_TCP b = (r', some out) := run
            unfold Ppp.uncompress Ppp.slcUncompress
            dsimp only
            rw [if_neg (by decide), if_pos rfl, unpacked]
            cases on : r.compress with
            | true => exact ⟨_, if_pos rfl, rfl, on, rfl, rfl, rfl⟩
            | false =>
                have auto := ((paired.able tcp.1).resolve_left (by rw [on]; exact Bool.false_ne_true)).1
                rw [if_neg Bool.false_ne_true, if_pos auto]
                exact ⟨_, rfl, rfl, rfl, rfl, rfl, rfl⟩
          have read := recv_taken (vj build) r r1 (framed (Ppp.setComp s s') ⟨PPPPROTO_UNCOMP_TCP, b⟩) ⟨PPPPROTO_UNCOMP_TCP, b⟩ _
            (Ppp.framed_some _ _) passes.full (fun tail => strip_tcp _ _ b tail passes.full (Or.inr (Or.inr rfl))) taken
          rw [hand_ip r1 out (up'.trans up) (wanted'.trans wanted)] at read
          unfold pppRelay
          dsimp only
          rw [sent PPPPROTO_UNCOMP_TCP rfl]
          dsimp only
          rw [read]
          refine ⟨fun fits => ?_, fun wrong back => far wrong (Ppp.Received.ip.inj back)⟩
          obtain ⟨equal, synced⟩ := narrow fits
          exact ⟨congrArg Ppp.Received.ip equal, ⟨comp ▸ synced, fun _ => Or.inl on⟩, up'.trans up, wanted'.trans wanted⟩
        · obtain ⟨r', out, run, narrow, far⟩ := passes.back _ ⟨fun wrong => absurd wrong (by decide), fun _ => low⟩
          rw [same] at run
          have on := (paired.able tcp.1).resolve_right fun waits => waits.2 used
          have taken : Ppp.uncompress (vj build) r ⟨PPPPROTO_COMP_TCP, b⟩ = (Ppp.setComp r r', some ⟨PPPPROTO_IP, out⟩) := by
            have unpacked : (vj build).uncompress r.comp TYPE_COMPRESSED_TCP b = (r', some out) := run
            unfold Ppp.uncompress Ppp.slcUncompress
            dsimp only
            rw [if_pos rfl, unpacked, if_pos on]
            rfl
          have read := recv_taken (vj build) r _ (framed (Ppp.setComp s s') ⟨PPPPROTO_COMP_TCP, b⟩) ⟨PPPPROTO_COMP_TCP, b⟩ _
            (Ppp.framed_some _ _) passes.full (fun tail => strip_tcp _ _ b tail passes.full (Or.inr (Or.inl rfl))) taken
          rw [hand_ip (Ppp.setComp r r') out up wanted] at read
          unfold pppRelay
          dsimp only
          rw [sent PPPPROTO_COMP_TCP rfl]
          dsimp only
          rw [read]
          refine ⟨fun fits => ?_, fun wrong back => far wrong (Ppp.Received.ip.inj back)⟩
          obtain ⟨equal, synced⟩ := narrow fits
          exact ⟨congrArg Ppp.Received.ip equal, ⟨synced, fun _ => Or.inl on⟩, up, wanted⟩
  · have whole : Ppp.compressed (vj build) s ⟨PPPPROTO_IP, p⟩ = (s, ⟨PPPPROTO_IP, p⟩) := by
      unfold Ppp.compressed
      rw [if_neg fun asked => tcp ⟨asked.1, asked.2.2⟩, ip]
    refine plain whole ?_
    rw [pppWide]
    by_cases on : s.compress = true
    · rw [decide_eq_false fun own => tcp ⟨on, own⟩, Bool.and_false, Bool.false_and, Bool.false_and]
    · rw [Bool.eq_false_of_not_eq_true on, Bool.false_and, Bool.false_and, Bool.false_and]

def pppOpt : PppOpt Slcompress := ⟨true, true, false, true, false, Ppp.linkXmap, List.replicate 8 0, 1500, true, slcInit⟩

end Ppp

end MagxNet.Sld.Slc
