import MagxNet.Buf.Refusal
import MagxNet.Icmp.Send

set_option autoImplicit false

namespace MagxNet.Icmp

open Bytes
open Buf (Good Heap HeapInv Held KmallocOk Member Placed Ptr SIZEOF_BUF bufDeref deref_fields deref_kept deref_links_apart
  inv_frame lead reserveRefuses sanityCheck)
open Ip (ipHdrlen iphDaddr iphFragoff iphProto IP_FRAGOFF)
open Route (IcmpType InAddr Netifs icmpDontsend ipIsBrdcstAddr IPPROTO_ICMP)

def isErrorType : IcmpType → Bool
  | .dstur | .timex | .redir => true
  | _ => false

-- A fragment behind the first one, an ICMP datagram, or one that was for everybody.
def suppressed (ifs : Netifs) (iph : Buffer) : Bool :=
  decide (iphFragoff iph &&& IP_FRAGOFF ≠ 0) || decide (iphProto iph = IPPROTO_ICMP) || ipIsBrdcstAddr ifs (iphDaddr iph)

theorem dontsend_error (ifs : Netifs) (type : IcmpType) (iph : Buffer) (error : isErrorType type = true) :
    icmpDontsend ifs type iph = suppressed ifs iph := by
  unfold icmpDontsend suppressed
  split
  · rename_i offset
    rw [decide_eq_true offset, Bool.true_or, Bool.true_or]
  · rename_i first
    rw [decide_eq_false first, Bool.false_or]
    split
    · rename_i icmp
      rw [decide_eq_true icmp, Bool.true_or]
      cases type <;> first | rfl | cases error
    · rename_i other
      rw [decide_eq_false other, Bool.false_or]

def Net.hdrlen (net : Net) (buf : Nat) : Nat := ipHdrlen (net.iph buf)

def Net.payload (net : Net) (buf : Nat) : Nat := (net.data buf).length - net.hdrlen buf

def quotedPart (net : Net) (buf : Nat) : Buffer := (net.data buf).take (net.hdrlen buf + min 8 (net.payload buf))

-- The long behind the checksum: the gateway in a redirect, and else zero.
def restOfHeader (net : Net) (type : IcmpType) (buf2 : Option Nat) : Buffer :=
  match type, buf2 with
  | .redir, some gwbuf => peek net.mem (net.dstart gwbuf) 4
  | _, _ => [0, 0, 0, 0]

structure Proper (type : IcmpType) (code : BitVec 16) (rest quote message : Buffer) : Prop where
  header : 8 ≤ message.length
  type : get8 message 0 = icmptByte type
  code : get8 message 1 = code.truncate 8
  rest : (message.drop 4).take 4 = rest
  quote : message.drop 8 = quote
  sum : ∀ checker, Chksum.chksum checker message (sumWords (BitVec.ofNat 16 message.length)) = 0

theorem sum_words_half (n : Nat) (small : n < 32767) : (sumWords (BitVec.ofNat 16 n)).toNat = (n + 1) / 2 := by
  have plain := BitVec.toInt_eq_toNat_cond (BitVec.ofNat 16 n)
  rw [BitVec.toNat_ofNat, Nat.mod_eq_of_lt (by omega), if_pos (by omega)] at plain
  rw [sumWords, plain, BitVec.toNat_ofInt, Int.shiftRight_eq_div_pow]
  omega

-- What is in the buffer when its header has been filled in.
theorem filled_data (build : Chksum.Build) (type : IcmpType) (code : BitVec 16) (nbuf n : Nat) (net : Net)
    (length : net.dend nbuf = net.dstart nbuf + (8 + n)) (even : n % 2 = 0) (small : n < 32000) :
    (fillHeader build type code nbuf net).data nbuf
      = let body := icmptByte type :: code.truncate 8 :: 0 :: 0 :: peek net.mem (net.dstart nbuf + 4) (4 + n)
        put16 body 2 (Chksum.chksum build body (sumWords (BitVec.ofNat 16 (8 + n)))) := by
  have whole : net.dend nbuf - net.dstart nbuf = 4 + (4 + n) := by omega
  have halves : 2 * (sumWords (BitVec.ofNat 16 (4 + (4 + n)))).toNat = 4 + (4 + n) := by
    rw [sum_words_half _ (by omega)]
    omega
  have plain : (BitVec.ofNat 16 (4 + (4 + n))).getLsbD 0 = false := by
    rw [BitVec.getLsbD_ofNat, Nat.testBit_zero]
    have : (4 + (4 + n)) % 2 ≠ 1 := by omega
    simp [this]
  have body : peek (poke net.mem (net.dstart nbuf) [icmptByte type, code.truncate 8, 0, 0]) (net.dstart nbuf) (4 + (4 + n))
      = icmptByte type :: code.truncate 8 :: 0 :: 0 :: peek net.mem (net.dstart nbuf + 4) (4 + n) := by
    have put := peek_poke_inside net.mem (net.dstart nbuf) 0 (4 + (4 + n)) [icmptByte type, code.truncate 8, 0, 0]
      (Nat.le_add_right 4 _)
    rw [Nat.add_zero] at put
    rw [put]
    show _ ++ List.drop 4 _ = _
    rw [peek_drop]
    rfl
  have same : 8 + n = 4 + (4 + n) := by omega
  show peek _ (net.dstart nbuf) (net.dend nbuf - net.dstart nbuf) = _
  rw [same]
  unfold fillHeader
  dsimp only
  rw [whole, plain, halves]
  simp only [Bool.false_eq_true, if_false]
  rw [peek_poke_inside _ _ 2 _ _ (by simp), body]
  rfl

theorem filled_proper (build : Chksum.Build) (type : IcmpType) (code : BitVec 16) (nbuf n : Nat) (net : Net)
    (length : net.dend nbuf = net.dstart nbuf + (8 + n)) (even : n % 2 = 0) (small : n < 32000) :
    Proper type code (peek net.mem (net.dstart nbuf + 4) 4) (peek net.mem (net.dstart nbuf + 8) n)
      ((fillHeader build type code nbuf net).data nbuf) := by
  rw [filled_data build type code nbuf n net length even small]
  dsimp only
  generalize made : icmptByte type :: code.truncate 8 :: 0 :: 0 :: peek net.mem (net.dstart nbuf + 4) (4 + n) = body
  have size : body.length = 8 + n := by
    rw [← made]
    simp only [List.length_cons, peek_length]
    omega
  have half := sum_words_half (8 + n) (by omega)
  generalize words : sumWords (BitVec.ofNat 16 (8 + n)) = nwords at half ⊢
  refine ⟨by rw [put16_length]; omega, ?_, ?_, ?_, ?_, fun checker => ?_⟩
  · rw [get8_put16_elsewhere _ _ _ _ (by decide) (by decide), ← made]
    rfl
  · rw [get8_put16_elsewhere _ _ _ _ (by decide) (by decide), ← made]
    rfl
  · rw [put16_drop _ _ _ _ (by decide), ← made]
    exact peek_take net.mem (net.dstart nbuf + 4) 4 (4 + n) (Nat.le_add_right 4 n)
  · rw [put16_drop _ _ _ _ (by decide), ← made]
    exact peek_drop net.mem (net.dstart nbuf + 4) 4 n
  · rw [put16_length, size, words]
    have zero : get16 body (2 * 1) = 0 := by
      rw [← made]
      show (0 ++ 0 : BitVec (8 + 8)) = 0
      decide
    exact Chksum.chksum_filled build checker body nwords 1 (by omega) (by omega) zero

-- The references to a buffer that are left, less those that ip_send was given.
def Consumed (net net' : Net) (emitted : List Sent) (buf : Nat) : Prop :=
  net'.heap.links (.mem buf) - (emitted.countP fun s => s.buf = buf : Nat) = net.heap.links (.mem buf) - 1

-- The part of the heap's state that does not depend on where the data of the buffers lies.
def Counted (h : Heap) (live : List Nat) : Prop :=
  ∃ bufs free, HeapInv h bufs free [] ∧ ∀ c ∈ live, Member h bufs c ∧ 0 < h.links (.mem c)

theorem good_counted (h : Heap) (live : List Nat) (good : Good ⟨h, live⟩) : Counted h live := by
  obtain ⟨bufs, free, inv, _, held⟩ := good
  exact ⟨bufs, free, inv, fun c inside => ⟨held.member c inside, held.counted c inside⟩⟩

theorem counted_frame (h h' : Heap) (live : List Nat) (counted : Counted h live) (start stop : Ptr → Nat)
    (same : h' = { h with dstart := start, dend := stop }) : Counted h' live := by
  obtain ⟨bufs, free, inv, each⟩ := counted
  subst same
  exact ⟨bufs, free, inv_frame h _ bufs free [] inv rfl rfl rfl rfl rfl rfl rfl rfl, each⟩

theorem deref_counted (h : Heap) (live : List Nat) (a : Nat) (counted : Counted h live) (inside : a ∈ live) :
    (bufDeref h (.mem a)).links (.mem a) = h.links (.mem a) - 1 ∧
      Counted (bufDeref h (.mem a)) (live.filter fun c => c ≠ a ∨ 1 < h.links (.mem a)) ∧
      ∀ c, c ≠ a → h.links (.mem c) = 0 ∨ c ∈ live → (bufDeref h (.mem a)).links (.mem c) = h.links (.mem c) := by
  obtain ⟨bufs, free, inv, each⟩ := counted
  obtain ⟨member, positive⟩ := each a inside
  have own := (deref_fields h (.mem a) positive).2
  refine ⟨own, ?_, fun c other rest => ?_⟩
  · obtain ⟨bufs', free', inv', kept, again⟩ := deref_kept h bufs free a inv member positive
    refine ⟨bufs', free', inv', fun c still => ?_⟩
    obtain ⟨out, left⟩ := List.mem_filter.mp still
    by_cases same : c = a
    · subst same
      have more := (of_decide_eq_true left).resolve_left fun no => no rfl
      exact ⟨again more, by omega⟩
    · obtain ⟨memberC, positiveC⟩ := each c out
      obtain ⟨member', links, _⟩ := kept c same memberC positiveC.ne'
      exact ⟨member', links ▸ positiveC⟩
  · exact deref_links_apart h bufs free a c inv member positive other (rest.imp id fun out => (each c out).1)

-- A buffer that is passed as optional data.
theorem deref_optional (net : Net) (live : List Nat) (a : Nat) (buf2 : Option Nat) (counted : Counted net.heap live)
    (second : ∀ c ∈ buf2, c ∈ live ∧ c ≠ a) (rest : net.heap.links (.mem a) = 0 ∨ a ∈ live) :
    (derefOptional net buf2).heap.links (.mem a) = net.heap.links (.mem a) ∧
      ∀ c ∈ buf2, (derefOptional net buf2).heap.links (.mem c) = net.heap.links (.mem c) - 1 := by
  cases buf2 with
  | none => exact ⟨rfl, fun c none => by cases none⟩
  | some c =>
      obtain ⟨inside, other⟩ := second c rfl
      obtain ⟨own, _, others⟩ := deref_counted net.heap live c counted inside
      refine ⟨others a other.symm rest, fun d same => ?_⟩
      cases same
      exact own

theorem give_back (net : Net) (live : List Nat) (a : Nat) (buf2 : Option Nat) (counted : Counted net.heap live) (inside : a ∈ live)
    (second : ∀ c ∈ buf2, c ∈ live ∧ c ≠ a) :
    (derefOptional (net.deref a) buf2).heap.links (.mem a) = net.heap.links (.mem a) - 1 ∧
      ∀ c ∈ buf2, (derefOptional (net.deref a) buf2).heap.links (.mem c) = net.heap.links (.mem c) - 1 := by
  obtain ⟨own, after, others⟩ := deref_counted net.heap live a counted inside
  obtain ⟨_, _, _, each⟩ := counted
  have positive := (each a inside).2
  have left : (net.deref a).heap.links (.mem a) = 0 ∨ a ∈ live.filter fun c => c ≠ a ∨ 1 < net.heap.links (.mem a) := by
    by_cases more : 1 < net.heap.links (.mem a)
    · exact Or.inr (List.mem_filter.mpr ⟨inside, decide_eq_true (Or.inr more)⟩)
    · exact Or.inl (own.trans (by omega))
  obtain ⟨first, last⟩ := deref_optional (net.deref a) _ a buf2 after
    (fun c same => ⟨List.mem_filter.mpr ⟨(second c same).1, decide_eq_true (Or.inl (second c same).2)⟩, (second c same).2⟩) left
  refine ⟨first.trans own, fun c same => ?_⟩
  rw [last c same, Net.deref, others c (second c same).2 (Or.inr (second c same).1)]

end MagxNet.Icmp
