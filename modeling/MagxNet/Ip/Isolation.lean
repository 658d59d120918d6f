import MagxNet.Ip.DefragSpec
import MagxNet.Ip.Fragmentation

set_option autoImplicit false

namespace MagxNet.Ip

open Bytes

-- What one call of ip_defrag can do.
inductive Defragged (frags : FragTable) (buf : IpBuf) : Option IpBuf → FragTable → Prop where
  | whole (flags : iphFragoff buf.bytes &&& (IP_MF ||| IP_FRAGOFF) = 0) : Defragged frags buf (some buf) frags
  | added (i : Fin IPFRAG_HEADS) (frag frag' : Fragment) (out : Option IpBuf)
      (flags : iphFragoff buf.bytes &&& (IP_MF ||| IP_FRAGOFF) ≠ 0) (found : Matches buf.bytes (frags i))
      (inserted : Inserted (frags i) frag buf) (pulled : PulledUp frag frag' out) :
      Defragged frags buf out (Function.update frags i frag')
  | started (i : Fin IPFRAG_HEADS) (frag : Fragment) (empty : (frags i).buf = [])
      (inserted : Inserted ⟨[], iphId buf.bytes, iphSaddr buf.bytes, 0, 0, true⟩ frag buf) :
      Defragged frags buf none (Function.update frags i frag)
  | dropped : Defragged frags buf none frags

theorem ip_defrag_cases (oracle : Oracle) (frags frags' : FragTable) (net net' : IpNet) (buf : IpBuf)
    (out : Option IpBuf) (run : ipDefrag oracle frags net buf = .ret (out, frags', net')) :
    Defragged frags buf out frags' := by
  unfold ipDefrag at run
  by_cases flags : iphFragoff buf.bytes &&& (IP_MF ||| IP_FRAGOFF) = 0
  · rw [if_pos flags] at run
    cases run
    exact .whole flags
  · rw [if_neg flags] at run
    cases slot : slotOf frags buf.bytes with
    | found i =>
        rw [slot] at run
        dsimp only at run
        have found := slot_of_found frags buf.bytes i slot
        have inserted := frag_insert_spec net (frags i) buf
        generalize fragInsert net (frags i) buf = result at run inserted
        obtain ⟨frag, after⟩ := result
        obtain ⟨⟨out', frag', after'⟩, pull, built⟩ := (Outcome.bind_eq_ret _ _ _).mp run
        cases built
        exact .added i frag frag' out' flags found.2 inserted (frag_pullup_spec oracle after after' frag frag' out' pull)
    | free i =>
        rw [slot] at run
        have inserted := frag_insert_spec net ⟨[], iphId buf.bytes, iphSaddr buf.bytes, 0, 0, true⟩ buf
        cases run
        exact .started i _ (slot_of_free frags buf.bytes i slot).1 inserted
    | full =>
        rw [slot] at run
        cases run
        exact .dropped

-- Every fragment kept in the slot has property P and the slot's key.
def Keeps (P : Buffer → Prop) (frag : Fragment) : Prop := ∀ b ∈ frag.buf, P b.bytes ∧ Matches b.bytes frag

theorem keeps_inserted (P : Buffer → Prop) (frag frag' : Fragment) (buf : IpBuf) (keeps : Keeps P frag)
    (valid : P buf.bytes) (same : Matches buf.bytes frag) (inserted : Inserted frag frag' buf) : Keeps P frag' := by
  intro b member
  have key : ∀ iph, Matches iph frag → Matches iph frag' := fun iph matched =>
    ⟨matched.1.trans inserted.id.symm, matched.2.trans inserted.saddr.symm⟩
  rcases inserted.chain b member with rfl | old
  · exact ⟨valid, key _ same⟩
  · exact ⟨(keeps b old).1, key _ (keeps b old).2⟩

theorem keeps_pulled (P : Buffer → Prop) (frag frag' : Fragment) (out : Option IpBuf) (keeps : Keeps P frag)
    (pulled : PulledUp frag frag' out) : Keeps P frag' := by
  rcases pulled.slot with ⟨same, _⟩ | ⟨empty, _⟩
  · rw [same]
    exact keeps
  · intro b member
    rw [empty] at member
    exact absurd member List.not_mem_nil

theorem keeps_update (P : Buffer → Prop) (frags : FragTable) (i : Fin IPFRAG_HEADS) (frag : Fragment)
    (keeps : ∀ j, Keeps P (frags j)) (fresh : Keeps P frag) : ∀ j, Keeps P (Function.update frags i frag j) := by
  intro j
  by_cases here : j = i
  · rw [here, Function.update_self]
    exact fresh
  · rw [Function.update_of_ne here]
    exact keeps j

theorem defragged_keeps (P : Buffer → Prop) (frags frags' : FragTable) (buf : IpBuf) (out : Option IpBuf)
    (keeps : ∀ i, Keeps P (frags i)) (valid : P buf.bytes) (step : Defragged frags buf out frags') :
    ∀ i, Keeps P (frags' i) := by
  cases step with
  | whole flags => exact keeps
  | added i frag frag' out flags found inserted pulled =>
      refine keeps_update P frags i frag' keeps (keeps_pulled P frag frag' out ?_ pulled)
      exact keeps_inserted P (frags i) frag buf (keeps i) valid found inserted
  | started i frag empty inserted =>
      refine keeps_update P frags i frag keeps (keeps_inserted P _ frag buf ?_ valid ⟨rfl, rfl⟩ inserted)
      exact fun b member => absurd member List.not_mem_nil
  | dropped => exact keeps

theorem keeps_timeout (P : Buffer → Prop) (net : IpNet) (frag : Fragment) (link3 : List IpBuf) (keeps : Keeps P frag) :
    Keeps P (fragTimeout net frag link3).1 := by
  cases chain : frag.buf with
  | nil => simpa [fragTimeout, chain] using keeps
  | cons first rest => simp [fragTimeout, fragDelete, chain, Keeps]

-- The reassembly table while datagrams that pass ip_input's checks arrive and chains time out; seen
-- holds what has arrived. What else the kernel does meanwhile is left open.
inductive Reachable : List Buffer → FragTable → Prop where
  | init : Reachable [] allfrags
  | input (seen : List Buffer) (frags frags' : FragTable) (oracle : Oracle) (net net' : IpNet) (buf : IpBuf)
      (out : Option IpBuf) (reached : Reachable seen frags) (accepted : ipInputAccepts buf.bytes = true)
      (run : ipDefrag oracle frags net buf = .ret (out, frags', net')) : Reachable (buf.bytes :: seen) frags'
  | timeout (seen : List Buffer) (frags : FragTable) (net : IpNet) (i : Fin IPFRAG_HEADS) (link3 : List IpBuf)
      (reached : Reachable seen frags) (pending : (frags i).tmout = true) :
      Reachable seen (Function.update frags i (fragTimeout net (frags i) link3).1)

def Arrived (seen : List Buffer) (iph : Buffer) : Prop := iph ∈ seen ∧ ipInputAccepts iph = true

theorem keeps_more (P Q : Buffer → Prop) (frag : Fragment) (weaker : ∀ iph, P iph → Q iph) (keeps : Keeps P frag) :
    Keeps Q frag := fun b member => ⟨weaker _ (keeps b member).1, (keeps b member).2⟩

theorem arrived_more (seen : List Buffer) (iph next : Buffer) (arrived : Arrived seen iph) : Arrived (next :: seen) iph :=
  ⟨List.mem_cons_of_mem _ arrived.1, arrived.2⟩

theorem reachable_keeps (seen : List Buffer) (frags : FragTable) (reached : Reachable seen frags) :
    ∀ i, Keeps (Arrived seen) (frags i) := by
  induction reached with
  | init => exact fun i b member => absurd member List.not_mem_nil
  | input seen frags frags' oracle net net' buf out reached accepted run keeps =>
      refine defragged_keeps _ frags frags' buf out ?_ ⟨List.mem_cons_self .., accepted⟩
        (ip_defrag_cases oracle frags frags' net net' buf out run)
      exact fun i => keeps_more _ _ _ (fun iph => arrived_more seen iph buf.bytes) (keeps i)
  | timeout seen frags net i link3 reached pending keeps =>
      exact keeps_update _ frags i _ keeps (keeps_timeout _ net (frags i) link3 (keeps i))

-- A datagram that came whole, or one put together from arrived fragments that agree with the first.
def DeliveredFrom (agree : Buffer → Buffer → Prop) (seen : List Buffer) (out : Buffer) : Prop :=
  out ∈ seen ∨ ∃ first rest, Assembled first rest out ∧ ∀ f ∈ first :: rest, Arrived seen f ∧ agree first f

def Isolates (agree : Buffer → Buffer → Prop) : Prop :=
  ∀ (seen : List Buffer) (frags frags' : FragTable) (oracle : Oracle) (net net' : IpNet) (buf out : IpBuf),
    Reachable seen frags → ipInputAccepts buf.bytes = true →
    ipDefrag oracle frags net buf = .ret (some out, frags', net') → DeliveredFrom agree (buf.bytes :: seen) out.bytes

def SameKey (first f : Buffer) : Prop := iphSaddr f = iphSaddr first ∧ iphId f = iphId first

def SameFlow (first f : Buffer) : Prop :=
  iphSaddr f = iphSaddr first ∧ iphDaddr f = iphDaddr first ∧ iphProto f = iphProto first ∧ iphId f = iphId first

instance (first f : Buffer) : Decidable (SameFlow first f) := inferInstanceAs (Decidable (_ ∧ _))

theorem defragged_delivers (P : Buffer → Prop) (frags frags' : FragTable) (buf out : IpBuf)
    (keeps : ∀ i, Keeps P (frags i)) (valid : P buf.bytes) (step : Defragged frags buf (some out) frags') :
    (out = buf ∧ iphFragoff buf.bytes &&& (IP_MF ||| IP_FRAGOFF) = 0) ∨
      (iphFragoff buf.bytes &&& (IP_MF ||| IP_FRAGOFF) ≠ 0 ∧ ∃ first rest, Assembled first rest out.bytes ∧
        ∀ f ∈ first :: rest, P f ∧ SameKey first f) := by
  cases step with
  | whole flags => exact Or.inl ⟨rfl, flags⟩
  | added i frag frag' _ flags found inserted pulled =>
      have kept := keeps_inserted P (frags i) frag buf (keeps i) valid found inserted
      obtain ⟨first, rest, chain, built⟩ := (pulled.assembled out rfl).2
      have head := kept first (by rw [chain]; exact List.mem_cons_self ..)
      refine Or.inr ⟨flags, first.bytes, rest.map IpBuf.bytes, built, fun f member => ?_⟩
      have inChain : f ∈ frag.buf.map IpBuf.bytes := by
        rw [chain]
        exact member
      obtain ⟨b, inside, rfl⟩ := List.mem_map.mp inChain
      have here := kept b inside
      exact ⟨here.1, here.2.2.trans head.2.2.symm, here.2.1.trans head.2.1.symm⟩

theorem ip_defrag_isolates_key : Isolates SameKey := by
  intro seen frags frags' oracle net net' buf out reached accepted run
  have keeps : ∀ i, Keeps (Arrived (buf.bytes :: seen)) (frags i) := fun i =>
    keeps_more _ _ _ (fun iph => arrived_more seen iph buf.bytes) (reachable_keeps seen frags reached i)
  have step := ip_defrag_cases oracle frags frags' net net' buf (some out) run
  rcases defragged_delivers _ frags frags' buf out keeps ⟨List.mem_cons_self .., accepted⟩ step with
    ⟨rfl, _⟩ | ⟨_, first, rest, built, members⟩
  · exact Or.inl (List.mem_cons_self ..)
  · exact Or.inr ⟨first, rest, built, members⟩

-- The halves of two datagrams: same sender and identification, different receiver and protocol.
def firstHalf : IpBuf :=
  ⟨0, [0x45, 0, 0, 28, 0, 7, 0x20, 0, 64, 17, 0x46, 0xc8, 10, 0, 0, 1, 10, 0, 0, 2] ++ List.replicate 8 0x61, 0⟩

def otherHalf : IpBuf :=
  ⟨1, [0x45, 0, 0, 28, 0, 7, 0, 1, 64, 6, 0x66, 0xd1, 10, 0, 0, 1, 10, 0, 0, 3] ++ List.replicate 8 0x62, 0⟩

def halfTable : FragTable := Function.update allfrags 15 ⟨[firstHalf], 7, 0x0a000001, 0, 8, true⟩

def spliced : IpBuf :=
  ⟨0, [0x45, 0, 0, 16, 0, 7, 0, 0, 64, 17, 0x46, 0xc8, 10, 0, 0, 1, 10, 0, 0, 2] ++
    (List.replicate 8 0x61 ++ List.replicate 8 0x62), 0⟩

theorem half_run : ipDefrag .willing allfrags .init firstHalf = .ret (none, halfTable, .init) := rfl

theorem spliced_run :
    ∃ frags' net', ipDefrag .willing halfTable .init otherHalf = .ret (some spliced, frags', net') := ⟨_, _, rfl⟩

theorem half_reachable : Reachable [firstHalf.bytes] halfTable :=
  .input [] allfrags halfTable .willing .init .init firstHalf none .init (by decide) half_run

theorem ip_defrag_mixes_flows : ¬ Isolates SameFlow := by
  intro isolated
  obtain ⟨frags', net', run⟩ := spliced_run
  rcases isolated [firstHalf.bytes] halfTable frags' .willing .init net' otherHalf spliced half_reachable
    (by decide) run with whole | ⟨first, rest, built, members⟩
  · exact absurd whole (by decide)
  · have known : ∀ f ∈ first :: rest, f = otherHalf.bytes ∨ f = firstHalf.bytes := by
      intro f member
      simpa using (members f member).1.1
    rcases known first (List.mem_cons_self ..) with rfl | rfl
    · -- The receiver in the header is the other datagram's.
      exact absurd (assembled_field _ _ _ 19 built (by decide) (by decide)) (by decide)
    · have size := assembled_length _ _ _ built
      have joined := assembled_payload _ _ _ built (by decide)
      cases rest with
      | nil => exact absurd size (by decide)
      | cons second others =>
          have inside : second ∈ firstHalf.bytes :: second :: others := by simp
          rcases known second inside with rfl | rfl
          · exact absurd (members otherHalf.bytes inside).2 (by decide)
          · have later := congrArg (fun bytes => get8 bytes 8) joined
            rw [List.map_cons, List.map_cons, List.flatten_cons, List.flatten_cons,
              show body firstHalf.bytes = List.replicate 8 0x61 by decide] at later
            have clash : (0x62 : Byte) = 0x61 := later
            exact absurd clash (by decide)

-- What the consumers of a datagram rely on: the length field counts header and payload, the header
-- length is that of the datagram's first fragment, nothing marks it as a fragment, and ip_frag
-- carries all of it on over any interface that can take a fragment.
structure SelfConsistent (seen : List Buffer) (out : Buffer) : Prop where
  length : (iphLength out).toNat = out.length
  hdrlen : ∃ first ∈ seen, SameKey first out ∧ fragOffset first = 0 ∧ ipHdrlen out = ipHdrlen first
  whole : iphFragoff out &&& (IP_MF ||| IP_FRAGOFF) = 0
  forwarded : ∀ (mtu : BitVec 32) (id : Nat) (info : Int), WellFormed (options out) → IP_MINLEN ≤ ipHdrlen out →
    ipHdrlen out ≤ out.length → ipHdrlen out + 8 ≤ mtu.toNat → FragmentsWell mtu ⟨id, out, info⟩

-- A header length of zero does not pass: the sum over no words at all is not zero.
theorem accepted_hdrlen (iph : Buffer) (accepted : ipInputAccepts iph = true) : 0 < ipHdrlen iph := by
  simp only [ipInputAccepts, Bool.and_eq_true, decide_eq_true_eq] at accepted
  obtain ⟨⟨⟨_, _⟩, sum⟩, _⟩ := accepted
  by_contra none
  have zero : iphHdrlen iph = 0 := by
    unfold ipHdrlen at none
    omega
  rw [zero] at sum
  have ones : chksum iph 0 = 0xffff := by simp [chksum, sumLongs, addCarry]
  exact absurd (ones.symm.trans sum) (by decide)

theorem accepted_length (iph : Buffer) (accepted : ipInputAccepts iph = true) (fits : iph.length < 65536) :
    (iphLength iph).toNat = iph.length := by
  simp only [ipInputAccepts, Bool.and_eq_true, decide_eq_true_eq] at accepted
  obtain ⟨⟨⟨_, same⟩, _⟩, _⟩ := accepted
  rw [← BitVec.eq_of_toInt_eq same, BitVec.toNat_ofNat, Nat.mod_eq_of_lt fits]

theorem whole_offset (iph : Buffer) (whole : iphFragoff iph &&& (IP_MF ||| IP_FRAGOFF) = 0) : fragOffset iph = 0 := by
  have part : iphFragoff iph &&& IP_FRAGOFF = 0 := by
    have narrowed := congrArg (fun x => x &&& IP_FRAGOFF) whole
    simpa [BitVec.and_assoc, IP_MF, IP_FRAGOFF] using narrowed
  rw [fragOffset, part]
  rfl

-- The length field of a reassembled datagram leaves the header out.
theorem assembled_inconsistent (first out : Buffer) (rest : List Buffer) (built : Assembled first rest out)
    (header : 0 < ipHdrlen first) : (iphLength out).toNat ≠ out.length := by
  have words : 4 ≤ ipHdrlen first := by
    unfold ipHdrlen at header ⊢
    omega
  rw [assembled_length_field first out rest built words, assembled_length first out rest built, BitVec.toNat_ofNat]
  omega

theorem whole_consistent (seen : List Buffer) (buf : IpBuf) (accepted : ipInputAccepts buf.bytes = true)
    (fits : buf.bytes.length < Buf.BUF_BLOCK_SIZE) (whole : iphFragoff buf.bytes &&& (IP_MF ||| IP_FRAGOFF) = 0) :
    SelfConsistent (buf.bytes :: seen) buf.bytes := by
  have length := accepted_length buf.bytes accepted (fits.trans (by decide))
  refine ⟨length, ⟨buf.bytes, List.mem_cons_self .., ⟨rfl, rfl⟩, whole_offset _ whole, rfl⟩, whole, ?_⟩
  intro mtu id info valid lower header room
  exact fragments_well_wide mtu ⟨id, buf.bytes, info⟩ ⟨length, lower, header, valid⟩ (Or.inr (Or.inr (Or.inr room)))

-- Buffers come from the network memory, so none is larger than a block.
theorem ip_defrag_consistent_iff (seen : List Buffer) (frags frags' : FragTable) (oracle : Oracle) (net net' : IpNet)
    (buf out : IpBuf) (reached : Reachable seen frags) (accepted : ipInputAccepts buf.bytes = true)
    (fits : buf.bytes.length < Buf.BUF_BLOCK_SIZE)
    (run : ipDefrag oracle frags net buf = .ret (some out, frags', net')) :
    SelfConsistent (buf.bytes :: seen) out.bytes ↔ iphFragoff buf.bytes &&& (IP_MF ||| IP_FRAGOFF) = 0 := by
  have keeps : ∀ i, Keeps (Arrived (buf.bytes :: seen)) (frags i) := fun i =>
    keeps_more _ _ _ (fun iph => arrived_more seen iph buf.bytes) (reachable_keeps seen frags reached i)
  have step := ip_defrag_cases oracle frags frags' net net' buf (some out) run
  rcases defragged_delivers _ frags frags' buf out keeps ⟨List.mem_cons_self .., accepted⟩ step with
    ⟨rfl, whole⟩ | ⟨fragment, first, rest, built, members⟩
  · exact ⟨fun _ => whole, whole_consistent seen out accepted fits⟩
  · have header := accepted_hdrlen first (members first (List.mem_cons_self ..)).1.2
    exact ⟨fun consistent => absurd consistent.length (assembled_inconsistent first out.bytes rest built header),
      fun whole => absurd whole fragment⟩

def wholeDgram : IpBuf :=
  ⟨2, [0x45, 0, 0, 28, 0, 7, 0, 0, 64, 17, 0x66, 0xc8, 10, 0, 0, 1, 10, 0, 0, 2] ++ List.replicate 8 0x61, 0⟩

theorem ip_defrag_consistent_iff_whole : SelfConsistent [wholeDgram.bytes] wholeDgram.bytes ↔
    iphFragoff wholeDgram.bytes &&& (IP_MF ||| IP_FRAGOFF) = 0 :=
  ip_defrag_consistent_iff [] allfrags allfrags .willing .init .init wholeDgram wholeDgram .init (by decide)
    (by decide) rfl

-- The second half of the datagram that firstHalf begins.
def secondHalf : IpBuf :=
  ⟨1, [0x45, 0, 0, 28, 0, 7, 0, 1, 64, 17, 0x66, 0xc7, 10, 0, 0, 1, 10, 0, 0, 2] ++ List.replicate 8 0x62, 0⟩

theorem reassembled_inconsistent : ∃ frags' net' out, Reachable [firstHalf.bytes] halfTable ∧
    ipInputAccepts secondHalf.bytes = true ∧
    ipDefrag .willing halfTable .init secondHalf = .ret (some out, frags', net') ∧
    iphLength out.bytes = 16 ∧ out.bytes.length = 36 ∧
    ¬ SelfConsistent [secondHalf.bytes, firstHalf.bytes] out.bytes := by
  refine ⟨_, _, spliced, half_reachable, by decide, rfl, by decide, by decide, fun consistent => ?_⟩
  exact absurd consistent.length (by decide)

end MagxNet.Ip
