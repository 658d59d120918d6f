import MagxNet.Ip.Reassembly

set_option autoImplicit false

namespace MagxNet.Ip

open Bytes

-- A chain that holds the fragments of D picked by p, with the two counters to match.
structure Holding (P : Buffer) (D : List Buffer) (p : Buffer → Bool) (frag : Fragment) : Prop where
  chain : frag.buf.map IpBuf.bytes = D.filter p
  curlen : frag.curlen = ((D.filter p).map payload).flatten.length
  known : ∀ f ∈ D, p f = true → moreFrags f = false → frag.totlen = P.length
  unknown : (∀ f ∈ D, p f = true → moreFrags f = true) → frag.totlen = 0

theorem perm_payload_length (chain chain' : List IpBuf) (buf : IpBuf) (perm : List.Perm chain' (buf :: chain)) :
    ((chain'.map IpBuf.bytes).map payload).flatten.length =
      ((chain.map IpBuf.bytes).map payload).flatten.length + (payload buf.bytes).length := by
  have flat := (((perm.map IpBuf.bytes).map payload).flatten).length_eq
  rw [flat, List.map_cons, List.map_cons, List.flatten_cons, List.length_append, Nat.add_comm]

theorem more_frags_mf (iph : Buffer) : iphFragoff iph &&& IP_MF = 0 ↔ moreFrags iph = false := by
  simp [moreFrags]

theorem holding_insert (saddr : BitVec 32) (id : BitVec 16) (P : Buffer) (D : List Buffer) (p : Buffer → Bool)
    (net : IpNet) (frag : Fragment) (buf : IpBuf) (cut : Cut saddr id P D) (holding : Holding P D p frag)
    (member : buf.bytes ∈ D) (fresh : p buf.bytes = false) :
    (fragInsert net frag buf).2 = net ∧
      Holding P D (fun f => p f || f == buf.bytes) (fragInsert net frag buf).1 := by
  have sorted := in_order_sorted false D cut.pieces 0 cut.inOrder
  obtain ⟨chain, last, linked, contents, perm, atEnd⟩ := frag_link_new buf p D sorted member fresh frag.buf holding.chain
  have size := datalen_payload buf.bytes (cut.length _ member) (cut.header _ member)
  simp only [fragInsert, linked, size]
  refine ⟨trivial, contents, ?_, ?_, ?_⟩
  · have grown := perm_payload_length frag.buf chain buf perm
    rw [contents, holding.chain] at grown
    rw [grown, holding.curlen]
    push_cast
    rfl
  · intro f inside held final
    by_cases here : moreFrags buf.bytes = false
    · -- The last fragment goes to the end of the chain, whatever is in it.
      have ends := in_order_final D 0 cut.inOrder buf.bytes member here
      have behind : ∀ c ∈ D, p c = true → fragOffset c < fragOffset buf.bytes := by
        intro c isIn kept
        rcases in_order_final_last D cut.pieces 0 cut.inOrder buf.bytes member here c isIn with rfl | before
        · exact absurd (kept.symm.trans fresh) (by decide)
        · exact before
      rw [cut.payloads] at ends
      dsimp only
      rw [if_pos ⟨atEnd behind, (more_frags_mf _).mpr here⟩]
      omega
    · have old : p f = true := by
        rcases Bool.or_eq_true _ _ |>.mp held with kept | same
        · exact kept
        · rw [eq_of_beq same] at final
          exact absurd final here
      rw [if_neg (fun both => here ((more_frags_mf _).mp both.2))]
      exact holding.known f inside old final
  · intro flagged
    have here := flagged buf.bytes member (by simp)
    rw [if_neg (fun both => by rw [(more_frags_mf _).mp both.2] at here; cases here)]
    exact holding.unknown fun f inside held => flagged f inside (by simp [held])

theorem holding_again (saddr : BitVec 32) (id : BitVec 16) (P : Buffer) (D : List Buffer) (p : Buffer → Bool)
    (net : IpNet) (frag : Fragment) (buf : IpBuf) (cut : Cut saddr id P D) (holding : Holding P D p frag)
    (member : buf.bytes ∈ D) (held : p buf.bytes = true) : fragInsert net frag buf = (frag, bufDeref net buf) := by
  have sorted := (in_order_sorted false D cut.pieces 0 cut.inOrder).filter p
  rw [← holding.chain, List.pairwise_map] at sorted
  have inside : buf.bytes ∈ frag.buf.map IpBuf.bytes := by
    rw [holding.chain]
    exact List.mem_filter.mpr ⟨member, held⟩
  obtain ⟨b, inChain, same⟩ := List.mem_map.mp inside
  rw [fragInsert, frag_link_again buf frag.buf b sorted inChain (by rw [same])]

theorem flatten_filter_le (D : List Buffer) (p : Buffer → Bool) :
    ((D.filter p).map payload).flatten.length ≤ (D.map payload).flatten.length := by
  induction D with
  | nil => simp
  | cons d rest next =>
      by_cases kept : p d = true
      · simpa [List.filter_cons_of_pos kept] using next
      · rw [List.filter_cons_of_neg kept, List.map_cons, List.flatten_cons, List.length_append]
        omega

theorem flatten_filter_lt (D : List Buffer) (p : Buffer → Bool) (pieces : ∀ f ∈ D, payload f ≠ []) (f : Buffer)
    (member : f ∈ D) (missing : p f = false) :
    ((D.filter p).map payload).flatten.length < (D.map payload).flatten.length := by
  induction D with
  | nil => exact absurd member List.not_mem_nil
  | cons d rest next =>
      have tail := flatten_filter_le rest p
      have head := List.length_pos_iff.mpr (pieces d (List.mem_cons_self ..))
      rw [List.map_cons, List.flatten_cons, List.length_append]
      by_cases kept : p d = true
      · have later : f ∈ rest := by
          rcases List.mem_cons.mp member with rfl | later
          · exact absurd (kept.symm.trans missing) (by decide)
          · exact later
        have less := next (fun g inside => pieces g (List.mem_cons_of_mem _ inside)) later
        rw [List.filter_cons_of_pos kept, List.map_cons, List.flatten_cons, List.length_append]
        omega
      · rw [List.filter_cons_of_neg kept]
        omega

theorem holding_incomplete (saddr : BitVec 32) (id : BitVec 16) (P : Buffer) (D : List Buffer) (p : Buffer → Bool)
    (oracle : Oracle) (net : IpNet) (frag : Fragment) (cut : Cut saddr id P D) (holding : Holding P D p frag) (f : Buffer)
    (member : f ∈ D) (missing : p f = false) : fragPullup oracle net frag = .ret (none, frag, net) := by
  have less := flatten_filter_lt D p cut.pieces f member missing
  have size := congrArg List.length cut.payloads
  have counted := holding.curlen
  have stuck : frag.totlen = 0 ∨ frag.totlen ≠ frag.curlen := by
    by_cases final : ∃ g ∈ D, p g = true ∧ moreFrags g = false
    · obtain ⟨g, inside, held, last⟩ := final
      have total := holding.known g inside held last
      omega
    · refine Or.inl (holding.unknown fun g inside held => ?_)
      by_contra notMore
      exact final ⟨g, inside, held, by simpa using notMore⟩
  rw [fragPullup, if_pos stuck]

-- Fragments in order are copied one behind the other.
theorem frag_copy_in_order (chain : List IpBuf) (length : ∀ b ∈ chain, (iphLength b.bytes).toNat = b.bytes.length)
    (header : ∀ b ∈ chain, ipHdrlen b.bytes ≤ b.bytes.length) :
    ∀ (off : Nat) (bytes : Buffer) (net : IpNet), InOrder false off (chain.map IpBuf.bytes) →
      ∃ total net', fragCopy bytes (off * 8) net chain =
        .ret (some (bytes ++ ((chain.map IpBuf.bytes).map payload).flatten, total), [], net') := by
  induction chain with
  | nil => exact fun _ _ _ order => absurd order id
  | cons b rest next =>
      intro off bytes net order
      have size := datalen_payload b.bytes (length b (List.mem_cons_self ..)) (header b (List.mem_cons_self ..))
      have content := body_payload b.bytes (length b (List.mem_cons_self ..)) (header b (List.mem_cons_self ..))
      rw [body, size, Int.toNat_natCast] at content
      have start : fragOffset b.bytes = off := by
        cases rest with
        | nil => exact order.1
        | cons g others => exact order.1
      rw [fragCopy, if_neg (by rw [start]; simp), if_neg (by omega)]
      simp only [size, Int.toNat_natCast, content]
      cases rest with
      | nil =>
          refine ⟨off * 8 + (payload b.bytes).length, bufDeref net b, ?_⟩
          simp [fragCopy]
      | cons g others =>
          obtain ⟨total, net', run⟩ := next (fun c inside => length c (List.mem_cons_of_mem _ inside))
            (fun c inside => header c (List.mem_cons_of_mem _ inside)) (off + (payload b.bytes).length / 8)
            (bytes ++ payload b.bytes) (bufDeref net b) order.2.2.2
          have eighth := order.2.2.1
          have place : ((off : Int) * 8 + (payload b.bytes).length) =
              ((off + (payload b.bytes).length / 8 : Nat) : Int) * 8 := by omega
          rw [place]
          refine ⟨total, net', run.trans ?_⟩
          simp [List.append_assoc]

-- With all of D in the chain the slot is emptied, and the datagram comes out if a buffer is granted.
theorem holding_complete (saddr : BitVec 32) (id : BitVec 16) (P : Buffer) (D : List Buffer) (p : Buffer → Bool)
    (oracle : Oracle) (net : IpNet) (frag : Fragment) (cut : Cut saddr id P D) (holding : Holding P D p frag)
    (all : ∀ f ∈ D, p f = true) :
    ∃ first rest out frag' net', D = first :: rest ∧ fragPullup oracle net frag = .ret (out, frag', net') ∧
      frag'.buf = [] ∧ frag'.id = frag.id ∧ frag'.saddr = frag.saddr ∧
      ((bufAlloc oracle net (BitVec.ofInt 32 (ipHdrlen first + P.length))).1 = none → out = none) ∧
      ((bufAlloc oracle net (BitVec.ofInt 32 (ipHdrlen first + P.length))).1 ≠ none →
        ∃ nbuf, out = some nbuf ∧ payload nbuf.bytes = P) := by
  have whole : D.filter p = D := List.filter_eq_self.mpr all
  have chained : frag.buf.map IpBuf.bytes = D := holding.chain.trans whole
  have counted := holding.curlen
  rw [whole, cut.payloads] at counted
  obtain ⟨g, inside, last⟩ := in_order_has_final D 0 cut.inOrder
  have total := holding.known g inside (all g inside) last
  have positive : 0 < P.length := by
    have ends := in_order_final D 0 cut.inOrder g inside last
    have piece := List.length_pos_iff.mpr (cut.pieces g inside)
    rw [cut.payloads] at ends
    omega
  have ready : ¬ (frag.totlen = 0 ∨ frag.totlen ≠ frag.curlen) := by omega
  cases chain : frag.buf with
  | nil =>
      rw [chain] at chained
      exact absurd inside (by rw [← chained]; simp)
  | cons first rest =>
      rw [chain] at chained
      have valid : ∀ b ∈ first :: rest, b.bytes ∈ D := by
        intro b inChain
        rw [← chained]
        exact List.mem_map_of_mem inChain
      have contents : (D.map body).flatten = P := by
        rw [List.map_congr_left fun f isIn => body_payload f (cut.length f isIn) (cut.header f isIn), cut.payloads]
      obtain ⟨copied, after', copy⟩ := frag_copy_in_order (first :: rest) (fun b isIn => cut.length _ (valid b isIn))
        (fun b isIn => cut.header _ (valid b isIn)) 0 (copyBytes first.bytes 0 (ipHdrlen first.bytes))
        (bufAlloc oracle net (BitVec.ofInt 32 (ipHdrlen first.bytes + P.length))).2 (by rw [chained]; exact cut.inOrder)
      have run : ∃ out frag' net', fragPullup oracle net frag = .ret (out, frag', net') ∧ frag'.buf = [] ∧
          ((bufAlloc oracle net (BitVec.ofInt 32 (ipHdrlen first.bytes + P.length))).1 = none ↔ out = none) := by
        rw [fragPullup, if_neg ready, chain]
        dsimp only
        rw [total]
        generalize bufAlloc oracle net (BitVec.ofInt 32 (ipHdrlen first.bytes + P.length)) = result at copy ⊢
        obtain ⟨granted, after⟩ := result
        cases granted with
        | none => exact ⟨_, _, _, rfl, rfl, by simp⟩
        | some nbuf =>
            rw [Nat.cast_zero, zero_mul] at copy
            dsimp only at copy ⊢
            rw [copy]
            exact ⟨_, _, _, rfl, rfl, by simp⟩
      obtain ⟨out, frag', net', run, empty, granted⟩ := run
      have pulled := frag_pullup_spec oracle net net' frag frag' out run
      refine ⟨first.bytes, rest.map IpBuf.bytes, out, frag', net', chained.symm, run, empty, pulled.id, pulled.saddr,
        granted.mp, fun given => ?_⟩
      cases out with
      | none => exact absurd (granted.mpr rfl) given
      | some nbuf =>
          obtain ⟨_, first', rest', chain', built⟩ := pulled.assembled nbuf rfl
          rw [chain] at chain'
          cases chain'
          have lower : 20 ≤ ipHdrlen first.bytes := cut.lower _ (valid first (List.mem_cons_self ..))
          refine ⟨nbuf, rfl, ?_⟩
          rw [assembled_payload _ _ _ built (by omega), ← contents, ← chained]
          rfl

end MagxNet.Ip
