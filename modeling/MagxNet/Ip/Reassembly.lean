import MagxNet.Ip.Fragmentation
import MagxNet.Ip.DefragSpec

set_option autoImplicit false

namespace MagxNet.Ip

open Bytes

-- The fragments of one datagram with payload P, in order: cut at multiples of eight bytes, with MF
-- on all but the last.
structure Cut (saddr : BitVec 32) (id : BitVec 16) (P : Buffer) (D : List Buffer) : Prop where
  key : ∀ f ∈ D, iphSaddr f = saddr ∧ iphId f = id
  length : ∀ f ∈ D, (iphLength f).toNat = f.length
  lower : ∀ f ∈ D, IP_MINLEN ≤ ipHdrlen f
  header : ∀ f ∈ D, ipHdrlen f ≤ f.length
  pieces : ∀ f ∈ D, payload f ≠ []
  inOrder : InOrder false 0 D
  payloads : (D.map payload).flatten = P
  total : P.length ≤ 65535

theorem in_order_lower (final : Bool) (D : List Buffer) : ∀ off, InOrder final off D →
    ∀ f ∈ D, off ≤ fragOffset f := by
  induction D with
  | nil => exact fun _ order => absurd order id
  | cons d rest next =>
      intro off order f member
      cases rest with
      | nil =>
          obtain rfl := List.mem_singleton.mp member
          exact order.1.ge
      | cons g others =>
          rcases List.mem_cons.mp member with rfl | later
          · exact order.1.ge
          · have := next _ order.2.2.2 f later
            omega

theorem in_order_sorted (final : Bool) (D : List Buffer) (pieces : ∀ f ∈ D, payload f ≠ []) :
    ∀ off, InOrder final off D → D.Pairwise fun f g => fragOffset f < fragOffset g := by
  induction D with
  | nil => exact fun _ order => absurd order id
  | cons d rest next =>
      intro off order
      cases rest with
      | nil => exact List.pairwise_singleton _ _
      | cons g others =>
          have later := order.2.2.2
          refine List.pairwise_cons.mpr ⟨fun f member => ?_, next (fun f member => pieces f (List.mem_cons_of_mem _ member)) _ later⟩
          have lower := in_order_lower final _ _ later f member
          have positive := List.length_pos_iff.mpr (pieces d (List.mem_cons_self ..))
          have eighth := order.2.2.1
          have start := order.1
          omega

-- Only the last fragment lacks MF, and it ends where the payload does.
theorem in_order_final (D : List Buffer) : ∀ off, InOrder false off D → ∀ f ∈ D, moreFrags f = false →
    fragOffset f * 8 + (payload f).length = off * 8 + (D.map payload).flatten.length := by
  induction D with
  | nil => exact fun _ order => absurd order id
  | cons d rest next =>
      intro off order f member last
      cases rest with
      | nil =>
          obtain rfl := List.mem_singleton.mp member
          rw [order.1]
          simp
      | cons g others =>
          rcases List.mem_cons.mp member with rfl | later
          · exact absurd (order.2.1.symm.trans last) (by decide)
          · have tail := next _ order.2.2.2 f later last
            have sum : ((d :: g :: others).map payload).flatten.length =
                (payload d).length + ((g :: others).map payload).flatten.length := by
              rw [List.map_cons, List.flatten_cons, List.length_append]
            have eighth := order.2.2.1
            omega

theorem in_order_final_last (D : List Buffer) (pieces : ∀ f ∈ D, payload f ≠ []) : ∀ off, InOrder false off D →
    ∀ f ∈ D, moreFrags f = false → ∀ c ∈ D, c = f ∨ fragOffset c < fragOffset f := by
  induction D with
  | nil => exact fun _ order => absurd order id
  | cons d rest next =>
      intro off order f member last c inside
      cases rest with
      | nil => exact Or.inl ((List.mem_singleton.mp inside).trans (List.mem_singleton.mp member).symm)
      | cons g others =>
          rcases List.mem_cons.mp member with rfl | later
          · exact absurd (order.2.1.symm.trans last) (by decide)
          · rcases List.mem_cons.mp inside with rfl | behind
            · exact Or.inr ((List.pairwise_cons.mp (in_order_sorted _ _ pieces off order)).1 f later)
            · exact next (fun f member => pieces f (List.mem_cons_of_mem _ member)) _ order.2.2.2 f later last c behind

theorem in_order_has_final (D : List Buffer) : ∀ off, InOrder false off D → ∃ f ∈ D, moreFrags f = false := by
  induction D with
  | nil => exact fun _ order => absurd order id
  | cons d rest next =>
      intro off order
      cases rest with
      | nil => exact ⟨d, List.mem_cons_self .., order.2⟩
      | cons g others =>
          obtain ⟨f, member, last⟩ := next _ order.2.2.2
          exact ⟨f, List.mem_cons_of_mem _ member, last⟩

theorem flags_zero_iff (iph : Buffer) :
    iphFragoff iph &&& (IP_MF ||| IP_FRAGOFF) = 0 ↔ fragOffset iph = 0 ∧ moreFrags iph = false := by
  have split : iphFragoff iph &&& (IP_MF ||| IP_FRAGOFF) =
      (iphFragoff iph &&& IP_MF) ||| (iphFragoff iph &&& IP_FRAGOFF) := by
    ext i bound
    simp [Bool.and_or_distrib_left]
  rw [split, show (0 : BitVec 16) = 0#16 from rfl, BitVec.or_eq_zero_iff, fragOffset, moreFrags]
  constructor
  · rintro ⟨flag, offset⟩
    exact ⟨by rw [offset]; rfl, by simp [flag]⟩
  · rintro ⟨offset, flag⟩
    exact ⟨by simpa using flag, BitVec.eq_of_toNat_eq offset⟩

-- A fragment that looks like a whole datagram is the only one.
theorem in_order_whole (D : List Buffer) (pieces : ∀ f ∈ D, payload f ≠ []) (order : InOrder false 0 D) (f : Buffer)
    (member : f ∈ D) (whole : iphFragoff f &&& (IP_MF ||| IP_FRAGOFF) = 0) : D = [f] := by
  obtain ⟨offset, last⟩ := (flags_zero_iff f).mp whole
  cases D with
  | nil => exact absurd order id
  | cons d rest =>
      cases rest with
      | nil => rw [List.mem_singleton.mp member]
      | cons g others =>
          rcases List.mem_cons.mp member with rfl | later
          · exact absurd (order.2.1.symm.trans last) (by decide)
          · have before := (List.pairwise_cons.mp (in_order_sorted _ _ pieces 0 order)).1 f later
            omega

theorem in_order_alone (D : List Buffer) (f : Buffer) (pieces : ∀ f ∈ D, payload f ≠ []) (order : InOrder false 0 D)
    (only : ∀ g ∈ D, g = f) : iphFragoff f &&& (IP_MF ||| IP_FRAGOFF) = 0 := by
  cases D with
  | nil => exact absurd order id
  | cons d rest =>
      obtain rfl := only d (List.mem_cons_self ..)
      cases rest with
      | nil => exact (flags_zero_iff d).mpr order
      | cons g others =>
          have before := (List.pairwise_cons.mp (in_order_sorted _ _ pieces 0 order)).1 g (List.mem_cons_self ..)
          rw [only g (by simp)] at before
          exact absurd before (lt_irrefl _)

theorem datalen_payload (iph : Buffer) (length : (iphLength iph).toNat = iph.length) (header : ipHdrlen iph ≤ iph.length) :
    datalen iph = (payload iph).length := by
  have total := payload_length iph header
  rw [datalen, length]
  omega

theorem body_payload (iph : Buffer) (length : (iphLength iph).toNat = iph.length) (header : ipHdrlen iph ≤ iph.length) :
    body iph = payload iph := by
  have total := payload_length iph header
  rw [body, datalen_payload iph length header, Int.toNat_natCast, copy_bytes_inside _ _ _ (by omega)]
  exact List.take_of_length_le (le_refl _)

-- Linking into a chain that holds some of D, in order.
theorem frag_link_new (buf : IpBuf) (p : Buffer → Bool) (D : List Buffer)
    (sorted : D.Pairwise fun f g => fragOffset f < fragOffset g) (member : buf.bytes ∈ D) (fresh : p buf.bytes = false) :
    ∀ chain : List IpBuf, chain.map IpBuf.bytes = D.filter p →
      ∃ chain' last, fragLink buf chain = some (chain', last) ∧
        chain'.map IpBuf.bytes = D.filter (fun f => p f || f == buf.bytes) ∧ List.Perm chain' (buf :: chain) ∧
        ((∀ c ∈ D, p c = true → fragOffset c < fragOffset buf.bytes) → last = true) := by
  induction D with
  | nil => exact absurd member List.not_mem_nil
  | cons d rest next =>
      intro chain held
      obtain ⟨first, others⟩ := List.pairwise_cons.mp sorted
      by_cases here : d = buf.bytes
      · have different : ∀ f ∈ rest, (p f || f == buf.bytes) = p f := by
          intro f inside
          have unequal : f ≠ buf.bytes := by
            rintro rfl
            have := first _ inside
            rw [here] at this
            exact lt_irrefl _ this
          simp [unequal]
        rw [here, List.filter_cons_of_neg (by simp [fresh])] at held
        have target : (d :: rest).filter (fun f => p f || f == buf.bytes) = buf.bytes :: rest.filter p := by
          rw [List.filter_cons_of_pos (by simp [here]), List.filter_congr different, here]
        cases chain with
        | nil => exact ⟨[buf], true, rfl, by rw [target, ← held]; rfl, List.Perm.refl _, fun _ => rfl⟩
        | cons c cs =>
            have inside : c.bytes ∈ rest.filter p := by
              rw [← held]
              exact List.mem_cons_self ..
            obtain ⟨inRest, kept⟩ := List.mem_filter.mp inside
            have before := first _ inRest
            rw [here] at before
            refine ⟨buf :: c :: cs, false, by rw [fragLink, if_pos before], by rw [target, ← held]; rfl, List.Perm.refl _, ?_⟩
            intro behind
            have := behind _ (List.mem_cons_of_mem _ inRest) kept
            omega
      · have inside : buf.bytes ∈ rest := by
          rcases List.mem_cons.mp member with same | later
          · exact absurd same.symm here
          · exact later
        have before := first _ inside
        by_cases kept : p d = true
        · rw [List.filter_cons_of_pos kept] at held
          cases chain with
          | nil => exact absurd held (by simp)
          | cons c cs =>
              obtain ⟨same, tail⟩ := List.cons.inj held
              obtain ⟨chain', last, linked, contents, perm, atEnd⟩ := next others inside cs tail
              refine ⟨c :: chain', last, ?_, ?_, ?_, fun behind => atEnd fun f isIn => behind f (List.mem_cons_of_mem _ isIn)⟩
              · rw [fragLink, if_neg (by rw [same]; omega), if_neg (by rw [same]; omega), linked]
                rfl
              · rw [List.filter_cons_of_pos (by simp [kept]), ← contents, ← same]
                rfl
              · exact (perm.cons c).trans (List.Perm.swap buf c cs)
        · rw [List.filter_cons_of_neg kept] at held
          obtain ⟨chain', last, linked, contents, perm, atEnd⟩ := next others inside chain held
          refine ⟨chain', last, linked, ?_, perm, fun behind => atEnd fun f isIn => behind f (List.mem_cons_of_mem _ isIn)⟩
          rw [List.filter_cons_of_neg (by simp [kept, here]), contents]

theorem frag_link_again (buf : IpBuf) (chain : List IpBuf) (b : IpBuf)
    (sorted : chain.Pairwise fun f g => fragOffset f.bytes < fragOffset g.bytes) (member : b ∈ chain)
    (same : fragOffset b.bytes = fragOffset buf.bytes) : fragLink buf chain = none := by
  induction chain with
  | nil => exact absurd member List.not_mem_nil
  | cons curr rest next =>
      obtain ⟨first, others⟩ := List.pairwise_cons.mp sorted
      rw [fragLink]
      rcases List.mem_cons.mp member with rfl | later
      · rw [if_neg (by omega), if_pos same]
      · have before := first b later
        rw [if_neg (by omega), if_neg (by omega), next others later]
        rfl

end MagxNet.Ip
