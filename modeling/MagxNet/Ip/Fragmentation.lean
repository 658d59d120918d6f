import MagxNet.Ip.FragRun

set_option autoImplicit false

namespace MagxNet.Ip

open Bytes

-- ip_frag returns whatever the rest of the kernel does, and when it returns 0 the datagrams it has
-- sent carry the original one. The superuser may set any mtu: if_ioctl stores it unchecked.
def FragmentsWell (mtu : BitVec 32) (buf : IpBuf) : Prop :=
  ∀ (oracle : Oracle) (net : IpNet), ∃ fuel r net', ipFrag fuel oracle net mtu buf = .ret (r, net') ∧
    (r = 0 → ∃ frags, net'.sent = net.sent ++ frags ∧ Emitted mtu.toNat buf.bytes frags)

-- The fragments' offsets would not fit into the offset field.
def TooLong (iph : Buffer) : Prop := IP_FRAGOFF.toNat < fragOffset iph + (payload iph).length / 8

instance (iph : Buffer) : Decidable (TooLong iph) := inferInstanceAs (Decidable (_ < _))

theorem fill_chksum_piece (iph : Buffer) (nwords : Nat) (valid : ValidDgram iph) (mtu : Nat) (fits : iph.length ≤ mtu) :
    Emitted mtu iph [fillChksum iph nwords] := by
  have lower := valid.lower
  simp only [IP_MINLEN] at lower
  have hdrlen : ipHdrlen (fillChksum iph nwords) = ipHdrlen iph := by
    rw [ipHdrlen, ipHdrlen, iphHdrlen, iphHdrlen, fill_chksum_field _ _ _ (by omega)]
  have length : iphLength (fillChksum iph nwords) = iphLength iph :=
    get16_congr _ _ _ _ (fill_chksum_field _ _ _ (by omega)) (fill_chksum_field _ _ _ (by omega))
  have fragoff : iphFragoff (fillChksum iph nwords) = iphFragoff iph :=
    get16_congr _ _ _ _ (fill_chksum_field _ _ _ (by omega)) (fill_chksum_field _ _ _ (by omega))
  refine ⟨?_, ⟨by rw [fragOffset, fragOffset, fragoff], by rw [moreFrags, moreFrags, fragoff]⟩, ?_⟩
  · intro f member
    obtain rfl := List.mem_singleton.mp member
    rw [length, valid.length, fill_chksum_length]
    exact ⟨fits, rfl⟩
  · rw [List.map_singleton, List.flatten_singleton, payload, payload, hdrlen, fill_chksum_drop _ _ _ (by omega)]

theorem loop_inv_start (buf : IpBuf) (valid : ValidDgram buf.bytes) :
    LoopInv buf.bytes ⟨buf, ipHdrlen buf.bytes, (iphLength buf.bytes).toNat - ipHdrlen buf.bytes, 0⟩ := by
  have total := payload_length buf.bytes valid.header
  have length := valid.length
  exact ⟨rfl, rfl, rfl, valid.lower, le_refl _, rfl, fun _ => valid.options, by simp; omega, by simp⟩

theorem too_long_iff (iph : Buffer) (valid : ValidDgram iph) :
    IP_FRAGOFF.toNat < (fragOffset iph : Int) + ((iphLength iph).toNat - (ipHdrlen iph : Int)) / 8 ↔ TooLong iph := by
  have total := payload_length iph valid.header
  have length := valid.length
  rw [TooLong]
  omega

theorem ip_frag_fragments (mtu : BitVec 32) (buf : IpBuf) (valid : ValidDgram buf.bytes)
    (room : ipHdrlen buf.bytes + 8 ≤ mtu.toNat) (oracle : Oracle) (net : IpNet) (large : mtu.toNat < buf.bytes.length)
    (short : ¬ TooLong buf.bytes) :
    ∃ fuel r net', ipFragLoop oracle (ipHdrlen buf.bytes) (fragLen mtu (ipHdrlen buf.bytes)) fuel net
        ⟨buf, ipHdrlen buf.bytes, (iphLength buf.bytes).toNat - ipHdrlen buf.bytes, 0⟩ = .ret (r, net') ∧
      (r = 0 → ∃ frags, net'.sent = net.sent ++ frags ∧ Emitted mtu.toNat buf.bytes frags) := by
  have total := payload_length buf.bytes valid.header
  have length := valid.length
  have inside : fragOffset buf.bytes + (payload buf.bytes).length / 8 < 8192 := by
    have limit : ¬ 8191 < fragOffset buf.bytes + (payload buf.bytes).length / 8 := short
    omega
  have cut : ((iphLength buf.bytes).toNat : Int) - ipHdrlen buf.bytes > fragLen mtu (ipHdrlen buf.bytes) := by
    unfold fragLen
    omega
  obtain ⟨r, net', run, sent⟩ := ip_frag_loop_spec oracle buf.bytes mtu valid room inside _ net _
    (loop_inv_start buf valid) (fun _ => Or.inl cut) (le_refl _)
  refine ⟨_, r, net', run, fun ok => ?_⟩
  obtain ⟨frags, grown, rest⟩ := sent ok
  exact ⟨frags, grown, rest.fits, by simpa using rest.inOrder (by simp; omega), by simpa using rest.payloads⟩

-- Below hdrlen + 8 no fragment makes progress: the count is negative, or zero over and over.
theorem ip_frag_stuck (mtu : BitVec 32) (dgram : Buffer) (valid : ValidDgram dgram)
    (narrow : mtu.toNat < ipHdrlen dgram + 8) :
    ∀ (fuel : Nat) (net : IpNet) (s : FragLoop), LoopInv dgram s → s.offset = 0 → 0 < s.datalen →
      (mtu.toNat : Int) - ipHdrlen dgram < s.datalen → ∀ result,
      ipFragLoop .willing (ipHdrlen dgram) (fragLen mtu (ipHdrlen dgram)) fuel net s ≠ .ret result := by
  intro fuel
  induction fuel with
  | zero => intro net s _ _ _ _ result run; simp [ipFragLoop] at run
  | succ fuel next =>
      intro net s inv start more large result run
      have upper := inv.upper
      have lower := inv.lower
      have short := ip_hdrlen_upper dgram
      have cut : s.datalen > fragLen mtu (ipHdrlen dgram) := by
        unfold fragLen
        omega
      have small : Buf.tooBig (BitVec.ofInt 32 (fragLen mtu (ipHdrlen dgram) + s.hdrlen)) = false := by
        apply Buf.small_not_too_big
        · unfold fragLen
          simp only [IP_MINLEN] at lower
          omega
        · unfold fragLen
          omega
      have take : fragTake .willing net s (fragLen mtu (ipHdrlen dgram)) =
          (some (⟨net.calls, [], 0⟩, fragLen mtu (ipHdrlen dgram), s.hdrlen), { net with calls := net.calls + 1 }) := by
        rw [fragTake, if_pos cut, buf_alloc_willing _ _ small]
        rfl
      rw [ipFragLoop, if_neg (by omega), take] at run
      dsimp only at run
      by_cases negative : fragLen mtu (ipHdrlen dgram) < 0
      · rw [if_pos negative] at run
        cases run
      · have zero : fragLen mtu (ipHdrlen dgram) = 0 := by
          unfold fragLen at negative ⊢
          omega
        rw [if_neg negative, if_neg (by simp [ifSend, Oracle.willing])] at run
        obtain ⟨stripped, strip, again⟩ := (Outcome.bind_eq_ret _ _ _).mp run
        rw [zero] at again
        have inv' := frag_strip_stuck dgram fuel s _ valid inv stripped strip
        refine next _ _ ?_ ?_ ?_ ?_ result (by rw [zero]; exact again)
        · simpa using inv'
        · simp [start]
        · simpa using more
        · simpa using large

theorem fragments_well_wide (mtu : BitVec 32) (buf : IpBuf) (valid : ValidDgram buf.bytes)
    (condition : buf.bytes.length ≤ mtu.toNat ∨ iphFragoff buf.bytes &&& IP_DF ≠ 0 ∨ TooLong buf.bytes ∨
      ipHdrlen buf.bytes + 8 ≤ mtu.toNat) : FragmentsWell mtu buf := by
  have length := valid.length
  intro oracle net
  by_cases fits : buf.bytes.length ≤ mtu.toNat
  · refine ⟨0, _, _, by rw [ipFrag, if_pos (by omega)], fun _ => ⟨_, if_send_sent _ _ _, ?_⟩⟩
    exact fill_chksum_piece _ _ valid _ fits
  · by_cases df : iphFragoff buf.bytes &&& IP_DF ≠ 0
    · refine ⟨0, _, _, by rw [ipFrag, if_neg (by omega), if_pos df], fun zero => absurd zero (by decide)⟩
    · by_cases long : TooLong buf.bytes
      · refine ⟨0, _, _, by rw [ipFrag, if_neg (by omega), if_neg df, if_pos ((too_long_iff _ valid).mpr long)], ?_⟩
        exact fun zero => absurd zero (by decide)
      · have room : ipHdrlen buf.bytes + 8 ≤ mtu.toNat := by
          rcases condition with small | cannot | past | room
          · exact absurd small fits
          · exact absurd cannot df
          · exact absurd past long
          · exact room
        obtain ⟨fuel, r, net', run, sent⟩ := ip_frag_fragments mtu buf valid room oracle net (by omega) long
        refine ⟨fuel, r, net', ?_, sent⟩
        rw [ipFrag, if_neg (by omega), if_neg df, if_neg (by rw [too_long_iff _ valid]; exact long)]
        exact run

-- An empty payload sends nothing at all; any other one is never got out.
theorem fragments_well_narrow (mtu : BitVec 32) (buf : IpBuf) (valid : ValidDgram buf.bytes)
    (large : mtu.toNat < buf.bytes.length) (mayFragment : iphFragoff buf.bytes &&& IP_DF = 0)
    (short : ¬ TooLong buf.bytes) (narrow : mtu.toNat < ipHdrlen buf.bytes + 8) : ¬ FragmentsWell mtu buf := by
  intro works
  have length := valid.length
  have total := payload_length buf.bytes valid.header
  obtain ⟨fuel, r, net', run, sent⟩ := works .willing .init
  rw [ipFrag, if_neg (by omega), if_neg (by simpa using mayFragment),
    if_neg (by rw [too_long_iff _ valid]; exact short)] at run
  by_cases empty : (payload buf.bytes).length = 0
  · cases fuel with
    | zero => simp [ipFragLoop] at run
    | succ fuel =>
        rw [ipFragLoop, if_pos (by simp; omega)] at run
        cases run
        obtain ⟨frags, grown, emitted⟩ := sent rfl
        have none : frags = [] := by simpa [IpNet.init] using grown.symm
        rw [none] at emitted
        exact emitted.inOrder
  · exact ip_frag_stuck mtu buf.bytes valid narrow fuel .init _ (loop_inv_start buf valid) rfl (by simp; omega)
      (by simp; omega) _ run

theorem ip_frag_correct_iff (mtu : BitVec 32) (buf : IpBuf) (valid : ValidDgram buf.bytes) :
    FragmentsWell mtu buf ↔
      buf.bytes.length ≤ mtu.toNat ∨ iphFragoff buf.bytes &&& IP_DF ≠ 0 ∨ TooLong buf.bytes ∨
        ipHdrlen buf.bytes + 8 ≤ mtu.toNat := by
  refine ⟨fun works => ?_, fragments_well_wide mtu buf valid⟩
  by_contra bad
  simp only [not_or, not_le, ne_eq, not_not] at bad
  obtain ⟨large, mayFragment, short, narrow⟩ := bad
  exact fragments_well_narrow mtu buf valid large mayFragment short narrow works

-- Twenty bytes of payload behind a header without options.
def smallDgram : IpBuf :=
  ⟨0, [0x45, 0, 0, 40, 0, 1, 0, 0, 64, 17, 0, 0, 10, 0, 0, 1, 10, 0, 0, 2] ++ List.replicate 20 0xaa, 0⟩

theorem small_dgram_valid : ValidDgram smallDgram.bytes :=
  ⟨by decide, by decide, by decide, by rw [show options smallDgram.bytes = [] by decide]; exact .nil⟩

theorem ip_frag_correct_iff_small : FragmentsWell 28 smallDgram ↔
    smallDgram.bytes.length ≤ 28 ∨ iphFragoff smallDgram.bytes &&& IP_DF ≠ 0 ∨ TooLong smallDgram.bytes ∨
      ipHdrlen smallDgram.bytes + 8 ≤ 28 := ip_frag_correct_iff 28 smallDgram small_dgram_valid

theorem ip_frag_mtu_24 : ¬ FragmentsWell 24 smallDgram :=
  fragments_well_narrow 24 smallDgram small_dgram_valid (by decide) (by decide) (by decide) (by decide)

end MagxNet.Ip
