import MagxNet.Ip.Options

set_option autoImplicit false

namespace MagxNet.Ip

open Bytes

-- A datagram whose length field is right, whose header is whole and whose options are well formed.
structure ValidDgram (iph : Buffer) : Prop where
  length : (iphLength iph).toNat = iph.length
  lower : IP_MINLEN ≤ ipHdrlen iph
  header : ipHdrlen iph ≤ iph.length
  options : WellFormed (options iph)

-- Fragments that start at offset off (in units of eight bytes), each where the one before it ends.
def InOrder (final : Bool) : Nat → List Buffer → Prop
  | _, [] => False
  | off, [f] => fragOffset f = off ∧ moreFrags f = final
  | off, f :: g :: rest =>
      fragOffset f = off ∧ moreFrags f = true ∧ 8 ∣ (payload f).length ∧
        InOrder final (off + (payload f).length / 8) (g :: rest)

structure Emitted (mtu : Nat) (dgram : Buffer) (frags : List Buffer) : Prop where
  fits : ∀ f ∈ frags, (iphLength f).toNat ≤ mtu ∧ (iphLength f).toNat = f.length
  inOrder : InOrder (moreFrags dgram) (fragOffset dgram) frags
  payloads : (frags.map payload).flatten = payload dgram

theorem frag_offset_nat (iph : Buffer) : fragOffset iph = (iphFragoff iph).toNat % 8192 := by
  rw [fragOffset, IP_FRAGOFF, BitVec.toNat_and]
  exact Nat.and_two_pow_sub_one_eq_mod _ 13

theorem more_frags_nat (iph : Buffer) : moreFrags iph = decide ((iphFragoff iph).toNat / 8192 % 2 = 1) := by
  have bit : iphFragoff iph &&& IP_MF ≠ 0 ↔ (iphFragoff iph).getLsbD 13 = true := by
    rw [IP_MF]
    constructor
    · intro nonzero
      by_contra clear
      refine nonzero ?_
      ext i bound
      by_cases here : i = 13
      · subst here
        simpa [← BitVec.getLsbD_eq_getElem] using clear
      · interval_cases i <;> simp_all
    · intro set zero
      have bits : (iphFragoff iph &&& 0x2000).getLsbD 13 = (0 : BitVec 16).getLsbD 13 := by rw [zero]
      rw [BitVec.getLsbD_and, set] at bits
      revert bits
      decide
  rw [moreFrags, decide_eq_decide, bit, ← BitVec.testBit_toNat, Nat.testBit_eq_decide_div_mod_eq, decide_eq_true_eq]

theorem or_mf_offset (x : BitVec 16) : (x ||| IP_MF).toNat % 8192 = x.toNat % 8192 := by
  have same : (x ||| IP_MF) &&& IP_FRAGOFF = x &&& IP_FRAGOFF := by
    rw [IP_MF, IP_FRAGOFF]
    ext i bound
    interval_cases i <;> simp
  have values := congrArg BitVec.toNat same
  rw [BitVec.toNat_and, BitVec.toNat_and] at values
  simpa [IP_FRAGOFF, Nat.and_two_pow_sub_one_eq_mod _ 13] using values

theorem or_mf_set (x : BitVec 16) : (x ||| IP_MF).toNat / 8192 % 2 = 1 := by
  have bit : (x ||| IP_MF).getLsbD 13 = true := by simp [IP_MF]
  rw [← BitVec.testBit_toNat, Nat.testBit_eq_decide_div_mod_eq, decide_eq_true_eq] at bit
  simpa using bit

theorem fill_chksum_length (iph : Buffer) (nwords : Nat) : (fillChksum iph nwords).length = iph.length := by
  simp [fillChksum, setChksum]

theorem fill_chksum_field (iph : Buffer) (nwords i : Nat) (apart : i < 10 ∨ 11 < i) :
    get8 (fillChksum iph nwords) i = get8 iph i := by
  rw [fillChksum, setChksum, setChksum, get8_put16_elsewhere _ _ _ _ (by omega) (by omega),
    get8_put16_elsewhere _ _ _ _ (by omega) (by omega)]

theorem fill_chksum_drop (iph : Buffer) (nwords n : Nat) (behind : 11 < n) :
    (fillChksum iph nwords).drop n = iph.drop n := by
  rw [fillChksum, setChksum, setChksum, put16_drop _ _ _ _ (by omega), put16_drop _ _ _ _ (by omega)]

theorem frag_seal_field (bytes : Buffer) (hdrlen todo offset : Nat) (more : Bool) (i : Nat)
    (apart : i < 2 ∨ i = 4 ∨ i = 5 ∨ i = 8 ∨ i = 9 ∨ 11 < i) :
    get8 (fragSeal bytes hdrlen todo offset more) i = get8 bytes i := by
  have other : ∀ (buf : Buffer) (j : Nat) (value : BitVec 16), j = 2 ∨ j = 6 → get8 (put16 buf j value) i = get8 buf i :=
    fun buf j value place => get8_put16_elsewhere _ _ _ _ (by omega) (by omega)
  rw [fragSeal, fill_chksum_field _ _ _ (by omega)]
  cases more with
  | false => simp [setFragoff, setLength, other]
  | true => simp [setFragoff, setLength, other]

theorem frag_seal_drop (bytes : Buffer) (hdrlen todo offset n : Nat) (more : Bool) (behind : 11 < n) :
    (fragSeal bytes hdrlen todo offset more).drop n = bytes.drop n := by
  have other : ∀ (buf : Buffer) (j : Nat) (value : BitVec 16), j = 2 ∨ j = 6 → (put16 buf j value).drop n = buf.drop n :=
    fun buf j value place => put16_drop _ _ _ _ (by omega)
  rw [fragSeal, fill_chksum_drop _ _ _ behind]
  cases more with
  | false => simp [setFragoff, setLength, other]
  | true => simp [setFragoff, setLength, other]

theorem frag_seal_length (bytes : Buffer) (hdrlen todo offset : Nat) (more : Bool) :
    (fragSeal bytes hdrlen todo offset more).length = bytes.length := by
  rw [fragSeal, fill_chksum_length]
  cases more <;> simp [setFragoff, setLength]

theorem frag_seal_hdrlen (bytes : Buffer) (hdrlen todo offset : Nat) (more : Bool) :
    ipHdrlen (fragSeal bytes hdrlen todo offset more) = ipHdrlen bytes := by
  rw [ipHdrlen, ipHdrlen, iphHdrlen, iphHdrlen, frag_seal_field _ _ _ _ _ _ (by omega)]

theorem frag_seal_len_field (bytes : Buffer) (hdrlen todo offset : Nat) (more : Bool) (bound : 20 ≤ bytes.length) :
    iphLength (fragSeal bytes hdrlen todo offset more) = BitVec.ofNat 16 (hdrlen + todo) := by
  have behind : ∀ (buf : Buffer) (value : BitVec 16), get16 (put16 buf 6 value) 2 = get16 buf 2 :=
    fun buf value => get16_put16_elsewhere _ _ _ _ (by omega)
  have sum : ∀ (buf : Buffer) (n : Nat), get16 (fillChksum buf n) 2 = get16 buf 2 := fun buf n =>
    get16_congr _ _ _ _ (fill_chksum_field _ _ _ (by omega)) (fill_chksum_field _ _ _ (by omega))
  have here := get16_put16_here bytes 2 (BitVec.ofNat 16 (hdrlen + todo)) (by omega)
  rw [iphLength, fragSeal, sum]
  cases more with
  | false => simpa [setFragoff, setLength, behind] using here
  | true => simpa [setFragoff, setLength, behind] using here

theorem frag_seal_fragoff (bytes : Buffer) (hdrlen todo offset : Nat) (more : Bool) (bound : 20 ≤ bytes.length) :
    iphFragoff (fragSeal bytes hdrlen todo offset more) =
      if more then (iphFragoff bytes + BitVec.ofNat 16 (offset / 8)) ||| IP_MF
      else iphFragoff bytes + BitVec.ofNat 16 (offset / 8) := by
  have sum : ∀ (buf : Buffer) (n : Nat), get16 (fillChksum buf n) 6 = get16 buf 6 := fun buf n =>
    get16_congr _ _ _ _ (fill_chksum_field _ _ _ (by omega)) (fill_chksum_field _ _ _ (by omega))
  have before : ∀ value : BitVec 16, get16 (put16 bytes 2 value) 6 = get16 bytes 6 :=
    fun value => get16_put16_elsewhere _ _ _ _ (by omega)
  have here : ∀ (buf : Buffer) (value : BitVec 16), buf.length = bytes.length → get16 (put16 buf 6 value) 6 = value :=
    fun buf value same => get16_put16_here _ _ _ (by omega)
  rw [iphFragoff, fragSeal, sum]
  cases more with
  | false => simp [setFragoff, setLength, iphFragoff, before, here]
  | true => simp [setFragoff, setLength, iphFragoff, before, here]

-- One fragment as it is handed to if_send: header of hdrlen bytes taken from iph, then the body.
structure Piece (iph f body : Buffer) (offset : Nat) (more : Bool) : Prop where
  length : (iphLength f).toNat = f.length
  size : f.length = ipHdrlen iph + body.length
  payload : payload f = body
  offset : fragOffset f = fragOffset iph + offset / 8
  more : moreFrags f = (more || moreFrags iph)

theorem frag_seal_piece (iph body : Buffer) (offset : Nat) (more : Bool) (lower : IP_MINLEN ≤ ipHdrlen iph)
    (header : ipHdrlen iph ≤ iph.length) (short : ipHdrlen iph + body.length < 65536)
    (inside : fragOffset iph + offset / 8 < 8192) :
    Piece iph (fragSeal (iph.take (ipHdrlen iph) ++ body) (ipHdrlen iph) body.length offset more) body offset more := by
  simp only [IP_MINLEN] at lower
  generalize bytesEq : iph.take (ipHdrlen iph) ++ body = bytes
  have size : bytes.length = ipHdrlen iph + body.length := by
    rw [← bytesEq, List.length_append, List.length_take, Nat.min_eq_left header]
  have field : ∀ i, i < ipHdrlen iph → get8 bytes i = get8 iph i := by
    intro i bound
    rw [← bytesEq, get8_append_left _ _ _ (by simp; omega), get8_take _ _ _ bound]
  have hdrlen : ipHdrlen bytes = ipHdrlen iph := by
    rw [ipHdrlen, ipHdrlen, iphHdrlen, iphHdrlen, field 0 (by omega)]
  have fragoff : iphFragoff bytes = iphFragoff iph :=
    get16_congr _ _ _ _ (field 6 (by omega)) (field 7 (by omega))
  rw [frag_offset_nat] at inside
  have sum : (iphFragoff iph + BitVec.ofNat 16 (offset / 8)).toNat = (iphFragoff iph).toNat + offset / 8 := by
    have word := (iphFragoff iph).isLt
    rw [BitVec.toNat_add, BitVec.toNat_ofNat]
    omega
  refine ⟨?_, ?_, ?_, ?_, ?_⟩
  · rw [frag_seal_len_field _ _ _ _ _ (by omega), frag_seal_length, BitVec.toNat_ofNat, size]
    omega
  · rw [frag_seal_length, size]
  · rw [payload, frag_seal_hdrlen, frag_seal_drop _ _ _ _ _ _ (by omega), hdrlen, ← bytesEq]
    simp [Nat.min_eq_left header]
  · rw [frag_offset_nat, frag_offset_nat, frag_seal_fragoff _ _ _ _ _ (by omega), fragoff]
    cases more with
    | false =>
        simp only [Bool.false_eq_true, if_false, sum]
        omega
    | true =>
        simp only [if_true, or_mf_offset, sum]
        omega
  · rw [more_frags_nat, more_frags_nat, frag_seal_fragoff _ _ _ _ _ (by omega), fragoff]
    cases more with
    | false =>
        simp only [Bool.false_eq_true, if_false, sum, Bool.false_or, decide_eq_decide]
        omega
    | true => simp only [if_true, or_mf_set, Bool.true_or, decide_true]

-- Between two rounds of the loop only the options in the input buffer have changed, and those
-- only once the first fragment is out.
structure LoopInv (dgram : Buffer) (s : FragLoop) : Prop where
  size : s.buf.bytes.length = dgram.length
  data : s.buf.bytes.drop (ipHdrlen dgram) = payload dgram
  header : ipHdrlen s.buf.bytes = s.hdrlen
  lower : IP_MINLEN ≤ s.hdrlen
  upper : s.hdrlen ≤ ipHdrlen dgram
  fragoff : iphFragoff s.buf.bytes = iphFragoff dgram
  options : s.offset = 0 → WellFormed (options s.buf.bytes)
  position : s.offset + s.datalen = (payload dgram).length
  step : 8 ∣ s.offset

theorem payload_length (dgram : Buffer) (header : ipHdrlen dgram ≤ dgram.length) :
    (payload dgram).length + ipHdrlen dgram = dgram.length := by
  rw [payload, List.length_drop]
  omega

theorem stripped_inv (dgram out : Buffer) (s : FragLoop) (datalen : Int) (offset : Nat) (inv : LoopInv dgram s)
    (stripped : Stripped s.buf.bytes out) (position : offset + datalen = (payload dgram).length) (step : 8 ∣ offset) :
    LoopInv dgram ⟨{ s.buf with bytes := out }, ipHdrlen out, datalen, offset⟩ := by
  have shorter := stripped.upper
  rw [inv.header] at shorter
  have behind : out.drop (ipHdrlen dgram) = payload dgram := by
    have later := congrArg (List.drop (ipHdrlen dgram - s.hdrlen)) stripped.behind
    rw [inv.header, List.drop_drop, List.drop_drop, Nat.add_sub_cancel' inv.upper] at later
    exact later.trans inv.data
  have fragoff : iphFragoff out = iphFragoff s.buf.bytes :=
    get16_congr _ _ _ _ (stripped.field 6 (by decide) (by decide)) (stripped.field 7 (by decide) (by decide))
  exact ⟨stripped.same_length.trans inv.size, behind, rfl, stripped.lower, shorter.trans inv.upper,
    fragoff.trans inv.fragoff, fun _ => stripped.valid, position, step⟩

theorem loop_inv_header (dgram : Buffer) (s : FragLoop) (valid : ValidDgram dgram) (inv : LoopInv dgram s) :
    IP_MINLEN ≤ ipHdrlen s.buf.bytes ∧ ipHdrlen s.buf.bytes ≤ s.buf.bytes.length := by
  rw [inv.header, inv.size]
  exact ⟨inv.lower, inv.upper.trans valid.header⟩

theorem frag_strip_spec (dgram : Buffer) (fuel : Nat) (s : FragLoop) (fraglen : Int) (valid : ValidDgram dgram)
    (inv : LoopInv dgram s) (cut : s.datalen > fraglen ∨ 0 < s.offset) (enough : 40 < fuel) :
    ∃ stripped, fragStrip fuel s fraglen = .ret stripped ∧ ∀ todo : Nat, 0 < todo → 8 ∣ todo →
      LoopInv dgram { stripped with datalen := s.datalen - todo, offset := s.offset + todo } := by
  have position := inv.position
  by_cases first : s.offset = 0 ∧ IP_MINLEN < s.hdrlen
  · have more : s.datalen > fraglen := by omega
    obtain ⟨lower, bound⟩ := loop_inv_header dgram s valid inv
    obtain ⟨out, run, stripped⟩ := frag_opts_spec fuel s.buf.bytes lower bound (inv.options first.1) enough
    rw [inv.header] at run
    refine ⟨{ s with buf := { s.buf with bytes := out }, hdrlen := ipHdrlen out }, ?_, ?_⟩
    · rw [fragStrip, if_pos first, if_pos more, run, Outcome.ret_bind]
    · intro todo positive aligned
      exact stripped_inv dgram out s _ _ inv stripped (by push_cast; omega) (inv.step.add aligned)
  · refine ⟨s, by rw [fragStrip, if_neg first], ?_⟩
    intro todo positive aligned
    exact ⟨inv.size, inv.data, inv.header, inv.lower, inv.upper, inv.fragoff,
      fun zero => absurd zero (by simp; omega), by simp; omega, inv.step.add aligned⟩

-- With no progress made, the state after stripping is one the loop might have started from.
theorem frag_strip_stuck (dgram : Buffer) (fuel : Nat) (s : FragLoop) (fraglen : Int) (valid : ValidDgram dgram)
    (inv : LoopInv dgram s) (stripped : FragLoop) (strip : fragStrip fuel s fraglen = .ret stripped) :
    LoopInv dgram { stripped with datalen := s.datalen, offset := s.offset } := by
  unfold fragStrip at strip
  by_cases first : s.offset = 0 ∧ IP_MINLEN < s.hdrlen
  · obtain ⟨lower, bound⟩ := loop_inv_header dgram s valid inv
    rw [if_pos first] at strip
    by_cases more : s.datalen > fraglen
    · rw [if_pos more] at strip
      obtain ⟨⟨out, hdrlen⟩, run, built⟩ := (Outcome.bind_eq_ret _ _ _).mp strip
      rw [← inv.header] at run
      obtain ⟨rfl, shorter⟩ := frag_opts_ret fuel s.buf.bytes out hdrlen lower bound (inv.options first.1) run
      cases built
      exact stripped_inv dgram out s _ _ inv shorter inv.position inv.step
    · rw [if_neg more] at strip
      cases strip
  · rw [if_neg first] at strip
    cases strip
    exact inv

-- What is still to be sent once offset bytes are out.
structure Remaining (mtu : Nat) (dgram : Buffer) (offset : Nat) (frags : List Buffer) : Prop where
  fits : ∀ f ∈ frags, (iphLength f).toNat ≤ mtu ∧ (iphLength f).toNat = f.length
  done : (payload dgram).length ≤ offset → frags = []
  inOrder : offset < (payload dgram).length → InOrder (moreFrags dgram) (fragOffset dgram + offset / 8) frags
  payloads : (frags.map payload).flatten = (payload dgram).drop offset

theorem remaining_nil (mtu : Nat) (dgram : Buffer) (offset : Nat) (done : (payload dgram).length ≤ offset) :
    Remaining mtu dgram offset [] :=
  ⟨by simp, fun _ => rfl, fun more => absurd more (by omega), by simp [List.drop_of_length_le done]⟩

-- A fragment in front of what remains behind it.
theorem remaining_cons (mtu : Nat) (dgram iph f : Buffer) (offset todo : Nat) (frags : List Buffer)
    (same : fragOffset iph = fragOffset dgram ∧ moreFrags iph = moreFrags dgram) (positive : 0 < todo)
    (inside : offset + todo ≤ (payload dgram).length)
    (aligned : offset + todo < (payload dgram).length → 8 ∣ todo) (fits : ipHdrlen iph + todo ≤ mtu)
    (piece : Piece iph f (((payload dgram).drop offset).take todo) offset
      (decide (offset + todo < (payload dgram).length)))
    (rest : Remaining mtu dgram (offset + todo) frags) : Remaining mtu dgram offset (f :: frags) := by
  have bodyLength : (((payload dgram).drop offset).take todo).length = todo := by
    simp
    omega
  have start : fragOffset f = fragOffset dgram + offset / 8 := by rw [piece.offset, same.1]
  have flag := piece.more
  refine ⟨?_, fun past => absurd past (by omega), fun _ => ?_, ?_⟩
  · intro g member
    cases member with
    | head => exact ⟨by rw [piece.length, piece.size, bodyLength]; exact fits, piece.length⟩
    | tail _ later => exact rest.fits g later
  · by_cases more : offset + todo < (payload dgram).length
    · rw [decide_eq_true more, Bool.true_or] at flag
      have eighth := aligned more
      have order := rest.inOrder more
      have next : fragOffset dgram + offset / 8 + (payload f).length / 8 =
          fragOffset dgram + (offset + todo) / 8 := by
        rw [piece.payload, bodyLength]
        omega
      cases frags with
      | nil => exact absurd order id
      | cons g others =>
          refine ⟨start, flag, by rw [piece.payload, bodyLength]; exact eighth, ?_⟩
          rw [next]
          exact order
    · rw [rest.done (by omega)]
      rw [decide_eq_false more, Bool.false_or, same.2] at flag
      exact ⟨start, flag⟩
  · rw [List.map_cons, List.flatten_cons, rest.payloads, piece.payload, ← List.drop_drop, List.take_append_drop]

-- The input buffer or a new one: either way the header copied is as long as the loop believes, and
-- the share taken is positive, fits and, unless it is the last, ends on a multiple of eight.
theorem frag_take_spec (oracle : Oracle) (net net' : IpNet) (dgram : Buffer) (s : FragLoop) (mtu : BitVec 32)
    (inv : LoopInv dgram s) (room : ipHdrlen dgram + 8 ≤ mtu.toNat) (more : 0 < s.datalen)
    (fragbuf : IpBuf) (todo : Int) (header : Nat)
    (taken : fragTake oracle net s (fragLen mtu (ipHdrlen dgram)) = (some (fragbuf, todo, header), net')) :
    net'.sent = net.sent ∧ header = s.hdrlen ∧ 0 < todo ∧ todo ≤ s.datalen ∧ (todo < s.datalen → todo % 8 = 0) ∧
      s.hdrlen + todo ≤ mtu.toNat := by
  have upper := inv.upper
  unfold fragTake at taken
  unfold fragLen at taken
  split at taken
  · generalize alloc : bufAlloc oracle net _ = result at taken
    obtain ⟨granted, after⟩ := result
    cases granted with
    | none => simp at taken
    | some fresh =>
        simp only [Option.map_some, Prod.mk.injEq, Option.some.injEq] at taken
        obtain ⟨⟨_, rfl, rfl⟩, rfl⟩ := taken
        refine ⟨(buf_alloc_some _ _ _ _ _ alloc).2.1, rfl, by omega, by omega, by omega, by omega⟩
  · simp only [Prod.mk.injEq, Option.some.injEq] at taken
    obtain ⟨⟨_, rfl, rfl⟩, rfl⟩ := taken
    exact ⟨rfl, inv.header, more, le_refl _, fun less => absurd less (lt_irrefl _), by omega⟩

-- The datagram one round of the loop builds.
theorem frag_piece (dgram : Buffer) (s : FragLoop) (todo : Nat) (valid : ValidDgram dgram) (inv : LoopInv dgram s)
    (within : s.offset + todo ≤ (payload dgram).length)
    (short : fragOffset dgram + (payload dgram).length / 8 < 8192) :
    Piece s.buf.bytes
      (fragSeal (copyBytes s.buf.bytes 0 s.hdrlen ++ copyBytes s.buf.bytes (ipHdrlen dgram + s.offset) todo)
        s.hdrlen todo s.offset (decide (s.offset + todo < (payload dgram).length)))
      (((payload dgram).drop s.offset).take todo) s.offset (decide (s.offset + todo < (payload dgram).length)) := by
  have total := payload_length dgram valid.header
  have lengthField := valid.length
  have word := (iphLength dgram).isLt
  have upper := inv.upper
  have size := inv.size
  have start : fragOffset s.buf.bytes = fragOffset dgram := by rw [fragOffset, fragOffset, inv.fragoff]
  have head : copyBytes s.buf.bytes 0 s.hdrlen = s.buf.bytes.take (ipHdrlen s.buf.bytes) := by
    rw [copy_bytes_inside _ _ _ (by omega), inv.header, List.drop_zero]
  have body : copyBytes s.buf.bytes (ipHdrlen dgram + s.offset) todo = ((payload dgram).drop s.offset).take todo := by
    rw [copy_bytes_inside _ _ _ (by omega), ← List.drop_drop, inv.data]
  have bodyLength : (((payload dgram).drop s.offset).take todo).length = todo := by
    simp
    omega
  have piece := frag_seal_piece s.buf.bytes (((payload dgram).drop s.offset).take todo) s.offset
    (decide (s.offset + todo < (payload dgram).length)) (by rw [inv.header]; exact inv.lower)
    (by rw [inv.header]; omega) (by rw [inv.header]; omega) (by omega)
  rw [bodyLength, inv.header] at piece
  rw [head, body, inv.header]
  exact piece

theorem ip_frag_loop_spec (oracle : Oracle) (dgram : Buffer) (mtu : BitVec 32) (valid : ValidDgram dgram)
    (room : ipHdrlen dgram + 8 ≤ mtu.toNat) (short : fragOffset dgram + (payload dgram).length / 8 < 8192) :
    ∀ (fuel : Nat) (net : IpNet) (s : FragLoop), LoopInv dgram s →
      (0 < s.datalen → s.datalen > fragLen mtu (ipHdrlen dgram) ∨ 0 < s.offset) →
      s.datalen.toNat + 42 ≤ fuel →
      ∃ r net', ipFragLoop oracle (ipHdrlen dgram) (fragLen mtu (ipHdrlen dgram)) fuel net s = .ret (r, net') ∧
        (r = 0 → ∃ frags, net'.sent = net.sent ++ frags ∧ Remaining mtu.toNat dgram s.offset frags) := by
  intro fuel
  induction fuel with
  | zero => intro net s _ _ enough; omega
  | succ fuel next =>
      intro net s inv cut enough
      have position := inv.position
      have total := payload_length dgram valid.header
      have word := (iphLength dgram).isLt
      have lengthField := valid.length
      by_cases done : s.datalen ≤ 0
      · refine ⟨0, net, by rw [ipFragLoop, if_pos done], fun _ => ⟨[], by simp, ?_⟩⟩
        exact remaining_nil _ _ _ (by omega)
      · have more : 0 < s.datalen := by omega
        generalize take : fragTake oracle net s (fragLen mtu (ipHdrlen dgram)) = result
        obtain ⟨taken, after⟩ := result
        cases taken with
        | none =>
            refine ⟨ENOMEM, bufDeref after s.buf, by rw [ipFragLoop, if_neg done, take], ?_⟩
            exact fun zero => absurd zero (by decide)
        | some share =>
            obtain ⟨fragbuf, todo, header⟩ := share
            obtain ⟨sentSame, rfl, positive, within, eighth, fits⟩ :=
              frag_take_spec oracle net after dgram s mtu inv room more fragbuf todo header take
            obtain ⟨todo, rfl⟩ : ∃ n : Nat, todo = n := ⟨todo.toNat, by omega⟩
            obtain ⟨stripped, strip, inv'⟩ := frag_strip_spec dgram fuel s (fragLen mtu (ipHdrlen dgram)) valid inv
              (cut more) (by omega)
            have flag : decide (0 < s.datalen - todo) = decide (s.offset + todo < (payload dgram).length) := by
              rw [decide_eq_decide]
              omega
            have piece := frag_piece dgram s todo valid inv (by omega) short
            rw [ipFragLoop, if_neg done, take]
            simp only [Int.toNat_natCast, flag, if_neg (show ¬ (todo : Int) < 0 by omega), strip, Outcome.ret_bind]
            generalize fragSeal _ _ _ _ _ = f at piece ⊢
            have same : fragOffset s.buf.bytes = fragOffset dgram ∧ moreFrags s.buf.bytes = moreFrags dgram := by
              rw [fragOffset, fragOffset, moreFrags, moreFrags, inv.fragoff]
              exact ⟨rfl, rfl⟩
            have cons := fun frags => remaining_cons mtu.toNat dgram s.buf.bytes f s.offset todo frags same (by omega)
              (by omega) (fun less => by omega) (by rw [inv.header]; omega) piece
            by_cases failed : (ifSend oracle after ⟨fragbuf.id, f, s.buf.info⟩).1 ≠ 0
            · refine ⟨(ifSend oracle after ⟨fragbuf.id, f, s.buf.info⟩).1, _, by rw [if_pos failed], ?_⟩
              exact fun zero => absurd zero failed
            · rw [if_neg failed]
              have sentNow : (ifSend oracle after ⟨fragbuf.id, f, s.buf.info⟩).2.sent = net.sent ++ [f] := by
                rw [if_send_sent, sentSame]
              by_cases last : (todo : Int) = s.datalen
              · obtain ⟨fuel, rfl⟩ : ∃ k, fuel = k + 1 := ⟨fuel - 1, by omega⟩
                refine ⟨0, (ifSend oracle after ⟨fragbuf.id, f, s.buf.info⟩).2, ?_, fun _ => ⟨[f], sentNow, ?_⟩⟩
                · rw [ipFragLoop, if_pos (by simp; omega)]
                · exact cons [] (remaining_nil _ _ _ (by omega))
              · obtain ⟨r, net', run, sent⟩ := next (ifSend oracle after ⟨fragbuf.id, f, s.buf.info⟩).2
                  { stripped with datalen := s.datalen - todo, offset := s.offset + todo }
                  (inv' todo (by omega) (by omega)) (fun _ => Or.inr (by simp; omega)) (by simp; omega)
                refine ⟨r, net', run, fun ok => ?_⟩
                obtain ⟨frags, grown, rest⟩ := sent ok
                exact ⟨f :: frags, by rw [grown, sentNow, List.append_assoc]; rfl, cons frags rest⟩

end MagxNet.Ip
