import MagxNet.Chksum.Agreement

set_option autoImplicit false

namespace MagxNet.Chksum

open Bytes M68k Ones

theorem tcp_checksum_rfc1071 (build : Build) (dgram : Buffer) (srcadr dstadr : BitVec 32) (len : BitVec 16)
    (least : 2 ≤ len.toNat) (most : len.toNat < 65535) :
    tcp_checksum build dgram srcadr dstadr len
      = rfc1071 (pseudoWords IPPROTO_TCP srcadr dstadr len ++ dataWords dgram len.toNat) := by
  cases build with
  | gnu => exact checksum_gnu_rfc1071 IPPROTO_TCP dgram srcadr dstadr len most
  | coldfire => exact checksum_coldfire_rfc1071 IPPROTO_TCP dgram srcadr dstadr len
  | purec => exact tcp_chksum1_rfc1071 IPPROTO_TCP dgram srcadr dstadr len least

theorem udp_checksum_rfc1071 (build : Build) (dgram : Buffer) (srcadr dstadr : BitVec 32)
    (least : 2 ≤ (get16 dgram 4).toNat) (most : (get16 dgram 4).toNat < 65535) :
    udp_checksum build dgram srcadr dstadr
      = rfc1071 (pseudoWords IPPROTO_UDP srcadr dstadr (get16 dgram 4) ++ dataWords dgram (get16 dgram 4).toNat) := by
  cases build with
  | gnu => exact checksum_gnu_rfc1071 IPPROTO_UDP dgram srcadr dstadr (get16 dgram 4) most
  | coldfire => exact checksum_coldfire_rfc1071 IPPROTO_UDP dgram srcadr dstadr (get16 dgram 4)
  | purec => exact tcp_chksum1_rfc1071 IPPROTO_UDP dgram srcadr dstadr (get16 dgram 4) least

theorem chksum_rfc1071 (build : Build) (buf : Buffer) (nwords : BitVec 16) :
    chksum build buf nwords = rfc1071 (words buf 0 nwords.toNat) := by
  cases build with
  | gnu => exact chksum_gnu_rfc1071 buf nwords
  | coldfire => exact chksum_coldfire_rfc1071 buf nwords
  | purec => exact chksum_gnu_rfc1071 buf nwords

theorem words_put16_before (buf : Buffer) (i p n : Nat) (value : BitVec 16) (before : i + 1 < p) :
    words (put16 buf i value) p n = words buf p n := by
  induction n generalizing p with
  | zero => rfl
  | succ n ih =>
      rw [words, words, get16_put16_elsewhere _ _ _ _ (Or.inl before), ih (p + 2) (by omega)]

-- A word put where zero was counts in the total of the words around it.
theorem total_put16 (buf : Buffer) (p k n : Nat) (value : BitVec 16) (inside : k < n)
    (bound : p + 2 * k + 1 < buf.length) (zero : get16 buf (p + 2 * k) = 0) :
    total (words (put16 buf (p + 2 * k) value) p n) = total (words buf p n) + value.toNat := by
  induction n generalizing p k with
  | zero => omega
  | succ n ih =>
      rw [words, words, total_cons, total_cons]
      cases k with
      | zero =>
          rw [Nat.mul_zero, Nat.add_zero] at *
          rw [get16_put16_here _ _ _ bound, words_put16_before _ _ _ _ _ (by omega), zero]
          have none : (0 : BitVec 16).toNat = 0 := rfl
          omega
      | succ k =>
          have place : p + 2 * (k + 1) = p + 2 + 2 * k := by omega
          rw [place] at bound zero ⊢
          rw [get16_put16_elsewhere _ _ _ _ (by omega), ih (p + 2) k (by omega) bound zero]
          omega

theorem total_data_put16 (dgram : Buffer) (k len : Nat) (value : BitVec 16) (inside : 2 * k + 2 ≤ len)
    (bound : len ≤ dgram.length) (zero : get16 dgram (2 * k) = 0) :
    total (dataWords (put16 dgram (2 * k) value) len) = total (dataWords dgram len) + value.toNat := by
  have body := total_put16 dgram 0 k (len / 2) value (by omega) (by omega) (by rwa [Nat.zero_add])
  rw [Nat.zero_add] at body
  rw [dataWords, dataWords, total_append, total_append, body]
  split
  next odd =>
      rw [get8_put16_elsewhere _ _ _ _ (by omega) (by omega)]
      omega
  next => omega

theorem rfc1071_zero (values : List (BitVec 16)) (full : onesSum values = BitVec.allOnes 16) : rfc1071 values = 0 := by
  rw [rfc1071, full]
  rfl

theorem rfc1071_filled (before after : List (BitVec 16)) (filled : total after = total before + (rfc1071 before).toNat) :
    rfc1071 after = 0 :=
  rfc1071_zero after (ones_sum_filled before after filled)

-- The same with all ones in the place of zero, as udp_send has it.
theorem rfc1071_filled_udp (before after : List (BitVec 16))
    (filled : total after = total before + (udpField (rfc1071 before)).toNat) : rfc1071 after = 0 := by
  unfold udpField at filled
  split at filled
  next zero => exact rfc1071_zero after (ones_sum_filled_full before after (by decide) filled zero)
  next => exact rfc1071_filled before after filled

-- The sum of a run of words, put into the one that was zero.
theorem chksum_filled (build checker : Build) (buf : Buffer) (nwords : BitVec 16) (k : Nat)
    (bound : 2 * nwords.toNat ≤ buf.length) (inside : k < nwords.toNat) (zero : get16 buf (2 * k) = 0) :
    chksum checker (put16 buf (2 * k) (chksum build buf nwords)) nwords = 0 := by
  rw [chksum_rfc1071 checker, chksum_rfc1071 build]
  apply rfc1071_filled (words buf 0 nwords.toNat)
  have put := total_put16 buf 0 k nwords.toNat (rfc1071 (words buf 0 nwords.toNat)) inside (by omega) (by rwa [Nat.zero_add])
  rwa [Nat.zero_add] at put

-- The three routines of every build, and the check of a field that any of them filled.
theorem checksums_agree (build checker : Build) :
    (∀ (dgram : Buffer) (srcadr dstadr : BitVec 32) (len : BitVec 16),
      20 ≤ len.toNat → len.toNat ≤ 65515 → len.toNat ≤ dgram.length →
      let sum := tcp_checksum build dgram srcadr dstadr len
      sum = rfc1071 (pseudoWords IPPROTO_TCP srcadr dstadr len ++ dataWords dgram len.toNat) ∧
        (get16 dgram 16 = 0 → tcp_checksum checker (put16 dgram 16 sum) srcadr dstadr len = 0)) ∧
    (∀ (dgram : Buffer) (srcadr dstadr : BitVec 32),
      8 ≤ (get16 dgram 4).toNat → (get16 dgram 4).toNat ≤ 65515 → (get16 dgram 4).toNat ≤ dgram.length →
      let sum := udp_checksum build dgram srcadr dstadr
      sum = rfc1071 (pseudoWords IPPROTO_UDP srcadr dstadr (get16 dgram 4) ++ dataWords dgram (get16 dgram 4).toNat) ∧
        (get16 dgram 6 = 0 → udp_checksum checker (put16 dgram 6 sum) srcadr dstadr = 0 ∧
          udp_checksum checker (put16 dgram 6 (udpField sum)) srcadr dstadr = 0)) ∧
    ∀ (buf : Buffer) (nwords : BitVec 16), nwords ≠ 0 → 2 * nwords.toNat ≤ buf.length →
      let sum := chksum build buf nwords
      sum = rfc1071 (words buf 0 nwords.toNat) ∧
        ∀ k < nwords.toNat, get16 buf (2 * k) = 0 → chksum checker (put16 buf (2 * k) sum) nwords = 0 := by
  refine ⟨?_, ?_, ?_⟩
  · intro dgram srcadr dstadr len least most bound
    have agree := tcp_checksum_rfc1071 build dgram srcadr dstadr len (by omega) (by omega)
    refine ⟨agree, fun zero => ?_⟩
    rw [tcp_checksum_rfc1071 checker _ srcadr dstadr len (by omega) (by omega), agree]
    apply rfc1071_filled (pseudoWords IPPROTO_TCP srcadr dstadr len ++ dataWords dgram len.toNat)
    rw [total_append, total_append, total_data_put16 dgram 8 len.toNat _ (by omega) bound zero, Nat.add_assoc]
  · intro dgram srcadr dstadr least most bound
    have agree := udp_checksum_rfc1071 build dgram srcadr dstadr (by omega) (by omega)
    have length (value : BitVec 16) : get16 (put16 dgram 6 value) 4 = get16 dgram 4 :=
      get16_put16_elsewhere _ _ _ _ (by omega)
    have check (value : BitVec 16) : udp_checksum checker (put16 dgram 6 value) srcadr dstadr
        = rfc1071 (pseudoWords IPPROTO_UDP srcadr dstadr (get16 dgram 4)
          ++ dataWords (put16 dgram 6 value) (get16 dgram 4).toNat) := by
      rw [udp_checksum_rfc1071 checker _ srcadr dstadr (by rw [length]; omega) (by rw [length]; omega), length]
    refine ⟨agree, fun zero => ⟨?_, ?_⟩⟩
    · rw [check, agree]
      apply rfc1071_filled (pseudoWords IPPROTO_UDP srcadr dstadr (get16 dgram 4) ++ dataWords dgram (get16 dgram 4).toNat)
      rw [total_append, total_append, total_data_put16 dgram 3 _ _ (by omega) bound zero, Nat.add_assoc]
    · rw [check, agree]
      apply rfc1071_filled_udp (pseudoWords IPPROTO_UDP srcadr dstadr (get16 dgram 4) ++ dataWords dgram (get16 dgram 4).toNat)
      rw [total_append, total_append, total_data_put16 dgram 3 _ _ (by omega) bound zero, Nat.add_assoc]
  · intro buf nwords some bound
    exact ⟨chksum_rfc1071 build buf nwords, fun k inside zero => chksum_filled build checker buf nwords k bound inside zero⟩

theorem checksums_agree_echo :
    chksum .purec (put16 [8, 0, 0, 0, 0, 1, 0, 2] 2 (chksum .coldfire [8, 0, 0, 0, 0, 1, 0, 2] 4)) 4 = 0 :=
  ((checksums_agree .coldfire .purec).2.2 [8, 0, 0, 0, 0, 1, 0, 2] 4 (by decide) (by decide)).2 1 (by decide) rfl

-- One's complement arithmetic where every end-around carry happens, on all three builds.
example : (udp_checksum .gnu [0xff, 0xff, 0xff, 0xff, 0, 9, 0, 0, 0xff] 0xffffffff 0xffffffff,
    udp_checksum .coldfire [0xff, 0xff, 0xff, 0xff, 0, 9, 0, 0, 0xff] 0xffffffff 0xffffffff,
    udp_checksum .purec [0xff, 0xff, 0xff, 0xff, 0, 9, 0, 0, 0xff] 0xffffffff 0xffffffff)
      = (0x00dc, 0x00dc, 0x00dc) := by decide

end MagxNet.Chksum
