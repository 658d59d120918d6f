import MagxNet.Bpf.Capture

set_option autoImplicit false

namespace MagxNet.Bpf

open Bytes

structure Rec where
  caplen : Word
  datalen : Word
  data : Buffer
deriving DecidableEq, Repr

-- The records that a reader finds. Each has the header length BPF_HDRLEN and begins at a multiple of BPF_ALIGNMENT, and
-- the buffer ends with the last one.
def parse : Nat → Buffer → Option (List Rec)
  | 0, _ => none
  | fuel + 1, buf =>
      let stop := BPF_HDRLEN + (get32 buf 8).toNat
      let r := ⟨get32 buf 8, get32 buf 12, (buf.drop BPF_HDRLEN).take (get32 buf 8).toNat⟩
      if (get16 buf 16).toNat ≠ BPF_HDRLEN ∨ buf.length < stop then none
      else if buf.length = stop then some [r]
      else if buf.length ≤ wordalign stop then none
      else (parse fuel (buf.drop (wordalign stop))).map (r :: ·)

def records (buf : Buffer) : Option (List Rec) := parse buf.length buf

theorem parse_more (n : Nat) : ∀ (m : Nat) (buf : Buffer) (recs : List Rec), n ≤ m → parse n buf = some recs → parse m buf = some recs := by
  induction n with
  | zero =>
      intro m buf recs _ parsed
      cases parsed
  | succ n next =>
      intro m buf recs more parsed
      obtain ⟨m, rfl⟩ := Nat.exists_eq_add_of_le' (Nat.lt_of_lt_of_le (Nat.succ_pos n) more)
      rw [parse] at parsed ⊢
      split at parsed
      · cases parsed
      · rename_i sound
        rw [if_neg sound]
        split at parsed
        · rename_i last
          rw [if_pos last]
          exact parsed
        · rename_i inner
          rw [if_neg inner]
          split at parsed
          · cases parsed
          · rename_i room
            rw [if_neg room]
            obtain ⟨rest, found, rfl⟩ := Option.map_eq_some_iff.mp parsed
            rw [next m _ rest (by omega) found]
            rfl

-- buf is the record r and nothing else.
structure IsRecord (buf : Buffer) (r : Rec) : Prop where
  length : buf.length = BPF_HDRLEN + r.caplen.toNat
  caplen : get32 buf 8 = r.caplen
  datalen : get32 buf 12 = r.datalen
  hdrlen : (get16 buf 16).toNat = BPF_HDRLEN
  data : buf.drop BPF_HDRLEN = r.data

theorem parse_record (n : Nat) (buf : Buffer) (r : Rec) (single : IsRecord buf r) : parse (n + 1) buf = some [r] := by
  have whole : (buf.drop BPF_HDRLEN).take r.caplen.toNat = r.data := by
    rw [single.data, ← single.data]
    refine List.take_of_length_le ?_
    rw [List.length_drop, single.length]
    omega
  rw [parse]
  rw [single.caplen, single.datalen, single.hdrlen, whole, if_neg (by have := single.length; omega), if_pos single.length]

theorem get32_append_left (left right : Buffer) (i : Nat) (bound : i + 3 < left.length) : get32 (left ++ right) i = get32 left i := by
  rw [get32, get32, get16_append_left _ _ _ (by omega), get16_append_left _ _ _ (by omega)]

theorem wordalign_eq (n : Nat) : wordalign n = (n + 3) / 4 * 4 := rfl

theorem wordalign_add (stop n : Nat) : wordalign (wordalign stop + n) = wordalign stop + wordalign n := by
  rw [wordalign_eq, wordalign_eq, wordalign_eq]
  omega

-- A record is put behind the others.
theorem parse_append (n : Nat) : ∀ (buf pad one : Buffer) (recs : List Rec) (r : Rec), parse n buf = some recs →
    buf.length + pad.length = wordalign buf.length → IsRecord one r → parse (n + 1) (buf ++ (pad ++ one)) = some (recs ++ [r]) := by
  induction n with
  | zero =>
      intro buf pad one recs r parsed
      cases parsed
  | succ n next =>
      intro buf pad one recs r parsed filled single
      rw [parse] at parsed ⊢
      split at parsed
      · cases parsed
      · rename_i sound
        have long : BPF_HDRLEN ≤ buf.length := by omega
        have headLen : BPF_HDRLEN = 20 := rfl
        have more := single.length
        rw [get32_append_left _ _ _ (by omega), get32_append_left _ _ _ (by omega), get16_append_left _ _ _ (by omega)]
        generalize stops : BPF_HDRLEN + (get32 buf 8).toNat = stop at parsed sound ⊢
        have taken : ((buf ++ (pad ++ one)).drop BPF_HDRLEN).take (get32 buf 8).toNat = (buf.drop BPF_HDRLEN).take (get32 buf 8).toNat := by
          rw [List.drop_append_of_le_length long, List.take_append_of_le_length]
          rw [List.length_drop]
          omega
        have grown : (buf ++ (pad ++ one)).length = buf.length + (pad.length + one.length) := by
          rw [List.length_append, List.length_append]
        rw [taken, grown, if_neg (by omega)]
        split at parsed
        · rename_i last
          cases parsed
          rw [if_neg (by omega), if_neg (by rw [← last]; omega)]
          have behind : (buf ++ (pad ++ one)).drop (wordalign stop) = one := by
            rw [← List.append_assoc, List.drop_left']
            rw [List.length_append, filled, last]
          rw [behind, parse_record n one r single]
          rfl
        · split at parsed
          · cases parsed
          · rename_i inner
            obtain ⟨rest, found, rfl⟩ := Option.map_eq_some_iff.mp parsed
            have start : (buf ++ (pad ++ one)).drop (wordalign stop) = buf.drop (wordalign stop) ++ (pad ++ one) :=
              List.drop_append_of_le_length (by omega)
            have filled' : (buf.drop (wordalign stop)).length + pad.length = wordalign (buf.drop (wordalign stop)).length := by
              rw [List.length_drop]
              have cut := wordalign_add stop (buf.length - wordalign stop)
              rw [Nat.add_sub_cancel' (by omega)] at cut
              omega
            rw [if_neg (by unfold wordalign at *; omega), if_neg (by omega), start, next _ pad one rest r found filled' single]
            rfl

theorem records_record (buf : Buffer) (r : Rec) (single : IsRecord buf r) : records buf = some [r] := by
  have some' : buf.length = buf.length - 1 + 1 := by
    have := single.length
    have : BPF_HDRLEN = 20 := rfl
    omega
  rw [records, some']
  exact parse_record _ buf r single

theorem records_append (buf pad one : Buffer) (recs : List Rec) (r : Rec) (parsed : records buf = some recs)
    (filled : buf.length + pad.length = wordalign buf.length) (single : IsRecord one r) :
    records (buf ++ (pad ++ one)) = some (recs ++ [r]) := by
  refine parse_more _ _ _ _ ?_ (parse_append _ buf pad one recs r parsed filled single)
  have := single.length
  have : BPF_HDRLEN = 20 := rfl
  rw [List.length_append, List.length_append]
  omega

theorem words_join (value : BitVec 32) : (value.extractLsb' 16 16 ++ value.extractLsb' 0 16 : BitVec 32) = value := by
  apply BitVec.eq_of_getLsbD_eq
  intro i bound
  rw [BitVec.getLsbD_append]
  by_cases low : i < 16
  · simp [low]
  · have high : i - 16 < 16 := by omega
    simp [low, high, show 16 + (i - 16) = i by omega]

-- What is written big-endian is read again.
theorem bytes32_join (value : BitVec 32) :
    (((value.extractLsb' 16 16).extractLsb' 8 8 ++ (value.extractLsb' 16 16).extractLsb' 0 8 : BitVec 16) ++
      ((value.extractLsb' 0 16).extractLsb' 8 8 ++ (value.extractLsb' 0 16).extractLsb' 0 8 : BitVec 16) : BitVec 32) = value := by
  rw [bytes_join, bytes_join, words_join]

theorem header_length (env : Arrival) (d : Desc) (pktlen caplen : Word) : (header env d pktlen caplen).length = BPF_HDRLEN := rfl

theorem header_record (env : Arrival) (d : Desc) (pktlen : Word) (p : Buffer) (n : Nat) (inside : n ≤ p.length) (small : n < 2 ^ 32) :
    IsRecord (header env d pktlen (BitVec.ofNat 32 n) ++ snapshot env p n) ⟨BitVec.ofNat 32 n, pktlen, p.take n⟩ := by
  have exact' : snapshot env p n = p.take n := by
    rw [snapshot, Nat.sub_eq_zero_of_le inside]
    exact List.append_nil _
  have count : (BitVec.ofNat 32 n).toNat = n := by
    rw [BitVec.toNat_ofNat, Nat.mod_eq_of_lt small]
  refine ⟨?_, bytes32_join _, bytes32_join _, ?_, ?_⟩
  · rw [List.length_append, header_length, exact', List.length_take_of_le inside, count]
  · have written : get16 (header env d pktlen (BitVec.ofNat 32 n) ++ snapshot env p n) 16 = BitVec.ofNat 16 BPF_HDRLEN := bytes_join _
    rw [written]
    rfl
  · rw [exact']
    rfl

-- The longest snapshot that fits into a buffer to be read.
abbrev BPF_MAXCAP : Nat := BPF_READBUF - BPF_ALIGNMENT - BPF_HDRLEN

-- What is to be captured of a packet.
def capped (c : Capture) : Nat := min (min c.snaplen.toNat c.packet.bytes.length) BPF_MAXCAP

def expected (c : Capture) : Rec :=
  ⟨BitVec.ofNat 32 (capped c), BitVec.ofNat 32 c.packet.bytes.length, c.packet.bytes.take (capped c)⟩

-- A buffer as a reader is to get it.
structure WellFormed (b : Queued) : Prop where
  short : b.bytes.length ≤ BPF_READBUF
  parsed : records b.bytes = some (b.taken.map expected)

-- The result of the filter is no negative number as a long, or one that the bound on the length catches, which is right
-- for a packet that is longer than the bound.
def Signed (c : Capture) : Prop :=
  c.snaplen.toNat < 2 ^ 31 ∨ (c.snaplen.toNat + BPF_HDRLEN < 2 ^ 32 ∧ BPF_MAXCAP ≤ c.packet.bytes.length)

-- The length is that of the shorter one if the sum has not wrapped.
theorem cap_len_of (snaplen pktlen : Word) (x : Nat) (least : (if snaplen.toInt < pktlen.toInt then snaplen else pktlen).toNat = x)
    (bound : x + BPF_HDRLEN < 2 ^ 32) : (capLen snaplen pktlen).toNat = BPF_HDRLEN + min x BPF_MAXCAP := by
  have head : BPF_HDRLEN = 20 := rfl
  have most : BPF_MAXCAP = 8168 := rfl
  have limit : BPF_READBUF - BPF_ALIGNMENT = 8188 := rfl
  rw [capLen]
  generalize (if snaplen.toInt < pktlen.toInt then snaplen else pktlen) = chosen at least ⊢
  have sum : (BitVec.ofNat 32 BPF_HDRLEN + chosen).toNat = BPF_HDRLEN + x := by
    rw [BitVec.toNat_add, BitVec.toNat_ofNat, least]
    omega
  split
  · rw [BitVec.toNat_ofNat]
    omega
  · rw [sum]
    omega

theorem cap_len (c : Capture) (signed : Signed c) :
    (capLen c.snaplen (BitVec.ofNat 32 c.packet.bytes.length)).toNat = BPF_HDRLEN + capped c := by
  have short := c.packet.short
  have head : BPF_HDRLEN = 20 := rfl
  have most : BPF_MAXCAP = 8168 := rfl
  have len : (BitVec.ofNat 32 c.packet.bytes.length).toNat = c.packet.bytes.length := by
    rw [BitVec.toNat_ofNat]
    omega
  have lenInt : (BitVec.ofNat 32 c.packet.bytes.length).toInt = c.packet.bytes.length := by
    rw [BitVec.toInt_eq_toNat_of_lt (by omega), len]
  rcases signed with positive | ⟨negative, large⟩
  · rw [cap_len_of _ _ (min c.snaplen.toNat c.packet.bytes.length) ?_ (by omega), capped]
    rw [lenInt, BitVec.toInt_eq_toNat_of_lt (by omega)]
    split
    · omega
    · rw [len]
      omega
  · rcases Nat.lt_or_ge c.snaplen.toNat (2 ^ 31) with small | high
    · rw [cap_len_of _ _ (min c.snaplen.toNat c.packet.bytes.length) ?_ (by omega), capped]
      rw [lenInt, BitVec.toInt_eq_toNat_of_lt (by omega)]
      split
      · omega
      · rw [len]
        omega
    · have below : c.snaplen.toInt < 0 := by
        rw [BitVec.toInt_eq_toNat_cond]
        split <;> omega
      rw [cap_len_of _ _ c.snaplen.toNat (by rw [lenInt, if_pos (by omega)]) (by omega), capped]
      omega

end MagxNet.Bpf
