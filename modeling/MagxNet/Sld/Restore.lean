import MagxNet.Sld.Slcompr

set_option autoImplicit false

namespace MagxNet.Sld.Slc

open Bytes Ip MagxNet.Sld.Slip

section Numbers

variable (front rest : Buffer) (d : BitVec 16)

theorem get8_behind (l : Buffer) (k : Nat) : get8 (front ++ l ++ rest) (front.length + k) = get8 (l ++ rest) k := by
  rw [List.append_assoc, get8_append_right]

theorem three_read :
    short (front ++ [0, d.extractLsb' 8 8, d.extractLsb' 0 8] ++ rest) front.length = d
      ∧ long (front ++ [0, d.extractLsb' 8 8, d.extractLsb' 0 8] ++ rest) front.length = d.signExtend 32
      ∧ after (front ++ [0, d.extractLsb' 8 8, d.extractLsb' 0 8] ++ rest) front.length = front.length + 3 := by
  have zero := get8_behind front rest [0, d.extractLsb' 8 8, d.extractLsb' 0 8] 0
  have high := get8_behind front rest [0, d.extractLsb' 8 8, d.extractLsb' 0 8] 1
  have low := get8_behind front rest [0, d.extractLsb' 8 8, d.extractLsb' 0 8] 2
  have whole : get16 (front ++ [0, d.extractLsb' 8 8, d.extractLsb' 0 8] ++ rest) (front.length + 1) = d := by
    rw [get16, high, low]
    exact bytes_join d
  have begins : get8 (front ++ [0, d.extractLsb' 8 8, d.extractLsb' 0 8] ++ rest) front.length = 0 := zero
  unfold short long after
  rw [if_pos begins, if_pos begins, if_pos begins, whole]
  exact ⟨rfl, rfl, rfl⟩

theorem byte_read (some : d ≠ 0) (small : d.toNat < 256) :
    short (front ++ [d.extractLsb' 0 8] ++ rest) front.length = d
      ∧ long (front ++ [d.extractLsb' 0 8] ++ rest) front.length = d.signExtend 32
      ∧ after (front ++ [d.extractLsb' 0 8] ++ rest) front.length = front.length + 1 := by
  have here : get8 (front ++ [d.extractLsb' 0 8] ++ rest) front.length = d.extractLsb' 0 8 :=
    get8_behind front rest [d.extractLsb' 0 8] 0
  have real : d.extractLsb' 0 8 ≠ 0 := by
    intro zero
    apply some
    apply BitVec.eq_of_toNat_eq
    have value := congrArg BitVec.toNat zero
    simp at value
    simp
    omega
  unfold short long after
  rw [here, if_neg real, if_neg real, if_neg real]
  refine ⟨?_, ?_, rfl⟩
  · apply BitVec.eq_of_toNat_eq
    simp
    omega
  · have positive : d.msb = false := BitVec.msb_eq_false_iff_two_mul_lt.mpr (by omega)
    rw [BitVec.signExtend_eq_setWidth_of_msb_false positive]
    apply BitVec.eq_of_toNat_eq
    simp
    omega

theorem encode_read (some : d ≠ 0) :
    short (front ++ encode d ++ rest) front.length = d ∧ long (front ++ encode d ++ rest) front.length = d.signExtend 32
      ∧ after (front ++ encode d ++ rest) front.length = (front ++ encode d).length := by
  rw [List.length_append]
  unfold encode
  by_cases large : d.toNat ≥ 256
  · rw [if_pos large]
    exact three_read front rest d
  · rw [if_neg large]
    exact byte_read front rest d some (Nat.lt_of_not_le large)

theorem encodez_read :
    short (front ++ encodez d ++ rest) front.length = d
      ∧ after (front ++ encodez d ++ rest) front.length = (front ++ encodez d).length := by
  rw [List.length_append]
  unfold encodez
  by_cases large : d.toNat ≥ 256 ∨ d = 0
  · rw [if_pos large]
    obtain ⟨value, -, stop⟩ := three_read front rest d
    exact ⟨value, stop⟩
  · rw [if_neg large]
    obtain ⟨value, -, stop⟩ := byte_read front rest d (fun zero => large (Or.inr zero))
      (Nat.lt_of_not_le fun more => large (Or.inl more))
    exact ⟨value, stop⟩

end Numbers

-- The change mask by its bits.
def maskOf (u w a s : Bool) : Byte :=
  (if u then NEW_U else 0) ||| (if w then NEW_W else 0) ||| (if a then NEW_A else 0) ||| (if s then NEW_S else 0)

def fullMask (u w a s i p : Bool) : Byte := maskOf u w a s ||| (if i then NEW_I else 0) ||| (if p then TCP_PUSH_BIT else 0)

theorem mask_low : ∀ u w a s i p : Bool, fullMask u w a s i p &&& 0x3f = fullMask u w a s i p := by
  decide

theorem special_i : SPECIAL_I = maskOf true true false true := by
  decide

theorem special_d : SPECIAL_D = maskOf true true true true := by
  decide

-- How the receiver reads a mask.
structure Reads (changes : Byte) (u w a s i p : Bool) : Prop where
  urgent : changes &&& NEW_U ≠ 0 ↔ u = true
  window : changes &&& NEW_W ≠ 0 ↔ w = true
  ack : changes &&& NEW_A ≠ 0 ↔ a = true
  seq : changes &&& NEW_S ≠ 0 ↔ s = true
  id : changes &&& NEW_I ≠ 0 ↔ i = true
  push : changes &&& TCP_PUSH_BIT ≠ 0 ↔ p = true
  special : changes &&& SPECIALS_MASK = maskOf u w a s

theorem reads_mask (changes : Byte) (u w a s i p : Bool) (mask : changes &&& 0x3f = fullMask u w a s i p) :
    Reads changes u w a s i p := by
  have part : ∀ bit : Byte, 0x3f &&& bit = bit → changes &&& bit = fullMask u w a s i p &&& bit := fun bit below => by
    rw [← mask, BitVec.and_assoc, below]
  refine ⟨?_, ?_, ?_, ?_, ?_, ?_, ?_⟩
  all_goals
    rw [part _ (by decide)]
    clear part mask
    revert u w a s i p
    decide

section Stages

variable (old new A : Buffer) (n i : Nat) (fields : List Field) (bit changes : Byte) (flag : Bool) (b front rest nums : Buffer)
  (whole : b = front ++ nums ++ rest)

include whole

theorem short_stage (reads : changes &&& bit ≠ 0 ↔ flag = true) (d : BitVec 16) (right : get16 new i = get16 old i + d)
    (quiet : flag = true ↔ d ≠ 0) (coded : nums = if flag then encode d else [])
    (patched : Patched old new A n ((i, 2) :: fields)) (bound : i + 1 < n) :
    ∃ A', restoreShort bit changes i b (A, front.length) = (A', (front ++ nums).length)
      ∧ Patched old new A' n fields := by
  subst whole
  have here := patched_get16 i patched List.mem_cons_self bound
  unfold restoreShort
  cases flag with
  | true =>
      rw [if_pos (reads.mpr rfl), coded, if_pos rfl]
      obtain ⟨value, -, stop⟩ := encode_read front rest d (quiet.mp rfl)
      dsimp only
      rw [value, stop]
      exact ⟨_, rfl, patched_put16 old new A n i fields _ patched bound (by rw [here, right])⟩
  | false =>
      have still : d = 0 := not_not.mp fun moved => Bool.false_ne_true (quiet.mpr moved)
      rw [if_neg fun set => Bool.false_ne_true (reads.mp set), coded, if_neg Bool.false_ne_true, List.append_nil]
      refine ⟨A, rfl, patched_same old new A n i fields 2 patched fun j less inside => ?_⟩
      have same : get16 old i = get16 new i := by rw [right, still, add_zero]
      obtain rfl | rfl : j = i ∨ j = i + 1 := by unfold Inside at inside; omega
      · exact (get16_bytes _ _ _ _ same).1
      · exact (get16_bytes _ _ _ _ same).2

theorem long_stage (reads : changes &&& bit ≠ 0 ↔ flag = true) (d : BitVec 16) (right : get32 new i = get32 old i + d.signExtend 32)
    (quiet : flag = true ↔ d ≠ 0) (coded : nums = if flag then encode d else [])
    (patched : Patched old new A n ((i, 4) :: fields)) (bound : i + 3 < n) :
    ∃ A', restoreLong bit changes i b (A, front.length) = (A', (front ++ nums).length)
      ∧ Patched old new A' n fields := by
  subst whole
  have here := patched_get32 i patched List.mem_cons_self bound
  unfold restoreLong
  cases flag with
  | true =>
      rw [if_pos (reads.mpr rfl), coded, if_pos rfl]
      obtain ⟨-, value, stop⟩ := encode_read front rest d (quiet.mp rfl)
      dsimp only
      rw [value, stop]
      exact ⟨_, rfl, patched_put32 old new A n i fields _ patched bound (by rw [here, right])⟩
  | false =>
      have still : d = 0 := not_not.mp fun moved => Bool.false_ne_true (quiet.mpr moved)
      rw [if_neg fun set => Bool.false_ne_true (reads.mp set), coded, if_neg Bool.false_ne_true, List.append_nil]
      refine ⟨A, rfl, patched_same old new A n i fields 4 patched fun j less inside => ?_⟩
      have same : get32 old i = get32 new i := by rw [right, still, show BitVec.signExtend 32 (0 : BitVec 16) = 0 from rfl,
        add_zero]
      obtain ⟨k, rfl⟩ : ∃ k, j = i + k := ⟨j - i, by unfold Inside at inside; omega⟩
      exact get32_bytes_same _ _ _ _ same k (by unfold Inside at inside; omega)

theorem id_stage (reads : changes &&& NEW_I ≠ 0 ↔ flag = true) (d : BitVec 16) (right : get16 new 4 = get16 old 4 + d)
    (quiet : flag = true ↔ d ≠ 1) (coded : nums = if flag then encodez d else [])
    (patched : Patched old new A n ((4, 2) :: fields)) (bound : 5 < n) :
    ∃ A', restoreId changes b (A, front.length) = (A', (front ++ nums).length)
      ∧ Patched old new A' n fields := by
  subst whole
  have here := patched_get16 4 patched List.mem_cons_self bound
  unfold restoreId
  cases flag with
  | true =>
      rw [if_pos (reads.mpr rfl), coded, if_pos rfl]
      obtain ⟨value, stop⟩ := encodez_read front rest d
      dsimp only
      rw [value, stop]
      exact ⟨_, rfl, patched_put16 old new A n 4 fields _ patched bound (by rw [here, right])⟩
  | false =>
      have next : d = 1 := not_not.mp fun moved => Bool.false_ne_true (quiet.mpr moved)
      rw [if_neg fun set => Bool.false_ne_true (reads.mp set), coded, if_neg Bool.false_ne_true, List.append_nil]
      exact ⟨_, rfl, patched_put16 old new A n 4 fields _ patched bound (by rw [here, right, next])⟩

omit whole in
theorem push_urgent (x : Byte) (t : Nat) (bound : t + 13 < A.length) :
    put8 (put8 A (t + 13) x) (t + 13) (get8 (put8 A (t + 13) x) (t + 13) ||| TCPF_URG) = put8 A (t + 13) (x ||| TCPF_URG)
      ∧ put8 (put8 A (t + 13) x) (t + 13) (get8 (put8 A (t + 13) x) (t + 13) &&& ~~~TCPF_URG)
        = put8 A (t + 13) (x &&& ~~~TCPF_URG) := by
  rw [get8_put8_here _ _ _ bound]
  unfold put8
  rw [List.set_set, List.set_set]
  exact ⟨rfl, rfl⟩

omit whole in
theorem flags_cases (x : Byte) (plain : x &&& 0xd7 = 0x10) : x = 0x10 ∨ x = 0x18 ∨ x = 0x30 ∨ x = 0x38 := by
  revert x
  decide

omit whole in
-- Only the push and the urgent bit of the flags of a compressible packet can change.
theorem flags_restored (x y : Byte) (plain : x &&& 0xd7 = 0x10) (plain' : y &&& 0xd7 = 0x10) :
    (if y &&& TCPF_URG ≠ 0 then (if y &&& TCPF_PSH ≠ 0 then x ||| TCPF_PSH else x &&& ~~~TCPF_PSH) ||| TCPF_URG
      else (if y &&& TCPF_PSH ≠ 0 then x ||| TCPF_PSH else x &&& ~~~TCPF_PSH) &&& ~~~TCPF_URG) = y
      ∧ ((x &&& TCPF_URG ≠ 0 ↔ y &&& TCPF_URG ≠ 0) →
        (if y &&& TCPF_PSH ≠ 0 then x ||| TCPF_PSH else x &&& ~~~TCPF_PSH) = y) := by
  obtain rfl | rfl | rfl | rfl := flags_cases x plain <;> obtain rfl | rfl | rfl | rfl := flags_cases y plain' <;> decide

variable (t : Nat) (urg push : Bool)

-- The push bit, and the urgent bit with the urgent pointer.
theorem urgent_stage (reads : changes &&& NEW_U ≠ 0 ↔ urg = true) (pushes : changes &&& TCP_PUSH_BIT ≠ 0 ↔ push = true)
    (plain : get8 old (t + 13) &&& 0xd7 = 0x10) (plain' : get8 new (t + 13) &&& 0xd7 = 0x10)
    (isUrg : urg = true ↔ get8 new (t + 13) &&& TCPF_URG ≠ 0) (isPush : push = true ↔ get8 new (t + 13) &&& TCPF_PSH ≠ 0)
    (quiet : urg = false → get16 new (t + 18) = get16 old (t + 18))
      (coded : nums = if urg then encodez (get16 new (t + 18)) else [])
    (patched : Patched old new A n ((t + 13, 1) :: (t + 18, 2) :: fields)) (bound : t + 19 < n) :
    ∃ A', restoreUrgent changes t b (restorePush changes t A, front.length) = (A', (front ++ nums).length)
      ∧ Patched old new A' n fields := by
  subst whole
  have here := patched_get8 (t + 13) patched List.mem_cons_self (by omega)
  have inside : t + 13 < A.length := (show t + 13 < n by omega).trans_le patched.length
  have value := (flags_restored _ _ plain plain').1
  unfold restoreUrgent restorePush
  rw [here]
  dsimp only
  rw [(push_urgent A _ t inside).1, (push_urgent A _ t inside).2]
  have pushed : changes &&& TCP_PUSH_BIT ≠ 0 ↔ get8 new (t + 13) &&& TCPF_PSH ≠ 0 := pushes.trans isPush
  rw [if_congr pushed rfl rfl]
  cases urg with
  | true =>
      rw [if_pos (isUrg.mp rfl)] at value
      rw [if_pos (reads.mpr rfl), value, coded, if_pos rfl]
      obtain ⟨read, stop⟩ := encodez_read front rest (get16 new (t + 18))
      rw [read, stop]
      have flagged := patched_put8 old new A n (t + 13) _ _ patched (by omega) rfl
      exact ⟨_, rfl, patched_put16 old new _ n (t + 18) fields _ flagged (by omega) rfl⟩
  | false =>
      rw [if_neg fun set => Bool.false_ne_true (isUrg.mpr set)] at value
      rw [if_neg fun set => Bool.false_ne_true (reads.mp set), value, coded, if_neg Bool.false_ne_true, List.append_nil]
      have flagged := patched_put8 old new A n (t + 13) _ _ patched (by omega) rfl
      refine ⟨_, rfl, patched_same old new _ n (t + 18) fields 2 flagged fun j less inside => ?_⟩
      have same := get16_bytes _ _ _ _ (quiet rfl).symm
      obtain rfl | rfl : j = t + 18 ∨ j = t + 18 + 1 := by unfold Inside at inside; omega
      · exact same.1
      · exact same.2

end Stages

-- What the sender puts together of the numbers, flag by flag.
structure Numbers (p h : Buffer) (c : Changes) (u w a s : Bool) : Prop where
  mask : c.1 = maskOf u w a s
  bytes : c.2 = (if u then encodez (tcphUrgptr p) else []) ++ (if w then encode (tcphWindow p - tcphWindow h) else [])
    ++ (if a then encode ((tcphAck p - tcphAck h).setWidth 16) else []) ++
      (if s then encode ((tcphSeq p - tcphSeq h).setWidth 16) else [])
  urgent : u = true ↔ tcphFlags p &&& TCPF_URG ≠ 0
  quiet : u = false → tcphUrgptr p = tcphUrgptr h
  window : w = true ↔ tcphWindow p - tcphWindow h ≠ 0
  ack : a = true ↔ (tcphAck p - tcphAck h).setWidth 16 ≠ 0
  seq : s = true ↔ (tcphSeq p - tcphSeq h).setWidth 16 ≠ 0
  nearAck : (tcphAck p - tcphAck h).toNat ≤ 0xffff
  nearSeq : (tcphSeq p - tcphSeq h).toNat ≤ 0xffff

theorem narrow_zero (d : BitVec 32) (near : d.toNat ≤ 0xffff) : d.setWidth 16 = 0 ↔ d = 0 := by
  constructor
  · intro zero
    apply BitVec.eq_of_toNat_eq
    have value := congrArg BitVec.toNat zero
    simp at value
    simp
    omega
  · rintro rfl
    rfl

theorem code_long_cases (bit : Byte) (d : BitVec 32) (c : Changes) (coded : codeLong bit d = some c) :
    d.toNat ≤ 0xffff ∧ ∃ f : Bool, (f = true ↔ d.setWidth 16 ≠ 0) ∧ c =
      (if f then bit else 0, if f then encode (d.setWidth 16) else []) := by
  unfold codeLong at coded
  by_cases zero : d = 0
  · rw [if_pos zero] at coded
    obtain rfl := Option.some.inj coded
    refine ⟨by rw [zero]; decide, false, ?_, rfl⟩
    rw [zero]
    decide
  · rw [if_neg zero] at coded
    by_cases far : d.toNat > 0xffff
    · rw [if_pos far] at coded
      cases coded
    · rw [if_neg far] at coded
      obtain rfl := Option.some.inj coded
      have near := Nat.le_of_not_lt far
      exact ⟨near, true, iff_of_true rfl fun none => zero ((narrow_zero d near).mp none), rfl⟩

theorem code_numbers_flags (p h : Buffer) (c : Changes) (coded : codeNumbers p h = some c) : ∃ u w a s, Numbers p h c u w a s := by
  unfold codeNumbers at coded
  split at coded
  · rename_i u us a as s ss urgent ack seq
    obtain ⟨nearAck, fa, isAck, ackCode⟩ := code_long_cases NEW_A _ _ ack
    obtain ⟨nearSeq, fs, isSeq, seqCode⟩ := code_long_cases NEW_S _ _ seq
    obtain ⟨rfl, rfl⟩ := Prod.mk.inj ackCode
    obtain ⟨rfl, rfl⟩ := Prod.mk.inj seqCode
    obtain rfl := Option.some.inj coded
    obtain ⟨fu, isUrg, same, still⟩ : ∃ fu : Bool, (fu = true ↔ tcphFlags p &&& TCPF_URG ≠ 0)
        ∧ (u, us) = (if fu then NEW_U else 0, if fu then encodez (tcphUrgptr p) else [])
        ∧ (fu = false → tcphUrgptr p = tcphUrgptr h) := by
      unfold codeUrgent at urgent
      by_cases flagged : tcphFlags p &&& TCPF_URG ≠ 0
      · rw [if_pos flagged] at urgent
        exact ⟨true, iff_of_true rfl flagged, (Option.some.inj urgent).symm, fun none => absurd none (by decide)⟩
      · rw [if_neg flagged] at urgent
        by_cases moved : tcphUrgptr p ≠ tcphUrgptr h
        · rw [if_pos moved] at urgent
          cases urgent
        · rw [if_neg moved] at urgent
          exact ⟨false, iff_of_false (by decide) flagged, (Option.some.inj urgent).symm, fun _ => not_not.mp moved⟩
    obtain ⟨rfl, rfl⟩ := Prod.mk.inj same
    obtain ⟨fw, isWindow, wide⟩ : ∃ fw : Bool, (fw = true ↔ tcphWindow p - tcphWindow h ≠ 0)
        ∧ codeWindow p h = (if fw then NEW_W else 0, if fw then encode (tcphWindow p - tcphWindow h) else []) := by
      unfold codeWindow
      by_cases moved : tcphWindow p - tcphWindow h ≠ 0
      · exact ⟨true, iff_of_true rfl moved, if_pos moved⟩
      · exact ⟨false, iff_of_false (by decide) moved, if_neg moved⟩
    refine ⟨fu, fw, fa, fs, ?_, ?_, isUrg, still, isWindow, isAck, isSeq, nearAck, nearSeq⟩
    · rw [wide]
      rfl
    · rw [wide]
  · cases coded

theorem mask_echo : ∀ u w a s : Bool, maskOf u w a s = NEW_S ||| NEW_A → u = false ∧ w = false := by
  decide

theorem mask_seq : ∀ u w a s : Bool, maskOf u w a s = NEW_S → u = false ∧ w = false ∧ a = false := by
  decide

-- The three ways of the switch, apart from an uncompressed packet.
theorem code_special_cases (p h : Buffer) (c c1 : Changes) (u w a s : Bool) (numbers : Numbers p h c u w a s)
    (coded : codeSpecial p h c = some c1) :
    (c1 = c ∧ c.1 ≠ SPECIAL_I ∧ c.1 ≠ SPECIAL_D)
      ∨ (c1 = (SPECIAL_I, []) ∧ u = false ∧ w = false ∧ tcphAck p - tcphAck h = lastData p h ∧ tcphSeq p - tcphSeq h = lastData p h)
      ∨ (c1 = (SPECIAL_D, []) ∧ u = false ∧ w = false ∧ a = false ∧ tcphSeq p - tcphSeq h = lastData p h) := by
  have bits := numbers.mask
  unfold codeSpecial at coded
  by_cases zero : c.1 = 0
  · rw [if_pos zero] at coded
    split at coded
    · obtain rfl := Option.some.inj coded
      rw [zero]
      exact Or.inl ⟨rfl, by decide, by decide⟩
    · cases coded
  rw [if_neg zero] at coded
  by_cases taken : c.1 = SPECIAL_I ∨ c.1 = SPECIAL_D
  · rw [if_pos taken] at coded
    cases coded
  rw [if_neg taken] at coded
  have plain := not_or.mp taken
  by_cases both : c.1 = NEW_S ||| NEW_A
  · rw [if_pos both] at coded
    by_cases echo : tcphSeq p - tcphSeq h = tcphAck p - tcphAck h ∧ tcphSeq p - tcphSeq h = lastData p h
    · rw [if_pos echo] at coded
      have flags : u = false ∧ w = false := by
        rw [bits] at both
        exact mask_echo u w a s both
      exact Or.inr (Or.inl ⟨(Option.some.inj coded).symm, flags.1, flags.2, echo.1.symm.trans echo.2, echo.2⟩)
    · rw [if_neg echo] at coded
      exact Or.inl ⟨(Option.some.inj coded).symm, plain⟩
  rw [if_neg both] at coded
  by_cases seq : c.1 = NEW_S
  · rw [if_pos seq] at coded
    by_cases transfer : tcphSeq p - tcphSeq h = lastData p h
    · rw [if_pos transfer] at coded
      have flags : u = false ∧ w = false ∧ a = false := by
        rw [bits] at seq
        exact mask_seq u w a s seq
      exact Or.inr (Or.inr ⟨(Option.some.inj coded).symm, flags.1, flags.2.1, flags.2.2, transfer⟩)
    · rw [if_neg transfer] at coded
      exact Or.inl ⟨(Option.some.inj coded).symm, plain⟩
  · rw [if_neg seq] at coded
    exact Or.inl ⟨(Option.some.inj coded).symm, plain⟩

theorem code_id_flag (p h : Buffer) (c : Changes) : ∃ i : Bool, (i = true ↔ iphId p - iphId h ≠ 1)
    ∧ codeId p h c = (c.1 ||| (if i then NEW_I else 0), c.2 ++ if i then encodez (iphId p - iphId h) else []) := by
  unfold codeId
  by_cases moved : iphId p - iphId h ≠ 1
  · exact ⟨true, iff_of_true rfl moved, if_pos moved⟩
  · refine ⟨false, iff_of_false (by decide) moved, ?_⟩
    rw [if_neg moved, if_neg Bool.false_ne_true, if_neg Bool.false_ne_true, show c.1 ||| (0 : Byte) = c.1 from BitVec.or_zero,
      List.append_nil]

theorem code_push_flag (p : Buffer) (c : Changes) : ∃ push : Bool, (push = true ↔ tcphFlags p &&& TCPF_PSH ≠ 0)
    ∧ codePush p c = (c.1 ||| (if push then TCP_PUSH_BIT else 0), c.2) := by
  unfold codePush
  by_cases pushed : tcphFlags p &&& TCPF_PSH ≠ 0
  · exact ⟨true, iff_of_true rfl pushed, if_pos pushed⟩
  · refine ⟨false, iff_of_false (by decide) pushed, ?_⟩
    rw [if_neg pushed, if_neg Bool.false_ne_true, show c.1 ||| (0 : Byte) = c.1 from BitVec.or_zero]

theorem code_header_parts (p h : Buffer) (c : Changes) (coded : codeHeader p h = some c) :
    sameShape p h = true ∧ ∃ c0 c1 u w a s, Numbers p h c0 u w a s ∧ codeSpecial p h c0 = some c1
      ∧ ∃ i push : Bool, (i = true ↔ iphId p - iphId h ≠ 1) ∧ (push = true ↔ tcphFlags p &&& TCPF_PSH ≠ 0)
        ∧ c.1 = c1.1 ||| (if i then NEW_I else 0) ||| (if push then TCP_PUSH_BIT else 0)
        ∧ c.2 = c1.2 ++ if i then encodez (iphId p - iphId h) else [] := by
  unfold codeHeader at coded
  by_cases shape : sameShape p h = true
  · rw [if_pos shape] at coded
    cases numbers : codeNumbers p h with
    | none =>
        rw [numbers] at coded
        cases coded
    | some c0 =>
        rw [numbers] at coded
        obtain ⟨c1, special, rfl⟩ := Option.map_eq_some_iff.mp coded
        obtain ⟨u, w, a, s, flags⟩ := code_numbers_flags p h c0 numbers
        obtain ⟨i, moved, ids⟩ := code_id_flag p h c1
        obtain ⟨push, pushed, whole⟩ := code_push_flag p (codeId p h c1)
        rw [whole, ids]
        exact ⟨shape, c0, c1, u, w, a, s, flags, special, i, push, moved, pushed, rfl, rfl⟩
  · rw [if_neg shape] at coded
    cases coded

-- The two bits of the first octet that the change mask does not use are clear.
theorem code_header_low (p h : Buffer) (c : Changes) (coded : codeHeader p h = some c) : c.1 &&& 0x3f = c.1 := by
  obtain ⟨-, c0, c1, u, w, a, s, numbers, special, i, push, -, -, code, -⟩ := code_header_parts p h c coded
  have full : ∃ u w a s, c1.1 = maskOf u w a s := by
    obtain ⟨rfl, -⟩ | ⟨rfl, -⟩ | ⟨rfl, -⟩ := code_special_cases p h c0 c1 u w a s numbers special
    · exact ⟨u, w, a, s, numbers.mask⟩
    · exact ⟨true, true, false, true, special_i⟩
    · exact ⟨true, true, true, true, special_d⟩
  obtain ⟨u, w, a, s, mask⟩ := full
  rw [code, mask]
  exact mask_low u w a s i push

-- A header as TCP packets of a connection have it: nothing in the reserved bits, and an urgent pointer just where it is valid.
structure Regular (p : Buffer) : Prop where
  ihl : 5 ≤ iphHdrlen p
  doff : 5 ≤ tcphHdrlen p
  flags : tcphFlags p &&& 0xd7 = 0x10
  reserved : get8 p (tcpAt p + 12) &&& 0x0f = 0
  urgent : tcphFlags p &&& TCPF_URG ≠ 0 ↔ tcphUrgptr p ≠ 0

-- What may change from one packet of a connection to the next, in the order in which it is restored. The checksum of the IP
-- header is the last.
def changing (t : Nat) : List Field :=
  [(t + 16, 2), (t + 13, 1), (t + 18, 2), (t + 14, 2), (t + 8, 4), (t + 4, 4), (4, 2), (2, 2), (10, 2)]

theorem changing_apart (t : Nat) (behind : 20 ≤ t) : (changing t).Pairwise Apart := by
  unfold changing Apart Inside
  simp only [List.pairwise_cons, List.mem_cons, List.not_mem_nil, or_false, forall_eq_or_imp, forall_eq, List.Pairwise.nil,
    and_true, IsEmpty.forall_iff, implies_true]
  and_intros <;> intro i <;> omega

theorem nibbles_same (x y : Byte) (low : x &&& 0x0f = 0) (low' : y &&& 0x0f = 0) (high : x.toNat / 16 = y.toNat / 16) : x = y := by
  have part : ∀ z : Byte, z &&& 0x0f = 0 → z.toNat % 16 = 0 := by decide
  have first := part x low
  have second := part y low'
  exact BitVec.eq_of_toNat_eq (by omega)

theorem copy_bytes_same (p h : Buffer) (start n i : Nat) (same : copyBytes p start n = copyBytes h start n) (from' : start ≤ i)
    (inside : i < start + n) : get8 p i = get8 h i := by
  obtain ⟨k, rfl⟩ := Nat.exists_eq_add_of_le from'
  have here := congrArg (fun l => get8 l k) same
  rwa [get8_copy_bytes _ _ _ _ (by omega), get8_copy_bytes _ _ _ _ (by omega)] at here

theorem hdr_length_eq (p : Buffer) : hdrLength p = tcpAt p + 4 * tcphHdrlen p := by
  unfold hdrLength tcpAt
  omega

-- The rest is the same in all packets of one shape.
theorem shape_same (p h : Buffer) (conn : connOf p = connOf h) (shape : sameShape p h = true) (regular : Regular p)
    (regular' : Regular h) : tcpAt h = tcpAt p ∧ hdrLength h = hdrLength p
      ∧ ∀ i < hdrLength p, (∀ f ∈ changing (tcpAt p), ¬ Inside f i) → get8 h i = get8 p i := by
  unfold sameShape at shape
  simp only [Bool.and_eq_true, Bool.or_eq_true, decide_eq_true_eq] at shape
  obtain ⟨⟨⟨⟨⟨first, frag⟩, ttl⟩, doff⟩, opts⟩, opts'⟩ := shape
  have zero := get16_bytes p h 0 0 first
  have place : tcpAt h = tcpAt p := by
    unfold tcpAt iphHdrlen
    rw [zero.1]
  have offset : get8 p (tcpAt p + 12) = get8 h (tcpAt p + 12) :=
    nibbles_same _ _ regular.reserved (place ▸ regular'.reserved) doff
  have size : hdrLength h = hdrLength p := by
    rw [hdr_length_eq, hdr_length_eq, place]
    unfold tcphHdrlen
    rw [place, offset]
  obtain ⟨saddr, addresses⟩ := Prod.mk.inj conn
  obtain ⟨daddr, ports⟩ := Prod.mk.inj addresses
  rw [place] at ports
  have words := get16_bytes p h 6 6 frag
  have bytes := get16_bytes p h 8 8 ttl
  refine ⟨place, size, fun i less outside => ?_⟩
  have low := regular.ihl
  have whole := hdr_length_eq p
  have begins : tcpAt p = 4 * iphHdrlen p := rfl
  simp only [changing, List.mem_cons, List.not_mem_nil, or_false, forall_eq_or_imp, forall_eq, Inside, not_and] at outside
  by_cases option : 20 ≤ i ∧ i < tcpAt p
  · refine (copy_bytes_same p h 20 (tcpAt p - 20) i ?_ option.1 (by omega)).symm
    exact opts.resolve_left (by omega)
  by_cases option' : tcpAt p + 20 ≤ i
  · refine (copy_bytes_same p h (tcpAt p + 20) (hdrLength p - (tcpAt p + 20)) i ?_ option' (by omega)).symm
    exact opts'.resolve_left (by omega)
  by_cases port : tcpAt p ≤ i ∧ i < tcpAt p + 4
  · obtain ⟨k, rfl⟩ := Nat.exists_eq_add_of_le port.1
    exact (get32_bytes_same _ _ _ _ ports k (by omega)).symm
  by_cases address : 12 ≤ i ∧ i < 16
  · obtain ⟨k, rfl⟩ := Nat.exists_eq_add_of_le address.1
    exact (get32_bytes_same _ _ _ _ saddr k (by omega)).symm
  by_cases address' : 16 ≤ i ∧ i < 20
  · obtain ⟨k, rfl⟩ := Nat.exists_eq_add_of_le address'.1
    exact (get32_bytes_same _ _ _ _ daddr k (by omega)).symm
  obtain rfl | rfl | rfl | rfl | rfl | rfl | rfl : i = 0 ∨ i = 1 ∨ i = 6 ∨ i = 7 ∨ i = 8 ∨ i = 9 ∨ i = tcpAt p + 12 := by omega
  · exact zero.1.symm
  · exact zero.2.symm
  · exact words.1.symm
  · exact words.2.symm
  · exact bytes.1.symm
  · exact bytes.2.symm
  · exact offset.symm

section Lengths

variable (changes bit : Byte) (t hlen i pos : Nat) (hdr b : Buffer) (r : Restoring)

theorem restore_push_length : (restorePush changes t hdr).length = hdr.length := put8_length ..

theorem restore_urgent_length : (restoreUrgent changes t b r).1.length = r.1.length := by
  unfold restoreUrgent
  split
  · rw [put16_length, put8_length]
  · rw [put8_length]

theorem restore_short_length : (restoreShort bit changes i b r).1.length = r.1.length := by
  unfold restoreShort
  split
  · rw [put16_length]
  · rfl

theorem restore_long_length : (restoreLong bit changes i b r).1.length = r.1.length := by
  unfold restoreLong
  split
  · rw [put32_length]
  · rfl

theorem restore_special_length : (restoreSpecial changes t hlen b r).1.length = r.1.length := by
  unfold restoreSpecial restoreNumbers
  dsimp only
  split
  · rw [put32_length, put32_length]
  · split
    · rw [put32_length]
    · rw [restore_long_length, restore_long_length, restore_short_length, restore_urgent_length]

theorem restore_hdr_length : (restoreHdr changes hlen hdr b pos).1.length = hdr.length := by
  have id_length : ∀ r : Restoring, (restoreId changes b r).1.length = r.1.length := fun r => by
    unfold restoreId
    split <;> rw [put16_length]
  unfold restoreHdr
  rw [id_length, restore_special_length, restore_push_length, put16_length]

end Lengths

-- How far a number gets: a long one is taken for a signed one when it is added to 32 bits.
def carried (c : Changes) (d : BitVec 32) : BitVec 32 :=
  if c.1 &&& SPECIALS_MASK = SPECIAL_I ∨ c.1 &&& SPECIALS_MASK = SPECIAL_D then d else (d.setWidth 16).signExtend 32

-- The header that the receiver makes of p: the sequence numbers may be others.
structure Meant (p h : Buffer) (c : Changes) (new : Buffer) : Prop where
  same : ∀ i < hdrLength p, i < tcpAt p + 4 ∨ tcpAt p + 12 ≤ i → get8 new i = get8 p i
  ack : get32 new (tcpAt p + 8) = tcphAck h + carried c (tcphAck p - tcphAck h)
  seq : get32 new (tcpAt p + 4) = tcphSeq h + carried c (tcphSeq p - tcphSeq h)

-- The header of the last packet as the receiver has it.
structure Copy (h hdr : Buffer) : Prop where
  length : hdr.length = MAX_HDR
  fits : hdrLength h ≤ MAX_HDR
  same : ∀ i < hdrLength h, i ≠ 10 → i ≠ 11 → get8 hdr i = get8 h i

section Restored

variable {p h hdr new : Buffer} {c : Changes} (regular : Regular p) (regular' : Regular h) (conn : connOf p = connOf h)
  (shape : sameShape p h = true) (copy : Copy h hdr) (meant : Meant p h c new)

include regular

theorem tcp_inside : 20 ≤ tcpAt p ∧ tcpAt p + 20 ≤ hdrLength p := by
  have low := regular.ihl
  have high := regular.doff
  rw [hdr_length_eq]
  unfold tcpAt
  omega

include regular' conn shape copy

theorem copy_get16 (i : Nat) (inside : i + 1 < hdrLength p) (other : i + 1 < 10 ∨ 12 ≤ i) : get16 hdr i = get16 h i := by
  obtain ⟨-, size, -⟩ := shape_same p h conn shape regular regular'
  exact get16_congr _ _ _ _ (copy.same i (by omega) (by omega) (by omega)) (copy.same (i + 1) (by omega) (by omega) (by omega))

theorem copy_get32 (i : Nat) (inside : i + 3 < hdrLength p) (other : 12 ≤ i) : get32 hdr i = get32 h i := by
  obtain ⟨-, size, -⟩ := shape_same p h conn shape regular regular'
  exact get32_congr _ _ _ _ fun k less => copy.same (i + k) (by omega) (by omega) (by omega)

include meant

theorem patched_begin : Patched hdr new hdr (hdrLength p) (changing (tcpAt p)) := by
  obtain ⟨-, size, same⟩ := shape_same p h conn shape regular regular'
  have fits := copy.fits
  refine ⟨?_, changing_apart _ (tcp_inside regular).1, fun _ _ _ _ _ => rfl, fun i less outside => ?_⟩
  · rw [copy.length, ← size]
    exact fits
  · have others : i ≠ 10 ∧ i ≠ 11 ∧ (i < tcpAt p + 4 ∨ tcpAt p + 12 ≤ i) := by
      simp only [changing, List.mem_cons, List.not_mem_nil, or_false, forall_eq_or_imp, forall_eq, Inside, not_and] at outside
      omega
    rw [copy.same i (size ▸ less) others.1 others.2.1, same i less outside, meant.same i less others.2.2]

omit regular regular' conn shape copy in
theorem meant_get16 (i : Nat) (inside : i + 1 < hdrLength p) (other : i + 1 < tcpAt p + 4 ∨ tcpAt p + 12 ≤ i) :
    get16 new i = get16 p i :=
  get16_congr _ _ _ _ (meant.same i (by omega) (by omega)) (meant.same (i + 1) (by omega) (by omega))

theorem flags_plain : get8 hdr (tcpAt p + 13) = tcphFlags h ∧ get8 new (tcpAt p + 13) = tcphFlags p := by
  obtain ⟨place, size, -⟩ := shape_same p h conn shape regular regular'
  have inside := tcp_inside regular
  unfold tcphFlags
  rw [place]
  exact ⟨copy.same _ (by omega) (by omega) (by omega), meant.same _ (by omega) (by omega)⟩

-- All but the two special cases.
theorem numbers_restored (c0 : Changes) (u w a s i push : Bool) (changes : Byte) (A b front rest : Buffer) (fields : List Field)
    (numbers : Numbers p h c0 u w a s) (reads : Reads changes u w a s i push)
    (pushes : push = true ↔ tcphFlags p &&& TCPF_PSH ≠ 0)
    (ack : get32 new (tcpAt p + 8) = tcphAck h + ((tcphAck p - tcphAck h).setWidth 16).signExtend 32)
    (seq : get32 new (tcpAt p + 4) = tcphSeq h + ((tcphSeq p - tcphSeq h).setWidth 16).signExtend 32)
    (patched : Patched hdr new A (hdrLength p) ((tcpAt p + 13, 1) :: (tcpAt p + 18, 2) :: (tcpAt p + 14, 2) :: (tcpAt p + 8, 4)
      :: (tcpAt p + 4, 4) :: fields)) (whole : b = front ++ c0.2 ++ rest) :
    ∃ A', restoreNumbers changes (tcpAt p) b (restorePush changes (tcpAt p) A, front.length) = (A', (front ++ c0.2).length)
      ∧ Patched hdr new A' (hdrLength p) fields := by
  obtain ⟨place, -, -⟩ := shape_same p h conn shape regular regular'
  have inside := tcp_inside regular
  obtain ⟨oldFlags, newFlags⟩ := flags_plain regular regular' conn shape copy meant
  have urgent := meant_get16 meant (tcpAt p + 18) (by omega) (Or.inr (by omega))
  have urgent' := copy_get16 regular regular' conn shape copy (tcpAt p + 18) (by omega) (Or.inr (by omega))
  have window := meant_get16 meant (tcpAt p + 14) (by omega) (Or.inr (by omega))
  have window' := copy_get16 regular regular' conn shape copy (tcpAt p + 14) (by omega) (Or.inr (by omega))
  have ack' := copy_get32 regular regular' conn shape copy (tcpAt p + 8) (by omega) (by omega)
  have seq' := copy_get32 regular regular' conn shape copy (tcpAt p + 4) (by omega) (by omega)
  have hUrgent : tcphUrgptr h = get16 h (tcpAt p + 18) := by rw [← place]; rfl
  have hWindow : tcphWindow h = get16 h (tcpAt p + 14) := by rw [← place]; rfl
  have hAck : tcphAck h = get32 h (tcpAt p + 8) := by rw [← place]; rfl
  have hSeq : tcphSeq h = get32 h (tcpAt p + 4) := by rw [← place]; rfl
  rw [numbers.bytes] at whole ⊢
  generalize us : (if u then encodez (tcphUrgptr p) else []) = first at whole ⊢
  generalize ws : (if w then encode (tcphWindow p - tcphWindow h) else []) = second at whole ⊢
  generalize as : (if a then encode ((tcphAck p - tcphAck h).setWidth 16) else []) = third at whole ⊢
  generalize ss : (if s then encode ((tcphSeq p - tcphSeq h).setWidth 16) else []) = fourth at whole ⊢
  unfold restoreNumbers
  obtain ⟨A1, run1, patched1⟩ := urgent_stage hdr new A (hdrLength p) _ changes b front (second ++ third ++ fourth ++ rest) first
    (by rw [whole]; simp only [List.append_assoc]) (tcpAt p) u push reads.urgent reads.push
    (by rw [oldFlags]; exact regular'.flags) (by rw [newFlags]; exact regular.flags)
    (by rw [newFlags]; exact numbers.urgent) (by rw [newFlags]; exact pushes)
    (fun none => by rw [urgent, urgent', ← hUrgent]; exact numbers.quiet none) (by rw [urgent]; exact us.symm) patched (by omega)
  obtain ⟨A2, run2, patched2⟩ := short_stage hdr new A1 (hdrLength p) (tcpAt p + 14) _ NEW_W changes w b (front ++ first)
    (third ++ fourth ++ rest) second (by rw [whole]; simp only [List.append_assoc]) reads.window (tcphWindow p - tcphWindow h)
    (by rw [window, window', ← hWindow]; exact (add_sub_cancel _ _).symm) numbers.window ws.symm patched1 (by omega)
  obtain ⟨A3, run3, patched3⟩ := long_stage hdr new A2 (hdrLength p) (tcpAt p + 8) _ NEW_A changes a b (front ++ first ++ second)
    (fourth ++ rest) third (by rw [whole]; simp only [List.append_assoc]) reads.ack ((tcphAck p - tcphAck h).setWidth 16)
    (by rw [ack, ack', ← hAck]) numbers.ack as.symm patched2 (by omega)
  obtain ⟨A4, run4, patched4⟩ := long_stage hdr new A3 (hdrLength p) (tcpAt p + 4) _ NEW_S changes s b
    (front ++ first ++ second ++ third) rest fourth (by rw [whole]; simp only [List.append_assoc]) reads.seq
    ((tcphSeq p - tcphSeq h).setWidth 16) (by rw [seq, seq', ← hSeq]) numbers.seq ss.symm patched3 (by omega)
  refine ⟨A4, ?_, patched4⟩
  rw [run1, run2, run3, run4]
  simp only [List.append_assoc]

-- The two special cases: the urgent bit does not change, and the numbers are made up.
theorem pushed_restored (changes : Byte) (push : Bool) (A : Buffer) (fields : List Field)
    (pushed : changes &&& TCP_PUSH_BIT ≠ 0 ↔ push = true) (pushes : push = true ↔ tcphFlags p &&& TCPF_PSH ≠ 0)
    (urgent : tcphUrgptr p = tcphUrgptr h) (window : tcphWindow p - tcphWindow h = 0)
    (patched : Patched hdr new A (hdrLength p) ((tcpAt p + 13, 1) :: (tcpAt p + 18, 2) :: (tcpAt p + 14, 2) :: fields)) :
    Patched hdr new (restorePush changes (tcpAt p) A) (hdrLength p) fields := by
  obtain ⟨place, -, -⟩ := shape_same p h conn shape regular regular'
  have inside := tcp_inside regular
  obtain ⟨oldFlags, newFlags⟩ := flags_plain regular regular' conn shape copy meant
  have here := patched_get8 (tcpAt p + 13) patched List.mem_cons_self (by omega)
  have urg : tcphFlags h &&& TCPF_URG ≠ 0 ↔ tcphFlags p &&& TCPF_URG ≠ 0 :=
    regular'.urgent.trans (by rw [← urgent]; exact regular.urgent.symm)
  have value := (flags_restored (tcphFlags h) (tcphFlags p) regular'.flags regular.flags).2 urg
  unfold restorePush
  rw [here, oldFlags, if_congr (pushed.trans pushes) rfl rfl, value]
  have flagged := patched_put8 hdr new A _ (tcpAt p + 13) _ _ patched (by omega) newFlags.symm
  have same16 : ∀ i, i + 1 < hdrLength p → tcpAt p + 12 ≤ i → get16 h i = get16 p i → ∀ j < hdrLength p, Inside (i, 2) j →
      get8 hdr j = get8 new j := by
    intro i less behind equal j _ within
    have old := copy_get16 regular regular' conn shape copy i less (Or.inr (by omega))
    have bytes := get16_bytes hdr new i i (by rw [old, equal, meant_get16 meant i less (Or.inr behind)])
    obtain rfl | rfl : j = i ∨ j = i + 1 := by unfold Inside at within; omega
    · exact bytes.1
    · exact bytes.2
  have pointer := patched_same hdr new _ _ (tcpAt p + 18) _ 2 flagged (same16 (tcpAt p + 18) (by omega) (by omega) (by
    rw [show get16 h (tcpAt p + 18) = tcphUrgptr h by rw [← place]; rfl]
    exact urgent.symm))
  refine patched_same hdr new _ _ (tcpAt p + 14) _ 2 pointer (same16 (tcpAt p + 14) (by omega) (by omega) ?_)
  rw [show get16 h (tcpAt p + 14) = tcphWindow h by rw [← place]; rfl]
  exact (sub_eq_zero.mp window).symm

theorem special_restored (c0 c1 : Changes) (u w a s i push : Bool) (A b front rest : Buffer) (changes : Byte)
    (numbers : Numbers p h c0 u w a s) (special : codeSpecial p h c0 = some c1)
      (pushes : push = true ↔ tcphFlags p &&& TCPF_PSH ≠ 0)
    (code : c.1 = c1.1 ||| (if i then NEW_I else 0) ||| (if push then TCP_PUSH_BIT else 0)) (mask : changes &&& 0x3f = c.1)
    (patched : Patched hdr new A (hdrLength p) ((tcpAt p + 13, 1) :: (tcpAt p + 18, 2) :: (tcpAt p + 14, 2) :: (tcpAt p + 8, 4)
      :: (tcpAt p + 4, 4) :: [(4, 2), (2, 2), (10, 2)])) (whole : b = front ++ c1.2 ++ rest) :
    (changes &&& NEW_I ≠ 0 ↔ i = true)
      ∧ ∃ A', restoreSpecial changes (tcpAt p) (hdrLength p) b (restorePush changes (tcpAt p) A, front.length)
          = (A', (front ++ c1.2).length)
        ∧ Patched hdr new A' (hdrLength p) [(4, 2), (2, 2), (10, 2)] := by
  obtain ⟨place, size, -⟩ := shape_same p h conn shape regular regular'
  have inside := tcp_inside regular
  have ack' := copy_get32 regular regular' conn shape copy (tcpAt p + 8) (by omega) (by omega)
  have seq' := copy_get32 regular regular' conn shape copy (tcpAt p + 4) (by omega) (by omega)
  have length' := copy_get16 regular regular' conn shape copy 2 (by omega) (Or.inl (by decide))
  have hAck : tcphAck h = get32 h (tcpAt p + 8) := by rw [← place]; rfl
  have hSeq : tcphSeq h = get32 h (tcpAt p + 4) := by rw [← place]; rfl
  have ackRight := meant.ack
  have seqRight := meant.seq
  have data : (iphLength h).setWidth 32 - BitVec.ofNat 32 (hdrLength p) = lastData p h := rfl
  obtain ⟨rfl, plain⟩ | ⟨rfl, rfl, rfl, ack, seq⟩ | ⟨rfl, rfl, rfl, rfl, seq⟩ :=
    code_special_cases p h c0 c1 u w a s numbers special
  · have reads := reads_mask changes u w a s i push (by rw [mask, code, numbers.mask]; rfl)
    have full : c.1 = fullMask u w a s i push := by
      rw [code, numbers.mask]
      rfl
    have own := reads_mask c.1 u w a s i push (by rw [full]; exact mask_low ..)
    rw [numbers.mask, ← reads.special] at plain
    have notSpecial : ¬ (c.1 &&& SPECIALS_MASK = SPECIAL_I ∨ c.1 &&& SPECIALS_MASK = SPECIAL_D) := by
      rw [own.special, ← reads.special]
      exact not_or.mpr plain
    unfold carried at ackRight seqRight
    rw [if_neg notSpecial] at ackRight seqRight
    refine ⟨reads.id, ?_⟩
    unfold restoreSpecial
    dsimp only
    rw [if_neg plain.1, if_neg plain.2]
    exact numbers_restored regular regular' conn shape copy meant c1 u w a s i push changes A b front rest _ numbers reads pushes
      ackRight seqRight patched whole
  · have full : c.1 = fullMask true true false true i push := by
      rw [code, special_i]
      rfl
    have reads := reads_mask changes true true false true i push (mask.trans full)
    have own := reads_mask c.1 true true false true i push (by rw [full]; exact mask_low ..)
    have sent := own.special.trans special_i.symm
    have heard := reads.special.trans special_i.symm
    unfold carried at ackRight seqRight
    rw [if_pos (Or.inl sent)] at ackRight seqRight
    have still : tcphWindow p - tcphWindow h = 0 := not_not.mp fun moved => Bool.false_ne_true (numbers.window.mpr moved)
    have pushed := pushed_restored regular regular' conn shape copy meant changes push A _ reads.push pushes
      (numbers.quiet rfl) still
      patched
    refine ⟨reads.id, ?_⟩
    unfold restoreSpecial
    dsimp only
    rw [if_pos heard, patched_get16 2 pushed (by simp) (by omega), length', show get16 h 2 = iphLength h from rfl, data]
    have first := patched_put32 hdr new _ _ (tcpAt p + 8) _ (get32 (restorePush changes (tcpAt p) A) (tcpAt p + 8) + lastData p h)
      pushed (by omega)
      (by rw [patched_get32 (tcpAt p + 8) pushed (by simp) (by omega), ack', ← hAck, ackRight, ack])
    refine ⟨_, by rw [List.append_nil], patched_put32 hdr new _ _ (tcpAt p + 4) _ _ first (by omega) ?_⟩
    rw [patched_get32 (tcpAt p + 4) first (by simp) (by omega), seq', ← hSeq, seqRight, seq]
  · have full : c.1 = fullMask true true true true i push := by
      rw [code, special_d]
      rfl
    have reads := reads_mask changes true true true true i push (mask.trans full)
    have own := reads_mask c.1 true true true true i push (by rw [full]; exact mask_low ..)
    have sent := own.special.trans special_d.symm
    have heard := reads.special.trans special_d.symm
    unfold carried at ackRight seqRight
    rw [if_pos (Or.inr sent)] at ackRight seqRight
    have still : tcphWindow p - tcphWindow h = 0 := not_not.mp fun moved => Bool.false_ne_true (numbers.window.mpr moved)
    have none : tcphAck p - tcphAck h = 0 := (narrow_zero _ numbers.nearAck).mp
      (not_not.mp fun moved => Bool.false_ne_true (numbers.ack.mpr moved))
    have pushed := pushed_restored regular regular' conn shape copy meant changes push A _ reads.push pushes
      (numbers.quiet rfl) still
      patched
    have acked := patched_same hdr new _ _ (tcpAt p + 8) _ 4 pushed fun j _ within => by
      obtain ⟨k, rfl⟩ : ∃ k, j = tcpAt p + 8 + k := ⟨j - (tcpAt p + 8), by unfold Inside at within; omega⟩
      refine get32_bytes_same _ _ _ _ ?_ k (by unfold Inside at within; omega)
      rw [ack', ← hAck, ackRight, none, add_zero]
    refine ⟨reads.id, ?_⟩
    unfold restoreSpecial
    dsimp only
    rw [if_neg (by rw [heard]; decide), if_pos heard, patched_get16 2 acked (by simp) (by omega), length',
      show get16 h 2 = iphLength h from rfl, data]
    refine ⟨_, by rw [List.append_nil], patched_put32 hdr new _ _ (tcpAt p + 4) _ _ acked (by omega) ?_⟩
    rw [patched_get32 (tcpAt p + 4) acked (by simp) (by omega), seq', ← hSeq, seqRight, seq]

-- The header comes back, but for its length and its checksum.
theorem header_restored (front rest b : Buffer) (changes : Byte) (coded : codeHeader p h = some c) (mask : changes &&& 0x3f = c.1)
    (whole : b = front ++ [(tcphChksum p).extractLsb' 8 8, (tcphChksum p).extractLsb' 0 8] ++ c.2 ++ rest) :
    ∃ A, restoreHdr changes (hdrLength p) hdr b front.length
        = (A, (front ++ [(tcphChksum p).extractLsb' 8 8, (tcphChksum p).extractLsb' 0 8] ++ c.2).length)
      ∧ Patched hdr new A (hdrLength p) [(2, 2), (10, 2)] := by
  obtain ⟨place, size, -⟩ := shape_same p h conn shape regular regular'
  have inside := tcp_inside regular
  obtain ⟨-, c0, c1, u, w, a, s, numbers, special, i, push, moved, pushes, code, bytes⟩ := code_header_parts p h c coded
  have begun := patched_begin regular regular' conn shape copy meant
  have here : tcpAt hdr = tcpAt p := by
    rw [← place]
    unfold tcpAt iphHdrlen
    rw [copy.same 0 (by omega) (by decide) (by decide)]
  have sum : get16 b front.length = tcphChksum p := by
    rw [whole, List.append_assoc (front ++ _), List.append_assoc front, get16, ← Nat.add_zero front.length, get8_append_right,
      Nat.add_assoc, get8_append_right]
    exact bytes_join _
  have summed := patched_put16 hdr new hdr _ (tcpAt p + 16) _ _ begun (by omega)
    (sum.trans (meant_get16 meant (tcpAt p + 16) (by omega) (Or.inr (by omega))).symm)
  generalize head : [(tcphChksum p).extractLsb' 8 8, (tcphChksum p).extractLsb' 0 8] = two at whole
  have long : front.length + 2 = (front ++ two).length := by
    rw [← head, List.length_append]
    rfl
  obtain ⟨reads, A1, run1, patched1⟩ := special_restored regular regular' conn shape copy meant c0 c1 u w a s i push _ b
    (front ++ two) ((if i then encodez (iphId p - iphId h) else []) ++ rest) changes numbers special pushes code mask summed
    (by rw [whole, bytes]; simp only [List.append_assoc])
  have oldId := copy_get16 regular regular' conn shape copy 4 (by omega) (Or.inl (by decide))
  have newId := meant_get16 meant 4 (by omega) (Or.inl (by omega))
  obtain ⟨A2, run2, patched2⟩ := id_stage hdr new A1 (hdrLength p) _ changes i b (front ++ two ++ c1.2) rest _
    (by rw [whole, bytes]; simp only [List.append_assoc]) reads (iphId p - iphId h)
    (by rw [newId, oldId]; exact (add_sub_cancel (iphId h) (iphId p)).symm) moved rfl patched1 (by omega)
  refine ⟨A2, ?_, patched2⟩
  unfold restoreHdr
  dsimp only
  rw [here, long, run1, run2, bytes]
  simp only [List.append_assoc]

end Restored

end MagxNet.Sld.Slc
