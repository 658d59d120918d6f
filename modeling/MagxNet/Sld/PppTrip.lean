import MagxNet.Sld.RoundTrip

set_option autoImplicit false

namespace MagxNet.Sld.Ppp

open Bytes (Byte get8)

variable {σ : Type}

theorem low_ones (s : BitVec 16) : (s ^^^ ((~~~ s).extractLsb' 0 8).signExtend 16) &&& 0xff = 0xff := by
  ext i small
  simp only [BitVec.getElem_and, BitVec.getElem_xor, BitVec.getElem_signExtend, BitVec.getElem_extractLsb', BitVec.getLsbD_not]
  interval_cases i <;> simp [BitVec.getLsbD_eq_getElem]

theorem high_ones (s : BitVec 16) :
    ((s >>> 8 ^^^ 0x0f78) ^^^ ((~~~ s).extractLsb' 8 8).signExtend 16) &&& 0xff = 0x87 := by
  ext i small
  simp only [BitVec.getElem_and, BitVec.getElem_xor, BitVec.getElem_signExtend, BitVec.getElem_extractLsb', BitVec.getLsbD_not]
  interval_cases i <;> simp [BitVec.getLsbD_eq_getElem]

theorem high_rest (s : BitVec 16) : (s >>> 8 ^^^ 0x0f78) >>> 8 ^^^ 0xf0b7 = FCS_GOOD := by
  unfold FCS_GOOD
  ext i small
  interval_cases i <;> simp [BitVec.getLsbD_eq_getElem]

-- Whatever the bytes, their complemented check sequence takes the register to FCS_GOOD.
theorem fcs_good (bytes : List Byte) : pppFcs (withFcs bytes) = FCS_GOOD := by
  have first : fcsStep (pppFcs bytes) ((~~~ pppFcs bytes).extractLsb' 0 8) = pppFcs bytes >>> 8 ^^^ 0x0f78 := by
    rw [fcsStep, low_ones]
    rfl
  have second : fcsStep (pppFcs bytes >>> 8 ^^^ 0x0f78) ((~~~ pppFcs bytes).extractLsb' 8 8) = FCS_GOOD := by
    rw [fcsStep, high_ones]
    exact high_rest (pppFcs bytes)
  calc pppFcs (withFcs bytes)
      = fcsStep (fcsStep (pppFcs bytes) ((~~~ pppFcs bytes).extractLsb' 0 8)) ((~~~ pppFcs bytes).extractLsb' 8 8) := by
        simp [withFcs, pppFcs]
    _ = FCS_GOOD := by rw [first, second]

-- The low byte of the protocol number counts as negative from 0x80 on, and then the high byte is lost.
def Negative (p : Packet) : Prop := p.proto.getLsbD 7 = true

instance (p : Packet) : Decidable (Negative p) := inferInstanceAs (Decidable (_ = _))

theorem chars_proto_low (p : Packet) (low : ¬ Negative p) : charsProto p = p.proto := by
  unfold Negative at low
  unfold charsProto
  ext i small
  interval_cases i <;> simp_all [BitVec.getElem_signExtend, BitVec.getElem_extractLsb', BitVec.msb_eq_getLsbD_last,
    BitVec.getElem_or, BitVec.getElem_setWidth, BitVec.getLsbD_eq_getElem]

theorem chars_proto_high (p : Packet) (high : Negative p) : (charsProto p).extractLsb' 8 8 = 0xff := by
  unfold Negative at high
  unfold charsProto
  ext i small
  interval_cases i <;> simp_all [BitVec.getElem_signExtend, BitVec.getElem_extractLsb', BitVec.msb_eq_getLsbD_last,
    BitVec.getElem_or, BitVec.getElem_setWidth, BitVec.getLsbD_eq_getElem]

theorem chars_proto_byte (p : Packet) : (charsProto p).extractLsb' 0 8 = p.proto.extractLsb' 0 8 := by
  unfold charsProto
  ext i small
  interval_cases i <;> simp_all [BitVec.getElem_signExtend, BitVec.getElem_extractLsb', BitVec.getElem_or,
    BitVec.getElem_setWidth, BitVec.getLsbD_eq_getElem]

-- An even high byte and an odd low one, and some information; neither protocol number of VJ compression.
structure Legal (p : Packet) : Prop where
  high : p.proto.getLsbD 8 = false
  low : p.proto.getLsbD 0 = true
  info : p.info ≠ []
  compressed : p.proto ≠ PPPPROTO_COMP_TCP
  uncompressed : p.proto ≠ PPPPROTO_UNCOMP_TCP

-- The protocol and the information of a frame.
def body (t : PppOpt σ) (p : Packet) : List Byte :=
  (if ¬ t.protComp ∨ p.proto.extractLsb' 8 8 ≠ 0 then [p.proto.extractLsb' 8 8] else []) ++ p.proto.extractLsb' 0 8 :: p.info

theorem framed_body (t : PppOpt σ) (p : Packet) : framed t p = (if t.addrComp then [] else [ADDR, CTRL]) ++ body t p := by
  simp [framed, body]

-- Without its address field a frame must not start like one.
def Unlike (t : PppOpt σ) (p : Packet) : Prop := t.addrComp = true → get8 (body t p) 0 = ADDR → get8 (body t p) 1 ≠ CTRL

theorem strip_addr_framed (t : PppOpt σ) (p : Packet) (tail : List Byte) (some' : p.info ≠ []) (unlike : Unlike t p) :
    stripAddr (framed t p ++ tail) = body t p ++ tail := by
  rw [framed_body]
  unfold stripAddr
  by_cases comp : t.addrComp = true
  · have two : 1 < (body t p).length := by
      have := List.length_pos_iff.mpr some'
      unfold body
      rw [List.length_append, List.length_cons]
      omega
    have first : get8 (body t p ++ tail) 0 = get8 (body t p) 0 := List.getD_append _ _ _ _ (by omega)
    have second : get8 (body t p ++ tail) 1 = get8 (body t p) 1 := List.getD_append _ _ _ _ two
    rw [if_pos comp, List.nil_append, first, second, if_neg fun both => unlike comp both.1 both.2]
  · rw [if_neg comp]
    rfl

theorem low_proto (p : Packet) (none' : p.proto.extractLsb' 8 8 = 0) : (p.proto.extractLsb' 0 8).setWidth 16 = p.proto := by
  have both := Bytes.bytes_join p.proto
  rw [none'] at both
  have value := congrArg BitVec.toNat both
  rw [BitVec.toNat_append] at value
  apply BitVec.eq_of_toNat_eq
  rw [← value, BitVec.toNat_setWidth_of_le (by omega)]
  simp

theorem body_cases (t : PppOpt σ) (p : Packet) :
    body t p = p.proto.extractLsb' 8 8 :: p.proto.extractLsb' 0 8 :: p.info
      ∨ (p.proto.extractLsb' 8 8 = 0 ∧ body t p = p.proto.extractLsb' 0 8 :: p.info) := by
  unfold body
  split
  · exact Or.inl rfl
  · rename_i not'
    obtain ⟨-, zero⟩ := not_or.mp not'
    exact Or.inr ⟨not_not.mp zero, rfl⟩

theorem low_odd (p : Packet) (legal : Legal p) : (p.proto.extractLsb' 0 8).getLsbD 0 = true := by
  simpa using legal.low

theorem low_byte_top (p : Packet) : (p.proto.extractLsb' 0 8).getLsbD 7 = p.proto.getLsbD 7 := by
  simp

theorem high_even (p : Packet) (legal : Legal p) : (p.proto.extractLsb' 8 8).getLsbD 0 = false := by
  simpa using legal.high

theorem low_unlike (t : PppOpt σ) (p : Packet) (legal : Legal p) (low : ¬ Negative p) : Unlike t p := by
  have even := high_even p legal
  intro _ same
  exfalso
  rcases body_cases t p with both | ⟨-, one⟩
  · rw [both] at same
    have addr : p.proto.extractLsb' 8 8 = ADDR := same
    rw [addr] at even
    exact absurd even (by decide)
  · rw [one] at same
    have addr : p.proto.extractLsb' 0 8 = ADDR := same
    apply low
    have bit : (p.proto.extractLsb' 0 8).getLsbD 7 = true := by
      rw [addr]
      rfl
    exact (low_byte_top p).symm.trans bit

theorem strip_legal (t : PppOpt σ) (p : Packet) (tail : List Byte) (legal : Legal p) (unlike : Unlike t p) :
    stripProto (stripAddr (framed t p ++ tail)) = ⟨p.proto, p.info ++ tail⟩ := by
  have odd := low_odd p legal
  have even := high_even p legal
  rw [strip_addr_framed t p tail legal.info unlike]
  rcases body_cases t p with both | ⟨zero, one⟩
  · rw [both]
    unfold stripProto
    have first : get8 (p.proto.extractLsb' 8 8 :: p.proto.extractLsb' 0 8 :: p.info ++ tail) 0 = p.proto.extractLsb' 8 8 := rfl
    have second : get8 (p.proto.extractLsb' 8 8 :: p.proto.extractLsb' 0 8 :: p.info ++ tail) 1 = p.proto.extractLsb' 0 8 := rfl
    rw [first, second, even, if_neg (by decide), Bytes.bytes_join]
    rfl
  · rw [one]
    unfold stripProto
    have first : get8 (p.proto.extractLsb' 0 8 :: p.info ++ tail) 0 = p.proto.extractLsb' 0 8 := rfl
    rw [first, odd, if_pos rfl, low_proto p zero]
    rfl

-- The frame of such a packet starts with 0xff, which is taken for a compressed protocol number.
theorem strip_negative (t : PppOpt σ) (p : Packet) (tail : List Byte) (some' : p.info ≠ []) (high : Negative p) :
    stripProto (stripAddr (framed t ⟨charsProto p, p.info⟩ ++ tail)) = ⟨0xff, p.proto.extractLsb' 0 8 :: p.info ++ tail⟩ := by
  have top := chars_proto_high p high
  have bottom := chars_proto_byte p
  have notCtrl : p.proto.extractLsb' 0 8 ≠ CTRL := by
    intro same
    have bit : (p.proto.extractLsb' 0 8).getLsbD 7 = true := (low_byte_top p).trans high
    rw [same] at bit
    exact absurd bit (by decide)
  have whole : body t ⟨charsProto p, p.info⟩ = 0xff :: p.proto.extractLsb' 0 8 :: p.info := by
    rcases body_cases t ⟨charsProto p, p.info⟩ with both | ⟨zero, -⟩
    · rw [both]
      dsimp only
      rw [top, bottom]
    · dsimp only at zero
      rw [top] at zero
      exact absurd zero (by decide)
  rw [strip_addr_framed t ⟨charsProto p, p.info⟩ tail some' (by rw [Unlike, whole]; exact fun _ _ => notCtrl), whole]
  have first : get8 (0xff :: p.proto.extractLsb' 0 8 :: p.info ++ tail) 0 = 0xff := rfl
  unfold stripProto
  rw [first, if_pos (by decide)]
  rfl

-- VJ compression is neither on nor turned on by the other side.
structure NoVj (t : PppOpt σ) : Prop where
  compress : t.compress = false
  autocomp : t.autocomp = false

theorem build_no_vj (vj : Vj σ) (t : PppOpt σ) (p : Packet) (off : NoVj t) :
    pppBuildFrame vj t p = (t, withFcs (framed t ⟨charsProto p, p.info⟩)) := by
  unfold pppBuildFrame compressed
  rw [if_neg (by simp [off.compress])]

theorem uncompress_no_vj (vj : Vj σ) (t : PppOpt σ) (p : Packet) (off : NoVj t) : (uncompress vj t p).1 = t := by
  unfold uncompress
  dsimp only
  rw [off.compress, off.autocomp]
  split
  · rfl
  · split <;> rfl

theorem recv_frame_no_vj (vj : Vj σ) (t : PppOpt σ) (bytes : List Byte) (off : NoVj t) : (pppRecvFrame vj t bytes).1 = t := by
  unfold pppRecvFrame
  split
  · rfl
  · dsimp only
    split
    · rfl
    · have same := uncompress_no_vj vj t { stripProto (stripAddr bytes) with
        info := (stripProto (stripAddr bytes)).info.take ((stripProto (stripAddr bytes)).info.length - 2) } off
      split
      · rename_i t1 result
        rw [result] at same
        exact same
      · rename_i t1 p1 result
        rw [result] at same
        exact same

theorem ppp_still (vj : Vj σ) (t : PppOpt σ) (off : NoVj t) : Still (pppDriver vj) t :=
  ⟨fun p => congrArg Prod.fst (build_no_vj vj t p off), fun bytes => recv_frame_no_vj vj t bytes off⟩

theorem hand_on_same (t t' : PppOpt σ) (p : Packet) (same : SameOpt t t') : handOn t' p = handOn t p := by
  unfold handOn
  rw [same.up, same.ipDown]

-- The packet that a frame is taken for.
def heardAs (p : Packet) : Packet :=
  if Negative p then ⟨0xff, p.proto.extractLsb' 0 8 :: p.info⟩ else p

theorem strip_frame (t : PppOpt σ) (p : Packet) (tail : List Byte) (legal : Legal p) :
    stripProto (stripAddr (framed t ⟨charsProto p, p.info⟩ ++ tail)) = ⟨(heardAs p).proto, (heardAs p).info ++ tail⟩ := by
  unfold heardAs
  by_cases high : Negative p
  · rw [if_pos high]
    exact strip_negative t p tail legal.info high
  · rw [if_neg high, chars_proto_low p high]
    exact strip_legal t p tail legal (low_unlike t p legal high)

-- A frame that strips down to a packet is that packet.
theorem recv_stripped (vj : Vj σ) (t : PppOpt σ) (bytes : List Byte) (p : Packet) (long : bytes ≠ []) (some' : p.info ≠ [])
    (comp : p.proto ≠ PPPPROTO_COMP_TCP) (uncomp : p.proto ≠ PPPPROTO_UNCOMP_TCP)
    (stripped : ∀ tail, stripProto (stripAddr (bytes ++ tail)) = ⟨p.proto, p.info ++ tail⟩) :
    (pppRecvFrame vj t (withFcs bytes)).2 = handOn t p := by
  have good := fcs_good bytes
  have length := List.length_pos_iff.mpr some'
  have first := List.length_pos_iff.mpr long
  have three : ¬ (withFcs bytes).length < 3 := by
    simp [withFcs]
    omega
  unfold pppRecvFrame
  rw [if_neg (not_or.mpr ⟨three, not_not.mpr good⟩)]
  unfold withFcs
  dsimp only
  rw [stripped, if_neg (by simp; omega)]
  have cut : (p.info ++ [(~~~ pppFcs bytes).extractLsb' 0 8, (~~~ pppFcs bytes).extractLsb' 8 8]).take
      ((p.info ++ [(~~~ pppFcs bytes).extractLsb' 0 8, (~~~ pppFcs bytes).extractLsb' 8 8]).length - 2) = p.info := by
    simp
  dsimp only
  rw [cut]
  unfold uncompress
  dsimp only
  rw [if_neg comp, if_neg uncomp]

theorem framed_some (s : PppOpt σ) (p : Packet) : framed s p ≠ [] := by
  simp [framed]

theorem recv_built (vj : Vj σ) (t s : PppOpt σ) (p : Packet) (legal : Legal p) :
    (pppRecvFrame vj t (withFcs (framed s ⟨charsProto p, p.info⟩))).2 = handOn t (heardAs p) := by
  have some' : (heardAs p).info ≠ [] := by
    unfold heardAs
    split
    · simp
    · exact legal.info
  have plain : (heardAs p).proto ≠ PPPPROTO_COMP_TCP ∧ (heardAs p).proto ≠ PPPPROTO_UNCOMP_TCP := by
    unfold heardAs
    split
    · have comp : (0xff : BitVec 16) ≠ PPPPROTO_COMP_TCP := by decide
      have uncomp : (0xff : BitVec 16) ≠ PPPPROTO_UNCOMP_TCP := by decide
      exact ⟨comp, uncomp⟩
    · exact ⟨legal.compressed, legal.uncompressed⟩
  exact recv_stripped vj t _ (heardAs p) (framed_some s _) some' plain.1 plain.2 fun tail => strip_frame s p tail legal

-- A frame as another station would build it.
theorem recv_framed (vj : Vj σ) (t s : PppOpt σ) (p : Packet) (legal : Legal p) (unlike : Unlike s p) :
    (pppRecvFrame vj t (withFcs (framed s p))).2 = handOn t p :=
  recv_stripped vj t _ p (framed_some s p) legal.info legal.compressed legal.uncompressed
    fun tail => strip_legal s p tail legal unlike

theorem map_set_isset (m : Map) (c d : Byte) (length : m.length = 8) :
    mapIsset (mapSet m d) c = (mapIsset m c || decide (c = d)) := by
  have small := d.isLt
  have inside : d.toNat / 32 < m.length := by omega
  unfold mapIsset mapSet
  by_cases word : c.toNat / 32 = d.toNat / 32
  · rw [word, List.getD_eq_getElem?_getD, List.getElem?_set_self inside, Option.getD_some, BitVec.getLsbD_or]
    congr 1
    rw [BitVec.getLsbD_twoPow]
    by_cases same : c = d
    · subst same
      simp
      omega
    · have apart : c.toNat % 32 ≠ d.toNat % 32 := by
        intro bit
        apply same
        apply BitVec.eq_of_toNat_eq
        omega
      simp [same, Ne.symm apart]
  · have apart : c ≠ d := fun same => word (by rw [same])
    rw [List.getD_eq_getElem?_getD, List.getElem?_set_ne (Ne.symm word), ← List.getD_eq_getElem?_getD]
    simp [apart]

-- What PPPIOCSXMAP lets through: the flag and the escape are escaped, and nothing that would become one of them or a
-- control character.
structure Escapes (m : Map) : Prop where
  flag : mapIsset m FLAG = true
  esc : mapIsset m ESC = true
  printable : ∀ c : Byte, c.toNat / 32 = 1 → mapIsset m c = false
  noFlag : mapIsset m (FLAG ^^^ TRANS) = false
  noEsc : mapIsset m (ESC ^^^ TRANS) = false

theorem set_xmap_escapes (l m : Map) (length : l.length = 8) (accepted : setXmap l = some m) : Escapes m := by
  unfold setXmap at accepted
  dsimp only at accepted
  split at accepted
  · cases accepted
  · rename_i valid
    obtain ⟨-, -, -, -, noFlag, noEsc⟩ : _ ∧ _ ∧ _ ∧ _ ∧ _ ∧ _ := by simpa only [not_or] using valid
    obtain rfl := Option.some.inj accepted
    have length1 : (l.set 1 0).length = 8 := by rw [List.length_set, length]
    have length2 : (mapSet (l.set 1 0) ESC).length = 8 := by rw [mapSet, List.length_set, length1]
    have isset : ∀ c, mapIsset (mapSet (mapSet (l.set 1 0) ESC) FLAG) c
        = (mapIsset (l.set 1 0) c || decide (c = ESC) || decide (c = FLAG)) := by
      intro c
      rw [map_set_isset _ _ _ length2, map_set_isset _ _ _ length1]
    have old : ∀ c : Byte, c.toNat / 32 ≠ 1 → mapIsset (l.set 1 0) c = mapIsset l c := by
      intro c word
      unfold mapIsset
      rw [List.getD_eq_getElem?_getD, List.getElem?_set_ne (Ne.symm word), ← List.getD_eq_getElem?_getD]
    refine ⟨?_, ?_, ?_, ?_, ?_⟩
    · rw [isset]
      simp
    · rw [isset]
      simp
    · intro c word
      have notEsc : c ≠ ESC := by
        rintro rfl
        exact absurd word (by decide)
      have notFlag : c ≠ FLAG := by
        rintro rfl
        exact absurd word (by decide)
      have cleared : mapIsset (l.set 1 0) c = false := by
        unfold mapIsset
        rw [word, List.getD_eq_getElem?_getD, List.getElem?_set_self (by omega)]
        simp
      rw [isset, cleared]
      simp [notEsc, notFlag]
    · rw [isset, old _ (by decide)]
      simp only [Bool.not_eq_true] at noFlag
      rw [noFlag]
      decide
    · rw [isset, old _ (by decide)]
      simp only [Bool.not_eq_true] at noEsc
      rw [noEsc]
      decide

-- The map that an interface starts with is one of these.
theorem link_xmap_accepted : setXmap linkXmap = some linkXmap := by decide +kernel

theorem trans_control : ∀ c : Byte, (c ^^^ TRANS).toNat < 0x20 → c.toNat / 32 = 1 := by decide +kernel

theorem trans_twice (c : Byte) : c ^^^ TRANS ^^^ TRANS = c := by
  rw [BitVec.xor_assoc, BitVec.xor_self, BitVec.xor_zero]

-- The sender escapes what the receiver would drop.
def Covers (s t : PppOpt σ) : Prop := ∀ c : Byte, c.toNat < 0x20 → mapIsset t.rmap c = true → mapIsset s.xmap c = true

theorem ppp_clear (vj vj' : Vj σ) (s t : PppOpt σ) (escapes : Escapes s.xmap) (covers : Covers s t) :
    Clear (pppDriver vj) s (pppDriver vj') t := by
  refine ⟨rfl, ?_, ?_, rfl⟩
  · intro c
    change FLAG ∉ pppStuff s c
    unfold pppStuff
    split
    · rename_i mapped
      intro member
      rcases List.mem_cons.mp member with bad | bad
      · exact absurd bad (by decide)
      · have back : c = FLAG ^^^ TRANS := by
          rw [List.mem_singleton.mp bad, trans_twice]
        rw [back, escapes.noFlag] at mapped
        cases mapped
    · rename_i free
      intro member
      obtain rfl := List.mem_singleton.mp member
      exact free escapes.flag
  · intro c
    change unstuff (pppData t) false (pppStuff s c) = (false, [c])
    have passes : ∀ (esc : Bool) (x : Byte), x ≠ ESC → (x.toNat < 0x20 → mapIsset t.rmap x = false) →
        pppData t esc x = (false, some (if esc then x ^^^ TRANS else x)) := by
      intro esc x notEsc kept
      unfold pppData
      rw [if_neg notEsc, if_pos]
      by_cases low : x.toNat < 0x20
      · exact Or.inr (by rw [kept low]; decide)
      · exact Or.inl (by omega)
    unfold pppStuff
    split
    · rename_i mapped
      have notEsc : c ^^^ TRANS ≠ ESC := by
        intro same
        have back : c = ESC ^^^ TRANS := by
          rw [← same, trans_twice]
        rw [back, escapes.noEsc] at mapped
        cases mapped
      have second := passes true (c ^^^ TRANS) notEsc fun low => by
        rw [escapes.printable c (trans_control c low)] at mapped
        cases mapped
      have first : pppData t false ESC = (true, none) := if_pos rfl
      rw [if_pos rfl, trans_twice] at second
      simp [unstuff, first, second]
    · rename_i free
      have notEsc : c ≠ ESC := by
        rintro rfl
        exact free escapes.esc
      have only := passes false c notEsc fun low => by
        cases set' : mapIsset t.rmap c with
        | false => rfl
        | true => exact (free (covers c low set')).elim
      rw [if_neg (by decide)] at only
      simp [unstuff, only]

-- The frame of a packet is shorter than what the receiver's buffer holds.
def Fits (s t : PppOpt σ) (p : Packet) : Prop := ((framed s p).length : Int) + 2 < pppLimit t

instance (s t : PppOpt σ) (p : Packet) : Decidable (Fits s t p) := inferInstanceAs (Decidable (_ < _))

theorem framed_length (s : PppOpt σ) (p : Packet) : (framed s p).length ≤ p.info.length + 4 := by
  rw [framed_body, List.length_append]
  rcases body_cases s p with both | ⟨-, one⟩
  · rw [both]
    split
    · simp
    · simp
      omega
  · rw [one]
    split
    · simp
    · simp
      omega

theorem limit_mru (t : PppOpt σ) (small : t.mru.toNat + 10 < 2 ^ 31) :
    pppLimit t = ((max 1500 t.mru.toNat + 10 : Nat) : Int) := by
  have size : (if PPP_MTU.ult t.mru then t.mru else PPP_MTU).toNat = max 1500 t.mru.toNat := by
    have constant : PPP_MTU.toNat = 1500 := rfl
    split
    · rename_i larger
      simp only [BitVec.ult_eq_decide, decide_eq_true_eq] at larger
      omega
    · rename_i smaller
      simp only [BitVec.ult_eq_decide, decide_eq_true_eq] at smaller
      omega
  unfold pppLimit
  have sum : ((if PPP_MTU.ult t.mru then t.mru else PPP_MTU) + 10).toNat = max 1500 t.mru.toNat + 10 := by
    rw [BitVec.toNat_add, size]
    exact Nat.mod_eq_of_lt (by simp; omega)
  rw [BitVec.toInt_eq_toNat_of_lt (by omega), sum]

-- Information within the receiver's MRU always fits, unless the size of the buffer overflows.
theorem fits_mru (s t : PppOpt σ) (p : Packet) (small : t.mru.toNat + 10 < 2 ^ 31) (within : p.info.length ≤ max 1500 t.mru.toNat) :
    Fits s t p := by
  have length := framed_length s p
  unfold Fits
  rw [limit_mru t small]
  omega

theorem receipt_legal (vj vj' : Vj σ) (s t : PppOpt σ) (p : Packet) (off : NoVj s) (legal : Legal p) :
    receipt (pppDriver vj') t ((pppDriver vj).build s p).2
      = if Fits s t ⟨charsProto p, p.info⟩ then some (handOn t (heardAs p)) else none := by
  have frame : ((pppDriver vj).build s p).2 = withFcs (framed s ⟨charsProto p, p.info⟩) :=
    congrArg Prod.snd (build_no_vj vj s p off)
  have length : (withFcs (framed s ⟨charsProto p, p.info⟩)).length = (framed s ⟨charsProto p, p.info⟩).length + 2 := by
    simp [withFcs]
  have long : 3 ≤ (withFcs (framed s ⟨charsProto p, p.info⟩)).length := by
    simp [withFcs, framed]
    omega
  rw [frame]
  unfold receipt
  change (if pppLimit t ≤ _ ∨ (false || decide (_ < 3)) = true then none
    else some (pppRecvFrame vj' t (withFcs (framed s ⟨charsProto p, p.info⟩))).2) = _
  rw [recv_built vj' t s p legal]
  have whole : ¬ (false || decide ((withFcs (framed s ⟨charsProto p, p.info⟩)).length < 3)) = true := by
    simp
    omega
  by_cases fits : Fits s t ⟨charsProto p, p.info⟩
  · rw [if_pos fits]
    unfold Fits at fits
    rw [if_neg (not_or.mpr ⟨by omega, whole⟩)]
  · rw [if_neg fits]
    unfold Fits at fits
    rw [if_pos (Or.inl (by omega))]

-- A packet goes through unchanged exactly when its protocol number is not negative and its frame fits.
theorem receipt_same (vj vj' : Vj σ) (s t : PppOpt σ) (p : Packet) (off : NoVj s) (legal : Legal p) :
    receipt (pppDriver vj') t ((pppDriver vj).build s p).2 = some (handOn t p) ↔ ¬ Negative p ∧ Fits s t p := by
  rw [receipt_legal vj vj' s t p off legal]
  constructor
  · intro same
    split at same
    · rename_i fits
      have heard := Option.some.inj same
      by_cases high : Negative p
      · exfalso
        have lost : handOn t (heardAs p) = .usr ⟨0xff, p.proto.extractLsb' 0 8 :: p.info⟩ := by
          unfold heardAs handOn
          rw [if_pos high]
          have notIp : (0xff : BitVec 16) ≠ PPPPROTO_IP := by decide
          exact if_neg fun ip => notIp ip.1
        rw [lost] at heard
        unfold handOn at heard
        split at heard
        · cases heard
        · have longer := congrArg (fun q : Packet => q.info.length) (Received.usr.inj heard)
          simp at longer
      · rw [chars_proto_low p high] at fits
        exact ⟨high, fits⟩
    · cases same
  · rintro ⟨low, fits⟩
    have whole : heardAs p = p := if_neg low
    rw [chars_proto_low p low, if_pos fits, whole]

-- The bytes that a receiver has seen come from packets that the sender has taken.
theorem seen_prefix (vj vj' : Vj σ) (sopt ropt : PppOpt σ) (S R : PppLine σ) (off : NoVj sopt)
    (sends : Reached (pppDriver vj) sopt S) (receives : Reached (pppDriver vj') ropt R) (line : R.fromDev <+: S.toDev) :
    R.seen <+: streamed (pppDriver vj) sopt S.taken := by
  obtain ⟨-, all⟩ := reached_streamed (pppDriver vj) (ppp_tame vj) sopt (ppp_still vj sopt off) S sends
  have out := (reached_carried (pppDriver vj) (ppp_tame vj) sopt S sends).sent
  have into := (reached_carried (pppDriver vj') (ppp_tame vj') ropt R receives).received
  have first : R.seen <+: R.fromDev := ⟨_, into⟩
  have second : S.toDev <+: S.put := ⟨_, out⟩
  exact ((first.trans line).trans second).trans ⟨_, all⟩

theorem legal_settled (vj vj' : Vj σ) (s t : PppOpt σ) (p : Packet) (off : NoVj s) (legal : Legal p) :
    Settled (pppDriver vj') SameOpt t ((pppDriver vj).build s p).2 := by
  intro t' same
  have frame : ((pppDriver vj).build s p).2 = withFcs (framed s ⟨charsProto p, p.info⟩) :=
    congrArg Prod.snd (build_no_vj vj s p off)
  rw [frame]
  change some (pppRecvFrame vj' t' _).2 = some (pppRecvFrame vj' t _).2
  rw [recv_built vj' t' s p legal, recv_built vj' t s p legal, hand_on_same t t' _ same]

theorem received_legal (vj vj' : Vj σ) (sopt ropt : PppOpt σ) (S R : PppLine σ) (off : NoVj sopt)
    (escapes : Escapes sopt.xmap) (covers : Covers sopt ropt) (sends : Reached (pppDriver vj) sopt S)
    (receives : Reached (pppDriver vj') ropt R) (line : R.fromDev <+: S.toDev) (legal : ∀ p ∈ S.taken, Legal p) :
    (R.delivered <+: S.taken.filterMap fun p => receipt (pppDriver vj') ropt ((pppDriver vj).build sopt p).2)
      ∧ (S.sndBuf = none → R.seen = S.put →
        R.delivered = S.taken.filterMap fun p => receipt (pppDriver vj') ropt ((pppDriver vj).build sopt p).2) := by
  have seen := seen_prefix vj vj' sopt ropt S R off sends receives line
  obtain ⟨-, all⟩ := reached_streamed (pppDriver vj) (ppp_tame vj) sopt (ppp_still vj sopt off) S sends
  have settled : ∀ p ∈ S.taken, Settled (pppDriver vj') SameOpt ropt ((pppDriver vj).build sopt p).2 :=
    fun p member => legal_settled vj vj' sopt ropt p off (legal p member)
  by_cases positive : 0 < pppLimit ropt
  · obtain ⟨texts, rest, outs, framed⟩ :=
      reached_followed (pppDriver vj') (ppp_tame vj') SameOpt (ppp_steady vj') ropt positive R receives
    obtain ⟨early, whole⟩ := received_packets (pppDriver vj) sopt (pppDriver vj') ropt (ppp_clear vj vj' sopt ropt escapes covers)
      SameOpt S.taken R.seen (rx R) R.delivered texts rest outs framed settled
    refine ⟨early seen, fun idle same => whole ?_⟩
    rw [← all, same, pending, idle, List.append_nil]
  · obtain ⟨nothing, none'⟩ := reached_silent (pppDriver vj') (ppp_tame vj') SameOpt (ppp_steady vj') ropt
      (Int.not_lt.mp positive) R receives
    rw [none']
    refine ⟨List.nil_prefix, fun idle same => ?_⟩
    have noPackets : S.taken = [] := by
      rw [nothing] at same
      rw [← same, pending, idle] at all
      cases taken : S.taken with
      | nil => rfl
      | cons p later =>
          rw [taken] at all
          simp [streamed] at all
    rw [noPackets]
    rfl

theorem ppp_round_trip (vj vj' : Vj σ) (sopt ropt : PppOpt σ) (l : Map) (S R : PppLine σ) (off : NoVj sopt)
    (length : l.length = 8) (accepted : setXmap l = some sopt.xmap) (covers : Covers sopt ropt)
    (sends : Reached (pppDriver vj) sopt S) (receives : Reached (pppDriver vj') ropt R) (line : R.fromDev <+: S.toDev)
    (legal : ∀ p ∈ S.taken, Legal p) :
    ((∀ p ∈ S.taken, ¬ Negative p ∧ Fits sopt ropt p) → R.delivered <+: S.taken.map (handOn ropt))
      ∧ (S.sndBuf = none → R.seen = S.put →
        (R.delivered = S.taken.map (handOn ropt) ↔ ∀ p ∈ S.taken, ¬ Negative p ∧ Fits sopt ropt p))
      ∧ (ropt.mru.toNat + 10 < 2 ^ 31 → ∀ p, p.info.length ≤ ropt.mru.toNat → Fits sopt ropt p) := by
  have escapes := set_xmap_escapes l sopt.xmap length accepted
  obtain ⟨early, whole⟩ := received_legal vj vj' sopt ropt S R off escapes covers sends receives line legal
  have exact' : (S.taken.filterMap fun p => receipt (pppDriver vj') ropt ((pppDriver vj).build sopt p).2)
      = S.taken.map (handOn ropt) ↔ ∀ p ∈ S.taken, ¬ Negative p ∧ Fits sopt ropt p := by
    rw [List.filterMap_eq_map_iff_forall_eq_some]
    constructor
    · intro same p member
      exact (receipt_same vj vj' sopt ropt p off (legal p member)).mp (same p member)
    · intro good p member
      exact (receipt_same vj vj' sopt ropt p off (legal p member)).mpr (good p member)
  refine ⟨?_, ?_, ?_⟩
  · intro good
    rw [exact'.mpr good] at early
    exact early
  · intro idle same
    rw [whole idle same]
    exact exact'
  · intro small p within
    exact fits_mru sopt ropt p small (le_max_of_le_right within)

def plainOpt : PppOpt Unit := ⟨false, false, false, false, false, linkXmap, List.replicate 8 0, 1500, true, ()⟩

-- One packet through two lines: it is queued, the device takes its bytes, and the other side reads them in one go.
def openLine : PppLine Unit := opened plainOpt 15 0 (List.replicate SL_IBUFSIZE 0) (List.replicate SL_OBUFSIZE 0)

def sentLine (p : Packet) : PppLine Unit :=
  (run (pppDriver noVj) openLine [.output p 0, .work (fun _ => true) ⟨0, none, none, 2048, some 2048, some 2048⟩]).getD openLine

def heardLine (bytes : List Byte) : PppLine Unit :=
  (run (pppDriver noVj) openLine [.work (fun _ => true) ⟨bytes.length, none, none, 0, none, none⟩,
    .work (fun _ => true) ⟨bytes.length, some bytes, none, 0, none, none⟩]).getD openLine

theorem open_reached : Reached (pppDriver noVj) plainOpt openLine :=
  .opened 15 0 _ _ List.length_replicate List.length_replicate

theorem plain_no_vj : NoVj plainOpt := ⟨rfl, rfl⟩

theorem plain_covers : Covers plainOpt plainOpt := by
  intro c small dropped
  have none' : ∀ i, plainOpt.rmap.getD i 0 = 0 := by
    intro i
    change (List.replicate 8 (0 : BitVec 32)).getD i 0 = 0
    rw [List.getD_eq_getElem?_getD, List.getElem?_replicate]
    split <;> rfl
  unfold mapIsset at dropped
  rw [none'] at dropped
  simp at dropped

theorem run_reached (w : PppLine Unit) (ops : List (Op Packet)) (done : (run (pppDriver noVj) openLine ops).isSome = true)
    (same : (run (pppDriver noVj) openLine ops).getD openLine = w) : Reached (pppDriver noVj) plainOpt w := by
  obtain ⟨w', result⟩ := Option.isSome_iff_exists.mp done
  rw [result] at same
  obtain rfl : w' = w := same
  exact reached_run (pppDriver noVj) plainOpt ops openLine w' open_reached result

-- The protocol number of compression control arrives as 0x00ff, with its low byte before the information.
theorem ppp_round_trip_negative :
    ¬ ∀ (sopt ropt : PppOpt Unit) (l : Map) (S R : PppLine Unit), NoVj sopt → NoVj ropt → l.length = 8 →
      setXmap l = some sopt.xmap → Covers sopt ropt → Reached (pppDriver noVj) sopt S → Reached (pppDriver noVj) ropt R →
      R.fromDev <+: S.toDev → (∀ p ∈ S.taken, Legal p ∧ p.info.length ≤ ropt.mru.toNat) → S.sndBuf = none → R.seen = S.put →
      R.delivered = S.taken.map (handOn ropt) := by
  intro claimed
  have taken : (sentLine ⟨0x80fd, [1]⟩).taken = [⟨0x80fd, [1]⟩] := by decide +kernel
  have same := claimed plainOpt plainOpt linkXmap (sentLine ⟨0x80fd, [1]⟩) (heardLine (sentLine ⟨0x80fd, [1]⟩).toDev)
    plain_no_vj plain_no_vj (by decide +kernel) link_xmap_accepted plain_covers
    (run_reached _ _ (by decide +kernel) rfl) (run_reached _ _ (by decide +kernel) rfl) (by decide +kernel)
    (by
      rw [taken]
      intro p member
      obtain rfl := List.mem_singleton.mp member
      exact ⟨⟨rfl, rfl, List.cons_ne_nil _ _, (by decide), by decide⟩, by decide⟩)
    (by decide +kernel) (by decide +kernel)
  rw [taken] at same
  exact absurd same (by decide +kernel)

theorem ppp_round_trip_plain :
    (heardLine (sentLine ⟨0x0057, [1]⟩).toDev).delivered = (sentLine ⟨0x0057, [1]⟩).taken.map (handOn plainOpt)
      ↔ ∀ p ∈ (sentLine ⟨0x0057, [1]⟩).taken, ¬ Negative p ∧ Fits plainOpt plainOpt p := by
  have taken : (sentLine ⟨0x0057, [1]⟩).taken = [⟨0x0057, [1]⟩] := by decide +kernel
  exact (ppp_round_trip noVj noVj plainOpt plainOpt linkXmap (sentLine ⟨0x0057, [1]⟩)
    (heardLine (sentLine ⟨0x0057, [1]⟩).toDev) plain_no_vj (by decide +kernel) link_xmap_accepted plain_covers
    (run_reached _ _ (by decide +kernel) rfl) (run_reached _ _ (by decide +kernel) rfl) (by decide +kernel)
    (by
      rw [taken]
      intro p member
      obtain rfl := List.mem_singleton.mp member
      exact ⟨rfl, rfl, List.cons_ne_nil _ _, (by decide), by decide⟩)).2.1 (by decide +kernel) (by decide +kernel)

end MagxNet.Sld.Ppp
