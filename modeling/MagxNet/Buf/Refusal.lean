import MagxNet.Buf.Copies

set_option autoImplicit false

namespace MagxNet.Buf

-- Nothing but the functions that hand a buffer out moves its data.
theorem join_left_data (h : Heap) (buf : Ptr) :
    (joinLeft h buf).2.dstart = h.dstart ∧ (joinLeft h buf).2.dend = h.dend := by
  unfold joinLeft absorb
  dsimp only
  split
  · split <;> exact ⟨rfl, rfl⟩
  · exact ⟨rfl, rfl⟩

theorem join_right_data (h : Heap) (buf : Ptr) : (joinRight h buf).dstart = h.dstart ∧ (joinRight h buf).dend = h.dend := by
  unfold joinRight absorb
  dsimp only
  split
  · split <;> exact ⟨rfl, rfl⟩
  · exact ⟨rfl, rfl⟩

theorem deref_data (h : Heap) (buf : Ptr) : (bufDeref h buf).dstart = h.dstart ∧ (bufDeref h buf).dend = h.dend := by
  unfold bufDeref
  dsimp only
  split
  · exact ⟨rfl, rfl⟩
  · generalize counted : ({ h with links := Function.update h.links buf (h.links buf - 1) } : Heap) = h1
    have start : h1.dstart = h.dstart := by rw [← counted]
    have stop : h1.dend = h.dend := by rw [← counted]
    obtain ⟨startL, stopL⟩ := join_left_data h1 buf
    obtain ⟨startR, stopR⟩ := join_right_data (joinLeft h1 buf).2 (joinLeft h1 buf).1
    unfold bufFree
    dsimp only
    split
    · exact ⟨by rw [startR, startL, start], by rw [stopR, stopL, stop]⟩
    · exact ⟨by rw [← start, ← startL, ← startR]; rfl, by rw [← stop, ← stopL, ← stopR]; rfl⟩

-- buf_reserve has to ask for a new buffer, and gets none.
def reserveRefuses (kmalloc : Kmalloc) (h : Heap) (a : Nat) (reserve : BitVec 32) (atEnd : Bool) : Bool :=
  let nspace := reserveSpace h (.mem a) (roundReserve reserve) atEnd
  decide (h.buflen (.mem a) - SIZEOF_BUF < nspace) && refuses kmalloc h (BitVec.ofInt 32 nspace) false

section

variable (kmalloc : Kmalloc) (h : Heap) (mem : Memory) (bufs free : Nat → List Nat) (a : Nat) (reserve : BitVec 32) (atEnd : Bool)

theorem reserve_null (fuel : Nat) (ok : KmallocOk kmalloc) (inv : HeapInv h bufs free [])
    (refused : reserveRefuses kmalloc h a reserve atEnd = true) :
    ∃ h', bufReserveBytes kmalloc (fuel + 2) h mem (.mem a) reserve atEnd = .ret (.null, h', mem) ∧
      bufAlloc kmalloc (fuel + 2) h (BitVec.ofInt 32 (reserveSpace h (.mem a) (roundReserve reserve) atEnd))
        (reserveLead h (.mem a) (roundReserve reserve) atEnd) false = .ret (.null, h') := by
  obtain ⟨more, refused⟩ := (Bool.and_eq_true _ _).mp refused
  obtain ⟨h', run⟩ := (alloc_refuses_iff kmalloc h _ (reserveLead h (.mem a) (roundReserve reserve) atEnd) false bufs free fuel ok inv).mpr
    refused
  refine ⟨h', ?_, run⟩
  unfold bufReserveBytes
  dsimp only
  rw [if_neg (Int.not_le.mpr (of_decide_eq_true more)), run, Outcome.ret_bind]
  exact if_pos rfl

theorem reserve_not_null (fuel : Nat) (ok : KmallocOk kmalloc) (inv : HeapInv h bufs free []) (h' : Heap) (mem' : Memory)
    (run : bufReserveBytes kmalloc (fuel + 2) h mem (.mem a) reserve atEnd = .ret (.null, h', mem')) :
    reserveRefuses kmalloc h a reserve atEnd = true := by
  unfold bufReserveBytes at run
  dsimp only at run
  split at run
  · cases run
  · rename_i more
    obtain ⟨⟨b, h1⟩, served, rest⟩ := (Outcome.bind_eq_ret _ _ _).mp run
    dsimp only at rest
    split at rest
    · rename_i none
      subst none
      refine (Bool.and_eq_true _ _).mpr ⟨decide_eq_true (Int.not_le.mp more), ?_⟩
      exact (alloc_refuses_iff kmalloc h _ _ false bufs free fuel ok inv).mp ⟨h1, served⟩
    · rename_i some
      obtain ⟨_, _, last⟩ := (Outcome.bind_eq_ret _ _ _).mp rest
      cases last
      exact absurd rfl some

-- Whatever the data's end is: when it is not refused, so many bytes come back behind the reserved ones.
theorem reserve_length (fuel used : Nat) (ok : KmallocOk kmalloc) (inv : HeapInv h bufs free []) (placed : Placed h)
    (length : h.dend (.mem a) = h.dstart (.mem a) + used) (small : SIZEOF_BUF + (reserve.toNat + 1) + used ≤ bufSize BUF_NSPLIT)
    (first : a + SIZEOF_BUF ≤ h.dstart (.mem a)) (room : reserve.toInt ≤ SIZEOF_BUF)
    (served : reserveRefuses kmalloc h a reserve false = false) :
    ∃ x h' mem', bufReserveBytes kmalloc (fuel + 2) h mem (.mem a) reserve false = .ret (.mem x, h', mem') ∧
      h'.dend (.mem x) = h'.dstart (.mem x) + used ∧ reserve.toInt ≤ h'.dstart (.mem x) := by
  have header : SIZEOF_BUF = 46 := rfl
  have least : bufSize BUF_NSPLIT = 256 := rfl
  unfold bufReserveBytes
  dsimp only
  by_cases enough : reserveSpace h (.mem a) (roundReserve reserve) false ≤ h.buflen (.mem a) - SIZEOF_BUF
  · exact ⟨a, h, mem, if_pos enough, length, by omega⟩
  · obtain ⟨⟨b, h1⟩, run⟩ := alloc_returns kmalloc (BitVec.ofInt 32 (reserveSpace h (.mem a) (roundReserve reserve) false))
      (reserveLead h (.mem a) (roundReserve reserve) false) false ok fuel h bufs free inv
    obtain ⟨place, outcome⟩ := alloc_spec kmalloc _ _ false ok _ h h1 b bufs free inv run
    rcases outcome with ⟨rfl, _⟩ | ⟨x, bufs1, free1, rfl, granted⟩
    · have refused := (alloc_refuses_iff kmalloc h _ _ false bufs free fuel ok inv).mp ⟨h1, run⟩
      rw [reserveRefuses, refused, decide_eq_true (Int.not_le.mp enough)] at served
      cases served
    · obtain ⟨_, bound⟩ := granted_bounds h h1 bufs bufs1 free1 x _ _ granted (place placed)
      have large := (alloc_size_lower _).trans granted.large
      have once := round_reserve_nat reserve
      have twice := round_reserve_nat (roundReserve reserve)
      have plain := BitVec.toInt_eq_toNat_cond reserve
      have start := granted.start
      rw [reserveLead, if_neg Bool.false_ne_true, add32, Nat.mod_eq_of_lt (by omega)] at start
      have used_long : long (h.dend (.mem a) - h.dstart (.mem a)) = (used : Int) := by
        rw [long_eq _ (by omega) (by omega)]
        omega
      have copy : copyInto h1 (.mem x) (used : Int) = .ret () := by
        rw [copyInto, if_pos]
        rw [Ptr.addr]
        omega
      have number : (BitVec.ofInt 32 (used : Int)).toNat = used := by
        rw [BitVec.toNat_ofInt]
        omega
      obtain ⟨starts, stops⟩ := deref_data (copiedHeap h1 a x used) (.mem a)
      have startX : (bufDeref (copiedHeap h1 a x used) (.mem a)).dstart (.mem x) = h1.dstart (.mem x) := by
        rw [starts]
        rfl
      have stopX : (bufDeref (copiedHeap h1 a x used) (.mem a)).dend (.mem x) = h1.dstart (.mem x) + used := by
        rw [stops]
        unfold copiedHeap
        dsimp only
        rw [Function.update_self, number, add32, Nat.mod_eq_of_lt (by omega)]
      refine ⟨x, bufDeref (copiedHeap h1 a x used) (.mem a), memcpy mem (h1.dstart (.mem x)) (h1.dstart (.mem a)) used, ?_, ?_, ?_⟩
      · rw [if_neg enough, run, Outcome.ret_bind]
        dsimp only
        rw [if_neg (fun same => by cases same), used_long, copy]
        rfl
      · rw [startX, stopX]
      · rw [startX]
        omega

end

theorem reserve_good (kmalloc : Kmalloc) (s : State) (mem mem' : Memory) (a : Nat) (reserve : BitVec 32) (atEnd : Bool) (fuel : Nat)
    (b : Ptr) (h' : Heap) (good : Good s) (ok : KmallocOk kmalloc) (inside : a ∈ s.live)
    (run : bufReserveBytes kmalloc fuel s.heap mem (.mem a) reserve atEnd = .ret (b, h', mem')) :
    Good (if b = .null ∨ b = .mem a then ⟨h', s.live⟩ else handedOut (release s a) (b, h')) := by
  apply op_good kmalloc fuel s _ (.reserve a reserve atEnd) good ok inside
  rw [Op.run, ← reserve_forget kmalloc fuel s.heap mem, run, Outcome.ret_bind, forget, Outcome.ret_bind]
  dsimp only
  split <;> rfl

end MagxNet.Buf
