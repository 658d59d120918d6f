import MagxNet.Buf.Reach

set_option autoImplicit false

namespace MagxNet.Buf

-- What the caller counts on: reserve bytes before the data, which is empty, and the rest of size behind it.
structure Roomy (h : Heap) (a : Nat) (size reserve : BitVec 32) : Prop where
  lead : a + SIZEOF_BUF + reserve.toNat ≤ h.dstart (.mem a)
  stop : h.dend (.mem a) = h.dstart (.mem a)
  trail : h.dstart (.mem a) + (size.toNat - reserve.toNat) ≤ a + h.buflen (.mem a)

def Capacity (kmalloc : Kmalloc) (h : Heap) (size reserve : BitVec 32) (atomic : Bool) : Prop :=
  ∀ fuel, ∃ b h', bufAlloc kmalloc (fuel + 2) h size reserve atomic = .ret (b, h') ∧
    (b = .null ∨ ∃ a, b = .mem a ∧ Roomy h' a size reserve) ∧ (BUF_BLOCK_SIZE < size.toNat → b = .null)

-- Nothing is free, and no block can be added.
def Exhausted (kmalloc : Kmalloc) (h : Heap) (atomic : Bool) : Prop :=
  (∀ i ≤ BUF_NSPLIT, bufEmpty h i = true) ∧ (atomic = true ∨ kmalloc h.blocks = none)

-- The header and the two bytes for the rounding do not fit into the ulong any more.
def wraps (size : BitVec 32) : Bool := decide (2 ^ 32 ≤ size.toNat + (SIZEOF_BUF + 2))

theorem alloc_size_room (size : BitVec 32) (fits : wraps size = false) : size.toNat + (SIZEOF_BUF + 1) ≤ allocSize size := by
  have rounded := round_size_nat size
  have least : (roundSize size).toNat ≤ allocSize size := Nat.le_max_left ..
  have header : SIZEOF_BUF = 46 := rfl
  have small := of_decide_eq_false fits
  omega

theorem alloc_size_wrapped (size : BitVec 32) (wrapped : wraps size = true) : allocSize size = bufSize BUF_NSPLIT := by
  have rounded := round_size_nat size
  have header : SIZEOF_BUF = 46 := rfl
  have least : bufSize BUF_NSPLIT = 256 := rfl
  have large := of_decide_eq_true wrapped
  have size_lt := size.isLt
  exact Nat.max_eq_right (by omega)

theorem size_index_none (size : Nat) (big : BUF_BLOCK_SIZE < size) : ∀ count, sizeIndex size count = none := by
  intro count
  induction count with
  | zero => rfl
  | succ count next =>
      rw [sizeIndex, if_neg, next]
      have most : bufSize count ≤ bufSize 0 := buf_size_antitone 0 count (Nat.zero_le count)
      have whole : bufSize 0 = BUF_BLOCK_SIZE := rfl
      omega

theorem size_index_least : sizeIndex (bufSize BUF_NSPLIT) (BUF_NSPLIT + 1) = some BUF_NSPLIT := by decide

section Capacity

variable (kmalloc : Kmalloc) (h : Heap) (size reserve : BitVec 32) (atomic : Bool) (bufs free : Nat → List Nat)

theorem alloc_exhausted (fuel : Nat) (none_left : Exhausted kmalloc h atomic) :
    ∃ h', bufAlloc kmalloc (fuel + 2) h size reserve atomic = .ret (.null, h') := by
  obtain ⟨empty, no_more⟩ := none_left
  rw [bufAlloc]
  cases index : sizeIndex (allocSize size) (BUF_NSPLIT + 1) with
  | none => exact ⟨_, rfl⟩
  | some idx =>
      obtain ⟨less, _⟩ := size_index_spec _ _ _ index
      dsimp only
      rw [bufTryAlloc]
      have search := search_free_spec h (idx + 1)
      cases found : searchFree h (idx + 1) with
      | some i =>
          rw [found] at search
          have filled := search.2
          rw [empty i (by omega)] at filled
          cases filled
      | none =>
          dsimp only
          rcases no_more with quick | out
          · rw [if_pos quick]
            exact ⟨_, rfl⟩
          · split
            · exact ⟨_, rfl⟩
            · rw [bufAddBlock, out]
              exact ⟨_, rfl⟩

theorem try_alloc_gets (idx len : Nat) (lead : BitVec 32) (fuel i : Nat) (inv : HeapInv h bufs free []) (bound : idx ≤ BUF_NSPLIT)
    (least : bufSize BUF_NSPLIT ≤ len) (fits : len ≤ bufSize idx) (found : searchFree h (idx + 1) = some i) :
    ∃ a h', bufTryAlloc kmalloc idx len lead atomic (fuel + 1) h = .ret (.mem a, h') := by
  have search := search_free_spec h (idx + 1)
  rw [found] at search
  have more := buf_size_antitone i idx (Nat.le_of_lt_succ search.1)
  obtain ⟨a, h', _, _, taken, _⟩ := take_spec h bufs free i len lead inv (by omega) search.2 least (fits.trans more)
  refine ⟨a, h', ?_⟩
  rw [bufTryAlloc, found]
  exact congrArg Outcome.ret taken

-- A request whose size there is a list for is served when that list or an earlier one has a buffer, or a block can be added.
theorem alloc_served (idx fuel : Nat) (ok : KmallocOk kmalloc) (inv : HeapInv h bufs free [])
    (index : sizeIndex (allocSize size) (BUF_NSPLIT + 1) = some idx)
    (some_left : searchFree h (idx + 1) ≠ none ∨ (atomic = false ∧ kmalloc h.blocks ≠ none)) :
    ∃ a h', bufAlloc kmalloc (fuel + 2) h size reserve atomic = .ret (.mem a, h') := by
  obtain ⟨less, enough⟩ := size_index_spec _ _ _ index
  have bound := Nat.le_of_lt_succ less
  have least := alloc_size_lower size
  rw [bufAlloc, index]
  dsimp only
  cases found : searchFree h (idx + 1) with
  | some i =>
      exact try_alloc_gets kmalloc h atomic bufs free idx _ _ (fuel + 1) i inv bound least enough found
  | none =>
      obtain ⟨slow, grows⟩ := some_left.resolve_left fun filled => filled found
      rw [bufTryAlloc, found]
      dsimp only
      rw [if_neg (Bool.not_eq_true atomic ▸ slow)]
      rcases add_block_spec kmalloc h bufs free ok inv with same | ⟨addr, h1, bufs1, free1, added, inv1, _, _, _, filled⟩
      · cases out : kmalloc h.blocks with
        | none => exact absurd out grows
        | some addr =>
            rw [bufAddBlock, out] at same
            cases congrArg Prod.fst same
      · rw [added]
        dsimp only
        have again := search_free_spec h1 (idx + 1)
        cases found1 : searchFree h1 (idx + 1) with
        | some i => exact try_alloc_gets kmalloc h1 atomic bufs1 free1 idx _ _ fuel i inv1 bound least enough found1
        | none =>
            rw [found1] at again
            have empty := again 0 (Nat.succ_pos idx)
            rw [filled] at empty
            cases empty

-- A request of the least size is served whenever there is anything.
theorem alloc_least_served (ok : KmallocOk kmalloc) (fuel : Nat) (inv : HeapInv h bufs free [])
    (least : allocSize size = bufSize BUF_NSPLIT) (some_left : ¬ Exhausted kmalloc h atomic) :
    ∃ a h', bufAlloc kmalloc (fuel + 2) h size reserve atomic = .ret (.mem a, h') := by
  refine alloc_served kmalloc h size reserve atomic bufs free BUF_NSPLIT fuel ok inv (least ▸ size_index_least) ?_
  cases found : searchFree h (BUF_NSPLIT + 1) with
  | some i => exact Or.inl (Option.some_ne_none i)
  | none =>
      right
      have search := search_free_spec h (BUF_NSPLIT + 1)
      rw [found] at search
      have more : ¬ (atomic = true ∨ kmalloc h.blocks = none) := fun no_more =>
        some_left ⟨fun i bound => search i (Nat.lt_succ_of_le bound), no_more⟩
      obtain ⟨slow, grows⟩ := not_or.mp more
      exact ⟨Bool.eq_false_of_not_eq_true slow, grows⟩

-- What buf_alloc finds when it has nothing to hand out.
def refuses (size : BitVec 32) (atomic : Bool) : Bool :=
  match sizeIndex (allocSize size) (BUF_NSPLIT + 1) with
  | none => true
  | some idx => (searchFree h (idx + 1)).isNone && (atomic || (kmalloc h.blocks).isNone)

theorem alloc_refuses_iff (fuel : Nat) (ok : KmallocOk kmalloc) (inv : HeapInv h bufs free []) :
    (∃ h', bufAlloc kmalloc (fuel + 2) h size reserve atomic = .ret (.null, h')) ↔ refuses kmalloc h size atomic = true := by
  unfold refuses
  cases index : sizeIndex (allocSize size) (BUF_NSPLIT + 1) with
  | none =>
      rw [bufAlloc, index]
      exact ⟨fun _ => rfl, fun _ => ⟨_, rfl⟩⟩
  | some idx =>
      dsimp only
      cases found : searchFree h (idx + 1) with
      | some i =>
          obtain ⟨a, h', served⟩ := alloc_served kmalloc h size reserve atomic bufs free idx fuel ok inv index
            (Or.inl (found ▸ Option.some_ne_none i))
          rw [served]
          constructor
          · rintro ⟨_, same⟩
            cases same
          · intro no
            cases no
      | none =>
          cases quick : atomic with
          | true =>
              rw [bufAlloc, index]
              dsimp only
              rw [bufTryAlloc, found]
              exact ⟨fun _ => rfl, fun _ => ⟨_, rfl⟩⟩
          | false =>
              cases out : kmalloc h.blocks with
              | none =>
                  rw [bufAlloc, index]
                  dsimp only
                  rw [bufTryAlloc, found]
                  dsimp only
                  rw [bufAddBlock, out]
                  exact ⟨fun _ => rfl, fun _ => ⟨_, rfl⟩⟩
              | some addr =>
                  obtain ⟨a, h', served⟩ := alloc_served kmalloc h size reserve false bufs free idx fuel ok inv index
                    (Or.inr ⟨rfl, out ▸ Option.some_ne_none addr⟩)
                  rw [served]
                  constructor
                  · rintro ⟨_, same⟩
                    cases same
                  · intro no
                    cases no

theorem granted_roomy (h' : Heap) (bufs' free' : Nat → List Nat) (a : Nat) (placed : Placed h') (within : reserve ≤ size)
    (fits : wraps size = false) (granted : Granted h h' bufs bufs' free' a (allocSize size) (roundReserve reserve)) :
    Roomy h' a size reserve := by
  obtain ⟨_, bound⟩ := granted_bounds h h' bufs bufs' free' a _ _ granted placed
  have room := alloc_size_room size fits
  have large := granted.large
  have order : reserve.toNat ≤ size.toNat := within
  have rounded := round_reserve_nat reserve
  have start := granted.start
  rw [add32, Nat.mod_eq_of_lt (by omega)] at start
  exact ⟨by omega, granted.stop, by omega⟩

theorem alloc_too_large (fuel : Nat) (fits : wraps size = false) (large : BUF_BLOCK_SIZE < size.toNat) :
    bufAlloc kmalloc fuel h size reserve atomic = .ret (.null, { h with failedAllocs := h.failedAllocs + 1 }) := by
  have room := alloc_size_room size fits
  rw [bufAlloc, size_index_none _ (by omega)]

end Capacity

-- buf_alloc keeps its promise, up to the sizes to which the header cannot be added any more: those are
-- served like the smallest request.
theorem buf_alloc_capacity_iff (kmalloc : Kmalloc) (s : State) (size reserve : BitVec 32) (atomic : Bool) (reach : Reachable s)
    (ok : KmallocOk kmalloc) (within : reserve ≤ size) :
    Capacity kmalloc s.heap size reserve atomic ↔ (wraps size = false ∨ Exhausted kmalloc s.heap atomic) := by
  obtain ⟨bufs, free, inv, placed, _⟩ := reachable_good s reach
  constructor
  · intro capacity
    by_contra neither
    obtain ⟨unfit, some_left⟩ := not_or.mp neither
    have wrapped : wraps size = true := Bool.eq_true_of_not_eq_false unfit
    obtain ⟨b, h', run, _, refused⟩ := capacity 0
    obtain ⟨a, h1, served⟩ := alloc_least_served kmalloc s.heap size reserve atomic bufs free ok 0 inv
      (alloc_size_wrapped size wrapped) some_left
    rw [served] at run
    cases run
    have large : BUF_BLOCK_SIZE < size.toNat := by
      have bound := of_decide_eq_true wrapped
      have block : BUF_BLOCK_SIZE = 32768 := rfl
      have header : SIZEOF_BUF = 46 := rfl
      omega
    cases refused large
  · rintro (fits | none_left) fuel
    · obtain ⟨⟨b, h'⟩, run⟩ := alloc_returns kmalloc size reserve atomic ok fuel s.heap bufs free inv
      refine ⟨b, h', run, ?_, fun large => ?_⟩
      · obtain ⟨place, result⟩ := alloc_spec kmalloc size reserve atomic ok _ s.heap h' b bufs free inv run
        rcases result with ⟨isNull, _⟩ | ⟨a, bufs', free', isMem, granted⟩
        · exact Or.inl isNull
        · exact Or.inr ⟨a, isMem, granted_roomy s.heap size reserve bufs h' bufs' free' a (place placed) within fits granted⟩
      · rw [alloc_too_large kmalloc s.heap size reserve atomic _ fits large] at run
        cases run
        rfl
    · obtain ⟨h', run⟩ := alloc_exhausted kmalloc s.heap size reserve atomic fuel none_left
      exact ⟨.null, h', run, Or.inl rfl, fun _ => rfl⟩

def oneBlockState : State := ⟨(bufInit oneBlock blankHeap).2, []⟩

theorem one_block_reachable : Reachable oneBlockState :=
  .init oneBlock blankHeap _ one_block_ok rfl rfl one_block_init

theorem buf_alloc_capacity_whole : Capacity oneBlock oneBlockState.heap 1500 16 false :=
  (buf_alloc_capacity_iff oneBlock oneBlockState 1500 16 false one_block_reachable one_block_ok (by decide)).mpr (Or.inl (by decide))

-- 2 ^ 32 - 1 bytes are asked for, and a buffer is handed out.
theorem buf_alloc_wrapped : Reachable oneBlockState ∧
    (∃ a h', bufAlloc oneBlock 2 oneBlockState.heap 0xffffffff 0 false = .ret (.mem a, h')) ∧
    ¬ Capacity oneBlock oneBlockState.heap 0xffffffff 0 false := by
  obtain ⟨bufs, free, inv, _⟩ := reachable_good oneBlockState one_block_reachable
  have some_left : ¬ Exhausted oneBlock oneBlockState.heap false := fun none_left => absurd (none_left.1 0 (by decide)) (by decide)
  obtain ⟨a, h', served⟩ := alloc_least_served oneBlock oneBlockState.heap 0xffffffff 0 false bufs free one_block_ok 0 inv
    (by decide) some_left
  refine ⟨one_block_reachable, ⟨a, h', served⟩, fun capacity => ?_⟩
  obtain ⟨b, h1, run, _, refused⟩ := capacity 0
  rw [served] at run
  cases run
  cases refused (by decide)

end MagxNet.Buf
