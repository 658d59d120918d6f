import MagxNet.Buf.Inv

set_option autoImplicit false

namespace MagxNet.Buf

open Links Tiling

section Pieces

variable (h : Heap) (bufs free : Nat → List Nat) (hole : List Nat)

-- A buffer that is in use separates what lies on either side of it.
theorem coalesced_busy (a : Nat) (l r : List Nat) (busy : ¬ Free h hole a) :
    Coalesced h hole (l ++ a :: r) ↔ Coalesced h hole l ∧ Coalesced h hole r := by
  rw [Coalesced, List.isChain_append, List.isChain_cons]
  constructor
  · exact fun facts => ⟨facts.1, facts.2.1.2⟩
  · intro facts
    refine ⟨facts.1, ⟨fun y _ both => busy both.1, facts.2⟩, fun x _ y member both => busy ?_⟩
    obtain rfl : a = y := by simpa using member
    exact both.2

theorem add32_small (x y : Nat) (small : x + y ≤ BUF_BLOCK_SIZE) : add32 x y = x + y := by
  have limit : BUF_BLOCK_SIZE = 32768 := rfl
  rw [add32]
  omega

theorem sub32_small (x y : Nat) (order : y ≤ x) (small : x ≤ BUF_BLOCK_SIZE) : sub32 x y = x - y := by
  have limit : BUF_BLOCK_SIZE = 32768 := rfl
  rw [sub32]
  omega

theorem absorb_eq (a b : Ptr) : absorb h a b = { h with
    buflen := Function.update h.buflen a (add32 (h.buflen a) (h.buflen b))
    n := Function.update h.n a (h.n b)
    p := if h.n b = .null then h.p else Function.update h.p (h.n b) a } := by
  unfold absorb
  by_cases last : h.n b = .null
  · simp only [last, if_true]
  · simp only [last, if_false]

theorem map_head_mem (pieces : List Nat) (x : Ptr) (here : (pieces.map Ptr.mem).headD .null = x) (real : x ≠ .null) :
    ∃ a ∈ pieces, x = .mem a := by
  cases pieces with
  | nil => exact absurd here.symm real
  | cons a rest => exact ⟨a, List.mem_cons_self .., here.symm⟩

theorem inv_absorb (b0 a b : Nat) (l r : List Nat) (inv : HeapInv h bufs free hole) (block : b0 ∈ h.blocks)
    (layout : bufs b0 = l ++ a :: b :: r) (first : a ∈ hole) (second : b ∈ hole) :
    HeapInv (absorb h (.mem a) (.mem b)) (Function.update bufs b0 (l ++ a :: r)) free hole := by
  have chain := inv.chain b0 block
  have tiled := inv.tiled b0 block
  have coalesced := inv.coalesced b0 block
  have busyFirst : ¬ Free h hole a := fun isFree => isFree.2 first
  have busySecond : ¬ Free h hole b := fun isFree => isFree.2 second
  rw [layout] at tiled coalesced
  rw [layout, List.map_append, List.map_cons, List.map_cons] at chain
  have sum : add32 (h.buflen (.mem a)) (h.buflen (.mem b)) = h.buflen (.mem a) + h.buflen (.mem b) := by
    obtain ⟨mid, _, here, _, _, _, back⟩ := (tiled_append _ _ l (a :: b :: r) _ _).mp tiled
    have place := (tiled_bounds _ _ _ _ _ tiled a (by simp)).1
    have order : mid + h.buflen (.mem a) + h.buflen (.mem b) ≤ b0 + BUF_BLOCK_SIZE := tiled_order _ _ _ _ _ back
    exact add32_small _ _ (by omega)
  have ahead : h.n (.mem b) = (r.map Ptr.mem).headD .null :=
    chain_next h.n h.p .null (.mem b) (l.map .mem ++ [.mem a]) (r.map .mem) (by simpa using chain)
  have joined := chain_absorb h.n h.p .null (.mem a) (.mem b) (l.map .mem) (r.map .mem) chain
  rw [absorb_eq, sum]
  refine inv_block h bufs free hole _ hole b0 (l ++ a :: r) inv block rfl rfl rfl rfl ?_ ?_ ?_ ?_
    (fun _ _ _ _ _ inside => inside) (fun _ _ _ _ _ inside => inside) ?_ ?_
  · intro x outside _
    have notFirst : x ≠ .mem a := outside a (by rw [layout]; simp)
    refine ⟨Function.update_of_ne notFirst .., rfl, Function.update_of_ne notFirst .., ?_⟩
    by_cases last : h.n (.mem b) = .null
    · simp only [last, if_true]
    · obtain ⟨c, inRest, place⟩ := map_head_mem r _ ahead.symm last
      simp only [last, if_false]
      refine Function.update_of_ne (fun same => ?_) ..
      exact outside c (by rw [layout]; simp [inRest]) (same.trans place)
  · rw [update_mem]
    exact tiled_join _ _ _ _ a b l r tiled least_positive
  · rw [List.map_append, List.map_cons]
    exact joined
  · have apart := (coalesced_busy h hole a l (b :: r) busyFirst).mp coalesced
    have rest := (coalesced_busy h hole b [] r busySecond).mp apart.2
    exact (coalesced_busy h hole a l r busyFirst).mpr ⟨apart.1, rest.2⟩
  · intro x
    rw [layout]
    change (x ∈ l ++ a :: r ∧ Free h hole x) ↔ _
    simp only [List.mem_append, List.mem_cons]
    constructor
    · rintro ⟨place, isFree⟩
      exact ⟨by tauto, isFree⟩
    · rintro ⟨place, isFree⟩
      refine ⟨?_, isFree⟩
      rcases place with left | same | same | right
      · exact Or.inl left
      · exact Or.inr (Or.inl same)
      · exact absurd isFree (same ▸ busySecond)
      · exact Or.inr (Or.inr right)
  · intro x _ isFree
    refine Function.update_of_ne (fun same => ?_) ..
    exact busyFirst (mem_injective same ▸ isFree)

theorem carve_eq (newbuf nxtbuf : Ptr) (size : Nat) :
    carve h newbuf nxtbuf size = { h with
      buflen := Function.update (Function.update h.buflen nxtbuf (sub32 (h.buflen newbuf) size)) newbuf size
      links := Function.update h.links nxtbuf 0
      n := Function.update (Function.update h.n nxtbuf (h.n newbuf)) newbuf nxtbuf
      p := Function.update (if h.n newbuf = .null then h.p else Function.update h.p (h.n newbuf) nxtbuf) nxtbuf newbuf } := by
  unfold carve
  by_cases last : h.n newbuf = .null
  · simp only [last, if_true]
  · simp only [last, if_false]

theorem inv_carve (b0 a size : Nat) (l r : List Nat) (inv : HeapInv h bufs free hole) (block : b0 ∈ h.blocks)
    (layout : bufs b0 = l ++ a :: r) (first : a ∈ hole) (large : bufSize BUF_NSPLIT ≤ size)
    (rest : size + bufSize BUF_NSPLIT ≤ h.buflen (.mem a)) :
    HeapInv (carve h (.mem a) (.mem (a + size)) size) (Function.update bufs b0 (l ++ a :: (a + size) :: r)) free
      ((a + size) :: hole) := by
  have chain := inv.chain b0 block
  have tiled := inv.tiled b0 block
  have coalesced := inv.coalesced b0 block
  have positive := least_positive
  rw [layout] at tiled coalesced
  rw [layout, List.map_append, List.map_cons] at chain
  have bounds := member_bounds h bufs free hole inv b0 a block (by rw [layout]; simp)
  have fresh : a + size ∉ l ++ a :: r :=
    tiled_inside _ _ _ _ _ tiled a (by simp) (a + size) (by omega) (by omega)
  have difference : sub32 (h.buflen (.mem a)) size = h.buflen (.mem a) - size := sub32_small _ _ (by omega) (by omega)
  have ahead : h.n (.mem a) = (r.map Ptr.mem).headD .null := chain_next h.n h.p .null (.mem a) _ _ chain
  have freshPtr : Ptr.mem (a + size) ∉ l.map Ptr.mem ++ .mem a :: r.map .mem := by
    rw [← List.map_cons, ← List.map_append]
    exact fun inside => fresh ((List.mem_map_of_injective mem_injective).mp inside)
  have cut := chain_split h.n h.p .null (.mem a) (.mem (a + size)) (l.map .mem) (r.map .mem) chain freshPtr
    (fun same => by cases same)
  rw [carve_eq h _ _ _, difference]
  refine inv_block h bufs free hole _ ((a + size) :: hole) b0 (l ++ a :: (a + size) :: r) inv block rfl rfl rfl rfl
    ?_ ?_ ?_ ?_ (fun _ _ _ _ _ inside => List.mem_cons_of_mem _ inside) ?_ ?_ ?_
  · intro x outside outside'
    have notFirst : x ≠ .mem a := outside a (by rw [layout]; simp)
    have notNew : x ≠ .mem (a + size) := outside' (a + size) (by simp)
    refine ⟨(Function.update_of_ne notFirst ..).trans (Function.update_of_ne notNew ..), Function.update_of_ne notNew ..,
      (Function.update_of_ne notFirst ..).trans (Function.update_of_ne notNew ..),
      (Function.update_of_ne notNew ..).trans ?_⟩
    by_cases last : h.n (.mem a) = .null
    · simp only [last, if_true]
    · obtain ⟨c, inRest, place⟩ := map_head_mem r _ ahead.symm last
      simp only [last, if_false]
      refine Function.update_of_ne (fun same => ?_) ..
      exact outside c (by rw [layout]; simp [inRest]) (same.trans place)
  · rw [update_mem, update_mem]
    exact tiled_cut _ _ _ _ a size l r tiled positive large rest
  · rw [List.map_append, List.map_cons, List.map_cons]
    exact cut
  · have busyFirst : ∀ h' : Heap, ¬ Free h' ((a + size) :: hole) a := fun _ isFree => isFree.2 (List.mem_cons_of_mem _ first)
    have busyNew : ∀ h' : Heap, ¬ Free h' ((a + size) :: hole) (a + size) := fun _ isFree => isFree.2 (List.mem_cons_self ..)
    have old := (coalesced_busy h hole a l r fun isFree => isFree.2 first).mp coalesced
    simp only [List.mem_append, List.mem_cons, not_or] at fresh
    have keep : ∀ pieces, a + size ∉ pieces → Coalesced h hole pieces → Coalesced _ ((a + size) :: hole) pieces :=
      fun pieces absent before => coalesced_weaken h hole
        { h with links := Function.update h.links (.mem (a + size)) 0 } _ pieces before fun x member isFree => by
          have other : Ptr.mem x ≠ .mem (a + size) := fun same => absent (mem_injective same ▸ member)
          refine ⟨?_, fun inside => isFree.2 (List.mem_cons_of_mem _ inside)⟩
          rw [← isFree.1]
          exact (Function.update_of_ne other ..).symm
    refine (coalesced_busy _ _ a l _ (busyFirst _)).mpr ⟨keep l fresh.1 old.1, ?_⟩
    exact (coalesced_busy _ _ (a + size) [] r (busyNew _)).mpr ⟨List.isChain_nil, keep r fresh.2.2 old.2⟩
  · intro b isBlock different x member inside
    rcases List.mem_cons.mp inside with rfl | old
    · have : Std.Symm fun b c : Nat => b + BUF_BLOCK_SIZE ≤ c ∨ c + BUF_BLOCK_SIZE ≤ b := ⟨fun _ _ => Or.symm⟩
      have disjoint := inv.apart.forall isBlock block different
      have place := member_bounds h bufs free hole inv b _ isBlock member
      omega
    · exact old
  · intro x
    rw [layout]
    simp only [List.mem_append, List.mem_cons, not_or] at fresh
    have links : x ≠ a + size → (Function.update h.links (.mem (a + size)) 0 (.mem x) = 0 ↔ h.links (.mem x) = 0) := by
      intro other
      rw [Function.update_of_ne fun same => other (mem_injective same)]
    simp only [Free, List.mem_append, List.mem_cons, not_or]
    constructor
    · rintro ⟨place, zero, notNew, notHole⟩
      exact ⟨by tauto, (links notNew).mp zero, notHole⟩
    · rintro ⟨place, zero, notHole⟩
      have notNew : x ≠ a + size := by
        rintro rfl
        tauto
      exact ⟨by tauto, (links notNew).mpr zero, notNew, notHole⟩
  · intro x member isFree
    rw [layout] at member
    have notFirst : Ptr.mem x ≠ .mem a := fun same => isFree.2 (mem_injective same ▸ first)
    have notNew : Ptr.mem x ≠ .mem (a + size) := fun same => fresh (mem_injective same ▸ member)
    exact (Function.update_of_ne notFirst ..).trans (Function.update_of_ne notNew ..)

end Pieces

theorem search_up_spec (len : Nat) : ∀ count i, (∀ m < i, len < bufSize m) →
    (∀ m < searchUp len count i, len < bufSize m) ∧ searchUp len count i ≤ i + count ∧
      (searchUp len count i < i + count → bufSize (searchUp len count i) ≤ len) := by
  intro count
  induction count with
  | zero => exact fun i below => ⟨below, le_refl _, fun less => absurd less (lt_irrefl _)⟩
  | succ count next =>
      intro i below
      rw [searchUp]
      by_cases small : len < bufSize i
      · rw [if_pos small]
        have more : ∀ m < i + 1, len < bufSize m := by
          intro m bound
          rcases Nat.lt_succ_iff_lt_or_eq.mp bound with less | rfl
          · exact below m less
          · exact small
        obtain ⟨first, second, third⟩ := next (i + 1) more
        exact ⟨first, by omega, fun less => third (by omega)⟩
      · rw [if_neg small]
        exact ⟨below, by omega, fun _ => by omega⟩

-- A length of at least the smallest size finds its list.
theorem search_up_class (len count i : Nat) (large : bufSize BUF_NSPLIT ≤ len) (below : ∀ m < i, len < bufSize m)
    (enough : BUF_NSPLIT < i + count) : searchUp len count i ≤ BUF_NSPLIT ∧ InClass len (searchUp len count i) := by
  obtain ⟨under, bound, found⟩ := search_up_spec len count i below
  have low : searchUp len count i ≤ BUF_NSPLIT := by
    by_contra high
    have := under BUF_NSPLIT (by omega)
    omega
  exact ⟨low, found (by omega), fun positive => under _ (by omega)⟩

theorem class_exists (len : Nat) (large : bufSize BUF_NSPLIT ≤ len) : ∃ i ≤ BUF_NSPLIT, InClass len i :=
  ⟨_, search_up_class len (BUF_NSPLIT + 1) 0 large (fun _ less => absurd less (Nat.not_lt_zero _)) (by omega)⟩

section Join

variable (h h' : Heap) (bufs free : Nat → List Nat) (hole : List Nat)

-- Fields the invariant does not read may change.
theorem inv_frame (inv : HeapInv h bufs free hole) (sameLen : h'.buflen = h.buflen) (sameLinks : h'.links = h.links)
    (sameN : h'.n = h.n) (sameP : h'.p = h.p) (sameNext : h'.nfree = h.nfree) (samePrev : h'.pfree = h.pfree)
    (sameUsed : h'.memUsed = h.memUsed) (sameBlocks : h'.blocks = h.blocks) : HeapInv h' bufs free hole := by
  cases h
  cases h'
  dsimp only at *
  subst sameLen sameLinks sameN sameP sameNext samePrev sameUsed sameBlocks
  exact ⟨inv.apart, inv.tiled, inv.chain, inv.coalesced, inv.rings, inv.listed, inv.counted⟩

theorem inv_hole (hole' : List Nat) (inv : HeapInv h bufs free hole)
    (same : ∀ a, Member h bufs a → (Free h hole a ↔ Free h hole' a)) : HeapInv h bufs free hole' := by
  refine ⟨inv.apart, inv.tiled, inv.chain, fun b block => ?_, inv.rings, fun i bound a => ?_, inv.counted⟩
  · exact coalesced_weaken h hole h hole' _ (inv.coalesced b block) fun a member => (same a ⟨b, block, member⟩).mpr
  · rw [inv.listed i bound a]
    constructor
    · exact fun facts => ⟨facts.1, (same a facts.1).mp facts.2.1, facts.2.2⟩
    · exact fun facts => ⟨facts.1, (same a facts.1).mpr facts.2.1, facts.2.2⟩

theorem inv_hole_live (a : Nat) (inv : HeapInv h bufs free hole) (live : h.links (.mem a) ≠ 0) :
    HeapInv h bufs free (a :: hole) := by
  refine inv_hole h bufs free hole _ inv fun x _ => ⟨fun isFree => ⟨isFree.1, ?_⟩, fun isFree => ⟨isFree.1, ?_⟩⟩
  · intro inside
    rcases List.mem_cons.mp inside with rfl | old
    · exact live isFree.1
    · exact isFree.2 old
  · exact fun inside => isFree.2 (List.mem_cons_of_mem _ inside)

theorem inv_hole_busy (a : Nat) (inv : HeapInv h bufs free (a :: hole)) (live : h.links (.mem a) ≠ 0) :
    HeapInv h bufs free hole := by
  refine inv_hole h bufs free _ _ inv fun x _ => ⟨fun isFree => ⟨isFree.1, ?_⟩, fun isFree => ⟨isFree.1, ?_⟩⟩
  · exact fun inside => isFree.2 (List.mem_cons_of_mem _ inside)
  · intro inside
    rcases List.mem_cons.mp inside with rfl | old
    · exact live isFree.1
    · exact isFree.2 old

-- The reference count of a buffer in hand is nobody else's business.
theorem inv_links (a : Nat) (count : Int) (inv : HeapInv h bufs free hole) (inside : a ∈ hole) :
    HeapInv { h with links := Function.update h.links (.mem a) count } bufs free hole := by
  have same : ∀ x, Free { h with links := Function.update h.links (.mem a) count } hole x ↔ Free h hole x := by
    intro x
    by_cases here : x = a
    · exact ⟨fun isFree => absurd (here ▸ inside) isFree.2, fun isFree => absurd (here ▸ inside) isFree.2⟩
    · have other : Ptr.mem x ≠ .mem a := fun equal => here (mem_injective equal)
      simp only [Free, Function.update_of_ne other]
  refine ⟨inv.apart, inv.tiled, inv.chain, fun b block => ?_, inv.rings, fun i bound x => ?_, inv.counted⟩
  · exact coalesced_weaken h hole _ hole _ (inv.coalesced b block) fun x _ => (same x).mp
  · rw [inv.listed i bound x, same x]
    rfl

theorem coalesced_settled (a : Nat) (l r : List Nat) (coalesced : Coalesced h (a :: hole) (l ++ a :: r))
    (distinct : (l ++ a :: r).Nodup) (left : ∀ x ∈ l.getLast?, ¬ Free h hole x)
    (right : ∀ y ∈ r.head?, ¬ Free h hole y) : Coalesced h hole (l ++ a :: r) := by
  obtain ⟨_, back, apart⟩ := List.nodup_append.mp distinct
  obtain ⟨notLater, _⟩ := List.nodup_cons.mp back
  obtain ⟨front, behind⟩ := (coalesced_busy h (a :: hole) a l r fun isFree => isFree.2 (List.mem_cons_self ..)).mp coalesced
  have keep : ∀ pieces, a ∉ pieces → Coalesced h (a :: hole) pieces → Coalesced h hole pieces := fun pieces absent before =>
    coalesced_weaken h (a :: hole) h hole pieces before fun x member isFree => by
      refine ⟨isFree.1, fun inside => ?_⟩
      rcases List.mem_cons.mp inside with rfl | old
      · exact absent member
      · exact isFree.2 old
  rw [Coalesced, List.isChain_append, List.isChain_cons]
  refine ⟨keep l (fun inside => apart a inside a (List.mem_cons_self ..) rfl) front,
    ⟨fun y member both => right y member both.2, keep r notLater behind⟩, fun x member y here both => left x member both.1⟩

theorem member_block (b0 a : Nat) (pieces : List Nat) (b : Nat) (block : b ∈ h.blocks)
    (member : a ∈ Function.update bufs b0 pieces b) (absent : a ∉ pieces) : b ≠ b0 ∧ Member h bufs a := by
  by_cases here : b = b0
  · rw [here, Function.update_self] at member
    exact absurd member absent
  · rw [Function.update_of_ne here] at member
    exact ⟨here, b, block, member⟩

end Join

-- Other buffers that are in use stay where and as they are.
def Kept (h h' : Heap) (bufs bufs' : Nat → List Nat) (a : Nat) : Prop :=
  ∀ c, c ≠ a → Member h bufs c → h.links (.mem c) ≠ 0 →
    Member h' bufs' c ∧ h'.links (.mem c) = h.links (.mem c) ∧ h'.buflen (.mem c) = h.buflen (.mem c) ∧
      h'.dstart (.mem c) = h.dstart (.mem c) ∧ h'.dend (.mem c) = h.dend (.mem c)

theorem kept_trans (h h' h'' : Heap) (bufs bufs' bufs'' : Nat → List Nat) (a a' : Nat) (first : Kept h h' bufs bufs' a)
    (second : Kept h' h'' bufs' bufs'' a') (same : a' = a ∨ h.links (.mem a') = 0 ∨ ¬ Member h bufs a') : Kept h h'' bufs bufs'' a := by
  intro c other member live
  obtain ⟨member', links, len, start, stop⟩ := first c other member live
  have different : c ≠ a' := by
    rintro rfl
    rcases same with rfl | zero | gone
    · exact other rfl
    · exact live zero
    · exact gone member
  obtain ⟨member'', links', len', start', stop'⟩ := second c different member' (links ▸ live)
  exact ⟨member'', links'.trans links, len'.trans len, start'.trans start, stop'.trans stop⟩

theorem kept_refl (h : Heap) (bufs : Nat → List Nat) (a : Nat) : Kept h h bufs bufs a :=
  fun _ _ member _ => ⟨member, rfl, rfl, rfl, rfl⟩

end MagxNet.Buf
