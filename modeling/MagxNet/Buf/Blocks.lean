import MagxNet.Buf.Take

set_option autoImplicit false

namespace MagxNet.Buf

open Links Tiling

-- kmalloc hands out memory that is not handed out already, and whose end is an address.
def KmallocOk (kmalloc : Kmalloc) : Prop :=
  ∀ blocks addr, kmalloc blocks = some addr → addr + BUF_BLOCK_SIZE < 2 ^ 32 ∧
    ∀ b ∈ blocks, addr + BUF_BLOCK_SIZE ≤ b ∨ b + BUF_BLOCK_SIZE ≤ addr

section Blocks

variable (kmalloc : Kmalloc) (h : Heap) (bufs free : Nat → List Nat)

-- The heap with the new block, before its buffer goes onto free list 0.
def withBlock (h : Heap) (addr : Nat) : Heap := { h with
  blocks := addr :: h.blocks
  buflen := Function.update h.buflen (.mem addr) BUF_BLOCK_SIZE
  links := Function.update h.links (.mem addr) 0
  n := Function.update h.n (.mem addr) .null
  p := Function.update h.p (.mem addr) .null
  memUsed := h.memUsed + BUF_BLOCK_SIZE
  bufTmout := false }

theorem add_block_eq (addr : Nat) (found : kmalloc h.blocks = some addr) :
    bufAddBlock kmalloc h = (false, freeLink (withBlock h addr) 0 (.mem addr)) := by
  simp only [bufAddBlock, found, freeLink, withBlock, Function.update_self]

theorem member_apart (hole : List Nat) (inv : HeapInv h bufs free hole) (addr : Nat)
    (apart : ∀ b ∈ h.blocks, addr + BUF_BLOCK_SIZE ≤ b ∨ b + BUF_BLOCK_SIZE ≤ addr) (c : Nat) (member : Member h bufs c) : c ≠ addr := by
  obtain ⟨b, block, inside⟩ := member
  have bounds := member_bounds h bufs free hole inv b c block inside
  have disjoint := apart b block
  have positive := least_positive
  omega

theorem block_ne (addr : Nat) (apart : ∀ b ∈ h.blocks, addr + BUF_BLOCK_SIZE ≤ b ∨ b + BUF_BLOCK_SIZE ≤ addr) (b : Nat)
    (block : b ∈ h.blocks) : b ≠ addr := by
  have limit : BUF_BLOCK_SIZE = 32768 := rfl
  have disjoint := apart b block
  omega

theorem with_block_member (addr : Nat) (apart : ∀ b ∈ h.blocks, addr + BUF_BLOCK_SIZE ≤ b ∨ b + BUF_BLOCK_SIZE ≤ addr) (c : Nat) :
    Member (withBlock h addr) (Function.update bufs addr [addr]) c ↔ c = addr ∨ Member h bufs c := by
  constructor
  · rintro ⟨b, block, inside⟩
    by_cases here : b = addr
    · rw [here, Function.update_self] at inside
      exact Or.inl (List.mem_singleton.mp inside)
    · rw [Function.update_of_ne here] at inside
      exact Or.inr ⟨b, (List.mem_cons.mp block).resolve_left here, inside⟩
  · rintro (rfl | ⟨b, block, inside⟩)
    · exact ⟨c, List.mem_cons_self .., by rw [Function.update_self]; exact List.mem_singleton_self c⟩
    · exact ⟨b, List.mem_cons_of_mem _ block, by rwa [Function.update_of_ne (block_ne h addr apart b block)]⟩

theorem inv_with_block (inv : HeapInv h bufs free []) (addr : Nat)
    (apart : ∀ b ∈ h.blocks, addr + BUF_BLOCK_SIZE ≤ b ∨ b + BUF_BLOCK_SIZE ≤ addr) :
    HeapInv (withBlock h addr) (Function.update bufs addr [addr]) free [addr] := by
  have other : ∀ b ∈ h.blocks, ∀ c ∈ bufs b, Ptr.mem c ≠ .mem addr := fun b block c inside same =>
    member_apart h bufs free [] inv addr apart c ⟨b, block, inside⟩ (mem_injective same)
  refine ⟨List.pairwise_cons.mpr ⟨apart, inv.apart⟩, fun b block => ?_, fun b block => ?_, fun b block => ?_, inv.rings,
    fun i bound c => ?_, ?_⟩
  · rw [withBlock, update_mem]
    rcases List.mem_cons.mp block with rfl | old
    · rw [Function.update_self]
      refine ⟨rfl, ?_, ?_⟩
      · rw [Function.update_self]
        decide
      · rw [Function.update_self]
        rfl
    · rw [Function.update_of_ne (block_ne h addr apart b old)]
      refine tiled_congr _ _ _ _ _ _ (inv.tiled b old) fun c inside => ?_
      exact Function.update_of_ne (fun same => other b old c inside (congrArg Ptr.mem same)) ..
  · rcases List.mem_cons.mp block with rfl | old
    · rw [Function.update_self]
      exact chain_single _ _ _ _ (Function.update_self ..) (Function.update_self ..) (fun same => by cases same)
    · rw [Function.update_of_ne (block_ne h addr apart b old)]
      refine chain_congr _ _ _ _ _ _ (inv.chain b old) (fun x inside => ?_) fun x inside => ?_
      · obtain ⟨c, deeper, rfl⟩ := List.mem_map.mp inside
        exact Function.update_of_ne (other b old c deeper) ..
      · obtain ⟨c, deeper, rfl⟩ := List.mem_map.mp inside
        exact Function.update_of_ne (other b old c deeper) ..
  · rcases List.mem_cons.mp block with rfl | old
    · rw [Function.update_self]
      exact List.isChain_singleton _
    · rw [Function.update_of_ne (block_ne h addr apart b old)]
      refine coalesced_weaken h [] _ _ _ (inv.coalesced b old) fun c inside isFree => ⟨?_, List.not_mem_nil⟩
      exact (Function.update_of_ne (other b old c inside) ..).symm.trans isFree.1
  · rw [inv.listed i bound c, with_block_member h bufs addr apart c]
    constructor
    · rintro ⟨member, isFree, fits⟩
      have different := member_apart h bufs free [] inv addr apart c member
      have unequal : Ptr.mem c ≠ .mem addr := fun same => different (mem_injective same)
      have len : (withBlock h addr).buflen (.mem c) = h.buflen (.mem c) := Function.update_of_ne unequal ..
      exact ⟨Or.inr member, ⟨(Function.update_of_ne unequal ..).trans isFree.1, by simpa using different⟩, len.symm ▸ fits⟩
    · rintro ⟨member, isFree, fits⟩
      have different : c ≠ addr := fun same => isFree.2 (List.mem_singleton.mpr same)
      have unequal : Ptr.mem c ≠ .mem addr := fun same => different (mem_injective same)
      have len : (withBlock h addr).buflen (.mem c) = h.buflen (.mem c) := Function.update_of_ne unequal ..
      exact ⟨member.resolve_left different, ⟨(Function.update_of_ne unequal ..).symm.trans isFree.1, List.not_mem_nil⟩, len ▸ fits⟩
  · change h.memUsed + BUF_BLOCK_SIZE = BUF_BLOCK_SIZE * ((addr :: h.blocks).length : Int)
    rw [inv.counted, List.length_cons]
    push_cast
    ring

theorem add_block_spec (ok : KmallocOk kmalloc) (inv : HeapInv h bufs free []) :
    bufAddBlock kmalloc h = (true, h) ∨ ∃ addr h' bufs' free', bufAddBlock kmalloc h = (false, h') ∧ HeapInv h' bufs' free' [] ∧
      (∀ a, Kept h h' bufs bufs' a) ∧ h'.blocks = addr :: h.blocks ∧ addr + BUF_BLOCK_SIZE < 2 ^ 32 ∧ bufEmpty h' 0 = false := by
  cases found : kmalloc h.blocks with
  | none =>
      left
      simp only [bufAddBlock, found]
  | some addr =>
      right
      obtain ⟨bound, apart⟩ := ok _ _ found
      have fresh := member_apart h bufs free [] inv addr apart
      have added := inv_with_block h bufs free inv addr apart
      have len : (withBlock h addr).buflen (.mem addr) = BUF_BLOCK_SIZE := Function.update_self ..
      have linked := inv_link (withBlock h addr) (Function.update bufs addr [addr]) free [] addr 0 added List.not_mem_nil (by decide)
        ((with_block_member h bufs addr apart addr).mpr (Or.inl rfl)) (Function.update_self ..)
        ⟨by rw [len]; decide, fun less => absurd less (lt_irrefl 0)⟩ fun b block => ?settled
      case settled =>
        by_cases here : b = addr
        · rw [here, Function.update_self]
          exact List.isChain_singleton _
        · have pieces := added.coalesced b block
          rw [Function.update_of_ne here] at pieces ⊢
          refine coalesced_weaken _ [addr] _ [] _ pieces fun c inside isFree => ⟨isFree.1, fun same => ?_⟩
          exact fresh c ⟨b, (List.mem_cons.mp block).resolve_left here, inside⟩ (List.mem_singleton.mp same)
      refine ⟨addr, _, _, _, add_block_eq kmalloc h addr found, linked, fun a c _ member _ => ?_, rfl, bound, ?_⟩
      · have unequal : Ptr.mem c ≠ .mem addr := fun same => fresh c member (mem_injective same)
        exact ⟨(with_block_member h bufs addr apart c).mpr (Or.inr member), Function.update_of_ne unequal ..,
          Function.update_of_ne unequal .., rfl, rfl⟩
      · have next := ring_next _ _ _ _ (linked.rings 0 (by decide))
        rw [Function.update_self, List.map_cons, List.headD_cons] at next
        rw [bufEmpty, next]
        rfl

-- A free buffer on list 0 is its whole block.
theorem whole_block (inv : HeapInv h bufs free []) (b0 a : Nat) (block : b0 ∈ h.blocks) (inside : a ∈ bufs b0)
    (large : bufSize 0 ≤ h.buflen (.mem a)) : a = b0 ∧ bufs b0 = [a] ∧ h.buflen (.mem a) = BUF_BLOCK_SIZE := by
  have whole : bufSize 0 = BUF_BLOCK_SIZE := rfl
  have positive := least_positive
  have tiled := inv.tiled b0 block
  have bounds := member_bounds h bufs free [] inv b0 a block inside
  obtain ⟨l, r, layout⟩ := List.append_of_mem inside
  have alone : ∀ c ∈ bufs b0, c = a := by
    intro c other
    by_contra different
    have place := member_bounds h bufs free [] inv b0 c block other
    exact tiled_inside _ _ _ _ _ tiled a inside c (by omega) (by omega) other
  have distinct := buffers_nodup h bufs free [] inv b0 block
  rw [layout] at distinct alone
  obtain ⟨_, inner, apart⟩ := List.nodup_append.mp distinct
  have noLeft : l = [] := List.eq_nil_iff_forall_not_mem.mpr fun c member =>
    apart c member a (List.mem_cons_self ..) (alone c (by simp [member]))
  have noRight : r = [] := List.eq_nil_iff_forall_not_mem.mpr fun c member =>
    (List.nodup_cons.mp inner).1 (alone c (by simp [member]) ▸ member)
  rw [noLeft, noRight] at layout
  exact ⟨by omega, layout, by omega⟩

theorem blocks_nodup (inv : HeapInv h bufs free []) : h.blocks.Nodup := by
  refine inv.apart.imp fun apart same => ?_
  have limit : BUF_BLOCK_SIZE = 32768 := rfl
  omega

theorem free_block_spec (inv : HeapInv h bufs free []) :
    bufFreeBlock h = (false, h) ∨ ∃ b h' free', bufFreeBlock h = (true, h') ∧ HeapInv h' bufs free' [] ∧ b ∈ h.blocks ∧
      h'.blocks = h.blocks.erase b ∧ bufs b = [b] ∧ h.links (.mem b) = 0 ∧ h'.links = h.links ∧ h'.buflen = h.buflen ∧
      h'.dstart = h.dstart ∧ h'.dend = h.dend := by
  rw [bufFreeBlock]
  by_cases few : h.nfree (.pool 0) = .pool 0 ∨ h.nfree (h.nfree (.pool 0)) = .pool 0
  · left
    exact if_pos few
  · right
    obtain ⟨a, rest, nodes, first⟩ := first_free h bufs free inv 0 (by decide) (by
      rw [bufEmpty, decide_eq_false_iff_not]
      exact fun same => few (Or.inl same))
    have listed : a ∈ free 0 := by
      rw [nodes]
      exact List.mem_cons_self ..
    obtain ⟨⟨b, block, inside⟩, isFree, large, _⟩ := (inv.listed 0 (by decide) a).mp listed
    obtain ⟨rfl, layout, length⟩ := whole_block h bufs free inv b a block inside large
    have unlinked := inv_unlink h bufs free [] inv 0 a (by decide) listed
    have distinct := blocks_nodup h bufs free inv
    have removed : ∀ b, b ∈ h.blocks.erase a ↔ b ≠ a ∧ b ∈ h.blocks := fun b => distinct.mem_erase_iff
    have inBlock : ∀ b ∈ h.blocks, a ∈ bufs b → b = a := fun b isBlock other =>
      block_unique h bufs free [] inv b a a isBlock block other inside
    refine ⟨a, _, Function.update free 0 ((free 0).erase a), if_neg few, ?_, block, by dsimp only; rw [first]; rfl, layout, isFree.1, rfl, rfl, rfl, rfl⟩
    rw [first]
    refine ⟨inv.apart.sublist List.erase_sublist, fun b isBlock => unlinked.tiled b ((removed b).mp isBlock).2,
      fun b isBlock => unlinked.chain b ((removed b).mp isBlock).2, fun b isBlock => ?_, unlinked.rings, fun j bound c => ?_, ?_⟩
    · obtain ⟨other, old⟩ := (removed b).mp isBlock
      refine coalesced_weaken _ [a] _ [] _ (unlinked.coalesced b old) fun c member free => ⟨free.1, fun same => ?_⟩
      exact other (inBlock b old (List.mem_singleton.mp same ▸ member))
    · rw [unlinked.listed j bound c]
      constructor
      · rintro ⟨⟨b, isBlock, member⟩, free, fits⟩
        refine ⟨⟨b, (removed b).mpr ⟨?_, isBlock⟩, member⟩, ⟨free.1, List.not_mem_nil⟩, fits⟩
        rintro rfl
        rw [layout] at member
        exact free.2 member
      · rintro ⟨⟨b, isBlock, member⟩, free, fits⟩
        obtain ⟨other, old⟩ := (removed b).mp isBlock
        refine ⟨⟨b, old, member⟩, ⟨free.1, fun same => ?_⟩, fits⟩
        exact other (inBlock b old (List.mem_singleton.mp same ▸ member))
    · have positive : 0 < h.blocks.length := List.length_pos_of_mem block
      have used : h.memUsed = BUF_BLOCK_SIZE * h.blocks.length := inv.counted
      change h.memUsed - h.buflen (.mem a) = BUF_BLOCK_SIZE * ((h.blocks.erase a).length : Int)
      rw [List.length_erase_of_mem block, used, length, Nat.cast_sub positive]
      ring

-- A collection gives back blocks that are one free buffer each, and leaves all others alone.
theorem gc_spec : ∀ (fuel : Nat) (h h' : Heap) (free : Nat → List Nat), HeapInv h bufs free [] → gc fuel h = .ret h' →
    (∃ free', HeapInv h' bufs free' []) ∧ (∀ b ∈ h'.blocks, b ∈ h.blocks) ∧
      (∀ b ∈ h.blocks, b ∉ h'.blocks → bufs b = [b] ∧ h.links (.mem b) = 0) ∧
      h'.links = h.links ∧ h'.buflen = h.buflen ∧ h'.dstart = h.dstart ∧ h'.dend = h.dend := by
  intro fuel
  induction fuel with
  | zero => exact fun h h' free inv run => by cases run
  | succ fuel next =>
      intro h h' free inv run
      rw [gc] at run
      rcases free_block_spec h bufs free inv with same | ⟨b, h1, free1, step, inv1, block, blocks, layout, zero, links, len, start, stop⟩
      · rw [same] at run
        cases run
        exact ⟨⟨free, inv⟩, fun _ member => member, fun _ member gone => absurd member gone, rfl, rfl, rfl, rfl⟩
      · rw [step] at run
        obtain ⟨inv', fewer, freed, links', len', start', stop'⟩ := next h1 h' free1 inv1 run
        rw [blocks] at fewer freed
        refine ⟨inv', fun c member => List.mem_of_mem_erase (fewer c member), fun c member gone => ?_, links'.trans links,
          len'.trans len, start'.trans start, stop'.trans stop⟩
        by_cases here : c = b
        · rw [here]
          exact ⟨layout, zero⟩
        · obtain ⟨single, notUsed⟩ := freed c ((List.mem_erase_of_ne here).mpr member) gone
          exact ⟨single, links ▸ notUsed⟩

theorem gc_returns : ∀ (fuel : Nat) (h : Heap) (free : Nat → List Nat), HeapInv h bufs free [] → h.blocks.length < fuel →
    ∃ h', gc fuel h = .ret h' := by
  intro fuel
  induction fuel with
  | zero => exact fun h free inv less => absurd less (Nat.not_lt_zero _)
  | succ fuel next =>
      intro h free inv less
      rw [gc]
      rcases free_block_spec h bufs free inv with same | ⟨b, h1, free1, step, inv1, block, blocks, _⟩
      · rw [same]
        exact ⟨h, rfl⟩
      · rw [step]
        refine next h1 free1 inv1 ?_
        have positive : 0 < h.blocks.length := List.length_pos_of_mem block
        rw [blocks, List.length_erase_of_mem block]
        omega

-- The pool heads are set up before the first block is added.
theorem init_spec (ok : KmallocOk kmalloc) (h' : Heap) (blank : h.blocks = []) (unused : h.memUsed = 0)
    (run : bufInit kmalloc h = (false, h')) :
    ∃ bufs' free', HeapInv h' bufs' free' [] ∧ ∀ b ∈ h'.blocks, b + BUF_BLOCK_SIZE < 2 ^ 32 := by
  rw [bufInit] at run
  dsimp only at run
  generalize start : { h with
    buflen := _, links := _, n := _, p := _, nfree := _, pfree := _ } = h0 at run
  have inv : HeapInv h0 (fun _ => []) (fun _ => []) [] := by
    subst start
    refine ⟨?_, fun b block => ?_, fun b block => ?_, fun b block => ?_, fun i bound => ?_, fun i bound a => ?_, ?_⟩
    · rw [blank]
      exact List.Pairwise.nil
    · rw [blank] at block
      exact absurd block List.not_mem_nil
    · rw [blank] at block
      exact absurd block List.not_mem_nil
    · exact List.isChain_nil
    · exact ring_self _ _ _ (by simp [bound]) (by simp [bound])
    · simp [Member]
    · rw [unused, blank]
      rfl
  have none : h0.blocks = [] := by
    subst start
    exact blank
  rcases add_block_spec kmalloc h0 _ _ ok inv with failed | ⟨addr, h1, bufs', free', added, inv', _, blocks, bound, _⟩
  · rw [failed] at run
    cases run
  · rw [added] at run
    cases run
    refine ⟨bufs', free', inv', fun b block => ?_⟩
    rw [blocks, none] at block
    rw [List.mem_singleton.mp block]
    exact bound

end Blocks

end MagxNet.Buf
