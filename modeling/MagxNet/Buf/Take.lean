import MagxNet.Buf.Free

set_option autoImplicit false

namespace MagxNet.Buf

open Links Tiling

theorem search_free_spec (h : Heap) : ∀ count,
    match searchFree h count with
    | some i => i < count ∧ bufEmpty h i = false
    | none => ∀ i < count, bufEmpty h i = true := by
  intro count
  induction count with
  | zero => exact fun i less => absurd less (Nat.not_lt_zero i)
  | succ count next =>
      rw [searchFree]
      by_cases empty : bufEmpty h count = true
      · rw [if_pos empty]
        cases found : searchFree h count with
        | some i =>
            rw [found] at next
            exact ⟨Nat.lt_succ_of_lt next.1, next.2⟩
        | none =>
            rw [found] at next
            intro i less
            rcases Nat.lt_succ_iff_lt_or_eq.mp less with below | rfl
            · exact next i below
            · exact empty
      · rw [if_neg empty]
        exact ⟨Nat.lt_succ_self count, by simpa using empty⟩

theorem size_index_spec (size idx : Nat) : ∀ count, sizeIndex size count = some idx → idx < count ∧ size ≤ bufSize idx := by
  intro count
  induction count with
  | zero => exact fun found => by cases found
  | succ count next =>
      intro found
      rw [sizeIndex] at found
      split at found
      · cases found
        exact ⟨Nat.lt_succ_self _, by assumption⟩
      · obtain ⟨less, fits⟩ := next found
        exact ⟨Nat.lt_succ_of_lt less, fits⟩

section Take

variable (h : Heap) (bufs free : Nat → List Nat)

-- The first buffer of a list that is not empty.
theorem first_free (inv : HeapInv h bufs free []) (i : Nat) (bound : i ≤ BUF_NSPLIT) (filled : bufEmpty h i = false) :
    ∃ a rest, free i = a :: rest ∧ h.nfree (.pool i) = .mem a := by
  have next := ring_next _ _ _ _ (inv.rings i bound)
  cases nodes : free i with
  | nil =>
      rw [nodes] at next
      have empty : bufEmpty h i = true := by simpa [bufEmpty] using next
      rw [empty] at filled
      cases filled
  | cons a rest =>
      rw [nodes] at next
      exact ⟨a, rest, rfl, next⟩

-- The buffer in hand is handed out.
theorem inv_use (a start : Nat) (inv : HeapInv h bufs free [a]) :
    HeapInv { h with
      nfree := Function.update h.nfree (.mem a) .null, pfree := Function.update h.pfree (.mem a) .null
      links := Function.update h.links (.mem a) 1
      dstart := Function.update h.dstart (.mem a) start, dend := Function.update h.dend (.mem a) start } bufs free [] := by
  have counted := inv_links h bufs free [a] a 1 inv (List.mem_singleton_self a)
  have busy := inv_hole_busy _ bufs free [] a counted (by simp)
  have outside : ∀ j ≤ BUF_NSPLIT, ∀ x ∈ Ptr.pool j :: (free j).map .mem, x ≠ .mem a := by
    rintro j bound x inside rfl
    rcases List.mem_cons.mp inside with same | deeper
    · cases same
    · have listed := (List.mem_map_of_injective mem_injective).mp deeper
      exact ((inv.listed j bound a).mp listed).2.1.2 (List.mem_singleton_self a)
  refine ⟨busy.apart, busy.tiled, busy.chain, busy.coalesced, fun j bound => ?_, busy.listed, busy.counted⟩
  refine ring_congr _ _ _ _ _ _ (inv.rings j bound) (fun x inside => ?_) fun x inside => ?_
  · exact Function.update_of_ne (outside j bound x inside) ..
  · exact Function.update_of_ne (outside j bound x inside) ..

-- What a successful buf_alloc comes to.
structure Granted (h h' : Heap) (bufs bufs' free' : Nat → List Nat) (a size : Nat) (reserve : BitVec 32) : Prop where
  inv : HeapInv h' bufs' free' []
  member : Member h' bufs' a
  fresh : Member h bufs a → h.links (.mem a) = 0
  one : h'.links (.mem a) = 1
  large : size ≤ h'.buflen (.mem a)
  start : h'.dstart (.mem a) = add32 (a + SIZEOF_BUF) reserve.toNat
  stop : h'.dend (.mem a) = h'.dstart (.mem a)
  kept : Kept h h' bufs bufs' a

theorem cut_fresh (hole : List Nat) (inv : HeapInv h bufs free hole) (b0 a x : Nat) (block : b0 ∈ h.blocks) (member : a ∈ bufs b0)
    (after : a < x) (before : x < a + h.buflen (.mem a)) : ¬ Member h bufs x := by
  rintro ⟨b, isBlock, inside⟩
  by_cases here : b = b0
  · subst here
    exact tiled_inside _ _ _ _ _ (inv.tiled b block) a member x after before inside
  · have : Std.Symm fun b c : Nat => b + BUF_BLOCK_SIZE ≤ c ∨ c + BUF_BLOCK_SIZE ≤ b := ⟨fun _ _ => Or.symm⟩
    have disjoint := inv.apart.forall isBlock block here
    have own := member_bounds h bufs free hole inv b0 a block member
    have other := member_bounds h bufs free hole inv b x isBlock inside
    have positive := least_positive
    omega

-- The end of the buffer in hand becomes a free buffer of its own.
theorem inv_split (b0 a size i : Nat) (l r : List Nat) (inv : HeapInv h bufs free [a]) (block : b0 ∈ h.blocks)
    (layout : bufs b0 = l ++ a :: r) (least : bufSize BUF_NSPLIT ≤ size)
    (rest : size + bufSize BUF_NSPLIT ≤ h.buflen (.mem a)) (below : ∀ m < i, h.buflen (.mem a) - size < bufSize m)
    (quiet : ∀ y ∈ r.head?, h.links (.mem y) ≠ 0) :
    searchUp (h.buflen (.mem a) - size) 17 i ≤ BUF_NSPLIT ∧
      ∃ free', HeapInv (freeLink (carve h (.mem a) (.mem (a + size)) size) (searchUp (h.buflen (.mem a) - size) 17 i) (.mem (a + size)))
        (Function.update bufs b0 (l ++ a :: (a + size) :: r)) free' [a] := by
  have member : a ∈ bufs b0 := by
    rw [layout]
    simp
  have positive := least_positive
  have bounds := member_bounds h bufs free [a] inv b0 a block member
  have carved := inv_carve h bufs free [a] b0 a size l r inv block layout (List.mem_singleton_self a) least rest
  have fresh := cut_fresh h bufs free [a] inv b0 a (a + size) block member (by omega) (by omega)
  have apart : Ptr.mem a ≠ .mem (a + size) := fun same => by
    have := mem_injective same
    omega
  have shape := carve_eq h (.mem a) (.mem (a + size)) size
  rw [sub32_small _ _ (by omega) (by omega)] at shape
  have enough : BUF_NSPLIT < i + 17 := Nat.lt_of_lt_of_le (by decide) (Nat.le_add_left 17 i)
  obtain ⟨low, inClass⟩ := search_up_class (h.buflen (.mem a) - size) 17 i (by omega) below enough
  generalize searchUp (h.buflen (.mem a) - size) 17 i = j at low inClass
  rw [shape] at carved ⊢
  refine ⟨low, _, inv_link _ _ _ [a] (a + size) j carved ?_ low ⟨b0, block, ?_⟩ (Function.update_self ..) ?_ ?_⟩
  · exact fun same => apart (congrArg Ptr.mem (List.mem_singleton.mp same)).symm
  · rw [Function.update_self]
    simp
  · dsimp only
    rw [Function.update_of_ne apart.symm, Function.update_self]
    exact inClass
  · intro b isBlock
    by_cases here : b = b0
    · have distinct := buffers_nodup _ _ _ _ carved b0 block
      have pieces := carved.coalesced b0 block
      have regroup : l ++ a :: (a + size) :: r = (l ++ [a]) ++ (a + size) :: r := by simp
      rw [Function.update_self, regroup] at distinct pieces
      rw [here, Function.update_self, regroup]
      refine coalesced_settled _ [a] (a + size) (l ++ [a]) r pieces distinct (fun x last isFree => ?_) fun y head isFree => ?_
      · obtain rfl : a = x := by simpa using last
        exact isFree.2 (List.mem_singleton_self a)
      · have inside : y ∈ bufs b0 := by
          rw [layout]
          simp [List.mem_of_head? head]
        have other : Ptr.mem y ≠ .mem (a + size) := fun same => fresh ⟨b0, block, mem_injective same ▸ inside⟩
        exact quiet y head ((Function.update_of_ne other ..).symm.trans isFree.1)
    · have pieces := carved.coalesced b isBlock
      rw [Function.update_of_ne here] at pieces ⊢
      refine coalesced_weaken _ [a + size, a] _ [a] _ pieces fun x inside isFree => ⟨isFree.1, fun same => ?_⟩
      rcases List.mem_cons.mp same with rfl | old
      · exact fresh ⟨b, isBlock, inside⟩
      · exact isFree.2 old

theorem carve_kept (b0 a size : Nat) (l r : List Nat) (layout : bufs b0 = l ++ a :: r) (fresh : ¬ Member h bufs (a + size)) :
    Kept h (carve h (.mem a) (.mem (a + size)) size) bufs (Function.update bufs b0 (l ++ a :: (a + size) :: r)) a := by
  intro c other present live
  have notFirst : Ptr.mem c ≠ .mem a := fun same => other (mem_injective same)
  have notNew : Ptr.mem c ≠ .mem (a + size) := fun same => fresh (mem_injective same ▸ present)
  rw [carve_eq h _ _ _]
  refine ⟨?_, Function.update_of_ne notNew .., (Function.update_of_ne notFirst ..).trans (Function.update_of_ne notNew ..), rfl, rfl⟩
  obtain ⟨b, isBlock, inside⟩ := present
  refine ⟨b, isBlock, ?_⟩
  by_cases here : b = b0
  · subst here
    rw [layout] at inside
    rw [Function.update_self]
    simp only [List.mem_append, List.mem_cons] at inside ⊢
    tauto
  · rwa [Function.update_of_ne here]

theorem take_spec (i size : Nat) (reserve : BitVec 32) (inv : HeapInv h bufs free []) (bound : i ≤ BUF_NSPLIT)
    (filled : bufEmpty h i = false) (least : bufSize BUF_NSPLIT ≤ size) (fits : size ≤ bufSize i) :
    ∃ a h' bufs' free', bufTake h i size reserve = (.mem a, h') ∧ Granted h h' bufs bufs' free' a size reserve ∧
      h'.blocks = h.blocks := by
  obtain ⟨a, rest, nodes, first⟩ := first_free h bufs free inv i bound filled
  have listed : a ∈ free i := by
    rw [nodes]
    exact List.mem_cons_self ..
  obtain ⟨⟨b0, block, member⟩, isFree, large, below⟩ := (inv.listed i bound a).mp listed
  have bounds := member_bounds h bufs free [] inv b0 a block member
  have unlinked := inv_unlink h bufs free [] inv i a bound listed
  have positive := least_positive
  rw [bufTake, first]
  dsimp only [Ptr.addr]
  rw [show (freeUnlink h (.mem a)).buflen = h.buflen from rfl, sub32_small _ _ (by omega) (by omega)]
  by_cases room : bufSize BUF_NSPLIT ≤ h.buflen (.mem a) - size
  · obtain ⟨l, r, layout⟩ := List.append_of_mem member
    have fresh := cut_fresh h bufs free [] inv b0 a (a + size) block member (by omega) (by omega)
    have apart : Ptr.mem a ≠ .mem (a + size) := fun same => by
      have := mem_injective same
      omega
    have shape := carve_eq (freeUnlink h (.mem a)) (.mem a) (.mem (a + size)) size
    have quiet : ∀ y ∈ r.head?, h.links (.mem y) ≠ 0 := by
      intro y head zero
      obtain ⟨others, rfl⟩ : ∃ others, r = y :: others := List.head?_eq_some_iff.mp head
      exact coalesced_beside h [] _ a y l others layout (inv.coalesced b0 block) ⟨isFree, zero, List.not_mem_nil⟩
    obtain ⟨low, free', linked⟩ := inv_split (freeUnlink h (.mem a)) bufs _ b0 a size i l r unlinked block layout least
      (show size + _ ≤ h.buflen (.mem a) by omega) (fun m less => by
        have := buf_size_antitone m (i - 1) (by omega)
        have := below (by omega)
        change h.buflen (.mem a) - size < _
        omega) quiet
    have kept := carve_kept (freeUnlink h (.mem a)) bufs b0 a size l r layout fresh
    have length : (carve (freeUnlink h (.mem a)) (.mem a) (.mem (a + size)) size).buflen (.mem (a + size)) =
        h.buflen (.mem a) - size := by
      rw [shape]
      dsimp only
      rw [Function.update_of_ne apart.symm, Function.update_self]
      exact sub32_small (h.buflen (.mem a)) size (by omega) (by omega)
    change searchUp (h.buflen (.mem a) - size) 17 i ≤ BUF_NSPLIT at low
    rw [if_pos room, length, if_neg (not_lt.mpr low)]
    have blocks : (carve (freeUnlink h (.mem a)) (.mem a) (.mem (a + size)) size).blocks = h.blocks := by
      rw [shape]
      rfl
    refine ⟨a, _, _, _, rfl, ⟨inv_use _ _ _ a _ linked, ⟨b0, blocks ▸ block, ?_⟩, fun _ => isFree.1, Function.update_self .., ?_,
      Function.update_self .., ?_, fun c other present live => ?_⟩, blocks⟩
    · rw [Function.update_self]
      simp
    · change size ≤ (carve (freeUnlink h (.mem a)) (.mem a) (.mem (a + size)) size).buflen (.mem a)
      rw [shape]
      dsimp only
      rw [Function.update_self]
    · dsimp only
      rw [Function.update_self, Function.update_self]
    · have notFirst : Ptr.mem c ≠ .mem a := fun same => other (mem_injective same)
      obtain ⟨present', links, len, start, stop⟩ := kept c other present live
      exact ⟨present', (Function.update_of_ne notFirst ..).trans links, len, (Function.update_of_ne notFirst ..).trans start,
        (Function.update_of_ne notFirst ..).trans stop⟩
  · rw [if_neg room]
    refine ⟨a, _, bufs, _, rfl, ⟨inv_use _ _ _ a _ unlinked, ⟨b0, block, member⟩, fun _ => isFree.1, Function.update_self ..,
      fits.trans large, Function.update_self .., ?_, fun c other present live => ?_⟩, rfl⟩
    · dsimp only
      rw [Function.update_self, Function.update_self]
    · have notFirst : Ptr.mem c ≠ .mem a := fun same => other (mem_injective same)
      exact ⟨present, Function.update_of_ne notFirst .., rfl, Function.update_of_ne notFirst .., Function.update_of_ne notFirst ..⟩

end Take

end MagxNet.Buf
