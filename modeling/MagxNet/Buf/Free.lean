import MagxNet.Buf.Pieces

set_option autoImplicit false

namespace MagxNet.Buf

open Links Tiling

section Merge

variable (h : Heap) (bufs free : Nat → List Nat)

theorem buffers_nodup (hole : List Nat) (inv : HeapInv h bufs free hole) (b0 : Nat) (block : b0 ∈ h.blocks) : (bufs b0).Nodup :=
  tiled_nodup _ _ least_positive _ _ _ (inv.tiled b0 block)

-- b, which is free, and a, which is in hand, are neighbours: x is the first of the two.
theorem inv_merge (b0 a b x y : Nat) (l r : List Nat) (inv : HeapInv h bufs free [a]) (block : b0 ∈ h.blocks)
    (layout : bufs b0 = l ++ x :: y :: r) (pair : (x = a ∧ y = b) ∨ (x = b ∧ y = a)) (isFree : Free h [a] b) :
    ∃ free', HeapInv (absorb (freeUnlink h (.mem b)) (.mem x) (.mem y)) (Function.update bufs b0 (l ++ x :: r)) free' [x] ∧
      Kept h (absorb (freeUnlink h (.mem b)) (.mem x) (.mem y)) bufs (Function.update bufs b0 (l ++ x :: r)) a := by
  have memberB : b ∈ bufs b0 := by
    rw [layout]
    rcases pair with ⟨_, rfl⟩ | ⟨rfl, _⟩ <;> simp
  obtain ⟨i, bound, fits⟩ := class_exists _ (member_bounds h bufs free [a] inv b0 b block memberB).2.2
  have listed := (inv.listed i bound b).mpr ⟨⟨b0, block, memberB⟩, isFree, fits⟩
  have unlinked := inv_unlink h bufs free [a] inv i b bound listed
  have joined := inv_absorb (freeUnlink h (.mem b)) bufs _ [b, a] b0 x y l r unlinked block layout
    (by rcases pair with ⟨rfl, _⟩ | ⟨rfl, _⟩ <;> simp) (by rcases pair with ⟨_, rfl⟩ | ⟨_, rfl⟩ <;> simp)
  have distinct := buffers_nodup h bufs free [a] inv b0 block
  rw [layout] at distinct
  have notY : y ∉ l ++ x :: r := by
    obtain ⟨_, inner, apart⟩ := List.nodup_append.mp distinct
    obtain ⟨first, inner⟩ := List.nodup_cons.mp inner
    obtain ⟨second, _⟩ := List.nodup_cons.mp inner
    intro inside
    rcases List.mem_append.mp inside with left | right
    · exact apart y left y (by simp) rfl
    · rcases List.mem_cons.mp right with rfl | right
      · exact first (List.mem_cons_self ..)
      · exact second right
  refine ⟨_, inv_hole _ _ _ [b, a] [x] joined fun c member => ?_, fun c other member live => ?_⟩
  · have notSecond : c ≠ y := by
      rintro rfl
      obtain ⟨block', isBlock, inside⟩ := member
      obtain ⟨different, _⟩ := member_block h bufs b0 c (l ++ x :: r) block' (by rw [absorb_eq] at isBlock; exact isBlock) inside notY
      rw [Function.update_of_ne different] at inside
      rw [absorb_eq] at isBlock
      exact different (block_unique h bufs free [a] inv block' b0 c isBlock block inside (by rw [layout]; simp))
    simp only [Free, List.mem_cons, List.not_mem_nil, or_false, not_or]
    rcases pair with ⟨rfl, rfl⟩ | ⟨rfl, rfl⟩ <;> tauto
  · have notB : c ≠ b := by
      rintro rfl
      exact live isFree.1
    have notPair : c ≠ x ∧ c ≠ y := by
      rcases pair with ⟨rfl, rfl⟩ | ⟨rfl, rfl⟩ <;> exact ⟨by assumption, by assumption⟩
    rw [absorb_eq]
    refine ⟨?_, rfl, Function.update_of_ne (fun same => notPair.1 (mem_injective same)) .., rfl, rfl⟩
    obtain ⟨block', isBlock, inside⟩ := member
    refine ⟨block', isBlock, ?_⟩
    by_cases here : block' = b0
    · subst here
      rw [layout] at inside
      rw [Function.update_self]
      simp only [List.mem_append, List.mem_cons] at inside ⊢
      tauto
    · rwa [Function.update_of_ne here]

-- What joining with a neighbour leaves behind: the buffer in hand is now x, between l and r.
structure Joined (h h' : Heap) (bufs bufs' free' : Nat → List Nat) (b0 a x : Nat) (l r : List Nat) : Prop where
  inv : HeapInv h' bufs' free' [x]
  layout : bufs' b0 = l ++ x :: r
  sameBlocks : h'.blocks = h.blocks
  sameLinks : h'.links = h.links
  kept : Kept h h' bufs bufs' a
  origin : x = a ∨ h.links (.mem x) = 0

theorem coalesced_beside (hole pieces : List Nat) (x y : Nat) (l r : List Nat) (layout : pieces = l ++ x :: y :: r)
    (coalesced : Coalesced h hole pieces) : ¬ (Free h hole x ∧ Free h hole y) := by
  rw [layout] at coalesced
  exact (List.isChain_append_cons_cons.mp coalesced).2.1

theorem join_left (b0 a : Nat) (l r : List Nat) (inv : HeapInv h bufs free [a]) (block : b0 ∈ h.blocks)
    (layout : bufs b0 = l ++ a :: r) :
    ∃ x h' bufs' free' l', joinLeft h (.mem a) = (.mem x, h') ∧ Joined h h' bufs bufs' free' b0 a x l' r ∧
      ∀ y ∈ l'.getLast?, h.links (.mem y) ≠ 0 := by
  have chain := inv.chain b0 block
  have distinct := buffers_nodup h bufs free [a] inv b0 block
  rw [layout] at distinct
  rw [layout, List.map_append, List.map_cons] at chain
  have before := chain_prev h.n h.p .null (.mem a) _ _ chain
  have stay : (∀ y ∈ l.getLast?, h.links (.mem y) ≠ 0) → joinLeft h (.mem a) = (.mem a, h) →
      ∃ x h' bufs' free' l', joinLeft h (.mem a) = (.mem x, h') ∧ Joined h h' bufs bufs' free' b0 a x l' r ∧
        ∀ y ∈ l'.getLast?, h.links (.mem y) ≠ 0 := fun busy same =>
    ⟨a, h, bufs, free, l, same, ⟨inv, layout, rfl, rfl, kept_refl h bufs a, Or.inl rfl⟩, busy⟩
  cases l using List.reverseRecOn with
  | nil =>
      refine stay (fun y member => by simp at member) ?_
      rw [joinLeft, before]
      simp
  | append_singleton front b =>
      rw [List.map_append, List.map_singleton, List.getLastD_concat] at before
      by_cases zero : h.links (.mem b) = 0
      · rw [List.append_assoc, List.singleton_append] at layout distinct
        obtain ⟨_, inner, apart⟩ := List.nodup_append.mp distinct
        obtain ⟨notLater, _⟩ := List.nodup_cons.mp inner
        have isFree : Free h [a] b := ⟨zero, fun inside => notLater (by simp [List.mem_singleton.mp inside])⟩
        obtain ⟨free', merged, kept⟩ := inv_merge h bufs free b0 a b b a front r inv block layout (Or.inr ⟨rfl, rfl⟩) isFree
        refine ⟨b, _, _, free', front, ?_, ⟨merged, Function.update_self .., by rw [absorb_eq]; rfl, by rw [absorb_eq]; rfl,
          kept, Or.inr zero⟩, fun y last free => ?_⟩
        · rw [joinLeft, before]
          simp [zero]
        · obtain ⟨first, rfl⟩ : ∃ first, front = first ++ [y] := List.mem_getLast?_eq_getLast last |>.elim fun _ same =>
            ⟨_, (same ▸ List.dropLast_append_getLast _).symm⟩
          have notA : y ∉ [a] := fun inside => apart y (by simp) a (by simp) (List.mem_singleton.mp inside)
          refine coalesced_beside h [a] _ y b first (a :: r) ?_ (inv.coalesced b0 block) ⟨⟨free, notA⟩, isFree⟩
          rw [layout, List.append_assoc, List.singleton_append]
      · refine stay (fun y last => ?_) ?_
        · obtain rfl : b = y := by simpa using last
          exact zero
        · rw [joinLeft, before]
          simp [zero]

theorem join_right (b0 a : Nat) (l r : List Nat) (inv : HeapInv h bufs free [a]) (block : b0 ∈ h.blocks)
    (layout : bufs b0 = l ++ a :: r) :
    ∃ bufs' free' r', Joined h (joinRight h (.mem a)) bufs bufs' free' b0 a a l r' ∧
      ∀ y ∈ r'.head?, h.links (.mem y) ≠ 0 := by
  have chain := inv.chain b0 block
  have distinct := buffers_nodup h bufs free [a] inv b0 block
  rw [layout] at distinct
  rw [layout, List.map_append, List.map_cons] at chain
  have after := chain_next h.n h.p .null (.mem a) _ _ chain
  have stay : (∀ y ∈ r.head?, h.links (.mem y) ≠ 0) → joinRight h (.mem a) = h →
      ∃ bufs' free' r', Joined h (joinRight h (.mem a)) bufs bufs' free' b0 a a l r' ∧
        ∀ y ∈ r'.head?, h.links (.mem y) ≠ 0 := fun busy same =>
    ⟨bufs, free, r, same.symm ▸ ⟨inv, layout, rfl, rfl, kept_refl h bufs a, Or.inl rfl⟩, busy⟩
  cases r with
  | nil =>
      refine stay (fun y member => by simp at member) ?_
      rw [joinRight, after]
      simp
  | cons b rest =>
      rw [List.map_cons, List.headD_cons] at after
      by_cases zero : h.links (.mem b) = 0
      · obtain ⟨_, inner, _⟩ := List.nodup_append.mp distinct
        obtain ⟨notLater, inner⟩ := List.nodup_cons.mp inner
        have isFree : Free h [a] b := ⟨zero, fun inside => notLater (by simp [List.mem_singleton.mp inside])⟩
        obtain ⟨free', merged, kept⟩ := inv_merge h bufs free b0 a b a b l rest inv block layout (Or.inl ⟨rfl, rfl⟩) isFree
        have step : joinRight h (.mem a) = absorb (freeUnlink h (.mem b)) (.mem a) (.mem b) := by
          rw [joinRight, after]
          simp [zero]
        rw [step]
        refine ⟨_, free', rest, ⟨merged, Function.update_self .., by rw [absorb_eq]; rfl, by rw [absorb_eq]; rfl, kept,
          Or.inl rfl⟩, fun y first free => ?_⟩
        obtain ⟨others, rfl⟩ : ∃ others, rest = y :: others := List.head?_eq_some_iff.mp first
        have notA : y ∉ [a] := fun inside => notLater (by simp [List.mem_singleton.mp inside])
        refine coalesced_beside h [a] _ b y (l ++ [a]) others ?_ (inv.coalesced b0 block) ⟨isFree, ⟨free, notA⟩⟩
        rw [layout, List.append_assoc, List.singleton_append]
      · refine stay (fun y first => ?_) ?_
        · obtain rfl : b = y := by simpa using first
          exact zero
        · rw [joinRight, after]
          simp [zero]

theorem free_spec (a : Nat) (inv : HeapInv h bufs free [a]) (member : Member h bufs a) :
    ∃ bufs' free', HeapInv (bufFree h (.mem a)) bufs' free' [] ∧ Kept h (bufFree h (.mem a)) bufs bufs' a ∧
      (bufFree h (.mem a)).blocks = h.blocks := by
  obtain ⟨b0, block, inside⟩ := member
  obtain ⟨l, r, layout⟩ := List.append_of_mem inside
  obtain ⟨x, h1, bufs1, free1, l', left, joined, quietLeft⟩ := join_left h bufs free b0 a l r inv block layout
  have block1 : b0 ∈ h1.blocks := joined.sameBlocks ▸ block
  obtain ⟨bufs2, free2, r', second, quietRight⟩ := join_right h1 bufs1 free1 b0 x l' r joined.inv block1 joined.layout
  generalize final : joinRight h1 (.mem x) = h2 at second
  have block2 : b0 ∈ h2.blocks := second.sameBlocks ▸ block1
  have inside2 : x ∈ bufs2 b0 := by
    rw [second.layout]
    simp
  have bounds := member_bounds h2 bufs2 free2 [x] second.inv b0 x block2 inside2
  obtain ⟨low, fits⟩ := search_up_class (h2.buflen (.mem x)) (BUF_NSPLIT + 1) 0 bounds.2.2
    (fun _ less => absurd less (Nat.not_lt_zero _)) (by omega)
  have result : bufFree h (.mem a) = freeLink { h2 with links := Function.update h2.links (.mem x) 0 }
      (searchUp (h2.buflen (.mem x)) (BUF_NSPLIT + 1) 0) (.mem x) := by
    rw [bufFree, left]
    dsimp only
    rw [final, if_neg (by omega)]
  have cleared := inv_links h2 bufs2 free2 [x] x 0 second.inv (List.mem_singleton_self x)
  have distinct := buffers_nodup h2 bufs2 free2 [x] second.inv b0 block2
  rw [second.layout] at distinct
  obtain ⟨_, inner, apart⟩ := List.nodup_append.mp distinct
  have quiet : ∀ y, y ≠ x → h.links (.mem y) ≠ 0 → Function.update h2.links (.mem x) 0 (.mem y) ≠ 0 := by
    intro y other busy
    rw [Function.update_of_ne (fun same => other (mem_injective same)), second.sameLinks, joined.sameLinks]
    exact busy
  have settled : ∀ b ∈ h2.blocks, Coalesced { h2 with links := Function.update h2.links (.mem x) 0 } [] (bufs2 b) := by
    intro b isBlock
    by_cases here : b = b0
    · rw [here, second.layout]
      refine coalesced_settled _ [] x l' r' (second.layout ▸ cleared.coalesced b0 block2) distinct ?_ ?_
      · refine fun y last isFree => quiet y (fun same => ?_) (quietLeft y last) isFree.1
        exact apart y (List.mem_of_getLast? last) x (List.mem_cons_self ..) same
      · refine fun y first isFree => quiet y (fun same => ?_) (joined.sameLinks ▸ quietRight y first) isFree.1
        exact (List.nodup_cons.mp inner).1 (same ▸ List.mem_of_head? first)
    · refine coalesced_weaken _ [x] _ [] _ (cleared.coalesced b isBlock) fun c member isFree => ⟨isFree.1, fun same => ?_⟩
      rw [List.mem_singleton.mp same] at member
      exact here (block_unique h2 bufs2 free2 [x] second.inv b b0 x isBlock block2 member inside2)
  have linked := inv_link { h2 with links := Function.update h2.links (.mem x) 0 } bufs2 free2 [] x _ cleared List.not_mem_nil low
    ⟨b0, block2, inside2⟩ (Function.update_self ..) fits settled
  rw [result]
  refine ⟨bufs2, _, linked, ?_, second.sameBlocks.trans joined.sameBlocks⟩
  have both : Kept h h2 bufs bufs2 a := by
    refine kept_trans h h1 h2 bufs bufs1 bufs2 a x joined.kept second.kept ?_
    rcases joined.origin with same | zero
    · exact Or.inl same
    · exact Or.inr (Or.inl zero)
  intro c other member live
  obtain ⟨member', links, len, start, stop⟩ := both c other member live
  refine ⟨member', ?_, len, start, stop⟩
  have different : c ≠ x := by
    rintro rfl
    rcases joined.origin with same | zero
    · exact other same
    · exact live zero
  exact (Function.update_of_ne (fun same => different (mem_injective same)) ..).trans links

end Merge

end MagxNet.Buf
