import Mathlib

set_option autoImplicit false

namespace Buckets

-- A table of chains. A key may be in any of them, and more than once.
variable {κ : Type} [DecidableEq κ]

def listed (size : Nat) (tab : Nat → List κ) (key : κ) : Nat := ∑ i ∈ Finset.range size, (tab i).count key

def insert (tab : Nat → List κ) (i : Nat) (key : κ) : Nat → List κ := Function.update tab i (key :: tab i)

def unlink (tab : Nat → List κ) (i : Nat) (key : κ) : Nat → List κ := Function.update tab i ((tab i).erase key)

-- Every key is in the chain that its hash names, and in no other place.
structure Filed (size : Nat) (hash : κ → Nat) (tab : Nat → List κ) : Prop where
  chain : ∀ i key, key ∈ tab i → i = hash key
  once : ∀ i, (tab i).Nodup
  bound : ∀ i key, key ∈ tab i → i < size

theorem listed_update (size i : Nat) (tab : Nat → List κ) (chain : List κ) (key : κ) (inside : i < size) :
    listed size (Function.update tab i chain) key + (tab i).count key = listed size tab key + chain.count key := by
  have member : i ∈ Finset.range size := Finset.mem_range.mpr inside
  unfold listed
  rw [← Finset.add_sum_erase _ _ member, ← Finset.add_sum_erase _ (fun j => (tab j).count key) member, Function.update_self]
  have others : ∑ j ∈ (Finset.range size).erase i, (Function.update tab i chain j).count key
      = ∑ j ∈ (Finset.range size).erase i, (tab j).count key := by
    apply Finset.sum_congr rfl
    intro j other
    rw [Function.update_of_ne (Finset.ne_of_mem_erase other)]
  rw [others]
  omega

theorem count_le_listed (size i : Nat) (tab : Nat → List κ) (key : κ) (inside : i < size) :
    (tab i).count key ≤ listed size tab key := by
  have counted := listed_update size i tab [] key inside
  rw [List.count_nil] at counted
  omega

theorem counts_le_listed (size i j : Nat) (tab : Nat → List κ) (key : κ) (inside : i < size) (inside' : j < size)
    (different : i ≠ j) : (tab i).count key + (tab j).count key ≤ listed size tab key := by
  have counted := listed_update size i tab [] key inside
  have other := count_le_listed size j (Function.update tab i []) key inside'
  rw [List.count_nil] at counted
  rw [Function.update_of_ne different.symm] at other
  omega

theorem listed_insert (size i : Nat) (tab : Nat → List κ) (key : κ) (inside : i < size) :
    listed size (insert tab i key) key = listed size tab key + 1 := by
  have counted := listed_update size i tab (key :: tab i) key inside
  rw [List.count_cons_self] at counted
  unfold insert
  omega

theorem listed_insert_other (size i : Nat) (tab : Nat → List κ) (key other : κ) (inside : i < size) (different : other ≠ key) :
    listed size (insert tab i key) other = listed size tab other := by
  have counted := listed_update size i tab (key :: tab i) other inside
  rw [List.count_cons_of_ne different.symm] at counted
  unfold insert
  omega

theorem listed_unlink (size i : Nat) (tab : Nat → List κ) (key : κ) (inside : i < size) (member : key ∈ tab i) :
    listed size (unlink tab i key) key + 1 = listed size tab key := by
  have counted := listed_update size i tab ((tab i).erase key) key inside
  have present := List.count_pos_iff.mpr member
  rw [List.count_erase_self] at counted
  unfold unlink
  omega

theorem listed_unlink_other (size i : Nat) (tab : Nat → List κ) (key other : κ) (inside : i < size)
    (different : other ≠ key) : listed size (unlink tab i key) other = listed size tab other := by
  have counted := listed_update size i tab ((tab i).erase key) other inside
  rw [List.count_erase_of_ne different] at counted
  unfold unlink
  omega

theorem listed_absent (size : Nat) (tab : Nat → List κ) (key : κ) (absent : ∀ i, key ∉ tab i) : listed size tab key = 0 := by
  apply Finset.sum_eq_zero
  intro i _
  exact List.count_eq_zero_of_not_mem (absent i)

omit [DecidableEq κ] in
theorem mem_insert (tab : Nat → List κ) (i j : Nat) (key other : κ) :
    other ∈ insert tab i key j ↔ (j = i ∧ other = key) ∨ other ∈ tab j := by
  unfold insert
  by_cases here : j = i
  · subst here
    simp
  · rw [Function.update_of_ne here]
    simp [here]

theorem mem_of_unlink (tab : Nat → List κ) (i j : Nat) (key other : κ) (member : other ∈ unlink tab i key j) : other ∈ tab j := by
  unfold unlink at member
  by_cases here : j = i
  · subst here
    rw [Function.update_self] at member
    exact List.mem_of_mem_erase member
  · rwa [Function.update_of_ne here] at member

theorem mem_unlink_other (tab : Nat → List κ) (i j : Nat) (key other : κ) (different : other ≠ key) :
    other ∈ unlink tab i key j ↔ other ∈ tab j := by
  refine ⟨mem_of_unlink tab i j key other, fun member => ?_⟩
  unfold unlink
  by_cases here : j = i
  · subst here
    rw [Function.update_self]
    exact (List.mem_erase_of_ne different).mpr member
  · rwa [Function.update_of_ne here]

theorem filed_unlinked (size i : Nat) (hash : κ → Nat) (tab : Nat → List κ) (key : κ) (filed : Filed size hash tab)
    (here : i = hash key) (j : Nat) : key ∉ unlink tab i key j := by
  intro member
  have place := filed.chain j key (mem_of_unlink tab i j key key member)
  unfold unlink at member
  rw [place, ← here, Function.update_self] at member
  exact (List.Nodup.not_mem_erase (filed.once i)) member

theorem filed_unlink (size i : Nat) (hash : κ → Nat) (tab : Nat → List κ) (key : κ) (filed : Filed size hash tab) :
    Filed size hash (unlink tab i key) := by
  refine ⟨fun j other member => filed.chain j other (mem_of_unlink tab i j key other member), ?_,
    fun j other member => filed.bound j other (mem_of_unlink tab i j key other member)⟩
  intro j
  unfold unlink
  by_cases here : j = i
  · subst here
    rw [Function.update_self]
    exact (filed.once j).erase key
  · rw [Function.update_of_ne here]
    exact filed.once j

omit [DecidableEq κ] in
theorem filed_insert (size : Nat) (hash : κ → Nat) (tab : Nat → List κ) (key : κ) (filed : Filed size hash tab)
    (inside : hash key < size) (absent : ∀ i, key ∉ tab i) : Filed size hash (insert tab (hash key) key) := by
  refine ⟨?_, ?_, ?_⟩
  · intro j other member
    rcases (mem_insert tab (hash key) j key other).mp member with ⟨here, same⟩ | old
    · rw [here, same]
    · exact filed.chain j other old
  · intro j
    unfold insert
    by_cases here : j = hash key
    · subst here
      rw [Function.update_self]
      exact List.nodup_cons.mpr ⟨absent (hash key), filed.once (hash key)⟩
    · rw [Function.update_of_ne here]
      exact filed.once j
  · intro j other member
    rcases (mem_insert tab (hash key) j key other).mp member with ⟨here, _⟩ | old
    · rwa [here]
    · exact filed.bound j other old

-- Only the hash of what is filed matters.
omit [DecidableEq κ] in
theorem filed_rehash (size : Nat) (hash other : κ → Nat) (tab : Nat → List κ) (filed : Filed size hash tab)
    (same : ∀ i key, key ∈ tab i → other key = hash key) : Filed size other tab :=
  ⟨fun i key member => (filed.chain i key member).trans (same i key member).symm, filed.once, filed.bound⟩

theorem listed_filed (size : Nat) (hash : κ → Nat) (tab : Nat → List κ) (key : κ) (filed : Filed size hash tab)
    (member : key ∈ tab (hash key)) : listed size tab key = 1 := by
  have inside := filed.bound _ _ member
  have gone := listed_absent size (unlink tab (hash key) key) key
    (filed_unlinked size (hash key) hash tab key filed rfl)
  have counted := listed_unlink size (hash key) tab key inside member
  omega

end Buckets
