import MagxNet.Lib.Bytes

set_option autoImplicit false

namespace Labels

open Bytes

-- Lists of labels inside a buffer: a label is its length and its bytes, a zero ends the list, and two bytes with the high bits set
-- stand for the rest of the list, which is somewhere else.
abbrev Label := List Byte

def target (high low : Byte) : Nat := high.toNat % 64 * 256 + low.toNat

-- The list ls stands at p: it takes up size bytes there, and reading it passes weight bytes, all of them from lo on and below hi.
inductive Spells (buf : Buffer) (lo hi : Nat) : Nat → List Label → Nat → Nat → Prop
  | root (p : Nat) : lo ≤ p → p < hi → get8 buf p = 0 → Spells buf lo hi p [] 1 1
  | label (p n weight size : Nat) (rest : List Label) : lo ≤ p → (get8 buf p).toNat = n → 0 < n → n < 64 →
      Spells buf lo hi (p + n + 1) rest weight size →
      Spells buf lo hi p (copyBytes buf (p + 1) n :: rest) (weight + n + 1) (size + n + 1)
  | link (p weight size : Nat) (rest : List Label) : lo ≤ p → p + 1 < hi → 192 ≤ (get8 buf p).toNat →
      Spells buf lo hi (target (get8 buf p) (get8 buf (p + 1))) rest weight size → Spells buf lo hi p rest (weight + 2) 2

section

variable {buf : Buffer} {lo hi : Nat}

theorem spells_start {p weight size : Nat} {ls : List Label} (spells : Spells buf lo hi p ls weight size) :
    lo ≤ p ∧ p + size ≤ hi ∧ 0 < size ∧ size ≤ weight ∧ ls.length < weight := by
  induction spells with
  | root p low high zero => exact ⟨low, high, Nat.one_pos, Nat.le_refl 1, Nat.one_pos⟩
  | label p n weight size rest low _ some _ _ ih => exact ⟨low, by omega, by omega, by omega,
    by simp only [List.length_cons]; omega⟩
  | link p weight size rest low high _ _ ih => exact ⟨low, high, by omega, by omega, by omega⟩

theorem copy_bytes_same (first second : Buffer) (start n : Nat)
    (same : ∀ i, start ≤ i → i < start + n → get8 first i = get8 second i) :
    copyBytes first start n = copyBytes second start n := by
  unfold copyBytes
  refine List.map_congr_left fun i member => same _ (by omega) ?_
  have below := List.mem_range.mp member
  omega

-- The list stays where the bytes it is read from stay.
theorem spells_same (first second : Buffer) {p weight size : Nat} {ls : List Label} (spells : Spells first lo hi p ls weight size)
    (same : ∀ i, lo ≤ i → i < hi → get8 first i = get8 second i) : Spells second lo hi p ls weight size := by
  induction spells with
  | root p low high zero => exact .root p low high ((same p low high).symm.trans zero)
  | label p n weight size rest low length some short after ih =>
      have inside := spells_start after
      rw [copy_bytes_same first second (p + 1) n fun i after before => same i (by omega) (by omega)]
      exact .label p n weight size rest low (by rw [← same p low (by omega)]; exact length) some short ih
  | link p weight size rest low high far _ ih =>
      rw [same p low (by omega), same (p + 1) (by omega) high] at ih
      exact .link p weight size rest low high (by rw [← same p low (by omega)]; exact far) ih

theorem spells_wider {p weight size hi' : Nat} {ls : List Label} (spells : Spells buf lo hi p ls weight size) (wider : hi ≤ hi') :
    Spells buf lo hi' p ls weight size := by
  induction spells with
  | root p low high zero => exact .root p low (by omega) zero
  | label p n weight size rest low length some short _ ih => exact .label p n weight size rest low length some short ih
  | link p weight size rest low high far _ ih => exact .link p weight size rest low (by omega) far ih

-- There is one list at a place.
theorem spells_unique {p weight size weight' size' : Nat} {ls ls' : List Label} (spells : Spells buf lo hi p ls weight size)
    (again : Spells buf lo hi p ls' weight' size') : ls' = ls ∧ weight' = weight ∧ size' = size := by
  induction spells generalizing ls' weight' size' with
  | root p low high zero =>
      cases again with
      | root _ _ _ _ => exact ⟨rfl, rfl, rfl⟩
      | label _ n _ _ _ _ length some _ _ =>
          rw [zero] at length
          exact absurd length (by simpa using some.ne)
      | link _ _ _ _ _ _ far _ =>
          rw [zero] at far
          exact absurd far (by decide)
  | label p n weight size rest low length some short _ ih =>
      cases again with
      | root _ _ _ zero =>
          rw [zero] at length
          exact absurd length (by simpa using some.ne)
      | label _ m _ _ _ _ length' _ _ after =>
          obtain rfl := length.symm.trans length'
          obtain ⟨rfl, rfl, rfl⟩ := ih after
          exact ⟨rfl, rfl, rfl⟩
      | link _ _ _ _ _ _ far _ => omega
  | link p weight size rest low high far _ ih =>
      cases again with
      | root _ _ _ zero =>
          rw [zero] at far
          exact absurd far (by decide)
      | label _ m _ _ _ _ length _ short _ => omega
      | link _ _ _ _ _ _ _ after =>
          obtain ⟨rfl, rfl, -⟩ := ih after
          exact ⟨rfl, rfl, rfl⟩

theorem spells_lengths {p weight size : Nat} {ls : List Label} (spells : Spells buf lo hi p ls weight size) :
    ∀ l ∈ ls, l ≠ [] ∧ l.length < 64 := by
  induction spells with
  | root p low high zero => exact fun l member => absurd member List.not_mem_nil
  | label p n weight size rest low length some short _ ih =>
      intro l member
      obtain rfl | later := List.mem_cons.mp member
      · refine ⟨fun none => ?_, by rw [copy_bytes_length]; exact short⟩
        have empty := congrArg List.length none
        rw [copy_bytes_length] at empty
        exact absurd empty some.ne'
      · exact ih l later
  | link p weight size rest low high far _ ih => exact ih

end

-- How many bytes the list takes up when it is written out.
def wire (ls : List Label) : Nat := (ls.map fun l => l.length + 1).sum + 1

@[simp] theorem wire_nil : wire [] = 1 := rfl

@[simp] theorem wire_cons (l : Label) (ls : List Label) : wire (l :: ls) = l.length + 1 + wire ls := by
  unfold wire
  rw [List.map_cons, List.sum_cons]
  omega

end Labels
