import MagxNet.Resolv.Names

set_option autoImplicit false

namespace MagxNet.Resolv

open Bytes Labels

theorem mask_label (n : Byte) : n &&& INDIR_MASK = 0 ↔ n.toNat < 64 := by
  revert n
  decide +kernel

theorem mask_link (n : Byte) : n &&& INDIR_MASK = INDIR_MASK ↔ 192 ≤ n.toNat := by
  revert n
  decide +kernel

theorem indir_target (n low : Byte) : indir n low = target n low := by
  have bits : (n &&& 0x3f).toNat = n.toNat % 64 := by
    revert n
    decide +kernel
  unfold indir target
  rw [bits, ← Nat.shiftLeft_add_eq_or_of_lt low.isLt, Nat.shiftLeft_eq]

theorem zero_byte (n : Byte) : n = 0 ↔ n.toNat = 0 :=
  ⟨fun zero => congrArg BitVec.toNat zero, fun zero => BitVec.eq_of_toNat_eq zero⟩

-- The string for a list of labels, as dn_expand writes it.
def escape (l : Label) : Buffer := l.flatMap fun c => if c = DOT then [BACKSLASH, c] else [c]

def join (dn : Buffer) (l : Label) : Buffer := (if dn = [] then dn else dn ++ [DOT]) ++ escape l

def render (ls : List Label) : Buffer := ls.foldl join []

@[simp] theorem escape_nil : escape [] = [] := rfl

theorem escape_cons (c : Byte) (l : Label) : escape (c :: l) = (if c = DOT then [BACKSLASH, c] else [c]) ++ escape l := rfl

theorem escape_length (l : Label) : l.length ≤ (escape l).length := by
  induction l with
  | nil => exact Nat.le_refl 0
  | cons c l ih =>
      rw [escape_cons, List.length_append]
      split <;> simp only [List.length_cons, List.length_nil] <;> omega

theorem join_length (dn : Buffer) (l : Label) :
    dn.length + l.length ≤ (join dn l).length ∧ (dn ≠ [] → dn.length + 1 + l.length ≤ (join dn l).length) := by
  have more := escape_length l
  unfold join
  rw [List.length_append]
  split
  · rename_i empty
    exact ⟨by omega, fun full => absurd empty full⟩
  · rw [List.length_append, List.length_singleton]
    exact ⟨by omega, fun _ => by omega⟩

theorem join_ne (dn : Buffer) (l : Label) (full : l ≠ []) : join dn l ≠ [] := by
  intro empty
  have short := (join_length dn l).1
  rw [empty] at short
  have some := List.length_pos_iff.mpr full
  simp only [List.length_nil] at short
  omega

theorem fold_join_length (ls : List Label) (dn : Buffer) : dn.length ≤ (ls.foldl join dn).length := by
  induction ls generalizing dn with
  | nil => exact Nat.le_refl _
  | cons l ls ih => exact Nat.le_trans (Nat.le_trans (Nat.le_add_right _ _) (join_length dn l).1) (ih _)

theorem copy_bytes_cons (msg : Buffer) (cp n : Nat) : copyBytes msg cp (n + 1) = get8 msg cp :: copyBytes msg (cp + 1) n := by
  unfold copyBytes
  rw [List.range_succ_eq_map, List.map_cons, List.map_map, Nat.add_zero]
  refine congrArg (get8 msg cp :: ·) (List.map_congr_left fun i _ => ?_)
  rw [Function.comp_apply, Nat.succ_eq_add_one, Nat.add_assoc, Nat.add_comm i 1]

section

variable (msg : Buffer) (eomorig length : Nat)

-- A label that lies within the message is copied when the string still fits behind it.
theorem copy_label_fits (n cp : Nat) (dn : Buffer) (room : dn.length + n < length) (inside : cp + n < eomorig) :
    copyLabel msg eomorig length n cp dn =
      if (dn ++ escape (copyBytes msg cp n)).length < length then some (cp + n, dn ++ escape (copyBytes msg cp n)) else none := by
  induction n generalizing cp dn with
  | zero =>
      have none : copyBytes msg cp 0 = [] := rfl
      rw [none, escape_nil, List.append_nil, if_pos (by omega)]
      rfl
  | succ n ih =>
      have more := escape_length (copyBytes msg (cp + 1) n)
      rw [copy_bytes_length] at more
      rw [copy_bytes_cons, escape_cons, ← List.append_assoc, copyLabel]
      by_cases dot : get8 msg cp = DOT
      · rw [if_pos dot, if_pos dot]
        by_cases full : length ≤ dn.length + n + 2
        · rw [if_pos ⟨dot, full⟩, if_neg]
          simp only [List.length_append, List.length_cons, List.length_nil]
          omega
        · rw [if_neg fun both => full both.2, if_neg (by omega),
            ih (cp + 1) (dn ++ [BACKSLASH, get8 msg cp]) (by simp; omega) (by omega),
            Nat.add_assoc, Nat.add_comm 1 n]
      · rw [if_neg dot, if_neg dot, if_neg fun both => dot both.1, if_neg (by omega),
          ih (cp + 1) (dn ++ [get8 msg cp]) (by simp; omega) (by omega), Nat.add_assoc, Nat.add_comm 1 n]

theorem copy_label_sound (n cp cp' : Nat) (dn dn' : Buffer) (room : dn.length + n < length)
    (copied : copyLabel msg eomorig length n cp dn = some (cp', dn')) :
    cp' = cp + n ∧ (0 < n → cp' < eomorig) ∧ dn' = dn ++ escape (copyBytes msg cp n) ∧ dn'.length < length := by
  induction n generalizing cp dn with
  | zero =>
      obtain ⟨rfl, rfl⟩ := Prod.mk.inj (Option.some.inj copied)
      exact ⟨rfl, fun none => absurd none (Nat.lt_irrefl 0), (List.append_nil _).symm, room⟩
  | succ n ih =>
      rw [copyLabel] at copied
      split at copied
      · cases copied
      · rename_i fits
        split at copied
        · cases copied
        · rename_i inside
          have room' : (if get8 msg cp = DOT then dn ++ [BACKSLASH, get8 msg cp] else dn ++ [get8 msg cp]).length + n < length := by
            split
            · rename_i dot
              have short := Nat.lt_of_not_le fun full => fits ⟨dot, full⟩
              simp only [List.length_append, List.length_cons, List.length_nil]
              omega
            · simp only [List.length_append, List.length_cons, List.length_nil]
              omega
          obtain ⟨rfl, behind, same, short⟩ := ih (cp + 1) _ room' copied
          refine ⟨by omega, fun _ => ?_, ?_, short⟩
          · by_cases last : n = 0
            · omega
            · exact behind (Nat.pos_of_ne_zero last)
          · rw [copy_bytes_cons, escape_cons, ← List.append_assoc, same]
            split <;> rfl

variable (comp : Nat)

-- A list that stands in the message is what dn_expand makes the string from.
theorem expand_spells {lo hi p weight size : Nat} {ls : List Label} (spells : Spells msg lo hi p ls weight size)
    (inside : hi ≤ eomorig) :
    ∀ fuel dn len checked, weight ≤ fuel → checked + weight ≤ eomorig → dn = [] ∨ dn.length < length →
    expandLoop msg eomorig comp length fuel p dn len checked = .ret (if ls = [] ∨ (ls.foldl join dn).length < length then
    some (len.getD (p + size - comp), ls.foldl join dn) else none) := by
  induction spells with
  | root p low high zero =>
      intro fuel dn len checked enough _ _
      cases fuel with
      | zero => omega
      | succ fuel =>
          rw [expandLoop, zero, if_pos rfl, if_pos (Or.inl rfl)]
          rfl
  | label p n weight size rest low number real short after ih =>
      intro fuel dn len checked enough unlooped fits
      obtain ⟨-, high, full, -, -⟩ := spells_start after
      cases fuel with
      | zero => omega
      | succ fuel =>
          rw [expandLoop]
          dsimp only
          rw [number, if_neg (by rw [zero_byte, number]; omega), if_pos ((mask_label _).mpr (by omega)),
            if_congr (or_iff_right (List.cons_ne_nil _ _)) rfl rfl, List.foldl_cons]
          have last := fold_join_length rest (join dn (copyBytes msg (p + 1) n))
          obtain ⟨grows, grows'⟩ := join_length dn (copyBytes msg (p + 1) n)
          rw [copy_bytes_length] at grows grows'
          have unfit : ∀ front : Buffer, front = (if dn = [] then dn else dn ++ [DOT]) → length ≤ front.length + n →
              ¬ (rest.foldl join (join dn (copyBytes msg (p + 1) n))).length < length := by
            rintro front rfl beyond
            have more : (if dn = [] then dn else dn ++ [DOT]).length + n ≤ (join dn (copyBytes msg (p + 1) n)).length := by
              unfold join
              rw [List.length_append]
              have more := escape_length (copyBytes msg (p + 1) n)
              rw [copy_bytes_length] at more
              omega
            omega
          by_cases beyond : dn ≠ [] ∧ length ≤ dn.length
          · rw [if_pos beyond, if_neg]
            have more := grows' beyond.1
            omega
          · rw [if_neg beyond]
            by_cases wide : length ≤ (if dn = [] then dn else dn ++ [DOT]).length + n
            · rw [if_pos wide, if_neg (unfit _ rfl wide)]
            · have copied := copy_label_fits msg eomorig length n (p + 1) _ (Nat.lt_of_not_le wide) (by omega)
              rw [if_neg wide]
              by_cases small : (join dn (copyBytes msg (p + 1) n)).length < length
              · rw [copied.trans (if_pos small)]
                dsimp only
                rw [Nat.add_right_comm]
                refine (ih fuel _ len (checked + n + 1) (by omega) (by omega) (Or.inr small)).trans ?_
                have place : p + n + 1 + size - comp = p + (size + n + 1) - comp := by omega
                rw [place]
                by_cases last : rest = []
                · rw [last, if_pos (Or.inl rfl), if_pos]
                  exact small
                · rw [if_congr (or_iff_right last) rfl rfl]
              · rw [copied.trans (if_neg small), if_neg (by omega)]
  | link p weight size rest low high far after ih =>
      intro fuel dn len checked enough unlooped fits
      obtain ⟨-, behind, full, heavy, -⟩ := spells_start after
      cases fuel with
      | zero => omega
      | succ fuel =>
          rw [expandLoop]
          dsimp only
          rw [if_neg (by rw [zero_byte]; omega), if_neg (by rw [mask_label]; omega), if_pos ((mask_link _).mpr far), indir_target,
            if_neg (by omega), if_neg (by omega), ih fuel dn _ (checked + 2) (by omega) (by omega) fits]
          rfl

-- What dn_expand returns stands in the memory that it reads, of which at most one byte is behind the message.
theorem expand_sound (fuel cp : Nat) (dn : Buffer) (len : Option Nat) (checked k : Nat) (name : Buffer) (start : cp < eomorig)
    (expanded : expandLoop msg eomorig comp length fuel cp dn len checked = .ret (some (k, name))) :
    ∃ ls weight size, Spells msg 0 (eomorig + 1) cp ls weight size ∧ name = ls.foldl join dn ∧ k = len.getD (cp + size - comp)
      ∧ (ls = [] ∨ name.length < length) := by
  induction fuel generalizing cp dn len checked with
  | zero => cases expanded
  | succ fuel ih =>
      rw [expandLoop] at expanded
      dsimp only at expanded
      split at expanded
      · rename_i zero
        injection expanded with same
        obtain ⟨rfl, rfl⟩ := Prod.mk.inj (Option.some.inj same)
        exact ⟨[], 1, 1, .root cp (Nat.zero_le _) (by omega) zero, rfl, rfl, Or.inl rfl⟩
      · rename_i real
        rw [zero_byte] at real
        split at expanded
        · rename_i plain
          rw [mask_label] at plain
          by_cases full : dn ≠ [] ∧ length ≤ dn.length
          · rw [if_pos full] at expanded
            cases expanded
          · rw [if_neg full] at expanded
            by_cases wide : length ≤ (if dn = [] then dn else dn ++ [DOT]).length + (get8 msg cp).toNat
            · rw [if_pos wide] at expanded
              cases expanded
            · rw [if_neg wide] at expanded
              cases copied : copyLabel msg eomorig length (get8 msg cp).toNat (cp + 1) (if dn = [] then dn else dn ++ [DOT]) with
              | none =>
                  rw [copied] at expanded
                  cases expanded
              | some done =>
                  rw [copied] at expanded
                  obtain ⟨behind, inside, same', short⟩ :=
                    copy_label_sound msg eomorig length _ _ done.1 _ done.2 (Nat.lt_of_not_le wide) copied
                  obtain ⟨ls, weight, size, spells, same, total, fits⟩ := ih _ _ len _ (inside (Nat.pos_of_ne_zero real)) expanded
                  rw [behind, Nat.add_right_comm] at spells
                  rw [same'] at same
                  refine ⟨_, _, _, .label cp _ weight size ls (Nat.zero_le _) rfl (Nat.pos_of_ne_zero real) plain spells, same,
                    ?_, Or.inr ?_⟩
                  · rw [total, behind]
                    congr 1
                    omega
                  · obtain last | small := fits
                    · rw [same, last, ← same']
                      exact short
                    · exact small
        · rename_i far
          split at expanded
          · rename_i link
            rw [mask_link] at link
            rw [indir_target] at expanded
            split at expanded
            · cases expanded
            · rename_i inside
              split at expanded
              · cases expanded
              · obtain ⟨ls, weight, size, spells, same, total, fits⟩ := ih _ _ _ _ (Nat.lt_of_not_le inside) expanded
                exact ⟨ls, _, _, .link cp weight size ls (Nat.zero_le _) (by omega) link spells, same, total, fits⟩
          · cases expanded

theorem copy_label_inside (n cp cp' : Nat) (dn dn' : Buffer) (some' : 0 < n)
    (copied : copyLabel msg eomorig length n cp dn = some (cp', dn')) : cp < cp' ∧ cp' < eomorig := by
  induction n generalizing cp dn with
  | zero => exact absurd some' (Nat.lt_irrefl 0)
  | succ n ih =>
      rw [copyLabel] at copied
      split at copied
      · cases copied
      · split at copied
        · cases copied
        · by_cases last : n = 0
          · subst last
            obtain ⟨rfl, -⟩ := Prod.mk.inj (Option.some.inj copied)
            omega
          · have later := ih (cp + 1) _ (Nat.pos_of_ne_zero last) copied
            omega

-- Each label moves on in the message, and the indirections run out.
theorem expand_ends (fuel cp : Nat) (dn : Buffer) (len : Option Nat) (checked : Nat)
    (enough : 2 * eomorig - checked + 2 ≤ fuel ∧ checked ≤ eomorig ∨ eomorig ≤ checked + 2 ∧ eomorig - cp + 2 ≤ fuel) :
    expandLoop msg eomorig comp length fuel cp dn len checked ≠ .running := by
  induction fuel generalizing cp dn len checked with
  | zero => omega
  | succ fuel ih =>
      rw [expandLoop]
      dsimp only
      split
      · exact nofun
      · rename_i real
        rw [zero_byte] at real
        split
        · by_cases full : dn ≠ [] ∧ length ≤ dn.length
          · rw [if_pos full]
            exact nofun
          · rw [if_neg full]
            by_cases wide : length ≤ (if dn = [] then dn else dn ++ [DOT]).length + (get8 msg cp).toNat
            · rw [if_pos wide]
              exact nofun
            · rw [if_neg wide]
              cases copied : copyLabel msg eomorig length (get8 msg cp).toNat (cp + 1) (if dn = [] then dn else dn ++ [DOT]) with
              | none => exact nofun
              | some done =>
                  have inside := copy_label_inside msg eomorig length _ _ done.1 _ done.2 (Nat.pos_of_ne_zero real) copied
                  refine ih _ _ _ _ ?_
                  omega
        · split
          · split
            · exact nofun
            · split
              · exact nofun
              · refine ih _ _ _ _ ?_
                omega
          · exact nofun

end

end MagxNet.Resolv
