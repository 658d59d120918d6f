import MagxNet.Resolv.Expand

set_option autoImplicit false

namespace MagxNet.Resolv

open Bytes Labels

-- The first label of a dotted name, its escapes taken off, and what is behind its dot.
def takeLabel : List Byte → Label × List Byte
  | [] => ([], [])
  | c :: dn =>
      if c = DOT then ([], dn)
      else if c = BACKSLASH then
        match dn with
        | [] => ([], [])
        | e :: dn => (e :: (takeLabel dn).1, (takeLabel dn).2)
      else (c :: (takeLabel dn).1, (takeLabel dn).2)

-- The labels that a string names. A last dot may be doubled, and a backslash at the end escapes nothing.
inductive Named : List Byte → List Label → Prop
  | root (s : List Byte) : takeLabel s = ([], []) → Named s []
  | label (s : List Byte) (ls : List Label) : (takeLabel s).1 ≠ [] → (takeLabel s).1.length ≤ NS_MAXLABEL →
      Named (takeLabel s).2 ls → Named s ((takeLabel s).1 :: ls)

theorem named_unique (s : List Byte) (ls ls' : List Label) (named : Named s ls) (again : Named s ls') : ls' = ls := by
  induction named generalizing ls' with
  | root s empty =>
      cases again with
      | root _ _ => rfl
      | label _ _ full _ _ => exact absurd (congrArg Prod.fst empty) full
  | label s ls full _ _ ih =>
      cases again with
      | root _ empty => exact absurd (congrArg Prod.fst empty) full
      | label _ ls' _ _ after => rw [ih ls' after]

theorem take_label_shorter (s : List Byte) (some' : s ≠ []) : (takeLabel s).2.length < s.length := by
  fun_induction takeLabel s with
  | case1 => exact absurd rfl some'
  | case2 dn => simp
  | case3 => simp
  | case4 e dn _ ih =>
      by_cases empty : dn = []
      · subst empty
        simp [takeLabel]
      · have shorter := ih empty
        simp only [List.length_cons]
        omega
  | case5 c dn _ _ ih =>
      by_cases empty : dn = []
      · subst empty
        simp [takeLabel]
      · have shorter := ih empty
        simp only [List.length_cons]
        omega

-- Nothing comes out of a string that is not in it.
theorem take_label_subset (s : List Byte) : (∀ b ∈ (takeLabel s).1, b ∈ s) ∧ ∀ b ∈ (takeLabel s).2, b ∈ s := by
  fun_induction takeLabel s with
  | case1 => exact ⟨fun b member => member, fun b member => member⟩
  | case2 dn => exact ⟨fun b member => absurd member List.not_mem_nil, fun b member => List.mem_cons_of_mem _ member⟩
  | case3 => exact ⟨fun b member => absurd member List.not_mem_nil, fun b member => absurd member List.not_mem_nil⟩
  | case4 e dn _ ih =>
      refine ⟨fun b member => ?_, fun b member => List.mem_cons_of_mem _ (List.mem_cons_of_mem _ (ih.2 b member))⟩
      obtain rfl | later := List.mem_cons.mp member
      · exact List.mem_cons_of_mem _ List.mem_cons_self
      · exact List.mem_cons_of_mem _ (List.mem_cons_of_mem _ (ih.1 b later))
  | case5 c dn _ _ ih =>
      refine ⟨fun b member => ?_, fun b member => List.mem_cons_of_mem _ (ih.2 b member)⟩
      obtain rfl | later := List.mem_cons.mp member
      · exact List.mem_cons_self
      · exact List.mem_cons_of_mem _ (ih.1 b later)

-- C strings and what comes from them hold no NUL.
def Clean (s : List Byte) : Prop := (0 : Byte) ∉ s

instance (s : List Byte) : Decidable (Clean s) := inferInstanceAs (Decidable (¬ _))

theorem clean_label (s : List Byte) (clean : Clean s) : Clean (takeLabel s).1 ∧ Clean (takeLabel s).2 :=
  ⟨fun member => clean ((take_label_subset s).1 0 member), fun member => clean ((take_label_subset s).2 0 member)⟩

theorem clean_head (s : List Byte) (clean : Clean s) (zero : s.headD 0 = 0) : s = [] := by
  cases s with
  | nil => rfl
  | cons c s => exact absurd (show (0 : Byte) ∈ c :: s by rw [show c = 0 from zero]; exact List.mem_cons_self) clean

section

variable (msg : Buffer)

theorem match_label_dot (n : Nat) (dn : List Byte) (cp : Nat) : matchLabel msg (n + 1) (DOT :: dn) cp = none := if_pos rfl

theorem match_label_escaped (n : Nat) (dn : List Byte) (cp : Nat) :
    matchLabel msg (n + 1) (BACKSLASH :: dn) cp = if dn.headD 0 = get8 msg cp then matchLabel msg n dn.tail (cp + 1)
      else none := rfl

theorem match_label_plain (n : Nat) (dn : List Byte) (cp : Nat) (dot : dn.headD 0 ≠ DOT) (escaped : dn.headD 0 ≠ BACKSLASH) :
    matchLabel msg (n + 1) dn cp = if dn.headD 0 = get8 msg cp then matchLabel msg n dn.tail (cp + 1) else none := by
  rw [matchLabel, if_neg dot]
  dsimp only
  rw [if_neg escaped]

theorem match_label_place (n : Nat) (dn : List Byte) (cp : Nat) (dn' : List Byte) (cp' : Nat)
    (matched : matchLabel msg n dn cp = some (dn', cp')) : cp' = cp + n := by
  induction n generalizing dn cp with
  | zero => exact (Prod.mk.inj (Option.some.inj matched)).2.symm
  | succ n ih =>
      rw [matchLabel] at matched
      split at matched
      · cases matched
      · generalize (if dn.headD 0 = BACKSLASH then dn.tail else dn) = d at matched
        dsimp only at matched
        split at matched
        · have later := ih _ _ matched
          omega
        · cases matched

theorem match_label_spec (n : Nat) (dn : List Byte) (cp : Nat) (dn' : List Byte) (cp' : Nat)
    (matched : matchLabel msg n dn cp = some (dn', cp')) (clean : Clean (copyBytes msg cp n)) :
    takeLabel dn = (copyBytes msg cp n ++ (takeLabel dn').1, (takeLabel dn').2) ∧ ∀ b ∈ dn', b ∈ dn := by
  induction n generalizing dn cp with
  | zero =>
      obtain ⟨rfl, -⟩ := Prod.mk.inj (Option.some.inj matched)
      exact ⟨rfl, fun b member => member⟩
  | succ n ih =>
      rw [copy_bytes_cons] at clean ⊢
      have first : get8 msg cp ≠ 0 := fun zero => clean (zero ▸ List.mem_cons_self)
      have rest : Clean (copyBytes msg (cp + 1) n) := fun member => clean (List.mem_cons_of_mem _ member)
      have ended : ∀ d : List Byte, d = [] → d.headD 0 ≠ get8 msg cp := by
        rintro d rfl same
        exact first same.symm
      cases dn with
      | nil =>
          rw [match_label_plain msg n [] cp (by decide) (by decide), if_neg (ended [] rfl)] at matched
          cases matched
      | cons c dn =>
          by_cases dot : c = DOT
          · rw [dot, match_label_dot] at matched
            cases matched
          · by_cases escaped : c = BACKSLASH
            · rw [escaped, match_label_escaped] at matched
              cases dn with
              | nil =>
                  rw [if_neg (ended [] rfl)] at matched
                  cases matched
              | cons e dn =>
                  split at matched
                  · rename_i same
                    obtain ⟨taken, subset⟩ := ih dn (cp + 1) matched rest
                    refine ⟨?_, fun b member => List.mem_cons_of_mem _ (List.mem_cons_of_mem _ (subset b member))⟩
                    rw [takeLabel, if_neg dot, if_pos escaped]
                    rw [taken, ← same]
                    rfl
                  · cases matched
            · rw [match_label_plain msg n (c :: dn) cp dot escaped] at matched
              split at matched
              · rename_i same
                obtain ⟨taken, subset⟩ := ih dn (cp + 1) matched rest
                refine ⟨?_, fun b member => List.mem_cons_of_mem _ (subset b member)⟩
                rw [takeLabel.eq_def]
                dsimp only
                rw [if_neg dot, if_neg escaped, taken, ← same]
                rfl
              · cases matched

-- A name that dn_find accepts is what stands at the place.
theorem find_at_named {lo hi p weight size : Nat} {ls : List Label} (spells : Spells msg lo hi p ls weight size)
    (plain : ∀ l ∈ ls, Clean l) : ∀ fuel dn, Clean dn → findAt msg fuel dn p = .ret .here → Named dn ls ∧ (ls = [] → dn = []) := by
  induction spells with
  | root p low high zero =>
      intro fuel dn clean found
      cases fuel with
      | zero => cases found
      | succ fuel =>
          rw [findAt, zero, if_pos rfl] at found
          split at found
          · rename_i empty
            exact ⟨empty ▸ .root [] rfl, fun _ => empty⟩
          · cases found
  | label p n weight size rest low number real short after ih =>
      intro fuel dn clean found
      cases fuel with
      | zero => cases found
      | succ fuel =>
          rw [findAt] at found
          rw [number, if_neg (by rw [zero_byte, number]; omega), if_pos ((mask_label _).mpr (by omega))] at found
          cases matched : matchLabel msg n dn (p + 1) with
          | none =>
              rw [matched] at found
              cases found
          | some left =>
              obtain ⟨dn', cp'⟩ := left
              have first := plain _ List.mem_cons_self
              obtain ⟨taken, subset⟩ := match_label_spec msg n dn (p + 1) dn' cp' matched first
              obtain rfl := match_label_place msg n dn (p + 1) dn' cp' matched
              have clean' : Clean dn' := fun member => clean (subset 0 member)
              rw [matched] at found
              dsimp only at found
              have label : ∀ ls', takeLabel dn' = ([], ls') → Named ls' rest → Named dn (copyBytes msg (p + 1) n :: rest) := by
                intro ls' here named
                rw [here] at taken
                have whole : takeLabel dn = (copyBytes msg (p + 1) n, ls') := taken.trans (by rw [List.append_nil])
                have made := Named.label dn rest (by
                  rw [whole]
                  intro empty
                  have none := congrArg List.length empty
                  rw [copy_bytes_length] at none
                  exact absurd none real.ne') (by
                  rw [whole, copy_bytes_length]
                  exact Nat.le_of_lt_succ short) (by
                  rw [whole]
                  exact named)
                rw [whole] at made
                exact made
              refine ⟨?_, fun empty => absurd empty (List.cons_ne_nil _ _)⟩
              split at found
              · rename_i last
                have empty := clean_head dn' clean' last.1
                have done : rest = [] := by
                  rw [Nat.add_right_comm] at last
                  cases after with
                  | root _ _ _ _ => rfl
                  | label _ m _ _ _ _ number' real' _ _ =>
                      rw [last.2] at number'
                      exact absurd number' (by simpa using real'.ne)
                  | link _ _ _ _ _ _ far _ =>
                      rw [last.2] at far
                      exact absurd far (by decide)
                exact label [] (by rw [empty]; rfl) (by rw [done]; exact .root [] rfl)
              · split at found
                · rename_i dot
                  cases dn' with
                  | nil => exact absurd dot (by decide)
                  | cons d dn' =>
                      rw [Nat.add_right_comm] at found
                      refine label dn' ?_ (ih (fun l member => plain l (List.mem_cons_of_mem _ member)) fuel dn'
                        (fun member => clean' (List.mem_cons_of_mem _ member)) found).1
                      rw [takeLabel.eq_def]
                      exact if_pos dot
                · cases found
  | link p weight size rest low high far after ih =>
      intro fuel dn clean found
      cases fuel with
      | zero => cases found
      | succ fuel =>
          rw [findAt] at found
          rw [if_neg (by rw [zero_byte]; omega), if_neg (by rw [mask_label]; omega), if_pos ((mask_link _).mpr far),
            indir_target] at found
          exact ih plain fuel dn clean found

theorem find_at_answers {lo hi p weight size : Nat} {ls : List Label} (spells : Spells msg lo hi p ls weight size) :
    ∀ fuel dn, weight ≤ fuel → findAt msg fuel dn p = .ret .here ∨ findAt msg fuel dn p = .ret .next := by
  induction spells with
  | root p low high zero =>
      intro fuel dn enough
      cases fuel with
      | zero => omega
      | succ fuel =>
          rw [findAt, zero, if_pos rfl]
          split
          · exact Or.inl rfl
          · exact Or.inr rfl
  | label p n weight size rest low number real short after ih =>
      intro fuel dn enough
      cases fuel with
      | zero => omega
      | succ fuel =>
          rw [findAt]
          rw [number, if_neg (by rw [zero_byte, number]; omega), if_pos ((mask_label _).mpr (by omega))]
          cases matched : matchLabel msg n dn (p + 1) with
          | none => exact Or.inr rfl
          | some left =>
              obtain ⟨dn', cp'⟩ := left
              dsimp only
              split
              · exact Or.inl rfl
              · split
                · rw [match_label_place msg n dn (p + 1) dn' cp' matched, Nat.add_right_comm]
                  exact ih fuel dn'.tail (by omega)
                · exact Or.inr rfl
  | link p weight size rest low high far after ih =>
      intro fuel dn enough
      cases fuel with
      | zero => omega
      | succ fuel =>
          rw [findAt]
          rw [if_neg (by rw [zero_byte]; omega), if_neg (by rw [mask_label]; omega), if_pos ((mask_link _).mpr far), indir_target]
          exact ih fuel dn (by omega)

-- A place below hi at which a clean list stands.
def Known (lo hi p : Nat) : Prop := ∃ ls weight size, Spells msg lo hi p ls weight size ∧ (∀ l ∈ ls, Clean l) ∧ weight ≤ hi

theorem find_spec (lo hi fuel : Nat) (dn : List Byte) (ptrs : List Nat) (known : ∀ p ∈ ptrs, Known msg lo hi p) (enough : hi ≤ fuel)
    (clean : Clean dn) :
    dnFind msg fuel dn ptrs = .ret none ∨ ∃ l ls weight size, dnFind msg fuel dn ptrs = .ret (some l)
      ∧ Spells msg lo hi l ls weight size ∧ (∀ l ∈ ls, Clean l) ∧ weight ≤ hi ∧ Named dn ls ∧ (ls = [] → dn = []) := by
  induction ptrs with
  | nil => exact Or.inl rfl
  | cons p ptrs ih =>
      obtain ⟨ls, weight, size, spells, plain, light⟩ := known p List.mem_cons_self
      rw [dnFind]
      obtain here | next := find_at_answers msg spells fuel dn (by omega)
      · rw [here, Outcome.ret_bind]
        obtain ⟨named, empty⟩ := find_at_named msg spells plain fuel dn clean here
        exact Or.inr ⟨p, ls, weight, size, rfl, spells, plain, light, named, empty⟩
      · rw [next, Outcome.ret_bind]
        exact ih fun q member => known q (List.mem_cons_of_mem _ member)

end

-- Bytes put one after the other.
def putAll (msg : Buffer) : Nat → List Byte → Buffer
  | _, [] => msg
  | cp, c :: l => putAll (put8 msg cp c) (cp + 1) l

theorem put_all_length (msg : Buffer) (cp : Nat) (l : List Byte) : (putAll msg cp l).length = msg.length := by
  induction l generalizing msg cp with
  | nil => rfl
  | cons c l ih => exact (ih _ _).trans (put8_length msg cp c)

theorem put_all_outside (msg : Buffer) (cp i : Nat) (l : List Byte) (outside : i < cp ∨ cp + l.length ≤ i) :
    get8 (putAll msg cp l) i = get8 msg i := by
  induction l generalizing msg cp with
  | nil => rfl
  | cons c l ih =>
      simp only [List.length_cons] at outside
      exact (ih _ _ (by omega)).trans (get8_put8_elsewhere msg cp i c (by omega))

theorem put_all_copy (msg : Buffer) (cp : Nat) (l : List Byte) (inside : cp + l.length ≤ msg.length) :
    copyBytes (putAll msg cp l) cp l.length = l := by
  induction l generalizing msg cp with
  | nil => rfl
  | cons c l ih =>
      simp only [List.length_cons] at inside ⊢
      rw [putAll, copy_bytes_cons, put_all_outside _ _ _ _ (Or.inl (Nat.lt_succ_self cp)), get8_put8_here msg cp c (by omega),
        ih _ _ (by rw [put8_length]; omega)]

-- The label l is written from cp on and rest is left, or the room runs out.
def Writes (eob : Nat) (msg : Buffer) (cp : Nat) (l : Label) (rest : List Byte) (done : Buffer × Option (Nat × List Byte)) : Prop :=
  done = (putAll msg cp l, some (cp + l.length, rest)) ∧ (l = [] ∨ cp + l.length ≤ eob)
    ∨ done.2 = none ∧ done.1.length = msg.length ∧ (∀ i, i < cp ∨ eob ≤ i → get8 done.1 i = get8 msg i) ∧ eob < cp + l.length

theorem writes_next (eob : Nat) (msg : Buffer) (cp : Nat) (c : Byte) (l : Label) (rest : List Byte)
    (done : Buffer × Option (Nat × List Byte)) (room : ¬ eob ≤ cp) (writes : Writes eob (put8 msg cp c) (cp + 1) l rest done) :
    Writes eob msg cp (c :: l) rest done := by
  unfold Writes at writes ⊢
  simp only [List.length_cons]
  obtain ⟨wrote, fits⟩ | ⟨failed, length, same, beyond⟩ := writes
  · refine Or.inl ⟨?_, Or.inr ?_⟩
    · rw [wrote, putAll, Nat.add_assoc, Nat.add_comm 1]
    · obtain empty | fits := fits
      · rw [empty]
        simp only [List.length_nil]
        omega
      · omega
  · refine Or.inr ⟨failed, length.trans (put8_length msg cp c), fun i outside => ?_, by omega⟩
    exact (same i (by omega)).trans (get8_put8_elsewhere msg cp i c (by omega))

theorem writes_full (eob : Nat) (msg : Buffer) (cp : Nat) (c : Byte) (l : Label) (rest : List Byte) (full : eob ≤ cp) :
    Writes eob msg cp (c :: l) rest (msg, none) :=
  Or.inr ⟨rfl, rfl, fun _ _ => rfl, by simp only [List.length_cons]; omega⟩

-- dn_comp writes a label as far as there is room.
theorem label_loop_writes (eob : Nat) (s : List Byte) (msg : Buffer) (cp : Nat) :
    Writes eob msg cp (takeLabel s).1 (takeLabel s).2 (labelLoop eob s msg cp) := by
  fun_induction takeLabel s generalizing msg cp with
  | case1 => exact Or.inl ⟨rfl, Or.inl rfl⟩
  | case2 dn => exact Or.inl ⟨by rw [labelLoop.eq_def]; exact if_pos rfl, Or.inl rfl⟩
  | case3 => exact Or.inl ⟨rfl, Or.inl rfl⟩
  | case4 e dn _ ih =>
      have shape : labelLoop eob (BACKSLASH :: e :: dn) msg cp
          = if eob ≤ cp then (msg, none) else labelLoop eob dn (put8 msg cp e) (cp + 1) := by
        rw [labelLoop]
        rfl
      rw [shape]
      by_cases full : eob ≤ cp
      · rw [if_pos full]
        exact writes_full eob msg cp e _ _ full
      · rw [if_neg full]
        exact writes_next eob msg cp e _ _ _ full (ih (put8 msg cp e) (cp + 1))
  | case5 c dn dot escaped ih =>
      have shape : labelLoop eob (c :: dn) msg cp
          = if eob ≤ cp then (msg, none) else labelLoop eob dn (put8 msg cp c) (cp + 1) := by
        rw [labelLoop.eq_def]
        dsimp only
        rw [if_neg dot, if_neg escaped]
      rw [shape]
      by_cases full : eob ≤ cp
      · rw [if_pos full]
        exact writes_full eob msg cp c _ _ full
      · rw [if_neg full]
        exact writes_next eob msg cp c _ _ _ full (ih (put8 msg cp c) (cp + 1))

-- The bytes of an indirection to l.
theorem link_bytes (l : Nat) (near : l < 2 ^ 14) :
    192 ≤ (BitVec.ofNat 8 (l >>> 8) ||| INDIR_MASK).toNat
      ∧ target (BitVec.ofNat 8 (l >>> 8) ||| INDIR_MASK) (BitVec.ofNat 8 (l % 256)) = l := by
  have marked : ∀ h : BitVec 8, h.toNat < 64 → (h ||| INDIR_MASK).toNat = h.toNat + 192 := by decide +kernel
  have high : (BitVec.ofNat 8 (l >>> 8)).toNat = l / 256 := by
    rw [BitVec.toNat_ofNat, Nat.shiftRight_eq_div_pow]
    omega
  have whole := marked (BitVec.ofNat 8 (l >>> 8)) (by omega)
  have low : (BitVec.ofNat 8 (l % 256)).toNat = l % 256 := by
    rw [BitVec.toNat_ofNat]
    omega
  unfold target
  rw [whole, high, low]
  omega

-- What one call of dn_comp has got from cp on: the name stands there, and so do the names that it has put on the list.
structure Wrote (a : CompArgs) (lo : Nat) (s : List Byte) (msg : Buffer) (cp : Nat) (ptrs : List Nat) (k : Nat)
    (c : Comp) : Prop where
  more : cp < a.comp + k
  room : a.comp + k ≤ a.eob
  stands : ∃ ls weight, Named s ls ∧ Spells c.msg lo (a.comp + k) cp ls weight (a.comp + k - cp) ∧ (∀ l ∈ ls, Clean l)
    ∧ weight + cp ≤ a.comp + k + a.comp ∧ a.comp + k ≤ cp + wire ls
  same : ∀ i, i < cp ∨ a.comp + k ≤ i → get8 c.msg i = get8 msg i
  ptrs : ∃ new, c.ptrs = ptrs ++ new ∧ ∀ p ∈ new, cp ≤ p ∧ Known c.msg lo (a.comp + k) p

-- What dn_comp comes to from some point on.
structure Comes (a : CompArgs) (lo : Nat) (s : List Byte) (msg : Buffer) (cp : Nat) (ptrs : List Nat) (c : Comp) : Prop where
  length : c.msg.length = msg.length
  same : ∀ i, i < cp ∨ a.eob ≤ i → get8 c.msg i = get8 msg i
  wrote : ∀ k, c.ret = some k → Wrote a lo s msg cp ptrs k c
  fits : ∀ ls, Named s ls → cp + wire ls ≤ a.eob → c.ret ≠ none

theorem comes_fail (a : CompArgs) (lo : Nat) (s : List Byte) (msg msg' : Buffer) (cp : Nat) (ptrs ptrs' : List Nat)
    (length : msg'.length = msg.length) (same : ∀ i, i < cp ∨ a.eob ≤ i → get8 msg' i = get8 msg i)
    (never : ∀ ls, Named s ls → a.eob < cp + wire ls) : Comes a lo s msg cp ptrs ⟨none, msg', ptrs'⟩ :=
  ⟨length, same, nofun, fun ls named fits => absurd fits (Nat.not_le_of_lt (never ls named))⟩

theorem saved_or_not (a : CompArgs) (ptrs : List Nat) (cp : Nat) :
    saveName a ptrs cp = ptrs ∨ saveName a ptrs cp = ptrs ++ [cp] := by
  unfold saveName
  split
  · exact Or.inr rfl
  · exact Or.inl rfl

theorem known_same (first second : Buffer) (lo hi p : Nat) (known : Known first lo hi p)
    (same : ∀ i, lo ≤ i → i < hi → get8 first i = get8 second i) : Known second lo hi p := by
  obtain ⟨ls, weight, size, spells, plain, light⟩ := known
  exact ⟨ls, weight, size, spells_same first second spells same, plain, light⟩

theorem comp_end_comes (a : CompArgs) (lo : Nat) (low : lo ≤ a.comp) (s : List Byte) (msg : Buffer) (cp : Nat)
    (ptrs ptrs' : List Nat) (start : a.comp ≤ cp) (inside : a.eob ≤ msg.length) (empty : takeLabel s = ([], []))
    (saved : ptrs' = ptrs ∨ ptrs' = ptrs ++ [cp]) : Comes a lo s msg cp ptrs (compEnd a msg cp ptrs') := by
  unfold compEnd
  split
  · rename_i full
    refine comes_fail a lo s msg msg cp ptrs _ rfl (fun _ _ => rfl) fun ls named => ?_
    rw [named_unique s [] ls (.root s empty) named, wire_nil]
    omega
  · rename_i room
    have elsewhere : ∀ i, i ≠ cp → get8 (put8 msg cp 0) i = get8 msg i := fun i other => get8_put8_elsewhere msg cp i 0 other.symm
    have spells : Spells (put8 msg cp 0) lo (cp + 1) cp [] 1 1 :=
      .root cp (by omega) (Nat.lt_succ_self cp) (get8_put8_here msg cp 0 (by omega))
    refine ⟨put8_length _ _ _, fun i outside => elsewhere i (by omega), fun k returned => ?_, fun _ _ _ => nofun⟩
    obtain rfl := Option.some.inj returned
    have finish : a.comp + (cp + 1 - a.comp) = cp + 1 := by omega
    refine ⟨by omega, by omega, ?_, fun i outside => elsewhere i (by omega), ?_⟩
    · rw [finish]
      refine ⟨[], 1, .root s empty, ?_, fun l member => absurd member List.not_mem_nil, by omega, Nat.le_refl _⟩
      rw [Nat.add_sub_cancel_left]
      exact spells
    · obtain same | same := saved
      · exact ⟨[], by rw [List.append_nil]; exact same, fun p member => absurd member List.not_mem_nil⟩
      · refine ⟨[cp], same, fun p member => ?_⟩
        rw [List.mem_singleton.mp member, finish]
        exact ⟨Nat.le_refl cp, [], 1, 1, spells, fun l member => absurd member List.not_mem_nil, by omega⟩

theorem comp_link_comes (a : CompArgs) (lo : Nat) (low : lo ≤ a.comp) (near : a.comp ≤ 2 ^ 14) (s : List Byte) (msg : Buffer)
    (cp l : Nat) (ptrs : List Nat) (ls : List Label) (weight size : Nat) (start : a.comp ≤ cp) (inside : a.eob ≤ msg.length)
    (spells : Spells msg lo a.comp l ls weight size) (plain : ∀ l ∈ ls, Clean l) (light : weight ≤ a.comp) (named : Named s ls)
    (full : ls ≠ []) : Comes a lo s msg cp ptrs (compLink a msg cp l ptrs) := by
  obtain ⟨-, behind, size', -, -⟩ := spells_start spells
  unfold compLink
  split
  · rename_i crowded
    refine comes_fail a lo s msg msg cp ptrs _ rfl (fun _ _ => rfl) fun ls' named' => ?_
    obtain rfl := named_unique s ls ls' named named'
    cases ls' with
    | nil => exact absurd rfl full
    | cons first rest =>
        have some' := List.length_pos_iff.mpr (spells_lengths spells first List.mem_cons_self).1
        have last : 1 ≤ wire rest := Nat.le_add_left 1 _
        rw [wire_cons]
        omega
  · rename_i room
    obtain ⟨far, there⟩ := link_bytes l (by omega)
    have elsewhere : ∀ i, i ≠ cp → i ≠ cp + 1 → get8 (put8 (put8 msg cp (BitVec.ofNat 8 (l >>> 8) ||| INDIR_MASK)) (cp + 1)
        (BitVec.ofNat 8 (l % 256))) i = get8 msg i := fun i one two =>
      (get8_put8_elsewhere _ _ _ _ two.symm).trans (get8_put8_elsewhere _ _ _ _ one.symm)
    refine ⟨by rw [put8_length, put8_length], fun i outside => elsewhere i (by omega) (by omega), fun k returned => ?_,
      fun _ _ _ => nofun⟩
    obtain rfl := Option.some.inj returned
    have finish : a.comp + (cp + 2 - a.comp) = cp + 2 := by omega
    refine ⟨by omega, by omega, ?_, fun i outside => elsewhere i (by omega) (by omega),
      [], (List.append_nil _).symm, fun p member => absurd member List.not_mem_nil⟩
    rw [finish]
    have longer : 2 ≤ wire ls := by
      cases ls with
      | nil => exact absurd rfl full
      | cons first rest =>
          have last : 1 ≤ wire rest := Nat.le_add_left 1 _
          rw [wire_cons]
          omega
    refine ⟨ls, weight + 2, named, ?_, plain, by omega, by omega⟩
    rw [Nat.add_sub_cancel_left]
    have first : get8 (put8 (put8 msg cp (BitVec.ofNat 8 (l >>> 8) ||| INDIR_MASK)) (cp + 1) (BitVec.ofNat 8 (l % 256))) cp
        = BitVec.ofNat 8 (l >>> 8) ||| INDIR_MASK :=
      (get8_put8_elsewhere _ _ _ _ (by omega)).trans (get8_put8_here _ _ _ (by omega))
    have second : get8 (put8 (put8 msg cp (BitVec.ofNat 8 (l >>> 8) ||| INDIR_MASK)) (cp + 1) (BitVec.ofNat 8 (l % 256))) (cp + 1)
        = BitVec.ofNat 8 (l % 256) := get8_put8_here _ _ _ (by rw [put8_length]; omega)
    refine .link cp weight size ls (by omega) (by omega) (by rw [first]; exact far) ?_
    rw [first, second, there]
    exact spells_wider (spells_same msg _ spells fun i from' below => (elsewhere i (by omega) (by omega)).symm) (by omega)

-- One more label in front of what comes behind it.
theorem comes_label (a : CompArgs) (lo : Nat) (low : lo ≤ a.comp) (s : List Byte) (msg : Buffer) (cp : Nat)
    (ptrs ptrs' : List Nat) (c : Comp) (start : a.comp ≤ cp) (inside : a.eob ≤ msg.length) (clean : Clean s)
    (some' : (takeLabel s).1 ≠ []) (short : (takeLabel s).1.length ≤ NS_MAXLABEL) (room : cp + 1 + (takeLabel s).1.length ≤ a.eob)
    (saved : ptrs' = ptrs ∨ ptrs' = ptrs ++ [cp])
    (comes : Comes a lo (takeLabel s).2 (put8 (putAll msg (cp + 1) (takeLabel s).1) cp (BitVec.ofNat 8 (takeLabel s).1.length))
      (cp + 1 + (takeLabel s).1.length) ptrs' c) : Comes a lo s msg cp ptrs c := by
  have clean' := (clean_label s clean).1
  have again : ∀ rest ls, takeLabel s = ((takeLabel s).1, rest) → Named s ls → ∃ ls', ls = (takeLabel s).1 :: ls'
    ∧ Named (takeLabel s).2 ls' := by
    intro rest ls _ named
    cases named with
    | root _ empty => exact absurd (congrArg Prod.fst empty) some'
    | label _ ls' _ _ after => exact ⟨ls', rfl, after⟩
  have count := List.length_pos_iff.mpr some'
  generalize take : takeLabel s = taken at *
  obtain ⟨l, rest⟩ := taken
  dsimp only at *
  have written : ∀ i, i < cp ∨ cp + 1 + l.length ≤ i →
      get8 (put8 (putAll msg (cp + 1) l) cp (BitVec.ofNat 8 l.length)) i = get8 msg i := fun i outside =>
    (get8_put8_elsewhere _ _ _ _ (by omega)).trans (put_all_outside msg (cp + 1) i l (by omega))
  refine ⟨?_, fun i outside => (comes.same i (by omega)).trans (written i (by omega)), fun k returned => ?_,
    fun ls named fits => ?_⟩
  · rw [comes.length, put8_length, put_all_length]
  · obtain ⟨more, fits, ⟨ls, weight, named, spells, plain, light, tight⟩, same, new, ptrs, known⟩ := comes.wrote k returned
    have head : get8 c.msg cp = BitVec.ofNat 8 l.length :=
      (same cp (by omega)).trans (get8_put8_here _ _ _ (by rw [put_all_length]; omega))
    have small : (BitVec.ofNat 8 l.length : Byte).toNat = l.length := by
      rw [BitVec.toNat_ofNat]
      exact Nat.mod_eq_of_lt (Nat.lt_of_le_of_lt short (by decide))
    have data : copyBytes c.msg (cp + 1) l.length = l := by
      rw [copy_bytes_same c.msg (putAll msg (cp + 1) l) (cp + 1) l.length fun i from' below =>
        (same i (by omega)).trans (get8_put8_elsewhere _ _ _ _ (by omega))]
      exact put_all_copy msg (cp + 1) l (by omega)
    have whole := @Spells.label c.msg lo (a.comp + k) cp l.length weight (a.comp + k - (cp + 1 + l.length)) ls (by omega)
      (by rw [head, small]) count (Nat.lt_succ_of_le short) (by rw [Nat.add_right_comm]; exact spells)
    rw [data] at whole
    have size : a.comp + k - (cp + 1 + l.length) + l.length + 1 = a.comp + k - cp := by omega
    rw [size] at whole
    have spelled : ∀ x ∈ l :: ls, Clean x := by
      intro x member
      obtain rfl | later := List.mem_cons.mp member
      · exact clean'
      · exact plain x later
    refine ⟨by omega, fits, ⟨l :: ls, weight + l.length + 1, ?_, whole, spelled, by omega, by rw [wire_cons]; omega⟩,
      fun i outside => ?_, ?_⟩
    · have made := Named.label s ls (by rw [take]; exact some') (by rw [take]; exact short) (by rw [take]; exact named)
      rw [take] at made
      exact made
    · exact (same i (by omega)).trans (written i (by omega))
    · obtain same' | same' := saved
      · exact ⟨new, by rw [ptrs, same'], fun p member => ⟨by have after := (known p member).1; omega, (known p member).2⟩⟩
      · refine ⟨cp :: new, by rw [ptrs, same', List.append_assoc]; rfl, fun p member => ?_⟩
        obtain rfl | later := List.mem_cons.mp member
        · exact ⟨Nat.le_refl p, l :: ls, _, _, whole, spelled, by omega⟩
        · exact ⟨by have after := (known p later).1; omega, (known p later).2⟩
  · obtain ⟨ls', rfl, named'⟩ := again rest ls rfl named
    rw [wire_cons] at fits
    exact comes.fits ls' named' (by omega)

-- The next label when no name that was written before can take its place.
def Misses (a : CompArgs) (reach : Nat) (s : List Byte) (msg : Buffer) : Prop :=
  (if a.compress then dnFind msg reach s a.old else .ret none) = .ret none

theorem comp_loop_fail (a : CompArgs) (reach fuel : Nat) (c : Byte) (dn : List Byte) (msg msg' : Buffer) (cp : Nat)
    (ptrs : List Nat) (misses : Misses a reach (c :: dn) msg) (failed : labelLoop a.eob (c :: dn) msg (cp + 1) = (msg', none)) :
    compLoop a reach (fuel + 1) (c :: dn) msg cp ptrs = .ret (compFail a msg' (saveName a ptrs cp)) := by
  rw [compLoop, misses, Outcome.ret_bind]
  dsimp only
  rw [failed]

theorem comp_loop_label (a : CompArgs) (reach fuel : Nat) (c : Byte) (dn : List Byte) (msg msg' : Buffer) (cp end' : Nat)
    (rest : List Byte) (ptrs : List Nat) (misses : Misses a reach (c :: dn) msg)
    (done : labelLoop a.eob (c :: dn) msg (cp + 1) = (msg', some (end', rest))) :
    compLoop a reach (fuel + 1) (c :: dn) msg cp ptrs =
    if end' - cp - 1 = 0 ∧ rest = [] then .ret (compEnd a msg' cp (saveName a ptrs cp))
    else if end' - cp - 1 = 0 ∨ NS_MAXLABEL < end' - cp - 1 then .ret (compFail a msg' (saveName a ptrs cp))
    else compLoop a reach fuel rest (put8 msg' cp (BitVec.ofNat 8 (end' - cp - 1))) end' (saveName a ptrs cp) := by
  rw [compLoop, misses, Outcome.ret_bind]
  dsimp only
  rw [done]

theorem comp_loop_comes (a : CompArgs) (lo reach : Nat) (low : lo ≤ a.comp) (near : a.comp ≤ 2 ^ 14) (far : a.comp ≤ reach)
    (fuel : Nat) (s : List Byte) (msg : Buffer) (cp : Nat) (ptrs : List Nat) (enough : s.length < fuel) (start : a.comp ≤ cp)
    (inside : a.eob ≤ msg.length) (clean : Clean s) (known : ∀ p ∈ a.old, Known msg lo a.comp p) :
    ∃ c, compLoop a reach fuel s msg cp ptrs = .ret c ∧ Comes a lo s msg cp ptrs c := by
  induction fuel generalizing s msg cp ptrs with
  | zero => exact absurd enough (Nat.not_lt_zero _)
  | succ fuel ih =>
      cases s with
      | nil => exact ⟨_, rfl, comp_end_comes a lo low [] msg cp ptrs ptrs start inside rfl (Or.inl rfl)⟩
      | cons c dn =>
          have fresh : Misses a reach (c :: dn) msg →
              ∃ done, compLoop a reach (fuel + 1) (c :: dn) msg cp ptrs = .ret done ∧ Comes a lo (c :: dn) msg cp ptrs done := by
            intro misses
            have shorter := take_label_shorter (c :: dn) (List.cons_ne_nil _ _)
            have clean' := (clean_label (c :: dn) clean).2
            have saved := saved_or_not a ptrs cp
            have never : ∀ ls, (takeLabel (c :: dn)).1 ≠ [] → a.eob < cp + 1 + (takeLabel (c :: dn)).1.length → Named (c :: dn) ls →
                a.eob < cp + wire ls := by
              intro ls some' beyond named
              cases named with
              | root _ empty => exact absurd (congrArg Prod.fst empty) some'
              | label _ ls' _ _ _ =>
                  have last : 1 ≤ wire ls' := Nat.le_add_left 1 _
                  rw [wire_cons]
                  omega
            obtain ⟨wrote, fits⟩ | ⟨failed, length, same, beyond⟩ := label_loop_writes a.eob (c :: dn) msg (cp + 1)
            · rw [comp_loop_label a reach fuel c dn msg _ cp _ _ ptrs misses wrote]
              have count : cp + 1 + (takeLabel (c :: dn)).1.length - cp - 1 = (takeLabel (c :: dn)).1.length := by omega
              rw [count]
              by_cases ended : (takeLabel (c :: dn)).1.length = 0 ∧ (takeLabel (c :: dn)).2 = []
              · rw [if_pos ended]
                have empty := List.eq_nil_of_length_eq_zero ended.1
                rw [empty]
                exact ⟨_, rfl, comp_end_comes a lo low (c :: dn) msg cp ptrs _ start inside (Prod.ext empty ended.2) saved⟩
              · rw [if_neg ended]
                by_cases bad : (takeLabel (c :: dn)).1.length = 0 ∨ NS_MAXLABEL < (takeLabel (c :: dn)).1.length
                · rw [if_pos bad]
                  refine ⟨_, rfl, comes_fail a lo (c :: dn) msg _ cp ptrs _ (put_all_length _ _ _) (fun i outside => ?_)
                    fun ls named => ?_⟩
                  · obtain empty | fits := fits
                    · rw [empty]
                      rfl
                    · exact put_all_outside msg (cp + 1) i _ (by omega)
                  · exfalso
                    cases named with
                    | root _ empty => exact ended ⟨congrArg (fun t => t.1.length) empty, congrArg Prod.snd empty⟩
                    | label _ ls' full short _ =>
                        obtain none | long := bad
                        · exact full (List.eq_nil_of_length_eq_zero none)
                        · omega
                · rw [if_neg bad]
                  have full : (takeLabel (c :: dn)).1 ≠ [] := fun empty => bad (Or.inl (congrArg List.length empty))
                  have short : (takeLabel (c :: dn)).1.length ≤ NS_MAXLABEL := Nat.le_of_not_lt fun long => bad (Or.inr long)
                  have room := fits.resolve_left full
                  obtain ⟨done, runs, comes⟩ := ih (takeLabel (c :: dn)).2 (put8 (putAll msg (cp + 1) (takeLabel (c :: dn)).1) cp
                    (BitVec.ofNat 8 (takeLabel (c :: dn)).1.length)) (cp + 1 + (takeLabel (c :: dn)).1.length) (saveName a ptrs cp)
                    (by omega) (by omega) (by rw [put8_length, put_all_length]; exact inside) clean' fun p member =>
                      known_same msg _ lo a.comp p (known p member) fun i from' below =>
                        ((get8_put8_elsewhere _ _ _ _ (by omega)).trans (put_all_outside msg (cp + 1) i _ (by omega))).symm
                  exact ⟨done, runs, comes_label a lo low (c :: dn) msg cp ptrs _ done start inside clean full short room
                    saved comes⟩
            · have loop : labelLoop a.eob (c :: dn) msg (cp + 1) = ((labelLoop a.eob (c :: dn) msg (cp + 1)).1, none) :=
                Prod.ext rfl failed
              rw [comp_loop_fail a reach fuel c dn msg _ cp ptrs misses loop]
              refine ⟨_, rfl, comes_fail a lo (c :: dn) msg _ cp ptrs _ length (fun i outside => same i (by omega))
                fun ls named => ?_⟩
              by_cases full : (takeLabel (c :: dn)).1 = []
              · rw [full, List.length_nil] at beyond
                have last : 1 ≤ wire ls := Nat.le_add_left 1 _
                omega
              · exact never ls full beyond named
          by_cases on : a.compress = true
          · obtain none | ⟨l, ls, weight, size, found, spells, plain, light, named, full⟩ :=
              find_spec msg lo a.comp reach (c :: dn) a.old known far clean
            · exact fresh (by rw [Misses, if_pos on]; exact none)
            · rw [compLoop, if_pos on, found, Outcome.ret_bind]
              exact ⟨_, rfl, comp_link_comes a lo low near (c :: dn) msg cp l ptrs ls weight size start inside spells
                plain light named
                fun empty => List.cons_ne_nil _ _ (full empty)⟩
          · exact fresh (by rw [Misses, if_neg on])

end MagxNet.Resolv
