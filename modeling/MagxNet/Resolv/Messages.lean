import MagxNet.Resolv.Compress

set_option autoImplicit false

namespace MagxNet.Resolv

open Bytes Labels

-- A message as it is put together: names, one behind the other, and what else is written between them or in front of lo. The names
-- are listed with their places and sizes.
inductive Built (lo : Nat) : Buffer → Nat → List Nat → List (Nat × List Byte × Nat) → Prop
  | start (msg : Buffer) : Built lo msg lo [] []
  | name (a : CompArgs) (reach : Nat) (s : List Byte) (msg : Buffer) (names : List (Nat × List Byte × Nat)) (c : Comp) (k : Nat) :
      Built lo msg a.comp a.old names → a.comp ≤ 2 ^ 14 → a.eob ≤ msg.length → a.comp ≤ reach → Clean s →
      dnComp a reach s msg = .ret c → c.ret = some k → Built lo c.msg (a.comp + k) c.ptrs (names ++ [(a.comp, s, k)])
  | other (msg msg' : Buffer) (cur cur' : Nat) (ptrs : List Nat) (names : List (Nat × List Byte × Nat)) : Built lo msg cur
    ptrs names →
      (∀ i, lo ≤ i → i < cur → get8 msg' i = get8 msg i) → cur ≤ cur' → Built lo msg' cur' ptrs names

-- What stands in the message for one of its names.
def Stands (lo : Nat) (msg : Buffer) (cur : Nat) (entry : Nat × List Byte × Nat) : Prop :=
  ∃ ls weight, Named entry.2.1 ls ∧ Spells msg lo cur entry.1 ls weight entry.2.2 ∧ weight ≤ cur

theorem stands_same (lo : Nat) (msg msg' : Buffer) (cur cur' : Nat) (entry : Nat × List Byte × Nat)
    (stands : Stands lo msg cur entry) (same : ∀ i, lo ≤ i → i < cur → get8 msg' i = get8 msg i) (later : cur ≤ cur') :
    Stands lo msg' cur' entry := by
  obtain ⟨ls, weight, named, spells, light⟩ := stands
  exact ⟨ls, weight, named, spells_wider (spells_same msg msg' spells fun i low high => (same i low high).symm) later, by omega⟩

theorem known_later (lo : Nat) (msg msg' : Buffer) (cur cur' p : Nat) (known : Known msg lo cur p)
    (same : ∀ i, lo ≤ i → i < cur → get8 msg' i = get8 msg i) (later : cur ≤ cur') : Known msg' lo cur' p := by
  obtain ⟨ls, weight, size, spells, plain, light⟩ := known
  exact ⟨ls, weight, size, spells_wider (spells_same msg msg' spells fun i low high => (same i low high).symm) later,
    plain, by omega⟩

theorem built_stands (lo : Nat) (msg : Buffer) (cur : Nat) (ptrs : List Nat) (names : List (Nat × List Byte × Nat))
    (built : Built lo msg cur ptrs names) :
    lo ≤ cur ∧ (∀ p ∈ ptrs, Known msg lo cur p) ∧ ∀ entry ∈ names, Stands lo msg cur entry := by
  induction built with
  | start msg => exact ⟨Nat.le_refl lo, fun p member => absurd member List.not_mem_nil,
    fun entry member => absurd member List.not_mem_nil⟩
  | name a reach s msg names c k _ near inside far clean runs returned ih =>
      obtain ⟨low, known, stands⟩ := ih
      obtain ⟨c', runs', comes⟩ := comp_loop_comes a lo reach low near far (s.length + 1) s msg a.comp a.old (Nat.lt_succ_self _)
        (Nat.le_refl _) inside clean known
      obtain rfl : c' = c := Outcome.ret.inj (runs'.symm.trans runs)
      obtain ⟨more, room, ⟨ls, weight, named, spells, plain, light, -⟩, same, new, list, fresh⟩ := comes.wrote k returned
      have before : ∀ i, lo ≤ i → i < a.comp → get8 c'.msg i = get8 msg i := fun i _ below => same i (Or.inl below)
      refine ⟨by omega, fun p member => ?_, fun entry member => ?_⟩
      · rw [list] at member
        obtain old | added := List.mem_append.mp member
        · exact known_later lo msg c'.msg a.comp _ p (known p old) before (by omega)
        · exact (fresh p added).2
      · obtain old | added := List.mem_append.mp member
        · exact stands_same lo msg c'.msg a.comp _ entry (stands entry old) before (by omega)
        · rw [List.mem_singleton.mp added]
          rw [Nat.add_sub_cancel_left] at spells
          exact ⟨ls, weight, named, spells, by omega⟩
  | other msg msg' cur cur' ptrs names _ same later ih =>
      obtain ⟨low, known, stands⟩ := ih
      exact ⟨by omega, fun p member => known_later lo msg msg' cur cur' p (known p member) same later,
        fun entry member => stands_same lo msg msg' cur cur' entry (stands entry member) same later⟩

theorem skip_spells (msg : Buffer) (eom comp : Nat) {lo hi p weight size : Nat} {ls : List Label}
    (spells : Spells msg lo hi p ls weight size) (inside : hi ≤ eom) :
    ∀ fuel, size ≤ fuel → skipLoop msg eom comp fuel p = .ret (some (p + size - comp)) := by
  induction spells with
  | root p low high zero =>
      intro fuel enough
      cases fuel with
      | zero => omega
      | succ fuel => rw [skipLoop, if_pos (by omega), zero, if_pos rfl]
  | label p n weight size rest low number real short after ih =>
      intro fuel enough
      obtain ⟨-, behind, -, -, -⟩ := spells_start after
      cases fuel with
      | zero => omega
      | succ fuel =>
          rw [skipLoop, if_pos (by omega)]
          dsimp only
          rw [if_neg (by rw [zero_byte]; omega), if_pos ((mask_label _).mpr (by omega)), number, Nat.add_right_comm,
            ih fuel (by omega)]
          congr 2
          omega
  | link p weight size rest low high far after ih =>
      intro fuel enough
      cases fuel with
      | zero => omega
      | succ fuel =>
          rw [skipLoop, if_pos (by omega)]
          dsimp only
          rw [if_neg (by rw [zero_byte]; omega), if_neg (by rw [mask_label]; omega), if_pos ((mask_link _).mpr far)]

-- Labels that dn_expand writes as they are read back.
def Plain (ls : List Label) : Prop := ∀ l ∈ ls, l ≠ [] ∧ l.length ≤ NS_MAXLABEL ∧ BACKSLASH ∉ l

theorem take_label_escape (l : Label) (plain : BACKSLASH ∉ l) (rest : List Byte) (more : rest = [] ∨ rest.head? = some DOT) :
    takeLabel (escape l ++ rest) = (l, rest.tail) := by
  induction l with
  | nil =>
      obtain rfl | first := more
      · rfl
      · cases rest with
        | nil => rfl
        | cons c rest =>
            rw [escape_nil, List.nil_append, takeLabel.eq_def]
            exact if_pos (Option.some.inj first)
  | cons c l ih =>
      have plain' : BACKSLASH ∉ l := fun member => plain (List.mem_cons_of_mem _ member)
      have other : c ≠ BACKSLASH := fun same => plain (same ▸ List.mem_cons_self)
      rw [escape_cons]
      by_cases dot : c = DOT
      · rw [if_pos dot]
        change takeLabel (BACKSLASH :: c :: (escape l ++ rest)) = _
        rw [takeLabel, if_neg (by decide), if_pos rfl]
        rw [ih plain']
      · rw [if_neg dot]
        change takeLabel (c :: (escape l ++ rest)) = _
        rw [takeLabel.eq_def]
        dsimp only
        rw [if_neg dot, if_neg other, ih plain']

theorem fold_join (ls : List Label) (dn : Buffer) (some' : dn ≠ []) (full : ∀ l ∈ ls, l ≠ []) :
    ls.foldl join dn = dn ++ (if ls = [] then [] else DOT :: render ls) := by
  induction ls generalizing dn with
  | nil => rw [if_pos rfl, List.append_nil]; rfl
  | cons l ls ih =>
      have real := full l List.mem_cons_self
      have later : ∀ x ∈ ls, x ≠ [] := fun x member => full x (List.mem_cons_of_mem _ member)
      rw [if_neg (List.cons_ne_nil _ _), List.foldl_cons, ih _ (join_ne dn l real) later]
      have first : join dn l = dn ++ DOT :: escape l := by
        unfold join
        rw [if_neg some', List.append_assoc]
        rfl
      have alone : join [] l = escape l := rfl
      rw [show render (l :: ls) = ls.foldl join (join [] l) from rfl, ih _ (join_ne [] l real) later, first, alone,
        List.append_assoc,
        List.cons_append]

theorem named_render (ls : List Label) (plain : Plain ls) : Named (render ls) ls := by
  induction ls with
  | nil => exact .root [] rfl
  | cons l ls ih =>
      obtain ⟨some', short, unescaped⟩ := plain l List.mem_cons_self
      have later : Plain ls := fun x member => plain x (List.mem_cons_of_mem _ member)
      have shape : render (l :: ls) = escape l ++ (if ls = [] then [] else DOT :: render ls) :=
        fold_join ls (join [] l) (join_ne [] l some') fun x member => (later x member).1
      have taken : takeLabel (render (l :: ls)) = (l, render ls) := by
        rw [shape, take_label_escape l unescaped _ (by split; exacts [Or.inl rfl, Or.inr rfl])]
        split
        · rename_i last
          rw [last]
          rfl
        · rfl
      have made := Named.label (render (l :: ls)) ls (by rw [taken]; exact some') (by rw [taken]; exact short)
        (by rw [taken]; exact ih later)
      rw [taken] at made
      exact made

-- Room for 64 bytes, the names foo.bar and x.foo.bar one behind the other.
def blankMessage : Buffer := List.replicate 64 0

def fooBar : List Byte := [0x66, 0x6f, 0x6f, 0x2e, 0x62, 0x61, 0x72]

def firstName : CompArgs := ⟨12, 52, true, [], 10⟩

def firstDone : Comp := ⟨some 9, putAll blankMessage 12 [3, 0x66, 0x6f, 0x6f, 3, 0x62, 0x61, 0x72, 0], [12, 16]⟩

def secondName : CompArgs := ⟨21, 43, true, [12, 16], 10⟩

def secondDone : Comp := ⟨some 4, putAll firstDone.msg 21 [1, 0x78, 0xc0, 12], [12, 16, 21]⟩

theorem first_built : Built 12 firstDone.msg 21 [12, 16] [(12, fooBar, 9)] :=
  .name firstName 64 fooBar blankMessage [] firstDone 9 (.start blankMessage) (by decide) (by decide) (by decide) (by decide)
    (by decide +kernel) rfl

theorem both_built : Built 12 secondDone.msg 25 [12, 16, 21] [(12, fooBar, 9), (21, 0x78 :: 0x2e :: fooBar, 4)] :=
  .name secondName 64 (0x78 :: 0x2e :: fooBar) firstDone.msg [(12, fooBar, 9)] secondDone 4 first_built (by decide) (by decide)
    (by decide) (by decide) (by decide +kernel) rfl

end MagxNet.Resolv
