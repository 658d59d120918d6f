import Mathlib

set_option autoImplicit false

namespace Tiling

-- The pieces at these addresses, each as long as len says, fill the range from start to stop without
-- gap or overlap, and none is shorter than least.
def Tiled (len : Nat → Nat) (least : Nat) : Nat → Nat → List Nat → Prop
  | start, stop, [] => start = stop
  | start, stop, a :: rest => a = start ∧ least ≤ len a ∧ Tiled len least (start + len a) stop rest

theorem tiled_append (len : Nat → Nat) (least : Nat) (l r : List Nat) : ∀ start stop,
    Tiled len least start stop (l ++ r) ↔ ∃ mid, Tiled len least start mid l ∧ Tiled len least mid stop r := by
  induction l with
  | nil =>
      intro start stop
      constructor
      · exact fun tiled => ⟨start, rfl, tiled⟩
      · rintro ⟨mid, rfl, tiled⟩
        exact tiled
  | cons a rest next =>
      intro start stop
      constructor
      · rintro ⟨here, large, tiled⟩
        obtain ⟨mid, front, back⟩ := (next _ _).mp tiled
        exact ⟨mid, ⟨here, large, front⟩, back⟩
      · rintro ⟨mid, ⟨here, large, front⟩, back⟩
        exact ⟨here, large, (next _ _).mpr ⟨mid, front, back⟩⟩

theorem tiled_congr (len len' : Nat → Nat) (least : Nat) (pieces : List Nat) : ∀ start stop,
    Tiled len least start stop pieces → (∀ a ∈ pieces, len' a = len a) → Tiled len' least start stop pieces := by
  induction pieces with
  | nil => exact fun _ _ tiled _ => tiled
  | cons a rest next =>
      intro start stop tiled same
      obtain ⟨here, large, later⟩ := tiled
      rw [Tiled, same a (List.mem_cons_self ..)]
      exact ⟨here, large, next _ _ later fun b member => same b (List.mem_cons_of_mem _ member)⟩

theorem tiled_order (len : Nat → Nat) (least : Nat) (pieces : List Nat) : ∀ start stop,
    Tiled len least start stop pieces → start ≤ stop := by
  induction pieces with
  | nil => exact fun _ _ tiled => tiled.le
  | cons a rest next =>
      intro start stop tiled
      have := next _ _ tiled.2.2
      omega

theorem tiled_bounds (len : Nat → Nat) (least : Nat) (pieces : List Nat) : ∀ start stop,
    Tiled len least start stop pieces → ∀ a ∈ pieces, start ≤ a ∧ a + len a ≤ stop ∧ least ≤ len a := by
  induction pieces with
  | nil => exact fun _ _ _ a member => absurd member List.not_mem_nil
  | cons b rest next =>
      intro start stop tiled a member
      obtain ⟨here, large, later⟩ := tiled
      rcases List.mem_cons.mp member with rfl | inside
      · have := tiled_order len least rest _ _ later
        omega
      · have := next _ _ later a inside
        omega

theorem tiled_sum (len : Nat → Nat) (least : Nat) (pieces : List Nat) : ∀ start stop,
    Tiled len least start stop pieces → start + (pieces.map len).sum = stop := by
  induction pieces with
  | nil => exact fun _ _ tiled => by simpa [Tiled] using tiled
  | cons a rest next =>
      intro start stop tiled
      have sum := next _ _ tiled.2.2
      rw [List.map_cons, List.sum_cons]
      omega

theorem tiled_touching (len : Nat → Nat) (least : Nat) : ∀ (pieces : List Nat) (start stop : Nat), Tiled len least start stop pieces →
    pieces.IsChain fun x y => x + len x = y := by
  intro pieces
  induction pieces with
  | nil => exact fun _ _ _ => List.isChain_nil
  | cons a rest next =>
      rintro start stop ⟨rfl, _, later⟩
      cases rest with
      | nil => exact List.isChain_singleton a
      | cons b others => exact List.isChain_cons_cons.mpr ⟨later.1.symm, next _ _ later⟩

theorem tiled_first (len : Nat → Nat) (least start stop : Nat) (pieces : List Nat) (less : start < stop)
    (tiled : Tiled len least start stop pieces) : pieces.head? = some start := by
  cases pieces with
  | nil => exact absurd tiled less.ne
  | cons a rest => exact congrArg some tiled.1

-- Where a piece is, nothing else begins.
theorem tiled_inside (len : Nat → Nat) (least : Nat) (pieces : List Nat) : ∀ start stop,
    Tiled len least start stop pieces → ∀ a ∈ pieces, ∀ x, a < x → x < a + len a → x ∉ pieces := by
  induction pieces with
  | nil => exact fun _ _ _ a member => absurd member List.not_mem_nil
  | cons b rest next =>
      intro start stop tiled a member x after before inside
      obtain ⟨rfl, large, later⟩ := tiled
      rcases List.mem_cons.mp member with rfl | inRest
      · rcases List.mem_cons.mp inside with rfl | deeper
        · omega
        · have := tiled_bounds len least rest _ _ later x deeper
          omega
      · rcases List.mem_cons.mp inside with rfl | deeper
        · have := tiled_bounds len least rest _ _ later a inRest
          omega
        · exact next _ _ later a inRest x after before deeper

theorem tiled_nodup (len : Nat → Nat) (least : Nat) (positive : 0 < least) (pieces : List Nat) : ∀ start stop,
    Tiled len least start stop pieces → pieces.Nodup := by
  induction pieces with
  | nil => exact fun _ _ _ => List.nodup_nil
  | cons a rest next =>
      intro start stop tiled
      obtain ⟨rfl, large, later⟩ := tiled
      refine List.nodup_cons.mpr ⟨fun inside => ?_, next _ _ later⟩
      have := tiled_bounds len least rest _ _ later a inside
      omega

-- a takes over the range of b.
theorem tiled_join (len : Nat → Nat) (least start stop a b : Nat) (l r : List Nat)
    (tiled : Tiled len least start stop (l ++ a :: b :: r)) (positive : 0 < least) :
    Tiled (Function.update len a (len a + len b)) least start stop (l ++ a :: r) := by
  have distinct := tiled_nodup len least positive _ _ _ tiled
  obtain ⟨mid, front, here, large, next, _, back⟩ := (tiled_append len least l (a :: b :: r) start stop).mp tiled
  obtain ⟨_, right, apart⟩ := List.nodup_append.mp distinct
  obtain ⟨notLater, _⟩ := List.nodup_cons.mp right
  have other : ∀ x, x ≠ a → Function.update len a (len a + len b) x = len x := fun x different => by
    rw [Function.update_of_ne different]
  refine (tiled_append _ least l (a :: r) start stop).mpr ⟨mid, ?_, here, ?_, ?_⟩
  · exact tiled_congr len _ least l _ _ front fun x member => other x (apart x member a (List.mem_cons_self ..))
  · rw [Function.update_self]
    omega
  · rw [Function.update_self, ← Nat.add_assoc]
    refine tiled_congr len _ least r _ _ back fun x member => other x ?_
    rintro rfl
    exact notLater (List.mem_cons_of_mem _ member)

-- a keeps size bytes, and a new piece takes the rest of its range.
theorem tiled_cut (len : Nat → Nat) (least start stop a size : Nat) (l r : List Nat)
    (tiled : Tiled len least start stop (l ++ a :: r)) (positive : 0 < least) (large : least ≤ size)
    (rest : size + least ≤ len a) :
    Tiled (Function.update (Function.update len (a + size) (len a - size)) a size) least start stop
      (l ++ a :: (a + size) :: r) := by
  have distinct := tiled_nodup len least positive _ _ _ tiled
  have fresh : a + size ∉ l ++ a :: r :=
    tiled_inside len least _ _ _ tiled a (by simp) (a + size) (by omega) (by omega)
  obtain ⟨mid, front, here, _, back⟩ := (tiled_append len least l (a :: r) start stop).mp tiled
  obtain ⟨_, right, apart⟩ := List.nodup_append.mp distinct
  obtain ⟨notLater, _⟩ := List.nodup_cons.mp right
  have other : ∀ x, x ≠ a → x ≠ a + size →
      Function.update (Function.update len (a + size) (len a - size)) a size x = len x := fun x first second => by
    rw [Function.update_of_ne first, Function.update_of_ne second]
  simp only [List.mem_append, List.mem_cons, not_or] at fresh
  refine (tiled_append _ least l _ start stop).mpr ⟨mid, ?_, here, ?_, ?_, ?_, ?_⟩
  · refine tiled_congr len _ least l _ _ front fun x member => other x (apart x member a (List.mem_cons_self ..)) ?_
    rintro rfl
    exact fresh.1 member
  · rw [Function.update_self]
    exact large
  · rw [Function.update_self, here]
  · rw [Function.update_of_ne (by omega), Function.update_self]
    omega
  · have apart' : a + size ≠ a := by omega
    rw [Function.update_self, Function.update_of_ne apart', Function.update_self]
    rw [show mid + size + (len a - size) = mid + len a by omega]
    refine tiled_congr len _ least r _ _ back fun x member => other x ?_ ?_
    · rintro rfl
      exact notLater member
    · rintro rfl
      exact fresh.2.2 member

end Tiling

namespace Paving

variable {α : Type} (place len : α → Nat)

-- Each piece begins where the one before it ends, from start to stop.
def Paved : Nat → Nat → List α → Prop
  | start, stop, [] => start = stop
  | start, stop, a :: rest => place a = start ∧ Paved (start + len a) stop rest

theorem paved_append (l r : List α) : ∀ start stop,
    Paved place len start stop (l ++ r) ↔ ∃ mid, Paved place len start mid l ∧ Paved place len mid stop r := by
  induction l with
  | nil =>
      intro start stop
      constructor
      · exact fun paved => ⟨start, rfl, paved⟩
      · rintro ⟨mid, rfl, paved⟩
        exact paved
  | cons a rest ih =>
      intro start stop
      constructor
      · rintro ⟨here, paved⟩
        obtain ⟨mid, front, back⟩ := (ih _ _).mp paved
        exact ⟨mid, ⟨here, front⟩, back⟩
      · rintro ⟨mid, ⟨here, front⟩, back⟩
        exact ⟨here, (ih _ _).mpr ⟨mid, front, back⟩⟩

theorem paved_sum (l : List α) : ∀ start stop, Paved place len start stop l → start + (l.map len).sum = stop := by
  induction l with
  | nil => exact fun _ _ paved => paved
  | cons a rest ih =>
      intro start stop paved
      have later := ih _ _ paved.2
      rw [List.map_cons, List.sum_cons]
      omega

theorem paved_inside (l : List α) : ∀ start stop, Paved place len start stop l →
    ∀ a ∈ l, start ≤ place a ∧ place a + len a ≤ stop := by
  induction l with
  | nil => exact fun _ _ _ a member => absurd member List.not_mem_nil
  | cons b rest ih =>
      intro start stop paved a member
      obtain ⟨here, later⟩ := paved
      obtain rfl | inside := List.mem_cons.mp member
      · have total := paved_sum place len rest _ _ later
        omega
      · have bounds := ih _ _ later a inside
        omega

theorem paved_ordered (l : List α) : ∀ start stop, Paved place len start stop l →
    l.Pairwise fun a b => place a + len a ≤ place b := by
  induction l with
  | nil => exact fun _ _ _ => List.Pairwise.nil
  | cons a rest ih =>
      intro start stop paved
      obtain ⟨here, later⟩ := paved
      refine List.Pairwise.cons (fun b member => ?_) (ih _ _ later)
      have bounds := paved_inside place len rest _ _ later b member
      omega

-- Two pieces are the same or apart.
theorem paved_apart (l : List α) (start stop : Nat) (paved : Paved place len start stop l) (a b : α) (first : a ∈ l)
    (second : b ∈ l) : a = b ∨ place a + len a ≤ place b ∨ place b + len b ≤ place a := by
  have : Std.Symm fun a b : α => place a + len a ≤ place b ∨ place b + len b ≤ place a := ⟨fun _ _ => Or.symm⟩
  have apart := (paved_ordered place len l start stop paved).imp
    (S := fun a b => place a + len a ≤ place b ∨ place b + len b ≤ place a) fun before => Or.inl before
  by_cases same : a = b
  · exact Or.inl same
  · exact Or.inr (apart.forall first second same)

end Paving
