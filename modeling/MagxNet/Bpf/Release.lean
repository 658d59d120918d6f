import MagxNet.Lib.Singly
import MagxNet.Lib.Outcome

set_option autoImplicit false

namespace MagxNet.Bpf

open Singly

-- The part of a struct bpf by which it is on lists.
structure Entry where
  link : Option Nat
  next : Option Nat
  nif : Nat
  isOpen : Bool
deriving DecidableEq, Repr

-- allbpfs, the bpf fields of the interfaces, and what the descriptors hold.
structure Lists where
  allbpfs : Option Nat
  nifBpf : Nat → Option Nat
  bpf : Nat → Entry

def Lists.link (s : Lists) (b : Nat) : Option Nat := (s.bpf b).link

def Lists.next (s : Lists) (b : Nat) : Option Nat := (s.bpf b).next

def Lists.setLink (s : Lists) (prev : Cell Nat) (p : Option Nat) : Lists :=
  match prev with
  | .start => { s with allbpfs := p }
  | .link b => { s with bpf := Function.update s.bpf b { s.bpf b with link := p } }

def Lists.setNext (s : Lists) (nif : Nat) (prev : Cell Nat) (p : Option Nat) : Lists :=
  match prev with
  | .start => { s with nifBpf := Function.update s.nifBpf nif p }
  | .link b => { s with bpf := Function.update s.bpf b { s.bpf b with next := p } }

-- A new descriptor comes first and is not attached.
def bpfCreate (s : Lists) (b : Nat) : Lists :=
  { s with allbpfs := some b, bpf := Function.update s.bpf b ⟨s.allbpfs, none, 0, false⟩ }

-- The list of the interface is searched; prev follows bpf2.
def detachLoop (s : Lists) (b : Nat) : Nat → Cell Nat → Outcome Lists
  | 0, _ => .running
  | fuel + 1, prev =>
      match peek (s.nifBpf (s.bpf b).nif) s.next prev with
      | none => .ret s
      | some bpf2 =>
          if bpf2 = b then .ret (s.setNext (s.bpf b).nif prev (s.bpf b).next) else detachLoop s b fuel (.link bpf2)

-- The global list is searched; prev is the link of bpf from the second round on.
def releaseLoop (s : Lists) (b : Nat) : Nat → Cell Nat → Outcome Lists
  | 0, _ => .running
  | fuel + 1, prev =>
      match peek s.allbpfs s.link prev with
      | none => .ret s
      | some bpf2 => if bpf2 = b then .ret (s.setLink prev (s.bpf b).link) else releaseLoop s b fuel (.link b)

def bpfRelease (fuel : Nat) (s : Lists) (b : Nat) : Outcome Lists :=
  (if (s.bpf b).isOpen then detachLoop s b fuel .start else .ret s).bind fun s => releaseLoop s b fuel .start

-- The global list holds all, and that of an interface those that are attached to it.
structure Shaped (s : Lists) (all : List Nat) (on : Nat → List Nat) : Prop where
  linked : Linked s.link s.allbpfs all
  attached : ∀ n, Linked s.next (s.nifBpf n) (on n)
  member : ∀ n b, b ∈ on n ↔ b ∈ all ∧ (s.bpf b).isOpen ∧ (s.bpf b).nif = n

-- b is gone from every list, and the others are where they were.
structure Released (s : Lists) (all : List Nat) (on : Nat → List Nat) (b : Nat) : Prop where
  linked : Linked s.link s.allbpfs (all.erase b)
  attached : ∀ n, Linked s.next (s.nifBpf n) ((on n).erase b)

theorem shaped_create (s : Lists) (all : List Nat) (on : Nat → List Nat) (b : Nat) (fresh : b ∉ all) (shaped : Shaped s all on) :
    Shaped (bpfCreate s b) (b :: all) on := by
  have links : ∀ c ∈ all, (bpfCreate s b).bpf c = s.bpf c := by
    intro c there
    refine Function.update_of_ne ?_ _ _
    rintro rfl
    exact fresh there
  have new : (bpfCreate s b).bpf b = ⟨s.allbpfs, none, 0, false⟩ := Function.update_self ..
  refine ⟨⟨rfl, ?_⟩, fun n => ?_, fun n c => ?_⟩
  · rw [show (bpfCreate s b).link b = s.allbpfs from congrArg Entry.link new]
    exact linked_congr s.link _ all _ (fun c there => congrArg Entry.link (links c there)) shaped.linked
  · refine linked_congr s.next _ (on n) _ (fun c there => ?_) (shaped.attached n)
    exact congrArg Entry.next (links c ((shaped.member n c).mp there).1)
  · rw [shaped.member n c, List.mem_cons]
    by_cases same : c = b
    · rw [same, new]
      simp [fresh]
    · by_cases there : c ∈ all
      · rw [links c there]
        simp [there]
      · simp [there, same]

section Walks

variable (s : Lists) (b : Nat)

-- The search of the interface's list stops at the cell that points to b.
theorem detach_loop_found (todo r : List Nat) (apart : b ∉ todo) : ∀ (done : List Nat) (fuel : Nat),
    Linked s.next (s.nifBpf (s.bpf b).nif) (done ++ todo ++ b :: r) → todo.length < fuel →
    detachLoop s b fuel (cellBehind done) = .ret (s.setNext (s.bpf b).nif (cellBehind (done ++ todo)) (s.bpf b).next) := by
  induction todo with
  | nil =>
      intro done fuel linked enough
      obtain ⟨fuel, rfl⟩ : ∃ k, fuel = k + 1 := ⟨fuel - 1, by omega⟩
      rw [List.append_nil] at linked ⊢
      have here := (peek_behind s.next _ done (b :: r) linked).1
      rw [detachLoop, here]
      exact if_pos rfl
  | cons c todo ih =>
      intro done fuel linked enough
      obtain ⟨fuel, rfl⟩ : ∃ k, fuel = k + 1 := ⟨fuel - 1, by omega⟩
      have whole : done ++ c :: todo = done ++ [c] ++ todo := by simp
      have other : c ≠ b := fun same => apart (same ▸ List.mem_cons_self)
      have here := (peek_behind s.next _ done (c :: todo ++ b :: r) (by rw [← List.append_assoc]; exact linked)).1
      have next := ih (fun inside => apart (List.mem_cons_of_mem c inside)) (done ++ [c]) fuel (whole ▸ linked)
        (by rw [List.length_cons] at enough; omega)
      rw [cell_behind_concat] at next
      rw [detachLoop, here]
      dsimp only
      rw [if_neg other, next, whole]

theorem set_next_link (nif : Nat) (prev : Cell Nat) (p : Option Nat) : (s.setNext nif prev p).link = s.link := by
  cases prev with
  | start => rfl
  | link c =>
      funext d
      show (Function.update s.bpf c { s.bpf c with next := p } d).link = (s.bpf d).link
      by_cases same : d = c
      · rw [same, Function.update_self]
      · rw [Function.update_of_ne same]

theorem set_next_all (nif : Nat) (prev : Cell Nat) (p : Option Nat) : (s.setNext nif prev p).allbpfs = s.allbpfs := by
  cases prev <;> rfl

theorem set_next_next (nif c : Nat) (p : Option Nat) :
    (s.setNext nif (.link c) p).next = Function.update s.next c p := by
  funext d
  show (Function.update s.bpf c { s.bpf c with next := p } d).next = Function.update s.next c p d
  by_cases same : d = c
  · rw [same, Function.update_self, Function.update_self]
  · rw [Function.update_of_ne same, Function.update_of_ne same]
    rfl

-- The search leaves the global list alone.
theorem detach_loop_links : ∀ (fuel : Nat) (prev : Cell Nat) (s' : Lists), detachLoop s b fuel prev = .ret s' →
    s'.link = s.link ∧ s'.allbpfs = s.allbpfs := by
  intro fuel
  induction fuel with
  | zero =>
      intro prev s' run
      cases run
  | succ fuel ih =>
      intro prev s' run
      rw [detachLoop] at run
      split at run
      · cases run
        exact ⟨rfl, rfl⟩
      · split at run
        · cases run
          exact ⟨set_next_link s _ prev _, set_next_all s _ prev _⟩
        · exact ih _ s' run

theorem erase_middle (l r : List Nat) (apart : b ∉ l) : (l ++ b :: r).erase b = l ++ r := by
  rw [List.erase_append_right _ apart, List.erase_cons_head]

variable (all : List Nat) (on : Nat → List Nat) (shaped : Shaped s all on)

include shaped in
-- An attached descriptor is taken off the list of its interface; all other lists stay.
theorem detach_spec (there : b ∈ all) (isOpen : (s.bpf b).isOpen) (fuel : Nat) (enough : (on (s.bpf b).nif).length < fuel) :
    ∃ s', detachLoop s b fuel .start = .ret s' ∧ s'.link = s.link ∧ s'.allbpfs = s.allbpfs
      ∧ ∀ n, Linked s'.next (s'.nifBpf n) ((on n).erase b) := by
  obtain ⟨l, r, split⟩ := List.append_of_mem ((shaped.member _ b).mpr ⟨there, isOpen, rfl⟩)
  have linked := shaped.attached (s.bpf b).nif
  rw [split] at linked enough
  have apart : b ∉ l := fun inside =>
    (List.nodup_append.mp (linked_nodup s.next _ _ linked)).2.2 b inside b List.mem_cons_self rfl
  have found := detach_loop_found s b l r apart [] fuel linked (by rw [List.length_append] at enough; omega)
  refine ⟨_, found, set_next_link s _ _ _, set_next_all s _ _ _, fun n => ?_⟩
  rw [List.nil_append]
  have elsewhere : n ≠ (s.bpf b).nif → b ∉ on n := fun other inside => other ((shaped.member n b).mp inside).2.2.symm
  cases l using List.reverseRecOn with
  | nil =>
      show Linked s.next (Function.update s.nifBpf (s.bpf b).nif (s.bpf b).next n) ((on n).erase b)
      by_cases mine : n = (s.bpf b).nif
      · rw [mine, Function.update_self, split, erase_middle b [] r apart]
        exact linked.2
      · rw [Function.update_of_ne mine, List.erase_of_not_mem (elsewhere mine)]
        exact shaped.attached n
  | append_singleton front a =>
      rw [cell_behind_concat, set_next_next]
      show Linked (Function.update s.next a (s.next b)) (s.nifBpf n) ((on n).erase b)
      by_cases mine : n = (s.bpf b).nif
      · rw [mine, split, erase_middle b _ r apart, List.append_assoc]
        rw [List.append_assoc] at linked
        exact linked_skip s.next _ front r a b linked
      · rw [List.erase_of_not_mem (elsewhere mine)]
        refine linked_congr s.next _ (on n) _ (fun c member => Function.update_of_ne ?_ _ _) (shaped.attached n)
        rintro rfl
        have before : c ∈ on (s.bpf b).nif := by rw [split]; simp
        exact mine (((shaped.member n c).mp member).2.2.symm.trans ((shaped.member _ c).mp before).2.2)

include shaped in
theorem detach_or_not (there : b ∈ all) (fuel : Nat) (enough : (on (s.bpf b).nif).length < fuel) :
    ∃ s', (if (s.bpf b).isOpen then detachLoop s b fuel .start else .ret s) = .ret s' ∧ s'.link = s.link
      ∧ s'.allbpfs = s.allbpfs ∧ ∀ n, Linked s'.next (s'.nifBpf n) ((on n).erase b) := by
  split
  · rename_i isOpen
    exact detach_spec s b all on shaped there isOpen fuel enough
  · rename_i alone
    refine ⟨s, rfl, rfl, rfl, fun n => ?_⟩
    rw [List.erase_of_not_mem fun inside => alone ((shaped.member n b).mp inside).2.1]
    exact shaped.attached n

-- From the second round on the same link is looked at.
theorem release_loop_stuck (c : Nat) (ahead : s.link b = some c) (other : c ≠ b) : ∀ fuel,
    releaseLoop s b fuel (.link b) = .running := by
  intro fuel
  induction fuel with
  | zero => rfl
  | succ fuel ih =>
      rw [releaseLoop, show peek s.allbpfs s.link (.link b) = some c from ahead]
      dsimp only
      rw [if_neg other, ih]

theorem release_loop_first (l : List Nat) (linked : Linked s.link s.allbpfs (b :: l)) (fuel : Nat) (enough : 0 < fuel) :
    releaseLoop s b fuel .start = .ret (s.setLink .start (s.bpf b).link) := by
  obtain ⟨fuel, rfl⟩ : ∃ k, fuel = k + 1 := ⟨fuel - 1, by omega⟩
  rw [releaseLoop, show peek s.allbpfs s.link .start = some b from linked.1]
  exact if_pos rfl

-- If b is not the first one, the loop does not end, or it ends without having found it.
theorem release_loop_other (a : Nat) (l : List Nat) (linked : Linked s.link s.allbpfs (a :: l)) (other : a ≠ b) (there : b ∈ l)
    (fuel : Nat) (s' : Lists) (run : releaseLoop s b fuel .start = .ret s') : s' = s := by
  cases fuel with
  | zero => cases run
  | succ fuel =>
      rw [releaseLoop, show peek s.allbpfs s.link .start = some a from linked.1] at run
      dsimp only at run
      rw [if_neg other] at run
      obtain ⟨front, back, split⟩ := List.append_of_mem there
      have behind := linked_behind s.link (a :: front) back b s.allbpfs (by rw [List.cons_append, ← split]; exact linked)
      have distinct := linked_nodup s.link _ _ linked
      cases back with
      | nil =>
          cases fuel with
          | zero => cases run
          | succ fuel =>
              rw [releaseLoop, show peek s.allbpfs s.link (.link b) = none from behind] at run
              cases run
              rfl
      | cons c rest =>
          rw [split] at distinct
          have apart : c ≠ b := by
            rintro rfl
            have twice := (List.nodup_append.mp (List.nodup_cons.mp distinct).2).2.1
            exact (List.nodup_cons.mp twice).1 List.mem_cons_self
          rw [release_loop_stuck s b c behind.1 apart fuel] at run
          cases run

end Walks

-- The descriptor is taken off exactly if it is the one opened last.
theorem bpf_release_iff (s : Lists) (all : List Nat) (on : Nat → List Nat) (b : Nat) (shaped : Shaped s all on) (there : b ∈ all) :
    (∃ fuel s', bpfRelease fuel s b = .ret s' ∧ Released s' all on b) ↔ all.head? = some b := by
  cases all with
  | nil => cases there
  | cons a l =>
      by_cases first : a = b
      · subst first
        refine ⟨fun _ => rfl, fun _ => ?_⟩
        obtain ⟨s1, run, links, starts, attached⟩ := detach_or_not s a _ on shaped there _ (Nat.lt_succ_self _)
        have linked : Linked s1.link s1.allbpfs (a :: l) := by
          rw [links, starts]
          exact shaped.linked
        refine ⟨(on (s.bpf a).nif).length + 1, s1.setLink .start (s1.bpf a).link, ?_, ?_, attached⟩
        · rw [bpfRelease, run]
          exact release_loop_first s1 a l linked _ (Nat.succ_pos _)
        · rw [List.erase_cons_head]
          exact linked.2
      · refine ⟨?_, fun head => (first (Option.some.inj head)).elim⟩
        rintro ⟨fuel, s', run, released⟩
        obtain ⟨s1, detach, release⟩ := (Outcome.bind_eq_ret _ _ _).mp run
        have kept : s1.link = s.link ∧ s1.allbpfs = s.allbpfs := by
          split at detach
          · exact detach_loop_links s b fuel .start s1 detach
          · cases detach
            exact ⟨rfl, rfl⟩
        have linked : Linked s1.link s1.allbpfs (a :: l) := by
          rw [kept.1, kept.2]
          exact shaped.linked
        have inside : b ∈ l := (List.mem_cons.mp there).resolve_left (Ne.symm first)
        rw [release_loop_other s1 b a l linked first inside fuel s' release] at released
        have same := linked_unique s1.link _ _ _ linked released.linked
        have erased := (linked_nodup s1.link _ _ linked).not_mem_erase (a := b)
        exact (erased (same ▸ there)).elim

-- Three descriptors that are not attached; the last one opened has the number 2.
def noneOpen : Lists := ⟨none, fun _ => none, fun _ => ⟨none, none, 0, false⟩⟩

def threeOpen : Lists := bpfCreate (bpfCreate (bpfCreate noneOpen 0) 1) 2

theorem none_shaped : Shaped noneOpen [] (fun _ => []) := ⟨rfl, fun _ => rfl, fun _ _ => by simp⟩

theorem three_shaped : Shaped threeOpen [2, 1, 0] (fun _ => []) :=
  shaped_create _ _ _ 2 (by decide) (shaped_create _ _ _ 1 (by decide) (shaped_create _ _ _ 0 (by decide) none_shaped))

theorem bpf_release_last : ∃ fuel s', bpfRelease fuel threeOpen 2 = .ret s' ∧ Released s' [2, 1, 0] (fun _ => []) 2 :=
  (bpf_release_iff threeOpen [2, 1, 0] (fun _ => []) 2 three_shaped (by decide)).mpr rfl

-- The one in the middle is looked for for ever, and the first one opened stays on the list.
theorem bpf_release_stuck : Shaped threeOpen [2, 1, 0] (fun _ => []) ∧ (∀ fuel, bpfRelease fuel threeOpen 1 = .running)
    ∧ bpfRelease 2 threeOpen 0 = .ret threeOpen := by
  refine ⟨three_shaped, fun fuel => ?_, rfl⟩
  cases fuel with
  | zero => rfl
  | succ fuel => exact release_loop_stuck threeOpen 1 0 rfl (by decide) fuel

end MagxNet.Bpf
