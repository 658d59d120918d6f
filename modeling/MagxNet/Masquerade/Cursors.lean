import MagxNet.Lib.Sessions
import MagxNet.Masquerade.Device

set_option autoImplicit false

namespace MagxNet.Masqdev

open Bytes Singly

-- The table, the record that was listed last, whether a record has been listed since the last delete, and whether the record that
-- the listing stands at is still there: it is not when it was deleted and the listing has not begun anew.
structure Session where
  table : Redirections
  listed : Option RecordId
  fresh : Bool
  onTable : Bool

-- Whether a call puts the listing to the first record, or to the one that it adds.
def resets : Call → Bool
  | .readFirst _ => true
  | .writeAdd nbytes _ _ => decide (nbytes = BitVec.ofNat 32 RECORD)
  | .writePurge nbytes _ _ => decide (nbytes = BitVec.ofNat 32 RECORD)
  | _ => false

def follow (s : Session) (call : Call) (outcome : Outcome) : Session where
  table := outcome.table
  listed := outcome.listed.or s.listed
  fresh := outcome.listed.isSome || (s.fresh && outcome.freed.isEmpty)
  onTable := resets call || (s.onTable && outcome.freed.all fun record => decide (s.table.redirection ≠ some record))

-- No delete follows another one before a record has been listed again, and the listing does not go on from a record that was
-- deleted.
def Careful (s : Session) : Call → Prop
  | .writeDelete nbytes _ => nbytes = 2 → s.fresh = true
  | .readNext nbytes => BitVec.ofNat 32 RECORD ≤ nbytes → s.onTable = true
  | _ => True

-- What a call is to add, and which record it is to delete: the one that was listed last, if it has the number.
def adds : Call → Option (Nat → Byte)
  | .writeAdd nbytes buf kmalloc => if nbytes = BitVec.ofNat 32 RECORD ∧ kmalloc = true then some buf else none
  | .writePurge nbytes buf kmalloc => if nbytes = BitVec.ofNat 32 RECORD ∧ kmalloc = true then some buf else none
  | _ => none

def deletes (s : Session) : Call → Option RecordId
  | .writeDelete nbytes buf => if nbytes = 2 then s.listed.filter fun record => decide (get16 (peek buf 0 2) 0 = num s.table record) else none
  | _ => none

structure Meets (s : Session) (call : Call) (outcome : Outcome) : Prop where
  uses : ∀ a ∈ outcome.uses, s.table.allocated a = true ∨ adds call ≠ none ∧ a = s.table.made
  table : ∃ l l', Holds s.table l ∧ Holds outcome.table l' ∧ (∀ a ∈ l, outcome.table.fields a = s.table.fields a)
    ∧ match adds call, deletes s call with
      | some buf, _ => ∃ record, l' = record :: l ∧ record ∉ l ∧ outcome.table.fields record = peek buf 0 FIELDS ∧ outcome.freed = []
      | none, some record => record ∈ l ∧ l' = l.erase record ∧ outcome.freed = [record]
      | none, none => l' = l ∧ outcome.freed = []

-- A cursor is null or stands at a record of the table; or its record was freed.
def Stands (there : Bool) (cursor : Option RecordId) (made : Nat) (l : List RecordId) : Prop :=
  match there with
  | true => ∀ a, cursor = some a → a ∈ l
  | false => ∃ a, cursor = some a ∧ a ∉ l ∧ a < made

theorem stands_pushed (there : Bool) (cursor : Option RecordId) (made : Nat) (l : List RecordId) (stands : Stands there cursor made l) :
    Stands there cursor (made + 1) (made :: l) := by
  cases there with
  | true => exact fun a here => List.mem_cons_of_mem made (stands a here)
  | false =>
      obtain ⟨a, here, gone, old⟩ := stands
      refine ⟨a, here, fun member => ?_, old.trans (Nat.lt_succ_self made)⟩
      exact (List.mem_cons.mp member).elim (fun same => old.ne same) gone

-- A record is taken out: the cursor loses it if it stands there.
theorem stands_erased (there : Bool) (cursor : Option RecordId) (made : Nat) (l : List RecordId) (record : RecordId)
    (distinct : l.Nodup) (old : record < made) (stands : Stands there cursor made l) :
    Stands (there && decide (cursor ≠ some record)) cursor made (l.erase record) := by
  cases there with
  | true =>
      by_cases here : cursor = some record
      · rw [decide_eq_false (not_not.mpr here)]
        exact ⟨record, here, distinct.not_mem_erase, old⟩
      · rw [decide_eq_true here]
        intro a link
        refine (List.mem_erase_of_ne ?_).mpr (stands a link)
        rintro rfl
        exact here link
  | false =>
      obtain ⟨a, here, gone, old⟩ := stands
      exact ⟨a, here, fun inside => gone (List.mem_of_mem_erase inside), old⟩

-- What careful calls keep.
structure Inv (s : Session) (l : List RecordId) : Prop where
  holds : Holds s.table l
  listed : s.listed = s.table.prevRedir
  prev : Stands s.fresh s.table.prevRedir s.table.made l
  cursor : Stands s.onTable s.table.redirection s.table.made l

-- Only the links and the allocations decide what the table holds.
theorem holds_same (s s' : Redirections) (l : List RecordId) (holds : Holds s l) (links : s'.nextPort = s.nextPort)
    (first : s'.redirectionDb = s.redirectionDb) (allocated : s'.allocated = s.allocated) (made : s'.made = s.made) : Holds s' l :=
  ⟨by rw [links, first]; exact holds.linked, by rw [allocated]; exact holds.owned, by rw [made]; exact holds.made⟩

theorem read_next_freed (s : Redirections) (nbytes : Long) : (readNext s nbytes).freed = [] := by
  unfold readNext
  split
  · split <;> rfl
  · rfl

section Steps

variable (s : Session) (l : List RecordId) (inv : Inv s l)

include inv

-- A call that does nothing.
theorem idle (call : Call) (result : Nat) (nothing : resets call = false) (add : adds call = none) (delete : deletes s call = none) :
    Meets s call { untouched s.table with result := result }
      ∧ Inv (follow s call { untouched s.table with result := result }) l := by
  refine ⟨⟨fun a member => absurd member List.not_mem_nil, l, l, inv.holds, inv.holds, fun _ _ => rfl, ?_⟩, ?_⟩
  · rw [add, delete]
    exact ⟨rfl, rfl⟩
  · have same : follow s call { untouched s.table with result := result } = s := by
      unfold follow untouched
      simp [nothing]
    rwa [same]

theorem read_next (nbytes : Long) (careful : Careful s (.readNext nbytes)) :
    Meets s (.readNext nbytes) (readNext s.table nbytes) ∧ Inv (follow s (.readNext nbytes) (readNext s.table nbytes)) l := by
  unfold readNext
  by_cases enough : BitVec.ofNat 32 RECORD ≤ nbytes
  · rw [if_pos enough]
    have onTable : s.onTable = true := careful enough
    have cursor := inv.cursor
    rw [onTable] at cursor
    cases at_cursor : s.table.redirection with
    | none => exact idle s l inv (.readNext nbytes) 0 rfl rfl rfl
    | some record =>
        have member := cursor record at_cursor
        refine ⟨⟨fun a used => ?_, l, l, inv.holds, holds_same _ _ l inv.holds rfl rfl rfl rfl, fun _ _ => rfl, rfl, rfl⟩,
          holds_same _ _ l inv.holds rfl rfl rfl rfl, rfl, ?_, ?_⟩
        · obtain rfl := List.mem_singleton.mp used
          exact Or.inl ((inv.holds.owned a).mpr member)
        · rintro a ⟨⟩
          exact member
        · unfold follow
          rw [onTable]
          intro a link
          cases l with
          | nil => exact absurd member List.not_mem_nil
          | cons x back => exact List.mem_cons_of_mem x (linked_tail _ back _ x inv.holds.linked record member a link)
  · rw [if_neg enough]
    exact idle s l inv (.readNext nbytes) 0 rfl rfl rfl

-- The listing begins anew.
theorem read_first (nbytes : Long) :
    Meets s (.readFirst nbytes) (readFirst s.table nbytes) ∧ Inv (follow s (.readFirst nbytes) (readFirst s.table nbytes)) l := by
  have anew : Inv ⟨{ s.table with redirection := s.table.redirectionDb }, s.listed, s.fresh, true⟩ l := by
    refine ⟨holds_same _ _ l inv.holds rfl rfl rfl rfl, inv.listed, inv.prev, fun a first => ?_⟩
    exact List.mem_of_mem_head? ((linked_start _ _ _ inv.holds.linked).symm.trans first)
  obtain ⟨⟨uses, before, after, holds, rest⟩, kept⟩ := read_next _ l anew nbytes fun _ => rfl
  refine ⟨⟨uses, before, after, holds_same _ _ before holds rfl rfl rfl rfl, rest⟩, kept.holds, kept.listed, kept.prev, ?_⟩
  have cursor := kept.cursor
  unfold follow at cursor ⊢
  rw [read_next_freed] at cursor
  exact cursor

-- A new record is put in front.
theorem write_add (call : Call) (nbytes : Long) (buf : Nat → Byte) (kmalloc : Bool)
    (reset : resets call = decide (nbytes = BitVec.ofNat 32 RECORD))
    (add : adds call = if nbytes = BitVec.ofNat 32 RECORD ∧ kmalloc = true then some buf else none)
    (delete : deletes s call = none) :
    Meets s call (writeAdd s.table nbytes buf kmalloc)
      ∧ ∃ l', Inv (follow s call (writeAdd s.table nbytes buf kmalloc)) l' := by
  unfold writeAdd
  by_cases size : nbytes = BitVec.ofNat 32 RECORD
  · rw [if_pos size]
    rw [decide_eq_true size] at reset
    cases kmalloc with
    | true =>
        rw [if_pos ⟨size, rfl⟩] at add
        have fresh : s.table.made ∉ l := fun member => (inv.holds.made _ member).false
        have holds := new_holds s.table l inv.holds
        have others : ∀ a ∈ l, a ≠ s.table.made := fun a member same => fresh (same ▸ member)
        refine ⟨⟨fun a used => ?_, l, s.table.made :: l, inv.holds, holds_same _ _ _ holds rfl rfl rfl rfl, fun a member => ?_, ?_⟩,
          s.table.made :: l, holds_same _ _ _ holds rfl rfl rfl rfl, inv.listed, ?_, ?_⟩
        · obtain rfl := List.mem_singleton.mp used
          exact Or.inr ⟨by rw [add]; exact Option.some_ne_none buf, rfl⟩
        · exact Function.update_of_ne (others a member) _ _
        · rw [add]
          exact ⟨s.table.made, rfl, fresh, Function.update_self .., rfl⟩
        · unfold follow
          have kept : (s.fresh && List.isEmpty ([] : List RecordId)) = s.fresh := Bool.and_true s.fresh
          dsimp only [newRedirection]
          rw [if_pos rfl]
          change Stands (s.fresh && List.isEmpty ([] : List RecordId)) s.table.prevRedir (s.table.made + 1) (s.table.made :: l)
          rw [kept]
          exact stands_pushed s.fresh s.table.prevRedir s.table.made l inv.prev
        · unfold follow
          rw [reset]
          rintro a ⟨⟩
          exact List.mem_cons_self
    | false =>
        rw [if_neg fun both => by cases both.2] at add
        refine ⟨⟨fun a used => absurd used List.not_mem_nil, l, l, inv.holds, holds_same _ _ _ inv.holds rfl rfl rfl rfl,
          fun _ _ => rfl, ?_⟩, l, holds_same _ _ _ inv.holds rfl rfl rfl rfl, inv.listed, ?_, ?_⟩
        · rw [add, delete]
          exact ⟨rfl, rfl⟩
        · have kept : (s.fresh && List.isEmpty ([] : List RecordId)) = s.fresh := Bool.and_true s.fresh
          change Stands (s.fresh && List.isEmpty ([] : List RecordId)) s.table.prevRedir s.table.made l
          rw [kept]
          exact inv.prev
        · unfold follow
          rw [reset]
          rintro a ⟨⟩
  · rw [if_neg size]
    rw [if_neg fun both => size both.1] at add
    exact ⟨(idle s l inv call 0 (reset.trans (decide_eq_false size)) add delete).1, l,
      (idle s l inv call 0 (reset.trans (decide_eq_false size)) add delete).2⟩

theorem write_purge (nbytes : Long) (buf : Nat → Byte) (kmalloc : Bool) :
    Meets s (.writePurge nbytes buf kmalloc) (writePurge s.table nbytes buf kmalloc)
      ∧ ∃ l', Inv (follow s (.writePurge nbytes buf kmalloc) (writePurge s.table nbytes buf kmalloc)) l' := by
  unfold writePurge
  by_cases purge : nbytes = 5 ∧ peek buf 0 5 = PURGE
  · rw [if_pos purge]
    have other : nbytes ≠ BitVec.ofNat 32 RECORD := by
      rw [purge.1]
      decide
    have idle := idle s l inv (.writePurge nbytes buf kmalloc) 5 (decide_eq_false other) (if_neg fun both => other both.1) rfl
    exact ⟨idle.1, l, idle.2⟩
  · rw [if_neg purge]
    exact write_add s l inv (.writePurge nbytes buf kmalloc) nbytes buf kmalloc rfl rfl rfl

theorem write_delete (nbytes : Long) (buf : Nat → Byte) (careful : Careful s (.writeDelete nbytes buf)) :
    ∃ outcome, writeDelete s.table nbytes buf = some outcome ∧ Meets s (.writeDelete nbytes buf) outcome
      ∧ ∃ l', Inv (follow s (.writeDelete nbytes buf) outcome) l' := by
  have nothing := fun delete => idle s l inv (.writeDelete nbytes buf) 0 rfl rfl delete
  have wanted : deletes s (.writeDelete nbytes buf) = if nbytes = 2 then s.table.prevRedir.filter fun record =>
      decide (get16 (peek buf 0 2) 0 = num s.table record) else none := by
    rw [← inv.listed]
    rfl
  unfold writeDelete
  cases at_prev : s.table.prevRedir with
  | none =>
      have idle := nothing (by rw [wanted, at_prev, Option.filter_none, ite_self])
      exact ⟨_, rfl, idle.1, l, idle.2⟩
  | some record =>
      dsimp only
      by_cases size : nbytes = 2
      · have fresh : s.fresh = true := careful size
        have prev := inv.prev
        rw [fresh] at prev
        have member := prev record at_prev
        have allocated := (inv.holds.owned record).mpr member
        rw [if_pos size, at_prev] at wanted
        rw [if_pos size]
        by_cases same : get16 (peek buf 0 2) 0 = num s.table record
        · rw [if_pos same]
          rw [Option.filter_some, if_pos (decide_eq_true same)] at wanted
          have distinct := linked_nodup _ _ _ inv.holds.linked
          obtain ⟨uses, s', result, holds, within, cursor, kept, fields, made⟩ := delete_holds s.table l inv.holds record member
          have gone : record ∉ l.erase record := fun inside => (List.Nodup.not_mem_erase distinct) inside
          have old := inv.holds.made record member
          rw [result]
          refine ⟨_, rfl, ⟨fun a used => Or.inl ?_, l, l.erase record, inv.holds, holds, fun a _ => congrFun fields a, ?_⟩,
            l.erase record, holds, ?_, ?_, ?_⟩
          · obtain rfl | used := List.mem_cons.mp used
            · exact allocated
            · exact (inv.holds.owned a).mpr (within a used)
          · rw [wanted]
            exact ⟨member, rfl, rfl⟩
          · exact inv.listed.trans kept.symm
          · unfold follow
            rw [fresh]
            exact ⟨record, kept.trans at_prev, gone, made ▸ old⟩
          · have stands := stands_erased s.onTable s.table.redirection s.table.made l record distinct old inv.cursor
            unfold follow
            rw [cursor, made]
            simpa [resets] using stands
        · rw [if_neg same]
          rw [Option.filter_some, if_neg (by simpa using same)] at wanted
          refine ⟨_, rfl, ⟨fun a used => ?_, l, l, inv.holds, inv.holds, fun _ _ => rfl, ?_⟩, l, ?_⟩
          · obtain rfl := List.mem_singleton.mp used
            exact Or.inl allocated
          · rw [wanted]
            exact ⟨rfl, rfl⟩
          · have still : follow s (.writeDelete nbytes buf) ⟨s.table, 0, [record], none, []⟩ = s := by
              simp [follow, resets]
            rwa [still]
      · rw [if_neg size] at wanted ⊢
        exact ⟨_, rfl, (nothing wanted).1, l, (nothing wanted).2⟩

theorem careful_meets (call : Call) (careful : Careful s call) :
    ∃ outcome, perform s.table call = some outcome ∧ Meets s call outcome ∧ ∃ l', Inv (follow s call outcome) l' := by
  cases call with
  | readFirst nbytes => exact ⟨_, rfl, (read_first s l inv nbytes).1, l, (read_first s l inv nbytes).2⟩
  | readNext nbytes => exact ⟨_, rfl, (read_next s l inv nbytes careful).1, l, (read_next s l inv nbytes careful).2⟩
  | writePurge nbytes buf kmalloc => exact ⟨_, rfl, write_purge s l inv nbytes buf kmalloc⟩
  | writeAdd nbytes buf kmalloc => exact ⟨_, rfl, write_add s l inv (.writeAdd nbytes buf kmalloc) nbytes buf kmalloc rfl rfl rfl⟩
  | writeDelete nbytes buf => exact write_delete s l inv nbytes buf careful

-- A call that isn't careful uses a record that was freed.
theorem careless_uses (call : Call) (careless : ¬ Careful s call) (outcome : Outcome)
    (result : perform s.table call = some outcome) : ∃ a ∈ outcome.uses, a ∉ l ∧ adds call = none := by
  cases call with
  | readNext nbytes =>
      obtain ⟨enough, gone⟩ := Classical.not_imp.mp careless
      have cursor := inv.cursor
      rw [Bool.eq_false_iff.mpr gone] at cursor
      obtain ⟨a, here, lost, -⟩ := cursor
      obtain rfl := Option.some.inj result
      refine ⟨a, ?_, lost, rfl⟩
      unfold readNext
      rw [if_pos enough, here]
      exact List.mem_cons_self
  | writeDelete nbytes buf =>
      obtain ⟨size, stale⟩ := Classical.not_imp.mp careless
      have prev := inv.prev
      rw [Bool.eq_false_iff.mpr stale] at prev
      obtain ⟨a, here, lost, -⟩ := prev
      refine ⟨a, ?_, lost, rfl⟩
      unfold perform writeDelete at result
      dsimp only at result
      rw [here] at result
      dsimp only at result
      rw [if_pos size] at result
      by_cases same : get16 (peek buf 0 2) 0 = num s.table a
      · rw [if_pos same] at result
        obtain ⟨_, -, rfl⟩ := Option.map_eq_some_iff.mp result
        exact List.mem_cons_self
      · rw [if_neg same] at result
        obtain rfl := Option.some.inj result
        exact List.mem_cons_self
  | readFirst _ => exact absurd trivial careless
  | writePurge _ _ _ => exact absurd trivial careless
  | writeAdd _ _ _ => exact absurd trivial careless

end Steps

def AllMeet : Session → List Call → Prop := Sessions.AllMeet (fun s => perform s.table) follow Meets

def AllCareful : Session → List Call → Prop := Sessions.AllAllowed (fun s => perform s.table) follow Careful

theorem meet_iff_careful (calls : List Call) (s : Session) (inv : ∃ l, Inv s l) : AllMeet s calls ↔ AllCareful s calls := by
  refine Sessions.all_meet_iff (fun s => perform s.table) follow Meets Careful (fun s => ∃ l, Inv s l) ?_ ?_ calls s inv
  · rintro s call ⟨l, inv⟩ careful
    exact careful_meets s l inv call careful
  · rintro s call ⟨l, inv⟩ careless outcome result meets
    obtain ⟨a, used, lost, none⟩ := careless_uses s l inv call careless outcome result
    obtain allocated | added := meets.uses a used
    · exact lost ((inv.holds.owned a).mp allocated)
    · exact added.1 none

-- Before anything is added; what is in the memory of the records does not matter.
def booted (fields : RecordId → Buffer) (nextPort : RecordId → Option RecordId) : Session :=
  ⟨⟨fields, nextPort, fun _ => false, 0, none, none, none⟩, none, true, true⟩

theorem booted_inv (fields : RecordId → Buffer) (nextPort : RecordId → Option RecordId) : Inv (booted fields nextPort) [] :=
  ⟨⟨rfl, fun _ => iff_of_false Bool.false_ne_true List.not_mem_nil, fun _ member => absurd member List.not_mem_nil⟩, rfl,
    (fun _ none => by cases none), (fun _ none => by cases none)⟩

theorem redirections_kept (fields : RecordId → Buffer) (nextPort : RecordId → Option RecordId) (calls : List Call) :
    AllMeet (booted fields nextPort) calls ↔ AllCareful (booted fields nextPort) calls :=
  meet_iff_careful calls _ ⟨[], booted_inv fields nextPort⟩

-- A redirection is added and listed, and its number is written to 201 twice.
theorem deleted_twice : ¬ ∀ (fields : RecordId → Buffer) (nextPort : RecordId → Option RecordId) (calls : List Call),
    AllMeet (booted fields nextPort) calls := by
  intro claim
  have meet := claim (fun _ => []) (fun _ => none)
    [.writeAdd 36 (fun _ => 0) true, .readFirst 36, .writeDelete 2 fun _ => 0, .writeDelete 2 fun _ => 0]
  have careful := (meet_iff_careful _ _ ⟨[], booted_inv _ _⟩).mp meet
  have fresh := (((careful.2 _ rfl).2 _ rfl).2 _ rfl).1 rfl
  cases fresh

end MagxNet.Masqdev
