import MagxNet.Lib.Bytes
import MagxNet.Lib.Singly

set_option autoImplicit false

namespace MagxNet.Masqdev

open Bytes Singly

-- A record is named by the allocation that it comes from: one that is freed is not taken for another at the same address.
abbrev RecordId := Nat

abbrev Long := BitVec 32

-- sizeof (PORT_DB_RECORD): what is in front of next_port, and the pointer.
def FIELDS : Nat := 32
def RECORD : Nat := 36

-- The table of redirections, the memory its records are in and the two cursors of masqdev.c. made counts the records that kmalloc
-- has given.
structure Redirections where
  fields : RecordId → Buffer
  nextPort : RecordId → Option RecordId
  allocated : RecordId → Bool
  made : Nat
  redirectionDb : Option RecordId
  redirection : Option RecordId
  prevRedir : Option RecordId

def num (s : Redirections) (record : RecordId) : BitVec 16 := get16 (s.fields record) 0

-- What a call leaves: the table, what it returns, the records whose memory it reads or writes, the one that is copied to the
-- reader, and those it gives to kfree.
structure Outcome where
  table : Redirections
  result : Nat
  uses : List RecordId
  listed : Option RecordId
  freed : List RecordId

def untouched (s : Redirections) : Outcome := ⟨s, 0, [], none, []⟩

-- kmalloc says whether there is memory for a record.
def newRedirection (s : Redirections) (kmalloc : Bool) : Redirections × Option RecordId :=
  if kmalloc then
    ({ s with
        allocated := Function.update s.allocated s.made true
        nextPort := Function.update s.nextPort s.made s.redirectionDb
        redirectionDb := some s.made
        made := s.made + 1 }, some s.made)
  else (s, none)

-- The loop that looks for the record in front, with the records that it reads; none when it has not ended after so many rounds.
def findPrevious (s : Redirections) (record : RecordId) : Nat → Option RecordId → Option (List RecordId × Option RecordId)
  | 0, _ => none
  | _ + 1, none => some ([], none)
  | rounds + 1, some cur =>
      if s.nextPort cur = some record then some ([cur], some cur)
      else (findPrevious s record rounds (s.nextPort cur)).map fun (uses, previous) => (cur :: uses, previous)

def deleteRedirection (s : Redirections) (record : RecordId) : Option (List RecordId × Redirections) :=
  (findPrevious s record (s.made + 1) s.redirectionDb).map fun (uses, previous) =>
    let unlinked := match previous with
      | some cur => { s with nextPort := Function.update s.nextPort cur (s.nextPort record) }
      | none => { s with redirectionDb := s.nextPort record }
    (uses ++ [record], { unlinked with allocated := Function.update s.allocated record false })

-- masqdev_read at 201, and at 200, which begins the listing anew and falls through.
def readNext (s : Redirections) (nbytes : Long) : Outcome :=
  if BitVec.ofNat 32 RECORD ≤ nbytes then
    match s.redirection with
    | none => untouched s
    | some redirection =>
        ⟨{ s with prevRedir := some redirection, redirection := s.nextPort redirection }, RECORD, [redirection], some redirection, []⟩
  else untouched s

def readFirst (s : Redirections) (nbytes : Long) : Outcome := readNext { s with redirection := s.redirectionDb } nbytes

-- masqdev_write at 200; buf is the memory that nbytes are written from.
def writeAdd (s : Redirections) (nbytes : Long) (buf : Nat → Byte) (kmalloc : Bool) : Outcome :=
  if nbytes = BitVec.ofNat 32 RECORD then
    let (s, redirection) := newRedirection s kmalloc
    let s := { s with redirection := redirection }
    match redirection with
    | some redirection => ⟨{ s with fields := Function.update s.fields redirection (peek buf 0 FIELDS) }, RECORD, [redirection], none, []⟩
    | none => untouched s
  else untouched s

def PURGE : Buffer := [0x70, 0x75, 0x72, 0x67, 0x65]

-- At 102: the purge of the port records leaves the redirections, everything else falls through to the add.
def writePurge (s : Redirections) (nbytes : Long) (buf : Nat → Byte) (kmalloc : Bool) : Outcome :=
  if nbytes = 5 ∧ peek buf 0 5 = PURGE then { untouched s with result := 5 } else writeAdd s nbytes buf kmalloc

-- At 201.
def writeDelete (s : Redirections) (nbytes : Long) (buf : Nat → Byte) : Option Outcome :=
  match s.prevRedir with
  | some prevRedir =>
      if nbytes = 2 then
        if get16 (peek buf 0 2) 0 = num s prevRedir then
          (deleteRedirection s prevRedir).map fun (uses, s) => ⟨s, 2, prevRedir :: uses, none, [prevRedir]⟩
        else some ⟨s, 0, [prevRedir], none, []⟩
      else some (untouched s)
  | none => some (untouched s)

inductive Call
  | readFirst (nbytes : Long)
  | readNext (nbytes : Long)
  | writePurge (nbytes : Long) (buf : Nat → Byte) (kmalloc : Bool)
  | writeAdd (nbytes : Long) (buf : Nat → Byte) (kmalloc : Bool)
  | writeDelete (nbytes : Long) (buf : Nat → Byte)

-- None when the call does not return.
def perform (s : Redirections) : Call → Option Outcome
  | .readFirst nbytes => some (readFirst s nbytes)
  | .readNext nbytes => some (readNext s nbytes)
  | .writePurge nbytes buf kmalloc => some (writePurge s nbytes buf kmalloc)
  | .writeAdd nbytes buf kmalloc => some (writeAdd s nbytes buf kmalloc)
  | .writeDelete nbytes buf => writeDelete s nbytes buf

-- The table holds these records: they are linked in this order, and they are all that is allocated.
structure Holds (s : Redirections) (l : List RecordId) : Prop where
  linked : Linked s.nextPort s.redirectionDb l
  owned : ∀ a, s.allocated a = true ↔ a ∈ l
  made : ∀ a ∈ l, a < s.made

theorem holds_unique (s : Redirections) (l l' : List RecordId) (holds : Holds s l) (holds' : Holds s l') : l = l' :=
  linked_unique s.nextPort l l' s.redirectionDb holds.linked holds'.linked

theorem holds_short (s : Redirections) (l : List RecordId) (holds : Holds s l) : l.length ≤ s.made := by
  have distinct := linked_nodup _ _ _ holds.linked
  have within : l.toFinset ⊆ Finset.range s.made := fun a member => by
    rw [List.mem_toFinset] at member
    exact Finset.mem_range.mpr (holds.made a member)
  have count := Finset.card_le_card within
  rwa [List.toFinset_card_of_nodup distinct, Finset.card_range] at count

theorem new_holds (s : Redirections) (l : List RecordId) (holds : Holds s l) :
    Holds (newRedirection s true).1 (s.made :: l) := by
  have fresh : s.made ∉ l := fun member => (holds.made _ member).false
  have others : ∀ a ∈ l, a ≠ s.made := fun a member same => fresh (same ▸ member)
  refine ⟨⟨rfl, ?_⟩, fun a => ?_, fun a member => ?_⟩
  · change Linked (Function.update s.nextPort s.made s.redirectionDb) (Function.update s.nextPort s.made s.redirectionDb s.made) l
    rw [Function.update_self]
    exact linked_congr s.nextPort _ l _ (fun a member => Function.update_of_ne (others a member) _ _) holds.linked
  · change Function.update s.allocated s.made true a = true ↔ _
    by_cases same : a = s.made
    · subst same
      rw [Function.update_self]
      exact iff_of_true rfl List.mem_cons_self
    · rw [Function.update_of_ne same, holds.owned, List.mem_cons, or_iff_right same]
  · obtain rfl | member := List.mem_cons.mp member
    · exact Nat.lt_succ_self _
    · exact (holds.made a member).trans (Nat.lt_succ_self _)

theorem linked_start (next : RecordId → Option RecordId) (start : Option RecordId) (l : List RecordId) (linked : Linked next start l) :
    start = l.head? := by
  cases l with
  | nil => exact linked
  | cons a rest => exact linked.1

-- What a record links to is behind the first one.
theorem linked_tail (next : RecordId → Option RecordId) (back : List RecordId) : ∀ start x, Linked next start (x :: back) →
    ∀ a ∈ x :: back, ∀ b, next a = some b → b ∈ back := by
  induction back with
  | nil =>
      intro start x linked a member b link
      obtain rfl := List.mem_singleton.mp member
      cases link.symm.trans linked.2
  | cons y rest ih =>
      intro start x linked a member b link
      obtain rfl | later := List.mem_cons.mp member
      · obtain rfl := Option.some.inj (link.symm.trans linked.2.1)
        exact List.mem_cons_self
      · exact List.mem_cons_of_mem y (ih _ y linked.2 a later b link)

section Search

variable (s : Redirections) (record : RecordId)

-- No record is in front of this one: all are read.
theorem find_none (l : List RecordId) : ∀ rounds start, l.length < rounds → Linked s.nextPort start l →
    (∀ a ∈ l, s.nextPort a ≠ some record) → findPrevious s record rounds start = some (l, none) := by
  induction l with
  | nil =>
      intro rounds start enough linked _
      obtain ⟨rounds, rfl⟩ := Nat.exists_eq_add_of_lt enough
      rw [show start = none from linked, findPrevious]
  | cons a rest ih =>
      intro rounds start enough linked apart
      obtain ⟨rounds, rfl⟩ : ∃ more, rounds = more + 1 := ⟨rounds - 1, by rw [List.length_cons] at enough; omega⟩
      obtain ⟨rfl, later⟩ := linked
      rw [findPrevious, if_neg (apart a List.mem_cons_self), ih rounds _ (Nat.lt_of_succ_lt_succ enough) later
        fun b member => apart b (List.mem_cons_of_mem a member)]
      rfl

-- The loop ends at the record in front.
theorem find_some (back : List RecordId) (p : RecordId) (front : List RecordId) : ∀ rounds start, front.length < rounds →
    Linked s.nextPort start (front ++ p :: record :: back) →
    findPrevious s record rounds start = some (front ++ [p], some p) := by
  induction front with
  | nil =>
      intro rounds start enough linked
      obtain ⟨rounds, rfl⟩ := Nat.exists_eq_add_of_lt enough
      obtain ⟨rfl, next, -⟩ := linked
      rw [findPrevious, if_pos next]
      rfl
  | cons a rest ih =>
      intro rounds start enough linked
      obtain ⟨rounds, rfl⟩ : ∃ more, rounds = more + 1 := ⟨rounds - 1, by rw [List.length_cons] at enough; omega⟩
      have distinct := linked_nodup _ _ _ linked
      obtain ⟨rfl, later⟩ := linked
      have other : s.nextPort a ≠ some record := by
        rw [linked_start _ _ _ later]
        have apart := (List.nodup_append.mp (List.nodup_cons.mp distinct).2)
        cases rest with
        | nil =>
            intro same
            obtain rfl : p = record := Option.some.inj same
            exact (List.nodup_cons.mp apart.2.1).1 List.mem_cons_self
        | cons b more =>
            intro same
            obtain rfl : b = record := Option.some.inj same
            exact apart.2.2 b List.mem_cons_self b (by simp) rfl
      rw [findPrevious, if_neg other, ih rounds _ (Nat.lt_of_succ_lt_succ enough) later]
      rfl

end Search

-- What delete_redirection does with a record of the table.
theorem delete_holds (s : Redirections) (l : List RecordId) (holds : Holds s l) (record : RecordId) (member : record ∈ l) :
    ∃ uses s', deleteRedirection s record = some (uses, s') ∧ Holds s' (l.erase record) ∧ (∀ a ∈ uses, a ∈ l)
      ∧ s'.redirection = s.redirection ∧ s'.prevRedir = s.prevRedir ∧ s'.fields = s.fields ∧ s'.made = s.made := by
  have distinct := linked_nodup _ _ _ holds.linked
  have short := holds_short s l holds
  obtain ⟨front, back, rfl⟩ := List.append_of_mem member
  have rest : (front ++ record :: back).erase record = front ++ back := by
    have before : record ∉ front := fun inside => (List.nodup_append.mp distinct).2.2 record inside record List.mem_cons_self rfl
    rw [List.erase_append_right _ before, List.erase_cons_head]
  have owned : ∀ a, Function.update s.allocated record false a = true ↔ a ∈ front ++ back := by
    intro a
    rw [← rest, List.Nodup.mem_erase_iff distinct]
    by_cases same : a = record
    · subst same
      simp
    · rw [Function.update_of_ne same, holds.owned]
      exact (and_iff_right same).symm
  have behind := linked_behind _ _ _ _ _ holds.linked
  rw [rest]
  unfold deleteRedirection
  obtain rfl | ⟨init, p, rfl⟩ := List.eq_nil_or_concat' front
  · have apart : ∀ a ∈ record :: back, s.nextPort a ≠ some record := fun a inside link =>
      (List.nodup_cons.mp distinct).1 (linked_tail _ back _ record holds.linked a inside record link)
    rw [find_none s record (record :: back) _ _ (Nat.lt_succ_of_le short) holds.linked apart]
    refine ⟨_, _, rfl, ⟨behind, owned, fun a inside => holds.made a (List.mem_cons_of_mem record inside)⟩, ?_, rfl, rfl, rfl, rfl⟩
    simp [or_comm]
  · have linked := holds.linked
    rw [List.append_assoc, List.singleton_append] at linked
    rw [find_some s record back p init _ _ (by simp at short; omega) linked]
    refine ⟨_, _, rfl, ⟨?_, owned, fun a inside => holds.made a ?_⟩, ?_, rfl, rfl, rfl, rfl⟩
    · have skipped := linked_skip s.nextPort s.redirectionDb init back p record linked
      rwa [List.append_assoc, List.singleton_append]
    · rw [List.append_assoc] at inside ⊢
      exact (List.Sublist.append_left (List.Sublist.append_left (List.sublist_cons_self record back) [p]) init).subset inside
    · intro a inside
      simp only [List.mem_append, List.mem_singleton] at inside
      simp
      tauto

end MagxNet.Masqdev
