import MagxNet.Ip.Options

set_option autoImplicit false

namespace MagxNet.Ip

open Bytes

-- Where the reads and moves of frag_opts end, round by round, counted from the first option byte. A memcpy with a count
-- below zero goes through the whole address space.
def fragOptsLooks : Nat → Buffer → Nat → Nat → List Nat
  | 0, _, _, _ => []
  | fuel + 1, cp, i, optlen =>
      if i < optlen then
        let type := get8 cp i
        if type &&& IPOPT_TYPE = IPOPT_EOL then [i + 1]
        else if type &&& IPOPT_TYPE = IPOPT_NOP then (i + 1) :: fragOptsLooks fuel cp (i + 1) optlen
        else
          let len := (get8 cp (i + 1)).toNat
          if type &&& IPOPT_COPY ≠ 0 then (i + 2) :: fragOptsLooks fuel cp (i + len) optlen
          else if optlen < i + len then [i + 2, optlen + 2 ^ 32]
          else (i + 2) :: optlen :: fragOptsLooks fuel (moveBytes cp i (i + len) (optlen - i - len)) i (optlen - len)
      else []

-- The options that are left, with the stale bytes between them and the old end behind them. Every length byte is there and
-- not zero, an option to cut ends with the options, and one to keep at the old end at the latest.
inductive Fits : Buffer → Buffer → Prop where
  | nil (behind : Buffer) : Fits [] behind
  | eol (type : Byte) (rest behind : Buffer) (kind : type &&& IPOPT_TYPE = IPOPT_EOL) : Fits (type :: rest) behind
  | nop (type : Byte) (rest behind : Buffer) (kind : type &&& IPOPT_TYPE = IPOPT_NOP) (fits : Fits rest behind) :
      Fits (type :: rest) behind
  | keep (type len : Byte) (rest behind : Buffer) (notEol : type &&& IPOPT_TYPE ≠ IPOPT_EOL)
      (notNop : type &&& IPOPT_TYPE ≠ IPOPT_NOP) (copied : type &&& IPOPT_COPY ≠ 0)
      (length : (rest ++ behind).head? = some len) (positive : 0 < len.toNat) (inside : len.toNat ≤ (type :: rest).length)
      (fits : Fits ((type :: rest).drop len.toNat) behind) : Fits (type :: rest) behind
  | last (type len : Byte) (rest behind : Buffer) (notEol : type &&& IPOPT_TYPE ≠ IPOPT_EOL)
      (notNop : type &&& IPOPT_TYPE ≠ IPOPT_NOP) (copied : type &&& IPOPT_COPY ≠ 0)
      (length : (rest ++ behind).head? = some len) (past : (type :: rest).length < len.toNat)
      (room : len.toNat ≤ (type :: rest).length + behind.length) : Fits (type :: rest) behind
  | cut (type len : Byte) (rest behind : Buffer) (notEol : type &&& IPOPT_TYPE ≠ IPOPT_EOL)
      (notNop : type &&& IPOPT_TYPE ≠ IPOPT_NOP) (copied : type &&& IPOPT_COPY = 0)
      (length : (rest ++ behind).head? = some len) (positive : 0 < len.toNat) (inside : len.toNat ≤ (type :: rest).length)
      (fits : Fits ((type :: rest).drop len.toNat) ((type :: rest).drop ((type :: rest).length - len.toNat) ++ behind)) :
      Fits (type :: rest) behind

theorem move_cut (front bytes behind : Buffer) (len : Nat) (inside : len ≤ bytes.length) :
    moveBytes (front ++ (bytes ++ behind)) front.length (front.length + len) (bytes.length - len) =
      front ++ (bytes.drop len ++ (bytes.drop (bytes.length - len) ++ behind)) := by
  have moved : copyBytes (front ++ (bytes ++ behind)) (front.length + len) (bytes.length - len) = bytes.drop len := by
    rw [copy_bytes_inside _ _ _ (by simp; omega), ← List.drop_drop, List.drop_left, List.drop_append_of_le_length inside]
    simp
  rw [moveBytes, moved]
  simp [List.drop_append, List.append_assoc]

theorem move_item (front item more behind : Buffer) :
    moveBytes (front ++ (item ++ (more ++ behind))) front.length (front.length + item.length) more.length =
      front ++ (more ++ ((item ++ more).drop more.length ++ behind)) := by
  have moved := move_cut front (item ++ more) behind item.length (by simp)
  have count : (item ++ more).length - item.length = more.length := by simp
  rw [count, List.drop_left, List.append_assoc] at moved
  exact moved

section Rounds

variable (fuel optlen : Nat) (front more : Buffer) (type : Byte) (inside : front.length < optlen)

theorem scan_done (cp : Buffer) (i : Nat) (done : optlen ≤ i) :
    fragOptsScan (fuel + 1) cp i optlen = .ret (cp, i) ∧ fragOptsLooks (fuel + 1) cp i optlen = [] := by
  rw [fragOptsScan, fragOptsLooks, if_neg (Nat.not_lt.mpr done), if_neg (Nat.not_lt.mpr done)]
  exact ⟨rfl, rfl⟩

include inside

theorem scan_eol (kind : type &&& IPOPT_TYPE = IPOPT_EOL) :
    fragOptsScan (fuel + 1) (front ++ type :: more) front.length optlen = .ret (front ++ type :: more, front.length + 1)
      ∧ fragOptsLooks (fuel + 1) (front ++ type :: more) front.length optlen = [front.length + 1] := by
  rw [fragOptsScan, fragOptsLooks, if_pos inside, if_pos inside, get8_here]
  exact ⟨if_pos kind, if_pos kind⟩

theorem scan_nop (kind : type &&& IPOPT_TYPE = IPOPT_NOP) :
    fragOptsScan (fuel + 1) (front ++ type :: more) front.length optlen =
        fragOptsScan fuel (front ++ type :: more) (front.length + 1) optlen
      ∧ fragOptsLooks (fuel + 1) (front ++ type :: more) front.length optlen =
        (front.length + 1) :: fragOptsLooks fuel (front ++ type :: more) (front.length + 1) optlen := by
  have notEol : ¬ type &&& IPOPT_TYPE = IPOPT_EOL := by
    rw [kind]
    decide
  rw [fragOptsScan, fragOptsLooks, if_pos inside, if_pos inside, get8_here]
  dsimp only
  rw [if_neg notEol, if_neg notEol, if_pos kind, if_pos kind]
  exact ⟨rfl, rfl⟩

variable (notEol : type &&& IPOPT_TYPE ≠ IPOPT_EOL) (notNop : type &&& IPOPT_TYPE ≠ IPOPT_NOP)

include notEol notNop

theorem looks_next :
    front.length + 2 ∈ fragOptsLooks (fuel + 1) (front ++ type :: more) front.length optlen := by
  rw [fragOptsLooks, if_pos inside, get8_here]
  dsimp only
  rw [if_neg notEol, if_neg notNop]
  by_cases copied : type &&& IPOPT_COPY = 0
  · rw [if_neg (not_not.mpr copied)]
    split <;> exact List.mem_cons_self
  · rw [if_pos copied]
    exact List.mem_cons_self

theorem scan_keep (copied : type &&& IPOPT_COPY ≠ 0) :
    fragOptsScan (fuel + 1) (front ++ type :: more) front.length optlen = fragOptsScan fuel (front ++ type :: more)
        (front.length + (get8 (front ++ type :: more) (front.length + 1)).toNat) optlen
      ∧ fragOptsLooks (fuel + 1) (front ++ type :: more) front.length optlen = (front.length + 2) ::
        fragOptsLooks fuel (front ++ type :: more)
          (front.length + (get8 (front ++ type :: more) (front.length + 1)).toNat) optlen := by
  rw [fragOptsScan, fragOptsLooks, if_pos inside, if_pos inside, get8_here]
  dsimp only
  rw [if_neg notEol, if_neg notEol, if_neg notNop, if_neg notNop, if_pos copied, if_pos copied]
  exact ⟨rfl, rfl⟩

theorem scan_away (copied : type &&& IPOPT_COPY = 0)
    (past : optlen < front.length + (get8 (front ++ type :: more) (front.length + 1)).toNat) :
    fragOptsScan (fuel + 1) (front ++ type :: more) front.length optlen = .fault := by
  rw [fragOptsScan, if_pos inside, get8_here]
  dsimp only
  rw [if_neg notEol, if_neg notNop, if_neg (not_not.mpr copied), if_pos past]

theorem scan_cut (copied : type &&& IPOPT_COPY = 0)
    (within : front.length + (get8 (front ++ type :: more) (front.length + 1)).toNat ≤ optlen) :
    fragOptsScan (fuel + 1) (front ++ type :: more) front.length optlen = fragOptsScan fuel
        (moveBytes (front ++ type :: more) front.length
          (front.length + (get8 (front ++ type :: more) (front.length + 1)).toNat)
          (optlen - front.length - (get8 (front ++ type :: more) (front.length + 1)).toNat))
        front.length (optlen - (get8 (front ++ type :: more) (front.length + 1)).toNat)
      ∧ fragOptsLooks (fuel + 1) (front ++ type :: more) front.length optlen = (front.length + 2) :: optlen ::
        fragOptsLooks fuel
          (moveBytes (front ++ type :: more) front.length
            (front.length + (get8 (front ++ type :: more) (front.length + 1)).toNat)
            (optlen - front.length - (get8 (front ++ type :: more) (front.length + 1)).toNat))
          front.length (optlen - (get8 (front ++ type :: more) (front.length + 1)).toNat) := by
  rw [fragOptsScan, fragOptsLooks, if_pos inside, if_pos inside, get8_here]
  dsimp only
  rw [if_neg notEol, if_neg notEol, if_neg notNop, if_neg notNop, if_neg (not_not.mpr copied), if_neg (not_not.mpr copied),
    if_neg (Nat.not_lt.mpr within), if_neg (Nat.not_lt.mpr within)]
  exact ⟨rfl, rfl⟩

end Rounds

theorem head_behind (rest behind after : Buffer) (len : Byte) (length : (rest ++ behind).head? = some len) :
    (rest ++ (behind ++ after)).head? = some len := by
  rw [← List.append_assoc, List.head?_append, length]
  rfl

theorem length_inside (rest behind : Buffer) (len : Byte) (length : (rest ++ behind).head? = some len) :
    0 < rest.length + behind.length := by
  rw [← List.length_append]
  cases whole : rest ++ behind with
  | nil =>
      rw [whole] at length
      cases length
  | cons byte tail => exact Nat.succ_pos _

theorem head_inside (rest behind : Buffer) (inside : 0 < rest.length + behind.length) :
    ∃ len, (rest ++ behind).head? = some len := by
  rw [← List.length_append] at inside
  cases bytes : rest ++ behind with
  | nil =>
      rw [bytes] at inside
      cases inside
  | cons len tail => exact ⟨len, rfl⟩

-- The loop came to an end inside the area and left what follows.
def Bounded (after : Buffer) (whole : Nat) (result : Outcome (Buffer × Nat)) : Prop :=
  ∃ area kept, result = .ret (area ++ after, kept) ∧ area.length = whole ∧ kept ≤ whole

theorem bounded_of_fits (after rest behind : Buffer) (fits : Fits rest behind) :
    ∀ (fuel : Nat) (front cp : Buffer) (i optlen whole : Nat), cp = front ++ (rest ++ (behind ++ after)) → i = front.length →
      optlen = i + rest.length → whole = optlen + behind.length →
      (rest.length < fuel → Bounded after whole (fragOptsScan fuel cp i optlen))
        ∧ ∀ stop ∈ fragOptsLooks fuel cp i optlen, stop ≤ whole := by
  induction fits with
  | nil behind =>
      intro fuel front cp i optlen whole area place length size
      subst area place length size
      cases fuel with
      | zero => simp [fragOptsLooks]
      | succ fuel =>
          obtain ⟨run, looks⟩ := scan_done fuel (front.length + [].length) (front ++ ([] ++ (behind ++ after))) front.length (by simp)
          rw [run, looks]
          exact ⟨fun _ => ⟨front ++ behind, front.length, by simp, by simp, by simp⟩, by simp⟩
  | eol type rest behind kind =>
      intro fuel front cp i optlen whole area place length size
      subst area place length size
      cases fuel with
      | zero => simp [fragOptsLooks]
      | succ fuel =>
          obtain ⟨run, looks⟩ := scan_eol fuel (front.length + (type :: rest).length) front (rest ++ (behind ++ after)) type
            (by simp) kind
          rw [List.cons_append, run, looks]
          exact ⟨fun _ => ⟨front ++ type :: (rest ++ behind), front.length + 1, by simp, by simp; omega, by simp; omega⟩,
            by simp; omega⟩
  | nop type rest behind kind fits ih =>
      intro fuel front cp i optlen whole area place length size
      subst area place length size
      cases fuel with
      | zero => simp [fragOptsLooks]
      | succ fuel =>
          obtain ⟨run, looks⟩ := scan_nop fuel (front.length + (type :: rest).length) front (rest ++ (behind ++ after)) type
            (by simp) kind
          obtain ⟨later, stops⟩ := ih fuel (front ++ [type]) (front ++ type :: (rest ++ (behind ++ after))) (front.length + 1)
            (front.length + (type :: rest).length) (front.length + (type :: rest).length + behind.length) (by simp) (by simp)
            (by simp; omega) rfl
          rw [List.cons_append, run, looks]
          refine ⟨fun enough => later (by simpa using enough), fun stop member => ?_⟩
          obtain rfl | member := List.mem_cons.mp member
          · simp; omega
          · exact stops stop member
  | keep type len rest behind notEol notNop copied length positive inside fits ih =>
      intro fuel front cp i optlen whole area place length' size
      subst area place length' size
      cases fuel with
      | zero => simp [fragOptsLooks]
      | succ fuel =>
          obtain ⟨run, looks⟩ := scan_keep fuel (front.length + (type :: rest).length) front (rest ++ (behind ++ after)) type
            (by simp) notEol notNop copied
          have read := get8_next front (rest ++ (behind ++ after)) type len (head_behind rest behind after len length)
          have split := List.take_append_drop len.toNat (type :: rest)
          obtain ⟨later, stops⟩ := ih fuel (front ++ (type :: rest).take len.toNat) (front ++ type :: (rest ++ (behind ++ after)))
            (front.length + len.toNat) (front.length + (type :: rest).length)
            (front.length + (type :: rest).length + behind.length)
            (by rw [List.append_assoc, ← List.append_assoc (List.take _ _), split]; rfl)
            (by rw [List.length_append, List.length_take, Nat.min_eq_left inside])
            (by rw [List.length_drop]; omega) rfl
          have here := length_inside rest behind len length
          rw [List.cons_append, run, looks, read]
          refine ⟨fun enough => later ?_, fun stop member => ?_⟩
          · rw [List.length_drop]
            omega
          · obtain rfl | member := List.mem_cons.mp member
            · rw [List.length_cons]
              omega
            · exact stops stop member
  | last type len rest behind notEol notNop copied length past room =>
      intro fuel front cp i optlen whole area place length' size
      subst area place length' size
      cases fuel with
      | zero => simp [fragOptsLooks]
      | succ fuel =>
          obtain ⟨run, looks⟩ := scan_keep fuel (front.length + (type :: rest).length) front (rest ++ (behind ++ after)) type
            (by simp) notEol notNop copied
          have read := get8_next front (rest ++ (behind ++ after)) type len (head_behind rest behind after len length)
          have here := length_inside rest behind len length
          rw [List.cons_append, run, looks, read]
          cases fuel with
          | zero =>
              refine ⟨fun enough => by simp at enough, fun stop member => ?_⟩
              rw [fragOptsLooks] at member
              cases List.mem_singleton.mp member
              rw [List.length_cons]
              omega
          | succ fuel =>
              obtain ⟨run, looks⟩ := scan_done fuel (front.length + (type :: rest).length)
                (front ++ type :: (rest ++ (behind ++ after))) (front.length + len.toNat) (by omega)
              rw [run, looks]
              refine ⟨fun _ => ⟨front ++ type :: (rest ++ behind), front.length + len.toNat, by simp, ?_, by omega⟩,
                fun stop member => ?_⟩
              · simp
                omega
              · cases List.mem_singleton.mp member
                rw [List.length_cons]
                omega
  | cut type len rest behind notEol notNop copied length positive inside fits ih =>
      intro fuel front cp i optlen whole area place length' size
      subst area place length' size
      cases fuel with
      | zero => simp [fragOptsLooks]
      | succ fuel =>
          have read := get8_next front (rest ++ (behind ++ after)) type len (head_behind rest behind after len length)
          obtain ⟨run, looks⟩ := scan_cut fuel (front.length + (type :: rest).length) front (rest ++ (behind ++ after)) type
            (by simp) notEol notNop copied (by rw [read]; omega)
          have moved := move_cut front (type :: rest) (behind ++ after) len.toNat inside
          have count : front.length + (type :: rest).length - front.length - len.toNat = (type :: rest).length - len.toNat := by
            omega
          obtain ⟨later, stops⟩ := ih fuel front _ front.length (front.length + (type :: rest).length - len.toNat)
            (front.length + (type :: rest).length + behind.length) rfl rfl (by rw [List.length_drop]; omega)
            (by rw [List.length_append, List.length_drop]; omega)
          have here := length_inside rest behind len length
          rw [List.cons_append] at moved ⊢
          rw [run, looks, read, count, moved]
          rw [List.append_assoc] at later stops
          refine ⟨fun enough => later ?_, fun stop member => ?_⟩
          · rw [List.length_drop]
            omega
          · obtain rfl | member := List.mem_cons.mp member
            · rw [List.length_cons]
              omega
            · obtain rfl | member := List.mem_cons.mp member
              · omega
              · exact stops stop member

-- A run that stays inside the area goes over options that fit.
theorem fits_of_bounded (after : Buffer) : ∀ (fuel : Nat) (front rest behind cp : Buffer) (i optlen whole kept : Nat) (out : Buffer),
    cp = front ++ (rest ++ (behind ++ after)) → i = front.length → optlen = i + rest.length → whole = optlen + behind.length →
      fragOptsScan fuel cp i optlen = .ret (out, kept) → kept ≤ whole →
      (∀ stop ∈ fragOptsLooks fuel cp i optlen, stop ≤ whole) → Fits rest behind := by
  intro fuel
  induction fuel with
  | zero =>
      intro front rest behind cp i optlen whole kept out area place length size returns
      cases returns
  | succ fuel ih =>
      intro front rest behind cp i optlen whole kept out area place length size returns bound stops
      subst area place length size
      cases rest with
      | nil => exact .nil behind
      | cons type rest =>
          rw [List.cons_append] at returns stops
          have here : front.length < front.length + (type :: rest).length := by simp
          by_cases eol : type &&& IPOPT_TYPE = IPOPT_EOL
          · exact .eol type rest behind eol
          by_cases nop : type &&& IPOPT_TYPE = IPOPT_NOP
          · obtain ⟨run, looks⟩ := scan_nop fuel _ front (rest ++ (behind ++ after)) type here nop
            rw [run] at returns
            rw [looks] at stops
            exact .nop type rest behind nop (ih (front ++ [type]) rest behind _ _ _ _ kept out (by simp) (by simp)
              (by simp; omega) rfl returns bound fun stop member => stops stop (List.mem_cons_of_mem _ member))
          have next := stops _ (looks_next fuel _ front (rest ++ (behind ++ after)) type here eol nop)
          rw [List.length_cons] at next
          obtain ⟨len, length⟩ := head_inside rest behind (by omega)
          have read := get8_next front (rest ++ (behind ++ after)) type len (head_behind rest behind after len length)
          by_cases copied : type &&& IPOPT_COPY = 0
          · by_cases within : front.length + len.toNat ≤ front.length + (type :: rest).length
            · obtain ⟨run, looks⟩ := scan_cut fuel _ front (rest ++ (behind ++ after)) type here eol nop copied (by rw [read]; exact within)
              have inside : len.toNat ≤ (type :: rest).length := by omega
              have moved := move_cut front (type :: rest) (behind ++ after) len.toNat inside
              have count : front.length + (type :: rest).length - front.length - len.toNat =
                  (type :: rest).length - len.toNat := by omega
              rw [List.cons_append] at moved
              rw [run, read, count, moved] at returns
              rw [looks, read, count, moved] at stops
              have fits := ih front ((type :: rest).drop len.toNat)
                ((type :: rest).drop ((type :: rest).length - len.toNat) ++ behind) _ _ _ _ kept out
                (by rw [List.append_assoc]) rfl (by rw [List.length_drop]; omega) rfl returns
                (by rw [List.length_append, List.length_drop]; omega)
                fun stop member => by
                  have bound := stops stop (List.mem_cons_of_mem _ (List.mem_cons_of_mem _ member))
                  rw [List.length_append, List.length_drop]
                  omega
              obtain zero | positive := Nat.eq_zero_or_pos len.toNat
              · simpa [zero] using fits
              · exact .cut type len rest behind eol nop copied length positive inside fits
            · rw [scan_away fuel _ front (rest ++ (behind ++ after)) type here eol nop copied (by rw [read]; omega)] at returns
              cases returns
          · obtain ⟨run, looks⟩ := scan_keep fuel _ front (rest ++ (behind ++ after)) type here eol nop copied
            rw [run, read] at returns
            rw [looks, read] at stops
            by_cases inside : len.toNat ≤ (type :: rest).length
            · have split := List.take_append_drop len.toNat (type :: rest)
              have fits := ih (front ++ (type :: rest).take len.toNat) ((type :: rest).drop len.toNat) behind _ _ _ _ kept out
                (by rw [List.append_assoc, ← List.append_assoc (List.take _ _), split]; rfl)
                (by rw [List.length_append, List.length_take, Nat.min_eq_left inside])
                (by rw [List.length_drop]; omega) rfl returns bound
                fun stop member => stops stop (List.mem_cons_of_mem _ member)
              obtain zero | positive := Nat.eq_zero_or_pos len.toNat
              · simpa [zero] using fits
              · exact .keep type len rest behind eol nop copied length positive inside fits
            · cases fuel with
              | zero => cases returns
              | succ fuel =>
                  rw [(scan_done fuel _ _ _ (by omega)).1] at returns
                  cases returns
                  exact .last type len rest behind eol nop copied length (by omega) (by omega)

-- An option as RFC 791 lays it out.
inductive Item : Buffer → Prop where
  | nop (type : Byte) (kind : type &&& IPOPT_TYPE = IPOPT_NOP) : Item [type]
  | option (type len : Byte) (body : Buffer) (notEol : type &&& IPOPT_TYPE ≠ IPOPT_EOL)
      (notNop : type &&& IPOPT_TYPE ≠ IPOPT_NOP) (size : len.toNat = body.length + 2) : Item (type :: len :: body)

-- What follows the options: nothing, or the end of the list and whatever is behind it.
def Ending (tail : Buffer) : Prop := ∀ type ∈ tail.head?, type &&& IPOPT_TYPE = IPOPT_EOL

-- NOPs and the options that go into every fragment.
def Copied (item : Buffer) : Prop := get8 item 0 &&& IPOPT_TYPE = IPOPT_NOP ∨ get8 item 0 &&& IPOPT_COPY ≠ 0

instance (item : Buffer) : Decidable (Copied item) := inferInstanceAs (Decidable (_ ∨ _))

def stripped (items : List Buffer) (tail : Buffer) : Buffer := (items.filter fun item => decide (Copied item)).flatten ++ tail.take 1

theorem stripped_copied (item : Buffer) (items : List Buffer) (tail : Buffer) (copied : Copied item) :
    stripped (item :: items) tail = item ++ stripped items tail := by
  simp [stripped, copied]

theorem stripped_cut (item : Buffer) (items : List Buffer) (tail : Buffer) (cut : ¬ Copied item) :
    stripped (item :: items) tail = stripped items tail := by
  simp [stripped, cut]

theorem scan_items (tail : Buffer) (ending : Ending tail) : ∀ (items : List Buffer), (∀ item ∈ items, Item item) →
    ∀ (fuel : Nat) (front behind cp : Buffer) (i optlen : Nat), cp = front ++ (items.flatten ++ (tail ++ behind)) →
      i = front.length → optlen = i + (items.flatten ++ tail).length → (items.flatten ++ tail).length < fuel →
      ∃ more, fragOptsScan fuel cp i optlen =
        .ret (front ++ (stripped items tail ++ more), (front ++ stripped items tail).length) := by
  intro items
  induction items with
  | nil =>
      intro _ fuel front behind cp i optlen area place length enough
      subst area place length
      obtain ⟨fuel, rfl⟩ : ∃ k, fuel = k + 1 := ⟨fuel - 1, by omega⟩
      cases tail with
      | nil =>
          refine ⟨behind, ?_⟩
          rw [(scan_done fuel _ _ _ (by simp)).1]
          simp [stripped]
      | cons type rest =>
          refine ⟨rest ++ behind, (scan_eol fuel _ front (rest ++ behind) type (by simp) (ending type rfl)).1.trans ?_⟩
          simp [stripped]
  | cons item items ih =>
      intro formed fuel front behind cp i optlen area place length enough
      have later := ih fun other member => formed other (List.mem_cons_of_mem item member)
      obtain ⟨fuel, rfl⟩ : ∃ k, fuel = k + 1 := ⟨fuel - 1, by omega⟩
      rw [List.flatten_cons, List.append_assoc] at area length enough
      subst area place length
      cases formed item List.mem_cons_self with
      | nop type kind =>
          have copied : Copied [type] := Or.inl kind
          rw [stripped_copied _ _ _ copied]
          have run := (scan_nop fuel (front.length + ([type] ++ (items.flatten ++ tail)).length) front
            (items.flatten ++ (tail ++ behind)) type (by simp) kind).1
          obtain ⟨more, rest⟩ := later fuel (front ++ [type]) behind (front ++ type :: (items.flatten ++ (tail ++ behind)))
            (front.length + 1) (front.length + ([type] ++ (items.flatten ++ tail)).length) (by simp) (by simp)
            (by simp; omega) (by simp at enough ⊢; omega)
          refine ⟨more, run.trans (rest.trans ?_)⟩
          simp
      | option type len body notEol notNop size =>
          have read := get8_next front (len :: body ++ (items.flatten ++ (tail ++ behind))) type len rfl
          have length : (type :: len :: body).length = len.toNat := by simp [size]
          by_cases copied : type &&& IPOPT_COPY = 0
          · have cut : ¬ Copied (type :: len :: body) := fun either => either.elim notNop fun other => other copied
            rw [stripped_cut _ _ _ cut]
            obtain ⟨run, -⟩ := scan_cut fuel (front.length + (type :: len :: body ++ (items.flatten ++ tail)).length) front
              (len :: body ++ (items.flatten ++ (tail ++ behind))) type (by simp) notEol notNop copied
              (by rw [read, List.length_append, length]; omega)
            have moved := move_item front (type :: len :: body) (items.flatten ++ tail) behind
            have count : front.length + (type :: len :: body ++ (items.flatten ++ tail)).length - front.length - len.toNat =
                (items.flatten ++ tail).length := by
              rw [List.length_append, length]
              omega
            have left : front.length + (type :: len :: body ++ (items.flatten ++ tail)).length - len.toNat =
                front.length + (items.flatten ++ tail).length := by
              rw [List.length_append, length]
              omega
            rw [length, List.append_assoc items.flatten, List.append_assoc items.flatten] at moved
            rw [read, count, left] at run
            obtain ⟨more, rest⟩ := later fuel front (((type :: len :: body ++ (items.flatten ++ tail)).drop
              (items.flatten ++ tail).length) ++ behind) _ front.length _ rfl rfl rfl
              (by rw [List.length_append, length] at enough; omega)
            refine ⟨more, run.trans (Eq.trans ?_ rest)⟩
            rw [← moved]
            rfl
          · have keeps : Copied (type :: len :: body) := Or.inr copied
            rw [stripped_copied _ _ _ keeps]
            have run := (scan_keep fuel (front.length + (type :: len :: body ++ (items.flatten ++ tail)).length) front
              (len :: body ++ (items.flatten ++ (tail ++ behind))) type (by simp) notEol notNop copied).1
            rw [read] at run
            obtain ⟨more, rest⟩ := later fuel (front ++ (type :: len :: body)) behind
              (front ++ type :: (len :: body ++ (items.flatten ++ (tail ++ behind))))
              (front.length + len.toNat) (front.length + (type :: len :: body ++ (items.flatten ++ tail)).length) (by simp)
              (by rw [List.length_append, length]) (by rw [List.length_append, length]; omega)
              (by rw [List.length_append, length] at enough; omega)
            refine ⟨more, run.trans (rest.trans ?_)⟩
            simp

-- What frag_opts is for: a header of whole words that is no longer than the old one, the rest of the datagram as it was,
-- and of options that are well formed those that go into every fragment.
structure Shortened (iph : Buffer) (optlen : Nat) (out : Buffer) (hdrlen : Nat) : Prop where
  same_length : out.length = iph.length
  behind : out.drop (IP_MINLEN + optlen) = iph.drop (IP_MINLEN + optlen)
  field : ∀ i, 0 < i → i < IP_MINLEN → get8 out i = get8 iph i
  header : ipHdrlen out = hdrlen
  lower : IP_MINLEN ≤ hdrlen
  upper : hdrlen ≤ IP_MINLEN + optlen
  aligned : hdrlen % 4 = 0
  options : ∀ items tail, (∀ item ∈ items, Item item) → Ending tail →
    (iph.drop IP_MINLEN).take optlen = items.flatten ++ tail →
    ∃ n < 4, (out.drop IP_MINLEN).take (hdrlen - IP_MINLEN) = stripped items tail ++ List.replicate n IPOPT_NOP

structure Strips (iph : Buffer) (optlen : Nat) : Prop where
  looks : ∀ fuel, ∀ stop ∈ fragOptsLooks fuel (iph.drop IP_MINLEN) 0 optlen, stop ≤ optlen
  returns : ∃ fuel out hdrlen, fragOpts fuel iph optlen = .ret (out, hdrlen) ∧ Shortened iph optlen out hdrlen

section Header

variable (iph : Buffer) (optlen : Nat)

theorem area_split : iph.drop IP_MINLEN =
    [] ++ ((iph.drop IP_MINLEN).take optlen ++ ([] ++ (iph.drop IP_MINLEN).drop optlen)) := by
  rw [List.nil_append, List.nil_append, List.take_append_drop]

variable (whole : IP_MINLEN + optlen ≤ iph.length)

include whole

theorem area_length : ((iph.drop IP_MINLEN).take optlen).length = optlen := by
  rw [List.length_take, List.length_drop]
  omega

theorem strips_of_fits (small : optlen ≤ 40) (aligned : optlen % 4 = 0)
    (fits : Fits ((iph.drop IP_MINLEN).take optlen) []) : Strips iph optlen := by
  have size := area_length iph optlen whole
  have split := area_split iph optlen
  have bounded := fun fuel => bounded_of_fits _ _ _ fits fuel [] (iph.drop IP_MINLEN) 0 optlen optlen split rfl
    (by rw [size, Nat.zero_add]) rfl
  obtain ⟨area, kept, run, length, bound⟩ := (bounded (optlen + 1)).1 (by omega)
  have built := frag_opts_built iph (area ++ (iph.drop IP_MINLEN).drop optlen) optlen kept small aligned whole
    (by rw [List.length_append, List.length_drop, List.length_drop, length]; omega)
    (by rw [List.drop_left' length, List.drop_drop]) bound
  refine ⟨fun fuel => (bounded fuel).2, optlen + 1, _, _, by rw [fragOpts, run, Outcome.ret_bind], built.same_length,
    built.behind, built.field, built.header, built.lower, built.upper, ?_, ?_⟩
  · have padded := (padding_spec kept).1
    have fixed : IP_MINLEN = 20 := rfl
    omega
  · intro items tail formed ending options
    rw [options] at size split
    obtain ⟨more, exact'⟩ := scan_items tail ending items formed (optlen + 1) [] ((iph.drop IP_MINLEN).drop optlen) (iph.drop IP_MINLEN)
      0 optlen (split.trans (by rw [List.append_assoc]; rfl)) rfl (by rw [size, Nat.zero_add]) (by omega)
    rw [run] at exact'
    obtain ⟨here, count⟩ := Prod.mk.inj (Outcome.ret.inj exact')
    refine ⟨padding kept, (padding_spec kept).2, ?_⟩
    rw [built.options, here, count, List.nil_append, List.nil_append, List.take_left]

theorem fits_of_strips (strips : Strips iph optlen) : Fits ((iph.drop IP_MINLEN).take optlen) [] := by
  obtain ⟨looks, fuel, out, hdrlen, run, shortened⟩ := strips
  obtain ⟨⟨cp, kept⟩, scan, built⟩ := (Outcome.bind_eq_ret _ _ _).mp run
  have padded : hdrlen = kept + padding kept + IP_MINLEN := (Prod.mk.inj (Outcome.ret.inj built)).2.symm
  have upper := shortened.upper
  exact fits_of_bounded _ fuel [] _ [] (iph.drop IP_MINLEN) 0 optlen optlen kept cp (area_split iph optlen) rfl
    (by rw [area_length iph optlen whole, Nat.zero_add]) rfl scan (by omega) (looks fuel)

end Header

-- frag_opts does what it is for exactly on options that fit.
theorem frag_opts_iff (iph : Buffer) (optlen : Nat) (small : optlen ≤ 40) (aligned : optlen % 4 = 0)
    (whole : IP_MINLEN + optlen ≤ iph.length) : Strips iph optlen ↔ Fits ((iph.drop IP_MINLEN).take optlen) [] :=
  ⟨fits_of_strips iph optlen whole, strips_of_fits iph optlen whole small aligned⟩

-- A header with these option bytes.
def optionHeader (area : Buffer) : Buffer := [0x45 + BitVec.ofNat 8 (area.length / 4)] ++ List.replicate 19 0 ++ area

-- A record route option, which goes only into the first fragment, and behind it a security option, which goes into all.
theorem frag_opts_iff_mixed : Strips (optionHeader [0x07, 4, 0, 0, 0x82, 4, 0, 0]) 8 := by
  refine (frag_opts_iff _ 8 (by decide) rfl (by decide)).mpr ?_
  refine .cut 0x07 4 _ _ (by decide) (by decide) (by decide) rfl (by decide) (by decide) ?_
  exact .keep 0x82 4 _ _ (by decide) (by decide) (by decide) rfl (by decide) (by decide) (.nil _)

-- A security option of length zero.
theorem strips_zero_length : ¬ Strips (optionHeader [0x82, 0, 0, 0]) 4 := by
  intro strips
  have fits := fits_of_strips _ 4 (by decide) strips
  have options : ((optionHeader [0x82, 0, 0, 0]).drop IP_MINLEN).take 4 = [0x82, 0, 0, 0] := rfl
  rw [options] at fits
  cases fits with
  | eol _ _ _ kind => revert kind; decide
  | nop _ _ _ kind => revert kind; decide
  | keep _ len _ _ _ _ _ length positive => cases length; revert positive; decide
  | last _ len _ _ _ _ _ length past => cases length; revert past; decide
  | cut _ _ _ _ _ _ copied => revert copied; decide

end MagxNet.Ip
