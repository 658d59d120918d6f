import MagxNet.Tcp.Util

set_option autoImplicit false

namespace MagxNet.Tcp

open Bytes

-- Where the reads of tcp_options end, counted from the first option byte.
def optionsLooks (cp : List Byte) (optlen : Nat) (syn : Bool) : Nat → Nat → List Nat
  | 0, _ => []
  | fuel + 1, i =>
      if optlen ≤ i then []
      else if get8 cp i = 0 then [i + 1]
      else if get8 cp i = 1 then (i + 1) :: optionsLooks cp optlen syn fuel (i + 1)
      else if get8 cp i = 2 then
        let len := (get8 cp (i + 1)).toNat
        (i + 2) :: ((if len = 4 ∧ syn then [i + 4] else []) ++ optionsLooks cp optlen syn fuel (i + len))
      else [i + 1]

-- Of the MSS options that are met none is without its length byte, of length zero, or cut off before its value.
inductive MssFits (syn : Bool) : List Byte → Prop where
  | nil : MssFits syn []
  | eol (rest : List Byte) : MssFits syn (0 :: rest)
  | nop (rest : List Byte) (fits : MssFits syn rest) : MssFits syn (1 :: rest)
  | mss (len : Byte) (rest : List Byte) (positive : 0 < len.toNat) (value : len.toNat = 4 → syn = true → 2 ≤ rest.length)
      (fits : MssFits syn ((2 :: len :: rest).drop len.toNat)) : MssFits syn (2 :: len :: rest)
  | unknown (kind : Byte) (rest : List Byte) (other : 2 < kind.toNat) : MssFits syn (kind :: rest)

section Rounds

variable (syn : Bool) (fuel optlen : Nat) (mss : Int) (front more : List Byte)

theorem options_done (cp : List Byte) (i : Nat) (done : optlen ≤ i) :
    optionsScan cp optlen syn fuel i mss = some mss ∧ optionsLooks cp optlen syn fuel i = [] := by
  cases fuel with
  | zero => exact ⟨rfl, rfl⟩
  | succ fuel => exact ⟨if_pos done, if_pos done⟩

variable (inside : front.length < optlen)

include inside

theorem options_eol :
    optionsScan (front ++ 0 :: more) optlen syn (fuel + 1) front.length mss = some mss
      ∧ optionsLooks (front ++ 0 :: more) optlen syn (fuel + 1) front.length = [front.length + 1] := by
  rw [optionsScan, optionsLooks, if_neg (Nat.not_le.mpr inside), if_neg (Nat.not_le.mpr inside), get8_here]
  exact ⟨rfl, rfl⟩

theorem options_nop :
    optionsScan (front ++ 1 :: more) optlen syn (fuel + 1) front.length mss =
        optionsScan (front ++ 1 :: more) optlen syn fuel (front.length + 1) mss
      ∧ optionsLooks (front ++ 1 :: more) optlen syn (fuel + 1) front.length =
        (front.length + 1) :: optionsLooks (front ++ 1 :: more) optlen syn fuel (front.length + 1) := by
  rw [optionsScan, optionsLooks, if_neg (Nat.not_le.mpr inside), if_neg (Nat.not_le.mpr inside), get8_here]
  exact ⟨rfl, rfl⟩

theorem options_mss (len : Byte) (positive : 0 < len.toNat) :
    optionsScan (front ++ 2 :: len :: more) optlen syn (fuel + 1) front.length mss =
        optionsScan (front ++ 2 :: len :: more) optlen syn fuel (front.length + len.toNat)
          (if len.toNat = 4 ∧ syn then (get16 (front ++ 2 :: len :: more) (front.length + 2)).toNat else mss)
      ∧ optionsLooks (front ++ 2 :: len :: more) optlen syn (fuel + 1) front.length =
        (front.length + 2) :: ((if len.toNat = 4 ∧ syn then [front.length + 4] else [])
          ++ optionsLooks (front ++ 2 :: len :: more) optlen syn fuel (front.length + len.toNat)) := by
  have read := get8_next front (len :: more) 2 len rfl
  rw [optionsScan, optionsLooks, if_neg (Nat.not_le.mpr inside), if_neg (Nat.not_le.mpr inside), get8_here, read]
  dsimp only
  rw [if_neg (by decide), if_neg (by decide), if_pos rfl, if_neg (Nat.ne_of_gt positive)]
  exact ⟨rfl, rfl⟩

theorem options_unknown (kind : Byte) (other : 2 < kind.toNat) :
    optionsScan (front ++ kind :: more) optlen syn (fuel + 1) front.length mss = some mss
      ∧ optionsLooks (front ++ kind :: more) optlen syn (fuel + 1) front.length = [front.length + 1] := by
  have notEol : ¬ kind = 0 := by rintro rfl; revert other; decide
  have notNop : ¬ kind = 1 := by rintro rfl; revert other; decide
  have notMss : ¬ kind = 2 := by rintro rfl; revert other; decide
  rw [optionsScan, optionsLooks, if_neg (Nat.not_le.mpr inside), if_neg (Nat.not_le.mpr inside), get8_here, if_neg notEol,
    if_neg notEol, if_neg notNop, if_neg notNop, if_neg notMss, if_neg notMss]
  exact ⟨rfl, rfl⟩

end Rounds

-- Options that fit are gone through once, byte for byte inside the area.
theorem options_of_fits (syn : Bool) (rest : List Byte) (fits : MssFits syn rest) :
    ∀ (front behind cp : List Byte) (i optlen : Nat) (mss : Int), cp = front ++ (rest ++ behind) → i = front.length →
      optlen = i + rest.length →
      (∃ value, ∀ fuel, rest.length < fuel → optionsScan cp optlen syn fuel i mss = some value)
        ∧ ∀ fuel, ∀ stop ∈ optionsLooks cp optlen syn fuel i, stop ≤ optlen := by
  induction fits with
  | nil =>
      intro front behind cp i optlen mss area place length
      subst area place length
      refine ⟨⟨mss, fun fuel _ => (options_done syn fuel _ mss _ _ (by simp)).1⟩, fun fuel stop member => ?_⟩
      rw [(options_done syn fuel _ mss _ _ (by simp)).2] at member
      cases member
  | eol rest =>
      intro front behind cp i optlen mss area place length
      subst area place length
      have round := fun fuel => options_eol syn fuel (front.length + (0 :: rest).length) mss front (rest ++ behind) (by simp)
      refine ⟨⟨mss, fun fuel enough => ?_⟩, fun fuel stop member => ?_⟩
      · obtain ⟨fuel, rfl⟩ : ∃ k, fuel = k + 1 := ⟨fuel - 1, by omega⟩
        exact (round fuel).1
      · cases fuel with
        | zero => cases member
        | succ fuel =>
            rw [List.cons_append, (round fuel).2] at member
            cases List.mem_singleton.mp member
            simp
  | nop rest fits ih =>
      intro front behind cp i optlen mss area place length
      subst area place length
      have round := fun fuel => options_nop syn fuel (front.length + (1 :: rest).length) mss front (rest ++ behind) (by simp)
      obtain ⟨⟨value, run⟩, looks⟩ := ih (front ++ [1]) behind (front ++ 1 :: (rest ++ behind)) (front.length + 1)
        (front.length + (1 :: rest).length) mss (by simp) (by simp) (by simp; omega)
      refine ⟨⟨value, fun fuel enough => ?_⟩, fun fuel stop member => ?_⟩
      · obtain ⟨fuel, rfl⟩ : ∃ k, fuel = k + 1 := ⟨fuel - 1, by omega⟩
        exact (round fuel).1.trans (run fuel (by simpa using enough))
      · cases fuel with
        | zero => cases member
        | succ fuel =>
            rw [List.cons_append, (round fuel).2] at member
            obtain rfl | member := List.mem_cons.mp member
            · simp
            · exact looks fuel stop member
  | mss len rest positive value fits ih =>
      intro front behind cp i optlen mss area place length
      subst area place length
      have round := fun fuel => options_mss syn fuel (front.length + (2 :: len :: rest).length) mss front (rest ++ behind)
        (by simp) len positive
      have after : ∀ mss, (∃ value, ∀ fuel, (2 :: len :: rest).length ≤ fuel →
          optionsScan (front ++ 2 :: len :: (rest ++ behind)) (front.length + (2 :: len :: rest).length) syn fuel
            (front.length + len.toNat) mss = some value)
          ∧ ∀ fuel, ∀ stop ∈ optionsLooks (front ++ 2 :: len :: (rest ++ behind)) (front.length + (2 :: len :: rest).length) syn
            fuel (front.length + len.toNat), stop ≤ front.length + (2 :: len :: rest).length := by
        intro mss
        by_cases within : len.toNat ≤ (2 :: len :: rest).length
        · have split := List.take_append_drop len.toNat (2 :: len :: rest)
          obtain ⟨⟨value, run⟩, looks⟩ := ih (front ++ (2 :: len :: rest).take len.toNat) behind
            (front ++ 2 :: len :: (rest ++ behind)) (front.length + len.toNat) (front.length + (2 :: len :: rest).length) mss
            (by rw [List.append_assoc, ← List.append_assoc (List.take _ _), split]; rfl)
            (by rw [List.length_append, List.length_take, Nat.min_eq_left within]) (by rw [List.length_drop]; omega)
          exact ⟨⟨value, fun fuel enough => run fuel (by rw [List.length_drop]; omega)⟩, looks⟩
        · have done := fun fuel => options_done syn fuel (front.length + (2 :: len :: rest).length) mss
            (front ++ 2 :: len :: (rest ++ behind)) (front.length + len.toNat) (by omega)
          refine ⟨⟨mss, fun fuel _ => (done fuel).1⟩, fun fuel stop member => ?_⟩
          rw [(done fuel).2] at member
          cases member
      obtain ⟨⟨result, run⟩, looks⟩ := after
        (if len.toNat = 4 ∧ syn then (get16 (front ++ 2 :: len :: (rest ++ behind)) (front.length + 2)).toNat else mss)
      refine ⟨⟨result, fun fuel enough => ?_⟩, fun fuel stop member => ?_⟩
      · obtain ⟨fuel, rfl⟩ : ∃ k, fuel = k + 1 := ⟨fuel - 1, by omega⟩
        exact (round fuel).1.trans (run fuel (Nat.le_of_lt_succ enough))
      · cases fuel with
        | zero => cases member
        | succ fuel =>
            rw [List.cons_append, List.cons_append, (round fuel).2] at member
            obtain rfl | member := List.mem_cons.mp member
            · simp
            obtain member | member := List.mem_append.mp member
            · split at member
              · rename_i reads
                cases List.mem_singleton.mp member
                have room := value reads.1 reads.2
                simp
                omega
              · cases member
            · exact looks fuel stop member
  | unknown kind rest other =>
      intro front behind cp i optlen mss area place length
      subst area place length
      have round := fun fuel => options_unknown syn fuel (front.length + (kind :: rest).length) mss front (rest ++ behind)
        (by simp) kind other
      refine ⟨⟨mss, fun fuel enough => ?_⟩, fun fuel stop member => ?_⟩
      · obtain ⟨fuel, rfl⟩ : ∃ k, fuel = k + 1 := ⟨fuel - 1, by omega⟩
        exact (round fuel).1
      · cases fuel with
        | zero => cases member
        | succ fuel =>
            rw [List.cons_append, (round fuel).2] at member
            cases List.mem_singleton.mp member
            simp

-- An option as RFC 793 lays it out.
inductive TcpOption : List Byte → Prop where
  | nop : TcpOption [1]
  | mss (high low : Byte) : TcpOption [2, 4, high, low]
  | other (kind len : Byte) (body : List Byte) (other : 2 < kind.toNat) (size : len.toNat = body.length + 2) :
      TcpOption (kind :: len :: body)

-- What follows the options: nothing, or the end of the list and whatever is behind it.
def Ending (tail : List Byte) : Prop := ∀ kind ∈ tail.head?, kind = 0

def Known (item : List Byte) : Prop := get8 item 0 = 1 ∨ get8 item 0 = 2

instance (item : List Byte) : Decidable (Known item) := inferInstanceAs (Decidable (_ ∨ _))

def mssValue (item : List Byte) : Option Int := if get8 item 0 = 2 then some (get16 item 2).toNat else none

def known (items : List (List Byte)) : List (List Byte) := items.takeWhile fun item => decide (Known item)

-- The value of the last MSS option of a list, and mss if there is none.
def lastMss (items : List (List Byte)) (mss : Int) : Int := ((items.filterMap mssValue).getLast?).getD mss

theorem known_cons (item : List Byte) (items : List (List Byte)) (here : Known item) : known (item :: items) = item :: known items :=
  List.takeWhile_cons_of_pos (decide_eq_true here)

theorem last_mss_cons (item : List Byte) (items : List (List Byte)) (mss : Int) :
    lastMss (item :: items) mss = lastMss items ((mssValue item).getD mss) := by
  unfold lastMss
  cases value : mssValue item with
  | none => rw [List.filterMap_cons_none value, Option.getD_none]
  | some found => rw [List.filterMap_cons_some value, List.getLast?_cons, Option.getD_some, Option.getD_some]

theorem known_other (kind len : Byte) (body : List Byte) (items : List (List Byte)) (other : 2 < kind.toNat) :
    known ((kind :: len :: body) :: items) = [] := by
  refine List.takeWhile_cons_of_neg fun here => ?_
  obtain nop | mss := of_decide_eq_true here
  · cases nop
    revert other
    decide
  · cases mss
    revert other
    decide

theorem options_items (tail : List Byte) (ending : Ending tail) : ∀ (items : List (List Byte)), (∀ item ∈ items, TcpOption item) →
    ∀ (fuel : Nat) (front behind cp : List Byte) (i optlen : Nat) (mss : Int), cp = front ++ (items.flatten ++ (tail ++ behind)) →
      i = front.length → optlen = i + (items.flatten ++ tail).length → (items.flatten ++ tail).length < fuel →
      optionsScan cp optlen true fuel i mss = some (lastMss (known items) mss) := by
  intro items
  induction items with
  | nil =>
      intro _ fuel front behind cp i optlen mss area place length enough
      subst area place length
      obtain ⟨fuel, rfl⟩ : ∃ k, fuel = k + 1 := ⟨fuel - 1, by omega⟩
      cases tail with
      | nil => exact (options_done true (fuel + 1) _ mss _ _ (by simp)).1
      | cons kind rest =>
          cases ending kind rfl
          exact (options_eol true fuel _ mss front (rest ++ behind) (by simp)).1
  | cons item items ih =>
      intro formed fuel front behind cp i optlen mss area place length enough
      have later := ih fun other member => formed other (List.mem_cons_of_mem item member)
      obtain ⟨fuel, rfl⟩ : ∃ k, fuel = k + 1 := ⟨fuel - 1, by omega⟩
      rw [List.flatten_cons, List.append_assoc] at area length enough
      subst area place length
      cases formed item List.mem_cons_self with
      | nop =>
          rw [known_cons [1] items (Or.inl rfl), last_mss_cons]
          have round := (options_nop true fuel (front.length + ([1] ++ (items.flatten ++ tail)).length) mss front
            (items.flatten ++ (tail ++ behind)) (by simp)).1
          exact round.trans (later fuel (front ++ [1]) behind _ (front.length + 1) _ mss (by simp) (by simp)
            (by simp; omega) (by simp at enough ⊢; omega))
      | mss high low =>
          rw [known_cons [2, 4, high, low] items (Or.inr rfl), last_mss_cons]
          have round := (options_mss true fuel (front.length + ([2, 4, high, low] ++ (items.flatten ++ tail)).length) mss front
            (high :: low :: (items.flatten ++ (tail ++ behind))) (by simp) 4 (by decide)).1
          have value : get16 (front ++ 2 :: 4 :: high :: low :: (items.flatten ++ (tail ++ behind))) (front.length + 2) =
              (high ++ low : BitVec 16) := by
            rw [get16, Nat.add_assoc, get8_append_right, get8_append_right]
            rfl
          rw [if_pos ⟨by decide, rfl⟩, value] at round
          exact round.trans (later fuel (front ++ [2, 4, high, low]) behind _ (front.length + 4) _ _ (by simp) (by simp)
            (by simp; omega) (by simp at enough ⊢; omega))
      | other kind len body other size =>
          rw [known_other _ _ _ _ other]
          exact (options_unknown true fuel _ mss front (len :: body ++ (items.flatten ++ (tail ++ behind))) (by simp) kind other).1

theorem options_congr (cp bytes : List Byte) (optlen : Nat) (syn : Bool) (same : ∀ j, get8 cp j = get8 bytes j) (fuel : Nat) :
    ∀ (i : Nat) (mss : Int), optionsScan cp optlen syn fuel i mss = optionsScan bytes optlen syn fuel i mss
      ∧ optionsLooks cp optlen syn fuel i = optionsLooks bytes optlen syn fuel i := by
  induction fuel with
  | zero => exact fun _ _ => ⟨rfl, rfl⟩
  | succ fuel ih =>
      intro i mss
      have scan := fun i mss => (ih i mss).1
      have looks := fun i => (ih i mss).2
      simp only [optionsScan, optionsLooks, get16, same, scan, looks, and_self]

-- The option bytes of a header.
def optionArea (tcph : Dgram) : List Byte := copyBytes tcph.body 0 (tcpHdrlen tcph - TCP_MINLEN)

theorem option_area_bytes (tcph : Dgram) (j : Nat) :
    get8 tcph.body j = get8 ([] ++ (optionArea tcph ++ tcph.body.drop (tcpHdrlen tcph - TCP_MINLEN))) j := by
  rw [List.nil_append, optionArea]
  generalize tcpHdrlen tcph - TCP_MINLEN = optlen
  by_cases inside : j < optlen
  · rw [get8_append_left _ _ _ (by rw [copy_bytes_length]; exact inside), get8_copy_bytes _ _ _ _ inside, Nat.zero_add]
  · have behind := Nat.le_of_not_lt inside
    unfold get8
    rw [List.getD_append_right _ _ _ _ (by rw [copy_bytes_length]; exact behind), copy_bytes_length,
      List.getD_eq_getElem?_getD, List.getD_eq_getElem?_getD, List.getElem?_drop, Nat.add_sub_cancel' behind]

-- tcp_options ends and looks at nothing but the option bytes when the MSS options that it meets fit, and a SYN gives the value
-- of the last MSS option before the end of the list or an option of another kind.
structure Read (tcph : Dgram) : Prop where
  ends : MssFits tcph.flags.syn (optionArea tcph) → ∃ value, tcpOptions tcph = some value
    ∧ ∀ fuel, tcpHdrlen tcph - TCP_MINLEN < fuel →
      optionsScan tcph.body (tcpHdrlen tcph - TCP_MINLEN) tcph.flags.syn fuel 0 TCP_MSS = some value
  looks : MssFits tcph.flags.syn (optionArea tcph) → ∀ fuel,
    ∀ stop ∈ optionsLooks tcph.body (tcpHdrlen tcph - TCP_MINLEN) tcph.flags.syn fuel 0, stop ≤ tcpHdrlen tcph - TCP_MINLEN
  value : ∀ items tail, (∀ item ∈ items, TcpOption item) → Ending tail → optionArea tcph = items.flatten ++ tail →
    tcph.flags.syn = true → tcpOptions tcph = some (lastMss (known items) TCP_MSS)

theorem tcp_options_read (tcph : Dgram) : Read tcph := by
  have same := options_congr tcph.body _ (tcpHdrlen tcph - TCP_MINLEN) tcph.flags.syn (option_area_bytes tcph)
  have size : (optionArea tcph).length = tcpHdrlen tcph - TCP_MINLEN := copy_bytes_length _ _ _
  have fitting := fun fits => options_of_fits tcph.flags.syn (optionArea tcph) fits []
    (tcph.body.drop (tcpHdrlen tcph - TCP_MINLEN)) _ 0 (tcpHdrlen tcph - TCP_MINLEN) TCP_MSS rfl rfl (by rw [size, Nat.zero_add])
  refine ⟨fun fits => ?_, fun fits fuel stop member => ?_, fun items tail formed ending options syn => ?_⟩
  · obtain ⟨value, run⟩ := (fitting fits).1
    have all : ∀ fuel, tcpHdrlen tcph - TCP_MINLEN < fuel →
        optionsScan tcph.body (tcpHdrlen tcph - TCP_MINLEN) tcph.flags.syn fuel 0 TCP_MSS = some value :=
      fun fuel enough => (same fuel 0 TCP_MSS).1.trans (run fuel (by omega))
    exact ⟨value, all _ (Nat.lt_succ_self _), all⟩
  · rw [(same fuel 0 TCP_MSS).2] at member
    exact (fitting fits).2 fuel stop member
  · unfold tcpOptions
    rw [(same _ 0 TCP_MSS).1, options, syn]
    rw [options] at size
    exact options_items tail ending items formed _ [] (tcph.body.drop (tcpHdrlen tcph - TCP_MINLEN)) _ 0 _ TCP_MSS
      (by rw [List.append_assoc]) rfl (by rw [size, Nat.zero_add]) (by omega)

-- A SYN with these option bytes.
def synOptions (area : List Byte) : Dgram :=
  ⟨1024, 80, 5000, 0, BitVec.ofNat 4 (5 + area.length / 4), false, { TCPF_ACK with ack := false, syn := true }, 4096, 0, 0, area⟩

-- A NOP, an MSS option of 536 and the end of the list.
theorem tcp_options_read_mss : tcpOptions (synOptions [1, 2, 4, 2, 24, 0, 0, 0]) = some 536 := by
  refine (tcp_options_read _).value [[1], [2, 4, 2, 24]] [0, 0, 0] (fun item member => ?_) (fun kind here => ?_) rfl rfl
  · obtain rfl | member := List.mem_cons.mp member
    · exact .nop
    · cases List.mem_singleton.mp member
      exact .mss 2 24
  · cases here
    rfl

-- With an option of another kind before it the MSS option is not found.
theorem options_behind_other : ¬ ∀ tcph items tail, (∀ item ∈ items, TcpOption item) → Ending tail →
    optionArea tcph = items.flatten ++ tail → tcph.flags.syn = true → tcpOptions tcph = some (lastMss items TCP_MSS) := by
  intro found
  have value := found (synOptions [4, 2, 2, 4, 2, 24, 1, 0]) [[4, 2], [2, 4, 2, 24], [1]] [0] (fun item member => by
    obtain rfl | member := List.mem_cons.mp member
    · exact .other 4 2 [] (by decide) (by decide)
    · obtain rfl | member := List.mem_cons.mp member
      · exact .mss 2 24
      · cases List.mem_singleton.mp member
        exact .nop) (fun kind here => by cases here; rfl) rfl rfl
  revert value
  decide

end MagxNet.Tcp
