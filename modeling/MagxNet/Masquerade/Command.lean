import MagxNet.Masquerade.Table

set_option autoImplicit false

namespace MagxNet.Masquerade

open Bytes

section Numbers

variable (rest : Buffer)

def blanks : Nat := (rest.takeWhile isSpace).length

def signed : Nat := if get8 rest (blanks rest) = PLUS ∨ get8 rest (blanks rest) = MINUS then 1 else 0

def digits : List Byte := (rest.drop (blanks rest + signed rest)).takeWhile isDigit

-- How far strtoul goes on; the byte there is the last that it looks at.
def numberText : Nat := blanks rest + signed rest + (digits rest).length

def value : Nat :=
  let value := (digits rest).foldl (fun value b => 10 * value + (b.toNat - 48)) 0
  if 2 ^ 32 ≤ value then 2 ^ 32 - 1 else if get8 rest (blanks rest) = MINUS then (2 ^ 32 - value) % 2 ^ 32 else value

end Numbers

theorem get8_drop (data : Buffer) (start i : Nat) : get8 (data.drop start) i = get8 data (start + i) := by
  unfold get8
  rw [List.getD_eq_getElem?_getD, List.getD_eq_getElem?_getD, List.getElem?_drop]

theorem strtoul_text (data : Buffer) (start : Nat) : strtoul data start =
    if digits (data.drop start) = [] then (0, start) else (value (data.drop start), start + numberText (data.drop start)) := by
  have sign : (if get8 data (start + blanks (data.drop start)) = PLUS ∨ get8 data
    (start + blanks (data.drop start)) = MINUS then 1 else 0)
      = signed (data.drop start) := by
    unfold signed
    rw [get8_drop]
  have text : (data.drop (start + blanks (data.drop start) + signed (data.drop start))).takeWhile isDigit = digits
    (data.drop start) := by
    unfold digits
    rw [List.drop_drop, Nat.add_assoc]
  unfold strtoul value numberText
  dsimp only
  rw [show ((data.drop start).takeWhile isSpace).length = blanks (data.drop start) from rfl, sign, text, get8_drop]
  simp only [Nat.add_assoc]

section Cut

variable (rest behind : Buffer)

theorem blanks_inside (inside : blanks rest < rest.length) :
    blanks (rest ++ behind) = blanks rest ∧ ∀ i, i < rest.length → get8 (rest ++ behind) i = get8 rest i := by
  refine ⟨?_, fun i bound => ?_⟩
  · unfold blanks at inside ⊢
    rw [List.takeWhile_append, if_neg (by omega)]
  · exact get8_append_left rest behind i bound

-- A number that ends in the segment is the same with what lies behind it.
theorem text_inside (inside : numberText rest < rest.length) :
    blanks (rest ++ behind) = blanks rest ∧ signed (rest ++ behind) = signed rest ∧ digits (rest ++ behind) = digits rest
      ∧ get8 (rest ++ behind) (blanks rest) = get8 rest (blanks rest) := by
  unfold numberText at inside
  obtain ⟨same, bytes⟩ := blanks_inside rest behind (by omega)
  have first := bytes (blanks rest) (by omega)
  have sign : signed (rest ++ behind) = signed rest := by
    unfold signed
    rw [same, first]
  refine ⟨same, sign, ?_, first⟩
  unfold digits at inside ⊢
  rw [same, sign, List.drop_append_of_le_length (by omega), List.takeWhile_append, if_neg]
  rw [List.length_drop]
  omega

-- One that does not is read over the end.
theorem text_outside (outside : rest.length ≤ numberText rest) : rest.length ≤ numberText (rest ++ behind) := by
  have most : blanks rest ≤ rest.length := List.Sublist.length_le (List.takeWhile_sublist _)
  by_cases all : blanks rest = rest.length
  · have more : rest.length ≤ blanks (rest ++ behind) := by
      unfold blanks at all ⊢
      rw [List.takeWhile_append, if_pos all, List.length_append]
      omega
    unfold numberText
    omega
  · obtain ⟨same, bytes⟩ := blanks_inside rest behind (by omega)
    have first := bytes (blanks rest) (by omega)
    have sign : signed (rest ++ behind) = signed rest := by
      unfold signed
      rw [same, first]
    have one : signed rest ≤ 1 := by
      unfold signed
      split <;> omega
    have more : rest.length - (blanks rest + signed rest) ≤ (digits (rest ++ behind)).length := by
      unfold numberText at outside
      unfold digits at outside ⊢
      rw [same, sign, List.drop_append_of_le_length (by omega), List.takeWhile_append]
      split
      · rw [List.length_append, List.length_drop]
        omega
      · omega
    unfold numberText
    rw [same, sign]
    omega

end Cut

theorem drop_behind (seg behind : Buffer) (start : Nat) (within : start ≤ seg.length) :
    (seg ++ behind).drop start = seg.drop start ++ behind := List.drop_append_of_le_length within

-- The last byte that strtoul looks at.
def strtoulLast (data : Buffer) (start : Nat) : Nat := start + numberText (data.drop start)

section Segment

variable (seg behind : Buffer) (start : Nat)

theorem strtoul_inside (inside : strtoulLast seg start < seg.length) :
    strtoul (seg ++ behind) start = strtoul seg start ∧ strtoulLast (seg ++ behind) start = strtoulLast seg start := by
  unfold strtoulLast at inside ⊢
  have short : numberText (seg.drop start) < (seg.drop start).length := by
    rw [List.length_drop]
    omega
  obtain ⟨blank, sign, digit, first⟩ := text_inside (seg.drop start) behind short
  rw [strtoul_text, strtoul_text, drop_behind seg behind start (by omega)]
  have text : numberText (seg.drop start ++ behind) = numberText (seg.drop start) := by
    unfold numberText
    rw [blank, sign, digit]
  have number : value (seg.drop start ++ behind) = value (seg.drop start) := by
    unfold value
    rw [blank, digit, first]
  rw [digit, text, number]
  exact ⟨rfl, rfl⟩

theorem strtoul_outside (within : start ≤ seg.length) (outside : seg.length ≤ strtoulLast seg start) :
    seg.length ≤ strtoulLast (seg ++ behind) start := by
  unfold strtoulLast at outside ⊢
  rw [drop_behind seg behind start within]
  have more := text_outside (seg.drop start) behind (by rw [List.length_drop]; omega)
  rw [List.length_drop] at more
  omega

theorem strtoul_last : start ≤ (strtoul seg start).2 ∧ (strtoul seg start).2 ≤ strtoulLast seg start := by
  rw [strtoul_text]
  unfold strtoulLast
  split
  · exact ⟨le_refl _, Nat.le_add_right _ _⟩
  · exact ⟨Nat.le_add_right _ _, le_refl _⟩

end Segment

-- In front of a comma strtoul has looked at nothing more.
theorem comma_last (data : Buffer) (start : Nat) (comma : get8 data (strtoul data start).2 = COMMA) :
    strtoulLast data start = (strtoul data start).2 := by
  unfold strtoulLast
  rw [strtoul_text] at comma ⊢
  by_cases none : digits (data.drop start) = []
  · rw [if_pos none] at comma ⊢
    have here : get8 (data.drop start) 0 = COMMA := by rw [get8_drop]; exact comma
    cases rest : data.drop start with
    | nil =>
        rw [rest] at here
        cases here
    | cons b more =>
        rw [rest] at here none
        have byte : b = COMMA := here
        have blank : blanks (b :: more) = 0 := by
          unfold blanks
          rw [List.takeWhile_cons, if_neg (by rw [byte]; decide)]
          rfl
        have sign : signed (b :: more) = 0 := by
          unfold signed
          rw [blank, show get8 (b :: more) 0 = COMMA from byte, if_neg (by decide)]
        unfold numberText
        rw [blank, sign, none]
        rfl
  · rw [if_neg none]

-- What numbers and commas are made of; there is no letter in it.
def isNumberByte (b : Byte) : Bool := isSpace b ∨ isDigit b ∨ b = PLUS ∨ b = MINUS ∨ b = COMMA

theorem take_while_byte (p : Byte → Bool) (l : Buffer) : ∀ i, i < (l.takeWhile p).length → p (get8 l i) = true := by
  induction l with
  | nil => exact fun i bound => absurd bound (Nat.not_lt_zero i)
  | cons b rest ih =>
      intro i bound
      rw [List.takeWhile_cons] at bound
      cases holds : p b with
      | true =>
          rw [if_pos holds] at bound
          cases i with
          | zero => exact holds
          | succ i => exact ih i (Nat.lt_of_succ_lt_succ bound)
      | false =>
          rw [if_neg (by rw [holds]; decide)] at bound
          exact absurd bound (Nat.not_lt_zero i)

theorem text_bytes (rest : Buffer) (i : Nat) (bound : i < numberText rest) : isNumberByte (get8 rest i) = true := by
  unfold isNumberByte
  rw [decide_eq_true_eq]
  unfold numberText at bound
  by_cases blank : i < blanks rest
  · exact .inl (take_while_byte isSpace rest i blank)
  · by_cases digit : blanks rest + signed rest ≤ i
    · have place := take_while_byte isDigit (rest.drop (blanks rest + signed rest)) (i - (blanks rest + signed rest)) (by
        unfold digits at bound
        omega)
      rw [get8_drop, Nat.add_sub_of_le digit] at place
      exact .inr (.inl place)
    · unfold signed at digit
      split at digit
      · rename_i sign
        have place : i = blanks rest := by omega
        rw [place]
        exact .inr (.inr (sign.elim .inl fun minus => .inr (.inl minus)))
      · omega

theorem strtoul_bytes (data : Buffer) (start a : Nat) (low : start ≤ a) (high : a < (strtoul data start).2) :
    isNumberByte (get8 data a) = true := by
  rw [strtoul_text] at high
  split at high
  · exact absurd high (not_lt.mpr low)
  · have place := text_bytes (data.drop start) (a - start) (by dsimp only at high; omega)
    rwa [get8_drop, Nat.add_sub_of_le low] at place

-- The numbers from start on, n of them before the last one; high is the number before.
def scan (data : Buffer) (first : Nat) : Nat → Nat → Nat → Parsed
  | 0, high, start =>
      let low := strtoul data start
      if get8 data low.2 ≠ CR ∧ get8 data low.2 ≠ LF then .goOn low.2
      else .port (BitVec.ofNat 16 high <<< 8 ||| BitVec.ofNat 16 low.1) first low.2
  | n + 1, _, start =>
      let x := strtoul data start
      if get8 data x.2 ≠ COMMA then .goOn x.2 else scan data first n x.1 (x.2 + 1)

theorem parse_scan (data : Buffer) (start : Nat) : parsePort data start = scan data start 5 0 start := rfl

-- The last byte that is looked at on the way.
def scanLast (data : Buffer) : Nat → Nat → Nat
  | 0, start => strtoulLast data start
  | n + 1, start =>
      if get8 data (strtoul data start).2 ≠ COMMA then strtoulLast data start else scanLast data n ((strtoul data start).2 + 1)

-- The numbers do not end before the segment does.
def RunsOut (seg : Buffer) : Nat → Nat → Prop
  | 0, start => seg.length ≤ strtoulLast seg start
  | n + 1, start =>
      seg.length ≤ strtoulLast seg start ∨ get8 seg (strtoul seg start).2 = COMMA ∧ RunsOut seg n ((strtoul seg start).2 + 1)

theorem scan_last (data : Buffer) (n : Nat) : ∀ start, strtoulLast data start ≤ scanLast data n start := by
  induction n with
  | zero => exact fun _ => le_refl _
  | succ n ih =>
      intro start
      rw [scanLast]
      by_cases comma : get8 data (strtoul data start).2 = COMMA
      · rw [if_neg (not_not.mpr comma), comma_last data start comma]
        obtain ⟨low, high⟩ := strtoul_last data ((strtoul data start).2 + 1)
        have onward := ih ((strtoul data start).2 + 1)
        omega
      · rw [if_pos comma]

section Scan

variable (seg behind : Buffer) (first : Nat)

theorem scan_inside (n : Nat) : ∀ high start, ¬ RunsOut seg n start →
    scan (seg ++ behind) first n high start = scan seg first n high start ∧ scanLast (seg ++ behind) n start < seg.length := by
  induction n with
  | zero =>
      intro high start inside
      obtain ⟨same, last⟩ := strtoul_inside seg behind start (not_le.mp inside)
      obtain ⟨-, high'⟩ := strtoul_last seg start
      have bound := not_le.mp inside
      have byte := get8_append_left seg behind _ (high'.trans_lt bound)
      rw [scan, scan, scanLast, same, last, byte]
      exact ⟨rfl, bound⟩
  | succ n ih =>
      intro high start inside
      obtain ⟨ends, onward⟩ := not_or.mp inside
      have bound := not_le.mp ends
      obtain ⟨same, last⟩ := strtoul_inside seg behind start bound
      obtain ⟨-, high'⟩ := strtoul_last seg start
      have byte := get8_append_left seg behind _ (high'.trans_lt bound)
      rw [scan, scan, scanLast, same, last, byte]
      by_cases comma : get8 seg (strtoul seg start).2 = COMMA
      · rw [if_neg (not_not.mpr comma), if_neg (not_not.mpr comma), if_neg (not_not.mpr comma)]
        exact ih _ _ fun out => onward ⟨comma, out⟩
      · rw [if_pos comma, if_pos comma, if_pos comma]
        exact ⟨rfl, bound⟩

theorem scan_outside (n : Nat) : ∀ start, start ≤ seg.length → RunsOut seg n start → seg.length ≤ scanLast
    (seg ++ behind) n start := by
  induction n with
  | zero => exact fun start within out => strtoul_outside seg behind start within out
  | succ n ih =>
      intro start within out
      by_cases ends : seg.length ≤ strtoulLast seg start
      · exact (strtoul_outside seg behind start within ends).trans (scan_last _ (n + 1) start)
      · rw [scanLast]
        obtain ⟨comma, onward⟩ := out.resolve_left ends
        obtain ⟨same, last⟩ := strtoul_inside seg behind start (not_le.mp ends)
        obtain ⟨-, high'⟩ := strtoul_last seg start
        have byte := get8_append_left seg behind _ (high'.trans_lt (not_le.mp ends))
        rw [same, byte, if_neg (not_not.mpr comma)]
        exact ih _ (by omega) onward

end Scan

theorem scan_bytes (data : Buffer) (first n : Nat) : ∀ high start next, scan data first n high start = .goOn next →
    start ≤ next ∧ ∀ a, start ≤ a → a < next → isNumberByte (get8 data a) = true := by
  induction n with
  | zero =>
      intro high start next result
      rw [scan] at result
      split at result
      · cases result
        exact ⟨(strtoul_last data start).1, strtoul_bytes data start⟩
      · cases result
  | succ n ih =>
      intro high start next result
      have low := (strtoul_last data start).1
      rw [scan] at result
      by_cases comma : get8 data (strtoul data start).2 = COMMA
      · rw [if_neg (not_not.mpr comma)] at result
        obtain ⟨onward, bytes⟩ := ih _ _ next result
        refine ⟨by omega, fun a low' high' => ?_⟩
        by_cases number : a < (strtoul data start).2
        · exact strtoul_bytes data start a low' number
        · by_cases here : a = (strtoul data start).2
          · rw [here, comma]
            rfl
          · exact bytes a (by omega) high'
      · rw [if_pos comma] at result
        cases result
        exact ⟨low, strtoul_bytes data start⟩

-- The end of an argument; there is a comma for every number but the last.
theorem scan_port (data : Buffer) (first n : Nat) : ∀ high start port first' stop,
    scan data first n high start = .port port first' stop →
    first' = first ∧ start + n ≤ stop ∧ (get8 data stop = CR ∨ get8 data stop = LF) := by
  induction n with
  | zero =>
      intro high start port first' stop result
      have low := (strtoul_last data start).1
      rw [scan] at result
      by_cases ended : get8 data (strtoul data start).2 ≠ CR ∧ get8 data (strtoul data start).2 ≠ LF
      · rw [if_pos ended] at result
        cases result
      · rw [if_neg ended] at result
        cases result
        refine ⟨rfl, low, ?_⟩
        by_contra other
        exact ended (not_or.mp other)
  | succ n ih =>
      intro high start port first' stop result
      have low := (strtoul_last data start).1
      rw [scan] at result
      by_cases comma : get8 data (strtoul data start).2 = COMMA
      · rw [if_neg (not_not.mpr comma)] at result
        obtain ⟨same, more, ended⟩ := ih _ _ port first' stop result
        exact ⟨same, by omega, ended⟩
      · rw [if_pos comma] at result
        cases result

def isPort (data : Buffer) (at' : Nat) : Prop := copyBytes data at' 5 = PORT_UPPER ∨ copyBytes data at' 5 = PORT_LOWER

instance (data : Buffer) (at' : Nat) : Decidable (isPort data at') := inferInstanceAs (Decidable (_ ∨ _))

-- A PORT command that is complete: six numbers, and the end of the line. At least 18 bytes are needed for one.
structure Command (seg : Buffer) (at' : Nat) (port : Port) (stop : Nat) : Prop where
  inside : at' + 17 < seg.length
  text : isPort seg at'
  argument : parsePort seg (at' + 5) = .port port (at' + 5) stop

-- One whose numbers go on to the end of the segment.
structure Cut (seg : Buffer) (at' : Nat) : Prop where
  inside : at' + 17 < seg.length
  text : isPort seg at'
  numbers : RunsOut seg 5 (at' + 5)

-- One more than the last byte that the search looks at.
def searched (data : Buffer) (len : Nat) : Nat → Nat → Nat
  | 0, _ => 0
  | fuel + 1, at' =>
      if at' + 17 < len then
        if copyBytes data at' 5 ≠ PORT_UPPER ∧ copyBytes data at' 5 ≠ PORT_LOWER then max (at' + 5)
          (searched data len fuel (at' + 1))
        else
          max (scanLast data 5 (at' + 5) + 1)
            (match parsePort data (at' + 5) with
            | .port _ _ _ => 0
            | .goOn next => searched data len fuel next)
      else 0

theorem port_letter (data : Buffer) (at' : Nat) (text : isPort data at') : isNumberByte (get8 data at') = false ∧
    ∀ i, 0 < i → i < 5 → ¬ isPort data (at' + i) := by
  have letter : ∀ b : Nat, isPort data b → get8 data b = 80 ∨ get8 data b = 112 := by
    intro b text
    obtain upper | lower := text
    · exact .inl (List.cons.inj upper).1
    · exact .inr (List.cons.inj lower).1
  have later : ∀ i, i < 5 → get8 data (at' + i) = PORT_UPPER.getD i 0 ∨ get8 data (at' + i) = PORT_LOWER.getD i 0 := by
    intro i bound
    have here : ∀ l, copyBytes data at' 5 = l → get8 data (at' + i) = l.getD i 0 := by
      intro l text
      rw [← text]
      unfold copyBytes
      rw [List.getD_eq_getElem?_getD, List.getElem?_map, List.getElem?_range bound]
      rfl
    exact text.imp (here _) (here _)
  refine ⟨?_, fun i positive bound text' => ?_⟩
  · obtain upper | lower := letter at' text
    · rw [upper]
      decide
    · rw [lower]
      decide
  · have first := letter (at' + i) text'
    have actual := later i bound
    have different : ∀ i < 5, 0 < i → PORT_UPPER.getD i 0 ≠ 80 ∧ PORT_UPPER.getD i 0 ≠ 112 ∧ PORT_LOWER.getD i 0 ≠ 80
        ∧ PORT_LOWER.getD i 0 ≠ 112 := by decide
    obtain ⟨a, b, c, d⟩ := different i bound positive
    obtain actual | actual := actual <;> rw [actual] at first <;> tauto

-- Neither kind begins at places from a to b.
def Clear (seg : Buffer) (a b : Nat) : Prop := ∀ i, a ≤ i → i < b → ¬ Cut seg i ∧ ∀ port stop, ¬ Command seg i port stop

-- What the search from a place on comes to: it runs over the end at a command that is cut, or finds the first one, or none.
inductive Outcome (seg : Buffer) (start : Nat) : Option (Port × Nat × Nat) → Nat → Prop
  | cut (result : Option (Port × Nat × Nat)) (last place : Nat) (low : start ≤ place) (clear : Clear seg start place)
      (here : Cut seg place) (over' : seg.length < last) : Outcome seg start result last
  | command (last place : Nat) (port : Port) (stop : Nat) (low : start ≤ place) (clear : Clear seg start place)
    (whole : ¬ Cut seg place)
      (here : Command seg place port stop) (within : last ≤ seg.length) : Outcome seg start (some (port, place + 5, stop)) last
  | nothing (last : Nat) (clear : Clear seg start seg.length) (within : last ≤ seg.length) : Outcome seg start none last

theorem clear_trans (seg : Buffer) (a b c : Nat) (first : Clear seg a b) (second : Clear seg b c) : Clear seg a c := by
  intro i low high
  by_cases front : i < b
  · exact first i low front
  · exact second i (not_lt.mp front) high

theorem outcome_later (seg : Buffer) (start next : Nat) (clear : Clear seg start next) (onward : start ≤ next) (k : Nat)
    (within : k ≤ seg.length) (result : Option (Port × Nat × Nat)) (last : Nat) (outcome : Outcome seg next result last) :
    Outcome seg start result (max k last) := by
  cases outcome with
  | cut _ _ place low clear' here past =>
      exact .cut result _ place (onward.trans low) (clear_trans seg start next place clear clear') here (lt_max_of_lt_right past)
  | command _ place port stop low clear' whole here within' =>
      exact .command _ place port stop (onward.trans low) (clear_trans seg start next place clear clear') whole here
        (max_le within within')
  | nothing _ clear' within' =>
      exact .nothing _ (clear_trans seg start next _ clear clear') (max_le within within')

theorem copy_inside (seg behind : Buffer) (at' : Nat) (inside : at' + 17 < seg.length) :
    copyBytes (seg ++ behind) at' 5 = copyBytes seg at' 5 := by
  unfold copyBytes
  refine List.map_congr_left fun i member => ?_
  have bound := List.mem_range.mp member
  exact get8_append_left seg behind _ (by omega)

theorem search_outcome (seg behind : Buffer) (fuel : Nat) : ∀ at', seg.length ≤ at' + fuel →
    Outcome seg at' (findPort (seg ++ behind) seg.length fuel at') (searched (seg ++ behind) seg.length fuel at') := by
  have short : ∀ at', seg.length ≤ at' + 17 → Clear seg at' seg.length := fun at' past i low high =>
    ⟨fun cut => absurd cut.inside (by omega), fun port stop command => absurd command.inside (by omega)⟩
  induction fuel with
  | zero => exact fun at' enough => .nothing 0 (short at' (by omega)) (Nat.zero_le _)
  | succ fuel ih =>
      intro at' enough
      rw [findPort, searched]
      by_cases inside : at' + 17 < seg.length
      · rw [if_pos inside, if_pos inside, copy_inside seg behind at' inside]
        by_cases text : isPort seg at'
        · have test : ¬ (copyBytes seg at' 5 ≠ PORT_UPPER ∧ copyBytes seg at' 5 ≠ PORT_LOWER) := fun other =>
            text.elim other.1 other.2
          rw [if_neg test, if_neg test]
          by_cases ends : RunsOut seg 5 (at' + 5)
          · have past := scan_outside seg behind 5 (at' + 5) (by omega) ends
            exact .cut _ _ at' (le_refl _) (fun i low high => absurd high (not_lt.mpr low)) ⟨inside, text, ends⟩
              (lt_max_of_lt_left (by omega))
          · obtain ⟨same, last⟩ := scan_inside seg behind (at' + 5) 5 0 (at' + 5) ends
            have whole : ¬ Cut seg at' := fun cut => ends cut.numbers
            rw [parse_scan, same]
            cases parsed : scan seg (at' + 5) 5 0 (at' + 5) with
            | port port first stop =>
                obtain ⟨rfl, -, -⟩ := scan_port seg (at' + 5) 5 0 (at' + 5) port first stop parsed
                exact .command _ at' port stop (le_refl _) (fun i low high => absurd high (not_lt.mpr low)) whole
                  ⟨inside, text, parsed⟩
                  (max_le last (Nat.zero_le _))
            | goOn next =>
                obtain ⟨onward, bytes⟩ := scan_bytes seg (at' + 5) 5 0 (at' + 5) next parsed
                have clear : Clear seg at' next := by
                  intro i low high
                  by_cases first : i = at'
                  · subst first
                    exact ⟨whole, fun port stop command => by
                      have result := command.argument
                      rw [parse_scan, parsed] at result
                      cases result⟩
                  · have none : ¬ isPort seg i := by
                      intro text'
                      by_cases near : i < at' + 5
                      · refine (port_letter seg at' text).2 (i - at') (by omega) (by omega) ?_
                        rwa [Nat.add_sub_of_le low]
                      · have byte := bytes i (by omega) high
                        rw [(port_letter seg i text').1] at byte
                        cases byte
                    exact ⟨fun cut => none cut.text, fun port stop command => none command.text⟩
                exact outcome_later seg at' next clear (by omega) _ last _ _ (ih next (by omega))
        · have test : copyBytes seg at' 5 ≠ PORT_UPPER ∧ copyBytes seg at' 5 ≠ PORT_LOWER := not_or.mp text
          rw [if_pos test, if_pos test]
          refine outcome_later seg at' (at' + 1) (fun i low high => ?_) (Nat.le_succ _) _ (by omega) _ _ (ih (at' + 1) (by omega))
          have here : i = at' := by omega
          rw [here]
          exact ⟨fun cut => text cut.text, fun port stop command => text command.text⟩
      · rw [if_neg inside, if_neg inside]
        exact .nothing 0 (short at' (by omega)) (Nat.zero_le _)

end MagxNet.Masquerade
