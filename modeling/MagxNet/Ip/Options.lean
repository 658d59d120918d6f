import MagxNet.Ip.Frag

set_option autoImplicit false

namespace MagxNet.Ip

open Bytes

-- Option bytes as RFC 791 lays them out: what follows an end-of-list byte does not matter.
inductive WellFormed : Buffer → Prop where
  | nil : WellFormed []
  | eol (type : Byte) (rest : Buffer) (kind : type &&& IPOPT_TYPE = IPOPT_EOL) : WellFormed (type :: rest)
  | nop (type : Byte) (rest : Buffer) (kind : type &&& IPOPT_TYPE = IPOPT_NOP) (valid : WellFormed rest) :
      WellFormed (type :: rest)
  | option (type len : Byte) (body rest : Buffer) (notEol : type &&& IPOPT_TYPE ≠ IPOPT_EOL)
      (notNop : type &&& IPOPT_TYPE ≠ IPOPT_NOP) (size : len.toNat = body.length + 2) (valid : WellFormed rest) :
      WellFormed (type :: len :: (body ++ rest))

-- The options of a header.
def options (iph : Buffer) : Buffer := (iph.drop IP_MINLEN).take (ipHdrlen iph - IP_MINLEN)

-- Only whole options, none of them the end of the list: more may follow.
def Complete (front : Buffer) : Prop := ∀ rest, WellFormed rest → WellFormed (front ++ rest)

theorem well_formed_nops (n : Nat) : WellFormed (List.replicate n IPOPT_NOP) := by
  induction n with
  | zero => exact .nil
  | succ n more => exact .nop _ _ (by decide) more

theorem complete_nil : Complete [] := fun _ valid => valid

theorem complete_nop (front : Buffer) (type : Byte) (complete : Complete front)
    (kind : type &&& IPOPT_TYPE = IPOPT_NOP) : Complete (front ++ [type]) := by
  intro rest valid
  rw [List.append_assoc]
  exact complete _ (.nop type rest kind valid)

theorem complete_option (front : Buffer) (type len : Byte) (body : Buffer) (complete : Complete front)
    (notEol : type &&& IPOPT_TYPE ≠ IPOPT_EOL) (notNop : type &&& IPOPT_TYPE ≠ IPOPT_NOP)
    (size : len.toNat = body.length + 2) : Complete (front ++ type :: len :: body) := by
  intro rest valid
  rw [List.append_assoc]
  exact complete _ (.option type len body rest notEol notNop size valid)

-- What the scan leaves: the bytes it kept may be padded with NOPs, and nothing at or behind the
-- old end of the options is touched.
structure Scanned (cp : Buffer) (optlen : Nat) (out : Buffer) (kept : Nat) : Prop where
  same_length : out.length = cp.length
  behind : out.drop optlen = cp.drop optlen
  bound : kept ≤ optlen
  valid : ∀ n, WellFormed (out.take kept ++ List.replicate n IPOPT_NOP)

theorem window_cons (cp : Buffer) (i n : Nat) (type : Byte) (rest : Buffer) (bound : i + n ≤ cp.length)
    (window : (cp.drop i).take n = type :: rest) :
    0 < n ∧ i < cp.length ∧ get8 cp i = type ∧ cp.take (i + 1) = cp.take i ++ [type] ∧
      (cp.drop (i + 1)).take (n - 1) = rest := by
  cases n with
  | zero => simp at window
  | succ n =>
      have inside : i < cp.length := by omega
      rw [List.drop_eq_getElem_cons inside, List.take_succ_cons] at window
      obtain ⟨head, tail⟩ := List.cons.inj window
      refine ⟨by omega, inside, by simp [get8, inside, head], ?_, by simpa using tail⟩
      rw [List.take_add_one, List.getElem?_eq_getElem inside, head]
      rfl

theorem window_split (cp : Buffer) (i n : Nat) (front rest : Buffer) (bound : i + n ≤ cp.length)
    (window : (cp.drop i).take n = front ++ rest) :
    n = front.length + rest.length ∧ cp.take (i + front.length) = cp.take i ++ front ∧
      (cp.drop (i + front.length)).take (n - front.length) = rest := by
  have size : n = front.length + rest.length := by
    have lengths := congrArg List.length window
    simp at lengths
    omega
  have whole : (cp.drop i).take n = (cp.drop i).take front.length ++
      ((cp.drop i).drop front.length).take (n - front.length) := by
    rw [← List.take_add]
    congr 1
    omega
  have split := List.append_inj (whole.symm.trans window) (by simp; omega)
  refine ⟨size, ?_, by rw [← List.drop_drop]; exact split.2⟩
  rw [List.take_add, split.1]

theorem frag_opts_scan_spec (rest : Buffer) (valid : WellFormed rest) :
    ∀ (fuel : Nat) (cp : Buffer) (i optlen : Nat), i ≤ optlen → optlen ≤ cp.length →
      (cp.drop i).take (optlen - i) = rest → Complete (cp.take i) → rest.length < fuel →
      ∃ out kept, fragOptsScan fuel cp i optlen = .ret (out, kept) ∧ Scanned cp optlen out kept := by
  induction valid with
  | nil =>
      intro fuel cp i optlen order bound window complete enough
      obtain ⟨fuel, rfl⟩ : ∃ k, fuel = k + 1 := ⟨fuel - 1, by omega⟩
      have done : ¬ i < optlen := by
        have lengths := congrArg List.length window
        simp at lengths
        omega
      refine ⟨cp, i, by simp [fragOptsScan, done], rfl, rfl, order, ?_⟩
      exact fun n => complete _ (well_formed_nops n)
  | eol type rest kind =>
      intro fuel cp i optlen order bound window complete enough
      obtain ⟨fuel, rfl⟩ : ∃ k, fuel = k + 1 := ⟨fuel - 1, by omega⟩
      obtain ⟨more, _, here, taken, _⟩ := window_cons cp i _ type rest (by omega) window
      refine ⟨cp, i + 1, by simp [fragOptsScan, here, kind, show i < optlen by omega], rfl, rfl, by omega, ?_⟩
      intro n
      rw [taken, List.append_assoc]
      exact complete _ (.eol type _ kind)
  | nop type rest kind valid next =>
      intro fuel cp i optlen order bound window complete enough
      obtain ⟨fuel, rfl⟩ : ∃ k, fuel = k + 1 := ⟨fuel - 1, by omega⟩
      obtain ⟨more, _, here, taken, remaining⟩ := window_cons cp i _ type rest (by omega) window
      have notEol : ¬ type &&& IPOPT_TYPE = IPOPT_EOL := by rw [kind]; decide
      have step : fragOptsScan (fuel + 1) cp i optlen = fragOptsScan fuel cp (i + 1) optlen := by
        rw [fragOptsScan, if_pos (by omega), here, if_neg notEol, if_pos kind]
      rw [step]
      refine next fuel cp (i + 1) optlen (by omega) bound ?_ ?_ (by simpa using enough)
      · simpa [Nat.sub_sub] using remaining
      · rw [taken]
        exact complete_nop _ _ complete kind
  | option type len body rest notEol notNop size valid next =>
      intro fuel cp i optlen order bound window complete enough
      obtain ⟨fuel, rfl⟩ : ∃ k, fuel = k + 1 := ⟨fuel - 1, by omega⟩
      obtain ⟨more, _, here, _, remaining⟩ := window_cons cp i _ type _ (by omega) window
      obtain ⟨_, _, lenHere, _, _⟩ := window_cons cp (i + 1) _ len _ (by omega) remaining
      have whole : (cp.drop i).take (optlen - i) = (type :: len :: body) ++ rest := by simpa using window
      obtain ⟨total, taken, after⟩ := window_split cp i _ _ _ (by omega) whole
      have length : (type :: len :: body).length = len.toNat := by simp [size]
      rw [length] at total taken after
      by_cases copied : type &&& IPOPT_COPY ≠ 0
      · have step : fragOptsScan (fuel + 1) cp i optlen = fragOptsScan fuel cp (i + len.toNat) optlen := by
          rw [fragOptsScan, if_pos (by omega), here, if_neg notEol, if_neg notNop]
          simp only [lenHere, if_pos copied]
        rw [step]
        refine next fuel cp (i + len.toNat) optlen (by omega) bound ?_ ?_ (by simp at enough; omega)
        · simpa [Nat.sub_sub] using after
        · rw [taken]
          exact complete_option _ _ _ _ complete notEol notNop size
      · -- The option is cut out: the rest moves down onto it and optlen shrinks.
        let moved := moveBytes cp i (i + len.toNat) (optlen - i - len.toNat)
        have step : fragOptsScan (fuel + 1) cp i optlen = fragOptsScan fuel moved i (optlen - len.toNat) := by
          rw [fragOptsScan, if_pos (by omega), here, if_neg notEol, if_neg notNop]
          simp only [lenHere, if_neg copied, if_neg (show ¬ optlen < i + len.toNat by omega), moved]
        have sameLength : moved.length = cp.length := move_bytes_length _ _ _ _ (by omega)
        have keptFront : moved.take i = cp.take i := move_bytes_take _ _ _ _ (by omega)
        have movedRest : (moved.drop i).take (optlen - len.toNat - i) = rest := by
          have count : optlen - len.toNat - i = optlen - i - len.toNat := by omega
          rw [count, move_bytes_moved _ _ _ _ (by omega), copy_bytes_inside _ _ _ (by omega)]
          exact after
        obtain ⟨out, kept, run, scanned⟩ := next fuel moved i (optlen - len.toNat) (by omega) (by omega)
          movedRest (by rw [keptFront]; exact complete) (by simp at enough; omega)
        refine ⟨out, kept, step.trans run, scanned.same_length.trans sameLength, ?_, ?_, scanned.valid⟩
        · have behind : out.drop (optlen - len.toNat) = moved.drop (optlen - len.toNat) := scanned.behind
          have later := congrArg (List.drop len.toNat) behind
          rw [List.drop_drop, List.drop_drop, Nat.sub_add_cancel (by omega)] at later
          exact later.trans (move_bytes_drop _ _ _ _ _ (by omega) (by omega))
        · have := scanned.bound
          omega

theorem padding_spec (i : Nat) : (i + padding i) % 4 = 0 ∧ padding i < 4 := by
  unfold padding
  omega

theorem padding_bound (i optlen : Nat) (order : i ≤ optlen) (aligned : optlen % 4 = 0) :
    i + padding i ≤ optlen := by
  unfold padding
  omega

-- frag_opts only shortens the options: the fixed part of the header, apart from the header length,
-- and everything behind the header stay.
structure Stripped (iph out : Buffer) : Prop where
  same_length : out.length = iph.length
  behind : out.drop (ipHdrlen iph) = iph.drop (ipHdrlen iph)
  lower : IP_MINLEN ≤ ipHdrlen out
  upper : ipHdrlen out ≤ ipHdrlen iph
  field : ∀ i, 0 < i → i < IP_MINLEN → get8 out i = get8 iph i
  valid : WellFormed (options out)

theorem ip_hdrlen_upper (iph : Buffer) : ipHdrlen iph ≤ 60 := by
  unfold ipHdrlen iphHdrlen
  omega

theorem set_hdrlen_hdrlen (iph : Buffer) (hdrlen : Nat) (bound : 0 < iph.length) (small : hdrlen < 16) :
    ipHdrlen (setHdrlen iph hdrlen) = hdrlen * 4 := by
  have byte := (get8 iph 0).isLt
  rw [ipHdrlen, iphHdrlen, setHdrlen, get8_put8_here _ _ _ bound, BitVec.toNat_ofNat]
  omega

theorem frag_opts_pad_drop (cp : Buffer) (i n : Nat) (bound : i + padding i ≤ n) (inside : n ≤ cp.length) :
    (fragOptsPad cp i).drop n = cp.drop n := by
  have front : (cp.take i ++ List.replicate (padding i) IPOPT_NOP).length = i + padding i := by
    simp
    omega
  rw [fragOptsPad, List.drop_append, front, List.drop_of_length_le (by omega), List.nil_append, List.drop_drop]
  congr 1
  omega

theorem frag_opts_pad_take (cp : Buffer) (i : Nat) (inside : i + padding i ≤ cp.length) :
    (fragOptsPad cp i).take (i + padding i) = cp.take i ++ List.replicate (padding i) IPOPT_NOP := by
  have front : (cp.take i ++ List.replicate (padding i) IPOPT_NOP).length = i + padding i := by
    simp
    omega
  rw [fragOptsPad, List.take_append_of_le_length (by omega), List.take_of_length_le (by omega)]

-- The header that frag_opts builds from what the scan left.
structure Built (iph cp : Buffer) (optlen kept : Nat) (out : Buffer) (hdrlen : Nat) : Prop where
  same_length : out.length = iph.length
  behind : out.drop (IP_MINLEN + optlen) = iph.drop (IP_MINLEN + optlen)
  header : ipHdrlen out = hdrlen
  lower : IP_MINLEN ≤ hdrlen
  upper : hdrlen ≤ IP_MINLEN + optlen
  field : ∀ i, 0 < i → i < IP_MINLEN → get8 out i = get8 iph i
  options : (out.drop IP_MINLEN).take (hdrlen - IP_MINLEN) = cp.take kept ++ List.replicate (padding kept) IPOPT_NOP

theorem frag_opts_built (iph cp : Buffer) (optlen kept : Nat) (small : optlen ≤ 40) (aligned : optlen % 4 = 0)
    (whole : IP_MINLEN + optlen ≤ iph.length) (size : cp.length = iph.length - IP_MINLEN)
    (behind : cp.drop optlen = iph.drop (IP_MINLEN + optlen)) (bound : kept ≤ optlen) :
    Built iph cp optlen kept (setHdrlen (iph.take IP_MINLEN ++ fragOptsPad cp kept) ((kept + padding kept + IP_MINLEN) / 4))
      (kept + padding kept + IP_MINLEN) := by
  have fixed : IP_MINLEN = 20 := rfl
  have padded := padding_bound kept optlen bound aligned
  have exact4 : (kept + padding kept + IP_MINLEN) / 4 * 4 = kept + padding kept + IP_MINLEN := by
    have := (padding_spec kept).1
    omega
  have front : (iph.take IP_MINLEN).length = IP_MINLEN := by
    rw [List.length_take]
    omega
  have outDrop : ∀ n, ((setHdrlen (iph.take IP_MINLEN ++ fragOptsPad cp kept) ((kept + padding kept + IP_MINLEN) / 4)).drop
      (IP_MINLEN + n)) = (fragOptsPad cp kept).drop n := by
    intro n
    rw [setHdrlen, put8_drop _ _ _ _ (by omega), ← List.drop_drop, List.drop_left' front]
  refine ⟨?_, ?_, ?_, by omega, by omega, fun i positive inside => ?_, ?_⟩
  · simp only [setHdrlen, put8_length, List.length_append, front, fragOptsPad, List.length_take, List.length_replicate,
      List.length_drop]
    omega
  · rw [outDrop, frag_opts_pad_drop _ _ _ padded (by omega), behind]
  · rw [set_hdrlen_hdrlen _ _ (by rw [List.length_append]; omega) (by omega), exact4]
  · rw [setHdrlen, get8_put8_elsewhere _ _ _ _ (by omega), get8_append_left _ _ _ (by omega), get8_take _ _ _ inside]
  · have start := outDrop 0
    rw [Nat.add_zero, List.drop_zero] at start
    rw [start, Nat.add_sub_cancel, frag_opts_pad_take _ _ (by omega)]

theorem frag_opts_spec (fuel : Nat) (iph : Buffer) (lower : IP_MINLEN ≤ ipHdrlen iph)
    (bound : ipHdrlen iph ≤ iph.length) (valid : WellFormed (options iph)) (enough : 40 < fuel) :
    ∃ out, fragOpts fuel iph (ipHdrlen iph - IP_MINLEN) = .ret (out, ipHdrlen out) ∧ Stripped iph out := by
  have upper := ip_hdrlen_upper iph
  have aligned : ipHdrlen iph % 4 = 0 := by
    unfold ipHdrlen
    omega
  have fixed : IP_MINLEN = 20 := rfl
  obtain ⟨optlen, optlenEq⟩ : ∃ optlen, ipHdrlen iph = IP_MINLEN + optlen := ⟨ipHdrlen iph - IP_MINLEN, by omega⟩
  have count : ipHdrlen iph - IP_MINLEN = optlen := by omega
  rw [options, count] at valid
  rw [count]
  obtain ⟨cp, kept, run, scanned⟩ := frag_opts_scan_spec _ valid fuel (iph.drop IP_MINLEN) 0 optlen (by omega)
    (by rw [List.length_drop]; omega) (by simp) complete_nil (by simp; omega)
  have built := frag_opts_built iph cp optlen kept (by omega) (by omega) (by omega)
    (by rw [scanned.same_length, List.length_drop]) (by rw [scanned.behind, List.drop_drop]) scanned.bound
  refine ⟨_, ?_, built.same_length, ?_, ?_, ?_, built.field, ?_⟩
  · rw [fragOpts, run, Outcome.ret_bind, built.header]
  · rw [optlenEq]
    exact built.behind
  · rw [built.header]
    exact built.lower
  · rw [built.header, optlenEq]
    exact built.upper
  · rw [options, built.header, built.options]
    exact scanned.valid _

theorem frag_opts_scan_mono (k : Nat) : ∀ (fuel : Nat) (cp : Buffer) (i optlen : Nat) (result : Buffer × Nat),
    fragOptsScan fuel cp i optlen = .ret result → fragOptsScan (fuel + k) cp i optlen = .ret result := by
  intro fuel
  induction fuel with
  | zero => intro cp i optlen result run; simp [fragOptsScan] at run
  | succ fuel next =>
      intro cp i optlen result run
      rw [Nat.add_right_comm]
      unfold fragOptsScan at run ⊢
      by_cases inside : i < optlen
      · rw [if_pos inside] at run ⊢
        dsimp only at run ⊢
        by_cases eol : get8 cp i &&& IPOPT_TYPE = IPOPT_EOL
        · rw [if_pos eol] at run ⊢
          exact run
        · rw [if_neg eol] at run ⊢
          by_cases nop : get8 cp i &&& IPOPT_TYPE = IPOPT_NOP
          · rw [if_pos nop] at run ⊢
            exact next _ _ _ _ run
          · rw [if_neg nop] at run ⊢
            by_cases copied : get8 cp i &&& IPOPT_COPY ≠ 0
            · rw [if_pos copied] at run ⊢
              exact next _ _ _ _ run
            · rw [if_neg copied] at run ⊢
              by_cases overrun : optlen < i + (get8 cp (i + 1)).toNat
              · rw [if_pos overrun] at run
                cases run
              · rw [if_neg overrun] at run ⊢
                exact next _ _ _ _ run
      · rw [if_neg inside] at run ⊢
        exact run

-- Whatever the fuel, a result is the one more fuel gives.
theorem frag_opts_ret (fuel : Nat) (iph out : Buffer) (hdrlen : Nat) (lower : IP_MINLEN ≤ ipHdrlen iph)
    (bound : ipHdrlen iph ≤ iph.length) (valid : WellFormed (options iph))
    (run : fragOpts fuel iph (ipHdrlen iph - IP_MINLEN) = .ret (out, hdrlen)) :
    hdrlen = ipHdrlen out ∧ Stripped iph out := by
  obtain ⟨out', enough, stripped⟩ := frag_opts_spec (fuel + 41) iph lower bound valid (by omega)
  obtain ⟨scanned, scan, built⟩ := (Outcome.bind_eq_ret _ _ _).mp run
  have more : fragOpts (fuel + 41) iph (ipHdrlen iph - IP_MINLEN) = .ret (out, hdrlen) := by
    rw [fragOpts, frag_opts_scan_mono 41 _ _ _ _ _ scan]
    exact built
  rw [more] at enough
  cases enough
  exact ⟨rfl, stripped⟩

end MagxNet.Ip
