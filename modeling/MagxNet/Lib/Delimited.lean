import Mathlib

set_option autoImplicit false

-- Rows of texts with a delimiter behind each.
namespace Delimited

variable {α : Type}

def joined (delim : α) (texts : List (List α)) : List α := (texts.map (· ++ [delim])).flatten

theorem joined_append (delim : α) (front back : List (List α)) :
    joined delim (front ++ back) = joined delim front ++ joined delim back := by
  simp [joined]

theorem joined_cons (delim : α) (text : List α) (texts : List (List α)) :
    joined delim (text :: texts) = text ++ delim :: joined delim texts := by
  simp [joined]

-- Every row of bytes is texts with a delimiter behind each, and a rest.
theorem joined_exists [DecidableEq α] (delim : α) (bytes : List α) :
    ∃ texts rest, bytes = joined delim texts ++ rest ∧ (∀ text ∈ texts, delim ∉ text) ∧ delim ∉ rest := by
  induction bytes with
  | nil => exact ⟨[], [], rfl, (fun _ none' => by cases none'), List.not_mem_nil⟩
  | cons c later ih =>
      obtain ⟨texts, rest, row, whole, partial'⟩ := ih
      by_cases atEnd : c = delim
      · refine ⟨[] :: texts, rest, ?_, ?_, partial'⟩
        · rw [row, atEnd, joined_cons]
          rfl
        · intro text member
          rcases List.mem_cons.mp member with rfl | old
          · exact List.not_mem_nil
          · exact whole text old
      · cases texts with
        | nil =>
            refine ⟨[], c :: rest, ?_, (fun _ none' => by cases none'), ?_⟩
            · rw [row]
              rfl
            · simp [Ne.symm atEnd, partial']
        | cons text texts =>
            refine ⟨(c :: text) :: texts, rest, ?_, ?_, partial'⟩
            · rw [row, joined_cons, joined_cons]
              rfl
            · intro text' member
              rcases List.mem_cons.mp member with rfl | old
              · simp [Ne.symm atEnd, whole text List.mem_cons_self]
              · exact whole text' (List.mem_cons_of_mem _ old)

-- Two rows that agree up to their first delimiters.
theorem delimited_unique (delim : α) (text text' rest rest' : List α) (free : delim ∉ text) (free' : delim ∉ text')
    (same : text ++ delim :: rest = text' ++ delim :: rest') : text = text' ∧ rest = rest' := by
  induction text generalizing text' with
  | nil =>
      cases text' with
      | nil => exact ⟨rfl, (List.cons.inj same).2⟩
      | cons c later => exact (free' ((List.cons.inj same).1 ▸ List.mem_cons_self)).elim
  | cons c later ih =>
      cases text' with
      | nil => exact (free ((List.cons.inj same).1 ▸ List.mem_cons_self)).elim
      | cons c' later' =>
          obtain ⟨rfl, tail⟩ := List.cons.inj same
          obtain ⟨rfl, rfl⟩ := ih later' (fun member => free (List.mem_cons_of_mem _ member))
            (fun member => free' (List.mem_cons_of_mem _ member)) tail
          exact ⟨rfl, rfl⟩

theorem joined_unique (delim : α) (texts texts' : List (List α)) (rest rest' : List α)
    (whole : ∀ text ∈ texts, delim ∉ text) (whole' : ∀ text ∈ texts', delim ∉ text) (free : delim ∉ rest)
    (free' : delim ∉ rest') (same : joined delim texts ++ rest = joined delim texts' ++ rest') :
    texts = texts' ∧ rest = rest' := by
  induction texts generalizing texts' with
  | nil =>
      cases texts' with
      | nil => exact ⟨rfl, same⟩
      | cons text texts' =>
          rw [joined_cons] at same
          refine (free ?_).elim
          change rest = _ at same
          rw [same]
          simp
  | cons text texts ih =>
      cases texts' with
      | nil =>
          rw [joined_cons] at same
          refine (free' ?_).elim
          change _ = rest' at same
          rw [← same]
          simp
      | cons text' texts' =>
          rw [joined_cons, joined_cons, List.append_assoc, List.append_assoc, List.cons_append, List.cons_append] at same
          obtain ⟨rfl, later⟩ := delimited_unique delim text text' _ _ (whole text List.mem_cons_self)
            (whole' text' List.mem_cons_self) same
          obtain ⟨rfl, rfl⟩ := ih texts' (fun t member => whole t (List.mem_cons_of_mem _ member))
            (fun t member => whole' t (List.mem_cons_of_mem _ member)) later
          exact ⟨rfl, rfl⟩

theorem joined_prefix [DecidableEq α] (delim : α) (texts texts' : List (List α)) (rest : List α)
    (whole : ∀ text ∈ texts, delim ∉ text) (whole' : ∀ text ∈ texts', delim ∉ text)
    (start : joined delim texts ++ rest <+: joined delim texts') : texts <+: texts' := by
  obtain ⟨more, all⟩ := start
  obtain ⟨texts2, rest2, row, whole2, free2⟩ := joined_exists delim (rest ++ more)
  rw [List.append_assoc, row, ← List.append_assoc, ← joined_append, ← List.append_nil (joined delim texts')] at all
  have both : ∀ text ∈ texts ++ texts2, delim ∉ text := by
    intro text member
    rcases List.mem_append.mp member with old | new
    · exact whole text old
    · exact whole2 text new
  obtain ⟨same, -⟩ := joined_unique delim _ _ _ _ both whole' free2 List.not_mem_nil all
  exact ⟨texts2, same⟩

end Delimited
