import MagxNet.Gluestik.Settings

set_option autoImplicit false

namespace MagxNet.Conf

open Bytes

def isspace (c : Byte) : Bool := 9 ≤ c.toNat ∧ c.toNat ≤ 13 ∨ c.toNat = 32

-- file_data, and one more than the highest place that has been looked at.
structure File where
  mem : Nat → Byte
  examined : Nat

def File.look (f : File) (i : Nat) : File := { f with examined := max f.examined (i + 1) }

-- The parser writes nothing but NULs.
def File.end0 (f : File) (i : Nat) : File := { f with mem := fun j => if j = i then 0 else f.mem j }

-- while (p(*s)) s++;
def skip (p : Byte → Bool) : Nat → File → Nat → Option (File × Nat)
  | 0, _, _ => none
  | rounds + 1, f, s => if p (f.mem s) then skip p rounds (f.look s) (s + 1) else some (f.look s, s)

def notNul (c : Byte) : Bool := c ≠ 0

def nul (c : Byte) : Bool := c = 0

def blank (c : Byte) : Bool := c ≠ 0 ∧ isspace c

def notEqualSign (c : Byte) : Bool := c ≠ 0 ∧ c ≠ 0x3d

def NEXT_LINE (rounds : Nat) (f : File) (s : Nat) : Option (File × Nat) := (skip notNul rounds f s).bind fun
    (f, s) => skip nul rounds f s

-- From t back over white space, not further than s.
def trim (mem : Nat → Byte) (s : Nat) : Nat → Nat
  | 0 => 0
  | t + 1 => if s < t + 1 ∧ isspace (mem t) then trim mem s t else t + 1

def killTws (rounds : Nat) (f : File) (s : Nat) : Option File := (skip notNul rounds f s).map fun (f, t) => f.end0 (trim f.mem s t)

-- The string at s.
def textAt (rounds : Nat) (f : File) (s : Nat) : Option (File × Buffer) :=
  (skip notNul rounds f s).map fun (f, t) => (f, (List.range (t - s)).map fun i => f.mem (s + i))

-- A line with a name, up to set_var: what it is called with.
def assignment (rounds : Nat) (f : File) (s : Nat) : Option (File × Buffer × Buffer) := do
  let (f, t) ← skip notEqualSign rounds f s
  if f.mem t = 0 then
    let f ← killTws rounds f s
    let (f, name) ← textAt rounds f s
    some (f, name, [0x31])
  else
    let f ← killTws rounds (f.end0 t) s
    let (f, t) ← skip blank rounds f (t + 1)
    if f.mem t = 0 then
      let (f, name) ← textAt rounds f s
      some (f, name, [0x30])
    else
      let f ← killTws rounds f t
      let (f, name) ← textAt rounds f s
      let (f, value) ← textAt rounds f t
      some (f, name, value)

-- The loop over the lines; 1 when it comes to the end of the file.
def parse (malloc : Size → Bool) (filesize : Nat) : Nat → Settings → File → Nat → Option (Bool × Settings × File)
  | 0, _, _, _ => none
  | rounds + 1, c, f, s =>
      if filesize ≤ s then some (true, c, f)
      else do
        let (f, s) ← skip blank rounds f s
        if f.mem s = 0 ∨ f.mem s = 0x23 then
          let (f, s) ← NEXT_LINE rounds f s
          parse malloc filesize rounds c f s
        else
          let (f, name, value) ← assignment rounds f s
          let (ok, c) ← setVar malloc rounds c name value
          if ok then
            let (f, s) ← NEXT_LINE rounds f s
            parse malloc filesize rounds c f s
          else some (false, c, f)

-- What is found at cfg_filename. A file that is read completely ends at filesize.
inductive Found
  | noPath
  | missing
  | noMemory
  | unreadable
  | content (file : Buffer)

-- The two NULs behind the file are file_data[filesize] and the one after it, and behind has what comes after them.
def fileData (file : Buffer) (behind : Nat → Byte) : Nat → Byte := fun i =>
  if i < file.length then get8 file i else if i < file.length + 2 then 0 else behind i

def cutLines (filesize : Nat) (mem : Nat → Byte) : Nat → Byte := fun i =>
  if i < filesize ∧ (mem i = 0x0d ∨ mem i = 0x0a) then 0 else mem i

def ALLOCMEM : Buffer := [0x41, 0x4c, 0x4c, 0x4f, 0x43, 0x4d, 0x45, 0x4d]

def GLUESTIK_TRACE : Buffer := [0x47, 0x4c, 0x55, 0x45, 0x53, 0x54, 0x49, 0x4b, 0x5f, 0x54, 0x52, 0x41, 0x43, 0x45]

-- The GROWBUFs at the start of load_config_file.
def reserve (malloc : Size → Bool) (rounds : Nat) (c : Settings) : Option (Bool × Settings) := do
  let (ok, gvars) ← growbuf malloc rounds SIZEOF_VAR c.gvars 100
  if ok then
    let (ok, gdata) ← growbuf malloc rounds 1 c.gdata 5000
    some (ok, { c with gvars := gvars, gdata := gdata })
  else some (false, { c with gvars := gvars })

def loadConfigFile (malloc : Size → Bool) (rounds : Nat) (c : Settings) (found : Found) (behind : Nat → Byte) :
    Option (Bool × Settings × File) := do
  let none : File := ⟨behind, 0⟩
  let (ok, c) ← reserve malloc rounds c
  if ok then
    match found with
    | .noPath => some (false, c, none)
    | .missing =>
        let (ok, c) ← setVar malloc rounds c ALLOCMEM [0x31, 0x30, 0x30, 0x30, 0x30, 0x30]
        if ok then
          let (ok, c) ← setVar malloc rounds c GLUESTIK_TRACE [0x30]
          some (ok, c, none)
        else some (false, c, none)
    | .noMemory => some (false, c, none)
    | .unreadable => some (false, c, none)
    | .content file => parse malloc file.length rounds c ⟨cutLines file.length (fileData file behind), file.length⟩ 0
  else some (false, c, none)

-- Before the first call of load_config_file.
def start (data : Int → Byte) : Settings := ⟨⟨false, 0, 0⟩, ⟨false, 0, 0⟩, [], data⟩

-- What the file says: lines, names and values without the white space around them, and the last line for a name.
def lines (file : Buffer) : List Buffer := file.splitOnP fun c => c = 0x0d ∨ c = 0x0a

def assigns (line : Buffer) : Option (Buffer × Buffer) :=
  let line := line.dropWhile isspace
  if line = [] ∨ line.head? = some 0x23 then none
  else
    let name := (line.takeWhile (· ≠ 0x3d)).rdropWhile isspace
    match line.dropWhile (· ≠ 0x3d) with
    | [] => some (name, [0x31])
    | _ :: rest =>
        let value := (rest.dropWhile isspace).rdropWhile isspace
        some (name, if value = [] then [0x30] else value)

def assigned (file : Buffer) : Buffer → Buffer :=
  (lines file).foldl (fun map line =>
    match assigns line with
    | some (name, value) => assign map name value
    | none => map) fun _ => [0x30]

example : assigned [0x41, 0x0a, 0x42, 0x20, 0x3d, 0x20, 0x43, 0x0d, 0x0a, 0x23, 0x41, 0x3d, 0x42] [0x62] = [0x43] := by decide

def Meets (malloc : Size → Bool) (file : Buffer) (behind : Nat → Byte) (data : Int → Byte) (calls : List (Buffer × Buffer)) :
    Prop :=
  ∃ rounds c f, loadConfigFile malloc rounds (start data) (.content file) behind = some (true, c, f)
    ∧ f.examined ≤ file.length + 2 ∧ GetsAll c (assigned file) ∧ Follows malloc (assigned file) c calls

theorem skip_ends (p : Byte → Bool) (rounds : Nat) : ∀ (f : File) (s : Nat) (f' : File) (s' : Nat),
    skip p rounds f s = some (f', s') → f'.mem = f.mem ∧ p (f.mem s') = false ∧ (∀ i, s ≤ i → i < s' → p (f.mem i) = true)
      ∧ s' < f'.examined ∧ f.examined ≤ f'.examined := by
  induction rounds with
  | zero => exact fun _ _ _ _ result => by cases result
  | succ rounds ih =>
      intro f s f' s' result
      rw [skip] at result
      by_cases more : p (f.mem s) = true
      · rw [if_pos more] at result
        obtain ⟨mem, stop, passed, last, examined⟩ := ih _ _ _ _ result
        refine ⟨mem, stop, fun i low high => ?_, last, (le_max_left _ _).trans examined⟩
        by_cases first : i = s
        · rwa [first]
        · exact passed i (by omega) high
      · rw [if_neg more] at result
        cases result
        exact ⟨rfl, Bool.eq_false_iff.mpr more, fun i low high => absurd high (by omega), lt_of_lt_of_le (Nat.lt_succ_self s)
          (le_max_right _ _), le_max_left _ _⟩

theorem skip_stops (p : Byte → Bool) (rounds : Nat) (f : File) (s : Nat) (f' : File) (s' n : Nat)
    (result : skip p rounds f s = some (f', s'))
    (stop : p (f.mem n) = false) (front : s ≤ n) : s' ≤ n := by
  obtain ⟨-, -, passed, -, -⟩ := skip_ends p rounds f s f' s' result
  by_contra past
  have going := passed n front (by omega)
  rw [stop] at going
  cases going

-- What is a NUL stays one, and what has been examined has been.
def Cut (f f' : File) : Prop := (∀ i, f.mem i = 0 → f'.mem i = 0) ∧ f.examined ≤ f'.examined

theorem Cut.trans {f f' f'' : File} (first : Cut f f') (second : Cut f' f'') : Cut f f'' :=
  ⟨fun i null => second.1 i (first.1 i null), first.2.trans second.2⟩

theorem skip_cut (p : Byte → Bool) (rounds : Nat) (f : File) (s : Nat) (f' : File) (s' : Nat)
    (result : skip p rounds f s = some (f', s')) :
    Cut f f' := by
  obtain ⟨mem, -, -, -, examined⟩ := skip_ends p rounds f s f' s' result
  exact ⟨fun i null => by rw [mem]; exact null, examined⟩

theorem end0_cut (f : File) (i : Nat) : Cut f (f.end0 i) := by
  refine ⟨fun j null => ?_, le_refl _⟩
  unfold File.end0
  dsimp only
  split
  · rfl
  · exact null

theorem kill_cut (rounds : Nat) (f : File) (s : Nat) (f' : File) (result : killTws rounds f s = some f') : Cut f f' := by
  obtain ⟨⟨g, t⟩, ended, rfl⟩ := Option.map_eq_some_iff.mp result
  exact (skip_cut _ rounds f s g t ended).trans (end0_cut g _)

theorem text_cut (rounds : Nat) (f : File) (s : Nat) (f' : File) (text : Buffer) (result : textAt rounds f s = some (f', text)) :
    Cut f f' := by
  obtain ⟨⟨g, t⟩, ended, here⟩ := Option.map_eq_some_iff.mp result
  cases here
  exact skip_cut _ rounds f s _ t ended

theorem assignment_cut (rounds : Nat) (f : File) (s : Nat) (f' : File) (name value : Buffer)
    (result : assignment rounds f s = some (f', name, value)) : Cut f f' := by
  unfold assignment at result
  obtain ⟨⟨g, t⟩, searched, result⟩ := Option.bind_eq_some_iff.mp result
  have cut := skip_cut _ rounds f s g t searched
  dsimp only at result
  split at result
  · obtain ⟨g', killed, result⟩ := Option.bind_eq_some_iff.mp result
    obtain ⟨⟨g'', name'⟩, named, result⟩ := Option.bind_eq_some_iff.mp result
    cases result
    exact (cut.trans (kill_cut rounds g s g' killed)).trans (text_cut rounds g' s _ _ named)
  · obtain ⟨g', killed, result⟩ := Option.bind_eq_some_iff.mp result
    obtain ⟨⟨g'', t'⟩, skipped, result⟩ := Option.bind_eq_some_iff.mp result
    have cut' := ((cut.trans (end0_cut g t)).trans (kill_cut rounds _ s g' killed)).trans (skip_cut _ rounds g' _ g'' t' skipped)
    dsimp only at result
    split at result
    · obtain ⟨⟨h, name'⟩, named, result⟩ := Option.bind_eq_some_iff.mp result
      cases result
      exact cut'.trans (text_cut rounds g'' s _ _ named)
    · obtain ⟨h, killed', result⟩ := Option.bind_eq_some_iff.mp result
      obtain ⟨⟨h', name'⟩, named, result⟩ := Option.bind_eq_some_iff.mp result
      obtain ⟨⟨h'', value'⟩, valued, result⟩ := Option.bind_eq_some_iff.mp result
      cases result
      exact ((cut'.trans (kill_cut rounds g'' t' h killed')).trans (text_cut rounds h s h' _ named)).trans
        (text_cut rounds h' t' _ _ valued)

-- The two NULs behind the file.
def Closed (filesize : Nat) (f : File) : Prop := f.mem filesize = 0 ∧ f.mem (filesize + 1) = 0

theorem closed_kept (filesize : Nat) (f f' : File) (closed : Closed filesize f) (cut : Cut f f') : Closed filesize f' :=
  ⟨cut.1 _ closed.1, cut.1 _ closed.2⟩

-- NEXT_LINE ends at a byte that is no NUL: in the file, or past both NULs.
theorem next_line (filesize rounds : Nat) (f : File) (s : Nat) (f' : File) (s' : Nat) (closed : Closed filesize f)
    (result : NEXT_LINE rounds f s = some (f', s')) : Cut f f' ∧ (filesize ≤ s' → filesize + 2 < f'.examined) := by
  obtain ⟨⟨g, t⟩, ended, skipped⟩ := Option.bind_eq_some_iff.mp result
  have cut := skip_cut _ rounds f s g t ended
  obtain ⟨-, stop, -, last, -⟩ := skip_ends _ rounds g t f' s' skipped
  refine ⟨cut.trans (skip_cut _ rounds g t f' s' skipped), fun past => ?_⟩
  have there : g.mem s' ≠ 0 := of_decide_eq_false stop
  have here : filesize ≠ s' := fun eq => there (eq ▸ cut.1 _ closed.1)
  have next : filesize + 1 ≠ s' := fun eq => there (eq ▸ cut.1 _ closed.2)
  omega

-- A file with at least one byte is never left otherwise.
theorem parse_past (malloc : Size → Bool) (filesize rounds : Nat) : ∀ (c : Settings) (f : File) (s : Nat) (c' : Settings)
    (f' : File),
    Closed filesize f → s < filesize → parse malloc filesize rounds c f s = some (true, c', f') → filesize + 2 < f'.examined := by
  induction rounds with
  | zero => exact fun _ _ _ _ _ _ _ result => by cases result
  | succ rounds ih =>
      intro c f s c' f' closed front result
      have onward : ∀ (c : Settings) (g g' : File) (t : Nat), Closed filesize g → Cut g g' →
        (filesize ≤ t → filesize + 2 < g'.examined) →
          parse malloc filesize rounds c g' t = some (true, c', f') → filesize + 2 < f'.examined := by
        intro c g g' t closed cut past result
        by_cases inside : t < filesize
        · exact ih c g' t c' f' (closed_kept filesize g g' closed cut) inside result
        · cases rounds with
          | zero => cases result
          | succ rounds =>
              rw [parse, if_pos (not_lt.mp inside)] at result
              cases result
              exact past (not_lt.mp inside)
      rw [parse, if_neg (not_le.mpr front)] at result
      obtain ⟨⟨g, t⟩, skipped, result⟩ := Option.bind_eq_some_iff.mp result
      have closed' := closed_kept filesize f g closed (skip_cut _ rounds f s g t skipped)
      dsimp only at result
      split at result
      · obtain ⟨⟨g', t'⟩, next, result⟩ := Option.bind_eq_some_iff.mp result
        obtain ⟨cut, past⟩ := next_line filesize rounds g t g' t' closed' next
        exact onward c g g' t' closed' cut past result
      · obtain ⟨⟨g', name, value⟩, assigned, result⟩ := Option.bind_eq_some_iff.mp result
        obtain ⟨⟨ok, d⟩, set, result⟩ := Option.bind_eq_some_iff.mp result
        have closed'' := closed_kept filesize g g' closed' (assignment_cut rounds g t g' name value assigned)
        dsimp only at result
        cases ok with
        | false => cases result
        | true =>
            rw [if_pos rfl] at result
            obtain ⟨⟨h, t'⟩, next, result⟩ := Option.bind_eq_some_iff.mp result
            obtain ⟨cut, past⟩ := next_line filesize rounds g' t h t' closed'' next
            exact onward d g' h t' closed'' cut past result

-- What the GROWBUFs at the start leave.
def reserved (data : Int → Byte) : Settings := ⟨⟨true, 0, 100⟩, ⟨true, 0, 5000⟩, [], data⟩

theorem reserve_start (malloc : Size → Bool) (grants : Grants malloc) (rounds : Nat) (data : Int → Byte) :
    reserve malloc rounds (start data) = some (true, reserved data) := by
  have vars : growbuf malloc rounds SIZEOF_VAR (start data).gvars 100 = some (true, ⟨true, 0, 100⟩) := by
    unfold growbuf
    rw [if_pos (show (start data).gvars.mem = false from rfl), if_pos (grants _ (by decide))]
  have data' : growbuf malloc rounds 1 (start data).gdata 5000 = some (true, ⟨true, 0, 5000⟩) := by
    unfold growbuf
    rw [if_pos (show (start data).gdata.mem = false from rfl), if_pos (grants _ (by decide))]
  unfold reserve
  rw [vars, Option.bind_eq_bind, Option.bind_some]
  dsimp only
  rw [if_pos rfl, data']
  rfl

theorem holds_nothing (data : Int → Byte) : Holds (reserved data) [] := by
  have slots : (100 : CInt).toNat ∈ VAR_SLOTS ∧ (0 : Int) ≤ (100 : CInt).toInt := by decide
  have slots' : (5000 : CInt).toNat ∈ DATA_SLOTS ∧ (0 : Int) ≤ (5000 : CInt).toInt := by decide
  exact ⟨.nil, ⟨rfl, slots.1, rfl, slots.2⟩, rfl, slots'.1, le_refl _, le_refl _, slots'.2⟩

theorem load_content (malloc : Size → Bool) (grants : Grants malloc) (rounds : Nat) (data : Int → Byte) (file : Buffer)
    (behind : Nat → Byte) : loadConfigFile malloc rounds (start data) (.content file) behind
      = parse malloc file.length rounds (reserved data) ⟨cutLines file.length (fileData file behind), file.length⟩ 0 := by
  unfold loadConfigFile
  rw [reserve_start malloc grants rounds data]
  rfl

theorem closed_file (file : Buffer) (behind : Nat → Byte) :
    Closed file.length ⟨cutLines file.length (fileData file behind), file.length⟩ := by
  have null : ∀ i, file.length ≤ i → i < file.length + 2 → cutLines file.length (fileData file behind) i = 0 := by
    intro i low high
    unfold cutLines fileData
    rw [if_neg fun inside => absurd inside.1 (by omega), if_neg (by omega), if_pos high]
  exact ⟨null _ (le_refl _) (by omega), null _ (by omega) (by omega)⟩

theorem load_past (malloc : Size → Bool) (grants : Grants malloc) (rounds : Nat) (data : Int → Byte) (file : Buffer)
    (behind : Nat → Byte) (some' : file ≠ []) (c : Settings) (f : File)
    (result : loadConfigFile malloc rounds (start data) (.content file) behind = some (true, c, f)) :
    file.length + 2 < f.examined := by
  rw [load_content malloc grants] at result
  exact parse_past malloc file.length rounds _ _ 0 c f (closed_file file behind) (List.length_pos_iff.mpr some') result

theorem assigned_nothing : assigned [] = lookup [] := by
  funext name
  rfl

theorem load_nothing (malloc : Size → Bool) (grants : Grants malloc) (rounds : Nat) (data : Int → Byte) (behind : Nat → Byte) :
    loadConfigFile malloc (rounds + 1) (start data) (.content []) behind
      = some (true, reserved data, ⟨cutLines 0 (fileData [] behind), 0⟩) := by
  rw [load_content malloc grants, parse]
  rfl

theorem settings_kept (malloc : Size → Bool) (grants : Grants malloc) (file : Buffer) (behind : Nat → Byte)
    (data : Int → Byte) (calls : List (Buffer × Buffer)) (strings : ∀ x ∈ calls, 0 ∉ x.1 ∧ 0 ∉ x.2) :
    Meets malloc file behind data calls ↔ file = [] ∧ Fits malloc (reserved data) calls := by
  have run := follows_iff malloc grants calls (reserved data) [] (holds_nothing data) strings
  constructor
  · rintro ⟨rounds, c, f, result, examined, -, follows⟩
    have nothing : file = [] := by
      by_contra some'
      exact absurd (load_past malloc grants rounds data file behind some' c f result) (by omega)
    subst nothing
    refine ⟨rfl, run.mp ?_⟩
    cases rounds with
    | zero =>
        rw [load_content malloc grants] at result
        cases result
    | succ rounds =>
        rw [load_nothing malloc grants] at result
        cases result
        rwa [assigned_nothing] at follows
  · rintro ⟨rfl, fits⟩
    refine ⟨1, _, _, load_nothing malloc grants 0 data behind, Nat.zero_le _, ?_, ?_⟩
    · rw [assigned_nothing]
      exact holds_gets _ _ (holds_nothing data)
    · rw [assigned_nothing]
      exact run.mpr fits

-- malloc gives what it is asked for, and one variable is set.
theorem settings_kept_once : Meets (fun _ => true) [] (fun _ => 0x58) (fun _ => 0) [([0x41], [0x42])] ↔
    ([] : Buffer) = [] ∧ Fits (fun _ => true) (reserved fun _ => 0) [([0x41], [0x42])] :=
  settings_kept (fun _ => true) (fun _ _ => rfl) [] _ _ _ (by decide)

-- A file with the one byte A.
theorem file_overread : ¬ Meets (fun _ => true) [0x41] (fun _ => 0x58) (fun _ => 0) [] := by
  rintro ⟨rounds, c, f, result, examined, -⟩
  have past := load_past (fun _ => true) (fun _ _ => rfl) rounds _ [0x41] _ (by decide) c f result
  rw [show ([0x41] : Buffer).length = 1 from rfl] at examined past
  omega

end MagxNet.Conf
