import MagxNet.Lib.Bytes

set_option autoImplicit false

namespace MagxNet.Conf

open Bytes

-- An int has 16 bits here, a size_t 32.
abbrev CInt := BitVec 16
abbrev Size := BitVec 32

-- size is the same for all entries of a buffer, and mem only says whether there is one.
structure GrowBuf where
  mem : Bool
  nEntries : CInt
  nSlots : CInt
deriving DecidableEq, Repr

structure Var where
  nameOff : CInt
  valOff : CInt
deriving DecidableEq, Repr

-- gvars with the entries that are used, and gdata with the memory that data points into.
structure Settings where
  gvars : GrowBuf
  gdata : GrowBuf
  vars : List Var
  data : Int → Byte

-- The loop that doubles n; none when it has not ended after so many rounds.
def doubled (wanted : CInt) : Nat → CInt → Option CInt
  | 0, _ => none
  | rounds + 1, n => if n.toInt < wanted.toInt then doubled wanted rounds (n * 2) else some n

-- malloc says whether there is memory of a size. What a new buffer holds behind the entries it takes along is not looked at.
def growbuf (malloc : Size → Bool) (rounds : Nat) (size : Size) (buf : GrowBuf) (newSlots : CInt) : Option (Bool × GrowBuf) :=
  if buf.mem = false then
    if malloc (size * newSlots.signExtend 32) then some (true, ⟨true, 0, newSlots⟩) else some (false, buf)
  else if (buf.nEntries + newSlots).toInt ≤ buf.nSlots.toInt then some (true, buf)
  else
    (doubled (buf.nEntries + newSlots) rounds buf.nSlots).map fun n =>
      if malloc (size * n.signExtend 32) then (true, { buf with nSlots := n }) else (false, buf)

def SIZEOF_VAR : Size := 4

def tolower (c : Byte) : Byte := if 65 ≤ c.toNat ∧ c.toNat ≤ 90 then c + 32 else c

-- Whether stricmp finds a string equal to the one in memory.
def sameAt (data : Int → Byte) (off : Int) : Buffer → Bool
  | [] => data off = 0
  | c :: rest => tolower c = tolower (data off) ∧ sameAt data (off + 1) rest

def strcpy (data : Int → Byte) (off : Int) (text : Buffer) : Int → Byte := fun a =>
  if off ≤ a ∧ a < off + text.length then get8 text (a - off).toNat else if a = off + text.length then 0 else data a

def putString (c : Settings) (text : Buffer) : Settings :=
  { c with
    data := strcpy c.data c.gdata.nEntries.toInt text
    gdata := { c.gdata with nEntries := c.gdata.nEntries + BitVec.ofNat 16 (text.length + 1) } }

def findVar (c : Settings) (name : Buffer) : Option Nat := c.vars.findIdx? fun v => sameAt c.data v.nameOff.toInt name

-- The end of set_var, when there is room.
def storeVar (c : Settings) (name value : Buffer) : Settings :=
  match findVar c name with
  | some i => putString { c with vars := c.vars.modify i fun v => { v with valOff := c.gdata.nEntries } } value
  | none =>
      let named := putString c name
      putString { named with
        vars := c.vars ++ [⟨c.gdata.nEntries, named.gdata.nEntries⟩]
        gvars := { c.gvars with nEntries := c.gvars.nEntries + 1 } } value

def setVar (malloc : Size → Bool) (rounds : Nat) (c : Settings) (name value : Buffer) : Option (Bool × Settings) :=
  (growbuf malloc rounds SIZEOF_VAR c.gvars 1).bind fun (ok, gvars) =>
    let c := { c with gvars := gvars }
    if ok = false then some (false, c)
    else
      (growbuf malloc rounds 1 c.gdata (BitVec.ofNat 16 (name.length + value.length + 2))).map fun (ok, gdata) =>
        let c := { c with gdata := gdata }
        if ok = false then (false, c) else (true, storeVar c name value)

-- A pointer to a string of the program, or into data.
inductive Text
  | const (text : Buffer)
  | at (off : Int)

def CDVALID : Buffer := [0x43, 0x44, 0x56, 0x41, 0x4c, 0x49, 0x44]

def folded (text : Buffer) : Buffer := text.map tolower

def gsGetvstr (c : Settings) (var : Buffer) : Text :=
  if folded var = folded CDVALID then .const [0x30]
  else
    match c.vars.find? fun v => sameAt c.data v.nameOff.toInt var with
    | some v => .at v.valOff.toInt
    | none => .const [0x30]

def gsSetvstr (malloc : Size → Bool) (rounds : Nat) (c : Settings) (vs value : Buffer) : Option (Bool × Settings) :=
    setVar malloc rounds c vs value

-- A string is in memory at off, with its NUL.
def StringAt (data : Int → Byte) (off : Int) (text : Buffer) : Prop :=
  (∀ i < text.length, data (off + i) = get8 text i) ∧ data (off + text.length) = 0

def Reads (c : Settings) (text : Text) (value : Buffer) : Prop :=
  match text with
  | .const text => text = value
  | .at off => StringAt c.data off value

theorem string_put (data : Int → Byte) (off : Int) (text : Buffer) : StringAt (strcpy data off text) off text := by
  refine ⟨fun i inside => ?_, ?_⟩
  · unfold strcpy
    rw [if_pos ⟨by omega, by omega⟩]
    congr
    omega
  · unfold strcpy
    rw [if_neg (by omega), if_pos rfl]

-- A string in front of what is written.
theorem string_kept (data : Int → Byte) (off p : Int) (text text' : Buffer) (here : StringAt data p text')
    (front : p + text'.length < off) : StringAt (strcpy data off text) p text' := by
  refine ⟨fun i inside => ?_, ?_⟩
  · unfold strcpy
    rw [if_neg (by omega), if_neg (by omega)]
    exact here.1 i inside
  · unfold strcpy
    rw [if_neg (by omega), if_neg (by omega)]
    exact here.2

theorem tolower_zero (c : Byte) (same : tolower c = 0) : c = 0 := by
  unfold tolower at same
  split at same
  · rename_i upper
    have value := congrArg BitVec.toNat same
    rw [BitVec.toNat_add, show (32 : Byte).toNat = 32 from rfl, show (0 : Byte).toNat = 0 from rfl] at value
    omega
  · exact same

-- stricmp compares the two strings without regard to case.
theorem same_at (data : Int → Byte) (name : Buffer) (clean : 0 ∉ name) : ∀ off text, 0 ∉ text → StringAt data off text →
    (sameAt data off name = true ↔ folded name = folded text) := by
  induction name with
  | nil =>
      intro off text full here
      unfold sameAt folded
      cases text with
      | nil =>
          have null : data off = 0 := by simpa using here.2
          exact iff_of_true (decide_eq_true null) rfl
      | cons c rest =>
          have first : data off = c := by simpa [get8] using here.1 0 (by simp)
          refine iff_of_false (fun null => full ?_) (by simp)
          have null : data off = 0 := of_decide_eq_true null
          rw [← null, first]
          exact List.mem_cons_self
  | cons c rest ih =>
      intro off text full here
      obtain ⟨some, clean'⟩ := not_or.mp (mt List.mem_cons.mpr clean)
      unfold sameAt folded
      rw [decide_eq_true_iff]
      cases text with
      | nil =>
          have null : data off = 0 := by simpa using here.2
          refine iff_of_false (fun both => some ?_) (by simp)
          refine (tolower_zero c ?_).symm
          rw [both.1, null]
          rfl
      | cons d more =>
          obtain ⟨-, full'⟩ := not_or.mp (mt List.mem_cons.mpr full)
          have first : data off = d := by simpa [get8] using here.1 0 (by simp)
          have later : StringAt data (off + 1) more := by
            refine ⟨fun i inside => ?_, ?_⟩
            · have byte := here.1 (i + 1) (by simpa using inside)
              rw [show off + 1 + (i : Int) = off + ((i + 1 : Nat) : Int) by push_cast; ring, byte]
              simp [get8]
            · have null := here.2
              rwa [List.length_cons, show off + ((more.length + 1 : Nat) : Int) = off + 1 + more.length by push_cast; ring] at null
          rw [first, List.map_cons, List.map_cons, List.cons.injEq, ih clean' (off + 1) more full' later]
          rfl

-- The sizes that data has, from 5000 on, and what doubling makes of them in an int, as numbers without a sign.
def DATA_SLOTS : List Nat := [5000, 10000, 20000, 28928]

def ORBIT : List Nat := [5000, 10000, 20000, 40000, 14464, 28928, 57856, 50176, 34816, 4096, 8192, 16384, 32768, 0]

def MOST : Nat := 28928

theorem orbit_doubled : ∀ n ∈ ORBIT, n * 2 % 2 ^ 16 ∈ ORBIT := by decide

theorem orbit_bounded : ∀ n ∈ ORBIT, n < 32768 → n ≤ MOST := by decide

theorem slots_orbit : ∀ n ∈ DATA_SLOTS, n ∈ ORBIT ∧ n < 32768 := by decide

theorem int_bounded (n : CInt) (member : n.toNat ∈ ORBIT) : n.toInt ≤ MOST := by
  have bound := orbit_bounded n.toNat member
  rw [BitVec.toInt_eq_toNat_cond]
  split <;> omega

-- Nothing above MOST is ever reached.
theorem doubled_stuck (wanted : CInt) (beyond : (MOST : Int) < wanted.toInt) (rounds : Nat) :
    ∀ n : CInt, n.toNat ∈ ORBIT → doubled wanted rounds n = none := by
  induction rounds with
  | zero => exact fun _ _ => rfl
  | succ rounds ih =>
      intro n member
      rw [doubled, if_pos ((int_bounded n member).trans_lt beyond)]
      exact ih _ (by rw [BitVec.toNat_mul]; exact orbit_doubled n.toNat member)

def ROUNDS : Nat := 16

section Doubling

variable (wanted : CInt) (rounds : Nat) (n m : CInt)

theorem doubled_more (twice : n * 2 = m) (less : n.toInt < wanted.toInt) : doubled wanted
    (rounds + 1) n = doubled wanted rounds m := by
  rw [doubled, if_pos less, twice]

theorem doubled_done (enough : wanted.toInt ≤ n.toInt) : doubled wanted (rounds + 1) n = some n :=
  if_neg (not_lt.mpr enough)

end Doubling

-- 20000 becomes negative, 14464 and 28928.
theorem doubled_last (wanted : CInt) (rounds : Nat) (most : wanted.toInt ≤ MOST) (less : 20000 < wanted.toInt) :
    doubled wanted (rounds + 4) 20000 = some 28928 := by
  have first : (20000 : CInt).toInt = 20000 := rfl
  have second : (40000 : CInt).toInt = -25536 := rfl
  have third : (14464 : CInt).toInt = 14464 := rfl
  have fourth : (28928 : CInt).toInt = MOST := rfl
  rw [doubled_more wanted _ 20000 40000 rfl (by omega), doubled_more wanted _ 40000 14464 rfl (by omega),
    doubled_more wanted _ 14464 28928 rfl (by omega), doubled_done wanted _ 28928 (by omega)]

-- What is wanted is reached.
def Doubles (wanted : CInt) (rounds : Nat) (n : CInt) : Prop :=
  ∃ m : CInt, m.toNat ∈ DATA_SLOTS ∧ doubled wanted rounds n = some m ∧ wanted.toInt ≤ m.toInt

theorem doubles_10000 (wanted : CInt) (rounds : Nat) (most : wanted.toInt ≤ MOST) (less : 10000 < wanted.toInt) :
    Doubles wanted (rounds + 5) 10000 := by
  have first : (10000 : CInt).toInt = 10000 := rfl
  have second : (20000 : CInt).toInt = 20000 := rfl
  unfold Doubles
  rw [doubled_more wanted _ 10000 20000 rfl (by omega)]
  by_cases enough : wanted.toInt ≤ 20000
  · exact ⟨20000, by decide, doubled_done wanted _ 20000 (by omega), by omega⟩
  · exact ⟨28928, by decide, doubled_last wanted rounds most (by omega), most⟩

theorem doubles_5000 (wanted : CInt) (rounds : Nat) (most : wanted.toInt ≤ MOST) (less : 5000 < wanted.toInt) :
    Doubles wanted (rounds + 6) 5000 := by
  have first : (5000 : CInt).toInt = 5000 := rfl
  have second : (10000 : CInt).toInt = 10000 := rfl
  by_cases enough : wanted.toInt ≤ 10000
  · refine ⟨10000, by decide, ?_, by omega⟩
    rw [doubled_more wanted _ 5000 10000 rfl (by omega), doubled_done wanted _ 10000 (by omega)]
  · unfold Doubles
    rw [doubled_more wanted _ 5000 10000 rfl (by omega)]
    exact doubles_10000 wanted rounds most (by omega)

-- Everything up to MOST is reached, by 28928 at the latest.
theorem doubled_data (wanted : CInt) (most : wanted.toInt ≤ MOST) (n : CInt) (member : n.toNat ∈ DATA_SLOTS)
    (less : n.toInt < wanted.toInt) : Doubles wanted ROUNDS n := by
  have exact' : ∀ m : CInt, n.toNat = m.toNat → n = m := fun m => BitVec.eq_of_toNat_eq
  simp only [DATA_SLOTS, List.mem_cons, List.not_mem_nil, or_false] at member
  obtain value | value | value | value := member
  · rw [exact' 5000 value] at less ⊢
    exact doubles_5000 wanted 10 most less
  · rw [exact' 10000 value] at less ⊢
    exact doubles_10000 wanted 11 most less
  · rw [exact' 20000 value] at less ⊢
    exact ⟨28928, by decide, doubled_last wanted 12 most less, most⟩
  · rw [exact' 28928 value] at less
    exact absurd most (not_le.mpr less)

-- The variables are doubled from 100 on, and never more than once for a new one.
def VAR_SLOTS : List Nat := [100, 200, 400, 800, 1600, 3200, 6400, 12800, 25600]

theorem slots_doubled : ∀ n ∈ VAR_SLOTS, n < 25600 → n * 2 ∈ VAR_SLOTS := by decide

theorem slots_bounded : ∀ n ∈ VAR_SLOTS, 100 ≤ n ∧ n ≤ 25600 := by decide

theorem doubled_vars (wanted : CInt) (n : CInt) (member : n.toNat ∈ VAR_SLOTS) (less : n.toInt < wanted.toInt)
    (next : wanted.toInt ≤ n.toInt + 1) (most : wanted.toInt ≤ 25600) :
    ∃ m : CInt, m.toNat ∈ VAR_SLOTS ∧ doubled wanted ROUNDS n = some m ∧ wanted.toInt ≤ m.toInt := by
  obtain ⟨low, high⟩ := slots_bounded n.toNat member
  have value : n.toInt = n.toNat := BitVec.toInt_eq_toNat_of_lt (by omega)
  have below : n.toNat < 25600 := by omega
  have twice : (n * 2).toNat = n.toNat * 2 := by
    rw [BitVec.toNat_mul, show (2 : CInt).toNat = 2 from rfl]
    exact Nat.mod_eq_of_lt (by omega)
  have member' := slots_doubled n.toNat member below
  have bound := (slots_bounded _ member').2
  have value' : (n * 2).toInt = (n * 2).toNat := BitVec.toInt_eq_toNat_of_lt (by omega)
  have enough : wanted.toInt ≤ (n * 2).toInt := by omega
  refine ⟨n * 2, by rwa [twice], ?_, enough⟩
  rw [show ROUNDS = 14 + 1 + 1 from rfl, doubled_more wanted _ n (n * 2) rfl less, doubled_done wanted _ _ enough]

theorem int_nat (a : CInt) (positive : 0 ≤ a.toInt) : a.toInt = a.toNat ∧ a.toNat < 32768 := by
  have cond := BitVec.toInt_eq_toNat_cond a
  have bound := a.isLt
  split at cond <;> omega

-- A sum that an int can hold.
theorem int_sum (a : CInt) (k : Nat) (positive : 0 ≤ a.toInt) (fits : a.toInt + k < 32768) :
    (a + BitVec.ofNat 16 k).toInt = a.toInt + k := by
  obtain ⟨value, -⟩ := int_nat a positive
  have sum : (a + BitVec.ofNat 16 k).toNat = a.toNat + k := by
    rw [BitVec.toNat_add, BitVec.toNat_ofNat]
    omega
  rw [BitVec.toInt_eq_toNat_of_lt (by omega), sum]
  omega

-- A name and its value, both in the part of data that is in use.
structure Entry (data : Int → Byte) (used : Int) (v : Var) (x : Buffer × Buffer) : Prop where
  clean : 0 ∉ x.1
  name : 0 ≤ v.nameOff.toInt ∧ StringAt data v.nameOff.toInt x.1 ∧ v.nameOff.toInt + x.1.length < used
  value : StringAt data v.valOff.toInt x.2 ∧ v.valOff.toInt + x.2.length < used

-- The table holds these names and values.
structure Holds (c : Settings) (l : List (Buffer × Buffer)) : Prop where
  entries : List.Forall₂ (Entry c.data c.gdata.nEntries.toInt) c.vars l
  vars : c.gvars.mem = true ∧ c.gvars.nSlots.toNat ∈ VAR_SLOTS ∧ c.gvars.nEntries.toInt = l.length
    ∧ (l.length : Int) ≤ c.gvars.nSlots.toInt
  data : c.gdata.mem = true ∧ c.gdata.nSlots.toNat ∈ DATA_SLOTS ∧ 0 ≤ c.gdata.nEntries.toInt
    ∧ 2 * (l.length : Int) ≤ c.gdata.nEntries.toInt ∧ c.gdata.nEntries.toInt ≤ c.gdata.nSlots.toInt

-- What the names stand for: a name without regard to case, the first of its entries.
def lookup (l : List (Buffer × Buffer)) (name : Buffer) : Buffer :=
  ((l.find? fun x => decide (folded x.1 = folded name)).map Prod.snd).getD [0x30]

def GetsAll (c : Settings) (map : Buffer → Buffer) : Prop :=
  ∀ name, 0 ∉ name → folded name ≠ folded CDVALID → Reads c (gsGetvstr c name) (map name)

theorem holds_gets (c : Settings) (l : List (Buffer × Buffer)) (holds : Holds c l) : GetsAll c (lookup l) := by
  intro name clean other
  unfold gsGetvstr lookup
  rw [if_neg other]
  obtain ⟨entries, -, -⟩ := holds
  generalize c.vars = vars at entries
  induction entries with
  | nil => rfl
  | cons entry rest ih =>
      rename_i v x vars l
      obtain ⟨clean', ⟨-, name', -⟩, value, -⟩ := entry
      have asks := same_at c.data name clean v.nameOff.toInt x.1 clean' name'
      rw [List.find?_cons, List.find?_cons]
      by_cases same : folded name = folded x.1
      · rw [asks.mpr same, decide_eq_true same.symm]
        exact value
      · rw [Bool.eq_false_iff.mpr (asks.not.mpr same), decide_eq_false fun eq => same eq.symm]
        exact ih

-- malloc has what the two buffers need.
def Grants (malloc : Size → Bool) : Prop := ∀ n : Size, n.toNat ≤ 102400 → malloc n = true

theorem size_of_slots (size : Size) (n : CInt) (positive : 0 ≤ n.toInt) (fits : size.toNat * n.toNat ≤ 102400) :
    (size * n.signExtend 32).toNat ≤ 102400 := by
  obtain ⟨-, small⟩ := int_nat n positive
  have wide : (n.signExtend 32).toNat = n.toNat := by
    have msb : n.msb = false := by
      rw [BitVec.msb_eq_decide]
      exact decide_eq_false (by omega)
    rw [BitVec.signExtend_eq_setWidth_of_msb_false msb, BitVec.toNat_setWidth]
    omega
  rw [BitVec.toNat_mul, wide, Nat.mod_eq_of_lt (by omega)]
  exact fits

section Growth

variable (malloc : Size → Bool) (grants : Grants malloc) (c : Settings) (l : List (Buffer × Buffer)) (holds : Holds c l)

include grants holds

theorem grow_vars (room : l.length < 25600) :
    ∃ slots : CInt, growbuf malloc ROUNDS SIZEOF_VAR c.gvars 1 = some (true, { c.gvars with nSlots := slots })
      ∧ slots.toNat ∈ VAR_SLOTS ∧ (l.length : Int) + 1 ≤ slots.toInt := by
  obtain ⟨mem, member, entries, within⟩ := holds.vars
  have sum := int_sum c.gvars.nEntries 1 (by omega) (by omega)
  have one : BitVec.ofNat 16 1 = (1 : CInt) := rfl
  rw [one] at sum
  unfold growbuf
  rw [if_neg (by rw [mem]; decide)]
  by_cases fits : (c.gvars.nEntries + 1).toInt ≤ c.gvars.nSlots.toInt
  · rw [if_pos fits]
    exact ⟨c.gvars.nSlots, rfl, member, by omega⟩
  · rw [if_neg fits]
    obtain ⟨m, member', result, enough⟩ := doubled_vars (c.gvars.nEntries + 1) c.gvars.nSlots member (not_le.mp fits)
      (by omega) (by omega)
    have bounds := slots_bounded m.toNat member'
    have positive : 0 ≤ m.toInt := by omega
    have given := grants _ (size_of_slots SIZEOF_VAR m positive (by rw [show SIZEOF_VAR.toNat = 4 from rfl]; omega))
    rw [result, Option.map_some, if_pos given]
    exact ⟨m, rfl, member', by omega⟩

theorem grow_data (k : Nat) (room : c.gdata.nEntries.toInt + k ≤ MOST) :
    ∃ slots : CInt, growbuf malloc ROUNDS 1 c.gdata (BitVec.ofNat 16 k) = some (true, { c.gdata with nSlots := slots })
      ∧ slots.toNat ∈ DATA_SLOTS ∧ c.gdata.nEntries.toInt + k ≤ slots.toInt := by
  obtain ⟨mem, member, positive, -, within⟩ := holds.data
  unfold MOST at room
  have sum := int_sum c.gdata.nEntries k positive (by omega)
  unfold growbuf
  rw [if_neg (by rw [mem]; decide)]
  by_cases fits : (c.gdata.nEntries + BitVec.ofNat 16 k).toInt ≤ c.gdata.nSlots.toInt
  · rw [if_pos fits]
    exact ⟨c.gdata.nSlots, rfl, member, by omega⟩
  · rw [if_neg fits]
    obtain ⟨m, member', result, enough⟩ := doubled_data (c.gdata.nEntries + BitVec.ofNat 16 k)
      (by unfold MOST; omega) c.gdata.nSlots
      member (not_le.mp fits)
    obtain ⟨-, bound⟩ := slots_orbit m.toNat member'
    have positive' : 0 ≤ m.toInt := by omega
    have given := grants _ (size_of_slots 1 m positive' (by rw [show (1 : Size).toNat = 1 from rfl]; omega))
    rw [result, Option.map_some, if_pos given]
    exact ⟨m, rfl, member', by omega⟩

omit grants in
-- Where more is wanted than doubling ever gives, growbuf does not come back.
theorem grow_stuck (k : Nat) (beyond : (MOST : Int) < c.gdata.nEntries.toInt + k) (counted : c.gdata.nEntries.toInt + k < 32768)
    (rounds : Nat) : growbuf malloc rounds 1 c.gdata (BitVec.ofNat 16 k) = none := by
  obtain ⟨mem, member, positive, -, within⟩ := holds.data
  obtain ⟨orbit, -⟩ := slots_orbit _ member
  have sum := int_sum c.gdata.nEntries k positive counted
  have most := int_bounded c.gdata.nSlots orbit
  unfold growbuf
  rw [if_neg (by rw [mem]; decide), if_neg (by omega), doubled_stuck _ (by omega) rounds _ orbit]
  rfl

end Growth

-- A call on the names and values: the first entry of the name gets the value, and without one there is a new entry.
def update (name value : Buffer) : List (Buffer × Buffer) → List (Buffer × Buffer)
  | [] => [(name, value)]
  | x :: rest => if folded x.1 = folded name then (x.1, value) :: rest else x :: update name value rest

def assign (map : Buffer → Buffer) (name value : Buffer) : Buffer → Buffer :=
    fun n => if folded n = folded name then value else map n

theorem lookup_cons (x : Buffer × Buffer) (rest : List (Buffer × Buffer)) (n : Buffer) :
    lookup (x :: rest) n = if folded x.1 = folded n then x.2 else lookup rest n := by
  unfold lookup
  rw [List.find?_cons]
  by_cases same : folded x.1 = folded n
  · rw [if_pos same, decide_eq_true same]
    rfl
  · rw [if_neg same, decide_eq_false same]

theorem lookup_update (l : List (Buffer × Buffer)) (name value : Buffer) :
    lookup (update name value l) = assign (lookup l) name value := by
  funext n
  induction l with
  | nil =>
      rw [update, lookup_cons]
      unfold assign
      by_cases same : folded n = folded name
      · rw [if_pos same, if_pos same.symm]
      · rw [if_neg same, if_neg fun eq => same eq.symm]
  | cons x rest ih =>
      unfold assign at ih ⊢
      rw [update, lookup_cons]
      by_cases here : folded x.1 = folded name
      · rw [if_pos here, lookup_cons, here]
        by_cases same : folded n = folded name
        · rw [if_pos same, if_pos same.symm]
        · rw [if_neg same, if_neg fun eq => same eq.symm, if_neg fun eq => same eq.symm]
      · rw [if_neg here, lookup_cons, ih]
        by_cases first : folded x.1 = folded n
        · rw [if_pos first, if_pos first, if_neg fun eq => here (first.trans eq)]
        · rw [if_neg first, if_neg first]

-- The entry that findIdx? finds is the one that update changes.
section Tables

variable {R R' : Var → Buffer × Buffer → Prop} (p : Var → Bool) (f : Var → Var) (name value : Buffer) {vars : List Var}
  {l : List (Buffer × Buffer)} (entries : List.Forall₂ R vars l) (agree : ∀ v x, R v x → (p v = true ↔ folded name = folded x.1))

include entries agree

theorem found_updated (kept : ∀ v x, R v x → R' v x) (given : ∀ v x, R v x → R' (f v) (x.1, value)) :
    ∀ i, vars.findIdx? p = some i → List.Forall₂ R' (vars.modify i f) (update name value l) := by
  induction entries with
  | nil => exact fun i found => by cases found
  | cons entry rest ih =>
      rename_i v x vars l
      intro i found
      rw [List.findIdx?_cons] at found
      by_cases same : folded name = folded x.1
      · rw [if_pos ((agree v x entry).mpr same)] at found
        cases found
        rw [update, if_pos same.symm]
        exact .cons (given v x entry) (rest.imp kept)
      · rw [if_neg ((agree v x entry).not.mpr same)] at found
        obtain ⟨j, later, rfl⟩ := Option.map_eq_some_iff.mp found
        rw [update, if_neg fun eq => same eq.symm]
        exact .cons (kept v x entry) (ih j later)

theorem missing_appended (missing : vars.findIdx? p = none) : update name value l = l ++ [(name, value)] := by
  induction entries with
  | nil => rfl
  | cons entry rest ih =>
      rename_i v x vars l
      rw [List.findIdx?_cons] at missing
      by_cases same : folded name = folded x.1
      · rw [if_pos ((agree v x entry).mpr same)] at missing
        cases missing
      · rw [if_neg ((agree v x entry).not.mpr same), Option.map_eq_none_iff] at missing
        rw [update, if_neg fun eq => same eq.symm, ih missing]
        rfl

end Tables

-- What a call writes behind the bytes in use.
def written (c : Settings) (name value : Buffer) : Nat :=
  if (findVar c name).isSome then value.length + 1 else name.length + value.length + 2

-- It stays in the buffer, in what is there after the call.
def Inside (c : Settings) (name value : Buffer) (c' : Settings) : Prop :=
  c.gdata.nEntries.toInt + written c name value ≤ c'.gdata.nSlots.toInt

theorem put_used (c : Settings) (text : Buffer) (positive : 0 ≤ c.gdata.nEntries.toInt)
    (fits : c.gdata.nEntries.toInt + (text.length + 1 : Nat) < 32768) :
    (putString c text).gdata.nEntries.toInt = c.gdata.nEntries.toInt + (text.length + 1 : Nat) := int_sum _ _ positive fits

theorem entry_kept (c : Settings) (text : Buffer) (positive : 0 ≤ c.gdata.nEntries.toInt)
    (fits : c.gdata.nEntries.toInt + (text.length + 1 : Nat) < 32768) (v : Var) (x : Buffer × Buffer)
    (entry : Entry c.data c.gdata.nEntries.toInt v x) :
    Entry (putString c text).data (putString c text).gdata.nEntries.toInt v x := by
  obtain ⟨clean, ⟨low, name, nameEnd⟩, value, valueEnd⟩ := entry
  rw [put_used c text positive fits]
  exact ⟨clean, ⟨low, string_kept _ _ _ _ _ name nameEnd, by omega⟩, string_kept _ _ _ _ _ value valueEnd, by omega⟩

theorem found_entry (c : Settings) (name : Buffer) (clean : 0 ∉ name) (v : Var) (x : Buffer × Buffer)
    (entry : Entry c.data c.gdata.nEntries.toInt v x) : sameAt c.data v.nameOff.toInt name = true ↔ folded name = folded x.1 :=
  same_at c.data name clean v.nameOff.toInt x.1 entry.clean entry.name.2.1

section Storing

variable (c : Settings) (l : List (Buffer × Buffer)) (holds : Holds c l) (name value : Buffer) (clean : 0 ∉ name)

include holds clean

theorem value_changed (i : Nat) (found : findVar c name = some i)
    (inside : c.gdata.nEntries.toInt + (value.length + 1 : Nat) ≤ c.gdata.nSlots.toInt) :
    Holds (putString { c with vars := c.vars.modify i fun v => { v with valOff := c.gdata.nEntries } } value)
      (update name value l) := by
  obtain ⟨entries, ⟨mem, slots, number, room⟩, mem', slots', positive, twice, -⟩ := holds
  have most := int_bounded c.gdata.nSlots (slots_orbit _ slots').1
  unfold MOST at most
  have used := put_used c value positive (by omega)
  have table := found_updated _ (fun v => { v with valOff := c.gdata.nEntries }) name value entries (found_entry c name clean)
    (entry_kept c value positive (by omega)) (fun v x entry => by
      obtain ⟨clean, named, -⟩ := entry_kept c value positive (by omega) v x entry
      refine ⟨clean, named, string_put _ _ _, ?_⟩
      dsimp only
      rw [used]
      omega) i found
  have same : (update name value l).length = l.length := by
    rw [← table.length_eq, List.length_modify, entries.length_eq]
  have used' : (putString { c with vars := c.vars.modify i fun v => { v with valOff :=
    c.gdata.nEntries } } value).gdata.nEntries.toInt
    = c.gdata.nEntries.toInt + (value.length + 1 : Nat) := used
  refine ⟨table, ⟨mem, slots, ?_, ?_⟩, mem', slots', ?_, ?_, ?_⟩
  · rw [same]
    exact number
  · rw [same]
    exact room
  · omega
  · rw [same, used']
    omega
  · rw [used']
    exact inside

theorem entry_added (missing : findVar c name = none) (room : (l.length : Int) + 1 ≤ c.gvars.nSlots.toInt)
    (inside : c.gdata.nEntries.toInt + (name.length + value.length + 2 : Nat) ≤ c.gdata.nSlots.toInt) :
    Holds (putString { putString c name with
        vars := c.vars ++ [⟨c.gdata.nEntries, (putString c name).gdata.nEntries⟩]
        gvars := { c.gvars with nEntries := c.gvars.nEntries + 1 } } value) (update name value l) := by
  obtain ⟨entries, ⟨mem, slots, number, -⟩, mem', slots', positive, twice, -⟩ := holds
  have most := int_bounded c.gdata.nSlots (slots_orbit _ slots').1
  unfold MOST at most
  have used := put_used c name positive (by omega)
  have used' := put_used (putString c name) value (by omega) (by omega)
  have kept := fun v x entry => entry_kept (putString c name) value (by omega) (by omega) v x
    (entry_kept c name positive (by omega) v x entry)
  have named := string_put c.data c.gdata.nEntries.toInt name
  have named' := string_kept _ (putString c name).gdata.nEntries.toInt _ value _ named (by omega)
  have valued := string_put (putString c name).data (putString c name).gdata.nEntries.toInt value
  have count := int_sum c.gvars.nEntries 1 (by omega) (by omega)
  have length : (l ++ [(name, value)]).length = l.length + 1 := List.length_append
  have used'' : (putString { putString c name with
        vars := c.vars ++ [⟨c.gdata.nEntries, (putString c name).gdata.nEntries⟩]
        gvars := { c.gvars with nEntries := c.gvars.nEntries + 1 } } value).gdata.nEntries.toInt
      = (putString c name).gdata.nEntries.toInt + (value.length + 1 : Nat) := used'
  have entry : Entry (putString (putString c name) value).data (putString (putString c name) value).gdata.nEntries.toInt
      ⟨c.gdata.nEntries, (putString c name).gdata.nEntries⟩ (name, value) := by
    refine ⟨clean, ⟨positive, named', ?_⟩, valued, ?_⟩
    · dsimp only
      omega
    · dsimp only
      omega
  rw [missing_appended _ name value entries (found_entry c name clean) missing]
  refine ⟨List.rel_append (entries.imp kept) (.cons entry .nil), ⟨mem, slots, ?_, ?_⟩, mem', slots', ?_, ?_, ?_⟩
  · rw [length]
    push_cast
    rw [← number]
    exact count
  · rw [length]
    exact_mod_cast room
  · rw [used'']
    omega
  · rw [used'', length]
    omega
  · rw [used'']
    exact inside.trans' (by omega)

theorem store_holds (room : (l.length : Int) + 1 ≤ c.gvars.nSlots.toInt)
    (inside : c.gdata.nEntries.toInt + written c name value ≤ c.gdata.nSlots.toInt) :
    Holds (storeVar c name value) (update name value l) := by
  unfold written at inside
  unfold storeVar
  cases found : findVar c name with
  | some i =>
      rw [found, Option.isSome_some, if_pos rfl] at inside
      exact value_changed c l holds name value clean i found inside
  | none =>
      rw [found, Option.isSome_none, if_neg (by decide)] at inside
      exact entry_added c l holds name value clean found room inside

end Storing

theorem any_entry {R : Var → Buffer × Buffer → Prop} (p : Var → Bool) {vars : List Var} {l : List (Buffer × Buffer)}
    (entries : List.Forall₂ R vars l) : ∀ i, vars.findIdx? p = some i → ∃ v x, R v x ∧ p v = true := by
  induction entries with
  | nil => exact fun i found => by cases found
  | cons entry rest ih =>
      rename_i v x vars l
      intro i found
      rw [List.findIdx?_cons] at found
      by_cases here : p v = true
      · exact ⟨v, x, entry, here⟩
      · rw [if_neg here] at found
        obtain ⟨j, later, -⟩ := Option.map_eq_some_iff.mp found
        exact ih j later

-- A name in the table is in the bytes in use.
theorem found_short (c : Settings) (l : List (Buffer × Buffer)) (holds : Holds c l) (name : Buffer) (clean : 0 ∉ name) (i : Nat)
    (found : findVar c name = some i) : (name.length : Int) + 1 ≤ c.gdata.nEntries.toInt := by
  obtain ⟨v, x, entry, same⟩ := any_entry _ holds.entries i found
  have equal := congrArg List.length ((found_entry c name clean v x entry).mp same)
  unfold folded at equal
  rw [List.length_map, List.length_map] at equal
  obtain ⟨-, ⟨low, -, used⟩, -⟩ := entry
  omega

-- One call has room when growbuf reaches what it asks for, or when the sum is so large that it becomes negative, and then only a
-- value is written that the buffer has room for as it is.
def Room (c : Settings) (name value : Buffer) : Prop :=
  c.gdata.nEntries.toInt + (name.length + value.length + 2 : Nat) ≤ MOST
    ∨ 32768 ≤ c.gdata.nEntries.toInt + (name.length + value.length + 2 : Nat) ∧ (findVar c name).isSome
      ∧ c.gdata.nEntries.toInt + (value.length + 1 : Nat) ≤ c.gdata.nSlots.toInt

theorem int_wrapped (a : CInt) (k : Nat) (positive : 0 ≤ a.toInt) (large : 32768 ≤ a.toInt + k) (once : a.toInt + k < 65536) :
    (a + BitVec.ofNat 16 k).toInt < 0 := by
  obtain ⟨value, -⟩ := int_nat a positive
  have sum : (a + BitVec.ofNat 16 k).toNat = a.toNat + k := by
    rw [BitVec.toNat_add, BitVec.toNat_ofNat]
    omega
  rw [BitVec.toInt_eq_toNat_cond, sum, if_neg (by omega)]
  omega

theorem grow_wrapped (malloc : Size → Bool) (c : Settings) (l : List (Buffer × Buffer)) (holds : Holds c l) (k : Nat)
    (large : 32768 ≤ c.gdata.nEntries.toInt + k) (once : c.gdata.nEntries.toInt + k < 65536) (rounds : Nat) :
    growbuf malloc rounds 1 c.gdata (BitVec.ofNat 16 k) = some (true, c.gdata) := by
  obtain ⟨mem, -, positive, -, within⟩ := holds.data
  have negative := int_wrapped c.gdata.nEntries k positive large once
  unfold growbuf
  rw [if_neg (by rw [mem]; decide), if_pos (by omega)]

theorem stored_slots (c : Settings) (name value : Buffer) : (storeVar c name value).gdata.nSlots = c.gdata.nSlots := by
  unfold storeVar
  split <;> rfl

theorem doubled_orbit (wanted : CInt) (rounds : Nat) : ∀ n m : CInt, n.toNat ∈ ORBIT → doubled wanted rounds n = some m →
    m.toNat ∈ ORBIT := by
  induction rounds with
  | zero => exact fun n m _ result => by cases result
  | succ rounds ih =>
      intro n m member result
      rw [doubled] at result
      split at result
      · exact ih _ m (by rw [BitVec.toNat_mul]; exact orbit_doubled n.toNat member) result
      · cases result
        exact member

-- The loop gives the same however many rounds it is allowed.
theorem doubled_same (wanted : CInt) (rounds : Nat) : ∀ rounds' (n m m' : CInt), doubled wanted rounds n = some m →
    doubled wanted rounds' n = some m' → m = m' := by
  induction rounds with
  | zero => exact fun _ _ _ _ result => by cases result
  | succ rounds ih =>
      intro rounds' n m m' result result'
      cases rounds' with
      | zero => cases result'
      | succ rounds' =>
          rw [doubled] at result result'
          split at result
          · rename_i less
            rw [if_pos less] at result'
            exact ih rounds' _ m m' result result'
          · rename_i enough
            rw [if_neg enough] at result'
            cases result
            cases result'
            rfl

theorem growbuf_same (malloc : Size → Bool) (rounds rounds' : Nat) (size : Size) (buf : GrowBuf) (newSlots : CInt)
    (x x' : Bool × GrowBuf) (result : growbuf malloc rounds size buf newSlots = some x)
    (result' : growbuf malloc rounds' size buf newSlots = some x') : x = x' := by
  unfold growbuf at result result'
  by_cases none : buf.mem = false
  · rw [if_pos none] at result result'
    exact Option.some.inj (result.symm.trans result')
  · rw [if_neg none] at result result'
    by_cases fits : (buf.nEntries + newSlots).toInt ≤ buf.nSlots.toInt
    · rw [if_pos fits] at result result'
      exact Option.some.inj (result.symm.trans result')
    · rw [if_neg fits] at result result'
      obtain ⟨n, twice, rfl⟩ := Option.map_eq_some_iff.mp result
      obtain ⟨n', twice', rfl⟩ := Option.map_eq_some_iff.mp result'
      rw [doubled_same _ rounds rounds' _ n n' twice twice']

-- No buffer of bytes is ever larger than MOST.
theorem growbuf_most (malloc : Size → Bool) (rounds : Nat) (buf : GrowBuf) (newSlots : CInt) (buf' : GrowBuf) (mem : buf.mem = true)
    (member : buf.nSlots.toNat ∈ DATA_SLOTS) (result : growbuf malloc rounds 1 buf newSlots = some (true, buf')) :
    buf'.nSlots.toInt ≤ MOST := by
  obtain ⟨orbit, -⟩ := slots_orbit _ member
  unfold growbuf at result
  rw [if_neg (by rw [mem]; decide)] at result
  by_cases fits : (buf.nEntries + newSlots).toInt ≤ buf.nSlots.toInt
  · rw [if_pos fits] at result
    cases result
    exact int_bounded _ orbit
  · rw [if_neg fits] at result
    obtain ⟨n, twice, result⟩ := Option.map_eq_some_iff.mp result
    split at result
    · cases result
      exact int_bounded n (doubled_orbit _ _ _ n orbit twice)
    · cases result

section Calling

variable (malloc : Size → Bool) (grants : Grants malloc) (c : Settings) (l : List (Buffer × Buffer)) (holds : Holds c l)
  (name value : Buffer) (clean : 0 ∉ name)

include holds clean

theorem wrapped_once (found : (findVar c name).isSome) (inside : c.gdata.nEntries.toInt + (value.length + 1 : Nat) ≤ MOST) :
    c.gdata.nEntries.toInt + (name.length + value.length + 2 : Nat) < 65536 := by
  obtain ⟨i, found⟩ := Option.isSome_iff_exists.mp found
  have short := found_short c l holds name clean i found
  unfold MOST at inside
  omega

include grants

theorem grow_room (room : Room c name value) :
    ∃ slots : CInt, growbuf malloc ROUNDS 1 c.gdata (BitVec.ofNat 16 (name.length + value.length + 2))
        = some (true, { c.gdata with nSlots := slots })
      ∧ slots.toNat ∈ DATA_SLOTS ∧ c.gdata.nEntries.toInt ≤ slots.toInt
        ∧ c.gdata.nEntries.toInt + written c name value ≤ slots.toInt := by
  obtain least | ⟨large, found, inside⟩ := room
  · obtain ⟨slots, result, member, enough⟩ := grow_data malloc grants c l holds _ least
    refine ⟨slots, result, member, by omega, ?_⟩
    unfold written
    split <;> omega
  · obtain ⟨-, member, -, -, within⟩ := holds.data
    have most := int_bounded c.gdata.nSlots (slots_orbit _ member).1
    refine ⟨c.gdata.nSlots, grow_wrapped malloc c l holds _ large (wrapped_once c l holds name value clean found (by omega)) _,
      member,
      within, ?_⟩
    unfold written
    rw [if_pos found]
    exact inside

theorem set_holds (room : Room c name value) :
    ∃ c', setVar malloc ROUNDS c name value = some (true, c') ∧ Inside c name value c' ∧ Holds c' (update name value l) := by
  obtain ⟨-, member, positive, twice, within⟩ := holds.data
  have most := int_bounded c.gdata.nSlots (slots_orbit _ member).1
  unfold MOST at most
  obtain ⟨varSlots, grown, varMember, more⟩ := grow_vars malloc grants c l holds (by omega)
  obtain ⟨slots, grown', member', enough, inside⟩ := grow_room malloc grants c l holds name value clean room
  have holds' : Holds { c with gvars := { c.gvars with nSlots := varSlots }, gdata := { c.gdata with nSlots := slots } } l :=
    ⟨holds.entries, ⟨holds.vars.1, varMember, holds.vars.2.2.1, by dsimp only; omega⟩, holds.data.1, member', positive, twice,
      enough⟩
  have result : setVar malloc ROUNDS c name value = some (true, storeVar
      { c with gvars := { c.gvars with nSlots := varSlots }, gdata := { c.gdata with nSlots := slots } } name value) := by
    unfold setVar
    rw [grown, Option.bind_some]
    dsimp only
    rw [if_neg (by decide), grown']
    rfl
  refine ⟨_, result, ?_, ?_⟩
  · unfold Inside
    rw [stored_slots]
    exact inside
  · exact store_holds _ l holds' name value clean more inside

omit grants holds clean in
-- What a call that returns 1 has been given.
theorem set_parts (rounds : Nat) (c' : Settings) (result : setVar malloc rounds c name value = some (true, c')) :
    ∃ gvars gdata, growbuf malloc rounds SIZEOF_VAR c.gvars 1 = some (true, gvars)
      ∧ growbuf malloc rounds 1 c.gdata (BitVec.ofNat 16 (name.length + value.length + 2)) = some (true, gdata)
      ∧ c' = storeVar { c with gvars := gvars, gdata := gdata } name value := by
  unfold setVar at result
  obtain ⟨⟨ok, gvars⟩, grown, result⟩ := Option.bind_eq_some_iff.mp result
  dsimp only at result
  cases ok with
  | false => cases result
  | true =>
      rw [if_neg (by decide)] at result
      obtain ⟨⟨ok', gdata⟩, grown', result⟩ := Option.map_eq_some_iff.mp result
      cases ok' with
      | false => cases result
      | true =>
          cases result
          exact ⟨gvars, gdata, grown, grown', rfl⟩

omit grants in
theorem set_room (rounds : Nat) (c' : Settings) (result : setVar malloc rounds c name value = some (true, c'))
    (inside : Inside c name value c') : Room c name value := by
  obtain ⟨gvars, gdata, -, grown, rfl⟩ := set_parts malloc c name value rounds c' result
  obtain ⟨mem, member, -, -, within⟩ := holds.data
  have most := growbuf_most malloc rounds c.gdata _ gdata mem member grown
  unfold Inside at inside
  rw [stored_slots] at inside
  by_cases least : c.gdata.nEntries.toInt + (name.length + value.length + 2 : Nat) ≤ MOST
  · exact .inl least
  · by_cases large : 32768 ≤ c.gdata.nEntries.toInt + (name.length + value.length + 2 : Nat)
    · unfold written at inside
      by_cases found : (findVar c name).isSome
      · rw [if_pos found] at inside
        have once := wrapped_once c l holds name value clean found (inside.trans most)
        rw [grow_wrapped malloc c l holds _ large once rounds] at grown
        cases grown
        exact .inr ⟨large, found, inside⟩
      · rw [if_neg found] at inside
        have narrow := inside.trans most
        unfold MOST at narrow
        omega
    · rw [grow_stuck malloc c l holds _ (not_le.mp least) (not_le.mp large) rounds] at grown
      cases grown

end Calling

-- Calls of gs_setvstr, one after the other: each comes back with 1, writes inside the buffer and changes what the name stands for.
def Follows (malloc : Size → Bool) : (Buffer → Buffer) → Settings → List (Buffer × Buffer) → Prop
  | _, _, [] => True
  | map, c, (name, value) :: calls =>
      ∃ rounds c', gsSetvstr malloc rounds c name value = some (true, c') ∧ Inside c name value c'
        ∧ GetsAll c' (assign map name value) ∧ Follows malloc (assign map name value) c' calls

def Fits (malloc : Size → Bool) : Settings → List (Buffer × Buffer) → Prop
  | _, [] => True
  | c, (name, value) :: calls =>
      Room c name value ∧ ∀ rounds c', gsSetvstr malloc rounds c name value = some (true, c') → Fits malloc c' calls

theorem set_same (malloc : Size → Bool) (c : Settings) (name value : Buffer) (rounds rounds' : Nat) (c' c'' : Settings)
    (result : gsSetvstr malloc rounds c name value = some (true, c'))
    (result' : gsSetvstr malloc rounds' c name value = some (true, c'')) : c' = c'' := by
  obtain ⟨gvars, gdata, grown, grown', rfl⟩ := set_parts malloc c name value rounds c' result
  obtain ⟨gvars', gdata', again, again', rfl⟩ := set_parts malloc c name value rounds' c'' result'
  cases growbuf_same malloc rounds rounds' _ _ _ _ _ grown again
  cases growbuf_same malloc rounds rounds' _ _ _ _ _ grown' again'
  rfl

theorem follows_iff (malloc : Size → Bool) (grants : Grants malloc) (calls : List (Buffer × Buffer)) :
    ∀ c l, Holds c l → (∀ x ∈ calls, 0 ∉ x.1 ∧ 0 ∉ x.2) → (Follows malloc (lookup l) c calls ↔ Fits malloc c calls) := by
  induction calls with
  | nil => exact fun _ _ _ _ => Iff.rfl
  | cons call calls ih =>
      intro c l holds clean
      obtain ⟨name, value⟩ := call
      obtain ⟨⟨nameClean, -⟩, later⟩ := List.forall_mem_cons.mp clean
      have after : ∀ rounds c', gsSetvstr malloc rounds c name value = some (true, c') → Room c name value →
          Holds c' (update name value l) := by
        intro rounds c' result room
        obtain ⟨c'', result', -, holds'⟩ := set_holds malloc grants c l holds name value nameClean room
        rwa [set_same malloc c name value rounds ROUNDS c' c'' result result']
      constructor
      · rintro ⟨rounds, c', result, inside, -, follows⟩
        have room := set_room malloc c l holds name value nameClean rounds c' result inside
        refine ⟨room, fun rounds' c'' result' => ?_⟩
        rw [set_same malloc c name value rounds' rounds c'' c' result' result]
        rw [← lookup_update] at follows
        exact (ih c' _ (after rounds c' result room) later).mp follows
      · rintro ⟨room, fits⟩
        obtain ⟨c', result, inside, holds'⟩ := set_holds malloc grants c l holds name value nameClean room
        refine ⟨ROUNDS, c', result, inside, ?_, ?_⟩
        · rw [← lookup_update]
          exact holds_gets c' _ holds'
        · rw [← lookup_update]
          exact (ih c' _ holds' later).mpr (fits ROUNDS c' result)

end MagxNet.Conf
