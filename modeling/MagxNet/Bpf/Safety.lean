import MagxNet.Bpf.Filter

set_option autoImplicit false

namespace MagxNet.Bpf

open Bytes

section

variable (prog : List Insn) (p : List Byte) (wirelen : Word)

theorem exec_add (n m : Nat) (vm : Vm) :
    exec prog p wirelen (n + m) vm =
      match exec prog p wirelen n vm with
      | .go vm => exec prog p wirelen m vm
      | ended => ended := by
  induction n generalizing vm with
  | zero =>
      rw [Nat.zero_add]
      rfl
  | succ n ih =>
      rw [Nat.succ_add, exec, exec]
      cases step prog p wirelen vm with
      | ret value => rfl
      | fault => rfl
      | go vm => exact ih vm

-- A run that ends with a value does so however long it is watched.
theorem exec_ret_stable (n m : Nat) (vm : Vm) (value : Word) (ended : exec prog p wirelen n vm = .ret value) :
    exec prog p wirelen m vm = .ret value ∨ ∃ later, exec prog p wirelen m vm = .go later := by
  obtain ⟨k, rfl⟩ | ⟨k, rfl⟩ := (Nat.le_total n m).imp Nat.exists_eq_add_of_le Nat.exists_eq_add_of_le
  · rw [exec_add, ended]
    exact Or.inl rfl
  · rw [exec_add] at ended
    cases early : exec prog p wirelen m vm with
    | go later => exact Or.inr ⟨later, rfl⟩
    | ret value' =>
        rw [early] at ended
        exact Or.inl ended
    | fault =>
        rw [early] at ended
        cases ended

-- The instruction that the run meets after n others.
def Meets (vm : Vm) (n : Nat) (at' : Vm) (insn : Insn) : Prop :=
  exec prog p wirelen n vm = .go at' ∧ fetch prog at'.pc = some insn

-- A word or half word whose offset wraps around to within the packet when its size is added.
def wraps (size : Size) (k : Word) : Prop :=
  size ≠ .b ∧ 2 ^ 32 ≤ k.toNat + size.bytes ∧ k.toNat + size.bytes ≤ 2 ^ 32 + p.length

-- What bpf_validate lets through and bpf_filter does not check either.
def Overruns (vm : Vm) (insn : Insn) : Prop :=
  match decode insn.code with
  | some .ja => vm.pc + 1 + jumpOffset insn.k < 0 ∨ prog.length ≤ vm.pc + 1 + jumpOffset insn.k
  | some .ldxMem | some .stx => BPF_MEMWORDS ≤ memIndex insn.k
  | some (.ldAbs size) => wraps p size insn.k
  | some (.ldInd size) => wraps p size (vm.x + insn.k)
  | _ => False

def JumpsBack (insn : Insn) : Prop := decode insn.code = some .ja ∧ jumpOffset insn.k < 0

-- The run ends within as many instructions as the program has, and accesses nothing that it must not.
def Safe (vm : Vm) : Prop := ∃ value, exec prog p wirelen prog.length vm = .ret value

theorem decode_cases (code : Code) (instr : Instr) (found : decode code = some instr) : (code, instr) ∈ cases := by
  unfold decode at found
  obtain ⟨c, first, rfl⟩ := Option.map_eq_some_iff.mp found
  have member := List.mem_of_find?_eq_some first
  have same := List.find?_some first
  rw [← (beq_iff_eq.mp same)]
  exact member

theorem fetch_inside (pc : Int) (insn : Insn) (found : fetch prog pc = some insn) :
    0 ≤ pc ∧ pc < prog.length ∧ prog[pc.toNat]? = some insn := by
  unfold fetch at found
  split at found
  · cases found
  · have inside := (List.getElem?_eq_some_iff.mp found).1
    exact ⟨by omega, by omega, found⟩

theorem valid_insn (before : Insn) (valid : bpfValidate before prog) (i : Nat) (insn : Insn)
    (found : prog[i]? = some insn) : insnOk prog.length i insn := by
  unfold bpfValidate at valid
  rw [Bool.and_eq_true, List.all_eq_true] at valid
  have inside := (List.getElem?_eq_some_iff.mp found)
  refine valid.1 (insn, i) ?_
  rw [List.mem_zipIdx_iff_getElem?]
  exact found

-- The last instruction is a return, or unknown, which returns as well.
theorem valid_last (before : Insn) (valid : bpfValidate before prog) (i : Nat) (insn : Insn)
    (found : prog[i]? = some insn) (last : i + 1 = prog.length) : bpfClass insn.code = BPF_RET := by
  unfold bpfValidate at valid
  rw [Bool.and_eq_true] at valid
  have atEnd : prog.getLast? = some insn := by
    rw [List.getLast?_eq_getElem?, ← last]
    exact found
  rw [atEnd] at valid
  simpa using valid.2

theorem return_decodes (insn : Insn) (instr : Instr) (returns : bpfClass insn.code = BPF_RET)
    (found : decode insn.code = some instr) : instr = .retK ∨ instr = .retA := by
  have member := decode_cases _ _ found
  have all : ∀ c ∈ cases, bpfClass c.1 = BPF_RET → c.2 = .retK ∨ c.2 = .retA := by decide
  exact all _ member returns

theorem jump_class (insn : Insn) (test : Test) (src : Src) (found : decode insn.code = some (.jump test src)) :
    bpfClass insn.code = BPF_JMP ∧ bpfOp insn.code ≠ BPF_JA := by
  have member := decode_cases _ _ found
  have all : ∀ c ∈ cases, (∃ test src, c.2 = .jump test src) → bpfClass c.1 = BPF_JMP ∧ bpfOp c.1 ≠ BPF_JA := by
    intro c inside
    fin_cases inside <;> first | (rintro ⟨test, src, same⟩; cases same; decide) | (rintro ⟨test, src, same⟩; cases same)
  exact all _ member ⟨test, src, rfl⟩

theorem mem_checked (insn : Insn) (instr : Instr) (found : decode insn.code = some instr)
    (uses : instr = .ldMem ∨ instr = .st) (ok : memOk insn) : memIndex insn.k < BPF_MEMWORDS := by
  have member := decode_cases _ _ found
  have all : ∀ c ∈ cases, c.2 = .ldMem ∨ c.2 = .st →
      bpfClass c.1 = BPF_ST ∨ bpfClass c.1 = BPF_LD ∧ bpfMode c.1 = BPF_MEM := by decide
  have checked := all _ member uses
  unfold memOk at ok
  rw [BitVec.toInt_eq_toNat_cond] at ok
  have small := insn.k.isLt
  have inside : (0 ≤ (if 2 * insn.k.toNat < 2 ^ 32 then (insn.k.toNat : Int) else insn.k.toNat - (2 ^ 32 : Nat)))
      ∧ (if 2 * insn.k.toNat < 2 ^ 32 then (insn.k.toNat : Int) else insn.k.toNat - (2 ^ 32 : Nat)) < BPF_MEMWORDS := by
    obtain store | ⟨load, mode⟩ := checked
    · simpa [store] using ok
    · simpa [load, mode] using ok
  unfold memIndex
  rw [BitVec.toNat_setWidth]
  split at inside <;> omega

theorem div_checked (insn : Insn) (found : decode insn.code = some (.alu .div .k)) (ok : divOk insn) : insn.k ≠ 0 := by
  have member := decode_cases _ _ found
  have all : ∀ c ∈ cases, c.2 = .alu .div .k → c.1 = BPF_ALU ||| BPF_DIV ||| BPF_K := by decide
  have code := all _ member rfl
  unfold divOk at ok
  simpa [show insn.code = _ from code] using ok

theorem load_goes (vm : Vm) (size : Size) (k : Word) (short : p.length < 2 ^ 31) (sound : ¬ wraps p size k) :
    (∃ value, loadAt p vm size k = .ret value) ∨ ∃ value, loadAt p vm size k = .go (vm.setA value) := by
  unfold loadAt
  split
  · exact Or.inl ⟨0, rfl⟩
  · rename_i inRange
    have small := k.isLt
    have length : (BitVec.ofNat 32 p.length).toNat = p.length := by
      rw [BitVec.toNat_ofNat]
      omega
    have inside : k.toNat + size.bytes ≤ p.length := by
      cases size with
      | b =>
          unfold outOfRange at inRange
          simp only [decide_eq_true_eq, BitVec.not_le, BitVec.lt_def, length] at inRange
          exact inRange
      | w | h =>
          dsimp only [outOfRange] at inRange
          rw [decide_eq_true_eq, BitVec.not_lt, BitVec.le_def, length, BitVec.toNat_add, BitVec.toNat_ofNat] at inRange
          simp only [Size.bytes] at inRange
          unfold wraps at sound
          simp only [ne_eq, reduceCtorEq, not_false_eq_true, true_and, Size.bytes, not_and, not_le] at sound ⊢
          omega
    right
    unfold extract
    rw [if_pos inside]
    exact ⟨_, rfl⟩

theorem load_wraps (vm : Vm) (size : Size) (k : Word) (short : p.length < 2 ^ 31) (wrap : wraps p size k) :
    loadAt p vm size k = .fault := by
  obtain ⟨wide, high, low⟩ := wrap
  have small := k.isLt
  have length : (BitVec.ofNat 32 p.length).toNat = p.length := by
    rw [BitVec.toNat_ofNat]
    omega
  have passes : outOfRange size (BitVec.ofNat 32 p.length) k = false := by
    cases size with
    | b => exact (wide rfl).elim
    | w | h =>
        unfold outOfRange
        simp only [decide_eq_false_iff_not, BitVec.not_lt, BitVec.le_def, length, BitVec.toNat_add, BitVec.toNat_ofNat]
        simp only [Size.bytes] at high low ⊢
        omega
  have beyond : ¬ k.toNat + size.bytes ≤ p.length := by omega
  unfold loadAt extract
  rw [if_neg (by rw [passes]; exact Bool.false_ne_true), if_neg beyond]

theorem msh_goes (vm : Vm) (k : Word) (short : p.length < 2 ^ 31) :
    (∃ value, loadMsh p vm k = .ret value) ∨ ∃ value, loadMsh p vm k = .go (vm.setX value) := by
  unfold loadMsh
  split
  · exact Or.inl ⟨0, rfl⟩
  · rename_i inRange
    have length : (BitVec.ofNat 32 p.length).toNat = p.length := by
      rw [BitVec.toNat_ofNat]
      omega
    rw [BitVec.not_le, BitVec.lt_def, length] at inRange
    right
    unfold extract
    rw [if_pos (by exact inRange)]
    exact ⟨_, rfl⟩

theorem alu_goes (vm : Vm) (insn : Insn) (op : Alu) (src : Src) (nonzero : op = .div → src = .k → insn.k ≠ 0) :
    (∃ value, aluNext vm insn op src = .ret value) ∨ ∃ value, aluNext vm insn op src = .go (vm.setA value) := by
  unfold aluNext
  split
  · rename_i zero
    cases src with
    | x => exact Or.inl ⟨0, rfl⟩
    | k => exact (nonzero zero.1 rfl zero.2).elim
  · exact Or.inr ⟨_, rfl⟩

theorem mem_at (k : Word) (inside : memIndex k < BPF_MEMWORDS) : memAt k = some ⟨memIndex k, inside⟩ := dif_pos inside

theorem mem_none (k : Word) (outside : BPF_MEMWORDS ≤ memIndex k) : memAt k = none := dif_neg (Nat.not_lt.mpr outside)

-- An instruction that is none of those ends the run, or goes on further down in the program.
def Forward (vm : Vm) (next : Next) : Prop :=
  (∃ value, next = .ret value) ∨ ∃ later, next = .go later ∧ vm.pc < later.pc ∧ later.pc < prog.length

theorem step_goes (before : Insn) (valid : bpfValidate before prog) (short : p.length < 2 ^ 31)
    (limit : prog.length ≤ BPF_MAXINSNS) (vm : Vm) (insn : Insn) (met : fetch prog vm.pc = some insn)
    (sound : ¬ Overruns prog p vm insn) (forward : ¬ JumpsBack insn) :
    Forward prog vm (step prog p wirelen vm) := by
  obtain ⟨low, high, here⟩ := fetch_inside prog vm.pc insn met
  have ok := valid_insn prog before valid _ insn here
  unfold insnOk at ok
  rw [Bool.and_eq_true, Bool.and_eq_true] at ok
  obtain ⟨⟨jumps, mems⟩, divs⟩ := ok
  have last := valid_last prog before valid _ insn here
  unfold step
  rw [met]
  dsimp only
  cases found : decode insn.code with
  | none => exact Or.inl ⟨0, rfl⟩
  | some instr =>
      dsimp only [Option.elim_some]
      -- Whatever is not a return has an instruction behind it.
      have inside : instr ≠ .retK → instr ≠ .retA → vm.pc + 1 < prog.length := by
        intro notK notA
        by_contra atEnd
        obtain same | same := return_decodes insn instr (last (by omega)) found
        · exact notK same
        · exact notA same
      have goes : ∀ later : Vm, later.pc = vm.pc + 1 → instr ≠ .retK → instr ≠ .retA → Forward prog vm (.go later) := by
        intro later pc notK notA
        have room := inside notK notA
        exact Or.inr ⟨later, rfl, by omega, by omega⟩
      unfold Overruns at sound
      rw [found] at sound
      cases instr with
      | retK => exact Or.inl ⟨insn.k, rfl⟩
      | retA => exact Or.inl ⟨vm.a, rfl⟩
      | ldAbs size =>
          obtain ⟨value, ended⟩ | ⟨value, loaded⟩ := load_goes p vm size insn.k short sound
          · exact Or.inl ⟨value, ended⟩
          · rw [execInstr, loaded]
            exact goes _ rfl (by simp) (by simp)
      | ldInd size =>
          obtain ⟨value, ended⟩ | ⟨value, loaded⟩ := load_goes p vm size (vm.x + insn.k) short sound
          · exact Or.inl ⟨value, ended⟩
          · rw [execInstr, loaded]
            exact goes _ rfl (by simp) (by simp)
      | ldLen => exact goes _ rfl (by simp) (by simp)
      | ldxLen => exact goes _ rfl (by simp) (by simp)
      | ldxMsh =>
          obtain ⟨value, ended⟩ | ⟨value, loaded⟩ := msh_goes p vm insn.k short
          · exact Or.inl ⟨value, ended⟩
          · rw [execInstr, loaded]
            exact goes _ rfl (by simp) (by simp)
      | ldImm => exact goes _ rfl (by simp) (by simp)
      | ldxImm => exact goes _ rfl (by simp) (by simp)
      | ldMem =>
          rw [execInstr, mem_at _ (mem_checked insn _ found (Or.inl rfl) mems)]
          exact goes _ rfl (by simp) (by simp)
      | ldxMem =>
          rw [execInstr, mem_at _ (Nat.not_le.mp sound)]
          exact goes _ rfl (by simp) (by simp)
      | st =>
          rw [execInstr, mem_at _ (mem_checked insn _ found (Or.inr rfl) mems)]
          exact goes _ rfl (by simp) (by simp)
      | stx =>
          rw [execInstr, mem_at _ (Nat.not_le.mp sound)]
          exact goes _ rfl (by simp) (by simp)
      | ja =>
          have ahead : 0 ≤ jumpOffset insn.k := by
            by_contra back
            exact forward ⟨found, by omega⟩
          dsimp only at sound
          exact Or.inr ⟨_, rfl, by simp only [Vm.jump]; omega, by simp only [Vm.jump]; omega⟩
      | jump test src =>
          obtain ⟨jump, notJa⟩ := jump_class insn test src found
          rw [Bool.or_eq_true, decide_eq_true_eq] at jumps
          obtain targets := jumps.resolve_left (not_not.mpr jump)
          unfold jumpOk at targets
          rw [if_neg notJa, Bool.and_eq_true, decide_eq_true_eq, decide_eq_true_eq] at targets
          have range : ∀ b : BitVec 8, (BitVec.ofNat 32 (vm.pc.toNat + 1) + b.setWidth 32).toInt = vm.pc + 1 + b.toNat := by
            intro b
            have small := b.isLt
            have limit' : prog.length ≤ 512 := limit
            rw [BitVec.toInt_eq_toNat_of_lt] <;>
              rw [BitVec.toNat_add, BitVec.toNat_setWidth, BitVec.toNat_ofNat] <;> omega
          rw [range, range] at targets
          refine Or.inr ⟨_, rfl, ?_, ?_⟩ <;> simp only [Vm.jump] <;> split <;> omega
      | alu op src =>
          have nonzero : op = .div → src = .k → insn.k ≠ 0 := by
            rintro rfl rfl
            exact div_checked insn found divs
          obtain ⟨value, ended⟩ | ⟨value, computed⟩ := alu_goes vm insn op src nonzero
          · exact Or.inl ⟨value, ended⟩
          · rw [execInstr, computed]
            exact goes _ rfl (by simp) (by simp)
      | neg => exact goes _ rfl (by simp) (by simp)
      | tax => exact goes _ rfl (by simp) (by simp)
      | txa => exact goes _ rfl (by simp) (by simp)

-- One that is among those is the end of the program's good behaviour.
theorem overrun_faults (short : p.length < 2 ^ 31) (vm : Vm) (insn : Insn) (met : fetch prog vm.pc = some insn)
    (bad : Overruns prog p vm insn) : exec prog p wirelen 2 vm = .fault := by
  have faults : step prog p wirelen vm = .fault → exec prog p wirelen 2 vm = .fault := by
    intro fault
    rw [exec, fault]
  unfold Overruns at bad
  cases found : decode insn.code with
  | none =>
      rw [found] at bad
      exact bad.elim
  | some instr =>
      rw [found] at bad
      have stepped : step prog p wirelen vm = execInstr p wirelen vm insn instr := by
        unfold step
        rw [met]
        dsimp only
        rw [found]
        rfl
      cases instr with
      | ja =>
          have outside : fetch prog (vm.jump (jumpOffset insn.k)).pc = none := by
            change fetch prog (vm.pc + 1 + jumpOffset insn.k) = none
            unfold fetch
            split
            · rfl
            · exact List.getElem?_eq_none (by dsimp only at bad; omega)
          have beyond : step prog p wirelen (vm.jump (jumpOffset insn.k)) = .fault := by
            unfold step
            rw [outside]
          rw [exec, stepped]
          dsimp only [execInstr]
          rw [exec, beyond]
      | ldxMem =>
          refine faults (stepped.trans ?_)
          rw [execInstr, mem_none _ bad]
          rfl
      | stx =>
          refine faults (stepped.trans ?_)
          rw [execInstr, mem_none _ bad]
          rfl
      | ldAbs size => exact faults (stepped.trans (load_wraps p vm size _ short bad))
      | ldInd size => exact faults (stepped.trans (load_wraps p vm size _ short bad))
      | _ => exact bad.elim

theorem safe_inside (short : p.length < 2 ^ 31) (vm : Vm) (safe : Safe prog p wirelen vm) (n : Nat) (at' : Vm)
    (insn : Insn) (met : Meets prog p wirelen vm n at' insn) : ¬ Overruns prog p at' insn := by
  intro bad
  obtain ⟨value, ended⟩ := safe
  obtain ⟨ran, fetched⟩ := met
  have fault : exec prog p wirelen (n + 2) vm = .fault := by
    rw [exec_add, ran]
    exact overrun_faults prog p wirelen short at' insn fetched bad
  have stable := exec_ret_stable prog p wirelen _ (n + 2) vm value ended
  rw [fault] at stable
  obtain same | ⟨later, same⟩ := stable <;> cases same

theorem safe_nonempty (vm : Vm) (safe : Safe prog p wirelen vm) : prog ≠ [] := by
  rintro rfl
  obtain ⟨value, ended⟩ := safe
  cases ended

-- The program counter has passed an instruction for every one that was executed.
theorem runs_down (before : Insn) (valid : bpfValidate before prog) (short : p.length < 2 ^ 31)
    (limit : prog.length ≤ BPF_MAXINSNS) (some' : prog ≠ []) (mem : Fin BPF_MEMWORDS → Word)
    (sound : ∀ n vm insn, Meets prog p wirelen (start mem) n vm insn → ¬ Overruns prog p vm insn ∧ ¬ JumpsBack insn)
    (n : Nat) :
    (∃ value, exec prog p wirelen n (start mem) = .ret value)
      ∨ ∃ vm, exec prog p wirelen n (start mem) = .go vm ∧ n ≤ vm.pc ∧ vm.pc < prog.length := by
  induction n with
  | zero =>
      have inside := List.length_pos_iff.mpr some'
      exact Or.inr ⟨start mem, rfl, Int.le_refl 0, Int.natCast_pos.mpr inside⟩
  | succ n ih =>
      rw [exec_add]
      obtain ⟨value, ended⟩ | ⟨vm, ran, passed, high⟩ := ih
      · rw [ended]
        exact Or.inl ⟨value, rfl⟩
      · have here : fetch prog vm.pc = some (prog.get ⟨vm.pc.toNat, by omega⟩) := by
          unfold fetch
          rw [if_neg (by omega)]
          exact List.getElem?_eq_getElem _
        obtain ⟨inside, ahead⟩ := sound n vm _ ⟨ran, here⟩
        have goes := step_goes prog p wirelen before valid short limit vm _ here inside ahead
        rw [ran]
        dsimp only [exec]
        obtain ⟨value, ended⟩ | ⟨later, went, further, below⟩ := goes
        · rw [ended]
          exact Or.inl ⟨value, rfl⟩
        · rw [went]
          exact Or.inr ⟨later, rfl, by push_cast; omega, below⟩

theorem safe_of_sound (before : Insn) (valid : bpfValidate before prog) (short : p.length < 2 ^ 31)
    (limit : prog.length ≤ BPF_MAXINSNS) (some' : prog ≠ []) (mem : Fin BPF_MEMWORDS → Word)
    (sound : ∀ n vm insn, Meets prog p wirelen (start mem) n vm insn → ¬ Overruns prog p vm insn ∧ ¬ JumpsBack insn) :
    Safe prog p wirelen (start mem) := by
  obtain ended | ⟨vm, -, passed, high⟩ := runs_down prog p wirelen before valid short limit some' mem sound prog.length
  · exact ended
  · omega

theorem installed_valid (kmalloc : Bool) (before : Insn) (old : Option (List Insn)) (request : BpfProgram)
    (installed : bpfSfilter kmalloc before old request = (0, some prog)) :
    prog.length ≤ BPF_MAXINSNS ∧ bpfValidate before prog := by
  unfold bpfSfilter at installed
  cases found : request.bfInsns with
  | none =>
      rw [found] at installed
      dsimp only at installed
      split at installed <;> simp [EINVAL] at installed
  | some insns =>
      rw [found] at installed
      dsimp only at installed
      split at installed
      · simp [EINVAL] at installed
      · rename_i few
        split at installed
        · simp [ENOMEM] at installed
        · split at installed
          · rename_i valid
            have same := Option.some.inj (congrArg Prod.snd installed)
            subst same
            exact ⟨by simpa [copied] using few, valid⟩
          · simp [EINVAL] at installed

theorem filter_safety (kmalloc : Bool) (before : Insn) (old : Option (List Insn)) (request : BpfProgram)
    (installed : bpfSfilter kmalloc before old request = (0, some prog)) (short : p.length < 2 ^ 31)
    (mem : Fin BPF_MEMWORDS → Word) :
    (prog ≠ [] → (∀ n vm insn, Meets prog p (BitVec.ofNat 32 p.length) (start mem) n vm insn →
        ¬ Overruns prog p vm insn ∧ ¬ JumpsBack insn) → Safe prog p (BitVec.ofNat 32 p.length) (start mem))
      ∧ (Safe prog p (BitVec.ofNat 32 p.length) (start mem) → prog ≠ []
        ∧ ∀ n vm insn, Meets prog p (BitVec.ofNat 32 p.length) (start mem) n vm insn → ¬ Overruns prog p vm insn) := by
  obtain ⟨limit, valid⟩ := installed_valid prog kmalloc before old request installed
  constructor
  · intro some' sound
    exact safe_of_sound prog p _ before valid short limit some' mem sound
  · intro safe
    exact ⟨safe_nonempty prog p _ _ safe, safe_inside prog p _ short _ safe⟩

end

def sampled : List Insn := [⟨BPF_LD ||| BPF_H ||| BPF_ABS, 0, 0, 12⟩, ⟨BPF_JMP ||| BPF_JEQ ||| BPF_K, 0, 1, 0x800⟩,
  ⟨BPF_RET ||| BPF_K, 0, 0, 96⟩, ⟨BPF_RET ||| BPF_K, 0, 0, 0⟩]

def request (prog : List Insn) : BpfProgram := ⟨BitVec.ofNat 32 prog.length, some fun i => prog.getD i ⟨0, 0, 0, 0⟩⟩

-- An accepted filter for IP over Ethernet.
theorem filter_safety_sampled :
    Safe sampled (List.replicate 12 0 ++ [8, 0]) 14 (start fun _ => 0) :=
  (filter_safety sampled (List.replicate 12 0 ++ [8, 0]) true ⟨0, 0, 0, 0⟩ none (request sampled) (by decide +kernel)
    (by decide) (fun _ => 0)).1 (by decide) (by
      intro n vm insn met
      have member := List.mem_of_getElem? (fetch_inside _ _ _ met.2).2.2
      have known : ∀ i ∈ sampled, decode i.code = some (.ldAbs .h) ∧ i.k = 12 ∨ decode i.code = some (.jump .eq .k)
          ∨ decode i.code = some .retK := by decide +kernel
      unfold Overruns JumpsBack wraps
      obtain ⟨loads, offset⟩ | jumps | returns := known insn member
      · rw [loads, offset]
        exact ⟨fun wrap => absurd wrap.2.1 (by decide), by simp⟩
      · rw [jumps]
        exact ⟨not_false, by simp⟩
      · rw [returns]
        exact ⟨not_false, by simp⟩)

def returns : Next → Bool
  | .ret _ => true
  | _ => false

-- STX to mem[20], a jump onto itself and a word load just before the packet are all installed.
def overrunning : List (List Insn) := [[⟨BPF_STX, 0, 0, 20⟩, ⟨BPF_RET, 0, 0, 0⟩], [⟨BPF_JMP ||| BPF_JA, 0, 0, -1⟩, ⟨BPF_RET, 0, 0, 0⟩],
  [⟨BPF_LD ||| BPF_W ||| BPF_ABS, 0, 0, -2⟩, ⟨BPF_RET, 0, 0, 0⟩]]

theorem overrunning_installed (prog : List Insn) (member : prog ∈ overrunning) :
    bpfSfilter true ⟨0, 0, 0, 0⟩ none (request prog) = (0, some prog) ∧ ¬ Safe prog (List.replicate 60 0) 60 (start fun _ => 0) := by
  have facts : ∀ prog ∈ overrunning, bpfSfilter true ⟨0, 0, 0, 0⟩ none (request prog) = (0, some prog) ∧
      returns (exec prog (List.replicate 60 0) 60 prog.length (start fun _ => 0)) = false := by
    decide +kernel
  obtain ⟨installed, bad⟩ := facts prog member
  refine ⟨installed, ?_⟩
  rintro ⟨value, ended⟩
  rw [ended] at bad
  cases bad

theorem filter_overruns : ¬ ∀ prog, bpfSfilter true ⟨0, 0, 0, 0⟩ none (request prog) = (0, some prog) →
    Safe prog (List.replicate 60 0) 60 (start fun _ => 0) := by
  intro all
  obtain ⟨installed, bad⟩ := overrunning_installed _ (List.mem_cons_self (l := overrunning.tail))
  exact bad (all _ installed)

end MagxNet.Bpf
