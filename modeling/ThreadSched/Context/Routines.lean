import ThreadSched.Lib.X86

/-!
# The assembly that switches contexts

* `contextSwap`, `contextSet`, `getReg` — the three routines, instruction by instruction;
* `restore_spec` — the restoring half they share, whichever register holds the address of the context;
* `contextSwap_spec`, `contextSet_spec` — the machine after them, as one equation each;
* `kernelSave`, `sigreturn` — the kernel's side of a signal frame.

The machine has the general registers, `rip`, the flags, the two selectors and the memory.  What the words of
`struct sigcontext` behind the selectors hold, `fpstate` among them, is copied with the rest and read by nothing.
-/

set_option autoImplicit false

namespace ThreadSched.Context

open Memory X86

/-- Index of a register among the words of `struct sigcontext`. -/
def slot : Reg → Nat
  | .r8 => 0 | .r9 => 1 | .r10 => 2 | .r11 => 3 | .r12 => 4 | .r13 => 5 | .r14 => 6 | .r15 => 7
  | .rdi => 8 | .rsi => 9 | .rbp => 10 | .rbx => 11 | .rdx => 12 | .rax => 13 | .rcx => 14 | .rsp => 15

def ripSlot : Nat := 16

def eflagsSlot : Nat := 17

/-- Offsets of the two selectors, sixteen bits each. -/
def csOffset : Nat := 8 * 18

def ssOffset : Nat := 8 * 18 + 6

def sizeofSigcontext : Nat := 256

/-! ## The routines -/

def contextSwap : List Instr := [
  .store .rdi 0 .r8,
  .store .rdi (8 * 1) .r9,
  .store .rdi (8 * 2) .r10,
  .store .rdi (8 * 3) .r11,
  .store .rdi (8 * 4) .r12,
  .store .rdi (8 * 5) .r13,
  .store .rdi (8 * 6) .r14,
  .store .rdi (8 * 7) .r15,
  .store .rdi (8 * 8) .rdi,
  .store .rdi (8 * 9) .rsi,
  .store .rdi (8 * 10) .rbp,
  .store .rdi (8 * 11) .rbx,
  .store .rdi (8 * 12) .rdx,
  .store .rdi (8 * 13) .rax,
  .store .rdi (8 * 14) .rcx,
  -- the return address is where the task goes on
  .load .rcx .rsp 0,
  .store .rdi (8 * 16) .rcx,
  .lea .rcx .rsp 8,
  .store .rdi (8 * 15) .rcx,
  .load .r8 .rsi 0,
  .load .r9 .rsi (8 * 1),
  .load .r10 .rsi (8 * 2),
  .load .r11 .rsi (8 * 3),
  .load .r12 .rsi (8 * 4),
  .load .r13 .rsi (8 * 5),
  .load .r14 .rsi (8 * 6),
  .load .r15 .rsi (8 * 7),
  .load .rdi .rsi (8 * 8),
  .load .rbp .rsi (8 * 10),
  .load .rbx .rsi (8 * 11),
  .load .rdx .rsi (8 * 12),
  .load .rax .rsi (8 * 13),
  .load .rsp .rsi (8 * 15),
  .load .rcx .rsi (8 * 16),
  .push .rcx,
  .load .rcx .rsi (8 * 14),
  .load .rsi .rsi (8 * 9),
  .ret]

def contextSet : List Instr := [
  .load .r8 .rdi 0,
  .load .r9 .rdi (8 * 1),
  .load .r10 .rdi (8 * 2),
  .load .r11 .rdi (8 * 3),
  .load .r12 .rdi (8 * 4),
  .load .r13 .rdi (8 * 5),
  .load .r14 .rdi (8 * 6),
  .load .r15 .rdi (8 * 7),
  .load .rsi .rdi (8 * 9),
  .load .rbp .rdi (8 * 10),
  .load .rbx .rdi (8 * 11),
  .load .rdx .rdi (8 * 12),
  .load .rax .rdi (8 * 13),
  .load .rcx .rdi (8 * 14),
  .load .rsp .rdi (8 * 15),
  .load .rcx .rdi (8 * 16),
  .push .rcx,
  .load .rcx .rdi (8 * 14),
  .load .rdi .rdi (8 * 8),
  .ret]

def getReg : List Instr := [.storeCs .rdi (8 * 18), .storeSs .rdi (8 * 18 + 6), .ret]

/-! ## The restoring half -/

/-- Load `regs` from the context `b` points at, push its `rip`, load the two registers that were in use,
return. -/
def restore (b : Reg) (regs : List Reg) : List Instr :=
  ((regs.map fun r => (r, slot r)).map fun w => .load w.1 b (8 * w.2)) ++
    [.load .rcx b (8 * 16), .push .rcx, .load .rcx b (8 * 14), .load b b (8 * slot b), .ret]

/-- The machine that goes on from the context at `a`: flags and selectors are those it had, and the word
below the new stack pointer holds `rip`. -/
def resumed (c : Cpu) (a : Addr) : Cpu :=
  { c with
    reg := fun r => load64 c.mem (off a (8 * slot r))
    rip := load64 c.mem (off a (8 * ripSlot))
    mem := store64 c.mem (load64 c.mem (off a (8 * slot .rsp)) - 8) (load64 c.mem (off a (8 * ripSlot))) }

section

variable {c : Cpu} {a : Addr}

theorem resumed_cs : (resumed c a).cs = c.cs := by simp only [resumed]

theorem resumed_ss : (resumed c a).ss = c.ss := by simp only [resumed]

theorem resumed_eflags : (resumed c a).eflags = c.eflags := by simp only [resumed]

theorem resumed_mem : (resumed c a).mem =
    store64 c.mem (load64 c.mem (off a (8 * slot .rsp)) - 8) (load64 c.mem (off a (8 * ripSlot))) := by
  simp only [resumed]

end

theorem slot_lt (r : Reg) : slot r < 16 := by
  cases r <;> decide

theorem lookup_slot {regs : List Reg} {r : Reg} :
    (regs.map fun r => (r, slot r)).lookup r = if r ∈ regs then some (slot r) else none := by
  induction regs with
  | nil => rfl
  | cons x regs ih =>
      rw [List.map_cons, List.lookup_cons]
      by_cases hx : r = x
      · subst hx
        simp
      · rw [beq_false_of_ne hx, ih]
        simp [hx]

theorem off_sub_add {a : Addr} : off (a - 8) 8 = a := by
  unfold off
  exact BitVec.sub_add_cancel a 8

theorem sub_off_add {a : Addr} : off a 8 - 8 = a := by
  unfold off
  exact BitVec.add_sub_cancel a 8

/-- The last five instructions: the stack pointer is back where it was. -/
theorem restore_tail {c : Cpu} {b : Reg} (hbc : b ≠ .rcx) (hbs : b ≠ .rsp)
    (hread : ∀ i < 32, load64 (store64 c.mem (c.reg .rsp - 8) (load64 c.mem (off (c.reg b) (8 * 16))))
      (off (c.reg b) (8 * i)) = load64 c.mem (off (c.reg b) (8 * i))) :
    run c [.load .rcx b (8 * 16), .push .rcx, .load .rcx b (8 * 14), .load b b (8 * slot b), .ret] =
      { c with
        reg := fun r => if r = .rcx ∨ r = b then load64 c.mem (off (c.reg b) (8 * slot r)) else c.reg r
        rip := load64 c.mem (off (c.reg b) (8 * 16))
        mem := store64 c.mem (c.reg .rsp - 8) (load64 c.mem (off (c.reg b) (8 * 16))) } := by
  have hslot := slot_lt b
  have h14 := hread 14 (by omega)
  have hself := hread (slot b) (by omega)
  have hrsp : Reg.rsp ≠ .rcx := by decide
  refine Cpu.ext (funext fun r => ?_) ?_ rfl rfl rfl ?_
  · by_cases hr : r = .rsp
    · subst hr
      simpa [exec, Cpu.setReg, Cpu.setMem, hbs.symm] using off_sub_add (a := c.reg .rsp)
    · by_cases hrb : r = b
      · subst hrb
        simpa [exec, Cpu.setReg, Cpu.setMem, hr, hbc] using hself
      · by_cases hrc : r = .rcx
        · subst hrc
          simpa [exec, Cpu.setReg, Cpu.setMem, hbc, hbs, hbc.symm, slot] using h14
        · simp [exec, Cpu.setReg, Cpu.setMem, hr, hrb, hrc]
  · simp [exec, Cpu.setReg, Cpu.setMem, hbs.symm, hbc]
  · simp [exec, Cpu.setReg, Cpu.setMem, hbs.symm, hbc]

theorem restore_spec {c : Cpu} {b : Reg} {regs : List Reg} (hcover : ∀ r, r = b ∨ r = .rcx ∨ r ∈ regs)
    (hb : b ∉ regs) (hbc : b ≠ .rcx) (hbs : b ≠ .rsp) (hnodup : regs.Nodup)
    (hpush : Apart (load64 c.mem (off (c.reg b) (8 * slot .rsp)) - 8) 8 (c.reg b) sizeofSigcontext) :
    run c (restore b regs) = resumed c (c.reg b) := by
  have hkeys : (regs.map fun r => (r, slot r)).map Prod.fst = regs := by
    rw [List.map_map]
    exact List.map_id' regs
  have hsp : Reg.rsp ∈ regs := by
    rcases hcover .rsp with h | h | h
    · exact absurd h.symm hbs
    · cases h
    · exact h
  -- what is read after the push is apart from the word pushed
  have hread : ∀ i < 32, ∀ v, load64
      (store64 c.mem (load64 c.mem (off (c.reg b) (8 * slot .rsp)) - 8) v) (off (c.reg b) (8 * i)) =
        load64 c.mem (off (c.reg b) (8 * i)) := by
    intro i hi v
    have hfit : 8 * i + 8 ≤ sizeofSigcontext := by
      unfold sizeofSigcontext
      omega
    exact (Same.sub (Same.store64 hpush) hfit).load64
  unfold restore
  rw [run_append, run_loads (by rwa [hkeys]) (by rwa [hkeys])]
  simp only [lookup_slot]
  rw [restore_tail hbc hbs (by simpa [hb, hsp] using fun i hi => hread i hi _)]
  unfold resumed
  refine Cpu.ext (funext fun r => ?_) ?_ rfl rfl rfl ?_
  · simp only [hb, if_false]
    rcases hcover r with rfl | rfl | hr
    · simp
    · simp
    · simp [hr]
  · simp only [hb, if_false]
    rfl
  · simp only [hb, hsp, if_true, if_false]
    rfl

theorem contextSet_eq : contextSet = restore .rdi
    [.r8, .r9, .r10, .r11, .r12, .r13, .r14, .r15, .rsi, .rbp, .rbx, .rdx, .rax, .rcx, .rsp] := rfl

/-- `context_set` goes on from the context `rdi` points at. -/
theorem contextSet_spec {c : Cpu}
    (hpush : Apart (load64 c.mem (off (c.reg .rdi) (8 * slot .rsp)) - 8) 8 (c.reg .rdi) sizeofSigcontext) :
    run c contextSet = resumed c (c.reg .rdi) := by
  rw [contextSet_eq]
  exact restore_spec (fun r => by cases r <;> decide) (by decide) (by decide) (by decide) (by decide) hpush

/-! ## The saving half -/

/-- The registers `context_swap` stores first. -/
def savedFirst : List Reg :=
  [.r8, .r9, .r10, .r11, .r12, .r13, .r14, .r15, .rdi, .rsi, .rbp, .rbx, .rdx, .rax, .rcx]

/-- The words `context_swap` stores: the stack pointer is the one after the return. -/
def swapWords (c : Cpu) : List (Nat × BitVec 64) :=
  (savedFirst.map fun r => (slot r, c.reg r)) ++
    [(ripSlot, load64 c.mem (c.reg .rsp)), (slot .rsp, off (c.reg .rsp) 8)]

theorem contextSwap_eq : contextSwap =
    ((savedFirst.map fun r => (r, slot r)).map fun w => .store .rdi (8 * w.2) w.1) ++
      ([.load .rcx .rsp 0, .store .rdi (8 * 16) .rcx, .lea .rcx .rsp 8, .store .rdi (8 * 15) .rcx] ++
        restore .rsi [.r8, .r9, .r10, .r11, .r12, .r13, .r14, .r15, .rdi, .rbp, .rbx, .rdx, .rax, .rsp]) := rfl

theorem swapWords_keys {c : Cpu} :
    (swapWords c).map Prod.fst = [0, 1, 2, 3, 4, 5, 6, 7, 8, 9, 10, 11, 12, 13, 14, 16, 15] := rfl

theorem swapWords_lt {c : Cpu} : ∀ w ∈ swapWords c, w.1 < 17 := by
  intro w hw
  have hkey : w.1 ∈ (swapWords c).map Prod.fst := List.mem_map_of_mem hw
  rw [swapWords_keys] at hkey
  have hall : ∀ i ∈ [0, 1, 2, 3, 4, 5, 6, 7, 8, 9, 10, 11, 12, 13, 14, 16, 15], i < 17 := by decide
  exact hall _ hkey

theorem swapWords_fit {c : Cpu} : ∀ w ∈ swapWords c, 8 * w.1 + 8 ≤ sizeofSigcontext := by
  intro w hw
  have hlt := swapWords_lt w hw
  unfold sizeofSigcontext
  omega

/-- `context_swap` stores the context of its caller in the block `rdi` points at and goes on from the
context `rsi` points at. -/
theorem contextSwap_spec {c : Cpu} (hctx : Apart (c.reg .rdi) sizeofSigcontext (c.reg .rsi) sizeofSigcontext)
    (hret : Apart (c.reg .rdi) sizeofSigcontext (c.reg .rsp) 8)
    (hpush : Apart (load64 c.mem (off (c.reg .rsi) (8 * slot .rsp)) - 8) 8 (c.reg .rsi) sizeofSigcontext) :
    run c contextSwap =
      resumed (c.setMem (storeWords c.mem (c.reg .rdi) (swapWords c))) (c.reg .rsi) := by
  have hreturn : load64 (storeWords c.mem (c.reg .rdi) (savedFirst.map fun r => (slot r, c.reg r)))
      (c.reg .rsp) = load64 c.mem (c.reg .rsp) :=
    (Same.storeWords hret fun w hw => swapWords_fit w (List.mem_append_left _ hw)).load64
  have hmid : run (c.setMem (storeWords c.mem (c.reg .rdi) (savedFirst.map fun r => (slot r, c.reg r))))
      [.load .rcx .rsp 0, .store .rdi (8 * 16) .rcx, .lea .rcx .rsp 8, .store .rdi (8 * 15) .rcx] =
        (c.setReg .rcx (off (c.reg .rsp) 8)).setMem (storeWords c.mem (c.reg .rdi) (swapWords c)) := by
    refine Cpu.ext ?_ rfl rfl rfl rfl ?_
    · simp [exec, Cpu.setReg, Cpu.setMem]
    · simp only [run_cons, run_nil, exec, setMem_mem, setMem_reg, setReg_mem, setReg_self,
        setReg_of_ne (show Reg.rdi ≠ .rcx by decide), setReg_of_ne (show Reg.rsp ≠ .rcx by decide), off_zero, hreturn, swapWords, storeWords_append]
      rfl
  have hnext : Same c.mem (storeWords c.mem (c.reg .rdi) (swapWords c)) (c.reg .rsi) sizeofSigcontext :=
    Same.storeWords hctx swapWords_fit
  have hsp : load64 (storeWords c.mem (c.reg .rdi) (swapWords c)) (off (c.reg .rsi) (8 * slot .rsp)) =
      load64 c.mem (off (c.reg .rsi) (8 * slot .rsp)) := (hnext.sub (by decide)).load64
  rw [contextSwap_eq, run_append, run_stores, run_append, List.map_map]
  rw [show ((fun w : Reg × Nat => (w.2, c.reg w.1)) ∘ fun r => (r, slot r)) =
    fun r => (slot r, c.reg r) from rfl, hmid]
  rw [restore_spec (fun r => by cases r <;> decide) (by decide) (by decide) (by decide) (by decide)]
  · rfl
  · show Apart (load64 (storeWords c.mem (c.reg .rdi) (swapWords c)) (off (c.reg .rsi) (8 * slot .rsp)) - 8) 8
      (c.reg .rsi) sizeofSigcontext
    rwa [hsp]

/-! ## Signal frames -/

/-- The words of a context with these registers. -/
def contextWords (c : Cpu) : List (Nat × BitVec 64) := [
  (0, c.reg .r8), (1, c.reg .r9), (2, c.reg .r10), (3, c.reg .r11), (4, c.reg .r12), (5, c.reg .r13),
  (6, c.reg .r14), (7, c.reg .r15), (8, c.reg .rdi), (9, c.reg .rsi), (10, c.reg .rbp), (11, c.reg .rbx),
  (12, c.reg .rdx), (13, c.reg .rax), (14, c.reg .rcx), (15, c.reg .rsp), (16, c.rip), (17, c.eflags)]

/-- The kernel stores the interrupted context at `f`. -/
def kernelSave (c : Cpu) (f : Addr) : Mem :=
  store16 (store16 (storeWords c.mem f (contextWords c)) (off f csOffset) c.cs) (off f ssOffset) c.ss

/-- Returning from the handler loads the context at `f`. -/
def sigreturn (m : Mem) (f : Addr) : Cpu where
  reg r := load64 m (off f (8 * slot r))
  rip := load64 m (off f (8 * ripSlot))
  eflags := load64 m (off f (8 * eflagsSlot))
  cs := load16 m (off f csOffset)
  ss := load16 m (off f ssOffset)
  mem := m

theorem contextWords_keys {c : Cpu} : (contextWords c).map Prod.fst = List.range 18 := rfl

theorem contextWords_lt {c : Cpu} : ∀ w ∈ contextWords c, w.1 < 18 := by
  intro w hw
  have hkey : w.1 ∈ (contextWords c).map Prod.fst := List.mem_map_of_mem hw
  rwa [contextWords_keys, List.mem_range] at hkey

/-- A word of the context `kernelSave` stored. -/
theorem load64_kernelSave {c : Cpu} {f : Addr} {i : Nat} {v : BitVec 64} (h : (i, v) ∈ contextWords c) :
    load64 (kernelSave c f) (off f (8 * i)) = v := by
  have hi : i < 18 := contextWords_lt _ h
  have hcs : Same (storeWords c.mem f (contextWords c))
      (store16 (storeWords c.mem f (contextWords c)) (off f csOffset) c.cs) (off f (8 * i)) 8 :=
    Same.store16 (Apart.within (by unfold csOffset; omega) (by decide) (by omega))
  have hss : Same (store16 (storeWords c.mem f (contextWords c)) (off f csOffset) c.cs) (kernelSave c f)
      (off f (8 * i)) 8 :=
    Same.store16 (Apart.within (by unfold ssOffset; omega) (by decide) (by omega))
  rw [(hcs.trans hss).load64]
  refine load64_storeWords (by rw [contextWords_keys]; exact List.nodup_range) (fun w hw => ?_) h
  have hw := contextWords_lt w hw
  omega

theorem load16_kernelSave_ss {c : Cpu} {f : Addr} : load16 (kernelSave c f) (off f ssOffset) = c.ss :=
  load16_store16_self

theorem load16_kernelSave_cs {c : Cpu} {f : Addr} : load16 (kernelSave c f) (off f csOffset) = c.cs := by
  have hss : Same (store16 (storeWords c.mem f (contextWords c)) (off f csOffset) c.cs) (kernelSave c f)
      (off f csOffset) 2 :=
    Same.store16 (Apart.within (by decide) (by decide) (by decide))
  rw [hss.load16, load16_store16_self]

/-- The kernel writes inside the frame. -/
theorem same_kernelSave {c : Cpu} {f b : Addr} {k : Nat} (h : Apart f sizeofSigcontext b k) :
    Same c.mem (kernelSave c f) b k := by
  have hwords : Same c.mem (storeWords c.mem f (contextWords c)) b k := by
    refine Same.storeWords h fun w hw => ?_
    have hw := contextWords_lt w hw
    unfold sizeofSigcontext
    omega
  exact (hwords.trans (Same.store16 (h.sub (by decide)))).trans (Same.store16 (h.sub (by decide)))

theorem mem_contextWords (c : Cpu) (r : Reg) : (slot r, c.reg r) ∈ contextWords c := by
  cases r <;> simp [contextWords, slot]

theorem load64_swapWords {c : Cpu} {m : Mem} {a : Addr} {i : Nat} {v : BitVec 64} (h : (i, v) ∈ swapWords c) :
    load64 (storeWords m a (swapWords c)) (off a (8 * i)) = v :=
  load64_storeWords (by rw [swapWords_keys]; decide) (fun w hw => (swapWords_fit w hw).trans (by decide)) h

/-- Every register but the stack pointer is stored as it is. -/
theorem mem_swapWords (c : Cpu) {r : Reg} (h : r ≠ .rsp) : (slot r, c.reg r) ∈ swapWords c := by
  cases r <;> first | exact absurd rfl h | simp [swapWords, savedFirst, slot]

end ThreadSched.Context
