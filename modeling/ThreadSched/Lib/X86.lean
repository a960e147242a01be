import ThreadSched.Lib.Memory

/-!
# Straight-line code of an x86-64 processor

The general registers, `rip`, the flags and the two selectors a return to user mode loads, over
byte-addressed memory, and the instructions that move words between them.

* `run_stores` — registers stored one after the other are a block of words;
* `run_loads` — registers loaded one after the other from a block whose address stays in a register.
-/

set_option autoImplicit false

namespace X86

open Memory

inductive Reg
  | rax | rbx | rcx | rdx | rsi | rdi | rbp | rsp
  | r8 | r9 | r10 | r11 | r12 | r13 | r14 | r15
  deriving DecidableEq, Repr

@[ext] structure Cpu where
  reg : Reg → BitVec 64
  rip : BitVec 64
  eflags : BitVec 64
  cs : BitVec 16
  ss : BitVec 16
  mem : Mem

/-- Instructions, the destination first. -/
inductive Instr
  | store (base : Reg) (disp : Nat) (src : Reg)
  | load (dst base : Reg) (disp : Nat)
  | lea (dst base : Reg) (disp : Nat)
  | push (src : Reg)
  | ret
  | storeCs (base : Reg) (disp : Nat)
  | storeSs (base : Reg) (disp : Nat)
  deriving DecidableEq, Repr

def Cpu.setReg (c : Cpu) (r : Reg) (v : BitVec 64) : Cpu := { c with reg := Function.update c.reg r v }

def Cpu.setMem (c : Cpu) (m : Mem) : Cpu := { c with mem := m }

/-- None of these instructions touches the flags. -/
def exec (c : Cpu) : Instr → Cpu
  | .store b d r => c.setMem (store64 c.mem (off (c.reg b) d) (c.reg r))
  | .load r b d => c.setReg r (load64 c.mem (off (c.reg b) d))
  | .lea r b d => c.setReg r (off (c.reg b) d)
  | .push r => (c.setReg .rsp (c.reg .rsp - 8)).setMem (store64 c.mem (c.reg .rsp - 8) (c.reg r))
  | .ret => { c.setReg .rsp (off (c.reg .rsp) 8) with rip := load64 c.mem (c.reg .rsp) }
  | .storeCs b d => c.setMem (store16 c.mem (off (c.reg b) d) c.cs)
  | .storeSs b d => c.setMem (store16 c.mem (off (c.reg b) d) c.ss)

def run (c : Cpu) (code : List Instr) : Cpu := code.foldl exec c

section

variable {c : Cpu} {b r r' : Reg} {v : BitVec 64} {l l' : List Instr} {ws : List (Reg × Nat)}

@[simp] theorem run_nil : run c [] = c := rfl

@[simp] theorem run_cons {i : Instr} : run c (i :: l) = run (exec c i) l := rfl

theorem run_append : run c (l ++ l') = run (run c l) l' := by
  unfold run
  exact List.foldl_append

@[simp] theorem setReg_self : (c.setReg r v).reg r = v := Function.update_self ..

theorem setReg_of_ne (h : r' ≠ r) : (c.setReg r v).reg r' = c.reg r' := Function.update_of_ne h ..

@[simp] theorem setReg_mem : (c.setReg r v).mem = c.mem := rfl

@[simp] theorem setReg_rip : (c.setReg r v).rip = c.rip := rfl

@[simp] theorem setReg_eflags : (c.setReg r v).eflags = c.eflags := rfl

@[simp] theorem setReg_cs : (c.setReg r v).cs = c.cs := rfl

@[simp] theorem setReg_ss : (c.setReg r v).ss = c.ss := rfl

@[simp] theorem setMem_mem {m : Mem} : (c.setMem m).mem = m := rfl

@[simp] theorem setMem_reg {m : Mem} : (c.setMem m).reg = c.reg := rfl

/-- Registers stored one after the other. -/
theorem run_stores : run c (ws.map fun w => .store b (8 * w.2) w.1) =
    c.setMem (storeWords c.mem (c.reg b) (ws.map fun w => (w.2, c.reg w.1))) := by
  induction ws generalizing c with
  | nil => rfl
  | cons w ws ih =>
      rw [List.map_cons, run_cons, ih]
      rfl

/-- Registers loaded one after the other, none of them the one that holds the address. -/
theorem run_loads (hb : b ∉ ws.map Prod.fst) (hnodup : (ws.map Prod.fst).Nodup) :
    run c (ws.map fun w => .load w.1 b (8 * w.2)) =
      { c with reg := fun r => match ws.lookup r with
          | some i => load64 c.mem (off (c.reg b) (8 * i))
          | none => c.reg r } := by
  induction ws generalizing c with
  | nil => rfl
  | cons w ws ih =>
      obtain ⟨r, i⟩ := w
      rw [List.map_cons, List.mem_cons, not_or] at hb
      rw [List.map_cons, List.nodup_cons] at hnodup
      rw [List.map_cons, run_cons, ih hb.2 hnodup.2]
      have hbase : (exec c (.load r b (8 * i))).reg b = c.reg b := setReg_of_ne hb.1
      rw [hbase]
      refine congrArg (fun f => ({ c with reg := f } : Cpu)) (funext fun x => ?_)
      by_cases hx : x = r
      · subst hx
        have hnone : ws.lookup x = none := by
          rw [List.lookup_eq_none_iff]
          intro p hp
          have hne : x ≠ p.1 := by
            rintro heq
            exact hnodup.1 (List.mem_map.mpr ⟨p, hp, heq.symm⟩)
          simp [hne]
        simp [hnone, exec]
      · have hlook : List.lookup x ((r, i) :: ws) = ws.lookup x := by
          rw [List.lookup_cons, beq_false_of_ne hx]
        rw [hlook]
        cases ws.lookup x with
        | none => exact setReg_of_ne hx
        | some j => rfl

end

end X86
