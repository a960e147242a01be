import ThreadSched.Context.Routines

/-!
# Dispatched tasks go on where they were

The tasks of one process on one processor: `task_create`, the two switches a signal makes
(`schedule`, `collaborative_schedule`) and the two the assembly makes (`block_task_schedule`,
`died_task_schedule`).  Between them the running task computes whatever it likes.

* `Sys.saved` — what each suspended task was when it was suspended; what a step loads into the processor
  is not taken from it, it only says which tasks there are to dispatch;
* `Held` — the context of a suspended task holds what it was;
* `SwitchInv` — every suspended task is held, and the blocks of different tasks are apart;
* `dispatched_as_suspended` — every dispatch, whichever of the four switches makes it.

A switch is one step: no signal comes between its statements.
-/

set_option autoImplicit false

namespace ThreadSched.Context

open Memory X86

abbrev TaskId := Nat

def TASK_STACK_SIZE : Nat := 1024 * 4

/-- Where things are: the context of each task, its stack, and the entrance of new tasks.  A `struct
task_struct` that is taken from the pool again counts as another task. -/
structure Layout where
  ctx : TaskId → Addr
  stackMin : TaskId → Addr
  stackSize : TaskId → Nat
  taskEntrance : BitVec 64
  /-- The selectors of user code. -/
  userCs : BitVec 16
  userSs : BitVec 16

/-- How a task came to be suspended. -/
inductive How
  | created | interrupted | swapped
  deriving DecidableEq, Repr

/-- A task at its suspension. -/
structure Snap where
  cpu : Cpu
  how : How

structure Sys where
  cpu : Cpu
  current : TaskId
  /-- What each suspended task was. -/
  saved : TaskId → Option Snap
  /-- The tasks in whose context selectors were stored. -/
  marked : TaskId → Bool

/-- A task that runs or is suspended. -/
def Live (s : Sys) (n : TaskId) : Prop := n = s.current ∨ (s.saved n).isSome

/-- Context and stack of `n` and of `k` are different memory. -/
structure Separate (L : Layout) (n k : TaskId) : Prop where
  ctx : Apart (L.ctx n) sizeofSigcontext (L.ctx k) sizeofSigcontext
  stack : Apart (L.stackMin n) (L.stackSize n) (L.stackMin k) (L.stackSize k)
  ctxStack : Apart (L.ctx n) sizeofSigcontext (L.stackMin k) (L.stackSize k)
  stackCtx : Apart (L.stackMin n) (L.stackSize n) (L.ctx k) sizeofSigcontext

/-- Context and stack of one task. -/
def OwnApart (L : Layout) (n : TaskId) : Prop :=
  Apart (L.ctx n) sizeofSigcontext (L.stackMin n) (L.stackSize n)

/-! ## The steps -/

/-- `ptask->task_stack`. -/
def taskStack (L : Layout) (n : TaskId) : BitVec 64 := off (L.stackMin n) (L.stackSize n)

/-- Memory after `task_create`. -/
def taskCreate (L : Layout) (c : Cpu) (n : TaskId) (function funcArg : BitVec 64) : Mem :=
  let cleared := fill c.mem (L.ctx n) 0 sizeofSigcontext
  let stacked := storeWords cleared (L.ctx n) [(slot .rbp, taskStack L n), (slot .rsp, taskStack L n)]
  let selected := (run ((c.setReg .rdi (L.ctx n)).setMem stacked) getReg).mem
  storeWords selected (L.ctx n) [(ripSlot, L.taskEntrance), (slot .rdi, function), (slot .rsi, funcArg)]

/-- What `task_create` stored. -/
def created (L : Layout) (c : Cpu) (n : TaskId) (function funcArg : BitVec 64) : Snap where
  cpu := { c with
    reg := fun
      | .rsp | .rbp => taskStack L n
      | .rdi => function
      | .rsi => funcArg
      | _ => 0
    rip := L.taskEntrance
    eflags := 0 }
  how := .created

/-- `schedule` and `collaborative_schedule`: the frame's context goes to the current task's, the next
task's goes to the frame. -/
def frameSwitch (L : Layout) (m : Mem) (f : Addr) (current next : TaskId) : Mem :=
  copy (copy m (L.ctx current) f sizeofSigcontext) f (L.ctx next) sizeofSigcontext

/-- The caller of `context_swap` as it goes on: behind the return. -/
def returned (c : Cpu) : Cpu :=
  { c.setReg .rsp (off (c.reg .rsp) 8) with rip := load64 c.mem (c.reg .rsp) }

inductive Event
  | run
  | create (n : TaskId)
  /-- Through the signal frame. -/
  | byFrame (n : TaskId) (p : Snap)
  /-- By `context_swap`. -/
  | bySwap (n : TaskId) (p : Snap)
  /-- By `context_set`. -/
  | bySet (n : TaskId) (p : Snap)

/-- The task an event dispatches, and what it was at its last suspension. -/
def Event.dispatched : Event → Option (TaskId × Snap)
  | .run => none
  | .create _ => none
  | .byFrame n p => some (n, p)
  | .bySwap n p => some (n, p)
  | .bySet n p => some (n, p)

/-- The 128 bytes below the stack pointer. -/
def redZone (c : Cpu) : Addr := c.reg .rsp - 128

inductive Step (L : Layout) : Sys → Event → Sys → Prop
  /-- The running task computes; contexts of tasks and what interrupted code keeps below its stack pointer
  are not its memory. -/
  | run {s : Sys} {c : Cpu} (hcs : c.cs = s.cpu.cs) (hss : c.ss = s.cpu.ss)
      (hctx : ∀ n, Live s n → Same s.cpu.mem c.mem (L.ctx n) sizeofSigcontext)
      (hred : ∀ n p, s.saved n = some p → p.how = .interrupted → Same s.cpu.mem c.mem (redZone p.cpu) 128) :
      Step L s .run { s with cpu := c }
  | create {s : Sys} (n : TaskId) (function funcArg : BitVec 64) (hnew : ¬ Live s n)
      (hsize : L.stackSize n = TASK_STACK_SIZE) (hown : OwnApart L n)
      (hsep : ∀ k, Live s k → Separate L n k ∧ Separate L k n) :
      Step L s (.create n)
        { s with
          cpu := s.cpu.setMem (taskCreate L s.cpu n function funcArg)
          saved := Function.update s.saved n (some (created L s.cpu n function funcArg))
          marked := Function.update s.marked n true }
  /-- A signal whose handler calls `schedule` or `collaborative_schedule`; `f` is where the kernel put the
  interrupted context, on the stack and below the red zone. -/
  | signal {s : Sys} (f : Addr) (next : TaskId) (p : Snap)
      (hframe : Inside f sizeofSigcontext (L.stackMin s.current) (L.stackSize s.current))
      (hred : Inside (redZone s.cpu) 128 (L.stackMin s.current) (L.stackSize s.current))
      (hbelow : Apart f sizeofSigcontext (redZone s.cpu) 128)
      (hnext : Function.update s.saved s.current (some ⟨s.cpu, .interrupted⟩) next = some p) :
      Step L s (.byFrame next p)
        { cpu := sigreturn (frameSwitch L (kernelSave s.cpu f) f s.current next) f
          current := next
          saved := Function.update (Function.update s.saved s.current (some ⟨s.cpu, .interrupted⟩)) next none
          marked := Function.update s.marked s.current true }
  /-- `block_task_schedule`, at the first instruction of `context_swap`. -/
  | block {s : Sys} (next : TaskId) (p : Snap) (hrdi : s.cpu.reg .rdi = L.ctx s.current)
      (hrsi : s.cpu.reg .rsi = L.ctx next)
      (hstack : Inside (s.cpu.reg .rsp) 8 (L.stackMin s.current) (L.stackSize s.current))
      (hnext : s.saved next = some p) :
      Step L s (.bySwap next p)
        { s with
          cpu := X86.run s.cpu contextSwap
          current := next
          saved := Function.update (Function.update s.saved s.current (some ⟨returned s.cpu, .swapped⟩)) next none }
  /-- `died_task_schedule`, at the first instruction of `context_set`. -/
  | died {s : Sys} (next : TaskId) (p : Snap) (hrdi : s.cpu.reg .rdi = L.ctx next)
      (hnext : s.saved next = some p) :
      Step L s (.bySet next p)
        { s with
          cpu := X86.run s.cpu contextSet
          current := next
          saved := Function.update s.saved next none }

/-- `main` runs alone, its context cleared by `init_task`. -/
structure Start (L : Layout) (s : Sys) : Prop where
  alone : ∀ n, s.saved n = none
  own : OwnApart L s.current
  unmarked : ∀ n, s.marked n = false
  cleared : ∀ i < sizeofSigcontext, s.cpu.mem (off (L.ctx s.current) i) = 0
  cs : s.cpu.cs = L.userCs
  ss : s.cpu.ss = L.userSs

/-- The states of runs whose steps all satisfy `ok`. -/
inductive Reach (L : Layout) (ok : Sys → Event → Prop) : Sys → Prop
  | start {s : Sys} (h : Start L s) : Reach L ok s
  | step {s s' : Sys} {e : Event} (h : Reach L ok s) (hok : ok s e) (hs : Step L s e s') : Reach L ok s'

/-! ## What the context of a suspended task holds -/

structure Held (L : Layout) (m : Mem) (n : TaskId) (p : Snap) : Prop where
  reg : ∀ r, load64 m (off (L.ctx n) (8 * slot r)) = p.cpu.reg r
  rip : load64 m (off (L.ctx n) (8 * ripSlot)) = p.cpu.rip
  below : Inside (p.cpu.reg .rsp - 8) 8 (L.stackMin n) (L.stackSize n)
  /-- A context saved by a signal is complete. -/
  eflags : p.how = .interrupted → load64 m (off (L.ctx n) (8 * eflagsSlot)) = p.cpu.eflags
  cs : p.how = .interrupted → load16 m (off (L.ctx n) csOffset) = p.cpu.cs
  ss : p.how = .interrupted → load16 m (off (L.ctx n) ssOffset) = p.cpu.ss
  redIn : p.how = .interrupted → Inside (redZone p.cpu) 128 (L.stackMin n) (L.stackSize n)
  red : p.how = .interrupted → Same p.cpu.mem m (redZone p.cpu) 128

section

variable {L : Layout} {s s' : Sys} {m m' : Mem} {n k : TaskId} {p : Snap} {e : Event} {f : Addr}
  {ok : Sys → Event → Prop}

theorem Held.same (h : Held L m n p) (hctx : Same m m' (L.ctx n) sizeofSigcontext)
    (hred : p.how = .interrupted → Same m m' (redZone p.cpu) 128) : Held L m' n p where
  reg r := by
    have hslot := slot_lt r
    rw [(hctx.sub (show 8 * slot r + 8 ≤ sizeofSigcontext by unfold sizeofSigcontext; omega)).load64, h.reg]
  rip := by rw [(hctx.sub (by decide)).load64, h.rip]
  below := h.below
  eflags hi := by rw [(hctx.sub (by decide)).load64, h.eflags hi]
  cs hi := by rw [(hctx.sub (by decide)).load16, h.cs hi]
  ss hi := by rw [(hctx.sub (by decide)).load16, h.ss hi]
  redIn := h.redIn
  red hi := (h.red hi).trans (hred hi)

/-- A change outside context and stack. -/
theorem Held.elsewhere (h : Held L m n p) (hctx : Same m m' (L.ctx n) sizeofSigcontext)
    (hstack : Same m m' (L.stackMin n) (L.stackSize n)) : Held L m' n p :=
  h.same hctx fun hi => hstack.inside (h.redIn hi)

/-! ## The invariant -/

/-- The blocks of all tasks are apart. -/
structure Placed (L : Layout) (s : Sys) : Prop where
  own : ∀ n, Live s n → OwnApart L n
  apart : ∀ n k, Live s n → Live s k → n ≠ k → Separate L n k

structure SwitchInv (L : Layout) (s : Sys) : Prop where
  placed : Placed L s
  idle : s.saved s.current = none
  held : ∀ n p, s.saved n = some p → Held L s.cpu.mem n p

theorem live_current : Live s s.current := .inl rfl

theorem live_saved (h : s.saved n = some p) : Live s n := .inr (by simp [h])

theorem Placed.fewer (h : Placed L s) (hlive : ∀ n, Live s' n → Live s n) : Placed L s' where
  own n hn := h.own n (hlive n hn)
  apart n k hn hk := h.apart n k (hlive n hn) (hlive k hk)

theorem redZone_add {c : Cpu} : off (redZone c) 120 = c.reg .rsp - 8 := by
  unfold redZone off
  bv_omega

/-! ## Signals -/

/-- What `next` was, when `current` has just been suspended. -/
theorem update_cases {q : Snap} (h : Function.update s.saved s.current (some q) n = some p) :
    n = s.current ∧ p = q ∨ n ≠ s.current ∧ s.saved n = some p := by
  by_cases hn : n = s.current
  · subst hn
    rw [Function.update_self] at h
    exact .inl ⟨rfl, (Option.some.inj h).symm⟩
  · rw [Function.update_of_ne hn] at h
    exact .inr ⟨hn, h⟩

theorem live_of_signal {q : Snap} (h : Function.update s.saved s.current (some q) n = some p) : Live s n := by
  rcases update_cases h with ⟨rfl, -⟩ | ⟨-, hsaved⟩
  · exact live_current
  · exact live_saved hsaved

/-- The first copy of the handler completes the context of the interrupted task. -/
theorem SwitchInv.interrupted (h : SwitchInv L s)
    (hframe : Inside f sizeofSigcontext (L.stackMin s.current) (L.stackSize s.current))
    (hred : Inside (redZone s.cpu) 128 (L.stackMin s.current) (L.stackSize s.current))
    (hbelow : Apart f sizeofSigcontext (redZone s.cpu) 128)
    (hp : Function.update s.saved s.current (some ⟨s.cpu, .interrupted⟩) n = some p) :
    Held L (copy (kernelSave s.cpu f) (L.ctx s.current) f sizeofSigcontext) n p := by
  have hown : OwnApart L s.current := h.placed.own _ live_current
  rcases update_cases hp with ⟨rfl, rfl⟩ | ⟨hne, hsaved⟩
  · exact {
      reg := by
        intro r
        have hslot := slot_lt r
        rw [load64_copy (by unfold sizeofSigcontext; omega) (by decide),
          load64_kernelSave (mem_contextWords _ r)]
      rip := by
        rw [load64_copy (by decide) (by decide)]
        exact load64_kernelSave (by simp [contextWords, ripSlot])
      below := by
        rw [← redZone_add]
        exact hred.sub (by omega)
      eflags := by
        rintro -
        rw [load64_copy (by decide) (by decide)]
        exact load64_kernelSave (by simp [contextWords, eflagsSlot])
      cs := by
        rintro -
        rw [load16_copy (by decide) (by decide), load16_kernelSave_cs]
      ss := by
        rintro -
        rw [load16_copy (by decide) (by decide), load16_kernelSave_ss]
      redIn := fun _ => hred
      red := fun _ => (same_kernelSave hbelow).trans (Same.copy (hown.symm.inside hred).symm) }
  · have hsep : Separate L s.current n := h.placed.apart _ _ live_current (live_saved hsaved) hne.symm
    refine (h.held n p hsaved).elsewhere ?_ ?_
    · exact (same_kernelSave (hsep.stackCtx.inside hframe)).trans (Same.copy hsep.ctx)
    · exact (same_kernelSave (hsep.stack.inside hframe)).trans (Same.copy hsep.ctxStack)

/-- The second copy only writes the frame. -/
theorem SwitchInv.framed (h : SwitchInv L s) {b : Addr}
    (hframe : Inside f sizeofSigcontext (L.stackMin s.current) (L.stackSize s.current))
    (hbelow : Apart f sizeofSigcontext (redZone s.cpu) 128)
    (hp : Function.update s.saved s.current (some ⟨s.cpu, .interrupted⟩) n = some p)
    (hm : Held L m n p) : Held L (copy m f b sizeofSigcontext) n p := by
  rcases update_cases hp with ⟨rfl, rfl⟩ | ⟨hne, hsaved⟩
  · exact hm.same (Same.copy ((h.placed.own _ live_current).symm.inside hframe)) fun _ => Same.copy hbelow
  · have hsep : Separate L s.current n := h.placed.apart _ _ live_current (live_saved hsaved) hne.symm
    exact hm.elsewhere (Same.copy (hsep.stackCtx.inside hframe)) (Same.copy (hsep.stack.inside hframe))

/-- The kernel loads the next task's context from the frame. -/
theorem Held.sigreturn (h : Held L m n p) :
    (∀ r, (sigreturn (copy m f (L.ctx n) sizeofSigcontext) f).reg r = p.cpu.reg r) ∧
      (Context.sigreturn (copy m f (L.ctx n) sizeofSigcontext) f).rip = p.cpu.rip := by
  constructor
  · intro r
    have hslot := slot_lt r
    exact (load64_copy (by unfold sizeofSigcontext; omega) (by decide)).trans (h.reg r)
  · exact (load64_copy (by decide) (by decide)).trans h.rip

/-! ## Assembly -/

theorem returned_rsp {c : Cpu} : (returned c).reg .rsp = off (c.reg .rsp) 8 := by
  show (c.setReg .rsp (off (c.reg .rsp) 8)).reg .rsp = off (c.reg .rsp) 8
  rw [setReg_self]

theorem returned_reg {c : Cpu} {r : Reg} (hr : r ≠ .rsp) : (returned c).reg r = c.reg r := by
  show (c.setReg .rsp (off (c.reg .rsp) 8)).reg r = c.reg r
  rw [setReg_of_ne hr]

theorem returned_rip {c : Cpu} : (returned c).rip = load64 c.mem (c.reg .rsp) := rfl

/-- `context_swap` completes the context of its caller. -/
theorem SwitchInv.swapped (h : SwitchInv L s)
    (hstack : Inside (s.cpu.reg .rsp) 8 (L.stackMin s.current) (L.stackSize s.current))
    (hp : Function.update s.saved s.current (some ⟨returned s.cpu, .swapped⟩) n = some p) :
    Held L (storeWords s.cpu.mem (L.ctx s.current) (swapWords s.cpu)) n p := by
  rcases update_cases hp with ⟨rfl, rfl⟩ | ⟨hne, hsaved⟩
  · exact {
      reg := by
        intro r
        by_cases hr : r = .rsp
        · subst hr
          rw [returned_rsp]
          exact load64_swapWords (List.mem_append_right _ (by simp))
        · rw [returned_reg hr]
          exact load64_swapWords (mem_swapWords _ hr)
      rip := by
        rw [returned_rip]
        exact load64_swapWords (List.mem_append_right _ (by simp))
      below := by
        rw [returned_rsp, sub_off_add]
        exact hstack
      eflags := by rintro ⟨⟩
      cs := by rintro ⟨⟩
      ss := by rintro ⟨⟩
      redIn := by rintro ⟨⟩
      red := by rintro ⟨⟩ }
  · have hsep : Separate L s.current n := h.placed.apart _ _ live_current (live_saved hsaved) hne.symm
    exact (h.held n p hsaved).elsewhere (Same.storeWords hsep.ctx swapWords_fit)
      (Same.storeWords hsep.ctxStack swapWords_fit)

/-- The word pushed for the task that goes on is on its stack. -/
theorem Held.push {v : BitVec 64} {q : Snap} (h : Held L m k q) (hsep : Separate L n k) (hn : Held L m n p) :
    Held L (store64 m (load64 m (off (L.ctx n) (8 * slot .rsp)) - 8) v) k q := by
  rw [hn.reg]
  exact h.elsewhere (Same.store64 (hsep.stackCtx.inside hn.below)) (Same.store64 (hsep.stack.inside hn.below))

theorem Held.resumed {c : Cpu} (h : Held L c.mem n p) :
    (∀ r, (resumed c (L.ctx n)).reg r = p.cpu.reg r) ∧ (Context.resumed c (L.ctx n)).rip = p.cpu.rip :=
  ⟨h.reg, h.rip⟩

/-- The word pushed is apart from the context it is loaded from. -/
theorem Held.pushApart (h : Held L m n p) (hown : OwnApart L n) :
    Apart (load64 m (off (L.ctx n) (8 * slot .rsp)) - 8) 8 (L.ctx n) sizeofSigcontext := by
  rw [h.reg]
  exact hown.symm.inside h.below

theorem SwitchInv.next_ne (h : SwitchInv L s) (hnext : s.saved n = some p) : n ≠ s.current := by
  rintro rfl
  rw [h.idle] at hnext
  cases hnext

/-- `context_swap` as `block_task_schedule` calls it. -/
theorem SwitchInv.contextSwap (h : SwitchInv L s) (hrdi : s.cpu.reg .rdi = L.ctx s.current)
    (hrsi : s.cpu.reg .rsi = L.ctx n)
    (hstack : Inside (s.cpu.reg .rsp) 8 (L.stackMin s.current) (L.stackSize s.current))
    (hnext : s.saved n = some p) :
    X86.run s.cpu contextSwap =
      Context.resumed (s.cpu.setMem (storeWords s.cpu.mem (L.ctx s.current) (swapWords s.cpu))) (L.ctx n) := by
  have hsep : Separate L s.current n :=
    h.placed.apart _ _ live_current (live_saved hnext) (h.next_ne hnext).symm
  have hown : OwnApart L s.current := h.placed.own _ live_current
  rw [contextSwap_spec, hrdi, hrsi]
  · rw [hrdi, hrsi]
    exact hsep.ctx
  · rw [hrdi]
    exact (hown.symm.inside hstack).symm
  · rw [hrsi]
    exact (h.held n p hnext).pushApart (h.placed.own _ (live_saved hnext))

/-- `context_set` as `died_task_schedule` calls it. -/
theorem SwitchInv.contextSet (h : SwitchInv L s) (hrdi : s.cpu.reg .rdi = L.ctx n)
    (hnext : s.saved n = some p) : X86.run s.cpu contextSet = Context.resumed s.cpu (L.ctx n) := by
  rw [contextSet_spec, hrdi]
  rw [hrdi]
  exact (h.held n p hnext).pushApart (h.placed.own _ (live_saved hnext))

/-! ## New tasks -/

section

variable {c : Cpu} {function funcArg : BitVec 64}

theorem getReg_mem {a : Addr} : (X86.run ((c.setReg .rdi a).setMem m) getReg).mem =
    store16 (store16 m (off a csOffset) c.cs) (off a ssOffset) c.ss := by
  simp only [getReg, run_cons, run_nil, exec, Cpu.setReg, Cpu.setMem, Function.update_self]
  rfl

/-- `task_create` writes inside the context. -/
theorem same_taskCreate {b : Addr} {l : Nat} (h : Apart (L.ctx n) sizeofSigcontext b l) :
    Same c.mem (taskCreate L c n function funcArg) b l := by
  have hstacked : Same (fill c.mem (L.ctx n) 0 sizeofSigcontext)
      (storeWords (fill c.mem (L.ctx n) 0 sizeofSigcontext) (L.ctx n)
        [(slot .rbp, taskStack L n), (slot .rsp, taskStack L n)]) b l :=
    Same.storeWords h (by simp [slot, sizeofSigcontext])
  unfold taskCreate
  simp only [getReg_mem]
  refine ((((Same.fill h).trans hstacked).trans (Same.store16 (h.sub (by decide)))).trans
    (Same.store16 (h.sub (by decide)))).trans (Same.storeWords h ?_)
  simp [slot, ripSlot, sizeofSigcontext]

/-- The last three words. -/
theorem taskCreate_entry {i : Nat} {v : BitVec 64}
    (h : (i, v) ∈ [(ripSlot, L.taskEntrance), (slot .rdi, function), (slot .rsi, funcArg)]) :
    load64 (taskCreate L c n function funcArg) (off (L.ctx n) (8 * i)) = v :=
  load64_storeWords (by simp [slot, ripSlot]) (by simp [slot, ripSlot]) h

/-- `get_reg` leaves the words alone. -/
theorem same_getReg {a : Addr} {i : Nat} (hi : i < 18) :
    Same m (X86.run ((c.setReg .rdi a).setMem m) getReg).mem (off a (8 * i)) 8 := by
  rw [getReg_mem]
  have hcs : Same m (store16 m (off a csOffset) c.cs) (off a (8 * i)) 8 :=
    Same.store16 (Apart.within (by unfold csOffset; omega) (by decide) (by omega))
  exact hcs.trans (Same.store16 (Apart.within (by unfold ssOffset; omega) (by decide) (by omega)))

theorem taskCreate_other {i : Nat} (hi : i < 18) (hother : i ≠ 8 ∧ i ≠ 9 ∧ i ≠ 16) :
    load64 (taskCreate L c n function funcArg) (off (L.ctx n) (8 * i)) =
      load64 (storeWords (fill c.mem (L.ctx n) 0 sizeofSigcontext)
        (L.ctx n) [(slot .rbp, taskStack L n), (slot .rsp, taskStack L n)]) (off (L.ctx n) (8 * i)) := by
  refine Same.load64 ((same_getReg hi).trans (Same.storeWords_within ?_ (by simp [slot, ripSlot]) (by omega)))
  intro x hx
  simp only [List.mem_cons, List.not_mem_nil, or_false] at hx
  rcases hx with rfl | rfl | rfl <;> simp only [slot, ripSlot] <;> omega

theorem taskCreate_stack {i : Nat} (hi : i = 10 ∨ i = 15) :
    load64 (taskCreate L c n function funcArg) (off (L.ctx n) (8 * i)) = taskStack L n := by
  rw [taskCreate_other (by omega) (by omega)]
  refine load64_storeWords (by simp [slot]) (by simp [slot]) ?_
  rcases hi with rfl | rfl <;> simp [slot]

theorem taskCreate_cleared {i : Nat} (hi : i < 18)
    (hother : i ≠ 8 ∧ i ≠ 9 ∧ i ≠ 10 ∧ i ≠ 15 ∧ i ≠ 16) :
    load64 (taskCreate L c n function funcArg) (off (L.ctx n) (8 * i)) = 0 := by
  rw [taskCreate_other hi (by omega)]
  have hsame : Same (fill c.mem (L.ctx n) 0 sizeofSigcontext)
      (storeWords (fill c.mem (L.ctx n) 0 sizeofSigcontext) (L.ctx n)
        [(slot .rbp, taskStack L n), (slot .rsp, taskStack L n)]) (off (L.ctx n) (8 * i)) 8 := by
    refine Same.storeWords_within ?_ (by simp [slot]) (by omega)
    intro x hx
    simp only [List.mem_cons, List.not_mem_nil, or_false] at hx
    rcases hx with rfl | rfl <;> simp only [slot] <;> omega
  rw [hsame.load64]
  exact load64_fill_zero (by unfold sizeofSigcontext; omega) (by decide)

/-- The context of a new task. -/
theorem held_created (hsize : L.stackSize n = TASK_STACK_SIZE) :
    Held L (taskCreate L c n function funcArg) n (created L c n function funcArg) where
  reg r := by
    cases r <;> first
      | exact taskCreate_stack (by decide)
      | exact taskCreate_cleared (by decide) (by decide)
      | exact taskCreate_entry (.tail _ (.head _))
      | exact taskCreate_entry (.tail _ (.tail _ (.head _)))
  rip := taskCreate_entry (.head _)
  below := by
    refine ⟨TASK_STACK_SIZE - 8, ?_, by rw [hsize]; decide⟩
    show off (L.stackMin n) (L.stackSize n) - 8 = off (L.stackMin n) (TASK_STACK_SIZE - 8)
    rw [hsize]
    unfold off TASK_STACK_SIZE
    bv_omega
  eflags := by rintro ⟨⟩
  cs := by rintro ⟨⟩
  ss := by rintro ⟨⟩
  redIn := by rintro ⟨⟩
  red := by rintro ⟨⟩

end

/-! ## Steps and runs -/

/-- The tasks that are live after a dispatch of `k`. -/
theorem live_of_dispatch {c : Cpu} {marked : TaskId → Bool} {q : Option Snap} (hk : Live s k)
    (h : Live ⟨c, k, Function.update (Function.update s.saved s.current q) k none, marked⟩ n) : Live s n := by
  rcases h with hn | hn
  · have hn : n = k := hn
    rwa [hn]
  · replace hn : (Function.update (Function.update s.saved s.current q) k none n).isSome := hn
    by_cases hnk : n = k
    · rwa [hnk]
    · rw [Function.update_of_ne hnk] at hn
      by_cases hnc : n = s.current
      · exact .inl hnc
      · rw [Function.update_of_ne hnc] at hn
        exact .inr hn

/-- The tasks that are live after a death. -/
theorem live_of_died {c : Cpu} {marked : TaskId → Bool} (hk : Live s k)
    (h : Live ⟨c, k, Function.update s.saved k none, marked⟩ n) : Live s n := by
  rcases h with hn | hn
  · have hn : n = k := hn
    rwa [hn]
  · replace hn : (Function.update s.saved k none n).isSome := hn
    by_cases hnk : n = k
    · rwa [hnk]
    · rw [Function.update_of_ne hnk] at hn
      exact .inr hn

theorem of_update_none {g : TaskId → Option Snap} (h : Function.update g k none n = some p) :
    n ≠ k ∧ g n = some p := by
  by_cases hn : n = k
  · subst hn
    rw [Function.update_self] at h
    cases h
  · rw [Function.update_of_ne hn] at h
    exact ⟨hn, h⟩

theorem switchInv_create (h : SwitchInv L s) {function funcArg : BitVec 64} (hnew : ¬ Live s n)
    (hsize : L.stackSize n = TASK_STACK_SIZE) (hown : OwnApart L n)
    (hsep : ∀ k, Live s k → Separate L n k ∧ Separate L k n) :
    SwitchInv L { s with
      cpu := s.cpu.setMem (taskCreate L s.cpu n function funcArg)
      saved := Function.update s.saved n (some (created L s.cpu n function funcArg))
      marked := Function.update s.marked n true } := by
  have hcur : s.current ≠ n := by
    rintro rfl
    exact hnew live_current
  have hlive : ∀ k, k ≠ n → (k = s.current ∨ (Function.update s.saved n
      (some (created L s.cpu n function funcArg)) k).isSome) → Live s k := by
    intro k hk hor
    rwa [Function.update_of_ne hk] at hor
  refine ⟨⟨fun k hk => ?_, fun k l hk hl hne => ?_⟩, ?_, fun k p hp => ?_⟩
  · by_cases hkn : k = n
    · exact hkn ▸ hown
    · exact h.placed.own k (hlive k hkn hk)
  · by_cases hkn : k = n
    · subst hkn
      exact (hsep l (hlive l hne.symm hl)).1
    · by_cases hln : l = n
      · subst hln
        exact (hsep k (hlive k hkn hk)).2
      · exact h.placed.apart k l (hlive k hkn hk) (hlive l hln hl) hne
  · exact (Function.update_of_ne hcur ..).trans h.idle
  · by_cases hkn : k = n
    · subst hkn
      replace hp : Function.update s.saved k (some (created L s.cpu k function funcArg)) k = some p := hp
      rw [Function.update_self] at hp
      exact Option.some.inj hp ▸ held_created hsize
    · replace hp : Function.update s.saved n (some (created L s.cpu n function funcArg)) k = some p := hp
      rw [Function.update_of_ne hkn] at hp
      have hk := (hsep k (live_saved hp)).1
      exact (h.held k p hp).elsewhere (same_taskCreate hk.ctx) (same_taskCreate hk.ctxStack)

/-- A task dispatched through the frame goes on as it was, and the others stay as they were. -/
theorem switchInv_signal (h : SwitchInv L s)
    (hframe : Inside f sizeofSigcontext (L.stackMin s.current) (L.stackSize s.current))
    (hred : Inside (redZone s.cpu) 128 (L.stackMin s.current) (L.stackSize s.current))
    (hbelow : Apart f sizeofSigcontext (redZone s.cpu) 128)
    (hnext : Function.update s.saved s.current (some ⟨s.cpu, .interrupted⟩) k = some p) :
    SwitchInv L {
      cpu := sigreturn (frameSwitch L (kernelSave s.cpu f) f s.current k) f
      current := k
      saved := Function.update (Function.update s.saved s.current (some ⟨s.cpu, .interrupted⟩)) k none
      marked := Function.update s.marked s.current true } := by
  refine ⟨h.placed.fewer fun n hn => live_of_dispatch (live_of_signal hnext) hn, Function.update_self ..,
    fun n q hq => ?_⟩
  obtain ⟨-, hq⟩ := of_update_none hq
  exact h.framed hframe hbelow hq (h.interrupted hframe hred hbelow hq)

theorem switchInv_block (h : SwitchInv L s) (hrdi : s.cpu.reg .rdi = L.ctx s.current)
    (hrsi : s.cpu.reg .rsi = L.ctx k)
    (hstack : Inside (s.cpu.reg .rsp) 8 (L.stackMin s.current) (L.stackSize s.current))
    (hnext : s.saved k = some p) :
    SwitchInv L { s with
      cpu := X86.run s.cpu contextSwap
      current := k
      saved := Function.update (Function.update s.saved s.current (some ⟨returned s.cpu, .swapped⟩)) k none } := by
  have hnext' : Function.update s.saved s.current (some ⟨returned s.cpu, .swapped⟩) k = some p :=
    (Function.update_of_ne (h.next_ne hnext) ..).trans hnext
  refine ⟨h.placed.fewer fun n hn => live_of_dispatch (live_saved hnext) hn, Function.update_self ..,
    fun n q hq => ?_⟩
  obtain ⟨hnk, hq⟩ := of_update_none hq
  have hn : Live s n := live_of_signal hq
  rw [h.contextSwap hrdi hrsi hstack hnext]
  exact (h.swapped hstack hq).push (h.placed.apart k n (live_saved hnext) hn hnk.symm)
    (h.swapped hstack hnext')

theorem switchInv_died (h : SwitchInv L s) (hrdi : s.cpu.reg .rdi = L.ctx k) (hnext : s.saved k = some p) :
    SwitchInv L { s with
      cpu := X86.run s.cpu contextSet
      current := k
      saved := Function.update s.saved k none } := by
  refine ⟨h.placed.fewer fun n hn => live_of_died (live_saved hnext) hn, Function.update_self ..,
    fun n q hq => ?_⟩
  obtain ⟨hnk, hq⟩ := of_update_none hq
  rw [h.contextSet hrdi hnext]
  exact (h.held n q hq).push (h.placed.apart k n (live_saved hnext) (live_saved hq) hnk.symm) (h.held k p hnext)

theorem switchInv_step (h : SwitchInv L s) (hs : Step L s e s') : SwitchInv L s' := by
  cases hs with
  | run hcs hss hctx hred =>
      exact ⟨h.placed.fewer fun n hn => hn, h.idle, fun n p hp =>
        (h.held n p hp).same (hctx n (live_saved hp)) (hred n p hp)⟩
  | create n function funcArg hnew hsize hown hsep => exact switchInv_create h hnew hsize hown hsep
  | signal f next p hframe hred hbelow hnext => exact switchInv_signal h hframe hred hbelow hnext
  | block next p hrdi hrsi hstack hnext => exact switchInv_block h hrdi hrsi hstack hnext
  | died next p hrdi hnext => exact switchInv_died h hrdi hnext

theorem switchInv_start (h : Start L s) : SwitchInv L s where
  placed := {
    own := by
      rintro n (rfl | hn)
      · exact h.own
      · simp [h.alone n] at hn
    apart := by
      rintro n k (rfl | hn) (rfl | hk) hne
      · exact absurd rfl hne
      · simp [h.alone k] at hk
      · simp [h.alone n] at hn
      · simp [h.alone n] at hn }
  idle := h.alone _
  held n p hp := by
    rw [h.alone n] at hp
    cases hp

theorem switchInv_reach (h : Reach L ok s) : SwitchInv L s := by
  induction h with
  | start h => exact switchInv_start h
  | step _ _ hs ih => exact switchInv_step ih hs

/-- Every run, every dispatch: the general registers and `rip` are what they were at the last suspension of
the task, or what `task_create` stored, and the task is the current one. -/
theorem dispatched_as_suspended (h : Reach L (fun _ _ => True) s) (hs : Step L s e s')
    (he : e.dispatched = some (n, p)) :
    s'.current = n ∧ s'.cpu.rip = p.cpu.rip ∧ ∀ r, s'.cpu.reg r = p.cpu.reg r := by
  have hinv := switchInv_reach h
  cases hs with
  | run => cases he
  | create => cases he
  | signal f next q hframe hred hbelow hnext =>
      cases he
      obtain ⟨hreg, hrip⟩ := (hinv.interrupted hframe hred hbelow hnext).sigreturn (f := f)
      exact ⟨rfl, hrip, hreg⟩
  | block next q hrdi hrsi hstack hnext =>
      cases he
      have hnext' : Function.update s.saved s.current (some ⟨returned s.cpu, .swapped⟩) n = some p :=
        (Function.update_of_ne (hinv.next_ne hnext) ..).trans hnext
      obtain ⟨hreg, hrip⟩ := Held.resumed (hinv.swapped hstack hnext')
        (c := s.cpu.setMem (storeWords s.cpu.mem (L.ctx s.current) (swapWords s.cpu)))
      rw [hinv.contextSwap hrdi hrsi hstack hnext]
      exact ⟨rfl, hrip, hreg⟩
  | died next q hrdi hnext =>
      cases he
      obtain ⟨hreg, hrip⟩ := (hinv.held n p hnext).resumed
      rw [hinv.contextSet hrdi hnext]
      exact ⟨rfl, hrip, hreg⟩

end

/-! ## Main and one more task -/

def pairLayout : Layout where
  ctx n := BitVec.ofNat 64 (0x100000 + 0x1000 * n)
  stackMin n := BitVec.ofNat 64 (0x200000 + 0x10000 * n)
  stackSize _ := TASK_STACK_SIZE
  taskEntrance := 0x400000
  userCs := 0x33
  userSs := 0x2b

/-- `main` in the middle of its stack. -/
def mainAlone : Sys where
  cpu := {
    reg := fun r => if r = .rsp then 0x200800 else 0
    rip := 0x400800
    eflags := 0x202
    cs := 0x33
    ss := 0x2b
    mem := fun _ => 0 }
  current := 0
  saved _ := none
  marked _ := false

/-- `main` has created task 1. -/
def mainAndTask : Sys where
  cpu := mainAlone.cpu.setMem (taskCreate pairLayout mainAlone.cpu 1 0x400400 7)
  current := 0
  saved := Function.update mainAlone.saved 1 (some (created pairLayout mainAlone.cpu 1 0x400400 7))
  marked := Function.update mainAlone.marked 1 true

theorem mainAlone_start : Start pairLayout mainAlone where
  alone _ := rfl
  own := Apart.of_toNat (by decide) (by decide)
  unmarked _ := rfl
  cleared _ _ := rfl
  cs := rfl
  ss := rfl

theorem pairLayout_separate : Separate pairLayout 0 1 where
  ctx := Apart.of_toNat (by decide) (by decide)
  stack := Apart.of_toNat (by decide) (by decide)
  ctxStack := Apart.of_toNat (by decide) (by decide)
  stackCtx := (Apart.of_toNat (by decide) (by decide)).symm

theorem pairLayout_separate' : Separate pairLayout 1 0 where
  ctx := pairLayout_separate.ctx.symm
  stack := pairLayout_separate.stack.symm
  ctxStack := pairLayout_separate.stackCtx.symm
  stackCtx := pairLayout_separate.ctxStack.symm

theorem mainAlone_create : Step pairLayout mainAlone (.create 1) mainAndTask := by
  refine Step.create 1 0x400400 7 ?_ rfl (Apart.of_toNat (by decide) (by decide)) ?_
  · rintro (h | h)
    · exact absurd h (by decide)
    · cases h
  · rintro k (rfl | h)
    · exact ⟨pairLayout_separate', pairLayout_separate⟩
    · cases h

/-- Task 1 at the call of `context_swap` that lets `main` go on; the return address is on its stack. -/
def atSwap (c : Cpu) : Cpu where
  reg := fun
    | .rdi => pairLayout.ctx 1
    | .rsi => pairLayout.ctx 0
    | .rsp => 0x210f00
    | _ => 0
  rip := 0x400900
  eflags := 0x202
  cs := c.cs
  ss := c.ss
  mem := store64 c.mem 0x210f00 0x400500

/-- A signal lets the new task run: it starts at its entrance, on its own stack.  It blocks, and `main` goes on
where the signal found it; another signal, and task 1 goes on behind its call of `context_swap`. -/
theorem dispatched_as_suspended_resumed : ∃ s₁ s₂ s₃ s₄ p q,
    Step pairLayout mainAndTask (.byFrame 1 (created pairLayout mainAlone.cpu 1 0x400400 7)) s₁ ∧
      s₁.current = 1 ∧ s₁.cpu.rip = 0x400000 ∧ s₁.cpu.reg .rdi = 0x400400 ∧ s₁.cpu.reg .rsp = 0x211000 ∧
    Step pairLayout s₁ .run s₂ ∧ Step pairLayout s₂ (.bySwap 0 p) s₃ ∧
      s₃.current = 0 ∧ s₃.cpu.rip = 0x400800 ∧ s₃.cpu.reg .rsp = 0x200800 ∧
    Step pairLayout s₃ (.byFrame 1 q) s₄ ∧
      s₄.current = 1 ∧ s₄.cpu.rip = 0x400500 ∧ s₄.cpu.reg .rsp = 0x210f08 := by
  have hreach : Reach pairLayout (fun _ _ => True) mainAndTask :=
    (Reach.start mainAlone_start).step trivial mainAlone_create
  -- the first signal
  obtain ⟨s₁, hstep₁, hcurrent₁, hsaved₁⟩ : ∃ s₁, Step pairLayout mainAndTask
      (.byFrame 1 (created pairLayout mainAlone.cpu 1 0x400400 7)) s₁ ∧ s₁.current = 1 ∧
      s₁.saved = Function.update (Function.update mainAndTask.saved 0 (some ⟨mainAndTask.cpu, .interrupted⟩)) 1 none :=
    ⟨_, Step.signal 0x200100 1 _ ⟨0x100, by decide, by decide⟩ ⟨0x780, by decide, by decide⟩
      (Apart.of_toNat (by decide) (by decide)) rfl, rfl, rfl⟩
  obtain ⟨-, hrip₁, hreg₁⟩ := dispatched_as_suspended hreach hstep₁ rfl
  have hreach₁ := hreach.step trivial hstep₁
  -- task 1 runs up to its call of `context_swap`
  have hlive₁ : ∀ n, Live s₁ n → n = 0 ∨ n = 1 := by
    rintro n (hn | hn)
    · exact Or.inr (hn.trans hcurrent₁)
    · by_contra hne
      rw [not_or] at hne
      simp [hsaved₁, mainAndTask, mainAlone, Function.update_of_ne hne.1, Function.update_of_ne hne.2] at hn
  obtain ⟨s₂, hstep₂, hcpu₂, hcurrent₂, hsaved₂⟩ : ∃ s₂, Step pairLayout s₁ .run s₂ ∧ s₂.cpu = atSwap s₁.cpu ∧
      s₂.current = 1 ∧ s₂.saved = s₁.saved := by
    refine ⟨{ s₁ with cpu := atSwap s₁.cpu }, Step.run rfl rfl (fun n hn => ?_) fun n p hp _ => ?_, rfl,
      hcurrent₁, rfl⟩
    · rcases hlive₁ n hn with rfl | rfl <;> exact Same.store64 (Apart.of_toNat (by decide) (by decide)).symm
    · rcases hlive₁ n (live_saved hp) with rfl | rfl
      · rw [hsaved₁] at hp
        cases hp
        exact Same.store64 (Apart.of_toNat (by decide) (by decide)).symm
      · rw [hsaved₁] at hp
        cases hp
  have hreach₂ := hreach₁.step trivial hstep₂
  -- task 1 blocks
  obtain ⟨s₃, hstep₃, hcurrent₃, hsaved₃⟩ : ∃ s₃, Step pairLayout s₂
      (.bySwap 0 ⟨mainAndTask.cpu, .interrupted⟩) s₃ ∧ s₃.current = 0 ∧
      s₃.saved = Function.update (Function.update s₂.saved 1 (some ⟨returned s₂.cpu, .swapped⟩)) 0 none := by
    refine ⟨_, Step.block 0 ⟨mainAndTask.cpu, .interrupted⟩ ?_ ?_ ?_ ?_, rfl, by rw [← hcurrent₂]⟩
    · rw [hcpu₂, hcurrent₂]
      rfl
    · rw [hcpu₂]
      rfl
    · rw [hcpu₂, hcurrent₂]
      exact ⟨0xf00, rfl, by decide⟩
    · rw [hsaved₂, hsaved₁]
      rfl
  obtain ⟨-, hrip₃, hreg₃⟩ := dispatched_as_suspended hreach₂ hstep₃ rfl
  have hreach₃ := hreach₂.step trivial hstep₃
  have hrsp₃ : s₃.cpu.reg .rsp = 0x200800 := hreg₃ .rsp
  -- the second signal
  obtain ⟨s₄, hstep₄⟩ : ∃ s₄, Step pairLayout s₃ (.byFrame 1 ⟨returned s₂.cpu, .swapped⟩) s₄ := by
    have hred : redZone s₃.cpu = 0x200780 := by
      rw [redZone, hrsp₃]
      rfl
    refine ⟨_, Step.signal 0x200100 1 _ ?_ ?_ ?_ ?_⟩
    · rw [hcurrent₃]
      exact ⟨0x100, by decide, by decide⟩
    · rw [hred, hcurrent₃]
      exact ⟨0x780, by decide, by decide⟩
    · rw [hred]
      exact Apart.of_toNat (by decide) (by decide)
    · rw [hcurrent₃, hsaved₃]
      rfl
  obtain ⟨hcurrent₄, hrip₄, hreg₄⟩ := dispatched_as_suspended hreach₃ hstep₄ rfl
  have hrip : (returned s₂.cpu).rip = 0x400500 := by
    rw [returned_rip, hcpu₂]
    exact load64_store64_self
  have hrsp : (returned s₂.cpu).reg .rsp = 0x210f08 := by
    rw [returned_rsp, hcpu₂]
    rfl
  exact ⟨s₁, s₂, s₃, s₄, _, _, hstep₁, hcurrent₁, hrip₁, hreg₁ .rdi, hreg₁ .rsp, hstep₂, hstep₃, hcurrent₃, hrip₃,
    hrsp₃, hstep₄, hcurrent₄, hrip₄.trans hrip, (hreg₄ .rsp).trans hrsp⟩

end ThreadSched.Context
