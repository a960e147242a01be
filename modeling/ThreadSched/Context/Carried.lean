import ThreadSched.Context.Preempt

/-!
# What the two ways of resuming a task carry over

Exactly what a task finds that its context does not say, whatever the run was.

* `resumed_by_assembly` — the assembly leaves the flags and selectors of the task that gave up the processor,
  and of the red zone everything but the word that now holds `rip`;
* `unmarked_dispatched_without_selectors` — a frame filled from a context no signal and no `task_create` has
  stored selectors in gets none.
-/

set_option autoImplicit false

namespace ThreadSched.Context

open Memory X86

/-- The contexts no selectors were stored in are as `init_task` cleared them. -/
def ClearInv (L : Layout) (s : Sys) : Prop :=
  ∀ n, Live s n → s.marked n = false → Selectors 0 0 L s.cpu.mem n

section

variable {L : Layout} {s s' : Sys} {m : Mem} {n k : TaskId} {p : Snap} {e : Event} {f : Addr} {c : Cpu}
  {function funcArg : BitVec 64} {ok : Sys → Event → Prop}

/-! ## Resumed by the assembly -/

/-- What a resumed task finds when the assembly resumed it. -/
structure Inherits (s s' : Sys) (p : Snap) : Prop where
  eflags : s'.cpu.eflags = s.cpu.eflags
  cs : s'.cpu.cs = s.cpu.cs
  ss : s'.cpu.ss = s.cpu.ss
  pushed : load64 s'.cpu.mem (p.cpu.reg .rsp - 8) = p.cpu.rip
  rest : p.how = .interrupted → Same p.cpu.mem s'.cpu.mem (redZone p.cpu) 120

theorem Held.pushed (h : Held L c.mem n p) :
    load64 (Context.resumed c (L.ctx n)).mem (p.cpu.reg .rsp - 8) = p.cpu.rip := by
  rw [resumed_mem, h.reg, h.rip, load64_store64_self]

/-- The word pushed is the highest of the red zone. -/
theorem Held.rest (h : Held L c.mem n p) (hint : p.how = .interrupted) :
    Same p.cpu.mem (Context.resumed c (L.ctx n)).mem (redZone p.cpu) 120 := by
  have hlow : Same p.cpu.mem c.mem (off (redZone p.cpu) 0) 120 := (h.red hint).sub (by omega)
  have hstore : Same c.mem (store64 c.mem (off (redZone p.cpu) 120) p.cpu.rip) (off (redZone p.cpu) 0) 120 :=
    Same.store64 (Apart.within (.inr (by omega)) (by omega) (by omega))
  rw [off_zero] at hlow hstore
  rw [resumed_mem, h.reg, h.rip, ← redZone_add]
  exact hlow.trans hstore

theorem Held.inherits (h : Held L c.mem n p) (hrun : s'.cpu = Context.resumed c (L.ctx n))
    (heflags : c.eflags = s.cpu.eflags) (hcs : c.cs = s.cpu.cs) (hss : c.ss = s.cpu.ss) : Inherits s s' p where
  eflags := by rw [hrun, resumed_eflags, heflags]
  cs := by rw [hrun, resumed_cs, hcs]
  ss := by rw [hrun, resumed_ss, hss]
  pushed := by
    rw [hrun]
    exact h.pushed
  rest hint := by
    rw [hrun]
    exact h.rest hint

/-- `context_swap` and `context_set`, in every run. -/
theorem resumed_by_assembly (h : Reach L (fun _ _ => True) s) (hs : Step L s e s')
    (he : e = .bySwap n p ∨ e = .bySet n p) : Inherits s s' p := by
  have hinv := switchInv_reach h
  cases hs with
  | run => simp at he
  | create => simp at he
  | signal => simp at he
  | block next q hrdi hrsi hstack hnext =>
      rcases he with he | he <;> cases he
      have hnext' : Function.update s.saved s.current (some ⟨returned s.cpu, .swapped⟩) n = some p :=
        (Function.update_of_ne (hinv.next_ne hnext) ..).trans hnext
      exact Held.inherits (c := s.cpu.setMem (storeWords s.cpu.mem (L.ctx s.current) (swapWords s.cpu)))
        (hinv.swapped hstack hnext') (hinv.contextSwap hrdi hrsi hstack hnext) rfl rfl rfl
  | died next q hrdi hnext =>
      rcases he with he | he <;> cases he
      exact (hinv.held n p hnext).inherits (hinv.contextSet hrdi hnext) rfl rfl rfl

/-! ## Dispatched without selectors -/

theorem clearInv_start (h : Start L s) : ClearInv L s := by
  rintro n (rfl | hn) -
  · have hbytes : ∀ q, q + 2 ≤ sizeofSigcontext → load16 s.cpu.mem (off (L.ctx s.current) q) = 0 := by
      intro q hq
      have hzero : ∀ i < 2, s.cpu.mem (off (off (L.ctx s.current) q) i) = BitVec.ofNat 8 (0 / 256 ^ i) := by
        intro i hi
        rw [off_off, h.cleared (q + i) (by omega), Nat.zero_div]
        rfl
      unfold load16
      rw [loadNat_of_bytes hzero]
      rfl
    exact ⟨hbytes csOffset (by decide), hbytes ssOffset (by decide)⟩
  · simp [h.alone n] at hn

theorem clearInv_step (h : ClearInv L s) (hi : SwitchInv L s) (hs : Step L s e s') : ClearInv L s' := by
  intro n hn hm
  have hkept : s.marked n = false ∧ e ≠ .create n ∧ ∀ k p, e = .byFrame k p → n ≠ s.current := by
    cases hs with
    | run hcs hss hctx hred => exact ⟨hm, by simp, by simp⟩
    | create k function funcArg hnew hsize hown hsep =>
        have hnk : n ≠ k := by
          rintro rfl
          simp at hm
        replace hm : Function.update s.marked k true n = false := hm
        rw [Function.update_of_ne hnk] at hm
        exact ⟨hm, by simpa using hnk.symm, by simp⟩
    | signal f next p hframe hred hbelow hnext =>
        have hnc : n ≠ s.current := by
          rintro rfl
          simp at hm
        replace hm : Function.update s.marked s.current true n = false := hm
        rw [Function.update_of_ne hnc] at hm
        exact ⟨hm, by simp, fun _ _ _ => hnc⟩
    | block next p hrdi hrsi hstack hnext => exact ⟨hm, by simp, by simp⟩
    | died next p hrdi hnext => exact ⟨hm, by simp, by simp⟩
  have hlive : Live s n := (live_step hs hn).resolve_right hkept.2.1
  exact (h n hlive hkept.1).step hi hs hlive hkept.2.2

theorem clearInv_reach (h : Reach L ok s) : ClearInv L s := by
  induction h with
  | start h => exact clearInv_start h
  | step hr _ hs ih => exact clearInv_step ih (switchInv_reach hr) hs

/-- A signal that dispatches a task whose context no selectors were stored in, in every run. -/
theorem unmarked_dispatched_without_selectors (h : Reach L (fun _ _ => True) s)
    (hs : Step L s (.byFrame n p) s') (hm : s.marked n = false) (hne : n ≠ s.current) :
    s'.cpu.cs = 0 ∧ s'.cpu.ss = 0 := by
  have hi := switchInv_reach h
  cases hs with
  | signal f next q hframe hred hbelow hnext =>
      have hn := live_of_signal hnext
      have hloaded := (clearInv_reach h n hn hm).others hi.placed hframe hn hne
      exact ⟨(load16_copy (by decide) (by decide)).trans hloaded.cs,
        (load16_copy (by decide) (by decide)).trans hloaded.ss⟩

end

/-! ## Main and one more task -/

/-- The task dies and leaves `main`, which a signal had interrupted, its own flags. -/
theorem resumed_by_assembly_main : ∃ s', Step pairLayout (computed taskDispatched 0x210800 0x100000 0)
    (.bySet 0 ⟨mainAndTask.cpu, .interrupted⟩) s' ∧ s'.cpu.eflags = 1 ∧
      load64 s'.cpu.mem 0x2007f8 = 0x400800 := by
  have hreach : Reach pairLayout (fun _ _ => True) (computed taskDispatched 0x210800 0x100000 0) :=
    ((mainAndTask_reach trivial).step trivial mainAndTask_signal).step trivial computed_step
  have hstep := Step.died (L := pairLayout) (s := computed taskDispatched 0x210800 0x100000 0) 0
    ⟨mainAndTask.cpu, .interrupted⟩ rfl rfl
  have hinherits := resumed_by_assembly hreach hstep (.inr rfl)
  exact ⟨_, hstep, hinherits.eflags, hinherits.pushed⟩

/-- `main` has called `context_swap` before any signal, and the task it has created runs. -/
def mainBlocked : Sys where
  cpu := X86.run (computed mainAndTask 0x200800 0x100000 0x101000).cpu contextSwap
  current := 1
  saved := Function.update (Function.update mainAndTask.saved 0
    (some ⟨returned (computed mainAndTask 0x200800 0x100000 0x101000).cpu, .swapped⟩)) 1 none
  marked := mainAndTask.marked

theorem mainAndTask_block : Step pairLayout (computed mainAndTask 0x200800 0x100000 0x101000)
    (.bySwap 1 (created pairLayout mainAlone.cpu 1 0x400400 7)) mainBlocked :=
  Step.block 1 _ rfl rfl ⟨0x800, by decide, by decide⟩ rfl

/-- A signal in the task then dispatches `main`. -/
theorem unmarked_dispatched_without_selectors_main : ∃ s s' p, Reach pairLayout (fun _ _ => True) s ∧
    Step pairLayout s (.byFrame 0 p) s' ∧ p.how = .swapped ∧ s'.cpu.cs = 0 := by
  have hreach : Reach pairLayout (fun _ _ => True) (computed mainBlocked 0x210800 0 0) :=
    (((mainAndTask_reach trivial).step trivial computed_step).step trivial mainAndTask_block).step trivial
      computed_step
  have hstep := Step.signal (L := pairLayout) (s := computed mainBlocked 0x210800 0 0) 0x210100 0
    ⟨returned (computed mainAndTask 0x200800 0x100000 0x101000).cpu, .swapped⟩
    ⟨0x100, by decide, by decide⟩ ⟨0x780, by decide, by decide⟩ (Apart.of_toNat (by decide) (by decide)) rfl
  have hnone := unmarked_dispatched_without_selectors hreach hstep rfl (by decide)
  exact ⟨_, _, _, hreach, hstep, rfl, hnone.1⟩

end ThreadSched.Context
