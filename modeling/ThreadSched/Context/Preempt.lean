import ThreadSched.Context.Switch

/-!
# What a preempted task finds again

A signal frame carries flags and selectors, the assembly carries neither, and it pushes `rip` below the stack
pointer of the task it resumes.

* `Invisible` — user selectors, and for an interrupted task its flags and its red zone;
* `Complete` — a dispatch restores all its source kept: through the frame only a context with selectors in
  it, by the assembly only a task that was not interrupted;
* `preemption_invisible` — runs of such dispatches;
* `interrupted_resumed_by_set` — an interrupted task that another task's death resumes has other flags.

The machine is that of `Routines`, without a floating-point state.
-/

set_option autoImplicit false

namespace ThreadSched.Context

open Memory X86

/-- What a resumed task must find. -/
structure Invisible (L : Layout) (s : Sys) (p : Snap) : Prop where
  cs : s.cpu.cs = L.userCs
  ss : s.cpu.ss = L.userSs
  eflags : p.how = .interrupted → s.cpu.eflags = p.cpu.eflags
  red : p.how = .interrupted → Same p.cpu.mem s.cpu.mem (redZone p.cpu) 128

/-- Before a dispatch: a frame is filled from a context that has selectors, and the assembly resumes a task
that it suspended itself or that is new. -/
def Complete (s : Sys) : Event → Prop
  | .run => True
  | .create _ => True
  | .byFrame n _ => s.marked n = true ∨ n = s.current
  | .bySwap _ p => p.how ≠ .interrupted
  | .bySet _ p => p.how ≠ .interrupted

/-- The selectors in the context of a task. -/
structure Selectors (cs ss : BitVec 16) (L : Layout) (m : Mem) (n : TaskId) : Prop where
  cs : load16 m (off (L.ctx n) csOffset) = cs
  ss : load16 m (off (L.ctx n) ssOffset) = ss

/-- The context of a task has user selectors. -/
abbrev Selected (L : Layout) : Mem → TaskId → Prop := Selectors L.userCs L.userSs L

/-- User code runs, and the marked contexts would let it run. -/
structure SelectInv (L : Layout) (s : Sys) : Prop where
  cs : s.cpu.cs = L.userCs
  ss : s.cpu.ss = L.userSs
  selected : ∀ n, Live s n → s.marked n = true → Selected L s.cpu.mem n

section

variable {L : Layout} {s s' : Sys} {m m' : Mem} {n k : TaskId} {p : Snap} {e : Event} {f : Addr}
  {c : Cpu} {function funcArg : BitVec 64} {cs ss : BitVec 16}

theorem Selectors.same (h : Selectors cs ss L m n) (hctx : Same m m' (L.ctx n) sizeofSigcontext) :
    Selectors cs ss L m' n where
  cs := by rw [(hctx.sub (by decide)).load16, h.cs]
  ss := by rw [(hctx.sub (by decide)).load16, h.ss]

/-! ## Where selectors are stored -/

theorem selected_created (hcs : c.cs = L.userCs) (hss' : c.ss = L.userSs) :
    Selected L (taskCreate L c n function funcArg) n := by
  have hrest : ∀ m q, 8 * 17 ≤ q → q + 2 ≤ sizeofSigcontext → Same m (storeWords m (L.ctx n)
      [(ripSlot, L.taskEntrance), (slot .rdi, function), (slot .rsi, funcArg)]) (off (L.ctx n) q) 2 := by
    intro m q hq hlt
    unfold sizeofSigcontext at hlt
    refine Same.storeWords_within ?_ (by simp [slot, ripSlot]) (by omega)
    intro x hx
    simp only [List.mem_cons, List.not_mem_nil, or_false] at hx
    rcases hx with rfl | rfl | rfl <;> simp only [slot, ripSlot] <;> omega
  have hss : ∀ m : Mem, Same (store16 m (off (L.ctx n) csOffset) c.cs)
      (store16 (store16 m (off (L.ctx n) csOffset) c.cs) (off (L.ctx n) ssOffset) c.ss)
      (off (L.ctx n) csOffset) 2 := fun m => Same.store16 (Apart.within (by decide) (by decide) (by decide))
  unfold taskCreate
  simp only [getReg_mem]
  constructor
  · rw [(hrest _ csOffset (by decide) (by decide)).load16, (hss _).load16, load16_store16_self, hcs]
  · rw [(hrest _ ssOffset (by decide) (by decide)).load16, load16_store16_self, hss']

/-- The first copy of the handler stores the selectors of the interrupted task. -/
theorem selected_interrupted (hcs : c.cs = L.userCs) (hss : c.ss = L.userSs) :
    Selected L (copy (kernelSave c f) (L.ctx n) f sizeofSigcontext) n where
  cs := by rw [load16_copy (by decide) (by decide), load16_kernelSave_cs, hcs]
  ss := by rw [load16_copy (by decide) (by decide), load16_kernelSave_ss, hss]

/-- The first copy of the handler leaves the contexts of the other tasks alone. -/
theorem Selectors.others (h : Selectors cs ss L s.cpu.mem n) (hp : Placed L s)
    (hframe : Inside f sizeofSigcontext (L.stackMin s.current) (L.stackSize s.current)) (hn : Live s n)
    (hne : n ≠ s.current) :
    Selectors cs ss L (copy (kernelSave s.cpu f) (L.ctx s.current) f sizeofSigcontext) n := by
  have hsep := hp.apart _ _ live_current hn hne.symm
  exact h.same ((same_kernelSave (hsep.stackCtx.inside hframe)).trans (Same.copy hsep.ctx))

/-- `context_swap` stores no selectors. -/
theorem Selectors.swapped (h : Selectors cs ss L c.mem n) :
    Selectors cs ss L (storeWords c.mem (L.ctx n) (swapWords c)) n := by
  have hrest : ∀ q, 8 * 17 ≤ q → q + 2 ≤ sizeofSigcontext →
      Same c.mem (storeWords c.mem (L.ctx n) (swapWords c)) (off (L.ctx n) q) 2 := by
    intro q hq hlt
    unfold sizeofSigcontext at hlt
    refine Same.storeWords_within (fun w hw => ?_) (fun w hw => ?_) (by omega)
    · have hlt := swapWords_lt w hw
      omega
    · have hlt := swapWords_lt w hw
      omega
  exact ⟨by rw [(hrest csOffset (by decide) (by decide)).load16, h.cs],
    by rw [(hrest ssOffset (by decide) (by decide)).load16, h.ss]⟩

/-! ## Steps -/

/-- The word pushed for the task that goes on is in no context. -/
theorem Selectors.resumed (h : Selectors cs ss L c.mem k) (hown : OwnApart L n)
    (hsep : k ≠ n → Separate L n k) (hn : Held L c.mem n p) : Selectors cs ss L (resumed c (L.ctx n)).mem k := by
  rw [resumed_mem, hn.reg]
  by_cases hk : k = n
  · subst hk
    exact h.same (Same.store64 (hown.symm.inside hn.below))
  · exact h.same (Same.store64 ((hsep hk).stackCtx.inside hn.below))

/-- No step but a signal in the task itself changes the selectors in the context of a live task. -/
theorem Selectors.step (h : Selectors cs ss L s.cpu.mem n) (hi : SwitchInv L s) (hs : Step L s e s')
    (hn : Live s n) (hint : ∀ k p, e = .byFrame k p → n ≠ s.current) : Selectors cs ss L s'.cpu.mem n := by
  cases hs with
  | run hcs hss hctx hred => exact h.same (hctx n hn)
  | create k function funcArg hnew hsize hown hsep => exact h.same (same_taskCreate (hsep n hn).1.ctx)
  | signal f next p hframe hred hbelow hnext =>
      have hsep := hi.placed.apart _ _ live_current hn (hint next p rfl).symm
      have hctx : Apart f sizeofSigcontext (L.ctx n) sizeofSigcontext := hsep.stackCtx.inside hframe
      exact (h.others hi.placed hframe hn (hint next p rfl)).same (Same.copy hctx)
  | block next p hrdi hrsi hstack hnext =>
      have hk : Live s next := live_saved hnext
      have hnext' : Function.update s.saved s.current (some ⟨returned s.cpu, .swapped⟩) next = some p :=
        (Function.update_of_ne (hi.next_ne hnext) ..).trans hnext
      have hstored : Selectors cs ss L (storeWords s.cpu.mem (L.ctx s.current) (swapWords s.cpu)) n := by
        by_cases hnc : n = s.current
        · subst hnc
          exact h.swapped
        · exact h.same (Same.storeWords (hi.placed.apart _ _ live_current hn (Ne.symm hnc)).ctx swapWords_fit)
      show Selectors cs ss L (X86.run s.cpu contextSwap).mem n
      rw [hi.contextSwap hrdi hrsi hstack hnext]
      exact Selectors.resumed hstored (hi.placed.own next hk)
        (fun hne => hi.placed.apart next n hk hn (Ne.symm hne)) (hi.swapped hstack hnext')
  | died next p hrdi hnext =>
      have hk : Live s next := live_saved hnext
      show Selectors cs ss L (X86.run s.cpu contextSet).mem n
      rw [hi.contextSet hrdi hnext]
      exact h.resumed (hi.placed.own next hk) (fun hne => hi.placed.apart next n hk hn (Ne.symm hne))
        (hi.held next p hnext)

/-- A live task was live before, or the step has created it. -/
theorem live_step (hs : Step L s e s') (hn : Live s' n) : Live s n ∨ e = .create n := by
  cases hs with
  | run hcs hss hctx hred => exact .inl hn
  | create k function funcArg hnew hsize hown hsep =>
      by_cases hnk : n = k
      · subst hnk
        exact .inr rfl
      · refine .inl (hn.imp id fun hn => ?_)
        replace hn : (Function.update s.saved k (some (created L s.cpu k function funcArg)) n).isSome := hn
        rwa [Function.update_of_ne hnk] at hn
  | signal f next p hframe hred hbelow hnext => exact .inl (live_of_dispatch (live_of_signal hnext) hn)
  | block next p hrdi hrsi hstack hnext => exact .inl (live_of_dispatch (live_saved hnext) hn)
  | died next p hrdi hnext => exact .inl (live_of_died (live_saved hnext) hn)

/-- A signal stores the selectors of the task it interrupts, and the frame is apart from its context. -/
theorem SelectInv.signal (h : SelectInv L s) (hp : Placed L s)
    (hframe : Inside f sizeofSigcontext (L.stackMin s.current) (L.stackSize s.current)) :
    Selected L (frameSwitch L (kernelSave s.cpu f) f s.current k) s.current :=
  (selected_interrupted h.cs h.ss).same (Same.copy ((hp.own _ live_current).symm.inside hframe))

theorem selectInv_step (h : SelectInv L s) (hi : SwitchInv L s) (hs : Step L s e s') (hok : Complete s e) :
    SelectInv L s' := by
  have hkeep : ∀ n, Live s n → s.marked n = true → (∀ k p, e = .byFrame k p → n ≠ s.current) →
      Selected L s'.cpu.mem n := fun n hn hm hint => (h.selected n hn hm).step hi hs hn hint
  cases hs with
  | run hcs hss hctx hred =>
      exact ⟨hcs.trans h.cs, hss.trans h.ss, fun n hn hm => hkeep n hn hm (by simp)⟩
  | create k function funcArg hnew hsize hown hsep =>
      refine ⟨h.cs, h.ss, fun n hn hm => ?_⟩
      by_cases hnk : n = k
      · subst hnk
        exact selected_created h.cs h.ss
      · have hlive : Live s n :=
          (live_step (Step.create k function funcArg hnew hsize hown hsep) hn).resolve_right
            (by simpa using Ne.symm hnk)
        replace hm : Function.update s.marked k true n = true := hm
        rw [Function.update_of_ne hnk] at hm
        exact hkeep n hlive hm (by simp)
  | signal f next p hframe hred hbelow hnext =>
      have hmark : s.marked next = true ∨ next = s.current := hok
      have hloaded : Selected L (copy (kernelSave s.cpu f) (L.ctx s.current) f sizeofSigcontext) next := by
        by_cases hne : next = s.current
        · subst hne
          exact selected_interrupted h.cs h.ss
        · exact (h.selected next (live_of_signal hnext) (hmark.resolve_right hne)).others hi.placed hframe
            (live_of_signal hnext) hne
      refine ⟨(load16_copy (by decide) (by decide)).trans hloaded.cs,
        (load16_copy (by decide) (by decide)).trans hloaded.ss, fun n hn hm => ?_⟩
      by_cases hnc : n = s.current
      · subst hnc
        exact h.signal hi.placed hframe
      · replace hm : Function.update s.marked s.current true n = true := hm
        rw [Function.update_of_ne hnc] at hm
        exact hkeep n (live_of_dispatch (live_of_signal hnext) hn) hm fun _ _ _ => hnc
  | block next p hrdi hrsi hstack hnext =>
      have hrun := hi.contextSwap hrdi hrsi hstack hnext
      exact ⟨(congrArg Cpu.cs hrun).trans (resumed_cs.trans h.cs),
        (congrArg Cpu.ss hrun).trans (resumed_ss.trans h.ss),
        fun n hn hm => hkeep n (live_of_dispatch (live_saved hnext) hn) hm (by simp)⟩
  | died next p hrdi hnext =>
      have hrun := hi.contextSet hrdi hnext
      exact ⟨(congrArg Cpu.cs hrun).trans (resumed_cs.trans h.cs),
        (congrArg Cpu.ss hrun).trans (resumed_ss.trans h.ss),
        fun n hn hm => hkeep n (live_of_died (live_saved hnext) hn) hm (by simp)⟩

theorem selectInv_reach (h : Reach L Complete s) : SelectInv L s := by
  induction h with
  | start h =>
      refine ⟨h.cs, h.ss, fun n _ hm => ?_⟩
      rw [h.unmarked n] at hm
      cases hm
  | step hr hok hs ih => exact selectInv_step ih (switchInv_reach hr) hs hok

/-- In a run of complete dispatches every dispatched task has user selectors, and an interrupted one its
flags and its red zone. -/
theorem preemption_invisible (h : Reach L Complete s) (hs : Step L s e s') (hok : Complete s e)
    (he : e.dispatched = some (n, p)) : Invisible L s' p := by
  have hi := switchInv_reach h
  have hsel := selectInv_step (selectInv_reach h) hi hs hok
  cases hs with
  | run => cases he
  | create => cases he
  | signal f next q hframe hred hbelow hnext =>
      cases he
      have hheld := hi.interrupted hframe hred hbelow hnext
      refine ⟨hsel.cs, hsel.ss, fun hint => ?_, fun hint => ?_⟩
      · exact (load64_copy (by decide) (by decide)).trans (hheld.eflags hint)
      · exact (hi.framed hframe hbelow hnext hheld).red hint
  | block next q hrdi hrsi hstack hnext =>
      cases he
      exact ⟨hsel.cs, hsel.ss, fun hint => absurd hint hok, fun hint => absurd hint hok⟩
  | died next q hrdi hnext =>
      cases he
      exact ⟨hsel.cs, hsel.ss, fun hint => absurd hint hok, fun hint => absurd hint hok⟩

end

/-! ## Main is preempted by one more task -/

/-- A signal in `main` has dispatched task 1. -/
def taskDispatched : Sys where
  cpu := sigreturn (frameSwitch pairLayout (kernelSave mainAndTask.cpu 0x200100) 0x200100 0 1) 0x200100
  current := 1
  saved := Function.update (Function.update mainAndTask.saved 0 (some ⟨mainAndTask.cpu, .interrupted⟩)) 1 none
  marked := Function.update mainAndTask.marked 0 true

/-- The running task has computed: it has other registers and other flags. -/
def computed (s : Sys) (rsp rdi rsi : BitVec 64) : Sys :=
  let reg : Reg → BitVec 64
    | .rsp => rsp
    | .rdi => rdi
    | .rsi => rsi
    | _ => 0
  { s with cpu := { s.cpu with reg := reg, eflags := 1 } }

theorem mainAndTask_reach {ok : Sys → Event → Prop} (h : ok mainAlone (.create 1)) :
    Reach pairLayout ok mainAndTask := (Reach.start mainAlone_start).step h mainAlone_create

theorem mainAndTask_signal : Step pairLayout mainAndTask
    (.byFrame 1 (created pairLayout mainAlone.cpu 1 0x400400 7)) taskDispatched :=
  Step.signal 0x200100 1 _ ⟨0x100, by decide, by decide⟩ ⟨0x780, by decide, by decide⟩
    (Apart.of_toNat (by decide) (by decide)) rfl

theorem computed_step {L : Layout} {s : Sys} {rsp rdi rsi : BitVec 64} :
    Step L s .run (computed s rsp rdi rsi) :=
  Step.run rfl rfl (fun _ _ => Same.refl) fun _ _ _ _ => Same.refl

/-- The next signal lets `main` go on with its flags. -/
theorem preemption_invisible_main : ∃ s', Step pairLayout (computed taskDispatched 0x210800 0 0)
    (.byFrame 0 ⟨mainAndTask.cpu, .interrupted⟩) s' ∧ s'.cpu.eflags = 0x202 ∧ s'.cpu.cs = 0x33 := by
  have hreach : Reach pairLayout Complete (computed taskDispatched 0x210800 0 0) :=
    ((mainAndTask_reach (by trivial)).step (.inl rfl) mainAndTask_signal).step (by trivial) computed_step
  have hstep := Step.signal (L := pairLayout) (s := computed taskDispatched 0x210800 0 0) 0x210100 0
    ⟨mainAndTask.cpu, .interrupted⟩ ⟨0x100, by decide, by decide⟩ ⟨0x780, by decide, by decide⟩
    (Apart.of_toNat (by decide) (by decide)) rfl
  have hinv := preemption_invisible hreach hstep (.inl rfl) rfl
  exact ⟨_, hstep, hinv.eflags rfl, hinv.cs⟩

/-- The death of the task lets `main` go on with the flags of the task. -/
theorem interrupted_resumed_by_set : ¬ ∀ (L : Layout) (s s' : Sys) (e : Event) (n : TaskId) (p : Snap),
    Reach L (fun _ _ => True) s → Step L s e s' → e.dispatched = some (n, p) → Invisible L s' p := by
  intro h
  have hreach : Reach pairLayout (fun _ _ => True) (computed taskDispatched 0x210800 0x100000 0) :=
    ((mainAndTask_reach trivial).step trivial mainAndTask_signal).step trivial computed_step
  have hstep := Step.died (L := pairLayout) (s := computed taskDispatched 0x210800 0x100000 0) 0
    ⟨mainAndTask.cpu, .interrupted⟩ rfl rfl
  have hflags := (h _ _ _ _ _ _ hreach hstep rfl).eflags rfl
  have hrun := (switchInv_reach hreach).contextSet (n := 0) (p := ⟨mainAndTask.cpu, .interrupted⟩) rfl rfl
  have hkept := (congrArg Cpu.eflags hrun).trans resumed_eflags
  have hne : (1 : BitVec 64) = 0x202 := hkept.symm.trans hflags
  exact absurd hne (by decide)

end ThreadSched.Context
