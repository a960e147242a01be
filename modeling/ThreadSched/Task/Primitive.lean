import ThreadSched.Task.Tame

/-!
# What a call consists of

Every statement of a call is a sequence of a few kinds of writes, perhaps followed by a switch to the
next ready task.  What each kind of write keeps, every call keeps.

* `Prim` — one write.
* `Acts` — a sequence of writes, then perhaps `get_next_task`.
* `runStmt_acts` — every statement of a call is of this form.
* `KeptByHandler`, `KeptByActions` — a property that each operation keeps; `KeptByHandler.handler` and
  `KeptByActions.act` are the rules for the handler and for any action.
-/

set_option autoImplicit false

namespace ThreadSched

/-- What `task_unblock` does when its assertions hold. -/
def unblocked (t : TaskId) (s : Sched) : Sched :=
  ({ s with taskReadyList := t :: s.taskReadyList }.modTask t
    fun task => { task with status := .READY }).emit (.ready t .taskUnblock)

/-- The statuses `task_block` and `task_unblock` accept. -/
def Blocking (status : TaskStatus) : Prop := status = .BLOCKED ∨ status = .WAITING ∨ status = .HANGING

/-- One write of a call. -/
inductive Prim (s : Sched) : Sched → Prop
  | lock (l : LockId) (f : Lock → Lock) : l ≠ .tid ∧ l ≠ .timer → Prim s (s.modLock l f)
  | ioq (q : IoqId) (f : Ioqueue → Ioqueue) : Prim s (s.modIoq q f)
  | push (ss : List Stmt) : (∀ st ∈ ss, st.Plain ∧ st ≠ .loop) → Prim s (s.push s.currentTask ss)
  | pop (st : Stmt) (rest : List Stmt) : st ≠ .loop → s.conts s.currentTask = st :: rest →
      Prim s { s with conts := Function.update s.conts s.currentTask rest }
  | wake (t : TaskId) : Blocking (s.tasks t).status → t ∉ s.taskReadyList → Prim s (unblocked t s)
  | getchar (q : IoqId) (byte : BitVec 8) : Prim s (s.emit (.getchar s.currentTask q byte))

/-- A sequence of writes. -/
abbrev Prims : Sched → Sched → Prop := Relation.ReflTransGen Prim

/-- The current task with another status. -/
def Sched.setStatus (s : Sched) (status : TaskStatus) : Sched :=
  s.modTask s.currentTask fun task => { task with status := status }

/-- A sequence of writes; then the task may be blocked, and there is a switch, or the loop of a task
that finds none ready. -/
inductive Acts (s s' : Sched) : Prop
  | stay : Prims s s' → Acts s s'
  | switch (m : Sched) (status : TaskStatus) : Prims s m → Blocking status →
      getNextTask (m.setStatus status) = .ok s' → Acts s s'
  | idle (m : Sched) (status : TaskStatus) : Prims s m → Blocking status → m.taskReadyList = [] →
      s' = (m.setStatus status).push m.currentTask [.loop] → Acts s s'

variable {s m s' : Sched}

theorem Prim.current (h : Prim s s') : s'.currentTask = s.currentTask := by
  cases h <;> rfl

theorem Prims.current (h : Prims s s') : s'.currentTask = s.currentTask := by
  induction h with
  | refl => rfl
  | tail _ hp ih => exact hp.current.trans ih

/-- What every write keeps, a sequence of writes keeps. -/
theorem Prims.invariant {I : Sched → Prop} (hI : ∀ s s', I s → Prim s s' → I s') (hs : I s)
    (h : Prims s s') : I s' := by
  induction h with
  | refl => exact hs
  | tail _ hp ih => exact hI _ _ ih hp

theorem Prim.acts (h : Prim s m) (h' : Acts m s') : Acts s s' := by
  cases h' with
  | stay hm => exact .stay (Relation.ReflTransGen.head h hm)
  | switch m' status hm hb hs => exact .switch m' status (Relation.ReflTransGen.head h hm) hb hs
  | idle m' status hm hb hr hs =>
      exact .idle m' status (Relation.ReflTransGen.head h hm) hb hr hs

theorem Prims.acts (h : Prims s m) (h' : Acts m s') : Acts s s' := by
  cases h' with
  | stay hm => exact .stay (h.trans hm)
  | switch m' status hm hb hs => exact .switch m' status (h.trans hm) hb hs
  | idle m' status hm hb hr hs => exact .idle m' status (h.trans hm) hb hr hs

/-! ## Switches -/

theorem taskBlock_acts (s : Sched) (status : TaskStatus) :
    Returns (taskBlock status s) (Acts s) := by
  refine returns_assertThat fun hst => ?_
  refine Returns.ite (fun hidle => Returns.ok ?_) fun _ => returns_assertThat fun _ => ?_
  · exact .idle s status .refl hst hidle rfl
  · intro s' hs'
    exact .switch s status .refl hst hs'

theorem taskUnblock_eq (t : TaskId) (s : Sched) :
    Returns (taskUnblock t s) fun s' =>
      s' = unblocked t s ∧ Blocking (s.tasks t).status ∧ t ∉ s.taskReadyList := by
  refine returns_assertThat fun hst => ?_
  refine Returns.ite (fun _ => ?_) fun hne => ?_
  · exact returns_assertThat fun hn => Returns.pure ⟨rfl, hst, hn⟩
  · exfalso
    push Not at hne
    rw [hne] at hst
    simp at hst

theorem taskUnblock_prim (t : TaskId) (s : Sched) : Returns (taskUnblock t s) (Prim s) := by
  refine (taskUnblock_eq t s).imp ?_
  rintro s' ⟨rfl, hst, hn⟩
  exact .wake t hst hn

/-! ## Semaphores, locks and ioqueues -/

variable {l : LockId}

theorem semaTake_prim (hl : l ≠ .tid ∧ l ≠ .timer) (s : Sched) :
    Returns (semaTake l s) (Prim s) :=
  returns_assertThat fun _ => Returns.pure (.lock l _ hl)

theorem semaDown_acts (hl : l ≠ .tid ∧ l ≠ .timer) (s : Sched) :
    Returns (semaDown l s) (Acts s) := by
  refine Returns.ite (fun _ => returns_assertThat fun _ => ?_) fun _ =>
    (semaTake_prim hl s).imp fun _ hs' => .stay (.single hs')
  have hwait : Prim s (s.modLock l fun lock =>
      lock.setWaiters (listAppend lock.semaphore.waiters s.currentTask)) := .lock l _ hl
  have hplain : ∀ st ∈ [Stmt.semaDown l], st.Plain ∧ st ≠ .loop := by
    simpa [Stmt.Plain] using hl
  exact (taskBlock_acts _ .BLOCKED).imp fun s' hs' =>
    hwait.acts ((Prim.push _ hplain).acts hs')

theorem semaUp_prims (hl : l ≠ .tid ∧ l ≠ .timer) (s : Sched) :
    Returns (semaUp l s) (Prims s) := by
  refine returns_assertThat fun _ => Returns.bind (P := Prims s) ?_ fun s' hs' =>
    returns_assertThat fun _ => Returns.pure (hs'.tail (.lock l _ hl))
  refine Returns.ite (fun _ => ?_) fun _ => Returns.pure .refl
  cases (s.locks l).semaphore.waiters with
  | nil => exact Returns.error
  | cons t ws =>
      have hpop : Prim s (s.modLock l fun lock => lock.setWaiters ws) := .lock l _ hl
      exact (taskUnblock_prim t _).imp fun s' hs' => .head hpop (.single hs')

theorem lockAcquire_acts (hl : l ≠ .tid ∧ l ≠ .timer) (s : Sched) :
    Acts s (lockAcquire l s) := by
  unfold lockAcquire
  split
  · exact .stay (.single (.push _ (by simpa [Stmt.Plain] using hl)))
  · exact .stay (.single (.lock l _ hl))

theorem lockAcquired_prims (hl : l ≠ .tid ∧ l ≠ .timer) (s : Sched) :
    Returns (lockAcquired l s) (Prims s) :=
  returns_assertThat fun _ => Returns.pure (.head (.lock l _ hl) (.single (.lock l _ hl)))

theorem lockRelease_prims (hl : l ≠ .tid ∧ l ≠ .timer) (s : Sched) :
    Returns (lockRelease l s) (Prims s) := by
  refine returns_assertThat fun _ => Returns.ite (fun _ => Returns.pure (.single (.lock l _ hl)))
    fun _ => returns_assertThat fun _ => ?_
  exact (semaUp_prims hl _).imp fun s' hs' => .head (.lock l _ hl) hs'

theorem wakeupWaiter_prims (q : IoqId) (w : Waiter) (s : Sched) :
    Returns (wakeupWaiter q w s) (Prims s) := by
  unfold wakeupWaiter
  cases (s.ioqs q).waiter w with
  | none => exact Returns.pure .refl
  | some t =>
      exact (taskUnblock_prim t s).bind fun s' hs' =>
        Returns.pure (.head hs' (.single (.ioq q _)))

theorem ioqGetchar_acts (q : IoqId) (s : Sched) : Returns (ioqGetchar q s) (Acts s) := by
  refine Returns.ite (fun _ => Returns.pure (.stay (.single (.push _ (by simp [Stmt.Plain])))))
    fun _ => ?_
  refine (wakeupWaiter_prims q .producer _).bind fun s' hs' => Returns.pure (.stay ?_)
  exact .head (.ioq q _) (hs'.tail (.getchar q _))

theorem ioqPutchar_acts (q : IoqId) (byte : BitVec 8) (s : Sched) :
    Returns (ioqPutchar q byte s) (Acts s) :=
  Returns.ite (fun _ => Returns.pure (.stay (.single (.push _ (by simp [Stmt.Plain])))))
    fun _ => (wakeupWaiter_prims q .consumer _).imp fun s' hs' => .stay (.head (.ioq q _) hs')

/-- Every statement but the loop, by its kind. -/
theorem execStmt_acts {st : Stmt} (hst : st.Plain) (hloop : st ≠ .loop) (s : Sched) :
    Returns (execStmt st s) (Acts s) := by
  cases st with
  | lockAcquire l => exact Returns.pure (lockAcquire_acts hst s)
  | semaDown l => exact semaDown_acts hst s
  | lockAcquired l => exact (lockAcquired_prims hst s).imp fun _ => .stay
  | lockRelease l => exact (lockRelease_prims hst s).imp fun _ => .stay
  | ioqGetchar q => exact ioqGetchar_acts q s
  | ioqPutchar q byte => exact ioqPutchar_acts q byte s
  | ioqWait q w =>
      exact returns_assertThat fun _ => (taskBlock_acts _ .BLOCKED).imp fun s' hs' =>
        (Prim.ioq q _).acts hs'
  | sleepSpin =>
      exact Returns.ite (fun _ => Returns.pure (.stay (.single (.push _ (by simp [Stmt.Plain])))))
        fun _ => Returns.pure (.stay .refl)
  | loop => exact absurd rfl hloop

/-- A round of the loop changes nothing. -/
theorem runStmt_loop (h : (s.conts s.currentTask).head? = some .loop) :
    (runStmt s).getD (pure s) = .ok s := by
  unfold runStmt
  cases hc : s.conts s.currentTask with
  | nil =>
      rw [hc] at h
      cases h
  | cons st rest =>
      rw [hc, List.head?_cons, Option.some_inj] at h
      subst h
      have hsame : ({ s with conts := Function.update s.conts s.currentTask rest }.push
          s.currentTask [.loop]) = s := by
        have hconts : Function.update (Function.update s.conts s.currentTask rest) s.currentTask
            ([.loop] ++ rest) = s.conts := by
          rw [Function.update_idem, show [Stmt.loop] ++ rest = s.conts s.currentTask from hc.symm,
            Function.update_eq_self]
        simp only [Sched.push, Function.update_self, hconts]
      show Except.ok ({ s with conts := Function.update s.conts s.currentTask rest }.push
          s.currentTask [.loop]) = Except.ok s
      rw [hsame]

/-- **Every statement of a call** is a sequence of writes, then perhaps a switch. -/
theorem runStmt_acts (ht : Tame s) : Returns ((runStmt s).getD (pure s)) (Acts s) := by
  by_cases hloop : (s.conts s.currentTask).head? = some .loop
  · rw [runStmt_loop hloop]
    exact Returns.ok (.stay .refl)
  unfold runStmt
  cases hc : s.conts s.currentTask with
  | nil => exact Returns.pure (.stay .refl)
  | cons st rest =>
      have hst : st.Plain := ht.conts s.currentTask st (by rw [hc]; exact List.mem_cons_self)
      have hne : st ≠ .loop := by
        rintro rfl
        exact hloop (by rw [hc, List.head?_cons])
      exact (execStmt_acts hst hne _).imp fun s' hs' => (Prim.pop st rest hne hc).acts hs'

/-! ## What every operation keeps -/

/-- Kept by the callbacks and by what the handler does after `run_timer`. -/
structure KeptByHandler (I : Sched → Prop) : Prop where
  locks : ∀ s locks, I s → I { s with locks := locks }
  call : ∀ n j s, I s → Returns (timerCall n j s) I
  next : ∀ s, I s → Returns (getNextTask s) I
  schedule : ∀ s, I s → Returns (schedule s) I
  countDown : ∀ s, I s → s.current.ticks ≠ 0 → I s.countDown

/-- Kept by every operation but the exit of a task and its going to sleep. -/
structure KeptByActions (I : Sched → Prop) : Prop extends KeptByHandler I where
  prim : ∀ s s', I s → Prim s s' → I s'
  status : ∀ s status, I s → Blocking status → I (s.setStatus status)
  loop : ∀ s, I s → I (s.push s.currentTask [.loop])
  start : ∀ addr stack prio s, I s → Tame s → Returns (taskStart addr stack prio s) I

section

variable {I : Sched → Prop} {w : World}

theorem KeptByHandler.advance (hI : KeptByHandler I) (h : I w.sched) (ht : Tame w.sched) (r : Nat) :
    Returns (w.advance r) fun v => I v.sched :=
  World.advance_invariant hI.call hI.locks r ht h

/-- **The handler.** -/
theorem KeptByHandler.handler (hI : KeptByHandler I) (h : I w.sched) (ht : Tame w.sched) (r : Nat) :
    Returns (interruptTimerHandler r w) fun w' => I w'.sched := by
  refine returns_assertThat fun _ => ((hI.advance h ht r).and (ht.advance r)).bind ?_
  rintro v ⟨hv, htv⟩
  refine Returns.ite (fun _ => ?_) fun hz => Returns.ite (fun hflag => Returns.pure ?_) fun _ => ?_
  · exact (hI.schedule _ hv).bind fun s hs => Returns.pure hs
  · exact hI.countDown _ hv fun h0 => hz ⟨hflag, h0⟩
  · refine returns_createTimer htv.timer ?_
    exact Returns.bind (P := I)
      (Returns.ite (fun _ => Returns.error) fun _ => hI.next _ hv) fun s hs => Returns.pure hs

theorem KeptByActions.acts (hI : KeptByActions I) (h : I s) (ha : Acts s s') : I s' := by
  cases ha with
  | stay hp => exact hp.invariant hI.prim h
  | switch m status hp hst hs => exact hI.next _ (hI.status _ _ (hp.invariant hI.prim h) hst) s' hs
  | idle m status hp hst _ hs =>
      rw [hs]
      exact hI.loop _ (hI.status _ _ (hp.invariant hI.prim h) hst)

/-- **Any action**; what an exit and going to sleep keep are hypotheses. -/
theorem KeptByActions.act (hI : KeptByActions I) (h : I w.sched) (ht : Tame w.sched) (a : Action)
    (hmark : ∀ milliseconds, a = .sleep milliseconds → I (markAsleep milliseconds w.sched))
    (hexit : a = .taskExit → Returns (taskExit w.sched.currentTask w.sched) I) :
    Returns (w.act a) fun w' => I w'.sched := by
  have hpush : ∀ st : Stmt, st.Plain → st ≠ .loop → I (w.sched.push w.sched.currentTask [st]) :=
    fun st hst hne => hI.prim _ _ h (.push [st] (by simpa using ⟨hst, hne⟩))
  have hsched : Returns (schedAction w.sched a >>= fun s => pure { w with sched := s })
      fun w' : World => I w'.sched := by
    refine Returns.bind (P := I) ?_ fun s hs => Returns.pure hs
    cases a with
    | taskStart addr stack prio => exact hI.start addr stack prio _ h ht
    | taskExit => exact hexit rfl
    | lockAcquire l => exact Returns.pure (hpush _ ⟨nofun, nofun⟩ nofun)
    | lockRelease l => exact Returns.pure (hpush _ ⟨nofun, nofun⟩ nofun)
    | ioqGetchar q => exact Returns.pure (hpush _ trivial nofun)
    | ioqPutchar q byte => exact Returns.pure (hpush _ trivial nofun)
    | sleep milliseconds => exact Returns.pure (hmark milliseconds rfl)
    | resume => exact (runStmt_acts ht).imp fun _ => hI.acts h
    | tick r => exact Returns.pure h
  cases a with
  | tick r => exact hI.handler h ht r
  | _ => exact hsched

end

end ThreadSched
