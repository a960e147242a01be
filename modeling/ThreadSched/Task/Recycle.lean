import ThreadSched.Task.Idle

/-!
# Recycling task structs

`task_start` takes the oldest struct of `task_pool_list` when there is one, and asserts that its
status is not `TASK_DIED`.  `task_exit` has set exactly that status, so a struct is never used again.

* `recycleRuns` — tasks are only started and only exit.
* `StacksListed` — every allocated stack is the stack of one struct that is live or in the pool.
* `Stacks` — the invariant: it is the stack of one allocated struct.
* `task_start_recycles_nothing` — with a struct in the pool `task_start` fails; the main task's stack is
  lost when it exits.
-/

set_option autoImplicit false

namespace ThreadSched

/-- The runs that are made of `task_start` and `task_exit(current_task)` only. -/
def recycleRuns : Trans.Sys World where
  init := World.Init
  step w w' := ∃ a : Action, ((∃ addr stack prio, a = .taskStart addr stack prio) ∨ a = .taskExit) ∧
    a.enabled w ∧ w.act a = .ok w'

/-- Every struct in the pool has died. -/
def PoolDied (s : Sched) : Prop := ∀ t ∈ s.taskPoolList, (s.tasks t).status = .DIED

/-- Each allocated stack is the stack of exactly one struct that is live or in the pool. -/
def StacksListed (s : Sched) : Prop :=
  ∀ stack, s.stackAllocated stack = true →
    ∃! t, (t ∈ s.taskAllList ∨ t ∈ s.taskPoolList) ∧ (s.tasks t).stackMinAddr = stack

/-- Every allocated stack is the stack of exactly one allocated struct. -/
structure Stacks (s : Sched) : Prop where
  owner : ∀ stack, s.stackAllocated stack = true →
    ∃! t, s.allocated t = true ∧ (s.tasks t).stackMinAddr = stack
  allocated : ∀ t, s.allocated t = true → s.stackAllocated (s.tasks t).stackMinAddr = true

/-! ## The pool -/

theorem Filed.poolDied {p : TaskId → Nat} {pl : TaskId → Option Place} {s : Sched}
    (h : Filed p pl s) : PoolDied s := by
  intro t ht
  exact (h.fits t).status _ (h.place_of_pool ht).1

/-- The inverted assertion. -/
theorem PoolDied.taskStart_fails {s : Sched} (h : PoolDied s) (hne : s.taskPoolList ≠ [])
    (addr stack : Nat) (prio : Int) : taskStart addr stack prio s = .error .assertion := by
  unfold taskStart takeTask
  rw [if_pos hne]
  cases hp : s.taskPoolList with
  | nil => exact absurd hp hne
  | cons t rest =>
      have hdied : (s.tasks t).status = .DIED := h t (by rw [hp]; exact List.mem_cons_self)
      have hassert : assertThat (TaskStatus.DIED ≠ (s.tasks t).status) = .error .assertion := by
        unfold assertThat
        rw [if_neg (by rw [hdied]; exact fun hc => hc rfl)]
      show ((assertThat (TaskStatus.DIED ≠ (s.tasks t).status) >>= _) >>= _) = _
      rw [hassert]
      rfl

/-- The exit leaves the lists in order, also when no task is ready. -/
theorem Filed.taskExit_filed {p : TaskId → Nat} {pl : TaskId → Option Place} {s : Sched}
    (h : Filed p pl s) (hcur : pl s.currentTask = some .current) (ht : Tame s) :
    Returns (ThreadSched.taskExit s.currentTask s) fun s' => ∃ pl', Filed p pl' s' := by
  have hex := h.exitLists hcur
  unfold ThreadSched.taskExit
  show Returns (releaseTid _ (ThreadSched.exitLists s.currentTask s) >>= _) _
  rw [releaseTid_eq (ht.exitLists _).tid, ok_bind]
  refine Returns.ite (fun _ => Returns.ok ⟨_, hex.congr (fun _ => rfl) rfl rfl rfl rfl⟩) fun _ => ?_
  refine Returns.imp (P := Running p) ?_ fun _ ⟨pl', hf, _⟩ => ⟨pl', hf⟩
  exact @Filed.getNextTask_running p (Function.update pl s.currentTask (some .exited)) _
    (hex.congr (fun _ => rfl) rfl rfl rfl rfl) (h.no_current nofun)

theorem mem_iff_of_count {l : List TaskId} {t : TaskId} {P : Prop} [Decidable P]
    (h : l.count t = if P then 1 else 0) : t ∈ l ↔ P := by
  rw [← List.count_pos_iff, h]
  by_cases hP : P
  · simp [hP]
  · simp [hP]

/-- The structs that are live or in the pool: all but that of a main task that has exited. -/
theorem Filed.listed_iff {p : TaskId → Nat} {pl : TaskId → Option Place} {s : Sched}
    (h : Filed p pl s) {t : TaskId} : t ∈ s.taskAllList ∨ t ∈ s.taskPoolList ↔
      s.allocated t = true ∧ ¬ (t = s.mainTask ∧ (s.tasks t).status = .DIED) := by
  have hf := h.fits t
  have hall : t ∈ s.taskAllList ↔ pl t ≠ none ∧ pl t ≠ some .exited := mem_iff_of_count hf.all
  have hpool : t ∈ s.taskPoolList ↔ pl t = some .exited ∧ decide (t = s.mainTask) = false :=
    mem_iff_of_count hf.pool
  have halloc : s.allocated t = (pl t).isSome := hf.allocated
  rw [hall, hpool, halloc]
  cases hx : pl t with
  | none => simp
  | some x =>
      have hstatus : (s.tasks t).status = x.status := hf.status x hx
      rw [hstatus]
      cases x <;> simp [Place.status]

/-! ## The stacks -/

variable {s s' : Sched}

/-- What does not touch structs, stacks or their addresses. -/
theorem Stacks.congr (h : Stacks s) (halloc : s'.allocated = s.allocated)
    (hstack : s'.stackAllocated = s.stackAllocated)
    (hmin : ∀ t, (s'.tasks t).stackMinAddr = (s.tasks t).stackMinAddr) : Stacks s' := by
  constructor
  · intro stack hs
    rw [hstack] at hs
    simpa only [halloc, hmin] using h.owner stack hs
  · intro t ht
    rw [halloc] at ht
    rw [hstack, hmin]
    exact h.allocated t ht

/-- A new struct with a new stack. -/
theorem Stacks.create (h : Stacks s) {t stack : Nat} (ht : s.allocated t = false)
    (hstack : s.stackAllocated stack = false)
    (halloc : s'.allocated = Function.update s.allocated t true)
    (hstacks : s'.stackAllocated = Function.update s.stackAllocated stack true)
    (hnew : (s'.tasks t).stackMinAddr = stack)
    (hold : ∀ u, u ≠ t → (s'.tasks u).stackMinAddr = (s.tasks u).stackMinAddr) : Stacks s' := by
  have hne : ∀ u, s.allocated u = true → u ≠ t := by
    rintro u hu rfl
    rw [ht] at hu
    cases hu
  have hother : ∀ u, s.allocated u = true → (s.tasks u).stackMinAddr ≠ stack := by
    intro u hu heq
    have := h.allocated u hu
    rw [heq, hstack] at this
    cases this
  constructor
  · intro st hst
    rw [hstacks] at hst
    by_cases heq : st = stack
    · subst heq
      refine ⟨t, ⟨by rw [halloc, Function.update_self], hnew⟩, fun u hu => ?_⟩
      by_contra hut
      obtain ⟨hu, hmin⟩ := hu
      rw [halloc, Function.update_of_ne hut] at hu
      rw [hold u hut] at hmin
      exact hother u hu hmin
    · rw [Function.update_of_ne heq] at hst
      obtain ⟨u, ⟨hu, hmin⟩, huniq⟩ := h.owner st hst
      have hut := hne u hu
      refine ⟨u, ⟨by rw [halloc, Function.update_of_ne hut, hu], by rw [hold u hut, hmin]⟩,
        fun v hv => ?_⟩
      obtain ⟨hv, hvmin⟩ := hv
      by_cases hvt : v = t
      · subst hvt
        exact absurd (hvmin.symm.trans hnew) heq
      · rw [halloc, Function.update_of_ne hvt] at hv
        rw [hold v hvt] at hvmin
        exact huniq v ⟨hv, hvmin⟩
  · intro u hu
    rw [halloc] at hu
    rw [hstacks]
    by_cases hut : u = t
    · subst hut
      rw [hnew, Function.update_self]
    · rw [Function.update_of_ne hut] at hu
      rw [hold u hut, Function.update_of_ne (hother u hu)]
      exact h.allocated u hu

theorem Stacks.taskStart (h : Stacks s) (ht : Tame s) (hpool : s.taskPoolList = []) {addr stack : Nat}
    (prio : Int) (haddr : s.allocated addr = false) (hstack : s.stackAllocated stack = false) :
    Returns (taskStart addr stack prio s) fun s' => s'.taskPoolList = [] ∧ Stacks s' := by
  unfold ThreadSched.taskStart takeTask
  rw [if_neg (by simp [hpool])]
  show Returns (initTask addr stack prio _ >>= _) _
  rw [initTask_eq (s := { s with allocated := Function.update s.allocated addr true }) ht.tid]
  cases bitmapScan s.tidPool.tidBitmap 1 with
  | none => exact Returns.error
  | some bitIdx =>
      refine returns_assertThat fun _ => returns_assertThat fun _ => Returns.pure ?_
      refine ⟨hpool, h.create haddr hstack rfl rfl ?_ fun u hu => ?_⟩
      · simp [Sched.emit, inited, initedTask, initFields]
      · simp [Sched.emit, inited, Function.update_of_ne hu]

theorem Stacks.modTask (h : Stacks s) (t : TaskId) (f : TaskStruct → TaskStruct)
    (hf : (f (s.tasks t)).stackMinAddr = (s.tasks t).stackMinAddr) : Stacks (s.modTask t f) := by
  refine h.congr rfl rfl fun u => ?_
  by_cases hu : u = t
  · subst hu
    simp [Sched.modTask, hf]
  · simp [Sched.modTask, Function.update_of_ne hu]

theorem Stacks.getNextTask (h : Stacks s) : Returns (getNextTask s) Stacks := by
  unfold ThreadSched.getNextTask
  cases s.taskReadyList with
  | nil => exact Returns.error
  | cons t rest =>
      have hpop : Stacks { s with taskReadyList := rest } := h.congr rfl rfl fun _ => rfl
      exact Returns.pure ((hpop.modTask t (fun task => { task with status := .RUNNING }) rfl).congr
        rfl rfl fun _ => rfl)

theorem Stacks.taskExit (h : Stacks s) (ht : Tame s) (t : TaskId) :
    Returns (taskExit t s) Stacks := by
  have hex : Stacks (exitLists t s) :=
    (h.modTask t (fun ptask => { ptask with status := .DIED }) rfl).congr rfl rfl fun _ => rfl
  unfold ThreadSched.taskExit
  show Returns (releaseTid _ (exitLists t s) >>= _) _
  rw [releaseTid_eq (ht.exitLists t).tid, ok_bind]
  refine Returns.ite (fun _ => Returns.ok (hex.congr rfl rfl fun _ => rfl)) fun _ => ?_
  exact Stacks.getNextTask (hex.congr rfl rfl fun _ => rfl)

/-! ## Runs -/

/-- The invariant: the scheduler's, or the last task has exited with none ready. -/
structure RecycleInv (w : World) : Prop where
  sched : WorldInv w ∨ w.sched.Looping
  tame : Tame w.sched
  filed : ∃ pl, Filed (pendingHelpers w.tm) pl w.sched
  stack : Stacks w.sched

theorem RecycleInv.pool {w : World} (h : RecycleInv w) : PoolDied w.sched := by
  obtain ⟨pl, hf⟩ := h.filed
  exact hf.poolDied

/-- The stacks have an owner in the lists as long as the main task has not exited: its struct is the
only one that leaves `task_all_list` and does not enter the pool. -/
theorem RecycleInv.stacksListed_iff {w : World} (h : RecycleInv w) :
    StacksListed w.sched ↔ (w.sched.tasks w.sched.mainTask).status ≠ .DIED := by
  obtain ⟨pl, hf⟩ := h.filed
  constructor
  · intro hlisted hdied
    have hmain : w.sched.allocated w.sched.mainTask = true :=
      (hf.fits _).allocated.trans (Option.isSome_iff_ne_none.2 hf.main)
    obtain ⟨t, ⟨ht, hmin⟩, -⟩ := hlisted _ (h.stack.allocated _ hmain)
    obtain ⟨halloc, hnot⟩ := hf.listed_iff.1 ht
    obtain ⟨u, -, huniq⟩ := h.stack.owner _ (h.stack.allocated _ hmain)
    have heq : t = w.sched.mainTask := (huniq t ⟨halloc, hmin⟩).trans (huniq _ ⟨hmain, rfl⟩).symm
    exact hnot ⟨heq, heq ▸ hdied⟩
  · intro hlive stack hstack
    have hiff : ∀ t, t ∈ w.sched.taskAllList ∨ t ∈ w.sched.taskPoolList ↔ w.sched.allocated t = true := by
      intro t
      rw [hf.listed_iff]
      refine ⟨And.left, fun ht => ⟨ht, ?_⟩⟩
      rintro ⟨rfl, hdied⟩
      exact hlive hdied
    simpa only [hiff] using h.stack.owner stack hstack

theorem stacks_mainOnly (addr stack : Nat) : Stacks (mainOnly addr stack) := by
  have hempty : Stacks (tidPoolInit boot) := by
    constructor
    · intro st hst
      simp [tidPoolInit, boot] at hst
    · intro t ht
      simp [tidPoolInit, boot] at ht
  refine hempty.create (t := addr) rfl rfl rfl rfl ?_ fun u hu => ?_
  · simp [mainOnly, inited, initedTask, initFields]
  · simp [mainOnly, inited, Function.update_of_ne hu]

theorem recycleRuns_inv {w : World} (h : recycleRuns.Reach w) : RecycleInv w := by
  refine recycleRuns.invariant (I := RecycleInv) ?_ ?_ h
  · intro w hinit
    have hinv := WorldInv.init hinit
    obtain ⟨pl, hf, _⟩ := hinv.running
    refine ⟨Or.inl hinv, hinv.tame, ⟨pl, hf⟩, ?_⟩
    obtain ⟨addr, stack, j, _, hw⟩ := hinit
    rw [start_eq] at hw
    cases hw
    exact stacks_mainOnly addr stack
  · rintro w w' hw ⟨a, ha, hen, hact⟩
    obtain ⟨hsched, htame, -, hstack⟩ := hw
    have hconts : w.sched.conts w.sched.currentTask = [] := by
      rcases ha with ⟨addr, stack, prio, rfl⟩ | rfl
      · exact hen.1
      · exact hen
    have hinv : WorldInv w := by
      rcases hsched with hinv | hloop
      · exact hinv
      · rw [Sched.Looping, hconts] at hloop
        cases hloop
    obtain ⟨pl, hf, hcur⟩ := hinv.running
    have hkeeps : (∃ pl', Filed (pendingHelpers w'.tm) pl' w'.sched) ∧ Stacks w'.sched := by
      rcases ha with ⟨addr, stack, prio, rfl⟩ | rfl
      · have hstart : Returns (w.act (.taskStart addr stack prio)) fun w' =>
            (∃ pl', Filed (pendingHelpers w'.tm) pl' w'.sched) ∧ Stacks w'.sched := by
          refine Returns.bind (P := fun s => Running (pendingHelpers w.tm) s ∧ Stacks s) ?_ ?_
          · by_cases hp : w.sched.taskPoolList = []
            · exact (hf.taskStart hcur htame prio hen.2.1).and
                ((hstack.taskStart htame hp prio hen.2.1 hen.2.2).imp fun _ hs => hs.2)
            · intro s hs
              have hfail : taskStart addr stack prio w.sched = .ok s := hs
              rw [hf.poolDied.taskStart_fails hp] at hfail
              cases hfail
          · rintro s ⟨⟨pl', hf', -⟩, hs⟩
            exact Returns.pure ⟨⟨pl', hf'⟩, hs⟩
        exact hstart w' hact
      · have hexit : Returns (w.act .taskExit) fun w' =>
            (∃ pl', Filed (pendingHelpers w'.tm) pl' w'.sched) ∧ Stacks w'.sched :=
          Returns.bind ((hf.taskExit_filed hcur htame).and (hstack.taskExit htame _))
            fun s hs => Returns.pure hs
        exact hexit w' hact
    exact ⟨(hinv.act hen w' hact).symm, htame.act a w' hact, hkeeps.1, hkeeps.2⟩

/-- **No struct is recycled.**  In every run of starts and exits, `task_start` fails on its assertion
whenever the pool holds a struct; each allocated stack is the stack of exactly one struct that is live or
in the pool as long as the main task has not exited, and of exactly one allocated struct in any case. -/
theorem task_start_recycles_nothing {w : World} (h : recycleRuns.Reach w) :
    (w.sched.taskPoolList ≠ [] → ∀ addr stack prio,
      taskStart addr stack prio w.sched = .error .assertion) ∧
    (StacksListed w.sched ↔ (w.sched.tasks w.sched.mainTask).status ≠ .DIED) ∧
    ∀ stack, w.sched.stackAllocated stack = true →
      ∃! t, w.sched.allocated t = true ∧ (w.sched.tasks t).stackMinAddr = stack :=
  ⟨(recycleRuns_inv h).pool.taskStart_fails, (recycleRuns_inv h).stacksListed_iff,
    (recycleRuns_inv h).stack.owner⟩

/-! ## A run that fills the pool -/

/-- A start or an exit. -/
def Action.recycles : Action → Prop
  | .taskStart _ _ _ | .taskExit => True
  | _ => False

instance (a : Action) : Decidable a.recycles := by
  cases a <;> (unfold Action.recycles; infer_instance)

/-- An action of `recycleRuns`. -/
abbrev World.nextRecycle : World → Action → Option World := World.next fun _ a _ => a.recycles

theorem recycleRuns_nextRecycle (w : World) (a : Action) (w' : World) (h : w.nextRecycle a = some w') :
    recycleRuns.step w w' := by
  obtain ⟨hact, henabled, ha⟩ := World.next_eq_some h
  refine ⟨a, ?_, henabled, hact⟩
  cases a with
  | taskStart addr stack prio => exact Or.inl ⟨addr, stack, prio, rfl⟩
  | taskExit => exact Or.inr rfl
  | _ => exact absurd ha id

/-- The main task starts task `3` and exits; task `3` starts task `5` and exits. -/
theorem reach_pool : ∃ w, recycleRuns.Reach w ∧ w.sched.taskPoolList = [3] ∧ w.sched.mainTask = 1 ∧
    (w.sched.tasks 1).status = .DIED := by
  have hrun : ((start 1 2 0).toOption.bind fun w => List.foldlM World.nextRecycle w
      [.taskStart 3 4 31, .taskExit, .taskStart 5 6 31, .taskExit]).map
        (fun w => (w.sched.taskPoolList, w.sched.mainTask, (w.sched.tasks 1).status)) =
      some ([3], 1, .DIED) := by
    decide +kernel
  obtain ⟨w, hw, hf⟩ := exists_reach (M := recycleRuns) (fun _ h => h) recycleRuns_nextRecycle
    (by norm_num) hrun
  simp only [Prod.mk.injEq] at hf
  exact ⟨w, hw, hf⟩

/-- Task `5` cannot start another one then, and the stack of the main task has no owner. -/
theorem task_start_recycles_nothing_third : ∃ w, recycleRuns.Reach w ∧
    w.sched.taskPoolList = [3] ∧ taskStart 7 8 31 w.sched = .error .assertion ∧
    ¬ StacksListed w.sched := by
  obtain ⟨w, hreach, hpool, hmain, hdied⟩ := reach_pool
  obtain ⟨hfails, hlisted, -⟩ := task_start_recycles_nothing hreach
  refine ⟨w, hreach, hpool, hfails (by rw [hpool]; nofun) 7 8 31, ?_⟩
  rw [hlisted, hmain]
  exact fun hlive => hlive hdied

/-- There the claim of a successful reuse fails, and so does that of an owner for each stack. -/
theorem recycling_fails :
    (¬ ∀ w, recycleRuns.Reach w → w.sched.taskPoolList ≠ [] →
      ∀ addr stack prio, ∃ s, taskStart addr stack prio w.sched = .ok s) ∧
    ¬ ∀ w, recycleRuns.Reach w → StacksListed w.sched := by
  obtain ⟨w, hreach, hpool, hmain, hdied⟩ := reach_pool
  have hinv := recycleRuns_inv hreach
  constructor
  · intro hclaim
    have hne : w.sched.taskPoolList ≠ [] := by rw [hpool]; nofun
    obtain ⟨s, hs⟩ := hclaim w hreach hne 7 8 31
    rw [hinv.pool.taskStart_fails hne] at hs
    cases hs
  · intro hclaim
    apply hinv.stacksListed_iff.1 (hclaim w hreach)
    rw [hmain]
    exact hdied

end ThreadSched
