import ThreadSched.Task.Tame
import ThreadSched.Timer.Placement

/-!
# The lock protocol (`task/sync.c`)

Any number of tasks execute `lock_acquire` and `lock_release` of one lock statement by statement, with a
switch between any two statements; `sema_down` and `sema_up` are one statement each.

* `LockPc`, `Lockers` — where a task is in a call, and the lock with its tasks.
* `lockRuns` — the runs; a task releases only what it holds.
* `LockOk` — one task at a time, which the lock names with its nesting depth; no assertion fails and no
  wakeup is lost.
* `lockRuns_ok` — this holds as long as no task nests `2^32` calls; `repeat_nr_wraps` — with that many the
  count wraps.
-/

set_option autoImplicit false

namespace ThreadSched

/-- The statements of `lock_acquire` and `lock_release`. -/
inductive LockPc
  /-- In neither of the two. -/
  | out
  /-- `if(plock->holder != current_task)` of `lock_acquire` -/
  | acquire
  /-- `sema_down` -/
  | down
  /-- In `waiters`, inside `sema_down`. -/
  | blocked
  /-- Taken from `waiters` by `sema_up`, before the next test of `value`. -/
  | woken
  /-- `plock->holder = current_task` -/
  | setHolder
  /-- `assert(plock->holder_repeat_nr == 0)` -/
  | assertZero
  /-- `plock->holder_repeat_nr = 1` -/
  | setOne
  /-- `plock->holder_repeat_nr++` -/
  | repeatInc
  /-- `assert(plock->holder == current_task)` of `lock_release` -/
  | release
  /-- `if(plock->holder_repeat_nr > 1)` -/
  | testRepeat
  /-- `plock->holder_repeat_nr--; return` -/
  | repeatDec
  /-- `assert(plock->holder_repeat_nr == 1)` -/
  | assertOne
  /-- `plock->holder = NULL` -/
  | clearHolder
  /-- `plock->holder_repeat_nr = 0` -/
  | clearRepeat
  /-- `sema_up` -/
  | up
  deriving DecidableEq, Repr

/-- The lock and its tasks.  Ghost: `depth`, the calls of `lock_acquire` that a task has completed and not
released. -/
structure Lockers where
  lock : Lock
  status : TaskId → TaskStatus
  pc : TaskId → LockPc
  depth : TaskId → Nat

namespace Lockers

def goto (x : Lockers) (t : TaskId) (pc : LockPc) : Lockers :=
  { x with pc := Function.update x.pc t pc }

def modLock (x : Lockers) (f : Lock → Lock) : Lockers := { x with lock := f x.lock }

def setDepth (x : Lockers) (t : TaskId) (depth : Nat) : Lockers :=
  { x with depth := Function.update x.depth t depth }

def setStatus (x : Lockers) (t : TaskId) (status : TaskStatus) : Lockers :=
  { x with status := Function.update x.status t status }

/-- `sema_down`, or its loop after a wakeup. -/
def semaDown (t : TaskId) (x : Lockers) : Except Fault Lockers :=
  if x.lock.semaphore.value = 0 then do
    assertThat (¬ elemFind x.lock.semaphore.waiters t)
    let x := x.modLock fun lock => lock.setWaiters (listAppend lock.semaphore.waiters t)
    pure ((x.setStatus t .BLOCKED).goto t .blocked)
  else do
    let x := x.modLock fun lock => lock.setValue (u8 ((lock.semaphore.value : Int) - 1))
    assertThat (x.lock.semaphore.value = 0)
    pure (x.goto t .setHolder)

/-- `task_unblock`, for a task that waits in `sema_down`. -/
def taskUnblock (t : TaskId) (x : Lockers) : Except Fault Lockers := do
  let status := x.status t
  assertThat (status = .BLOCKED ∨ status = .WAITING ∨ status = .HANGING)
  pure ((x.setStatus t .READY).goto t .woken)

/-- The `if` of `sema_up`: unblock the first waiter. -/
def semaWake (x : Lockers) : Except Fault Lockers :=
  match x.lock.semaphore.waiters with
  | [] => pure x
  | threadBlocked :: waiters =>
    taskUnblock threadBlocked (x.modLock fun lock => lock.setWaiters waiters)

/-- `sema_up`. -/
def semaUp (t : TaskId) (x : Lockers) : Except Fault Lockers := do
  assertThat (x.lock.semaphore.value = 0)
  let x ← semaWake x
  let x := x.modLock fun lock => lock.setValue (u8 ((lock.semaphore.value : Int) + 1))
  assertThat (x.lock.semaphore.value = 1)
  pure ((x.goto t .out).setDepth t (x.depth t - 1))

/-- The next statement of `t`; one that is blocked does nothing. -/
def next (t : TaskId) (x : Lockers) : Except Fault Lockers :=
  match x.pc t with
  | .out => pure x
  | .acquire => pure (x.goto t (if x.lock.holder ≠ some t then .down else .repeatInc))
  | .down => semaDown t x
  | .blocked => pure x
  | .woken => semaDown t x
  | .setHolder => pure ((x.modLock fun lock => { lock with holder := some t }).goto t .assertZero)
  | .assertZero => do
    assertThat (x.lock.holderRepeatNr = 0)
    pure (x.goto t .setOne)
  | .setOne =>
    pure (((x.modLock fun lock => { lock with holderRepeatNr := 1 }).goto t .out).setDepth t
      (x.depth t + 1))
  | .repeatInc =>
    pure (((x.modLock fun lock => { lock with
      holderRepeatNr := u32 (lock.holderRepeatNr + 1) }).goto t .out).setDepth t (x.depth t + 1))
  | .release => do
    assertThat (x.lock.holder = some t)
    pure (x.goto t .testRepeat)
  | .testRepeat => pure (x.goto t (if x.lock.holderRepeatNr > 1 then .repeatDec else .assertOne))
  | .repeatDec =>
    pure (((x.modLock fun lock => { lock with
      holderRepeatNr := lock.holderRepeatNr - 1 }).goto t .out).setDepth t (x.depth t - 1))
  | .assertOne => do
    assertThat (x.lock.holderRepeatNr = 1)
    pure (x.goto t .clearHolder)
  | .clearHolder => pure ((x.modLock fun lock => { lock with holder := none }).goto t .clearRepeat)
  | .clearRepeat => pure ((x.modLock fun lock => { lock with holderRepeatNr := 0 }).goto t .up)
  | .up => semaUp t x

/-- One step of a task: it calls `lock_acquire`, where `C` is the condition on its depth, or
`lock_release` of a lock it holds, or executes its next statement. -/
inductive Step (C : Nat → Prop) (x : Lockers) : Lockers → Prop
  | acquire (t : TaskId) : x.pc t = .out → C (x.depth t) → Step C x (x.goto t .acquire)
  | release (t : TaskId) : x.pc t = .out → 1 ≤ x.depth t → Step C x (x.goto t .release)
  | next (t : TaskId) {x' : Lockers} : x.next t = .ok x' → Step C x x'

end Lockers

/-- The runs, from an initialised lock. -/
def lockRuns (C : Nat → Prop) : Trans.Sys Lockers where
  init x := x.lock = lockInit ∧ (∀ t, x.pc t = .out) ∧ ∀ t, x.depth t = 0
  step := Lockers.Step C

/-- What the lock promises. -/
structure LockOk (x : Lockers) : Prop where
  one : ∀ t u, 1 ≤ x.depth t → 1 ≤ x.depth u → t = u
  holder : ∀ t, x.pc t = .out → 1 ≤ x.depth t →
    x.lock.holder = some t ∧ x.lock.holderRepeatNr = x.depth t
  asserts : ∀ t, x.next t ≠ .error .assertion
  value : x.lock.semaphore.value = 0 ∨ x.lock.semaphore.value = 1
  noLostWakeup : x.lock.semaphore.value = 1 → x.lock.semaphore.waiters ≠ [] → ∃ t, x.pc t = .woken

/-! ## The invariant -/

/-- The depths at which one more call fits into `holder_repeat_nr`. -/
def Countable (depth : Nat) : Prop := depth < 2 ^ 32 - 1

/-- Past its `sema_down` and before its `sema_up`. -/
def Owns (pc : LockPc) (depth : Nat) : Prop :=
  1 ≤ depth ∨ pc = .setHolder ∨ pc = .assertZero ∨ pc = .setOne

/-- What the lock says of a task that has acquired it. -/
def Counted (t : TaskId) (lock : Lock) (depth : Nat) : Prop :=
  lock.holder = some t ∧ lock.holderRepeatNr = depth

/-- The task has written itself into `holder`. -/
def Named (pc : LockPc) (depth : Nat) : Prop := 1 ≤ depth ∨ pc = .assertZero ∨ pc = .setOne

/-- What a task knows at its next statement. -/
def StationOk (t : TaskId) (lock : Lock) (depth : Nat) : LockPc → Prop
  | .out => 1 ≤ depth → Counted t lock depth
  | .acquire => Countable depth ∧ (1 ≤ depth → Counted t lock depth)
  | .down | .blocked | .woken => depth = 0
  | .setHolder => depth = 0 ∧ lock.holder = none ∧ lock.holderRepeatNr = 0
  | .assertZero | .setOne => depth = 0 ∧ lock.holder = some t ∧ lock.holderRepeatNr = 0
  | .repeatInc => (1 ≤ depth ∧ Countable depth) ∧ Counted t lock depth
  | .release | .testRepeat => 1 ≤ depth ∧ Counted t lock depth
  | .repeatDec => 2 ≤ depth ∧ Counted t lock depth
  | .assertOne | .clearHolder => depth = 1 ∧ Counted t lock depth
  | .clearRepeat => depth = 1 ∧ lock.holder = none
  | .up => depth = 1 ∧ lock.holder = none ∧ lock.holderRepeatNr = 0

/-- **The invariant**; `o` is the task that owns the semaphore. -/
structure LockInv (x : Lockers) (o : Option TaskId) : Prop where
  owns : ∀ t, Owns (x.pc t) (x.depth t) → o = some t
  free : o = none → x.lock.semaphore.value = 1 ∧ x.lock.holder = none ∧ x.lock.holderRepeatNr = 0
  taken : o ≠ none → x.lock.semaphore.value = 0
  named : ∀ t, x.lock.holder = some t → Named (x.pc t) (x.depth t)
  station : ∀ t, StationOk t x.lock (x.depth t) (x.pc t)
  waits : ∀ t, t ∈ x.lock.semaphore.waiters ↔ x.pc t = .blocked
  nodup : x.lock.semaphore.waiters.Nodup
  status : ∀ t, x.pc t = .blocked → x.status t = .BLOCKED
  woken : x.lock.semaphore.value = 1 → x.lock.semaphore.waiters ≠ [] → ∃ t, x.pc t = .woken

section

variable {x x' : Lockers} {o : Option TaskId} {t u : TaskId} {lock lock' : Lock} {depth : Nat} {pc : LockPc}

/-- A task that does not own the semaphore knows nothing of the lock. -/
theorem StationOk.congr (h : StationOk t lock depth pc) (hown : ¬ Owns pc depth) :
    StationOk t lock' depth pc := by
  have hzero : depth = 0 := by
    by_contra hne
    exact hown (Or.inl (by omega))
  subst hzero
  cases pc with
  | out => nofun
  | acquire => exact ⟨h.1, nofun⟩
  | down => rfl
  | blocked => rfl
  | woken => rfl
  | setHolder => exact absurd (Or.inr (Or.inl rfl)) hown
  | assertZero => exact absurd (Or.inr (Or.inr (Or.inl rfl))) hown
  | setOne => exact absurd (Or.inr (Or.inr (Or.inr rfl))) hown
  | repeatInc => exact absurd h.1.1 (by decide)
  | release => exact absurd h.1 (by decide)
  | testRepeat => exact absurd h.1 (by decide)
  | repeatDec => exact absurd h.1 (by decide)
  | assertOne => exact absurd h.1 (by decide)
  | clearHolder => exact absurd h.1 (by decide)
  | clearRepeat => exact absurd h.1 (by decide)
  | up => exact absurd h.1 (by decide)

/-- Only `holder` and `holder_repeat_nr` matter. -/
theorem StationOk.of_fields (h : StationOk t lock depth pc) (hholder : lock'.holder = lock.holder)
    (hrepeat : lock'.holderRepeatNr = lock.holderRepeatNr) : StationOk t lock' depth pc := by
  cases pc <;> simp only [StationOk, Counted, hholder, hrepeat] at h ⊢ <;> exact h

/-- What every other task knows stays true when the owner writes the lock, or nobody does. -/
theorem LockInv.others (h : LockInv x o)
    (hkeep : o = some t ∨ lock'.holder = x.lock.holder ∧ lock'.holderRepeatNr = x.lock.holderRepeatNr)
    (hu : u ≠ t) : StationOk u lock' (x.depth u) (x.pc u) := by
  rcases hkeep with howner | ⟨hholder, hrepeat⟩
  · apply (h.station u).congr
    intro hown
    have heq := (h.owns u hown).symm.trans howner
    exact hu (Option.some.inj heq)
  · exact (h.station u).of_fields hholder hrepeat

/-- **A statement outside the semaphore.** -/
theorem LockInv.move (h : LockInv x o) {pc' : LockPc} {depth' : Nat}
    (hsem : lock'.semaphore = x.lock.semaphore) (hpc : x.pc t ≠ .blocked) (hwoken : x.pc t ≠ .woken)
    (hpc' : pc' ≠ .blocked) (howns : Owns pc' depth' → o = some t)
    (hkeep : o = some t ∨ lock'.holder = x.lock.holder ∧ lock'.holderRepeatNr = x.lock.holderRepeatNr)
    (hholder : ∀ u, lock'.holder = some u → u = t ∧ Named pc' depth' ∨ u ≠ t ∧ x.lock.holder = some u)
    (hstation : StationOk t lock' depth' pc') :
    LockInv { x with
      lock := lock'
      pc := Function.update x.pc t pc'
      depth := Function.update x.depth t depth' } o := by
  refine ⟨?_, ?_, ?_, ?_, ?_, ?_, ?_, ?_, ?_⟩
  · intro u hu
    by_cases hut : u = t
    · subst hut
      simp only [Function.update_self] at hu
      exact howns hu
    · simp only [Function.update_of_ne hut] at hu
      exact h.owns u hu
  · intro ho
    rcases hkeep with howner | ⟨hholder, hrepeat⟩
    · rw [ho] at howner
      cases howner
    · rw [hsem, hholder, hrepeat]
      exact h.free ho
  · rw [hsem]
    exact h.taken
  · intro u hu
    rcases hholder u hu with ⟨rfl, hnamed⟩ | ⟨hut, hold⟩
    · simp only [Function.update_self]
      exact hnamed
    · simp only [Function.update_of_ne hut]
      exact h.named u hold
  · intro u
    by_cases hut : u = t
    · subst hut
      simp only [Function.update_self]
      exact hstation
    · simp only [Function.update_of_ne hut]
      exact h.others hkeep hut
  · intro u
    rw [hsem]
    by_cases hut : u = t
    · subst hut
      simp only [Function.update_self]
      rw [h.waits u]
      exact ⟨fun hb => absurd hb hpc, fun hb => absurd hb hpc'⟩
    · simp only [Function.update_of_ne hut]
      exact h.waits u
  · rw [hsem]
    exact h.nodup
  · intro u hu
    by_cases hut : u = t
    · subst hut
      simp only [Function.update_self] at hu
      exact absurd hu hpc'
    · simp only [Function.update_of_ne hut] at hu
      exact h.status u hu
  · rw [hsem]
    intro hv hne
    obtain ⟨u, hu⟩ := h.woken hv hne
    have hut : u ≠ t := by
      rintro rfl
      exact hwoken hu
    exact ⟨u, by simpa only [Function.update_of_ne hut] using hu⟩

/-- A task at depth 0 outside the section owns nothing. -/
theorem not_owns {pc' : LockPc} (hset : pc' ≠ .setHolder) (hzero : pc' ≠ .assertZero)
    (hone : pc' ≠ .setOne) : ¬ Owns pc' 0 := by
  rintro (hown | hown | hown | hown)
  · exact absurd hown (by decide)
  · exact hset hown
  · exact hzero hown
  · exact hone hown

/-- A step of the owner of the semaphore. -/
theorem LockInv.ownerMove (h : LockInv x o) (hown : Owns (x.pc t) (x.depth t)) {pc' : LockPc}
    {depth' : Nat} (hsem : lock'.semaphore = x.lock.semaphore) (hpc' : pc' ≠ .blocked)
    (hholder : lock'.holder = none ∨ lock'.holder = some t ∧ Named pc' depth')
    (hstation : StationOk t lock' depth' pc') :
    LockInv { x with
      lock := lock'
      pc := Function.update x.pc t pc'
      depth := Function.update x.depth t depth' } o := by
  have ho := h.owns t hown
  have hidle : x.pc t ≠ .blocked ∧ x.pc t ≠ .woken := by
    have hst := h.station t
    constructor
    · intro hpc
      rw [hpc] at hst hown
      rw [show x.depth t = 0 from hst] at hown
      exact absurd hown (not_owns nofun nofun nofun)
    · intro hpc
      rw [hpc] at hst hown
      rw [show x.depth t = 0 from hst] at hown
      exact absurd hown (not_owns nofun nofun nofun)
  refine h.move hsem hidle.1 hidle.2 hpc' (fun _ => ho) (Or.inl ho) ?_ hstation
  intro u hu
  rcases hholder with hnone | ⟨hsome, hnamed⟩
  · rw [hnone] at hu
    cases hu
  · exact Or.inl ⟨(Option.some.inj (hsome.symm.trans hu)).symm, hnamed⟩

/-- One that does not change its depth. -/
theorem LockInv.ownerGoto (h : LockInv x o) (hown : Owns (x.pc t) (x.depth t)) {f : Lock → Lock}
    {pc' : LockPc} (hsem : (f x.lock).semaphore = x.lock.semaphore) (hpc' : pc' ≠ .blocked)
    (hholder : (f x.lock).holder = none ∨ (f x.lock).holder = some t ∧ Named pc' (x.depth t))
    (hstation : StationOk t (f x.lock) (x.depth t) pc') : LockInv ((x.modLock f).goto t pc') o := by
  have hmove := h.ownerMove hown hsem hpc' hholder hstation
  rw [Function.update_eq_self] at hmove
  exact hmove

/-- A step of a task that does not own the semaphore and leaves the lock alone. -/
theorem LockInv.goto (h : LockInv x o) {pc' : LockPc} (hpc : x.pc t ≠ .blocked)
    (hwoken : x.pc t ≠ .woken) (hpc' : pc' ≠ .blocked) (howns : Owns pc' (x.depth t) → o = some t)
    (hnamed : x.lock.holder = some t → Named pc' (x.depth t))
    (hstation : StationOk t x.lock (x.depth t) pc') : LockInv (x.goto t pc') o := by
  have hmove := @LockInv.move x o t x.lock h _ _ rfl hpc hwoken hpc' howns (Or.inr ⟨rfl, rfl⟩) (by
    intro u hu
    by_cases hut : u = t
    · subst hut
      exact Or.inl ⟨rfl, hnamed hu⟩
    · exact Or.inr ⟨hut, hu⟩) hstation
  rw [Function.update_eq_self] at hmove
  exact hmove

/-- `t` has not written itself into `holder`. -/
theorem LockInv.not_named (h : LockInv x o) (hdepth : x.depth t = 0) (hzero : x.pc t ≠ .assertZero)
    (hone : x.pc t ≠ .setOne) : x.lock.holder ≠ some t := by
  intro hholder
  rcases h.named t hholder with hd | hpc | hpc
  · rw [hdepth] at hd
    exact absurd hd (by decide)
  · exact hzero hpc
  · exact hone hpc

/-- **`sema_down`** takes the semaphore, or waits for it. -/
theorem LockInv.semaDown (h : LockInv x o) (hpc : x.pc t = .down ∨ x.pc t = .woken) :
    ∃ x' o', x.semaDown t = .ok x' ∧ LockInv x' o' := by
  have hblocked : x.pc t ≠ .blocked := by
    rcases hpc with hpc | hpc
    · rw [hpc]
      simp
    · rw [hpc]
      simp
  have hdepth : x.depth t = 0 := by
    have hst := h.station t
    rcases hpc with hpc | hpc
    · rw [hpc] at hst
      exact hst
    · rw [hpc] at hst
      exact hst
  have hnamed : x.lock.holder ≠ some t := by
    apply h.not_named hdepth
    · rintro hzero
      rw [hzero] at hpc
      rcases hpc with hpc | hpc
      all_goals cases hpc
    · rintro hone
      rw [hone] at hpc
      rcases hpc with hpc | hpc
      all_goals cases hpc
  unfold Lockers.semaDown
  by_cases hv : x.lock.semaphore.value = 0
  · have hnot : t ∉ x.lock.semaphore.waiters := fun hin => hblocked ((h.waits t).1 hin)
    rw [if_pos hv, assertThat_bind hnot]
    refine ⟨_, o, rfl, ?_, ?_, h.taken, ?_, ?_, ?_, ?_, ?_, ?_⟩
    · intro u hu
      by_cases hut : u = t
      · subst hut
        simp only [Lockers.goto, Lockers.setStatus, Lockers.modLock, Function.update_self] at hu
        rw [hdepth] at hu
        exact absurd hu (not_owns (by simp) (by simp) (by simp))
      · simp only [Lockers.goto, Lockers.setStatus, Lockers.modLock, Function.update_of_ne hut] at hu
        exact h.owns u hu
    · intro ho
      have hone := (h.free ho).1
      rw [hv] at hone
      cases hone
    · intro u hu
      have hut : u ≠ t := by
        rintro rfl
        exact hnamed hu
      show Named (Function.update x.pc t .blocked u) (x.depth u)
      rw [Function.update_of_ne hut]
      exact h.named u hu
    · intro u
      by_cases hut : u = t
      · subst hut
        simp only [Lockers.goto, Lockers.setStatus, Lockers.modLock, Function.update_self]
        exact hdepth
      · simp only [Lockers.goto, Lockers.setStatus, Lockers.modLock, Function.update_of_ne hut]
        exact (h.station u).of_fields rfl rfl
    · intro u
      show u ∈ x.lock.semaphore.waiters ++ [t] ↔ Function.update x.pc t .blocked u = .blocked
      rw [List.mem_append, List.mem_singleton]
      by_cases hut : u = t
      · subst hut
        simp
      · rw [Function.update_of_ne hut, h.waits u]
        simp [hut]
    · refine List.nodup_append.2 ⟨h.nodup, List.nodup_singleton t, ?_⟩
      rintro a ha b hb rfl
      rw [List.mem_singleton.1 hb] at ha
      exact hnot ha
    · intro u hu
      show Function.update x.status t .BLOCKED u = .BLOCKED
      by_cases hut : u = t
      · rw [hut, Function.update_self]
      · rw [Function.update_of_ne hut]
        apply h.status u
        exact (Function.update_of_ne hut _ x.pc).symm.trans hu
    · intro hone
      have hone : x.lock.semaphore.value = 1 := hone
      rw [hv] at hone
      cases hone
  · have ho : o = none := by
      by_contra hne
      exact hv (h.taken hne)
    obtain ⟨hone, hholder, hrepeat⟩ := h.free ho
    rw [if_neg hv, assertThat_bind (by simp [Lockers.modLock, Lock.setValue, hone, u8])]
    refine ⟨_, some t, rfl, ?_, by simp, ?_, ?_, ?_, ?_, h.nodup, ?_, ?_⟩
    · intro u hu
      by_cases hut : u = t
      · rw [hut]
      · have hu : Owns (x.pc u) (x.depth u) := by
          simpa only [Lockers.goto, Lockers.modLock, Function.update_of_ne hut] using hu
        have hsome := h.owns u hu
        rw [ho] at hsome
        cases hsome
    · intro _
      simp [Lockers.goto, Lockers.modLock, Lock.setValue, hone, u8]
    · intro u hu
      have hu : x.lock.holder = some u := hu
      rw [hholder] at hu
      cases hu
    · intro u
      by_cases hut : u = t
      · subst hut
        simp only [Lockers.goto, Lockers.modLock, Function.update_self]
        exact ⟨hdepth, hholder, hrepeat⟩
      · simp only [Lockers.goto, Lockers.modLock, Function.update_of_ne hut]
        exact (h.station u).of_fields rfl rfl
    · intro u
      show u ∈ x.lock.semaphore.waiters ↔ Function.update x.pc t .setHolder u = .blocked
      by_cases hut : u = t
      · subst hut
        rw [Function.update_self, h.waits u]
        exact ⟨fun hb => absurd hb hblocked, by simp⟩
      · rw [Function.update_of_ne hut]
        exact h.waits u
    · intro u hu
      by_cases hut : u = t
      · subst hut
        simp [Lockers.goto] at hu
      · apply h.status u
        simpa only [Lockers.goto, Lockers.modLock, Function.update_of_ne hut] using hu
    · intro hv'
      simp [Lockers.goto, Lockers.modLock, Lock.setValue, hone, u8] at hv'

/-- The state of `sema_up` of `t` between its two assertions. -/
structure Raising (t : TaskId) (m : Lockers) : Prop where
  alone : ∀ u, u ≠ t → ¬ Owns (m.pc u) (m.depth u)
  free : m.lock.holder = none ∧ m.lock.holderRepeatNr = 0
  depth : m.depth t = 1
  pc : m.pc t = .up
  zero : m.lock.semaphore.value = 0
  station : ∀ u, u ≠ t → StationOk u m.lock (m.depth u) (m.pc u)
  waits : ∀ u, u ∈ m.lock.semaphore.waiters ↔ m.pc u = .blocked
  nodup : m.lock.semaphore.waiters.Nodup
  status : ∀ u, m.pc u = .blocked → m.status u = .BLOCKED
  woken : m.lock.semaphore.waiters ≠ [] → ∃ u, m.pc u = .woken

/-- The first waiter is woken. -/
theorem LockInv.semaWake (h : LockInv x o) (hpc : x.pc t = .up) :
    ∃ m, x.semaWake = .ok m ∧ Raising t m := by
  have hst := h.station t
  rw [hpc] at hst
  obtain ⟨hdepth, hfree⟩ := hst
  have ho : o = some t := h.owns t (Or.inl (by rw [hdepth]))
  have hzero := h.taken (by rw [ho]; nofun)
  have halone : ∀ u, u ≠ t → ¬ Owns (x.pc u) (x.depth u) := by
    intro u hu hown
    exact hu (Option.some.inj ((h.owns u hown).symm.trans ho))
  unfold Lockers.semaWake
  cases hw : x.lock.semaphore.waiters with
  | nil =>
      exact ⟨x, rfl, halone, hfree, hdepth, hpc, hzero, fun u _ => h.station u, h.waits, h.nodup,
        h.status, fun hne => absurd hw hne⟩
  | cons b waiters =>
      have hb : x.pc b = .blocked := (h.waits b).1 (by rw [hw]; exact List.mem_cons_self)
      have hbt : b ≠ t := by
        rintro rfl
        rw [hpc] at hb
        cases hb
      have hnodup := h.nodup
      rw [hw, List.nodup_cons] at hnodup
      have hbdepth : x.depth b = 0 := by
        have hstb := h.station b
        rw [hb] at hstb
        exact hstb
      have hother : ∀ u, u ≠ b → Function.update x.pc b .woken u = x.pc u :=
        fun u hu => Function.update_of_ne hu _ _
      refine ⟨((x.modLock fun lock => lock.setWaiters waiters).setStatus b .READY).goto b .woken,
        ?_, ?_, hfree, hdepth, ?_, hzero, ?_, ?_, hnodup.2, ?_, fun _ => ⟨b, Function.update_self _ _ _⟩⟩
      · exact assertThat_bind (Or.inl (h.status b hb)) _
      · intro u hu
        show ¬ Owns (Function.update x.pc b .woken u) (x.depth u)
        by_cases hub : u = b
        · subst hub
          rw [Function.update_self, hbdepth]
          exact not_owns nofun nofun nofun
        · rw [hother u hub]
          exact halone u hu
      · exact (hother t (Ne.symm hbt)).trans hpc
      · intro u hu
        show StationOk u _ (x.depth u) (Function.update x.pc b .woken u)
        by_cases hub : u = b
        · subst hub
          rw [Function.update_self]
          exact hbdepth
        · rw [hother u hub]
          exact (h.station u).of_fields rfl rfl
      · intro u
        show u ∈ waiters ↔ Function.update x.pc b .woken u = .blocked
        by_cases hub : u = b
        · subst hub
          rw [Function.update_self]
          exact ⟨fun hin => absurd hin hnodup.1, nofun⟩
        · rw [hother u hub, ← h.waits u, hw, List.mem_cons]
          exact ⟨Or.inr, fun hin => hin.resolve_left hub⟩
      · intro u hu
        have hub : u ≠ b := by
          rintro rfl
          have hself : Function.update x.pc u .woken u = .blocked := hu
          rw [Function.update_self] at hself
          cases hself
        exact (Function.update_of_ne hub _ x.status).trans (h.status u ((hother u hub).symm.trans hu))

/-- **`sema_up`** lets the lock go. -/
theorem LockInv.semaUp (h : LockInv x o) (hpc : x.pc t = .up) :
    ∃ x' o', x.semaUp t = .ok x' ∧ LockInv x' o' := by
  obtain ⟨m, hm, hr⟩ := h.semaWake hpc
  have hzero : x.lock.semaphore.value = 0 := by
    apply h.taken
    have hst := h.station t
    rw [hpc] at hst
    rw [h.owns t (Or.inl (by rw [hst.1]))]
    nofun
  have hone : u8 ((m.lock.semaphore.value : Int) + 1) = 1 := by
    rw [hr.zero]
    rfl
  have hother : ∀ u, u ≠ t → Function.update m.pc t .out u = m.pc u ∧
      Function.update m.depth t (m.depth t - 1) u = m.depth u :=
    fun u hu => ⟨Function.update_of_ne hu _ _, Function.update_of_ne hu _ _⟩
  refine ⟨((m.modLock fun lock => lock.setValue (u8 ((lock.semaphore.value : Int) + 1))).goto t
      .out).setDepth t (m.depth t - 1), none, ?_, ?_, ?_, nofun, ?_, ?_, ?_, hr.nodup, ?_, ?_⟩
  · unfold Lockers.semaUp
    rw [assertThat_bind hzero, hm, ok_bind]
    exact assertThat_bind hone _
  · intro u hu
    have hu : Owns (Function.update m.pc t .out u) (Function.update m.depth t (m.depth t - 1) u) := hu
    by_cases hut : u = t
    · subst hut
      rw [Function.update_self, Function.update_self, hr.depth] at hu
      exact absurd hu (not_owns nofun nofun nofun)
    · rw [(hother u hut).1, (hother u hut).2] at hu
      exact absurd hu (hr.alone u hut)
  · exact fun _ => ⟨hone, hr.free⟩
  · intro u hu
    have hu : m.lock.holder = some u := hu
    rw [hr.free.1] at hu
    cases hu
  · intro u
    show StationOk u _ (Function.update m.depth t (m.depth t - 1) u) (Function.update m.pc t .out u)
    by_cases hut : u = t
    · subst hut
      rw [Function.update_self, Function.update_self, hr.depth]
      nofun
    · rw [(hother u hut).1, (hother u hut).2]
      exact (hr.station u hut).of_fields rfl rfl
  · intro u
    show u ∈ m.lock.semaphore.waiters ↔ Function.update m.pc t .out u = .blocked
    by_cases hut : u = t
    · subst hut
      rw [Function.update_self, hr.waits u, hr.pc]
      exact ⟨nofun, nofun⟩
    · rw [(hother u hut).1]
      exact hr.waits u
  · intro u hu
    have hu : Function.update m.pc t .out u = .blocked := hu
    by_cases hut : u = t
    · subst hut
      rw [Function.update_self] at hu
      cases hu
    · rw [(hother u hut).1] at hu
      exact hr.status u hu
  · intro _ hne
    obtain ⟨u, hu⟩ := hr.woken hne
    have hut : u ≠ t := by
      rintro rfl
      rw [hr.pc] at hu
      cases hu
    exact ⟨u, (hother u hut).1.trans hu⟩

/-- **A statement** of `lock_acquire` or `lock_release`: it fails no assertion. -/
theorem LockInv.next (h : LockInv x o) (t : TaskId) :
    ∃ x' o', x.next t = .ok x' ∧ LockInv x' o' := by
  have hst := h.station t
  unfold Lockers.next
  cases hpc : x.pc t with
  | out => exact ⟨x, o, rfl, h⟩
  | blocked => exact ⟨x, o, rfl, h⟩
  | down => exact h.semaDown (Or.inl hpc)
  | woken => exact h.semaDown (Or.inr hpc)
  | up => exact h.semaUp hpc
  | acquire =>
      rw [hpc] at hst
      refine ⟨_, o, rfl, ?_⟩
      by_cases hholder : x.lock.holder ≠ some t
      · rw [if_pos hholder]
        have hzero : x.depth t = 0 := by
          by_contra hne
          exact hholder (hst.2 (by omega)).1
        refine h.goto (by rw [hpc]; nofun) (by rw [hpc]; nofun) nofun ?_ (fun hh => absurd hh hholder) hzero
        rw [hzero]
        exact fun hown => absurd hown (not_owns nofun nofun nofun)
      · rw [if_neg hholder]
        rw [not_not] at hholder
        have hdepth : 1 ≤ x.depth t := by
          by_contra hne
          exact h.not_named (by omega) (by rw [hpc]; nofun) (by rw [hpc]; nofun) hholder
        exact h.goto (by rw [hpc]; nofun) (by rw [hpc]; nofun) nofun
          (fun _ => h.owns t (Or.inl hdepth)) (fun _ => Or.inl hdepth) ⟨⟨hdepth, hst.1⟩, hst.2 hdepth⟩
  | setHolder =>
      rw [hpc] at hst
      obtain ⟨hdepth, hholder, hrepeat⟩ := hst
      have hown : Owns (x.pc t) (x.depth t) := by
        rw [hpc]
        exact Or.inr (Or.inl rfl)
      exact ⟨_, o, rfl, h.ownerGoto hown rfl nofun (Or.inr ⟨rfl, Or.inr (Or.inl rfl)⟩)
        ⟨hdepth, rfl, hrepeat⟩⟩
  | assertZero =>
      rw [hpc] at hst
      have hown : Owns (x.pc t) (x.depth t) := by
        rw [hpc]
        exact Or.inr (Or.inr (Or.inl rfl))
      exact ⟨_, o, assertThat_bind hst.2.2 _, h.ownerGoto (f := id) hown rfl nofun
        (Or.inr ⟨hst.2.1, Or.inr (Or.inr rfl)⟩) hst⟩
  | setOne =>
      rw [hpc] at hst
      obtain ⟨hdepth, hholder, -⟩ := hst
      have hown : Owns (x.pc t) (x.depth t) := by
        rw [hpc]
        exact Or.inr (Or.inr (Or.inr rfl))
      refine ⟨_, o, rfl, h.ownerMove hown rfl nofun
        (Or.inr ⟨hholder, Or.inl (Nat.le_add_left 1 _)⟩) ?_⟩
      intro _
      rw [hdepth]
      exact ⟨hholder, rfl⟩
  | repeatInc =>
      rw [hpc] at hst
      obtain ⟨⟨hdepth, hcount⟩, hholder, hrepeat⟩ := hst
      refine ⟨_, o, rfl, h.ownerMove (Or.inl hdepth) rfl nofun
        (Or.inr ⟨hholder, Or.inl (Nat.le_add_left 1 _)⟩) ?_⟩
      intro _
      refine ⟨hholder, ?_⟩
      show u32 (x.lock.holderRepeatNr + 1) = x.depth t + 1
      rw [hrepeat]
      unfold Countable at hcount
      exact Wheel.u32_of_lt (by omega)
  | release =>
      rw [hpc] at hst
      exact ⟨_, o, assertThat_bind hst.2.1 _, h.ownerGoto (f := id) (Or.inl hst.1) rfl nofun
        (Or.inr ⟨hst.2.1, Or.inl hst.1⟩) hst⟩
  | testRepeat =>
      rw [hpc] at hst
      obtain ⟨hdepth, hcounted⟩ := hst
      refine ⟨_, o, rfl, ?_⟩
      by_cases hmany : x.lock.holderRepeatNr > 1
      · rw [if_pos hmany]
        refine h.ownerGoto (f := id) (Or.inl hdepth) rfl nofun (Or.inr ⟨hcounted.1, Or.inl hdepth⟩)
          ⟨?_, hcounted⟩
        rw [← hcounted.2]
        exact hmany
      · rw [if_neg hmany]
        refine h.ownerGoto (f := id) (Or.inl hdepth) rfl nofun (Or.inr ⟨hcounted.1, Or.inl hdepth⟩)
          ⟨?_, hcounted⟩
        have hrepeat := hcounted.2
        omega
  | repeatDec =>
      rw [hpc] at hst
      obtain ⟨hdepth, hholder, hrepeat⟩ := hst
      refine ⟨_, o, rfl, h.ownerMove (Or.inl (by omega)) rfl nofun
        (Or.inr ⟨hholder, Or.inl (Nat.le_sub_of_add_le hdepth)⟩) ?_⟩
      intro _
      refine ⟨hholder, ?_⟩
      show x.lock.holderRepeatNr - 1 = x.depth t - 1
      rw [hrepeat]
  | assertOne =>
      rw [hpc] at hst
      obtain ⟨hdepth, hcounted⟩ := hst
      have hone : 1 ≤ x.depth t := le_of_eq hdepth.symm
      exact ⟨_, o, assertThat_bind (hcounted.2.trans hdepth) _, h.ownerGoto (f := id) (Or.inl hone) rfl
        nofun (Or.inr ⟨hcounted.1, Or.inl hone⟩) ⟨hdepth, hcounted⟩⟩
  | clearHolder =>
      rw [hpc] at hst
      exact ⟨_, o, rfl, h.ownerGoto (Or.inl (le_of_eq hst.1.symm)) rfl nofun (Or.inl rfl) ⟨hst.1, rfl⟩⟩
  | clearRepeat =>
      rw [hpc] at hst
      exact ⟨_, o, rfl, h.ownerGoto (Or.inl (le_of_eq hst.1.symm)) rfl nofun (Or.inl hst.2)
        ⟨hst.1, hst.2, rfl⟩⟩

/-- **The step lemma.** -/
theorem LockInv.step (h : LockInv x o) (hs : Lockers.Step Countable x x') : ∃ o', LockInv x' o' := by
  cases hs with
  | acquire t hpc hcount =>
      have hst := h.station t
      rw [hpc] at hst
      refine ⟨o, h.goto (by rw [hpc]; nofun) (by rw [hpc]; nofun) nofun ?_ ?_ ⟨hcount, hst⟩⟩
      · rintro (hown | hown | hown | hown)
        · exact h.owns t (Or.inl hown)
        all_goals cases hown
      · intro hholder
        rcases h.named t hholder with hnamed | hnamed | hnamed
        · exact Or.inl hnamed
        all_goals
          rw [hpc] at hnamed
          cases hnamed
  | release t hpc hdepth =>
      have hst := h.station t
      rw [hpc] at hst
      exact ⟨o, h.goto (by rw [hpc]; nofun) (by rw [hpc]; nofun) nofun
        (fun _ => h.owns t (Or.inl hdepth)) (fun _ => Or.inl hdepth) ⟨hdepth, hst hdepth⟩⟩
  | next t hnext =>
      obtain ⟨y, o', hy, hinv⟩ := h.next t
      rw [hnext] at hy
      cases hy
      exact ⟨o', hinv⟩

theorem LockInv.lockOk (h : LockInv x o) : LockOk x := by
  constructor
  · intro t u ht hu
    exact Option.some.inj ((h.owns t (Or.inl ht)).symm.trans (h.owns u (Or.inl hu)))
  · intro t hpc hdepth
    have hst := h.station t
    rw [hpc] at hst
    exact hst hdepth
  · intro t hfail
    obtain ⟨x', o', hx', -⟩ := h.next t
    rw [hfail] at hx'
    cases hx'
  · cases ho : o with
    | none => exact Or.inr (h.free ho).1
    | some t => exact Or.inl (h.taken (by rw [ho]; nofun))
  · exact h.woken

/-- **The lock protocol** works in every run in which no task nests `2^32` calls of `lock_acquire`. -/
theorem lockRuns_ok (h : (lockRuns Countable).Reach x) : LockOk x := by
  obtain ⟨o, ho⟩ := (lockRuns Countable).invariant (I := fun x => ∃ o, LockInv x o) (by
    rintro x ⟨hlock, hpc, hdepth⟩
    refine ⟨none, ?_, ?_, fun hne => absurd rfl hne, ?_, ?_, ?_, ?_, ?_, ?_⟩
    · intro t hown
      rw [hpc t, hdepth t] at hown
      exact absurd hown (not_owns nofun nofun nofun)
    · intro _
      rw [hlock]
      exact ⟨rfl, rfl, rfl⟩
    · intro t hholder
      rw [hlock] at hholder
      cases hholder
    · intro t
      rw [hpc t, hdepth t]
      nofun
    · intro t
      rw [hlock, hpc t]
      exact ⟨nofun, nofun⟩
    · rw [hlock]
      exact List.nodup_nil
    · intro t ht
      rw [hpc t] at ht
      cases ht
    · intro _ hne
      rw [hlock] at hne
      exact absurd rfl hne) (fun _ _ ⟨_, hx⟩ hs => hx.step hs) h
  exact ho.lockOk

/-! ## Nested calls -/

/-- Task `1` nests `n + 1` calls. -/
theorem reach_nested (C : Nat → Prop) (n : Nat) (hC : ∀ depth ≤ n, C depth) :
    ∃ x, (lockRuns C).Reach x ∧ x.pc 1 = .out ∧ x.depth 1 = n + 1 ∧ x.lock.holder = some 1 ∧
      x.lock.holderRepeatNr = u32 (n + 1) := by
  induction n with
  | zero =>
      have h₀ : (lockRuns C).Reach ⟨lockInit, fun _ => .RUNNING, fun _ => .out, fun _ => 0⟩ :=
        .init ⟨rfl, fun _ => rfl, fun _ => rfl⟩
      have h₁ := h₀.step (Lockers.Step.acquire 1 rfl (hC 0 (le_refl 0)))
      have h₂ := h₁.step (Lockers.Step.next 1 rfl)
      have h₃ := h₂.step (Lockers.Step.next 1 rfl)
      have h₄ := h₃.step (Lockers.Step.next 1 rfl)
      have h₅ := h₄.step (Lockers.Step.next 1 rfl)
      have h₆ := h₅.step (Lockers.Step.next 1 rfl)
      exact ⟨_, h₆, rfl, rfl, rfl, (Wheel.u32_of_lt (by decide)).symm⟩
  | succ n ih =>
      obtain ⟨x, hreach, hpc, hdepth, hholder, hrepeat⟩ := ih fun depth hle => hC depth (by omega)
      have hcall := hreach.step (Lockers.Step.acquire 1 hpc (by rw [hdepth]; exact hC (n + 1) (le_refl _)))
      have htest : (x.goto 1 .acquire).next 1 = .ok ((x.goto 1 .acquire).goto 1 .repeatInc) := by
        have hself : (x.goto 1 .acquire).pc 1 = .acquire := by simp [Lockers.goto]
        have hholder' : (x.goto 1 .acquire).lock.holder = some 1 := hholder
        unfold Lockers.next
        rw [hself]
        simp only [hholder', ne_eq, not_true_eq_false, if_false]
        rfl
      have hinc := ((hcall.step (Lockers.Step.next 1 htest)).step (Lockers.Step.next 1 (by
        have hself : ((x.goto 1 .acquire).goto 1 .repeatInc).pc 1 = .repeatInc := by
          simp [Lockers.goto]
        unfold Lockers.next
        rw [hself]
        rfl)))
      refine ⟨_, hinc, ?_, ?_, hholder, ?_⟩
      · simp [Lockers.goto, Lockers.setDepth, Lockers.modLock]
      · show Function.update x.depth 1 (x.depth 1 + 1) 1 = _
        rw [Function.update_self, hdepth]
      · show u32 (x.lock.holderRepeatNr + 1) = u32 (n + 1 + 1)
        rw [hrepeat]
        unfold u32
        omega

/-- The call or the statement of a step. -/
inductive Move
  | acquire (t : TaskId)
  | release (t : TaskId)
  | next (t : TaskId)

instance : DecidablePred Countable := fun _ => inferInstanceAs (Decidable (_ < _))

/-- The state after a step, if it can happen. -/
def Lockers.move (x : Lockers) : Move → Option Lockers
  | .acquire t => if x.pc t = .out ∧ Countable (x.depth t) then some (x.goto t .acquire) else none
  | .release t => if x.pc t = .out ∧ 1 ≤ x.depth t then some (x.goto t .release) else none
  | .next t => (x.next t).toOption

theorem lockRuns_move (x : Lockers) (m : Move) (x' : Lockers) (h : x.move m = some x') :
    (lockRuns Countable).step x x' := by
  cases m with
  | acquire t =>
      obtain ⟨⟨hout, hcount⟩, heq⟩ := Option.ite_none_right_eq_some.1 h
      cases heq
      exact .acquire t hout hcount
  | release t =>
      obtain ⟨⟨hout, hdepth⟩, heq⟩ := Option.ite_none_right_eq_some.1 h
      cases heq
      exact .release t hout hdepth
  | next t =>
      change (x.next t).toOption = some x' at h
      cases hx : x.next t with
      | error e =>
          rw [hx] at h
          cases h
      | ok y =>
          rw [hx] at h
          cases h
          exact .next t hx

/-- Task `1` nests two calls, and task `2` blocks in its own. -/
def contended : List Move :=
  .acquire 1 :: List.replicate 5 (.next 1) ++ .acquire 1 :: List.replicate 2 (.next 1) ++
    .acquire 2 :: List.replicate 2 (.next 2)

/-- Task `1` releases the lock twice, and task `2` goes on. -/
def handedOver : List Move :=
  .release 1 :: List.replicate 3 (.next 1) ++ .release 1 :: List.replicate 6 (.next 1) ++
    List.replicate 4 (.next 2)

/-- Two tasks contend for the lock: one holds it with two calls while the other is blocked, and then the other
holds it. -/
theorem lockRuns_ok_contended : ∃ x y, (lockRuns Countable).Reach x ∧ x.depth 1 = 2 ∧ x.pc 2 = .blocked ∧
    LockOk x ∧ (lockRuns Countable).Reach y ∧ y.depth 1 = 0 ∧ y.depth 2 = 1 ∧ y.lock.holder = some 2 ∧ LockOk y := by
  have hinit : (lockRuns Countable).Reach ⟨lockInit, fun _ => .RUNNING, fun _ => .out, fun _ => 0⟩ :=
    .init ⟨rfl, fun _ => rfl, fun _ => rfl⟩
  have hrun : (contended.foldlM Lockers.move ⟨lockInit, fun _ => .RUNNING, fun _ => .out, fun _ => 0⟩).map (fun x =>
      (x.depth 1, x.pc 2, (handedOver.foldlM Lockers.move x).map fun y => (y.depth 1, y.depth 2, decide (y.lock.holder = some 2)))) =
      some (2, .blocked, some (0, 1, true)) := by
    decide +kernel
  obtain ⟨x, hx, hf⟩ := Option.map_eq_some_iff.1 hrun
  simp only [Prod.mk.injEq, Option.map_eq_some_iff, decide_eq_true_eq] at hf
  obtain ⟨hdepth, hpc, y, hy, hdepth₁, hdepth₂, hholder⟩ := hf
  have hreach := hinit.foldlM lockRuns_move hx
  have hreach' := hreach.foldlM lockRuns_move hy
  exact ⟨x, y, hreach, hdepth, hpc, lockRuns_ok hreach, hreach', hdepth₁, hdepth₂, hholder, lockRuns_ok hreach'⟩

/-- After `2^32` nested calls `holder_repeat_nr` is 0. -/
theorem repeat_nr_wraps : ¬ ∀ x, (lockRuns fun _ => True).Reach x → LockOk x := by
  intro hall
  obtain ⟨x, hreach, hpc, hdepth, -, hrepeat⟩ := reach_nested (fun _ => True) (2 ^ 32 - 1)
    fun _ _ => trivial
  obtain ⟨-, hcount⟩ := (hall x hreach).holder 1 hpc (by rw [hdepth]; omega)
  rw [hrepeat, hdepth] at hcount
  unfold u32 at hcount
  omega

end

end ThreadSched
