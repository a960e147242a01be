import ThreadSched.Context.Switch
import ThreadSched.Task.Turns

/-!
# The scheduler drives the processor

The scheduler of `task.c`, which decides who runs, together with the processor that switches contexts.  One
action of the scheduler is one event of the processor; between them the processor computes.

* `Performs` — the event an action makes, by the tasks it dispatches;
* `Linked` — the processor runs the current task, and every other live task is suspended;
* `scheduler_dispatches_suspended` — whatever the scheduler dispatches has a context to go on from.
-/

set_option autoImplicit false

namespace ThreadSched.Context

open Memory X86

/-- A struct that is used again has another name in the processor's world. -/
structure Joint where
  world : World
  machine : Sys
  name : ThreadSched.TaskId → TaskId

/-- The tasks dispatched in a piece of the log. -/
def dispatched (es : List ThreadSched.Event) : List ThreadSched.TaskId :=
  es.filterMap fun
    | .dispatch t => some t
    | _ => none

/-- The event the processor goes through in an action that dispatches these tasks, and the names after it. -/
inductive Performs (j : Joint) : Action → List ThreadSched.TaskId → Event → (ThreadSched.TaskId → TaskId) → Prop
  | run {a : Action} (ha : ∀ addr stack prio, a ≠ .taskStart addr stack prio) : Performs j a [] .run j.name
  | create (addr stack : Nat) (prio : Int) (k : TaskId) :
      Performs j (.taskStart addr stack prio) [] (.create k) (Function.update j.name addr k)
  | tick (r : Nat) (t : ThreadSched.TaskId) (p : Snap) : Performs j (.tick r) [t] (.byFrame (j.name t) p) j.name
  | block (t : ThreadSched.TaskId) (p : Snap) : Performs j .resume [t] (.bySwap (j.name t) p) j.name
  | exit (t : ThreadSched.TaskId) (p : Snap) : Performs j .taskExit [t] (.bySet (j.name t) p) j.name

inductive Joint.Step (L : Layout) (j : Joint) : Joint → Prop
  | compute {c : Sys} (h : Context.Step L j.machine .run c) : Joint.Step L j { j with machine := c }
  | act {a : Action} {w : World} {es : List ThreadSched.Event} {e : Event} {c : Sys}
      {name : ThreadSched.TaskId → TaskId} (ha : a.enabled j.world) (hact : j.world.act a = .ok w)
      (hloop : ¬ w.sched.Looping) (hes : w.sched.log = j.world.sched.log ++ es)
      (he : Performs j a (dispatched es) e name) (h : Context.Step L j.machine e c) : Joint.Step L j ⟨w, c, name⟩

/-- The scheduler and the processor at the start of the program. -/
structure Joint.Init (L : Layout) (j : Joint) : Prop where
  world : World.Init j.world
  machine : Start L j.machine
  name : j.name j.world.sched.currentTask = j.machine.current

def jointRuns (L : Layout) : Trans.Sys Joint := ⟨Joint.Init L, Joint.Step L⟩

/-- The processor runs the current task, and it has a context for every other live task. -/
structure Linked (j : Joint) : Prop where
  current : j.machine.current = j.name j.world.sched.currentTask
  saved : ∀ t ∈ j.world.sched.taskAllList, t ≠ j.world.sched.currentTask → (j.machine.saved (j.name t)).isSome
  names : ∀ t ∈ j.world.sched.taskAllList, ∀ u ∈ j.world.sched.taskAllList, j.name t = j.name u → t = u

section

variable {L : Layout} {j j' : Joint} {a : Action} {w : World} {es : List ThreadSched.Event}
  {t : ThreadSched.TaskId}

/-! ## What is dispatched -/

theorem dispatched_append {es es' : List ThreadSched.Event} :
    dispatched (es ++ es') = dispatched es ++ dispatched es' := List.filterMap_append

theorem dispatched_nil {es : List ThreadSched.Event} (h : dispatches es = 0) : dispatched es = [] := by
  unfold dispatches at h
  rw [List.countP_eq_zero] at h
  unfold dispatched
  rw [List.filterMap_eq_nil_iff]
  intro e he
  cases e with
  | dispatch t => exact absurd rfl (h _ he)
  | ready t via => rfl
  | exit t => rfl
  | getchar t q byte => rfl

/-- What an action that ends in a switch dispatches. -/
theorem dispatched_of_switch {s m s' : Sched} {es' : List ThreadSched.Event} (hlog : m.log = s.log ++ es')
    (hno : dispatches es' = 0) (hg : getNextTask m = .ok s') (hes : s'.log = s.log ++ es) :
    dispatched es = [s'.currentTask] := by
  obtain ⟨u, rest, -, -, hlog', hcur, -, -⟩ := getNextTask_lists hg
  rw [hlog, hes, List.append_assoc, List.append_cancel_left_eq] at hlog'
  rw [hlog', dispatched_append, dispatched_nil hno, hcur]
  rfl

theorem dispatched_of_stays {s s' : Sched} (h : Stays s s') (hes : s'.log = s.log ++ es) :
    dispatched es = [] := by
  obtain ⟨es', hlog, hno⟩ := h.log
  rw [hlog, List.append_cancel_left_eq] at hes
  rw [← hes, dispatched_nil hno]

theorem dispatched_of_creates {addr : ThreadSched.TaskId} {s s' : Sched} (h : Creates addr s s')
    (hes : s'.log = s.log ++ es) : dispatched es = [] := by
  rw [h.log, List.append_cancel_left_eq] at hes
  rw [← hes]
  rfl

/-! ## Suspended tasks -/

/-- The task an event dispatches has a context. -/
def Ready (s : Sys) : Event → Prop
  | .run => True
  | .create _ => True
  | .byFrame n p => Function.update s.saved s.current (some ⟨s.cpu, .interrupted⟩) n = some p
  | .bySwap n p => s.saved n = some p
  | .bySet n p => s.saved n = some p

/-- Once the current task is suspended, every live task has a context. -/
theorem Linked.suspended (h : Linked j) (hcur : j.world.sched.currentTask ∈ j.world.sched.taskAllList)
    (ht : t ∈ j.world.sched.taskAllList) (q : Snap) :
    (Function.update j.machine.saved j.machine.current (some q) (j.name t)).isSome := by
  by_cases heq : t = j.world.sched.currentTask
  · rw [heq, ← h.current, Function.update_self]
    rfl
  · have hname : j.name t ≠ j.machine.current := by
      rw [h.current]
      exact fun hn => heq (h.names t ht _ hcur hn)
    rw [Function.update_of_ne hname]
    exact h.saved t ht heq

/-- A dispatch takes one context and leaves the others. -/
theorem Linked.dispatch (h : Linked j) {c : Sys} {g : TaskId → Option Snap}
    (hall : ∀ u ∈ w.sched.taskAllList, u ∈ j.world.sched.taskAllList)
    (hmem : w.sched.currentTask ∈ w.sched.taskAllList) (hcur : c.current = j.name w.sched.currentTask)
    (hg : ∀ u ∈ w.sched.taskAllList, u ≠ w.sched.currentTask → (g (j.name u)).isSome)
    (hsaved : c.saved = Function.update g (j.name w.sched.currentTask) none) : Linked ⟨w, c, j.name⟩ where
  current := hcur
  saved u hu hne := by
    have hname : j.name u ≠ j.name w.sched.currentTask :=
      fun hn => hne (h.names u (hall u hu) _ (hall _ hmem) hn)
    show (c.saved (j.name u)).isSome
    rw [hsaved, Function.update_of_ne hname]
    exact hg u hu hne
  names u hu v hv := h.names u (hall u hu) v (hall v hv)

/-- A new task gets a name no live task has. -/
theorem Linked.create (h : Linked j) (hcur : j.world.sched.currentTask ∈ j.world.sched.taskAllList)
    {addr : ThreadSched.TaskId} {k : TaskId} {c : Sys} (hc : Creates addr j.world.sched w.sched)
    (hs : Context.Step L j.machine (.create k) c) : Linked ⟨w, c, Function.update j.name addr k⟩ := by
  have hold : ∀ u ∈ w.sched.taskAllList, u ≠ addr → u ∈ j.world.sched.taskAllList := by
    intro u hu hne
    simpa [hc.all, hne] using hu
  cases hs with
  | create k function funcArg hnew hsize hown hsep =>
      have hlive : ∀ u ∈ j.world.sched.taskAllList, j.name u ≠ k := by
        rintro u hu rfl
        by_cases heq : u = j.world.sched.currentTask
        · rw [heq, ← h.current] at hnew
          exact hnew live_current
        · exact hnew (.inr (h.saved u hu heq))
      have hne : j.world.sched.currentTask ≠ addr := fun heq => hc.notAll (heq ▸ hcur)
      refine ⟨?_, fun u hu hu' => ?_, fun u hu v hv hname => ?_⟩
      · show j.machine.current = Function.update j.name addr k w.sched.currentTask
        rw [hc.current, Function.update_of_ne hne, h.current]
      · show (Function.update j.machine.saved k _ (Function.update j.name addr k u)).isSome
        by_cases hua : u = addr
        · rw [hua, Function.update_self, Function.update_self]
          rfl
        · have hu₀ := hold u hu hua
          rw [Function.update_of_ne hua, Function.update_of_ne (hlive u hu₀)]
          exact h.saved u hu₀ (hc.current ▸ hu')
      · replace hname : Function.update j.name addr k u = Function.update j.name addr k v := hname
        by_cases hua : u = addr
        · by_cases hva : v = addr
          · rw [hua, hva]
          · rw [hua, Function.update_self, Function.update_of_ne hva] at hname
            exact absurd hname.symm (hlive v (hold v hv hva))
        · by_cases hva : v = addr
          · rw [hva, Function.update_self, Function.update_of_ne hua] at hname
            exact absurd hname (hlive u (hold u hu hua))
          · rw [Function.update_of_ne hua, Function.update_of_ne hva] at hname
            exact h.names u (hold u hu hua) v (hold v hv hva) hname

/-! ## Runs -/

theorem joint_world (h : (jointRuns L).Reach j) : busyRuns.Reach j.world := by
  induction h with
  | init h => exact .init h.world
  | step _ hs ih =>
      cases hs with
      | compute => exact ih
      | act ha hact hloop => exact ih.step ⟨⟨_, ha, hact⟩, hloop⟩

theorem Linked.step (h : Linked j) (hw : WorldInv j.world) (hr : Recorded j.world.sched)
    (hs : Joint.Step L j j') : Linked j' := by
  have hcur : j.world.sched.currentTask ∈ j.world.sched.taskAllList := hw.running.atWork.mem
  cases hs with
  | compute hs =>
      cases hs with
      | run => exact ⟨h.current, h.saved, h.names⟩
  | @act a w es e c name ha hact hloop hes he hs =>
      have hmem : w.sched.currentTask ∈ w.sched.taskAllList :=
        ((hw.act ha w hact).resolve_left hloop).running.atWork.mem
      cases hw.effect hr ha hact hloop with
      | stays hstay hstart =>
          rw [dispatched_of_stays hstay hes] at he
          cases he with
          | run =>
              cases hs with
              | run =>
                  refine ⟨hstay.current ▸ h.current, fun u hu hne => ?_, fun u hu v hv => ?_⟩
                  · exact h.saved u (hstay.all ▸ hu) (hstay.current ▸ hne)
                  · exact h.names u (hstay.all ▸ hu) v (hstay.all ▸ hv)
          | create addr stack prio k => exact absurd rfl (hstart addr stack prio)
      | creates hc =>
          rw [dispatched_of_creates hc hes] at he
          cases he with
          | run hno => exact absurd rfl (hno _ _ _)
          | create addr stack prio k => exact h.create hcur hc hs
      | preempts m hm hg =>
          obtain ⟨es', hlog, hno⟩ := hm.log
          obtain ⟨u, rest, -, -, -, hu, hall, -⟩ := getNextTask_lists hg
          rw [dispatched_of_switch hlog hno hg hes] at he
          cases he with
          | tick r t p =>
              cases hs with
              | signal f =>
                  refine h.dispatch (fun v hv => ?_) hmem rfl (fun v hv _ => ?_) rfl
                  · exact hm.all ▸ hall ▸ hv
                  · exact h.suspended hcur (hm.all ▸ hall ▸ hv) _
      | blocks m hm hg hne =>
          obtain ⟨es', hlog, hno⟩ := hm.log
          obtain ⟨u, rest, -, -, -, hu, hall, -⟩ := getNextTask_lists hg
          rw [dispatched_of_switch hlog hno hg hes] at he
          cases he with
          | block t p =>
              cases hs with
              | block =>
                  refine h.dispatch (fun v hv => ?_) hmem rfl (fun v hv _ => ?_) rfl
                  · exact hm.all ▸ hall ▸ hv
                  · exact h.suspended hcur (hm.all ▸ hall ▸ hv) _
      | leaves m hm hg =>
          obtain ⟨u, rest, -, -, -, hu, hall, -⟩ := getNextTask_lists hg
          rw [dispatched_of_switch hm.log rfl hg hes] at he
          have hmem' : ∀ v ∈ w.sched.taskAllList,
              v ≠ j.world.sched.currentTask ∧ v ∈ j.world.sched.taskAllList := by
            intro v hv
            rw [hall, hm.all] at hv
            obtain ⟨pl, hf, -⟩ := hw.running
            exact hf.all_nodup.mem_erase_iff.1 hv
          cases he with
          | exit t p =>
              cases hs with
              | died =>
                  refine h.dispatch (fun v hv => (hmem' v hv).2) hmem rfl (fun v hv _ => ?_) rfl
                  exact h.saved v (hmem' v hv).2 (hmem' v hv).1

theorem Linked.init (h : Joint.Init L j) : Linked j := by
  have hall : j.world.sched.taskAllList = [j.world.sched.currentTask] := by
    obtain ⟨addr, stack, k, _, hw⟩ := h.world
    rw [start_eq, Except.ok.injEq] at hw
    rw [← hw]
    simp [mainOnly, inited, tidPoolInit, boot]
  refine ⟨h.name.symm, fun u hu hne => ?_, fun u hu v hv _ => ?_⟩
  · exact absurd (by simpa [hall] using hu) hne
  · rw [hall, List.mem_singleton] at hu hv
    rw [hu, hv]

theorem linked_reach (h : (jointRuns L).Reach j) : Linked j :=
  (jointRuns L).invariant_of (J := fun j => busyRuns.Reach j.world) (I := Linked) (fun _ => joint_world)
    (fun _ => Linked.init) (fun _ _ hr hl hs => hl.step (busyRuns_inv hr) (busyRuns_recorded hr) hs) h

/-- **Every run** of the scheduler on the processor: the processor is in the current task, and an action
either goes on with it or makes the switch that belongs to the action, to the task the scheduler chose, which
has a context. -/
theorem scheduler_dispatches_suspended (h : (jointRuns L).Reach j) (ha : a.enabled j.world)
    (hact : j.world.act a = .ok w) (hloop : ¬ w.sched.Looping) (hes : w.sched.log = j.world.sched.log ++ es) :
    j.machine.current = j.name j.world.sched.currentTask ∧
      (dispatched es = [] ∧ w.sched.currentTask = j.world.sched.currentTask ∨
        dispatched es = [w.sched.currentTask] ∧ ∃ e p, Performs j a [w.sched.currentTask] e j.name ∧
          e.dispatched = some (j.name w.sched.currentTask, p) ∧ Ready j.machine e) := by
  have hl := linked_reach h
  have hw := busyRuns_inv (joint_world h)
  have hcur : j.world.sched.currentTask ∈ j.world.sched.taskAllList := hw.running.atWork.mem
  have hmem : w.sched.currentTask ∈ w.sched.taskAllList :=
    ((hw.act ha w hact).resolve_left hloop).running.atWork.mem
  refine ⟨hl.current, ?_⟩
  cases hw.effect (busyRuns_recorded (joint_world h)) ha hact hloop with
  | stays hstay => exact .inl ⟨dispatched_of_stays hstay hes, hstay.current⟩
  | creates hc => exact .inl ⟨dispatched_of_creates hc hes, hc.current⟩
  | preempts m hm hg =>
      obtain ⟨es', hlog, hno⟩ := hm.log
      obtain ⟨u, rest, -, -, -, -, hall, -⟩ := getNextTask_lists hg
      have hd := dispatched_of_switch hlog hno hg hes
      obtain ⟨p, hp⟩ := Option.isSome_iff_exists.1
        (hl.suspended hcur (t := w.sched.currentTask) (hm.all ▸ hall ▸ hmem) ⟨j.machine.cpu, .interrupted⟩)
      exact .inr ⟨hd, .byFrame _ p, p, .tick _ _ p, rfl, hp⟩
  | blocks m hm hg hne =>
      obtain ⟨es', hlog, hno⟩ := hm.log
      obtain ⟨u, rest, -, -, -, -, hall, -⟩ := getNextTask_lists hg
      have hd := dispatched_of_switch hlog hno hg hes
      obtain ⟨p, hp⟩ :=
        Option.isSome_iff_exists.1 (hl.saved w.sched.currentTask (hm.all ▸ hall ▸ hmem) hne)
      exact .inr ⟨hd, .bySwap _ p, p, .block _ p, rfl, hp⟩
  | leaves m hm hg =>
      obtain ⟨u, rest, -, -, -, -, hall, -⟩ := getNextTask_lists hg
      have hd := dispatched_of_switch hm.log rfl hg hes
      obtain ⟨pl, hf, -⟩ := hw.running
      rw [hall, hm.all, hf.all_nodup.mem_erase_iff] at hmem
      obtain ⟨p, hp⟩ := Option.isSome_iff_exists.1 (hl.saved w.sched.currentTask hmem.2 hmem.1)
      exact .inr ⟨hd, .bySet _ p, p, .exit _ p, rfl, hp⟩

end

/-- The main task creates task `3` and sleeps; a tick dispatches the new task. -/
theorem scheduler_dispatches_suspended_first : ∃ j w e p, (jointRuns pairLayout).Reach j ∧
    j.world.act (.tick 0) = .ok w ∧ w.sched.currentTask = 3 ∧ j.machine.current = 0 ∧
      Event.dispatched e = some (1, p) ∧ Ready j.machine e := by
  obtain ⟨w₁, h₁, hx₁, he₁⟩ := exists_next (start_eq 1 2 0) (a := .taskStart 3 4 3)
    (f := fun w => (w.sched.conts w.sched.currentTask, w.sched.log)) (b := ([], [.ready 3 .taskStart])) rfl
  obtain ⟨w₂, h₂, hx₂, he₂⟩ := exists_next hx₁ (a := .sleep 5)
    (f := fun w => (w.sched.conts w.sched.currentTask, w.sched.log))
    (b := ([.sleepSpin], [.ready 3 .taskStart])) (by decide +kernel)
  obtain ⟨w₃, h₃, _, he₃⟩ := exists_next hx₂ (a := .tick 0)
    (f := fun w => (w.sched.conts w.sched.currentTask, w.sched.currentTask, w.sched.log))
    (b := ([], 3, [.ready 3 .taskStart, .dispatch 3])) (by decide +kernel)
  simp only [Prod.mk.injEq] at he₁ he₂ he₃
  have hinit : Joint.Init pairLayout ⟨_, mainAlone, fun _ => 0⟩ :=
    ⟨⟨1, 2, 0, by norm_num, start_eq 1 2 0⟩, mainAlone_start, rfl⟩
  have hcreate : Joint.Step pairLayout _ ⟨w₁, mainAndTask, Function.update (fun _ => 0) 3 1⟩ :=
    Joint.Step.act (j := ⟨_, mainAlone, fun _ => 0⟩) (a := .taskStart 3 4 3) ⟨rfl, rfl, rfl⟩ h₁
      (not_looping_of_conts he₁.1 (by simp)) he₁.2 (Performs.create 3 4 3 1) mainAlone_create
  have hsleep : Joint.Step pairLayout ⟨w₁, mainAndTask, Function.update (fun _ => 0) 3 1⟩
      ⟨w₂, mainAndTask, Function.update (fun _ => 0) 3 1⟩ :=
    Joint.Step.act (a := .sleep 5) ⟨he₁.1, by norm_num⟩ h₂ (not_looping_of_conts he₂.1 (by simp))
      (show w₂.sched.log = w₁.sched.log ++ [] by rw [he₁.2, he₂.2, List.append_nil])
      (Performs.run (a := .sleep 5) (by simp))
      (Context.Step.run rfl rfl (fun _ _ _ _ => rfl) fun _ _ _ _ _ _ => rfl)
  have hreach : (jointRuns pairLayout).Reach _ :=
    ((Trans.Sys.Reach.init (M := jointRuns pairLayout) hinit).step hcreate).step hsleep
  obtain ⟨hmain, hnone | ⟨-, e, p, -, hep, hready⟩⟩ := scheduler_dispatches_suspended hreach
    (a := .tick 0) (by norm_num [Action.enabled]) h₃ (not_looping_of_conts he₃.1 (by simp))
    (show w₃.sched.log = w₂.sched.log ++ [.dispatch 3] by rw [he₂.2, he₃.2.2]; rfl)
  · exact absurd hnone.1 (by simp [dispatched])
  · refine ⟨_, w₃, e, p, hreach, h₃, he₃.2.1, rfl, ?_, hready⟩
    rw [hep, he₃.2.1]
    rfl

end ThreadSched.Context
