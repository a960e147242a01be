import Mathlib
import ThreadSched.Kernel.Scan

/-!
# The time slices of the BPF program (`kernel/signalkill.bpf.c`, `Thread` tree)

`main` enters its pid and a slice of 31 switches in two maps.  At each switch away from that process the
program takes one off the slice, and when the slice is used up it renews it and sends `SIGUSR1`.

* `Maps`, `bpfDos` — the maps and the program, at one switch.
* `everyNth` — the elements at the end of each stretch of a list.
* `signal_every_slice` — the signals and the events after any switches of any processes.
-/

set_option autoImplicit false

namespace ThreadSched.Bpf

/-- `struct event`. -/
structure Event where
  pid : Int
  comm : Fin 16 → BitVec 8
  success : Bool

/-- `pid_map`, `time_slice_map`, what was submitted to `rb`, and the processes in which `bpf_send_signal`
was called. -/
structure Maps where
  pidMap : Int → Option Int
  timeSliceMap : Int → Option Int
  rb : List Event
  signals : List Int

/-- What the helper functions return at a switch: the current task, its name, whether the signal was sent,
and whether there is room in `rb`. -/
structure Switch where
  pidTgid : Nat
  comm : Fin 16 → BitVec 8
  ret : Int
  room : Bool

def Switch.pid (c : Switch) : Int := int32 (c.pidTgid >>> 32 : Nat)

def Switch.event (c : Switch) : Event := ⟨c.pid, c.comm, c.ret = 0⟩

/-- `bpf_dos`.  The update of a key that the map has does not fail. -/
def bpfDos (c : Switch) (m : Maps) : Maps :=
  match m.pidMap 0 with
  | none => m
  | some targetPid =>
    if targetPid ≠ c.pid then m
    else match m.timeSliceMap c.pid with
    | none => m
    | some ticks =>
      let ticks := int32 (ticks - 1)
      let m := { m with timeSliceMap := Function.update m.timeSliceMap c.pid (some ticks) }
      if ticks ≤ 0 then
        let newTimeSlice := 31
        let m := { m with
          timeSliceMap := Function.update m.timeSliceMap c.pid (some newTimeSlice)
          signals := m.signals ++ [c.pid] }
        if c.room then { m with rb := m.rb ++ [c.event] } else m
      else m

/-- What `main` enters in the maps before it attaches the program. -/
def started (pid : Int) : Maps where
  pidMap := Function.update (fun _ => none) 0 (some pid)
  timeSliceMap := Function.update (fun _ => none) pid (some 31)
  rb := []
  signals := []

def run (cs : List Switch) (m : Maps) : Maps := cs.foldl (fun m c => bpfDos c m) m

/-- The switches away from a process. -/
def switchesOf (pid : Int) (cs : List Switch) : List Switch := cs.filter fun c => c.pid = pid

/-- What is left of the slice after `n` switches. -/
def sliceLeft (n : Nat) : Int := 31 - (n % 31 : Nat)

/-! ## The ends of the slices -/

/-- The elements at the end of each stretch of `k`. -/
def everyNth {α : Type} (k : Nat) (l : List α) : List α :=
  (l.zipIdx.filter fun x => (x.2 + 1) % k = 0).map Prod.fst

theorem everyNth_concat {α : Type} (k : Nat) (l : List α) (a : α) :
    everyNth k (l ++ [a]) = everyNth k l ++ if (l.length + 1) % k = 0 then [a] else [] := by
  unfold everyNth
  rw [List.zipIdx_append, List.filter_append, List.map_append, Nat.zero_add]
  congr 1
  by_cases h : (l.length + 1) % k = 0
  · simp [h]
  · simp [h]

/-! ## Runs -/

section

variable {p : Int} {m : Maps} {c : Switch} {l cs : List Switch}

/-- What the maps are after the switches `l` away from the process `p`. -/
structure Tracked (p : Int) (l : List Switch) (m : Maps) : Prop where
  target : m.pidMap 0 = some p
  slice : m.timeSliceMap p = some (sliceLeft l.length)
  signals : m.signals = List.replicate (l.length / 31) p
  rb : m.rb = ((everyNth 31 l).filter Switch.room).map Switch.event

theorem tracked_started (p : Int) : Tracked p [] (started p) := by
  have hslice : (started p).timeSliceMap p = some 31 := by
    simp [started]
  exact ⟨rfl, hslice, rfl, rfl⟩

/-- A switch away from another process. -/
theorem Tracked.other (h : Tracked p l m) (hc : c.pid ≠ p) : bpfDos c m = m := by
  unfold bpfDos
  rw [h.target]
  exact if_pos hc.symm

/-- **A switch away from the process.** -/
theorem Tracked.switch (h : Tracked p l m) (hc : c.pid = p) : Tracked p (l ++ [c]) (bpfDos c m) := by
  subst hc
  have hlen : (l ++ [c]).length = l.length + 1 := List.length_append
  have hticks : int32 (sliceLeft l.length - 1) = (30 - l.length % 31 : Nat) := by
    rw [show sliceLeft l.length - 1 = (30 - l.length % 31 : Nat) by unfold sliceLeft; omega,
      int32_of_lt (by omega)]
  unfold bpfDos
  simp only [h.target, h.slice, ne_eq, not_true_eq_false, if_false, hticks]
  by_cases hend : (l.length + 1) % 31 = 0
  · have hslice : sliceLeft (l.length + 1) = 31 := by
      rw [sliceLeft, hend]
      rfl
    have hsignals : m.signals ++ [c.pid] = List.replicate ((l ++ [c]).length / 31) c.pid := by
      rw [h.signals, show (l ++ [c]).length / 31 = l.length / 31 + 1 by omega, List.replicate_succ']
    have hrb : ((everyNth 31 (l ++ [c])).filter Switch.room).map Switch.event =
        m.rb ++ if c.room then [c.event] else [] := by
      rw [everyNth_concat, if_pos hend, List.filter_append, List.map_append, ← h.rb]
      cases hroom : c.room with
      | true => simp [hroom]
      | false => simp [hroom]
    rw [if_pos (by omega)]
    cases hroom : c.room with
    | true =>
        refine ⟨h.target, by simp [hslice], hsignals, ?_⟩
        simp [hrb, hroom]
    | false =>
        refine ⟨h.target, by simp [hslice], hsignals, ?_⟩
        simp [hrb, hroom]
  · rw [if_neg (by omega)]
    have hslice : sliceLeft (l.length + 1) = (30 - l.length % 31 : Nat) := by
      unfold sliceLeft
      omega
    refine ⟨h.target, by simp [hslice], ?_, ?_⟩
    · show m.signals = _
      rw [h.signals, show (l ++ [c]).length / 31 = l.length / 31 by omega]
    · show m.rb = _
      rw [h.rb, everyNth_concat, if_neg hend, List.append_nil]

theorem tracked_run (p : Int) (cs : List Switch) : Tracked p (switchesOf p cs) (run cs (started p)) := by
  induction cs using List.reverseRecOn with
  | nil => exact tracked_started p
  | append_singleton cs c ih =>
      have hrun : run (cs ++ [c]) (started p) = bpfDos c (run cs (started p)) := by
        simp [run]
      rw [hrun]
      by_cases hc : c.pid = p
      · rw [show switchesOf p (cs ++ [c]) = switchesOf p cs ++ [c] by simp [switchesOf, hc]]
        exact ih.switch hc
      · rw [show switchesOf p (cs ++ [c]) = switchesOf p cs by simp [switchesOf, hc], ih.other hc]
        exact ih

end

/-- **The signals**, after any switches of any processes: one at every 31st switch away from the process that
was entered, all of them in that process; each is reported to user space where there was room. -/
theorem signal_every_slice (p : Int) (cs : List Switch) :
    (run cs (started p)).signals = List.replicate ((switchesOf p cs).length / 31) p ∧
      (run cs (started p)).rb = ((everyNth 31 (switchesOf p cs)).filter Switch.room).map Switch.event ∧
        (run cs (started p)).timeSliceMap p = some (sliceLeft (switchesOf p cs).length) :=
  ⟨(tracked_run p cs).signals, (tracked_run p cs).rb, (tracked_run p cs).slice⟩

end ThreadSched.Bpf
