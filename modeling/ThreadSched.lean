import ThreadSched.Lib.Trans
import ThreadSched.Lib.Buckets
import ThreadSched.Timer.Wheel
import ThreadSched.Timer.Placement
import ThreadSched.Timer.NeverLate
import ThreadSched.Timer.CatchUp
import ThreadSched.Timer.NeverEarly
import ThreadSched.Timer.CallTick
import ThreadSched.Timer.Storage
import ThreadSched.Timer.StorageSafe
import ThreadSched.Timer.Refines
import ThreadSched.Timer.Cascade
import ThreadSched.Timer.NonInterference
import ThreadSched.Lib.Returns
import ThreadSched.Lib.Rings
import ThreadSched.Lib.Memory
import ThreadSched.Lib.X86
import ThreadSched.Kernel.Bitmap
import ThreadSched.Kernel.Scan
import ThreadSched.Kernel.BitSet
import ThreadSched.Kernel.Runs
import ThreadSched.Kernel.List
import ThreadSched.Kernel.Sequences
import ThreadSched.Task.State
import ThreadSched.Task.Switch
import ThreadSched.Task.Sync
import ThreadSched.Task.Task
import ThreadSched.Task.Handler
import ThreadSched.Task.Clean
import ThreadSched.Task.Tame
import ThreadSched.Task.Places
import ThreadSched.Task.Moves
import ThreadSched.Task.Lifecycle
import ThreadSched.Task.Partition
import ThreadSched.Task.Events
import ThreadSched.Task.Sleepers
import ThreadSched.Task.Idle
import ThreadSched.Task.Primitive
import ThreadSched.Task.Progress
import ThreadSched.Task.Recycle
import ThreadSched.Task.TidPool
import ThreadSched.Task.Waiting
import ThreadSched.Task.Marks
import ThreadSched.Task.TwoTrees
import ThreadSched.Task.Picker
import ThreadSched.Task.Join
import ThreadSched.Task.Exit
import ThreadSched.Task.Standing
import ThreadSched.Task.Wakeups
import ThreadSched.Task.LockProtocol
import ThreadSched.Signal.TickBudget
import ThreadSched.Signal.SwitchSlices
import ThreadSched.Hook.Fcntl
import ThreadSched.Hook.Transparent
import ThreadSched.Hook.Sleep
import ThreadSched.Hook.Naps
import ThreadSched.Ioq.Apart
import ThreadSched.Ioq.Wedge
import ThreadSched.Ioq.Fifo
import ThreadSched.Mask.Sema
import ThreadSched.Mask.Creation
import ThreadSched.Context.Routines
import ThreadSched.Context.Switch
import ThreadSched.Context.Preempt
import ThreadSched.Context.Carried
import ThreadSched.Task.Turns
import ThreadSched.Context.Schedule
import ThreadSched.Lib.Rotation
import ThreadSched.Task.RoundRobin
import ThreadSched.Task.Pending
