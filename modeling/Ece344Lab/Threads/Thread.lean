import Ece344Lab.Lib.Search
import Ece344Lab.Threads.ThreadQueue

set_option autoImplicit false

/- The thread package of `thread.c`. A thread that has called `getcontext` is resumed at the same
place a second time, so the places where calls are suspended are frames, and a context is a stack
of frames with the signal mask. Code between two frames runs with the timer signal as it left it;
the timer can strike before any frame at which the signal is enabled. -/
namespace Ece344Lab.Threads

def threadAny : Int := -1
def threadSelf : Int := -2
def threadInvalid : Int := -3
def threadNone : Int := -4
def threadNomore : Int := -5
def threadFailed : Int := -7

def threadMaxThreads : Nat := 1024

inductive ThreadStatus
  | new
  | run
  | idle
  | exit
  | sleep
  deriving DecidableEq

inductive MutexStatus
  | locked
  | free
  deriving DecidableEq

/-- Wait queues are known by what they have been allocated for. -/
inductive WaitQueue
  | ofLock (lock : Nat)
  | ofCv (cv : Nat)
  | other (i : Nat)
  deriving DecidableEq

/-- The calls of the package. `thread_create` comes with the address that `malloc` gives. -/
inductive Call
  | threadCreate (newThread : Nat)
  | threadYield (wantTid : Int)
  | threadExit (tid : Int)
  | threadSleep (queue : Option WaitQueue)
  | threadWakeup (queue : Option WaitQueue) (all : Int)
  | lockAcquire (lock : Nat)
  | lockRelease (lock : Nat)
  | cvWait (cv lock : Nat)
  | cvSignal (cv lock : Nat)
  | cvBroadcast (cv lock : Nat)
  deriving DecidableEq

/-- Where a call goes on, with the locals it needs there. -/
inductive Frame
  /-- `thread_yield(THREAD_ANY)` behind `getcontext` -/
  | yieldAny (interruptEnabled : Bool)
  /-- `thread_yield` with an identifier behind `getcontext` -/
  | yieldTo (wantTid : Int) (interruptEnabled : Bool)
  /-- `thread_sleep` behind `getcontext` -/
  | sleep (queue : WaitQueue) (controlId : Int) (interruptEnabled : Bool)
  /-- the loop of `lock_acquire` -/
  | acquire (lock : Nat) (interruptEnabled : Bool)
  /-- `lock_release` behind `thread_wakeup` -/
  | release (lock : Nat) (interruptEnabled : Bool)
  /-- `cv_wait` behind `lock_release` -/
  | waitReleased (cv lock : Nat) (interruptEnabled : Bool)
  /-- `cv_wait` behind `thread_sleep` -/
  | waitSlept (cv lock : Nat) (interruptEnabled : Bool)
  /-- `cv_wait` behind `lock_acquire` -/
  | waitAcquired (cv lock : Nat) (interruptEnabled : Bool)
  /-- `cv_signal` behind `thread_wakeup` -/
  | signalled (cv lock : Nat) (interruptEnabled : Bool)
  /-- `cv_broadcast` behind `thread_wakeup` -/
  | broadcasted (cv lock : Nat) (interruptEnabled : Bool)
  /-- the loop of the final release in `thread_exit(THREAD_SELF)` -/
  | exitMain (interruptEnabled : Bool)
  /-- `interrupt_handler` behind `thread_yield`, with the mask of what it has interrupted -/
  | handler (enabled : Bool)
  /-- the start of `thread_stub` -/
  | stub
  deriving DecidableEq

/-- What `getcontext` saves. -/
structure Context where
  frames : List Frame
  enabled : Bool

/-- `struct thread`. A stack begins at `NULL` or somewhere in the block that `malloc` has given for
it, so many bytes behind the start of the block. -/
structure Thread where
  iID : Int
  context : Context
  status : ThreadStatus
  pStack : Option Nat

/-- `struct lock`. Its wait queue is the one allocated for it. -/
structure Lock where
  lockedThread : Option Nat
  status : MutexStatus
  deriving DecidableEq

/-- What happens in a run: calls, returns and starts of functions with the state of the timer
signal, and the beginning and end of threads. -/
inductive Event
  | call (t : Nat) (c : Call) (enabled : Bool)
  | ret (t : Nat) (c : Call) (value : Option Int) (enabled : Bool)
  | created (t : Nat)
  | started (t : Nat) (enabled : Bool)
  | exited (t : Nat)
  deriving DecidableEq

/-- The package and its threads. `enabled` says that the timer signal is not blocked, `running`
whose context has been set last, `frames` where its calls are, from the innermost one; without
frames it runs its own code. `log` is what has happened, the last event first. -/
structure State where
  threads : Nat → Thread
  allocated : Nat → Bool
  readyQueue : ThreadQueue
  exitQueue : ThreadQueue
  readyQueueIndex : Nat → Option Nat
  waitQueues : WaitQueue → ThreadQueue
  locks : Nat → Lock
  enabled : Bool
  running : Nat
  frames : List Frame
  log : List Event

namespace State

/-- `interrupts_set`, apart from its value, which is `enabled`. -/
def interruptsSet (s : State) (enabled : Bool) : State := { s with enabled := enabled }

/-- The running thread enters a call. -/
def called (s : State) (c : Call) : State := { s with log := .call s.running c s.enabled :: s.log }

/-- The running thread returns from a call to where the frames lead. -/
def returned (s : State) (c : Call) (value : Option Int) (k : List Frame) : State :=
  { s with frames := k, log := .ret s.running c value s.enabled :: s.log }

def happened (s : State) (e : Event) : State := { s with log := e :: s.log }

def setStatus (s : State) (t : Nat) (status : ThreadStatus) : State :=
  { s with threads := Function.update s.threads t { s.threads t with status := status } }

/-- `getcontext` into the context of a thread. -/
def getcontext (s : State) (t : Nat) (frames : List Frame) : State :=
  { s with
    threads := Function.update s.threads t { s.threads t with context := ⟨frames, s.enabled⟩ } }

/-- `setcontext` to the context of a thread. -/
def setcontext (s : State) (t : Nat) : State :=
  { s with
    running := t
    frames := (s.threads t).context.frames
    enabled := (s.threads t).context.enabled }

def free (s : State) (t : Nat) : State :=
  { s with allocated := Function.update s.allocated t false }

def setWaitQueue (s : State) (w : WaitQueue) (q : ThreadQueue) : State :=
  { s with waitQueues := Function.update s.waitQueues w q }

def setLock (s : State) (lock : Nat) (l : Lock) : State :=
  { s with locks := Function.update s.locks lock l }

def setIndex (s : State) (id : Int) (t : Option Nat) : State :=
  { s with readyQueueIndex := Function.update s.readyQueueIndex id.toNat t }

end State

/-- `thread_init`, with no locks taken. -/
def threadInit (newthread : Nat) (enabled : Bool) : Except Fault State := do
  let id : Int := ThreadQueue.new.queue.size
  let (_, readyQueue) ← ThreadQueue.new.push newthread
  .ok {
    threads := fun _ => ⟨id, ⟨[], enabled⟩, .run, none⟩
    allocated := fun t => decide (t = newthread)
    readyQueue := readyQueue
    exitQueue := .new
    readyQueueIndex := fun i => if (i : Int) = id then some newthread else none
    waitQueues := fun _ => .new
    locks := fun _ => ⟨none, .free⟩
    enabled := enabled
    running := newthread
    frames := []
    log := [.created newthread] }

/-- A failed assertion ends the program. -/
def cAssert (condition : Bool) : Except Fault Unit :=
  if condition then .ok () else .error .exits

/-- Where `thread_create` lets a stack begin. Blocks from `malloc` start at multiples of 16, so
places in them can be counted from their start. -/
def newStack : Nat :=
  let newStack := 0
  let newStack := (newStack + 16) / 16 * 16
  newStack - 8

/-- `free` of a stack takes `NULL` and what `malloc` has given, that is the start of a block. -/
def freeStack (pStack : Option Nat) : Except Fault Unit :=
  match pStack with
  | none | some 0 => .ok ()
  | some (_ + 1) => .error .undefined

/-- `thread_create`. Memory is not exhausted. -/
def threadCreate (newThread : Nat) (k : List Frame) (s : State) : Except Fault State :=
  let interruptEnabled := s.enabled
  let c := Call.threadCreate newThread
  let s := (s.called c).interruptsSet false
  let s := { s with allocated := Function.update s.allocated newThread true }
  match Search.firstFrom (fun i => (s.readyQueueIndex i).isNone) (threadMaxThreads - 1) 1 with
  | some counter => do
      -- the instruction pointer in the context is set to `thread_stub`
      let thread : Thread := ⟨counter, ⟨[.stub], s.enabled⟩, .new, some newStack⟩
      let s := { s with threads := Function.update s.threads newThread thread }
      let s := s.setIndex counter (some newThread)
      let (_, readyQueue) ← s.readyQueue.push newThread
      let s := { s with readyQueue := readyQueue }.happened (.created newThread)
      .ok ((s.interruptsSet interruptEnabled).returned c (some counter) k)
  | none => .ok ((s.interruptsSet interruptEnabled).returned c (some threadNomore) k)

/-- `thread_yield(THREAD_ANY)` behind `getcontext`. -/
def yieldAnyGot (interruptEnabled : Bool) (k : List Frame) (s : State) : Except Fault State := do
  let currentThread ← s.readyQueue.top
  let status := (s.threads currentThread).status
  if status = .run ∨ status = .new then do
    let s := s.setStatus currentThread .idle
    let (_, readyQueue) ← s.readyQueue.pop
    let (_, readyQueue) ← readyQueue.push currentThread
    let s := { s with readyQueue := readyQueue }
    let nextThread ← s.readyQueue.top
    .ok (s.setcontext nextThread)
  else
    let s := s.setStatus currentThread .run
    .ok ((s.interruptsSet interruptEnabled).returned (.threadYield threadAny)
      (some (s.threads currentThread).iID) k)

/-- `thread_yield` with an identifier behind `getcontext`. -/
def yieldToGot (wantTid : Int) (interruptEnabled : Bool) (k : List Frame) (s : State) :
    Except Fault State := do
  cAssert (!s.enabled)
  let currentThread ← s.readyQueue.top
  let status := (s.threads currentThread).status
  if status = .run ∨ status = .new then do
    match ← queueSearch s.readyQueue.queue fun t => (s.threads t).iID = wantTid with
    | some found => do
        let s := s.setStatus currentThread .idle
        let (_, readyQueue) ← s.readyQueue.pop
        let (_, readyQueue) ← readyQueue.movetop ((found.position : Int) - 1)
        cAssert (← queueEnded readyQueue.queue)
        let (_, readyQueue) ← readyQueue.push currentThread
        let s := { s with readyQueue := readyQueue }
        .ok (s.setcontext found.val)
    | none =>
        .ok ((s.interruptsSet interruptEnabled).returned (.threadYield wantTid)
          (some threadInvalid) k)
  else
    let s := s.setStatus currentThread .run
    .ok ((s.interruptsSet interruptEnabled).returned (.threadYield wantTid) (some wantTid) k)

def threadYield (wantTid : Int) (k : List Frame) (s : State) : Except Fault State := do
  let interruptEnabled := s.enabled
  let c := Call.threadYield wantTid
  let s := (s.called c).interruptsSet false
  cAssert (← queueEnded s.readyQueue.queue)
  if wantTid < threadSelf then
    .ok ((s.interruptsSet interruptEnabled).returned c (some threadInvalid) k)
  else do
    let currentThread ← s.readyQueue.top
    if wantTid = threadSelf then
      .ok ((s.interruptsSet interruptEnabled).returned c (some (s.threads currentThread).iID) k)
    else if wantTid = threadAny then
      if s.readyQueue.queue.size = 1 then
        .ok ((s.interruptsSet interruptEnabled).returned c (some threadNone) k)
      else
        yieldAnyGot interruptEnabled k
          (s.getcontext currentThread (.yieldAny interruptEnabled :: k))
    else if wantTid = (s.threads currentThread).iID then
      .ok ((s.interruptsSet interruptEnabled).returned c (some wantTid) k)
    else
      yieldToGot wantTid interruptEnabled k
        (s.getcontext currentThread (.yieldTo wantTid interruptEnabled :: k))

/-- The final release in `thread_exit(THREAD_SELF)`: one round of its loop. -/
def exitMainLoop (interruptEnabled : Bool) (k : List Frame) (s : State) : Except Fault State :=
  if s.readyQueue.queue.size ≠ 0 then do
    let currentThread ← s.exitQueue.top
    freeStack (s.threads currentThread).pStack
    let s := s.free currentThread
    let (_, exitQueue) ← s.exitQueue.pop
    .ok { s with exitQueue := exitQueue, frames := .exitMain interruptEnabled :: k }
  else
    .ok ((s.interruptsSet interruptEnabled).returned (.threadExit threadSelf) (some threadFailed) k)

def threadExit (tid : Int) (k : List Frame) (s : State) : Except Fault State := do
  let interruptEnabled := s.enabled
  let c := Call.threadExit tid
  let s := (s.called c).interruptsSet false
  if 0 ≤ tid then do
    let currentThread ← s.readyQueue.top
    match ← s.readyQueue.exitFound fun t => (s.threads t).iID = tid with
    | (none, _) =>
        .ok ((s.interruptsSet interruptEnabled).returned c (some threadInvalid) k)
    | (some exitThread, readyQueue) => do
        let returnId := (s.threads exitThread).iID
        let s := ({ s with readyQueue := readyQueue }.setIndex returnId none).happened
          (.exited exitThread)
        if returnId = (s.threads currentThread).iID then do
          let (_, exitQueue) ← s.exitQueue.push exitThread
          let s := { s with exitQueue := exitQueue }
          .ok ((s.interruptsSet interruptEnabled).returned c (some returnId) k)
        else do
          freeStack (s.threads exitThread).pStack
          .ok (((s.free exitThread).interruptsSet interruptEnabled).returned c (some returnId) k)
  else if tid = threadAny then
    if s.readyQueue.queue.size = 1 then
      .ok ((s.interruptsSet interruptEnabled).returned c (some threadNone) k)
    else do
      let (exitThread, readyQueue) ← s.readyQueue.exitLast
      let returnId := (s.threads exitThread).iID
      let s := ({ s with readyQueue := readyQueue }.setIndex returnId none).happened
        (.exited exitThread)
      let (_, exitQueue) ← s.exitQueue.push exitThread
      let s := { s with exitQueue := exitQueue }
      .ok ((s.interruptsSet interruptEnabled).returned c (some returnId) k)
  else if tid = threadSelf then do
    let currentThread ← s.readyQueue.top
    if s.readyQueue.queue.size = 1 ∧ (s.threads currentThread).iID = 0 then
      .ok { s with frames := .exitMain interruptEnabled :: k }
    else if s.readyQueue.queue.size = 1 then do
      -- the exit queue is freed, and the thread that runs on
      freeStack (s.threads currentThread).pStack
      let s := (s.free currentThread).happened (.exited currentThread)
      .ok ((s.interruptsSet interruptEnabled).returned c (some threadNone) k)
    else do
      let s := (s.setIndex (s.threads currentThread).iID none).happened (.exited currentThread)
      let (_, exitQueue) ← s.exitQueue.push currentThread
      let (_, readyQueue) ← s.readyQueue.pop
      let s := { s with exitQueue := exitQueue, readyQueue := readyQueue }
      let currentThread ← s.readyQueue.top
      .ok (s.setcontext currentThread)
  else
    .ok ((s.interruptsSet interruptEnabled).returned c (some threadInvalid) k)

/-- `thread_sleep` behind `getcontext`. -/
def sleepGot (queue : WaitQueue) (controlId : Int) (interruptEnabled : Bool) (k : List Frame)
    (s : State) : Except Fault State := do
  let currentThread ← s.readyQueue.top
  let status := (s.threads currentThread).status
  if status = .run ∨ status = .new then do
    let (_, readyQueue) ← s.readyQueue.pop
    let s := { s with readyQueue := readyQueue }.setStatus currentThread .sleep
    let (_, waitQueue) ← (s.waitQueues queue).push currentThread
    let s := s.setWaitQueue queue waitQueue
    let nextThread ← s.readyQueue.top
    .ok (s.setcontext nextThread)
  else
    let s := if status = .idle then s.setStatus currentThread .run else s
    .ok ((s.interruptsSet interruptEnabled).returned (.threadSleep (some queue)) (some controlId) k)

def threadSleep (queue : Option WaitQueue) (k : List Frame) (s : State) : Except Fault State :=
  let interruptEnabled := s.enabled
  let c := Call.threadSleep queue
  let s := (s.called c).interruptsSet false
  match queue with
  | none => .ok ((s.interruptsSet interruptEnabled).returned c (some threadInvalid) k)
  | some w =>
      if s.readyQueue.queue.size = 1 then
        .ok ((s.interruptsSet interruptEnabled).returned c (some threadNone) k)
      else do
        let controlThread ← queueSecond s.readyQueue.queue
        let controlId := (s.threads controlThread).iID
        let currentThread ← s.readyQueue.top
        sleepGot w controlId interruptEnabled k
          (s.getcontext currentThread (.sleep w controlId interruptEnabled :: k))

/-- The thread that has waited longest becomes ready. -/
def wakeupTop (w : WaitQueue) (s : State) : Except Fault State := do
  let thread ← (s.waitQueues w).top
  let s := s.setStatus thread .idle
  let (_, waitQueue) ← (s.waitQueues w).pop
  let s := s.setWaitQueue w waitQueue
  let (_, readyQueue) ← s.readyQueue.push thread
  .ok { s with readyQueue := readyQueue }

def wakeupLoop (w : WaitQueue) : Nat → State → Except Fault State
  | 0, s => if (s.waitQueues w).queue.size ≠ 0 then .error .diverges else .ok s
  | fuel + 1, s =>
      if (s.waitQueues w).queue.size ≠ 0 then do
        let s ← wakeupTop w s
        wakeupLoop w fuel s
      else .ok s

def threadWakeup (queue : Option WaitQueue) (all : Int) (k : List Frame) (s : State) :
    Except Fault State :=
  let interruptEnabled := s.enabled
  let c := Call.threadWakeup queue all
  let s := (s.called c).interruptsSet false
  match queue with
  | none => .ok ((s.interruptsSet interruptEnabled).returned c (some 0) k)
  | some w =>
      let size := (s.waitQueues w).queue.size
      if size = 0 then .ok ((s.interruptsSet interruptEnabled).returned c (some 0) k)
      else if all = 1 then do
        let s ← wakeupLoop w size.toNat s
        .ok ((s.interruptsSet interruptEnabled).returned c (some size) k)
      else do
        let s ← wakeupTop w s
        .ok ((s.interruptsSet interruptEnabled).returned c (some 1) k)

/-- The loop of `lock_acquire`, and what follows it. -/
def acquireLoop (lock : Nat) (interruptEnabled : Bool) (k : List Frame) (s : State) :
    Except Fault State :=
  if (s.locks lock).status ≠ .free then
    threadSleep (some (.ofLock lock)) (.acquire lock interruptEnabled :: k) s
  else do
    let currentThread ← s.readyQueue.top
    let s := s.setLock lock ⟨some currentThread, .locked⟩
    .ok ((s.interruptsSet interruptEnabled).returned (.lockAcquire lock) none k)

def lockAcquire (lock : Nat) (k : List Frame) (s : State) : Except Fault State :=
  let interruptEnabled := s.enabled
  let s := (s.called (.lockAcquire lock)).interruptsSet false
  acquireLoop lock interruptEnabled k s

def lockRelease (lock : Nat) (k : List Frame) (s : State) : Except Fault State :=
  let interruptEnabled := s.enabled
  let s := (s.called (.lockRelease lock)).interruptsSet false
  let s := s.setLock lock { s.locks lock with status := .free }
  threadWakeup (some (.ofLock lock)) 1 (.release lock interruptEnabled :: k) s

/-- The running thread has the lock, as `cv_wait`, `cv_signal` and `cv_broadcast` test it. -/
def isHolder (s : State) (lock currentThread : Nat) : Bool :=
  decide ((s.locks lock).lockedThread = some currentThread ∧ (s.locks lock).status = .locked)

def cvWait (cv lock : Nat) (k : List Frame) (s : State) : Except Fault State := do
  let interruptEnabled := s.enabled
  let s := (s.called (.cvWait cv lock)).interruptsSet false
  let currentThread ← s.readyQueue.top
  if isHolder s lock currentThread then
    lockRelease lock (.waitReleased cv lock interruptEnabled :: k) s
  else
    .ok ((s.interruptsSet interruptEnabled).returned (.cvWait cv lock) none k)

def cvSignal (cv lock : Nat) (k : List Frame) (s : State) : Except Fault State := do
  let interruptEnabled := s.enabled
  let s := (s.called (.cvSignal cv lock)).interruptsSet false
  let currentThread ← s.readyQueue.top
  if isHolder s lock currentThread then
    threadWakeup (some (.ofCv cv)) 0 (.signalled cv lock interruptEnabled :: k) s
  else
    .ok ((s.interruptsSet interruptEnabled).returned (.cvSignal cv lock) none k)

def cvBroadcast (cv lock : Nat) (k : List Frame) (s : State) : Except Fault State := do
  let interruptEnabled := s.enabled
  let s := (s.called (.cvBroadcast cv lock)).interruptsSet false
  let currentThread ← s.readyQueue.top
  if isHolder s lock currentThread then
    threadWakeup (some (.ofCv cv)) 1 (.broadcasted cv lock interruptEnabled :: k) s
  else
    .ok ((s.interruptsSet interruptEnabled).returned (.cvBroadcast cv lock) none k)

/-- The running thread enters a call. -/
def enter : Call → List Frame → State → Except Fault State
  | .threadCreate newThread => threadCreate newThread
  | .threadYield wantTid => threadYield wantTid
  | .threadExit tid => threadExit tid
  | .threadSleep queue => threadSleep queue
  | .threadWakeup queue all => threadWakeup queue all
  | .lockAcquire lock => lockAcquire lock
  | .lockRelease lock => lockRelease lock
  | .cvWait cv lock => cvWait cv lock
  | .cvSignal cv lock => cvSignal cv lock
  | .cvBroadcast cv lock => cvBroadcast cv lock

/-- The running thread goes on at a frame. -/
def resume : Frame → List Frame → State → Except Fault State
  | .yieldAny interruptEnabled, k, s => yieldAnyGot interruptEnabled k s
  | .yieldTo wantTid interruptEnabled, k, s => yieldToGot wantTid interruptEnabled k s
  | .sleep queue controlId interruptEnabled, k, s =>
      sleepGot queue controlId interruptEnabled k s
  | .acquire lock interruptEnabled, k, s => acquireLoop lock interruptEnabled k s
  | .release lock interruptEnabled, k, s =>
      let s := s.setLock lock { s.locks lock with lockedThread := none }
      .ok ((s.interruptsSet interruptEnabled).returned (.lockRelease lock) none k)
  | .waitReleased cv lock interruptEnabled, k, s =>
      threadSleep (some (.ofCv cv)) (.waitSlept cv lock interruptEnabled :: k) s
  | .waitSlept cv lock interruptEnabled, k, s =>
      lockAcquire lock (.waitAcquired cv lock interruptEnabled :: k) s
  | .waitAcquired cv lock interruptEnabled, k, s =>
      .ok ((s.interruptsSet interruptEnabled).returned (.cvWait cv lock) none k)
  | .signalled cv lock interruptEnabled, k, s =>
      .ok ((s.interruptsSet interruptEnabled).returned (.cvSignal cv lock) none k)
  | .broadcasted cv lock interruptEnabled, k, s =>
      .ok ((s.interruptsSet interruptEnabled).returned (.cvBroadcast cv lock) none k)
  | .exitMain interruptEnabled, k, s => exitMainLoop interruptEnabled k s
  | .handler enabled, k, s =>
      -- the mask is restored when the handler is left
      .ok { s.interruptsSet enabled with frames := k }
  | .stub, k, s =>
      let s := s.interruptsSet true
      .ok ({ s with frames := k }.happened (.started s.running s.enabled))

/-- What can happen next: the running thread makes a call or blocks or unblocks the timer signal
itself, the timer strikes, or a call goes on. When the function of a thread returns, `thread_stub`
calls `thread_exit(THREAD_SELF)` for it. -/
inductive Action
  | invoke (c : Call)
  | interruptsSet (enabled : Bool)
  | timer
  | goOn

/-- One step. `malloc` gives memory that is not in use; the timer signal is blocked in its handler,
which calls `thread_yield(THREAD_ANY)`. -/
inductive Step (s : State) : Action → State → Prop
  | invoke {c : Call} {s' : State} (user : s.frames = [])
      (fresh : ∀ t, c = .threadCreate t → s.allocated t = false)
      (runs : enter c [] s = .ok s') : Step s (.invoke c) s'
  | interruptsSet (user : s.frames = []) (enabled : Bool) :
      Step s (.interruptsSet enabled) (s.interruptsSet enabled)
  | timer {s' : State} (on : s.enabled = true)
      (runs : threadYield threadAny (.handler s.enabled :: s.frames) (s.interruptsSet false) =
        .ok s') : Step s .timer s'
  | goOn {s' : State} {f : Frame} {k : List Frame} (suspended : s.frames = f :: k)
      (runs : resume f k s = .ok s') : Step s .goOn s'

/-- The states that runs get into whose steps all satisfy a condition. -/
inductive Reachable (permitted : State → Action → Prop) : State → Prop
  | init {newthread : Nat} {enabled : Bool} {s : State}
      (runs : threadInit newthread enabled = .ok s) : Reachable permitted s
  | step {s s' : State} {a : Action} (before : Reachable permitted s) (may : permitted s a)
      (step : Step s a s') : Reachable permitted s'

end Ece344Lab.Threads
