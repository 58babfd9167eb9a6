import Ece344Lab.Lib.Placement
import Ece344Lab.Threads.Thread

set_option autoImplicit false

/- What holds between two steps of the package: where the threads are queued, what the contexts of
those that do not run look like, and which of their calls have not returned. -/
namespace Ece344Lab.Threads

open Outcome Placement

/-- A thread that has been created and has not exited. -/
def Live (t : Nat) : List Event → Prop
  | [] => False
  | .created u :: log => u = t ∨ Live t log
  | .exited u :: log => u ≠ t ∧ Live t log
  | _ :: log => Live t log

/-- The calls of a thread that have not returned, each with the state of the timer signal when it
was made. It is none when a return does not match the innermost of them, or not with the same state
of the signal. -/
def pending (t : Nat) : List Event → Option (List (Call × Bool))
  | [] => some []
  | .call u c enabled :: log =>
      if u = t then (pending t log).map ((c, enabled) :: ·) else pending t log
  | .ret u c _ enabled :: log =>
      if u = t then
        match pending t log with
        | some ((c', enabled') :: rest) => if c = c' ∧ enabled = enabled' then some rest else none
        | _ => none
      else pending t log
  | .created u :: log => if u = t then (pending t log).map fun _ => [] else pending t log
  | _ :: log => pending t log

namespace Frame

/-- The frames behind `getcontext`. -/
def switches : Frame → Bool
  | .yieldAny _ | .yieldTo _ _ | .sleep _ _ _ => true
  | _ => false

/-- The loop of the final release. -/
def final : Frame → Bool
  | .exitMain _ => true
  | _ => false

/-- The rest of `lock_release`. -/
def releases : Frame → Bool
  | .release _ _ => true
  | _ => false

/-- The state of the timer signal that the frame will restore. -/
def mask : Frame → Bool
  | .yieldAny e | .yieldTo _ e | .sleep _ _ e | .acquire _ e | .release _ e | .waitReleased _ _ e
  | .waitSlept _ _ e | .waitAcquired _ _ e | .signalled _ _ e | .broadcasted _ _ e
  | .exitMain e | .handler e => e
  | .stub => true

def call : Frame → Option Call
  | .yieldAny _ => some (.threadYield threadAny)
  | .yieldTo wantTid _ => some (.threadYield wantTid)
  | .sleep queue _ _ => some (.threadSleep (some queue))
  | .acquire lock _ => some (.lockAcquire lock)
  | .release lock _ => some (.lockRelease lock)
  | .waitReleased cv lock _ | .waitSlept cv lock _ | .waitAcquired cv lock _ =>
      some (.cvWait cv lock)
  | .signalled cv lock _ => some (.cvSignal cv lock)
  | .broadcasted cv lock _ => some (.cvBroadcast cv lock)
  | .exitMain _ => some (.threadExit threadSelf)
  | .handler _ | .stub => none

end Frame

def calls (frames : List Frame) : List (Call × Bool) :=
  frames.filterMap fun f => f.call.map fun c => (c, f.mask)

/-- No frame is the rest of `lock_release`. -/
def Bare (frames : List Frame) : Prop := ∀ f ∈ frames, f.releases = false

/-- Only the outermost frame restores an unblocked signal, and only the innermost one is a place
where threads are switched or the rest of `lock_release`. None belongs to the final release. -/
def Nested : List Frame → Prop
  | [] => True
  | f :: k => f.final = false ∧ (f.mask = true → k = []) ∧ (∀ g ∈ k, g.switches = false) ∧ Bare k ∧
      Nested k

/-- The thread is about to return from `getcontext` a second time. -/
def Switching (frames : List Frame) : Prop := ∃ f k, frames = f :: k ∧ f.switches = true

namespace State

def ready (s : State) : List Nat := s.readyQueue.threads

def waiting (s : State) (w : WaitQueue) : List Nat := (s.waitQueues w).threads

def queued (s : State) : Option WaitQueue → List Nat
  | none => s.ready
  | some w => s.waiting w

def status (s : State) (t : Nat) : ThreadStatus := (s.threads t).status

def id (s : State) (t : Nat) : Int := (s.threads t).iID

def context (s : State) (t : Nat) : Context := (s.threads t).context

def pStack (s : State) (t : Nat) : Option Nat := (s.threads t).pStack

/-- A thread that has not run yet. -/
structure Fresh (s : State) (t : Nat) : Prop where
  status : s.status t = .new
  context : s.context t = ⟨[.stub], false⟩
  pending : pending t s.log = some []

/-- A thread that has been switched away from. -/
structure Suspended (s : State) (status : ThreadStatus) (t : Nat) : Prop where
  status : s.status t = status
  enabled : (s.context t).enabled = false
  nested : Nested (s.context t).frames
  switching : Switching (s.context t).frames
  pending : pending t s.log = some (calls (s.context t).frames)

/-- The queues and the identifiers, with all ready threads but one off the processor. -/
structure Queues (s : State) (except : Option Nat) : Prop where
  apart : Apart s.queued
  live : ∀ t, Live t s.log ↔ Placed s.queued t
  allocated : ∀ t, Live t s.log → s.allocated t = true
  index : ∀ t, Live t s.log →
    0 ≤ s.id t ∧ s.id t < threadMaxThreads ∧ s.readyQueueIndex (s.id t).toNat = some t
  indexed : ∀ i t, s.readyQueueIndex i = some t → Live t s.log ∧ s.id t = i
  ready : ∀ t ∈ s.ready, except ≠ some t → s.Fresh t ∨ s.Suspended .idle t
  waiting : ∀ w, ∀ t ∈ s.waiting w, s.Suspended .sleep t
  paired : ∀ t, pending t s.log ≠ none

/-- The running thread is at the head of the ready queue, and goes on at the frames `k` when the
call that it makes returns. -/
structure Calling (s : State) (k : List Frame) : Prop where
  queues : s.Queues (some s.running)
  head : s.ready.head? = some s.running
  active : s.status s.running = .new ∨ s.status s.running = .run
  outer : s.enabled = true → k = []
  nested : Nested k
  plain : ∀ f ∈ k, f.switches = false
  pending : pending s.running s.log = some (calls k)

/-- The invariant. -/
structure Ok (s : State) : Prop where
  queues : s.Queues (some s.running)
  head : s.ready.head? = some s.running
  active : ¬ Switching s.frames → s.status s.running = .new ∨ s.status s.running = .run
  switching : Switching s.frames → s.status s.running = .idle
  outer : s.enabled = true → s.frames = []
  nested : Nested s.frames
  pending : pending s.running s.log = some (calls s.frames)

end State

end Ece344Lab.Threads
