import Ece344Lab.Threads.Invariant

set_option autoImplicit false

/- What the updates of a state do to the invariant. -/
namespace Ece344Lab.Threads

open Outcome Placement

section Events

variable {t u : Nat} {log : List Event}

theorem pending_call_of_ne (other : t ≠ u) (c : Call) (enabled : Bool) :
    pending t (.call u c enabled :: log) = pending t log := by
  simp [pending, other.symm]

theorem pending_ret_of_ne (other : t ≠ u) (c : Call) (value : Option Int) (enabled : Bool) :
    pending t (.ret u c value enabled :: log) = pending t log := by
  simp [pending, other.symm]

theorem pending_created_of_ne (other : t ≠ u) : pending t (.created u :: log) = pending t log := by
  simp [pending, other.symm]

end Events

section Frames

variable {k : List Frame}

theorem not_switching_nil : ¬ Switching [] := by
  rintro ⟨f, k, same, _⟩
  cases same

theorem not_switching_of_plain (plain : ∀ f ∈ k, f.switches = false) : ¬ Switching k := by
  rintro ⟨f, rest, rfl, switches⟩
  rw [plain f (by simp)] at switches
  cases switches

theorem calls_cons {f : Frame} {c : Call} (call : f.call = some c) (k : List Frame) :
    calls (f :: k) = (c, f.mask) :: calls k := by
  simp [calls, call]

end Frames

namespace State

variable {s s' : State} {k : List Frame} {t u : Nat} {except : Option Nat} {c : Call} {ie : Bool}

section Views

variable (s : State) (t u : Nat) (status : ThreadStatus) (frames : List Frame)

@[simp] theorem status_setStatus_self : (s.setStatus t status).status t = status := by
  simp [State.status, setStatus]

theorem status_setStatus_of_ne {t u : Nat} (other : u ≠ t) :
    (s.setStatus t status).status u = s.status u := by
  simp [State.status, setStatus, Function.update_of_ne other]

@[simp] theorem id_setStatus : (s.setStatus t status).id u = s.id u := by
  by_cases same : u = t
  · subst same
    simp [State.id, setStatus]
  · simp [State.id, setStatus, Function.update_of_ne same]

@[simp] theorem context_setStatus : (s.setStatus t status).context u = s.context u := by
  by_cases same : u = t
  · subst same
    simp [State.context, setStatus]
  · simp [State.context, setStatus, Function.update_of_ne same]

@[simp] theorem context_getcontext_self :
    (s.getcontext t frames).context t = ⟨frames, s.enabled⟩ := by
  simp [State.context, getcontext]

theorem context_getcontext_of_ne {t u : Nat} (other : u ≠ t) :
    (s.getcontext t frames).context u = s.context u := by
  simp [State.context, getcontext, Function.update_of_ne other]

@[simp] theorem id_getcontext : (s.getcontext t frames).id u = s.id u := by
  by_cases same : u = t
  · subst same
    simp [State.id, getcontext]
  · simp [State.id, getcontext, Function.update_of_ne same]

@[simp] theorem status_getcontext : (s.getcontext t frames).status u = s.status u := by
  by_cases same : u = t
  · subst same
    simp [State.status, getcontext]
  · simp [State.status, getcontext, Function.update_of_ne same]

@[simp] theorem pStack_setStatus : (s.setStatus t status).pStack u = s.pStack u := by
  by_cases same : u = t
  · subst same
    simp [State.pStack, setStatus]
  · simp [State.pStack, setStatus, Function.update_of_ne same]

@[simp] theorem pStack_getcontext : (s.getcontext t frames).pStack u = s.pStack u := by
  by_cases same : u = t
  · subst same
    simp [State.pStack, getcontext]
  · simp [State.pStack, getcontext, Function.update_of_ne same]

theorem queued_setReady (q : ThreadQueue) :
    { s with readyQueue := q }.queued = Function.update s.queued none q.threads := by
  funext p
  cases p <;> simp [queued, ready, waiting]

theorem queued_setWaitQueue (w : WaitQueue) (q : ThreadQueue) :
    (s.setWaitQueue w q).queued = Function.update s.queued (some w) q.threads := by
  funext p
  cases p with
  | none => simp [queued, ready, setWaitQueue]
  | some v =>
      by_cases same : v = w
      · subst same
        simp [queued, waiting, setWaitQueue]
      · rw [Function.update_of_ne fun equal => same (Option.some.inj equal)]
        simp [queued, waiting, setWaitQueue, Function.update_of_ne same]

end Views

theorem Fresh.congr (fresh : s.Fresh t) (status : s'.status t = s.status t)
    (context : s'.context t = s.context t)
    (events : Threads.pending t s'.log = Threads.pending t s.log) :
    s'.Fresh t :=
  ⟨status.trans fresh.status, context.trans fresh.context, events.trans fresh.pending⟩

theorem Suspended.congr {status : ThreadStatus} (suspended : s.Suspended status t)
    (same : s'.status t = s.status t) (context : s'.context t = s.context t)
    (events : Threads.pending t s'.log = Threads.pending t s.log) : s'.Suspended status t := by
  obtain ⟨status, enabled, nested, switching, pending⟩ := suspended
  rw [← context] at enabled nested switching pending
  exact ⟨same.trans status, enabled, nested, switching, events.trans pending⟩

theorem Suspended.setStatus {status : ThreadStatus} (suspended : s.Suspended status t)
    (status' : ThreadStatus) : (s.setStatus t status').Suspended status' t := by
  obtain ⟨_, enabled, nested, switching, pending⟩ := suspended
  have context := context_setStatus s t t status'
  rw [← context] at enabled nested switching pending
  exact ⟨status_setStatus_self _ _ _, enabled, nested, switching, pending⟩

/-- What a thread off the processor looks like only depends on its block and its calls. -/
theorem off_congr (off : s.Fresh t ∨ s.Suspended .idle t) (same : s'.status t = s.status t)
    (context : s'.context t = s.context t)
    (events : Threads.pending t s'.log = Threads.pending t s.log) :
    s'.Fresh t ∨ s'.Suspended .idle t :=
  off.imp (fun fresh => fresh.congr same context events)
    fun suspended => suspended.congr same context events

namespace Queues

theorem mem_ready_of_head (head : s.ready.head? = some t) : t ∈ s.ready :=
  List.mem_of_mem_head? head

theorem not_waiting (queues : s.Queues except) (ready : t ∈ s.ready) (w : WaitQueue) :
    t ∉ s.waiting w := by
  intro waits
  have same := queues.apart.apart none (some w) t ready waits
  cases same

/-- The running thread changes its own block, the mask, the frames, the locks and the log. -/
theorem frame {n : State} (queues : s.Queues (some t)) (there : t ∈ s.ready)
    (queued : n.queued = s.queued)
    (index : n.readyQueueIndex = s.readyQueueIndex)
    (allocated : ∀ u, Live u s.log → s.allocated u = true → n.allocated u = true)
    (id : ∀ u, n.id u = s.id u) (status : ∀ u, u ≠ t → n.status u = s.status u)
    (context : ∀ u, u ≠ t → n.context u = s.context u)
    (live : ∀ u, Live u n.log ↔ Live u s.log)
    (events : ∀ u, u ≠ t → pending u n.log = pending u s.log)
    (paired : pending t n.log ≠ none) : n.Queues (some t) where
  apart := queued ▸ queues.apart
  live u := by rw [live, queued, queues.live]
  allocated u alive := allocated u ((live u).mp alive) (queues.allocated u ((live u).mp alive))
  index u alive := by
    rw [id, index]
    exact queues.index u ((live u).mp alive)
  indexed i u found := by
    rw [live, id]
    exact queues.indexed i u (by rwa [index] at found)
  ready u member other := by
    have same : n.ready = s.ready := congrFun queued none
    rw [same] at member
    have different : u ≠ t := fun same => other (congrArg some same.symm)
    exact off_congr (queues.ready u member other) (status u different)
      (context u different) (events u different)
  waiting w u member := by
    have same : n.waiting w = s.waiting w := congrFun queued (some w)
    rw [same] at member
    have different : u ≠ t := fun same => queues.not_waiting there w (same ▸ member)
    exact (queues.waiting w u member).congr (status u different) (context u different)
      (events u different)
  paired u := by
    by_cases same : u = t
    · exact same ▸ paired
    · rw [events u same]
      exact queues.paired u

end Queues

/-- The running thread is in a call that was made with the timer signal in the state `ie` and will
return to the frames `k`. -/
structure Inside (s : State) (c : Call) (ie : Bool) (k : List Frame) : Prop where
  queues : s.Queues (some s.running)
  head : s.ready.head? = some s.running
  active : s.status s.running = .new ∨ s.status s.running = .run
  off : s.enabled = false
  outer : ie = true → k = []
  nested : Nested k
  plain : ∀ f ∈ k, f.switches = false
  pending : pending s.running s.log = some ((c, ie) :: calls k)

theorem Calling.called (calling : s.Calling k) (c : Call) :
    ((s.called c).interruptsSet false).Inside c s.enabled k := by
  have events : Threads.pending s.running (s.called c).log =
      some ((c, s.enabled) :: calls k) := by
    simp [State.called, Threads.pending, calling.pending]
  refine ⟨?_, calling.head, calling.active, rfl, calling.outer, calling.nested,
    calling.plain, events⟩
  refine Queues.frame (n := (s.called c).interruptsSet false) calling.queues
    (Queues.mem_ready_of_head calling.head) rfl rfl (fun _ _ held => held) (fun _ => rfl)
    (fun _ _ => rfl) (fun _ _ => rfl) (fun _ => Iff.rfl) ?_ ?_
  · exact fun u other => pending_call_of_ne other _ _
  · exact fun none => absurd (events.symm.trans none) nofun

namespace Inside

variable (inside : s.Inside c ie k)
include inside

theorem mem_ready : s.running ∈ s.ready := Queues.mem_ready_of_head inside.head

theorem exists_ready : ∃ rest, s.ready = s.running :: rest := by
  cases same : s.ready with
  | nil => exact absurd (same ▸ inside.head) nofun
  | cons t rest => exact ⟨rest, by rw [Option.some.inj (same ▸ inside.head : some t = _)]⟩

/-- Every way back restores the mask. -/
theorem returned (value : Option Int) : ((s.interruptsSet ie).returned c value k).Ok := by
  have events : Threads.pending s.running ((s.interruptsSet ie).returned c value k).log =
      some (calls k) := by
    simp [State.returned, interruptsSet, Threads.pending, inside.pending]
  refine ⟨?_, inside.head, fun _ => inside.active, fun at' => ?_, inside.outer,
    inside.nested, events⟩
  · refine Queues.frame (n := (s.interruptsSet ie).returned c value k) inside.queues
      inside.mem_ready rfl rfl (fun _ _ held => held) (fun _ => rfl) (fun _ _ => rfl)
      (fun _ _ => rfl) (fun _ => Iff.rfl) ?_ ?_
    · exact fun u other => pending_ret_of_ne other _ _ _
    · exact fun none => absurd (events.symm.trans none) nofun
  · exact absurd at' (not_switching_of_plain inside.plain)

theorem calling {f : Frame} (call : f.call = some c) (mask : f.mask = ie)
    (plain : f.switches = false) (running : f.final = false) (bare : Bare k) :
    s.Calling (f :: k) := by
  refine ⟨inside.queues, inside.head, inside.active, fun on => ?_, ?_, ?_, ?_⟩
  · rw [inside.off] at on
    cases on
  · exact ⟨running, mask ▸ inside.outer, inside.plain, bare, inside.nested⟩
  · intro g member
    cases List.mem_cons.mp member with
    | inl same => exact same ▸ plain
    | inr later => exact inside.plain g later
  · rw [calls_cons call, mask]
    exact inside.pending

/-- The running thread changes its own block, the locks or the frames. -/
theorem frame (queued : s'.queued = s.queued) (index : s'.readyQueueIndex = s.readyQueueIndex)
    (allocated : ∀ u, Live u s.log → s.allocated u = true → s'.allocated u = true)
    (id : ∀ u, s'.id u = s.id u) (status : ∀ u, u ≠ s.running → s'.status u = s.status u)
    (active : s'.status s.running = .new ∨ s'.status s.running = .run)
    (context : ∀ u, u ≠ s.running → s'.context u = s.context u)
    (log : s'.log = s.log) (running : s'.running = s.running) (enabled : s'.enabled = s.enabled) :
    s'.Inside c ie k := by
  have same : s'.ready = s.ready := congrFun queued none
  refine ⟨?_, ?_, running ▸ active, enabled.trans inside.off, inside.outer, inside.nested,
    inside.plain, ?_⟩
  · rw [running]
    apply inside.queues.frame inside.mem_ready queued index allocated id status context
    · intro u
      rw [log]
    · intro u _
      rw [log]
    · rw [log]
      exact inside.queues.paired _
  · rw [same, running]
    exact inside.head
  · rw [log, running]
    exact inside.pending

end Inside

theorem Ok.inside (ok : s.Ok) {f : Frame} (suspended : s.frames = f :: k) (call : f.call = some c)
    (plain : f.switches = false) : s.Inside c f.mask k := by
  have nested := ok.nested
  have pending := ok.pending
  rw [suspended] at nested pending
  rw [calls_cons call] at pending
  refine ⟨ok.queues, ok.head, ok.active ?_, ?_, nested.2.1, nested.2.2.2.2, nested.2.2.1, pending⟩
  · rintro ⟨g, rest, same, switches⟩
    rw [suspended] at same
    cases same
    rw [plain] at switches
    cases switches
  · by_contra on
    have none := ok.outer (by simpa using on)
    rw [suspended] at none
    cases none

theorem Ok.calling (ok : s.Ok) (user : s.frames = []) : s.Calling [] := by
  have pending := ok.pending
  rw [user] at pending
  refine ⟨ok.queues, ok.head, ok.active ?_, fun _ => rfl, trivial, nofun, pending⟩
  rw [user]
  exact not_switching_nil

end State

end Ece344Lab.Threads
