import Ece344Lab.Threads.Runs

set_option autoImplicit false

/- What the scheduling calls leave alone: the locks, the contexts of the other threads, and the
record of who did what. -/
namespace Ece344Lab.Threads

open Outcome State

/-- A call that neither takes nor gives up a lock. -/
def Call.Plain : Call → Prop
  | .lockAcquire _ | .lockRelease _ | .cvWait _ _ => False
  | _ => True

/-- An event of one thread that does not start a function and does not take or give up a lock. -/
def Event.Plain (r : Nat) : Event → Prop
  | .call t c _ | .ret t c _ _ => t = r ∧ c.Plain
  | .created _ | .exited _ => True
  | .started _ _ => False

/-- A context is the one it has been, that of a new thread, or one saved on the way to the frames
`k`. -/
def Saved (k : List Frame) (old new : Context) : Prop :=
  new = old ∨ new.frames = [.stub] ∨ ∃ f, f.switches = true ∧ new.frames = f :: k

/-- What a scheduling call of the running thread does apart from moving threads. It ends where the
frames `k` lead, or with another thread where that one has been suspended. -/
structure Effect (k : List Frame) (s s' : State) (events : List Event) : Prop where
  log : s'.log = events ++ s.log
  plain : ∀ e ∈ events, e.Plain s.running
  locks : s'.locks = s.locks
  context : ∀ t, t ≠ s.running → .created t ∉ events → s'.context t = s.context t
  ids : ∀ t, .created t ∉ events → s'.id t = s.id t
  pStacks : ∀ t, s'.pStack t = s.pStack t ∨ s'.pStack t = some newStack
  saved : ∀ t, Saved k (s.context t) (s'.context t)
  lands : s'.running = s.running ∧ s'.frames = k ∨ s'.frames = (s'.context s'.running).frames

variable {s s' m : State} {k : List Frame} {t u : Nat} {c : Call} {ie : Bool} {w : WaitQueue}

theorem kept_setStatus (s : State) (t u : Nat) (status : ThreadStatus) :
    (s.setStatus t status).id u = s.id u ∧ (s.setStatus t status).pStack u = s.pStack u :=
  ⟨id_setStatus s t u status, pStack_setStatus s t u status⟩

/-- The computation has such an effect. -/
abbrev Affects (k : List Frame) (s : State) (x : Except Fault State) : Prop :=
  Sat x (fun s' => ∃ events, Effect k s s' events) fun _ => True

/-- Some events have happened, and nothing else that matters. -/
structure Between (k : List Frame) (s m : State) (events : List Event) : Prop where
  log : m.log = events ++ s.log
  plain : ∀ e ∈ events, e.Plain s.running
  locks : m.locks = s.locks
  running : m.running = s.running
  context : ∀ t, t ≠ s.running → .created t ∉ events → m.context t = s.context t
  ids : ∀ t, .created t ∉ events → m.id t = s.id t
  pStacks : ∀ t, m.pStack t = s.pStack t ∨ m.pStack t = some newStack
  saved : ∀ t, Saved k (s.context t) (m.context t)

namespace Between

variable {events : List Event}

theorem start (k : List Frame) (s : State) : Between k s s [] :=
  ⟨rfl, nofun, rfl, rfl, fun _ _ _ => rfl, fun _ _ => rfl, fun _ => Or.inl rfl,
    fun _ => Or.inl rfl⟩

theorem called (s : State) (c : Call) (plain : c.Plain) :
    Between k s ((s.called c).interruptsSet false) [.call s.running c s.enabled] :=
  ⟨rfl, fun e member => by
    rw [List.mem_singleton.mp member]
    exact ⟨rfl, plain⟩, rfl, rfl, fun _ _ _ => rfl, fun _ _ => rfl, fun _ => Or.inl rfl,
    fun _ => Or.inl rfl⟩

theorem step {n : State} (between : Between k s m events) (log : n.log = m.log)
    (locks : n.locks = m.locks) (running : n.running = m.running)
    (context : ∀ t, n.context t = m.context t)
    (ids : ∀ t, n.id t = m.id t ∧ n.pStack t = m.pStack t) : Between k s n events := by
  refine ⟨log.trans between.log, between.plain, locks.trans between.locks,
    running.trans between.running, fun t other absent => ?_, fun t absent => ?_, fun t => ?_,
    fun t => ?_⟩
  · exact (context t).trans (between.context t other absent)
  · exact (ids t).1.trans (between.ids t absent)
  · rw [(ids t).2]
    exact between.pStacks t
  · rw [context t]
    exact between.saved t

theorem queues (between : Between k s m events) (q q' : ThreadQueue) :
    Between k s { m with exitQueue := q, readyQueue := q' } events :=
  between.step rfl rfl rfl (fun _ => rfl) fun _ => ⟨rfl, rfl⟩

theorem free (between : Between k s m events) (t : Nat) : Between k s (m.free t) events :=
  between.step rfl rfl rfl (fun _ => rfl) fun _ => ⟨rfl, rfl⟩

theorem getcontext (between : Between k s m events) {f : Frame} (switches : f.switches = true) :
    Between k s (m.getcontext m.running (f :: k)) events := by
  refine ⟨between.log, between.plain, between.locks, between.running, fun t other absent => ?_,
    fun t absent => (id_getcontext m _ t _).trans (between.ids t absent), fun t => ?_,
    fun t => ?_⟩
  · rw [context_getcontext_of_ne m _ (between.running ▸ other)]
    exact between.context t other absent
  · rw [pStack_getcontext]
    exact between.pStacks t
  · by_cases same : t = m.running
    · rw [same, context_getcontext_self]
      exact Or.inr (Or.inr ⟨f, switches, rfl⟩)
    · rw [context_getcontext_of_ne m _ same]
      exact between.saved t

theorem returned (between : Between k s m events) (plain : c.Plain) (value : Option Int) :
    Effect k s ((m.interruptsSet ie).returned c value k)
      (.ret m.running c value ie :: events) := by
  refine ⟨?_, fun e member => ?_, between.locks, fun t other absent => ?_, fun t absent => ?_,
    between.pStacks, between.saved, Or.inl ⟨between.running, rfl⟩⟩
  · exact congrArg (_ :: ·) between.log
  · cases List.mem_cons.mp member with
    | inl same => exact same ▸ ⟨between.running, plain⟩
    | inr later => exact between.plain e later
  · exact between.context t other fun member => absent (List.mem_cons_of_mem _ member)
  · exact between.ids t fun member => absent (List.mem_cons_of_mem _ member)

theorem setcontext (between : Between k s m events) (u : Nat) :
    Effect k s (m.setcontext u) events :=
  ⟨between.log, between.plain, between.locks, between.context, between.ids, between.pStacks,
    between.saved, Or.inr rfl⟩

theorem happened {n : State} (between : Between k s m events) {e : Event}
    (plain : e.Plain s.running) (log : n.log = e :: m.log) (locks : n.locks = m.locks)
    (running : n.running = m.running)
    (context : ∀ t, e ≠ .created t → n.context t = m.context t)
    (ids : ∀ t, e ≠ .created t → n.id t = m.id t)
    (pStacks : ∀ t, n.pStack t = m.pStack t ∨ n.pStack t = some newStack)
    (new : ∀ t, e = .created t → (n.context t).frames = [.stub]) : Between k s n (e :: events) := by
  refine ⟨?_, fun e member => ?_, locks.trans between.locks, running.trans between.running,
    fun t other absent => ?_, fun t absent => ?_, fun t => ?_, fun t => ?_⟩
  · rw [log, between.log]
    rfl
  · cases List.mem_cons.mp member with
    | inl same => exact same ▸ plain
    | inr later => exact between.plain e later
  · rw [context t fun same => absent (same ▸ List.mem_cons_self)]
    exact between.context t other fun member => absent (List.mem_cons_of_mem _ member)
  · rw [ids t fun same => absent (same ▸ List.mem_cons_self)]
    exact between.ids t fun member => absent (List.mem_cons_of_mem _ member)
  · cases pStacks t with
    | inl same =>
        rw [same]
        exact between.pStacks t
    | inr new => exact Or.inr new
  · by_cases created : e = .created t
    · exact Or.inr (Or.inl (new t created))
    · rw [context t created]
      exact between.saved t

end Between

theorem top_of_head (head : s.ready.head? = some t) : s.readyQueue.top = .ok t := by
  cases ready : s.ready with
  | nil =>
      rw [ready] at head
      cases head
  | cons u rest =>
      rw [ready] at head
      obtain rfl := Option.some.inj head
      exact ThreadQueue.top_ok ready

section Checked

variable {cv lock : Nat} (head : s.ready.head? = some s.running)
include head

theorem cvWait_eq : cvWait cv lock k s =
    if isHolder s lock s.running then
      lockRelease lock (.waitReleased cv lock s.enabled :: k)
        ((s.called (.cvWait cv lock)).interruptsSet false)
    else .ok ((((s.called (.cvWait cv lock)).interruptsSet false).interruptsSet s.enabled).returned
      (.cvWait cv lock) none k) := by
  unfold cvWait
  dsimp only
  rw [top_of_head (s := (s.called (.cvWait cv lock)).interruptsSet false) head]
  rfl

theorem cvSignal_eq : cvSignal cv lock k s =
    if isHolder s lock s.running then
      threadWakeup (some (.ofCv cv)) 0 (.signalled cv lock s.enabled :: k)
        ((s.called (.cvSignal cv lock)).interruptsSet false)
    else .ok ((((s.called (.cvSignal cv lock)).interruptsSet false).interruptsSet
      s.enabled).returned (.cvSignal cv lock) none k) := by
  unfold cvSignal
  dsimp only
  rw [top_of_head (s := (s.called (.cvSignal cv lock)).interruptsSet false) head]
  rfl

theorem cvBroadcast_eq : cvBroadcast cv lock k s =
    if isHolder s lock s.running then
      threadWakeup (some (.ofCv cv)) 1 (.broadcasted cv lock s.enabled :: k)
        ((s.called (.cvBroadcast cv lock)).interruptsSet false)
    else .ok ((((s.called (.cvBroadcast cv lock)).interruptsSet false).interruptsSet
      s.enabled).returned (.cvBroadcast cv lock) none k) := by
  unfold cvBroadcast
  dsimp only
  rw [top_of_head (s := (s.called (.cvBroadcast cv lock)).interruptsSet false) head]
  rfl

end Checked

section Calls

variable {events : List Event}

/-- `thread_yield(THREAD_ANY)` behind `getcontext`, for the first or the second time. -/
theorem yieldAnyGot_effect (between : Between k s m events) :
    Affects k s (yieldAnyGot ie k m) := by
  unfold yieldAnyGot
  refine (sat_true _).bind fun current _ => ?_
  dsimp only
  refine Sat.ite (fun _ => ?_) fun _ => ?_
  · refine (sat_true _).bind fun q _ => (sat_true _).bind fun q' _ =>
      (sat_true _).bind fun u _ => ?_
    have moved := between.step (n := { m.setStatus current .idle with readyQueue := q'.2 }) rfl rfl
      rfl (fun t => context_setStatus m current t .idle) fun t => kept_setStatus m current t .idle
    exact ⟨_, moved.setcontext u⟩
  · have moved := between.step (n := m.setStatus current .run) rfl rfl rfl
      (fun t => context_setStatus m current t .run) fun t => kept_setStatus m current t .run
    exact ⟨_, moved.returned (by trivial) _⟩

theorem yieldToGot_effect {wantTid : Int} (between : Between k s m events) :
    Affects k s (yieldToGot wantTid ie k m) := by
  unfold yieldToGot
  refine (sat_true _).bind fun _ _ => (sat_true _).bind fun current _ => ?_
  dsimp only
  refine Sat.ite (fun _ => ?_) fun _ => ?_
  · refine (sat_true _).bind fun found _ => ?_
    cases found with
    | none => exact ⟨_, between.returned (by trivial) _⟩
    | some found =>
        refine (sat_true _).bind fun q _ => (sat_true _).bind fun q' _ =>
          (sat_true _).bind fun _ _ => (sat_true _).bind fun _ _ =>
          (sat_true _).bind fun q'' _ => ?_
        have moved := between.step (n := { m.setStatus current .idle with readyQueue := q''.2 })
          rfl rfl rfl (fun t => context_setStatus m current t .idle) fun t =>
            kept_setStatus m current t .idle
        exact ⟨_, moved.setcontext found.val⟩
  · have moved := between.step (n := m.setStatus current .run) rfl rfl rfl
      (fun t => context_setStatus m current t .run) fun t => kept_setStatus m current t .run
    exact ⟨_, moved.returned (by trivial) _⟩

theorem threadYield_effect (head : s.ready.head? = some s.running) (wantTid : Int) :
    Affects k s (threadYield wantTid k s) := by
  have between := Between.called (k := k) s (.threadYield wantTid) trivial
  unfold threadYield
  dsimp only
  refine (sat_true _).bind fun _ _ => (sat_true _).bind fun _ _ => ?_
  refine Sat.ite (fun _ => ⟨_, between.returned (by trivial) _⟩) fun _ => ?_
  have top := top_of_head (s := (s.called (.threadYield wantTid)).interruptsSet false) head
  rw [top, ok_bind]
  refine Sat.ite (fun _ => ⟨_, between.returned (by trivial) _⟩) fun _ => ?_
  refine Sat.ite (fun any => ?_) fun _ => ?_
  · refine Sat.ite (fun _ => ⟨_, between.returned (by trivial) _⟩) fun _ => ?_
    exact yieldAnyGot_effect (between.getcontext rfl)
  · refine Sat.ite (fun _ => ⟨_, between.returned (by trivial) _⟩) fun _ => ?_
    exact yieldToGot_effect (between.getcontext rfl)

theorem sleepGot_effect {controlId : Int} (between : Between k s m events) :
    Affects k s (sleepGot w controlId ie k m) := by
  unfold sleepGot
  refine (sat_true _).bind fun current _ => ?_
  dsimp only
  refine Sat.ite (fun _ => ?_) fun _ => ?_
  · refine (sat_true _).bind fun q _ => (sat_true _).bind fun q' _ =>
      (sat_true _).bind fun u _ => ?_
    have moved := between.step (n := ({ m with readyQueue := q.2 }.setStatus current
      .sleep).setWaitQueue w q'.2) rfl rfl rfl (fun t => context_setStatus m current t .sleep)
      fun t => kept_setStatus m current t .sleep
    exact ⟨_, moved.setcontext u⟩
  · by_cases idle : (m.threads current).status = .idle
    · rw [if_pos idle]
      have moved := between.step (n := m.setStatus current .run) rfl rfl rfl
        (fun t => context_setStatus m current t .run) fun t => kept_setStatus m current t .run
      exact ⟨_, moved.returned (by trivial) _⟩
    · rw [if_neg idle]
      exact ⟨_, between.returned (by trivial) _⟩

theorem threadSleep_effect (head : s.ready.head? = some s.running) (queue : Option WaitQueue) :
    Affects k s (threadSleep queue k s) := by
  have between := Between.called (k := k) s (.threadSleep queue) trivial
  unfold threadSleep
  cases queue with
  | none => exact ⟨_, between.returned (by trivial) _⟩
  | some w =>
      dsimp only
      refine Sat.ite (fun _ => ⟨_, between.returned (by trivial) _⟩) fun _ => ?_
      have top := top_of_head (s := (s.called (.threadSleep (some w))).interruptsSet false) head
      refine (sat_true _).bind fun _ _ => ?_
      rw [top, ok_bind]
      exact sleepGot_effect (between.getcontext rfl)

theorem wakeupTop_between (between : Between k s m events) :
    Sat (wakeupTop w m) (fun m' => Between k s m' events) fun _ => True := by
  unfold wakeupTop
  refine (sat_true _).bind fun u _ => (sat_true _).bind fun q _ => (sat_true _).bind fun q' _ => ?_
  exact between.step rfl rfl rfl (fun t => context_setStatus m u t .idle) fun t =>
    kept_setStatus m u t .idle

theorem wakeupLoop_between (between : Between k s m events) (fuel : Nat) :
    Sat (wakeupLoop w fuel m) (fun m' => Between k s m' events) fun _ => True := by
  induction fuel generalizing m with
  | zero =>
      unfold wakeupLoop
      exact Sat.ite (fun _ => trivial) fun _ => between
  | succ fuel ih =>
      unfold wakeupLoop
      refine Sat.ite (fun _ => ?_) fun _ => between
      exact (wakeupTop_between between).bind fun m' moved => ih moved

theorem threadWakeup_effect (queue : Option WaitQueue) (all : Int) :
    Affects k s (threadWakeup queue all k s) := by
  have between := Between.called (k := k) s (.threadWakeup queue all) trivial
  unfold threadWakeup
  cases queue with
  | none => exact ⟨_, between.returned (by trivial) _⟩
  | some w =>
      dsimp only
      refine Sat.ite (fun _ => ⟨_, between.returned (by trivial) _⟩) fun _ => ?_
      refine Sat.ite (fun _ => ?_) fun _ => ?_
      · exact (wakeupLoop_between between _).bind fun m' moved => ⟨_, moved.returned (by trivial) _⟩
      · exact (wakeupTop_between between).bind fun m' moved => ⟨_, moved.returned (by trivial) _⟩

theorem threadCreate_effect (t : Nat) : Affects k s (threadCreate t k s) := by
  have between := Between.called (k := k) s (.threadCreate t) trivial
  unfold threadCreate
  dsimp only
  split
  · rename_i i _
    refine (sat_true _).bind fun q _ => ?_
    have born := between.happened (e := .created t)
      (n := ((s.called (.threadCreate t)).interruptsSet false).born t i q.2) trivial rfl rfl rfl
      (fun u other => ?_) (fun u other => ?_) (fun u => ?_) fun u same => ?_
    · exact ⟨_, born.returned (by trivial) _⟩
    · have different : u ≠ t := fun same => other (congrArg Event.created same.symm)
      exact congrArg Thread.context (Function.update_of_ne different _ _)
    · have different : u ≠ t := fun same => other (congrArg Event.created same.symm)
      exact congrArg Thread.iID (Function.update_of_ne different _ _)
    · by_cases same : u = t
      · subst same
        have block := Function.update_self u (⟨i, ⟨[.stub], false⟩, .new, some newStack⟩ : Thread)
          s.threads
        exact Or.inr (congrArg Thread.pStack block)
      · exact Or.inl (congrArg Thread.pStack (Function.update_of_ne same _ _))
    · obtain rfl := Event.created.inj same
      have block := Function.update_self t (⟨i, ⟨[.stub], false⟩, .new, some newStack⟩ : Thread)
        s.threads
      have context : (((s.called (.threadCreate t)).interruptsSet false).born t i q.2).context t =
          ⟨[.stub], false⟩ := congrArg Thread.context block
      rw [context]
  · have moved := between.step (n := { (s.called (.threadCreate t)).interruptsSet false with
      allocated := Function.update s.allocated t true }) rfl rfl rfl (fun _ => rfl)
      fun _ => ⟨rfl, rfl⟩
    exact ⟨_, moved.returned (by trivial) _⟩

/-- The last ready thread does not exit. -/
theorem Call.Permitted.several {tid : Int} (may : (Call.threadExit tid).Permitted s)
    (self : tid = threadSelf) : s.readyQueue.queue.size ≠ 1 := by
  have several := may.2 self
  rw [ThreadQueue.size_eq]
  change ((s.ready.length : Nat) : Int) ≠ 1
  omega

theorem threadExit_effect (head : s.ready.head? = some s.running) {tid : Int}
    (several : tid = threadSelf → s.readyQueue.queue.size ≠ 1) :
    Affects k s (threadExit tid k s) := by
  have between := Between.called (k := k) s (.threadExit tid) trivial
  have top := top_of_head (s := (s.called (.threadExit tid)).interruptsSet false) head
  unfold threadExit
  dsimp only
  refine Sat.ite (fun _ => ?_) fun _ => Sat.ite (fun _ => ?_) fun _ => Sat.ite (fun self => ?_)
    fun _ => ⟨_, between.returned (by trivial) _⟩
  · refine (sat_true _).bind fun current _ => (sat_true _).bind fun found _ => ?_
    match found with
    | (none, _) => exact ⟨_, between.returned (by trivial) _⟩
    | (some t, q) =>
        have exited := between.happened (e := .exited t) (n := ({ (s.called
          (.threadExit tid)).interruptsSet false with readyQueue := q }.setIndex
          (s.threads t).iID none).happened (.exited t)) trivial rfl rfl rfl
          (fun _ _ => rfl) (fun _ _ => rfl) (fun _ => Or.inl rfl) nofun
        dsimp only
        refine Sat.ite (fun _ => ?_) fun _ => ?_
        · refine (sat_true _).bind fun q' _ => ?_
          exact ⟨_, (exited.queues q'.2 q).returned (by trivial) _⟩
        · exact (sat_true _).bind fun _ _ => ⟨_, (exited.free t).returned (by trivial) _⟩
  · refine Sat.ite (fun _ => ⟨_, between.returned (by trivial) _⟩) fun _ => ?_
    refine (sat_true _).bind fun found _ => ?_
    have exited := between.happened (e := .exited found.1) (n := ({ (s.called
      (.threadExit tid)).interruptsSet false with readyQueue := found.2 }.setIndex
      (s.threads found.1).iID none).happened (.exited found.1)) trivial rfl rfl rfl
      (fun _ _ => rfl) (fun _ _ => rfl) (fun _ => Or.inl rfl) nofun
    refine (sat_true _).bind fun q' _ => ?_
    exact ⟨_, (exited.queues q'.2 found.2).returned (by trivial) _⟩
  · rw [top, ok_bind]
    refine Sat.ite (fun last => absurd last.1 (several self)) fun _ =>
      Sat.ite (fun last => absurd last (several self)) fun _ => ?_
    have exited := between.happened (e := .exited s.running) (n := (((s.called
      (.threadExit tid)).interruptsSet false).setIndex (s.threads s.running).iID none).happened
      (.exited s.running)) trivial rfl rfl rfl
          (fun _ _ => rfl) (fun _ _ => rfl) (fun _ => Or.inl rfl) nofun
    refine (sat_true _).bind fun q _ => (sat_true _).bind fun q' _ =>
      (sat_true _).bind fun u _ => ?_
    exact ⟨_, (exited.queues q.2 q'.2).setcontext u⟩

end Calls

end Ece344Lab.Threads
