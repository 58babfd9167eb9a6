import Ece344Lab.Threads.Advance
import Ece344Lab.Threads.LockSteps

set_option autoImplicit false

/- What one step leaves alone: the stacks of the threads that do not make it, and the locks that
they have. -/
namespace Ece344Lab.Threads

open Outcome State

variable {s s' m : State} {k : List Frame} {t r lock : Nat} {c : Call} {ie : Bool} {f : Frame}
  {log : List Event} {e : Event} {a : Action} {x : Except Fault State}

/-- No thread begins or ends. -/
def Event.Steady : Event → Prop
  | .created _ | .exited _ => False
  | _ => True

def Steadily (log : List Event) (s' : State) : Prop :=
  ∃ events, s'.log = events ++ log ∧ ∀ e ∈ events, e.Steady

theorem Event.Spoken.steady (spoken : e.Spoken r) : e.Steady := by
  cases e <;> trivial

theorem Turn.steadily (turn : Turn r ie k log s') : Steadily log s' := by
  obtain ⟨events, same, spoken⟩ := turn.log
  exact ⟨events, same, fun e member => (spoken e member).steady⟩

theorem Steadily.cons (steadily : Steadily (e :: log) s') (steady : e.Steady) :
    Steadily log s' := by
  obtain ⟨events, same, each⟩ := steadily
  refine ⟨events ++ [e], by rw [same, List.append_assoc]; rfl, fun e' member => ?_⟩
  cases List.mem_append.mp member with
  | inl old => exact each e' old
  | inr new => exact List.mem_singleton.mp new ▸ steady

theorem Steadily.single (same : s'.log = e :: log) (steady : e.Steady) : Steadily log s' :=
  ⟨[e], same, fun _ member => List.mem_singleton.mp member ▸ steady⟩

abbrev IsSteady (log : List Event) (x : Except Fault State) : Prop :=
  Sat x (Steadily log) fun _ => True

theorem Turns.steady (turns : Turns r ie k log x) : IsSteady log x :=
  turns.weaken fun _ turn => turn.steadily

theorem acquireLoop_steady (head : m.ready.head? = some m.running) :
    IsSteady m.log (acquireLoop lock ie k m) := by
  unfold acquireLoop
  refine Sat.ite (fun _ => (threadSleep_turns head _).steady) fun _ => ?_
  rw [top_of_head head, ok_bind]
  exact .single rfl trivial

theorem lockAcquire_steady (head : s.ready.head? = some s.running) :
    IsSteady s.log (lockAcquire lock k s) :=
  (acquireLoop_steady (m := (s.called (.lockAcquire lock)).interruptsSet false) head).weaken
    fun _ steadily => steadily.cons trivial

theorem lockRelease_steady : IsSteady s.log (lockRelease lock k s) := by
  have steady := (threadWakeup_turns (k := .release lock s.enabled :: k)
    (s := ((s.called (.lockRelease lock)).interruptsSet false).setLock lock
      { s.locks lock with status := .free }) (some (.ofLock lock)) 1).steady
  exact steady.weaken fun _ steadily => Steadily.cons (e := .call s.running (.lockRelease lock)
    s.enabled) steadily trivial

theorem enter_steady (head : s.ready.head? = some s.running) (creates : ∀ t, c ≠ .threadCreate t)
    (exits : ∀ tid, c ≠ .threadExit tid) : IsSteady s.log (enter c [] s) := by
  have called : ∀ c x, IsSteady (.call s.running c s.enabled :: s.log) x → IsSteady s.log x :=
    fun c x steady => steady.weaken fun _ steadily => steadily.cons trivial
  cases c with
  | threadCreate t => exact absurd rfl (creates t)
  | threadExit tid => exact absurd rfl (exits tid)
  | threadYield wantTid => exact (threadYield_turns head wantTid).steady
  | threadSleep queue => exact (threadSleep_turns head queue).steady
  | threadWakeup queue all => exact (threadWakeup_turns queue all).steady
  | lockAcquire l => exact lockAcquire_steady head
  | lockRelease l => exact lockRelease_steady
  | cvWait cv l =>
      rw [enter, cvWait_eq head]
      refine Sat.ite (fun _ => called (.cvWait cv l) _ ?_) fun _ => called (.cvWait cv l) _ ?_
      · exact lockRelease_steady (s := (s.called (.cvWait cv l)).interruptsSet false)
      · exact .single rfl trivial
  | cvSignal cv l =>
      rw [enter, cvSignal_eq head]
      refine Sat.ite (fun _ => called (.cvSignal cv l) _ ?_) fun _ => called (.cvSignal cv l) _ ?_
      · exact (threadWakeup_turns (s := (s.called (.cvSignal cv l)).interruptsSet false) _ _).steady
      · exact .single rfl trivial
  | cvBroadcast cv l =>
      rw [enter, cvBroadcast_eq head]
      refine Sat.ite (fun _ => called (.cvBroadcast cv l) _ ?_) fun _ =>
        called (.cvBroadcast cv l) _ ?_
      · exact (threadWakeup_turns
          (s := (s.called (.cvBroadcast cv l)).interruptsSet false) _ _).steady
      · exact .single rfl trivial

theorem resume_steady (ok : s.Ok) (suspended : s.frames = f :: k) :
    IsSteady s.log (resume f k s) := by
  have nested := ok.nested
  rw [suspended] at nested
  cases f with
  | yieldAny ie => exact (back_turn suspended rfl ok).steady
  | yieldTo wantTid ie => exact (back_turn suspended rfl ok).steady
  | sleep queue controlId ie => exact (back_turn suspended rfl ok).steady
  | acquire l ie => exact acquireLoop_steady ok.head
  | waitReleased cv l ie =>
      unfold resume
      exact (threadSleep_turns ok.head _).steady
  | waitSlept cv l ie => exact lockAcquire_steady ok.head
  | exitMain ie => cases nested.1
  | handler e => exact ⟨[], rfl, nofun⟩
  | release l ie | waitAcquired cv l ie | signalled cv l ie | broadcasted cv l ie | stub =>
      exact .single rfl trivial

theorem threadCreate_log (v : Nat) (k : List Frame) (s : State) :
    Sat (threadCreate v k s) (fun s' => ∃ events, s'.log = events ++ s.log ∧
      ∀ e ∈ events, e = .created v ∨ e.Steady) fun _ => True := by
  unfold threadCreate
  dsimp only
  split
  · refine (sat_true _).bind fun q _ => ⟨[.ret s.running (.threadCreate v) _ s.enabled, .created v,
      .call s.running (.threadCreate v) s.enabled], rfl, ?_⟩
    simp [Event.Steady]
  · refine ⟨[.ret s.running (.threadCreate v) _ s.enabled,
      .call s.running (.threadCreate v) s.enabled], rfl, ?_⟩
    simp [Event.Steady]

theorem threadExit_log (head : s.ready.head? = some s.running)
    (several : s.readyQueue.queue.size ≠ 1) :
    Sat (threadExit threadSelf k s) (fun s' => s'.log =
      [.exited s.running, .call s.running (.threadExit threadSelf) s.enabled] ++ s.log)
      fun _ => True := by
  have top := top_of_head (s := (s.called (.threadExit threadSelf)).interruptsSet false) head
  unfold threadExit
  dsimp only
  rw [if_neg (by decide), if_neg (by decide), if_pos rfl, top, ok_bind]
  refine Sat.ite (fun last => absurd last.1 several) fun _ =>
    Sat.ite (fun last => absurd last several) fun _ => ?_
  exact (sat_true _).bind fun q _ => (sat_true _).bind fun q' _ => (sat_true _).bind fun u _ => rfl

theorem Step.steadily (ok : s.Ok) (step : Step s a s')
    (creates : ∀ t, a ≠ .invoke (.threadCreate t))
    (exits : ∀ tid, a ≠ .invoke (.threadExit tid)) : Steadily s.log s' := by
  cases step with
  | invoke user fresh runs =>
      exact (enter_steady ok.head (fun t same => creates t (same ▸ rfl))
        fun tid same => exits tid (same ▸ rfl)).of_ok runs
  | interruptsSet user enabled => exact ⟨[], rfl, nofun⟩
  | timer on runs =>
      exact (threadYield_turns (s := s.interruptsSet false) ok.head threadAny).steady.of_ok runs
  | goOn suspended runs => exact (resume_steady ok suspended).of_ok runs

/-- Nobody exits but on their own, and a thread is created only by the call that says so. -/
theorem Step.happens (ok : s.Ok) (may : Permitted s a) (step : Step s a s')
    (self : ∀ tid, a = .invoke (.threadExit tid) → tid = threadSelf) :
    ∃ events, s'.log = events ++ s.log ∧ ∀ e ∈ events, e.Steady ∨ e = .exited s.running ∨
      ∃ v, e = .created v ∧ a = .invoke (.threadCreate v) := by
  by_cases creates : ∃ v, a = .invoke (.threadCreate v)
  · obtain ⟨v, rfl⟩ := creates
    cases step with
    | invoke user fresh runs =>
        obtain ⟨events, log, each⟩ := (threadCreate_log v [] s).of_ok runs
        refine ⟨events, log, fun e member => ?_⟩
        cases each e member with
        | inl new => exact Or.inr (Or.inr ⟨v, new, rfl⟩)
        | inr steady => exact Or.inl steady
  by_cases exits : ∃ tid, a = .invoke (.threadExit tid)
  · obtain ⟨tid, rfl⟩ := exits
    obtain rfl := self tid rfl
    have permitted : (Call.threadExit threadSelf).Permitted s := may
    cases step with
    | invoke user fresh runs =>
        refine ⟨_, (threadExit_log ok.head (permitted.several rfl)).of_ok runs, fun e member => ?_⟩
        obtain rfl | rfl := List.mem_pair.mp member
        · exact Or.inr (Or.inl rfl)
        · exact Or.inl trivial
  · obtain ⟨events, log, each⟩ := step.steadily ok (fun v same => creates ⟨v, same⟩)
      fun tid same => exits ⟨tid, same⟩
    exact ⟨events, log, fun e member => Or.inl (each e member)⟩

theorem Event.Within.aside (lock : Nat) (within : e.Within r) (other : t ≠ r)
    (stays : e ≠ .exited t) :
    e.takes lock t = false ∧ e.gives lock t = false := by
  cases e with
  | call u c ie =>
      have different : u ≠ t := fun same => other (same ▸ within)
      cases c <;> simp [Event.takes, Event.gives, different]
  | ret u c value ie =>
      have different : u ≠ t := fun same => other (same ▸ within)
      cases c <;> simp [Event.takes, Event.gives, different]
  | exited u =>
      have different : u ≠ t := fun same => stays (same ▸ rfl)
      simp [Event.takes, Event.gives, different]
  | created u => exact ⟨rfl, rfl⟩
  | started u ie => exact ⟨rfl, rfl⟩

/-- A step leaves the other threads where they are, and with the locks that they have. -/
theorem Step.others (lock : Nat) (ok : s.Ok) (may : Permitted s a) (step : Step s a s')
    (self : ∀ tid, a = .invoke (.threadExit tid) → tid = threadSelf) (other : t ≠ s.running) :
    (a ≠ .invoke (.threadCreate t) → s'.stack t = s.stack t) ∧
      (Holds lock t s'.log ↔ Holds lock t s.log) := by
  obtain ⟨events, advance⟩ := step.advance ok may
  obtain ⟨events', log, each⟩ := step.happens ok may self
  obtain rfl : events = events' := List.append_cancel_right (advance.log.symm.trans log)
  refine ⟨fun old => ?_, ?_⟩
  · have absent : .created t ∉ events := by
      intro member
      obtain steady | exited | ⟨v, same, call⟩ := each _ member
      · exact steady
      · cases exited
      · cases same
        exact old call
    have context := advance.context t other absent
    rw [stack_of_ne other, ← context]
    by_cases now : t = s'.running
    · subst now
      rw [stack_running]
      exact advance.lands.resolve_left other
    · exact stack_of_ne now
  · rw [log]
    have within := advance.within
    clear log advance
    induction events with
    | nil => exact Iff.rfl
    | cons e events ih =>
        have stays : e ≠ .exited t := by
          rintro rfl
          obtain steady | exited | ⟨v, same, _⟩ := each _ List.mem_cons_self
          · exact steady
          · exact other (Event.exited.inj exited)
          · cases same
        obtain ⟨takes, gives⟩ := (within e List.mem_cons_self).aside lock other stays
        exact (holds_cons takes gives).trans
          (ih (fun e' member => each e' (List.mem_cons_of_mem _ member))
            fun e' member => within e' (List.mem_cons_of_mem _ member))

end Ece344Lab.Threads
