import Ece344Lab.Threads.Wakeup

set_option autoImplicit false

/- Where the calls of each thread are, whether it runs or not, and what a step does to that and to
the holder of a lock. -/
namespace Ece344Lab.Threads

open Outcome State

/-- The frames of a thread, from the innermost one. -/
def State.stack (s : State) (t : Nat) : List Frame :=
  if t = s.running then s.frames else (s.context t).frames

/-- A call or a return of one thread that takes or gives up no lock. -/
def Event.Spoken (r : Nat) : Event → Prop
  | .call t c _ | .ret t c _ _ => t = r ∧ c.Plain
  | _ => False

/-- A scheduling call of the thread `r` has returned to the frames `k`, or the thread is suspended
in it. -/
structure Turn (r : Nat) (ie : Bool) (k : List Frame) (log : List Event) (s' : State) : Prop where
  log : ∃ events, s'.log = events ++ log ∧ ∀ e ∈ events, e.Spoken r
  stack : s'.running = r ∧ s'.frames = k ∧ s'.enabled = ie ∨
    ∃ f, f.switches = true ∧ f.mask = ie ∧ s'.stack r = f :: k

/-- The computation is such a call. -/
abbrev Turns (r : Nat) (ie : Bool) (k : List Frame) (log : List Event) (x : Except Fault State) :
    Prop :=
  Sat x (Turn r ie k log) fun _ => True

variable {s s' m : State} {k : List Frame} {t u r lock cv : Nat} {c : Call} {ie : Bool} {f : Frame}
  {log events : List Event} {e : Event} {w : WaitQueue} {a : Action} {x : Except Fault State}

theorem stack_running (s : State) : s.stack s.running = s.frames := if_pos rfl

theorem stack_of_ne (other : t ≠ s.running) : s.stack t = (s.context t).frames := if_neg other

/-- Every thread is where its context has been saved. -/
theorem stack_setcontext (m : State) (u t : Nat) :
    (m.setcontext u).stack t = (m.context t).frames := by
  by_cases same : t = u
  · subst same
    exact stack_running _
  · exact stack_of_ne same

section Logs

theorem Event.Spoken.takes (spoken : e.Spoken r) (lock t : Nat) : e.takes lock t = false := by
  cases e with
  | ret u c value ie => cases c <;> first | rfl | exact spoken.2.elim
  | _ => rfl

theorem Event.Spoken.gives (spoken : e.Spoken r) (lock t : Nat) : e.gives lock t = false := by
  cases e with
  | call u c ie => cases c <;> first | rfl | exact spoken.2.elim
  | exited u => exact spoken.elim
  | _ => rfl

/-- Who has a lock does not change while nobody takes it or gives it up. -/
theorem holds_cons (takes : e.takes lock t = false) (gives : e.gives lock t = false) :
    Holds lock t (e :: log) ↔ Holds lock t log := by
  constructor
  · exact .of_cons takes
  · exact fun holds => Or.inr ⟨gives, holds⟩

theorem holds_spoken (spoken : ∀ e ∈ events, e.Spoken r) :
    Holds lock t (events ++ log) ↔ Holds lock t log := by
  induction events with
  | nil => exact Iff.rfl
  | cons e events ih =>
      have first := spoken e List.mem_cons_self
      exact (holds_cons (first.takes lock t) (first.gives lock t)).trans
        (ih fun e' member => spoken e' (List.mem_cons_of_mem _ member))

theorem Turn.holds (turn : Turn r ie k log s') : Holds lock t s'.log ↔ Holds lock t log := by
  obtain ⟨events, same, spoken⟩ := turn.log
  rw [same]
  exact holds_spoken spoken

end Logs

section Calls

/-- A call of `r` has begun. -/
structure Speaks (r : Nat) (log : List Event) (m : State) : Prop where
  running : m.running = r
  log : ∃ events, m.log = events ++ log ∧ ∀ e ∈ events, e.Spoken r

theorem Speaks.called (s : State) (plain : c.Plain) :
    Speaks s.running s.log ((s.called c).interruptsSet false) :=
  ⟨rfl, [.call s.running c s.enabled], rfl, fun e member => by
    rw [List.mem_singleton.mp member]
    exact ⟨rfl, plain⟩⟩

theorem Speaks.returned (speaks : Speaks r log m) (plain : c.Plain) (ie : Bool)
    (value : Option Int) (k : List Frame) :
    Turn r ie k log ((m.interruptsSet ie).returned c value k) := by
  obtain ⟨events, same, spoken⟩ := speaks.log
  refine ⟨⟨.ret m.running c value ie :: events, ?_, fun e member => ?_⟩,
    Or.inl ⟨speaks.running, rfl, rfl⟩⟩
  · exact congrArg (_ :: ·) same
  · cases List.mem_cons.mp member with
    | inl new => exact new ▸ ⟨speaks.running, plain⟩
    | inr old => exact spoken e old

theorem Speaks.setcontext (speaks : Speaks r log m) (switches : f.switches = true)
    (mask : f.mask = ie) (saved : (m.context r).frames = f :: k) (u : Nat) :
    Turn r ie k log (m.setcontext u) :=
  ⟨speaks.log, Or.inr ⟨f, switches, mask, (stack_setcontext m u r).trans saved⟩⟩

theorem yieldAnyGot_turns (speaks : Speaks r log m)
    (saved : (m.context r).frames = .yieldAny ie :: k) : Turns r ie k log (yieldAnyGot ie k m) := by
  unfold yieldAnyGot
  refine (sat_true _).bind fun current _ => ?_
  dsimp only
  refine Sat.ite (fun _ => ?_) fun _ => ?_
  · refine (sat_true _).bind fun q _ => (sat_true _).bind fun q' _ =>
      (sat_true _).bind fun u _ => ?_
    have moved : Speaks r log { m.setStatus current .idle with readyQueue := q'.2 } :=
      ⟨speaks.running, speaks.log⟩
    refine moved.setcontext (f := .yieldAny ie) rfl rfl ?_ u
    exact (congrArg Context.frames (context_setStatus m current r .idle)).trans saved
  · have moved : Speaks r log (m.setStatus current .run) := ⟨speaks.running, speaks.log⟩
    exact moved.returned (by trivial) ie _ k

theorem yieldToGot_turns {wantTid : Int} (speaks : Speaks r log m)
    (saved : (m.context r).frames = .yieldTo wantTid ie :: k) :
    Turns r ie k log (yieldToGot wantTid ie k m) := by
  unfold yieldToGot
  refine (sat_true _).bind fun _ _ => (sat_true _).bind fun current _ => ?_
  dsimp only
  refine Sat.ite (fun _ => (sat_true _).bind fun found _ => ?_) fun _ => ?_
  · cases found with
    | none => exact speaks.returned (by trivial) ie _ k
    | some found =>
        refine (sat_true _).bind fun q _ => (sat_true _).bind fun q' _ =>
          (sat_true _).bind fun _ _ => (sat_true _).bind fun _ _ =>
            (sat_true _).bind fun q'' _ => ?_
        have moved : Speaks r log { m.setStatus current .idle with readyQueue := q''.2 } :=
          ⟨speaks.running, speaks.log⟩
        refine moved.setcontext (f := .yieldTo wantTid ie) rfl rfl ?_ _
        exact (congrArg Context.frames (context_setStatus m current r .idle)).trans saved
  · have moved : Speaks r log (m.setStatus current .run) := ⟨speaks.running, speaks.log⟩
    exact moved.returned (by trivial) ie _ k

theorem sleepGot_turns {controlId : Int} (speaks : Speaks r log m)
    (saved : (m.context r).frames = .sleep w controlId ie :: k) :
    Turns r ie k log (sleepGot w controlId ie k m) := by
  unfold sleepGot
  refine (sat_true _).bind fun current _ => ?_
  dsimp only
  refine Sat.ite (fun _ => ?_) fun _ => ?_
  · refine (sat_true _).bind fun q _ => (sat_true _).bind fun q' _ =>
      (sat_true _).bind fun u _ => ?_
    have moved : Speaks r log (({ m with readyQueue := q.2 }.setStatus current
        .sleep).setWaitQueue w q'.2) := ⟨speaks.running, speaks.log⟩
    refine moved.setcontext (f := .sleep w controlId ie) rfl rfl ?_ u
    exact (congrArg Context.frames (context_setStatus m current r .sleep)).trans saved
  · by_cases idle : (m.threads current).status = .idle
    · rw [if_pos idle]
      have moved : Speaks r log (m.setStatus current .run) := ⟨speaks.running, speaks.log⟩
      exact moved.returned (by trivial) ie _ k
    · rw [if_neg idle]
      exact speaks.returned (by trivial) ie _ k

theorem Speaks.getcontext (speaks : Speaks r log m) (frames : List Frame) :
    Speaks r log (m.getcontext m.running frames) ∧
      ((m.getcontext m.running frames).context r).frames = frames := by
  refine ⟨⟨speaks.running, speaks.log⟩, ?_⟩
  have saved := context_getcontext_self m m.running frames
  rw [speaks.running] at saved ⊢
  exact congrArg Context.frames saved

theorem threadYield_turns (head : s.ready.head? = some s.running) (wantTid : Int) :
    Turns s.running s.enabled k s.log (threadYield wantTid k s) := by
  have speaks := Speaks.called s (c := .threadYield wantTid) trivial
  have top := top_of_head (s := (s.called (.threadYield wantTid)).interruptsSet false) head
  unfold threadYield
  dsimp only
  refine (sat_true _).bind fun _ _ => (sat_true _).bind fun _ _ => ?_
  refine Sat.ite (fun _ => speaks.returned (by trivial) _ _ k) fun _ => ?_
  rw [top, ok_bind]
  refine Sat.ite (fun _ => speaks.returned (by trivial) _ _ k) fun _ => ?_
  refine Sat.ite (fun any => ?_) fun _ => ?_
  · refine Sat.ite (fun any' => speaks.returned (by trivial) _ _ k) fun _ => ?_
    have got := speaks.getcontext (.yieldAny s.enabled :: k)
    exact yieldAnyGot_turns got.1 got.2
  · refine Sat.ite (fun _ => speaks.returned (by trivial) _ _ k) fun _ => ?_
    have got := speaks.getcontext (.yieldTo wantTid s.enabled :: k)
    exact yieldToGot_turns got.1 got.2

theorem threadSleep_turns (head : s.ready.head? = some s.running) (queue : Option WaitQueue) :
    Turns s.running s.enabled k s.log (threadSleep queue k s) := by
  have speaks := Speaks.called s (c := .threadSleep queue) trivial
  unfold threadSleep
  cases queue with
  | none => exact speaks.returned (by trivial) _ _ k
  | some w =>
      have top := top_of_head (s := (s.called (.threadSleep (some w))).interruptsSet false) head
      dsimp only
      refine Sat.ite (fun _ => speaks.returned (by trivial) _ _ k) fun _ => ?_
      refine (sat_true _).bind fun control _ => ?_
      rw [top, ok_bind]
      have got := speaks.getcontext (.sleep w
        (((s.called (.threadSleep (some w))).interruptsSet false).threads control).iID
        s.enabled :: k)
      exact sleepGot_turns got.1 got.2

theorem wakeupTop_speaks (speaks : Speaks r log m) :
    Sat (wakeupTop w m) (Speaks r log) fun _ => True := by
  unfold wakeupTop
  refine (sat_true _).bind fun u _ => (sat_true _).bind fun q _ => (sat_true _).bind fun q' _ => ?_
  exact ⟨speaks.running, speaks.log⟩

theorem wakeupLoop_speaks (speaks : Speaks r log m) (fuel : Nat) :
    Sat (wakeupLoop w fuel m) (Speaks r log) fun _ => True := by
  induction fuel generalizing m with
  | zero =>
      unfold wakeupLoop
      exact Sat.ite (fun _ => trivial) fun _ => speaks
  | succ fuel ih =>
      unfold wakeupLoop
      refine Sat.ite (fun _ => ?_) fun _ => speaks
      exact (wakeupTop_speaks speaks).bind fun m' moved => ih moved

theorem threadWakeup_turns (queue : Option WaitQueue) (all : Int) :
    Turns s.running s.enabled k s.log (threadWakeup queue all k s) := by
  have speaks := Speaks.called s (c := .threadWakeup queue all) trivial
  unfold threadWakeup
  cases queue with
  | none => exact speaks.returned (by trivial) _ _ k
  | some w =>
      dsimp only
      refine Sat.ite (fun _ => speaks.returned (by trivial) _ _ k) fun _ => ?_
      refine Sat.ite (fun _ => ?_) fun _ => ?_
      · exact (wakeupLoop_speaks speaks _).bind fun m' moved => moved.returned (by trivial) _ _ k
      · exact (wakeupTop_speaks speaks).bind fun m' moved => moved.returned (by trivial) _ _ k

end Calls

end Ece344Lab.Threads
