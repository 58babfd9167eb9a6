import Ece344Lab.Threads.Advance
import Ece344Lab.Threads.Conservation

set_option autoImplicit false

/- Whom `thread_yield` switches to, and what it returns when its caller runs again. -/
namespace Ece344Lab.Threads

open Outcome State

variable {s s' s₁ s₂ m : State} {t u v : Nat} {rest front back : List Nat} {wantTid i : Int}
  {c : Call} {f : Frame} {ie : Bool} {value answer : Option Int} {base during : List Event}
  {a : Action} {k : List Frame}

/-- The running thread has called `getcontext` at a frame, and another thread runs. -/
structure Switched (c : Call) (f : Frame) (u : Nat) (ready : List Nat) (s s' : State) : Prop where
  ready : s'.ready = ready
  running : s'.running = u
  log : s'.log = .call s.running c s.enabled :: s.log
  context : (s'.context s.running).frames = [f]
  ids : s'.id s.running = s.id s.running

/-- Where a thread goes on that has given the processor away. -/
structure Passes (u : Nat) (ready : List Nat) (s s' : State) : Prop where
  ready : s'.ready = ready
  running : s'.running = u
  log : s'.log = s.log
  context : s'.context s.running = s.context s.running
  ids : s'.id s.running = s.id s.running

section Calls

theorem yieldAnyGot_passes (lists : s.ready = s.running :: u :: rest)
    (active : s.status s.running = .new ∨ s.status s.running = .run) (ie : Bool) (k : List Frame) :
    Returns (yieldAnyGot ie k s) (Passes u (u :: rest ++ [s.running]) s) := by
  have first : (s.threads s.running).status = .run ∨ (s.threads s.running).status = .new :=
    active.symm
  obtain ⟨_, q, popped, tail⟩ := ThreadQueue.pop_ok (q := s.readyQueue) lists
  obtain ⟨_, q', pushed, whole⟩ := q.push_ok s.running
  rw [tail] at whole
  unfold yieldAnyGot
  rw [ThreadQueue.top_ok lists, ok_bind]
  dsimp only
  rw [if_pos first]
  change Returns (s.readyQueue.pop >>= _) _
  rw [popped, ok_bind]
  dsimp only
  rw [pushed, ok_bind]
  dsimp only
  rw [ThreadQueue.top_ok whole, ok_bind]
  exact ⟨_, rfl, whole, rfl, rfl, context_setStatus s _ _ _, id_setStatus s _ _ _⟩

theorem yieldToGot_passes (lists : s.ready = s.running :: (front ++ u :: back))
    (fails : ∀ v ∈ front, s.id v ≠ wantTid) (other : s.id s.running ≠ wantTid)
    (found : s.id u = wantTid) (active : s.status s.running = .new ∨ s.status s.running = .run)
    (off : s.enabled = false) (ie : Bool) (k : List Frame) :
    Returns (yieldToGot wantTid ie k s) (Passes u (u :: (front ++ back) ++ [s.running]) s) := by
  have first : (s.threads s.running).status = .run ∨ (s.threads s.running).status = .new :=
    active.symm
  have split : s.readyQueue.threads = (s.running :: front) ++ u :: back := lists
  have fails' : ∀ v ∈ s.running :: front, decide ((s.threads v).iID = wantTid) = false := by
    intro v member
    cases List.mem_cons.mp member with
    | inl same => exact decide_eq_false (same ▸ other)
    | inr later => exact decide_eq_false (fails v later)
  obtain ⟨place, searched, position, val⟩ :=
    ThreadQueue.search_some split fails' (decide_eq_true found)
  obtain ⟨_, q, popped, tail⟩ := ThreadQueue.pop_ok (q := s.readyQueue) lists
  obtain ⟨_, q₁, moved, lists₁⟩ := q.movetop_ok ((place.position : Int) - 1)
  have top : q₁.threads = u :: (front ++ back) := by
    rw [lists₁, tail, position, List.length_cons,
      show ((front.length + 1 : Nat) : Int) - 1 = front.length by omega, movedTop_split]
  obtain ⟨_, q₂, pushed, whole⟩ := q₁.push_ok s.running
  rw [top] at whole
  unfold yieldToGot
  rw [off, Bool.not_false, cAssert_true, ok_bind, ThreadQueue.top_ok lists, ok_bind]
  dsimp only
  rw [if_pos first, searched, ok_bind]
  dsimp only
  change Returns (s.readyQueue.pop >>= _) _
  rw [popped, ok_bind]
  dsimp only
  rw [moved, ok_bind, ThreadQueue.ended_ok top, ok_bind, cAssert_true, ok_bind]
  dsimp only
  rw [pushed, ok_bind, val]
  exact ⟨_, rfl, whole, rfl, rfl, context_setStatus s _ _ _, id_setStatus s _ _ _⟩

/-- A switch that the caller of `thread_yield` has saved its context for. -/
theorem Passes.switched {ready : List Nat}
    (passes : Passes u ready (((s.called c).interruptsSet false).getcontext s.running [f]) s') :
    Switched c f u ready s s' := by
  refine ⟨passes.ready, passes.running, passes.log, ?_, ?_⟩
  · have saved := passes.context
    change s'.context s.running = State.context (State.getcontext _ _ _) s.running at saved
    rw [saved, context_getcontext_self]
  · have same := passes.ids
    change s'.id s.running = State.id (State.getcontext _ _ _) s.running at same
    rw [same, id_getcontext]
    rfl

theorem threadYield_any (lists : s.ready = s.running :: u :: rest)
    (active : s.status s.running = .new ∨ s.status s.running = .run) :
    Returns (threadYield threadAny [] s)
      (Switched (.threadYield threadAny) (.yieldAny s.enabled) u (u :: rest ++ [s.running]) s) := by
  have several : ¬ s.readyQueue.queue.size = 1 := by
    rw [ThreadQueue.size_eq, show s.readyQueue.threads = _ from lists, List.length_cons,
      List.length_cons]
    omega
  unfold threadYield
  change Returns (queueEnded s.readyQueue.queue >>= _) _
  rw [ThreadQueue.ended_ok lists, ok_bind, cAssert_true, ok_bind, if_neg (by decide)]
  change Returns (s.readyQueue.top >>= _) _
  rw [ThreadQueue.top_ok lists, ok_bind, if_neg (by decide), if_pos rfl]
  change Returns (if s.readyQueue.queue.size = 1 then _ else _) _
  rw [if_neg several]
  obtain ⟨s', yields, passes⟩ := yieldAnyGot_passes
    (s := ((s.called (.threadYield threadAny)).interruptsSet false).getcontext s.running
      [.yieldAny s.enabled]) lists (by
      change State.status (State.getcontext _ _ _) s.running = _ ∨
        State.status (State.getcontext _ _ _) s.running = _
      rw [status_getcontext]
      exact active) s.enabled []
  exact ⟨s', yields, passes.switched⟩

theorem threadYield_none (lists : s.ready = [s.running]) :
    Returns (threadYield threadAny [] s) fun s' => s'.ready = s.ready ∧
      s'.log = .ret s.running (.threadYield threadAny) (some threadNone) s.enabled ::
        .call s.running (.threadYield threadAny) s.enabled :: s.log := by
  unfold threadYield
  change Returns (queueEnded s.readyQueue.queue >>= _) _
  rw [ThreadQueue.ended_ok lists, ok_bind, cAssert_true, ok_bind, if_neg (by decide)]
  change Returns (s.readyQueue.top >>= _) _
  rw [ThreadQueue.top_ok lists, ok_bind, if_neg (by decide), if_pos rfl]
  change Returns (if s.readyQueue.queue.size = 1 then _ else _) _
  rw [if_pos (ThreadQueue.size_eq_one.mpr ⟨_, lists⟩)]
  exact ⟨_, rfl, rfl, rfl⟩

/-- `thread_yield` with an identifier that is not special and not the caller's own. -/
theorem threadYield_other (first : s.ready = s.running :: rest) (low : ¬ wantTid < threadSelf)
    (self : wantTid ≠ threadSelf) (any : wantTid ≠ threadAny) (other : wantTid ≠ s.id s.running) :
    threadYield wantTid [] s = yieldToGot wantTid s.enabled []
      (((s.called (.threadYield wantTid)).interruptsSet false).getcontext s.running
        [.yieldTo wantTid s.enabled]) := by
  unfold threadYield
  change (queueEnded s.readyQueue.queue >>= _) = _
  rw [ThreadQueue.ended_ok first, ok_bind, cAssert_true, ok_bind, if_neg low]
  change (s.readyQueue.top >>= _) = _
  rw [ThreadQueue.top_ok first, ok_bind, if_neg self, if_neg any]
  exact if_neg other

theorem threadYield_to (lists : s.ready = s.running :: (front ++ u :: back))
    (fails : ∀ v ∈ front, s.id v ≠ wantTid) (other : s.id s.running ≠ wantTid)
    (found : s.id u = wantTid) (named : 0 ≤ wantTid)
    (active : s.status s.running = .new ∨ s.status s.running = .run) :
    Returns (threadYield wantTid [] s) (Switched (.threadYield wantTid)
      (.yieldTo wantTid s.enabled) u (u :: (front ++ back) ++ [s.running]) s) := by
  have low : ¬ wantTid < threadSelf := by
    unfold threadSelf
    omega
  rw [threadYield_other lists low (by unfold threadSelf; omega) (by unfold threadAny; omega)
    other.symm]
  obtain ⟨s', yields, passes⟩ := yieldToGot_passes
    (s := ((s.called (.threadYield wantTid)).interruptsSet false).getcontext s.running
      [.yieldTo wantTid s.enabled]) lists (fun v member => by
        rw [id_getcontext]
        exact fails v member) (by
      change State.id (State.getcontext _ _ _) s.running ≠ _
      rw [id_getcontext]
      exact other) (by
      rw [id_getcontext]
      exact found) (by
      change State.status (State.getcontext _ _ _) s.running = _ ∨
        State.status (State.getcontext _ _ _) s.running = _
      rw [status_getcontext]
      exact active) rfl s.enabled []
  exact ⟨s', yields, passes.switched⟩

/-- `thread_yield` with an identifier that no ready thread has. -/
theorem threadYield_absent (first : s.ready = s.running :: rest)
    (absent : ∀ v ∈ s.ready, s.id v ≠ wantTid) (any : wantTid ≠ threadAny)
    (self : wantTid ≠ threadSelf)
    (active : s.status s.running = .new ∨ s.status s.running = .run) :
    Returns (threadYield wantTid [] s) fun s' => s'.ready = s.ready ∧
      s'.log = .ret s.running (.threadYield wantTid) (some threadInvalid) s.enabled ::
        .call s.running (.threadYield wantTid) s.enabled :: s.log := by
  by_cases low : wantTid < threadSelf
  · unfold threadYield
    change Returns (queueEnded s.readyQueue.queue >>= _) _
    rw [ThreadQueue.ended_ok first, ok_bind, cAssert_true, ok_bind, if_pos low]
    exact ⟨_, rfl, rfl, rfl⟩
  · have other : wantTid ≠ s.id s.running :=
      (absent s.running (by rw [first]; exact List.mem_cons_self)).symm
    rw [threadYield_other first low self any other]
    have fails : ∀ v ∈ s.readyQueue.threads, decide (((((s.called
        (.threadYield wantTid)).interruptsSet false).getcontext s.running
          [.yieldTo wantTid s.enabled]).threads v).iID = wantTid) = false := by
      intro v member
      refine decide_eq_false ?_
      change State.id (State.getcontext _ _ _) v ≠ _
      rw [id_getcontext]
      exact absent v member
    have status : (((s.called (.threadYield wantTid)).interruptsSet false).getcontext s.running
        [.yieldTo wantTid s.enabled]).status s.running = .run ∨ (((s.called
        (.threadYield wantTid)).interruptsSet false).getcontext s.running
        [.yieldTo wantTid s.enabled]).status s.running = .new := by
      rw [status_getcontext]
      exact active.symm
    unfold yieldToGot
    change Returns (s.readyQueue.top >>= _) _
    rw [ThreadQueue.top_ok first, ok_bind]
    change Returns (if State.status _ s.running = .run ∨ State.status _ s.running = .new then _
      else _) _
    rw [if_pos status]
    change Returns (queueSearch s.readyQueue.queue _ >>= _) _
    rw [ThreadQueue.search_none fails, ok_bind]
    exact ⟨_, rfl, rfl, rfl⟩

end Calls

section Answers

/-- What happens to a thread, or what it does. -/
def Event.Of (t : Nat) : Event → Prop
  | .call u _ _ | .ret u _ _ _ | .created u | .started u _ | .exited u => u = t

/-- The thread is to go on at a frame. -/
structure AtFrame (t : Nat) (f : Frame) (i : Int) (m : State) : Prop where
  frames : m.running = t ∧ m.frames = [f] ∨ m.running ≠ t ∧ (m.context t).frames = [f]
  ids : m.id t = i

/-- Since some events the thread waits to go on at a frame, or its call has returned with a value,
or it has come to an end. -/
def Answered (t : Nat) (c : Call) (f : Frame) (i : Int) (answer : Option Int) (base : List Event)
    (m : State) : Prop :=
  ∃ new, m.log = new ++ base ∧ ((∀ e ∈ new, ¬ e.Of t) ∧ AtFrame t f i m ∨
    ∃ later e during, new = later ++ e :: during ∧ (∀ e ∈ during, ¬ e.Of t) ∧ e.Of t ∧
      ∀ value ie, e = .ret t c value ie → value = answer)

theorem first_of (t : Nat) (events : List Event) : (∀ e ∈ events, ¬ e.Of t) ∨
    ∃ later e during, events = later ++ e :: during ∧ (∀ e ∈ during, ¬ e.Of t) ∧ e.Of t := by
  induction events with
  | nil => exact Or.inl nofun
  | cons e events ih =>
      rcases ih with none | ⟨later, e', during, rfl, quiet, own⟩
      · by_cases own : e.Of t
        · exact Or.inr ⟨[], e, events, rfl, none, own⟩
        · refine Or.inl fun e' member => ?_
          cases List.mem_cons.mp member with
          | inl same => exact same ▸ own
          | inr earlier => exact none e' earlier
      · exact Or.inr ⟨e :: later, e', during, rfl, quiet, own⟩

/-- The thread that waits at a frame runs, and returns from its call. -/
theorem AtFrame.step_own
    (answers : ∀ m m', m.Ok → m.running = t → m.id t = i → m.frames = [f] →
      resume f [] m = .ok m' → ∃ ie, m'.log = .ret t c answer ie :: m.log)
    (ok : m.Ok) (step : Step m a s') (running : m.running = t) (frames : m.frames = [f])
    (ids : m.id t = i) : ∃ ie, s'.log = .ret t c answer ie :: m.log := by
  cases step with
  | invoke user _ _ =>
      rw [frames] at user
      cases user
  | interruptsSet user _ =>
      rw [frames] at user
      cases user
  | timer on _ =>
      have user := ok.outer on
      rw [frames] at user
      cases user
  | goOn suspended runs =>
      rw [frames] at suspended
      cases suspended
      exact answers m s' ok running ids frames runs

/-- A step of another thread, as long as it does not concern the thread that waits. -/
theorem AtFrame.step_other {events : List Event} (advance : Advance m s' events)
    (quiet : ∀ e ∈ events, ¬ e.Of t) (other : m.running ≠ t) (waits : AtFrame t f i m) :
    AtFrame t f i s' := by
  have new : .created t ∉ events := fun member => quiet _ member rfl
  have frames := (waits.frames.resolve_left fun here => other here.1).2
  have context := advance.context t other.symm new
  refine ⟨?_, (advance.ids t new).trans waits.ids⟩
  by_cases here : s'.running = t
  · have landed := advance.lands.resolve_left fun same => other (same.symm.trans here)
    rw [here, context] at landed
    exact Or.inl ⟨here, landed.trans frames⟩
  · exact Or.inr ⟨here, context ▸ frames⟩

theorem Answered.step
    (answers : ∀ m m', m.Ok → m.running = t → m.id t = i → m.frames = [f] →
      resume f [] m = .ok m' → ∃ ie, m'.log = .ret t c answer ie :: m.log)
    (ok : m.Ok) (may : Permitted m a) (step : Step m a s')
    (answered : Answered t c f i answer base m) : Answered t c f i answer base s' := by
  obtain ⟨new, log, ⟨quiet, waits⟩ | ⟨later, e, during, rfl, quiet, own, value⟩⟩ := answered
  · by_cases running : m.running = t
    · have frames := (waits.frames.resolve_right fun there => there.1 running).2
      obtain ⟨ie, log'⟩ := AtFrame.step_own answers ok step running frames waits.ids
      refine ⟨.ret t c answer ie :: new, by rw [log', log]; rfl,
        Or.inr ⟨[], _, new, rfl, quiet, rfl, fun value ie same => ?_⟩⟩
      cases same
      rfl
    · obtain ⟨events, advance⟩ := step.advance ok may
      have log' : s'.log = (events ++ new) ++ base := by
        rw [advance.log, log, List.append_assoc]
      rcases first_of t events with none | ⟨later, e, during, rfl, none, own⟩
      · refine ⟨events ++ new, log',
          Or.inl ⟨fun e member => ?_, waits.step_other advance none running⟩⟩
        exact (List.mem_append.mp member).elim (none e) (quiet e)
      · refine ⟨_, log', Or.inr ⟨later, e, during ++ new, by simp, fun e member => ?_, own,
          fun value ie same => ?_⟩⟩
        · exact (List.mem_append.mp member).elim (none e) (quiet e)
        · subst same
          have mine : t = m.running := advance.within (.ret t c value ie) (by simp)
          exact absurd mine.symm running
  · obtain ⟨events, advance⟩ := step.advance ok may
    refine ⟨(events ++ later) ++ e :: during, ?_, Or.inr ⟨_, e, during, rfl, quiet, own, value⟩⟩
    rw [advance.log, log]
    simp

/-- What can be reached in a run from one of its states. -/
def Later (s s' : State) : Prop :=
  Relation.ReflTransGen (fun a b => ∃ act, Permitted a act ∧ Step a act b) s s'

theorem Later.ok (ok : s.Ok) (later : Later s s') : s'.Ok := by
  induction later with
  | refl => exact ok
  | tail _ step ih =>
      obtain ⟨act, may, step⟩ := step
      exact step.keeps ih may

theorem Answered.later
    (answers : ∀ m m', m.Ok → m.running = t → m.id t = i → m.frames = [f] →
      resume f [] m = .ok m' → ∃ ie, m'.log = .ret t c answer ie :: m.log)
    (ok : s.Ok) (later : Later s s') (answered : Answered t c f i answer base s) :
    Answered t c f i answer base s' := by
  induction later with
  | refl => exact answered
  | tail before step ih =>
      obtain ⟨act, may, step⟩ := step
      exact ih.step answers (Later.ok ok before) may step

/-- The value of the return. -/
theorem Answered.eq_answer (answered : Answered t c f i answer base m)
    (returns : m.log = .ret t c value ie :: during ++ base) (quiet : ∀ e ∈ during, ¬ e.Of t) :
    value = answer := by
  obtain ⟨new, log, answered⟩ := answered
  have same : new = .ret t c value ie :: during := List.append_cancel_right (log.symm.trans returns)
  subst same
  rcases answered with ⟨none, _⟩ | ⟨later, e, before, split, _, own, result⟩
  · exact absurd rfl (none _ List.mem_cons_self)
  · cases later with
    | nil =>
        obtain ⟨rfl, _⟩ := List.cons.inj split
        exact result value ie rfl
    | cons e' later =>
        obtain ⟨_, rfl⟩ := List.cons.inj split
        exact absurd own (quiet e (by simp))

end Answers

/-- What `thread_yield` should do to the ready queue and return. -/
structure YieldOk (s s' : State) (wantTid : Int) (value : Option Int) : Prop where
  /-- the caller goes behind the others, and the first of them runs -/
  any : ∀ u rest, wantTid = threadAny → s.ready = s.running :: u :: rest →
    s'.ready = u :: rest ++ [s.running] ∧ s'.running = u ∧ value = some (s.id u)
  none : wantTid = threadAny → s.ready = [s.running] →
    s'.ready = s.ready ∧ value = some threadNone
  /-- the thread with the identifier goes before the others and runs -/
  target : ∀ front u back, s.ready = s.running :: (front ++ u :: back) → s.id u = wantTid →
    s'.ready = u :: (front ++ back) ++ [s.running] ∧ s'.running = u ∧ value = some (s.id u)
  absent : (∀ u ∈ s.ready, s.id u ≠ wantTid) → wantTid ≠ threadAny → wantTid ≠ threadSelf →
    s'.ready = s.ready ∧ value = some threadInvalid

/-- Ready threads have different identifiers. -/
theorem State.Ok.id_ne (ok : s.Ok) (here : t ∈ s.ready) (there : u ∈ s.ready) (other : t ≠ u) :
    s.id t ≠ s.id u := by
  intro same
  have live := (ok.queues.live t).mpr ⟨none, here⟩
  have live' := (ok.queues.live u).mpr ⟨none, there⟩
  have first := (ok.queues.index t live).2.2
  rw [same, (ok.queues.index u live').2.2] at first
  exact other (Option.some.inj first).symm

/-- The second return of `thread_yield(THREAD_ANY)` gives the caller's own identifier. -/
theorem yieldAny_answers (i : Int) (e : Bool) : ∀ m m' : State, m.Ok → m.running = t → m.id t = i →
    m.frames = [.yieldAny e] → resume (.yieldAny e) [] m = .ok m' →
    ∃ ie, m'.log = .ret t (.threadYield threadAny) (some i) ie :: m.log := by
  intro m m' ok running ids frames runs
  obtain ⟨rest, first⟩ := ok.exists_ready
  change yieldAnyGot e [] m = .ok m' at runs
  unfold yieldAnyGot at runs
  rw [ThreadQueue.top_ok first, ok_bind] at runs
  dsimp only at runs
  rw [if_neg (ok.idle frames rfl)] at runs
  obtain rfl := Except.ok.inj runs
  have same : (m.setStatus m.running .run).id m.running = i := by
    rw [id_setStatus, running, ids]
  subst running
  exact ⟨e, by rw [← same]; rfl⟩

/-- The second return of `thread_yield` with an identifier gives the argument. -/
theorem yieldTo_answers (i : Int) (e : Bool) : ∀ m m' : State, m.Ok → m.running = t → m.id t = i →
    m.frames = [.yieldTo wantTid e] → resume (.yieldTo wantTid e) [] m = .ok m' →
    ∃ ie, m'.log = .ret t (.threadYield wantTid) (some wantTid) ie :: m.log := by
  intro m m' ok running ids frames runs
  obtain ⟨rest, first⟩ := ok.exists_ready
  have off : m.enabled = false := by
    by_contra on
    have none := ok.outer (by simpa using on)
    rw [frames] at none
    cases none
  change yieldToGot wantTid e [] m = .ok m' at runs
  unfold yieldToGot at runs
  rw [off, Bool.not_false, cAssert_true, ok_bind, ThreadQueue.top_ok first, ok_bind] at runs
  dsimp only at runs
  rw [if_neg (ok.idle frames rfl)] at runs
  obtain rfl := Except.ok.inj runs
  subst running
  exact ⟨e, rfl⟩

theorem Later.log (ok : s.Ok) (later : Later s s') : ∃ new, s'.log = new ++ s.log := by
  induction later with
  | refl => exact ⟨[], rfl⟩
  | tail before step ih =>
      obtain ⟨act, may, step⟩ := step
      obtain ⟨new, log⟩ := ih
      obtain ⟨events, advance⟩ := step.advance (Later.ok ok before) may
      exact ⟨events ++ new, by rw [advance.log, log, List.append_assoc]⟩

theorem Later.eq_value (ok : s₁.Ok) (later : Later s₁ s₂) {e : Bool}
    (returned : s₁.log = .ret t c answer e :: base)
    (returns : s₂.log = .ret t c value ie :: during ++ base) (quiet : ∀ e ∈ during, ¬ e.Of t) :
    value = answer := by
  obtain ⟨new, log⟩ := later.log ok
  rw [returned, returns, List.append_cons] at log
  have same := List.append_cancel_right log
  cases new with
  | nil =>
      cases same
      rfl
  | cons e' new =>
      obtain ⟨_, rfl⟩ := List.cons.inj same
      exact absurd rfl (quiet (.ret t c answer e) (by simp))

theorem Switched.eq_value {ready : List Nat} (ok : s₁.Ok) (switched : Switched c f u ready s s₁)
    (other : u ≠ s.running)
    (answers : ∀ m m' : State, m.Ok → m.running = s.running → m.id s.running = s.id s.running →
      m.frames = [f] → resume f [] m = .ok m' → ∃ ie, m'.log = .ret s.running c answer ie :: m.log)
    (later : Later s₁ s₂)
    (returns : s₂.log = .ret s.running c value ie :: during ++ .call s.running c s.enabled :: s.log)
    (quiet : ∀ e ∈ during, ¬ e.Of s.running) : value = answer := by
  have waits : AtFrame s.running f (s.id s.running) s₁ :=
    ⟨Or.inr ⟨switched.running ▸ other, switched.context⟩, switched.ids⟩
  have start : Answered s.running c f (s.id s.running) answer
      (.call s.running c s.enabled :: s.log) s₁ := ⟨[], switched.log, Or.inl ⟨nofun, waits⟩⟩
  exact (start.later answers ok later).eq_answer returns quiet

/-- `thread_yield` called in a state of a run, and its return at some later point of the run: it
does what it should exactly when it is not `thread_yield(THREAD_ANY)` with another ready thread. -/
theorem yield_reports (run : Reachable Permitted s)
    (call : Step s (.invoke (.threadYield wantTid)) s₁)
    (later : Later s₁ s₂)
    (returns : s₂.log = .ret s.running (.threadYield wantTid) value ie :: during ++
      .call s.running (.threadYield wantTid) s.enabled :: s.log)
    (quiet : ∀ e ∈ during, ¬ e.Of s.running) :
    YieldOk s s₁ wantTid value ↔ (wantTid = threadAny → s.ready.length = 1) := by
  have ok := run.ok
  have may : Permitted s (.invoke (.threadYield wantTid)) := trivial
  have ok₁ : s₁.Ok := call.keeps ok may
  obtain ⟨rest, first⟩ := ok.exists_ready
  have distinct : s.ready.Nodup := ok.queues.apart.nodup none
  cases call with
  | invoke user _ runs =>
      have active := ok.active (user ▸ not_switching_nil)
      have any : ∀ u rest, wantTid = threadAny → s.ready = s.running :: u :: rest →
          value = some (s.id s.running) ∧ s.id u ≠ s.id s.running := by
        intro u rest any lists
        subst any
        obtain ⟨s', yields, switched⟩ := threadYield_any lists active
        obtain rfl := Except.ok.inj (yields.symm.trans runs)
        have other : u ≠ s.running := by
          rintro rfl
          simp [lists] at distinct
        exact ⟨switched.eq_value ok₁ other (yieldAny_answers _ _) later returns quiet,
          ok.id_ne (by simp [lists]) (by simp [lists]) other⟩
      constructor
      · intro right isAny
        match rest, first with
        | [], first => rw [first, List.length_singleton]
        | u :: rest, first =>
            obtain ⟨value, differs⟩ := any u rest isAny first
            have same := (right.any u rest isAny first).2.2
            rw [value] at same
            exact absurd (Option.some.inj same).symm differs
      · intro condition
        refine ⟨fun u rest isAny lists => ?_, fun isAny lists => ?_,
          fun front u back lists found => ?_, fun absent notAny self => ?_⟩
        · have one := condition isAny
          simp [lists] at one
        · subst isAny
          obtain ⟨s', yields, ready, log⟩ := threadYield_none lists
          obtain rfl := Except.ok.inj (yields.symm.trans runs)
          exact ⟨ready, later.eq_value ok₁ log returns quiet⟩
        · rw [lists] at distinct
          have other : u ≠ s.running := by
            rintro rfl
            simp at distinct
          have here : u ∈ s.ready := by simp [lists]
          have fails : ∀ v ∈ front, s.id v ≠ wantTid := by
            intro v member
            rw [← found]
            refine ok.id_ne (by simp [lists, member]) here ?_
            rintro rfl
            have apart := (List.nodup_cons.mp distinct).2
            exact (List.nodup_append.mp apart).2.2 v member v List.mem_cons_self rfl
          have differs : s.id s.running ≠ wantTid := by
            rw [← found]
            exact ok.id_ne (by simp [lists]) here other.symm
          have named := (ok.queues.index u ((ok.queues.live u).mpr ⟨none, here⟩)).1
          obtain ⟨s', yields, switched⟩ :=
            threadYield_to lists fails differs found (found ▸ named) active
          obtain rfl := Except.ok.inj (yields.symm.trans runs)
          refine ⟨switched.ready, switched.running, ?_⟩
          rw [found]
          exact switched.eq_value ok₁ other (yieldTo_answers _ _) later returns quiet
        · obtain ⟨s', yields, ready, log⟩ := threadYield_absent first absent notAny self active
          obtain rfl := Except.ok.inj (yields.symm.trans runs)
          exact ⟨ready, later.eq_value ok₁ log returns quiet⟩

theorem replay_later {actions : List Action} (replays : replay Permitted actions s = .ok s') :
    Later s s' := by
  induction actions generalizing s with
  | nil =>
      obtain rfl := Except.ok.inj replays
      exact .refl
  | cons a rest ih =>
      unfold replay at replays
      by_cases may : Permitted s a
      · rw [if_pos may] at replays
        cases acts : act s a with
        | error e =>
            rw [acts] at replays
            cases replays
        | ok m =>
            rw [acts, ok_bind] at replays
            exact .head ⟨a, may, act_step acts⟩ (ih replays)
      · rw [if_neg may] at replays
        cases replays

/-- Two threads give the processor to each other. What the first one gets back depends on whom it
has asked for. -/
theorem exists_yield (wantTid : Int) (value : Option Int)
    (replays : Returns (threadInit 0 true >>= replay Permitted [.invoke (.threadCreate 1)]) fun s =>
      s.ready = [0, 1] ∧ s.running = 0 ∧ s.enabled = true ∧ s.id 1 = 1 ∧
        Returns (act s (.invoke (.threadYield wantTid))) fun s₁ => Returns (replay Permitted [.goOn,
          .invoke (.threadYield threadAny), .goOn] s₁) fun s₂ =>
            s₂.log = .ret 0 (.threadYield wantTid) value true ::
              [.call 1 (.threadYield threadAny) true, .started 1 true] ++
              .call 0 (.threadYield wantTid) true :: s.log) :
    ∃ s s₁ s₂, Reachable Permitted s ∧ (s.ready = [0, 1] ∧ s.running = 0 ∧ s.id 1 = 1) ∧
      Step s (.invoke (.threadYield wantTid)) s₁ ∧ Later s₁ s₂ ∧
      s₂.log = .ret s.running (.threadYield wantTid) value true ::
        [.call 1 (.threadYield threadAny) true, .started 1 true] ++
        .call s.running (.threadYield wantTid) s.enabled :: s.log := by
  obtain ⟨s, run, ready, running, on, id, s₁, acts, s₂, later, log⟩ :=
    exists_reachable Permitted 0 true [.invoke (.threadCreate 1)] replays
  refine ⟨s, s₁, s₂, run, ⟨ready, running, id⟩, act_step acts, replay_later later, ?_⟩
  rw [running, on]
  exact log

/-- `thread_yield(THREAD_ANY)` runs thread 1 and returns 0. -/
theorem yield_misreports : ∃ s s₁ s₂, Reachable Permitted s ∧
    (s.ready = [0, 1] ∧ s.running = 0 ∧ s.id 1 = 1) ∧
    Step s (.invoke (.threadYield threadAny)) s₁ ∧ Later s₁ s₂ ∧
    s₂.log = .ret s.running (.threadYield threadAny) (some 0) true ::
      [.call 1 (.threadYield threadAny) true, .started 1 true] ++
      .call s.running (.threadYield threadAny) s.enabled :: s.log ∧
    ¬ YieldOk s s₁ threadAny (some 0) := by
  obtain ⟨s, s₁, s₂, run, state, call, later, log⟩ :=
    exists_yield threadAny (some 0) (by decide +kernel)
  refine ⟨s, s₁, s₂, run, state, call, later, log, fun right => ?_⟩
  have value := (right.any 1 [] rfl (by rw [state.1, state.2.1])).2.2
  rw [state.2.2] at value
  cases value

/-- `thread_yield(1)` runs thread 1 and returns 1. -/
theorem yield_reports_to : ∃ s s₁ value, (Reachable Permitted s ∧ value = some 1) ∧
    Step s (.invoke (.threadYield 1)) s₁ ∧
    (YieldOk s s₁ 1 value ↔ ((1 : Int) = threadAny → s.ready.length = 1)) := by
  obtain ⟨s, s₁, s₂, run, state, call, later, log⟩ := exists_yield 1 (some 1) (by decide +kernel)
  refine ⟨s, s₁, some 1, ⟨run, rfl⟩, call, yield_reports run call later log fun e member own => ?_⟩
  rw [state.2.1] at own
  rcases List.mem_cons.mp member with rfl | member
  · cases own
  · rw [List.mem_singleton.mp member] at own
    cases own

end Ece344Lab.Threads
