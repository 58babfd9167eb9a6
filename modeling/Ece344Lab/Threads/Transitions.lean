import Ece344Lab.Threads.InvariantFacts

set_option autoImplicit false

/- The ways in which threads move between the queues, the processor and their end. -/
namespace Ece344Lab.Threads.State

open Outcome Placement

variable {s s' : State} {k : List Frame} {t u : Nat} {c : Call} {ie : Bool} {f : Frame}
  {q q' : ThreadQueue} {rest : List Nat} {w : WaitQueue}

theorem Queues.dispatch (queues : s.Queues none) (head : s.ready.head? = some u) :
    (s.setcontext u).Ok := by
  have there : u ∈ s.ready := Queues.mem_ready_of_head head
  have context : s.context u = ⟨(s.setcontext u).frames, (s.setcontext u).enabled⟩ := rfl
  have queues' : (s.setcontext u).Queues (some u) :=
    { apart := queues.apart
      live := queues.live
      allocated := queues.allocated
      index := queues.index
      indexed := queues.indexed
      ready := fun t member _ => off_congr (queues.ready t member nofun) rfl rfl rfl
      waiting := fun w t member => (queues.waiting w t member).congr rfl rfl rfl
      paired := queues.paired }
  cases queues.ready u there nofun with
  | inl fresh =>
      have frames : (s.setcontext u).frames = [.stub] := congrArg Context.frames fresh.context
      have enabled : (s.setcontext u).enabled = false := congrArg Context.enabled fresh.context
      refine ⟨queues', head, fun _ => Or.inl fresh.status, ?_, ?_, ?_, ?_⟩
      · rintro ⟨f, k, same, switches⟩
        rw [frames] at same
        cases same
        cases switches
      · rw [enabled]
        nofun
      · rw [frames]
        exact ⟨rfl, fun _ => rfl, nofun, nofun, trivial⟩
      · rw [frames]
        exact fresh.pending
  | inr suspended =>
      refine ⟨queues', head, fun not => absurd suspended.switching not,
        fun _ => suspended.status, fun on => ?_, suspended.nested, suspended.pending⟩
      have off : (s.setcontext u).enabled = false := suspended.enabled
      rw [off] at on
      cases on

namespace Inside

variable (inside : s.Inside c ie k)
include inside

/-- The running thread after `getcontext`, with the status it gets when it leaves the processor. -/
theorem suspended (saved : s.context s.running = ⟨f :: k, false⟩) (call : f.call = some c)
    (mask : f.mask = ie) (switches : f.switches = true) (bare : Bare k) (status : ThreadStatus) :
    (s.setStatus s.running status).Suspended status s.running := by
  have context : (s.setStatus s.running status).context s.running = ⟨f :: k, false⟩ := by
    rw [context_setStatus, saved]
  refine ⟨status_setStatus_self _ _ _, ?_, ?_, ?_, ?_⟩
  · rw [context]
  · rw [context]
    have running : f.final = false := by
      cases f <;> first | rfl | cases switches
    exact ⟨running, mask ▸ inside.outer, inside.plain, bare, inside.nested⟩
  · rw [context]
    exact ⟨f, k, rfl, switches⟩
  · rw [context, calls_cons call, mask]
    exact inside.pending

theorem others_off (status : ThreadStatus) (member : t ∈ s.ready) (other : t ≠ s.running) :
    (s.setStatus s.running status).Fresh t ∨ (s.setStatus s.running status).Suspended .idle t :=
  off_congr (inside.queues.ready t member fun same => other (Option.some.inj same).symm)
    (status_setStatus_of_ne s status other) (context_setStatus s _ _ status) rfl

theorem others_waiting (status : ThreadStatus) (member : t ∈ s.waiting w) :
    (s.setStatus s.running status).Suspended .sleep t := by
  have other : t ≠ s.running :=
    fun same => inside.queues.not_waiting inside.mem_ready w (same ▸ member)
  exact (inside.queues.waiting w t member).congr (status_setStatus_of_ne s status other)
    (context_setStatus s _ _ status) rfl

/-- The running thread becomes one of the other ready threads. -/
theorem rotated (off : (s.setStatus s.running .idle).Suspended .idle s.running)
    (perm : q.threads.Perm s.ready) :
    { s.setStatus s.running .idle with readyQueue := q }.Queues none := by
  have queued := queued_setReady (s.setStatus s.running .idle) q
  have lines : ∀ p, ({ s.setStatus s.running .idle with readyQueue := q }.queued p).Perm
      (s.queued p) := by
    intro p
    rw [queued]
    cases p with
    | none =>
        rw [Function.update_self]
        exact perm
    | some w => exact .refl _
  have placed : ∀ t, Placed { s.setStatus s.running .idle with readyQueue := q }.queued t ↔
      Placed s.queued t := fun t => exists_congr fun p => (lines p).mem_iff
  refine ⟨inside.queues.apart.subperm fun p => (lines p).subperm, fun t => ?_,
    inside.queues.allocated, fun t alive => ?_, fun i t found => ?_, fun t member _ => ?_,
    fun w t member => ?_, inside.queues.paired⟩
  · exact (inside.queues.live t).trans (placed t).symm
  · have index := inside.queues.index t alive
    rw [← id_setStatus s s.running t .idle] at index
    exact index
  · have index := inside.queues.indexed i t found
    rw [← id_setStatus s s.running t .idle] at index
    exact index
  · have before : t ∈ s.ready := (lines none).mem_iff.mp member
    by_cases same : t = s.running
    · rw [same]
      exact Or.inr (off.congr rfl rfl rfl)
    · exact off_congr (inside.others_off .idle before same) rfl rfl rfl
  · exact (inside.others_waiting .idle member).congr rfl rfl rfl

theorem asleep (off : (s.setStatus s.running .sleep).Suspended .sleep s.running)
    (first : s.ready = s.running :: rest) (ready : q.threads = rest)
    (waiting : q'.threads = s.waiting w ++ [s.running]) :
    (({ s with readyQueue := q }.setStatus s.running .sleep).setWaitQueue w q').Queues none := by
  have queued : (({ s with readyQueue := q }.setStatus s.running .sleep).setWaitQueue w q').queued =
      Function.update (Function.update s.queued none rest) (some w)
        (Function.update s.queued none rest (some w) ++ [s.running]) := by
    rw [queued_setWaitQueue, waiting, Function.update_of_ne (Option.some_ne_none w)]
    congr 1
    exact (queued_setReady s q).trans (by rw [ready])
  have line : (s.queued none).Perm (s.running :: rest) := .of_eq first
  have gone : ¬ Placed (Function.update s.queued none rest) s.running :=
    fun there => ((inside.queues.apart.placed_leave line).mp there).1 rfl
  have apart := (inside.queues.apart.leave line).join (p := some w) gone
  have placed : ∀ t, Placed (({ s with readyQueue := q }.setStatus s.running .sleep).setWaitQueue
      w q').queued t ↔ Placed s.queued t := by
    intro t
    rw [queued, placed_join, inside.queues.apart.placed_leave line]
    constructor
    · rintro (rfl | ⟨_, there⟩)
      · exact ⟨none, inside.mem_ready⟩
      · exact there
    · intro there
      by_cases same : t = s.running
      · exact Or.inl same
      · exact Or.inr ⟨same, there⟩
  refine ⟨queued ▸ apart, fun t => ?_, inside.queues.allocated, fun t alive => ?_,
    fun i t found => ?_, fun t member _ => ?_, fun v t member => ?_, inside.queues.paired⟩
  · exact (inside.queues.live t).trans (placed t).symm
  · have index := inside.queues.index t alive
    rw [← id_setStatus s s.running t .sleep] at index
    exact index
  · have index := inside.queues.indexed i t found
    rw [← id_setStatus s s.running t .sleep] at index
    exact index
  · have there : t ∈ rest := by
      change t ∈ q.threads at member
      rwa [ready] at member
    have distinct := inside.queues.apart.nodup none
    change s.ready.Nodup at distinct
    rw [first, List.nodup_cons] at distinct
    have other : t ≠ s.running := fun same => distinct.1 (same ▸ there)
    exact off_congr (inside.others_off .sleep (by simp [first, there]) other) rfl rfl rfl
  · have line := congrFun queued (some v)
    change (State.waiting _ v) = _ at line
    rw [line] at member
    by_cases same : v = w
    · subst same
      rw [Function.update_self, Function.update_of_ne (Option.some_ne_none v), List.mem_append,
        List.mem_singleton] at member
      cases member with
      | inl old => exact (inside.others_waiting .sleep old).congr rfl rfl rfl
      | inr new =>
          rw [new]
          exact off.congr rfl rfl rfl
    · rw [Function.update_of_ne fun equal => same (Option.some.inj equal),
        Function.update_of_ne (Option.some_ne_none v)] at member
      exact (inside.others_waiting .sleep member).congr rfl rfl rfl

theorem woken {later : List Nat} (first : s.waiting w = t :: later) (waiting : q'.threads = later)
    (ready : q.threads = s.ready ++ [t]) :
    { (s.setStatus t .idle).setWaitQueue w q' with readyQueue := q }.Inside c ie k := by
  have waits : t ∈ s.waiting w := by simp [first]
  have suspended := inside.queues.waiting w t waits
  have other : s.running ≠ t :=
    fun same => inside.queues.not_waiting inside.mem_ready w (same ▸ waits)
  have line : (s.queued (some w)).Perm (t :: later) := .of_eq first
  have queued : { (s.setStatus t .idle).setWaitQueue w q' with readyQueue := q }.queued =
      Function.update (Function.update s.queued (some w) later) none
        (Function.update s.queued (some w) later none ++ [t]) := by
    rw [queued_setReady, queued_setWaitQueue, waiting, ready,
      Function.update_of_ne (Option.some_ne_none w).symm]
    rfl
  have gone : ¬ Placed (Function.update s.queued (some w) later) t :=
    fun there => ((inside.queues.apart.placed_leave line).mp there).1 rfl
  have placed : ∀ u, Placed { (s.setStatus t .idle).setWaitQueue w q' with
      readyQueue := q }.queued u ↔ Placed s.queued u := by
    intro u
    rw [queued, placed_join, inside.queues.apart.placed_leave line]
    constructor
    · rintro (rfl | ⟨_, there⟩)
      · exact ⟨some w, waits⟩
      · exact there
    · intro there
      by_cases same : u = t
      · exact Or.inl same
      · exact Or.inr ⟨same, there⟩
  have status : ∀ u, u ≠ t → (s.setStatus t .idle).status u = s.status u :=
    fun u different => status_setStatus_of_ne s .idle different
  refine ⟨?_, ?_, ?_, inside.off, inside.outer, inside.nested, inside.plain, inside.pending⟩
  · refine ⟨queued ▸ (inside.queues.apart.leave line).join gone, fun u => ?_,
      inside.queues.allocated, fun u alive => ?_, fun i u found => ?_, fun u member different => ?_,
      fun v u member => ?_, inside.queues.paired⟩
    · exact (inside.queues.live u).trans (placed u).symm
    · have index := inside.queues.index u alive
      rw [← id_setStatus s t u .idle] at index
      exact index
    · have index := inside.queues.indexed i u found
      rw [← id_setStatus s t u .idle] at index
      exact index
    · change u ∈ q.threads at member
      rw [ready, List.mem_append, List.mem_singleton] at member
      by_cases same : u = t
      · subst same
        exact Or.inr ((suspended.setStatus .idle).congr rfl rfl rfl)
      · exact off_congr (inside.queues.ready u (member.resolve_right same) different)
          (status u same) (context_setStatus s t u .idle) rfl
    · have before : u ∈ s.waiting v ∧ u ≠ t := by
        have line' := congrFun queued (some v)
        change State.waiting _ v = _ at line'
        rw [line', Function.update_of_ne (Option.some_ne_none v)] at member
        obtain ⟨different, _⟩ := (inside.queues.apart.placed_leave line).mp ⟨some v, member⟩
        refine ⟨?_, different⟩
        by_cases same : v = w
        · subst same
          rw [Function.update_self] at member
          simp [first, member]
        · rwa [Function.update_of_ne fun equal => same (Option.some.inj equal)] at member
      exact (inside.queues.waiting v u before.1).congr (status u before.2)
        (context_setStatus s t u .idle) rfl
  · change q.threads.head? = some s.running
    rw [ready, List.head?_append, inside.head]
    rfl
  · change (s.setStatus t .idle).status s.running = .new ∨
      (s.setStatus t .idle).status s.running = .run
    rw [status _ other]
    exact inside.active

end Inside

theorem Queues.exited {except : Option Nat} (queues : s.Queues except)
    (one : s.ready.Perm (t :: q.threads)) :
    (({ s with readyQueue := q }.setIndex (s.id t) none).happened (.exited t)).Queues except := by
  have there : t ∈ s.ready := one.mem_iff.mpr List.mem_cons_self
  have alive : Live t s.log := (queues.live t).mpr ⟨none, there⟩
  have queued : (({ s with readyQueue := q }.setIndex (s.id t) none).happened (.exited t)).queued =
      Function.update s.queued none q.threads := queued_setReady s q
  have indexed : ∀ u, Live u s.log → u ≠ t → (s.id u).toNat ≠ (s.id t).toNat := by
    intro u alive' other same
    have here := (queues.index t alive).2.2
    rw [← same, (queues.index u alive').2.2] at here
    exact other (Option.some.inj here)
  have line : (s.queued none).Perm (t :: q.threads) := one
  have subset : ∀ u ∈ q.threads, u ∈ s.ready :=
    fun u member => one.mem_iff.mpr (List.mem_cons_of_mem _ member)
  refine ⟨?_, fun u => ?_, fun u alive' => queues.allocated u alive'.2, fun u alive' => ?_,
    fun i u found => ?_, fun u member other => ?_, fun w u member => ?_, queues.paired⟩
  · rw [queued]
    exact queues.apart.leave line
  · rw [queued, queues.apart.placed_leave line, ← queues.live u]
    exact and_congr_left fun _ => ne_comm
  · obtain ⟨lower, upper, here⟩ := queues.index u alive'.2
    refine ⟨lower, upper, ?_⟩
    exact (Function.update_of_ne (indexed u alive'.2 alive'.1.symm) _ _).trans here
  · change Function.update s.readyQueueIndex (s.id t).toNat none i = some u at found
    by_cases same : i = (s.id t).toNat
    · rw [same, Function.update_self] at found
      cases found
    · rw [Function.update_of_ne same] at found
      obtain ⟨alive', id⟩ := queues.indexed i u found
      refine ⟨⟨fun equal => same ?_, alive'⟩, id⟩
      rw [equal, id]
      rfl
  · exact off_congr (queues.ready u (subset u member) other) rfl rfl rfl
  · exact (queues.waiting w u member).congr rfl rfl rfl

/-- The queue of the threads that have exited does not matter. -/
theorem Queues.putAside {except : Option Nat} (queues : s.Queues except) (q : ThreadQueue) :
    { s with exitQueue := q }.Queues except :=
  ⟨queues.apart, queues.live, queues.allocated, queues.index, queues.indexed,
    fun t member other => off_congr (queues.ready t member other) rfl rfl rfl,
    fun w t member => (queues.waiting w t member).congr rfl rfl rfl, queues.paired⟩

theorem Queues.vacated (queues : s.Queues (some t)) (gone : t ∉ s.ready) : s.Queues none :=
  { queues with
    ready := fun u member _ => queues.ready u member fun same =>
      gone (Option.some.inj same ▸ member) }

section Create

def born (s : State) (t : Nat) (id : Nat) (q : ThreadQueue) : State :=
  { { { s with allocated := Function.update s.allocated t true } with
      threads := Function.update s.threads t
        ⟨id, ⟨[.stub], s.enabled⟩, .new, some newStack⟩ }.setIndex id (some t) with
    readyQueue := q }.happened (.created t)

variable {i : Nat} {u : Nat}

theorem born_thread : (s.born t i q).threads t = ⟨i, ⟨[.stub], s.enabled⟩, .new, some newStack⟩ :=
  Function.update_self _ _ _

theorem born_thread_of_ne (other : u ≠ t) : (s.born t i q).threads u = s.threads u :=
  Function.update_of_ne other _ _

theorem born_status_of_ne (other : u ≠ t) : (s.born t i q).status u = s.status u :=
  congrArg Thread.status (born_thread_of_ne other)

theorem born_context_of_ne (other : u ≠ t) : (s.born t i q).context u = s.context u :=
  congrArg Thread.context (born_thread_of_ne other)

theorem born_id : (s.born t i q).id t = i := congrArg Thread.iID born_thread

theorem born_id_of_ne (other : u ≠ t) : (s.born t i q).id u = s.id u :=
  congrArg Thread.iID (born_thread_of_ne other)

theorem born_index : (s.born t i q).readyQueueIndex i = some t := Function.update_self _ _ _

theorem born_index_of_ne {j : Nat} (other : j ≠ i) :
    (s.born t i q).readyQueueIndex j = s.readyQueueIndex j := Function.update_of_ne other _ _

theorem queued_born (ready : q.threads = s.ready ++ [t]) :
    (s.born t i q).queued = Function.update s.queued none (s.queued none ++ [t]) := by
  rw [← show q.threads = s.queued none ++ [t] from ready]
  exact queued_setReady s q

theorem pending_born (paired : Threads.pending t s.log ≠ none) :
    Threads.pending t (s.born t i q).log = some [] := by
  obtain ⟨list, some⟩ := Option.ne_none_iff_exists'.mp paired
  change Threads.pending t (.created t :: s.log) = _
  rw [Threads.pending, if_pos rfl, some]
  rfl

theorem Queues.not_live {except : Option Nat} (queues : s.Queues except)
    (fresh : s.allocated t = false) : ¬ Live t s.log := by
  intro alive
  have held := queues.allocated t alive
  rw [fresh] at held
  cases held

theorem Queues.born {except : Option Nat} (queues : s.Queues except) (off : s.enabled = false)
    (fresh : s.allocated t = false) (unused : s.readyQueueIndex i = none)
    (below : i < threadMaxThreads) (ready : q.threads = s.ready ++ [t]) :
    (s.born t i q).Queues except := by
  have dead := queues.not_live fresh
  have absent : ¬ Placed s.queued t := fun there => dead ((queues.live t).mpr there)
  have queued := queued_born (i := i) ready
  refine ⟨queued ▸ queues.apart.join absent, fun u => ?_, fun u alive => ?_, fun u alive => ?_,
    fun j u found => ?_, fun u member different => ?_, fun w u member => ?_, fun u => ?_⟩
  · rw [queued, placed_join, ← queues.live u]
    exact or_congr_left eq_comm
  · by_cases this : u = t
    · rw [this]
      exact Function.update_self _ _ _
    · have old := queues.allocated u (alive.resolve_left (Ne.symm this))
      exact (Function.update_of_ne this _ _).trans old
  · by_cases this : u = t
    · rw [this, born_id]
      exact ⟨by omega, by omega, born_index⟩
    · obtain ⟨lower, upper, here⟩ := queues.index u (alive.resolve_left (Ne.symm this))
      have different : (s.id u).toNat ≠ i := fun equal => by
        rw [equal, unused] at here
        cases here
      rw [born_id_of_ne this]
      exact ⟨lower, upper, (born_index_of_ne different).trans here⟩
  · by_cases this : j = i
    · rw [this, born_index] at found
      obtain rfl := Option.some.inj found
      exact ⟨Or.inl rfl, this ▸ born_id⟩
    · rw [born_index_of_ne this] at found
      obtain ⟨alive, id⟩ := queues.indexed j u found
      have different : u ≠ t := fun equal => dead (equal ▸ alive)
      exact ⟨Or.inr alive, (born_id_of_ne different).trans id⟩
  · by_cases this : u = t
    · have begins := pending_born (i := i) (q := q) (queues.paired t)
      have context := congrArg Thread.context (born_thread (s := s) (t := t) (i := i) (q := q))
      rw [off] at context
      rw [this]
      exact Or.inl ⟨congrArg Thread.status born_thread, context, begins⟩
    · change u ∈ q.threads at member
      rw [ready, List.mem_append, List.mem_singleton] at member
      exact off_congr (queues.ready u (member.resolve_right this) different)
        (born_status_of_ne this) (born_context_of_ne this) (pending_created_of_ne this)
  · have different : u ≠ t := fun same => absent (same ▸ ⟨some w, member⟩)
    exact (queues.waiting w u member).congr (born_status_of_ne different)
      (born_context_of_ne different) (pending_created_of_ne different)
  · by_cases this : u = t
    · rw [this, pending_born (queues.paired t)]
      exact Option.some_ne_none []
    · rw [show Threads.pending u (s.born t i q).log = _ from pending_created_of_ne this]
      exact queues.paired u

/-- A thread is created under an identifier that is not in use. -/
theorem Inside.born (inside : s.Inside c ie k) (fresh : s.allocated t = false)
    (unused : s.readyQueueIndex i = none) (below : i < threadMaxThreads)
    (ready : q.threads = s.ready ++ [t]) : (s.born t i q).Inside c ie k := by
  have running : s.running ≠ t := fun same => inside.queues.not_live fresh
    ((inside.queues.live t).mpr (same ▸ ⟨none, inside.mem_ready⟩))
  refine ⟨inside.queues.born inside.off fresh unused below ready, ?_, ?_, inside.off, inside.outer,
    inside.nested, inside.plain, (pending_created_of_ne running).trans inside.pending⟩
  · change q.threads.head? = some s.running
    rw [ready, List.head?_append, inside.head]
    rfl
  · change (s.born t i q).status s.running = .new ∨ (s.born t i q).status s.running = .run
    rw [born_status_of_ne running]
    exact inside.active

end Create

end Ece344Lab.Threads.State
