import Mathlib.Algebra.BigOperators.Group.Finset.Basic
import Mathlib.Data.Fintype.Basic
import Ece344Lab.Webserver.Request

set_option autoImplicit false

/- Workers serving requests with `do_server_request`. `Cache_lookup` and `Cache_insert` are atomic
under `m_lFileTableLock`; the other steps touch only what belongs to the worker. -/
namespace Ece344Lab.Webserver

open Bytes Outcome

/-- `do_server_request_nocache`: the bytes sent for a request, with files that do not change. -/
def doServerRequestNocache (files : Files) (rq : HttpRequest) : Except Fault (List Byte) := do
  let init ← requestInit rq
  match init.2 with
  | none => .ok init.1
  | some data => do
      let read ← requestReadfile (.still files data.fileName) data
      if read.1 = 0 then .ok read.2.1 else .ok (requestSendfile read.2.2)

/-- Where a worker is in `do_server_request`. A worker that found its file in the cache remembers
the block it pinned. -/
inductive Serving
  | idle
  /-- about to call `Cache_lookup` -/
  | looking (rq : HttpRequest) (data : FileData)
  /-- found, about to send the file -/
  | found (rq : HttpRequest) (data : FileData) (block : Nat)
  /-- not found, about to read the file -/
  | reading (rq : HttpRequest) (data : FileData)
  /-- read, about to send the file -/
  | loaded (rq : HttpRequest) (data : FileData)
  /-- about to call `Cache_insert` -/
  | sent (data : FileData) (block : Option Nat)

/-- The block that a worker has pinned in `Cache_lookup` and not yet released in `Cache_insert`. -/
def Serving.pins : Serving → Option Nat
  | .found _ _ block => some block
  | .sent _ block => block
  | _ => none

/-- The cache, the workers, and what has been sent for each request. -/
structure ServerState (n : Nat) where
  cache : Cache
  workers : Fin n → Serving
  responses : List (HttpRequest × List Byte)

namespace ServerState

variable {n : Nat}

def setWorker (s : ServerState n) (i : Fin n) (w : Serving) : ServerState n :=
  { s with workers := Function.update s.workers i w }

def pins (s : ServerState n) (block : Nat) : Nat :=
  ∑ i, if (s.workers i).pins = some block then 1 else 0

/-- After `server_init`, with a cache of some capacity. -/
def initial (n : Nat) (capacity : Int) : ServerState n where
  cache := cacheInit capacity
  workers _ := .idle
  responses := []

/-- One step of worker `i`, with files that may be any among `fileSets` whenever it looks at them.
-/
inductive Step (fileSets : Set Files) (i : Fin n) : ServerState n → ServerState n → Prop
  | refuse {s rq sent} (at' : s.workers i = .idle) (init : requestInit rq = .ok (sent, none)) :
      Step fileSets i s { s with responses := s.responses ++ [(rq, sent)] }
  | start {s rq sent data} (at' : s.workers i = .idle)
      (init : requestInit rq = .ok (sent, some data)) :
      Step fileSets i s (s.setWorker i (.looking rq data))
  | hit {s rq data ret data' cache block} (at' : s.workers i = .looking rq data)
      (lookup : cacheLookup s.cache data = .ok (ret, data', cache)) (success : ret ≠ 0)
      (pinned : hashTableFind s.cache.fileTable data.fileName = some block) :
      Step fileSets i s { s.setWorker i (.found rq data' block) with cache := cache }
  | miss {s rq data ret data' cache} (at' : s.workers i = .looking rq data)
      (lookup : cacheLookup s.cache data = .ok (ret, data', cache)) (failure : ret = 0) :
      Step fileSets i s { s.setWorker i (.reading rq data') with cache := cache }
  | unreadable {s rq data looks ret sent data'} (at' : s.workers i = .reading rq data)
      (among : looks.Among fileSets data.fileName)
      (read : requestReadfile looks data = .ok (ret, sent, data')) (failure : ret = 0) :
      Step fileSets i s { s.setWorker i .idle with responses := s.responses ++ [(rq, sent)] }
  | read {s rq data looks ret sent data'} (at' : s.workers i = .reading rq data)
      (among : looks.Among fileSets data.fileName)
      (read : requestReadfile looks data = .ok (ret, sent, data')) (success : ret ≠ 0) :
      Step fileSets i s (s.setWorker i (.loaded rq data'))
  | sendFound {s rq data block} (at' : s.workers i = .found rq data block) :
      Step fileSets i s { s.setWorker i (.sent data (some block)) with
        responses := s.responses ++ [(rq, requestSendfile data)] }
  | sendLoaded {s rq data} (at' : s.workers i = .loaded rq data) :
      Step fileSets i s { s.setWorker i (.sent data none) with
        responses := s.responses ++ [(rq, requestSendfile data)] }
  | insert {s data block ret cache} (at' : s.workers i = .sent data block)
      (insert : cacheInsert s.cache data = .ok (ret, cache)) :
      Step fileSets i s { s.setWorker i .idle with cache := cache }

/-- The states that steps satisfying `allowed` lead to. -/
inductive Run (fileSets : Set Files) (capacity : Int)
    (allowed : Fin n → ServerState n → ServerState n → Prop) : ServerState n → Prop
  | initial : Run fileSets capacity allowed (initial n capacity)
  | step {i s s'} (before : Run fileSets capacity allowed s) (step : Step fileSets i s s')
      (held : allowed i s s') : Run fileSets capacity allowed s'

section Replay

/-- A worker that makes the next step, with the request that comes to it when it is idle and what it
comes upon when it reads the file of a name. -/
structure Choice (n : Nat) where
  worker : Fin n
  request : HttpRequest
  looks : List Byte → Looks

/-- One step, as a function. -/
def act (c : Choice n) (s : ServerState n) : Except Fault (ServerState n) :=
  match s.workers c.worker with
  | .idle => do
      let init ← requestInit c.request
      match init.2 with
      | none => .ok { s with responses := s.responses ++ [(c.request, init.1)] }
      | some data => .ok (s.setWorker c.worker (.looking c.request data))
  | .looking rq data => do
      let (ret, data', cache) ← cacheLookup s.cache data
      if ret = 0 then .ok { s.setWorker c.worker (.reading rq data') with cache := cache }
      else
        match hashTableFind s.cache.fileTable data.fileName with
        | none => .error .undefined
        | some block => .ok { s.setWorker c.worker (.found rq data' block) with cache := cache }
  | .found rq data block =>
      .ok { s.setWorker c.worker (.sent data (some block)) with
        responses := s.responses ++ [(rq, requestSendfile data)] }
  | .reading rq data => do
      let (ret, sent, data') ← requestReadfile (c.looks data.fileName) data
      if ret = 0 then
        .ok { s.setWorker c.worker .idle with responses := s.responses ++ [(rq, sent)] }
      else .ok (s.setWorker c.worker (.loaded rq data'))
  | .loaded rq data =>
      .ok { s.setWorker c.worker (.sent data none) with
        responses := s.responses ++ [(rq, requestSendfile data)] }
  | .sent data _ => do
      let (_, cache) ← cacheInsert s.cache data
      .ok { s.setWorker c.worker .idle with cache := cache }

theorem act_step {fileSets : Set Files} {c : Choice n} {s s' : ServerState n}
    (among : ∀ name, (c.looks name).Among fileSets name) (acts : act c s = .ok s') :
    Step fileSets c.worker s s' := by
  unfold act at acts
  cases at' : s.workers c.worker with
  | idle =>
      rw [at'] at acts
      obtain ⟨⟨sent, data⟩, init, acts⟩ := ok_of_bind acts
      cases data with
      | none =>
          obtain rfl := Except.ok.inj acts
          exact .refuse at' init
      | some data =>
          obtain rfl := Except.ok.inj acts
          exact .start at' init
  | looking rq data =>
      rw [at'] at acts
      obtain ⟨⟨ret, data', cache⟩, lookup, acts⟩ := ok_of_bind acts
      dsimp only at acts
      split_ifs at acts with failure
      · obtain rfl := Except.ok.inj acts
        exact .miss at' lookup failure
      · cases pinned : hashTableFind s.cache.fileTable data.fileName with
        | none =>
            rw [pinned] at acts
            cases acts
        | some block =>
            rw [pinned] at acts
            obtain rfl := Except.ok.inj acts
            exact .hit at' lookup failure pinned
  | found rq data block =>
      rw [at'] at acts
      obtain rfl := Except.ok.inj acts
      exact .sendFound at'
  | reading rq data =>
      rw [at'] at acts
      obtain ⟨⟨ret, sent, data'⟩, read, acts⟩ := ok_of_bind acts
      dsimp only at acts
      split_ifs at acts with failure
      · obtain rfl := Except.ok.inj acts
        exact .unreadable at' (among _) read failure
      · obtain rfl := Except.ok.inj acts
        exact .read at' (among _) read failure
  | loaded rq data =>
      rw [at'] at acts
      obtain rfl := Except.ok.inj acts
      exact .sendLoaded at'
  | sent data block =>
      rw [at'] at acts
      obtain ⟨⟨ret, cache⟩, insert, acts⟩ := ok_of_bind acts
      obtain rfl := Except.ok.inj acts
      exact .insert at' insert

variable (allowed : Fin n → ServerState n → ServerState n → Prop)
  [∀ i s s', Decidable (allowed i s s')]

def replay : List (Choice n) → ServerState n → Except Fault (ServerState n)
  | [], s => .ok s
  | c :: choices, s => do
      let s' ← act c s
      if allowed c.worker s s' then replay choices s' else .error .undefined

theorem replay_run {fileSets : Set Files} {capacity : Int} {s s' : ServerState n}
    (choices : List (Choice n)) (run : Run fileSets capacity allowed s)
    (among : ∀ c ∈ choices, ∀ name, (c.looks name).Among fileSets name)
    (replays : replay allowed choices s = .ok s') : Run fileSets capacity allowed s' := by
  induction choices generalizing s with
  | nil =>
      obtain rfl := Except.ok.inj replays
      exact run
  | cons c choices ih =>
      unfold replay at replays
      obtain ⟨s₁, acts, replays⟩ := ok_of_bind replays
      split_ifs at replays with held
      exact ih (run.step (act_step (among c List.mem_cons_self) acts) held)
        (fun c' member => among c' (List.mem_cons_of_mem _ member)) replays

theorem exists_run (files : Files) (capacity : Int) (turns : List (Fin n × HttpRequest))
    {p : ServerState n → Prop}
    (replays : Returns (replay allowed (turns.map fun t => ⟨t.1, t.2, Looks.still files⟩)
      (initial n capacity)) p) :
    ∃ s, Run {files} capacity allowed s ∧ p s := by
  obtain ⟨s, ran, holds⟩ := replays
  refine ⟨s, replay_run allowed _ .initial (fun c member name => ?_) ran, holds⟩
  obtain ⟨t, _, rfl⟩ := List.mem_map.mp member
  exact Looks.still_among files name

end Replay

end ServerState

section OneByte

/-- Every name leads to a file of one byte. -/
def oneByte : Files := fun _ => some ⟨true, true, true, [1#8]⟩

def getA : HttpRequest := ⟨text "GET", text "a"⟩

def loadedA : FileData := ⟨text "./a", [1#8], 1⟩

end OneByte

end Ece344Lab.Webserver
