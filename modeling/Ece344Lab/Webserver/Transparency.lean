import Ece344Lab.Webserver.CacheRuns
import Ece344Lab.Webserver.Server

set_option autoImplicit false

/- What is sent with the cache is what would be sent without it. -/
namespace Ece344Lab.Webserver

open Bytes Outcome

/-- A file that has not been read yet. -/
def FileData.unread (name : List Byte) : FileData := ⟨name, [], 0⟩

/-- What `request_readfile` makes of a name. -/
def ReadsTo (files : Files) (data : FileData) : Prop :=
  requestReadfile (.still files data.fileName) (.unread data.fileName) = .ok (1, [], data)

theorem requestInit_unread {rq : HttpRequest} {sent : List Byte} {data : FileData}
    (init : requestInit rq = .ok (sent, some data)) : data = .unread data.fileName := by
  unfold requestInit at init
  split at init
  · cases refused : requestError rq.method (text "501") (text "Not Implemented")
        (text "OS Web Server does not implement this method") with
    | error fault =>
        rw [refused] at init
        cases init
    | ok sent =>
        rw [refused] at init
        cases init
  · obtain ⟨_, same⟩ := Prod.mk.inj (Except.ok.inj init)
    rw [← Option.some.inj same]
    rfl

namespace ServerState

variable {n : Nat} {files : Files} {s s' : ServerState n} {i : Fin n} {es : List Entry}

/-- A worker has the file it was asked for, or is about to get it. -/
def Honest (files : Files) : Serving → Prop
  | .idle => True
  | .looking rq data | .reading rq data => ∃ sent, requestInit rq = .ok (sent, some data)
  | .found rq data _ | .loaded rq data =>
      (∃ sent, requestInit rq = .ok (sent, some (.unread data.fileName))) ∧ ReadsTo files data
  | .sent data _ => ReadsTo files data

/-- Every block holds the file of its name, and every response is the one sent without the cache. -/
structure Clear (files : Files) (s : ServerState n) (es : List Entry) : Prop where
  holds : s.cache.Holds es
  young : s.cache.fileTable.subBuffer = none
  stored : ∀ e ∈ es, ReadsTo files e.data
  workers : ∀ i, Honest files (s.workers i)
  responses : ∀ r ∈ s.responses, doServerRequestNocache files r.1 = .ok r.2

def Young (_ : Fin n) (_ s' : ServerState n) : Prop := s'.cache.fileTable.subBuffer = none

theorem nocache_loaded {rq : HttpRequest} {data : FileData} {sent : List Byte}
    (init : requestInit rq = .ok (sent, some (.unread data.fileName)))
    (reads : ReadsTo files data) :
    doServerRequestNocache files rq = .ok (requestSendfile data) := by
  unfold ReadsTo at reads
  unfold doServerRequestNocache
  rw [init, ok_bind]
  change (requestReadfile (.still files data.fileName) (.unread data.fileName) >>= _) = _
  rw [reads]
  rfl

theorem Clear.setWorker (clear : s.Clear files es) {w : Serving} (honest : Honest files w) :
    ∀ j, Honest files ((s.setWorker i w).workers j) := by
  intro j
  by_cases this : j = i
  · subst this
    change Honest files (Function.update s.workers j w j)
    rw [Function.update_self]
    exact honest
  · change Honest files (Function.update s.workers i w j)
    rw [Function.update_of_ne this]
    exact clear.workers j

theorem Clear.respond (clear : s.Clear files es) {rq : HttpRequest} {sent : List Byte}
    (right : doServerRequestNocache files rq = .ok sent) :
    ∀ r ∈ s.responses ++ [(rq, sent)], doServerRequestNocache files r.1 = .ok r.2 := by
  intro r member
  cases List.mem_append.mp member with
  | inl old => exact clear.responses r old
  | inr new =>
      rw [List.mem_singleton.mp new]
      exact right

theorem Clear.honest (clear : s.Clear files es) {w : Serving} (at' : s.workers i = w) :
    Honest files w := by
  rw [← at']
  exact clear.workers i

/-- Blocks whose data were in the cache before hold the files of their names. -/
theorem Clear.kept (clear : s.Clear files es) {es' : List Entry}
    (old : ∀ f ∈ es', ∃ g ∈ es, f.data = g.data) : ∀ f ∈ es', ReadsTo files f.data := by
  intro f there
  obtain ⟨g, here, equal⟩ := old f there
  rw [equal]
  exact clear.stored g here

theorem Clear.step (clear : s.Clear files es) (step : Step {files} i s s') (young : Young i s s') :
    ∃ es', s'.Clear files es' := by
  cases step with
  | @refuse rq sent at' init =>
      refine ⟨es, clear.holds, clear.young, clear.stored, clear.workers, clear.respond ?_⟩
      unfold doServerRequestNocache
      rw [init]
      rfl
  | @start rq sent data at' init =>
      exact ⟨es, clear.holds, clear.young, clear.stored, clear.setWorker ⟨sent, init⟩,
        clear.responses⟩
  | @hit rq data ret data' cache block at' lookup success pinned =>
      obtain ⟨sent, init⟩ := clear.honest at'
      obtain ⟨ret', data'', c', es', run, holds, table, _, old, ends⟩ := clear.holds.lookup data
      rw [lookup] at run
      obtain ⟨rfl, rfl, rfl⟩ := Prod.mk.inj (Except.ok.inj run)
      obtain ⟨_, e, member, same, _, rfl⟩ := ends.resolve_left fun miss => success miss.1
      have stored := clear.stored e member
      have whole :
          ({ data with fileBuf := e.data.fileBuf, fileSize := e.data.fileSize } : FileData) =
            e.data := by
        rw [← same]
        rfl
      have fresh := requestInit_unread init
      rw [fresh, ← same] at init
      rw [whole]
      exact ⟨es', holds, table.symm ▸ clear.young, clear.kept old,
        clear.setWorker ⟨⟨sent, init⟩, stored⟩, clear.responses⟩
  | @miss rq data ret data' cache at' lookup failure =>
      have honest := clear.honest at'
      obtain ⟨ret', data'', c', es', run, holds, table, _, old, ends⟩ := clear.holds.lookup data
      rw [lookup] at run
      obtain ⟨rfl, rfl, rfl⟩ := Prod.mk.inj (Except.ok.inj run)
      obtain ⟨_, rfl⟩ := ends.resolve_right fun hit => hit.1 failure
      exact ⟨es', holds, table.symm ▸ clear.young, clear.kept old, clear.setWorker honest,
        clear.responses⟩
  | @unreadable rq data looks ret sent data' at' among read failure =>
      have read := requestReadfile_still among read
      obtain ⟨sent', init⟩ := clear.honest at'
      refine ⟨es, clear.holds, clear.young, clear.stored, clear.setWorker trivial,
        clear.respond ?_⟩
      unfold doServerRequestNocache
      simp only [init, ok_bind, read, failure]
      rfl
  | @read rq data looks ret sent data' at' among read success =>
      have read := requestReadfile_still among read
      obtain ⟨sent', init⟩ := clear.honest at'
      obtain ⟨rfl, rfl, _, name⟩ := requestReadfile_success read success
      have fresh := requestInit_unread init
      rw [fresh, ← name] at init read
      exact ⟨es, clear.holds, clear.young, clear.stored, clear.setWorker ⟨⟨sent', init⟩, read⟩,
        clear.responses⟩
  | @sendFound rq data block at' =>
      obtain ⟨⟨sent, init⟩, reads⟩ := clear.honest at'
      exact ⟨es, clear.holds, clear.young, clear.stored, clear.setWorker reads,
        clear.respond (nocache_loaded init reads)⟩
  | @sendLoaded rq data at' =>
      obtain ⟨⟨sent, init⟩, reads⟩ := clear.honest at'
      exact ⟨es, clear.holds, clear.young, clear.stored, clear.setWorker reads,
        clear.respond (nocache_loaded init reads)⟩
  | @insert data block ret cache at' insert =>
      have reads : ReadsTo files data := clear.honest at'
      have nonneg := (requestReadfile_success reads (by decide)).2.2.1
      obtain ⟨ret', c', es', run, holds, _, old⟩ := clear.holds.insert clear.young nonneg
      rw [insert] at run
      obtain ⟨rfl, rfl⟩ := Prod.mk.inj (Except.ok.inj run)
      refine ⟨es', holds, young, ?_, clear.setWorker trivial, clear.responses⟩
      intro f there
      cases old f there with
      | inl new => exact new ▸ reads
      | inr before =>
          obtain ⟨g, here, equal⟩ := before
          rw [equal]
          exact clear.stored g here

theorem Run.clear {capacity : Int} (run : Run {files} capacity Young s) :
    ∃ es, s.Clear files es := by
  induction run with
  | initial => exact ⟨[], cacheInit_holds capacity, rfl, nofun, fun _ => trivial, nofun⟩
  | step before step held ih =>
      obtain ⟨es, clear⟩ := ih
      exact clear.step step held

/-- A worker is held up only by a request that also fails without the cache. -/
theorem Clear.progress (clear : s.Clear files es) (i : Fin n) (busy : s.workers i ≠ .idle) :
    (∃ s', Step {files} i s s') ∨
      ∃ rq data fault, s.workers i = .reading rq data ∧
        doServerRequestNocache files rq = .error fault := by
  have honest := clear.workers i
  cases at' : s.workers i with
  | idle => exact absurd at' busy
  | looking rq data =>
      obtain ⟨ret, data', c', es', run, _, _, _, _, ends⟩ := clear.holds.lookup data
      cases ends with
      | inl miss => exact Or.inl ⟨_, .miss at' run miss.1⟩
      | inr hit =>
          obtain ⟨success, e, _, _, found, _⟩ := hit
          exact Or.inl ⟨_, .hit at' run success found⟩
  | found rq data block => exact Or.inl ⟨_, .sendFound at'⟩
  | reading rq data =>
      rw [at'] at honest
      obtain ⟨sent, init⟩ := honest
      have among := Looks.still_among files data.fileName
      cases read : requestReadfile (.still files data.fileName) data with
      | ok r =>
          obtain ⟨ret, sent', data'⟩ := r
          by_cases failure : ret = 0
          · exact Or.inl ⟨_, .unreadable at' among read failure⟩
          · exact Or.inl ⟨_, .read at' among read failure⟩
      | error fault =>
          refine Or.inr ⟨rq, data, fault, rfl, ?_⟩
          unfold doServerRequestNocache
          simp only [init, ok_bind, read]
          rfl
  | loaded rq data => exact Or.inl ⟨_, .sendLoaded at'⟩
  | sent data block =>
      rw [at'] at honest
      have nonneg := (requestReadfile_success honest (by decide)).2.2.1
      obtain ⟨ret, c', es', run, _⟩ := clear.holds.insert clear.young nonneg
      exact Or.inl ⟨_, .insert at' run⟩

end ServerState

/-- With files that do not change, every response is the one that is sent without the cache, and a
worker goes on unless the request fails without the cache too. -/
theorem cache_transparent {n : Nat} {files : Files} {capacity : Int} {s : ServerState n}
    (run : s.Run {files} capacity ServerState.Young) :
    (∀ r ∈ s.responses, doServerRequestNocache files r.1 = .ok r.2) ∧
      ∀ i, s.workers i ≠ .idle → (∃ s', ServerState.Step {files} i s s') ∨
        ∃ rq data fault, s.workers i = .reading rq data ∧
          doServerRequestNocache files rq = .error fault := by
  obtain ⟨es, clear⟩ := run.clear
  exact ⟨clear.responses, clear.progress⟩

instance {n : Nat} (i : Fin n) (s s' : ServerState n) : Decidable (ServerState.Young i s s') :=
  decidable_of_iff (s'.cache.fileTable.subBuffer.isNone = true) Option.isNone_iff_eq_none

/-- Two workers are asked for the same file one after the other; the second finds it in the cache.
-/
theorem cache_transparent_hit : ∃ s : ServerState 2, (s.Run {oneByte} 10 ServerState.Young ∧
    s.responses = [(getA, requestSendfile loadedA), (getA, requestSendfile loadedA)] ∧
    (s.workers 1).pins = some 0 ∧ s.pins 0 = 1) ∧
      (∀ r ∈ s.responses, doServerRequestNocache oneByte r.1 = .ok r.2) ∧
      ∀ i, s.workers i ≠ .idle → (∃ s', ServerState.Step {oneByte} i s s') ∨
        ∃ rq data fault, s.workers i = .reading rq data ∧
          doServerRequestNocache oneByte rq = .error fault := by
  obtain ⟨s, run, facts⟩ : ∃ s : ServerState 2, s.Run {oneByte} 10 ServerState.Young ∧
      (s.responses = [(getA, requestSendfile loadedA), (getA, requestSendfile loadedA)] ∧
        (s.workers 1).pins = some 0 ∧ s.pins 0 = 1) :=
    ServerState.exists_run _ oneByte 10 ([0, 0, 0, 0, 0, 1, 1, 1].map fun i => (i, getA))
      (by decide +kernel)
  exact ⟨s, ⟨run, facts⟩, cache_transparent run⟩

end Ece344Lab.Webserver
