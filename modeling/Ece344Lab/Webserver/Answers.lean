import Ece344Lab.Webserver.Transparency

set_option autoImplicit false

/- What the server may send when the files change while it runs. -/
namespace Ece344Lab.Webserver

open Bytes Outcome

def Stood (among : Set Files) (name : List Byte) (file : File) : Prop :=
  ∃ files ∈ among, files name = some file

/-- What stands in a buffer came from the files: each byte stood in its place in one of them, up to
where one of them ended, or to the end of the buffer. -/
def FromFiles (among : Set Files) (name buf : List Byte) : Prop :=
  ∃ got ≤ buf.length, (∀ p < got, ∃ file, Stood among name file ∧ file.content[p]? = buf[p]?) ∧
    (got < buf.length → ∃ file, Stood among name file ∧ file.content.length ≤ got)

/-- Data that `request_readfile` reads while the files are among `among`. -/
structure Permitted (among : Set Files) (data : FileData) : Prop where
  relative : data.fileName.head? ≠ some 47#8
  inside : ¬ text ".." <:+: data.fileName
  plain : strrchr 46#8 data.fileName ≠ some (text ".c") ∧
    strrchr 46#8 data.fileName ≠ some (text ".h")
  found : ∃ file, Stood among data.fileName file ∧ file.isReg = true ∧ file.isReadable = true ∧
    data.fileSize = toInt file.content.length
  length : (data.fileBuf.length : Int) = data.fileSize
  bytes : FromFiles among data.fileName data.fileBuf

/-- What may be sent for a request when the files are among `among`. -/
inductive Answer (among : Set Files) (rq : HttpRequest) : List Byte → Prop
  | method {sent} (other : rq.method.map lower ≠ (text "GET").map lower)
      (page : requestError rq.method (text "501") (text "Not Implemented")
        (text "OS Web Server does not implement this method") = .ok sent) : Answer among rq sent
  | refused {sent errnum shortmsg longmsg} (get : rq.method.map lower = (text "GET").map lower)
      (kind : errnum = text "404" ∧ shortmsg = text "Not found" ∨
        errnum = text "403" ∧ shortmsg = text "Forbidden")
      (page : requestError (requestParseURI rq.uri maxLine) errnum shortmsg longmsg = .ok sent) :
      Answer among rq sent
  | file {data} (get : rq.method.map lower = (text "GET").map lower)
      (name : data.fileName = requestParseURI rq.uri maxLine) (permitted : Permitted among data) :
      Answer among rq (requestSendfile data)

section Reading

variable {among : Set Files} {looks : Looks} {rq : HttpRequest} {sent : List Byte}
  {data data' : FileData} {ret : Int}

/-- The buffer of a file is as long as `stat` has said, whatever `read` gives. -/
theorem Looks.length_buffer (looks : Looks) {size : Nat} {bytes : List Byte}
    (fits : bytes.length ≤ size) : (looks.buffer size bytes).length = size := by
  unfold Looks.buffer
  rw [List.length_append, List.length_map, List.length_range]
  omega

theorem ReadFrom.fromFiles {size : Nat} {name bytes : List Byte} (looked : looks.Among among name)
    (read : ReadFrom size [] looks.reads bytes) :
    FromFiles among name (looks.buffer size bytes) := by
  have upper : bytes.length ≤ size := by simpa using read.length
  have length := looks.length_buffer upper
  have stood : ∀ r ∈ looks.reads, ∃ file, Stood among name file ∧ r.1 = file.content := by
    intro r member
    obtain ⟨files, held, file, found, same⟩ := looked.reads r member
    exact ⟨file, ⟨files, held, found⟩, same⟩
  refine ⟨bytes.length, length.symm ▸ upper, fun p inside => ?_, fun few => ?_⟩
  · obtain ⟨r, member, same⟩ := read.found p (Nat.zero_le p) inside
    obtain ⟨file, held, content⟩ := stood r member
    refine ⟨file, held, ?_⟩
    unfold Looks.buffer
    rw [List.getElem?_append_left inside, ← content, same]
  · rw [length] at few
    obtain ⟨r, member, ends⟩ := read.short (by simpa using few)
    obtain ⟨file, held, content⟩ := stood r member
    exact ⟨file, held, content ▸ ends⟩

/-- `request_readfile` refuses a file with an error page or reads a permitted one. -/
theorem requestReadfile_cases (looked : looks.Among among data.fileName)
    (read : requestReadfile looks data = .ok (ret, sent, data')) (fresh : data.fileBuf = []) :
    ret = 0 ∧ (∃ errnum shortmsg longmsg, (errnum = text "404" ∧ shortmsg = text "Not found" ∨
        errnum = text "403" ∧ shortmsg = text "Forbidden") ∧
      requestError data.fileName errnum shortmsg longmsg = .ok sent) ∨
    ret ≠ 0 ∧ Permitted among data' ∧ data'.fileName = data.fileName := by
  have refused : ∀ errnum shortmsg longmsg, (errnum = text "404" ∧ shortmsg = text "Not found" ∨
        errnum = text "403" ∧ shortmsg = text "Forbidden") →
      (requestError data.fileName errnum shortmsg longmsg >>= fun sent =>
        (.ok (0, sent, data) : Except Fault (Int × List Byte × FileData))) =
          .ok (ret, sent, data') →
      ret = 0 ∧ ∃ errnum shortmsg longmsg, (errnum = text "404" ∧ shortmsg = text "Not found" ∨
        errnum = text "403" ∧ shortmsg = text "Forbidden") ∧
        requestError data.fileName errnum shortmsg longmsg = .ok sent := by
    intro errnum shortmsg longmsg kind same
    obtain ⟨page, made, last⟩ := ok_of_bind same
    obtain ⟨none, rest⟩ := Prod.mk.inj (Except.ok.inj last)
    rw [(Prod.mk.inj rest).1] at made
    exact ⟨none.symm, errnum, shortmsg, longmsg, kind, made⟩
  unfold requestReadfile at read
  dsimp only at read
  split_ifs at read with absolute dots ext
  · exact Or.inl (refused _ _ _ (Or.inl ⟨rfl, rfl⟩) read)
  · exact Or.inl (refused _ _ _ (Or.inl ⟨rfl, rfl⟩) read)
  · exact Or.inl (refused _ _ _ (Or.inl ⟨rfl, rfl⟩) read)
  · rw [not_or] at ext
    cases found : looks.stat data.fileName with
    | none =>
        rw [found] at read
        exact Or.inl (refused _ _ _ (Or.inl ⟨rfl, rfl⟩) read)
    | some file =>
        have stood : Stood among data.fileName file := ⟨looks.stat, looked.stat, found⟩
        rw [found] at read
        dsimp only at read
        generalize size : toInt file.content.length = fileSize at read
        split_ifs at read with forbidden some bad
        · exact Or.inl (refused _ _ _ (Or.inr ⟨rfl, rfl⟩) read)
        · obtain ⟨bytes, given, read⟩ := ok_of_bind read
          obtain ⟨one, rest⟩ := Prod.mk.inj (Except.ok.inj read)
          obtain ⟨_, rfl⟩ := Prod.mk.inj rest
          simp only [not_or, not_not] at forbidden bad
          have whole := rioRead_from looks.reads _ [] given
          have length := looks.length_buffer (by simpa using whole.length)
          refine Or.inr ⟨by omega, ⟨absolute, dots, ext, ?_, ?_, whole.fromFiles looked⟩, rfl⟩
          · exact ⟨file, stood, forbidden.1, forbidden.2, size.symm⟩
          · change ((looks.buffer fileSize.toNat bytes).length : Int) = fileSize
            omega
        · obtain ⟨one, rest⟩ := Prod.mk.inj (Except.ok.inj read)
          obtain ⟨_, rfl⟩ := Prod.mk.inj rest
          simp only [not_or, not_not] at forbidden some
          refine Or.inr ⟨by omega, ⟨absolute, dots, ext, ?_, ?_, ?_⟩, rfl⟩
          · exact ⟨file, stood, forbidden.1, forbidden.2, size.symm⟩
          · change (data.fileBuf.length : Int) = fileSize
            rw [fresh, some]
            rfl
          · change FromFiles among data.fileName data.fileBuf
            rw [fresh]
            exact ⟨0, Nat.le_refl 0, nofun, nofun⟩

theorem requestInit_none (init : requestInit rq = .ok (sent, none)) (among : Set Files) :
    Answer among rq sent := by
  unfold requestInit at init
  split_ifs at init with other
  · obtain ⟨page, made, same⟩ := ok_of_bind init
    rw [(Prod.mk.inj (Except.ok.inj same)).1] at made
    exact .method other made
  · cases (Prod.mk.inj (Except.ok.inj init)).2

theorem requestInit_some (init : requestInit rq = .ok (sent, some data)) :
    rq.method.map lower = (text "GET").map lower ∧
      data = .unread (requestParseURI rq.uri maxLine) := by
  unfold requestInit at init
  split_ifs at init with other
  · obtain ⟨page, made, same⟩ := ok_of_bind init
    cases (Prod.mk.inj (Except.ok.inj same)).2
  · exact ⟨not_not.mp other, (Option.some.inj (Prod.mk.inj (Except.ok.inj init)).2).symm⟩

end Reading

namespace ServerState

variable {n : Nat} {among : Set Files} {s s' : ServerState n} {i : Fin n} {es : List Entry}

/-- A worker has data for its request, or is about to get them. -/
def Entitled (among : Set Files) : Serving → Prop
  | .idle => True
  | .looking rq data | .reading rq data => ∃ sent, requestInit rq = .ok (sent, some data)
  | .found rq data _ | .loaded rq data =>
      (∃ sent, requestInit rq = .ok (sent, some (.unread data.fileName))) ∧ Permitted among data
  | .sent data _ => Permitted among data

/-- Nothing is in the cache or on the way to a client that the files never held. -/
structure Guarded (among : Set Files) (s : ServerState n) (es : List Entry) : Prop where
  holds : s.cache.Holds es
  young : s.cache.fileTable.subBuffer = none
  stored : ∀ e ∈ es, Permitted among e.data
  workers : ∀ i, Entitled among (s.workers i)
  responses : ∀ r ∈ s.responses, Answer among r.1 r.2

theorem Guarded.setWorker (guarded : s.Guarded among es) {w : Serving}
    (entitled : Entitled among w) :
    ∀ j, Entitled among ((s.setWorker i w).workers j) := by
  intro j
  by_cases this : j = i
  · subst this
    change Entitled among (Function.update s.workers j w j)
    rw [Function.update_self]
    exact entitled
  · change Entitled among (Function.update s.workers i w j)
    rw [Function.update_of_ne this]
    exact guarded.workers j

theorem Guarded.entitled (guarded : s.Guarded among es) {w : Serving} (at' : s.workers i = w) :
    Entitled among w := by
  rw [← at']
  exact guarded.workers i

theorem Guarded.respond (guarded : s.Guarded among es) {rq : HttpRequest} {sent : List Byte}
    (answer : Answer among rq sent) : ∀ r ∈ s.responses ++ [(rq, sent)], Answer among r.1 r.2 := by
  intro r member
  rcases List.mem_append.mp member with old | new
  · exact guarded.responses r old
  · rw [List.mem_singleton.mp new]
    exact answer

/-- A file that a worker has for its request is an answer to it. -/
theorem Permitted.answer {rq : HttpRequest} {data : FileData} {sent : List Byte}
    (sourced : Permitted among data)
    (init : requestInit rq = .ok (sent, some (.unread data.fileName))) :
    Answer among rq (requestSendfile data) := by
  obtain ⟨get, same⟩ := requestInit_some init
  exact .file get (congrArg FileData.fileName same) sourced

theorem Guarded.kept (guarded : s.Guarded among es) {es' : List Entry}
    (old : ∀ f ∈ es', ∃ g ∈ es, f.data = g.data) : ∀ f ∈ es', Permitted among f.data := by
  intro f there
  obtain ⟨g, here, equal⟩ := old f there
  rw [equal]
  exact guarded.stored g here

/-- One step; a case for each place of the worker. -/
theorem Guarded.step (guarded : s.Guarded among es) (step : Step among i s s')
    (young : Young i s s') :
    ∃ es', s'.Guarded among es' := by
  cases step with
  | @refuse rq sent at' init =>
      exact ⟨es, guarded.holds, guarded.young, guarded.stored, guarded.workers,
        guarded.respond (requestInit_none init among)⟩
  | @start rq sent data at' init =>
      exact ⟨es, guarded.holds, guarded.young, guarded.stored, guarded.setWorker ⟨sent, init⟩,
        guarded.responses⟩
  | @hit rq data ret data' cache block at' lookup success pinned =>
      obtain ⟨sent, init⟩ := guarded.entitled at'
      obtain ⟨ret', data'', c', es', run, holds, table, _, old, ends⟩ := guarded.holds.lookup data
      rw [lookup] at run
      obtain ⟨rfl, rfl, rfl⟩ := Prod.mk.inj (Except.ok.inj run)
      obtain ⟨_, e, member, same, _, rfl⟩ := ends.resolve_left fun miss => success miss.1
      have whole :
          ({ data with fileBuf := e.data.fileBuf, fileSize := e.data.fileSize } : FileData) =
            e.data := by
        rw [← same]
        rfl
      have fresh := requestInit_unread init
      rw [fresh, ← same] at init
      rw [whole]
      exact ⟨es', holds, table.symm ▸ guarded.young, guarded.kept old,
        guarded.setWorker ⟨⟨sent, init⟩, guarded.stored e member⟩, guarded.responses⟩
  | @miss rq data ret data' cache at' lookup failure =>
      have entitled := guarded.entitled at'
      obtain ⟨ret', data'', c', es', run, holds, table, _, old, ends⟩ := guarded.holds.lookup data
      rw [lookup] at run
      obtain ⟨rfl, rfl, rfl⟩ := Prod.mk.inj (Except.ok.inj run)
      obtain ⟨_, rfl⟩ := ends.resolve_right fun hit => hit.1 failure
      exact ⟨es', holds, table.symm ▸ guarded.young, guarded.kept old, guarded.setWorker entitled,
        guarded.responses⟩
  | @unreadable rq data looks ret sent data' at' looked read failure =>
      obtain ⟨sent', init⟩ := guarded.entitled at'
      obtain ⟨get, rfl⟩ := requestInit_some init
      rcases requestReadfile_cases looked read rfl with
        ⟨_, errnum, shortmsg, longmsg, kind, page⟩ | ⟨success, _⟩
      · exact ⟨es, guarded.holds, guarded.young, guarded.stored, guarded.setWorker trivial,
          guarded.respond (.refused get kind page)⟩
      · exact absurd failure success
  | @read rq data looks ret sent data' at' looked read success =>
      obtain ⟨sent', init⟩ := guarded.entitled at'
      obtain ⟨_, rfl⟩ := requestInit_some init
      rcases requestReadfile_cases looked read rfl with ⟨failure, _⟩ | ⟨_, permitted, name⟩
      · exact absurd failure success
      · have init' : requestInit rq = .ok (sent', some (.unread data'.fileName)) := by
          rw [name]
          exact init
        exact ⟨es, guarded.holds, guarded.young, guarded.stored,
          guarded.setWorker ⟨⟨sent', init'⟩, permitted⟩, guarded.responses⟩
  | @sendFound rq data block at' =>
      obtain ⟨⟨sent, init⟩, sourced⟩ := guarded.entitled at'
      exact ⟨es, guarded.holds, guarded.young, guarded.stored, guarded.setWorker sourced,
        guarded.respond (Permitted.answer sourced init)⟩
  | @sendLoaded rq data at' =>
      obtain ⟨⟨sent, init⟩, sourced⟩ := guarded.entitled at'
      exact ⟨es, guarded.holds, guarded.young, guarded.stored, guarded.setWorker sourced,
        guarded.respond (Permitted.answer sourced init)⟩
  | @insert data block ret cache at' insert =>
      have sourced : Permitted among data := guarded.entitled at'
      have nonneg : 0 ≤ data.fileSize := sourced.length ▸ Int.natCast_nonneg _
      obtain ⟨ret', c', es', run, holds, _, old⟩ := guarded.holds.insert guarded.young nonneg
      rw [insert] at run
      obtain ⟨rfl, rfl⟩ := Prod.mk.inj (Except.ok.inj run)
      refine ⟨es', holds, young, ?_, guarded.setWorker trivial, guarded.responses⟩
      intro f there
      rcases old f there with new | ⟨g, here, equal⟩
      · exact new ▸ sourced
      · rw [equal]
        exact guarded.stored g here

theorem Run.guarded {capacity : Int} (run : Run among capacity Young s) :
    ∃ es, s.Guarded among es := by
  induction run with
  | initial => exact ⟨[], cacheInit_holds capacity, rfl, nofun, fun _ => trivial, nofun⟩
  | step before step held ih =>
      obtain ⟨es, guarded⟩ := ih
      exact guarded.step step held

end ServerState

section Changing

end Changing

end Ece344Lab.Webserver
