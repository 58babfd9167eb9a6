import Ece344Lab.Webserver.CacheRuns
import Ece344Lab.Webserver.Server

set_option autoImplicit false

/- The pins of a block are the requests that are using it. -/
namespace Ece344Lab.Webserver

open Linked Outcome

namespace ServerState

variable {n : Nat}

/-- A worker that has pinned a block has the name and the size of its file, and a file that was read
has a size. -/
def Agrees (es : List Entry) : Serving → Prop
  | .found _ data block | .sent data (some block) =>
      ∃ e ∈ es, e.block = block ∧ e.name = data.fileName ∧ e.data.fileSize = data.fileSize
  | .loaded _ data | .sent data none => 0 ≤ data.fileSize
  | _ => True

/-- The blocks in use are in the cache, and each is pinned once for each request. -/
structure Sound (s : ServerState n) (es : List Entry) : Prop where
  holds : s.cache.Holds es
  pinned : ∀ e ∈ es, e.pinned = s.pins e.block
  agrees : ∀ i, Agrees es (s.workers i)

/-- `Cache_insert` is not called for a file that was not found and is present now, or when it has to
insert into a table with a chain left to move whose keys belong apart. -/
def Orderly (i : Fin n) (s _ : ServerState n) : Prop :=
  ∀ data, s.workers i = .sent data none → ¬ s.cache.totalSize / 2 ≤ data.fileSize →
    hashTableFind s.cache.fileTable data.fileName = none ∧ s.cache.fileTable.Settled

theorem pins_setWorker (s : ServerState n) (i : Fin n) (w : Serving) (b : Nat) :
    (s.setWorker i w).pins b + (if (s.workers i).pins = some b then 1 else 0) =
      s.pins b + if w.pins = some b then 1 else 0 := by
  have member := Finset.mem_univ i
  unfold pins setWorker
  rw [← Finset.add_sum_erase _ _ member, ← Finset.add_sum_erase _
    (fun i => if (s.workers i).pins = some b then 1 else 0) member]
  simp only [Function.update_self]
  have others : ∀ j ∈ Finset.univ.erase i,
      (if (Function.update s.workers i w j).pins = some b then 1 else 0) =
        if (s.workers j).pins = some b then 1 else 0 :=
    fun j away => by rw [Function.update_of_ne (Finset.ne_of_mem_erase away)]
  rw [Finset.sum_congr rfl others]
  omega

theorem pins_same {s : ServerState n} {i : Fin n} {w : Serving}
    (same : w.pins = (s.workers i).pins) (b : Nat) : (s.setWorker i w).pins b = s.pins b := by
  have moved := s.pins_setWorker i w b
  rw [same] at moved
  omega

theorem pins_pos {s : ServerState n} {i : Fin n} {b : Nat} (pinned : (s.workers i).pins = some b) :
    0 < s.pins b := by
  have one := Finset.single_le_sum (f := fun i => if (s.workers i).pins = some b then 1 else 0)
    (fun j _ => Nat.zero_le _) (Finset.mem_univ i)
  rw [if_pos pinned] at one
  exact one

end ServerState

namespace ServerState

variable {n : Nat} {fileSets : Set Files} {s s' : ServerState n} {i : Fin n} {es es' : List Entry}

theorem Agrees.of_pins {w : Serving} (agrees : Agrees es w) {b : Nat} (pins : w.pins = some b) :
    ∃ e ∈ es, e.block = b := by
  cases w with
  | found rq data block =>
      obtain ⟨e, member, same, _⟩ := agrees
      exact ⟨e, member, same.trans (Option.some.inj pins)⟩
  | sent data block =>
      cases block with
      | none => cases pins
      | some block =>
          obtain ⟨e, member, same, _⟩ := agrees
          exact ⟨e, member, same.trans (Option.some.inj pins)⟩
  | _ => cases pins

theorem Agrees.entry {data : FileData} {block : Nat}
    (agrees : ∃ e ∈ es, e.block = block ∧ e.name = data.fileName ∧ e.data.fileSize = data.fileSize)
    (kept : ∀ e ∈ es, some block = some e.block →
      ∃ e' ∈ es', e'.block = e.block ∧ e'.data = e.data) :
    ∃ e ∈ es', e.block = block ∧ e.name = data.fileName ∧ e.data.fileSize = data.fileSize := by
  obtain ⟨e, member, same, name, size⟩ := agrees
  obtain ⟨e', member', same', data'⟩ := kept e member (congrArg some same.symm)
  exact ⟨e', member', same'.trans same, (congrArg FileData.fileName data').trans name,
    (congrArg FileData.fileSize data').trans size⟩

/-- The blocks a worker may have pinned are still there. -/
theorem Agrees.mono {w : Serving} (agrees : Agrees es w) (kept : ∀ e ∈ es, w.pins = some e.block →
    ∃ e' ∈ es', e'.block = e.block ∧ e'.data = e.data) : Agrees es' w := by
  cases w with
  | found rq data block => exact Agrees.entry agrees kept
  | sent data block =>
      cases block with
      | none => exact agrees
      | some block => exact Agrees.entry agrees kept
  | _ => exact agrees

theorem Sound.goOn (sound : s.Sound es) {w : Serving} (same : w.pins = (s.workers i).pins)
    (agrees : Agrees es w) {responses : List (HttpRequest × List Byte)} :
    Sound { s.setWorker i w with responses := responses } es where
  holds := sound.holds
  pinned e member := (sound.pinned e member).trans (congrArg _ (pins_same same e.block).symm)
  agrees j := by
    by_cases this : j = i
    · subst this
      change Agrees es (Function.update s.workers j w j)
      rw [Function.update_self]
      exact agrees
    · change Agrees es (Function.update s.workers i w j)
      rw [Function.update_of_ne this]
      exact sound.agrees j

/-- A worker changes the cache without losing a block in use. -/
theorem Sound.change (sound : s.Sound es) {w : Serving} {c : Cache} (holds : c.Holds es')
    (kept : ∀ j, j ≠ i → ∀ e ∈ es, (s.workers j).pins = some e.block →
      ∃ e' ∈ es', e'.block = e.block ∧ e'.data = e.data)
    (pinned : ∀ e ∈ es', e.pinned = (s.setWorker i w).pins e.block) (agrees : Agrees es' w) :
    Sound { s.setWorker i w with cache := c } es' where
  holds := holds
  pinned := pinned
  agrees j := by
    by_cases this : j = i
    · subst this
      change Agrees es' (Function.update s.workers j w j)
      rw [Function.update_self]
      exact agrees
    · change Agrees es' (Function.update s.workers i w j)
      rw [Function.update_of_ne this]
      exact (sound.agrees j).mono (kept j this)

theorem Sound.hit (sound : s.Sound es) {rq : HttpRequest} {data data' : FileData} {ret : Int}
    {cache : Cache} {block : Nat} (at' : s.workers i = .looking rq data)
    (lookup : cacheLookup s.cache data = .ok (ret, data', cache)) (success : ret ≠ 0)
    (found : hashTableFind s.cache.fileTable data.fileName = some block) :
    ∃ es', Sound { s.setWorker i (.found rq data' block) with cache := cache } es' := by
  by_cases miss : s.cache.totalSize / 2 ≤ data.fileSize ∨ data.fileName ∉ es.map Entry.name
  · rw [sound.holds.lookup_miss miss] at lookup
    exact absurd (congrArg Prod.fst (Except.ok.inj lookup)).symm success
  · rw [not_or, not_not] at miss
    obtain ⟨e, member, same⟩ := List.mem_map.mp miss.2
    obtain ⟨xs, ys, rfl⟩ := List.append_of_mem member
    obtain ⟨c', run, holds, _⟩ := sound.holds.lookup_hit miss.1 same.symm
    rw [run] at lookup
    obtain ⟨rfl, rfl, rfl⟩ := Prod.mk.inj (Except.ok.inj lookup)
    rw [(sound.holds.find_middle same.symm).1] at found
    obtain rfl := Option.some.inj found
    have split : ∀ f ∈ xs ++ e :: ys, f = e ∨ f ∈ xs ++ ys := by
      intro f there
      exact List.mem_cons.mp (List.perm_middle.mem_iff.mp there)
    refine ⟨_, sound.change holds ?_ ?_ ?_⟩
    · intro j _ f there _
      cases split f there with
      | inl here => exact ⟨_, List.mem_cons_self, by rw [here], by rw [here]⟩
      | inr other => exact ⟨f, List.mem_cons_of_mem _ other, rfl, rfl⟩
    · intro f there
      have counted := s.pins_setWorker i (.found rq
        { data with fileBuf := e.data.fileBuf, fileSize := e.data.fileSize } e.block)
      simp only [at', Serving.pins, reduceCtorEq, if_false, Option.some.injEq] at counted
      cases List.mem_cons.mp there with
      | inl new =>
          have before := sound.pinned e (by simp)
          have after := counted e.block
          rw [if_pos rfl] at after
          rw [new]
          dsimp only
          omega
      | inr other =>
          have before :=
            sound.pinned f (List.perm_middle.mem_iff.mpr (List.mem_cons_of_mem _ other))
          have distinct := holds.facts.apart other
          have after := counted f.block
          rw [if_neg fun equal => distinct equal.symm] at after
          omega
    · exact ⟨_, List.mem_cons_self, rfl, same, rfl⟩

theorem Sound.miss (sound : s.Sound es) {rq : HttpRequest} {data data' : FileData} {ret : Int}
    {cache : Cache} (at' : s.workers i = .looking rq data)
    (lookup : cacheLookup s.cache data = .ok (ret, data', cache)) (failure : ret = 0) :
    ∃ es', Sound { s.setWorker i (.reading rq data') with cache := cache } es' := by
  by_cases miss : s.cache.totalSize / 2 ≤ data.fileSize ∨ data.fileName ∉ es.map Entry.name
  · rw [sound.holds.lookup_miss miss] at lookup
    obtain ⟨rfl, rfl, rfl⟩ := Prod.mk.inj (Except.ok.inj lookup)
    have same : (Serving.reading rq data).pins = (s.workers i).pins := by rw [at']; rfl
    exact ⟨es, sound.change sound.holds (fun j _ e member _ => ⟨e, member, rfl, rfl⟩)
      (fun e member => (sound.pinned e member).trans (congrArg _ (pins_same same e.block).symm))
      trivial⟩
  · rw [not_or, not_not] at miss
    obtain ⟨e, member, same⟩ := List.mem_map.mp miss.2
    obtain ⟨xs, ys, rfl⟩ := List.append_of_mem member
    obtain ⟨c', run, _⟩ := sound.holds.lookup_hit miss.1 same.symm
    rw [run] at lookup
    have hit := congrArg Prod.fst (Except.ok.inj lookup)
    rw [failure] at hit
    cases hit

/-- A request that had found its block releases it. -/
theorem Sound.release (sound : s.Sound es) {data : FileData} {block : Nat} {ret : Int}
    {cache : Cache} (at' : s.workers i = .sent data (some block))
    (insert : cacheInsert s.cache data = .ok (ret, cache)) :
    ∃ es', Sound { s.setWorker i .idle with cache := cache } es' := by
  have agrees := sound.agrees i
  rw [at'] at agrees
  obtain ⟨e, member, rfl, same, size⟩ := agrees
  have small := sound.holds.facts.sizes e member
  obtain ⟨xs, ys, rfl⟩ := List.append_of_mem member
  obtain ⟨c', run, holds, _⟩ := sound.holds.insert_present
    (show ¬ s.cache.totalSize / 2 ≤ data.fileSize by omega) same.symm
  rw [run] at insert
  obtain ⟨rfl, rfl⟩ := Prod.mk.inj (Except.ok.inj insert)
  have counted := s.pins_setWorker i .idle
  simp only [at', Serving.pins, reduceCtorEq, if_false, Option.some.injEq] at counted
  refine ⟨_, sound.change holds ?_ ?_ trivial⟩
  · intro j _ f there _
    cases List.mem_cons.mp (List.perm_middle.mem_iff.mp there) with
    | inl here =>
      exact ⟨_, List.perm_middle.mem_iff.mpr List.mem_cons_self, by rw [here], by rw [here]⟩
    | inr other =>
        exact ⟨f, List.perm_middle.mem_iff.mpr (List.mem_cons_of_mem _ other), rfl, rfl⟩
  · intro f there
    cases List.mem_cons.mp (List.perm_middle.mem_iff.mp there) with
    | inl new =>
        have before := sound.pinned e member
        have after := counted e.block
        rw [if_pos rfl] at after
        rw [new]
        dsimp only
        omega
    | inr other =>
        have before := sound.pinned f (List.perm_middle.mem_iff.mpr (List.mem_cons_of_mem _ other))
        have distinct := (sound.holds.facts.perm List.perm_middle).apart other
        have after := counted f.block
        rw [if_neg fun equal => distinct equal.symm] at after
        omega

/-- A request that had not found its file inserts it; nothing in use is evicted. -/
theorem Sound.store (sound : s.Sound es) {data : FileData} {ret : Int} {cache : Cache}
    (at' : s.workers i = .sent data none) (orderly : Orderly i s s')
    (insert : cacheInsert s.cache data = .ok (ret, cache)) :
    ∃ es', Sound { s.setWorker i .idle with cache := cache } es' := by
  have nonneg := sound.agrees i
  rw [at'] at nonneg
  have same : Serving.idle.pins = (s.workers i).pins := by rw [at']; rfl
  by_cases large : s.cache.totalSize / 2 ≤ data.fileSize
  · rw [Cache.Holds.insert_large large] at insert
    obtain ⟨rfl, rfl⟩ := Prod.mk.inj (Except.ok.inj insert)
    exact ⟨es, sound.change sound.holds (fun j _ e member _ => ⟨e, member, rfl, rfl⟩)
      (fun e member => (sound.pinned e member).trans (congrArg _ (pins_same same e.block).symm))
      trivial⟩
  · obtain ⟨absent, settled⟩ := orderly data at' large
    rw [sound.holds.facts.find, blockOf_eq_none] at absent
    obtain ⟨ret', c', es', kept, gone, run, inserted⟩ :=
      sound.holds.insert_absent settled nonneg large absent
    rw [run] at insert
    obtain ⟨rfl, rfl⟩ := Prod.mk.inj (Except.ok.inj insert)
    have stays : ∀ j, ∀ e ∈ es, (s.workers j).pins = some e.block → e ∈ kept := by
      intro j e member pins
      cases List.mem_append.mp (inserted.perm.mem_iff.mp member) with
      | inl left => exact left
      | inr evicted =>
          have free := inserted.free e evicted
          have pinned := sound.pinned e member
          have used := pins_pos pins
          omega
    have old : ∀ e ∈ kept, e.pinned = (s.setWorker i .idle).pins e.block := by
      intro e member
      rw [pins_same same]
      exact sound.pinned e (inserted.perm.mem_iff.mpr (List.mem_append_left _ member))
    cases inserted.new with
    | inl none =>
        subst none
        exact ⟨es', sound.change inserted.holds
          (fun j _ e member pins => ⟨e, stays j e member pins, rfl, rfl⟩) old trivial⟩
    | inr new =>
        obtain ⟨linker, block, rfl⟩ := new
        refine ⟨_, sound.change inserted.holds (fun j _ e member pins =>
          ⟨e, List.mem_cons_of_mem _ (stays j e member pins), rfl, rfl⟩) ?_ trivial⟩
        intro e member
        cases List.mem_cons.mp member with
        | inl this =>
            rw [this, pins_same same]
            have unused : s.pins block = 0 := by
              apply Finset.sum_eq_zero
              intro j _
              apply if_neg
              intro pins
              obtain ⟨f, there, equal⟩ := (sound.agrees j).of_pins pins
              have inside := stays j f there (equal.symm ▸ pins)
              exact inserted.holds.facts.apart inside equal
            dsimp only
            rw [unused]
            rfl
        | inr later => exact old e later

/-- What a step does to the pins. -/
theorem Sound.step (sound : s.Sound es) (step : Step fileSets i s s') (orderly : Orderly i s s') :
    ∃ es', s'.Sound es' := by
  cases step with
  | refuse at' init => exact ⟨es, sound.holds, sound.pinned, sound.agrees⟩
  | @start rq sent data at' init =>
      have same : (Serving.looking rq data).pins = (s.workers i).pins := by rw [at']; rfl
      exact ⟨es, sound.goOn same trivial⟩
  | hit at' lookup success pinned => exact sound.hit at' lookup success pinned
  | miss at' lookup failure => exact sound.miss at' lookup failure
  | @unreadable rq data looks ret sent data' at' among read failure =>
      have same : Serving.idle.pins = (s.workers i).pins := by rw [at']; rfl
      exact ⟨es, sound.goOn same trivial⟩
  | @read rq data looks ret sent data' at' among read success =>
      have same : (Serving.loaded rq data').pins = (s.workers i).pins := by rw [at']; rfl
      exact ⟨es, sound.goOn same (requestReadfile_success read success).2.2.1⟩
  | @sendFound rq data block at' =>
      have same : (Serving.sent data (some block)).pins = (s.workers i).pins := by rw [at']; rfl
      have agrees := sound.agrees i
      rw [at'] at agrees
      exact ⟨es, sound.goOn same agrees⟩
  | @sendLoaded rq data at' =>
      have same : (Serving.sent data none).pins = (s.workers i).pins := by rw [at']; rfl
      have agrees := sound.agrees i
      rw [at'] at agrees
      exact ⟨es, sound.goOn same agrees⟩
  | @insert data block ret cache at' insert =>
      cases block with
      | none => exact sound.store at' orderly insert
      | some block => exact sound.release at' insert

theorem Run.sound {capacity : Int} (run : Run fileSets capacity Orderly s) : ∃ es, s.Sound es := by
  induction run with
  | initial => exact ⟨[], cacheInit_holds capacity, nofun, fun _ => trivial⟩
  | step before step held ih =>
      obtain ⟨es, sound⟩ := ih
      exact sound.step step held

end ServerState

/-- While every insertion is orderly, a cached block is pinned once for each request that has found
it and not yet released it, and a block that a request is using is in the cache. -/
theorem pinned_while_used {n : Nat} {fileSets : Set Files} {capacity : Int} {s : ServerState n}
    (run : s.Run fileSets capacity ServerState.Orderly) :
    ∃ es : List Entry,
      Forward s.cache.nameList.linkers s.cache.nameList.startLinker (es.map Entry.block) ∧
      (∀ e ∈ es, s.cache.blocks e.block = some ⟨s.pins e.block, some e.linker, e.data⟩) ∧
      ∀ i b, (s.workers i).pins = some b → b ∈ es.map Entry.block := by
  obtain ⟨es, sound⟩ := run.sound
  have forward := sound.holds.list.list.forward
  rw [List.map_map] at forward
  refine ⟨es, forward, ?_, ?_⟩
  · intro e member
    rw [← sound.pinned e member]
    exact sound.holds.facts.blocks e member
  · intro i b pins
    obtain ⟨e, member, same⟩ := (sound.agrees i).of_pins pins
    exact same ▸ List.mem_map_of_mem member

section TwoWorkers

open ServerState

variable {n : Nat} {s : ServerState n}

/-- What a worker puts into the cache is not in it yet, and no chain is left to move. -/
def Serving.calm (c : Cache) : Serving → Bool
  | .sent data none =>
      (hashTableFind c.fileTable data.fileName).isNone && c.fileTable.subBuffer.isNone
  | _ => true

theorem ServerState.Run.orderly {fileSets : Set Files} {capacity : Int}
    (run : s.Run fileSets capacity fun i s _ => (s.workers i).calm s.cache = true) :
    s.Run fileSets capacity Orderly := by
  induction run with
  | initial => exact .initial
  | step before step calm ih =>
      obtain ⟨es, sound⟩ := ih.sound
      refine ih.step step fun data at' _ => ?_
      rw [at'] at calm
      obtain ⟨absent, alone⟩ := Bool.and_eq_true_iff.mp calm
      exact ⟨Option.isNone_iff_eq_none.mp absent,
        sound.holds.facts.table.settled (Option.isNone_iff_eq_none.mp alone)⟩

/-- A worker stores a file, and another one finds it and is about to send it. -/
theorem pinned_while_used_hit : ∃ s : ServerState 2, (s.Run {oneByte} 10 Orderly ∧
    s.pins 0 = 1 ∧ s.cache.blocks 0 = some ⟨1, some 0, loadedA⟩) ∧
    ∃ es : List Entry,
      Forward s.cache.nameList.linkers s.cache.nameList.startLinker (es.map Entry.block) ∧
      (∀ e ∈ es, s.cache.blocks e.block = some ⟨s.pins e.block, some e.linker, e.data⟩) ∧
      ∀ i b, (s.workers i).pins = some b → b ∈ es.map Entry.block := by
  obtain ⟨s, run, facts⟩ : ∃ s : ServerState 2,
      s.Run {oneByte} 10 (fun i s _ => (s.workers i).calm s.cache = true) ∧
        (s.pins 0 = 1 ∧ s.cache.blocks 0 = some ⟨1, some 0, loadedA⟩) :=
    exists_run _ oneByte 10 ([0, 0, 0, 0, 0, 1, 1].map fun i => (i, getA)) (by decide +kernel)
  exact ⟨s, ⟨run.orderly, facts⟩, pinned_while_used run.orderly⟩

/-- Two workers miss the same file; the second to insert it takes away a pin that nobody has set. -/
theorem pin_below_zero : ∃ s : ServerState 2, s.Run {oneByte} 10 (fun _ _ _ => True) ∧
    ∃ block linker, hashTableFind s.cache.fileTable loadedA.fileName = some block ∧
      s.cache.blocks block = some ⟨-1, some linker, loadedA⟩ ∧ s.pins block = 0 := by
  obtain ⟨s, run, facts⟩ : ∃ s : ServerState 2, s.Run {oneByte} 10 (fun _ _ _ => True) ∧
      (hashTableFind s.cache.fileTable loadedA.fileName = some 0 ∧
        s.cache.blocks 0 = some ⟨-1, some 0, loadedA⟩ ∧ s.pins 0 = 0) :=
    exists_run _ oneByte 10 ([0, 1, 0, 1, 0, 1, 0, 1, 0, 1].map fun i => (i, getA))
      (by decide +kernel)
  exact ⟨s, run, 0, 0, facts⟩

end TwoWorkers

end Ece344Lab.Webserver
