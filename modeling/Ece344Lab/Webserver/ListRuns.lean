import Ece344Lab.Webserver.LinkerListFacts
import Mathlib.Data.List.Perm.Basic

set_option autoImplicit false

/- All lists of the server in one memory, over any sequence of operations on them. -/
namespace Ece344Lab.Webserver

open Linked Outcome

/-- `List`, without the memory that its pointers lead to. -/
structure Header where
  startLinker : Option Nat
  endLinker : Option Nat
  size : Int

/-- The linkers that have been allocated, and the lists. -/
structure Lists where
  linkers : Heap Nat
  list : Nat → Option Header

/-- A list in its memory. `malloc` gives `newlinker` next. -/
def Header.at (h : Header) (linkers : Heap Nat) (newlinker : Nat) : LinkerList :=
  ⟨h.startLinker, h.endLinker, h.size, linkers, newlinker⟩

def LinkerList.header (l : LinkerList) : Header := ⟨l.startLinker, l.endLinker, l.size⟩

/-- The operations, with the lists they are for, what `malloc` gives and what is stored. -/
inductive ListOp
  | new (list : Nat)
  | push (list newlinker p : Nat)
  | put (list newlinker p : Nat)
  | pop (list : Nat)
  | pull (list : Nat)
  | pmovetop (list pos : Nat)
  | concatenate (list1 list2 : Nat)
  | delete (list : Nat) (test : Nat → Bool)

namespace Lists

def get (s : Lists) (i newlinker : Nat) : Except Fault LinkerList :=
  match s.list i with
  | none => .error .undefined
  | some h => .ok (h.at s.linkers newlinker)

def set (s : Lists) (i : Nat) (l : LinkerList) : Lists :=
  ⟨l.linkers, Function.update s.list i (some l.header)⟩

def step (s : Lists) : ListOp → Except Fault Lists
  | .new i => .ok { s with list := Function.update s.list i (some listNew.header) }
  | .push i newlinker p => do
      let list ← s.get i newlinker
      let (_, list) ← listPush list p
      .ok (s.set i list)
  | .put i newlinker p => do
      let list ← s.get i newlinker
      let (_, list) ← listPut list p
      .ok (s.set i list)
  | .pop i => do
      let list ← s.get i 0
      let (_, list) ← listPop list
      .ok (s.set i list)
  | .pull i => do
      let list ← s.get i 0
      let (_, list) ← listPull list
      .ok (s.set i list)
  | .pmovetop i pos => do
      let list ← s.get i 0
      let (_, list) ← listPmovetop list (some pos)
      .ok (s.set i list)
  | .concatenate i j => do
      let list1 ← s.get i 0
      let list2 ← s.get j 0
      let list ← listConcatenate list1 list2
      -- the second list is freed
      let s := s.set i list
      .ok { s with list := Function.update s.list j none }
  | .delete i test => do
      let list ← s.get i 0
      let (_, list) ← chainDelete list test
      .ok (s.set i list)

end Lists

/-- The lists by their addresses, each with its linkers in order and what they point to. -/
abbrev Contents := Nat → Option (List (Nat × Nat))

def toFront (pos : Nat) (cells : List (Nat × Nat)) : List (Nat × Nat) :=
  match cells.find? fun c => c.1 = pos with
  | none => cells
  | some c => c :: cells.eraseP fun c => c.1 = pos

namespace ListOp

/-- What an operation does to the contents. -/
def effect (m : Contents) : ListOp → Contents
  | new i => Function.update m i (some [])
  | push i newlinker p => Function.update m i ((m i).map fun cells => cells ++ [(newlinker, p)])
  | put i newlinker p => Function.update m i ((m i).map fun cells => (newlinker, p) :: cells)
  | pop i => Function.update m i ((m i).map List.tail)
  | pull i => Function.update m i ((m i).map List.dropLast)
  | pmovetop i pos => Function.update m i ((m i).map (toFront pos))
  | concatenate i j =>
      Function.update (Function.update m i ((m i).map fun cells => cells ++ (m j).getD [])) j none
  | delete i test => Function.update m i ((m i).map fun cells => cells.eraseP fun c => test c.2)

/-- When an operation may be used: the lists exist, `malloc` gives memory that is not in use, and
what is taken out, moved or put behind a list is there. -/
def Allowed (s : Lists) (m : Contents) : ListOp → Prop
  | new i => m i = none
  | push i newlinker _ | put i newlinker _ => (m i).isSome ∧ s.linkers newlinker = none
  | pop i | pull i => ∃ cells, m i = some cells ∧ cells ≠ []
  | pmovetop i pos => ∃ cells, m i = some cells ∧ pos ∈ addresses cells
  | concatenate i j => i ≠ j ∧ (m i).isSome ∧ ∃ cells, m j = some cells ∧ cells ≠ []
  | delete i _ => (m i).isSome

end ListOp

/-- The memories that operations lead to, with the contents they stand for. -/
inductive Lists.Run : Lists → Contents → Prop
  | start : Run ⟨fun _ => none, fun _ => none⟩ fun _ => none
  | step {s s' : Lists} {m : Contents} {op : ListOp} (before : Run s m) (may : op.Allowed s m)
      (runs : s.step op = .ok s') : Run s' (op.effect m)

/-- Walking from either end visits the linkers of a list, as many as its size says, in opposite
orders. -/
structure Lists.Reads (s : Lists) (i : Nat) (cells : List (Nat × Nat)) : Prop where
  walks : ∃ h, s.list i = some h ∧ Walk s.linkers h.startLinker cells ∧
    WalkBack s.linkers h.endLinker cells.reverse ∧ h.size = cells.length
  distinct : (addresses cells).Nodup

/-- Each list is linked, and no linker is in two lists. -/
structure Lists.Ok (s : Lists) (m : Contents) : Prop where
  spells : ∀ i cells, m i = some cells → ∃ h, s.list i = some h ∧ (h.at s.linkers 0).Spells cells
  apart : ∀ i j xs ys, i ≠ j → m i = some xs → m j = some ys →
    ∀ a ∈ addresses xs, a ∉ addresses ys

variable {s s' : Lists} {m : Contents} {i j : Nat} {cells cells' : List (Nat × Nat)}

namespace Lists.Ok

theorem start : Lists.Ok ⟨fun _ => none, fun _ => none⟩ fun _ => none :=
  ⟨nofun, nofun⟩

theorem reads (ok : s.Ok m) (held : m i = some cells) : s.Reads i cells := by
  obtain ⟨h, there, spells⟩ := ok.spells i cells held
  exact ⟨⟨h, there, spells.list.walk, spells.list.walkBack, spells.size⟩, spells.list.distinct⟩

theorem get (ok : s.Ok m) (held : m i = some cells) (newlinker : Nat) :
    ∃ l, s.get i newlinker = .ok l ∧ l.Spells cells ∧ l.linkers = s.linkers ∧
      l.brk = newlinker := by
  obtain ⟨h, there, spells⟩ := ok.spells i cells held
  refine ⟨h.at s.linkers newlinker, ?_, ⟨spells.list, spells.size⟩, rfl, rfl⟩
  rw [Lists.get, there]

theorem allocated (ok : s.Ok m) (held : m i = some cells) {a : Nat} (member : a ∈ addresses cells) :
    s.linkers a ≠ none := by
  obtain ⟨h, _, spells⟩ := ok.spells i cells held
  obtain ⟨node, found⟩ := spells.list.segment.found member
  intro none
  change s.linkers a = some node at found
  rw [none] at found
  cases found

/-- An operation has changed linkers of the list `i` alone; the other lists that are left are as
they were. -/
theorem replace (ok : s.Ok m) {own : List Nat} {linkers : Heap Nat} {m' : Contents}
    {list : Nat → Option Header} (within : Within own s.linkers linkers)
    (self : ∀ cells, m' i = some cells → (∃ h, list i = some h ∧ (h.at linkers 0).Spells cells) ∧
      ∀ a ∈ addresses cells, a ∈ own)
    (others : ∀ k cells, k ≠ i → m' k = some cells → m k = some cells ∧ list k = s.list k ∧
      ∀ a ∈ addresses cells, a ∉ own) : Lists.Ok ⟨linkers, list⟩ m' where
  spells k cells held := by
    by_cases same : k = i
    · subst same
      exact (self cells held).1
    · obtain ⟨held', list', outside⟩ := others k cells same held
      obtain ⟨h, there, spells⟩ := ok.spells k cells held'
      exact ⟨h, list'.trans there, spells.list.within within outside, spells.size⟩
  apart k k' xs ys different held held' a member member' := by
    by_cases same : k = i
    · subst same
      exact (others k' ys (Ne.symm different) held').2.2 a member' ((self xs held).2 a member)
    · obtain ⟨old, _, outside⟩ := others k xs same held
      by_cases same' : k' = i
      · subst same'
        exact outside a member ((self ys held').2 a member')
      · exact ok.apart k k' xs ys different old (others k' ys same' held').1 a member member'

/-- One list is changed, perhaps with a linker that was not in use. -/
theorem change (ok : s.Ok m) (held : m i = some cells) {own : List Nat} {l : LinkerList}
    (spells : l.Spells cells') (within : Within own s.linkers l.linkers)
    (inside : ∀ a ∈ own, a ∈ addresses cells ∨ s.linkers a = none)
    (kept : ∀ a ∈ addresses cells', a ∈ own) :
    (s.set i l).Ok (Function.update m i (some cells')) := by
  apply ok.replace within
  · intro xs held'
    rw [Function.update_self] at held'
    obtain rfl := Option.some.inj held'
    exact ⟨⟨l.header, Function.update_self _ _ _, spells.list, spells.size⟩, kept⟩
  · intro k xs other held'
    rw [Function.update_of_ne other] at held'
    refine ⟨held', Function.update_of_ne other _ _, fun a member member' => ?_⟩
    cases inside a member' with
    | inl here => exact ok.apart k i xs cells other held' held a member here
    | inr none => exact ok.allocated held' member none

theorem mem_addresses_of_subset {xs ys : List (Nat × Nat)} (subset : xs ⊆ ys) {a : Nat}
    (member : a ∈ addresses xs) : a ∈ addresses ys :=
  List.map_subset Prod.fst subset member

/-- The linkers in front of one are others. -/
theorem outside (ok : s.Ok m) {xs ys : List (Nat × Nat)} {c : Nat × Nat}
    (held : m i = some (xs ++ c :: ys)) : c.1 ∉ addresses xs := by
  have distinct := (ok.reads held).distinct
  rw [addresses, List.map_append, List.nodup_append] at distinct
  exact fun member => distinct.2.2 c.1 member c.1 (List.mem_cons_self ..) rfl

theorem shrink (ok : s.Ok m) (held : m i = some cells) {l : LinkerList} (spells : l.Spells cells')
    (within : Within (addresses cells) s.linkers l.linkers) (subset : cells' ⊆ cells) :
    (s.set i l).Ok (Function.update m i (some cells')) :=
  ok.change held spells within (fun _ member => Or.inl member)
    fun _ member => mem_addresses_of_subset subset member

theorem grow (ok : s.Ok m) (held : m i = some cells) {newlinker p : Nat}
    (fresh : s.linkers newlinker = none) {l : LinkerList} (spells : l.Spells cells')
    (within : Within (addresses cells') s.linkers l.linkers)
    (perm : cells'.Perm ((newlinker, p) :: cells)) :
    (s.set i l).Ok (Function.update m i (some cells')) := by
  refine ok.change held spells within (fun a member => ?_) fun _ member => member
  have cases : a = newlinker ∨ a ∈ addresses cells :=
    List.mem_cons.mp ((perm.map Prod.fst).mem_iff.mp member)
  exact cases.symm.imp_right fun (same : a = newlinker) => same ▸ fresh

theorem new (ok : s.Ok m) (i : Nat) :
    Lists.Ok { s with list := Function.update s.list i (some listNew.header) }
      (Function.update m i (some [])) := by
  apply ok.replace (i := i) (.refl [] _)
  · intro cells held
    rw [Function.update_self] at held
    obtain rfl := Option.some.inj held
    exact ⟨⟨_, Function.update_self _ _ _, ⟨trivial, List.nodup_nil, rfl, rfl⟩, rfl⟩, nofun⟩
  · intro k cells other held
    rw [Function.update_of_ne other] at held
    exact ⟨held, Function.update_of_ne other _ _, fun _ _ => List.not_mem_nil⟩

/-- The linkers of a list put behind those of another one, and the list freed. -/
theorem join (ok : s.Ok m) (different : i ≠ j) (held : m i = some cells) (held' : m j = some cells')
    {l : LinkerList} (spells : l.Spells (cells ++ cells'))
    (within : Within (addresses (cells ++ cells')) s.linkers l.linkers) :
    Lists.Ok { s.set i l with list := Function.update (s.set i l).list j none }
      (Function.update (Function.update m i (some (cells ++ cells'))) j none) := by
  apply ok.replace within
  · intro xs joined
    rw [Function.update_of_ne different, Function.update_self] at joined
    obtain rfl := Option.some.inj joined
    refine ⟨⟨l.header, ?_, spells.list, spells.size⟩, fun _ member => member⟩
    exact (Function.update_of_ne different _ _).trans (Function.update_self _ _ _)
  · intro k xs other old
    have apart : k ≠ j := by
      intro same
      rw [same, Function.update_self] at old
      cases old
    rw [Function.update_of_ne apart, Function.update_of_ne other] at old
    refine ⟨old, (Function.update_of_ne apart _ _).trans (Function.update_of_ne other _ _), ?_⟩
    intro a member inside
    rw [addresses, List.map_append, List.mem_append] at inside
    cases inside with
    | inl front => exact ok.apart k i xs cells other old held a member front
    | inr back => exact ok.apart k j xs cells' apart old held' a member back

end Lists.Ok

theorem toFront_eq {xs ys : List (Nat × Nat)} {c : Nat × Nat} (absent : c.1 ∉ addresses xs) :
    toFront c.1 (xs ++ c :: ys) = c :: (xs ++ ys) := by
  have fails : ∀ d ∈ xs, ¬ decide (d.1 = c.1) = true := by
    intro d member same
    exact absent (of_decide_eq_true same ▸ List.mem_map_of_mem member)
  have found : (xs ++ c :: ys).find? (fun d => d.1 = c.1) = some c := by
    rw [List.find?_append, List.find?_eq_none.mpr fails, Option.none_or]
    exact List.find?_cons_of_pos (decide_eq_true rfl)
  have erased : (xs ++ c :: ys).eraseP (fun d => d.1 = c.1) = xs ++ ys := by
    rw [List.eraseP_append_right _ fails]
    exact congrArg (xs ++ ·) (List.eraseP_cons_of_pos (decide_eq_true rfl))
  unfold toFront
  rw [found]
  exact congrArg (c :: ·) erased

/-- The linkers of a list around the one at an address. -/
theorem exists_split {pos : Nat} (member : pos ∈ addresses cells) :
    ∃ xs c ys, cells = xs ++ c :: ys ∧ c.1 = pos := by
  obtain ⟨c, present, same⟩ := List.mem_map.mp member
  obtain ⟨xs, ys, split⟩ := List.append_of_mem present
  exact ⟨xs, c, ys, split, same⟩

/-- Each operation that may be used returns, and does to the contents what it says. -/
theorem Lists.Ok.step (ok : s.Ok m) {op : ListOp} (may : op.Allowed s m) :
    Returns (s.step op) fun s' => s'.Ok (op.effect m) := by
  cases op with
  | new i => exact ⟨_, rfl, ok.new i⟩
  | push i newlinker p =>
      obtain ⟨held, fresh⟩ := may
      obtain ⟨cells, held⟩ := Option.isSome_iff_exists.mp held
      obtain ⟨l, found, spells, linkers, rfl⟩ := ok.get held newlinker
      obtain ⟨l', run, spells', within, _⟩ :=
        spells.push (fun member => ok.allocated held member fresh) p
      rw [linkers] at within
      simp only [Lists.step, found, ok_bind, run, ListOp.effect, held, Option.map_some]
      exact ⟨_, rfl, ok.grow held fresh spells' within (List.perm_append_singleton _ _)⟩
  | put i newlinker p =>
      obtain ⟨held, fresh⟩ := may
      obtain ⟨cells, held⟩ := Option.isSome_iff_exists.mp held
      obtain ⟨l, found, spells, linkers, rfl⟩ := ok.get held newlinker
      obtain ⟨l', run, spells', within, _⟩ :=
        spells.put (fun member => ok.allocated held member fresh) p
      rw [linkers] at within
      simp only [Lists.step, found, ok_bind, run, ListOp.effect, held, Option.map_some]
      exact ⟨_, rfl, ok.grow held fresh spells' within (.refl _)⟩
  | pop i =>
      obtain ⟨cells, held, more⟩ := may
      obtain ⟨l, found, spells, linkers, _⟩ := ok.get held 0
      obtain ⟨c, ys, rfl⟩ := List.exists_cons_of_ne_nil more
      obtain ⟨l', run, spells', within, _⟩ := spells.pop
      rw [linkers] at within
      simp only [Lists.step, found, ok_bind, run, ListOp.effect, held, Option.map_some]
      exact ⟨_, rfl, ok.shrink held spells' within (List.subset_cons_self c ys)⟩
  | pull i =>
      obtain ⟨cells, held, more⟩ := may
      obtain ⟨l, found, spells, linkers, _⟩ := ok.get held 0
      have split := List.dropLast_append_getLast more
      rw [← split] at spells
      obtain ⟨l', run, spells', within, _⟩ := spells.pull
      rw [linkers, split] at within
      simp only [Lists.step, found, ok_bind, run, ListOp.effect, held, Option.map_some]
      exact ⟨_, rfl, ok.shrink held spells' within (List.dropLast_subset cells)⟩
  | pmovetop i pos =>
      obtain ⟨cells, held, member⟩ := may
      obtain ⟨l, found, spells, linkers, _⟩ := ok.get held 0
      obtain ⟨xs, c, ys, rfl, rfl⟩ := exists_split member
      have moved : toFront c.1 (xs ++ c :: ys) = _ := toFront_eq (ok.outside held)
      obtain ⟨l', run, spells', within, _⟩ := spells.pmovetop
      rw [linkers] at within
      simp only [Lists.step, found, ok_bind, run, ListOp.effect, held, Option.map_some, moved]
      exact ⟨_, rfl, ok.shrink held spells' within List.perm_middle.symm.subset⟩
  | concatenate i j =>
      obtain ⟨different, held, ys, held', more⟩ := may
      obtain ⟨xs, held⟩ := Option.isSome_iff_exists.mp held
      obtain ⟨l, found, spells, linkers, _⟩ := ok.get held 0
      obtain ⟨l₂, found₂, spells₂, linkers₂, _⟩ := ok.get held' 0
      obtain ⟨l', run, spells', within, _⟩ := spells.concatenate spells₂
        (linkers₂.trans linkers.symm) more (ok.apart i j xs ys different held held')
      rw [linkers] at within
      simp only [Lists.step, found, found₂, ok_bind, run, ListOp.effect, held, held',
        Option.map_some, Option.getD_some]
      exact ⟨_, rfl, ok.join different held held' spells' within⟩
  | delete i test =>
      obtain ⟨cells, held⟩ := Option.isSome_iff_exists.mp may
      obtain ⟨l, found, spells, linkers, _⟩ := ok.get held 0
      obtain ⟨l', run, spells', within, _⟩ := spells.chainDelete test
      rw [linkers] at within
      simp only [Lists.step, found, ok_bind, run, ListOp.effect, held, Option.map_some]
      exact ⟨_, rfl, ok.shrink held spells' within List.eraseP_subset⟩

theorem Lists.Run.ok (run : Lists.Run s m) : s.Ok m := by
  induction run with
  | start => exact .start
  | step before may runs ih =>
      obtain ⟨s', returned, ok⟩ := ih.step may
      rw [runs] at returned
      obtain rfl := Except.ok.inj returned
      exact ok

/-- After any sequence of operations each list can be walked from both ends, and so it is after one
more. Moving a linker to the front leaves every linker at its address with what it points to. -/
theorem lists_run (run : Lists.Run s m) :
    (∀ i cells, m i = some cells → s.Reads i cells) ∧
      (∀ op, op.Allowed s m → Returns (s.step op) fun s' =>
        ∀ i cells, op.effect m i = some cells → s'.Reads i cells) ∧
      ∀ i pos cells, m i = some cells → pos ∈ addresses cells →
        ∃ cells', (ListOp.pmovetop i pos).effect m i = some cells' ∧ cells'.Perm cells ∧
          cells'.head?.map Prod.fst = some pos := by
  have ok := run.ok
  refine ⟨fun i cells held => ok.reads held, fun op may => ?_, fun i pos cells held member => ?_⟩
  · obtain ⟨s', runs, ok'⟩ := ok.step may
    exact ⟨s', runs, fun i cells held => ok'.reads held⟩
  · obtain ⟨xs, c, ys, rfl, rfl⟩ := exists_split member
    have moved : toFront c.1 (xs ++ c :: ys) = _ := toFront_eq (ok.outside held)
    refine ⟨c :: (xs ++ ys), ?_, List.perm_middle.symm, rfl⟩
    simp only [ListOp.effect, Function.update_self, held, Option.map_some, moved]

theorem lists_run_three : ∃ (s : Lists) (m : Contents), Lists.Run s m ∧
    s.Reads 0 [(2, 8), (1, 7), (3, 9)] := by
  have one := Lists.Run.start.step (show ListOp.Allowed _ _ (.new 0) from rfl) rfl
  have two := one.step (show ListOp.Allowed _ _ (.push 0 1 7) from ⟨rfl, rfl⟩) rfl
  have three := two.step (show ListOp.Allowed _ _ (.push 0 2 8) from ⟨rfl, rfl⟩) rfl
  have four := three.step (show ListOp.Allowed _ _ (.push 0 3 9) from ⟨rfl, rfl⟩) rfl
  have movable : (2 : Nat) ∈ addresses [(1, 7), (2, 8), (3, 9)] := by decide
  have five := four.step (show ListOp.Allowed _ _ (.pmovetop 0 2) from ⟨_, rfl, movable⟩) rfl
  have reads := (lists_run five).1 0 [(2, 8), (1, 7), (3, 9)] rfl
  exact ⟨_, _, five, reads⟩

end Ece344Lab.Webserver
