import Ece344Lab.Webserver.Client

set_option autoImplicit false

/- The files that `fileset.c` makes for the experiments, and its index of them as a client reads it.
-/
namespace Ece344Lab.Webserver

open Bytes (text decimal)
open Line Outcome Scan

/-- A file of the set. -/
structure MadeFile where
  filename : List Byte
  fileSz : Nat
  content : List Byte
  csum : Nat

/-- `"/%05d"`. -/
def numbered (i : Nat) : List Byte :=
  text "/" ++ (List.replicate (5 - (decimal i).length) 48#8 ++ decimal i)

/-- `random() % (0x73 - 0x20) + 0x20`. -/
def printable (r : Nat) : Byte := BitVec.ofNat 8 (r % (0x73 - 0x20) + 0x20)

/-- The loop that writes a file, in pieces of at most 4096 bytes: what is written, and `csum` at the
end. The calls of `random` give `random done`, `random (done + 1)` and so on. -/
def fillLoop (random : Nat → Nat) (remaining done csum : Nat) : List Byte × Nat :=
  if remaining = 0 then ([], csum)
  else
    let sz := if remaining < 4096 then remaining else 4096
    let buf := (List.range' done sz).map fun j => printable (random j)
    let (written, csum) := fillLoop random (remaining - sz) (done + sz)
      ((csum + (buf.map BitVec.toNat).sum) % 2 ^ 32)
    (buf ++ written, csum)
termination_by remaining
decreasing_by split_ifs <;> omega

def indexLine (filename : List Byte) (csum : Nat) (fileSz : Int) : List Byte :=
  filename ++ 32#8 :: (decimal csum ++ 32#8 :: (decimal fileSz ++ [newline]))

/-- One round of the loop over the files. -/
def makeFile (dir : List Byte) (fileSz : Nat → Nat) (random : Nat → Nat → Nat)
    (i : Nat) : MadeFile :=
  let (content, csum) := fillLoop (random i) (fileSz i) 0 0
  ⟨dir ++ numbered i, fileSz i, content, csum⟩

/-- `main` of `fileset.c`: the files and the index. The sizes are drawn at random too. -/
def filesetMain (dir : List Byte) (nrFiles : Int) (fileSz : Nat → Nat) (random : Nat → Nat → Nat) :
    Except Fault (List MadeFile × List Byte) :=
  if nrFiles < 1 ∨ 99999 < nrFiles then .error .exits
  else if 1000 < dir.length then .error .exits
  else
    let made := (List.range nrFiles.toNat).map (makeFile dir fileSz random)
    .ok (made, decimal nrFiles ++ newline ::
      (made.map fun file => indexLine file.filename file.csum file.fileSz).flatten)

/-- `struct fileinfo`. -/
structure Fileinfo where
  name : List Byte
  csum : Nat
  len : Int

def atoi (str : List Byte) : Except Fault Int :=
  match number str with
  | none => .ok 0
  | some (v, _) => asInt v

/-- `sscanf` with `"%s %u %d"`; there are `room` bytes for the name. -/
def scanFileinfo (room : Nat) (fi : Fileinfo) (str : List Byte) : Except Fault Fileinfo :=
  let (name, rest) := word str
  if name = [] then .ok fi
  else if room ≤ name.length then .error .undefined
  else
    match number rest with
    | none => .ok { fi with name }
    | some (v, rest) => do
        let csum ← asUnsigned v
        match number rest with
        | none => .ok { fi with name, csum }
        | some (v, _) => do
            let len ← asInt v
            .ok ⟨name, csum, len⟩

/-- The loop of `init_fileset`; `memory` is what `Malloc` finds. A failed assertion ends the
program. -/
def indexLoop (memory : Nat → Fileinfo) : Nat → Rio → List Byte → Nat → Int → List Fileinfo →
    Except Fault (List Fileinfo)
  | 0, _, _, _, _, _ => .error .diverges
  | calls + 1, rp, buf, i, nrFiles, fileset => do
      let (n, buf, rp) ← wrapperRioReadlineb rp buf maxLine
      if n = 0 then
        if 0 < nrFiles ∧ (i : Int) = nrFiles then .ok fileset else .error .exits
      else
        let n := if buf[n.toNat - 1]? = some newline then n - 1 else n
        if nrFiles = 0 then do
          let nrFiles ← atoi (cString buf)
          if 0 < nrFiles then
            indexLoop memory calls rp buf i nrFiles ((List.range nrFiles.toNat).map memory)
          else .error .exits
        else if (i : Int) < nrFiles then do
          let fi ← scanFileinfo (n + 1).toNat (memory i) (cString buf)
          indexLoop memory calls rp buf (i + 1) nrFiles (fileset.set i fi)
        else .error .exits

def initFileset (memory : Nat → Fileinfo) (calls : Nat) (rp : Rio) (buf : List Byte) :
    Except Fault (List Fileinfo) :=
  indexLoop memory calls rp buf 0 0 []

section Files

variable {random : Nat → Nat}

/-- The bytes of a file and their checksum. -/
theorem fillLoop_eq (remaining : Nat) : ∀ done csum, fillLoop random remaining done csum =
    ((List.range' done remaining).map fun j => printable (random j),
      if remaining = 0 then csum
      else (csum + (((List.range' done remaining).map fun j => printable (random j)).map
        BitVec.toNat).sum) % 2 ^ 32) := by
  induction remaining using Nat.strong_induction_on with
  | _ remaining ih =>
      intro done csum
      unfold fillLoop
      by_cases none : remaining = 0
      · rw [if_pos none, none]
        rfl
      · rw [if_neg none]
        dsimp only
        generalize taken : (if remaining < 4096 then remaining else 4096) = sz
        have bounds : 0 < sz ∧ sz ≤ remaining := by
          split_ifs at taken <;> omega
        rw [ih (remaining - sz) (by omega)]
        have pieces : List.range' done remaining =
            List.range' done sz ++ List.range' (done + sz) (remaining - sz) := by
          rw [List.range'_append_1]
          congr 1
          omega
        dsimp only
        rw [pieces, List.map_append, if_neg none]
        refine Prod.ext rfl ?_
        dsimp only
        split_ifs with last
        · rw [last]
          simp
        · rw [checksum_append]

/-- The checksum in the index is the one that a client computes. -/
theorem fillLoop_checksum (remaining : Nat) :
    (fillLoop random remaining 0 0).2 = checksum (fillLoop random remaining 0 0).1 := by
  rw [fillLoop_eq]
  dsimp only
  split_ifs with none
  · rw [none]
    rfl
  · rw [Nat.zero_add]
    rfl

theorem fillLoop_length (remaining : Nat) :
    (fillLoop random remaining 0 0).1.length = remaining := by
  rw [fillLoop_eq, List.length_map, List.length_range']

theorem fillLoop_line (remaining : Nat) : newline ∉ (fillLoop random remaining 0 0).1 := by
  rw [fillLoop_eq]
  intro member
  obtain ⟨j, _, same⟩ := List.mem_map.mp member
  have value := congrArg BitVec.toNat same
  unfold printable at value
  rw [BitVec.toNat_ofNat] at value
  have ten : newline.toNat = 10 := rfl
  omega

end Files

section Names

variable {dir : List Byte}

theorem valueOf_zeros (k : Nat) (ds : List Byte) :
    valueOf (List.replicate k 48#8 ++ ds) = valueOf ds := by
  induction k with
  | zero => rfl
  | succ k ih => exact ih

/-- Files with different numbers have different names. -/
theorem numbered_injective : Function.Injective fun i => dir ++ numbered i := by
  intro i j same
  have numbers := List.append_cancel_left (List.append_cancel_left same)
  have value := congrArg valueOf numbers
  rw [valueOf_zeros, valueOf_zeros, decimal_natCast, decimal_natCast, valueOf_digits,
    valueOf_digits] at value
  exact value

theorem numbered_plain {i : Nat} {b : Byte} (member : b ∈ numbered i) :
    isSpace b = false ∧ b ≠ 0 := by
  unfold numbered at member
  simp only [List.mem_append] at member
  rcases member with front | zero | digit
  · revert front b
    decide
  · rw [List.eq_of_mem_replicate zero]
    decide
  · exact decimal_plain digit

theorem length_numbered {i : Nat} (small : i < 10 ^ 5) : (numbered i).length = 6 := by
  have length : (decimal i).length ≤ 5 := by
    rw [decimal_natCast]
    exact length_digits_le (by decide) small
  have one : (text "/").length = 1 := rfl
  unfold numbered
  rw [List.length_append, List.length_append, List.length_replicate, one]
  omega

end Names

section Index

variable {fi : Fileinfo} {memory : Nat → Fileinfo} {rp : Rio}

/-- A line of the index that a client can read back. -/
structure Fileinfo.Printed (fi : Fileinfo) : Prop where
  named : Word fi.name
  short : fi.name.length + 24 < maxLine
  csum : fi.csum < 2 ^ 32
  len : 0 ≤ fi.len ∧ fi.len < 2 ^ 31

def Fileinfo.line (fi : Fileinfo) : List Byte := indexLine fi.name fi.csum fi.len

theorem Fileinfo.Printed.scan (printed : fi.Printed) {room : Nat} (fits : fi.name.length < room)
    (old : Fileinfo) : scanFileinfo room old fi.line = .ok fi := by
  have named := printed.named
  have front : word fi.line =
      (fi.name, 32#8 :: (decimal fi.csum ++ 32#8 :: (decimal fi.len ++ [newline]))) :=
    word_append named.nonempty (fun b member => (named.plain b member).1) rfl
  have len : asInt fi.len = .ok fi.len :=
    asInt_eq (Int.le_trans (by decide) printed.len.1) printed.len.2
  unfold scanFileinfo
  rw [front]
  dsimp only
  rw [if_neg named.nonempty, if_neg (Nat.not_le.mpr fits), number_space rfl,
    number_decimal _ (head_not_digit rfl)]
  dsimp only
  rw [asUnsigned_eq printed.csum, ok_bind, number_space rfl, number_decimal _ (head_not_digit rfl)]
  dsimp only
  rw [len, ok_bind]

theorem Fileinfo.Printed.ends (printed : fi.Printed) :
    ∃ front, fi.line = front ++ [newline] ∧ newline ∉ front := by
  refine ⟨fi.name ++ 32#8 :: (decimal fi.csum ++ 32#8 :: decimal fi.len), ?_, ?_⟩
  · unfold Fileinfo.line indexLine
    simp only [List.append_assoc, List.cons_append]
  · simp only [List.mem_append, List.mem_cons]
    rintro (inside | bad | inside | bad | inside)
    · exact absurd (printed.named.plain _ inside).1 (by decide)
    · exact absurd bad (by decide)
    · exact absurd (decimal_plain inside).1 (by decide)
    · exact absurd bad (by decide)
    · exact absurd (decimal_plain inside).1 (by decide)

theorem Fileinfo.Printed.noNul (printed : fi.Printed) : ∀ b ∈ fi.line, b ≠ 0 := by
  intro b member
  unfold Fileinfo.line indexLine at member
  simp only [List.mem_append, List.mem_cons, List.not_mem_nil, or_false] at member
  rcases member with inside | rfl | inside | rfl | inside | rfl
  · exact (printed.named.plain b inside).2
  · decide
  · exact (decimal_plain inside).2
  · decide
  · exact (decimal_plain inside).2
  · decide

theorem Fileinfo.Printed.length (printed : fi.Printed) :
    fi.name.length + 1 < fi.line.length ∧ fi.line.length < maxLine := by
  have csum : (decimal fi.csum).length ≤ 10 := by
    rw [decimal_natCast]
    exact length_digits_le (by decide) (printed.csum.trans (by decide))
  have len : (decimal fi.len).length ≤ 10 := by
    obtain ⟨n, same⟩ := Int.eq_ofNat_of_zero_le printed.len.1
    have below := printed.len.2
    rw [same, decimal_natCast]
    exact length_digits_le (by decide) (by omega)
  have short := printed.short
  unfold Fileinfo.line indexLine
  simp only [List.length_append, List.length_cons, List.length_nil]
  omega

/-- A line with its newline is read, and the newline is found in the buffer. -/
theorem readEnded {buf front rest : List Byte} (healthy : rp.Healthy) (room : buf.length = maxLine)
    (ahead : rp.ahead = front ++ newline :: rest) (absent : newline ∉ front)
    (short : front.length + 1 < maxLine) :
    ∃ after rp', wrapperRioReadlineb rp buf maxLine =
        .ok ((front.length + 1 : Nat), front ++ newline :: 0 :: after, rp') ∧
      (front ++ newline :: 0 :: after).length = maxLine ∧ rp'.Healthy ∧ rp'.ahead = rest := by
  have first : line newline rp.ahead = front ++ [newline] := by rw [ahead, line_append absent]
  have length : (front ++ [newline]).length = front.length + 1 := by
    rw [List.length_append, List.length_singleton]
  obtain ⟨buf', rp', run, size, healthy', split, _, full⟩ :=
    readLine healthy room (by rw [first, length]; exact short)
  have some : rp.ahead ≠ [] := by
    rw [ahead]
    exact List.append_ne_nil_of_right_ne_nil _ (List.cons_ne_nil _ _)
  obtain ⟨after, rfl⟩ := full some
  rw [first, length] at run
  rw [first] at size
  rw [first, ahead, List.append_cons] at split
  refine ⟨after, rp', ?_, ?_, healthy', (List.append_cancel_left split).symm⟩
  · rw [run, List.append_assoc]
    rfl
  · rw [← size, List.append_assoc]
    rfl

/-- The newline at the end of a line does not count. -/
theorem without_newline {front after : List Byte} :
    (if (front ++ newline :: after)[((front.length + 1 : Nat) : Int).toNat - 1]? = some newline
      then ((front.length + 1 : Nat) : Int) - 1 else ((front.length + 1 : Nat) : Int)) =
        front.length := by
  have last : (front ++ newline :: after)[((front.length + 1 : Nat) : Int).toNat - 1]? =
      some newline := by
    rw [Int.toNat_natCast, Nat.add_sub_cancel, List.getElem?_append_right (Nat.le_refl _),
      Nat.sub_self]
    rfl
  rw [if_pos last]
  omega

theorem indexLoop_line (memory : Nat → Fileinfo) (printed : fi.Printed) {buf rest : List Byte}
    (healthy : rp.Healthy) (room : buf.length = maxLine)
    (ahead : rp.ahead = fi.line ++ rest) {i : Nat} {nrFiles : Int} (more : (i : Int) < nrFiles) :
    ∃ buf' rp', buf'.length = maxLine ∧ rp'.Healthy ∧ rp'.ahead = rest ∧ ∀ calls fileset,
      indexLoop memory (calls + 1) rp buf i nrFiles fileset =
        indexLoop memory calls rp' buf' (i + 1) nrFiles (fileset.set i fi) := by
  obtain ⟨front, split, absent⟩ := printed.ends
  have lengths := printed.length
  rw [split, List.length_append, List.length_singleton] at lengths
  rw [split, List.append_assoc, List.singleton_append] at ahead
  obtain ⟨after, rp', run, size, healthy', behind⟩ := readEnded healthy room ahead absent lengths.2
  have string : cString (front ++ newline :: 0 :: after) = fi.line := by
    have noNul := printed.noNul
    rw [split] at noNul ⊢
    rw [List.append_cons]
    exact cString_append noNul
  have first : ¬ ((front.length + 1 : Nat) : Int) = 0 := by omega
  have started : ¬ nrFiles = 0 := by omega
  have fits : fi.name.length < ((front.length : Int) + 1).toNat := by omega
  have scanned := printed.scan fits (memory i)
  refine ⟨_, rp', size, healthy', behind, fun calls fileset => ?_⟩
  conv_lhs => unfold indexLoop
  rw [run, ok_bind]
  dsimp only
  rw [if_neg first, without_newline, if_neg started, if_pos more, string, scanned, ok_bind]

/-- The loop over the lines of the files; by induction on the lines that are left. -/
theorem indexLoop_lines (memory : Nat → Fileinfo) (fis : List Fileinfo) :
    ∀ (rp : Rio) (buf : List Byte) (i : Nat) (fileset : List Fileinfo),
    rp.Healthy → buf.length = maxLine → (∀ fi ∈ fis, fi.Printed) →
    rp.ahead = (fis.map Fileinfo.line).flatten → fileset.length = i + fis.length →
    0 < fileset.length →
    indexLoop memory (fis.length + 1) rp buf i fileset.length fileset =
      .ok (fileset.take i ++ fis) := by
  induction fis with
  | nil =>
      intro rp buf i fileset healthy room _ ahead length some
      have none : line newline rp.ahead = [] := by rw [ahead]; rfl
      obtain ⟨buf', rp', run, _⟩ := readLine healthy room (by rw [none]; decide)
      rw [none] at run
      have all : 0 < ((fileset.length : Nat) : Int) ∧ (i : Int) = (fileset.length : Nat) := by
        rw [List.length_nil] at length
        omega
      unfold indexLoop
      rw [run, ok_bind]
      dsimp only
      rw [List.length_nil, if_pos Int.natCast_zero, if_pos all, List.append_nil,
        List.take_of_length_le (by omega)]
  | cons fi fis ih =>
      intro rp buf i fileset healthy room printed ahead length some
      rw [List.map_cons, List.flatten_cons] at ahead
      rw [List.length_cons] at length
      have more : (i : Int) < fileset.length := by omega
      obtain ⟨buf', rp', size, healthy', behind, round⟩ :=
        indexLoop_line memory (printed fi List.mem_cons_self) healthy room ahead more
      have later := ih rp' buf' (i + 1) (fileset.set i fi) healthy' size
        (fun fi' member => printed fi' (List.mem_cons_of_mem _ member)) behind
        (by rw [List.length_set]; omega) (by rw [List.length_set]; exact some)
      rw [List.length_set] at later
      have taken : (fileset.set i fi).take (i + 1) = fileset.take i ++ [fi] := by
        rw [List.take_add_one, List.take_set_of_le (Nat.le_refl i),
          List.getElem?_set_self (by omega)]
        rfl
      rw [List.length_cons, round, later, taken, List.append_assoc]
      rfl

/-- A client reads the index back. -/
theorem initFileset_eq {fis : List Fileinfo} (printed : ∀ fi ∈ fis, fi.Printed) (some : fis ≠ [])
    (few : fis.length < 2 ^ 31) (carries : rp.Carries (decimal fis.length ++ newline ::
      (fis.map Fileinfo.line).flatten)) {buf : List Byte} (room : buf.length = maxLine) :
    initFileset memory (fis.length + 2) rp buf = .ok fis := by
  have ahead := carries.healthy.ahead.trans carries.unread
  have absent : newline ∉ decimal fis.length := by
    intro inside
    exact absurd (decimal_plain inside).1 (by decide)
  have length : (decimal fis.length).length ≤ 10 := by
    rw [decimal_natCast]
    exact length_digits_le (by decide) (few.trans (by decide))
  have short : (decimal fis.length).length + 1 < maxLine :=
    Nat.lt_of_le_of_lt (Nat.succ_le_succ length) (by decide)
  obtain ⟨after, rp', run, size, healthy, behind⟩ :=
    readEnded carries.healthy room ahead absent short
  have string : cString (decimal fis.length ++ newline :: 0 :: after) =
      decimal fis.length ++ [newline] := by
    rw [List.append_cons]
    refine cString_append fun b member => ?_
    rcases List.mem_append.mp member with inside | last
    · exact (decimal_plain inside).2
    · rw [List.mem_singleton.mp last]
      decide
  have number : atoi (decimal fis.length ++ [newline]) = .ok fis.length := by
    unfold atoi
    rw [number_decimal _ (head_not_digit rfl)]
    exact asInt_eq (by omega) (by omega)
  have first : ¬ (((decimal fis.length).length + 1 : Nat) : Int) = 0 := by omega
  have positive : (0 : Int) < fis.length := Int.natCast_pos.mpr (List.length_pos_of_ne_nil some)
  have size' : ((List.range fis.length).map memory).length = fis.length := by
    rw [List.length_map, List.length_range]
  have later := indexLoop_lines memory fis rp' _ 0 ((List.range fis.length).map memory) healthy size
    printed behind (by rw [size', Nat.zero_add])
      (by rw [size']; exact List.length_pos_of_ne_nil some)
  unfold initFileset indexLoop
  rw [run, ok_bind]
  dsimp only
  rw [if_neg first, if_pos rfl, string, number, ok_bind, if_pos positive, Int.toNat_natCast]
  rw [size'] at later
  exact later

end Index

end Ece344Lab.Webserver
