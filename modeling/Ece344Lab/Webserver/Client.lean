import Ece344Lab.Webserver.Connection

set_option autoImplicit false

/- `client_print`: what a client makes of the bytes that come back. -/
namespace Ece344Lab.Webserver

open Bytes (text decimal)
open Line Outcome Scan

def asInt (v : Int) : Except Fault Int :=
  if -2 ^ 31 ≤ v ∧ v < 2 ^ 31 then .ok v else .error .undefined

def asUnsigned (v : Int) : Except Fault Nat :=
  if -2 ^ 32 < v ∧ v < 2 ^ 32 then .ok (v % 2 ^ 32).toNat else .error .undefined

theorem asInt_eq {v : Int} (above : -2 ^ 31 ≤ v) (below : v < 2 ^ 31) : asInt v = .ok v :=
  if_pos ⟨above, below⟩

theorem asUnsigned_eq {n : Nat} (below : n < 2 ^ 32) : asUnsigned n = .ok n := by
  have range : -2 ^ 32 < (n : Int) ∧ (n : Int) < 2 ^ 32 := by omega
  have whole : ((n : Int) % 2 ^ 32).toNat = n := by omega
  unfold asUnsigned
  rw [if_pos range, whole]

/-- `sscanf` for an `int` behind a tag; the variable keeps its value when there is none. -/
def scanInt (tag str : List Byte) (old : Int) : Except Fault Int :=
  match tagged tag str with
  | none => .ok old
  | some v => asInt v

/-- `sscanf` for an `unsigned int` behind a tag. -/
def scanUnsigned (tag str : List Byte) (old : Nat) : Except Fault Nat :=
  match tagged tag str with
  | none => .ok old
  | some v => asUnsigned v

/-- What `client_print` has found in the header, and what it has printed. -/
structure Seen where
  length : Int
  csum : Nat
  out : List Byte

namespace Seen

variable (print : Bool)

def printed (seen : Seen) (str : List Byte) : Seen :=
  if print then { seen with out := seen.out ++ text "Header: " ++ str } else seen

def scan (seen : Seen) (str : List Byte) : Except Fault Seen := do
  let length ← scanInt (text "Content-Length:") str seen.length
  let csum ← scanUnsigned (text "Content-Csum:") str seen.csum
  .ok { seen with length, csum }

end Seen

/-- The loop over the header; a line of `n` bytes is in the buffer. -/
def headerLoop (print : Bool) :
    Nat → Rio → List Byte → Int → Seen → Except Fault (Rio × List Byte × Seen)
  | 0, _, _, _, _ => .error .diverges
  | calls + 1, rp, buf, n, seen =>
      if strcmpEqual buf crlf ∨ n ≤ 0 then .ok (rp, buf, seen)
      else do
        let seen := seen.printed print (cString buf)
        let (n, buf, rp) ← wrapperRioReadlineb rp buf maxBuf
        let seen ← seen.scan (cString buf)
        headerLoop print calls rp buf n seen

/-- The loop over the body: `length_received`, `csum_received` and what has been printed. -/
def bodyLoop (print : Bool) : Nat → Rio → List Byte → Int → Nat → List Byte →
    Except Fault (Int × Nat × List Byte)
  | 0, _, _, _, _, _ => .error .diverges
  | calls + 1, rp, buf, received, csum, out => do
      let (n, buf, rp) ← wrapperRioReadlineb rp buf maxBuf
      let out := if print then out ++ buf.take n.toNat else out
      let received := received + n
      let csum := (csum + ((buf.take n.toNat).map BitVec.toNat).sum) % 2 ^ 32
      if 2 ^ 31 ≤ received then .error .undefined
      else if 0 < n then bodyLoop print calls rp buf received csum out
      else .ok (received, csum, out)

/-- `client_print`, as far as its loops come with some numbers of calls of `Rio_readlineb`: whether
the assertions at the end hold, and what has been printed. At first `buf` holds any bytes. -/
def clientPrint (print : Bool) (headers body : Nat) (rp : Rio) (buf : List Byte) (origCsum : Nat)
    (origLength : Int) : Except Fault (Bool × List Byte) := do
  let (n, buf, rp) ← wrapperRioReadlineb rp buf maxBuf
  let (rp, buf, seen) ← headerLoop print headers rp buf n ⟨0, 0, []⟩
  let (received, csum, out) ← bodyLoop print body rp buf 0 0 seen.out
  .ok (origCsum = seen.csum ∧ origLength = seen.length ∧ seen.length = received ∧ seen.csum = csum,
    out)

section Header

variable {print : Bool} {rp : Rio} {body : List Byte}

/-- A line of a header. -/
structure HeaderLine (l : List Byte) : Prop where
  ends : ∃ front, l = front ++ [newline] ∧ newline ∉ front
  noNul : ∀ b ∈ l, b ≠ 0
  short : l.length < maxBuf
  other : l ≠ crlf

/-- What the lines of a header leave: each one is printed before the tags are looked for in the
next. -/
def Seen.lines (print : Bool) (seen : Seen) : List (List Byte) → Except Fault Seen
  | [] => .ok seen
  | [l] => (seen.printed print l).scan crlf
  | l :: l' :: ls => do
      let seen ← (seen.printed print l).scan l'
      seen.lines print (l' :: ls)

/-- The loop over the header does not depend on how many calls it may make. -/
theorem headerLoop_more (calls : Nat) : ∀ (rp : Rio) (buf : List Byte) (n : Int) (seen : Seen)
    (r : Rio × List Byte × Seen), headerLoop print calls rp buf n seen = .ok r →
    ∀ more, headerLoop print (calls + more) rp buf n seen = .ok r := by
  induction calls with
  | zero =>
      intro _ _ _ _ _ run
      cases run
  | succ calls ih =>
      intro rp buf n seen r run more
      rw [Nat.add_right_comm]
      unfold headerLoop at run ⊢
      split_ifs at run ⊢ with ended
      · exact run
      · obtain ⟨⟨n', buf', rp'⟩, ran, run⟩ := ok_of_bind run
        obtain ⟨seen', scanned, run⟩ := ok_of_bind run
        rw [ran, ok_bind]
        dsimp only
        rw [scanned, ok_bind]
        exact ih _ _ _ _ r run more

/-- Two numbers of calls that are enough leave the same. -/
theorem headerLoop_unique {calls calls' : Nat} {buf : List Byte} {n : Int} {seen : Seen}
    {r r' : Rio × List Byte × Seen} (run : headerLoop print calls rp buf n seen = .ok r)
    (run' : headerLoop print calls' rp buf n seen = .ok r') : r = r' := by
  have first := headerLoop_more calls rp buf n seen r run calls'
  rw [Nat.add_comm, headerLoop_more calls' rp buf n seen r' run' calls] at first
  exact (Except.ok.inj first).symm

theorem HeaderLine.first {l : List Byte} (line' : HeaderLine l) (rest : List Byte) :
    line newline (l ++ rest) = l := by
  obtain ⟨front, rfl, absent⟩ := line'.ends
  rw [List.append_assoc]
  exact line_append absent rest

theorem crlf_first (rest : List Byte) : line newline (crlf ++ rest) = crlf :=
  line_append (by decide : newline ∉ [13#8]) rest

theorem readHeader (healthy : rp.Healthy) {buf l rest : List Byte} (room : buf.length = maxBuf)
    (ahead : rp.ahead = l ++ rest) (first : line newline (l ++ rest) = l) (some : l ≠ [])
    (short : l.length < maxBuf) :
    ∃ after rp', wrapperRioReadlineb rp buf maxBuf = .ok ((l.length : Nat), l ++ 0 :: after, rp') ∧
      (l ++ 0 :: after).length = maxBuf ∧ rp'.Healthy ∧ rp'.ahead = rest := by
  have read : line newline rp.ahead = l := by rw [ahead, first]
  obtain ⟨buf', rp', run, size, healthy', split, _, full⟩ :=
    readLine healthy room (by rw [read]; exact short)
  have present : rp.ahead ≠ [] := by
    rw [ahead]
    exact List.append_ne_nil_of_left_ne_nil some rest
  obtain ⟨after, rfl⟩ := full present
  rw [read] at run size split
  rw [ahead] at split
  exact ⟨after, rp', run, size, healthy', (List.append_cancel_left split).symm⟩

/-- Whether the line in the buffer is the empty one. -/
theorem HeaderLine.goes_on {l : List Byte} (line' : HeaderLine l) (after : List Byte) :
    ¬ (strcmpEqual (l ++ 0 :: after) crlf ∨ ((l.length : Nat) : Int) ≤ 0) := by
  have equal := strcmpEqual_line (l ++ []) after
  rw [line'.first] at equal
  obtain ⟨front, split, _⟩ := line'.ends
  have some : 0 < l.length := by
    rw [split, List.length_append]
    exact Nat.succ_pos _
  rintro (empty | none)
  · exact line'.other (equal.mp empty)
  · omega

theorem HeaderLine.ne_nil {l : List Byte} (line' : HeaderLine l) : l ≠ [] := by
  obtain ⟨front, split, _⟩ := line'.ends
  rw [split]
  exact List.append_ne_nil_of_right_ne_nil _ (List.cons_ne_nil _ _)

/-- The loop over the header comes to the empty line; by induction on the lines that are left. -/
theorem headerLoop_lines (ls : List (List Byte)) :
    ∀ (rp : Rio) (l after : List Byte) (seen seen' : Seen),
    rp.Healthy → HeaderLine l → (∀ l' ∈ ls, HeaderLine l') → (l ++ 0 :: after).length = maxBuf →
    rp.ahead = ls.flatten ++ (crlf ++ body) → seen.lines print (l :: ls) = .ok seen' →
    ∃ rp' buf', headerLoop print (ls.length + 2) rp (l ++ 0 :: after) (l.length : Nat) seen =
      .ok (rp', buf', seen') ∧ buf'.length = maxBuf ∧ rp'.Healthy ∧ rp'.ahead = body := by
  induction ls with
  | nil =>
      intro rp l after seen seen' healthy line' _ room ahead lines
      rw [List.flatten_nil, List.nil_append] at ahead
      obtain ⟨after', rp', run, size, healthy', behind⟩ := readHeader healthy room ahead
        (crlf_first body) (List.cons_ne_nil _ _) (by decide)
      change (seen.printed print l).scan crlf = .ok seen' at lines
      have empty : strcmpEqual (crlf ++ 0 :: after') crlf = true := rfl
      have string : cString (crlf ++ 0 :: after') = crlf := cString_append (by decide)
      refine ⟨rp', _, ?_, size, healthy', behind⟩
      change headerLoop print 2 rp _ _ _ = _
      unfold headerLoop
      rw [if_neg (line'.goes_on after), cString_append line'.noNul, run, ok_bind]
      dsimp only
      rw [string, lines, ok_bind]
      unfold headerLoop
      rw [if_pos (Or.inl empty)]
  | cons l' ls ih =>
      intro rp l after seen seen' healthy line' all room ahead lines
      have next := all l' List.mem_cons_self
      rw [List.flatten_cons, List.append_assoc] at ahead
      obtain ⟨after', rp₁, run, size, healthy', behind⟩ := readHeader healthy room ahead
        (next.first _) next.ne_nil next.short
      change (seen.printed print l).scan l' >>=
        (fun seen => seen.lines print (l' :: ls)) = _ at lines
      obtain ⟨seen₁, scanned, rest⟩ := ok_of_bind lines
      obtain ⟨rp', buf', ran, size', healthy'', behind'⟩ :=
        ih rp₁ l' after' seen₁ seen' healthy' next
        (fun l'' member => all l'' (List.mem_cons_of_mem _ member)) size behind rest
      refine ⟨rp', buf', ?_, size', healthy'', behind'⟩
      rw [List.length_cons, Nat.add_right_comm]
      unfold headerLoop
      rw [if_neg (line'.goes_on after), cString_append line'.noNul, run, ok_bind]
      dsimp only
      rw [cString_append next.noNul, scanned, ok_bind]
      exact ran

end Header

section Body

variable {print : Bool}

/-- The sum of the bytes, in an `unsigned int`, goes on behind a line. -/
theorem checksum_append (front rest : List Byte) (csum : Nat) :
    ((csum + (front.map BitVec.toNat).sum) % 2 ^ 32 + (rest.map BitVec.toNat).sum) % 2 ^ 32 =
      (csum + ((front ++ rest).map BitVec.toNat).sum) % 2 ^ 32 := by
  rw [Nat.mod_add_mod, List.map_append, List.sum_append, Nat.add_assoc]

theorem bodyLoop_line (print : Bool) {rp : Rio} {buf : List Byte} (healthy : rp.Healthy)
    (room : buf.length = maxBuf) (short : (line newline rp.ahead).length < maxBuf) :
    ∃ buf' rp', buf'.length = maxBuf ∧ rp'.Healthy ∧ rp.ahead = line newline rp.ahead ++ rp'.ahead ∧
      ∀ (calls : Nat) (received : Int) (csum : Nat) (out : List Byte),
        bodyLoop print (calls + 1) rp buf received csum out =
          if 2 ^ 31 ≤ received + ((line newline rp.ahead).length : Nat) then .error .undefined
          else if 0 < (line newline rp.ahead).length then
            bodyLoop print calls rp' buf' (received + ((line newline rp.ahead).length : Nat))
              ((csum + ((line newline rp.ahead).map BitVec.toNat).sum) % 2 ^ 32)
              (if print then out ++ line newline rp.ahead else out)
          else .ok (received + ((line newline rp.ahead).length : Nat),
            (csum + ((line newline rp.ahead).map BitVec.toNat).sum) % 2 ^ 32,
            if print then out ++ line newline rp.ahead else out) := by
  obtain ⟨buf', rp', run, size, healthy', split, copied, _⟩ := readLine healthy room short
  refine ⟨buf', rp', size, healthy', split, fun calls received csum out => ?_⟩
  conv_lhs => unfold bodyLoop
  rw [run, ok_bind]
  dsimp only
  rw [Int.toNat_natCast, copied]
  simp only [Int.natCast_pos]

theorem bodyLoop_end {rp : Rio} {buf : List Byte} (healthy : rp.Healthy)
    (room : buf.length = maxBuf)
    (ended : rp.ahead = []) {received : Nat} (few : received < 2 ^ 31) (csum : Nat)
    (out : List Byte) :
    bodyLoop print 1 rp buf received csum out = .ok ((received : Nat), csum % 2 ^ 32, out) := by
  have none : line newline rp.ahead = [] := by rw [ended]; rfl
  obtain ⟨_, _, _, _, _, run⟩ := bodyLoop_line print healthy room (by rw [none]; decide)
  have few' : ¬ 2 ^ 31 ≤ (received : Int) + ((0 : Nat) : Int) := by omega
  rw [run, none, List.length_nil, if_neg few', if_neg (Nat.lt_irrefl 0)]
  simp

/-- The loop over a body whose lines have room; by induction on the lines. -/
theorem bodyLoop_short (print : Bool) (bytes : List Byte) (short : Short newline maxBuf bytes) :
    ∀ (rp : Rio) (buf : List Byte) (received csum : Nat) (out : List Byte), rp.Healthy →
    buf.length = maxBuf → rp.ahead = bytes → received + bytes.length < 2 ^ 31 →
    ∃ calls, bodyLoop print calls rp buf received csum out =
      .ok ((received + bytes.length : Nat), (csum + (bytes.map BitVec.toNat).sum) % 2 ^ 32,
        if print then out ++ bytes else out) := by
  induction short with
  | @last as absent few =>
      intro rp buf received csum out healthy room ahead small
      have whole : line newline rp.ahead = as := by rw [ahead, line_of_not_mem absent]
      by_cases empty : as = []
      · refine ⟨1, ?_⟩
        have small' : received < 2 ^ 31 := by omega
        rw [bodyLoop_end healthy room (ahead.trans empty) small', empty]
        simp
      · obtain ⟨buf', rp', size, healthy', split, round⟩ :=
          bodyLoop_line print healthy room (by rw [whole]; exact few)
        have ended : rp'.ahead = [] := by
          rw [whole, ahead] at split
          exact List.self_eq_append_right.mp split
        have more : ¬ 2 ^ 31 ≤ (received : Int) + (as.length : Nat) := by omega
        refine ⟨2, ?_⟩
        rw [round, whole, if_neg more, if_pos (List.length_pos_of_ne_nil empty), ← Int.natCast_add,
          bodyLoop_end healthy' size ended small, Nat.mod_mod]
  | @more front rest absent few later ih =>
      intro rp buf received csum out healthy room ahead small
      have first : line newline rp.ahead = front ++ [newline] := by rw [ahead, line_append absent]
      have length : (front ++ [newline]).length = front.length + 1 := by
        rw [List.length_append, List.length_singleton]
      rw [List.length_append, List.length_cons] at small
      obtain ⟨buf', rp', size, healthy', split, round⟩ :=
        bodyLoop_line print healthy room (by rw [first, length]; exact few)
      have behind : rp'.ahead = rest := by
        rw [first, ahead, List.append_cons] at split
        exact (List.append_cancel_left split).symm
      obtain ⟨calls, ran⟩ := ih rp' buf' (received + (front.length + 1))
        ((csum + ((front ++ [newline]).map BitVec.toNat).sum) % 2 ^ 32)
        (if print then out ++ (front ++ [newline]) else out) healthy' size behind (by omega)
      have more : ¬ 2 ^ 31 ≤ (received : Int) + ((front.length + 1 : Nat) : Int) := by omega
      refine ⟨calls + 1, ?_⟩
      rw [round, first, length, if_neg more, if_pos (Nat.succ_pos _), ← Int.natCast_add, ran,
        checksum_append, List.append_cons front newline rest, List.length_append, length,
          Nat.add_assoc]
      cases print <;> simp

/-- The loop does not come over a line that has no room. -/
theorem short_of_bodyLoop (calls : Nat) :
    ∀ (rp : Rio) (buf : List Byte) (received : Int) (csum : Nat)
    (out : List Byte) (r : Int × Nat × List Byte), rp.Healthy → buf.length = maxBuf →
    bodyLoop print calls rp buf received csum out = .ok r → Short newline maxBuf rp.ahead := by
  induction calls with
  | zero =>
      intro _ _ _ _ _ _ _ _ run
      cases run
  | succ calls ih =>
      intro rp buf received csum out r healthy room run
      by_cases short : (line newline rp.ahead).length < maxBuf
      · obtain ⟨buf', rp', size, healthy', split, round⟩ := bodyLoop_line print healthy room short
        rw [round] at run
        refine .of_line short split fun ends => ?_
        have some := List.length_pos_of_mem ends
        rw [if_pos some] at run
        by_cases many : 2 ^ 31 ≤ received + ((line newline rp.ahead).length : Nat)
        · rw [if_pos many] at run
          cases run
        · rw [if_neg many] at run
          exact ih rp' buf' _ _ _ r healthy' size run
      · unfold bodyLoop at run
        rw [readLine_outside room (Nat.not_lt.mp short)] at run
        cases run

/-- The loop writes behind the buffer when it comes to a line that has no room; by induction on the
bytes that are left. -/
theorem bodyLoop_overrun (print : Bool) (most : Nat) : ∀ (rp : Rio) (buf : List Byte)
    (received csum : Nat) (out : List Byte), rp.ahead.length ≤ most → rp.Healthy →
    buf.length = maxBuf → received + rp.ahead.length < 2 ^ 31 → ¬ Short newline maxBuf rp.ahead →
    ∃ calls, bodyLoop print calls rp buf received csum out = .error .undefined := by
  induction most with
  | zero =>
      intro rp buf received csum out few healthy room small long
      have empty : rp.ahead = [] := List.eq_nil_of_length_eq_zero (Nat.le_zero.mp few)
      rw [empty] at long
      exact absurd (.last List.not_mem_nil (by decide)) long
  | succ most ih =>
      intro rp buf received csum out few healthy room small long
      by_cases short : (line newline rp.ahead).length < maxBuf
      · obtain ⟨buf', rp', size, healthy', split, round⟩ := bodyLoop_line print healthy room short
        have ends : newline ∈ line newline rp.ahead := by
          by_contra absent
          exact long (.of_line short split fun ends => absurd ends absent)
        have long' : ¬ Short newline maxBuf rp'.ahead := fun later =>
          long (.of_line short split fun _ => later)
        have some := List.length_pos_of_mem ends
        have length := congrArg List.length split
        rw [List.length_append] at length
        have more : ¬ 2 ^ 31 ≤ (received : Int) + ((line newline rp.ahead).length : Nat) := by omega
        obtain ⟨calls, ran⟩ := ih rp' buf' (received + (line newline rp.ahead).length)
          ((csum + ((line newline rp.ahead).map BitVec.toNat).sum) % 2 ^ 32)
          (if print then out ++ line newline rp.ahead else out) (by omega) healthy' size (by omega)
          long'
        refine ⟨calls + 1, ?_⟩
        rw [round, if_neg more, if_pos some, ← Int.natCast_add, ran]
      · refine ⟨1, ?_⟩
        unfold bodyLoop
        rw [readLine_outside room (Nat.not_lt.mp short)]
        rfl

/-- The loop over the body does not depend on how many calls it may make. -/
theorem bodyLoop_more (calls : Nat) : ∀ (rp : Rio) (buf : List Byte) (received : Int) (csum : Nat)
    (out : List Byte) (r : Int × Nat × List Byte),
    bodyLoop print calls rp buf received csum out = .ok r →
    ∀ more, bodyLoop print (calls + more) rp buf received csum out = .ok r := by
  induction calls with
  | zero =>
      intro _ _ _ _ _ _ run
      cases run
  | succ calls ih =>
      intro rp buf received csum out r run more
      rw [Nat.add_right_comm]
      unfold bodyLoop at run ⊢
      obtain ⟨⟨n, buf', rp'⟩, ran, run⟩ := ok_of_bind run
      rw [ran, ok_bind]
      dsimp only at run ⊢
      generalize (if print then out ++ buf'.take n.toNat else out) = out' at run ⊢
      split_ifs at run ⊢ with many goes
      · exact ih _ _ _ _ _ r run more
      · exact run

theorem bodyLoop_unique {rp : Rio} {calls calls' : Nat} {buf out : List Byte} {received : Int}
    {csum : Nat}
    {r r' : Int × Nat × List Byte} (run : bodyLoop print calls rp buf received csum out = .ok r)
    (run' : bodyLoop print calls' rp buf received csum out = .ok r') : r = r' := by
  have first := bodyLoop_more calls rp buf received csum out r run calls'
  rw [Nat.add_comm, bodyLoop_more calls' rp buf received csum out r' run' calls] at first
  exact (Except.ok.inj first).symm

/-- When the loop over the body comes to its end, and what it leaves. -/
theorem bodyLoop_iff (print : Bool) {rp : Rio} {buf : List Byte} (healthy : rp.Healthy)
    (room : buf.length = maxBuf) (small : rp.ahead.length < 2 ^ 31) (out : List Byte)
    (r : Int × Nat × List Byte) :
    (∃ calls, bodyLoop print calls rp buf 0 0 out = .ok r) ↔ Short newline maxBuf rp.ahead ∧
      r = ((rp.ahead.length : Int), checksum rp.ahead, if print then out ++ rp.ahead else out) := by
  have small' : 0 + rp.ahead.length < 2 ^ 31 := by omega
  have whole : Short newline maxBuf rp.ahead → ∃ calls, bodyLoop print calls rp buf 0 0 out =
      .ok ((rp.ahead.length : Int), checksum rp.ahead, if print then out ++ rp.ahead else out) := by
    intro short
    obtain ⟨calls, run⟩ :=
      bodyLoop_short print rp.ahead short rp buf 0 0 out healthy room rfl small'
    rw [Nat.zero_add, Nat.zero_add] at run
    exact ⟨calls, run⟩
  constructor
  · rintro ⟨calls, run⟩
    have short := short_of_bodyLoop calls rp buf 0 0 out _ healthy room run
    obtain ⟨calls', run'⟩ := whole short
    exact ⟨short, bodyLoop_unique run run'⟩
  · rintro ⟨short, rfl⟩
    exact whole short

end Body

end Ece344Lab.Webserver
