import Ece344Lab.Lib.Scan
import Ece344Lab.Webserver.Headers

set_option autoImplicit false

/- What goes over a connection: `rio_write` on one side, and on the other side `request_init` as far
as it reads. -/
namespace Ece344Lab.Webserver

open Bytes (text)
open Line Outcome Scan

/-- What one call of `write` does. -/
inductive WriteResult
  | interrupted
  | failed
  | wrote (n : Nat) (some : 0 < n)

/-- The loop of `rio_write`: whether it has come to its end, and the bytes that have been written.
Behind the list `write` takes everything. -/
def rioWriteLoop : List WriteResult → List Byte → Bool × List Byte
  | [], left => (true, left)
  | .interrupted :: results, left => if left = [] then (true, []) else rioWriteLoop results left
  | .failed :: _, left => (left = [], [])
  | .wrote n _ :: results, left =>
      if left = [] then (true, [])
      else
        let (whole, written) := rioWriteLoop results (left.drop n)
        (whole, left.take n ++ written)

/-- `rio_write`: what it returns, and the bytes that have been written. -/
def rioWrite (results : List WriteResult) (usrbuf : List Byte) : Int × List Byte :=
  let (whole, written) := rioWriteLoop results usrbuf
  (if whole then usrbuf.length else -1, written)

/-- `Rio_write`. -/
def wrapperRioWrite (results : List WriteResult) (usrbuf : List Byte) : Except Fault (List Byte) :=
  let (n, written) := rioWrite results usrbuf
  if n ≠ usrbuf.length then .error .exits else .ok written

theorem rioWriteLoop_whole (results : List WriteResult) (left : List Byte) :
    (rioWriteLoop results left).2 <+: left ∧
      ((rioWriteLoop results left).1 = true → (rioWriteLoop results left).2 = left) := by
  induction results generalizing left with
  | nil => exact ⟨List.prefix_rfl, fun _ => rfl⟩
  | cons result results ih =>
      by_cases empty : left = []
      · subst empty
        cases result <;> exact ⟨List.prefix_rfl, fun _ => rfl⟩
      · cases result with
        | interrupted =>
            unfold rioWriteLoop
            rw [if_neg empty]
            exact ih left
        | failed => exact ⟨List.nil_prefix, fun whole => absurd (of_decide_eq_true whole) empty⟩
        | wrote n _ =>
            obtain ⟨begins, whole⟩ := ih (left.drop n)
            unfold rioWriteLoop
            rw [if_neg empty]
            dsimp only
            refine ⟨?_, fun done => by rw [whole done, List.take_append_drop]⟩
            conv_rhs => rw [← List.take_append_drop n left]
            exact (List.prefix_append_right_inj _).mpr begins

/-- What `Rio_write` has written when it returns, however `write` splits it. -/
theorem wrapperRioWrite_eq {results : List WriteResult} {usrbuf written : List Byte}
    (returned : wrapperRioWrite results usrbuf = .ok written) : written = usrbuf := by
  have whole := (rioWriteLoop_whole results usrbuf).2
  unfold wrapperRioWrite rioWrite at returned
  dsimp only at returned
  by_cases done : (rioWriteLoop results usrbuf).1 = true
  · rw [if_pos done, if_neg (not_not.mpr rfl)] at returned
    rw [← Except.ok.inj returned]
    exact whole done
  · have short : (-1 : Int) ≠ usrbuf.length := by omega
    rw [if_neg done, if_pos short] at returned
    cases returned

/-- No call of `read` fails. -/
def Rio.Healthy (rp : Rio) : Prop := ReadResult.failed ∉ rp.reads

/-- What has been written arrives, in pieces of any sizes. -/
structure Rio.Carries (rp : Rio) (bytes : List Byte) : Prop where
  unread : rp.unread = bytes
  healthy : rp.Healthy

section Reading

variable {rp : Rio}

theorem available_healthy {reads : List ReadResult} (healthy : ReadResult.failed ∉ reads) :
    available reads = stream reads := by
  induction reads with
  | nil => rfl
  | cons read reads ih =>
      have later := ih fun member => healthy (List.mem_cons_of_mem _ member)
      cases read with
      | interrupted => exact later
      | failed => exact absurd List.mem_cons_self healthy
      | data bytes _ _ => exact congrArg (bytes ++ ·) later

theorem Rio.Healthy.ahead (healthy : rp.Healthy) : rp.ahead = rp.unread :=
  congrArg (rp.buffered ++ ·) (available_healthy healthy)

theorem refillLoop_healthy (reads : List ReadResult) : ∀ rp : Rio, ReadResult.failed ∉ reads →
    (refillLoop rp reads).1 ≠ some (-1) ∧ (refillLoop rp reads).2.Healthy := by
  induction reads with
  | nil => exact fun rp _ => ⟨fun bad => absurd (Option.some.inj bad) (by decide), List.not_mem_nil⟩
  | cons read reads ih =>
      intro rp healthy
      have later : ReadResult.failed ∉ reads := fun member =>
        healthy (List.mem_cons_of_mem _ member)
      cases read with
      | interrupted => exact ih _ later
      | failed => exact absurd List.mem_cons_self healthy
      | data bytes _ _ => exact ⟨Option.some_ne_none (-1) ∘ Eq.symm, later⟩

theorem rioReadb_healthy (healthy : rp.Healthy) (n : Nat) :
    (rioReadb rp n).1 ≠ -1 ∧ (rioReadb rp n).2.2.Healthy := by
  have refilled := refillLoop_healthy rp.reads rp healthy
  unfold rioReadb
  by_cases empty : rp.rioCnt ≤ 0
  · rw [if_pos empty]
    generalize refillLoop rp rp.reads = result at refilled
    obtain ⟨left, rp'⟩ := result
    obtain ⟨sound, healthy'⟩ := refilled
    cases left with
    | some ret => exact ⟨fun bad => sound (congrArg some bad), healthy'⟩
    | none => exact ⟨by dsimp only; omega, healthy'⟩
  · rw [if_neg empty]
    exact ⟨by dsimp only; omega, healthy⟩

theorem lineLoop_healthy (left : Nat) : ∀ (rp : Rio) (usrbuf : List Byte) (n : Nat), rp.Healthy →
    Sat (lineLoop left rp usrbuf n) (fun r => 0 ≤ r.1 ∧ r.2.2.Healthy) (fun _ => True) := by
  have finish : ∀ (rp : Rio) (usrbuf : List Byte) (n : Nat), rp.Healthy →
      Sat (finishLine rp usrbuf n) (fun r => 0 ≤ r.1 ∧ r.2.2.Healthy) (fun _ => True) := by
    intro rp usrbuf n healthy
    apply Sat.bind (sat_true _)
    exact fun _ _ => ⟨Int.natCast_nonneg n, healthy⟩
  induction left with
  | zero => exact finish
  | succ left ih =>
      intro rp usrbuf n healthy
      obtain ⟨sound, healthy'⟩ := rioReadb_healthy healthy 1
      have kind := rioReadb_one rp
      unfold lineLoop
      generalize rioReadb rp 1 = result at sound healthy' kind
      cases kind with
      | byte c rp' _ _ =>
          dsimp only
          rw [if_pos rfl]
          apply Sat.bind (sat_true _)
          intro usrbuf' _
          apply Sat.bind (sat_true _)
          intro n' _
          exact Sat.ite (fun _ => finish rp' usrbuf' n' healthy') fun _ =>
            ih rp' usrbuf' n' healthy'
      | ended rp' _ _ _ _ =>
          dsimp only
          rw [if_neg (by decide), if_pos rfl]
          exact Sat.ite (fun _ => ⟨Int.le_refl 0, healthy'⟩) fun _ => finish rp' usrbuf n healthy'
      | failed => exact absurd rfl sound

theorem readLine (healthy : rp.Healthy) {buf : List Byte} (room : buf.length = maxLine)
    (short : (line newline rp.ahead).length < maxLine) :
    ∃ buf' rp', wrapperRioReadlineb rp buf maxLine =
      .ok (((line newline rp.ahead).length : Nat), buf', rp') ∧
      buf'.length = maxLine ∧ rp'.Healthy ∧ rp.ahead = line newline rp.ahead ++ rp'.ahead ∧
      buf'.take (line newline rp.ahead).length = line newline rp.ahead ∧
      (rp.ahead ≠ [] → ∃ after, buf' = line newline rp.ahead ++ 0 :: after) := by
  have sound := lineLoop_healthy maxLine rp buf 0 healthy
  change Sat (rioReadlineb rp buf maxLine) _ _ at sound
  unfold wrapperRioReadlineb
  rcases rioReadlineb_inside room short (short.trans (by decide)) with
    ⟨rp', after, run, size, read⟩ | ⟨rp', run, none, none'⟩ | ⟨usrbuf, rp', run, _⟩
  · rw [run] at sound ⊢
    rw [ok_bind]
    dsimp only
    rw [if_neg (Int.not_lt.mpr sound.1)]
    exact ⟨_, rp', rfl, size, sound.2, read.ahead, List.take_left, fun _ => ⟨after, rfl⟩⟩
  · rw [run] at sound ⊢
    rw [ok_bind, none]
    dsimp only
    rw [if_neg (Int.lt_irrefl 0)]
    exact ⟨buf, rp', rfl, room, sound.2, by rw [none']; rfl, rfl, fun some => absurd rfl some⟩
  · rw [run] at sound
    have negative : (0 : Int) ≤ -1 := sound.1
    exact absurd negative (by decide)

/-- A line that has no room is written behind the buffer. -/
theorem readLine_outside {buf : List Byte} (room : buf.length = maxLine)
    (long : maxLine ≤ (line newline rp.ahead).length) :
    wrapperRioReadlineb rp buf maxLine = .error .undefined := by
  unfold wrapperRioReadlineb
  rw [rioReadlineb_outside room fun both => absurd both.1 (Nat.not_lt.mpr long)]
  rfl

end Reading

/-- `sscanf` with `"%s %s %s"` on the first line of a request. A word that is missing leaves its
array as it was. -/
def scanRequest (words : HttpRequest) (str : List Byte) : HttpRequest :=
  let (method, rest) := word str
  if method = [] then words
  else
    let (uri, _) := word rest
    { method, uri := if uri = [] then words.uri else uri }

/-- `request_init` on a connection, with what its arrays hold at first, and as far as it comes with
a number of calls of `Rio_readlineb`. -/
def requestInitRead (calls : Nat) (rp : Rio) (buf headers : List Byte) (words : HttpRequest) :
    Except Fault (List Byte × Option FileData) := do
  let (_, buf, rp) ← wrapperRioReadlineb rp buf maxLine
  let init ← requestInit (scanRequest words (cString buf))
  if init.2.isSome then do
    let _ ← requestReadHeaders calls rp headers
    .ok init
  else .ok init

/-- `client_send`: the bytes that are written. -/
def clientSend (host filename : List Byte) : Except Fault (List Byte) :=
  -- the second `sprintf` copies the first line from the buffer to where it already is
  let buf := text "GET " ++ filename ++ text " HTTP/1.0\r\n" ++ text "host: " ++ host ++
    text "\r\n\r\n"
  if maxLine ≤ buf.length then .error .undefined else .ok buf

/-- A word without a NUL. -/
structure Word (w : List Byte) : Prop where
  nonempty : w ≠ []
  plain : ∀ b ∈ w, isSpace b = false ∧ b ≠ 0

section Request

variable {rp : Rio} {host filename request : List Byte}

/-- Lines that are short and end with an empty one. -/
theorem HeadersEnd.of_ending (front : List Byte) (short : front.length + 3 < maxLine) :
    HeadersEnd (front ++ newline :: crlf) := by
  generalize size : front.length = k at short
  induction k using Nat.strong_induction_on generalizing front with
  | _ k ih =>
      rcases line_cases newline front with ⟨absent, _⟩ | ⟨first, rest, absent, rfl, _⟩
      · exact .more absent (by omega) (.empty [])
      · rw [List.length_append, List.length_cons] at size
        rw [List.append_assoc, List.cons_append]
        exact .more absent (by omega) (ih rest.length (by omega) rest rfl (by omega))

theorem clientSend_eq (sent : clientSend host filename = .ok request) :
    request.length < maxLine ∧ request = text "GET " ++ filename ++ text " HTTP/1.0\r" ++
      newline :: (text "host: " ++ host ++ [13#8] ++ newline :: crlf) := by
  unfold clientSend at sent
  dsimp only at sent
  split_ifs at sent with long
  rw [← Except.ok.inj sent]
  refine ⟨Nat.not_le.mp long, ?_⟩
  have first : text " HTTP/1.0\r\n" = text " HTTP/1.0\r" ++ [newline] := rfl
  have last : text "\r\n\r\n" = [13#8] ++ newline :: crlf := rfl
  rw [first, last]
  simp only [List.append_assoc, List.cons_append, List.nil_append]

/-- The words of the first line. -/
theorem scanRequest_client (name : Word filename) (words : HttpRequest) (rest : List Byte) :
    scanRequest words (text "GET " ++ filename ++ text " HTTP/1.0\r" ++ rest) =
      ⟨text "GET", filename⟩ := by
  have get : word (text "GET " ++ filename ++ text " HTTP/1.0\r" ++ rest) =
      (text "GET", 32#8 :: (filename ++ 32#8 :: (text "HTTP/1.0\r" ++ rest))) := by
    have front : text "GET " ++ filename ++ text " HTTP/1.0\r" ++ rest =
        text "GET" ++ 32#8 :: (filename ++ 32#8 :: (text "HTTP/1.0\r" ++ rest)) := by
      have first : text "GET " = text "GET" ++ [32#8] := rfl
      have second : text " HTTP/1.0\r" = 32#8 :: text "HTTP/1.0\r" := rfl
      rw [first, second]
      simp only [List.append_assoc, List.cons_append, List.nil_append]
    rw [front]
    exact word_append (by decide) (by decide) rfl
  unfold scanRequest
  rw [get]
  dsimp only
  rw [if_neg (by decide), word_space rfl,
    word_append name.nonempty (fun b member => (name.plain b member).1) rfl]
  dsimp only
  rw [if_neg name.nonempty]

/-- The server takes the request of a client as it was meant. -/
theorem request_init_client (sent : clientSend host filename = .ok request) (name : Word filename)
    (carries : rp.Carries request) {buf headers : List Byte} (room : buf.length = maxLine)
    (room' : headers.length = maxLine) (words : HttpRequest) :
    ∃ calls, requestInitRead calls rp buf headers words =
      .ok ([], some ⟨text "./" ++ filename, [], 0⟩) := by
  obtain ⟨fits, shape⟩ := clientSend_eq sent
  have ahead : rp.ahead = request := carries.healthy.ahead.trans carries.unread
  have absent : newline ∉ text "GET " ++ filename ++ text " HTTP/1.0\r" := by
    rw [List.mem_append, List.mem_append]
    rintro ((front | inside) | back)
    · exact absurd front (by decide)
    · exact absurd (name.plain newline inside).1 (by decide)
    · exact absurd back (by decide)
  have noNul : ∀ b ∈ text "GET " ++ filename ++ text " HTTP/1.0\r" ++ [newline], b ≠ 0 := by
    intro b member
    simp only [List.mem_append] at member
    rcases member with ((front | inside) | back) | last
    · revert front b
      decide
    · exact (name.plain b inside).2
    · revert back b
      decide
    · revert last b
      decide
  have first : line newline rp.ahead =
      text "GET " ++ filename ++ text " HTTP/1.0\r" ++ [newline] := by
    rw [ahead, shape]
    exact line_append absent _
  have short : (line newline rp.ahead).length < maxLine :=
    Nat.lt_of_le_of_lt (line_begins newline rp.ahead).length_le (ahead ▸ fits)
  obtain ⟨buf', rp', run, _, healthy, split, _, full⟩ := readLine carries.healthy room short
  have some : rp.ahead ≠ [] := by
    rw [ahead, shape]
    exact List.append_ne_nil_of_right_ne_nil _ (List.cons_ne_nil _ _)
  obtain ⟨after, rfl⟩ := full some
  have behind : rp'.ahead = text "host: " ++ host ++ [13#8] ++ newline :: crlf := by
    rw [first, ahead, shape, List.append_cons] at split
    exact (List.append_cancel_left split).symm
  have ends : HeadersEnd rp'.ahead := by
    rw [behind]
    apply HeadersEnd.of_ending
    rw [shape] at fits
    simp only [List.length_append, List.length_cons, List.length_nil] at fits ⊢
    omega
  obtain ⟨calls, rp'', read⟩ := ends.returns rp' headers rfl room'
  have name' : requestParseURI filename maxLine = text "./" ++ filename := by
    apply List.take_of_length_le
    rw [shape] at fits
    have get : (text "GET ").length = 4 := rfl
    have dot : (text "./").length = 2 := rfl
    simp only [List.length_append, get, dot] at fits ⊢
    omega
  refine ⟨calls, ?_⟩
  unfold requestInitRead
  rw [run, ok_bind]
  dsimp only
  rw [first, cString_append noNul, scanRequest_client name]
  unfold requestInit
  rw [if_neg fun other => other rfl, name', ok_bind]
  dsimp only
  rw [Option.isSome_some, if_pos rfl, read, ok_bind]

end Request

end Ece344Lab.Webserver
