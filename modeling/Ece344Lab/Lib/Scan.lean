import Ece344Lab.Lib.Buffer
import Mathlib.Algebra.Ring.Nat

set_option autoImplicit false

/- Text as formatted input takes it apart: words, numbers in base ten, and numbers behind a tag.
What formatted output prints is taken apart again. -/
namespace Ece344Lab.Scan

open Bytes

/-- A space, a tabulator or the end of a line. -/
def isSpace (b : Byte) : Bool := b = 32#8 || (9 ≤ b.toNat && b.toNat ≤ 13)

def isDigit (b : Byte) : Bool := 48 ≤ b.toNat && b.toNat ≤ 57

/-- The bytes before the first NUL. -/
def cString (bytes : List Byte) : List Byte := bytes.takeWhile fun b => b ≠ 0

/-- The next word, and what is behind it. -/
def word (str : List Byte) : List Byte × List Byte :=
  let body := str.dropWhile isSpace
  (body.takeWhile fun b => !isSpace b, body.dropWhile fun b => !isSpace b)

/-- The value of digits in base ten. -/
def valueOf (digits : List Byte) : Nat := digits.foldl (fun n b => 10 * n + (b.toNat - 48)) 0

/-- Whether a number has a minus sign, and what is behind its sign. -/
def sign (str : List Byte) : Bool × List Byte :=
  if str.head? = some 45#8 then (true, str.tail)
  else if str.head? = some 43#8 then (false, str.tail)
  else (false, str)

def number (str : List Byte) : Option (Int × List Byte) :=
  let (negative, unsigned) := sign (str.dropWhile isSpace)
  let digits := unsigned.takeWhile isDigit
  if digits = [] then none
  else some (if negative then -(valueOf digits : Int) else valueOf digits,
    unsigned.dropWhile isDigit)

/-- The number behind a text. -/
def tagged (tag str : List Byte) : Option Int :=
  if tag.isPrefixOf str then (number (str.drop tag.length)).map Prod.fst else none

section Strings

variable {w rest : List Byte} {s : Byte}

theorem cString_append (noNul : ∀ b ∈ w, b ≠ 0) : cString (w ++ 0 :: rest) = w := by
  unfold cString
  rw [List.takeWhile_append_of_pos fun b member => decide_eq_true (noNul b member)]
  simp

theorem word_space (space : isSpace s = true) : word (s :: rest) = word rest := by
  unfold word
  rw [List.dropWhile_cons_of_pos space]

/-- A word is read up to the next space. -/
theorem word_append (some : w ≠ []) (plain : ∀ b ∈ w, isSpace b = false)
    (space : isSpace s = true) : word (w ++ s :: rest) = (w, s :: rest) := by
  obtain ⟨b, w, rfl⟩ := List.exists_cons_of_ne_nil some
  have first : isSpace b = false := plain b List.mem_cons_self
  have whole : ∀ c ∈ b :: w, (!isSpace c) = true := fun c member => by rw [plain c member]; rfl
  have stop : ¬ (!isSpace s) = true := by rw [space]; decide
  have body : ((b :: w) ++ s :: rest).dropWhile isSpace = (b :: w) ++ s :: rest :=
    List.dropWhile_cons_of_neg (by rw [first]; exact Bool.false_ne_true)
  unfold word
  dsimp only
  rw [body, List.takeWhile_append_of_pos whole, List.dropWhile_append_of_pos whole,
    List.takeWhile_cons, List.dropWhile_cons, if_neg stop, if_neg stop, List.append_nil]

end Strings

section Numbers

variable {n : Nat} {rest : List Byte} {s : Byte}

def digits (n : Nat) : List Byte := (Nat.toDigits 10 n).map fun c => BitVec.ofNat 8 c.toNat

theorem decimal_natCast (n : Nat) : decimal n = digits n := by
  unfold decimal digits text
  change (Nat.repr n).toList.map _ = _
  rw [Nat.toList_repr]

theorem decimal_negSucc (n : Nat) : decimal (Int.negSucc n) = 45#8 :: digits (n + 1) := by
  unfold decimal digits text
  change ("-" ++ Nat.repr (n + 1)).toList.map _ = _
  rw [String.toList_append, List.map_append, Nat.toList_repr]
  rfl

theorem digit_char {c : Char} (member : c ∈ Nat.toDigits 10 n) :
    48 ≤ c.toNat ∧ c.toNat ≤ 57 := by
  have digit := Nat.isDigit_of_mem_toDigits (by decide) (Nat.le_refl 10) member
  exact Char.isDigit_iff_toNat.mp digit

theorem digits_ne_nil : digits n ≠ [] := by
  unfold digits
  rw [Ne, List.map_eq_nil_iff]
  exact Nat.toDigits_ne_nil

theorem isDigit_of_mem {b : Byte} (member : b ∈ digits n) : isDigit b = true := by
  obtain ⟨c, inside, rfl⟩ := List.mem_map.mp member
  have bounds := digit_char inside
  unfold isDigit
  rw [BitVec.toNat_ofNat, Nat.mod_eq_of_lt (by omega)]
  simp [bounds]

theorem isSpace_of_isDigit {b : Byte} (digit : isDigit b = true) : isSpace b = false := by
  unfold isDigit at digit
  unfold isSpace
  have other : b ≠ 32#8 := by
    rintro rfl
    exact absurd digit (by decide)
  simp only [Bool.and_eq_true, decide_eq_true_eq] at digit
  simp only [Bool.or_eq_false_iff, decide_eq_false_iff_not, Bool.and_eq_false_iff]
  exact ⟨other, Or.inr (by omega)⟩

/-- A number is printed without spaces and without a NUL. -/
theorem decimal_plain {n : Int} {b : Byte} (member : b ∈ decimal n) :
    isSpace b = false ∧ b ≠ 0 := by
  have plain : ∀ m, b ∈ digits m → isSpace b = false ∧ b ≠ 0 := by
    intro m inside
    have digit := isDigit_of_mem inside
    refine ⟨isSpace_of_isDigit digit, ?_⟩
    rintro rfl
    exact absurd digit (by decide)
  cases n with
  | ofNat m =>
      rw [Int.ofNat_eq_natCast, decimal_natCast] at member
      exact plain m member
  | negSucc m =>
      rw [decimal_negSucc] at member
      rcases List.mem_cons.mp member with rfl | inside
      · decide
      · exact plain (m + 1) inside

theorem valueOf_digits (n : Nat) : valueOf (digits n) = n := by
  have same : ∀ (cs : List Char) (start : Nat), (∀ c ∈ cs, c.toNat ≤ 57) →
      (cs.map fun c => BitVec.ofNat 8 c.toNat).foldl (fun n b => 10 * n + (b.toNat - 48)) start =
        Nat.ofDigitChars 10 cs start := by
    intro cs
    induction cs with
    | nil => intro start _; rw [Nat.ofDigitChars_nil]; rfl
    | cons c cs ih =>
        intro start bound
        have first := bound c List.mem_cons_self
        rw [List.map_cons, List.foldl_cons, Nat.ofDigitChars_cons,
          ih _ fun d member => bound d (List.mem_cons_of_mem _ member), BitVec.toNat_ofNat,
          Nat.mod_eq_of_lt (by omega)]
        rfl
  unfold valueOf digits
  rw [same _ _ fun c member => (digit_char member).2, Nat.ofDigitChars_ten_toDigits]

theorem sign_digit {b : Byte} (digit : isDigit b = true) :
    sign (b :: rest) = (false, b :: rest) := by
  have plain : b ≠ 45#8 ∧ b ≠ 43#8 := by
    constructor
    all_goals
      rintro rfl
      exact absurd digit (by decide)
  unfold sign
  rw [List.head?_cons, if_neg fun same => plain.1 (Option.some.inj same),
    if_neg fun same => plain.2 (Option.some.inj same)]

/-- A number ends before what is not a digit. -/
theorem head_not_digit {b : Byte} (plain : isDigit b = false) :
    ∀ c, (b :: rest).head? = some c → isDigit c = false := by
  intro c same
  rw [← Option.some.inj same]
  exact plain

theorem number_decimal (n : Int) (stop : ∀ b, rest.head? = some b → isDigit b = false) :
    number (decimal n ++ rest) = some (n, rest) := by
  have taken : ∀ m, (digits m ++ rest).takeWhile isDigit = digits m ∧
      (digits m ++ rest).dropWhile isDigit = rest := by
    intro m
    rw [List.takeWhile_append_of_pos fun b => isDigit_of_mem,
      List.dropWhile_append_of_pos fun b => isDigit_of_mem]
    cases rest with
    | nil => exact ⟨List.append_nil _, rfl⟩
    | cons b rest =>
        have plain : ¬ isDigit b = true := by
          rw [stop b rfl]
          exact Bool.false_ne_true
        rw [List.takeWhile_cons, List.dropWhile_cons, if_neg plain, if_neg plain, List.append_nil]
        exact ⟨rfl, rfl⟩
  unfold number
  cases n with
  | ofNat m =>
      obtain ⟨b, bs, split⟩ := List.exists_cons_of_ne_nil (digits_ne_nil (n := m))
      have digit : isDigit b = true := isDigit_of_mem (split ▸ List.mem_cons_self)
      have plain : ¬ isSpace b = true := by
        rw [isSpace_of_isDigit digit]
        exact Bool.false_ne_true
      have body : (digits m ++ rest).dropWhile isSpace = digits m ++ rest := by
        rw [split, List.cons_append, List.dropWhile_cons_of_neg plain]
      have bare : sign (digits m ++ rest) = (false, digits m ++ rest) := by
        rw [split, List.cons_append, sign_digit digit]
      rw [Int.ofNat_eq_natCast, decimal_natCast, body, bare]
      dsimp only
      rw [(taken m).1, (taken m).2, if_neg digits_ne_nil, valueOf_digits, if_neg Bool.false_ne_true]
  | negSucc m =>
      have minus : sign (45#8 :: (digits (m + 1) ++ rest)) = (true, digits (m + 1) ++ rest) := rfl
      rw [decimal_negSucc, List.cons_append, List.dropWhile_cons_of_neg (by decide), minus]
      dsimp only
      rw [(taken _).1, (taken _).2, if_neg digits_ne_nil, valueOf_digits]
      rfl

theorem number_space (space : isSpace s = true) : number (s :: rest) = number rest := by
  unfold number
  rw [List.dropWhile_cons_of_pos space]

theorem tagged_append (tag str : List Byte) :
    tagged tag (tag ++ str) = (number str).map Prod.fst := by
  unfold tagged
  rw [List.isPrefixOf_iff_prefix.mpr (List.prefix_append tag str), if_pos rfl, List.drop_left]

theorem tagged_other {tag str : List Byte} (other : tag.isPrefixOf str = false) :
    tagged tag str = none := by
  unfold tagged
  rw [other, if_neg Bool.false_ne_true]

theorem length_digits_le {n k : Nat} (positive : 0 < k) (small : n < 10 ^ k) :
    (digits n).length ≤ k := by
  unfold digits
  rw [List.length_map]
  exact (Nat.length_toDigits_le_iff (by decide) positive).mpr small

end Numbers

end Ece344Lab.Scan
