import Seaweed.Library.Numerals
import Seaweed.Library.Words

/-!
# Numbers as strings (`itob` in `libk/string.c`)

The digits of a number come out last one first, so `itob` fills its buffer of 50 bytes from the end,
and returns where it has stopped.

* `itob` — the code; `itobStores` — the bytes that it writes.
* `ItobResult.string` — what a caller reads from the pointer on.
* `evaluate` — the number that a string of digits stands for.
* `pushed_itobLoop`, `string_itob` — the string is the numeral of the number.
* **`itob_roundTrips`** — it is a string of digits that stands for the number, inside the buffer.
-/

namespace Seaweed

open Numerals Words

/-! ## The code -/

/-- The bases that the callers use. -/
inductive Base
  | ten
  | sixteen
  deriving DecidableEq

def Base.value : Base → UInt64
  | .ten => 10
  | .sixteen => 16

/-- `hold[]`: the characters from `0` to `F`. -/
def digitChars : List UInt8 := [48, 49, 50, 51, 52, 53, 54, 55, 56, 57, 65, 66, 67, 68, 69, 70]

/-- A character of it; what follows is its NUL. -/
def digitChar (d : ℕ) : UInt8 := digitChars[d]?.getD 0

/-- `buffer` is what is around the static buffer, which has the places from 0 to 49. -/
structure ItobResult where
  buffer : ℤ → UInt8
  str : ℤ

def bufferSize : ℕ := 50

/-- `*--str = c;` -/
def ItobResult.push (s : ItobResult) (c : UInt8) : ItobResult where
  buffer := Function.update s.buffer (s.str - 1) c
  str := s.str - 1

lemma div_base_lt {num : UInt64} (base : Base) (h : num / base.value ≠ 0) :
    (num / base.value).toNat < num.toNat := by
  have hquot := toNat_pos h
  have hbase : 2 ≤ base.value.toNat := by cases base <;> decide
  rw [UInt64.toNat_div] at hquot ⊢
  exact Nat.div_lt_self (Nat.pos_of_div_pos hquot) hbase

/-- The loop, with the number that is left. -/
def itobLoop (base : Base) (num : UInt64) (s : ItobResult) : ItobResult :=
  let s := s.push (digitChar (num % base.value).toNat)
  if num / base.value ≠ 0 then itobLoop base (num / base.value) s else s
termination_by num.toNat
decreasing_by exact div_base_lt base ‹_›

def itob (buffer : ℤ → UInt8) (num : UInt64) (base : Base) : ItobResult :=
  itobLoop base num ⟨Function.update buffer 49 0, 49⟩

/-- The places that the loop writes, from `str - 1` down. -/
def itobLoopStores (base : Base) (num : UInt64) (str : ℤ) : List ℤ :=
  (str - 1) :: if num / base.value ≠ 0 then itobLoopStores base (num / base.value) (str - 1) else []
termination_by num.toNat
decreasing_by exact div_base_lt base ‹_›

def itobStores (num : UInt64) (base : Base) : List ℤ := 49 :: itobLoopStores base num 49

/-- What is in the buffer from `str` on, up to the NUL. -/
def ItobResult.string (s : ItobResult) : List UInt8 :=
  ((List.range (bufferSize - s.str).toNat).map fun k : ℕ => s.buffer (s.str + k)).takeWhile (· ≠ 0)

/-! ## What should hold -/

/-- The number that a string of digits stands for. -/
def evaluate (base : Base) (string : List UInt8) : ℕ :=
  string.foldl (fun value c => value * base.value.toNat + digitChars.idxOf c) 0

/-- All bytes are written inside the buffer.  The string is in it and ends there, has digits of the
base and no zero in front, and stands for the number, so that no other number is printed like it; in
base 16 it is not longer than the columns of `%a`. -/
structure RoundTrips (buffer : ℤ → UInt8) (num : UInt64) (base : Base) : Prop where
  stores : ∀ i ∈ itobStores num base, 0 ≤ i ∧ i < bufferSize
  starts : 0 ≤ (itob buffer num base).str
  ends : (itob buffer num base).str + (itob buffer num base).string.length < bufferSize
  terminated : (itob buffer num base).buffer
    ((itob buffer num base).str + (itob buffer num base).string.length) = 0
  digits : ∀ c ∈ (itob buffer num base).string, c ∈ digitChars.take base.value.toNat
  nonempty : (itob buffer num base).string ≠ []
  leading : (itob buffer num base).string.head? = some (digitChar 0) →
    num = 0 ∧ (itob buffer num base).string = [digitChar 0]
  value : evaluate base (itob buffer num base).string = num.toNat
  distinct : ∀ buffer' num', (itob buffer' num' base).string = (itob buffer num base).string →
    num' = num
  columns : base = .sixteen → (itob buffer num base).string.length ≤ 16

variable {base : Base} {num : UInt64} {s s' s'' : ItobResult} {c : UInt8} {cs cs' : List UInt8}
  {d : ℕ}

/-! ## Digits -/

lemma one_lt_base (base : Base) : 1 < base.value.toNat := by
  cases base <;> decide

lemma base_le_sixteen (base : Base) : base.value.toNat ≤ 16 := by
  cases base <;> decide

/-- A digit has its place in the table. -/
lemma digitChar_spec (hd : d < 16) : digitChar d ≠ 0 ∧ digitChars.idxOf (digitChar d) = d ∧
    ∀ b, d < b → digitChar d ∈ digitChars.take b := by
  have hall : ∀ d, d < 16 → digitChar d ≠ 0 ∧ digitChars.idxOf (digitChar d) = d := by decide
  refine ⟨(hall d hd).1, (hall d hd).2, fun b hb => ?_⟩
  have hget : digitChars[d]? = some (digitChar d) := by
    rw [digitChar, List.getElem?_eq_getElem hd, Option.getD_some]
  refine List.mem_of_getElem? (i := d) ?_
  rw [List.getElem?_take_of_lt hb, hget]

/-- The numeral of a number, in characters. -/
def printedDigits (base : Base) (num : ℕ) : List UInt8 :=
  (numeral base.value.toNat num).map digitChar

lemma digit_lt (hd : d ∈ numeral base.value.toNat num.toNat) : d < base.value.toNat :=
  numeral_lt (one_lt_base base) hd

lemma printedDigits_ne_zero (hc : c ∈ printedDigits base num.toNat) : c ≠ 0 := by
  obtain ⟨d, hd, rfl⟩ := List.mem_map.mp hc
  exact (digitChar_spec ((digit_lt hd).trans_le (base_le_sixteen base))).1

/-- There are at most 20 decimal digits, and 16 hexadecimal ones. -/
lemma length_printedDigits (base : Base) (num : UInt64) :
    (printedDigits base num.toNat).length ≤ 20 ∧
      (base = .sixteen → (printedDigits base num.toNat).length ≤ 16) := by
  have hnum := num.toNat_lt
  rw [printedDigits, List.length_map]
  cases base with
  | ten =>
      have hbound : num.toNat < Base.ten.value.toNat ^ 20 := hnum.trans_le (by decide)
      exact ⟨length_numeral_le (by decide) (by decide) hbound, fun h => nomatch h⟩
  | sixteen =>
      have hbound : num.toNat < Base.sixteen.value.toNat ^ 16 := hnum.trans_le (by decide)
      have hlength := length_numeral_le (by decide) (by decide) hbound
      exact ⟨hlength.trans (by decide), fun _ => hlength⟩

lemma evaluate_map (ds : List ℕ) (hds : ∀ d ∈ ds, d < 16) :
    evaluate base (ds.map digitChar) = Nat.ofDigits base.value.toNat ds.reverse := by
  have hfold : ∀ value, (ds.map digitChar).foldl
      (fun value c => value * base.value.toNat + digitChars.idxOf c) value =
        ds.foldl (fun value d => value * base.value.toNat + d) value := by
    intro value
    rw [List.foldl_map]
    refine List.foldl_ext _ _ value fun value d hd => ?_
    rw [(digitChar_spec (hds d hd)).2.1]
  rw [evaluate, hfold, Nat.ofDigits_eq_foldr, List.foldr_reverse]
  refine List.foldl_ext _ _ 0 fun value d _ => ?_
  rw [Nat.mul_comm, Nat.add_comm]
  rfl

/-- **The numeral stands for its number.** -/
lemma evaluate_printedDigits (base : Base) (num : UInt64) :
    evaluate base (printedDigits base num.toNat) = num.toNat := by
  rw [printedDigits, evaluate_map _ fun d hd => (digit_lt hd).trans_le (base_le_sixteen base),
    ofDigits_numeral]

/-! ## Filling the buffer -/

/-- In going from one state to the other the characters have been put in front of the pointer. -/
structure Pushed (s s' : ItobResult) (cs : List UInt8) : Prop where
  str : s'.str + cs.length = s.str
  chars : ∀ (k : ℕ) c, cs[k]? = some c → s'.buffer (s'.str + k) = c
  behind : ∀ i, s.str ≤ i → s'.buffer i = s.buffer i

lemma pushed_push (s : ItobResult) (c : UInt8) : Pushed s (s.push c) [c] := by
  constructor
  case str => exact Int.sub_add_cancel s.str 1
  case chars =>
    intro k c' hc
    obtain ⟨hk, hget⟩ := List.getElem?_eq_some_iff.mp hc
    obtain rfl : k = 0 := Nat.lt_one_iff.mp hk
    rw [Nat.cast_zero, Int.add_zero]
    exact (Function.update_self (s.str - 1) c s.buffer).trans hget
  case behind =>
    intro i hi
    exact Function.update_of_ne (by omega) _ _

/-- What is pushed later comes first. -/
lemma Pushed.trans (h : Pushed s s' cs) (h' : Pushed s' s'' cs') : Pushed s s'' (cs' ++ cs) := by
  have hstr := h.str
  have hstr' := h'.str
  constructor
  case str =>
    rw [List.length_append]
    push_cast
    omega
  case chars =>
    intro k c hc
    rcases Nat.lt_or_ge k cs'.length with hlt | hge
    · rw [List.getElem?_append_left hlt] at hc
      exact h'.chars k c hc
    · rw [List.getElem?_append_right hge] at hc
      have hplace : s''.str + k = s'.str + (k - cs'.length : ℕ) := by omega
      rw [hplace, h'.behind _ (by omega)]
      exact h.chars _ c hc
  case behind =>
    intro i hi
    rw [h'.behind i (by omega), h.behind i hi]

lemma toNat_div_base (base : Base) (num : UInt64) :
    num / base.value = 0 ↔ num.toNat < base.value.toNat := by
  rw [← UInt64.toNat_inj, UInt64.toNat_div, UInt64.toNat_zero,
    Nat.div_eq_zero_iff_lt (Nat.zero_lt_of_lt (one_lt_base base))]

/-- **The loop writes the numeral.** -/
lemma pushed_itobLoop (base : Base) (num : UInt64) (s : ItobResult) :
    Pushed s (itobLoop base num s) (printedDigits base num.toNat) := by
  induction hnum : num.toNat using Nat.strong_induction_on generalizing num s with
  | _ n ih =>
      subst hnum
      have hlast := pushed_push s (digitChar (num % base.value).toNat)
      rw [UInt64.toNat_mod] at hlast
      rw [itobLoop]
      split_ifs with hmore
      · have hrest := ih _ (div_base_lt base hmore) (num / base.value)
          (s.push (digitChar (num % base.value).toNat)) rfl
        have hle := Nat.le_of_not_lt (mt (toNat_div_base base num).mpr hmore)
        rw [printedDigits, numeral_of_le (one_lt_base base) hle, List.map_append,
          List.map_singleton]
        rw [UInt64.toNat_mod, UInt64.toNat_div] at hrest
        exact hlast.trans hrest
      · have hlt := (toNat_div_base base num).mp (not_not.mp hmore)
        rw [Nat.mod_eq_of_lt hlt] at hlast
        rwa [printedDigits, numeral_of_lt hlt, List.map_singleton, UInt64.toNat_mod,
          Nat.mod_eq_of_lt hlt]

lemma mem_itobLoopStores (base : Base) (num : UInt64) (str i : ℤ)
    (hi : i ∈ itobLoopStores base num str) :
    str - (printedDigits base num.toNat).length ≤ i ∧ i < str := by
  induction hnum : num.toNat using Nat.strong_induction_on generalizing num str with
  | _ n ih =>
      subst hnum
      rw [itobLoopStores, List.mem_cons] at hi
      have hpos : 0 < (printedDigits base num.toNat).length := by
        rw [printedDigits, List.length_map]
        exact List.length_pos_of_ne_nil (numeral_ne_nil _ _)
      rcases hi with rfl | hrest
      · omega
      · split_ifs at hrest with hmore
        · have hbefore := ih _ (div_base_lt base hmore) (num / base.value) (str - 1) hrest rfl
          have hle := Nat.le_of_not_lt (mt (toNat_div_base base num).mpr hmore)
          rw [printedDigits, List.length_map] at hbefore ⊢
          rw [UInt64.toNat_div] at hbefore
          rw [numeral_of_le (one_lt_base base) hle, List.length_append, List.length_singleton]
          push_cast
          omega
        · exact absurd hrest List.not_mem_nil

/-! ## The string -/

/-- A string that has been pushed in front of a NUL at the end of the buffer. -/
lemma Pushed.string (h : Pushed s s' cs) (hstr : s.str = 49) (hnul : s.buffer 49 = 0)
    (hcs : ∀ c ∈ cs, c ≠ 0) : s'.string = cs := by
  have hlength := h.str
  have hsize : bufferSize = 50 := rfl
  have hlast : s'.buffer (s'.str + cs.length) = 0 := by
    rw [hlength, h.behind _ (Int.le_refl _), hstr, hnul]
  have hread : ((List.range (bufferSize - s'.str).toNat).map fun k : ℕ => s'.buffer (s'.str + k)) =
      cs ++ [0] := by
    have hcount : (bufferSize - s'.str).toNat = cs.length + 1 := by omega
    rw [hcount, List.range_succ, List.map_append, List.map_singleton, hlast]
    congr 1
    refine List.ext_getElem? fun k => ?_
    rcases Nat.lt_or_ge k cs.length with hlt | hge
    · have hchar := h.chars k _ (List.getElem?_eq_getElem hlt)
      rw [List.getElem?_map, List.getElem?_range hlt, Option.map_some, hchar,
        List.getElem?_eq_getElem hlt]
    · rw [List.getElem?_eq_none hge, List.getElem?_eq_none (by simpa using hge)]
  rw [ItobResult.string, hread, List.takeWhile_append_of_pos fun c hc => decide_eq_true (hcs c hc)]
  simp

lemma pushed_itob (buffer : ℤ → UInt8) (num : UInt64) (base : Base) :
    Pushed ⟨Function.update buffer 49 0, 49⟩ (itob buffer num base)
      (printedDigits base num.toNat) :=
  pushed_itobLoop base num _

/-- **What `itob` returns** is the numeral of the number, whatever was in the buffer. -/
theorem string_itob (buffer : ℤ → UInt8) (num : UInt64) (base : Base) :
    (itob buffer num base).string = printedDigits base num.toNat :=
  (pushed_itob buffer num base).string rfl (Function.update_self 49 0 buffer)
    fun _ hc => printedDigits_ne_zero hc

/-- The first character is not a zero, unless it is the only one. -/
lemma head_printedDigits (h : (printedDigits base num.toNat).head? = some (digitChar 0)) :
    num = 0 := by
  rw [printedDigits, List.head?_map, Option.map_eq_some_iff] at h
  obtain ⟨d, hd, hzero⟩ := h
  have hdigit := digit_lt (List.mem_of_mem_head? hd)
  have hindex := congrArg digitChars.idxOf hzero
  rw [(digitChar_spec (hdigit.trans_le (base_le_sixteen base))).2.1,
    (digitChar_spec (by decide)).2.1] at hindex
  rw [hindex] at hd
  exact UInt64.toNat_inj.mp (head_numeral hd)

/-- **Digit conversion round trips.** -/
theorem itob_roundTrips (buffer : ℤ → UInt8) (num : UInt64) (base : Base) :
    RoundTrips buffer num base := by
  have hstr : (itob buffer num base).str + (printedDigits base num.toNat).length = 49 :=
    (pushed_itob buffer num base).str
  have hlength := length_printedDigits base num
  have hsize : bufferSize = 50 := rfl
  constructor
  case stores =>
    intro i hi
    rcases List.mem_cons.mp hi with rfl | hi
    · decide
    · have hrange := mem_itobLoopStores base num 49 i hi
      omega
  case starts => omega
  case ends =>
    rw [string_itob]
    omega
  case terminated =>
    rw [string_itob, hstr, (pushed_itob buffer num base).behind 49 (Int.le_refl _)]
    exact Function.update_self 49 0 buffer
  case digits =>
    intro c hc
    rw [string_itob] at hc
    obtain ⟨d, hd, rfl⟩ := List.mem_map.mp hc
    exact (digitChar_spec ((digit_lt hd).trans_le (base_le_sixteen base))).2.2 _ (digit_lt hd)
  case nonempty =>
    rw [string_itob, printedDigits, Ne, List.map_eq_nil_iff]
    exact numeral_ne_nil _ _
  case leading =>
    intro hzero
    rw [string_itob] at hzero ⊢
    obtain rfl := head_printedDigits hzero
    exact ⟨rfl, rfl⟩
  case value => rw [string_itob, evaluate_printedDigits]
  case distinct =>
    intro buffer' num' hsame
    rw [string_itob, string_itob] at hsame
    have hvalue := congrArg (evaluate base) hsame
    rw [evaluate_printedDigits, evaluate_printedDigits] at hvalue
    exact UInt64.toNat_inj.mp hvalue
  case columns =>
    rw [string_itob]
    exact hlength.2

end Seaweed
