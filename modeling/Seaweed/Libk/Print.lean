import Mathlib.Algebra.Order.BigOperators.Group.List
import Seaweed.Libk.Itob
import Seaweed.Libk.Output
import Seaweed.Libk.String

/-!
# Formatted output (`kprintDS` and `kprintVS` in `libk/output.c`, `printf` in `libu/logs.c`)

The three functions have a copy each of one loop over the format string, and send the characters to
the serial port, to the terminal, and to the serial port by a system call.

* `formatLoop` — the loop; `kprintDS`, `kprintVS`, `printf` — the code.
* `formatReads` — the places of the format string that it reads.
* `Piece` — a literal character or a conversion with its argument; `expansion` — what should be
  printed.
* `formatLoop_pieces` — what is printed: the expansion, but for `%d`, whose argument is kept in an
  unsigned variable.
* **`printsExpansion_iff`** — that is the expansion exactly if no argument of a `%d` is negative.
-/

namespace Seaweed

open Numerals Words

/-! ## The code -/

/-- A value of the argument list. -/
inductive Arg
  | long (v : Int64)
  | uint64 (v : UInt64)
  | int (v : Int32)
  | string (v : CString)

/-- `va_arg(arg, long)`; there is no value if the next argument has another type. -/
def vaLong : List Arg → Option (Int64 × List Arg)
  | .long v :: args => some (v, args)
  | _ => none

def vaUInt64 : List Arg → Option (UInt64 × List Arg)
  | .uint64 v :: args => some (v, args)
  | _ => none

def vaInt : List Arg → Option (Int32 × List Arg)
  | .int v :: args => some (v, args)
  | _ => none

def vaString : List Arg → Option (CString × List Arg)
  | .string v :: args => some (v, args)
  | _ => none

/-- `str[i]`; behind the bytes there is the NUL. -/
def CString.at (str : CString) (i : ℕ) : UInt8 := str.bytes[i]?.getD 0

/-- What the caller reads after `string = itob(hold, base)`. -/
def itobString (hold : UInt64) (base : Base) : List UInt8 := (itob (fun _ => 0) hold base).string

/-- `character = va_arg(arg, int)`. -/
def toCharacter (v : Int32) : UInt8 := v.toUInt32.toUInt8

def PERCENT : UInt8 := '%'.toUInt8

def ZERO : UInt8 := '0'.toUInt8

section

variable {σ : Type} (emit : σ → UInt8 → σ)

/-- The switch, with what is left of the arguments. -/
def formatSwitch (c : UInt8) (args : List Arg) (s : σ) : Option (List Arg × σ) :=
  if c = 'd'.toUInt8 then do
    let (hold, args) ← vaLong args
    return (args, (itobString hold.toUInt64 .ten).foldl emit s)
  else if c = 's'.toUInt8 then do
    let (string, args) ← vaString args
    return (args, string.bytes.foldl emit s)
  else if c = 'c'.toUInt8 then do
    let (character, args) ← vaInt args
    return (args, emit s (toCharacter character))
  else if c = 'x'.toUInt8 then do
    let (hold, args) ← vaUInt64 args
    return (args, (itobString hold .sixteen).foldl emit s)
  else if c = 'a'.toUInt8 then do
    let (hold, args) ← vaUInt64 args
    let string := itobString hold .sixteen
    let s := (List.replicate (16 - string.length) ZERO).foldl emit s
    return (args, string.foldl emit s)
  else return (args, s)

/-- The loop from `i` on.  There is no result if an argument is missing or has another type. -/
def formatLoop (str : CString) (i : ℕ) (args : List Arg) (s : σ) : Option σ :=
  if i < str.bytes.length then
    if str.at i ≠ PERCENT then formatLoop str (i + 1) args (emit s (str.at i))
    else do
      let (args, s) ← formatSwitch emit (str.at (i + 1)) args s
      formatLoop str (i + 2) args s
  else some s
termination_by str.bytes.length - i

end

/-- The places of the format string that the loop reads from `i` on; `strlen` reads all of them. -/
def formatReads (str : CString) (i : ℕ) : List ℕ :=
  List.range (str.bytes.length + 1) ++
    if i < str.bytes.length then
      i :: if str.at i ≠ PERCENT then formatReads str (i + 1)
        else (i + 1) :: formatReads str (i + 2)
    else []
termination_by str.bytes.length - i

/-- `serialWrite(c)`, with the characters that have been written. -/
def serialWrite (out : List UInt8) (c : UInt8) : List UInt8 := out ++ [c]

def kprintVS (str : CString) (args : List Arg) (s : Terminal) : Option Terminal :=
  formatLoop putchar str 0 args s

/-- `printSerial` makes the kernel call `serialWrite`. -/
def printf (str : CString) (args : List Arg) (out : List UInt8) : Option (List UInt8) := do
  let out ← formatLoop serialWrite str 0 args out
  return serialWrite out NEWLINE

inductive Colour
  | DEFAULT | BLACK | RED | GREEN | YELLOW | BLUE | MAGENTA | CYAN | LIGHTGRAY | RIGHTGRAY |
      LIGHTRED
  | LIGHTGREEN | LIGHTYELLOW | LIGHTBLUE | LIGHTMAGENTA | LIGHTCYAN | WHITE
  deriving DecidableEq

/-- The characters of a string constant. -/
def chars (text : String) : List UInt8 := text.toList.map Char.toUInt8

def ESCAPE : UInt8 := 27

def bashColours : List (List UInt8) :=
  ["[39m", "[30m", "[31m", "[32m", "[33m", "[34m", "[35m", "[36m", "[37m", "[90m", "[91m", "[92m",
    "[93m", "[94m", "[95m", "[96m", "[97m"].map fun text => ESCAPE :: chars text

/-- `bashColours[colour]` -/
def bashColour (colour : Colour) : List UInt8 := bashColours[colour.ctorIdx]?.getD []

structure PrefixEntry where
  text : String
  prefixColour : Colour
  textColour : Colour
  deriving DecidableEq

def prefixList : List PrefixEntry :=
  [⟨"[KDEBUG]", .GREEN, .YELLOW⟩, ⟨"[KMM]", .GREEN, .LIGHTRED⟩, ⟨"[ACPI]", .MAGENTA, .CYAN⟩,
    ⟨"[APIC]", .RED, .GREEN⟩, ⟨"[SMP]", .YELLOW, .LIGHTBLUE⟩, ⟨"[PCI]", .BLUE, .LIGHTGREEN⟩,
    ⟨"[AHCI]", .LIGHTRED, .LIGHTYELLOW⟩, ⟨"[FS]", .RED, .LIGHTGREEN⟩, ⟨"[NET]", .GREEN, .YELLOW⟩]

/-- The loop over `prefixList`.  The last turn sets the default colour, if it has not found the
text. -/
def prefixLoop (name : CString) : List PrefixEntry → List UInt8
  | [] => []
  | entry :: rest =>
      if chars entry.text = name.bytes then
        bashColour entry.prefixColour ++ name.bytes ++ bashColour entry.textColour ++ [SPACE]
      else if rest = [] then bashColour .DEFAULT
      else prefixLoop name rest

/-- `name` is the prefix. -/
def kprintDS (name str : CString) (args : List Arg) (out : List UInt8) : Option (List UInt8) := do
  let out := (prefixLoop name prefixList).foldl serialWrite out
  let out ← formatLoop serialWrite str 0 args out
  return serialWrite out NEWLINE

/-! ## What should hold -/

/-- A part of a format string, with its argument. -/
inductive Piece
  | literal (char : UInt8) (h : char ≠ PERCENT ∧ char ≠ 0)
  | d (v : Int64)
  | s (v : CString)
  | c (v : Int32)
  | x (v : UInt64)
  | a (v : UInt64)

def Piece.text : Piece → List UInt8
  | .literal char _ => [char]
  | .d _ => [PERCENT, 'd'.toUInt8]
  | .s _ => [PERCENT, 's'.toUInt8]
  | .c _ => [PERCENT, 'c'.toUInt8]
  | .x _ => [PERCENT, 'x'.toUInt8]
  | .a _ => [PERCENT, 'a'.toUInt8]

def Piece.args : Piece → List Arg
  | .literal _ _ => []
  | .d v => [.long v]
  | .s v => [.string v]
  | .c v => [.int v]
  | .x v => [.uint64 v]
  | .a v => [.uint64 v]

def HYPHEN : UInt8 := '-'.toUInt8

def signedDecimal (v : ℤ) : List UInt8 :=
  (if v < 0 then [HYPHEN] else []) ++ printedDigits .ten v.natAbs

/-- The 16 digits of the number. -/
def hexDigits (v : ℕ) : List UInt8 :=
  (List.range 16).map fun i => digitChar (v / 16 ^ (15 - i) % 16)

def Piece.expansion : Piece → List UInt8
  | .literal char _ => [char]
  | .d v => signedDecimal v.toInt
  | .s v => v.bytes
  | .c v => [toCharacter v]
  | .x v => printedDigits .sixteen v.toNat
  | .a v => hexDigits v.toNat

lemma conversion_ne_zero {c x : UInt8} (hc : c ≠ 0) (hx : x ∈ [PERCENT, c]) : x ≠ 0 := by
  rcases List.mem_pair.mp hx with rfl | rfl
  · decide
  · exact hc

lemma Piece.text_ne_zero (p : Piece) : ∀ x ∈ p.text, x ≠ 0 := by
  cases p with
  | literal char h =>
      intro x hx
      rw [List.mem_singleton.mp hx]
      exact h.2
  | _ => exact fun x hx => conversion_ne_zero (by decide) hx

/-- The format string. -/
def format (pieces : List Piece) : CString where
  bytes := pieces.flatMap Piece.text
  noNul x hx := by
    obtain ⟨p, _, hp⟩ := List.mem_flatMap.mp hx
    exact p.text_ne_zero x hp

/-- The argument list. -/
def arguments (pieces : List Piece) : List Arg := pieces.flatMap Piece.args

def expansion (pieces : List Piece) : List UInt8 := pieces.flatMap Piece.expansion

/-- The three functions print the expansion, `kprintDS` and `printf` with what they put around it,
and read no place of the format string behind its NUL. -/
structure PrintsExpansion (pieces : List Piece) : Prop where
  kprintVS : ∀ s, kprintVS (format pieces) (arguments pieces) s =
    some ((expansion pieces).foldl putchar s)
  printf : ∀ out, printf (format pieces) (arguments pieces) out =
    some (out ++ expansion pieces ++ [NEWLINE])
  kprintDS : ∀ name out, kprintDS name (format pieces) (arguments pieces) out =
    some (out ++ prefixLoop name prefixList ++ expansion pieces ++ [NEWLINE])
  reads : ∀ i ∈ formatReads (format pieces) 0, i ≤ (format pieces).bytes.length

variable {σ : Type} {emit : σ → UInt8 → σ} {str : CString} {i : ℕ} {args args' : List Arg}
  {s s' : σ} {before after : List UInt8} {pieces : List Piece} {v : Int64}

/-! ## The loop -/

/-- What the loop prints for a part of the format string. -/
def Piece.emitted : Piece → List UInt8
  | .literal char _ => [char]
  | .d v => itobString v.toUInt64 .ten
  | .s v => v.bytes
  | .c v => [toCharacter v]
  | .x v => itobString v .sixteen
  | .a v =>
      List.replicate (16 - (itobString v .sixteen).length) ZERO ++ itobString v .sixteen

lemma CString.at_add (h : str.bytes = before ++ after) (k : ℕ) :
    str.at (before.length + k) = after[k]?.getD 0 := by
  rw [CString.at, h, List.getElem?_append_right (Nat.le_add_right _ _), Nat.add_sub_cancel_left]

/-- A turn that finds a conversion. -/
lemma formatLoop_conversion (hi : i < str.bytes.length) (hpercent : str.at i = PERCENT)
    (hswitch : formatSwitch emit (str.at (i + 1)) args s = some (args', s')) :
    formatLoop emit str i args s = formatLoop emit str (i + 2) args' s' := by
  rw [formatLoop, if_pos hi, if_neg (not_not.mpr hpercent), hswitch]
  rfl

lemma Piece.text_length_pos (p : Piece) : 0 < p.text.length := by
  cases p with
  | _ => exact Nat.succ_pos _

/-- **One part of the format string.** -/
lemma formatLoop_piece (p : Piece) (h : str.bytes = before ++ (p.text ++ after)) :
    formatLoop emit str before.length (p.args ++ args) s =
      formatLoop emit str (before.length + p.text.length) args (p.emitted.foldl emit s) := by
  have hi : before.length < str.bytes.length := by
    have hpos := p.text_length_pos
    rw [h, List.length_append, List.length_append]
    omega
  have hfirst := CString.at_add h 0
  have hsecond := CString.at_add h 1
  cases p with
  | literal char hchar =>
      rw [formatLoop, if_pos hi, ← Nat.add_zero before.length, hfirst]
      exact if_pos hchar.1
  | d v =>
      refine formatLoop_conversion hi hfirst ?_
      rw [hsecond]
      rfl
  | s v =>
      refine formatLoop_conversion hi hfirst ?_
      rw [hsecond]
      rfl
  | c v =>
      refine formatLoop_conversion hi hfirst ?_
      rw [hsecond]
      rfl
  | x v =>
      refine formatLoop_conversion hi hfirst ?_
      rw [hsecond]
      rfl
  | a v =>
      refine formatLoop_conversion hi hfirst ?_
      rw [hsecond, Piece.emitted, List.foldl_append]
      rfl

/-- **The whole format string**, from a part on. -/
lemma formatLoop_pieces (pieces : List Piece)
    (h : str.bytes = before ++ pieces.flatMap Piece.text) :
    formatLoop emit str before.length (pieces.flatMap Piece.args) s =
      some ((pieces.flatMap Piece.emitted).foldl emit s) := by
  induction pieces generalizing before s with
  | nil =>
      rw [List.flatMap_nil, List.append_nil] at h
      rw [formatLoop, if_neg (by rw [h]; exact lt_irrefl _)]
      rfl
  | cons p pieces ih =>
      rw [List.flatMap_cons] at h
      have hrest : str.bytes = (before ++ p.text) ++ pieces.flatMap Piece.text := by
        rw [h, List.append_assoc]
      rw [List.flatMap_cons, List.flatMap_cons, formatLoop_piece p h, List.foldl_append,
        ← List.length_append]
      exact ih hrest

lemma formatLoop_format (emit : σ → UInt8 → σ) (pieces : List Piece) (s : σ) :
    formatLoop emit (format pieces) 0 (arguments pieces) s =
      some ((pieces.flatMap Piece.emitted).foldl emit s) := by
  have hbytes : (format pieces).bytes = [] ++ pieces.flatMap Piece.text := rfl
  exact formatLoop_pieces pieces hbytes

/-- Whatever the format string is, its NUL is the last place that is read: a `%` in front of it is
the character that the switch does not know. -/
lemma formatReads_le (str : CString) (i : ℕ) : ∀ j ∈ formatReads str i, j ≤ str.bytes.length := by
  induction hleft : str.bytes.length - i using Nat.strong_induction_on generalizing i with
  | _ left ih =>
      intro j hj
      rw [formatReads] at hj
      rcases List.mem_append.mp hj with hstrlen | hturn
      · exact Nat.lt_succ_iff.mp (List.mem_range.mp hstrlen)
      · split_ifs at hturn with hi hliteral
        · rcases List.mem_cons.mp hturn with rfl | hrest
          · exact hi.le
          · exact ih (str.bytes.length - (i + 1)) (by omega) (i + 1) rfl j hrest
        · rcases List.mem_cons.mp hturn with rfl | hrest
          · exact hi.le
          · rcases List.mem_cons.mp hrest with rfl | hrest
            · exact hi
            · exact ih (str.bytes.length - (i + 2)) (by omega) (i + 2) rfl j hrest
        · exact absurd hturn List.not_mem_nil

/-! ## What is printed -/

lemma foldl_serialWrite (out cs : List UInt8) : cs.foldl serialWrite out = out ++ cs := by
  induction cs generalizing out with
  | nil => exact (List.append_nil out).symm
  | cons c cs ih => rw [List.foldl_cons, ih, serialWrite, List.append_assoc, List.singleton_append]

lemma itobString_eq (hold : UInt64) (base : Base) :
    itobString hold base = printedDigits base hold.toNat :=
  string_itob _ hold base

/-- The zeros of `%a`. -/
lemma emitted_a (v : UInt64) : (Piece.a v).emitted = hexDigits v.toNat := by
  have hbound : v.toNat < Base.sixteen.value.toNat ^ (15 + 1) := v.toNat_lt
  have hdigits := replicate_append_numeral (one_lt_base .sixteen) hbound
  rw [Piece.emitted, itobString_eq, printedDigits, List.length_map]
  have hzero : List.replicate (16 - (numeral Base.sixteen.value.toNat v.toNat).length) ZERO =
      (List.replicate (16 - (numeral Base.sixteen.value.toNat v.toNat).length) 0).map
        digitChar := by
    rw [List.map_replicate]
    rfl
  rw [hzero, ← List.map_append, hdigits, List.map_map]
  rfl

/-- The argument of `%d` is printed as an unsigned number. -/
lemma emitted_d (v : Int64) : (Piece.d v).emitted = printedDigits .ten v.toUInt64.toNat :=
  itobString_eq _ _

lemma emitted_d_of_nonneg (h : 0 ≤ v) : (Piece.d v).emitted = (Piece.d v).expansion := by
  have hsign : 0 ≤ v.toInt := by rwa [Int64.le_iff_toInt_le, Int64.toInt_zero] at h
  rw [emitted_d, Int64.toNat_toUInt64_of_le h, Piece.expansion, signedDecimal, if_neg hsign.not_gt,
    List.nil_append, ← Int64.toNat_toInt]
  congr 1
  omega

lemma emitted_eq_expansion (p : Piece) (h : ∀ v, p = .d v → 0 ≤ v) : p.emitted = p.expansion := by
  cases p with
  | d v => exact emitted_d_of_nonneg (h v rfl)
  | x v => exact itobString_eq v .sixteen
  | a v => exact emitted_a v
  | _ => rfl

/-! ## The sign -/

lemma count_printedDigits (num : ℕ) : (printedDigits .ten num).count HYPHEN = 0 := by
  refine List.count_eq_zero.mpr fun hmem => ?_
  obtain ⟨d, hd, hdigit⟩ := List.mem_map.mp hmem
  have hlt : d < 10 := numeral_lt (one_lt_base .ten) hd
  have hall : ∀ d, d < 10 → digitChar d ≠ HYPHEN := by decide
  exact hall d hlt hdigit

lemma count_emitted_lt (h : v < 0) :
    (Piece.d v).emitted.count HYPHEN < (Piece.d v).expansion.count HYPHEN := by
  have hsign : v.toInt < 0 := by rwa [Int64.lt_iff_toInt_lt, Int64.toInt_zero] at h
  rw [emitted_d, count_printedDigits, Piece.expansion, signedDecimal, if_pos hsign,
    List.singleton_append, List.count_cons_self]
  exact Nat.succ_pos _

lemma count_emitted_le (p : Piece) : p.emitted.count HYPHEN ≤ p.expansion.count HYPHEN := by
  by_cases hsign : ∀ v, p = .d v → 0 ≤ v
  · rw [emitted_eq_expansion p hsign]
  · push Not at hsign
    obtain ⟨v, rfl, hv⟩ := hsign
    exact (count_emitted_lt (Int64.not_le.mp hv)).le

/-- **A hyphen is missing** for each argument of a `%d` that is negative. -/
lemma nonneg_of_emitted (h : pieces.flatMap Piece.emitted = expansion pieces) (hv : .d v ∈ pieces) :
    0 ≤ v := by
  by_contra hneg
  have hcount := congrArg (List.count HYPHEN) h
  rw [expansion, List.count_flatMap, List.count_flatMap] at hcount
  exact absurd hcount (List.sum_lt_sum _ _ (fun p _ => count_emitted_le p)
    ⟨.d v, hv, count_emitted_lt (Int64.not_le.mp hneg)⟩).ne

/-! ## The prefix -/

/-- **The prefix is looked up**: the first entry with its text has the colours. -/
lemma prefixLoop_eq (name : CString) {entries : List PrefixEntry} (h : entries ≠ []) :
    prefixLoop name entries =
      match entries.find? fun entry => chars entry.text = name.bytes with
      | some entry => bashColour entry.prefixColour ++ name.bytes ++ bashColour entry.textColour ++
          [SPACE]
      | none => bashColour .DEFAULT := by
  induction entries with
  | nil => exact absurd rfl h
  | cons entry rest ih =>
      rw [prefixLoop]
      split_ifs with htext hrest
      · rw [List.find?_cons_of_pos (by simpa using htext)]
      · rw [List.find?_cons_of_neg (by simpa using htext), hrest]
        rfl
      · rw [List.find?_cons_of_neg (by simpa using htext), ih hrest]

/-- **Each entry is found**, with its own colours. -/
theorem prefixLoop_of_mem {entry : PrefixEntry} (h : entry ∈ prefixList) (name : CString)
    (hname : name.bytes = chars entry.text) : prefixLoop name prefixList =
      bashColour entry.prefixColour ++ name.bytes ++ bashColour entry.textColour ++ [SPACE] := by
  have hfind : ∀ entry ∈ prefixList,
      (prefixList.find? fun other => chars other.text = chars entry.text) = some entry := by decide
  rw [prefixLoop_eq name (by decide), hname, hfind entry h]

/-! ## The functions -/

lemma printf_format (pieces : List Piece) (out : List UInt8) :
    printf (format pieces) (arguments pieces) out =
      some (out ++ pieces.flatMap Piece.emitted ++ [NEWLINE]) := by
  rw [printf, formatLoop_format, foldl_serialWrite]
  rfl

lemma kprintDS_format (name : CString) (pieces : List Piece) (out : List UInt8) :
    kprintDS name (format pieces) (arguments pieces) out =
      some (out ++ prefixLoop name prefixList ++ pieces.flatMap Piece.emitted ++ [NEWLINE]) := by
  rw [kprintDS, formatLoop_format, foldl_serialWrite, foldl_serialWrite]
  rfl

lemma kprintVS_format (pieces : List Piece) (s : Terminal) :
    kprintVS (format pieces) (arguments pieces) s =
      some ((pieces.flatMap Piece.emitted).foldl putchar s) :=
  formatLoop_format putchar pieces s

/-- It is enough to look at what `printf` prints. -/
lemma PrintsExpansion.emitted (h : PrintsExpansion pieces) :
    pieces.flatMap Piece.emitted = expansion pieces := by
  have hprinted := (printf_format pieces []).symm.trans (h.printf [])
  simpa using hprinted

/-- **Formatted output is the expansion of its format** exactly if no argument of a `%d` is
negative. -/
theorem printsExpansion_iff (pieces : List Piece) :
    PrintsExpansion pieces ↔ ∀ v, .d v ∈ pieces → 0 ≤ v := by
  constructor
  · intro h v hv
    exact nonneg_of_emitted h.emitted hv
  · intro h
    have hemitted : pieces.flatMap Piece.emitted = expansion pieces :=
      List.flatMap_congr fun p hp => emitted_eq_expansion p fun v hd => h v (hd ▸ hp)
    exact {
      kprintVS := fun s => hemitted ▸ kprintVS_format pieces s
      printf := fun out => hemitted ▸ printf_format pieces out
      kprintDS := fun name out => hemitted ▸ kprintDS_format name pieces out
      reads := formatReads_le (format pieces) 0 }

lemma emitted_neg_one : (Piece.d (-1)).emitted = chars "18446744073709551615" := by
  have hbase : Base.ten.value.toNat = 10 := rfl
  have hnumeral : numeral 10 18446744073709551615 =
      [1, 8, 4, 4, 6, 7, 4, 4, 0, 7, 3, 7, 0, 9, 5, 5, 1, 6, 1, 5] := by
    norm_num [numeral]
  have hvalue : (-1 : Int64).toUInt64.toNat = 18446744073709551615 := by decide
  rw [emitted_d, hvalue, printedDigits, hbase, hnumeral]
  decide

/-- `-1` is printed as the greatest number. -/
theorem printsExpansion_negative :
    printf (format [.d (-1)]) [.long (-1)] [] = some (chars "18446744073709551615" ++ [NEWLINE]) ∧
      expansion [.d (-1)] = chars "-1" ∧ ¬ PrintsExpansion [.d (-1)] := by
  refine ⟨?_, ?_, fun h => ?_⟩
  · rw [← emitted_neg_one]
    exact (printf_format [.d (-1)] []).trans (by simp)
  · have hdigits : printedDigits .ten 1 = chars "1" := by
      rw [printedDigits, numeral_of_lt (by decide)]
      decide
    have hsign : (-1 : Int64).toInt = -1 := by decide
    rw [expansion, List.flatMap_singleton, Piece.expansion, signedDecimal, hsign]
    exact congrArg ([HYPHEN] ++ ·) hdigits
  · exact absurd (nonneg_of_emitted h.emitted (List.mem_singleton_self _)) (by decide)

end Seaweed
