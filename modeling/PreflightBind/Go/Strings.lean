import PreflightBind.Go.Int
import Mathlib.Tactic.Ring
import Mathlib.Tactic.Positivity
import Mathlib.Tactic.Linarith
import Mathlib.Data.Nat.Digits

/-!
# The library string functions the template parser calls

`strings.TrimSpace`, `hex.DecodeString` and `strconv.Atoi`, over a Go string read as its
list of Unicode characters. Each is written the way the Go library computes it (the pair loop of
`hex.Decode`, the fast and the slow path of `Atoi`), and each is followed by the lemma that says
which inputs it accepts, which is all the parser's proofs use.
-/

namespace PreflightBind

/-- Go's `[]byte`. -/
abbrev Bytes := List UInt8

/-- Results of the library calls are compared outright, so that tests can be decided. -/
instance decEqExcept [DecidableEq ε] [DecidableEq α] : DecidableEq (Except ε α)
  | .ok a, .ok b => if h : a = b then isTrue (h ▸ rfl) else isFalse fun e => h (Except.ok.inj e)
  | .error a, .error b =>
    if h : a = b then isTrue (h ▸ rfl) else isFalse fun e => h (Except.error.inj e)
  | .ok _, .error _ => isFalse Except.noConfusion
  | .error _, .ok _ => isFalse Except.noConfusion

/-- `unicode.IsSpace`: the Latin-1 spaces and the other characters with Unicode's White_Space
property. -/
def isSpace (c : Char) : Bool :=
  let v := c.toNat
  (0x09 ≤ v && v ≤ 0x0D) || v == 0x20 || v == 0x85 || v == 0xA0 || v == 0x1680 ||
    (0x2000 ≤ v && v ≤ 0x200A) || v == 0x2028 || v == 0x2029 || v == 0x202F || v == 0x205F ||
    v == 0x3000

/-- `strings.TrimSpace`. -/
def trimSpace (s : List Char) : List Char :=
  ((s.dropWhile isSpace).reverse.dropWhile isSpace).reverse

theorem trimSpace_of_forall {s : List Char} (h : ∀ c ∈ s, isSpace c = false) :
    trimSpace s = s := by
  have drop : ∀ l : List Char, (∀ c ∈ l, isSpace c = false) → l.dropWhile isSpace = l := by
    intro l hl; cases l <;> simp_all
  rw [trimSpace, drop s h, drop s.reverse (by simpa using h), List.reverse_reverse]

/-! ## `encoding/hex` -/

/-- `hex.InvalidByteError` and `hex.ErrLength`. -/
inductive HexError
  | invalidByte (b : UInt8)
  | length
deriving DecidableEq, Repr

/-- One entry of `reverseHexTable`: the value of a hexadecimal digit of either case. -/
def fromHexChar (c : Char) : Option UInt8 :=
  if '0' ≤ c ∧ c ≤ '9' then some (c.toNat - 48).toUInt8
  else if 'a' ≤ c ∧ c ≤ 'f' then some (c.toNat - 87).toUInt8
  else if 'A' ≤ c ∧ c ≤ 'F' then some (c.toNat - 55).toUInt8
  else none

/-- Whether `c` is a hexadecimal digit. -/
def isHexDigit (c : Char) : Bool := (fromHexChar c).isSome

/-- The byte `hex.Decode` reports for a character that is no digit: the first of its UTF-8
encoding, which is the character itself when it is ASCII. -/
def leadByte (c : Char) : UInt8 := (String.utf8EncodeChar c).headD 0

/-- `hex.DecodeString`: the pair loop of `hex.Decode`, which reports the first byte that is
no digit and, failing that, an odd length. -/
def hexDecode : List Char → Except HexError Bytes
  | [] => .ok []
  | [c] => .error (if isHexDigit c then .length else .invalidByte (leadByte c))
  | p :: q :: rest =>
    match fromHexChar p, fromHexChar q with
    | some a, some b => ((a * 16 + b) :: ·) <$> hexDecode rest
    | none, _ => .error (.invalidByte (leadByte p))
    | some _, none => .error (.invalidByte (leadByte q))

/-- `hex.DecodeString` succeeds exactly on even-length strings of hex digits. -/
theorem hexDecode_ok_iff (s : List Char) :
    (∃ bs, hexDecode s = .ok bs) ↔ s.all isHexDigit ∧ s.length % 2 = 0 := by
  induction s using hexDecode.induct with
  | case1 => simp [hexDecode]
  | case2 c => by_cases h : isHexDigit c <;> simp [hexDecode, h]
  | case3 p q rest a b hq hp ih =>
    have hp' : isHexDigit p := by simp [isHexDigit, hp]
    have hq' : isHexDigit q := by simp [isHexDigit, hq]
    rw [show (p :: q :: rest).length % 2 = rest.length % 2 by simp; omega]
    cases h : hexDecode rest <;> simp_all [hexDecode, Functor.map, Except.map]
  | case4 p q rest hp =>
    have : isHexDigit p = false := by simp [isHexDigit, hp]
    simp [hexDecode, hp, this]
  | case5 p q rest a hq hp =>
    have : isHexDigit q = false := by simp [isHexDigit, hq]
    simp [hexDecode, hp, hq, this]

theorem hexDecode_length {s : List Char} {bs : Bytes} (h : hexDecode s = .ok bs) :
    bs.length = s.length / 2 := by
  induction s using hexDecode.induct generalizing bs with
  | case1 => cases h; rfl
  | case2 c => simp [hexDecode] at h
  | case3 p q rest a b hq hp ih =>
    simp only [hexDecode, hp, hq] at h
    cases hr : hexDecode rest with
    | error e => simp [hr, Functor.map, Except.map] at h
    | ok bs' =>
      simp only [hr, Functor.map, Except.map, Except.ok.injEq] at h
      subst h; simp [ih hr]; omega
  | case4 p q rest hp => simp [hexDecode, hp] at h
  | case5 p q rest a hq hp => simp [hexDecode, hp, hq] at h

/-- `hex.DecodeString` fails as `hex.Decode` reports: with the first byte of the first character
that is no hex digit and, when every character is a digit, on an odd count with `ErrLength`. -/
theorem hexDecode_eq_error_iff (s : List Char) (e : HexError) :
    hexDecode s = .error e ↔
      match s.find? (fun c => !isHexDigit c) with
      | some c => e = .invalidByte (leadByte c)
      | none => s.length % 2 = 1 ∧ e = .length := by
  induction s using hexDecode.induct with
  | case1 => simp [hexDecode]
  | case2 c => by_cases h : isHexDigit c <;> simp [hexDecode, h, eq_comm]
  | case3 p q rest a b hq hp ih =>
    have hp' : isHexDigit p := by simp [isHexDigit, hp]
    have hq' : isHexDigit q := by simp [isHexDigit, hq]
    have hlen : (p :: q :: rest).length % 2 = rest.length % 2 := Nat.add_mod_right _ 2
    simp only [hexDecode, hp, hq, List.find?_cons, hp', hq', Bool.not_true, hlen, ← ih]
    cases hexDecode rest <;> simp [Functor.map, Except.map]
  | case4 p q rest hp =>
    have : isHexDigit p = false := by simp [isHexDigit, hp]
    simp [hexDecode, hp, this, eq_comm]
  | case5 p q rest a hq hp =>
    have hp' : isHexDigit p := by simp [isHexDigit, hp]
    have : isHexDigit q = false := by simp [isHexDigit, hq]
    simp [hexDecode, hp, hq, hp', this, eq_comm]

/-- The digit `hex.EncodeToString` writes for a value below 16: `0` to `9`, then `a` to `f`. -/
def hexDigitChar (n : Nat) : Char := if n < 10 then Char.ofNat (48 + n) else Char.ofNat (87 + n)

/-- The digits `hex.EncodeToString` writes for a byte string: two per byte, high half first. -/
def hexEncode (bs : Bytes) : List Char :=
  bs.flatMap fun x => [hexDigitChar (x.toNat / 16), hexDigitChar (x.toNat % 16)]

@[simp] theorem hexEncode_cons (x : UInt8) (bs : Bytes) :
    hexEncode (x :: bs) =
      hexDigitChar (x.toNat / 16) :: hexDigitChar (x.toNat % 16) :: hexEncode bs := rfl

theorem fromHexChar_hexDigitChar : ∀ n < 16, fromHexChar (hexDigitChar n) = some n.toUInt8 := by
  decide

theorem halves_recombine (x : UInt8) :
    (x.toNat / 16).toUInt8 * 16 + (x.toNat % 16).toUInt8 = x := by
  apply UInt8.toNat.inj
  have : x.toNat < 256 := x.val.isLt
  show ((x.toNat / 16 % 256) * 16 % 256 + x.toNat % 16 % 256) % 256 = x.toNat
  omega

/-- Decoding what the encoder writes gives the bytes back. -/
theorem hexDecode_hexEncode (bs : Bytes) : hexDecode (hexEncode bs) = .ok bs := by
  induction bs with
  | nil => rfl
  | cons x bs ih =>
    have hx : x.toNat < 256 := x.val.isLt
    rw [hexEncode_cons, hexDecode, fromHexChar_hexDigitChar _ (by omega),
      fromHexChar_hexDigitChar _ (by omega), ih]
    exact congrArg (fun y => Except.ok (y :: bs)) (halves_recombine x)

/-! ## `strconv.Atoi` -/

/-- The two `Err` values of a `strconv.NumError`: `ErrSyntax` ("invalid syntax") and `ErrRange`
("value out of range"). -/
inductive NumErr
  | invalid
  | outOfRange
deriving DecidableEq, Repr

/-- `*strconv.NumError` with `Func` "Atoi": the input it could not parse and why. -/
structure NumError where
  num : String
  err : NumErr
deriving DecidableEq, Repr

/-- The sign `Atoi` and `ParseInt` pick off: `-` negates, `+` is dropped. -/
def splitSign : List Char → Bool × List Char
  | '-' :: r => (true, r)
  | '+' :: r => (false, r)
  | r => (false, r)

/-- The value of a string of decimal digits. -/
def decimal (ds : List Char) : Nat := ds.foldl (fun n c => n * 10 + (c.toNat - 48)) 0

/-- The digit loop of `strconv.ParseUint(s, 10, 64)` from the value read so far: the first
character that is no digit is a syntax error, the first that overflows 64 bits a range error. -/
def parseUintLoop : List Char → Nat → Except NumErr Nat
  | [], n => .ok n
  | c :: cs, n =>
    if c.isDigit then
      if 1844674407370955162 ≤ n then .error .outOfRange
      else if 18446744073709551615 < n * 10 + (c.toNat - 48) then .error .outOfRange
      else parseUintLoop cs (n * 10 + (c.toNat - 48))
    else .error .invalid

/-- `strconv.ParseInt(s, 10, 0)`, the slow path of `Atoi`: the sign, the `ParseUint` loop, then
the `int` range. A range error of the loop leaves the magnitude at the largest `uint64`, past
either bound, so it is a range error here too. -/
def parseInt (s : List Char) : Except NumErr Int :=
  let (neg, ds) := splitSign s
  if ds = [] then .error .invalid
  else
    match parseUintLoop ds 0 with
    | .error e => .error e
    | .ok un =>
      if !neg ∧ 9223372036854775808 ≤ un then .error .outOfRange
      else if neg ∧ 9223372036854775808 < un then .error .outOfRange
      else .ok (if neg then -(un : Int) else un)

/-- `strconv.Atoi` on a 64-bit platform: a fast path for inputs of 1 to 18 bytes, which cannot
overflow, and `ParseInt` for the rest. Every error names the whole input. -/
def atoi (s : List Char) : Except NumError GoInt :=
  if 0 < s.length ∧ s.length < 19 then
    let (neg, ds) := splitSign s
    if ds = [] ∨ !ds.all Char.isDigit then .error ⟨⟨s⟩, .invalid⟩
    else .ok (GoInt.wrap (if neg then -(decimal ds : Int) else decimal ds))
  else
    match parseInt s with
    | .ok v => .ok (GoInt.wrap v)
    | .error k => .error ⟨⟨s⟩, k⟩

end PreflightBind

namespace PreflightBind

/-- The value an input of `Atoi` names, read as sign and digits. -/
def atoiValue (s : List Char) : Int :=
  if (splitSign s).1 then -(decimal (splitSign s).2 : Int) else decimal (splitSign s).2

/-- What `Atoi` accepts: an optional sign and at least one decimal digit, naming a value in the
`int` range. -/
def AtoiAccepts (s : List Char) : Prop :=
  (splitSign s).2 ≠ [] ∧ (splitSign s).2.all Char.isDigit ∧
    -9223372036854775808 ≤ atoiValue s ∧ atoiValue s < 9223372036854775808

theorem splitSign_cases (s : List Char) :
    s = (splitSign s).2 ∨ s = '-' :: (splitSign s).2 ∨ s = '+' :: (splitSign s).2 := by
  unfold splitSign; split <;> simp

theorem AtoiAccepts.chars {s : List Char} (h : AtoiAccepts s) :
    ∀ c ∈ s, c = '-' ∨ c = '+' ∨ c.isDigit := by
  have hd : ∀ c ∈ (splitSign s).2, c.isDigit := by simpa using h.2.1
  intro c hc
  rcases splitSign_cases s with hs | hs | hs <;> rw [hs] at hc
  · exact .inr (.inr (hd c hc))
  · rcases List.mem_cons.1 hc with rfl | hc
    · exact .inl rfl
    · exact .inr (.inr (hd c hc))
  · rcases List.mem_cons.1 hc with rfl | hc
    · exact .inr (.inl rfl)
    · exact .inr (.inr (hd c hc))

theorem splitSign_length (s : List Char) :
    (splitSign s).2.length ≤ s.length ∧ s.length ≤ (splitSign s).2.length + 1 := by
  unfold splitSign; split <;> simp

theorem digit_sub_lt {c : Char} (h : c.isDigit) : c.toNat - 48 < 10 := by
  simp only [Char.isDigit, Bool.and_eq_true, decide_eq_true_eq] at h
  have : c.val.toNat ≤ 57 := h.2
  simp only [Char.toNat]; omega

theorem foldl_digits (ds : List Char) (n : Nat) :
    ds.foldl (fun n c => n * 10 + (c.toNat - 48)) n = n * 10 ^ ds.length + decimal ds := by
  induction ds generalizing n with
  | nil => simp [decimal]
  | cons c cs ih =>
    simp only [decimal, List.foldl_cons] at ih ⊢
    rw [ih, ih (0 * 10 + _), List.length_cons, pow_succ]; ring

theorem decimal_lt {ds : List Char} (h : ds.all Char.isDigit) : decimal ds < 10 ^ ds.length := by
  induction ds with
  | nil => simp [decimal]
  | cons c cs ih =>
    simp only [List.all_cons, Bool.and_eq_true] at h
    have hd := digit_sub_lt h.1
    have hr := ih h.2
    have : decimal (c :: cs) = (c.toNat - 48) * 10 ^ cs.length + decimal cs := by
      simpa [decimal] using foldl_digits cs (c.toNat - 48)
    have hmul := Nat.mul_le_mul_right (10 ^ cs.length) (Nat.le_of_lt_succ hd)
    rw [this, List.length_cons, pow_succ]
    omega

theorem parseUintLoop_digits {ds : List Char} (hd : ds.all Char.isDigit) {n : Nat}
    (hn : n ≤ 18446744073709551615) :
    parseUintLoop ds n = if n * 10 ^ ds.length + decimal ds ≤ 18446744073709551615
      then .ok (n * 10 ^ ds.length + decimal ds) else .error .outOfRange := by
  induction ds generalizing n with
  | nil => simp [parseUintLoop, decimal, hn]
  | cons c cs ih =>
    simp only [List.all_cons, Bool.and_eq_true] at hd
    have hsplit := foldl_digits (c :: cs) n
    simp only [List.foldl_cons, foldl_digits cs] at hsplit
    have hge : n * 10 + (c.toNat - 48) ≤ n * 10 ^ (c :: cs).length + decimal (c :: cs) := by
      rw [← hsplit]; exact Nat.le_add_right_of_le (Nat.le_mul_of_pos_right _ (by positivity))
    simp only [parseUintLoop, hd.1, if_true]
    by_cases h₁ : 1844674407370955162 ≤ n
    · rw [if_pos h₁, if_neg (by omega)]
    by_cases h₂ : 18446744073709551615 < n * 10 + (c.toNat - 48)
    · rw [if_neg h₁, if_pos h₂, if_neg (by omega)]
    rw [if_neg h₁, if_neg h₂, ih hd.2 (by omega), hsplit]

theorem parseUintLoop_ok_digits {ds : List Char} {n v : Nat} (h : parseUintLoop ds n = .ok v) :
    ds.all Char.isDigit := by
  induction ds generalizing n with
  | nil => rfl
  | cons c cs ih =>
    simp only [parseUintLoop] at h
    split_ifs at h with h₁ h₂ h₃
    exact Bool.and_eq_true _ _ ▸ ⟨h₁, ih h⟩

theorem parseInt_eq_ok_iff {s : List Char} {v : Int} :
    parseInt s = .ok v ↔ AtoiAccepts s ∧ v = atoiValue s := by
  unfold parseInt AtoiAccepts atoiValue
  rcases splitSign s with ⟨neg, ds⟩
  dsimp only
  by_cases hnil : ds = []
  · simp only [hnil, if_true, reduceCtorEq, ne_eq, not_true_eq_false, false_and]
  rw [if_neg hnil]
  by_cases hdig : ds.all Char.isDigit
  · rw [parseUintLoop_digits hdig (Nat.zero_le _)]
    simp only [Nat.zero_mul, Nat.zero_add, hnil, hdig, ne_eq, not_false_eq_true, true_and]
    by_cases hmax : decimal ds ≤ 18446744073709551615
    · rw [if_pos hmax]
      cases neg <;> simp only [Bool.not_false, Bool.not_true, Bool.false_eq_true, true_and,
        false_and, if_true, if_false] <;> split_ifs <;>
        simp only [Except.ok.injEq, reduceCtorEq, false_iff, not_and] <;> omega
    · rw [if_neg hmax]
      cases neg <;> simp only [reduceCtorEq, false_iff, not_and, if_true, if_false] <;> omega
  · cases h : parseUintLoop ds 0 with
    | error e => simp [hdig]
    | ok u => exact absurd (parseUintLoop_ok_digits h) hdig

/-- `Atoi` returns exactly the values of the inputs it accepts, and fails on every other. -/
theorem atoi_eq_ok_iff {s : List Char} {n : GoInt} :
    atoi s = .ok n ↔ AtoiAccepts s ∧ n = GoInt.wrap (atoiValue s) := by
  unfold atoi
  by_cases hfast : 0 < s.length ∧ s.length < 19
  · obtain ⟨l₁, l₂⟩ := splitSign_length s
    rw [if_pos hfast]
    unfold AtoiAccepts atoiValue
    rcases hs : splitSign s with ⟨neg, ds⟩
    rw [hs] at l₁ l₂
    simp only
    by_cases hbad : ds = [] ∨ !ds.all Char.isDigit
    · rw [if_pos hbad]
      refine iff_of_false (fun h => by cases h) fun ⟨⟨hne, hd, _⟩, _⟩ => ?_
      rcases hbad with h | h
      · exact hne h
      · simp [hd] at h
    · rw [if_neg hbad]
      simp only [not_or, Bool.not_eq_true', Bool.not_eq_false] at hbad
      have hlt := decimal_lt hbad.2
      have : 10 ^ ds.length ≤ 10 ^ 18 :=
        Nat.pow_le_pow_right (by norm_num) (by simp at l₁ l₂; omega)
      constructor
      · rintro ⟨⟩; refine ⟨⟨hbad.1, hbad.2, ?_, ?_⟩, rfl⟩ <;> split <;> omega
      · rintro ⟨-, rfl⟩; rfl
  · rw [if_neg hfast]
    cases h : parseInt s with
    | error k =>
      refine ⟨fun h' => (by cases h'), fun ⟨ha, _⟩ => ?_⟩
      have := parseInt_eq_ok_iff.2 ⟨ha, rfl⟩
      rw [h] at this; cases this
    | ok v =>
      obtain ⟨ha, rfl⟩ := parseInt_eq_ok_iff.1 h
      simp [ha, eq_comm]

/-! ## `Atoi` reads back what `Itoa` writes -/

theorem decimal_cons (c : Char) (cs : List Char) :
    decimal (c :: cs) = (c.toNat - 48) * 10 ^ cs.length + decimal cs := by
  simpa [decimal] using foldl_digits cs (c.toNat - 48)

theorem digitChar_decimal : ∀ d < 10,
    (Nat.digitChar d).isDigit = true ∧ (Nat.digitChar d).toNat - 48 = d := by
  decide

theorem toDigitsCore_decimal (fuel n : Nat) (ds : List Char) (hn : n < fuel)
    (hds : ds.all Char.isDigit) :
    Nat.toDigitsCore 10 fuel n ds ≠ [] ∧ (Nat.toDigitsCore 10 fuel n ds).all Char.isDigit ∧
      decimal (Nat.toDigitsCore 10 fuel n ds) = n * 10 ^ ds.length + decimal ds := by
  induction fuel generalizing n ds with
  | zero => omega
  | succ fuel ih =>
    obtain ⟨hd, hv⟩ := digitChar_decimal (n % 10) (Nat.mod_lt _ (by omega))
    have hds' : (Nat.digitChar (n % 10) :: ds).all Char.isDigit := by
      simp only [List.all_cons, hd, hds, Bool.and_self]
    simp only [Nat.toDigitsCore]
    split_ifs with h0
    · refine ⟨List.cons_ne_nil _ _, hds', ?_⟩
      rw [decimal_cons, hv, Nat.mod_eq_of_lt (by omega)]
    · obtain ⟨hne, hall, hdec⟩ := ih (n / 10) _ (by omega) hds'
      have key : n * 10 ^ ds.length =
          n / 10 * (10 ^ ds.length * 10) + n % 10 * 10 ^ ds.length := by
        conv_lhs => rw [← Nat.div_add_mod n 10]
        ring
      refine ⟨hne, hall, ?_⟩
      rw [hdec, decimal_cons, hv, List.length_cons, pow_succ, key]
      ring

theorem splitSign_of_isDigit {c : Char} (hc : c.isDigit = true) (r : List Char) :
    splitSign (c :: r) = (false, c :: r) := by
  have h₁ : c ≠ '-' := by rintro rfl; exact absurd hc (by decide)
  have h₂ : c ≠ '+' := by rintro rfl; exact absurd hc (by decide)
  unfold splitSign
  split <;> simp_all

/-- `Atoi` reads back every `int` value that `Nat.toDigits` (the digits `strconv.Itoa` writes)
writes for a natural number. -/
theorem atoi_toDigits {n : Nat} (hn : n < 9223372036854775808) :
    atoi (Nat.toDigits 10 n) = .ok (GoInt.wrap n) := by
  obtain ⟨hne, hall, hdec⟩ := toDigitsCore_decimal (n + 1) n [] (Nat.lt_succ_self n) rfl
  have hval : decimal (Nat.toDigits 10 n) = n := by rw [Nat.toDigits, hdec]; simp [decimal]
  obtain ⟨c, r, hcr⟩ := List.exists_cons_of_ne_nil hne
  have hc : c.isDigit = true := by
    rw [hcr, List.all_cons, Bool.and_eq_true] at hall; exact hall.1
  have hsplit : splitSign (Nat.toDigits 10 n) = (false, Nat.toDigits 10 n) := by
    rw [Nat.toDigits, hcr, splitSign_of_isDigit hc]
  have hv : atoiValue (Nat.toDigits 10 n) = n := by rw [atoiValue, hsplit]; simp [hval]
  refine atoi_eq_ok_iff.2 ⟨⟨?_, ?_, ?_, ?_⟩, by rw [hv]⟩
  · rw [hsplit]; exact hne
  · rw [hsplit]; exact hall
  · rw [hv]; omega
  · rw [hv]; omega

end PreflightBind
