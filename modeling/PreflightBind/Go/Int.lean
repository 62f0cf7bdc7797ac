import Mathlib.Data.Stream.Defs

/-!
# Go's 64-bit integers, durations and times

The engine's counts and sizes are Go `int`s and its intervals are `time.Duration`s, both 64-bit
two's complement on the platforms the tunnel runs on. A value carries its range as fields, so
no proof below re-derives it, and `+` and `-` wrap as Go's do.
-/

namespace PreflightBind

/-- A Go `int` (equally an `int64`): an integer in `[-2^63, 2^63)`. -/
structure GoInt where
  val : Int
  min_le : -9223372036854775808 ≤ val
  lt_max : val < 9223372036854775808
deriving DecidableEq, Repr

namespace GoInt

/-- Two's-complement reduction of an integer into the 64-bit range. -/
def wrap (x : Int) : GoInt :=
  ⟨(x + 9223372036854775808) % 18446744073709551616 - 9223372036854775808, by omega, by omega⟩

instance : OfNat GoInt n := ⟨wrap n⟩
instance : Add GoInt := ⟨fun a b => wrap (a.val + b.val)⟩
instance : Sub GoInt := ⟨fun a b => wrap (a.val - b.val)⟩
instance : Neg GoInt := ⟨fun a => wrap (-a.val)⟩
instance : LT GoInt := ⟨fun a b => a.val < b.val⟩
instance : LE GoInt := ⟨fun a b => a.val ≤ b.val⟩
instance (a b : GoInt) : Decidable (a < b) := inferInstanceAs (Decidable (a.val < b.val))
instance (a b : GoInt) : Decidable (a ≤ b) := inferInstanceAs (Decidable (a.val ≤ b.val))

/-- `math.MaxInt`. -/
def maxInt : GoInt := ⟨9223372036854775807, by decide, by decide⟩

/-- The length a Go slice of this many elements has, once the value is known non-negative. -/
def toNat (a : GoInt) : Nat := a.val.toNat

theorem ext_iff {a b : GoInt} : a = b ↔ a.val = b.val := by
  cases a; cases b; simp

@[simp] theorem lt_iff {a b : GoInt} : a < b ↔ a.val < b.val := Iff.rfl
@[simp] theorem le_iff {a b : GoInt} : a ≤ b ↔ a.val ≤ b.val := Iff.rfl

theorem val_wrap_of_mem {x : Int} (h₁ : -9223372036854775808 ≤ x)
    (h₂ : x < 9223372036854775808) :
    (wrap x).val = x := by
  simp only [wrap]; omega

@[simp] theorem val_add (a b : GoInt) : (a + b).val = (wrap (a.val + b.val)).val := rfl
@[simp] theorem val_sub (a b : GoInt) : (a - b).val = (wrap (a.val - b.val)).val := rfl

@[simp] theorem val_zero : (0 : GoInt).val = 0 := rfl
@[simp] theorem val_one : (1 : GoInt).val = 1 := rfl
@[simp] theorem val_maxInt : maxInt.val = 9223372036854775807 := rfl

theorem eq_zero_iff {a : GoInt} : a = 0 ↔ a.val = 0 := ext_iff

theorem eq_maxInt_iff {a : GoInt} : a = maxInt ↔ a.val = 9223372036854775807 := ext_iff

theorem val_add_one (a : GoInt) :
    (a + 1).val = if a = maxInt then -9223372036854775808 else a.val + 1 := by
  have := a.lt_max
  split
  · subst_vars; rfl
  · have hne : a.val ≠ 9223372036854775807 := fun h => by simp_all [ext_iff]
    simp only [val_add, val_one]; exact val_wrap_of_mem (by have := a.min_le; omega) (by omega)

end GoInt

/-- `time.Duration`: a signed count of nanoseconds. -/
abbrev Duration := GoInt

namespace Duration

/-- Clamp a true difference of nanoseconds into the `Duration` range, as `Time.Sub` does. -/
def saturate (x : Int) : Duration :=
  ⟨max (-9223372036854775808) (min x 9223372036854775807), by omega, by omega⟩

@[simp] theorem val_saturate (x : Int) :
    (saturate x).val = max (-9223372036854775808) (min x 9223372036854775807) := rfl

/-- `n * time.Millisecond` for the small constants the engine sleeps and waits. -/
def ms (n : Nat) : Duration := GoInt.wrap (n * 1000000)

end Duration

/-- A `time.Time`: the wall clock in nanoseconds since the zero time, January 1 of year 1 UTC,
and the monotonic clock reading that every result of `time.Now()` carries. -/
structure Time where
  wall : Int
  mono : Option Int
deriving DecidableEq, Repr

namespace Time

/-- The zero `time.Time`, which a Go map yields for a missing key. -/
def zero : Time := ⟨0, none⟩

/-- `t.Sub(u)`: the monotonic readings when both times carry one, else the wall clocks, with
the true difference saturated to the `Duration` range. -/
def sub (t u : Time) : Duration :=
  match t.mono, u.mono with
  | some a, some b => Duration.saturate (a - b)
  | _, _ => Duration.saturate (t.wall - u.wall)

/-- `t.Unix()`: whole seconds since January 1, 1970 UTC (62135596800 s after the zero time). -/
def unix (t : Time) : Int := t.wall / 1000000000 - 62135596800

theorem sub_of_mono {t u : Time} {a b : Int} (ht : t.mono = some a) (hu : u.mono = some b) :
    t.sub u = Duration.saturate (a - b) := by
  simp [sub, ht, hu]

theorem sub_zero (t : Time) : t.sub zero = Duration.saturate t.wall := by
  cases h : t.mono <;> simp [sub, zero, h]

/-- A reading `time.Now()` can return: a date after the year 293, so that its distance from the
zero time no longer fits a `Duration`. -/
def IsReal (t : Time) : Prop := 9223372036854775807 ≤ t.wall

theorem sub_zero_of_isReal {t : Time} (h : t.IsReal) : (t.sub zero).val = 9223372036854775807 := by
  rw [sub_zero, Duration.val_saturate]
  unfold IsReal at h
  omega

end Time

end PreflightBind
