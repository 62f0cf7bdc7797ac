import PreflightBind.Engine.Config

/-!
# Junk packets

`generateJunkPacket` sizes a packet from `Jmin`, `Jmax` and `AllowZeroSize` with draws of the
package's `rng`, and fills it from `crypto/rand`, or from `rng` when that fails. The size is a
Go `int` throughout: `Jmax + 1` and `Jmax - Jmin + 1` wrap, and `rng.Intn` panics on a bound
that is not positive. `make([]byte, size)` panics above the runtime's `maxAlloc`; below it the
allocation succeeds here, and a machine that runs out of memory first is not modelled.
-/

namespace PreflightBind

/-- `maxAlloc` of the Go runtime on 64-bit Linux, `1 << 48`: no allocation may be larger. -/
def maxAlloc : Nat := 281474976710656

/-- `make([]byte, n)`: "makeslice: len out of range" above `maxAlloc`. -/
def makeBytes (n : Nat) : Go Unit := fun w =>
  if maxAlloc < n then .error .makeSliceLen else .ok ((), [], w)

/-- The fallback fill, `junk[i] = byte(rng.Intn(256))` for each index in order. -/
def fillFromRng : Nat → Go Bytes
  | 0 => pure []
  | n + 1 => do
    let b ← intn 256
    let rest ← fillFromRng n
    pure (b.val.toNat.toUInt8 :: rest)

/-- `make([]byte, size)` filled by `rand.Read`, or by `rng` when it errs. -/
def fillJunk (size : Nat) : Go Bytes := do
  makeBytes size
  match ← World.randRead size with
  | some junk => pure junk
  | none => fillFromRng size

/-- The end of `generateJunkPacket`: an empty packet for size 0, else a filled one. -/
def junkOfSize (size : GoInt) : Go Bytes := if size = 0 then pure [] else fillJunk size.toNat

/-- `minSize` and `maxSize` once clamped: a negative `Jmin` raised to 0, then `Jmax` raised to
`minSize`. -/
def clampedSizes (c : AmneziaConfig) : GoInt × GoInt :=
  let minSize : GoInt := if c.jmin.val < 0 then 0 else c.jmin
  (minSize, if c.jmax.val < minSize.val then minSize else c.jmax)

theorem clampedSizes_val (c : AmneziaConfig) :
    (clampedSizes c).1.val = max c.jmin.val 0 ∧
      (clampedSizes c).2.val = max c.jmax.val (max c.jmin.val 0) := by
  have hlo : (clampedSizes c).1.val = max c.jmin.val 0 := by
    simp only [clampedSizes]; split_ifs <;> simp <;> omega
  refine ⟨hlo, ?_⟩
  rw [← hlo]
  simp only [clampedSizes]
  split_ifs <;> omega

/-- `size`: `minSize`, or `minSize + rng.Intn(maxSize - minSize + 1)`. -/
def drawSize (minSize maxSize : GoInt) : Go GoInt :=
  if maxSize = minSize then pure minSize else do pure (minSize + (← intn (maxSize - minSize + 1)))

/-- `AllowZeroSize && minSize > 0`, then `rng.Intn(2) == 0`: whether the packet is cut to zero
bytes before it is sized. -/
def zeroSizeCoin (c : AmneziaConfig) : Go Bool :=
  if c.allowZeroSize ∧ 0 < c.jmin.val then do pure (decide ((← intn 2) = 0)) else pure false

/-- `b.generateJunkPacket()`. -/
def Bind.generateJunkPacket (b : Bind) : Go Bytes :=
  match b.amneziaConfig with
  | none => pure []
  | some c =>
    if c.jmin = 0 ∧ c.jmax = 0 then pure []
    else if c.jmin = 0 then do
      if c.jmax = 0 then pure []
      else junkOfSize (← intn (c.jmax + 1))
    else do
      if ← zeroSizeCoin c then pure []
      else junkOfSize (← drawSize (clampedSizes c).1 (clampedSizes c).2)

/-- Exactly the configurations on which `generateJunkPacket` hands `rng.Intn` a bound that is
not positive: `Jmin = 0` with `Jmax` negative or at `math.MaxInt` (where `Jmax + 1` wraps), and a
negative `Jmin` with `Jmax` at `math.MaxInt` (where `Jmax - 0 + 1` wraps). -/
def JunkPanics (c : AmneziaConfig) : Prop :=
  (c.jmin = 0 ∧ (c.jmax.val < 0 ∨ c.jmax = GoInt.maxInt)) ∨
    (c.jmin.val < 0 ∧ c.jmax = GoInt.maxInt)

instance (c : AmneziaConfig) : Decidable (JunkPanics c) :=
  inferInstanceAs (Decidable ((c.jmin = 0 ∧ (c.jmax.val < 0 ∨ c.jmax = GoInt.maxInt)) ∨
    (c.jmin.val < 0 ∧ c.jmax = GoInt.maxInt)))

/-- The lengths the clamped range gives a junk packet: within
`[max Jmin 0, max Jmax (max Jmin 0)]`, or empty when `AllowZeroSize` is set. -/
def JunkLength (c : AmneziaConfig) (n : Nat) : Prop :=
  (n = 0 ∧ c.allowZeroSize) ∨
    (max c.jmin.val 0 ≤ n ∧ (n : Int) ≤ max c.jmax.val (max c.jmin.val 0))

theorem intn_nonpos {n : GoInt} (hn : n.val ≤ 0) (w : World) :
    intn n w = .error .intnNonPositive := by
  simp [intn, hn]

/-- The configurations all of whose junk sizes fit `maxAlloc`: the top of the clamped range
does. -/
def JunkFits (c : AmneziaConfig) : Prop := max c.jmax.val (max c.jmin.val 0) ≤ maxAlloc

instance (c : AmneziaConfig) : Decidable (JunkFits c) :=
  inferInstanceAs (Decidable (_ ≤ _))

/-- The configurations on which `generateJunkPacket` may panic in `make`: no `rng.Intn` bound
fails, but the sizes may pass `maxAlloc`. -/
def AllocPanics (c : AmneziaConfig) : Prop := ¬ JunkPanics c ∧ ¬ JunkFits c

/-- What `rand.Read` leaves in a fresh buffer of `n` bytes, or its fallback when it errs: the
first `n` bytes of the next `crypto/rand` read, or `byte(rng.Intn(256))` of the next `n` draws. -/
def randomFill (n : Nat) (w : World) : Bytes :=
  match w.entropy.head with
  | some s => s.take n
  | none => (w.draws.take n).map fun r => (r % 256).toUInt8

@[simp] theorem randomFill_length (n : Nat) (w : World) : (randomFill n w).length = n := by
  unfold randomFill
  split <;> simp

theorem fillFromRng_apply (n : Nat) (w : World) :
    ∃ w', fillFromRng n w = .ok ((w.draws.take n).map fun r => (r % 256).toUInt8, [], w') ∧
      w'.net = w.net ∧ w'.entropy = w.entropy := by
  induction n generalizing w with
  | zero => exact ⟨w, rfl, rfl, rfl⟩
  | succ n ih =>
    obtain ⟨w', h, hn, he⟩ := ih { w with draws := w.draws.tail }
    have hbyte : (GoInt.wrap (w.draws.head % (256 : GoInt).val)).val.toNat.toUInt8 =
        (w.draws.head % 256).toUInt8 := by
      have := (intn_val_mem (show (0 : Int) < (256 : GoInt).val by decide) w.draws.head).1
      rw [this]
      congr 1
    refine ⟨w', ?_, hn, he⟩
    simp [fillFromRng, Go.bind_apply, intn_apply (show (0 : Int) < (256 : GoInt).val by decide), h,
      Go.pure_apply, Stream'.take_succ, hbyte]

theorem fillJunk_of_lt {n : Nat} (hn : maxAlloc < n) (w : World) :
    fillJunk n w = .error .makeSliceLen := by
  simp [fillJunk, Go.bind_apply, makeBytes, hn]

theorem fillJunk_apply {n : Nat} (hn : n ≤ maxAlloc) (w : World) :
    ∃ w', fillJunk n w = .ok (randomFill n w, [], w') ∧ w'.net = w.net := by
  have hm : makeBytes n w = .ok ((), [], w) := by simp [makeBytes, not_lt.2 hn]
  unfold fillJunk
  rw [Go.bind_of_silent hm]
  rcases he : w.entropy.head with _ | s
  · obtain ⟨w', h, hnet, -⟩ := fillFromRng_apply n { w with entropy := w.entropy.tail }
    exact ⟨w', by simp [Go.bind_apply, Go.lift_apply, he, h, randomFill], hnet⟩
  · exact ⟨{ w with entropy := w.entropy.tail },
      by simp [Go.bind_apply, Go.lift_apply, he, Go.pure_apply, randomFill], rfl⟩

theorem junkOfSize_apply {size : GoInt} (h : 0 ≤ size.val) (w : World) :
    match junkOfSize size w with
    | .error p => p = .makeSliceLen ∧ (maxAlloc : Int) < size.val
    | .ok (bs, es, w') => es = [] ∧ (bs.length : Int) = size.val ∧ w'.net = w.net := by
  by_cases h0 : size = 0
  · subst h0; exact ⟨rfl, rfl, rfl⟩
  unfold junkOfSize
  rw [if_neg h0]
  by_cases hfit : size.toNat ≤ maxAlloc
  · obtain ⟨w', hf, hn⟩ := fillJunk_apply hfit w
    rw [hf]
    exact ⟨rfl, by simp [GoInt.toNat]; omega, hn⟩
  · rw [fillJunk_of_lt (not_le.1 hfit)]
    exact ⟨rfl, by simp only [GoInt.toNat] at hfit; omega⟩

theorem val_add_of_mem {a b : GoInt} (h : a.val + b.val < 9223372036854775808)
    (h' : -9223372036854775808 ≤ a.val + b.val) : (a + b).val = a.val + b.val := by
  simp only [GoInt.val_add]; exact GoInt.val_wrap_of_mem h' h

theorem drawSize_apply {lo hi : GoInt} (hlo : 0 ≤ lo.val) (hle : lo.val ≤ hi.val) (w : World) :
    match drawSize lo hi w with
    | .error p => p = .intnNonPositive ∧ lo.val = 0 ∧ hi = GoInt.maxInt
    | .ok (size, es, w') =>
      ¬ (lo.val = 0 ∧ hi = GoInt.maxInt) ∧ es = [] ∧ w'.net = w.net ∧
        lo.val ≤ size.val ∧ size.val ≤ hi.val := by
  have hhi := hi.lt_max
  unfold drawSize
  by_cases heq : hi = lo
  · subst heq
    simp only [if_true, Go.pure_apply]
    refine ⟨fun ⟨h₀, h₁⟩ => ?_, trivial, trivial, le_rfl, le_rfl⟩
    rw [h₁] at h₀; cases h₀
  rw [if_neg heq]
  have hne : hi.val ≠ lo.val := fun h => heq (GoInt.ext_iff.2 h)
  have hsub : (hi - lo).val = hi.val - lo.val := by
    simp only [GoInt.val_sub]; exact GoInt.val_wrap_of_mem (by omega) (by omega)
  by_cases hwrap : hi - lo = GoInt.maxInt
  · have hp : (hi - lo + 1).val ≤ 0 := by rw [GoInt.val_add_one, if_pos hwrap]; omega
    have := GoInt.eq_maxInt_iff.1 hwrap
    simp only [Go.bind_apply, intn_nonpos hp]
    exact ⟨trivial, by omega, GoInt.eq_maxInt_iff.2 (by omega)⟩
  · have hlt : (hi - lo).val < 9223372036854775807 := by
      have := (hi - lo).lt_max; have := GoInt.eq_maxInt_iff.not.1 hwrap; omega
    have hbound : (hi - lo + 1).val = hi.val - lo.val + 1 := by
      rw [GoInt.val_add_one, if_neg hwrap, hsub]
    have hp : 0 < (hi - lo + 1).val := by omega
    obtain ⟨hv, h₀, h₁⟩ := intn_val_mem hp w.draws.head
    rw [hbound] at h₀ h₁ hv
    simp only [Go.bind_apply, intn_apply hp, Go.pure_apply, List.append_nil]
    have hsum := val_add_of_mem (a := lo)
      (b := GoInt.wrap ((w.draws.head : Int) % (hi - lo + 1).val))
      (by rw [hbound, hv]; omega) (by rw [hbound, hv]; omega)
    rw [hbound, hv] at hsum
    refine ⟨fun ⟨h₂, h₃⟩ => hwrap ?_, trivial, trivial, ?_, ?_⟩
    · rw [GoInt.eq_maxInt_iff] at h₃
      rw [GoInt.ext_iff, hsub]
      simp only [GoInt.val_maxInt]
      omega
    · rw [hbound, hsum]; omega
    · rw [hbound, hsum]; omega

/-- What one run of the junk generator from `w` satisfies: it panics in `rng.Intn` exactly on
`JunkPanics`; it panics in `make` only on a configuration whose sizes may pass `maxAlloc`;
otherwise it causes no event, leaves the network alone, and its packet has a length `JunkLength`
allows. -/
def JunkOutcome (c : AmneziaConfig) (w : World) :
    Except Panic (Bytes × List Event × World) → Prop
  | .error .intnNonPositive => JunkPanics c
  | .error .makeSliceLen => AllocPanics c
  | .ok (bs, es, w') => ¬ JunkPanics c ∧ es = [] ∧ w'.net = w.net ∧ JunkLength c bs.length

theorem JunkOutcome.of_net {c : AmneziaConfig} {w w₁ : World}
    {r : Except Panic (Bytes × List Event × World)}
    (h : JunkOutcome c w₁ r) (hn : w₁.net = w.net) : JunkOutcome c w r := by
  rcases r with (_ | _) | ⟨bs, es, w'⟩
  · exact h
  · exact h
  · exact ⟨h.1, h.2.1, h.2.2.1.trans hn, h.2.2.2⟩

theorem junkOfSize_outcome {c : AmneziaConfig} (hp : ¬ JunkPanics c) {size : GoInt}
    (hlo : max c.jmin.val 0 ≤ size.val) (hhi : size.val ≤ max c.jmax.val (max c.jmin.val 0))
    {w w₁ : World} (hn : w₁.net = w.net) : JunkOutcome c w (junkOfSize size w₁) := by
  have h := junkOfSize_apply (show 0 ≤ size.val by omega) w₁
  rcases hj : junkOfSize size w₁ with p | ⟨bs, es, w'⟩ <;> rw [hj] at h
  · obtain ⟨rfl, hgt⟩ := h
    exact ⟨hp, fun hf => by unfold JunkFits at hf; omega⟩
  · obtain ⟨rfl, hl, hn'⟩ := h
    exact ⟨hp, rfl, hn'.trans hn, .inr ⟨by omega, by omega⟩⟩

theorem zeroSizeCoin_apply (c : AmneziaConfig) (w : World) :
    ∃ z w₁, zeroSizeCoin c w = .ok (z, [], w₁) ∧ w₁.net = w.net ∧
      (z = true → c.allowZeroSize ∧ 0 < c.jmin.val) := by
  by_cases hz : c.allowZeroSize ∧ 0 < c.jmin.val
  · refine ⟨decide (GoInt.wrap (w.draws.head % (2 : GoInt).val) = 0),
      { w with draws := w.draws.tail }, ?_, rfl, fun _ => hz⟩
    simp only [zeroSizeCoin, if_pos hz]
    exact Go.bind_of_silent (intn_apply (by decide) w)
  · exact ⟨false, w, by simp only [zeroSizeCoin, if_neg hz]; rfl, rfl, nofun⟩

theorem zeroMinJunk_apply {c : AmneziaConfig} (h0 : c.jmin = 0) (w : World) :
    JunkOutcome c w ((intn (c.jmax + 1) >>= junkOfSize) w) := by
  have h₁ := c.jmax.min_le
  have hmin : c.jmin.val = 0 := GoInt.eq_zero_iff.1 h0
  have hsucc := GoInt.val_add_one c.jmax
  by_cases hp : (c.jmax + 1).val ≤ 0
  · rw [Go.bind_of_error (intn_nonpos hp w)]
    refine .inl ⟨h0, ?_⟩
    by_cases hm : c.jmax = GoInt.maxInt
    · exact .inr hm
    · rw [if_neg hm] at hsucc; exact .inl (by omega)
  · push_neg at hp
    have hm : c.jmax ≠ GoInt.maxInt := fun hm => by rw [if_pos hm] at hsucc; omega
    rw [if_neg hm] at hsucc
    obtain ⟨hv, hr₀, hr₁⟩ := intn_val_mem hp w.draws.head
    have hnp : ¬ JunkPanics c := by
      rintro (⟨-, hneg | hmax⟩ | ⟨hneg, -⟩)
      · omega
      · exact hm hmax
      · omega
    have hlo : max c.jmin.val 0 ≤ (GoInt.wrap (w.draws.head % (c.jmax + 1).val)).val := by omega
    have hhi : (GoInt.wrap (w.draws.head % (c.jmax + 1).val)).val ≤
        max c.jmax.val (max c.jmin.val 0) := by omega
    rw [Go.bind_of_silent (intn_apply hp w)]
    generalize GoInt.wrap (w.draws.head % (c.jmax + 1).val) = size at hlo hhi ⊢
    exact junkOfSize_outcome hnp hlo hhi rfl

theorem clampedJunk_apply {c : AmneziaConfig} (h0 : c.jmin ≠ 0) (w : World) :
    JunkOutcome c w ((drawSize (clampedSizes c).1 (clampedSizes c).2 >>= junkOfSize) w) := by
  have hmin : c.jmin.val ≠ 0 := fun h => h0 (GoInt.eq_zero_iff.2 h)
  obtain ⟨hlo, hhi⟩ := clampedSizes_val c
  have hd := drawSize_apply (show 0 ≤ (clampedSizes c).1.val by omega)
    (show (clampedSizes c).1.val ≤ (clampedSizes c).2.val by omega) w
  rcases hds : drawSize (clampedSizes c).1 (clampedSizes c).2 w with p | ⟨size, es, w₁⟩ <;>
    rw [hds] at hd
  · obtain ⟨rfl, hd⟩ := hd
    rw [Go.bind_of_error hds]
    refine .inr ⟨by omega, GoInt.eq_maxInt_iff.2 ?_⟩
    have := GoInt.eq_maxInt_iff.1 hd.2
    have := c.jmax.lt_max
    omega
  · obtain ⟨hnot, rfl, hn₁, hs₀, hs₁⟩ := hd
    have hnp : ¬ JunkPanics c := by
      rintro (⟨h, -⟩ | ⟨hneg, hm⟩)
      · exact h0 h
      · have := GoInt.eq_maxInt_iff.1 hm
        exact hnot ⟨by omega, GoInt.eq_maxInt_iff.2 (by rw [hhi]; omega)⟩
    rw [Go.bind_of_silent hds]
    exact junkOfSize_outcome hnp (by omega) (by omega) hn₁

theorem generateJunkPacket_spec {b : Bind} {c : AmneziaConfig} (hc : b.amneziaConfig = some c)
    (w : World) : JunkOutcome c w (b.generateJunkPacket w) := by
  simp only [Bind.generateJunkPacket, hc]
  split_ifs with h00 h0 hj
  · have h₁ := GoInt.eq_zero_iff.1 h00.1
    have h₂ := GoInt.eq_zero_iff.1 h00.2
    refine ⟨?_, rfl, rfl, .inr ⟨by simp [h₁], by simp [h₁, h₂]⟩⟩
    rintro (⟨-, h | h⟩ | ⟨h, -⟩)
    · omega
    · rw [GoInt.eq_maxInt_iff] at h; omega
    · omega
  · exact absurd ⟨h0, hj⟩ h00
  · exact zeroMinJunk_apply h0 w
  · obtain ⟨z, w₁, hz, hn, hzt⟩ := zeroSizeCoin_apply c w
    rw [Go.bind_of_silent hz]
    cases z
    · exact (clampedJunk_apply h0 w₁).of_net hn
    · obtain ⟨hallow, hpos⟩ := hzt rfl
      refine ⟨?_, rfl, hn, .inl ⟨rfl, hallow⟩⟩
      rintro (⟨h, -⟩ | ⟨h, -⟩)
      · exact h0 h
      · omega

/-- On every configuration `JunkPanics` names, `generateJunkPacket` panics in `rng.Intn`, whatever
the draws, the clock and `crypto/rand`. -/
theorem generateJunkPacket_panics {b : Bind} {c : AmneziaConfig} (hc : b.amneziaConfig = some c)
    (hp : JunkPanics c) (w : World) : b.generateJunkPacket w = .error .intnNonPositive := by
  have h := generateJunkPacket_spec hc w
  rcases hg : b.generateJunkPacket w with (_ | _) | ⟨bs, es, w'⟩ <;> rw [hg] at h
  · exact absurd hp h.1
  · exact absurd hp h.1

theorem generateJunkPacket_panics_at_jmax_minus_one :
    JunkPanics { AmneziaConfig.zero with jmax := -1 } ∧
      (⟨443, [], some { AmneziaConfig.zero with jmax := -1 }, fun _ => none, 0⟩ :
        Bind).generateJunkPacket World.steady = .error .intnNonPositive :=
  ⟨by decide, generateJunkPacket_panics rfl (by decide) _⟩

/-- On every configuration that is not `JunkPanics` and whose sizes fit `maxAlloc`, it returns,
whatever the draws and `crypto/rand` give, and causes no event; the packet has a length in
`[max Jmin 0, max Jmax (max Jmin 0)]`, or is empty when `AllowZeroSize` is set. -/
theorem generateJunkPacket_ok {b : Bind} {c : AmneziaConfig} (hc : b.amneziaConfig = some c)
    (hp : ¬ JunkPanics c) (hf : JunkFits c) (w : World) :
    ∃ bs w', b.generateJunkPacket w = .ok (bs, [], w') ∧ JunkLength c bs.length := by
  have h := generateJunkPacket_spec hc w
  rcases hg : b.generateJunkPacket w with (_ | _) | ⟨bs, es, w'⟩ <;> rw [hg] at h
  · exact absurd h hp
  · exact absurd hf h.2
  · exact ⟨bs, w', by rw [h.2.1], h.2.2.2⟩

theorem generateJunkPacket_ok_ten_to_twenty :
    ¬ JunkPanics { AmneziaConfig.zero with jmin := 10, jmax := 20 } ∧
      JunkFits { AmneziaConfig.zero with jmin := 10, jmax := 20 } ∧
      ∃ bs w',
        (⟨443, [], some { AmneziaConfig.zero with jmin := 10, jmax := 20 }, fun _ => none, 0⟩ :
          Bind).generateJunkPacket World.steady = .ok (bs, [], w') ∧
        JunkLength { AmneziaConfig.zero with jmin := 10, jmax := 20 } bs.length :=
  ⟨by decide, by decide, generateJunkPacket_ok rfl (by decide) (by decide) _⟩

end PreflightBind
