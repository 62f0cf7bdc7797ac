import PreflightBind.Engine.Config

/-!
# The rate limiter

`maybePreflight` reads the clock first, then takes `b.mu` and, in one critical section, reads
`b.lastSent[dst]` (the zero time when the map has no entry), refuses when less than `b.interval`
has passed since it, and otherwise records the new reading. Concurrent `Send` calls on one bind
read the clock and enter the critical section in any interleaving; `Limiter.Reach` runs any
number of them, with a log of the admitted triggers in the order they took the lock.
-/

namespace PreflightBind

/-- Modelled from the spec: `device.MessageInitiationType`, the handshake-initiation type code,
which the comment of `handshakeInitiation` gives as 1. -/
def messageInitiationType : UInt8 := 1

/-- Modelled from the spec: `device.MessageInitiationSize`, the protocol's minimum initiation size,
which the comment of `handshakeInitiation` gives as 148. -/
def messageInitiationSize : Nat := 148

/-- `handshakeInitiation(buf)`. -/
def handshakeInitiation (buf : Bytes) : Bool :=
  if buf.length < messageInitiationSize then false
  else buf.head? == some messageInitiationType && decide (messageInitiationSize ≤ buf.length)

theorem handshakeInitiation_iff (buf : Bytes) :
    handshakeInitiation buf = true ↔
      buf.head? = some messageInitiationType ∧ messageInitiationSize ≤ buf.length := by
  unfold handshakeInitiation
  split_ifs with h
  · simp only [Bool.false_eq_true, false_iff, not_and]
    omega
  · simp

/-- The critical section of `maybePreflight` for a caller whose reading is `now`: `none` when
`now.Sub(last) < b.interval`, else the map with `lastSent[dst] = now`. -/
def lockedAdmit (lastSent : Addr → Option Time) (interval : Duration) (dst : Addr) (now : Time) :
    Option (Addr → Option Time) :=
  if now.sub ((lastSent dst).getD Time.zero) < interval then none
  else some (Function.update lastSent dst (some now))

theorem lockedAdmit_eq_some {lastSent : Addr → Option Time} {interval : Duration} {dst : Addr}
    {now : Time} {m : Addr → Option Time} (h : lockedAdmit lastSent interval dst now = some m) :
    interval ≤ now.sub ((lastSent dst).getD Time.zero) ∧
      m = Function.update lastSent dst (some now) := by
  unfold lockedAdmit at h
  split_ifs at h with hlt
  rw [GoInt.lt_iff] at hlt
  exact ⟨GoInt.le_iff.2 (by omega), (Option.some.inj h).symm⟩

theorem lockedAdmit_isSome_iff (lastSent : Addr → Option Time) (interval : Duration) (dst : Addr)
    (now : Time) :
    (lockedAdmit lastSent interval dst now).isSome ↔
      interval ≤ now.sub ((lastSent dst).getD Time.zero) := by
  unfold lockedAdmit
  rw [GoInt.le_iff]
  split_ifs with h <;> rw [GoInt.lt_iff] at h <;> simp <;> omega

/-! ## Concurrent callers -/

/-- A `Send` call whose batch holds an initiation, once it has read the clock. -/
structure Caller where
  dst : Addr
  now : Time
deriving DecidableEq

/-- The limiter of one bind under concurrent `Send` calls: the map under `b.mu`, the callers that
have read the clock and wait for `b.mu`, and the admitted triggers, in lock order. -/
structure Limiter where
  lastSent : Addr → Option Time
  waiting : List Caller
  admitted : List Caller

/-- The states of the limiter of a fresh bind over every interleaving of its callers. A call whose
batch holds no initiation returns before it reads the clock, and takes no part. -/
inductive Limiter.Reach (interval : Duration) : Limiter → Prop
  | init : Limiter.Reach interval ⟨fun _ => none, [], []⟩
  /-- A caller reads the clock, any reading. -/
  | read {s : Limiter} (dst : Addr) (r : Reading) : Limiter.Reach interval s →
      Limiter.Reach interval { s with waiting := s.waiting ++ [⟨dst, r.toTime⟩] }
  /-- A waiting caller runs the critical section and is refused. -/
  | refuse {s : Limiter} {k : Caller} : Limiter.Reach interval s → k ∈ s.waiting →
      lockedAdmit s.lastSent interval k.dst k.now = none →
      Limiter.Reach interval { s with waiting := s.waiting.erase k }
  /-- A waiting caller runs the critical section and is admitted. -/
  | accept {s : Limiter} {k : Caller} {m : Addr → Option Time} : Limiter.Reach interval s →
      k ∈ s.waiting → lockedAdmit s.lastSent interval k.dst k.now = some m →
      Limiter.Reach interval ⟨m, s.waiting.erase k, s.admitted ++ [k]⟩

/-- The admitted triggers for `d`, in lock order. -/
def triggersFor (log : List Caller) (d : Addr) : List Caller :=
  log.filter fun k => decide (k.dst = d)

/-- The reading of the last admitted trigger for `d`. -/
def lastFor (log : List Caller) (d : Addr) : Option Time :=
  ((triggersFor log d).getLast?).map (·.now)

/-- When a caller for `d` that read `now` may be admitted, from the log alone: no trigger for `d`
admitted yet, or `now` at least `interval` after the last one. -/
def Admissible (interval : Duration) (log : List Caller) (d : Addr) (now : Time) : Prop :=
  match lastFor log d with
  | none => True
  | some t => interval ≤ now.sub t

instance (interval : Duration) (log : List Caller) (d : Addr) (now : Time) :
    Decidable (Admissible interval log d now) :=
  match h : lastFor log d with
  | none => isTrue (by simp only [Admissible, h])
  | some t => decidable_of_iff (interval ≤ now.sub t) (by simp only [Admissible, h])

/-- Two triggers in order whose monotonic readings are at least `interval` apart. -/
def Apart (interval : Duration) (k₁ k₂ : Caller) : Prop :=
  ∃ m₁ m₂, k₁.now.mono = some m₁ ∧ k₂.now.mono = some m₂ ∧
    interval.val ≤ m₂ - m₁

theorem Apart.trans {interval : Duration} (h : 0 ≤ interval.val) {k₁ k₂ k₃ : Caller}
    (h₁ : Apart interval k₁ k₂) (h₂ : Apart interval k₂ k₃) :
    Apart interval k₁ k₃ := by
  obtain ⟨m₁, m₂, e₁, e₂, d₁⟩ := h₁
  obtain ⟨m₂', m₃, e₂', e₃, d₂⟩ := h₂
  rw [e₂] at e₂'; cases e₂'
  exact ⟨m₁, m₃, e₁, e₃, by omega⟩

theorem triggersFor_append_self (log : List Caller) (k : Caller) :
    triggersFor (log ++ [k]) k.dst = triggersFor log k.dst ++ [k] := by
  simp [triggersFor]

theorem triggersFor_append_of_ne (log : List Caller) {k : Caller} {d : Addr} (h : k.dst ≠ d) :
    triggersFor (log ++ [k]) d = triggersFor log d := by
  simp [triggersFor, h]

/-- What every reachable state of the limiter satisfies. -/
structure Limiter.Inv (interval : Duration) (s : Limiter) : Prop where
  lastSent_eq : ∀ d, s.lastSent d = lastFor s.admitted d
  waiting_mono : ∀ k ∈ s.waiting, k.now.mono.isSome
  admitted_mono : ∀ k ∈ s.admitted, k.now.mono.isSome
  apart : 0 ≤ interval.val → ∀ d, (triggersFor s.admitted d).Pairwise (Apart interval)

/-- An admitted caller is at least `interval` after the last trigger admitted for its
destination. -/
theorem apart_of_accept {interval : Duration} {s : Limiter} (hi : s.Inv interval)
    (hI : 0 ≤ interval.val)
    {k : Caller} (hk : k ∈ s.waiting) {m : Addr → Option Time}
    (ha : lockedAdmit s.lastSent interval k.dst k.now = some m) :
    ∀ x ∈ triggersFor s.admitted k.dst, Apart interval x k := by
  intro x hx
  obtain ⟨L, l, hL⟩ := List.eq_nil_or_concat (triggersFor s.admitted k.dst) |>.resolve_left
    (List.ne_nil_of_mem hx)
  rw [List.concat_eq_append] at hL
  have hl : l ∈ s.admitted := (List.mem_filter.1 (hL ▸ List.mem_concat_self L l)).1
  have hlast : s.lastSent k.dst = some l.now := by
    rw [hi.lastSent_eq, lastFor, hL, List.getLast?_concat]; rfl
  obtain ⟨ml, hml⟩ := Option.isSome_iff_exists.1 (hi.admitted_mono l hl)
  obtain ⟨mk, hmk⟩ := Option.isSome_iff_exists.1 (hi.waiting_mono k hk)
  have hsep := (lockedAdmit_eq_some ha).1
  rw [hlast, Option.getD_some, Time.sub_of_mono hmk hml, GoInt.le_iff,
    Duration.val_saturate] at hsep
  have hlk : Apart interval l k := ⟨ml, mk, hml, hmk, by omega⟩
  rw [hL] at hx
  rcases List.mem_append.1 hx with hx | hx
  · have hpair := hi.apart hI k.dst
    rw [hL, List.pairwise_append] at hpair
    exact (hpair.2.2 x hx l (List.mem_singleton_self l)).trans hI hlk
  · rw [List.mem_singleton.1 hx]; exact hlk

theorem Limiter.Reach.inv {interval : Duration} {s : Limiter} (h : s.Reach interval) :
    s.Inv interval := by
  induction h with
  | init => exact ⟨fun _ => rfl, by simp, by simp, fun _ _ => by simp [triggersFor]⟩
  | read dst r _ ih =>
    refine ⟨ih.lastSent_eq, ?_, ih.admitted_mono, ih.apart⟩
    simp only [List.mem_append, List.mem_singleton]
    rintro k (hk | rfl)
    · exact ih.waiting_mono k hk
    · rfl
  | refuse _ hk _ ih =>
    exact ⟨ih.lastSent_eq, fun k' hk' => ih.waiting_mono k' (List.mem_of_mem_erase hk'),
      ih.admitted_mono, ih.apart⟩
  | @accept s k m _ hk ha ih =>
    have hm := (lockedAdmit_eq_some ha).2
    refine ⟨fun d => ?_, fun k' hk' => ih.waiting_mono k' (List.mem_of_mem_erase hk'), ?_,
      fun hI d => ?_⟩
    · by_cases hd : k.dst = d
      · subst hd
        simp [hm, lastFor, triggersFor_append_self]
      · show m d = lastFor (s.admitted ++ [k]) d
        rw [hm, Function.update_noteq (Ne.symm hd), ih.lastSent_eq, lastFor, lastFor,
          triggersFor_append_of_ne _ hd]
    · simp only [List.mem_append, List.mem_singleton]
      rintro k' (hk' | rfl)
      · exact ih.admitted_mono k' hk'
      · exact ih.waiting_mono _ hk
    · by_cases hd : k.dst = d
      · subst hd
        rw [triggersFor_append_self, List.pairwise_append]
        exact ⟨ih.apart hI k.dst, by simp, fun x hx y hy =>
          (List.mem_singleton.1 hy) ▸ apart_of_accept ih hI hk ha x hx⟩
      · rw [triggersFor_append_of_ne _ hd]; exact ih.apart hI d

/-- Any two admitted triggers for one destination are `interval` apart, on the clock `Time.Sub`
reads. -/
theorem Limiter.Inv.separated {interval : Duration} {s : Limiter} (hi : s.Inv interval)
    (k₁ k₂ : Caller) (hs : List.Sublist [k₁, k₂] s.admitted) (hd : k₁.dst = k₂.dst) :
    interval.val ≤ |(k₂.now.sub k₁.now).val| := by
  by_cases hI : 0 ≤ interval.val
  · have hsub : List.Sublist [k₁, k₂] (triggersFor s.admitted k₁.dst) := by
      simpa [triggersFor, hd] using hs.filter (fun k => decide (k.dst = k₁.dst))
    obtain ⟨m₁, m₂, e₁, e₂, hle⟩ :=
      List.pairwise_pair.1 ((hi.apart hI k₁.dst).sublist hsub)
    have := interval.lt_max
    rw [Time.sub_of_mono e₂ e₁, Duration.val_saturate]
    exact le_abs.2 (.inl (by omega))
  · exact (lt_of_not_le hI).le.trans (abs_nonneg _)

/-- At a real reading, the critical section admits exactly the `Admissible` callers: against the
zero time of a fresh destination, `Time.Sub` saturates to the largest `Duration`. -/
theorem Limiter.Inv.lockedAdmit_isSome_iff_admissible {interval : Duration} {s : Limiter}
    (hi : s.Inv interval) (d : Addr) {now : Time} (hr : now.IsReal) :
    (lockedAdmit s.lastSent interval d now).isSome ↔ Admissible interval s.admitted d now := by
  rw [lockedAdmit_isSome_iff, hi.lastSent_eq, Admissible]
  cases lastFor s.admitted d with
  | none =>
    have := interval.lt_max
    simp only [Option.getD_none, GoInt.le_iff, Time.sub_zero_of_isReal hr, iff_true]
    omega
  | some t => rfl

end PreflightBind
