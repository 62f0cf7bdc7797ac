import PreflightBind.Engine.Send

/-!
# Sequential runs of `Send` refine the limiter

A device calls `Send` again and again on one bind. Each call reads the clock at most once and,
when its batch holds an initiation, runs the critical section at once; so a run of calls one after
another is the interleaving of `Limiter.Reach` in which every caller takes the lock as soon as it
has read the clock. Along such a run the bind's `lastSent` is the map of the limiter whose log is
the run's triggers, and so any two triggers for one destination are `interval` apart. Under any
interleaving, at a real clock reading, a call triggers exactly when its batch holds an initiation
and the limiter's log makes its destination `Admissible`.

A `SendTrace` is such a run with the events of every call. Erased to a `SendRun`, it shows that the
wrapped bind receives every batch once and in order, and that the post-handshake goroutines are
started one per trigger, so that for each destination they too are `interval` apart.
-/

namespace PreflightBind

/-- What one `Send` leaves of the bind: the limiter's critical section when the call triggers, the
same bind otherwise. -/
theorem send_bind_eq {b b₁ : Bind} {bufs : List Bytes} {ep : Endpoint} {w w₁ : World}
    {err : GoError} {es : List Event} (h : b.send bufs ep w = .ok ((err, b₁), es, w₁)) :
    if b.Triggers bufs ep w.clock.head.toTime then
      ∃ m, lockedAdmit b.lastSent b.interval ep.dstIP w.clock.head.toTime = some m ∧
        b₁ = { b with lastSent := m }
    else b₁ = b := by
  rw [send_apply] at h
  split_ifs with ht
  · rcases hc : b.amneziaConfig with _ | c
    · obtain ⟨m, hm, heq⟩ := maybePreflight_of_triggers_simple hc ht
      simp only [heq, Except.ok.injEq, Prod.mk.injEq] at h
      exact ⟨m, hm, by rw [← h.1.2, hc]⟩
    · obtain ⟨m, r, hm, -, heq⟩ := maybePreflight_of_triggers hc ht
      rcases r with p | ⟨_, es', w'⟩
      · simp [heq] at h
      · simp only [heq, Except.ok.injEq, Prod.mk.injEq] at h
        exact ⟨m, hm, by rw [← h.1.2, hc]⟩
  · obtain ⟨w', heq⟩ := maybePreflight_of_not_triggers ht
    simp only [heq, Except.ok.injEq, Prod.mk.injEq] at h
    exact h.1.2.symm

theorem Limiter.Reach.readAccept {interval : Duration} {s : Limiter} (hs : s.Reach interval)
    (hw : s.waiting = []) (dst : Addr) (r : Reading) {m : Addr → Option Time}
    (ha : lockedAdmit s.lastSent interval dst r.toTime = some m) :
    Limiter.Reach interval ⟨m, [], s.admitted ++ [⟨dst, r.toTime⟩]⟩ := by
  simpa [hw] using (hs.read dst r).accept (k := ⟨dst, r.toTime⟩) (by simp [hw]) ha

/-- Calls of `Send` one after another on one bind, each on the bind and the world the last one
left. `SendRun b w log b' w'` runs from `b` and `w` to `b'` and `w'`; `log` holds the calls that
triggered a sequence, each with its destination and clock reading, in order. -/
inductive SendRun : Bind → World → List Caller → Bind → World → Prop
  | nil (b : Bind) (w : World) : SendRun b w [] b w
  /-- A call whose batch holds an initiation that the limiter admits. -/
  | trigger {b b₁ b₂ : Bind} {w w₁ w₂ : World} {log : List Caller} {err : GoError}
      {es : List Event} (bufs : List Bytes) (ep : Endpoint) :
      b.Triggers bufs ep w.clock.head.toTime →
      b.send bufs ep w = .ok ((err, b₁), es, w₁) →
      SendRun b₁ w₁ log b₂ w₂ →
      SendRun b w (⟨ep.dstIP, w.clock.head.toTime⟩ :: log) b₂ w₂
  /-- Any other call. -/
  | pass {b b₁ b₂ : Bind} {w w₁ w₂ : World} {log : List Caller} {err : GoError}
      {es : List Event} (bufs : List Bytes) (ep : Endpoint) :
      ¬ b.Triggers bufs ep w.clock.head.toTime →
      b.send bufs ep w = .ok ((err, b₁), es, w₁) →
      SendRun b₁ w₁ log b₂ w₂ → SendRun b w log b₂ w₂

/-- A run continues a limiter whose map is the bind's and whose callers are all served: the
limiter that then admits the run's triggers reaches the map the run leaves. -/
theorem SendRun.reach {b b' : Bind} {w w' : World} {log : List Caller} (h : SendRun b w log b' w')
    {s : Limiter} (hs : s.Reach b.interval) (hl : s.lastSent = b.lastSent) (hw : s.waiting = []) :
    Limiter.Reach b.interval ⟨b'.lastSent, [], s.admitted ++ log⟩ := by
  induction h generalizing s with
  | nil b w =>
    obtain ⟨lastSent, waiting, admitted⟩ := s
    dsimp only at hl hw
    subst hl hw
    simpa using hs
  | @trigger b b₁ b₂ w w₁ w₂ log err es bufs ep ht hsend _ ih =>
    have hb := send_bind_eq hsend
    rw [if_pos ht] at hb
    obtain ⟨m, hm, rfl⟩ := hb
    rw [← hl] at hm
    simpa using ih (hs.readAccept hw ep.dstIP w.clock.head hm) rfl rfl
  | @pass b b₁ b₂ w w₁ w₂ log err es bufs ep ht hsend _ ih =>
    have hb := send_bind_eq hsend
    rw [if_neg ht] at hb
    subst hb
    exact ih hs hl hw

/-- Over every run of `Send` calls one after another on a bind whose limiter map is empty, as `New`
and `NewWithAmnezia` build it: the map holds, for each destination, the clock reading of the run's
last trigger for it, and any two triggers for one destination are at least `interval` apart. -/
theorem sendRun_triggers_apart {b b' : Bind} {w w' : World} {log : List Caller}
    (h : SendRun b w log b' w') (hb : b.lastSent = fun _ => none) :
    (∀ d, b'.lastSent d = lastFor log d) ∧
    ∀ k₁ k₂, List.Sublist [k₁, k₂] log → k₁.dst = k₂.dst →
      b.interval.val ≤ |(k₂.now.sub k₁.now).val| := by
  have hi := (h.reach .init hb.symm rfl).inv
  simp only [List.nil_append] at hi
  exact ⟨hi.lastSent_eq, hi.separated⟩

/-- The bind `New(inner, "00", 443, 1)` builds. -/
def exampleNewBind : Bind := ⟨443, [0], none, fun _ => none, 1⟩

/-- A trigger for `192.0.2.1` at the `n`-th reading of `World.ticking`. -/
def tickCaller (n : Nat) : Caller := ⟨"192.0.2.1", (World.ticking.clock n).toTime⟩

set_option maxRecDepth 20000 in
theorem sendRun_triggers_apart_twice :
    new "00" 443 1 = .ok exampleNewBind ∧
    ∃ b' w', SendRun exampleNewBind World.ticking [tickCaller 0, tickCaller 1] b' w' ∧
      exampleNewBind.lastSent = (fun _ => none) ∧
      (∀ d, b'.lastSent d = lastFor [tickCaller 0, tickCaller 1] d) ∧
      ∀ k₁ k₂, List.Sublist [k₁, k₂] [tickCaller 0, tickCaller 1] → k₁.dst = k₂.dst →
        exampleNewBind.interval.val ≤ |(k₂.now.sub k₁.now).val| :=
  have h : SendRun exampleNewBind World.ticking [tickCaller 0, tickCaller 1] _ _ :=
    .trigger [initiationBuf] ⟨"192.0.2.1"⟩ ⟨any_initiationBuf, rfl⟩ rfl
      (.trigger [initiationBuf] ⟨"192.0.2.1"⟩ ⟨any_initiationBuf, rfl⟩ rfl (.nil _ _))
  ⟨rfl, _, _, h, rfl, sendRun_triggers_apart h rfl⟩

/-! ## Traces: the events of a run -/

/-- The batch and endpoint of a call of the wrapped bind's `Send`. -/
def Event.forwarded : Event → Option (List Bytes × Endpoint)
  | .innerSend bufs ep => some (bufs, ep)
  | _ => none

/-- The destination of a post-handshake goroutine started by the event. -/
def Event.spawned : Event → Option Addr
  | .spawn host => some host
  | _ => none

theorem filterMap_of_isDecoy {es : List Event} (h : ∀ e ∈ es, e.isDecoy) :
    es.filterMap Event.forwarded = [] ∧ es.filterMap Event.spawned = [] := by
  have hnone : ∀ e : Event, e.isDecoy → e.forwarded = none ∧ e.spawned = none := by
    rintro (_ | _ | _ | _) he
    · exact ⟨rfl, rfl⟩
    · exact ⟨rfl, rfl⟩
    · cases he
    · cases he
  exact ⟨List.filterMap_eq_nil_iff.2 fun e he => (hnone e (h e he)).1,
    List.filterMap_eq_nil_iff.2 fun e he => (hnone e (h e he)).2⟩

/-- What one `Send` shows: its batch handed on once, and a goroutine started for the destination
exactly when a bind with an Amnezia configuration triggers. -/
theorem send_events {b b₁ : Bind} {bufs : List Bytes} {ep : Endpoint} {w w₁ : World}
    {err : GoError} {es : List Event} (h : b.send bufs ep w = .ok ((err, b₁), es, w₁)) :
    es.filterMap Event.forwarded = [(bufs, ep)] ∧
      es.filterMap Event.spawned =
        if b.amneziaConfig.isSome ∧ b.Triggers bufs ep w.clock.head.toTime then [ep.dstIP]
        else [] := by
  rw [send_apply] at h
  by_cases ht : b.Triggers bufs ep w.clock.head.toTime
  · rcases hc : b.amneziaConfig with _ | c
    · obtain ⟨m, -, heq⟩ := maybePreflight_of_triggers_simple hc ht
      simp only [heq, Except.ok.injEq, Prod.mk.injEq] at h
      rw [← h.2.1]
      split <;> simp [Event.forwarded, Event.spawned]
    · obtain ⟨m, r, -, hr, heq⟩ := maybePreflight_of_triggers hc ht
      rcases r with p | ⟨_, es', w'⟩
      · simp [heq] at h
      · simp only [heq, Except.ok.injEq, Prod.mk.injEq] at h
        rw [← h.2.1]
        obtain ⟨hf, hs⟩ := filterMap_of_isDecoy hr.2.1
        simp [hf, hs, ht, Event.forwarded, Event.spawned]
  · obtain ⟨w', heq⟩ := maybePreflight_of_not_triggers ht
    simp only [heq, Except.ok.injEq, Prod.mk.injEq] at h
    rw [← h.2.1]
    simp [ht, Event.forwarded, Event.spawned]

/-- Over every interleaving of concurrent callers on a fresh bind, at real clock readings. A `Send`
call that runs the critical section on the limiter's map, as every call does as soon as it has read
the clock, triggers exactly when its batch holds an initiation (first byte `MessageInitiationType`,
at least `MessageInitiationSize` bytes) and the log makes its destination `Admissible`: it then sets
that destination's entry to its reading and, on a bind with an Amnezia configuration, starts the
goroutine for it; any other call leaves the bind as it is and only forwards the batch. The map
holds, per destination, the reading of the last admitted trigger; a waiting caller is admitted
exactly when `Admissible`, so the first for its destination always is; an admission changes no
other entry; and any two admitted triggers for one destination are `interval` apart. -/
theorem send_admission_spec {interval : Duration} {s : Limiter} (h : s.Reach interval) :
    (∀ (b : Bind) (bufs : List Bytes) (ep : Endpoint) (w : World) (err : GoError) (b₁ : Bind)
        (es : List Event) (w₁ : World),
      b.interval = interval → b.lastSent = s.lastSent → w.clock.head.toTime.IsReal →
      b.send bufs ep w = .ok ((err, b₁), es, w₁) →
      if (∃ buf ∈ bufs, buf.head? = some messageInitiationType ∧
            messageInitiationSize ≤ buf.length) ∧
          Admissible interval s.admitted ep.dstIP w.clock.head.toTime then
        b₁ = { b with lastSent := Function.update s.lastSent ep.dstIP (some w.clock.head.toTime) } ∧
          es.filterMap Event.spawned = if b.amneziaConfig.isSome then [ep.dstIP] else []
      else b₁ = b ∧ es = [.innerSend bufs ep]) ∧
    (∀ d, s.lastSent d = lastFor s.admitted d) ∧
    (∀ k ∈ s.waiting, k.now.IsReal →
      ((lockedAdmit s.lastSent interval k.dst k.now).isSome ↔
        Admissible interval s.admitted k.dst k.now)) ∧
    (∀ k ∈ s.waiting, k.now.IsReal → lastFor s.admitted k.dst = none →
      (lockedAdmit s.lastSent interval k.dst k.now).isSome) ∧
    (∀ k ∈ s.waiting, ∀ m, lockedAdmit s.lastSent interval k.dst k.now = some m →
      ∀ d, d ≠ k.dst → m d = s.lastSent d) ∧
    (∀ k₁ k₂, List.Sublist [k₁, k₂] s.admitted → k₁.dst = k₂.dst →
      interval.val ≤ |(k₂.now.sub k₁.now).val|) := by
  have hi := h.inv
  refine ⟨fun b bufs ep w err b₁ es w₁ hI hl hr hsend => ?_, hi.lastSent_eq,
    fun k _ hr => hi.lockedAdmit_isSome_iff_admissible k.dst hr,
    fun k _ hr hn => (hi.lockedAdmit_isSome_iff_admissible k.dst hr).2 (by simp only [Admissible, hn]),
    fun k _ m hm d hd => by rw [(lockedAdmit_eq_some hm).2, Function.update_noteq hd], hi.separated⟩
  have ht : b.Triggers bufs ep w.clock.head.toTime ↔
      (∃ buf ∈ bufs, buf.head? = some messageInitiationType ∧
        messageInitiationSize ≤ buf.length) ∧
      Admissible interval s.admitted ep.dstIP w.clock.head.toTime := by
    rw [Bind.Triggers, List.any_eq_true, hl, hI, hi.lockedAdmit_isSome_iff_admissible _ hr]
    simp only [handshakeInitiation_iff]
  have hb := send_bind_eq hsend
  by_cases hc : b.Triggers bufs ep w.clock.head.toTime
  · rw [if_pos (ht.1 hc)]
    rw [if_pos hc] at hb
    obtain ⟨m, hm, rfl⟩ := hb
    refine ⟨by rw [(lockedAdmit_eq_some hm).2, hl], ?_⟩
    simp [(send_events hsend).2, hc]
  · rw [if_neg (mt ht.2 hc)]
    rw [if_neg hc] at hb
    obtain ⟨w', heq⟩ := maybePreflight_of_not_triggers hc
    rw [send_apply, heq] at hsend
    simp only [Except.ok.injEq, Prod.mk.injEq] at hsend
    exact ⟨hb, hsend.2.1.symm⟩

/-- Two triggers for `192.0.2.1`, admitted one second apart at the first two readings of
`World.ticking`, under a one-second interval. -/
def twoAdmitted : Limiter :=
  ⟨Function.update (Function.update (fun _ => none) "192.0.2.1" (some (tickCaller 0).now))
    "192.0.2.1" (some (tickCaller 1).now), [], [tickCaller 0, tickCaller 1]⟩

set_option maxRecDepth 20000 in
theorem send_admission_spec_two_triggers :
    twoAdmitted.Reach 1000000000 ∧
    (∀ (b : Bind) (bufs : List Bytes) (ep : Endpoint) (w : World) (err : GoError) (b₁ : Bind)
        (es : List Event) (w₁ : World),
      b.interval = 1000000000 → b.lastSent = twoAdmitted.lastSent →
      w.clock.head.toTime.IsReal → b.send bufs ep w = .ok ((err, b₁), es, w₁) →
      if (∃ buf ∈ bufs, buf.head? = some messageInitiationType ∧
            messageInitiationSize ≤ buf.length) ∧
          Admissible 1000000000 twoAdmitted.admitted ep.dstIP w.clock.head.toTime then
        b₁ = { b with
          lastSent := Function.update twoAdmitted.lastSent ep.dstIP (some w.clock.head.toTime) } ∧
          es.filterMap Event.spawned = if b.amneziaConfig.isSome then [ep.dstIP] else []
      else b₁ = b ∧ es = [.innerSend bufs ep]) ∧
    (∀ d, twoAdmitted.lastSent d = lastFor twoAdmitted.admitted d) ∧
    (∀ k ∈ twoAdmitted.waiting, k.now.IsReal →
      ((lockedAdmit twoAdmitted.lastSent 1000000000 k.dst k.now).isSome ↔
        Admissible 1000000000 twoAdmitted.admitted k.dst k.now)) ∧
    (∀ k ∈ twoAdmitted.waiting, k.now.IsReal → lastFor twoAdmitted.admitted k.dst = none →
      (lockedAdmit twoAdmitted.lastSent 1000000000 k.dst k.now).isSome) ∧
    (∀ k ∈ twoAdmitted.waiting, ∀ m, lockedAdmit twoAdmitted.lastSent 1000000000 k.dst k.now = some m →
      ∀ d, d ≠ k.dst → m d = twoAdmitted.lastSent d) ∧
    (∀ k₁ k₂, List.Sublist [k₁, k₂] twoAdmitted.admitted → k₁.dst = k₂.dst →
      (1000000000 : Duration).val ≤ |(k₂.now.sub k₁.now).val|) :=
  have h : twoAdmitted.Reach 1000000000 :=
    ((Limiter.Reach.init : Limiter.Reach 1000000000 _).readAccept rfl "192.0.2.1"
      (World.ticking.clock 0) rfl).readAccept rfl
      "192.0.2.1" (World.ticking.clock 1) rfl
  ⟨h, send_admission_spec h⟩

theorem send_amneziaConfig {b b₁ : Bind} {bufs : List Bytes} {ep : Endpoint} {w w₁ : World}
    {err : GoError} {es : List Event} (h : b.send bufs ep w = .ok ((err, b₁), es, w₁)) :
    b₁.amneziaConfig = b.amneziaConfig := by
  have hb := send_bind_eq h
  split_ifs at hb
  · obtain ⟨m, -, rfl⟩ := hb; rfl
  · rw [hb]

/-- Calls of `Send` one after another on one bind, each on the bind and the world the last one
left: `SendTrace b w calls es b' w'` runs the `calls`, in order, from `b` and `w` to `b'` and `w'`,
with the events `es` of all of them in order. -/
inductive SendTrace : Bind → World → List (List Bytes × Endpoint) → List Event → Bind → World →
    Prop
  | nil (b : Bind) (w : World) : SendTrace b w [] [] b w
  | step {b b₁ b₂ : Bind} {w w₁ w₂ : World} {calls : List (List Bytes × Endpoint)}
      {es es' : List Event} {err : GoError} (bufs : List Bytes) (ep : Endpoint) :
      b.send bufs ep w = .ok ((err, b₁), es, w₁) → SendTrace b₁ w₁ calls es' b₂ w₂ →
      SendTrace b w ((bufs, ep) :: calls) (es ++ es') b₂ w₂

/-- A trace is a run of `SendRun` whose triggers start the goroutines it shows. -/
theorem SendTrace.erase {b b' : Bind} {w w' : World} {calls : List (List Bytes × Endpoint)}
    {es : List Event} (h : SendTrace b w calls es b' w') :
    es.filterMap Event.forwarded = calls ∧ ∃ log, SendRun b w log b' w' ∧
      es.filterMap Event.spawned = if b.amneziaConfig.isSome then log.map (·.dst) else [] := by
  induction h with
  | nil b w => exact ⟨rfl, [], .nil b w, by simp⟩
  | @step b b₁ b₂ w w₁ w₂ calls es es' err bufs ep hsend _ ih =>
    obtain ⟨hf, hs⟩ := send_events hsend
    obtain ⟨hf', log, hrun, hs'⟩ := ih
    rw [send_amneziaConfig hsend] at hs'
    refine ⟨by rw [List.filterMap_append, hf, hf']; rfl, ?_⟩
    by_cases ht : b.Triggers bufs ep w.clock.head.toTime
    · refine ⟨_, .trigger bufs ep ht hsend hrun, ?_⟩
      rw [List.filterMap_append, hs, hs']
      by_cases hc : b.amneziaConfig.isSome <;> simp [hc, ht]
    · refine ⟨log, .pass bufs ep ht hsend hrun, ?_⟩
      rw [List.filterMap_append, hs, hs']
      simp [ht]

end PreflightBind
