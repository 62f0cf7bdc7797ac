import PreflightBind.Engine.Sequence
import PreflightBind.Engine.Limiter

/-!
# `Send`

`Send` runs `maybePreflight`, then hands the batch to the wrapped bind. `maybePreflight` looks for
a handshake initiation, reads the clock, asks the rate limiter, and on admission runs the
synchronous part of the decoy sequence, which starts the post-handshake goroutine, or, for a bind
of `New`, writes the payload once.

Two limits of the model. The goroutine is the event `spawn host`: its datagrams are described on
their own, from any world, and are not interleaved with the wrapped `Send` or with later calls.
And the package's `rng`, which `math/rand` does not make safe for concurrent use, is one stream of
draws shared in sequence; what concurrent draws would do to it is not modelled.
-/

namespace PreflightBind

/-- `b.maybePreflight(ep, bufs)`, returning the bind with the `lastSent` it leaves. -/
def Bind.maybePreflight (b : Bind) (ep : Endpoint) (bufs : List Bytes) : Go Bind := do
  let dst := ep.dstIP
  if bufs.any handshakeInitiation then
    let now ← liftM World.now
    match lockedAdmit b.lastSent b.interval dst now with
    | none => pure b
    | some lastSent =>
      let b := { b with lastSent := lastSent }
      let host := dst
      (match b.amneziaConfig with
        | some _ => b.executeMinimalPreHandshakeSequence host
        | none => b.executeSimplePreflight host)
      pure b
  else pure b

/-- `b.Send(bufs, ep)`: the preflight, then `b.inner.Send(bufs, ep)`, whose error it returns. -/
def Bind.send (b : Bind) (bufs : List Bytes) (ep : Endpoint) : Go (GoError × Bind) := do
  let b ← b.maybePreflight ep bufs
  Go.emit (.innerSend bufs ep)
  let err ← liftM World.reply
  pure (err, b)

/-- Whether a `Send` of `bufs` to `ep` triggers a sequence when the clock reads `now`: the batch
holds an initiation and the limiter admits the destination. -/
def Bind.Triggers (b : Bind) (bufs : List Bytes) (ep : Endpoint) (now : Time) : Prop :=
  bufs.any handshakeInitiation ∧ (lockedAdmit b.lastSent b.interval ep.dstIP now).isSome

instance (b : Bind) (bufs : List Bytes) (ep : Endpoint) (now : Time) :
    Decidable (b.Triggers bufs ep now) :=
  inferInstanceAs (Decidable (_ ∧ _))

theorem send_apply (b : Bind) (bufs : List Bytes) (ep : Endpoint) (w : World) :
    b.send bufs ep w = match b.maybePreflight ep bufs w with
      | .error p => .error p
      | .ok (b', es, w₁) =>
        .ok ((w₁.replies.head, b'), es ++ [.innerSend bufs ep],
          { w₁ with replies := w₁.replies.tail }) := by
  rcases h : b.maybePreflight ep bufs w with p | ⟨b', es, w₁⟩
  · simp [Bind.send, Go.bind_apply, h]
  · simp [Bind.send, Go.bind_apply, h, Go.emit, Go.lift_apply, Go.pure_apply]

/-- A batch with no handshake initiation: the clock is not read and nothing happens. -/
theorem maybePreflight_of_no_initiation (b : Bind) {bufs : List Bytes}
    (h : bufs.any handshakeInitiation = false) (ep : Endpoint) (w : World) :
    b.maybePreflight ep bufs w = .ok (b, [], w) := by
  simp only [Bind.maybePreflight, h]
  rfl

theorem maybePreflight_of_not_triggers {b : Bind} {bufs : List Bytes} {ep : Endpoint} {w : World}
    (h : ¬ b.Triggers bufs ep w.clock.head.toTime) :
    ∃ w', b.maybePreflight ep bufs w = .ok (b, [], w') := by
  unfold Bind.Triggers at h
  by_cases hi : bufs.any handshakeInitiation
  · have hn : lockedAdmit b.lastSent b.interval ep.dstIP w.clock.head.toTime = none := by
      simpa [hi] using h
    refine ⟨{ w with clock := w.clock.tail }, ?_⟩
    simp only [Bind.maybePreflight, hi, if_true]
    rw [Go.bind_of_silent (Go.lift_apply _ w)]
    simp only [World.now_run, hn]
    rfl
  · exact ⟨w, maybePreflight_of_no_initiation b (by simpa using hi) ep w⟩

theorem maybePreflight_of_triggers {b : Bind} {c : AmneziaConfig} (hc : b.amneziaConfig = some c)
    {bufs : List Bytes} {ep : Endpoint} {w : World} (h : b.Triggers bufs ep w.clock.head.toTime) :
    ∃ m r, lockedAdmit b.lastSent b.interval ep.dstIP w.clock.head.toTime = some m ∧
      DecoyOutcome (JunkPanics c ∧ 0 < c.jcBeforeHS.val) (AllocPanics c ∧ 0 < c.jcBeforeHS.val)
        (TriggerDatagrams b c ep.dstIP { w with clock := w.clock.tail })
        { w with clock := w.clock.tail } r ∧
      b.maybePreflight ep bufs w = match r with
        | .error p => .error p
        | .ok (_, es, w') => .ok ({ b with lastSent := m }, es ++ [.spawn ep.dstIP], w') := by
  obtain ⟨hi, hs⟩ := h
  obtain ⟨m, hm⟩ := Option.isSome_iff_exists.1 hs
  obtain ⟨r, hr, heq⟩ :=
    executeMinimalPreHandshakeSequence_apply (b := { b with lastSent := m }) hc
    ep.dstIP { w with clock := w.clock.tail }
  refine ⟨m, r, hm, hr, ?_⟩
  simp only [Bind.maybePreflight, hi, if_true]
  rw [Go.bind_of_silent (Go.lift_apply _ w)]
  simp only [World.now_run, hm]
  rw [hc] at heq ⊢
  dsimp only
  rw [Go.bind_apply, heq]
  rcases r with p | ⟨_, es, w'⟩ <;> simp [Go.pure_apply]

theorem maybePreflight_of_triggers_simple {b : Bind} (hc : b.amneziaConfig = none)
    {bufs : List Bytes} {ep : Endpoint} {w : World} (h : b.Triggers bufs ep w.clock.head.toTime) :
    ∃ m, lockedAdmit b.lastSent b.interval ep.dstIP w.clock.head.toTime = some m ∧
      b.maybePreflight ep bufs w = .ok ({ b with lastSent := m },
        if w.net.head then [.udp ep.dstIP b.port443 b.payload] else [],
        { w with clock := w.clock.tail, net := w.net.tail }) := by
  obtain ⟨hi, hs⟩ := h
  obtain ⟨m, hm⟩ := Option.isSome_iff_exists.1 hs
  refine ⟨m, hm, ?_⟩
  simp only [Bind.maybePreflight, hi, if_true]
  rw [Go.bind_of_silent (Go.lift_apply _ w)]
  simp only [World.now_run, hm]
  rw [hc]
  dsimp only
  rw [Go.bind_apply, Bind.executeSimplePreflight, sendDatagram_apply]
  simp [Go.pure_apply]

def Event.isInnerSend : Event → Bool
  | .innerSend .. => true
  | _ => false

theorem Event.isInnerSend_of_isDecoy {e : Event} (h : e.isDecoy) : e.isInnerSend = false := by
  cases e <;> simp_all [Event.isDecoy, Event.isInnerSend]

/-- What a panic of `maybePreflight` can be: a triggered sequence whose first junk packets panic,
in `rng.Intn` on a `JunkPanics` configuration, or in `make` on one whose sizes may pass
`maxAlloc`. -/
def PreflightPanic (b : Bind) (bufs : List Bytes) (ep : Endpoint) (now : Time) (p : Panic) :
    Prop :=
  b.Triggers bufs ep now ∧ ∃ c, b.amneziaConfig = some c ∧ 0 < c.jcBeforeHS.val ∧
    (p = .intnNonPositive ∧ JunkPanics c ∨ p = .makeSliceLen ∧ AllocPanics c)

/-- `maybePreflight` panics only as `PreflightPanic` says, and in `rng.Intn` exactly when it
triggers a sequence whose configuration is `JunkPanics` with junk before the handshake; when it
returns, it has not called the wrapped `Send`. -/
theorem maybePreflight_spec (b : Bind) (bufs : List Bytes) (ep : Endpoint) (w : World) :
    match b.maybePreflight ep bufs w with
    | .error p => PreflightPanic b bufs ep w.clock.head.toTime p
    | .ok (_, es, _) => ¬ (b.Triggers bufs ep w.clock.head.toTime ∧
        ∃ c, b.amneziaConfig = some c ∧ JunkPanics c ∧ 0 < c.jcBeforeHS.val) ∧
        ∀ e ∈ es, e.isInnerSend = false := by
  by_cases ht : b.Triggers bufs ep w.clock.head.toTime
  · rcases hc : b.amneziaConfig with _ | c
    · obtain ⟨m, -, heq⟩ := maybePreflight_of_triggers_simple hc ht
      rw [heq]
      refine ⟨fun ⟨_, c, hc', _⟩ => by simp [hc] at hc', ?_⟩
      split <;> simp [Event.isInnerSend]
    · obtain ⟨m, r, -, hr, heq⟩ := maybePreflight_of_triggers hc ht
      rw [heq]
      rcases r with (_ | _) | ⟨_, es, w'⟩
      · exact ⟨ht, c, hc, hr.2, .inl ⟨rfl, hr.1⟩⟩
      · exact ⟨ht, c, hc, hr.2, .inr ⟨rfl, hr.1⟩⟩
      · refine ⟨fun ⟨_, c', hc', hp⟩ => hr.1 (by cases hc'; exact hp), ?_⟩
        simp only [List.mem_append, List.mem_singleton]
        rintro e (he | rfl)
        · exact Event.isInnerSend_of_isDecoy (hr.2.1 e he)
        · rfl
  · obtain ⟨w', heq⟩ := maybePreflight_of_not_triggers ht
    rw [heq]
    exact ⟨fun h => ht h.1, by simp⟩

/-- `Send` panics only in the junk of a triggered sequence before the handshake: in `rng.Intn`
exactly when the configuration is `JunkPanics`, and in `make` only when its sizes may pass
`maxAlloc`. Whenever it returns, it has called the wrapped `Send` exactly once, after everything
else it does and with the very same buffers, and returns that call's answer. -/
theorem send_forwards (b : Bind) (bufs : List Bytes) (ep : Endpoint) (w : World) :
    match b.send bufs ep w with
    | .error p => PreflightPanic b bufs ep w.clock.head.toTime p
    | .ok ((err, _), es, _) => ¬ (b.Triggers bufs ep w.clock.head.toTime ∧
        ∃ c, b.amneziaConfig = some c ∧ JunkPanics c ∧ 0 < c.jcBeforeHS.val) ∧
        ∃ b' pre w₁, b.maybePreflight ep bufs w = .ok (b', pre, w₁) ∧
        es = pre ++ [.innerSend bufs ep] ∧ (∀ e ∈ pre, e.isInnerSend = false) ∧
        err = w₁.replies.head := by
  have h := maybePreflight_spec b bufs ep w
  rw [send_apply]
  rcases hm : b.maybePreflight ep bufs w with p | ⟨b', pre, w₁⟩ <;> rw [hm] at h
  · exact h
  · exact ⟨h.1, b', pre, w₁, rfl, rfl, h.2, rfl⟩

/-- A handshake initiation: type 1, then 147 zero bytes. -/
def initiationBuf : Bytes := 1 :: List.replicate 147 0

theorem any_initiationBuf : [initiationBuf].any handshakeInitiation = true := by
  simp [handshakeInitiation, initiationBuf, messageInitiationSize, messageInitiationType]

theorem send_panics {b : Bind} {c : AmneziaConfig} (hc : b.amneziaConfig = some c)
    (hp : JunkPanics c)
    (hj : 0 < c.jcBeforeHS.val) {bufs : List Bytes} {ep : Endpoint} {w : World}
    (ht : b.Triggers bufs ep w.clock.head.toTime) : b.send bufs ep w = .error .intnNonPositive := by
  obtain ⟨m, r, -, hr, heq⟩ := maybePreflight_of_triggers hc ht
  rcases r with (_ | _) | ⟨_, es, w'⟩
  · rw [send_apply, heq]
  · exact absurd hp hr.1.1
  · exact absurd ⟨hp, hj⟩ hr.1

theorem send_panics_at_negative_jmax :
    ((newWithAmnezia (some { AmneziaConfig.zero with jmax := -1, jcBeforeHS := 1 }) 443 0).run
        World.steady).1 =
      .ok ⟨443, [], some { AmneziaConfig.zero with jmax := -1, jcBeforeHS := 1 }, fun _ => none,
        0⟩ ∧
    JunkPanics { AmneziaConfig.zero with jmax := -1, jcBeforeHS := 1 } ∧
    (⟨443, [], some { AmneziaConfig.zero with jmax := -1, jcBeforeHS := 1 }, fun _ => none, 0⟩ :
      Bind).Triggers [initiationBuf] ⟨"192.0.2.1"⟩ World.steady.clock.head.toTime ∧
    (⟨443, [], some { AmneziaConfig.zero with jmax := -1, jcBeforeHS := 1 }, fun _ => none, 0⟩ :
      Bind).send [initiationBuf] ⟨"192.0.2.1"⟩ World.steady = .error .intnNonPositive :=
  ⟨rfl, by decide, ⟨any_initiationBuf, rfl⟩,
    send_panics rfl (by decide) (by decide) ⟨any_initiationBuf, rfl⟩⟩

theorem send_decoy_datagrams {b : Bind} {c : AmneziaConfig} (hc : b.amneziaConfig = some c)
    (hp : ¬ JunkPanics c) (hf : JunkFits c) {bufs : List Bytes} {ep : Endpoint} {w : World}
    (ht : b.Triggers bufs ep w.clock.head.toTime) (hw : w.NetUp) :
    (∃ err b' pre w', b.send bufs ep w =
        .ok ((err, b'), pre ++ [.spawn ep.dstIP, .innerSend bufs ep], w') ∧
      (∀ e ∈ pre, e.isDecoy) ∧
      TriggerDatagrams b c ep.dstIP { w with clock := w.clock.tail } (pre.filter Event.isUdp)) ∧
    ∀ w₀ : World, w₀.NetUp → ∃ es w₀',
      b.executePostHandshakeSequence ep.dstIP w₀ = .ok ((), es, w₀') ∧
        (∀ e ∈ es, e.isDecoy) ∧
        PostHandshakeDatagrams c ep.dstIP b.port443 (es.filter Event.isUdp) := by
  refine ⟨?_, fun w₀ hw₀ => ?_⟩
  · obtain ⟨m, r, -, hr, heq⟩ := maybePreflight_of_triggers hc ht
    rcases r with (_ | _) | ⟨_, pre, w'⟩
    · exact absurd hr.1 hp
    · exact absurd hf hr.1.2
    · exact ⟨w'.replies.head, { b with lastSent := m }, pre,
        { w' with replies := w'.replies.tail },
        by rw [send_apply, heq]; simp, hr.2.1, (hr.2.2 hw).1⟩
  · have h := executePostHandshakeSequence_outcome hc ep.dstIP w₀
    rcases hpost : b.executePostHandshakeSequence ep.dstIP w₀ with (_ | _) | ⟨_, es, w₀'⟩ <;>
      rw [hpost] at h
    · exact absurd h.1 hp
    · exact absurd hf h.1.2
    · exact ⟨es, w₀', rfl, h.2.1, (h.2.2 hw₀).1⟩

/-- The configuration of the spec's end-to-end example: `Jc = 5`, `JcBeforeHS = 5`, and junk of
10 to 20 bytes. -/
def exampleConfig : AmneziaConfig :=
  { AmneziaConfig.zero with jc := 5, jcBeforeHS := 5, jmin := 10, jmax := 20 }

/-- The bind `NewWithAmnezia(inner, &exampleConfig, 443, 0)` builds. -/
def exampleBind : Bind := ⟨443, [], some exampleConfig, fun _ => none, 0⟩

theorem send_decoy_datagrams_on_steady :
    ¬ JunkPanics exampleConfig ∧ JunkFits exampleConfig ∧
    exampleBind.Triggers [initiationBuf] ⟨"192.0.2.1"⟩ World.steady.clock.head.toTime ∧
    (∃ err b' pre w', exampleBind.send [initiationBuf] ⟨"192.0.2.1"⟩ World.steady =
        .ok ((err, b'), pre ++ [.spawn "192.0.2.1", .innerSend [initiationBuf] ⟨"192.0.2.1"⟩],
          w') ∧
      (∀ e ∈ pre, e.isDecoy) ∧
      TriggerDatagrams exampleBind exampleConfig "192.0.2.1"
        { World.steady with clock := World.steady.clock.tail } (pre.filter Event.isUdp)) ∧
    ∀ w₀ : World, w₀.NetUp → ∃ es w₀',
      exampleBind.executePostHandshakeSequence "192.0.2.1" w₀ =
        .ok ((), es, w₀') ∧ (∀ e ∈ es, e.isDecoy) ∧
      PostHandshakeDatagrams exampleConfig "192.0.2.1" 443 (es.filter Event.isUdp) :=
  ⟨by decide, by decide, ⟨any_initiationBuf, rfl⟩,
    send_decoy_datagrams rfl (by decide) (by decide) ⟨any_initiationBuf, rfl⟩ World.steady_netUp⟩

set_option maxRecDepth 20000 in
theorem send_two_datagrams_for_one_empty_junk :
    ((newWithAmnezia (some { AmneziaConfig.zero with jcBeforeHS := 1 }) 443 0).run World.steady).1 =
      .ok ⟨443, [], some { AmneziaConfig.zero with jcBeforeHS := 1 }, fun _ => none, 0⟩ ∧
    (((⟨443, [], some { AmneziaConfig.zero with jcBeforeHS := 1 }, fun _ => none, 0⟩ :
      Bind).send [initiationBuf] ⟨"192.0.2.1"⟩ World.steady).map
        fun r => r.2.1.filter Event.isUdp) =
      .ok [.udp "192.0.2.1" 443 [], .udp "192.0.2.1" 443 []] :=
  ⟨rfl, by decide⟩

theorem send_first_datagram_is_payload {b : Bind} {c : AmneziaConfig}
    (hc : b.amneziaConfig = some c) (hp : ¬ JunkPanics c) (hf : JunkFits c)
    (hi : c.i1 ≠ "" ∧ b.payload ≠ [])
    {bufs : List Bytes} {ep : Endpoint} {w : World} (ht : b.Triggers bufs ep w.clock.head.toTime)
    (hw : w.NetUp) :
    ∃ r es w', b.send bufs ep w = .ok (r, es, w') ∧
      (es.filter Event.isUdp).head? = some (.udp ep.dstIP b.port443 b.payload) := by
  obtain ⟨m, r, -, hr, heq⟩ := maybePreflight_of_triggers hc ht
  rcases r with (_ | _) | ⟨_, pre, w'⟩
  · exact absurd hr.1 hp
  · exact absurd hf hr.1.2
  · obtain ⟨ds₁, ds₂, hds, -, -⟩ := (hr.2.2 hw).1
    refine ⟨_, _, _, by rw [send_apply, heq], ?_⟩
    simp [hds, hi, Event.isUdp]

theorem send_first_datagram_is_payload_one_second_later :
    ((newWithAmnezia (some { AmneziaConfig.zero with i1 := "<t>" }) 443 0).run World.steady).1 =
        .ok ⟨443, timestampBytes (World.jan2025.toTime),
          some { AmneziaConfig.zero with i1 := "<t>" }, fun _ => none, 0⟩ ∧
      timestampBytes (World.jan2025.toTime) ≠
        timestampBytes World.oneSecondLater.clock.head.toTime ∧
      (∃ r es w', (⟨443, timestampBytes (World.jan2025.toTime),
          some { AmneziaConfig.zero with i1 := "<t>" }, fun _ => none, 0⟩ : Bind).send
            [initiationBuf] ⟨"192.0.2.1"⟩ World.oneSecondLater = .ok (r, es, w') ∧
        (es.filter Event.isUdp).head? =
          some (.udp "192.0.2.1" 443 (timestampBytes (World.jan2025.toTime)))) ∧
      ((newWithAmnezia (some { AmneziaConfig.zero with i1 := "c0ffee" }) 443 0).run
          World.steady).1 =
        .ok ⟨443, [], some { AmneziaConfig.zero with i1 := "c0ffee" }, fun _ => none, 0⟩ :=
  ⟨rfl, by decide, send_first_datagram_is_payload rfl (by decide) (by decide) ⟨by decide, by decide⟩
    ⟨any_initiationBuf, rfl⟩ fun _ => rfl, rfl⟩

theorem newWithAmnezia_error_iff (c : AmneziaConfig) (port : GoInt) (interval : Duration)
    {w : World} (hw : w.EntropyUp) :
    (∃ e, ((newWithAmnezia (some c) port interval).run w).1 = .error e) ↔
      c.i1 ≠ "" ∧ ∃ m ∈ findAllStringSubmatch c.i1.toList, BadTag m := by
  rw [← parseCPSPacket_error_iff_badTag c.i1 hw]
  unfold newWithAmnezia
  by_cases h : c.i1 = ""
  · simp [h, StateT.run_bind]
  · rcases hp : (parseCPSPacket c.i1).run w with ⟨_ | bs, w'⟩ <;> simp [StateT.run_bind, h, hp]

theorem newWithAmnezia_error_iff_on_steady :
    World.steady.EntropyUp ∧
      ((∃ e, ((newWithAmnezia (some { AmneziaConfig.zero with i1 := "<b zz>" }) 443 0).run
          World.steady).1 = .error e) ↔
        "<b zz>" ≠ "" ∧ ∃ m ∈ findAllStringSubmatch "<b zz>".toList, BadTag m) :=
  ⟨World.steady_entropyUp, newWithAmnezia_error_iff _ 443 0 World.steady_entropyUp⟩

theorem newWithAmnezia_accepts_bad_i2 :
    ((newWithAmnezia (some { AmneziaConfig.zero with i2 := "<b zz>" }) 443 0).run
        World.steady).1.toBool = true ∧
      ((parseCPSPacket "<b zz>").run World.steady).1.toBool = false := by
  decide

end PreflightBind
