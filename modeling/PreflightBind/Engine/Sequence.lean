import PreflightBind.Engine.Junk

/-!
# The decoy sequences

What a trigger sends to `host:port443`: the I1 packet, the I2..I5 signature packets, and trains
of junk packets, with the sleeps between them. A write whose dial or write fails is simply not
seen; an empty packet goes out twice, once by a dialed connection and once by a packet
connection. The post-handshake sequence runs on a goroutine of its own, started by the
`spawn` event; here it is a computation of its own, run from whatever world that goroutine
meets.
-/

namespace PreflightBind

/-- `b.sendStandardZeroByte(host)`: an empty datagram by `net.DialTimeout`, then another by
`net.ListenPacket` and `WriteTo`. -/
def Bind.sendStandardZeroByte (b : Bind) (host : Addr) : Go Unit := do
  sendDatagram host b.port443 []
  sendDatagram host b.port443 []

/-- `b.sendTrueZeroByteUDP(host)`. -/
def Bind.sendTrueZeroByteUDP (b : Bind) (host : Addr) : Go Unit := b.sendStandardZeroByte host

/-- `b.sendUDPPacket(host, data)`. -/
def Bind.sendUDPPacket (b : Bind) (host : Addr) (data : Bytes) : Go Unit :=
  if data = [] then b.sendTrueZeroByteUDP host else sendDatagram host b.port443 data

/-- Iterations `i` onwards of the loop of `sendJunkPackets`, with `fuel` of them left. -/
def Bind.junkLoop (b : Bind) (host : Addr) (count : GoInt) (interval : Duration) :
    Nat → Nat → Go Unit
  | _, 0 => pure ()
  | i, fuel + 1 => do
    let junk ← b.generateJunkPacket
    b.sendUDPPacket host junk
    (if (i : Int) < count.val - 1 ∧ 0 < interval.val then sleep interval else pure ())
    b.junkLoop host count interval (i + 1) fuel

/-- `b.sendJunkPackets(host, count, interval)`: `count` packets, `interval` apart. -/
def Bind.sendJunkPackets (b : Bind) (host : Addr) (count : GoInt) (interval : Duration) : Go Unit :=
  if count.val ≤ 0 then pure () else b.junkLoop host count interval 0 count.toNat

/-- `b.executeSimplePreflight(host)`: the payload in one datagram. -/
def Bind.executeSimplePreflight (b : Bind) (host : Addr) : Go Unit :=
  sendDatagram host b.port443 b.payload

/-- `fastDelay`, `3 * time.Millisecond`. -/
def fastDelay : Duration := Duration.ms 3

/-- The body of the signature loop for one template: parsed, and sent when that gives a
non-empty packet. -/
def Bind.sendSignature (b : Bind) (host : Addr) (sig : String) : Go Unit := do
  match ← liftM (parseCPSPacket sig) with
  | .ok packet =>
    if packet ≠ [] then
      sendDatagram host b.port443 packet
      sleep fastDelay
  | .error _ => pure ()

/-- The signature loop of `executeFastPreHandshakeSequence`, from index `i`: index 0 and empty
templates are skipped. -/
def Bind.signatureLoop (b : Bind) (host : Addr) : Nat → List String → Go Unit
  | _, [] => pure ()
  | i, sig :: sigs => do
    (if i ≠ 0 ∧ sig ≠ "" then b.sendSignature host sig else pure ())
    b.signatureLoop host (i + 1) sigs

/-- `b.executeFastPreHandshakeSequence(host)`: I2..I5, then at most three junk packets. -/
def Bind.executeFastPreHandshakeSequence (b : Bind) (host : Addr) : Go Unit :=
  match b.amneziaConfig with
  | none => pure ()
  | some config => do
    b.signatureLoop host 0 ["", config.i2, config.i3, config.i4, config.i5]
    (if 0 < config.jcBeforeHS.val then do
      sleep fastDelay
      let criticalCount := if 3 < config.jcBeforeHS.val then 3 else config.jcBeforeHS
      b.sendJunkPackets host criticalCount fastDelay
    else pure ())
    sleep (Duration.ms 2)

/-- `b.executeMinimalPreHandshakeSequence(host)`: the I1 packet, the fast sequence, and the
post-handshake goroutine. `b.payload != nil` is `b.payload ≠ []`, see `Bind`. -/
def Bind.executeMinimalPreHandshakeSequence (b : Bind) (host : Addr) : Go Unit :=
  match b.amneziaConfig with
  | none => pure ()
  | some config => do
    (if config.i1 ≠ "" ∧ b.payload ≠ [] then do
      sendDatagram host b.port443 b.payload
      sleep (Duration.ms 5)
    else pure ())
    b.executeFastPreHandshakeSequence host
    Go.emit (.spawn host)

/-- `b.executePostHandshakeSequence(host)`: the junk that follows the handshake. -/
def Bind.executePostHandshakeSequence (b : Bind) (host : Addr) : Go Unit :=
  match b.amneziaConfig with
  | none => pure ()
  | some config => do
    let junkInterval := if config.junkInterval = 0 then Duration.ms 10 else config.junkInterval
    (if 3 < config.jcBeforeHS.val then b.sendJunkPackets host (config.jcBeforeHS - 3) junkInterval
    else pure ())
    (if 0 < config.jc.val then do
      sleep (Duration.ms 50)
      b.sendJunkPackets host config.jc junkInterval
    else pure ())
    (if 0 < config.jcAfterI1.val then do
      sleep (Duration.ms 30)
      b.sendJunkPackets host config.jcAfterI1 junkInterval
    else pure ())
    if 0 < config.jcAfterHS.val then
      sleep (Duration.ms 50)
      b.sendJunkPackets host config.jcAfterHS junkInterval

/-! ## What a run of the decoy path does -/

/-- The datagrams one packet becomes on a network that delivers everything: itself, or two empty
datagrams for an empty packet. -/
def datagrams (host : Addr) (port : GoInt) (data : Bytes) : List Event :=
  if data = [] then [.udp host port [], .udp host port []] else [.udp host port data]

/-- An event of the decoy path on the sending goroutine: a datagram or a sleep. -/
def Event.isDecoy : Event → Bool
  | .udp .. | .sleep _ => true
  | _ => false

/-- What a run of the decoy path from `w` satisfies: it panics in `rng.Intn` exactly when `P`, and
in `make` only when `Q`; otherwise it causes only datagrams and sleeps, and on a network that
delivers everything, the datagrams it delivers satisfy `D` and the network still delivers
everything. -/
def DecoyOutcome (P Q : Prop) (D : List Event → Prop) (w : World) :
    Except Panic (Unit × List Event × World) → Prop
  | .error .intnNonPositive => P
  | .error .makeSliceLen => Q
  | .ok (_, es, w') =>
    ¬ P ∧ (∀ e ∈ es, e.isDecoy) ∧ (w.NetUp → D (es.filter Event.isUdp) ∧ w'.NetUp)

namespace DecoyOutcome

variable {P P₁ P₂ Q Q₁ Q₂ : Prop} {D D₁ D₂ : List Event → Prop} {w : World}

theorem mono {r} (h : DecoyOutcome P Q D w r) (hP : P ↔ P₁) (hQ : Q → Q₁)
    (hD : ∀ ds, D ds → D₁ ds) : DecoyOutcome P₁ Q₁ D₁ w r := by
  rcases r with (_ | _) | ⟨_, es, w'⟩
  · exact hP.1 h
  · exact hQ h
  · exact ⟨hP.not.1 h.1, h.2.1, fun hw => ⟨hD _ (h.2.2 hw).1, (h.2.2 hw).2⟩⟩

theorem bind {x : Go Unit} {f : Unit → Go Unit} (hx : DecoyOutcome P₁ Q₁ D₁ w (x w))
    (hf : ∀ es w₁, x w = .ok ((), es, w₁) → DecoyOutcome P₂ Q₂ D₂ w₁ (f () w₁)) :
    DecoyOutcome (P₁ ∨ P₂) (Q₁ ∨ Q₂) (fun ds => ∃ ds₁ ds₂, ds = ds₁ ++ ds₂ ∧ D₁ ds₁ ∧ D₂ ds₂) w
      ((x >>= f) w) := by
  rcases h : x w with (_ | _) | ⟨⟨⟩, es, w₁⟩ <;> rw [h] at hx
  · rw [Go.bind_of_error h]; exact .inl hx
  · rw [Go.bind_of_error h]; exact .inl hx
  · obtain ⟨hn₁, hd₁, hu₁⟩ := hx
    have hy := hf es w₁ h
    rcases h' : f () w₁ with (_ | _) | ⟨⟨⟩, es', w₂⟩ <;> rw [h'] at hy <;>
      simp only [Go.bind_apply, h, h']
    · exact .inr hy
    · exact .inr hy
    · obtain ⟨hn₂, hd₂, hu₂⟩ := hy
      refine ⟨not_or.2 ⟨hn₁, hn₂⟩, ?_, fun hw => ?_⟩
      · simp only [List.mem_append]; rintro e (he | he); exacts [hd₁ e he, hd₂ e he]
      · obtain ⟨hD₁, hw₁⟩ := hu₁ hw
        obtain ⟨hD₂, hw₂⟩ := hu₂ hw₁
        exact ⟨⟨_, _, List.filter_append .., hD₁, hD₂⟩, hw₂⟩

theorem bind_net {x : Go Unit} {f : Unit → Go Unit} (hx : DecoyOutcome P₁ Q₁ D₁ w (x w))
    (hnet : ∀ es w₁, x w = .ok ((), es, w₁) → ∃ n, w₁ = { w with net := n })
    (hf : ∀ n, DecoyOutcome P₂ Q₂ D₂ { w with net := n } (f () { w with net := n })) :
    DecoyOutcome (P₁ ∨ P₂) (Q₁ ∨ Q₂) (fun ds => ∃ ds₁ ds₂, ds = ds₁ ++ ds₂ ∧ D₁ ds₁ ∧ D₂ ds₂) w
      ((x >>= f) w) :=
  hx.bind fun es w₁ h => by obtain ⟨n, rfl⟩ := hnet es w₁ h; exact hf n

end DecoyOutcome

theorem sendDatagram_apply (host : Addr) (port : GoInt) (data : Bytes) (w : World) :
    sendDatagram host port data w =
      .ok ((), if w.net.head then [.udp host port data] else [], { w with net := w.net.tail }) := by
  cases h : w.net.head <;>
    simp [sendDatagram, Go.bind_apply, Go.lift_apply, h, Go.emit, Go.pure_apply]

theorem sendDatagram_outcome (host : Addr) (port : GoInt) (data : Bytes) (w : World) :
    DecoyOutcome False False (· = [.udp host port data]) w (sendDatagram host port data w) := by
  rw [sendDatagram_apply]
  refine ⟨not_false, by split <;> simp [Event.isDecoy], fun hw => ⟨?_, hw.tail⟩⟩
  simp [show w.net.head = true from hw 0, Event.isUdp]

theorem sleep_outcome (d : Duration) (w : World) :
    DecoyOutcome False False (· = []) w (sleep d w) :=
  ⟨not_false, by simp [sleep, Go.emit, Event.isDecoy], fun hw => ⟨rfl, hw⟩⟩

theorem pure_outcome (w : World) :
    DecoyOutcome False False (· = []) w ((pure () : Go Unit) w) :=
  ⟨not_false, by simp [Go.pure_apply], fun hw => ⟨rfl, hw⟩⟩

theorem DecoyOutcome.ite_pure {P Q : Prop} {D : List Event → Prop} {w : World} {cond : Prop}
    [Decidable cond] {x : Go Unit} (hx : cond → DecoyOutcome P Q D w (x w)) (hP : ¬ cond → ¬ P)
    (hD : ¬ cond → D []) : DecoyOutcome P Q D w ((if cond then x else pure ()) w) := by
  split_ifs with h
  · exact hx h
  · exact (pure_outcome w).mono (iff_of_false not_false (hP h)) False.elim
      (by rintro _ rfl; exact hD h)

theorem sendUDPPacket_outcome (b : Bind) (host : Addr) (data : Bytes) (w : World) :
    DecoyOutcome False False (· = datagrams host b.port443 data) w
      (b.sendUDPPacket host data w) := by
  unfold Bind.sendUDPPacket Bind.sendTrueZeroByteUDP Bind.sendStandardZeroByte
  split_ifs with h
  · refine ((sendDatagram_outcome host b.port443 [] w).bind fun _ w₁ _ =>
      sendDatagram_outcome host b.port443 [] w₁).mono or_self_iff or_self_iff.1 ?_
    rintro _ ⟨_, _, rfl, rfl, rfl⟩
    simp [datagrams, h]
  · exact (sendDatagram_outcome host b.port443 data w).mono Iff.rfl id (by simp [datagrams, h])

theorem DecoyOutcome.of_net {P Q : Prop} {D : List Event → Prop} {w w₁ : World} {r}
    (h : DecoyOutcome P Q D w₁ r) (hn : w₁.net = w.net) : DecoyOutcome P Q D w r := by
  rcases r with (_ | _) | ⟨_, es, w'⟩
  · exact h
  · exact h
  · exact ⟨h.1, h.2.1, fun hw => h.2.2 fun k => (congrFun hn k).trans (hw k)⟩

theorem sleepIf_outcome (cond : Prop) [Decidable cond] (d : Duration) (w : World) :
    DecoyOutcome False False (· = []) w ((if cond then sleep d else pure ()) w) := by
  split
  · exact sleep_outcome d w
  · exact pure_outcome w

/-- The datagrams of `n` junk packets, each of a length `JunkLength` allows. -/
def JunkTrain (c : AmneziaConfig) (host : Addr) (port : GoInt) (n : Nat) (ds : List Event) : Prop :=
  ∃ js : List Bytes, js.length = n ∧ (∀ j ∈ js, JunkLength c j.length) ∧
    ds = js.flatMap (datagrams host port)

theorem JunkTrain.nil {c : AmneziaConfig} {host : Addr} {port : GoInt} {n : Nat} (hn : n = 0) :
    JunkTrain c host port n [] :=
  ⟨[], hn.symm, by simp, rfl⟩

section Train

variable {b : Bind} {c : AmneziaConfig} (hc : b.amneziaConfig = some c) (host : Addr)

include hc

theorem junkLoop_outcome (count : GoInt) (interval : Duration) (i fuel : Nat) (w : World) :
    DecoyOutcome (JunkPanics c ∧ 0 < fuel) (AllocPanics c ∧ 0 < fuel)
      (JunkTrain c host b.port443 fuel) w (b.junkLoop host count interval i fuel w) := by
  induction fuel generalizing i w with
  | zero =>
    exact (pure_outcome w).mono (by simp) False.elim
      (by rintro _ rfl; exact ⟨[], rfl, by simp, rfl⟩)
  | succ n ih =>
    have hg := generateJunkPacket_spec hc w
    rcases hgen : b.generateJunkPacket w with (_ | _) | ⟨junk, es₀, w₁⟩ <;> rw [hgen] at hg
    · rw [Bind.junkLoop, Go.bind_of_error hgen]; exact ⟨hg, n.succ_pos⟩
    · rw [Bind.junkLoop, Go.bind_of_error hgen]; exact ⟨hg, n.succ_pos⟩
    · obtain ⟨hnp, rfl, hn₁, hlen⟩ := hg
      rw [Bind.junkLoop, Go.bind_of_silent hgen]
      refine (((sendUDPPacket_outcome b host junk w₁).bind fun _ w₂ _ =>
        (sleepIf_outcome _ interval w₂).bind fun _ w₃ _ => ih (i + 1) w₃).mono ?_ ?_ ?_).of_net
          hn₁
      · simp [hnp]
      · simp only [false_or, and_imp]; exact fun h _ => ⟨h, n.succ_pos⟩
      · rintro _ ⟨_, _, rfl, rfl, _, _, rfl, rfl, js, hl, hjs, rfl⟩
        exact ⟨junk :: js, by simp [hl], by simpa [hlen] using hjs, by simp⟩

theorem sendJunkPackets_outcome (count : GoInt) (interval : Duration) (w : World) :
    DecoyOutcome (JunkPanics c ∧ 0 < count.val) (AllocPanics c ∧ 0 < count.val)
      (JunkTrain c host b.port443 count.toNat) w (b.sendJunkPackets host count interval w) := by
  unfold Bind.sendJunkPackets
  split_ifs with h
  · exact (pure_outcome w).mono (iff_of_false not_false fun hp => absurd hp.2 (not_lt.2 h))
      False.elim (by rintro _ rfl; exact JunkTrain.nil (Int.toNat_eq_zero.2 h))
  · have hpos : 0 < count.toNat ↔ 0 < count.val := by simp [GoInt.toNat]
    exact (junkLoop_outcome hc host count interval 0 count.toNat w).mono
      (and_congr_right fun _ => hpos) (fun h => ⟨h.1, hpos.1 h.2⟩) (fun _ h => h)

end Train

/-- What a parse result adds to the signature phase: its packet when it is a non-empty success. -/
def sentPacket : Except CPSError Bytes → List Bytes
  | .ok packet => if packet = [] then [] else [packet]
  | .error _ => []

/-- The packets the signature phase is to send, resolved in order from the clock and `crypto/rand`
of the world: those of the templates that parse without error to a non-empty byte string. -/
def signaturePackets : List String → StateM World (List Bytes)
  | [] => pure []
  | sig :: sigs => do
    let r ← parseCPSPacket sig
    let rest ← signaturePackets sigs
    return sentPacket r ++ rest

theorem signaturePackets_netBlind (sigs : List String) :
    World.NetBlind (signaturePackets sigs) := by
  induction sigs with
  | nil => exact World.NetBlind.pure _
  | cons sig sigs ih =>
    exact World.NetBlind.bind (parseCPSPacket_netBlind sig) fun _ =>
      World.NetBlind.bind ih fun _ => World.NetBlind.pure _

theorem signaturePackets_cons (sig : String) (sigs : List String) (w : World) :
    ((signaturePackets (sig :: sigs)).run w).1 = sentPacket ((parseCPSPacket sig).run w).1 ++
      ((signaturePackets sigs).run ((parseCPSPacket sig).run w).2).1 := rfl

theorem sendSignature_outcome (b : Bind) (host : Addr) (sig : String) (w : World) :
    DecoyOutcome False False
        (· = (sentPacket ((parseCPSPacket sig).run w).1).map (.udp host b.port443)) w
        (b.sendSignature host sig w) ∧
      ∀ es w', b.sendSignature host sig w = .ok ((), es, w') →
        ∃ n, w' = { ((parseCPSPacket sig).run w).2 with net := n } := by
  have hn := (parseCPSPacket_netBlind sig).net_eq w
  unfold Bind.sendSignature
  rw [Go.bind_of_silent (Go.lift_apply _ w)]
  rcases hr : ((parseCPSPacket sig).run w).1 with e | packet
  · refine ⟨(pure_outcome _).of_net hn, fun es w' h => ⟨w.net, ?_⟩⟩
    simp only [Go.pure_apply, Except.ok.injEq, Prod.mk.injEq] at h
    rw [← h.2.2, ← hn]
  · by_cases hp : packet = []
    · subst hp
      refine ⟨((pure_outcome _).mono Iff.rfl id (by simp [sentPacket])).of_net hn,
        fun es w' h => ?_⟩
      simp only [ne_eq, not_true_eq_false, if_false, Go.pure_apply, Except.ok.injEq,
        Prod.mk.injEq] at h
      exact ⟨w'.net, by rw [← h.2.2]⟩
    · simp only [ne_eq, hp, not_false_eq_true, if_true]
      refine ⟨(((sendDatagram_outcome host b.port443 packet _).bind fun _ w₂ _ =>
        sleep_outcome fastDelay w₂).mono or_self_iff or_self_iff.1 ?_).of_net hn, fun es w' h => ?_⟩
      · rintro _ ⟨_, _, rfl, rfl, rfl⟩; simp [sentPacket, hp]
      · simp only [Go.bind_apply, sendDatagram_apply, sleep, Go.emit, Except.ok.injEq,
          Prod.mk.injEq] at h
        exact ⟨_, h.2.2.symm⟩

theorem signatureLoop_outcome (b : Bind) (host : Addr) (i : Nat) (sigs : List String) (w : World) :
    DecoyOutcome False False (· = ((signaturePackets sigs).run w).1.map (.udp host b.port443)) w
      (b.signatureLoop host (i + 1) sigs w) := by
  induction sigs generalizing i w with
  | nil => exact pure_outcome w
  | cons sig sigs ih =>
    rw [Bind.signatureLoop, signaturePackets_cons]
    by_cases hs : sig = ""
    · subst hs
      simp only [ne_eq, not_true_eq_false, and_false, if_false]
      rw [Go.bind_of_silent (Go.pure_apply () w)]
      exact ih (i + 1) w
    · have hsig := sendSignature_outcome b host sig w
      simp only [ne_eq, Nat.succ_ne_zero, not_false_eq_true, hs, and_self, if_true]
      have hrest : ∀ es w₁, b.sendSignature host sig w = .ok ((), es, w₁) →
          DecoyOutcome False False
            (· = ((signaturePackets sigs).run ((parseCPSPacket sig).run w).2).1.map
              (.udp host b.port443)) w₁ (b.signatureLoop host (i + 1 + 1) sigs w₁) := by
        intro es w₁ h
        obtain ⟨n, rfl⟩ := hsig.2 es w₁ h
        refine (ih (i + 1) _).mono Iff.rfl id ?_
        rintro _ rfl
        rw [congrArg Prod.fst (signaturePackets_netBlind sigs _ n)]
      refine (hsig.1.bind hrest).mono or_self_iff or_self_iff.1 ?_
      rintro _ ⟨_, _, rfl, rfl, rfl⟩
      simp

theorem signatureLoop_zero (b : Bind) (host : Addr) (sig : String) (sigs : List String)
    (w : World) :
    b.signatureLoop host 0 (sig :: sigs) w = b.signatureLoop host 1 sigs w := by
  rw [Bind.signatureLoop, if_neg (by simp)]
  exact Go.bind_of_silent (Go.pure_apply () w)

theorem criticalCount_toNat (j : GoInt) (hj : 0 < j.val) :
    (if 3 < j.val then (3 : GoInt) else j).val = min (max j.val 0) 3 := by
  split_ifs with h
  · show (3 : Int) = _; omega
  · omega

/-- The datagrams the synchronous part of a trigger delivers on a network that delivers
everything: the I1 packet when there is one, the signature packets resolved from `w`, then a
train of at most three junk packets. -/
def TriggerDatagrams (b : Bind) (c : AmneziaConfig) (host : Addr) (w : World) (ds : List Event) :
    Prop :=
  ∃ ds₁ ds₂,
    ds = (if c.i1 ≠ "" ∧ b.payload ≠ [] then [.udp host b.port443 b.payload] else []) ++
      ds₁ ++ ds₂ ∧
    ds₁ = ((signaturePackets [c.i2, c.i3, c.i4, c.i5]).run w).1.map (.udp host b.port443) ∧
    JunkTrain c host b.port443 (min (max c.jcBeforeHS.val 0) 3).toNat ds₂

/-- The datagrams the post-handshake goroutine delivers on a network that delivers everything:
the rest of `JcBeforeHS`, then `Jc`, `JcAfterI1` and `JcAfterHS` junk packets. -/
def PostHandshakeDatagrams (c : AmneziaConfig) (host : Addr) (port : GoInt) (ds : List Event) :
    Prop :=
  ∃ ds₁ ds₂ ds₃ ds₄, ds = ds₁ ++ ds₂ ++ ds₃ ++ ds₄ ∧
    JunkTrain c host port (c.jcBeforeHS.val - 3).toNat ds₁ ∧
    JunkTrain c host port c.jc.val.toNat ds₂ ∧
    JunkTrain c host port c.jcAfterI1.val.toNat ds₃ ∧
    JunkTrain c host port c.jcAfterHS.val.toNat ds₄

section Sequences

variable {b : Bind} {c : AmneziaConfig} (hc : b.amneziaConfig = some c) (host : Addr)

include hc

theorem executeFastPreHandshakeSequence_outcome (w : World) :
    DecoyOutcome (JunkPanics c ∧ 0 < c.jcBeforeHS.val) (AllocPanics c ∧ 0 < c.jcBeforeHS.val)
      (fun ds => ∃ ds₁ ds₂, ds = ds₁ ++ ds₂ ∧
        ds₁ = ((signaturePackets [c.i2, c.i3, c.i4, c.i5]).run w).1.map (.udp host b.port443) ∧
        JunkTrain c host b.port443 (min (max c.jcBeforeHS.val 0) 3).toNat ds₂) w
      (b.executeFastPreHandshakeSequence host w) := by
  simp only [Bind.executeFastPreHandshakeSequence, hc]
  have hsig : ∀ w, DecoyOutcome False False
      (· = ((signaturePackets [c.i2, c.i3, c.i4, c.i5]).run w).1.map (.udp host b.port443)) w
      (b.signatureLoop host 0 ["", c.i2, c.i3, c.i4, c.i5] w) := fun w => by
    rw [signatureLoop_zero]; exact signatureLoop_outcome b host 0 _ w
  by_cases hj : 0 < c.jcBeforeHS.val
  · simp only [hj, if_true]
    refine ((hsig w).bind fun _ w₁ _ => ((sleep_outcome fastDelay w₁).bind fun _ w₂ _ =>
      sendJunkPackets_outcome hc host _ fastDelay w₂).bind fun _ w₃ _ =>
        sleep_outcome _ w₃).mono ?_ ?_ ?_
    · have := criticalCount_toNat c.jcBeforeHS hj
      simp only [false_or, or_false, hj, and_true]
      constructor
      · rintro ⟨h, -⟩; exact h
      · intro h; exact ⟨h, by omega⟩
    · simp only [false_or, or_false]
      exact fun h => ⟨h.1, trivial⟩
    · rintro _ ⟨_, _, rfl, rfl, _, _, rfl, ⟨_, ts, rfl, rfl, ht⟩, rfl⟩
      refine ⟨_, ts, by simp, rfl, ?_⟩
      rw [← criticalCount_toNat c.jcBeforeHS hj]
      simpa using ht
  · simp only [hj, if_false]
    refine ((hsig w).bind fun _ w₁ _ => (pure_outcome w₁).bind fun _ w₂ _ =>
      sleep_outcome _ w₂).mono (by simp [hj]) (by simp) ?_
    rintro _ ⟨_, _, rfl, rfl, _, _, rfl, rfl, rfl⟩
    exact ⟨_, [], by simp, rfl, [], by simp; omega, by simp, rfl⟩

theorem executeMinimalPreHandshakeSequence_apply (w : World) :
    ∃ r, DecoyOutcome (JunkPanics c ∧ 0 < c.jcBeforeHS.val) (AllocPanics c ∧ 0 < c.jcBeforeHS.val)
        (TriggerDatagrams b c host w) w r ∧
      b.executeMinimalPreHandshakeSequence host w = match r with
        | .error p => .error p
        | .ok (_, es, w') => .ok ((), es ++ [.spawn host], w') := by
  simp only [Bind.executeMinimalPreHandshakeSequence, hc]
  rw [← Go.bind_assoc, Go.bind_emit_apply]
  refine ⟨_, ?_, rfl⟩
  have hfast : ∀ n, DecoyOutcome (JunkPanics c ∧ 0 < c.jcBeforeHS.val)
      (AllocPanics c ∧ 0 < c.jcBeforeHS.val) (fun ds => ∃ ds₁ ds₂, ds = ds₁ ++ ds₂ ∧
        ds₁ = ((signaturePackets [c.i2, c.i3, c.i4, c.i5]).run w).1.map (.udp host b.port443) ∧
        JunkTrain c host b.port443 (min (max c.jcBeforeHS.val 0) 3).toNat ds₂) { w with net := n }
      (b.executeFastPreHandshakeSequence host { w with net := n }) := fun n => by
    have := executeFastPreHandshakeSequence_outcome hc host { w with net := n }
    rwa [congrArg Prod.fst (signaturePackets_netBlind _ w n)] at this
  split_ifs with h1
  · refine (((sendDatagram_outcome host b.port443 b.payload w).bind fun _ w₁ _ =>
      sleep_outcome _ w₁).bind_net (fun es w₁ h => ⟨w.net.tail, ?_⟩) hfast).mono
        (by simp) (by simp) ?_
    · simp only [Go.bind_apply, sendDatagram_apply, sleep, Go.emit, Except.ok.injEq,
        Prod.mk.injEq] at h
      exact h.2.2.symm
    · rintro _ ⟨_, _, rfl, ⟨_, _, rfl, rfl, rfl⟩, ds₁, ds₂, rfl, h₁, h₂⟩
      exact ⟨ds₁, ds₂, by simp [h1], h₁, h₂⟩
  · refine ((pure_outcome w).bind_net (fun es w₁ h => ⟨w.net, ?_⟩) hfast).mono (by simp)
      (by simp) ?_
    · simp only [Go.pure_apply, Except.ok.injEq, Prod.mk.injEq] at h
      exact h.2.2.symm
    · rintro _ ⟨_, _, rfl, rfl, ds₁, ds₂, rfl, h₁, h₂⟩
      exact ⟨ds₁, ds₂, by simp [h1], h₁, h₂⟩

theorem junkStage_outcome (d interval : Duration) (count : GoInt) (w : World) :
    DecoyOutcome (JunkPanics c ∧ 0 < count.val) (AllocPanics c ∧ 0 < count.val)
      (JunkTrain c host b.port443 count.val.toNat) w
      ((if 0 < count.val then sleep d >>= fun _ => b.sendJunkPackets host count interval
        else pure ()) w) := by
  refine DecoyOutcome.ite_pure (fun h => ((sleep_outcome d w).bind fun _ w₁ _ =>
    sendJunkPackets_outcome hc host count interval w₁).mono (by simp) (by simp) ?_)
    (fun h hp => h hp.2) (fun h => JunkTrain.nil (Int.toNat_eq_zero.2 (not_lt.1 h)))
  rintro _ ⟨_, _, rfl, rfl, ht⟩
  simpa [GoInt.toNat] using ht

theorem executePostHandshakeSequence_outcome (w : World) :
    DecoyOutcome (JunkPanics c ∧
        (3 < c.jcBeforeHS.val ∨ 0 < c.jc.val ∨ 0 < c.jcAfterI1.val ∨ 0 < c.jcAfterHS.val))
      (AllocPanics c ∧
        (3 < c.jcBeforeHS.val ∨ 0 < c.jc.val ∨ 0 < c.jcAfterI1.val ∨ 0 < c.jcAfterHS.val))
      (PostHandshakeDatagrams c host b.port443) w (b.executePostHandshakeSequence host w) := by
  simp only [Bind.executePostHandshakeSequence, hc]
  have hsub : 3 < c.jcBeforeHS.val → (c.jcBeforeHS - 3).val = c.jcBeforeHS.val - 3 := fun h => by
    simp only [GoInt.val_sub, show (3 : GoInt).val = 3 from rfl]
    exact GoInt.val_wrap_of_mem (by omega) (by have := c.jcBeforeHS.lt_max; omega)
  have hfirst : ∀ interval w, DecoyOutcome (JunkPanics c ∧ 3 < c.jcBeforeHS.val)
      (AllocPanics c ∧ 3 < c.jcBeforeHS.val)
      (JunkTrain c host b.port443 (c.jcBeforeHS.val - 3).toNat) w
      ((if 3 < c.jcBeforeHS.val then b.sendJunkPackets host (c.jcBeforeHS - 3) interval
        else pure ()) w) := fun interval w =>
    DecoyOutcome.ite_pure (fun h => (sendJunkPackets_outcome hc host _ interval w).mono
        (and_congr_right fun _ => by rw [hsub h]; omega) (fun h' => ⟨h'.1, h⟩)
        (by simp [GoInt.toNat, hsub h]))
      (fun h hp => h hp.2) (fun h => JunkTrain.nil (by omega))
  refine ((hfirst _ w).bind fun _ w₁ _ =>
    (junkStage_outcome hc host _ _ _ w₁).bind fun _ w₂ _ =>
    (junkStage_outcome hc host _ _ _ w₂).bind fun _ w₃ _ =>
      junkStage_outcome hc host _ _ _ w₃).mono ?_ ?_ ?_
  · constructor
    · rintro (⟨h, h'⟩ | ⟨h, h'⟩ | ⟨h, h'⟩ | ⟨h, h'⟩) <;> simp [*]
    · rintro ⟨h, h' | h' | h' | h'⟩ <;> simp [*]
  · rintro (⟨h, h'⟩ | ⟨h, h'⟩ | ⟨h, h'⟩ | ⟨h, h'⟩) <;> simp [*]
  · rintro _ ⟨ds₁, _, rfl, h₁, ds₂, _, rfl, h₂, ds₃, ds₄, rfl, h₃, h₄⟩
    exact ⟨ds₁, ds₂, ds₃, ds₄, by simp, h₁, h₂, h₃, h₄⟩

end Sequences

end PreflightBind
