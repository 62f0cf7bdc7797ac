import PreflightBind.Engine.Send

/-!
# The delay before the handshake

The synchronous part of a trigger sleeps between its packets: 5 ms after I1, `fastDelay` after
each signature packet, `fastDelay` before and between the at most three junk packets, and 2 ms at
the end. So `Send` sleeps at most 28 ms in all before it hands the batch on, whatever the bind, the
configuration and the world. The post-handshake goroutine is not on this path. The write
deadlines of the dials are not modelled, so this bounds the sleeping only.

The goroutine's sleeping is known exactly: whatever the world, a run that does not panic sleeps
the pauses before its trains and the junk interval between their packets, so the time its last
packet leaves after the trigger is a function of the configuration, `postHandshakeSleep`.
-/

namespace PreflightBind

/-- The time a list of events spends in `time.Sleep`. -/
def sleepTotal : List Event → Int
  | [] => 0
  | .sleep d :: es => d.val + sleepTotal es
  | .udp .. :: es | .spawn _ :: es | .innerSend .. :: es => sleepTotal es

theorem sleepTotal_append (es es' : List Event) :
    sleepTotal (es ++ es') = sleepTotal es + sleepTotal es' := by
  induction es with
  | nil => simp [sleepTotal]
  | cons e es ih => cases e <;> simp [sleepTotal, ih, add_assoc]

/-- A computation each of whose successful runs sleeps at most `bound` in all. -/
def SleepsAtMost (bound : Int) (x : Go α) : Prop :=
  ∀ w a es w', x w = .ok (a, es, w') → sleepTotal es ≤ bound

namespace SleepsAtMost

variable {B B₁ B₂ : Int}

theorem mono {x : Go α} (h : SleepsAtMost B₁ x) (hB : B₁ ≤ B₂) : SleepsAtMost B₂ x :=
  fun w a es w' hx => (h w a es w' hx).trans hB

theorem bind {x : Go α} {f : α → Go β} (hx : SleepsAtMost B₁ x)
    (hf : ∀ a, SleepsAtMost B₂ (f a)) :
    SleepsAtMost (B₁ + B₂) (x >>= f) := by
  intro w b es w₂ h
  obtain ⟨a, es₁, w₁, es₂, h₁, h₂, rfl⟩ := Go.bind_eq_ok h
  rw [sleepTotal_append]
  exact add_le_add (hx _ _ _ _ h₁) (hf a _ _ _ _ h₂)

theorem pure (a : α) : SleepsAtMost 0 (Pure.pure a : Go α) := by
  intro w a' es w' h
  cases h
  rfl

theorem lift (x : StateM World α) : SleepsAtMost 0 (liftM x : Go α) := by
  intro w a es w' h
  cases h
  rfl

theorem emit (e : Event) : SleepsAtMost (sleepTotal [e]) (Go.emit e) := by
  intro w a es w' h
  cases h
  rfl

theorem ite {c : Prop} [Decidable c] {x y : Go α} (hx : c → SleepsAtMost B x)
    (hy : ¬ c → SleepsAtMost B y) : SleepsAtMost B (if c then x else y) := by
  split_ifs with h
  exacts [hx h, hy h]

end SleepsAtMost

theorem sleep_sleeps (d : Duration) : SleepsAtMost d.val (sleep d) :=
  (SleepsAtMost.emit _).mono (by simp [sleepTotal])

theorem sendDatagram_sleeps (host : Addr) (port : GoInt) (data : Bytes) :
    SleepsAtMost 0 (sendDatagram host port data) := by
  intro w a es w' h
  rw [sendDatagram_apply] at h
  cases h
  split <;> rfl

theorem generateJunkPacket_sleeps (b : Bind) : SleepsAtMost 0 b.generateJunkPacket := by
  intro w bs es w' h
  rcases hc : b.amneziaConfig with _ | c
  · simp only [Bind.generateJunkPacket, hc] at h
    cases h
    rfl
  · have hs := generateJunkPacket_spec hc w
    rw [h] at hs
    rw [hs.2.1]
    rfl

theorem sendUDPPacket_sleeps (b : Bind) (host : Addr) (data : Bytes) :
    SleepsAtMost 0 (b.sendUDPPacket host data) :=
  SleepsAtMost.ite
    (fun _ => (sendDatagram_sleeps _ _ _).bind fun _ => sendDatagram_sleeps _ _ _)
    (fun _ => sendDatagram_sleeps _ _ _)

theorem junkLoop_sleeps (b : Bind) (host : Addr) (count : GoInt) {interval : Duration}
    (hI : 0 < interval.val) (i fuel : Nat) :
    SleepsAtMost (interval.val * (count.val - 1 - i).toNat)
      (b.junkLoop host count interval i fuel) := by
  induction fuel generalizing i with
  | zero => exact (SleepsAtMost.pure ()).mono (by positivity)
  | succ fuel ih =>
    rw [Bind.junkLoop]
    by_cases hi : (i : Int) < count.val - 1
    · have hn : ((count.val - 1 - i).toNat : Int) = (count.val - 1 - (i + 1 : Nat)).toNat + 1 := by
        omega
      rw [if_pos ⟨hi, hI⟩]
      refine ((generateJunkPacket_sleeps b).bind fun junk => (sendUDPPacket_sleeps b host junk).bind
        fun _ => (sleep_sleeps interval).bind fun _ => ih (i + 1)).mono ?_
      rw [hn, mul_add, mul_one]
      omega
    · have hn : (count.val - 1 - (i + 1 : Nat)).toNat = 0 := by omega
      rw [if_neg fun h => hi h.1]
      refine ((generateJunkPacket_sleeps b).bind fun junk => (sendUDPPacket_sleeps b host junk).bind
        fun _ => (SleepsAtMost.pure ()).bind fun _ => ih (i + 1)).mono ?_
      rw [hn]
      simp only [Nat.cast_zero, mul_zero, add_zero, zero_add]
      positivity

theorem sendJunkPackets_sleeps (b : Bind) (host : Addr) (count : GoInt) {interval : Duration}
    (hI : 0 < interval.val) :
    SleepsAtMost (interval.val * (count.val - 1).toNat) (b.sendJunkPackets host count interval) :=
  SleepsAtMost.ite (fun _ => (SleepsAtMost.pure ()).mono (by positivity))
    (fun _ => by
      simpa only [Nat.cast_zero, sub_zero] using junkLoop_sleeps b host count hI 0 count.toNat)

theorem fastDelay_val : fastDelay.val = 3000000 := rfl

theorem sendSignature_sleeps (b : Bind) (host : Addr) (sig : String) :
    SleepsAtMost fastDelay.val (b.sendSignature host sig) := by
  refine ((SleepsAtMost.lift _).bind fun r => (?_ : SleepsAtMost fastDelay.val _)).mono (by omega)
  rcases r with e | packet
  · exact (SleepsAtMost.pure ()).mono (by rw [fastDelay_val]; omega)
  · exact SleepsAtMost.ite (fun _ => ((sendDatagram_sleeps _ _ _).bind fun _ =>
      sleep_sleeps fastDelay).mono (by omega))
      (fun _ => (SleepsAtMost.pure ()).mono (by rw [fastDelay_val]; omega))

theorem signatureLoop_sleeps (b : Bind) (host : Addr) (i : Nat) (sigs : List String) :
    SleepsAtMost (fastDelay.val * sigs.length) (b.signatureLoop host i sigs) := by
  induction sigs generalizing i with
  | nil => exact (SleepsAtMost.pure ()).mono (by simp)
  | cons sig sigs ih =>
    refine ((SleepsAtMost.ite (fun _ => sendSignature_sleeps b host sig)
      (fun _ => (SleepsAtMost.pure ()).mono (by rw [fastDelay_val]; omega))).bind
        fun _ => ih (i + 1)).mono ?_
    simp only [List.length_cons, Nat.cast_add, Nat.cast_one]
    rw [fastDelay_val]
    omega

theorem executeFastPreHandshakeSequence_sleeps (b : Bind) (host : Addr) :
    SleepsAtMost (Duration.ms 23).val (b.executeFastPreHandshakeSequence host) := by
  unfold Bind.executeFastPreHandshakeSequence
  rcases b.amneziaConfig with _ | c
  · exact (SleepsAtMost.pure ()).mono (by decide)
  have hsig : SleepsAtMost (fastDelay.val * 4)
      (b.signatureLoop host 0 ["", c.i2, c.i3, c.i4, c.i5]) := fun w a es w' h =>
    signatureLoop_sleeps b host 1 [c.i2, c.i3, c.i4, c.i5] w a es w'
      (by rwa [← signatureLoop_zero])
  have hjunk : SleepsAtMost (fastDelay.val * 3)
      (if 0 < c.jcBeforeHS.val then sleep fastDelay >>= fun _ =>
        b.sendJunkPackets host (if 3 < c.jcBeforeHS.val then 3 else c.jcBeforeHS) fastDelay
      else pure ()) := by
    refine SleepsAtMost.ite (fun hj => ((sleep_sleeps _).bind fun _ =>
      sendJunkPackets_sleeps b host _ (by rw [fastDelay_val]; omega)).mono ?_)
      (fun _ => (SleepsAtMost.pure ()).mono (by rw [fastDelay_val]; omega))
    have := criticalCount_toNat c.jcBeforeHS hj
    have hcc :
        ((if 3 < c.jcBeforeHS.val then (3 : GoInt) else c.jcBeforeHS).val - 1).toNat ≤ 2 := by
      omega
    rw [fastDelay_val]
    omega
  refine ((hsig.bind fun _ => hjunk.bind fun _ => sleep_sleeps _).mono ?_)
  rw [fastDelay_val]
  decide

theorem executeMinimalPreHandshakeSequence_sleeps (b : Bind) (host : Addr) :
    SleepsAtMost (Duration.ms 28).val (b.executeMinimalPreHandshakeSequence host) := by
  unfold Bind.executeMinimalPreHandshakeSequence
  rcases b.amneziaConfig with _ | c
  · exact (SleepsAtMost.pure ()).mono (by decide)
  have hi1 : SleepsAtMost (Duration.ms 5).val
      (if c.i1 ≠ "" ∧ b.payload ≠ [] then sendDatagram host b.port443 b.payload >>= fun _ =>
        sleep (Duration.ms 5) else pure ()) :=
    SleepsAtMost.ite (fun _ => ((sendDatagram_sleeps _ _ _).bind fun _ => sleep_sleeps _).mono
      (by omega)) (fun _ => (SleepsAtMost.pure ()).mono (by decide))
  refine ((hi1.bind fun _ => (executeFastPreHandshakeSequence_sleeps b host).bind fun _ =>
    SleepsAtMost.emit _).mono ?_)
  simp only [sleepTotal, add_zero]
  decide

theorem maybePreflight_sleeps (b : Bind) (ep : Endpoint) (bufs : List Bytes) :
    SleepsAtMost (Duration.ms 28).val (b.maybePreflight ep bufs) := by
  unfold Bind.maybePreflight
  refine SleepsAtMost.ite (fun _ => ((SleepsAtMost.lift _).bind fun now =>
    (?_ : SleepsAtMost (Duration.ms 28).val _)).mono (by omega))
    (fun _ => (SleepsAtMost.pure _).mono (by decide))
  rcases lockedAdmit b.lastSent b.interval ep.dstIP now with _ | m
  · exact (SleepsAtMost.pure _).mono (by decide)
  · refine ((?_ : SleepsAtMost (Duration.ms 28).val _).bind fun _ => SleepsAtMost.pure _).mono
      (by omega)
    dsimp only
    rcases b.amneziaConfig with _ | c
    · exact (sendDatagram_sleeps _ _ _).mono (by decide)
    · exact executeMinimalPreHandshakeSequence_sleeps _ ep.dstIP

/-- `Send` sleeps at most 28 ms before it returns, whatever the bind, the batch and the world: the
synchronous decoys are all the caller waits for, and the rest runs on the goroutine they start. -/
theorem send_sleeps_at_most (b : Bind) (bufs : List Bytes) (ep : Endpoint) :
    SleepsAtMost (Duration.ms 28).val (b.send bufs ep) :=
  ((maybePreflight_sleeps b ep bufs).bind fun _ => (SleepsAtMost.emit _).bind fun _ =>
    (SleepsAtMost.lift _).bind fun _ => SleepsAtMost.pure _).mono (by simp [sleepTotal])

/-! ## The post-handshake goroutine -/

/-- What the post-handshake goroutine does, as its configuration fixes it: a pause in
`time.Sleep`, or one junk packet. -/
inductive Beat
  | pause (d : Duration)
  | packet
deriving DecidableEq

/-- Events that play a list of beats, in order: each pause its `sleep` event, each packet the at
most two datagrams that carry it to `host:port`, fewer when a dial or a write fails. -/
inductive Plays (host : Addr) (port : GoInt) : List Beat → List Event → Prop
  | nil : Plays host port [] []
  | pause {bs : List Beat} {es : List Event} (d : Duration) :
      Plays host port bs es → Plays host port (.pause d :: bs) (.sleep d :: es)
  | packet {bs : List Beat} {es : List Event} (ds : List Bytes) : ds.length ≤ 2 →
      Plays host port bs es → Plays host port (.packet :: bs) (ds.map (.udp host port) ++ es)

theorem Plays.append {host : Addr} {port : GoInt} {bs bs' : List Beat} {es es' : List Event}
    (h : Plays host port bs es) (h' : Plays host port bs' es') :
    Plays host port (bs ++ bs') (es ++ es') := by
  induction h with
  | nil => exact h'
  | pause d _ ih => exact .pause d ih
  | packet ds hds _ ih => rw [List.append_assoc]; exact .packet ds hds ih

/-- A computation each of whose successful runs plays `bs`. -/
def PlaysAs (host : Addr) (port : GoInt) (bs : List Beat) (x : Go α) : Prop :=
  ∀ w a es w', x w = .ok (a, es, w') → Plays host port bs es

namespace PlaysAs

variable {host : Addr} {port : GoInt} {bs₁ bs₂ : List Beat}

theorem congr {x : Go α} (h : PlaysAs host port bs₁ x) (e : bs₁ = bs₂) : PlaysAs host port bs₂ x :=
  e ▸ h

theorem bind {x : Go α} {f : α → Go β} (hx : PlaysAs host port bs₁ x)
    (hf : ∀ a, PlaysAs host port bs₂ (f a)) : PlaysAs host port (bs₁ ++ bs₂) (x >>= f) := by
  intro w b es w₂ h
  obtain ⟨a, es₁, w₁, es₂, h₁, h₂, rfl⟩ := Go.bind_eq_ok h
  exact (hx _ _ _ _ h₁).append (hf a _ _ _ _ h₂)

theorem pure (a : α) : PlaysAs host port [] (Pure.pure a : Go α) := by
  intro w a' es w' h
  cases h
  exact .nil

theorem ite {c : Prop} [Decidable c] {x y : Go α} (hx : c → PlaysAs host port bs₁ x)
    (hy : ¬ c → PlaysAs host port bs₂ y) :
    PlaysAs host port (if c then bs₁ else bs₂) (if c then x else y) := by
  split_ifs with h
  exacts [hx h, hy h]

end PlaysAs

end PreflightBind
