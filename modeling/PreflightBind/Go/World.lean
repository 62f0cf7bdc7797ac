import PreflightBind.Go.Strings
import Mathlib.Data.Stream.Init

/-!
# The engine's environment and what it does to it

Everything the engine reads that is not a field of the bind comes from a `World`: readings of
`time.Now()`, the results of `crypto/rand.Read`, the draws of the package's `math/rand` source,
whether each UDP write gets out, and the wrapped bind's answers to `Send`. Each is a stream
consumed in order, so a statement over every world is a statement over every clock, every random
outcome and every network failure.

Code that cannot panic runs in `StateM World`. Code that can, since it reaches `rng.Intn` or
allocates a junk buffer, runs in `Go`, which also returns the events the code caused, in order:
datagrams delivered, sleeps, goroutines started and calls of the wrapped bind.
-/

namespace PreflightBind

/-- A `netip.Addr`, by the text `dst.String()` hands to the dialer. -/
abbrev Addr := String

/-- A `conn.Endpoint`, of which the engine reads only `DstIP()`. -/
structure Endpoint where
  dstIP : Addr
deriving DecidableEq, Repr

/-- A Go `error`; `none` is `nil`. -/
abbrev GoError := Option String

/-- One result of `time.Now()`: the wall clock in nanoseconds since the zero time, and the
monotonic clock. -/
structure Reading where
  wall : Int
  mono : Int
deriving DecidableEq, Repr

/-- A reading as a `time.Time`, which carries its monotonic clock. -/
def Reading.toTime (r : Reading) : Time := ⟨r.wall, some r.mono⟩

structure World where
  clock : Stream' Reading
  /-- Each `rand.Read`: an error, or the stream its bytes are taken from. -/
  entropy : Stream' (Option (Stream' UInt8))
  /-- Each draw of the shared `rng`, before reduction modulo the bound. -/
  draws : Stream' Nat
  /-- Whether each attempt to put a datagram on the wire (dial and write) succeeds. -/
  net : Stream' Bool
  replies : Stream' GoError

/-- What the engine does that is seen from outside. -/
inductive Event
  /-- A datagram carrying `data` delivered to `host:port`. -/
  | udp (host : Addr) (port : GoInt) (data : Bytes)
  | sleep (d : Duration)
  /-- `go b.executePostHandshakeSequence(host)`. -/
  | spawn (host : Addr)
  /-- `b.inner.Send(bufs, ep)`. -/
  | innerSend (bufs : List Bytes) (ep : Endpoint)
deriving DecidableEq, Repr

/-- The runtime panics the engine can reach. -/
inductive Panic
  /-- "invalid argument to Intn": `rng.Intn` of a bound that is not positive. -/
  | intnNonPositive
  /-- "makeslice: len out of range": `make([]byte, n)` with `n` above `maxAlloc`. -/
  | makeSliceLen
deriving DecidableEq, Repr

namespace World

/-- `time.Now()`. -/
def now : StateM World Time := fun w => (w.clock.head.toTime, { w with clock := w.clock.tail })

/-- `rand.Read` into a fresh buffer of `n` bytes: the bytes, or `none` when it errs. -/
def randRead (n : Nat) : StateM World (Option Bytes) := fun w =>
  (w.entropy.head.map (Stream'.take n), { w with entropy := w.entropy.tail })

/-- One raw draw of `rng`. -/
def draw : StateM World Nat := fun w => (w.draws.head, { w with draws := w.draws.tail })

/-- Whether the next datagram gets out. -/
def deliver : StateM World Bool := fun w => (w.net.head, { w with net := w.net.tail })

/-- The wrapped bind's answer to the next `Send`. -/
def reply : StateM World GoError := fun w => (w.replies.head, { w with replies := w.replies.tail })

@[simp] theorem now_run (w : World) :
    now.run w = (w.clock.head.toTime, { w with clock := w.clock.tail }) := rfl

@[simp] theorem randRead_run (n : Nat) (w : World) :
    (randRead n).run w =
      (w.entropy.head.map (Stream'.take n), { w with entropy := w.entropy.tail }) :=
  rfl

@[simp] theorem draw_run (w : World) :
    draw.run w = (w.draws.head, { w with draws := w.draws.tail }) :=
  rfl

@[simp] theorem deliver_run (w : World) :
    deliver.run w = (w.net.head, { w with net := w.net.tail }) :=
  rfl

@[simp] theorem reply_run (w : World) :
    reply.run w = (w.replies.head, { w with replies := w.replies.tail }) := rfl

/-- Every datagram gets out: the worlds of runs in which each dial and write succeeds. -/
def NetUp (w : World) : Prop := ∀ n, w.net n = true

/-- `rand.Read` never errs. -/
def EntropyUp (w : World) : Prop := ∀ n, (w.entropy n).isSome

/-- January 1, 2025, 00:00 UTC, one second after the process started. -/
def jan2025 : Reading := ⟨63871286400000000000, 1000000000⟩

/-- A world whose clock stands at `jan2025`, whose sources give zeros, whose network delivers
every datagram and whose wrapped bind answers `nil`. -/
def steady : World :=
  ⟨Stream'.const jan2025, Stream'.const (some (Stream'.const 0)), Stream'.const 0,
    Stream'.const true, Stream'.const none⟩

/-- `steady` one second later. -/
def oneSecondLater : World :=
  { steady with clock := Stream'.const ⟨jan2025.wall + 1000000000, jan2025.mono + 1000000000⟩ }

/-- `steady` with a clock that reads one second later at each call, from `jan2025` on. -/
def ticking : World :=
  { steady with clock := fun n => ⟨jan2025.wall + n * 1000000000, jan2025.mono + n * 1000000000⟩ }

theorem steady_netUp : steady.NetUp := fun _ => rfl

theorem steady_entropyUp : steady.EntropyUp := fun _ => rfl

theorem oneSecondLater_entropyUp : oneSecondLater.EntropyUp := fun _ => rfl

theorem NetUp.tail {w : World} (h : w.NetUp) : NetUp { w with net := w.net.tail } :=
  fun n => h (n + 1)

theorem EntropyUp.tail {w : World} (h : w.EntropyUp) :
    EntropyUp { w with entropy := w.entropy.tail } :=
  fun n => h (n + 1)

theorem EntropyUp.head {w : World} (h : w.EntropyUp) : ∃ s, w.entropy.head = some s :=
  Option.isSome_iff_exists.1 (h 0)

/-- A computation that neither reads nor moves the network stream: run with any other network,
it returns the same and leaves the same world but for that stream. -/
def NetBlind (x : StateM World α) : Prop :=
  ∀ w n, x.run { w with net := n } = ((x.run w).1, { (x.run w).2 with net := n })

namespace NetBlind

theorem pure (a : α) : NetBlind (Pure.pure a : StateM World α) := fun _ _ => rfl

theorem bind {x : StateM World α} {f : α → StateM World β} (hx : NetBlind x)
    (hf : ∀ a, NetBlind (f a)) : NetBlind (x >>= f) := by
  intro w n
  simp only [StateT.run_bind, hx w n]
  exact hf _ _ _

theorem net_eq {x : StateM World α} (hx : NetBlind x) (w : World) : (x.run w).2.net = w.net :=
  congrArg (·.2.net) (hx w w.net)

end NetBlind

theorem now_netBlind : NetBlind now := fun _ _ => rfl

theorem randRead_netBlind (n : Nat) : NetBlind (randRead n) := fun _ _ => rfl

end World

/-- A computation of the engine: a panic, or its result with the events it caused in order and
the world after. -/
def Go (α : Type) : Type := World → Except Panic (α × List Event × World)

namespace Go

def pure (a : α) : Go α := fun w => .ok (a, [], w)

/-- Run `x`, then `f` on its result from the world `x` left; the events of both, in order. -/
def bind (x : Go α) (f : α → Go β) : Go β := fun w =>
  match x w with
  | .error p => .error p
  | .ok (a, es, w₁) =>
    match f a w₁ with
    | .error p => .error p
    | .ok (b, es', w₂) => .ok (b, es ++ es', w₂)

instance : Monad Go where
  pure := Go.pure
  bind := Go.bind

/-- Code that cannot panic runs as an engine step that causes no event. -/
def lift (x : StateM World α) : Go α := fun w => .ok ((x.run w).1, [], (x.run w).2)

instance : MonadLift (StateM World) Go := ⟨Go.lift⟩

def emit (e : Event) : Go Unit := fun w => .ok ((), [e], w)

theorem pure_apply (a : α) (w : World) : (Pure.pure a : Go α) w = .ok (a, [], w) := rfl

theorem bind_apply (x : Go α) (f : α → Go β) (w : World) :
    (x >>= f) w = match x w with
      | .error p => .error p
      | .ok (a, es, w₁) =>
        match f a w₁ with
        | .error p => .error p
        | .ok (b, es', w₂) => .ok (b, es ++ es', w₂) := rfl

theorem lift_apply (x : StateM World α) (w : World) :
    (liftM x : Go α) w = .ok ((x.run w).1, [], (x.run w).2) := rfl

theorem bind_eq_ok {x : Go α} {f : α → Go β} {w w₂ : World} {b : β} {es : List Event}
    (h : (x >>= f) w = .ok (b, es, w₂)) :
    ∃ a es₁ w₁ es₂, x w = .ok (a, es₁, w₁) ∧ f a w₁ = .ok (b, es₂, w₂) ∧
      es = es₁ ++ es₂ := by
  rw [bind_apply] at h
  split at h
  · cases h
  · rename_i a es₁ w₁ hx
    split at h
    · cases h
    · rename_i b' es₂ w₂' hf
      cases h
      exact ⟨a, es₁, w₁, es₂, hx, hf, rfl⟩

theorem bind_of_silent {x : Go α} {f : α → Go β} {w w₁ : World} {a : α}
    (hx : x w = .ok (a, [], w₁)) : (x >>= f) w = f a w₁ := by
  rcases h : f a w₁ with p | ⟨b, es, w₂⟩ <;> simp [bind_apply, hx, h]

theorem bind_of_error {x : Go α} {f : α → Go β} {w : World} {p : Panic} (hx : x w = .error p) :
    (x >>= f) w = .error p := by
  simp [bind_apply, hx]

theorem bind_assoc (x : Go α) (f : α → Go β) (g : β → Go γ) :
    x >>= f >>= g = x >>= fun a => f a >>= g := by
  funext w
  simp only [bind_apply]
  rcases x w with p | ⟨a, es, w₁⟩
  · rfl
  · dsimp only
    rcases f a w₁ with p | ⟨b, es', w₂⟩
    · rfl
    · dsimp only
      rcases g b w₂ with p | ⟨c, es'', w₃⟩ <;> simp

theorem bind_emit_apply (x : Go Unit) (e : Event) (w : World) :
    (x >>= fun _ => emit e) w = match x w with
      | .error p => .error p
      | .ok (_, es, w') => .ok ((), es ++ [e], w') := by
  rcases h : x w with p | ⟨⟨⟩, es, w'⟩ <;> simp [bind_apply, h, emit]

end Go

/-- `time.Sleep(d)`. -/
def sleep (d : Duration) : Go Unit := Go.emit (.sleep d)

/-- `rng.Intn(n)`: panics unless `0 < n`, else a value of `[0, n)`, any of them for some draw. -/
def intn (n : GoInt) : Go GoInt := fun w =>
  if n.val ≤ 0 then .error .intnNonPositive
  else .ok (GoInt.wrap ((World.draw.run w).1 % n.val), [], (World.draw.run w).2)

/-- One datagram to `host:port`: it is seen on the wire only if the dial and the write succeed. -/
def sendDatagram (host : Addr) (port : GoInt) (data : Bytes) : Go Unit := do
  if ← World.deliver then Go.emit (.udp host port data)

theorem intn_apply {n : GoInt} (hn : 0 < n.val) (w : World) :
    intn n w = .ok (GoInt.wrap (w.draws.head % n.val), [], { w with draws := w.draws.tail }) := by
  simp [intn, World.draw, StateT.run, not_le.2 hn]

theorem intn_val_mem {n : GoInt} (hn : 0 < n.val) (r : Nat) :
    (GoInt.wrap (r % n.val)).val = r % n.val ∧ 0 ≤ (r : Int) % n.val ∧
      (r : Int) % n.val < n.val := by
  have h₁ := Int.emod_nonneg (r : Int) (ne_of_gt hn)
  have h₂ := Int.emod_lt_of_pos (r : Int) hn
  exact ⟨GoInt.val_wrap_of_mem (by omega) (by have := n.lt_max; omega), h₁, h₂⟩

def Event.isUdp : Event → Bool
  | .udp .. => true
  | _ => false

end PreflightBind
