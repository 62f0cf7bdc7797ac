import PreflightBind.CPS.Parse
import Mathlib.Logic.Function.Basic

/-!
# The obfuscation configuration and the bind

`AmneziaConfig` is read, never written, once a bind holds it. The bind keeps the port the decoys
go to, the I1 bytes resolved when it was built, the configuration, and the rate limiter's map of
last triggers per destination. The wrapped `conn.Bind` is not a field here: the only use the
engine makes of it is `Send`, whose answers come from the world.
-/

namespace PreflightBind

/-- `AmneziaConfig`, with the fields the engine reads. -/
structure AmneziaConfig where
  i1 : String
  i2 : String
  i3 : String
  i4 : String
  i5 : String
  s1 : GoInt
  s2 : GoInt
  jc : GoInt
  jmin : GoInt
  jmax : GoInt
  jcAfterI1 : GoInt
  jcBeforeHS : GoInt
  jcAfterHS : GoInt
  junkInterval : Duration
  allowZeroSize : Bool

/-- The zero `AmneziaConfig{}`: no templates, no prefixes, no junk. -/
def AmneziaConfig.zero : AmneziaConfig :=
  ⟨"", "", "", "", "", 0, 0, 0, 0, 0, 0, 0, 0, 0, false⟩

/-- `Bind`. `payload` is the I1 packet; for a bind of `NewWithAmnezia` it is `nil` exactly when
it is empty, since `parseCPSPacket` only appends non-empty byte runs to a `nil` result. -/
structure Bind where
  port443 : GoInt
  payload : Bytes
  amneziaConfig : Option AmneziaConfig
  lastSent : Addr → Option Time
  interval : Duration

/-- `New(inner, hexPayload, port, minInterval)`: the preflight payload is hex, after one leading
`0x` or `0X`. -/
def new (hexPayload : String) (port : GoInt) (minInterval : Duration) : Except HexError Bind :=
  match hexDecode (stripHexPrefix hexPayload.toList) with
  | .ok p => .ok ⟨port, p, none, fun _ => none, minInterval⟩
  | .error e => .error e

/-- `New` accepts exactly the payloads that are, after one optional `0x` or `0X`, an even number of
hexadecimal digits, and keeps their decoded bytes, one for every two digits. -/
theorem new_ok_iff (hexPayload : String) (port : GoInt) (minInterval : Duration) :
    ((∃ b, new hexPayload port minInterval = .ok b) ↔
      (stripHexPrefix hexPayload.toList).all isHexDigit ∧
        (stripHexPrefix hexPayload.toList).length % 2 = 0) ∧
    ∀ b, new hexPayload port minInterval = .ok b →
      b.payload.length = (stripHexPrefix hexPayload.toList).length / 2 := by
  rw [← hexDecode_ok_iff]
  unfold new
  rcases h : hexDecode (stripHexPrefix hexPayload.toList) with e | p
  · simp
  · refine ⟨by simp, fun b hb => ?_⟩
    cases hb
    exact hexDecode_length h

/-- `New` fails with the error of `hex.DecodeString` on the payload after its `0x`: the first byte
of the first character that is no hex digit or, when all are digits but their count is odd,
`ErrLength`. -/
theorem new_error_iff (hexPayload : String) (port : GoInt) (minInterval : Duration)
    (e : HexError) :
    new hexPayload port minInterval = .error e ↔
      match (stripHexPrefix hexPayload.toList).find? (fun c => !isHexDigit c) with
      | some c => e = .invalidByte (leadByte c)
      | none => (stripHexPrefix hexPayload.toList).length % 2 = 1 ∧ e = .length := by
  refine Iff.trans ?_ (hexDecode_eq_error_iff _ e)
  unfold new
  cases hexDecode (stripHexPrefix hexPayload.toList) <;> simp

/-- The error of `NewWithAmnezia`: "invalid I1 CPS format: %w". -/
inductive NewError
  | invalidI1 (e : CPSError)
deriving DecidableEq, Repr

/-- `NewWithAmnezia(inner, amneziaConfig, port, minInterval)`: I1 alone is parsed, once, here. -/
def newWithAmnezia (amneziaConfig : Option AmneziaConfig) (port : GoInt) (minInterval : Duration) :
    StateM World (Except NewError Bind) := do
  let payload ← match amneziaConfig with
    | some c => if c.i1 ≠ "" then parseCPSPacket c.i1 else pure (.ok [])
    | none => pure (.ok [])
  match payload with
  | .error e => return .error (.invalidI1 e)
  | .ok payload => return .ok ⟨port, payload, amneziaConfig, fun _ => none, minInterval⟩

end PreflightBind
