import PreflightBind.Engine.Junk

/-!
# The S1/S2 prefixes

`applyAmneziaPrefix` puts `S1` random bytes before a handshake initiation and `S2` before a
response, capped at 64 bytes, and leaves every other buffer alone. The prefix is filled like a
junk packet: from `crypto/rand`, or from `rng` when that fails. `Send` does not call it; the
result below says what it would add if it did: the bytes of the next `crypto/rand` read, or of
the fallback, to the configured length, before the unchanged buffer, with no panic and nothing
sent.
-/

namespace PreflightBind

/-- The end of `applyAmneziaPrefix` once the switch has picked `S1` or `S2`: the size capped at 64,
the buffer alone for a size that is not positive, else a fresh prefix before it. -/
def prependPrefix (prefixSize : GoInt) (buf : Bytes) : Go Bytes :=
  let prefixSize : GoInt := if 64 < prefixSize.val then 64 else prefixSize
  if prefixSize.val ≤ 0 then pure buf
  else do pure ((← fillJunk prefixSize.toNat) ++ buf)

/-- `b.applyAmneziaPrefix(buf)`: the switch on the message type, `S1` for type 1 and `S2` for
type 2. -/
def Bind.applyAmneziaPrefix (b : Bind) (buf : Bytes) : Go Bytes :=
  match b.amneziaConfig, buf with
  | some c, messageType :: _ =>
    if messageType = 1 then prependPrefix c.s1 buf
    else if messageType = 2 then prependPrefix c.s2 buf
    else pure buf
  | _, _ => pure buf

/-- The length of the prefix the configuration asks for: `S1` before an initiation and `S2`
before a response, within `[0, 64]`, and none before any other message. -/
def prefixLength (config : Option AmneziaConfig) (buf : Bytes) : Nat :=
  match config, buf with
  | some c, messageType :: _ =>
    if messageType = 1 then (min c.s1.val 64).toNat
    else if messageType = 2 then (min c.s2.val 64).toNat
    else 0
  | _, _ => 0

theorem prefixLength_le (config : Option AmneziaConfig) (buf : Bytes) :
    prefixLength config buf ≤ 64 := by
  unfold prefixLength
  split
  · split_ifs <;> omega
  · omega

theorem capPrefix_val (size : GoInt) :
    (if 64 < size.val then (64 : GoInt) else size).val = min size.val 64 := by
  split_ifs with h
  · exact (min_eq_right h.le).symm
  · exact (min_eq_left (not_lt.1 h)).symm

theorem randomFill_zero (w : World) : randomFill 0 w = [] := by
  unfold randomFill
  split <;> rfl

theorem prependPrefix_apply (size : GoInt) (buf : Bytes) (w : World) :
    ∃ w', prependPrefix size buf w =
      .ok (randomFill (min size.val 64).toNat w ++ buf, [], w') ∧ w'.net = w.net := by
  have hcap := capPrefix_val size
  by_cases hpos : min size.val 64 ≤ 0
  · refine ⟨w, ?_, rfl⟩
    simp only [prependPrefix, hcap, hpos, if_true, Int.toNat_eq_zero.2 hpos, randomFill_zero]
    rfl
  · obtain ⟨w', hf, hn⟩ := fillJunk_apply (show (min size.val 64).toNat ≤ maxAlloc by
      unfold maxAlloc; omega) w
    refine ⟨w', ?_, hn⟩
    simp only [prependPrefix, hcap, hpos, if_false, GoInt.toNat]
    rw [Go.bind_of_silent hf]
    rfl

/-- `applyAmneziaPrefix` never panics and sends nothing; it returns the buffer, unchanged, behind
the configured number of fresh random bytes, exactly those `fillJunk` of that length returns from
the same world: the bytes of the next `crypto/rand` read, or, when it errs,
`byte(rng.Intn(256))` of the next draws. -/
theorem applyAmneziaPrefix_spec (b : Bind) (buf : Bytes) (w : World) :
    (∃ w₁, fillJunk (prefixLength b.amneziaConfig buf) w =
      .ok (randomFill (prefixLength b.amneziaConfig buf) w, [], w₁)) ∧
    ∃ w', b.applyAmneziaPrefix buf w =
      .ok (randomFill (prefixLength b.amneziaConfig buf) w ++ buf, [], w') ∧ w'.net = w.net := by
  refine ⟨(fillJunk_apply ((prefixLength_le _ _).trans (by decide)) w).imp fun _ h => h.1, ?_⟩
  unfold Bind.applyAmneziaPrefix prefixLength
  rcases b.amneziaConfig with _ | c
  · exact ⟨w, by rw [randomFill_zero]; rfl, rfl⟩
  rcases buf with _ | ⟨messageType, rest⟩
  · exact ⟨w, by rw [randomFill_zero]; rfl, rfl⟩
  dsimp only
  split_ifs
  · exact prependPrefix_apply c.s1 _ w
  · exact prependPrefix_apply c.s2 _ w
  · exact ⟨w, by rw [randomFill_zero]; rfl, rfl⟩

end PreflightBind
