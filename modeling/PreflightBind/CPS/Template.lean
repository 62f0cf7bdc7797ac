import PreflightBind.CPS.Laws

/-!
# Templates read back

A configuration writer builds the packets `I1` to `I5` from four kinds of field: literal bytes, the
counter, the timestamp and a count of random bytes. `renderTemplate` writes a list of fields in the
syntax `parseCPSPacket` reads (`<b hex>`, `<c>`, `<t>`, `<r n>`), and `evalTemplate` gives the list
its meaning directly: the bytes, the clock fields at successive readings, and reads of
`crypto/rand` with the count capped at 1000. The round trip says that parsing the written text
computes that meaning, in every world, for every list whose counts `Atoi` can read back.
-/

namespace PreflightBind

/-- A field of a template. -/
inductive CPSField
  /-- `<b hex_data>`: these bytes. -/
  | bytes (bs : Bytes)
  /-- `<c>`: the counter field of the clock. -/
  | counter
  /-- `<t>`: the timestamp field of the clock. -/
  | timestamp
  /-- `<r length>`: `length` random bytes. -/
  | random (length : Nat)
deriving DecidableEq, Repr

namespace CPSField

/-- The tag that writes a field: lowercase hex for the bytes, `Nat.toDigits` for a count. -/
def render : CPSField → List Char
  | bytes bs => '<' :: 'b' :: ' ' :: (hexEncode bs ++ ['>'])
  | counter => ['<', 'c', '>']
  | timestamp => ['<', 't', '>']
  | random n => '<' :: 'r' :: ' ' :: (Nat.toDigits 10 n ++ ['>'])

/-- Whether `Atoi` reads the field's count back: a count below `2^63`. -/
def countFits : CPSField → Bool
  | random n => n < 9223372036854775808
  | _ => true

/-- What a field means: its bytes, the clock field at the next reading, or the first `min n 1000`
bytes of the next `crypto/rand` read, which may fail. -/
def eval : CPSField → StateM World (Option Bytes)
  | bytes bs => pure (some bs)
  | counter => do return some (counterBytes (← World.now))
  | timestamp => do return some (timestampBytes (← World.now))
  | random n => if n = 0 then pure (some []) else World.randRead (min n 1000)

/-- The match the scan finds in the field's tag. -/
def toMatch : CPSField → TagMatch
  | bytes bs => ⟨'b', hexEncode bs⟩
  | counter => ⟨'c', []⟩
  | timestamp => ⟨'t', []⟩
  | random n => ⟨'r', Nat.toDigits 10 n⟩

end CPSField

/-- A template: its fields' tags one after another. -/
def renderTemplate (fs : List CPSField) : String := ⟨fs.flatMap CPSField.render⟩

/-- What a template means: its fields' bytes one after another, or nothing once a read of
`crypto/rand` fails. -/
def evalTemplate : List CPSField → StateM World (Option Bytes)
  | [] => pure (some [])
  | f :: fs => do
    let some b ← f.eval | return none
    let some rest ← evalTemplate fs | return none
    return some (b ++ rest)

theorem evalTemplate_cons_run (f : CPSField) (fs : List CPSField) (w : World) :
    (evalTemplate (f :: fs)).run w =
      match f.eval.run w with
      | (none, w₁) => (none, w₁)
      | (some b, w₁) => (((evalTemplate fs).run w₁).1.map (b ++ ·), ((evalTemplate fs).run w₁).2) := by
  simp only [evalTemplate, StateT.run_bind]
  rcases f.eval.run w with ⟨_ | b, w₁⟩
  · rfl
  · simp only [Id.bind_eq, StateT.run_bind]
    rcases (evalTemplate fs).run w₁ with ⟨_ | rest, w₂⟩ <;> rfl

/-! ## The scan finds one match per field -/

theorem closed_append_close (s : List Char) : Closed (s ++ ['>']) := by
  induction s with
  | nil => exact closed_cons.2 ⟨fun h => absurd h (by decide), closed_nil⟩
  | cons c s ih => exact closed_cons.2 ⟨fun _ => by simp, ih⟩

theorem CPSField.closed_render (f : CPSField) : Closed f.render := by
  cases f with
  | bytes bs => exact closed_append_close ('<' :: 'b' :: ' ' :: hexEncode bs)
  | counter => exact closed_append_close ['<', 'c']
  | timestamp => exact closed_append_close ['<', 't']
  | random n => exact closed_append_close ('<' :: 'r' :: ' ' :: Nat.toDigits 10 n)

theorem toDigits_atoiAccepts {n : Nat} (hn : n < 9223372036854775808) :
    AtoiAccepts (Nat.toDigits 10 n) :=
  (atoi_eq_ok_iff.1 (atoi_toDigits hn)).1

theorem CPSField.findAllStringSubmatch_render {f : CPSField} (hf : f.countFits = true) :
    findAllStringSubmatch f.render = [f.toMatch] := by
  cases f with
  | bytes bs =>
    exact findAllStringSubmatch_tag (c := 'b') rfl fun x hx => (hexEncode_class bs x hx).2.2
  | counter => rfl
  | timestamp => rfl
  | random n =>
    exact findAllStringSubmatch_rTag (toDigits_atoiAccepts (by simpa [countFits] using hf))

theorem findAllStringSubmatch_renderTemplate {fs : List CPSField}
    (h : fs.all CPSField.countFits = true) :
    findAllStringSubmatch (renderTemplate fs).toList = fs.map CPSField.toMatch := by
  induction fs with
  | nil => rfl
  | cons f fs ih =>
    rw [List.all_cons, Bool.and_eq_true] at h
    show findAllStringSubmatch (f.render ++ fs.flatMap CPSField.render) = _
    rw [findAllStringSubmatch_append f.closed_render, f.findAllStringSubmatch_render h.1]
    exact congrArg _ (ih h.2)

/-! ## Each tag resolves to its field's meaning -/

theorem randomLength_toDigits {n : Nat} (hn : n < 9223372036854775808) :
    ∃ len : GoInt, randomLength (Nat.toDigits 10 n) = .ok len ∧ len.val = min n 1000 := by
  have hne := (toDigitsCore_decimal (n + 1) n [] (Nat.lt_succ_self n) rfl).1
  have hlen : randomLength (Nat.toDigits 10 n) =
      .ok (if 1000 < (GoInt.wrap n).val then ⟨1000, by decide, by decide⟩ else GoInt.wrap n) := by
    rw [randomLength, if_neg (show Nat.toDigits 10 n ≠ [] from hne), atoi_toDigits hn]
  refine ⟨_, hlen, ?_⟩
  have hv : (GoInt.wrap n).val = n := GoInt.val_wrap_of_mem (by omega) (by omega)
  split_ifs with h <;> simp only [hv] at h ⊢ <;> omega

theorem CPSField.resolveTag_toMatch {f : CPSField} (hf : f.countFits = true) (w : World) :
    (resolveTag f.toMatch).run w =
      ((f.eval.run w).1.elim (.error .randFailed) .ok, (f.eval.run w).2) := by
  cases f with
  | bytes bs => exact resolveTag_hexEncode bs w
  | counter => rfl
  | timestamp => rfl
  | random n =>
    have hn : n < 9223372036854775808 := by simpa [countFits] using hf
    have htrim : trimSpace (Nat.toDigits 10 n) = Nat.toDigits 10 n :=
      trimSpace_of_forall fun x hx => ((toDigits_atoiAccepts hn).not_space x hx).1
    obtain ⟨len, hlen, hval⟩ := randomLength_toDigits hn
    by_cases h0 : n = 0
    · have : ¬ 0 < len.val := by omega
      rw [eval, if_pos h0]
      dsimp only [resolveTag, toMatch]
      simp only [htrim, hlen, this, if_false]
      rfl
    · have : 0 < len.val := by omega
      have htoNat : len.toNat = min n 1000 := by simp only [GoInt.toNat, hval]; omega
      rw [eval, if_neg h0]
      dsimp only [resolveTag, toMatch]
      simp only [htrim, hlen, this, htoNat, Char.reduceEq, if_true, if_false, StateT.run_bind,
        World.randRead_run]
      rcases w.entropy.head with _ | s <;> rfl

/-! ## The round trip -/

theorem cpsLoop_renderTemplate {fs : List CPSField} (h : fs.all CPSField.countFits = true)
    (acc : Bytes) (w : World) :
    (cpsLoop (fs.map CPSField.toMatch) acc).run w =
      (((evalTemplate fs).run w).1.elim (.error .randFailed) fun out => .ok (acc ++ out),
        ((evalTemplate fs).run w).2) := by
  induction fs generalizing acc w with
  | nil => simp [cpsLoop, evalTemplate]
  | cons f fs ih =>
    rw [List.all_cons, Bool.and_eq_true] at h
    rw [List.map_cons, cpsLoop_cons_run, f.resolveTag_toMatch h.1, evalTemplate_cons_run]
    rcases f.eval.run w with ⟨_ | b, w₁⟩
    · rfl
    · dsimp only [Option.elim]
      rw [ih h.2]
      rcases (evalTemplate fs).run w₁ with ⟨_ | out, w₂⟩
      · rfl
      · simp

/-- Every template written from fields whose counts `Atoi` reads back parses, in every world, to
its meaning: the fields' bytes in order, each clock field at its own reading, each `<r n>` as the
first `min n 1000` bytes of its own read of `crypto/rand`, and the error "failed to generate
random bytes" at the first read that fails, with the same readings and reads consumed. -/
theorem parseCPSPacket_renderTemplate (fs : List CPSField) (h : fs.all CPSField.countFits = true)
    (w : World) :
    (parseCPSPacket (renderTemplate fs)).run w =
      (((evalTemplate fs).run w).1.elim (.error .randFailed) .ok, ((evalTemplate fs).run w).2) := by
  rw [parseCPSPacket_run, findAllStringSubmatch_renderTemplate h, cpsLoop_renderTemplate h]
  rfl

/-- A template with one field of each kind. -/
def exampleTemplate : List CPSField := [.bytes [0xc0, 0xff], .counter, .timestamp, .random 16]

theorem parseCPSPacket_renderTemplate_example :
    exampleTemplate.all CPSField.countFits = true ∧
      (parseCPSPacket (renderTemplate exampleTemplate)).run World.steady =
        (((evalTemplate exampleTemplate).run World.steady).1.elim (.error .randFailed) .ok,
          ((evalTemplate exampleTemplate).run World.steady).2) :=
  ⟨rfl, parseCPSPacket_renderTemplate exampleTemplate rfl World.steady⟩

end PreflightBind
