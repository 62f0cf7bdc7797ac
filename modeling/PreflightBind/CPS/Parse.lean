import PreflightBind.CPS.Regex
import PreflightBind.Go.World

/-!
# `parseCPSPacket`

The template language: the tags the pattern finds, left to right, each resolved to bytes and
appended to the result; `<b>` decodes hex, `<c>` and `<t>` read the clock, `<r>` reads
`crypto/rand`.
Text outside the tags contributes nothing. The loop stops at the first tag it cannot resolve.
-/

namespace PreflightBind

/-- The errors `parseCPSPacket` returns. -/
inductive CPSError
  /-- "invalid hex data in <b> tag: %w" -/
  | invalidHex (e : HexError)
  /-- "invalid length in <r> tag: %w" -/
  | invalidLength (e : NumError)
  /-- "failed to generate random bytes: %w" -/
  | randFailed
deriving DecidableEq, Repr

/-- Go's conversion `uint32(x)` of a 64-bit integer: its low 32 bits. -/
def goUint32 (x : Int) : UInt32 := UInt32.ofNat (x % 4294967296).toNat

/-- The four bytes of a `uint32` in network byte order. -/
def bigEndian32 (x : UInt32) : Bytes :=
  [(x >>> 24).toUInt8, (x >>> 16).toUInt8, (x >>> 8).toUInt8, x.toUInt8]

/-- The `<c>` field: `uint32(time.Now().Unix() % 0xFFFFFFFF)`, with Go's truncated `%`. -/
def counterBytes (t : Time) : Bytes := bigEndian32 (goUint32 (t.unix.tmod 4294967295))

/-- The `<t>` field: `uint32(time.Now().Unix())`. -/
def timestampBytes (t : Time) : Bytes := bigEndian32 (goUint32 t.unix)

theorem counterBytes_timestampBytes_of_nonneg {t : Time} (h : 0 ≤ t.unix) :
    counterBytes t = bigEndian32 (UInt32.ofNat (t.unix.toNat % 4294967295)) ∧
      timestampBytes t = bigEndian32 (UInt32.ofNat (t.unix.toNat % 4294967296)) := by
  unfold counterBytes timestampBytes goUint32
  rw [Int.tmod_eq_emod h (by decide)]
  constructor <;> congr 2 <;> omega

/-- `tagData` without one leading `0x` or `0X`. -/
def stripHexPrefix : List Char → List Char
  | '0' :: 'x' :: rest => rest
  | '0' :: 'X' :: rest => rest
  | s => s

/-- The text a `<b>` tag hands to `hex.DecodeString`: without its `0x` and its spaces. -/
def hexPayload (tagData : List Char) : List Char :=
  (stripHexPrefix tagData).filter (· ≠ ' ')

/-- The length an `<r>` tag asks for: 0 when blank, else `Atoi`'s value capped at 1000. -/
def randomLength (tagData : List Char) : Except CPSError GoInt :=
  if tagData = [] then .ok 0
  else
    match atoi tagData with
    | .error e => .error (.invalidLength e)
    | .ok n => .ok (if 1000 < n.val then ⟨1000, by decide, by decide⟩ else n)

/-- One iteration of the loop: the bytes one match adds to the result, or the error that ends
the parse. The switch has no default: a letter the pattern cannot produce adds nothing. -/
def resolveTag (m : TagMatch) : StateM World (Except CPSError Bytes) := do
  let tagData := trimSpace m.data
  if m.tag = 'b' then
    if tagData = [] then return .ok []
    else
      match hexDecode (hexPayload tagData) with
      | .ok bytes => return .ok bytes
      | .error e => return .error (.invalidHex e)
  else if m.tag = 'c' then
    return .ok (counterBytes (← World.now))
  else if m.tag = 't' then
    return .ok (timestampBytes (← World.now))
  else if m.tag = 'r' then
    match randomLength tagData with
    | .error e => return .error e
    | .ok length =>
      if 0 < length.val then
        match ← World.randRead length.toNat with
        | some bytes => return .ok bytes
        | none => return .error .randFailed
      else return .ok []
  else return .ok []

/-- The loop of `parseCPSPacket` over the matches, with its `result` accumulator. -/
def cpsLoop : List TagMatch → Bytes → StateM World (Except CPSError Bytes)
  | [], result => return .ok result
  | m :: ms, result => do
    match ← resolveTag m with
    | .error e => return .error e
    | .ok bytes => cpsLoop ms (result ++ bytes)

/-- `parseCPSPacket(cps)`. -/
def parseCPSPacket (cps : String) : StateM World (Except CPSError Bytes) :=
  if cps = "" then return .ok []
  else cpsLoop (findAllStringSubmatch cps.toList) []

/-! ## What a match resolves to -/

/-- The count an `<r>` tag's data names: 0 when blank, else the value `Atoi` reads. -/
def randomCount (tagData : List Char) : Int := if tagData = [] then 0 else atoiValue tagData

/-- A tag that fails to resolve in every environment: a `<b>` whose payload is no even-length
run of hex digits, or a non-blank `<r>` whose data `Atoi` rejects. -/
def BadTag (m : TagMatch) : Prop :=
  (m.tag = 'b' ∧ ¬ ((hexPayload (trimSpace m.data)).all isHexDigit ∧
      (hexPayload (trimSpace m.data)).length % 2 = 0)) ∨
    (m.tag = 'r' ∧ trimSpace m.data ≠ [] ∧ ¬ AtoiAccepts (trimSpace m.data))

/-- Whether a match reads the clock: `<c>` and `<t>` do, once each. -/
def TagMatch.readsClock (m : TagMatch) : Bool := m.tag = 'c' || m.tag = 't'

/-- The bytes a match contributes to a successful parse when the clock, if the match reads it,
reads `t`: the decoded payload of a `<b>`; for `<c>` and `<t>` the four bytes of the counter or
timestamp field of `t`, for a reading at or after 1970 its Unix seconds modulo `2^32 - 1` or
`2^32` in network byte order; and for `<r>` any bytes of the requested count clamped to
`[0, 1000]`. -/
def Segment (m : TagMatch) (t : Time) (seg : Bytes) : Prop :=
  if m.tag = 'b' then hexDecode (hexPayload (trimSpace m.data)) = .ok seg
  else if m.tag = 'c' then seg = counterBytes t ∧ seg.length = 4 ∧
    (0 ≤ t.unix → seg = bigEndian32 (UInt32.ofNat (t.unix.toNat % 4294967295)))
  else if m.tag = 't' then seg = timestampBytes t ∧ seg.length = 4 ∧
    (0 ≤ t.unix → seg = bigEndian32 (UInt32.ofNat (t.unix.toNat % 4294967296)))
  else if m.tag = 'r' then (seg.length : Int) = min (max (randomCount (trimSpace m.data)) 0) 1000
  else seg = []

/-- One segment per match, in order, the `<c>` and `<t>` matches each at the next reading of
`clock`. -/
inductive Segments : Stream' Reading → List TagMatch → List Bytes → Prop
  | nil (clock : Stream' Reading) : Segments clock [] []
  | cons {clock : Stream' Reading} {m : TagMatch} {ms : List TagMatch} {seg : Bytes}
      {segs : List Bytes} : Segment m clock.head.toTime seg →
      Segments (if m.readsClock then clock.tail else clock) ms segs →
      Segments clock (m :: ms) (seg :: segs)

theorem hexDecode_hexPayload_nil : hexDecode (hexPayload []) = .ok [] := rfl

theorem randomLength_ok {tagData : List Char} {n : GoInt} (h : randomLength tagData = .ok n) :
    n.val = min (randomCount tagData) 1000 ∧ (tagData ≠ [] → AtoiAccepts tagData) := by
  unfold randomLength at h
  unfold randomCount
  split_ifs at h with h₀
  · cases h; simp [h₀]
  · cases ha : atoi tagData with
    | error e => simp [ha] at h
    | ok k =>
      obtain ⟨hacc, rfl⟩ := atoi_eq_ok_iff.1 ha
      have hv := GoInt.val_wrap_of_mem hacc.2.2.1 hacc.2.2.2
      simp only [ha, Except.ok.injEq] at h
      subst h
      refine ⟨?_, fun _ => hacc⟩
      split_ifs with h₁ <;> simp only [hv] at h₁ ⊢ <;> omega

theorem randomLength_error {tagData : List Char} {e : CPSError}
    (h : randomLength tagData = .error e) :
    tagData ≠ [] ∧ ¬ AtoiAccepts tagData := by
  unfold randomLength at h
  split_ifs at h with h₀
  refine ⟨h₀, fun hacc => ?_⟩
  simp [atoi_eq_ok_iff.2 ⟨hacc, rfl⟩] at h

@[simp] theorem counterBytes_length (t : Time) : (counterBytes t).length = 4 := rfl

@[simp] theorem timestampBytes_length (t : Time) : (timestampBytes t).length = 4 := rfl

/-- One spec for one iteration: in a world whose `rand.Read` never errs, a match resolves to its
segment at the clock's next reading exactly when it is not a bad tag, and reads the clock exactly
when it is a `<c>` or a `<t>`. -/
theorem resolveTag_spec (m : TagMatch) {w : World} (hw : w.EntropyUp) :
    ((resolveTag m).run w).2.EntropyUp ∧
      ((resolveTag m).run w).2.clock = (if m.readsClock then w.clock.tail else w.clock) ∧
      match ((resolveTag m).run w).1 with
      | .ok seg => Segment m w.clock.head.toTime seg ∧ ¬ BadTag m
      | .error _ => BadTag m := by
  have hnb := counterBytes_timestampBytes_of_nonneg (t := w.clock.head.toTime)
  by_cases hb : m.tag = 'b'
  · have hnr : m.tag ≠ 'r' := by rw [hb]; decide
    have hclk : m.readsClock = false := by simp [TagMatch.readsClock, hb]
    by_cases h₀ : trimSpace m.data = []
    · have hrun : (resolveTag m).run w = (.ok [], w) := by simp [resolveTag, hb, h₀]
      rw [hrun]
      exact ⟨hw, by simp [hclk], by simp [Segment, hb, h₀, hexDecode_hexPayload_nil],
        by simp [BadTag, hb, h₀, hexPayload, stripHexPrefix]⟩
    · cases hd : hexDecode (hexPayload (trimSpace m.data)) with
      | error e =>
        have hrun : (resolveTag m).run w = (.error (.invalidHex e), w) := by
          simp [resolveTag, hb, h₀, hd]
        rw [hrun]
        exact ⟨hw, by simp [hclk], Or.inl ⟨hb, (hexDecode_ok_iff _).not.1 (by simp [hd])⟩⟩
      | ok bs =>
        have hrun : (resolveTag m).run w = (.ok bs, w) := by simp [resolveTag, hb, h₀, hd]
        rw [hrun]
        refine ⟨hw, by simp [hclk], by simp [Segment, hb, hd], ?_⟩
        rintro (⟨-, hbad⟩ | ⟨hr, -⟩)
        · exact hbad ((hexDecode_ok_iff _).1 ⟨bs, hd⟩)
        · exact hnr hr
  by_cases hc : m.tag = 'c'
  · simp only [resolveTag, hc, Char.reduceEq, reduceIte, bind_pure_comp, StateT.run_map,
      World.now_run, Id.map_eq, TagMatch.readsClock, decide_True, decide_False, Bool.or_false,
      Segment, counterBytes_length, true_and, BadTag, false_and, or_self, not_false_eq_true, and_true]
    exact ⟨hw, fun h => (hnb h).1⟩
  by_cases ht : m.tag = 't'
  · simp only [resolveTag, ht, Char.reduceEq, reduceIte, bind_pure_comp, StateT.run_map,
      World.now_run, Id.map_eq, TagMatch.readsClock, decide_False, decide_True, Bool.or_true,
      Segment, timestampBytes_length, true_and, BadTag, false_and, or_self, not_false_eq_true,
      and_true]
    exact ⟨hw, fun h => (hnb h).2⟩
  have hclk : m.readsClock = false := by simp [TagMatch.readsClock, hc, ht]
  by_cases hr : m.tag = 'r'
  · cases hl : randomLength (trimSpace m.data) with
    | error e =>
      have := randomLength_error hl
      simp [resolveTag, hr, hl, BadTag, this, hw, hclk]
    | ok n =>
      obtain ⟨hn, hacc⟩ := randomLength_ok hl
      have hgood : ¬ BadTag m := by simp [BadTag, hr]; exact hacc
      by_cases hpos : 0 < n.val
      · obtain ⟨bs, hbs⟩ := hw.head
        simp [resolveTag, hr, hl, hpos, hbs, Segment, hgood, hw.tail, GoInt.toNat, hclk]
        omega
      · simp [resolveTag, hr, hl, hpos, Segment, hgood, hw, hclk]
        omega
  · simp [resolveTag, hb, hc, ht, hr, Segment, BadTag, hw, hclk]

/-! ## The loop -/

theorem cpsLoop_cons_run (m : TagMatch) (ms : List TagMatch) (acc : Bytes) (w : World) :
    (cpsLoop (m :: ms) acc).run w =
      match (resolveTag m).run w with
      | (.error e, w₁) => (.error e, w₁)
      | (.ok b, w₁) => (cpsLoop ms (acc ++ b)).run w₁ := by
  simp only [cpsLoop, StateT.run_bind]
  rcases (resolveTag m).run w with ⟨_ | _, w₁⟩ <;> rfl

theorem cpsLoop_acc (ms : List TagMatch) (acc : Bytes) (w : World) :
    (cpsLoop ms acc).run w =
      (((cpsLoop ms []).run w).1.map (acc ++ ·), ((cpsLoop ms []).run w).2) := by
  induction ms generalizing acc w with
  | nil => simp [cpsLoop, Except.map]
  | cons m ms ih =>
    rw [cpsLoop_cons_run, cpsLoop_cons_run]
    rcases (resolveTag m).run w with ⟨_ | b, w₁⟩
    · rfl
    · simp only [List.nil_append]
      rw [ih (acc ++ b) w₁, ih b w₁]
      rcases (cpsLoop ms []).run w₁ with ⟨_ | v, w₂⟩ <;> simp [Except.map]

theorem cpsLoop_append (ms₁ ms₂ : List TagMatch) (acc : Bytes) (w : World) :
    (cpsLoop (ms₁ ++ ms₂) acc).run w =
      match (cpsLoop ms₁ acc).run w with
      | (.error e, w₁) => (.error e, w₁)
      | (.ok out, w₁) => (cpsLoop ms₂ out).run w₁ := by
  induction ms₁ generalizing acc w with
  | nil => rfl
  | cons m ms ih =>
    rw [List.cons_append, cpsLoop_cons_run, cpsLoop_cons_run]
    rcases (resolveTag m).run w with ⟨_ | b, w₁⟩
    · rfl
    · exact ih (acc ++ b) w₁

/-- In a world whose `rand.Read` never errs, the loop fails exactly on a list holding a bad tag,
and otherwise appends one segment per match, each clock tag at the next reading. -/
theorem cpsLoop_spec (ms : List TagMatch) (acc : Bytes) {w : World} (hw : w.EntropyUp) :
    ((cpsLoop ms acc).run w).2.EntropyUp ∧
      match ((cpsLoop ms acc).run w).1 with
      | .ok out => (∀ m ∈ ms, ¬ BadTag m) ∧
          ∃ segs, Segments w.clock ms segs ∧ out = acc ++ segs.flatten
      | .error _ => ∃ m ∈ ms, BadTag m := by
  induction ms generalizing acc w with
  | nil => exact ⟨hw, by simp, [], .nil _, by simp⟩
  | cons m ms ih =>
    rw [cpsLoop_cons_run]
    have hm := resolveTag_spec m hw
    rcases hr : (resolveTag m).run w with ⟨_ | b, w₁⟩ <;> rw [hr] at hm
    · exact ⟨hm.1, m, List.mem_cons_self m ms, hm.2.2⟩
    · obtain ⟨hw₁, hclk, hseg, hgood⟩ := hm
      obtain ⟨hw₂, hrest⟩ := ih (acc ++ b) hw₁
      refine ⟨hw₂, ?_⟩
      split at hrest <;> rename_i hres <;> simp only [hres]
      · obtain ⟨hall, segs, hsegs, rfl⟩ := hrest
        rw [hclk] at hsegs
        exact ⟨by simpa [hgood] using hall, b :: segs, .cons hseg hsegs, by simp⟩
      · obtain ⟨m', hm', hbad⟩ := hrest
        exact ⟨m', List.mem_cons_of_mem m hm', hbad⟩

/-! ## The parser -/

theorem parseCPSPacket_run (s : String) (w : World) :
    (parseCPSPacket s).run w = (cpsLoop (findAllStringSubmatch s.toList) []).run w := by
  unfold parseCPSPacket
  split_ifs with h
  · subst h; rfl
  · rfl

/-- In a world whose `rand.Read` never errs, a template fails to parse exactly when one of its
matches is a bad tag. -/
theorem parseCPSPacket_error_iff_badTag (s : String) {w : World} (hw : w.EntropyUp) :
    (∃ e, ((parseCPSPacket s).run w).1 = .error e) ↔
      ∃ m ∈ findAllStringSubmatch s.toList, BadTag m := by
  have h := (cpsLoop_spec (findAllStringSubmatch s.toList) [] hw).2
  rw [parseCPSPacket_run]
  split at h <;> rename_i hres <;> simp only [hres]
  · simpa using h.1
  · simpa using h

/-- In a world whose `rand.Read` never errs, a successful parse is the concatenation of one
segment per match, each clock tag at the next reading of the world's clock. -/
theorem parseCPSPacket_segments (s : String) {w : World} (hw : w.EntropyUp) {out : Bytes}
    (h : ((parseCPSPacket s).run w).1 = .ok out) :
    ∃ segs, Segments w.clock (findAllStringSubmatch s.toList) segs ∧ out = segs.flatten := by
  have hs := (cpsLoop_spec (findAllStringSubmatch s.toList) [] hw).2
  rw [parseCPSPacket_run] at h
  rw [h] at hs
  simpa using hs.2

theorem Segment.length_eq {m : TagMatch} {t t' : Time} {a b : Bytes} (ha : Segment m t a)
    (hb : Segment m t' b) : a.length = b.length := by
  unfold Segment at ha hb
  split_ifs at ha hb
  · rw [ha] at hb; cases hb; rfl
  · rw [ha.2.1, hb.2.1]
  · rw [ha.2.1, hb.2.1]
  · exact Int.ofNat_inj.1 (ha.trans hb.symm)
  · rw [ha, hb]

theorem Segment.eq_of_tag_b {m : TagMatch} {t t' : Time} {a b : Bytes} (hm : m.tag = 'b')
    (ha : Segment m t a) (hb : Segment m t' b) : a = b := by
  simp only [Segment, hm, if_true] at ha hb
  rw [ha] at hb; cases hb; rfl

/-! ## The network is left alone -/

theorem resolveTag_netBlind (m : TagMatch) : World.NetBlind (resolveTag m) := by
  dsimp only [resolveTag]
  split_ifs <;> (try split) <;> (try split_ifs) <;>
    first
    | exact World.NetBlind.pure _
    | exact World.NetBlind.bind World.now_netBlind fun _ => World.NetBlind.pure _
    | exact World.NetBlind.bind (World.randRead_netBlind _) fun r => by
        cases r <;> exact World.NetBlind.pure _

theorem cpsLoop_netBlind (ms : List TagMatch) (acc : Bytes) : World.NetBlind (cpsLoop ms acc) := by
  induction ms generalizing acc with
  | nil => exact World.NetBlind.pure _
  | cons m ms ih =>
    refine World.NetBlind.bind (resolveTag_netBlind m) fun r => ?_
    cases r
    · exact World.NetBlind.pure _
    · exact ih _

theorem parseCPSPacket_netBlind (s : String) : World.NetBlind (parseCPSPacket s) := by
  unfold parseCPSPacket
  split_ifs
  · exact World.NetBlind.pure _
  · exact cpsLoop_netBlind _ _

end PreflightBind
