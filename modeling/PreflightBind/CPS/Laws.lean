import PreflightBind.CPS.Parse

/-!
# Laws of the template parser

Over every template and every environment whose `rand.Read` does not fail: whether a template
parses does not depend on the environment, and its output is one segment per tag, each of a
length fixed by the template; which templates fail; and how the parse of a concatenation splits
when the first part closes every `<` it opens.
-/

namespace PreflightBind

/-- Two segment lists for the same matches, at any two clocks, agree in the length of every
segment and in every `<b>` segment. -/
theorem segments_agree {clock₁ clock₂ : Stream' Reading} {ms : List TagMatch}
    {segs₁ segs₂ : List Bytes} (h₁ : Segments clock₁ ms segs₁) (h₂ : Segments clock₂ ms segs₂) :
    List.Forall₂ (fun a b => a.length = b.length) segs₁ segs₂ ∧
      ∀ (i : Nat) (m : TagMatch), ms[i]? = some m → m.tag = 'b' →
        segs₁[i]? = segs₂[i]? := by
  induction h₁ generalizing clock₂ segs₂ with
  | nil => cases h₂; exact ⟨.nil, by simp⟩
  | cons ha _ ih =>
    cases h₂ with
    | cons hb hrest =>
      obtain ⟨hlen, hb'⟩ := ih hrest
      refine ⟨.cons (ha.length_eq hb) hlen, fun i m hm htag => ?_⟩
      cases i with
      | zero =>
        simp only [List.getElem?_cons_zero, Option.some.injEq] at hm
        subst hm; simp [Segment.eq_of_tag_b htag ha hb]
      | succ i => simpa using hb' i m (by simpa using hm) htag

theorem flatten_length_of_forall₂ {segs₁ segs₂ : List Bytes}
    (h : List.Forall₂ (fun a b => a.length = b.length) segs₁ segs₂) :
    segs₁.flatten.length = segs₂.flatten.length := by
  induction h with
  | nil => rfl
  | cons hab _ ih => simp [hab, ih]

theorem ok_iff_not_error {r : Except ε α} : (∃ a, r = .ok a) ↔ ¬ ∃ e, r = .error e := by
  cases r <;> simp

/-- Two runs of the parser on one template, in two worlds whose `rand.Read` never errs: both
fail or both succeed; each output is one segment per match of the tag pattern, left to right,
each `<c>` and `<t>` segment the four-byte field of the reading that run takes for it; and the two
agree in every segment's length, so in their own, and in every `<b>` segment. -/
theorem parseCPSPacket_two_runs (s : String) {w₁ w₂ : World} (h₁ : w₁.EntropyUp)
    (h₂ : w₂.EntropyUp) :
    ((∃ out, ((parseCPSPacket s).run w₁).1 = .ok out) ↔
        ∃ out, ((parseCPSPacket s).run w₂).1 = .ok out) ∧
      ∀ out₁ out₂, ((parseCPSPacket s).run w₁).1 = .ok out₁ →
        ((parseCPSPacket s).run w₂).1 = .ok out₂ →
        ∃ segs₁ segs₂,
          Segments w₁.clock (findAllStringSubmatch s.toList) segs₁ ∧
          out₁ = segs₁.flatten ∧
          Segments w₂.clock (findAllStringSubmatch s.toList) segs₂ ∧
          out₂ = segs₂.flatten ∧
          out₁.length = out₂.length ∧
          List.Forall₂ (fun a b => a.length = b.length) segs₁ segs₂ ∧
          ∀ (i : Nat) (m : TagMatch), (findAllStringSubmatch s.toList)[i]? = some m →
            m.tag = 'b' → segs₁[i]? = segs₂[i]? := by
  refine ⟨?_, fun out₁ out₂ ho₁ ho₂ => ?_⟩
  · rw [ok_iff_not_error, ok_iff_not_error, parseCPSPacket_error_iff_badTag s h₁,
      parseCPSPacket_error_iff_badTag s h₂]
  · obtain ⟨segs₁, hs₁, rfl⟩ := parseCPSPacket_segments s h₁ ho₁
    obtain ⟨segs₂, hs₂, rfl⟩ := parseCPSPacket_segments s h₂ ho₂
    obtain ⟨hlen, hb⟩ := segments_agree hs₁ hs₂
    exact ⟨segs₁, segs₂, hs₁, rfl, hs₂, rfl, flatten_length_of_forall₂ hlen, hlen, hb⟩

theorem parseCPSPacket_two_runs_a_second_apart :
    World.steady.EntropyUp ∧ World.oneSecondLater.EntropyUp ∧
      ((parseCPSPacket "<b c0ffee><t>").run World.steady).1 =
        .ok ([0xc0, 0xff, 0xee] ++ timestampBytes World.steady.clock.head.toTime) ∧
      ((parseCPSPacket "<b c0ffee><t>").run World.oneSecondLater).1 =
        .ok ([0xc0, 0xff, 0xee] ++ timestampBytes World.oneSecondLater.clock.head.toTime) ∧
      timestampBytes World.steady.clock.head.toTime ≠
        timestampBytes World.oneSecondLater.clock.head.toTime ∧
      ∃ segs₁ segs₂,
        Segments World.steady.clock (findAllStringSubmatch "<b c0ffee><t>".toList) segs₁ ∧
        [0xc0, 0xff, 0xee] ++ timestampBytes World.steady.clock.head.toTime = segs₁.flatten ∧
        Segments World.oneSecondLater.clock (findAllStringSubmatch "<b c0ffee><t>".toList) segs₂ ∧
        [0xc0, 0xff, 0xee] ++ timestampBytes World.oneSecondLater.clock.head.toTime =
          segs₂.flatten ∧
        ([0xc0, 0xff, 0xee] ++ timestampBytes World.steady.clock.head.toTime).length =
          ([0xc0, 0xff, 0xee] ++ timestampBytes World.oneSecondLater.clock.head.toTime).length ∧
        List.Forall₂ (fun a b => a.length = b.length) segs₁ segs₂ ∧
        ∀ (i : Nat) (m : TagMatch), (findAllStringSubmatch "<b c0ffee><t>".toList)[i]? = some m →
          m.tag = 'b' → segs₁[i]? = segs₂[i]? :=
  have h₁ : ((parseCPSPacket "<b c0ffee><t>").run World.steady).1 =
      .ok ([0xc0, 0xff, 0xee] ++ timestampBytes World.steady.clock.head.toTime) := by decide
  have h₂ : ((parseCPSPacket "<b c0ffee><t>").run World.oneSecondLater).1 =
      .ok ([0xc0, 0xff, 0xee] ++ timestampBytes World.oneSecondLater.clock.head.toTime) := by decide
  ⟨World.steady_entropyUp, World.oneSecondLater_entropyUp, h₁, h₂, by decide,
    (parseCPSPacket_two_runs "<b c0ffee><t>" World.steady_entropyUp
      World.oneSecondLater_entropyUp).2 _ _ h₁ h₂⟩

/-! ## Which templates fail -/

theorem isDigit_toNat {c : Char} (h : c.isDigit) : 48 ≤ c.toNat ∧ c.toNat ≤ 57 := by
  simp only [Char.isDigit, Bool.and_eq_true, decide_eq_true_eq] at h
  exact ⟨h.1, h.2⟩

theorem AtoiAccepts.not_space {D : List Char} (h : AtoiAccepts D) :
    ∀ c ∈ D, isSpace c = false ∧ isRegexSpace c = false ∧ c ≠ '>' := by
  intro c hc
  rcases h.chars c hc with rfl | rfl | hd
  · decide
  · decide
  · have := isDigit_toNat hd
    refine ⟨by simp [isSpace]; omega, ?_, by rintro rfl; simp at this⟩
    simp only [isRegexSpace, Bool.or_eq_false_iff, decide_eq_false_iff_not]
    refine ⟨⟨⟨⟨?_, ?_⟩, ?_⟩, ?_⟩, ?_⟩ <;> rintro rfl <;> simp at this

/-- A template of one tag whose data holds no `>` and no leading space holds one match, whose
data is that data. -/
theorem findAllStringSubmatch_tag {c : Char} (hc : isTagLetter c = true) {D : List Char}
    (hD : ∀ x ∈ D, isRegexSpace x = false ∧ x ≠ '>') :
    findAllStringSubmatch ('<' :: c :: ' ' :: (D ++ ['>'])) = [⟨c, D⟩] := by
  have hclose : '>' ∉ ' ' :: D := by
    simp only [List.mem_cons, not_or]; exact ⟨by decide, fun hm => (hD _ hm).2 rfl⟩
  have hdrop : D.dropWhile isRegexSpace = D := by
    cases D with
    | nil => rfl
    | cons x rest => simp [(hD x (List.mem_cons_self x rest)).1]
  have hm : matchTag ('<' :: c :: ' ' :: (D ++ ['>'])) = some (⟨c, D⟩, []) := by
    have := splitClose_of_not_mem hclose []
    simp only [List.cons_append] at this
    simp [matchTag, hc, this, isRegexSpace, hdrop]
  simp [findAllStringSubmatch, findAllAux, hm, findAllAux_nil]

theorem findAllStringSubmatch_rTag {D : List Char} (h : AtoiAccepts D) :
    findAllStringSubmatch ('<' :: 'r' :: ' ' :: (D ++ ['>'])) = [⟨'r', D⟩] :=
  findAllStringSubmatch_tag (c := 'r') rfl fun x hx => (h.not_space x hx).2

/-- In a world whose `rand.Read` never errs, a template fails to parse exactly when one of its
tags is a `<b>` whose payload (trimmed, without one leading `0x` or `0X`, without its space
characters) is no even-length string of hex digits, or a non-blank `<r>` whose trimmed data is no
signed decimal in the `int` range; and `<r N>` for every such decimal `N` parses to exactly
`min (max N 0) 1000` bytes. -/
theorem parseCPSPacket_error_iff (s : String) {w : World} (hw : w.EntropyUp) :
    ((∃ e, ((parseCPSPacket s).run w).1 = .error e) ↔
        ∃ m ∈ findAllStringSubmatch s.toList, BadTag m) ∧
      ∀ D : List Char, AtoiAccepts D →
        ∃ out, ((parseCPSPacket ⟨'<' :: 'r' :: ' ' :: (D ++ ['>'])⟩).run w).1 = .ok out ∧
          (out.length : Int) = min (max (atoiValue D) 0) 1000 := by
  refine ⟨parseCPSPacket_error_iff_badTag s hw, fun D hD => ?_⟩
  have htrim : trimSpace D = D := trimSpace_of_forall fun c hc => (hD.not_space c hc).1
  have hne : D ≠ [] := fun h => hD.1 (by rw [h]; rfl)
  have hmatch := findAllStringSubmatch_rTag hD
  have hgood :
      ¬ ∃ m ∈ findAllStringSubmatch (String.toList ⟨'<' :: 'r' :: ' ' :: (D ++ ['>'])⟩),
        BadTag m := by
    simp [String.toList, hmatch, BadTag, htrim, hD]
  obtain ⟨out, hout⟩ := ok_iff_not_error.2 ((parseCPSPacket_error_iff_badTag _ hw).not.2 hgood)
  obtain ⟨segs, hsegs, rfl⟩ := parseCPSPacket_segments _ hw hout
  simp only [String.toList, hmatch] at hsegs
  rcases hsegs with _ | ⟨hseg, hnil⟩
  cases hnil
  refine ⟨_, hout, ?_⟩
  simpa [Segment, htrim, randomCount, hne] using hseg

theorem parseCPSPacket_error_iff_on_steady :
    World.steady.EntropyUp ∧ AtoiAccepts ['4', '2'] ∧
      ∃ out,
        ((parseCPSPacket ⟨'<' :: 'r' :: ' ' :: (['4', '2'] ++ ['>'])⟩).run World.steady).1 =
          .ok out ∧ (out.length : Int) = min (max (atoiValue ['4', '2']) 0) 1000 := by
  have hacc : AtoiAccepts ['4', '2'] := by
    unfold AtoiAccepts atoiValue; decide
  exact ⟨World.steady_entropyUp, hacc,
    (parseCPSPacket_error_iff "" World.steady_entropyUp).2 ['4', '2'] hacc⟩

/-- A tab inside a `<b>` payload is not removed, so the parse fails although the payload with
every whitespace character deleted is valid hex; and a decimal length past the `int` range
fails in `Atoi`. -/
theorem parseCPSPacket_rejects_tab_and_overflow :
    ((parseCPSPacket "<b c0\tff>").run World.steady).1 = .error (.invalidHex (.invalidByte 9)) ∧
      findAllStringSubmatch "<b c0\tff>".toList = [⟨'b', "c0\tff".toList⟩] ∧
      hexDecode ((stripHexPrefix (trimSpace "c0\tff".toList)).filter (fun c => !isSpace c)) =
        .ok [0xc0, 0xff] ∧
      ((parseCPSPacket "<r 99999999999999999999>").run World.steady).1 =
        .error (.invalidLength ⟨"99999999999999999999", .outOfRange⟩) := by
  refine ⟨by decide, by decide, by decide, by decide⟩

/-! ## Which error a failing parse returns -/

/-- The error a tag that does not resolve is reported with, read off its trimmed data: the hex
error of a `<b>` payload behind "invalid hex data in <b> tag", the `Atoi` error of a non-blank `<r>`
count behind "invalid length in <r> tag". -/
def TagError (m : TagMatch) (e : CPSError) : Prop :=
  (m.tag = 'b' ∧ ∃ he, hexDecode (hexPayload (trimSpace m.data)) = .error he ∧ e = .invalidHex he) ∨
    (m.tag = 'r' ∧ trimSpace m.data ≠ [] ∧
      ∃ ne, atoi (trimSpace m.data) = .error ne ∧ e = .invalidLength ne)

theorem resolveTag_of_tagError {m : TagMatch} {e : CPSError} (h : TagError m e) (w : World) :
    (resolveTag m).run w = (.error e, w) := by
  rcases h with ⟨hb, he, hd, rfl⟩ | ⟨hr, hne, ne, ha, rfl⟩
  · have hne : trimSpace m.data ≠ [] := by
      rintro h0; rw [h0] at hd; cases hd
    simp [resolveTag, hb, hne, hd]
  · have hl : randomLength (trimSpace m.data) = .error (.invalidLength ne) := by
      rw [randomLength, if_neg hne, ha]
    simp [resolveTag, hr, hl]

theorem BadTag.exists_tagError {m : TagMatch} (h : BadTag m) : ∃ e, TagError m e := by
  rcases h with ⟨hb, hbad⟩ | ⟨hr, hne, hacc⟩
  · rcases hd : hexDecode (hexPayload (trimSpace m.data)) with he | bs
    · exact ⟨_, .inl ⟨hb, he, hd, rfl⟩⟩
    · exact absurd ((hexDecode_ok_iff _).1 ⟨bs, hd⟩) hbad
  · rcases ha : atoi (trimSpace m.data) with ne | n
    · exact ⟨_, .inr ⟨hr, hne, ne, ha, rfl⟩⟩
    · exact absurd (atoi_eq_ok_iff.1 ha).1 hacc

theorem resolveTag_eq_error (m : TagMatch) {w : World} (hw : w.EntropyUp) (e : CPSError) :
    ((resolveTag m).run w).1 = .error e ↔ TagError m e := by
  refine ⟨fun h => ?_, fun h => by rw [resolveTag_of_tagError h]⟩
  have hbad : BadTag m := by
    have := (resolveTag_spec m hw).2.2
    rw [h] at this
    exact this
  obtain ⟨e', he'⟩ := hbad.exists_tagError
  rw [resolveTag_of_tagError he'] at h
  cases h
  exact he'

theorem exists_first_cons {P Q : TagMatch → Prop} {m : TagMatch} {ms : List TagMatch} :
    (∃ pre m' post, m :: ms = pre ++ m' :: post ∧ (∀ x ∈ pre, P x) ∧ Q m') ↔
      Q m ∨ (P m ∧ ∃ pre m' post, ms = pre ++ m' :: post ∧ (∀ x ∈ pre, P x) ∧ Q m') := by
  constructor
  · rintro ⟨_ | ⟨x, pre⟩, m', post, heq, hp, hq⟩
    · cases heq; exact .inl hq
    · cases heq
      obtain ⟨hx, hpre⟩ := List.forall_mem_cons.1 hp
      exact .inr ⟨hx, pre, m', post, rfl, hpre, hq⟩
  · rintro (hq | ⟨hp, pre, m', post, rfl, hpre, hq⟩)
    · exact ⟨[], m, ms, rfl, List.forall_mem_nil _, hq⟩
    · exact ⟨m :: pre, m', post, rfl, List.forall_mem_cons.2 ⟨hp, hpre⟩, hq⟩

theorem cpsLoop_eq_error (ms : List TagMatch) (acc : Bytes) {w : World} (hw : w.EntropyUp)
    (e : CPSError) :
    ((cpsLoop ms acc).run w).1 = .error e ↔
      ∃ pre m post, ms = pre ++ m :: post ∧ (∀ x ∈ pre, ¬ BadTag x) ∧ TagError m e := by
  induction ms generalizing acc w with
  | nil => exact iff_of_false (fun h => by cases h) fun ⟨pre, _, _, h, _⟩ => by cases pre <;> cases h
  | cons m ms ih =>
    rw [cpsLoop_cons_run, exists_first_cons, ← resolveTag_eq_error m hw]
    have hm := resolveTag_spec m hw
    rcases hr : (resolveTag m).run w with ⟨_ | seg, w₁⟩ <;> rw [hr] at hm
    · have hbad : BadTag m := hm.2.2
      simp only [hbad, not_true_eq_false, false_and, or_false]
    · obtain ⟨hw₁, -, -, hgood⟩ := hm
      simp only [ih _ hw₁, hgood, not_false_eq_true, true_and, reduceCtorEq, false_or]

/-- In a world whose `rand.Read` never errs, a parse that fails returns the error of its first tag
that does not resolve, every tag before it resolving: the hex error of a `<b>` payload behind
"invalid hex data in <b> tag", or the `Atoi` error of a non-blank `<r>` count behind "invalid
length in <r> tag". -/
theorem parseCPSPacket_eq_error (s : String) {w : World} (hw : w.EntropyUp) (e : CPSError) :
    ((parseCPSPacket s).run w).1 = .error e ↔
      ∃ pre m post, findAllStringSubmatch s.toList = pre ++ m :: post ∧
        (∀ x ∈ pre, ¬ BadTag x) ∧ TagError m e := by
  rw [parseCPSPacket_run]
  exact cpsLoop_eq_error _ [] hw e

theorem parseCPSPacket_eq_error_on_steady :
    World.steady.EntropyUp ∧
      (((parseCPSPacket "<c><b 0g>").run World.steady).1 = .error (.invalidHex (.invalidByte 103)) ↔
        ∃ pre m post, findAllStringSubmatch "<c><b 0g>".toList = pre ++ m :: post ∧
          (∀ x ∈ pre, ¬ BadTag x) ∧ TagError m (.invalidHex (.invalidByte 103))) :=
  ⟨World.steady_entropyUp, parseCPSPacket_eq_error _ World.steady_entropyUp _⟩

/-! ## Concatenation -/

theorem string_toList_append (s t : String) : (s ++ t).toList = s.toList ++ t.toList := by
  simp

/-- When every `<` of `s` is closed within `s`, parsing `s ++ t` parses `s`, then, in the
environment `s` left, `t`: it fails with `s`'s error, else with `t`'s, else returns the two
outputs concatenated. -/
theorem parseCPSPacket_append (s t : String) (hs : Closed s.toList) (w : World) :
    (parseCPSPacket (s ++ t)).run w =
      match (parseCPSPacket s).run w with
      | (.error e, w₁) => (.error e, w₁)
      | (.ok a, w₁) =>
        match (parseCPSPacket t).run w₁ with
        | (.error e, w₂) => (.error e, w₂)
        | (.ok b, w₂) => (.ok (a ++ b), w₂) := by
  simp only [parseCPSPacket_run]
  rw [string_toList_append, findAllStringSubmatch_append hs, cpsLoop_append]
  rcases (cpsLoop (findAllStringSubmatch s.toList) []).run w with ⟨_ | a, w₁⟩
  · rfl
  · show (cpsLoop (findAllStringSubmatch t.toList) a).run w₁ =
      match (cpsLoop (findAllStringSubmatch t.toList) []).run w₁ with
      | (.error e, w₂) => (.error e, w₂)
      | (.ok b, w₂) => (.ok (a ++ b), w₂)
    rw [cpsLoop_acc]
    rcases (cpsLoop (findAllStringSubmatch t.toList) []).run w₁ with ⟨_ | b, w₂⟩ <;> rfl

theorem parseCPSPacket_append_on_steady :
    Closed "<b c0>".toList ∧
      (parseCPSPacket ("<b c0>" ++ "<t>")).run World.steady =
        match (parseCPSPacket "<b c0>").run World.steady with
        | (.error e, w₁) => (.error e, w₁)
        | (.ok a, w₁) =>
          match (parseCPSPacket "<t>").run w₁ with
          | (.error e, w₂) => (.error e, w₂)
          | (.ok b, w₂) => (.ok (a ++ b), w₂) :=
  ⟨by decide, parseCPSPacket_append "<b c0>" "<t>" (by decide) World.steady⟩

/-! ## A `<b>` tag reads back the bytes it was written from -/

theorem hexDigitChar_class : ∀ n < 16, isHexDigit (hexDigitChar n) = true ∧
    isSpace (hexDigitChar n) = false ∧ isRegexSpace (hexDigitChar n) = false ∧
      hexDigitChar n ≠ '>' := by
  decide

theorem hexEncode_class (bs : Bytes) : ∀ c ∈ hexEncode bs, isHexDigit c = true ∧
    isSpace c = false ∧ isRegexSpace c = false ∧ c ≠ '>' := by
  induction bs with
  | nil => simp [hexEncode]
  | cons x bs ih =>
    have hx : x.toNat < 256 := x.val.isLt
    simp only [hexEncode_cons, List.mem_cons]
    rintro c (rfl | rfl | hc)
    · exact hexDigitChar_class _ (by omega)
    · exact hexDigitChar_class _ (by omega)
    · exact ih c hc

theorem hexPayload_of_hexDigits {s : List Char} (h : ∀ c ∈ s, isHexDigit c = true) :
    hexPayload s = s := by
  have hstrip : stripHexPrefix s = s := by
    unfold stripHexPrefix
    split
    · exact absurd (h 'x' (by simp)) (by decide)
    · exact absurd (h 'X' (by simp)) (by decide)
    · rfl
  rw [hexPayload, hstrip, List.filter_eq_self]
  rintro c hc
  have := h c hc
  simp only [ne_eq, decide_eq_true_eq]
  rintro rfl
  exact absurd this (by decide)

theorem resolveTag_hexEncode (bs : Bytes) (w : World) :
    (resolveTag ⟨'b', hexEncode bs⟩).run w = (.ok bs, w) := by
  have hc := hexEncode_class bs
  have htrim : trimSpace (hexEncode bs) = hexEncode bs :=
    trimSpace_of_forall fun x hx => (hc x hx).2.1
  have hpay : hexPayload (hexEncode bs) = hexEncode bs :=
    hexPayload_of_hexDigits fun x hx => (hc x hx).1
  rcases bs with _ | ⟨x, bs⟩
  · rfl
  · have hne : hexEncode (x :: bs) ≠ [] := by simp
    dsimp only [resolveTag]
    simp only [htrim, hpay, hne, hexDecode_hexEncode, if_true, if_false]
    rfl

/-- The template `<b ...>` holding the hex digits of `bs`. -/
def hexTag (bs : Bytes) : String := ⟨'<' :: 'b' :: ' ' :: (hexEncode bs ++ ['>'])⟩

/-- Every byte string, written in hex in a `<b>` tag, parses back to itself in every world, and the
parse reads neither the clock nor `crypto/rand`. -/
theorem parseCPSPacket_hexTag (bs : Bytes) (w : World) :
    (parseCPSPacket (hexTag bs)).run w = (.ok bs, w) := by
  have hm : findAllStringSubmatch (hexTag bs).toList = [⟨'b', hexEncode bs⟩] :=
    findAllStringSubmatch_tag (c := 'b') rfl fun x hx => (hexEncode_class bs x hx).2.2
  rw [parseCPSPacket_run, hm, cpsLoop_cons_run, resolveTag_hexEncode]
  rfl

end PreflightBind
