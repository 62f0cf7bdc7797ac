import PreflightBind.CPS.Regex

/-!
# What the tag pattern matches

`CPS.Regex` writes the search for `<([btcr])\s*([^>]*)>` as a program: an anchored match at each
position, tried left to right. This module says what Go's `regexp` package promises for that call
and proves the program keeps the promise, so that every result about `parseCPSPacket` is a result
about the regular expression and not only about our scan.

A text matches the pattern when it is `<`, a tag letter, a run of spaces for `\s*`, a text without
`>` for `[^>]*`, and `>`. One match text can be read in several ways, since `[^>]*` also takes
spaces; leftmost-first semantics tries the greedy `\s*` first, so the reported reading is the one
whose `\s*` is longest. `FindAllStringSubmatch` reports successive non-overlapping matches, each the
leftmost one after the last.
-/

namespace PreflightBind

/-- `x` read as the pattern: tag letter `c`, `\s*` matching `w` and `[^>]*` matching `d`. -/
def PatternParse (x : List Char) (c : Char) (w d : List Char) : Prop :=
  x = '<' :: c :: (w ++ d ++ ['>']) ∧ isTagLetter c = true ∧
    (∀ a ∈ w, isRegexSpace a = true) ∧ '>' ∉ d

/-- The submatches Go reports for the match text `x`: its reading with the longest `\s*`. -/
def Submatch (x : List Char) (m : TagMatch) : Prop :=
  ∃ w, PatternParse x m.tag w m.data ∧ ∀ w' d', PatternParse x m.tag w' d' → w'.length ≤ w.length

/-- A match of the pattern begins at the head of `t`. -/
def MatchAt (t : List Char) : Prop := ∃ x c w d, x <+: t ∧ PatternParse x c w d

/-- `FindAllStringSubmatch(s, -1)` for the tag pattern, as the `regexp` package describes it: the
text is gaps and matches in turn, no match begins inside a gap, so that each match is the leftmost
one after the last, and each match reports its submatches. -/
inductive AllMatches : List Char → List TagMatch → Prop
  /-- No match begins anywhere in the rest of the text. -/
  | last {s : List Char} : (∀ t, t <:+ s → ¬ MatchAt t) → AllMatches s []
  /-- A gap in which no match begins, then the match `x`. -/
  | next {gap x rest : List Char} {m : TagMatch} {ms : List TagMatch} :
      (∀ t, t <:+ gap → t ≠ [] → ¬ MatchAt (t ++ x ++ rest)) → Submatch x m →
      AllMatches rest ms → AllMatches (gap ++ x ++ rest) (m :: ms)

/-! ## One anchored match -/

theorem not_matchAt_nil : ¬ MatchAt [] := by
  rintro ⟨x, c, w, d, hx, hp, -⟩
  rw [List.prefix_nil.1 hx] at hp
  cases hp

/-- The anchored match finds every reading: it stops at the `>` that ends it. -/
theorem matchTag_of_parse {x w d : List Char} {c : Char} (hp : PatternParse x c w d)
    (after : List Char) :
    matchTag (x ++ after) = some (⟨c, (w ++ d).dropWhile isRegexSpace⟩, after) := by
  obtain ⟨rfl, hc, hw, hd⟩ := hp
  have hbody : '>' ∉ w ++ d := by
    rw [List.mem_append, not_or]
    exact ⟨fun h => by simpa [isRegexSpace] using hw _ h, hd⟩
  have hsplit := splitClose_of_not_mem hbody after
  simp only [List.append_assoc, List.singleton_append] at hsplit
  simp only [List.cons_append, List.append_assoc, List.singleton_append, List.nil_append, matchTag,
    hc, if_true, hsplit, Option.map_some']

theorem Submatch.dropWhile_eq {x : List Char} {m : TagMatch} {w : List Char}
    (hp : PatternParse x m.tag w m.data)
    (hmax : ∀ w' d', PatternParse x m.tag w' d' → w'.length ≤ w.length) :
    (w ++ m.data).dropWhile isRegexSpace = m.data := by
  rw [List.dropWhile_append_of_pos hp.2.2.1]
  rcases hdata : m.data with _ | ⟨a, d⟩
  · rfl
  · have ha : isRegexSpace a = false := by
      by_contra ha
      have hp' : PatternParse x m.tag (w ++ [a]) d := by
        obtain ⟨hx, hc, hw, hd⟩ := hp
        refine ⟨by simp [hx, hdata], hc, ?_, fun h => hd ?_⟩
        · intro b hb
          rcases List.mem_append.1 hb with hb | hb
          · exact hw b hb
          · rw [List.mem_singleton.1 hb]; simpa using ha
        · rw [hdata]; exact List.mem_cons_of_mem a h
      simpa using hmax _ _ hp'
    exact List.dropWhile_cons_of_neg (by simpa using ha)

/-- The anchored match returns exactly the reported reading of the match at the head. -/
theorem matchTag_eq_some_iff {t after : List Char} {m : TagMatch} :
    matchTag t = some (m, after) ↔ ∃ x, t = x ++ after ∧ Submatch x m := by
  constructor
  · intro h
    obtain ⟨body, rfl, hc, hdata, hbody⟩ := matchTag_eq_some h
    refine ⟨'<' :: m.tag :: (body ++ ['>']), by simp, body.takeWhile isRegexSpace, ?_, ?_⟩
    · refine ⟨by rw [hdata, List.takeWhile_append_dropWhile], hc,
        fun a ha => List.mem_takeWhile_imp ha, ?_⟩
      rw [hdata]; exact fun h => hbody ((List.dropWhile_suffix _).subset h)
    · rintro w' d' ⟨hx, -, hw', -⟩
      have hx' : body ++ ['>'] = w' ++ d' ++ ['>'] := by simpa using hx
      have hbody' : body = w' ++ d' := List.append_cancel_right hx'
      rw [hbody', List.takeWhile_append_of_pos hw', List.length_append]
      exact Nat.le_add_right _ _
  · rintro ⟨x, rfl, w, hp, hmax⟩
    rw [matchTag_of_parse hp, Submatch.dropWhile_eq hp hmax]

theorem matchTag_eq_none_iff {t : List Char} : matchTag t = none ↔ ¬ MatchAt t := by
  constructor
  · rintro h ⟨x, c, w, d, ⟨after, rfl⟩, hp⟩
    rw [matchTag_of_parse hp] at h
    cases h
  · intro h
    cases hm : matchTag t with
    | none => rfl
    | some p =>
      obtain ⟨x, rfl, w, hp, -⟩ := matchTag_eq_some_iff.1 hm
      exact absurd ⟨x, _, w, _, List.prefix_append x _, hp⟩ h

/-! ## The scan -/

theorem findAllStringSubmatch_cons (c : Char) (rest : List Char) :
    findAllStringSubmatch (c :: rest) =
      match matchTag (c :: rest) with
      | some (m, after) => m :: findAllStringSubmatch after
      | none => findAllStringSubmatch rest := by
  unfold findAllStringSubmatch
  rw [List.length_cons, findAllAux]
  cases h : matchTag (c :: rest) with
  | none => rfl
  | some p =>
    obtain ⟨m, after⟩ := p
    have := matchTag_length h
    simp only [List.length_cons] at this
    exact congrArg (m :: ·) (findAllAux_fuel (by omega) le_rfl)

theorem AllMatches.skip {c : Char} {s : List Char} {ms : List TagMatch} (h : AllMatches s ms)
    (hc : ¬ MatchAt (c :: s)) : AllMatches (c :: s) ms := by
  cases h with
  | last h =>
    refine .last fun t ht => ?_
    rcases List.suffix_cons_iff.1 ht with rfl | ht
    exacts [hc, h t ht]
  | @next gap x rest m ms hgap hsub hrest =>
    refine @AllMatches.next (c :: gap) x rest m ms (fun t ht hne => ?_) hsub hrest
    rcases List.suffix_cons_iff.1 ht with rfl | ht
    exacts [hc, hgap t ht hne]

/-- What the scan reports meets the pattern's semantics. -/
theorem allMatches_findAllStringSubmatch :
    ∀ (n : Nat) (s : List Char), s.length ≤ n → AllMatches s (findAllStringSubmatch s)
  | _, [], _ => .last fun t ht => List.suffix_nil.1 ht ▸ not_matchAt_nil
  | 0, _ :: _, hn => absurd hn (by simp)
  | n + 1, c :: rest, hn => by
    rw [findAllStringSubmatch_cons]
    cases hm : matchTag (c :: rest) with
    | none =>
      exact (allMatches_findAllStringSubmatch n rest (by simpa using hn)).skip
        (matchTag_eq_none_iff.1 hm)
    | some p =>
      obtain ⟨m, after⟩ := p
      obtain ⟨x, hx, hsub⟩ := matchTag_eq_some_iff.1 hm
      have hlen := matchTag_length hm
      rw [hx]
      exact @AllMatches.next [] x after m _ (fun t ht hne => absurd (List.suffix_nil.1 ht) hne)
        hsub (allMatches_findAllStringSubmatch n after (by simp at hn hlen; omega))

theorem findAllStringSubmatch_of_noMatch {s : List Char} (h : ∀ t, t <:+ s → ¬ MatchAt t) :
    findAllStringSubmatch s = [] := by
  induction s with
  | nil => rfl
  | cons c rest ih =>
    rw [findAllStringSubmatch_cons, matchTag_eq_none_iff.2 (h _ List.suffix_rfl)]
    exact ih fun t ht => h t (ht.trans (List.suffix_cons c rest))

theorem findAllStringSubmatch_gap {gap y : List Char}
    (h : ∀ t, t <:+ gap → t ≠ [] → ¬ MatchAt (t ++ y)) :
    findAllStringSubmatch (gap ++ y) = findAllStringSubmatch y := by
  induction gap with
  | nil => rfl
  | cons c g ih =>
    have hc : matchTag (c :: (g ++ y)) = none :=
      matchTag_eq_none_iff.2 (h _ List.suffix_rfl (List.cons_ne_nil c g))
    rw [List.cons_append, findAllStringSubmatch_cons, hc]
    exact ih fun t ht => h t (ht.trans (List.suffix_cons c g))

theorem findAllStringSubmatch_of_matchTag {t after : List Char} {m : TagMatch}
    (h : matchTag t = some (m, after)) :
    findAllStringSubmatch t = m :: findAllStringSubmatch after := by
  cases t with
  | nil => cases h
  | cons c rest => simp only [findAllStringSubmatch_cons, h]

theorem findAllStringSubmatch_of_allMatches {s : List Char} {ms : List TagMatch}
    (h : AllMatches s ms) : findAllStringSubmatch s = ms := by
  induction h with
  | last h => exact findAllStringSubmatch_of_noMatch h
  | @next gap x rest m ms hgap hsub _ ih =>
    rw [List.append_assoc, findAllStringSubmatch_gap fun t ht hne => by
      simpa only [List.append_assoc] using hgap t ht hne,
      findAllStringSubmatch_of_matchTag (matchTag_eq_some_iff.2 ⟨x, rfl, hsub⟩), ih]

/-- The scan of `CPS.Regex` is Go's `FindAllStringSubmatch` for the tag pattern: on every text it
returns exactly the successive leftmost matches, each with the submatches of its greedy reading. -/
theorem findAllStringSubmatch_eq_iff (s : List Char) (ms : List TagMatch) :
    findAllStringSubmatch s = ms ↔ AllMatches s ms :=
  ⟨fun h => h ▸ allMatches_findAllStringSubmatch _ s le_rfl, findAllStringSubmatch_of_allMatches⟩

end PreflightBind
