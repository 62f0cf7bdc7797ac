import PreflightBind.Go.Strings

/-!
# The tag pattern of the template language

`parseCPSPacket` finds its tags with `regexp.MustCompile("<([btcr])\\s*([^>]*)>")` and
`FindAllStringSubmatch(cps, -1)`. A match of this pattern is decided at its `<`: `[^>]*` cannot
pass a `>`, so a match that starts there ends at the first `>` after the tag letter, and there is
one exactly when such a `>` exists. The scan below is Go's leftmost-first, non-overlapping search
with that anchored match.
-/

namespace PreflightBind

/-- One submatch: the tag letter (group 1) and the text of group 2. -/
structure TagMatch where
  tag : Char
  data : List Char
deriving DecidableEq, Repr

/-- RE2's `\s`: tab, newline, form feed, carriage return and space. -/
def isRegexSpace (c : Char) : Bool :=
  c = ' ' || c = '\t' || c = '\n' || c = '\x0c' || c = '\r'

/-- `[btcr]`. -/
def isTagLetter (c : Char) : Bool := c = 'b' || c = 't' || c = 'c' || c = 'r'

/-- The text before the first `>` and the text after it, when there is a `>`. -/
def splitClose : List Char → Option (List Char × List Char)
  | [] => none
  | c :: rest =>
    if c = '>' then some ([], rest)
    else (splitClose rest).map fun p => (c :: p.1, p.2)

/-- The match of the tag pattern anchored at the head of `s`, with the text after it. `\s*` takes
the longest run of spaces, so group 2 is the rest of the text up to the `>`. -/
def matchTag : List Char → Option (TagMatch × List Char)
  | '<' :: c :: rest =>
    if isTagLetter c then
      (splitClose rest).map fun p => (⟨c, p.1.dropWhile isRegexSpace⟩, p.2)
    else none
  | _ => none

/-- The leftmost-first scan; `fuel` bounds the characters still to read. -/
def findAllAux : Nat → List Char → List TagMatch
  | 0, _ => []
  | _ + 1, [] => []
  | fuel + 1, c :: rest =>
    match matchTag (c :: rest) with
    | some (m, after) => m :: findAllAux fuel after
    | none => findAllAux fuel rest

/-- `tagRegex.FindAllStringSubmatch(s, -1)`. -/
def findAllStringSubmatch (s : List Char) : List TagMatch := findAllAux s.length s

/-- Every `<` of `s` is followed, later in `s`, by a `>`. -/
def Closed (s : List Char) : Prop := ∀ r, ('<' :: r) <:+ s → '>' ∈ r

theorem Closed.of_suffix {s s' : List Char} (h : Closed s) (hs : s' <:+ s) : Closed s' :=
  fun r hr => h r (hr.trans hs)

theorem closed_nil : Closed [] := fun r hr => by simpa using hr.length_le

theorem closed_cons {c : Char} {s : List Char} :
    Closed (c :: s) ↔ (c = '<' → '>' ∈ s) ∧ Closed s := by
  constructor
  · intro h
    exact ⟨by rintro rfl; exact h s List.suffix_rfl, h.of_suffix (List.suffix_cons c s)⟩
  · rintro ⟨hc, hs⟩ r hr
    rcases List.suffix_cons_iff.1 hr with heq | hr
    · cases heq; exact hc rfl
    · exact hs r hr

def decideClosed : (s : List Char) → Decidable (Closed s)
  | [] => isTrue closed_nil
  | c :: s =>
    have := decideClosed s
    decidable_of_iff ((c = '<' → '>' ∈ s) ∧ Closed s) closed_cons.symm

instance : DecidablePred Closed := decideClosed

theorem splitClose_eq_some {s body after : List Char} (h : splitClose s = some (body, after)) :
    s = body ++ '>' :: after ∧ '>' ∉ body := by
  induction s generalizing body after with
  | nil => cases h
  | cons c rest ih =>
    unfold splitClose at h
    split_ifs at h with hc
    · cases h; simp [hc]
    · obtain ⟨⟨body', after'⟩, hr, hp⟩ := Option.map_eq_some'.1 h
      cases hp
      obtain ⟨rfl, hb⟩ := ih hr
      simp [hb, Ne.symm hc]

theorem splitClose_of_not_mem {body : List Char} (h : '>' ∉ body) (after : List Char) :
    splitClose (body ++ '>' :: after) = some (body, after) := by
  induction body with
  | nil => simp [splitClose]
  | cons c rest ih =>
    have hc : c ≠ '>' := fun hc => h (hc ▸ List.mem_cons_self c rest)
    simp [splitClose, hc, ih (fun hm => h (List.mem_cons_of_mem c hm))]

theorem findAllAux_nil (n : Nat) : findAllAux n [] = [] := by cases n <;> rfl

theorem splitClose_append {s t : List Char} (h : '>' ∈ s) :
    splitClose (s ++ t) = (splitClose s).map fun p => (p.1, p.2 ++ t) := by
  induction s with
  | nil => cases h
  | cons c rest ih =>
    by_cases hc : c = '>'
    · simp [splitClose, hc]
    · have : '>' ∈ rest := by simpa [Ne.symm hc] using h
      simp [splitClose, hc, ih this, Option.map_map, Function.comp_def]

/-- What an anchored match consumed: `<`, the letter, the text before the first `>`, and
the `>`. -/
theorem matchTag_eq_some {s after : List Char} {m : TagMatch} (h : matchTag s = some (m, after)) :
    ∃ body, s = '<' :: m.tag :: (body ++ '>' :: after) ∧ isTagLetter m.tag ∧
      m.data = body.dropWhile isRegexSpace ∧ '>' ∉ body := by
  unfold matchTag at h
  split at h
  · split_ifs at h with hc
    obtain ⟨⟨body, after'⟩, hsp, hp⟩ := Option.map_eq_some'.1 h
    cases hp
    obtain ⟨rfl, hb⟩ := splitClose_eq_some hsp
    exact ⟨body, rfl, hc, rfl, hb⟩
  · cases h

theorem matchTag_length {s after : List Char} {m : TagMatch} (h : matchTag s = some (m, after)) :
    after.length < s.length := by
  obtain ⟨body, rfl, -⟩ := matchTag_eq_some h
  simp; omega

theorem matchTag_append {s : List Char} (hs : Closed s) (t : List Char) (hne : s ≠ []) :
    matchTag (s ++ t) = (matchTag s).map fun p => (p.1, p.2 ++ t) := by
  obtain ⟨c, rest, rfl⟩ := List.exists_cons_of_ne_nil hne
  by_cases hc : c = '<'
  · subst hc
    have hr : '>' ∈ rest := hs rest List.suffix_rfl
    obtain ⟨c', rest', rfl⟩ := List.exists_cons_of_ne_nil (List.ne_nil_of_mem hr)
    by_cases hl : isTagLetter c'
    · have hc' : c' ≠ '>' := by rintro rfl; simp [isTagLetter] at hl
      have : '>' ∈ rest' := by simpa [Ne.symm hc'] using hr
      simp [matchTag, hl, splitClose_append this, Option.map_map, Function.comp_def]
    · simp [matchTag, hl]
  · cases rest <;> simp [matchTag, hc]

theorem findAllAux_fuel {n m : Nat} {s : List Char} (hn : s.length ≤ n) (hm : s.length ≤ m) :
    findAllAux n s = findAllAux m s := by
  induction n generalizing m s with
  | zero => cases s <;> cases m <;> simp_all [findAllAux]
  | succ n ih =>
    cases s with
    | nil => cases m <;> rfl
    | cons c rest =>
      obtain ⟨m, rfl⟩ := Nat.exists_eq_add_of_lt (show 0 < m by simp at hm; omega)
      simp only [List.length_cons, Nat.zero_add] at hn hm
      simp only [findAllAux, Nat.zero_add]
      split
      · rename_i m' after h
        have := matchTag_length h
        simp only [List.length_cons] at this
        rw [ih (m := m) (by omega) (by omega)]
      · exact ih (by omega) (by omega)

theorem findAllAux_append {s : List Char} (hs : Closed s) (t : List Char) {n : Nat}
    (hn : s.length + t.length ≤ n) :
    findAllAux n (s ++ t) = findAllAux n s ++ findAllAux n t := by
  induction n generalizing s with
  | zero => cases s <;> cases t <;> simp_all [findAllAux]
  | succ n ih =>
    cases s with
    | nil => rfl
    | cons c rest =>
      have ht : findAllAux (n + 1) t = findAllAux n t :=
        findAllAux_fuel (by simp at hn; omega) (by simp at hn; omega)
      rw [List.cons_append, findAllAux, ← List.cons_append, matchTag_append hs t (by simp), ht]
      cases hm : matchTag (c :: rest) with
      | none =>
        simp only [Option.map_none', findAllAux, hm]
        exact ih (hs.of_suffix (List.suffix_cons c rest)) (by simp at hn; omega)
      | some p =>
        obtain ⟨m, after⟩ := p
        have hlen := matchTag_length hm
        obtain ⟨body, heq, -⟩ := matchTag_eq_some hm
        have hsuf : after <:+ c :: rest := heq ▸ ⟨'<' :: m.tag :: body ++ ['>'], by simp⟩
        simp only [Option.map_some', findAllAux, hm, List.cons_append]
        rw [ih (hs.of_suffix hsuf) (by simp at hn hlen; omega)]

theorem findAllStringSubmatch_append {s : List Char} (hs : Closed s) (t : List Char) :
    findAllStringSubmatch (s ++ t) = findAllStringSubmatch s ++ findAllStringSubmatch t := by
  unfold findAllStringSubmatch
  rw [findAllAux_append hs t (by simp), findAllAux_fuel (n := (s ++ t).length) (by simp) le_rfl,
    findAllAux_fuel (s := t) (n := (s ++ t).length) (by simp) le_rfl]

end PreflightBind
