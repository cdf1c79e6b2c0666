import Mathlib.Tactic.ByContra
import Mathlib.Tactic.SplitIfs
import Rite.Text.Literal

/-!
# Literals can be read back

What `inspect` writes for a string or a symbol stands for that one and no other.  For strings there is
a reader, `Text.unescape`, that takes the escapes out again.  It does not know what is written where, it
goes by the backslashes alone: two hexadecimal digits behind an `x`, a letter with a meaning, and every
other character for itself.

Each character is written in one of four ways, and which of them depends on the character and on the one
behind it.  `Text.Spelling` lists the four with what is known in each case; what holds of a whole literal
is checked for them (`unescape_escapeChars`, `readsBack_escapeChars`).
-/

namespace Rite.Text

/-! ## Reading -/

/-- The value of an upper-case hexadecimal digit. -/
def hexDigit? (c : Char) : Option Nat :=
  if '0' ≤ c ∧ c ≤ '9' then some (c.toNat - '0'.toNat)
  else if 'A' ≤ c ∧ c ≤ 'F' then some (c.toNat - 'A'.toNat + 10)
  else none

/-- The character with the code that two hexadecimal digits give. -/
def hexChar? : List Char → Option Char
  | [high, low] => do return Char.ofNat (16 * (← hexDigit? high) + (← hexDigit? low))
  | _ => none

/-- What a letter stands for behind a backslash. -/
def letterMeaning? (letter : Char) : Option Char :=
  if letter = '"' || letter = '\\' || letter = '#' then some letter
  else if letter = 'n' then some '\n'
  else if letter = 't' then some '\t'
  else if letter = 'r' then some '\r'
  else if letter = 'a' then some '\x07'
  else if letter = 'b' then some '\x08'
  else if letter = 'v' then some '\x0b'
  else if letter = 'f' then some '\x0c'
  else if letter = 'e' then some '\x1b'
  else none

/-- The text that is left when the escapes are undone. -/
def unescape : List Char → Option (List Char)
  | [] => some []
  | '\\' :: 'x' :: high :: low :: rest => do return (← hexChar? [high, low]) :: (← unescape rest)
  | '\\' :: letter :: rest => do return (← letterMeaning? letter) :: (← unescape rest)
  | ['\\'] => none
  | c :: rest => do return c :: (← unescape rest)

/-- The characters that no backslash stands before, each with the character behind it. -/
def bare : List Char → List (Char × Option Char)
  | [] => []
  | '\\' :: _ :: rest => bare rest
  | c :: rest => (c, rest.head?) :: bare rest

/-- What stands between the quotes shows, does not end before the closing quote, starts no interpolation
and stands for `text`.  What would not show are the control characters, U+0000 to U+001F and U+007F to
U+009F, and what would start an interpolation is a `#` before a brace, a `$` or an `@`. -/
structure ReadsBack (body text : List Char) : Prop where
  shows : ∀ c ∈ body, 0x1F < c.toNat ∧ (c.toNat < 0x7F ∨ 0x9F < c.toNat)
  closed : ∀ next, ('"', next) ∉ bare body
  inert : ∀ next, ('#', next) ∈ bare body → next ∉ [some '\x7b', some '$', some '@']
  undone : unescape body = some text

theorem isControl_eq_false_iff {c : Char} :
    isControl c = false ↔ 0x1F < c.toNat ∧ (c.toNat < 0x7F ∨ 0x9F < c.toNat) := by
  simp only [isControl, Bool.or_eq_false_iff, Bool.and_eq_false_iff, decide_eq_false_iff_not]
  omega

theorem opensInterpolation_eq_false_iff {next : Option Char} :
    opensInterpolation next = false ↔ next ∉ [some '\x7b', some '$', some '@'] := by
  cases next with
  | none => simp [opensInterpolation]
  | some c => simp [opensInterpolation, and_assoc]

/-! ## Spellings -/

/-- How the character `c` is written before `next`. -/
inductive Spelling (next : Option Char) : Char → List Char → Prop
  | letter {c letter : Char} (hc : escapeLetter? c = some letter) : Spelling next c ['\\', letter]
  | interpolation : Spelling next '#' ['\\', '#']
  | hex {c high low : Char} (hc : hexChar? [high, low] = some c) : Spelling next c ['\\', 'x', high, low]
  | itself {c : Char} (hletter : escapeLetter? c = none) (hcontrol : isControl c = false)
      (hnext : c = '#' → opensInterpolation next = false) : Spelling next c [c]

theorem exists_digits_of_hexChar? {digits : List Char} {c : Char} (h : hexChar? digits = some c) :
    ∃ high low, digits = [high, low] := by
  unfold hexChar? at h
  split at h
  · exact ⟨_, _, rfl⟩
  · cases h

/-- Control characters have codes of two digits. -/
theorem hexChar?_upperHexByte {c : Char} (hc : isControl c = true) :
    hexChar? (upperHexByte c.toNat) = some c := by
  have hall : ∀ n < 160, hexChar? (upperHexByte n) = some (Char.ofNat n) := by decide +kernel
  have hcode : c.toNat < 160 := by
    simp only [isControl, Bool.or_eq_true, Bool.and_eq_true, decide_eq_true_eq] at hc
    omega
  rw [hall c.toNat hcode, Char.ofNat_toNat]

theorem spelling_escapeChar (c : Char) (next : Option Char) : Spelling next c (escapeChar c next) := by
  unfold escapeChar
  cases hletter : escapeLetter? c with
  | some letter => exact .letter hletter
  | none =>
    dsimp only
    split_ifs with hopens hcontrol
    · rw [Bool.and_eq_true, decide_eq_true_eq] at hopens
      rw [hopens.1]
      exact .interpolation
    · have hread := hexChar?_upperHexByte hcontrol
      obtain ⟨high, low, hdigits⟩ := exists_digits_of_hexChar? hread
      rw [hdigits] at hread ⊢
      exact .hex hread
    · refine .itself hletter (Bool.not_eq_true _ ▸ hcontrol) fun hc => ?_
      simpa [hc] using hopens

/-! ### What stands behind a backslash -/

/-- The characters that have a letter. -/
def lettered : List Char :=
  ['"', '\\', '\n', '\t', '\r', '\x07', '\x08', '\x0b', '\x0c', '\x1b']

theorem escapeLetter?_eq_none {c : Char} (hc : c ∉ lettered) : escapeLetter? c = none := by
  simp only [lettered, List.mem_cons, List.not_mem_nil, or_false, not_or] at hc
  simp only [escapeLetter?, hc, if_false]

theorem letter_reads {c letter : Char} (h : escapeLetter? c = some letter) :
    letterMeaning? letter = some c ∧ letter ≠ 'x' ∧ isControl letter = false := by
  have hall : (lettered.all fun c => (escapeLetter? c).all fun letter =>
      letterMeaning? letter = some c ∧ letter ≠ 'x' ∧ isControl letter = false) = true := by decide
  have hc : c ∈ lettered := by
    by_contra hc
    rw [escapeLetter?_eq_none hc] at h
    cases h
  have hletter := List.all_eq_true.mp hall c hc
  rw [h] at hletter
  exact of_decide_eq_true hletter

theorem plain_of_hexDigit? {c : Char} {n : Nat} (h : hexDigit? c = some n) :
    isControl c = false ∧ c ≠ '"' ∧ c ≠ '#' ∧ c ≠ '\\' := by
  have hrange : 48 ≤ c.toNat ∧ c.toNat ≤ 57 ∨ 65 ≤ c.toNat ∧ c.toNat ≤ 70 := by
    unfold hexDigit? at h
    split_ifs at h with hdigit hletter
    · exact .inl hdigit
    · exact .inr hletter
  refine ⟨?_, ?_, ?_, ?_⟩
  · simp only [isControl, Bool.or_eq_false_iff, Bool.and_eq_false_iff, decide_eq_false_iff_not]
    omega
  all_goals
    rintro rfl
    revert hrange
    decide

theorem digits_of_hexChar? {c high low : Char} (h : hexChar? [high, low] = some c) :
    (∃ n, hexDigit? high = some n) ∧ ∃ n, hexDigit? low = some n := by
  obtain ⟨m, hm, hrest⟩ := Option.bind_eq_some_iff.mp h
  obtain ⟨n, hn, _⟩ := Option.bind_eq_some_iff.mp hrest
  exact ⟨⟨m, hm⟩, n, hn⟩

theorem ne_of_escapeLetter?_eq_none {c : Char} (h : escapeLetter? c = none) : c ≠ '"' ∧ c ≠ '\\' := by
  constructor <;> (rintro rfl; revert h; decide)

/-! ## Literals of strings -/

theorem unescape_letter {letter : Char} (hx : letter ≠ 'x') (rest : List Char) :
    unescape ('\\' :: letter :: rest) = do return (← letterMeaning? letter) :: (← unescape rest) := by
  rw [unescape]
  simp [hx]

theorem unescape_itself {c : Char} (hc : c ≠ '\\') (rest : List Char) :
    unescape (c :: rest) = do return c :: (← unescape rest) := by
  rw [unescape] <;> simp [hc]

theorem bare_itself {c : Char} (hc : c ≠ '\\') (rest : List Char) :
    bare (c :: rest) = (c, rest.head?) :: bare rest := by
  rw [bare]
  simp [hc]

variable {c : Char} {next : Option Char} {spelled body text : List Char}

theorem Spelling.shows (h : Spelling next c spelled) : ∀ d ∈ spelled, isControl d = false := by
  have hmarks : isControl '\\' = false ∧ isControl '#' = false ∧ isControl 'x' = false := by decide
  cases h with
  | letter hc => simp [hmarks, (letter_reads hc).2.2]
  | interpolation => simp [hmarks]
  | hex hc =>
    obtain ⟨⟨_, hhigh⟩, _, hlow⟩ := digits_of_hexChar? hc
    simp [hmarks, plain_of_hexDigit? hhigh, plain_of_hexDigit? hlow]
  | itself _ hcontrol _ => simp [hcontrol]

theorem Spelling.unescape_append (h : Spelling next c spelled) (hbody : unescape body = some text) :
    unescape (spelled ++ body) = some (c :: text) := by
  cases h with
  | letter hc =>
    obtain ⟨hmeaning, hx, _⟩ := letter_reads hc
    show unescape ('\\' :: _ :: body) = _
    rw [unescape_letter hx, hmeaning, hbody]
    rfl
  | interpolation =>
    show unescape ('\\' :: '#' :: body) = _
    rw [unescape_letter (by decide), hbody]
    rfl
  | hex hc =>
    show unescape ('\\' :: 'x' :: _ :: _ :: body) = _
    rw [unescape, hc, hbody]
    rfl
  | itself hletter _ _ =>
    show unescape (c :: body) = _
    rw [unescape_itself (ne_of_escapeLetter?_eq_none hletter).2, hbody]
    rfl

/-- What a character adds to those that no backslash stands before. -/
theorem Spelling.bare_append (h : Spelling next c spelled)
    (hbehind : opensInterpolation next = false → opensInterpolation body.head? = false) {d : Char}
    {behind : Option Char} (hd : (d, behind) ∈ bare (spelled ++ body)) :
    (d, behind) ∈ bare body ∨ d ≠ '"' ∧ (d = '#' → opensInterpolation behind = false) := by
  cases h with
  | letter hc => exact .inl hd
  | interpolation => exact .inl hd
  | @hex _ high low hc =>
    obtain ⟨⟨_, hhigh⟩, _, hlow⟩ := digits_of_hexChar? hc
    have hhigh := plain_of_hexDigit? hhigh
    have hlow := plain_of_hexDigit? hlow
    have hbare : bare (['\\', 'x', high, low] ++ body) =
        (high, some low) :: (low, body.head?) :: bare body := by
      show bare (high :: low :: body) = _
      rw [bare_itself hhigh.2.2.2, bare_itself hlow.2.2.2]
      rfl
    rw [hbare, List.mem_cons, List.mem_cons] at hd
    rcases hd with hd | hd | hd
    · cases hd
      exact .inr ⟨hhigh.2.1, fun hc => absurd hc hhigh.2.2.1⟩
    · cases hd
      exact .inr ⟨hlow.2.1, fun hc => absurd hc hlow.2.2.1⟩
    · exact .inl hd
  | itself hletter _ hnext =>
    have hne := ne_of_escapeLetter?_eq_none hletter
    rw [List.singleton_append, bare_itself hne.2, List.mem_cons] at hd
    rcases hd with hd | hd
    · cases hd
      exact .inr ⟨hne.1, fun hc => hbehind (hnext hc)⟩
    · exact .inl hd

/-- A character that starts an interpolation behind a `#` does so in the literal only if it does so in
the text. -/
theorem opensInterpolation_escapeChars (h : opensInterpolation text.head? = false) :
    opensInterpolation (escapeChars text).head? = false := by
  cases text with
  | nil => rfl
  | cons c rest =>
    have hspelling := spelling_escapeChar c rest.head?
    rw [escapeChars]
    generalize escapeChar c rest.head? = spelled at hspelling
    have hbackslash : opensInterpolation (some '\\') = false := by decide
    cases hspelling with
    | letter | interpolation | hex => exact hbackslash
    | itself => exact h

/-- **The escapes of a text can be undone, and they hide all there is to hide.** -/
theorem readsBack_escapeChars (text : List Char) : ReadsBack (escapeChars text) text := by
  induction text with
  | nil => exact ⟨by simp [escapeChars], by simp [escapeChars, bare], by simp [escapeChars, bare], rfl⟩
  | cons c rest ih =>
    have hspelling := spelling_escapeChar c rest.head?
    rw [escapeChars]
    refine ⟨fun d hd => ?_, fun behind hd => ?_, fun behind hd => ?_, ?_⟩
    · rcases List.mem_append.mp hd with hd | hd
      · exact isControl_eq_false_iff.mp (hspelling.shows d hd)
      · exact ih.shows d hd
    · rcases hspelling.bare_append opensInterpolation_escapeChars hd with hd | hd
      · exact ih.closed behind hd
      · exact hd.1 rfl
    · rcases hspelling.bare_append opensInterpolation_escapeChars hd with hd | hd
      · exact ih.inert behind hd
      · exact opensInterpolation_eq_false_iff.mp (hd.2 rfl)
    · exact hspelling.unescape_append ih.undone

theorem toList_quote (s : String) : (quote s).toList = '"' :: (escapeChars s.toList ++ ['"']) :=
  String.toList_ofList

theorem quote_injective {s t : String} (h : quote s = quote t) : s = t := by
  have hbodies : escapeChars s.toList = escapeChars t.toList := by
    have hlists := congrArg String.toList h
    rw [toList_quote, toList_quote] at hlists
    exact List.append_cancel_right (List.cons.inj hlists).2
  have htexts : some s.toList = some t.toList := by
    rw [← (readsBack_escapeChars s.toList).undone, hbodies, (readsBack_escapeChars t.toList).undone]
  exact String.toList_inj.mp (Option.some.inj htexts)

/-! ## Literals of symbols -/

/-- No name that starts with a quote is written without quotes. -/
theorem isPlainSymbol_quote (rest : List Char) : isPlainSymbol ('"' :: rest) = false := by
  have hletter : isAlphabetic '"' = false := by decide +kernel
  have hoperator : operators.contains (String.ofList ('"' :: rest)) = false := by
    have hall : ∀ op ∈ operators, op.toList.head? ≠ some '"' := by decide +kernel
    rw [Bool.eq_false_iff]
    intro hmem
    apply hall _ (List.contains_iff_mem.mp hmem)
    rw [String.toList_ofList]
    rfl
  rw [isPlainSymbol, hletter, hoperator]
  rfl

theorem symbolLiteral_cases (s : String) :
    symbolLiteral s = ":" ++ s ∧ isPlainSymbol s.toList = true ∨ symbolLiteral s = ":" ++ quote s := by
  unfold symbolLiteral
  split_ifs with hplain
  · exact .inl ⟨rfl, hplain⟩
  · exact .inr rfl

theorem ne_quote_of_isPlainSymbol {s t : String} (hs : isPlainSymbol s.toList = true) : s ≠ quote t := by
  rintro rfl
  rw [toList_quote, isPlainSymbol_quote] at hs
  cases hs

theorem symbolLiteral_injective {s t : String} (h : symbolLiteral s = symbolLiteral t) : s = t := by
  rcases symbolLiteral_cases s with ⟨hs, hplain⟩ | hs <;>
    rcases symbolLiteral_cases t with ⟨ht, hplain'⟩ | ht <;>
    rw [hs, ht] at h <;> have h := String.append_right_inj _ |>.mp h
  · exact h
  · exact absurd h (ne_quote_of_isPlainSymbol hplain)
  · exact absurd h.symm (ne_quote_of_isPlainSymbol hplain')
  · exact quote_injective h

theorem head?_symbolLiteral (s : String) : (symbolLiteral s).toList.head? = some ':' := by
  rcases symbolLiteral_cases s with ⟨hs, _⟩ | hs <;> rw [hs, String.toList_append] <;> rfl

/-- **Literals are unambiguous.**  Different strings have different literals, different symbols have
different literals, and no string has the literal of a symbol.  Between the quotes of a string all
characters show, no quote and no interpolation starts, and undoing the escapes gives the string. -/
theorem literals_unambiguous :
    (∀ s t, quote s = quote t → s = t) ∧
    (∀ s t, symbolLiteral s = symbolLiteral t → s = t) ∧
    (∀ s t, quote s ≠ symbolLiteral t) ∧
    ∀ s, ∃ body, quote s = String.ofList ('"' :: (body ++ ['"'])) ∧ ReadsBack body s.toList := by
  refine ⟨fun _ _ => quote_injective, fun _ _ => symbolLiteral_injective, fun s t h => ?_, fun s => ?_⟩
  · have hhead := head?_symbolLiteral t
    rw [← h, toList_quote] at hhead
    exact absurd (Option.some.inj hhead) (by decide)
  · exact ⟨escapeChars s.toList, rfl, readsBack_escapeChars s.toList⟩

end Rite.Text
