import DocComment.Json.Token
import Mathlib.Tactic.Common

/-!
How JSON tokens are spelled, and that they are read back.

* **Spellings.** A character of a string stands for itself or is escaped by a letter or by its
  code, so a string has many spellings (`Unit.Spells`, `Units.Spells`); of the other tokens a
  number spells itself (`Token.Spells`). A text spells tokens if these come in order, with any
  blanks around each (`Spelling`).
* **Numbers need an end.** Nothing that would continue a number may stand right behind it. This is
  the only condition on what follows a token (`Token.EndsBefore`).
* **Reading back.** Every spelling of tokens is cut into just these tokens
  (`Spelling.tokens?_eq`).
-/

namespace DocComment.Json

/-! ### Strings -/

/-- The spellings of a unit of a string. -/
inductive Unit.Spells : Unit → Text → Prop where
  | plain {c : Char} (hcontrol : ¬ c.toNat < 0x20) (hquote : c ≠ '"') (hbackslash : c ≠ '\\') :
      Spells (.char c) [c]
  | letter {c e : Char} (h : Token.letterEscape? e = some c) : Spells (.char c) ['\\', e]
  | code {a b c d : Char} {code : Nat} (h : Token.hex4? a b c d = some code) :
      Spells (Token.unitOf code) ['\\', 'u', a, b, c, d]

/-- The spellings of a string between its quotation marks. -/
inductive Units.Spells : Units → Text → Prop where
  | nil : Spells [] []
  | cons {u : Unit} {units : Units} {v w : Text} (hu : u.Spells v) (h : Spells units w) :
      Spells (u :: units) (v ++ w)

namespace Token

/-- A unit is read from each of its spellings. -/
lemma readString_unit {u : Unit} {w : Text} (h : u.Spells w) (t : Text) :
    readString (w ++ t) = withUnit u (readString t) := by
  cases h with
  | @plain c hcontrol hquote hbackslash =>
      show readString (c :: t) = _
      rw [readString]
      · rw [if_neg hcontrol]
      · exact hquote
      · rintro _ _ _ _ _ rfl
        exact absurd rfl hbackslash
      · rintro _ _ rfl
        exact absurd rfl hbackslash
  | @letter c e he =>
      have hu : e ≠ 'u' := by
        rintro rfl
        cases he
      show readString ('\\' :: e :: t) = _
      rw [readString]
      · rw [he]
      · rintro _ _ _ _ _ rfl
        exact absurd rfl hu
  | code hcode =>
      simp only [List.cons_append, List.nil_append, readString, hcode]

/-- A string is read from each of its spellings, up to the quotation mark that ends it. -/
lemma readString_units {units : Units} {w : Text} (h : units.Spells w) (t : Text) :
    readString (w ++ '"' :: t) = some (units, t) := by
  induction h with
  | nil => rfl
  | cons hu _ ih =>
      rw [List.append_assoc, readString_unit hu, ih]
      rfl

/-! ### Numbers -/

lemma dropWhole?_of_ne {c : Char} (h : c ≠ '0') (t : Text) :
    dropWhole? (c :: t) = dropDigits? (c :: t) := by
  rw [dropWhole?]
  rintro _ ⟨⟩
  exact h rfl

lemma dropFraction?_of_ne {c : Char} (h : c ≠ '.') (t : Text) :
    dropFraction? (c :: t) = some (c :: t) := by
  rw [dropFraction?]
  rintro _ ⟨⟩
  exact h rfl

lemma dropSign_of_ne {c : Char} (hplus : c ≠ '+') (hminus : c ≠ '-') (t : Text) :
    dropSign (c :: t) = c :: t := by
  rw [dropSign]
  · rintro _ ⟨⟩
    exact hplus rfl
  · rintro _ ⟨⟩
    exact hminus rfl

lemma dropExponent?_of_ne {c : Char} (hlower : c ≠ 'e') (hupper : c ≠ 'E') (t : Text) :
    dropExponent? (c :: t) = some (c :: t) := by
  rw [dropExponent?]
  · rintro _ ⟨⟩
    exact hlower rfl
  · rintro _ ⟨⟩
    exact hupper rfl

lemma dropNumber?_of_ne {c : Char} (h : c ≠ '-') (t : Text) :
    dropNumber? (c :: t) = dropUnsigned? (c :: t) := by
  rw [dropNumber?]
  rintro _ ⟨⟩
  exact h rfl

/-- A number begins with a digit or a minus sign. -/
lemma head_of_dropNumber? {c : Char} {w r : Text} (h : dropNumber? (c :: w) = some r) :
    c = '-' ∨ c.isDigit = true := by
  by_cases hminus : c = '-'
  · exact .inl hminus
  · rw [dropNumber?_of_ne hminus] at h
    obtain ⟨v, hv, -⟩ := Option.bind_eq_some_iff.mp h
    by_cases hzero : c = '0'
    · subst hzero
      exact .inr rfl
    · rw [dropWhole?_of_ne hzero, dropDigits?] at hv
      split at hv
      · rename_i hdigit
        exact .inr hdigit
      · cases hv

/-- Whether a character behind a number would be taken for a part of it. -/
def continuesNumber (c : Char) : Bool :=
  c.isDigit || c == '.' || c == 'e' || c == 'E'

/-- Whether nothing that a text begins with would be taken for a part of a number in front. -/
def EndsNumber (t : Text) : Prop :=
  ∀ c ∈ t.head?, continuesNumber c = false

lemma EndsNumber.cons {c : Char} (h : continuesNumber c = false) (t : Text) :
    EndsNumber (c :: t) := by
  intro d hd
  obtain rfl : c = d := Option.some.inj hd
  exact h

/-- Whether what a reader drops of a text, it also drops of a longer one, as long as a rest that
begins where the text ends continues no number. -/
def Extends (drop : Text → Option Text) : Prop :=
  ∀ ⦃w r : Text⦄, drop w = some r → ∀ ⦃t : Text⦄, (r = [] → EndsNumber t) →
    drop (w ++ t) = some (r ++ t)

lemma extends_dropDigits? : Extends dropDigits? := by
  intro w r h t ht
  cases w with
  | nil => cases h
  | cons c w =>
      rw [dropDigits?] at h
      split at h
      · rename_i hc
        obtain rfl : (c :: w).dropWhile Char.isDigit = r := Option.some.inj h
        rw [List.cons_append, dropDigits?, if_pos hc, ← List.cons_append, List.dropWhile_append]
        split
        · rename_i hempty
          rw [List.isEmpty_iff] at hempty
          rw [hempty, List.nil_append]
          cases t with
          | nil => rfl
          | cons d t =>
              have hd := ht hempty d rfl
              simp only [continuesNumber, Bool.or_eq_false_iff] at hd
              rw [List.dropWhile_cons_of_neg (by simp [hd.1.1.1])]
        · rfl
      · cases h

lemma extends_dropWhole? : Extends dropWhole? := by
  intro w r h t ht
  cases w with
  | nil => cases h
  | cons c w =>
      by_cases hc : c = '0'
      · subst hc
        obtain rfl : w = r := Option.some.inj h
        rfl
      · rw [dropWhole?_of_ne hc] at h
        rw [List.cons_append, dropWhole?_of_ne hc]
        exact extends_dropDigits? h ht

/-- Where no number goes on, there is no fraction to drop. -/
lemma dropFraction?_of_endsNumber {t : Text} (h : EndsNumber t) : dropFraction? t = some t := by
  cases t with
  | nil => rfl
  | cons c t =>
      refine dropFraction?_of_ne ?_ t
      rintro rfl
      exact absurd (h '.' rfl) (by decide)

lemma extends_dropFraction? : Extends dropFraction? := by
  intro w r h t ht
  cases w with
  | nil =>
      obtain rfl : [] = r := Option.some.inj h
      exact dropFraction?_of_endsNumber (ht rfl)
  | cons c w =>
      by_cases hc : c = '.'
      · subst hc
        exact extends_dropDigits? h ht
      · rw [dropFraction?_of_ne hc] at h
        obtain rfl : c :: w = r := Option.some.inj h
        exact dropFraction?_of_ne hc _

lemma dropSign_append {w : Text} (h : w ≠ []) (t : Text) : dropSign (w ++ t) = dropSign w ++ t := by
  cases w with
  | nil => exact absurd rfl h
  | cons c w =>
      by_cases hplus : c = '+'
      · subst hplus
        rfl
      · by_cases hminus : c = '-'
        · subst hminus
          rfl
        · rw [List.cons_append, dropSign_of_ne hplus hminus, dropSign_of_ne hplus hminus,
            List.cons_append]

/-- Where no number goes on, there is no exponent to drop. -/
lemma dropExponent?_of_endsNumber {t : Text} (h : EndsNumber t) : dropExponent? t = some t := by
  cases t with
  | nil => rfl
  | cons c t =>
      refine dropExponent?_of_ne ?_ ?_ t
      · rintro rfl
        exact absurd (h 'e' rfl) (by decide)
      · rintro rfl
        exact absurd (h 'E' rfl) (by decide)

lemma extends_dropExponent? : Extends dropExponent? := by
  have hdigits : ∀ {w r : Text}, dropDigits? (dropSign w) = some r → ∀ {t : Text},
      (r = [] → EndsNumber t) → dropDigits? (dropSign (w ++ t)) = some (r ++ t) := by
    intro w r h t ht
    have hne : w ≠ [] := by
      rintro rfl
      cases h
    rw [dropSign_append hne]
    exact extends_dropDigits? h ht
  intro w r h t ht
  cases w with
  | nil =>
      obtain rfl : [] = r := Option.some.inj h
      exact dropExponent?_of_endsNumber (ht rfl)
  | cons c w =>
      by_cases hlower : c = 'e'
      · subst hlower
        exact hdigits h ht
      · by_cases hupper : c = 'E'
        · subst hupper
          exact hdigits h ht
        · rw [dropExponent?_of_ne hlower hupper] at h
          obtain rfl : c :: w = r := Option.some.inj h
          exact dropExponent?_of_ne hlower hupper _

/-- One reader after another: the second must not go on where the text ends. -/
lemma Extends.bind {f g : Text → Option Text} (hf : Extends f) (hg : Extends g)
    (hnil : ∀ r, g [] = some r → r = []) : Extends fun t => (f t).bind g := by
  intro w r h t ht
  obtain ⟨v, hv, hr⟩ := Option.bind_eq_some_iff.mp h
  have hend : v = [] → EndsNumber t := by
    rintro rfl
    exact ht (hnil r hr)
  show (f (w ++ t)).bind g = _
  rw [hf hv hend, Option.bind_some]
  exact hg hr ht

lemma extends_dropUnsigned? : Extends dropUnsigned? := by
  have hexponent : ∀ r, dropExponent? [] = some r → r = [] := fun r h =>
    (Option.some.inj h).symm
  have hfraction : ∀ r, (dropFraction? []).bind dropExponent? = some r → r = [] := fun r h =>
    (Option.some.inj h).symm
  have hrest : Extends fun t => (dropFraction? t).bind dropExponent? :=
    Extends.bind extends_dropFraction? extends_dropExponent? hexponent
  exact Extends.bind (f := dropWhole?) (g := fun t => (dropFraction? t).bind dropExponent?)
    extends_dropWhole? hrest hfraction

lemma extends_dropNumber? : Extends dropNumber? := by
  intro w r h t ht
  cases w with
  | nil => cases h
  | cons c w =>
      by_cases hc : c = '-'
      · subst hc
        exact extends_dropUnsigned? h ht
      · rw [dropNumber?_of_ne hc] at h
        rw [List.cons_append, dropNumber?_of_ne hc]
        exact extends_dropUnsigned? h ht

/-! ### Tokens -/

/-- The spellings of a token. -/
inductive Spells : Token → Text → Prop where
  | punctuation {c : Char} {token : Token} (h : punctuation? c = some token) : Spells token [c]
  | word {c : Char} {letters : Text} {token : Token} (h : word? c = some (token, letters)) :
      Spells token (c :: letters)
  | string {units : Units} {w : Text} (h : units.Spells w) :
      Spells (.string units) ('"' :: w ++ ['"'])
  | number {w : Text} (h : dropNumber? w = some []) : Spells (.number w) w

/-- Whether a token ends where a text begins: a number ends if it is not continued. -/
def EndsBefore : Token → Text → Prop
  | .number _, t => EndsNumber t
  | _, _ => True

lemma next_number {c : Char} {w t : Text} (h : dropNumber? (c :: w) = some [])
    (ht : EndsNumber t) : next c (w ++ t) = some (.number (c :: w), t) := by
  have hne : ∀ d : Char, (d == '-' || d.isDigit) = false → c ≠ d := by
    rintro d hd rfl
    rcases head_of_dropNumber? h with hc | hc
    · simp [hc] at hd
    · simp [hc] at hd
  have hpunctuation : punctuation? c = none := by
    simp [punctuation?, hne '\x7b' rfl, hne '\x7d' rfl, hne '[' rfl, hne ']' rfl, hne ':' rfl,
      hne ',' rfl]
  have hword : word? c = none := by
    simp [word?, hne 'n' rfl, hne 't' rfl, hne 'f' rfl]
  have hdrop : dropNumber? (c :: (w ++ t)) = some t := extends_dropNumber? h fun _ => ht
  have htaken : taken (c :: (w ++ t)) t = c :: w := by
    rw [taken, ← List.cons_append]
    exact List.take_left' (by simp only [List.length_cons, List.length_append]; omega)
  rw [next, hpunctuation, hword, if_neg (hne '"' rfl), hdrop]
  show some (number (taken (c :: (w ++ t)) t), t) = _
  rw [htaken]

lemma next_word {c : Char} {letters : Text} {token : Token} (h : word? c = some (token, letters))
    (t : Text) : next c (letters ++ t) = some (token, t) := by
  have hdrop : Text.dropMark? letters (letters ++ t) = some t := by
    simp [Text.dropMark?]
  have hmark : c = 'n' ∨ c = 't' ∨ c = 'f' := by
    unfold word? at h
    repeat' split at h
    · exact .inl ‹_›
    · exact .inr (.inl ‹_›)
    · exact .inr (.inr ‹_›)
    · cases h
  have hpunctuation : punctuation? c = none := by
    rcases hmark with rfl | rfl | rfl <;> rfl
  have hquote : c ≠ '"' := by
    rcases hmark with rfl | rfl | rfl <;> decide
  rw [next, hpunctuation, if_neg hquote, h]
  show (Text.dropMark? letters (letters ++ t)).map (fun rest => (token, rest)) = _
  rw [hdrop]
  rfl

/-- **A token is read** from each of its spellings, if it ends there. No spelling begins with a
blank. -/
lemma exists_next_of_spells {token : Token} {w t : Text} (h : token.Spells w)
    (ht : token.EndsBefore t) :
    ∃ c v, w = c :: v ∧ isBlank c = false ∧ next c (v ++ t) = some (token, t) := by
  have hblank : ∀ {c : Char}, isBlank c = true → c = ' ' ∨ c = '\n' ∨ c = '\t' ∨ c = '\r' := by
    intro c hc
    simpa [isBlank, or_assoc] using hc
  cases h with
  | @punctuation c _ hc =>
      refine ⟨c, [], rfl, Bool.eq_false_iff.mpr fun hspace => ?_, ?_⟩
      · rcases hblank hspace with rfl | rfl | rfl | rfl <;> cases hc
      · rw [next, hc]
        rfl
  | @word c letters _ hc =>
      refine ⟨c, letters, rfl, Bool.eq_false_iff.mpr fun hspace => ?_, next_word hc t⟩
      rcases hblank hspace with rfl | rfl | rfl | rfl <;> cases hc
  | @string units w hw =>
      refine ⟨'"', w ++ ['"'], rfl, rfl, ?_⟩
      rw [List.append_assoc]
      show (readString (w ++ '"' :: t)).map _ = _
      rw [readString_units hw]
      rfl
  | number hw =>
      cases w with
      | nil => cases hw
      | cons c v =>
          refine ⟨c, v, rfl, Bool.eq_false_iff.mpr fun hspace => ?_, next_number hw ht⟩
          rcases head_of_dropNumber? hw with rfl | hdigit
          · cases hspace
          · rcases hblank hspace with rfl | rfl | rfl | rfl <;> cases hdigit

end Token

/-! ### Rows of tokens -/

/-- **The spellings of a row of tokens**, with any blanks around each. -/
inductive Spelling : List Token → Text → Prop where
  | nil {blanks : Text} (hblanks : blanks.all Token.isBlank = true) : Spelling [] blanks
  | cons {blanks w t : Text} {token : Token} {tokens : List Token}
      (hblanks : blanks.all Token.isBlank = true) (hw : token.Spells w)
      (hend : token.EndsBefore t) (h : Spelling tokens t) :
      Spelling (token :: tokens) (blanks ++ w ++ t)

namespace Spelling

lemma blanks_append {blanks t : Text} {tokens : List Token}
    (hblanks : blanks.all Token.isBlank = true) (h : Spelling tokens t) :
    Spelling tokens (blanks ++ t) := by
  cases h with
  | nil h => exact .nil (by rw [List.all_append, hblanks, h]; rfl)
  | cons h hw hend ht =>
      rw [← List.append_assoc, ← List.append_assoc]
      exact .cons (by rw [List.all_append, hblanks, h]; rfl) hw hend ht

/-- A token stands in front. -/
lemma token {w t : Text} {token : Token} {tokens : List Token} (hw : token.Spells w)
    (hend : token.EndsBefore t) (h : Spelling tokens t) : Spelling (token :: tokens) (w ++ t) := by
  have hnil : ([] : Text).all Token.isBlank = true := rfl
  exact .cons hnil hw hend h

/-- A character that is a token by itself stands in front. -/
lemma punctuation {c : Char} {t : Text} {token : Token} {tokens : List Token}
    (hc : Token.punctuation? c = some token) (hend : token.EndsBefore t) (h : Spelling tokens t) :
    Spelling (token :: tokens) (c :: t) :=
  .token (.punctuation hc) hend h

lemma dropWhile_blanks_append {blanks : Text} (h : blanks.all Token.isBlank = true) (t : Text) :
    (blanks ++ t).dropWhile Token.isBlank = t.dropWhile Token.isBlank := by
  rw [List.dropWhile_append_of_pos]
  exact List.all_eq_true.mp h

/-- **Reading back**: a text that spells tokens is cut into them. -/
theorem tokens?_eq {tokens : List Token} {t : Text} (h : Spelling tokens t) :
    tokens? t = some tokens := by
  induction h with
  | @nil blanks hblanks =>
      have hdrop : blanks.dropWhile Token.isBlank = [] := by
        have := dropWhile_blanks_append hblanks []
        rwa [List.append_nil] at this
      rw [tokens?]
      split
      · rfl
      · rename_i hcons
        rw [hdrop] at hcons
        cases hcons
  | @cons blanks w t token tokens hblanks hw hend _ ih =>
      obtain ⟨c, v, rfl, hc, hnext⟩ := Token.exists_next_of_spells hw hend
      have hdrop : (blanks ++ (c :: v) ++ t).dropWhile Token.isBlank = c :: (v ++ t) := by
        rw [List.append_assoc, dropWhile_blanks_append hblanks, List.cons_append,
          List.dropWhile_cons_of_neg (by simp [hc])]
      rw [tokens?]
      split
      · rename_i hnil
        rw [hdrop] at hnil
        cases hnil
      · rename_i d body hcons
        rw [hdrop] at hcons
        cases hcons
        split
        · rename_i hnone
          rw [hnext] at hnone
          cases hnone
        · rename_i token' rest hsome
          rw [hnext] at hsome
          cases hsome
          rw [ih]
          rfl

end Spelling

end DocComment.Json
