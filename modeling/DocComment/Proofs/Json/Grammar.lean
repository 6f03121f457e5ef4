import DocComment.Proofs.Json.Structure
import DocComment.Proofs.Numeral
import Mathlib.Data.List.TakeWhile

/-!
The grammar of JSON, and that every text of it is read.

* **Numbers.** `IsNumber` lists the parts of a number. It is exact: the numbers are just what the
  reader takes as a whole (`isNumber_iff`).
* **Strings.** A character stands for itself or is escaped, by a letter or by its code; a code may
  also be that of half a pair (`Unit.StandsAs`). `Units.Says` tells which strings are texts.
* **Values.** `Value.StandsAs` follows the value: what may stand for it, with any blanks between
  its parts. Each text of a value spells its tokens (`spelling_of_standsAs`), so it is read as this
  value (`Value.read?_of_isText`).
-/

namespace DocComment.Json

/-! ### Numbers -/

/-- One or more digits. -/
def AreDigits (t : Text) : Prop :=
  t ≠ [] ∧ ∀ c ∈ t, c.isDigit = true

/-- The whole part of a number: a zero alone, or digits that do not begin with one. -/
inductive IsWhole : Text → Prop where
  | zero : IsWhole ['0']
  | digits {c : Char} {t : Text} (hc : c ≠ '0') (h : AreDigits (c :: t)) : IsWhole (c :: t)

/-- The fraction of a number, if it has one. -/
inductive IsFraction : Text → Prop where
  | none : IsFraction []
  | some {t : Text} (h : AreDigits t) : IsFraction ('.' :: t)

/-- The exponent of a number, if it has one. -/
inductive IsExponent : Text → Prop where
  | none : IsExponent []
  | some {mark : Char} {sign t : Text} (hmark : mark = 'e' ∨ mark = 'E')
      (hsign : sign = [] ∨ sign = ['+'] ∨ sign = ['-']) (h : AreDigits t) :
      IsExponent (mark :: (sign ++ t))

/-- A number, with or without a minus sign. -/
inductive IsNumber : Text → Prop where
  | mk {sign whole fraction exponent : Text} (hsign : sign = [] ∨ sign = ['-'])
      (hwhole : IsWhole whole) (hfraction : IsFraction fraction)
      (hexponent : IsExponent exponent) : IsNumber (sign ++ whole ++ fraction ++ exponent)

namespace Token

lemma dropDigits?_append {t u : Text} (ht : AreDigits t)
    (hu : ∀ c ∈ u.head?, c.isDigit = false) : dropDigits? (t ++ u) = some u := by
  obtain ⟨c, t, rfl⟩ := List.exists_cons_of_ne_nil ht.1
  have hdrop : u.dropWhile Char.isDigit = u := by
    cases u with
    | nil => rfl
    | cons d u => exact List.dropWhile_cons_of_neg (by simp [hu d rfl])
  rw [List.cons_append, dropDigits?, if_pos (ht.2 c List.mem_cons_self), ← List.cons_append,
    List.dropWhile_append_of_pos ht.2, hdrop]

/-- What is dropped are digits. -/
lemma exists_areDigits {t rest : Text} (h : dropDigits? t = some rest) :
    ∃ ds, AreDigits ds ∧ t = ds ++ rest := by
  unfold dropDigits? at h
  split at h
  · rename_i c u
    obtain ⟨hc, hrest⟩ := Option.ite_none_right_eq_some.mp h
    refine ⟨(c :: u).takeWhile Char.isDigit, ⟨?_, fun d hd => List.mem_takeWhile_imp hd⟩, ?_⟩
    · rw [List.takeWhile_cons_of_pos hc]
      exact List.cons_ne_nil _ _
    · rw [← Option.some.inj hrest, List.takeWhile_append_dropWhile]
  · cases h

lemma dropWhole?_append {t u : Text} (ht : IsWhole t) (hu : ∀ c ∈ u.head?, c.isDigit = false) :
    dropWhole? (t ++ u) = some u := by
  cases ht with
  | zero => rfl
  | digits hc h =>
      rw [List.cons_append, dropWhole?_of_ne hc]
      exact dropDigits?_append h hu

lemma exists_isWhole {t rest : Text} (h : dropWhole? t = some rest) :
    ∃ w, IsWhole w ∧ t = w ++ rest := by
  cases t with
  | nil => cases h
  | cons c t =>
      by_cases hc : c = '0'
      · subst hc
        obtain rfl : t = rest := Option.some.inj h
        exact ⟨_, .zero, rfl⟩
      · rw [dropWhole?_of_ne hc] at h
        obtain ⟨ds, hds, happ⟩ := exists_areDigits h
        obtain ⟨d, ds, rfl⟩ := List.exists_cons_of_ne_nil hds.1
        obtain ⟨rfl, -⟩ := List.cons.inj happ
        exact ⟨_, .digits hc hds, happ⟩

lemma dropFraction?_append {t u : Text} (ht : IsFraction t)
    (hu : ∀ c ∈ u.head?, c.isDigit = false ∧ c ≠ '.') : dropFraction? (t ++ u) = some u := by
  cases ht with
  | none =>
      cases u with
      | nil => rfl
      | cons c u => exact dropFraction?_of_ne (hu c rfl).2 u
  | some h => exact dropDigits?_append h fun c hc => (hu c hc).1

lemma exists_isFraction {t rest : Text} (h : dropFraction? t = some rest) :
    ∃ f, IsFraction f ∧ t = f ++ rest := by
  cases t with
  | nil => exact ⟨[], .none, Option.some.inj h⟩
  | cons c t =>
      by_cases hc : c = '.'
      · subst hc
        obtain ⟨ds, hds, rfl⟩ := exists_areDigits h
        exact ⟨_, .some hds, rfl⟩
      · rw [dropFraction?_of_ne hc] at h
        exact ⟨[], .none, Option.some.inj h⟩

lemma dropSign_append_digits {sign t : Text} (hsign : sign = [] ∨ sign = ['+'] ∨ sign = ['-'])
    (ht : AreDigits t) : dropSign (sign ++ t) = t := by
  rcases hsign with rfl | rfl | rfl
  · obtain ⟨c, t, rfl⟩ := List.exists_cons_of_ne_nil ht.1
    have hc : c.isDigit = true := ht.2 c List.mem_cons_self
    refine dropSign_of_ne ?_ ?_ t
    · rintro rfl
      cases hc
    · rintro rfl
      cases hc
  · rfl
  · rfl

lemma exists_sign (t : Text) :
    ∃ sign, (sign = [] ∨ sign = ['+'] ∨ sign = ['-']) ∧ t = sign ++ dropSign t := by
  unfold dropSign
  split
  · exact ⟨['+'], .inr (.inl rfl), rfl⟩
  · exact ⟨['-'], .inr (.inr rfl), rfl⟩
  · exact ⟨[], .inl rfl, rfl⟩

lemma dropExponent?_of_isExponent {t : Text} (ht : IsExponent t) : dropExponent? t = some [] := by
  cases ht with
  | none => rfl
  | @some mark sign t hmark hsign h =>
      have hdigits : dropDigits? (dropSign (sign ++ t)) = some [] := by
        have hall := dropDigits?_append h (u := []) nofun
        rwa [dropSign_append_digits hsign h, ← List.append_nil t]
      rcases hmark with rfl | rfl
      · exact hdigits
      · exact hdigits

lemma exists_isExponent {t rest : Text} (h : dropExponent? t = some rest) :
    ∃ e, IsExponent e ∧ t = e ++ rest := by
  have hmarked : ∀ {mark : Char} {u : Text}, mark = 'e' ∨ mark = 'E' →
      dropDigits? (dropSign u) = some rest → ∃ e, IsExponent e ∧ mark :: u = e ++ rest := by
    intro mark u hmark hdigits
    obtain ⟨sign, hsign, hu⟩ := exists_sign u
    obtain ⟨ds, hds, hrest⟩ := exists_areDigits hdigits
    refine ⟨_, .some hmark hsign hds, ?_⟩
    rw [List.cons_append, List.append_assoc, ← hrest, ← hu]
  unfold dropExponent? at h
  split at h
  · exact hmarked (.inl rfl) h
  · exact hmarked (.inr rfl) h
  · exact ⟨[], .none, Option.some.inj h⟩

/-- No exponent begins like digits or a fraction. -/
lemma not_continues_of_isExponent {t : Text} (ht : IsExponent t) :
    ∀ c ∈ t.head?, c.isDigit = false ∧ c ≠ '.' := by
  cases ht with
  | none => nofun
  | some hmark _ _ =>
      rintro c hc
      obtain rfl := Option.some.inj hc
      rcases hmark with rfl | rfl
      · decide
      · decide

/-- Neither a fraction nor an exponent begins with a digit. -/
lemma not_isDigit_of_isFraction {t u : Text} (ht : IsFraction t) (hu : IsExponent u) :
    ∀ c ∈ (t ++ u).head?, c.isDigit = false := by
  cases ht with
  | none => exact fun c hc => (not_continues_of_isExponent hu c hc).1
  | some _ =>
      intro c hc
      obtain rfl := Option.some.inj hc
      rfl

/-- What is taken as a whole are a whole part, a fraction and an exponent. -/
lemma dropUnsigned?_eq_some_nil_iff {t : Text} :
    dropUnsigned? t = some [] ↔
      ∃ w f e, IsWhole w ∧ IsFraction f ∧ IsExponent e ∧ t = w ++ f ++ e := by
  constructor
  · intro h
    obtain ⟨u, hwhole, h⟩ := Option.bind_eq_some_iff.mp h
    obtain ⟨v, hfraction, hexponent⟩ := Option.bind_eq_some_iff.mp h
    obtain ⟨w, hw, rfl⟩ := exists_isWhole hwhole
    obtain ⟨f, hf, rfl⟩ := exists_isFraction hfraction
    obtain ⟨e, he, rfl⟩ := exists_isExponent hexponent
    exact ⟨w, f, e, hw, hf, he, by simp⟩
  · rintro ⟨w, f, e, hw, hf, he, rfl⟩
    rw [dropUnsigned?, List.append_assoc, dropWhole?_append hw (not_isDigit_of_isFraction hf he),
      Option.bind_some, dropFraction?_append hf (not_continues_of_isExponent he), Option.bind_some,
      dropExponent?_of_isExponent he]

lemma ne_minus_of_isWhole {t : Text} (ht : IsWhole t) : ∃ c u, t = c :: u ∧ c ≠ '-' := by
  cases ht with
  | zero => exact ⟨'0', [], rfl, by decide⟩
  | @digits c u _ h =>
      refine ⟨c, u, rfl, ?_⟩
      rintro rfl
      exact absurd (h.2 '-' List.mem_cons_self) (by decide)

end Token

open Token in
/-- **The numbers** are just what the reader takes as a whole. -/
lemma isNumber_iff {t : Text} : IsNumber t ↔ dropNumber? t = some [] := by
  constructor
  · rintro ⟨hsign, hw, hf, he⟩
    rename_i sign w f e
    have hunsigned : dropUnsigned? (w ++ f ++ e) = some [] :=
      dropUnsigned?_eq_some_nil_iff.mpr ⟨w, f, e, hw, hf, he, rfl⟩
    rcases hsign with rfl | rfl
    · obtain ⟨c, u, rfl, hc⟩ := ne_minus_of_isWhole hw
      exact (dropNumber?_of_ne hc _).trans hunsigned
    · exact hunsigned
  · intro h
    cases t with
    | nil => cases h
    | cons c t =>
        by_cases hc : c = '-'
        · subst hc
          obtain ⟨w, f, e, hw, hf, he, rfl⟩ := dropUnsigned?_eq_some_nil_iff.mp h
          exact IsNumber.mk (.inr rfl) hw hf he
        · rw [dropNumber?_of_ne hc] at h
          obtain ⟨w, f, e, hw, hf, he, happ⟩ := dropUnsigned?_eq_some_nil_iff.mp h
          rw [happ]
          exact IsNumber.mk (.inl rfl) hw hf he

/-! ### Strings -/

/-- The letters of escapes, with what they stand for. -/
def letterEscapes : List (Char × Char) :=
  [('"', '"'), ('\\', '\\'), ('/', '/'), ('b', '\x08'), ('f', '\x0C'), ('n', '\n'), ('r', '\r'),
    ('t', '\t')]

/-- What may stand for a unit of a string. -/
inductive Unit.StandsAs : Unit → Text → Prop where
  | plain {c : Char} (hcontrol : 0x20 ≤ c.toNat) (hquote : c ≠ '"') (hbackslash : c ≠ '\\') :
      StandsAs (.char c) [c]
  | letter {e c : Char} (h : (e, c) ∈ letterEscapes) : StandsAs (.char c) ['\\', e]
  | code {a b d e c : Char} (h : Text.IsNumeral 16 [a, b, d, e] c.toNat) :
      StandsAs (.char c) ['\\', 'u', a, b, d, e]
  | half {a b d e : Char} {code : ℕ} (h : Text.IsNumeral 16 [a, b, d, e] code)
      (hhalf : 0xD800 ≤ code ∧ code ≤ 0xDFFF) :
      StandsAs (.surrogate code) ['\\', 'u', a, b, d, e]

/-- What may stand for a string between its quotation marks. -/
inductive Units.StandAs : Units → Text → Prop where
  | nil : StandAs [] []
  | cons {u : Unit} {units : Units} {v w : Text} (hu : u.StandsAs v) (h : StandAs units w) :
      StandAs (u :: units) (v ++ w)

/-- Whether a string is a text: each of its characters is one of the text, and so is each pair of
halves. -/
inductive Units.Says : Units → Text → Prop where
  | nil : Says [] []
  | char {c : Char} {units : Units} {t : Text} (h : Says units t) :
      Says (.char c :: units) (c :: t)
  | pair {c : Char} {high low : ℕ} {units : Units} {t : Text}
      (hhigh : 0xD800 ≤ high ∧ high ≤ 0xDBFF) (hlow : 0xDC00 ≤ low ∧ low ≤ 0xDFFF)
      (hc : c.toNat = 0x10000 + (high - 0xD800) * 0x400 + (low - 0xDC00)) (h : Says units t) :
      Says (.surrogate high :: .surrogate low :: units) (c :: t)

lemma hex4?_of_isNumeral {a b d e : Char} {code : ℕ} (h : Text.IsNumeral 16 [a, b, d, e] code) :
    Token.hex4? a b d e = some code := by
  have hlt : code < Nat.pow 16 4 := h.lt_pow
  rw [show Nat.pow 16 4 = 65536 from rfl] at hlt
  rw [Token.hex4?, Text.readDigits_of_isNumeral (by decide) h (by omega)]
  rfl

lemma unitOf_toNat (c : Char) : Token.unitOf c.toNat = .char c := by
  rw [Token.unitOf, if_pos (show c.toNat.isValidChar from c.valid), Char.ofNat_toNat]

lemma unitOf_of_not_isValidChar {code : ℕ} (h : ¬ code.isValidChar) :
    Token.unitOf code = .surrogate code :=
  if_neg h

lemma Unit.StandsAs.spells {u : Unit} {w : Text} (h : u.StandsAs w) : u.Spells w := by
  cases h with
  | plain hcontrol hquote hbackslash => exact .plain (Nat.not_lt.mpr hcontrol) hquote hbackslash
  | @letter e c h =>
      have htable : ∀ p ∈ letterEscapes, Token.letterEscape? p.1 = some p.2 := by decide
      exact .letter (htable _ h)
  | @code _ _ _ _ c h =>
      rw [← unitOf_toNat c]
      exact .code (hex4?_of_isNumeral h)
  | half h hhalf =>
      have hcode := Spells.code (hex4?_of_isNumeral h)
      rwa [unitOf_of_not_isValidChar (by unfold Nat.isValidChar; omega)] at hcode

lemma Units.StandAs.spells {units : Units} {w : Text} (h : units.StandAs w) : units.Spells w := by
  induction h with
  | nil => exact .nil
  | cons hu _ ih => exact .cons hu.spells ih

/-- A string that is a text is taken for this text. -/
lemma Units.Says.text?_eq {units : Units} {t : Text} (h : units.Says t) : units.text? = some t := by
  induction h with
  | nil => rfl
  | char _ ih => rw [text?, ih, Option.map_some]
  | @pair c high low _ _ hhigh hlow hc _ ih =>
      have hhalves : (isHigh high && isLow low) = true := by simp [isHigh, isLow, hhigh, hlow]
      have hpair : Units.pair high low = c := by rw [Units.pair, ← hc, Char.ofNat_toNat]
      rw [text?, if_pos hhalves, ih, Option.map_some, hpair]

/-! ### Values -/

/-- White space between tokens. -/
def AreBlanks (t : Text) : Prop :=
  ∀ c ∈ t, c = ' ' ∨ c = '\n' ∨ c = '\t' ∨ c = '\r'

mutual

/-- What may stand for a value, with no blanks around it. -/
inductive Value.StandsAs : Value → Text → Prop where
  | null : Value.StandsAs .null "null".toList
  | true : Value.StandsAs (.bool true) "true".toList
  | false : Value.StandsAs (.bool false) "false".toList
  | number {w : Text} (h : IsNumber w) : Value.StandsAs (.number w) w
  | string {units : Units} {w : Text} (h : units.StandAs w) :
      Value.StandsAs (.string units) ('"' :: w ++ ['"'])
  | emptyArray {gap : Text} (hgap : AreBlanks gap) :
      Value.StandsAs (.array []) ('[' :: gap ++ [']'])
  | array {v : Value} {vs : List Value} {gap w t : Text} (hgap : AreBlanks gap)
      (hv : Value.StandsAs v w) (hvs : ItemsStandAs vs t) :
      Value.StandsAs (.array (v :: vs)) ('[' :: gap ++ w ++ t ++ [']'])
  | emptyObject {gap : Text} (hgap : AreBlanks gap) :
      Value.StandsAs (.object []) ('\x7b' :: gap ++ ['\x7d'])
  | object {m : Units × Value} {ms : List (Units × Value)} {w t : Text}
      (hm : MemberStandsAs m w) (hms : MembersStandAs ms t) :
      Value.StandsAs (.object (m :: ms)) ('\x7b' :: w ++ t ++ ['\x7d'])

/-- What may stand for the items behind the first one, up to the end of the array. -/
inductive ItemsStandAs : List Value → Text → Prop where
  | nil {gap : Text} (hgap : AreBlanks gap) : ItemsStandAs [] gap
  | cons {v : Value} {vs : List Value} {before after w t : Text} (hbefore : AreBlanks before)
      (hafter : AreBlanks after) (hv : Value.StandsAs v w) (hvs : ItemsStandAs vs t) :
      ItemsStandAs (v :: vs) (before ++ ',' :: after ++ w ++ t)

/-- What may stand for a member. -/
inductive MemberStandsAs : Units × Value → Text → Prop where
  | mk {name : Units} {v : Value} {gap before after n w : Text} (hgap : AreBlanks gap)
      (hname : name.StandAs n) (hbefore : AreBlanks before) (hafter : AreBlanks after)
      (hv : Value.StandsAs v w) :
      MemberStandsAs (name, v) (gap ++ '"' :: n ++ '"' :: before ++ ':' :: after ++ w)

/-- What may stand for the members behind the first one, up to the end of the object. -/
inductive MembersStandAs : List (Units × Value) → Text → Prop where
  | nil {gap : Text} (hgap : AreBlanks gap) : MembersStandAs [] gap
  | cons {m : Units × Value} {ms : List (Units × Value)} {gap w t : Text} (hgap : AreBlanks gap)
      (hm : MemberStandsAs m w) (hms : MembersStandAs ms t) :
      MembersStandAs (m :: ms) (gap ++ ',' :: w ++ t)

end

/-- Whether a text is a value, with any blanks around it. -/
def Value.IsText (v : Value) (t : Text) : Prop :=
  ∃ before w after, t = before ++ w ++ after ∧ AreBlanks before ∧ v.StandsAs w ∧ AreBlanks after

/-! ### Every text of the grammar is read -/

lemma AreBlanks.all_isBlank {gap : Text} (h : AreBlanks gap) : gap.all Token.isBlank = true := by
  rw [List.all_eq_true]
  intro c hc
  rcases h c hc with rfl | rfl | rfl | rfl <;> rfl

lemma AreBlanks.endsNumber {gap t : Text} (h : AreBlanks gap) (ht : Token.EndsNumber t) :
    Token.EndsNumber (gap ++ t) := by
  cases gap with
  | nil => exact ht
  | cons c gap =>
      refine .cons ?_ _
      rcases h c List.mem_cons_self with rfl | rfl | rfl | rfl <;> rfl

open Value Token

section

variable {ts : List Token} {t : Text}

lemma Spelling.string {units : Units} {w : Text} (hw : units.StandAs w) (h : Spelling ts t) :
    Spelling (.string units :: ts) ('"' :: w ++ '"' :: t) := by
  have hspelling := Spelling.token (.string hw.spells) trivial h
  rwa [List.append_assoc] at hspelling

lemma endsNumber_of_itemsStandAs {vs : List Value} {w : Text} (h : ItemsStandAs vs w)
    (ht : EndsNumber t) : EndsNumber (w ++ t) := by
  cases h with
  | nil hgap => exact hgap.endsNumber ht
  | cons hbefore _ _ _ =>
      rw [List.append_assoc, List.append_assoc, List.append_assoc]
      exact hbefore.endsNumber (.cons rfl _)

lemma endsNumber_of_membersStandAs {ms : List (Units × Value)} {w : Text}
    (h : MembersStandAs ms w) (ht : EndsNumber t) : EndsNumber (w ++ t) := by
  cases h with
  | nil hgap => exact hgap.endsNumber ht
  | cons hgap _ _ =>
      rw [List.append_assoc, List.append_assoc]
      exact hgap.endsNumber (.cons rfl _)

/-- A member spells its name, a colon and its value, if the value spells itself. -/
lemma spelling_of_memberStandsAs {name : Units} {v : Value} {w : Text}
    (h : MemberStandsAs (name, v) w)
    (hv : ∀ {w}, v.StandsAs w → Spelling (v.tokens ++ ts) (w ++ t)) :
    Spelling (.string name :: .colon :: (v.tokens ++ ts)) (w ++ t) := by
  cases h with
  | mk hgap hname hbefore hafter hvalue =>
      have hcolon := Spelling.punctuation (c := ':') rfl trivial
        (.blanks_append hafter.all_isBlank (hv hvalue))
      have hmember := Spelling.blanks_append hgap.all_isBlank
        (Spelling.string hname (.blanks_append hbefore.all_isBlank hcolon))
      simpa only [List.append_assoc, List.cons_append] using hmember

end

mutual

/-- **What stands for a value spells its tokens**, whatever follows, as long as this continues no
number. -/
theorem spelling_of_standsAs (v : Value) {w t : Text} {ts : List Token} (hw : v.StandsAs w)
    (ht : EndsNumber t) (h : Spelling ts t) : Spelling (v.tokens ++ ts) (w ++ t) := by
  cases v with
  | null =>
      cases hw
      exact h.token (.word (c := 'n') rfl) trivial
  | bool b =>
      cases hw with
      | true => exact h.token (.word (c := 't') rfl) trivial
      | false => exact h.token (.word (c := 'f') rfl) trivial
  | number written =>
      cases hw with
      | number hnumber => exact h.token (.number (isNumber_iff.mp hnumber)) ht
  | string units =>
      cases hw with
      | string hunits => exact h.token (.string hunits.spells) trivial
  | array items =>
      have hclose : Spelling (.closeArray :: ts) (']' :: t) := .punctuation rfl trivial h
      cases items with
      | nil =>
          cases hw with
          | emptyArray hgap =>
              have hopen := Spelling.punctuation (c := '[') rfl trivial
                (.blanks_append hgap.all_isBlank hclose)
              simpa only [tokens, List.cons_append, List.append_assoc, List.nil_append] using hopen
      | cons v vs =>
          cases hw with
          | array hgap hv hvs =>
              have hmore := spelling_of_itemsStandAs vs hvs (.cons rfl t) hclose
              have hfirst := spelling_of_standsAs v hv
                (endsNumber_of_itemsStandAs hvs (.cons rfl t)) hmore
              have hopen := Spelling.punctuation (c := '[') rfl trivial
                (.blanks_append hgap.all_isBlank hfirst)
              simpa only [tokens, List.cons_append, List.append_assoc, List.nil_append] using hopen
  | object members =>
      have hclose : Spelling (.closeObject :: ts) ('\x7d' :: t) := .punctuation rfl trivial h
      cases members with
      | nil =>
          cases hw with
          | emptyObject hgap =>
              have hopen := Spelling.punctuation (c := '\x7b') rfl trivial
                (.blanks_append hgap.all_isBlank hclose)
              simpa only [tokens, List.cons_append, List.append_assoc, List.nil_append] using hopen
      | cons m ms =>
          obtain ⟨name, v⟩ := m
          cases hw with
          | object hm hms =>
              have hmore := spelling_of_membersStandAs ms hms (.cons rfl t) hclose
              have hend := endsNumber_of_membersStandAs hms (.cons (c := '\x7d') rfl t)
              have hfirst := spelling_of_memberStandsAs hm fun hv =>
                spelling_of_standsAs v hv hend hmore
              have hopen := Spelling.punctuation (c := '\x7b') rfl trivial hfirst
              simpa only [tokens, List.cons_append, List.append_assoc, List.nil_append] using hopen

/-- What stands for the items behind the first spells their tokens. -/
theorem spelling_of_itemsStandAs (vs : List Value) {w t : Text} {ts : List Token}
    (hw : ItemsStandAs vs w) (ht : EndsNumber t) (h : Spelling ts t) :
    Spelling (moreItemTokens vs ++ ts) (w ++ t) := by
  cases vs with
  | nil =>
      cases hw with
      | nil hgap => exact h.blanks_append hgap.all_isBlank
  | cons v vs =>
      cases hw with
      | cons hbefore hafter hv hvs =>
          have hmore := spelling_of_itemsStandAs vs hvs ht h
          have hfirst := spelling_of_standsAs v hv (endsNumber_of_itemsStandAs hvs ht) hmore
          have hcomma := Spelling.punctuation (c := ',') rfl trivial
            (.blanks_append hafter.all_isBlank hfirst)
          have hall := Spelling.blanks_append hbefore.all_isBlank hcomma
          simpa only [moreItemTokens, List.cons_append, List.append_assoc] using hall

/-- What stands for the members behind the first spells their tokens. -/
theorem spelling_of_membersStandAs (ms : List (Units × Value)) {w t : Text} {ts : List Token}
    (hw : MembersStandAs ms w) (ht : EndsNumber t) (h : Spelling ts t) :
    Spelling (moreMemberTokens ms ++ ts) (w ++ t) := by
  cases ms with
  | nil =>
      cases hw with
      | nil hgap => exact h.blanks_append hgap.all_isBlank
  | cons m ms =>
      obtain ⟨name, v⟩ := m
      cases hw with
      | cons hgap hm hms =>
          have hmore := spelling_of_membersStandAs ms hms ht h
          have hfirst := spelling_of_memberStandsAs hm fun hv =>
            spelling_of_standsAs v hv (endsNumber_of_membersStandAs hms ht) hmore
          have hcomma := Spelling.punctuation (c := ',') rfl trivial hfirst
          have hall := Spelling.blanks_append hgap.all_isBlank hcomma
          simpa only [moreMemberTokens, List.cons_append, List.append_assoc] using hall

end

namespace Value

/-- Each text of a value spells its tokens. -/
theorem spelling_of_isText {v : Value} {t : Text} (h : v.IsText t) : Spelling v.tokens t := by
  obtain ⟨before, w, after, rfl, hbefore, hw, hafter⟩ := h
  have hend : Token.EndsNumber after := List.append_nil after ▸ hafter.endsNumber nofun
  have hvalue := spelling_of_standsAs v hw hend (.nil hafter.all_isBlank)
  rw [List.append_nil] at hvalue
  rw [List.append_assoc]
  exact hvalue.blanks_append hbefore.all_isBlank

/-- **Every text of the grammar is read**, as the value it stands for. -/
theorem read?_of_isText {v : Value} {t : Text} (h : v.IsText t) : read? t = some v :=
  read?_of_spelling (spelling_of_isText h)

end Value

end DocComment.Json
