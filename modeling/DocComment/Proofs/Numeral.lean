import DocComment.Text.Numeral
import Mathlib.Tactic.Common

/-!
What numerals stand for.

* **Numerals.** `IsNumeral` says what a row of digits stands for, with any number of zeros in
  front.
* **Reading.** A numeral is read as its number, as long as that is within bounds
  (`readDigits_of_isNumeral`). How many digits there are bounds the number (`IsNumeral.lt_pow`).
* **Zero.** Only a row of zeros is read as zero (`readDigits_eq_zero_iff`).
* **Integers** are numerals with at most one sign in front, and these are what `readSigned` reads
  (`readSigned_eq_some_iff`).
-/

namespace DocComment.Text

/-- Digits of a radix that stand for a number. -/
def IsNumeral (radix : ℕ) (t : Text) (n : ℕ) : Prop :=
  t ≠ [] ∧ ∃ ds : List ℕ, t.map (digit? radix) = ds.map some ∧
    ds.foldl (fun m d => m * radix + d) 0 = n

lemma le_foldl_digits {radix : ℕ} (hr : 0 < radix) (ds : List ℕ) (m : ℕ) :
    m ≤ ds.foldl (fun m d => m * radix + d) m := by
  induction ds generalizing m with
  | nil => exact Nat.le_refl m
  | cons d ds ih =>
      have hm : m ≤ m * radix := Nat.le_mul_of_pos_right m hr
      exact Nat.le_trans (by omega) (ih (m * radix + d))

lemma readMore_of_digits {radix bound : ℕ} (hr : 0 < radix) (t : Text) (ds : List ℕ) (m : ℕ)
    (hds : t.map (digit? radix) = ds.map some)
    (hle : ds.foldl (fun m d => m * radix + d) m ≤ bound) :
    readMore radix bound m t = .ok (ds.foldl (fun m d => m * radix + d) m) := by
  induction t generalizing m ds with
  | nil =>
      have hnil : ds = [] := by simpa using hds.symm
      subst hnil
      rfl
  | cons c t ih =>
      cases ds with
      | nil => simp at hds
      | cons d ds =>
          simp only [List.map_cons, List.cons.injEq] at hds
          have hstep : m * radix + d ≤ bound := Nat.le_trans (le_foldl_digits hr ds _) hle
          rw [readMore, hds.1]
          show (if m * radix + d ≤ bound then _ else _) = _
          rw [if_pos hstep]
          exact ih ds (m * radix + d) hds.2 hle

/-- A numeral is read as the number it stands for, if that is not above the bound. -/
lemma readDigits_of_isNumeral {radix bound n : ℕ} {t : Text} (hr : 0 < radix)
    (h : IsNumeral radix t n) (hn : n ≤ bound) : readDigits radix bound t = .ok n := by
  obtain ⟨hne, ds, hds, rfl⟩ := h
  cases t with
  | nil => exact absurd rfl hne
  | cons c t => exact readMore_of_digits hr (c :: t) ds 0 hds hn

/-- Digits are ASCII digits or letters. -/
lemma isAlphanum_of_digit? {radix d : ℕ} {c : Char} (h : digit? radix c = some d) :
    c.isAlphanum = true := by
  have hrange : ∀ {a b : Char}, a ≤ c ∧ c ≤ b →
      (decide (c.val ≥ a.val) && decide (c.val ≤ b.val)) = true := by
    intro a b hd
    rw [Bool.and_eq_true, decide_eq_true_iff, decide_eq_true_iff]
    exact hd
  by_contra hc
  have hnot : ¬ ('0' ≤ c ∧ c ≤ '9') ∧ ¬ ('a' ≤ c ∧ c ≤ 'z') ∧ ¬ ('A' ≤ c ∧ c ≤ 'Z') := by
    refine ⟨fun hd => hc ?_, fun hd => hc ?_, fun hd => hc ?_⟩
    · exact (Bool.or_eq_true _ _).mpr (.inr (hrange hd))
    · exact (Bool.or_eq_true _ _).mpr (.inl ((Bool.or_eq_true _ _).mpr (.inr (hrange hd))))
    · have hupper : c.isUpper = true :=
        decide_eq_true (show c.val ≥ 'A'.val ∧ c.val ≤ 'Z'.val from hd)
      exact (Bool.or_eq_true _ _).mpr (.inl ((Bool.or_eq_true _ _).mpr (.inl hupper)))
  simp [digit?, if_neg hnot.1, if_neg hnot.2.1, if_neg hnot.2.2] at h

lemma IsNumeral.isAlphanum {radix n : ℕ} {t : Text} (h : IsNumeral radix t n) :
    ∀ c ∈ t, c.isAlphanum = true := by
  obtain ⟨-, ds, hds, -⟩ := h
  intro c hc
  have hmem : digit? radix c ∈ ds.map some := hds ▸ List.mem_map_of_mem hc
  obtain ⟨d, -, hd⟩ := List.mem_map.mp hmem
  exact isAlphanum_of_digit? hd.symm

lemma digit?_lt {radix d : ℕ} {c : Char} (h : digit? radix c = some d) : d < radix := by
  obtain ⟨hlt, hvalue⟩ := Option.ite_none_right_eq_some.mp h
  exact Option.some.inj hvalue ▸ hlt

lemma foldl_digits_lt {radix : ℕ} {ds : List ℕ} (h : ∀ d ∈ ds, d < radix) (m : ℕ) :
    ds.foldl (fun m d => m * radix + d) m < (m + 1) * Nat.pow radix ds.length := by
  induction ds generalizing m with
  | nil => exact Nat.lt_of_lt_of_eq (Nat.lt_succ_self m) (Nat.mul_one (m + 1)).symm
  | cons d ds ih =>
      obtain ⟨hd, hds⟩ := List.forall_mem_cons.mp h
      have hnext : m * radix + d + 1 ≤ (m + 1) * radix := by
        rw [Nat.add_mul, Nat.one_mul]
        omega
      calc (d :: ds).foldl (fun m d => m * radix + d) m
          < (m * radix + d + 1) * Nat.pow radix ds.length := ih hds (m * radix + d)
        _ ≤ ((m + 1) * radix) * Nat.pow radix ds.length := Nat.mul_le_mul_right _ hnext
        _ = (m + 1) * (Nat.pow radix ds.length * radix) := by
          rw [Nat.mul_assoc, Nat.mul_comm radix]

/-- A numeral with so many digits stands for a number below that power of the radix. -/
lemma IsNumeral.lt_pow {radix n : ℕ} {t : Text} (h : IsNumeral radix t n) :
    n < Nat.pow radix t.length := by
  obtain ⟨-, ds, hds, rfl⟩ := h
  have hlt : ∀ d ∈ ds, d < radix := by
    intro d hd
    have hmem : some d ∈ t.map (digit? radix) := hds ▸ List.mem_map_of_mem hd
    obtain ⟨c, -, hc⟩ := List.mem_map.mp hmem
    exact digit?_lt hc
  have hlength : t.length = ds.length := by simpa using congrArg List.length hds
  have hbound := foldl_digits_lt hlt 0
  rwa [Nat.zero_add, Nat.one_mul, ← hlength] at hbound

/-! ### Zero -/

/-- Only the digit zero stands for zero. -/
lemma digit?_eq_zero_iff {radix : ℕ} (hr : 0 < radix) {c : Char} :
    digit? radix c = some 0 ↔ c = '0' := by
  constructor
  · intro h
    simp only [digit?, Option.ite_none_right_eq_some, Option.some.injEq] at h
    obtain ⟨hlt, hvalue⟩ := h
    have hle : ∀ a b : Char, a ≤ b → a.toNat ≤ b.toNat := fun _ _ hab => hab
    split_ifs at hvalue hlt with hdigit hlower hupper
    · have := hle _ _ hdigit.1
      exact Char.toNat_inj.mp (by omega)
    · exact absurd hlt (Nat.lt_irrefl radix)
  · rintro rfl
    simp [digit?, hr]

/-- Digits after a number stand for zero only if the number and all digits are zero. -/
lemma readMore_eq_zero_iff {radix bound : ℕ} (hr : 0 < radix) (t : Text) (n : ℕ) :
    readMore radix bound n t = .ok 0 ↔ n = 0 ∧ ∀ c ∈ t, c = '0' := by
  induction t generalizing n with
  | nil => simp [readMore]
  | cons c t ih =>
      rw [readMore, List.forall_mem_cons, ← digit?_eq_zero_iff hr]
      cases digit? radix c with
      | none => simp
      | some d =>
          have hzero : n * radix + d = 0 ↔ n = 0 ∧ d = 0 := by
            rw [Nat.add_eq_zero_iff, Nat.mul_eq_zero, or_iff_left (Nat.ne_of_gt hr)]
          simp only [Option.some.injEq]
          split
          · rw [ih, hzero, and_assoc]
          · rename_i hbound
            refine iff_of_false (by simp) fun h => hbound ?_
            rw [hzero.mpr ⟨h.1, h.2.1⟩]
            exact Nat.zero_le bound

lemma readDigits_eq_zero_iff {radix bound : ℕ} (hr : 0 < radix) {t : Text} :
    readDigits radix bound t = .ok 0 ↔ t ≠ [] ∧ ∀ c ∈ t, c = '0' := by
  cases t with
  | nil => simp [readDigits]
  | cons c t => simp [readDigits, readMore_eq_zero_iff hr]

/-! ### Integers -/

/-- Decimal digits that stand for an integer, with at most one sign in front. -/
inductive IsInteger : Text → Int → Prop where
  | unsigned {t : Text} {n : ℕ} (h : IsNumeral 10 t n) : IsInteger t n
  | plus {t : Text} {n : ℕ} (h : IsNumeral 10 t n) : IsInteger ('+' :: t) n
  | minus {t : Text} {n : ℕ} (h : IsNumeral 10 t n) : IsInteger ('-' :: t) (-(n : Int))

/-- The decimal digits are the ASCII digits. -/
lemma digit?_ten (c : Char) :
    digit? 10 c = if c.isDigit = true then some (c.toNat - '0'.toNat) else none := by
  have hdigit : c.isDigit = true ↔ '0' ≤ c ∧ c ≤ '9' := by
    rw [Char.isDigit, Bool.and_eq_true, decide_eq_true_iff, decide_eq_true_iff]
    exact Iff.rfl
  have hle : c ≤ '9' → c.toNat ≤ 57 := fun h => h
  simp only [digit?, hdigit]
  by_cases hc : '0' ≤ c ∧ c ≤ '9'
  · have hvalue : c.toNat - '0'.toNat < 10 := by
      have hnine := hle hc.2
      have hzero : '0'.toNat = 48 := rfl
      omega
    rw [if_pos hc, if_pos hvalue]
    simp [hc]
  · rw [if_neg hc, if_neg hc]
    split_ifs
    · omega
    · rfl
    · omega
    · rfl
    · omega
    · rfl

lemma isNumeral_ten_iff {t : Text} {n : ℕ} :
    IsNumeral 10 t n ↔ isDigits t = true ∧ digitsValue t = n := by
  let value (c : Char) : ℕ := c.toNat - '0'.toNat
  have hdigits : isDigits t = true ↔ t ≠ [] ∧ ∀ c ∈ t, c.isDigit = true := by
    simp [isDigits]
  have hmap : (∀ c ∈ t, c.isDigit = true) → t.map (digit? 10) = (t.map value).map some := by
    intro hall
    rw [List.map_map]
    exact List.map_congr_left fun c hc => by rw [digit?_ten, if_pos (hall c hc)]; rfl
  have hfold : (t.map value).foldl (fun m d => m * 10 + d) 0 = digitsValue t := by
    rw [List.foldl_map]
    rfl
  rw [hdigits]
  constructor
  · rintro ⟨hne, ds, hds, rfl⟩
    have hall : ∀ c ∈ t, c.isDigit = true := by
      intro c hc
      have hmem : digit? 10 c ∈ ds.map some := hds ▸ List.mem_map_of_mem hc
      obtain ⟨d, -, hd⟩ := List.mem_map.mp hmem
      rw [digit?_ten] at hd
      by_contra hnot
      simp [hnot] at hd
    have hvalues : ds = t.map value :=
      (List.map_inj_right fun _ _ => Option.some.inj).mp (hds.symm.trans (hmap hall))
    exact ⟨⟨hne, hall⟩, by rw [hvalues, hfold]⟩
  · rintro ⟨⟨hne, hall⟩, rfl⟩
    exact ⟨hne, t.map value, hmap hall, hfold⟩

/-- Integers are what is read. -/
lemma readSigned_eq_some_iff {t : Text} {n : Int} : readSigned t = some n ↔ IsInteger t n := by
  constructor
  · intro h
    unfold readSigned at h
    split at h
    · obtain ⟨hdigits, hn⟩ := Option.ite_none_right_eq_some.mp h
      rw [← Option.some.inj hn]
      exact .minus (isNumeral_ten_iff.mpr ⟨hdigits, rfl⟩)
    · obtain ⟨hdigits, hn⟩ := Option.ite_none_right_eq_some.mp h
      rw [← Option.some.inj hn]
      exact .plus (isNumeral_ten_iff.mpr ⟨hdigits, rfl⟩)
    · obtain ⟨hdigits, hn⟩ := Option.ite_none_right_eq_some.mp h
      rw [← Option.some.inj hn]
      exact .unsigned (isNumeral_ten_iff.mpr ⟨hdigits, rfl⟩)
  · intro h
    cases h with
    | plus hnumeral =>
        obtain ⟨hdigits, rfl⟩ := isNumeral_ten_iff.mp hnumeral
        exact if_pos hdigits
    | minus hnumeral =>
        obtain ⟨hdigits, rfl⟩ := isNumeral_ten_iff.mp hnumeral
        exact if_pos hdigits
    | unsigned hnumeral =>
        obtain ⟨hdigits, rfl⟩ := isNumeral_ten_iff.mp hnumeral
        unfold readSigned
        -- Neither sign is a digit, so digits alone are read as they are.
        split
        · cases hdigits
        · cases hdigits
        · exact if_pos hdigits

/-! ### Characters -/

/-- The code of a character is the code of that character alone. -/
lemma charOfCode?_toNat (c : Char) : charOfCode? c.toNat = some c := by
  rw [charOfCode?, if_pos (show c.toNat.isValidChar from c.valid), Char.ofNat_toNat]

end DocComment.Text
