import DocComment.Text.Split
import Mathlib.Data.List.Infix

/-!
Cuts that are settled by what stands before them.

* **Local cuts.** A reader that cuts a text in two is local if the first part alone settles the
  cut: with anything else behind it, the same part is cut off (`IsLocal`). Many readers end at a
  certain character (`EndsAt`), and may first look whether a mark without this character stands at
  the front (`EndsAt.ifMark`).
* **Marks.** Cutting at the first place where a mark stands is local (`isLocal_breakOn`), and so
  is cutting at a character outside quotations (`isLocal_breakUnquoted`).
* **Where the first place is.** If the last character of a mark stands nowhere else in it, a text
  without the mark is cut off by the mark that follows it (`breakOn_of_not_infix`).
-/

namespace DocComment.Text

/-! ### Local cuts -/

/-- Whether a reader takes just the text `used`, whatever follows it. `outcome` is what it gives
for each text that is left. -/
def Takes {α : Type} (reader : Text → α) (used : Text) (outcome : Text → α) : Prop :=
  ∀ rest, reader (used ++ rest) = outcome rest

/-- Whether the cuts that a reader makes with a given outcome are settled by what it takes. -/
def IsLocal {α : Type} (reader : Text → α) (outcome : Text → α) : Prop :=
  ∀ t rest, reader t = outcome rest → ∃ used, t = used ++ rest ∧ Takes reader used outcome

/-- Where nothing cannot be read, something is taken. -/
lemma IsLocal.exists_cons {α : Type} {reader outcome : Text → α} (h : IsLocal reader outcome)
    (hnil : reader [] ≠ outcome []) {c : Char} {t rest : Text}
    (ht : reader (c :: t) = outcome rest) :
    ∃ used, t = used ++ rest ∧ Takes reader (c :: used) outcome := by
  obtain ⟨used, happ, htakes⟩ := h _ _ ht
  cases used with
  | nil => exact absurd (htakes []) hnil
  | cons d used =>
      obtain ⟨rfl, rfl⟩ := List.cons.inj happ
      exact ⟨used, rfl, htakes⟩

/-- Whether a reader is local and what it takes ends with a given character. -/
def EndsAt (c : Char) (reader : Text → Option Text) : Prop :=
  ∀ t rest, reader t = some rest →
    ∃ before, t = before ++ c :: rest ∧ ∀ other, reader (before ++ c :: other) = some other

section EndsAt

variable {c : Char} {f g : Text → Option Text}

lemma EndsAt.isLocal (hf : EndsAt c f) : IsLocal f some := by
  intro t rest h
  obtain ⟨before, rfl, hother⟩ := hf t rest h
  refine ⟨before ++ [c], (List.append_cons _ _ _), fun other => ?_⟩
  rw [← List.append_cons]
  exact hother other

/-- A local reader may run first. -/
lemma EndsAt.bind (hf : IsLocal f some) (hg : EndsAt c g) : EndsAt c fun t => (f t).bind g := by
  intro t rest h
  obtain ⟨middle, hfirst, hsecond⟩ := Option.bind_eq_some_iff.mp h
  obtain ⟨used, rfl, htakes⟩ := hf t middle hfirst
  obtain ⟨before, rfl, hother⟩ := hg middle rest hsecond
  refine ⟨used ++ before, (List.append_assoc _ _ _).symm, fun other => ?_⟩
  show (f (used ++ before ++ c :: other)).bind g = some other
  rw [List.append_assoc, htakes, Option.bind_some, hother]

/-- A condition that is settled before the last character may choose between two readers. -/
lemma EndsAt.ite {p : Text → Bool} (hp : ∀ before rest, p (before ++ c :: rest) = p before)
    (hf : EndsAt c f) (hg : EndsAt c g) : EndsAt c fun t => if p t then f t else g t := by
  intro t rest h
  cases ht : p t with
  | true =>
      simp only [ht, if_true] at h
      obtain ⟨before, rfl, hother⟩ := hf t rest h
      rw [hp] at ht
      exact ⟨before, rfl, fun other => by simp only [hp, ht, if_true, hother]⟩
  | false =>
      simp only [ht, Bool.false_eq_true, if_false] at h
      obtain ⟨before, rfl, hother⟩ := hg t rest h
      rw [hp] at ht
      exact ⟨before, rfl, fun other => by
        simp only [hp, ht, Bool.false_eq_true, if_false, hother]⟩

end EndsAt

/-! ### Marks -/

/-- Whether a mark stands at the front of a text is settled before a character that the mark does
not have. -/
lemma isPrefixOf_append_cons {mark : Text} {c : Char} (hc : c ∉ mark) (before rest : Text) :
    mark.isPrefixOf (before ++ c :: rest) = mark.isPrefixOf before := by
  induction mark generalizing before with
  | nil => simp
  | cons d mark ih =>
      obtain ⟨hd, hmark⟩ := not_or.mp (fun h => hc (List.mem_cons.mpr h))
      cases before with
      | nil => simp [List.isPrefixOf, Ne.symm hd]
      | cons e before =>
          rw [List.cons_append, List.isPrefixOf_cons_cons, List.isPrefixOf_cons_cons, ih hmark]

lemma dropMark?_eq_some_iff {mark t rest : Text} :
    dropMark? mark t = some rest ↔ t = mark ++ rest := by
  rw [dropMark?]
  constructor
  · intro h
    split at h
    · rename_i hmark
      obtain ⟨u, rfl⟩ := List.isPrefixOf_iff_prefix.mp hmark
      rw [List.drop_left] at h
      rw [Option.some.inj h]
    · cases h
  · rintro rfl
    rw [if_pos (List.isPrefixOf_iff_prefix.mpr (List.prefix_append _ _)), List.drop_left]

lemma dropMark?_eq_none_iff {mark t : Text} :
    dropMark? mark t = none ↔ mark.isPrefixOf t = false := by
  rw [dropMark?]
  cases mark.isPrefixOf t with
  | true => simp
  | false => simp

/-- A mark at the front may choose between a reader of what follows it and a reader of all. -/
lemma EndsAt.ifMark {c : Char} {f g : Text → Option Text} {mark : Text} (hc : c ∉ mark)
    (hf : EndsAt c f) (hg : EndsAt c g) :
    EndsAt c fun t =>
      match dropMark? mark t with
      | some body => f body
      | none => g t := by
  intro t rest h
  cases hmark : dropMark? mark t with
  | some body =>
      simp only [hmark] at h
      obtain ⟨before, rfl, hother⟩ := hf body rest h
      refine ⟨mark ++ before, by rw [dropMark?_eq_some_iff.mp hmark, List.append_assoc],
        fun other => ?_⟩
      have hfound : dropMark? mark (mark ++ before ++ c :: other) = some (before ++ c :: other) :=
        dropMark?_eq_some_iff.mpr (List.append_assoc _ _ _)
      simp only [hfound, hother]
  | none =>
      simp only [hmark] at h
      obtain ⟨before, rfl, hother⟩ := hg t rest h
      rw [dropMark?_eq_none_iff, isPrefixOf_append_cons hc] at hmark
      refine ⟨before, rfl, fun other => ?_⟩
      have hno : dropMark? mark (before ++ c :: other) = none := by
        rw [dropMark?_eq_none_iff, isPrefixOf_append_cons hc, hmark]
      simp only [hno, hother]

/-! ### The first place where a mark stands -/

/-- A mark is found at the front. -/
lemma breakOn_mark {mark : Text} (hmark : mark ≠ []) (rest : Text) :
    breakOn mark (mark ++ rest) = some ([], rest) := by
  have hfront : dropMark? mark (mark ++ rest) = some rest := dropMark?_eq_some_iff.mpr rfl
  cases mark with
  | nil => exact absurd rfl hmark
  | cons c mark =>
      rw [List.cons_append] at hfront ⊢
      rw [breakOn, hfront]

/-- Behind a place where the mark does not stand, the search goes on. -/
lemma breakOn_cons {mark t : Text} {c : Char} (h : ¬ mark <+: c :: t) :
    breakOn mark (c :: t) = (breakOn mark t).map fun cut => (c :: cut.1, cut.2) := by
  have hno : dropMark? mark (c :: t) = none := by
    rw [dropMark?_eq_none_iff, ← Bool.not_eq_true, List.isPrefixOf_iff_prefix]
    exact h
  rw [breakOn, hno]
  cases breakOn mark t with
  | none => rfl
  | some cut => rfl

/-- What is cut off at a mark is cut off there whatever follows the mark. -/
lemma breakOn_eq_some {mark t before after : Text} (hmark : mark ≠ [])
    (h : breakOn mark t = some (before, after)) :
    t = before ++ mark ++ after ∧
      Takes (breakOn mark) (before ++ mark) (fun rest => some (before, rest)) := by
  induction t generalizing before with
  | nil => cases h
  | cons c t ih =>
      by_cases hfront : mark <+: c :: t
      · obtain ⟨rest, hrest⟩ := hfront
        rw [← hrest, breakOn_mark hmark] at h
        cases h
        exact ⟨hrest.symm, fun rest => breakOn_mark hmark rest⟩
      · rw [breakOn_cons hfront, Option.map_eq_some_iff] at h
        obtain ⟨⟨b, a⟩, hcut, hpair⟩ := h
        cases hpair
        obtain ⟨rfl, htakes⟩ := ih hcut
        refine ⟨rfl, fun rest => ?_⟩
        -- the mark is no longer than what is cut off, so it cannot reach into the rest
        have hno : ¬ mark <+: c :: (b ++ mark ++ rest) := by
          intro hmore
          have hlength : mark.length ≤ (c :: (b ++ mark)).length := by
            simp only [List.length_cons, List.length_append]
            omega
          have hwithin : mark <+: c :: (b ++ mark) :=
            List.prefix_of_prefix_length_le hmore (List.prefix_append (c :: (b ++ mark)) rest)
              hlength
          exact hfront (hwithin.trans (List.prefix_append (c :: (b ++ mark)) a))
        show breakOn mark (c :: (b ++ mark ++ rest)) = _
        rw [breakOn_cons hno, htakes rest]
        rfl

/-- **Cutting at a mark** is local. -/
lemma isLocal_breakOn {mark : Text} (hmark : mark ≠ []) (before : Text) :
    IsLocal (breakOn mark) (fun rest => some (before, rest)) := fun _ _ h =>
  ⟨before ++ mark, breakOn_eq_some hmark h⟩

lemma endsAt_after? (stem : Text) (c : Char) : EndsAt c (after? (stem ++ [c])) := by
  intro t rest h
  obtain ⟨⟨before, after⟩, hcut, hrest⟩ := Option.map_eq_some_iff.mp h
  obtain rfl : after = rest := hrest
  obtain ⟨rfl, htakes⟩ := breakOn_eq_some (by simp) hcut
  refine ⟨before ++ stem, by simp, fun other => ?_⟩
  have hsame : before ++ stem ++ c :: other = before ++ (stem ++ [c]) ++ other := by simp
  rw [after?, hsame, htakes other]
  rfl

/-- A mark whose last character stands nowhere else in it does not begin in a text without the
mark and end in the mark that follows the text. -/
lemma not_isPrefix_of_not_infix {stem : Text} {c d : Char} (hc : c ∉ stem) {body : Text}
    (h : ¬ stem ++ [c] <:+: d :: body) (rest : Text) :
    ¬ stem ++ [c] <+: d :: (body ++ (stem ++ [c]) ++ rest) := by
  intro hfront
  by_cases hlength : (stem ++ [c]).length ≤ (d :: body).length
  · have hwithin : stem ++ [c] <+: d :: body :=
      List.prefix_of_prefix_length_le hfront
        ((List.prefix_append (d :: body) _).trans (List.prefix_append _ rest)) hlength
    exact h hwithin.isInfix
  · -- the last character of the mark would be one of the stem
    obtain ⟨u, hu⟩ := hfront
    have hlast : (d :: body ++ (stem ++ [c]) ++ rest)[stem.length]? = some c := by
      rw [show d :: body ++ (stem ++ [c]) ++ rest = stem ++ [c] ++ u from hu.symm]
      simp
    have hle : (d :: body).length ≤ stem.length := by
      simp only [List.length_append, List.length_singleton] at hlength
      omega
    rw [List.append_assoc, List.getElem?_append_right hle, List.append_assoc,
      List.getElem?_append_left (by simp only [List.length_cons] at hle ⊢; omega)] at hlast
    exact hc (List.mem_of_getElem? hlast)

/-- **A text without a mark** is cut off by the mark that follows it. -/
lemma breakOn_of_not_infix {stem : Text} {c : Char} (hc : c ∉ stem) {body : Text}
    (h : ¬ stem ++ [c] <:+: body) (rest : Text) :
    breakOn (stem ++ [c]) (body ++ (stem ++ [c]) ++ rest) = some (body, rest) := by
  induction body with
  | nil => exact breakOn_mark (by simp) rest
  | cons d body ih =>
      have hbody : ¬ stem ++ [c] <:+: body := fun hin =>
        h (hin.trans (List.infix_cons List.infix_rfl))
      have hno := not_isPrefix_of_not_infix hc h rest
      show breakOn (stem ++ [c]) (d :: (body ++ (stem ++ [c]) ++ rest)) = _
      rw [breakOn_cons hno, ih hbody]
      rfl

/-! ### Quotations -/

lemma breakUnquoted_eq_ok {stop : Char} {quote : Option Char} {t before after : Text}
    (h : breakUnquoted stop quote t = .ok (before, after)) :
    t = before ++ stop :: after ∧
      ∀ other, breakUnquoted stop quote (before ++ stop :: other) = .ok (before, other) := by
  induction t generalizing quote before with
  | nil => cases h
  | cons c t ih =>
      by_cases hstop : (quote.isNone && c == stop) = true
      · rw [breakUnquoted, if_pos hstop] at h
        cases h
        obtain rfl : c = stop := beq_iff_eq.mp (Bool.and_eq_true_iff.mp hstop).2
        refine ⟨rfl, fun other => ?_⟩
        rw [List.nil_append, breakUnquoted, if_pos hstop]
      · rw [breakUnquoted, if_neg hstop] at h
        split at h
        · rename_i b a hcut
          cases h
          obtain ⟨rfl, hother⟩ := ih hcut
          refine ⟨rfl, fun other => ?_⟩
          rw [List.cons_append, breakUnquoted, if_neg hstop, hother]
        · cases h

/-- **Cutting at a character outside quotations** is local. -/
lemma isLocal_breakUnquoted (stop : Char) (quote : Option Char) (before : Text) :
    IsLocal (breakUnquoted stop quote) (fun rest => .ok (before, rest)) := by
  intro t rest h
  obtain ⟨rfl, hother⟩ := breakUnquoted_eq_ok h
  refine ⟨before ++ [stop], List.append_cons _ _ _, fun other => ?_⟩
  rw [← List.append_cons]
  exact hother other

lemma endsAt_breakUnquoted (stop : Char) (quote : Option Char) :
    EndsAt stop fun t => (breakUnquoted stop quote t).toOption.map Prod.snd := by
  intro t rest h
  obtain ⟨⟨before, after⟩, hcut, hrest⟩ := Option.map_eq_some_iff.mp h
  obtain rfl : after = rest := hrest
  have hok : breakUnquoted stop quote t = .ok (before, after) := by
    cases ht : breakUnquoted stop quote t with
    | error q => simp [ht, Except.toOption] at hcut
    | ok cut => simpa [ht, Except.toOption] using hcut
  obtain ⟨rfl, hother⟩ := breakUnquoted_eq_ok hok
  refine ⟨before, rfl, fun other => ?_⟩
  simp only [hother]
  rfl

end DocComment.Text
