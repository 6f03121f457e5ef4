import DocComment.Text.CharClass

/-!
Cutting a text at a mark. Every cut gives what stands before the mark and what stands after it,
and what stands after is no longer than the text, which is what ends the loops that cut again.
-/

namespace DocComment.Text

/-- The rest of a text that begins with a mark. -/
def dropMark? (mark : Text) (t : Text) : Option Text :=
  if mark.isPrefixOf t then some (t.drop mark.length) else none

theorem length_of_dropMark? {mark t rest : Text} (h : dropMark? mark t = some rest) :
    rest.length + mark.length = t.length := by
  unfold dropMark? at h
  split at h
  · rename_i hp
    have hle := (List.isPrefixOf_iff_prefix.mp hp).length_le
    cases h
    rw [List.length_drop]
    omega
  · cases h

/-- Cuts a text at the first place where a mark stands. -/
def breakOn (mark : Text) : Text → Option (Text × Text)
  | [] => none
  | c :: t =>
    match dropMark? mark (c :: t) with
    | some rest => some ([], rest)
    | none =>
      match breakOn mark t with
      | some (before, after) => some (c :: before, after)
      | none => none

theorem length_of_breakOn {mark t before after : Text}
    (h : breakOn mark t = some (before, after)) :
    before.length + mark.length + after.length = t.length := by
  induction t generalizing before with
  | nil => simp [breakOn] at h
  | cons c t ih =>
    rw [breakOn] at h
    split at h
    · rename_i rest hrest
      cases h
      have := length_of_dropMark? hrest
      simp only [List.length_nil]
      omega
    · split at h
      · rename_i b a hb
        cases h
        have := ih hb
        simp only [List.length_cons]
        omega
      · cases h

/-- What follows the first place where a mark stands. -/
def after? (mark : Text) (t : Text) : Option Text :=
  (breakOn mark t).map Prod.snd

theorem length_of_after? {mark t rest : Text} (h : after? mark t = some rest) :
    rest.length + mark.length ≤ t.length := by
  rw [after?, Option.map_eq_some_iff] at h
  obtain ⟨⟨before, after⟩, hb, rfl⟩ := h
  have := length_of_breakOn hb
  simp only
  omega

/-! ### Cuts outside quotes -/

/-- Whether a character opens a quotation. -/
def isQuote (c : Char) : Bool :=
  c == '"' || c == '\''

/-- The quotation in which the text after a character stands, if any. -/
def quoteAfter (quote : Option Char) (c : Char) : Option Char :=
  match quote with
  | none => if isQuote c then some c else none
  | some q => if c == q then none else some q

/-- Cuts a text at the first character `stop` outside quotations. If there is none, the error is
the quotation that is open at the end. -/
def breakUnquoted (stop : Char) (quote : Option Char) : Text → Except (Option Char) (Text × Text)
  | [] => .error quote
  | c :: t =>
    if quote.isNone && c == stop then .ok ([], t)
    else
      match breakUnquoted stop (quoteAfter quote c) t with
      | .ok (before, after) => .ok (c :: before, after)
      | .error q => .error q

theorem length_of_breakUnquoted {stop : Char} {quote : Option Char} {t before after : Text}
    (h : breakUnquoted stop quote t = .ok (before, after)) :
    before.length + 1 + after.length = t.length := by
  induction t generalizing quote before with
  | nil => simp [breakUnquoted] at h
  | cons c t ih =>
    rw [breakUnquoted] at h
    split at h
    · cases h
      simp only [List.length_cons, List.length_nil]
      omega
    · split at h
      · rename_i b a hb
        cases h
        have := ih hb
        simp only [List.length_cons]
        omega
      · cases h

end DocComment.Text
