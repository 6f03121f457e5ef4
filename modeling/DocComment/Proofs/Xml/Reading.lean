import Mathlib.Tactic.Common
import DocComment.Xml.Document

/-!
Reading a document on from the middle. `Progress.read` is what becomes of the rest of a document
once a given progress has been made, so that a document made of pieces can be read piece by
piece.

* **One token** is taken by one step (`read_cons`); the end of the text ends the reading
  (`read_nil`).
* **Text inside an element** is read character by character (`read_plain`), although a token of
  text is a whole run: appending a run in one go or in two makes no difference
  (`pushText_pushText`).
* **References** append the character they stand for (`read_reference`).
-/

namespace DocComment.Xml

/-! ### Appending to content -/

namespace Element

/-- Two texts appended one after the other are one text. -/
lemma appendText_appendText (s t : Text) (content : List Node) :
    appendText t (appendText s content) = appendText (s ++ t) content := by
  induction content using appendText.induct with
  | case1 => rfl
  | case2 last => simp only [appendText, List.append_assoc]
  | case3 n ns hne ih =>
      have hns : ∀ last, ¬ (n = .text last ∧ appendText s ns = []) := by
        rintro last ⟨-, hnil⟩
        cases ns with
        | nil => simp [appendText] at hnil
        | cons m ms =>
            have := congrArg List.length hnil
            cases m <;> cases ms <;> simp [appendText] at this
      rw [appendText.eq_3 _ _ _ hne, appendText.eq_3 _ _ _ hne, appendText.eq_3, ih]
      exact fun last h hnil => hns last ⟨h, hnil⟩

end Element

namespace Nest

/-- Two texts appended one after the other are one text. -/
lemma pushText_pushText (n : Nest) (s t : Text) :
    (n.pushText s).pushText t = n.pushText (s ++ t) := by
  simp only [pushText, Element.pushText, Element.appendText_appendText]

end Nest

namespace Progress

/-! ### One token at a time -/

/-- Reads the rest of a document once some progress has been made. -/
def read (p : Progress) (t : Text) : Except Error Element :=
  match p.steps (scan t).tokens with
  | .error e => .error e
  | .ok q =>
    match (scan t).fault with
    | some e => .error e
    | none => q.finish

/-- A document is read from the very beginning. -/
lemma readDocument_eq_read (t : Text) : readDocument t = before.read (dropByteOrderMark t) := rfl

/-- At the end of the text it shows whether the document is complete. -/
lemma read_nil (p : Progress) : p.read [] = p.finish := by
  rw [read, scan]
  rfl

lemma scan_cons {c : Char} {t : Text} {cut : Token.Cut} (h : Token.next c t = .ok cut) :
    scan (c :: t) = ⟨cut.token :: (scan cut.rest).tokens, (scan cut.rest).fault⟩ := by
  rw [scan]
  split
  · rename_i e he
    rw [h] at he
    cases he
  · rename_i cut' hcut
    rw [h] at hcut
    cases hcut
    rfl

/-- One token is taken, then the rest is read. -/
lemma read_cons (p : Progress) {c : Char} {t : Text} {cut : Token.Cut}
    (h : Token.next c t = .ok cut) :
    p.read (c :: t) = (p.step cut.token).bind fun q => q.read cut.rest := by
  rw [read, scan_cons h, steps]
  cases p.step cut.token with
  | error e => rfl
  | ok q => rfl

/-! ### Text inside an element -/

lemma next_of_isPlain {c : Char} (h : Token.isPlain c = true) (t : Text) :
    Token.next c t = .ok ⟨.text (c :: t.takeWhile Token.isPlain), t.dropWhile Token.isPlain⟩ := by
  have hc : c ≠ '<' ∧ c ≠ '&' := by simpa [Token.isPlain] using h
  rw [Token.next, if_neg hc.1, if_neg hc.2]

/-- Inside an element a plain character is appended to the text, whatever follows it. -/
lemma read_plain (n : Nest) {c : Char} (h : Token.isPlain c = true) (t : Text) :
    (inside n).read (c :: t) = (inside (n.pushText [c])).read t := by
  have hrun : (inside n).read (c :: t) =
      (inside (n.pushText (c :: t.takeWhile Token.isPlain))).read (t.dropWhile Token.isPlain) :=
    read_cons _ (next_of_isPlain h t)
  rw [hrun]
  cases t with
  | nil => rfl
  | cons d t =>
      by_cases hd : Token.isPlain d = true
      · -- the run goes on, and the rest of it is the next token
        have hrest : (inside (n.pushText [c])).read (d :: t) =
            (inside ((n.pushText [c]).pushText (d :: t.takeWhile Token.isPlain))).read
              (t.dropWhile Token.isPlain) :=
          read_cons _ (next_of_isPlain hd t)
        rw [hrest, Nest.pushText_pushText, List.takeWhile_cons_of_pos hd,
          List.dropWhile_cons_of_pos hd]
        rfl
      · rw [List.takeWhile_cons_of_neg hd, List.dropWhile_cons_of_neg hd]

/-! ### References -/

lemma next_reference {name : Text} (h : ∀ c ∈ name, Token.endsName c = false) (t : Text) :
    Token.next '&' (name ++ ';' :: t) = .ok ⟨.reference name, t⟩ := by
  have hall : ∀ c ∈ name, (!Token.endsName c) = true := fun c hc => by rw [h c hc]; rfl
  rw [Token.next, if_neg (by decide), if_pos rfl, Token.referenceAfter,
    List.dropWhile_append_of_pos hall, List.takeWhile_append_of_pos hall]
  have hd : (';' :: t).dropWhile (!Token.endsName ·) = ';' :: t :=
    List.dropWhile_cons_of_neg (by decide)
  have ht : (';' :: t).takeWhile (!Token.endsName ·) = [] :=
    List.takeWhile_cons_of_neg (by decide)
  rw [hd, ht, List.append_nil]
  rfl

/-- Inside an element a reference appends the character it stands for. -/
lemma read_reference (n : Nest) {name : Text} {c : Char}
    (hname : ∀ d ∈ name, Token.endsName d = false) (hc : Reference.ofContent name = .ok c)
    (t : Text) :
    (inside n).read ('&' :: name ++ ';' :: t) = (inside (n.pushText [c])).read t := by
  rw [List.cons_append, read_cons _ (next_reference hname t)]
  show ((Reference.ofContent name).map fun c => inside (n.pushText [c])).bind _ = _
  rw [hc]
  rfl

end Progress

end DocComment.Xml
