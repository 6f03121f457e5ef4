import DocComment.Proofs.Xml.Piece
import DocComment.Proofs.Xml.Violation

/-!
What becomes of an accepted document that is written on.

* **The root stays.** Once the root is closed, no token can change it, and only what is ignored
  outside the root is taken (`steps_after_eq_ok_iff`).
* **The cut does not matter.** An accepted document is made of pieces, so that whatever follows it
  is read on from its root (`readDocument_append_of_eq_ok`), also if the last token of the shorter
  text is a part of a token of the longer one.
* **No document is read as another one** (`readDocument_append_eq_ok_iff`): neither can an accepted
  document be cut down to a smaller one, nor can anything that is appended change it.
-/

namespace DocComment.Xml

namespace Progress

/-! ### After the root -/

/-- Once the root is closed, only what is ignored is taken, and it changes nothing. -/
lemma steps_after_eq_ok_iff {root : Element} {tokens : List Token} {q : Progress} :
    (after root).steps tokens = .ok q ↔
      q = after root ∧ ∀ token ∈ tokens, token.isIgnored = true := by
  constructor
  · intro h
    induction tokens with
    | nil => exact ⟨(Except.ok.inj h).symm, List.forall_mem_nil _⟩
    | cons token tokens ih =>
        obtain ⟨p, hstep, hrest⟩ := exists_of_steps_cons h
        cases moves_of_step hstep with
        | skipAfter _ hignored =>
            obtain ⟨hq, htokens⟩ := ih hrest
            exact ⟨hq, List.forall_mem_cons.mpr ⟨hignored, htokens⟩⟩
  · rintro ⟨rfl, h⟩
    exact steps_of_isIgnored rfl h

/-- Once the root is closed, a text is read with this root, and only if it can be cut into tokens
that are ignored. -/
lemma read_after_eq_ok_iff {root e : Element} {t : Text} :
    (after root).read t = .ok e ↔
      e = root ∧ (scan t).fault = none ∧ ∀ token ∈ (scan t).tokens, token.isIgnored = true := by
  constructor
  · intro h
    rw [read] at h
    split at h
    · cases h
    · rename_i q hsteps
      obtain ⟨rfl, hignored⟩ := steps_after_eq_ok_iff.mp hsteps
      split at h
      · cases h
      · rename_i hfault
        exact ⟨(Except.ok.inj h).symm, hfault, hignored⟩
  · rintro ⟨rfl, hfault, hignored⟩
    rw [read, steps_of_isIgnored rfl hignored, hfault]
    rfl

end Progress

/-! ### Accepted documents -/

/-- An accepted document is made of pieces that lead to its root. -/
lemma exists_isCutInto_of_readDocument {t : Text} {root : Element}
    (h : readDocument t = .ok root) :
    ∃ tokens, IsCutInto tokens (dropByteOrderMark t) ∧
      Progress.before.steps tokens = .ok (.after root) := by
  obtain ⟨hfault, hsteps⟩ := scan_of_readDocument h
  exact ⟨_, isCutInto_scan hfault, hsteps⟩

lemma dropByteOrderMark_cons {c : Char} (hc : c ≠ '\uFEFF') (t : Text) :
    dropByteOrderMark (c :: t) = c :: t := by
  rw [dropByteOrderMark]
  exact fun u hu => hc (List.cons.inj hu).1

/-- A byte order mark stands at the front of whatever is written on. -/
lemma dropByteOrderMark_append {s : Text} (hs : s ≠ []) (t : Text) :
    dropByteOrderMark (s ++ t) = dropByteOrderMark s ++ t := by
  cases s with
  | nil => exact absurd rfl hs
  | cons c s =>
      by_cases hc : c = '\uFEFF'
      · subst hc
        rfl
      · rw [List.cons_append, dropByteOrderMark_cons hc, dropByteOrderMark_cons hc,
          List.cons_append]

/-- What follows an accepted document is read on from its root. -/
lemma readDocument_append_of_eq_ok {s : Text} {root : Element} (hs : readDocument s = .ok root)
    (t : Text) : readDocument (s ++ t) = (Progress.after root).read t := by
  have hne : s ≠ [] := by
    rintro rfl
    have hnil : readDocument [] = .error .missingRoot := Progress.read_nil .before
    rw [hnil] at hs
    cases hs
  obtain ⟨tokens, hcut, hsteps⟩ := exists_isCutInto_of_readDocument hs
  rw [Progress.readDocument_eq_read, dropByteOrderMark_append hne, hcut.read, hsteps]
  rfl

/-- **No document is read as another one.** A text that begins with an accepted document, wherever
that ends, is accepted with the same root or not at all. It is accepted if what is appended can be
cut into tokens that are ignored outside the root. -/
theorem readDocument_append_eq_ok_iff {s : Text} {x : Element} (hs : readDocument s = .ok x)
    (t : Text) (y : Element) :
    readDocument (s ++ t) = .ok y ↔
      y = x ∧ (scan t).fault = none ∧ ∀ token ∈ (scan t).tokens, token.isIgnored = true := by
  rw [readDocument_append_of_eq_ok hs]
  exact Progress.read_after_eq_ok_iff

/-- An empty root, cut off in the white space after it and written on with a comment. -/
theorem readDocument_append_comment :
    readDocument "<a/> ".toList = .ok { tag := { name := ['a'], selfClosing := true } } ∧
      readDocument ("<a/> ".toList ++ " <!-- <b/> -->".toList) =
        .ok { tag := { name := ['a'], selfClosing := true } } := by
  have hread : readDocument "<a/> ".toList =
      .ok { tag := { name := ['a'], selfClosing := true } } := by
    have hscan : scan (dropByteOrderMark "<a/> ".toList) =
        ⟨[.emptyTag ['a'], .text [' ']], none⟩ := by cbv
    have hroot : Progress.Moves .before (.emptyTag ['a'])
        (.after { tag := { name := ['a'], selfClosing := true } }) :=
      .emptyRoot (Tag.read_bare true (List.forall_mem_singleton.mpr rfl))
    rw [readDocument_eq_complete, hscan, Progress.steps_cons_of_step (Progress.step_of_moves hroot)]
    rfl
  have hscan : scan " <!-- <b/> -->".toList = ⟨[.text [' '], .silent], none⟩ := by cbv
  refine ⟨hread, (readDocument_append_eq_ok_iff hread _ _).mpr ⟨rfl, ?_⟩⟩
  rw [hscan]
  exact ⟨rfl, List.forall_mem_cons.mpr ⟨rfl, List.forall_mem_singleton.mpr rfl⟩⟩

end DocComment.Xml
