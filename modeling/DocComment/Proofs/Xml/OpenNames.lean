import DocComment.Proofs.Xml.Step

/-!
End tags are checked in one place and elements are closed in another.

* **Cutting.** The names of the open elements can be told from the tokens alone
  (`Token.namesAfter`). A cutting that keeps these names on a stack of its own makes an end tag
  with the wrong name a fault like any other (`tokenize`).
* **Building.** `build` trusts the cutting: an end tag closes whatever element is innermost, and
  one outside the root, which no cutting lets through, is an `unexpectedEnd`.
* **The two stacks stay in step** (`names_of_step`), so that the two layers together read just
  what is read in one (`buildDocument_eq`), and no end tag is ever unexpected.
-/

namespace DocComment.Xml

/-! ### The names of open elements -/

namespace Token

/-- The names of the open elements after a token, from the inside out. -/
def namesAfter (names : List Text) : Token → List Text
  | .startTag source => Tag.nameIn source :: names
  | .endTag _ => names.tail
  | _ => names

/-- What is wrong with the name in an end tag. -/
def endFault? (names : List Text) : Token → Option Error
  | .endTag name =>
    match names with
    | [] => some (.strayEnd name)
    | expected :: _ => if name = expected then none else some (.mismatchedEnd expected name)
  | _ => none

end Token

/-- Cuts tokens off at the first end tag with the wrong name, or at a fault that comes after
them. -/
def checkEnds (names : List Text) (fault : Option Error) : List Token → Scan
  | [] => ⟨[], fault⟩
  | token :: rest =>
    match token.endFault? names with
    | some e => ⟨[], some e⟩
    | none =>
      let tail := checkEnds (token.namesAfter names) fault rest
      ⟨token :: tail.tokens, tail.fault⟩

/-- Cuts a document into tokens, with its end tags checked. -/
def tokenize (t : Text) : Scan :=
  let s := scan (dropByteOrderMark t)
  checkEnds [] s.fault s.tokens

/-! ### Building without checks -/

/-- Why no document can be built. -/
inductive Refusal where
  | malformed (error : Error)
  | unexpectedEnd (name : Text)

namespace Progress

/-- Takes one token further and closes an element without a look at its name. -/
def build (p : Progress) : Token → Except Refusal Progress
  | .endTag name =>
    match p with
    | inside nest =>
      match nest.close? with
      | some rest => .ok (inside rest)
      | none => .ok (after nest.top)
    | _ => .error (.unexpectedEnd name)
  | token => (p.step token).mapError .malformed

/-- Takes tokens further, from left to right. -/
def buildAll : Progress → List Token → Except Refusal Progress
  | p, [] => .ok p
  | p, token :: rest => (p.build token).bind fun q => buildAll q rest

/-- The root, if the cutting has come to the end of the text. -/
def complete (fault : Option Error) (p : Progress) : Except Error Element :=
  match fault with
  | some e => .error e
  | none => p.finish

end Progress

/-- Reads a document in two layers: the end tags are checked where it is cut, and elements are
closed where it is built. -/
def buildDocument (t : Text) : Except Refusal Element :=
  (Progress.before.buildAll (tokenize t).tokens).bind fun p =>
    (p.complete (tokenize t).fault).mapError .malformed

/-! ### The two stacks -/

/-- The names of the elements in a nest, from the inside out. -/
def Nest.names (n : Nest) : List Text :=
  n.top.tag.name :: n.outer.map fun e => e.tag.name

namespace Progress

/-- The names of the open elements, from the inside out. -/
def names : Progress → List Text
  | before => []
  | inside nest => nest.names
  | after _ => []

/-- What is ignored outside the root opens and closes nothing. -/
lemma namesAfter_of_isIgnored {names : List Text} {token : Token} (h : token.isIgnored = true) :
    token.namesAfter names = names := by
  cases token with
  | text | silent => rfl
  | _ => cases h

/-- **The names stay in step**: a step that is taken leaves open what the token leaves open. -/
lemma names_of_step {p q : Progress} {token : Token} (h : p.step token = .ok q) :
    q.names = token.namesAfter p.names := by
  cases moves_of_step h with
  | skipBefore hignored => exact (namesAfter_of_isIgnored hignored).symm
  | skipAfter root hignored => exact (namesAfter_of_isIgnored hignored).symm
  | openRoot hread => exact congrArg (· :: []) (Tag.of_read hread).1
  | startTag nest hread => exact congrArg (· :: nest.names) (Tag.of_read hread).1
  | emptyRoot | text | cdata | reference | silent | emptyTag | close | closeRoot => rfl

/-- A wrong end tag stops the reading. -/
lemma step_of_endFault {p : Progress} {token : Token} {e : Error}
    (h : token.endFault? p.names = some e) : p.step token = .error e := by
  cases token with
  | endTag name =>
      cases p with
      | before => exact congrArg Except.error (Option.some.inj h)
      | after root => exact congrArg Except.error (Option.some.inj h)
      | inside nest =>
          simp only [Token.endFault?, names, Nest.names] at h
          simp only [step, stepInside]
          split at h
          · cases h
          · rename_i hname
            rw [if_neg hname, Option.some.inj h]
  | _ => cases h

/-- Once the end tags are checked, nothing is lost by building without a look at names. -/
lemma build_of_endFault_none {p : Progress} {token : Token}
    (h : token.endFault? p.names = none) :
    p.build token = (p.step token).mapError .malformed := by
  cases token with
  | endTag name =>
      cases p with
      | before => cases h
      | after root => cases h
      | inside nest =>
          simp only [Token.endFault?, names, Nest.names] at h
          split at h
          · rename_i hname
            simp only [build, step, stepInside, if_pos hname]
            cases nest.close? <;> rfl
          · cases h
  | _ => rfl

/-- If everything is taken, the check of the end tags finds nothing. -/
lemma checkEnds_of_steps {p q : Progress} {tokens : List Token} (h : p.steps tokens = .ok q)
    (fault : Option Error) : checkEnds p.names fault tokens = ⟨tokens, fault⟩ := by
  induction tokens generalizing p with
  | nil => rfl
  | cons token tokens ih =>
      obtain ⟨next, hstep, hrest⟩ := exists_of_steps_cons h
      rw [checkEnds]
      cases hfault : token.endFault? p.names with
      | some e =>
          rw [step_of_endFault hfault] at hstep
          cases hstep
      | none => simp only [← names_of_step hstep, ih hrest]

/-- **Two layers are as good as one**, from any progress whose names are on the stack. -/
lemma buildAll_checkEnds (p : Progress) (fault : Option Error) (tokens : List Token) :
    ((p.buildAll (checkEnds p.names fault tokens).tokens).bind fun q =>
        (q.complete (checkEnds p.names fault tokens).fault).mapError .malformed) =
      ((p.steps tokens).bind (complete fault)).mapError .malformed := by
  induction tokens generalizing p with
  | nil => rfl
  | cons token rest ih =>
      rw [checkEnds, steps]
      cases hfault : token.endFault? p.names with
      | some e =>
          rw [step_of_endFault hfault]
          rfl
      | none =>
          simp only [buildAll, build_of_endFault_none hfault]
          cases hstep : p.step token with
          | error e => rfl
          | ok q =>
              rw [← names_of_step hstep]
              exact ih q

end Progress

lemma readDocument_eq_complete (t : Text) :
    readDocument t =
      (Progress.before.steps (scan (dropByteOrderMark t)).tokens).bind
        (Progress.complete (scan (dropByteOrderMark t)).fault) := by
  rw [readDocument, rootOf]
  cases Progress.before.steps (scan (dropByteOrderMark t)).tokens <;> rfl

/-- An accepted document is cut to its end, and its tokens lead to its root. -/
lemma scan_of_readDocument {t : Text} {root : Element} (h : readDocument t = .ok root) :
    (scan (dropByteOrderMark t)).fault = none ∧
      Progress.before.steps (scan (dropByteOrderMark t)).tokens = .ok (.after root) := by
  rw [readDocument_eq_complete] at h
  obtain ⟨p, hsteps, hcomplete⟩ := exists_of_bind_eq_ok h
  cases hfault : (scan (dropByteOrderMark t)).fault with
  | some e =>
      rw [hfault] at hcomplete
      cases hcomplete
  | none =>
      rw [hfault] at hcomplete
      cases p with
      | after r =>
          cases hcomplete
          exact ⟨rfl, hsteps⟩
      | before | inside => cases hcomplete

/-- The check of the end tags finds nothing in an accepted document. -/
lemma steps_of_readDocument {t : Text} {root : Element} (h : readDocument t = .ok root) :
    (tokenize t).fault = none ∧
      Progress.before.steps (tokenize t).tokens = .ok (.after root) := by
  obtain ⟨hfault, hsteps⟩ := scan_of_readDocument h
  have htokenize : tokenize t = scan (dropByteOrderMark t) :=
    Progress.checkEnds_of_steps hsteps _
  rw [htokenize]
  exact ⟨hfault, hsteps⟩

/-- **Two layers read just what one layer reads.** -/
theorem buildDocument_eq (t : Text) :
    buildDocument t = (readDocument t).mapError .malformed := by
  rw [readDocument_eq_complete]
  exact Progress.buildAll_checkEnds .before _ _

end DocComment.Xml
